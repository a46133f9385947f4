import TrafficAnalyzer.Server.Shutdown

/-!
# The pool as a stack of workers

`pool_spawn_one_locked` takes the lowest free slot and `pool_down_cb` the highest active one,
so until `pool_join_all` is over the slots are a stack: the workers that have not been stopped,
the youngest at the end.

* `Stacked`: the slots, the counts and the scaler agree with a stack of workers.
* `serverStep_stacked`: `pool_spawn_one_locked` pushes, and the end of `pool_down_cb` pops.
* `pool_ordered`: the shape of the pool in every state, and whom `pool_down_cb` stops.
-/

namespace TrafficAnalyzer

/-! ## The slots as a stack -/

/-- The number and the thread of the worker in an active slot. -/
def TrafficPool.worker (p : TrafficPool) (idx : Nat) : Option (Nat × Nat) :=
  p.slots[idx]?.bind fun slot => if slot.active then some (slot.workerId, slot.tid) else none

/-- The active slots are the places of a stack, from the oldest worker to the youngest. -/
structure Stacked (s : Server) (st : List (Nat × Nat)) : Prop where
  slots : ∀ idx, s.pool.worker idx = st[idx]?
  count : s.pool.count = st.length
  size : s.poolSize = st.length
  sorted : st.Pairwise fun a b => a.1 < b.1 ∧ a.2 < b.2
  below : ∀ w ∈ st, w.1 < s.pool.nextId ∧ w.2 < s.workers.length
  spawning : ∀ left, s.main = .spawning left → s.scaler = .off
  emptying : ∀ idx, s.scaler.Empties idx → idx + 1 = st.length
  joining : ∀ idx tid, s.scaler = .joining idx tid →
    ∃ slot, s.pool.slots[idx]? = some slot ∧ slot.active = true ∧ slot.tid = tid ∧ slot.stop = true

section Stack

variable {s s' : Server} {st : List (Nat × Nat)} {p : TrafficPool} {idx : Nat}

theorem worker_thread (p : TrafficPool) (idx : Nat) :
    p.thread idx = (p.worker idx).map Prod.snd := by
  unfold TrafficPool.thread TrafficPool.worker
  cases p.slots[idx]? with
  | none => rfl
  | some slot => by_cases hact : slot.active = true <;> simp [hact]

theorem worker_active (p : TrafficPool) (idx : Nat) :
    p.isActive idx = (p.worker idx).isSome := by
  rw [TrafficPool.isActive, worker_thread, Option.isSome_map]

theorem lt_max_of_worker {w : Nat × Nat} (h : p.worker idx = some w) : idx < p.max := by
  have hthread : p.thread idx = some w.2 := by
    rw [worker_thread, h]
    rfl
  exact lt_max_of_thread hthread

theorem worker_update (p : TrafficPool) (idx : Nat) (f : PoolSlot → PoolSlot) (j : Nat) :
    (p.update idx f).worker j =
      if idx = j then
        p.slots[j]?.bind fun slot =>
          if (f slot).active then some ((f slot).workerId, (f slot).tid) else none
      else p.worker j := by
  simp only [TrafficPool.worker, TrafficPool.update, List.getElem?_modify]
  cases p.slots[j]? with
  | none => simp
  | some slot => by_cases h : idx = j <;> simp [h]

theorem Stacked.isActive (h : Stacked s st) (idx : Nat) :
    s.pool.isActive idx = true ↔ idx < st.length := by
  simp [worker_active, h.slots]

theorem Stacked.length_le (h : Stacked s st) : st.length ≤ s.pool.max := by
  rcases Nat.eq_zero_or_pos st.length with hzero | hpos
  · exact hzero ▸ Nat.zero_le _
  · have hlast : st.length - 1 < st.length := Nat.sub_one_lt (Nat.ne_of_gt hpos)
    have hworker := h.slots (st.length - 1)
    rw [List.getElem?_eq_getElem hlast] at hworker
    have hmax := lt_max_of_worker hworker
    omega

/-- The lowest free slot is the one behind the stack. -/
theorem Stacked.firstFree (h : Stacked s st) (hfree : s.pool.firstFree = some idx) :
    idx = st.length ∧ idx < s.pool.max := by
  obtain ⟨hidx, i, hi, hget, hbefore⟩ := List.find?_eq_some_iff_getElem.mp hfree
  rw [List.getElem_range] at hget
  subst hget
  refine ⟨Nat.le_antisymm ?_ ?_, by simpa using hi⟩
  · by_contra hgap
    have hactive := hbefore st.length (Nat.lt_of_not_le hgap)
    rw [List.getElem_range] at hactive
    have hin := (h.isActive st.length).mp (by simpa using hactive)
    exact absurd hin (Nat.lt_irrefl _)
  · by_contra hin
    have hactive := (h.isActive i).mpr (Nat.lt_of_not_le hin)
    simp [hactive] at hidx

/-- The highest active slot is the last place of the stack. -/
theorem Stacked.lastActive (h : Stacked s st) (hlast : s.pool.lastActive = some idx) :
    idx + 1 = st.length := by
  obtain ⟨hidx, i, hi, hget, hbefore⟩ := List.find?_eq_some_iff_getElem.mp hlast
  have hin := (h.isActive idx).mp hidx
  have hmax := h.length_le
  simp only [List.length_reverse, List.length_range] at hi
  simp only [List.getElem_reverse, List.getElem_range, List.length_range] at hget hbefore
  refine Nat.le_antisymm hin ?_
  by_contra hhigher
  have hnot := hbefore (s.pool.max - 1 - (st.length - 1)) (by omega)
  have hactive := (h.isActive (st.length - 1)).mpr (by omega)
  rw [show s.pool.max - 1 - (s.pool.max - 1 - (st.length - 1)) = st.length - 1 by omega] at hnot
  simp [hactive] at hnot

/-! ## The steps -/

/-- What a step does to the stack. -/
inductive StackMove (st : List (Nat × Nat)) : List (Nat × Nat) → Prop
  | keep : StackMove st st
  | push {w} : (∀ a ∈ st, a.1 < w.1 ∧ a.2 < w.2) → StackMove st (st ++ [w])
  | pop : StackMove st st.dropLast

theorem worker_update_keep (p : TrafficPool) (idx : Nat) {f : PoolSlot → PoolSlot}
    (hf : ∀ slot, (f slot).active = slot.active ∧ (f slot).workerId = slot.workerId ∧
      (f slot).tid = slot.tid) : (p.update idx f).worker = p.worker := by
  funext j
  rw [worker_update]
  split
  · simp only [TrafficPool.worker, hf]
  · rfl

/-- An update of a free slot that leaves it free. -/
theorem worker_update_free {f : PoolSlot → PoolSlot} (hfree : p.worker idx = none)
    (hf : ∀ slot, (f slot).active = slot.active) : (p.update idx f).worker = p.worker := by
  funext j
  rw [worker_update]
  split
  · next hj =>
    subst hj
    rw [hfree]
    unfold TrafficPool.worker at hfree
    cases hslot : p.slots[idx]? with
    | none => rfl
    | some slot =>
      rw [hslot, Option.bind_some] at hfree
      split at hfree
      · cases hfree
      · next hact =>
        rw [Option.bind_some, hf, if_neg hact]
  · rfl

theorem worker_update_clear (p : TrafficPool) (idx : Nat) {f : PoolSlot → PoolSlot}
    (hf : ∀ slot, (f slot).active = false) (j : Nat) :
    (p.update idx f).worker j = if idx = j then none else p.worker j := by
  rw [worker_update]
  split
  · cases p.slots[j]? <;> simp [hf]
  · rfl

theorem Stacked.free (h : Stacked s st) : s.pool.worker st.length = none := by
  rw [h.slots, List.getElem?_eq_none (Nat.le_refl _)]

/-- A step that keeps the workers in their slots. -/
theorem Stacked.keep (h : Stacked s st) (hslots : s'.pool.worker = s.pool.worker)
    (hcount : s'.pool.count = s.pool.count) (hsize : s'.poolSize = s.poolSize)
    (hnext : s.pool.nextId ≤ s'.pool.nextId) (hworkers : s'.workers.length = s.workers.length)
    (hspawning : ∀ left, s'.main = .spawning left → s'.scaler = .off)
    (hemptying : ∀ idx, s'.scaler.Empties idx → idx + 1 = st.length)
    (hjoining : ∀ idx tid, s'.scaler = .joining idx tid → ∃ slot, s'.pool.slots[idx]? = some slot ∧
      slot.active = true ∧ slot.tid = tid ∧ slot.stop = true) : Stacked s' st where
  slots := fun idx => by rw [hslots, h.slots]
  count := hcount.trans h.count
  size := hsize.trans h.size
  sorted := h.sorted
  below := fun w hw =>
    ⟨Nat.lt_of_lt_of_le (h.below w hw).1 hnext, hworkers ▸ (h.below w hw).2⟩
  spawning := hspawning
  emptying := hemptying
  joining := hjoining

theorem not_joining {t : ScalerThread} (hquiet : ∀ idx, ¬ t.Empties idx) (idx tid : Nat) :
    t ≠ .joining idx tid := fun hjoin => hquiet idx (by rw [hjoin]; rfl)

theorem Stacked.reset (h : Stacked s st) (hquiet : ∀ idx, ¬ s.scaler.Empties idx) :
    Stacked (s.resetSlot st.length) st :=
  h.keep (worker_update_free h.free fun _ => rfl) rfl rfl (Nat.le_succ _) rfl h.spawning h.emptying
    fun idx tid hjoin => absurd hjoin (not_joining hquiet idx tid)

/-- The new worker is on the top of the stack. -/
theorem Stacked.start (h : Stacked s st) (hmax : st.length < s.pool.max)
    (hquiet : ∀ idx, ¬ s.scaler.Empties idx) :
    Stacked ((s.resetSlot st.length).startWorker st.length)
      (st ++ [(s.pool.nextId, s.workers.length)]) where
  slots := by
    intro j
    have hslot : (s.resetSlot st.length).pool.slots[st.length]? =
        some { s.pool.slots[st.length] with workerId := s.pool.nextId, stop := false } := by
      simp [Server.resetSlot, TrafficPool.update, List.getElem?_eq_getElem hmax]
    refine (worker_update (s.resetSlot st.length).pool st.length _ j).trans ?_
    split
    · next hj =>
      subst hj
      rw [hslot, List.getElem?_concat_length]
      rfl
    · next hj =>
      rw [(h.reset hquiet).slots]
      rcases Nat.lt_or_gt_of_ne (Ne.symm hj) with hin | hout
      · rw [List.getElem?_append_left hin]
      · rw [List.getElem?_eq_none (Nat.le_of_lt hout), List.getElem?_eq_none]
        rw [List.length_append, List.length_singleton]
        exact hout
  count := by
    show s.pool.count + 1 = _
    rw [h.count, List.length_append, List.length_singleton, Int.natCast_succ]
  size := by
    show s.pool.count + 1 = _
    rw [h.count, List.length_append, List.length_singleton, Int.natCast_succ]
  sorted := by
    refine List.pairwise_append.mpr ⟨h.sorted, List.pairwise_singleton _ _, fun a ha b hb => ?_⟩
    rw [List.mem_singleton.mp hb]
    exact h.below a ha
  below := by
    have hlength : ((s.resetSlot st.length).startWorker st.length).workers.length =
        s.workers.length + 1 := List.length_append
    intro w hw
    rw [hlength]
    rcases List.mem_append.mp hw with hw | hw
    · exact ⟨Nat.lt_succ_of_lt (h.below w hw).1, Nat.lt_succ_of_lt (h.below w hw).2⟩
    · rw [List.mem_singleton.mp hw]
      exact ⟨Nat.lt_succ_self _, Nat.lt_succ_self _⟩
  spawning := h.spawning
  emptying := fun idx hidx => absurd hidx (hquiet idx)
  joining := fun idx tid hjoin => absurd hjoin (not_joining hquiet idx tid)

/-- `pool_spawn_one_locked` pushes a worker, or nothing. -/
theorem Stacked.spawn (h : Stacked s st) (hquiet : ∀ idx, ¬ s.scaler.Empties idx)
    (created : Bool) :
    ∃ st', StackMove st st' ∧ Stacked (poolSpawnOneLocked s created).1 st' := by
  unfold poolSpawnOneLocked
  split
  · exact ⟨st, .keep, h⟩
  · next idx hfree =>
    obtain ⟨rfl, hmax⟩ := h.firstFree hfree
    split
    · exact ⟨_, .push h.below, h.start hmax hquiet⟩
    · exact ⟨st, .keep, h.reset hquiet⟩

/-- The end of `pool_down_cb` pops the worker on the top. -/
theorem Stacked.clear (h : Stacked s st) {idx : Nat} (hidx : s.scaler.Empties idx) (now : Int) :
    Stacked { s with
      pool := { s.pool.update idx fun slot => { slot with active := false } with
        count := s.pool.count - 1 }
      poolSize := s.pool.count - 1
      scaler := .sleeping
      idleSince := now } st.dropLast where
  slots := by
    intro j
    have hlast := h.emptying idx hidx
    refine (worker_update_clear s.pool idx (fun _ => rfl) j).trans ?_
    rw [List.getElem?_dropLast, h.slots, ← hlast, Nat.add_sub_cancel]
    split
    · next hj => rw [if_neg (hj ▸ Nat.lt_irrefl _)]
    · next hj =>
      split
      · rfl
      · next hout => exact List.getElem?_eq_none (by omega)
  count := by
    have hlast := h.emptying idx hidx
    show s.pool.count - 1 = _
    rw [h.count, List.length_dropLast]
    omega
  size := by
    have hlast := h.emptying idx hidx
    show s.pool.count - 1 = _
    rw [h.count, List.length_dropLast]
    omega
  sorted := h.sorted.sublist (List.dropLast_sublist st)
  below := fun w hw => h.below w (List.dropLast_subset st hw)
  spawning := by
    intro left hmain
    have hoff := h.spawning left hmain
    rw [hoff] at hidx
    exact hidx.elim
  emptying := fun _ hempties => hempties.elim
  joining := nofun

/-- `pool_up_cb` pushes a worker, or nothing. -/
theorem Stacked.up (h : Stacked s st) (hquiet : ∀ idx, ¬ s.scaler.Empties idx) (created : Bool) :
    ∃ st', StackMove st st' ∧ Stacked (poolUpCb s created) st' := by
  unfold poolUpCb
  split
  · exact h.spawn hquiet created
  · exact ⟨st, .keep, h⟩

theorem poolUpCb_main (s : Server) (created : Bool) : (poolUpCb s created).main = s.main := by
  unfold poolUpCb
  split
  · exact (poolSpawnOneLocked_frame s created).1
  · rfl

/-- The slot in which `pool_down_cb` has set the stop flag. -/
theorem stopped_slot {tid : Nat} (h : p.thread idx = some tid) :
    ∃ slot, (p.update idx fun slot => { slot with stop := true }).slots[idx]? = some slot ∧
      slot.active = true ∧ slot.tid = tid ∧ slot.stop = true := by
  obtain ⟨slot, hslot, hthread⟩ := Option.bind_eq_some_iff.mp h
  split at hthread
  · next hactive =>
    cases hthread
    refine ⟨{ slot with stop := true }, ?_, hactive, rfl, rfl⟩
    simp [TrafficPool.update, hslot]
  · cases hthread

/-- A step that changes neither the pool nor the place of the scaler. -/
theorem Stacked.frame (h : Stacked s st) (hpool : s'.pool = s.pool) (hsize : s'.poolSize = s.poolSize)
    (hworkers : s'.workers.length = s.workers.length) (hscaler : s'.scaler = s.scaler)
    (hspawning : ∀ left, s'.main = .spawning left → ∃ left, s.main = .spawning left) :
    Stacked s' st := by
  refine h.keep (by rw [hpool]) (by rw [hpool]) hsize (Nat.le_of_eq (by rw [hpool])) hworkers
    ?_ ?_ ?_
  · intro left hmain
    obtain ⟨left, hmain⟩ := hspawning left hmain
    rw [hscaler]
    exact h.spawning left hmain
  · rw [hscaler]
    exact h.emptying
  · rw [hscaler, hpool]
    exact h.joining

/-- The step lemma: until `main` frees the slots, a step keeps the stack, pushes or pops. -/
theorem serverStep_stacked (h : Stacked s st) {cfg : ScalerCfg} {l : ServerLabel}
    (hs : serverStep cfg s l = some s') (hmain : ¬ s'.main.IsPast) :
    ∃ st', StackMove st st' ∧ Stacked s' st' := by
  cases serverStep_move hs with
  | signal => exact ⟨st, .keep, h.frame rfl rfl rfl rfl fun left hleft => ⟨left, hleft⟩⟩
  | @mainSpawn created left stop left' hspawn =>
    have hoff := h.spawning left hspawn
    obtain ⟨st', hmove, hst'⟩ := h.spawn (by rw [hoff]; exact fun _ => False.elim) created
    have hframe := poolSpawnOneLocked_frame s created
    exact ⟨st', hmove, hst'.frame rfl rfl rfl rfl fun _ _ => ⟨left, hframe.1.trans hspawn⟩⟩
  | mainReady hready hquiet =>
    refine ⟨st, .keep, h.keep rfl rfl rfl (Nat.le_refl _) rfl nofun ?_ ?_⟩
    · exact fun idx hidx => absurd hidx (hquiet idx)
    · exact fun idx tid hjoin => absurd hjoin (not_joining hquiet idx tid)
  | mainReadActive => exact ⟨st, .keep, h.frame rfl rfl rfl rfl nofun⟩
  | mainReadFree => exact ⟨st, .keep, h.frame rfl rfl rfl rfl nofun⟩
  | mainJoin =>
    exact ⟨st, .keep, h.frame rfl rfl (List.length_modify ..) rfl nofun⟩
  | mainClear => exact absurd (.inl rfl) hmain
  | mainJoinScaler => exact absurd (.inr (.inl rfl)) hmain
  | mainDestroy => exact absurd (.inr (.inr rfl)) hmain
  | scalerIdle hon _ hquiet =>
    refine ⟨st, .keep, h.keep rfl rfl rfl (Nat.le_refl _) rfl ?_ ?_ ?_⟩
    · exact fun left hleft => absurd (h.spawning left hleft) hon
    · exact fun idx hidx => absurd hidx (hquiet idx)
    · exact fun idx tid hjoin => absurd hjoin (not_joining hquiet idx tid)
  | @scalerUp created hup =>
    have hquiet : ∀ idx, ¬ s.scaler.Empties idx := by
      rw [hup]
      exact fun _ => False.elim
    obtain ⟨st', hmove, hst'⟩ := h.up hquiet created
    refine ⟨st', hmove, hst'.keep rfl rfl rfl (Nat.le_refl _) rfl ?_ (fun _ => False.elim) nofun⟩
    intro left hleft
    have hoff := h.spawning left ((poolUpCb_main s created).symm.trans hleft)
    rw [hup] at hoff
    cases hoff
  | @scalerDown now idx tid hdown hlast hthread =>
    refine ⟨st, .keep, h.keep (worker_update_keep s.pool idx fun _ => ⟨rfl, rfl, rfl⟩) rfl rfl
      (Nat.le_refl _) rfl ?_ ?_ ?_⟩
    · intro left hleft
      have hoff := h.spawning left hleft
      rw [hdown] at hoff
      cases hoff
    · rintro j rfl
      exact h.lastActive hlast
    · intro j u hjoin
      cases hjoin
      exact stopped_slot hthread
  | @scalerJoin idx tid hjoin =>
    refine ⟨st, .keep, h.keep rfl rfl rfl (Nat.le_refl _) (List.length_modify ..) ?_ ?_ nofun⟩
    · intro left hleft
      have hoff := h.spawning left hleft
      rw [hjoin] at hoff
      cases hoff
    · rintro j rfl
      exact h.emptying idx (by rw [hjoin]; rfl)
  | scalerClear hclear => exact ⟨_, .pop, h.clear (by rw [hclear]; rfl) _⟩
  | worker =>
    exact ⟨st, .keep, h.frame rfl rfl (List.length_set ..) rfl fun left hleft => ⟨left, hleft⟩⟩

/-! ## The runs -/

theorem boot_stacked (max numWorkers : Nat) : Stacked (.boot max numWorkers) [] where
  slots := by
    intro idx
    show ((List.replicate max _)[idx]?.bind _) = none
    rw [List.getElem?_replicate]
    split <;> rfl
  count := rfl
  size := rfl
  sorted := .nil
  below := nofun
  spawning := fun _ _ => rfl
  emptying := fun _ => False.elim
  joining := nofun

/-- `main` does not come back from behind `pool_join_all`. -/
theorem serverStep_past {cfg : ScalerCfg} {l : ServerLabel} (hs : serverStep cfg s l = some s')
    (hpast : s.main.IsPast) : s'.main.IsPast := by
  cases serverStep_move hs with
  | signal | scalerIdle | scalerDown | scalerJoin | scalerClear | worker => exact hpast
  | mainClear => exact .inl rfl
  | mainJoinScaler => exact .inr (.inl rfl)
  | mainDestroy => exact .inr (.inr rfl)
  | scalerUp => exact (poolUpCb_main s _).symm ▸ hpast
  | mainSpawn hmain | mainReady hmain | mainReadActive hmain | mainReadFree hmain | mainJoin hmain =>
    rw [hmain] at hpast
    rcases hpast with hpast | hpast | hpast <;> cases hpast

theorem run_stacked {cfg : ScalerCfg} {max numWorkers : Nat} {tr : List ServerStep}
    (h : Lts.Run (serverLts cfg) (.boot max numWorkers) tr s) (hmain : ¬ s.main.IsPast) :
    ∃ st, Stacked s st := by
  induction h with
  | nil => exact ⟨[], boot_stacked max numWorkers⟩
  | snoc _ hs ih =>
    obtain ⟨st, hst⟩ := ih fun hpast => hmain (serverStep_past hs hpast)
    obtain ⟨st', -, hst'⟩ := serverStep_stacked hst hs hmain
    exact ⟨st', hst'⟩

/-- The active slots are the first `count` ones, their workers in the order of their creation,
a failed spawn changes none of them, and `pool_down_cb` stops the youngest. -/
structure PoolOrdered (s : Server) : Prop where
  gapless : ∃ n : Nat, s.pool.count = n ∧ n ≤ s.pool.max ∧
    ∀ idx, s.pool.isActive idx = true ↔ idx < n
  ids : ∀ i j a b, i < j → s.pool.worker i = some a → s.pool.worker j = some b → a.1 < b.1
  size : s.poolSize = s.pool.count
  failed : ∀ created, (poolSpawnOneLocked s created).2 < 0 →
    (poolSpawnOneLocked s created).1.pool.count = s.pool.count ∧
      (poolSpawnOneLocked s created).1.pool.thread = s.pool.thread
  youngest : ∀ idx tid, s.scaler = .joining idx tid →
    (∃ slot, s.pool.slots[idx]? = some slot ∧ slot.active = true ∧ slot.tid = tid ∧
      slot.stop = true) ∧ ∀ j u, s.pool.thread j = some u → u ≤ tid
  clearing : ∀ idx, s.scaler = .clearing idx → (idx : Int) + 1 = s.pool.count

theorem Stacked.before (h : Stacked s st) {i j : Nat} {a b : Nat × Nat} (hij : i < j)
    (ha : s.pool.worker i = some a) (hb : s.pool.worker j = some b) : a.1 < b.1 ∧ a.2 < b.2 := by
  rw [h.slots] at ha hb
  obtain ⟨hi, rfl⟩ := List.getElem?_eq_some_iff.mp ha
  obtain ⟨hj, rfl⟩ := List.getElem?_eq_some_iff.mp hb
  exact List.pairwise_iff_getElem.mp h.sorted i j hi hj hij

/-- A spawn that fails leaves the active slots alone. -/
theorem Stacked.failed (h : Stacked s st) {created : Bool}
    (hfail : (poolSpawnOneLocked s created).2 < 0) :
    (poolSpawnOneLocked s created).1.pool.count = s.pool.count ∧
      (poolSpawnOneLocked s created).1.pool.thread = s.pool.thread := by
  unfold poolSpawnOneLocked at hfail ⊢
  split
  · exact ⟨rfl, rfl⟩
  · next idx hfree =>
    cases created with
    | false => exact ⟨rfl, resetSlot_thread s idx⟩
    | true =>
      -- a spawn that succeeds returns the new count
      rw [hfree] at hfail
      have hcount : s.pool.count + 1 < 0 := hfail
      rw [h.count] at hcount
      omega

/-- The thread that `pool_down_cb` waits for is the youngest one in the pool. -/
theorem Stacked.youngest (h : Stacked s st) {tid : Nat} (hjoin : s.scaler = .joining idx tid)
    {j u : Nat} (hu : s.pool.thread j = some u) : u ≤ tid := by
  have htop := h.emptying idx (by rw [hjoin]; rfl)
  obtain ⟨slot, hslot, hactive, rfl, -⟩ := h.joining idx tid hjoin
  rw [worker_thread] at hu
  obtain ⟨w, hw, rfl⟩ := Option.map_eq_some_iff.mp hu
  have hworker : s.pool.worker idx = some (slot.workerId, slot.tid) := by
    simp [TrafficPool.worker, hslot, hactive]
  have hin := (h.isActive j).mp (by rw [worker_active, hw]; rfl)
  rcases Nat.lt_or_eq_of_le (Nat.le_of_lt_succ (htop ▸ hin)) with hlower | rfl
  · exact Nat.le_of_lt (h.before hlower hw hworker).2
  · rw [hw] at hworker
    cases hworker
    exact Nat.le_refl _

theorem Stacked.ordered (h : Stacked s st) : PoolOrdered s where
  gapless := ⟨st.length, h.count, h.length_le, h.isActive⟩
  ids := fun _ _ _ _ hij ha hb => (h.before hij ha hb).1
  size := h.size.trans h.count.symm
  failed := fun _ hfail => h.failed hfail
  youngest := fun idx tid hjoin => ⟨h.joining idx tid hjoin, fun _ _ hu => h.youngest hjoin hu⟩
  clearing := by
    intro idx hclear
    have htop := h.emptying idx (by rw [hclear]; rfl)
    rw [h.count, ← htop, Int.natCast_succ]

/-- The pool in every state that `main` and the scaler reach before the slots are freed. -/
theorem pool_ordered {cfg : ScalerCfg} {max numWorkers : Nat} {tr : List ServerStep}
    (h : Lts.Run (serverLts cfg) (.boot max numWorkers) tr s) (hmain : ¬ s.main.IsPast) :
    PoolOrdered s := by
  obtain ⟨st, hst⟩ := run_stacked h hmain
  exact hst.ordered

end Stack

/-- A failed spawn between two workers, the second of which the scaler stops. -/
def stopSecond : List ServerLabel :=
  [.mainSpawn true, .mainReady true, .mainRead, .scalerCheck, .scalerQuery (some 1000),
    .scalerSize 100, .scalerUp false, .scalerWake, .scalerCheck, .scalerQuery (some 1000),
    .scalerSize 110, .scalerUp true, .scalerWake, .scalerCheck, .scalerQuery (some 0),
    .scalerSize 120, .scalerWake, .scalerCheck, .scalerQuery (some 0), .scalerSize 180,
    .scalerDown 180]

theorem pool_ordered_stopSecond :
    ∃ (tr : List ServerStep) (s : Server), Lts.Run (serverLts smallScaler) (.boot 2 1) tr s ∧
      s.scaler = .joining 1 1 ∧ s.pool.worker 0 = some (0, 0) ∧ s.pool.worker 1 = some (2, 1) ∧
        PoolOrdered s := by
  have hok : ((serverLts smallScaler).exec (.boot 2 1) stopSecond).map
      (fun r => (r.2.main, r.2.scaler, r.2.pool.worker 0, r.2.pool.worker 1)) =
      some (.waiting 0 0, .joining 1 1, some (0, 0), some (2, 1)) := by
    decide +kernel
  obtain ⟨tr, s, hrun, hval⟩ := Lts.run_of_exec hok
  simp only [Prod.mk.injEq] at hval
  obtain ⟨hmain, hscaler, hfirst, hsecond⟩ := hval
  refine ⟨tr, s, hrun, hscaler, hfirst, hsecond, pool_ordered hrun ?_⟩
  rw [hmain]
  rintro (hpast | hpast | hpast) <;> cases hpast

end TrafficAnalyzer
