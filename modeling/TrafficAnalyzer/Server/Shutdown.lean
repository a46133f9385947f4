import TrafficAnalyzer.Lib.Ledger
import TrafficAnalyzer.Server.Pool

/-!
# The shutdown of the pool

`main` waits in `pool_join_all` from its start on, while the scaler starts and stops
workers. A slot that is active owes the join of its thread until `pool_join_all` or
`pool_down_cb` has joined it: the threads are the tokens of a ledger whose holders are the
slots.

* `PoolInv`: the ledger is balanced, and what each party has read is still so.
* `serverStep_inv`: every step keeps it that does not clash.
* `pool_shutdown_safe`: every worker is joined exactly once and the count is right, as
  long as `pool_join_all` and the scaler keep out of each other's slots.
-/

namespace TrafficAnalyzer

/-! ## Who joins whom -/

/-- `pool_join_all` has read the slot. -/
def MainThread.HasRead (m : MainThread) (idx : Nat) : Prop :=
  match m with
  | .spawning _ => False
  | .joining i => idx < i
  | .waiting i _ => idx ≤ i
  | _ => True

/-- The slot that `pool_join_all` reads next. -/
def MainThread.next : MainThread → Option Nat
  | .joining i => some i
  | _ => none

/-- `pool_join_all` is done with the slot. -/
def MainThread.HasJoined (m : MainThread) (idx : Nat) : Prop :=
  match m with
  | .spawning _ => False
  | .joining i | .waiting i _ => idx < i
  | _ => True

/-- `main` is past `pool_join_all`. -/
def MainThread.IsPast (m : MainThread) : Prop := m = .stopping ∨ m = .leaving ∨ m = .finished

instance (m : MainThread) (idx : Nat) : Decidable (m.HasRead idx) :=
  match m with
  | .spawning _ => inferInstanceAs (Decidable False)
  | .joining i => inferInstanceAs (Decidable (idx < i))
  | .waiting i _ => inferInstanceAs (Decidable (idx ≤ i))
  | .stopping | .leaving | .finished => inferInstanceAs (Decidable True)

instance (m : MainThread) (idx : Nat) : Decidable (m.HasJoined idx) :=
  match m with
  | .spawning _ => inferInstanceAs (Decidable False)
  | .joining i | .waiting i _ => inferInstanceAs (Decidable (idx < i))
  | .stopping | .leaving | .finished => inferInstanceAs (Decidable True)

/-- The thread in the slot, as long as nobody has joined it on behalf of the slot. -/
def Server.held (s : Server) (idx : Nat) : Option Nat :=
  if s.main.HasJoined idx ∨ s.scaler = .clearing idx then none else s.pool.thread idx

/-- The threads as tokens: issued by `pthread_create`, settled by `pthread_join`. -/
def Server.ledger (s : Server) : Ledger Nat Nat where
  held := s.held
  issued tid := tid < s.workers.length
  settled tid := (s.workers[tid]?.map (·.joins)).getD 0

def TrafficPool.activeCount (p : TrafficPool) : Nat := p.slots.countP (·.active)

/-- What the three parties rely on. -/
structure PoolInv (s : Server) : Prop where
  ledger : s.ledger.Balanced
  count : s.pool.count = s.pool.activeCount
  spawning : ∀ {left}, s.main = .spawning left → s.scaler = .off
  waiting : ∀ {i tid}, s.main = .waiting i tid → s.held i = some tid ∧ ¬ s.scaler.Empties i
  joining : ∀ {idx tid}, s.scaler = .joining idx tid →
    s.held idx = some tid ∧ ¬ s.main.HasRead idx
  clearing : ∀ {idx}, s.scaler = .clearing idx →
    s.pool.isActive idx = true ∧ ¬ s.main.HasRead idx
  past : s.main.IsPast → ∀ idx, s.pool.thread idx = none

theorem hasRead_of_hasJoined {m : MainThread} {idx : Nat} (h : m.HasJoined idx) :
    m.HasRead idx := by
  cases m <;> simp_all [MainThread.HasRead, MainThread.HasJoined]; omega

/-! ## The invariant -/

abbrev ServerStep := Lts.Step Server ServerLabel

/-- `pool_join_all` and the scaler get into each other's slots: `pool_join_all` reads a
slot that `pool_down_cb` is emptying, or a callback of the scaler takes a slot that
`pool_join_all` has already read. -/
def Clashes (x : ServerStep) : Prop :=
  match x.label with
  | .mainRead => ∃ idx ∈ x.before.main.next,
      x.before.pool.isActive idx = true ∧ x.before.scaler.Empties idx
  | .scalerUp created => created = true ∧ x.before.pool.count < x.before.pool.max ∧
      ∃ idx ∈ x.before.pool.firstFree, x.before.main.HasRead idx
  | .scalerDown _ => ∃ idx ∈ x.before.pool.lastActive, x.before.main.HasRead idx
  | _ => False

instance (x : ServerStep) : Decidable (Clashes x) :=
  match x with
  | ⟨s, .mainRead, _⟩ =>
    inferInstanceAs (Decidable (∃ idx ∈ s.main.next,
      s.pool.isActive idx = true ∧ s.scaler.Empties idx))
  | ⟨s, .scalerUp created, _⟩ =>
    inferInstanceAs (Decidable (created = true ∧ s.pool.count < s.pool.max ∧
      ∃ idx ∈ s.pool.firstFree, s.main.HasRead idx))
  | ⟨s, .scalerDown _, _⟩ =>
    inferInstanceAs (Decidable (∃ idx ∈ s.pool.lastActive, s.main.HasRead idx))
  | ⟨_, .signal, _⟩ | ⟨_, .mainSpawn _, _⟩ | ⟨_, .mainReady _, _⟩ | ⟨_, .mainJoin, _⟩
  | ⟨_, .mainClear, _⟩ | ⟨_, .mainJoinScaler, _⟩ | ⟨_, .mainDestroy, _⟩ | ⟨_, .scalerCheck, _⟩
  | ⟨_, .scalerQuery _, _⟩ | ⟨_, .scalerSize _, _⟩ | ⟨_, .scalerJoin, _⟩
  | ⟨_, .scalerClear _, _⟩ | ⟨_, .scalerWake, _⟩ | ⟨_, .workerOpen _ _, _⟩
  | ⟨_, .workerStop _, _⟩ => inferInstanceAs (Decidable False)

section Invariant

variable {s s' : Server} {idx tid : Nat}

theorem thread_update (p : TrafficPool) (idx : Nat) (f : PoolSlot → PoolSlot) (j : Nat) :
    (p.update idx f).thread j =
      if idx = j then
        p.slots[j]?.bind fun slot => if (f slot).active then some (f slot).tid else none
      else p.thread j := by
  simp only [TrafficPool.thread, TrafficPool.update, List.getElem?_modify]
  cases p.slots[j]? with
  | none => simp
  | some slot => by_cases h : idx = j <;> simp [h]

theorem thread_update_keep (p : TrafficPool) (idx : Nat) {f : PoolSlot → PoolSlot}
    (hf : ∀ slot, (f slot).active = slot.active ∧ (f slot).tid = slot.tid) :
    (p.update idx f).thread = p.thread := by
  funext j
  rw [thread_update]
  split
  · simp only [TrafficPool.thread, hf]
  · rfl

theorem thread_update_set {p : TrafficPool} {f : PoolSlot → PoolSlot} (hidx : idx < p.max)
    (hf : ∀ slot, (f slot).active = true ∧ (f slot).tid = tid) :
    (p.update idx f).thread = Function.update p.thread idx (some tid) := by
  funext j
  rw [thread_update]
  split
  · next hij =>
    subst hij
    rw [Function.update_self, List.getElem?_eq_getElem hidx]
    simp [hf]
  · next hij => rw [Function.update_of_ne (Ne.symm hij)]

theorem thread_update_clear (p : TrafficPool) (idx : Nat) {f : PoolSlot → PoolSlot}
    (hf : ∀ slot, (f slot).active = false) :
    (p.update idx f).thread = Function.update p.thread idx none := by
  funext j
  rw [thread_update]
  split
  · next hij =>
    subst hij
    rw [Function.update_self]
    cases p.slots[idx]? <;> simp [hf]
  · next hij => rw [Function.update_of_ne (Ne.symm hij)]

theorem countP_modify {α : Type} (q : α → Bool) (f : α → α) {l : List α} {i : Nat} {a : α}
    (h : l[i]? = some a) :
    (l.modify i f).countP q + (q a).toNat = l.countP q + (q (f a)).toNat := by
  induction l generalizing i with
  | nil => cases h
  | cons b l ih =>
    cases i with
    | zero =>
      obtain rfl : b = a := by simpa using h
      simp only [List.modify_zero_cons, List.countP_cons]
      cases q b <;> cases q (f b) <;> simp
    | succ i =>
      have htail := ih (i := i) (by simpa using h)
      simp only [List.modify_succ_cons, List.countP_cons]
      omega

/-- What an update of one slot does to the number of active ones. -/
theorem activeCount_update {p : TrafficPool} {f : PoolSlot → PoolSlot} {b : Bool}
    (hidx : idx < p.max) (hf : ∀ slot, (f slot).active = b) :
    (p.update idx f).activeCount + (p.isActive idx).toNat = p.activeCount + b.toNat := by
  have hget := List.getElem?_eq_getElem hidx
  have hcount := countP_modify (·.active) f hget
  have hact : p.isActive idx = p.slots[idx].active := by
    simp only [TrafficPool.isActive, TrafficPool.thread, hget, Option.bind_some]
    split <;> simp_all
  rw [hf] at hcount
  rw [hact]
  exact hcount

theorem activeCount_keep (p : TrafficPool) (idx : Nat) {f : PoolSlot → PoolSlot}
    (hf : ∀ slot, (f slot).active = slot.active) :
    (p.update idx f).activeCount = p.activeCount := by
  simp only [TrafficPool.activeCount, TrafficPool.update]
  cases h : p.slots[idx]? with
  | none => rw [List.modify_eq_self (by simpa using h)]
  | some slot =>
    have hcount := countP_modify (·.active) f h
    rw [hf] at hcount
    omega

theorem lt_max_of_thread {p : TrafficPool} (h : p.thread idx = some tid) : idx < p.max := by
  by_contra hge
  rw [TrafficPool.thread, List.getElem?_eq_none (Nat.le_of_not_lt hge)] at h
  cases h

theorem firstFree_spec {p : TrafficPool} (h : p.firstFree = some idx) :
    idx < p.max ∧ p.thread idx = none := by
  have hfree := List.find?_some h
  refine ⟨List.mem_range.mp (List.mem_of_find?_eq_some h), ?_⟩
  simpa [TrafficPool.isActive] using hfree

theorem held_eq_some :
    s.held idx = some tid ↔
      ¬ s.main.HasJoined idx ∧ s.scaler ≠ .clearing idx ∧ s.pool.thread idx = some tid := by
  unfold Server.held
  split
  · next h => simp; tauto
  · next h => simp; tauto

theorem held_congr (hthread : s'.pool.thread = s.pool.thread)
    (hjoined : ∀ idx, s'.main.HasJoined idx ↔ s.main.HasJoined idx)
    (hclear : ∀ idx, s'.scaler = .clearing idx ↔ s.scaler = .clearing idx) :
    s'.held = s.held := by
  funext idx
  simp only [Server.held, hthread]
  exact if_congr (or_congr (hjoined idx) (hclear idx)) rfl rfl

theorem ledger_congr (hheld : s'.held = s.held) (hworkers : s'.workers = s.workers) :
    s'.ledger = s.ledger := by
  simp only [Server.ledger, hheld, hworkers]

/-- A worker is started in a free slot that `pool_join_all` has not read. -/
theorem startWorker_ledger (hidx : idx < s.pool.max) (hjoined : ¬ s.main.HasJoined idx)
    (hclear : s.scaler ≠ .clearing idx) :
    (s.startWorker idx).ledger = s.ledger.issue idx s.workers.length := by
  have hthread : (s.startWorker idx).pool.thread =
      Function.update s.pool.thread idx (some s.workers.length) :=
    thread_update_set hidx fun _ => ⟨rfl, rfl⟩
  -- the ledger field by field: what the slots owe, the threads, the joins
  ext1
  · funext j
    show (s.startWorker idx).held j = Function.update s.held idx _ j
    unfold Server.held
    rw [hthread]
    by_cases hj : j = idx
    · subst hj
      rw [Function.update_self, Function.update_self, if_neg]
      rintro (h | h)
      · exact hjoined h
      · exact hclear h
    · rw [Function.update_of_ne hj, Function.update_of_ne hj]
      rfl
  · funext u
    refine propext ?_
    show u < (s.workers ++ [_]).length ↔ u = s.workers.length ∨ u < s.workers.length
    rw [List.length_append, List.length_singleton]
    omega
  · funext u
    show ((s.workers ++ [_])[u]?.map (·.joins)).getD 0 = (s.workers[u]?.map (·.joins)).getD 0
    rcases Nat.lt_trichotomy u s.workers.length with h | rfl | h
    · rw [List.getElem?_append_left h]
    · simp
    · rw [List.getElem?_eq_none (by simp; omega), List.getElem?_eq_none (by omega)]

theorem joinThread_settled (htid : tid < s.workers.length) :
    (fun u => (((joinThread s tid).workers)[u]?.map (·.joins)).getD 0) =
      Function.update (fun u => (s.workers[u]?.map (·.joins)).getD 0) tid
        ((s.workers[tid]?.map (·.joins)).getD 0 + 1) := by
  funext u
  simp only [joinThread, List.getElem?_modify]
  by_cases hu : u = tid
  · subst hu
    simp [List.getElem?_eq_getElem htid]
  · rw [Function.update_of_ne hu]
    cases s.workers[u]? with
    | none => simp
    | some w => simp [Ne.symm hu]

/-- The join of a worker that a slot still owes. -/
theorem joinThread_ledger (hlt : tid < s.workers.length)
    (hheld : s'.held = Function.update s.held idx none)
    (hworkers : s'.workers = (joinThread s tid).workers) :
    s'.ledger = s.ledger.settle idx tid := by
  ext1
  · exact hheld
  · funext u
    refine propext ?_
    show u < s'.workers.length ↔ u < s.workers.length
    rw [hworkers, joinThread, List.length_modify]
  · refine Eq.trans ?_ (joinThread_settled hlt)
    simp only [Server.ledger, hworkers]

theorem resetSlot_thread (s : Server) (idx : Nat) :
    (s.resetSlot idx).pool.thread = s.pool.thread :=
  thread_update_keep s.pool idx fun _ => ⟨rfl, rfl⟩

theorem PoolInv.resetSlot (h : PoolInv s) (idx : Nat) : PoolInv (s.resetSlot idx) := by
  have hthread := resetSlot_thread s idx
  have hheld : (s.resetSlot idx).held = s.held :=
    held_congr hthread (fun _ => Iff.rfl) fun _ => Iff.rfl
  constructor
  · rw [ledger_congr hheld rfl]
    exact h.ledger
  · have hcount := activeCount_keep s.pool idx
      (f := fun slot => { slot with workerId := s.pool.nextId, stop := false }) fun _ => rfl
    exact h.count.trans (congrArg _ hcount.symm)
  · exact h.spawning
  · rw [hheld]
    exact h.waiting
  · rw [hheld]
    exact h.joining
  · simp only [TrafficPool.isActive, hthread]
    exact h.clearing
  · rw [hthread]
    exact h.past

theorem PoolInv.startWorker (h : PoolInv s) (hidx : idx < s.pool.max)
    (hfree : s.pool.thread idx = none) (hread : ¬ s.main.HasRead idx) :
    PoolInv (s.startWorker idx) := by
  have hjoined : ¬ s.main.HasJoined idx := fun hj => hread (hasRead_of_hasJoined hj)
  have hclear : s.scaler ≠ .clearing idx := fun hc => by
    have hact := (h.clearing hc).1
    simp [TrafficPool.isActive, hfree] at hact
  have hthread : (s.startWorker idx).pool.thread =
      Function.update s.pool.thread idx (some s.workers.length) :=
    thread_update_set hidx fun _ => ⟨rfl, rfl⟩
  have hnone : s.held idx = none := by
    rw [Server.held, hfree, ite_self]
  have hkept : ∀ {j u}, s.held j = some u → (s.startWorker idx).held j = some u := by
    intro j u hj
    have hne : j ≠ idx := by
      rintro rfl
      rw [hnone] at hj
      cases hj
    rw [held_eq_some] at hj ⊢
    rw [hthread, Function.update_of_ne hne]
    exact hj
  constructor
  · rw [startWorker_ledger hidx hjoined hclear]
    refine h.ledger.issue hnone (Nat.lt_irrefl _) ?_
    simp [Server.ledger]
  · have hcount := activeCount_update (b := true) hidx
      (f := fun slot => { slot with active := true, tid := s.workers.length }) fun _ => rfl
    have hinactive : s.pool.isActive idx = false := by simp [TrafficPool.isActive, hfree]
    rw [hinactive] at hcount
    show s.pool.count + 1 = _
    rw [h.count]
    exact_mod_cast hcount.symm
  · exact h.spawning
  · intro i u hm
    obtain ⟨hi, hemp⟩ := h.waiting hm
    exact ⟨hkept hi, hemp⟩
  · intro i u hs
    obtain ⟨hi, hr⟩ := h.joining hs
    exact ⟨hkept hi, hr⟩
  · intro i hs
    obtain ⟨hact, hr⟩ := h.clearing hs
    refine ⟨?_, hr⟩
    simp only [TrafficPool.isActive, hthread]
    by_cases hi : i = idx
    · rw [hi, Function.update_self]
      rfl
    · rw [Function.update_of_ne hi]
      exact hact
  · intro hp
    refine absurd ?_ hread
    rcases hp with hp | hp | hp <;> exact hp ▸ trivial

/-- `pool_spawn_one_locked`, as long as `pool_join_all` has not read the slot. -/
theorem PoolInv.spawn (h : PoolInv s) (created : Bool)
    (hread : created = true → ∀ idx, s.pool.firstFree = some idx → ¬ s.main.HasRead idx) :
    PoolInv (poolSpawnOneLocked s created).1 := by
  unfold poolSpawnOneLocked
  split
  · exact h
  · next idx hfirst =>
    obtain ⟨hidx, hfree⟩ := firstFree_spec hfirst
    split
    · next hcreated =>
      refine (h.resetSlot idx).startWorker ?_ ?_ (hread hcreated idx hfirst)
      · simpa [Server.resetSlot, TrafficPool.update, TrafficPool.max] using hidx
      · rw [resetSlot_thread, hfree]
    · exact h.resetSlot idx

/-- Between two places outside `pool_down_cb` the scaler moves freely. -/
theorem PoolInv.scalerIdle (h : PoolInv s) {t : ScalerThread} (idleSince : Int)
    (hspawn : ∀ left, s.main = .spawning left → t = .off)
    (hs : ∀ idx, ¬ s.scaler.Empties idx) (ht : ∀ idx, ¬ t.Empties idx) :
    PoolInv { s with scaler := t, idleSince } := by
  have hclear : ∀ idx, s.scaler ≠ .clearing idx := fun idx hc => hs idx (by rw [hc]; rfl)
  have hclear' : ∀ idx, t ≠ .clearing idx := fun idx hc => ht idx (by rw [hc]; rfl)
  have hheld : ({ s with scaler := t, idleSince } : Server).held = s.held :=
    held_congr rfl (fun _ => Iff.rfl) fun idx => iff_of_false (hclear' idx) (hclear idx)
  constructor
  · rw [ledger_congr hheld rfl]
    exact h.ledger
  · exact h.count
  · exact fun hm => hspawn _ hm
  · intro i tid hm
    rw [hheld]
    exact ⟨(h.waiting hm).1, ht i⟩
  · intro idx tid hj
    exact absurd (by rw [show t = .joining idx tid from hj]; rfl) (ht idx)
  · intro idx hc
    exact absurd hc (hclear' idx)
  · exact h.past

/-- A move of `main` that reads or joins no slot. -/
theorem PoolInv.setMain (h : PoolInv s) (m : MainThread)
    (hjoined : ∀ idx, m.HasJoined idx ↔ s.main.HasJoined idx)
    (hread : ∀ idx, m.HasRead idx → s.main.HasRead idx)
    (hwait : ∀ i tid, m ≠ .waiting i tid) (hspawn : ∀ left, m = .spawning left → s.scaler = .off)
    (hpast : m.IsPast → s.main.IsPast) (stop : Bool) :
    PoolInv { s with main := m, stop } := by
  have hheld : ({ s with main := m, stop } : Server).held = s.held :=
    held_congr rfl hjoined fun _ => Iff.rfl
  constructor
  · rw [ledger_congr hheld rfl]
    exact h.ledger
  · exact h.count
  · exact fun hm => hspawn _ hm
  · exact fun hm => absurd hm (hwait _ _)
  · intro idx tid hj
    rw [hheld]
    exact ⟨(h.joining hj).1, fun hr => (h.joining hj).2 (hread idx hr)⟩
  · intro idx hc
    exact ⟨(h.clearing hc).1, fun hr => (h.clearing hc).2 (hread idx hr)⟩
  · exact fun hp => h.past (hpast hp)

theorem PoolInv.mainReadActive (h : PoolInv s) {i : Nat} (hm : s.main = .joining i)
    (hthread : s.pool.thread i = some tid) (hsafe : ¬ s.scaler.Empties i) :
    PoolInv { s with main := .waiting i tid } := by
  have hheld : ({ s with main := .waiting i tid } : Server).held = s.held :=
    held_congr rfl (fun _ => by rw [hm]; exact Iff.rfl) fun _ => Iff.rfl
  -- the step does not clash, so the scaler empties another slot
  have hread : ∀ {idx}, s.scaler.Empties idx → ¬ s.main.HasRead idx →
      ¬ (MainThread.waiting i tid).HasRead idx := by
    intro idx hemp hr hr'
    rw [hm] at hr
    rcases Nat.lt_or_eq_of_le (show idx ≤ i from hr') with hlt | rfl
    · exact hr hlt
    · exact hsafe hemp
  constructor
  · rw [ledger_congr hheld rfl]
    exact h.ledger
  · exact h.count
  · exact nofun
  · rintro _ _ ⟨⟩
    rw [hheld, held_eq_some]
    refine ⟨⟨?_, fun hc => hsafe (by rw [hc]; rfl), hthread⟩, hsafe⟩
    rw [hm]
    exact Nat.lt_irrefl i
  · intro idx u hj
    rw [hheld]
    exact ⟨(h.joining hj).1, hread (by rw [show s.scaler = _ from hj]; rfl) (h.joining hj).2⟩
  · intro idx hc
    exact ⟨(h.clearing hc).1, hread (by rw [show s.scaler = _ from hc]; rfl) (h.clearing hc).2⟩
  · rintro (hp | hp | hp) <;> cases hp

theorem PoolInv.mainReadFree (h : PoolInv s) {i : Nat} (hm : s.main = .joining i)
    (hthread : s.pool.thread i = none) : PoolInv { s with main := .joining (i + 1) } := by
  have hheld : ({ s with main := .joining (i + 1) } : Server).held = s.held := by
    funext j
    by_cases hj : j = i
    · simp [Server.held, hj, hthread]
    · have hiff : j < i + 1 ↔ j < i := by omega
      simp [Server.held, hm, MainThread.HasJoined, hiff]
  -- a slot that the scaler empties has a thread, and slot `i` has none
  have hread : ∀ {idx}, s.pool.thread idx ≠ none → ¬ s.main.HasRead idx →
      ¬ (MainThread.joining (i + 1)).HasRead idx := by
    intro idx hne hr hr'
    rw [hm] at hr
    rcases Nat.lt_or_eq_of_le (Nat.le_of_lt_succ hr') with hlt | rfl
    · exact hr hlt
    · exact hne hthread
  constructor
  · rw [ledger_congr hheld rfl]
    exact h.ledger
  · exact h.count
  · exact nofun
  · exact nofun
  · intro idx u hj
    obtain ⟨hu, hr⟩ := h.joining hj
    rw [hheld]
    exact ⟨hu, hread (by rw [(held_eq_some.mp hu).2.2]; exact nofun) hr⟩
  · intro idx hc
    obtain ⟨hact, hr⟩ := h.clearing hc
    exact ⟨hact, hread (Option.isSome_iff_ne_none.mp hact) hr⟩
  · rintro (hp | hp | hp) <;> cases hp

theorem PoolInv.mainJoin (h : PoolInv s) {i : Nat} (hm : s.main = .waiting i tid) :
    PoolInv { joinThread s tid with main := .joining (i + 1) } := by
  obtain ⟨howed, hemp⟩ := h.waiting hm
  have hnext : ∀ idx, (MainThread.joining (i + 1)).HasJoined idx ↔ s.main.HasRead idx := by
    intro idx
    rw [hm]
    exact Nat.lt_succ_iff
  -- of all slots only `i` stops owing its join
  have hheld : ({ joinThread s tid with main := .joining (i + 1) } : Server).held =
      Function.update s.held i none := by
    funext j
    by_cases hj : j = i
    · subst hj
      rw [Function.update_self, Server.held, if_pos (.inl (Nat.lt_succ_self j))]
    · rw [Function.update_of_ne hj]
      refine if_congr (or_congr ?_ Iff.rfl) rfl rfl
      rw [hm]
      exact Nat.lt_succ_iff.trans ⟨fun hle => Nat.lt_of_le_of_ne hle hj, Nat.le_of_lt⟩
  constructor
  · rw [joinThread_ledger (h.ledger.issued howed) hheld rfl]
    exact h.ledger.settle howed
  · exact h.count
  · exact nofun
  · exact nofun
  · intro idx u hj
    obtain ⟨hu, hr⟩ := h.joining hj
    have hne : idx ≠ i := by
      rintro rfl
      exact hemp (by rw [show s.scaler = _ from hj]; rfl)
    rw [hheld, Function.update_of_ne hne]
    exact ⟨hu, fun hr' => hr ((hnext idx).mp hr')⟩
  · intro idx hc
    obtain ⟨hact, hr⟩ := h.clearing hc
    exact ⟨hact, fun hr' => hr ((hnext idx).mp hr')⟩
  · rintro (hp | hp | hp) <;> cases hp

theorem PoolInv.mainClear (h : PoolInv s) {i : Nat} (hm : s.main = .joining i)
    (hmax : s.pool.max ≤ i) {pool : TrafficPool}
    (hpool : pool = { s.pool with
      slots := s.pool.slots.map fun slot => { slot with active := false }, count := 0 }) :
    PoolInv { s with pool, main := .stopping } := by
  have hthread : ∀ idx, pool.thread idx = none := by
    intro idx
    rw [hpool]
    simp only [TrafficPool.thread, List.getElem?_map]
    cases s.pool.slots[idx]? <;> rfl
  have hread : ∀ {idx u}, s.pool.thread idx = some u → s.main.HasRead idx := by
    intro idx u hu
    rw [hm]
    exact Nat.lt_of_lt_of_le (lt_max_of_thread hu) hmax
  -- `pool_join_all` is done with every slot
  have hnone : ∀ idx, s.held idx = none := by
    intro idx
    refine Option.eq_none_iff_forall_ne_some.mpr fun u hu => ?_
    obtain ⟨hj, _, hu⟩ := held_eq_some.mp hu
    rw [hm] at hj
    exact hj (Nat.lt_of_lt_of_le (lt_max_of_thread hu) hmax)
  have hheld : ({ s with pool, main := .stopping } : Server).held = s.held := by
    funext idx
    rw [hnone, Server.held, if_pos (.inl trivial)]
  constructor
  · rw [ledger_congr hheld rfl]
    exact h.ledger
  · rw [hpool]
    simp [TrafficPool.activeCount, List.countP_map, Function.comp_def]
  · exact nofun
  · exact nofun
  · intro idx u hj
    exact absurd (h.joining hj).1 (by rw [hnone]; exact nofun)
  · intro idx hc
    obtain ⟨hact, hr⟩ := h.clearing hc
    obtain ⟨u, hu⟩ := Option.isSome_iff_exists.mp hact
    exact absurd (hread hu) hr
  · exact fun _ => hthread

theorem PoolInv.mainDestroy (h : PoolInv s) (hm : s.main = .leaving) :
    PoolInv { s with pool := ⟨[], 0, 0⟩, main := .finished } := by
  have hnone : ∀ idx, s.held idx = none := fun idx => if_pos (.inl (by rw [hm]; trivial))
  have hheld : ({ s with pool := ⟨[], 0, 0⟩, main := .finished } : Server).held = s.held := by
    funext idx
    rw [hnone, Server.held, if_pos (.inl trivial)]
  constructor
  · rw [ledger_congr hheld rfl]
    exact h.ledger
  · rfl
  · exact nofun
  · exact nofun
  · intro idx u hj
    exact absurd (h.joining hj).1 (by rw [hnone]; exact nofun)
  · intro idx hc
    exact absurd (by rw [hm]; trivial) (h.clearing hc).2
  · exact fun _ _ => rfl

theorem PoolInv.scalerDown (h : PoolInv s) (hs : s.scaler = .downing)
    (hthread : s.pool.thread idx = some tid) (hread : ¬ s.main.HasRead idx) {pool : TrafficPool}
    (hpool : pool = s.pool.update idx fun slot => { slot with stop := true }) :
    PoolInv { s with pool, scaler := .joining idx tid } := by
  have hkeep : pool.thread = s.pool.thread := by
    rw [hpool]
    exact thread_update_keep s.pool idx fun _ => ⟨rfl, rfl⟩
  have hheld : ({ s with pool, scaler := .joining idx tid } : Server).held = s.held :=
    held_congr hkeep (fun _ => Iff.rfl) fun _ => iff_of_false nofun (by rw [hs]; exact nofun)
  constructor
  · rw [ledger_congr hheld rfl]
    exact h.ledger
  · have hcount := activeCount_keep s.pool idx
      (f := fun slot => { slot with stop := true }) fun _ => rfl
    rw [hpool]
    exact h.count.trans (congrArg _ hcount.symm)
  · exact fun hm => absurd (h.spawning hm) (by rw [hs]; exact nofun)
  · intro i u hm
    rw [hheld]
    refine ⟨(h.waiting hm).1, ?_⟩
    rintro rfl
    exact hread (by rw [show s.main = _ from hm]; exact Nat.le_refl _)
  · rintro _ _ ⟨⟩
    rw [hheld, held_eq_some, hs]
    exact ⟨⟨fun hj => hread (hasRead_of_hasJoined hj), nofun, hthread⟩, hread⟩
  · exact nofun
  · intro hp
    rw [hkeep]
    exact h.past hp

theorem PoolInv.scalerJoin (h : PoolInv s) (hs : s.scaler = .joining idx tid) :
    PoolInv { joinThread s tid with scaler := .clearing idx } := by
  obtain ⟨howed, hread⟩ := h.joining hs
  -- from the join on the slot owes nothing, though it is still active
  have hheld : ({ joinThread s tid with scaler := .clearing idx } : Server).held =
      Function.update s.held idx none := by
    funext j
    by_cases hj : j = idx
    · subst hj
      rw [Function.update_self, Server.held, if_pos (.inr rfl)]
    · rw [Function.update_of_ne hj]
      refine if_congr (or_congr Iff.rfl (iff_of_false ?_ ?_)) rfl rfl
      · rintro ⟨⟩
        exact hj rfl
      · rw [hs]
        exact nofun
  constructor
  · rw [joinThread_ledger (h.ledger.issued howed) hheld rfl]
    exact h.ledger.settle howed
  · exact h.count
  · exact fun hm => absurd (h.spawning hm) (by rw [hs]; exact nofun)
  · intro i u hm
    obtain ⟨hi, hemp⟩ := h.waiting hm
    have hne : i ≠ idx := by
      rintro rfl
      exact hemp (by rw [hs]; rfl)
    rw [hheld, Function.update_of_ne hne]
    exact ⟨hi, fun he => hne (show idx = i from he).symm⟩
  · exact nofun
  · rintro _ ⟨⟩
    refine ⟨?_, hread⟩
    show (s.pool.thread idx).isSome = true
    rw [(held_eq_some.mp howed).2.2]
    rfl
  · exact h.past

theorem PoolInv.scalerClear (h : PoolInv s) (hs : s.scaler = .clearing idx) {pool : TrafficPool}
    (hpool : pool = { s.pool.update idx fun slot => { slot with active := false } with
      count := s.pool.count - 1 }) (poolSize idleSince : Int) :
    PoolInv { s with pool, poolSize, scaler := .sleeping, idleSince } := by
  obtain ⟨hact, hread⟩ := h.clearing hs
  have hthread : pool.thread = Function.update s.pool.thread idx none := by
    rw [hpool]
    exact thread_update_clear s.pool idx fun _ => rfl
  -- the join was settled before, so emptying the slot changes no debt
  have hheld :
      ({ s with pool, poolSize, scaler := .sleeping, idleSince } : Server).held = s.held := by
    funext j
    by_cases hj : j = idx
    · subst hj
      simp [Server.held, hthread, hs]
    · have hne : s.scaler ≠ .clearing j := by
        rw [hs]
        rintro ⟨⟩
        exact hj rfl
      simp only [Server.held, hthread, Function.update_of_ne hj]
      exact if_congr (or_congr Iff.rfl (iff_of_false nofun hne)) rfl rfl
  constructor
  · rw [ledger_congr hheld rfl]
    exact h.ledger
  · obtain ⟨u, hu⟩ := Option.isSome_iff_exists.mp hact
    have hcount := activeCount_update (b := false) (lt_max_of_thread hu)
      (f := fun slot => { slot with active := false }) fun _ => rfl
    rw [hact] at hcount
    have hsum : pool.activeCount + 1 = s.pool.activeCount := by
      rw [hpool]
      exact hcount
    have hval : pool.count = s.pool.count - 1 := by rw [hpool]
    show pool.count = (pool.activeCount : Int)
    rw [hval, h.count, ← hsum]
    omega
  · exact fun hm => absurd (h.spawning hm) (by rw [hs]; exact nofun)
  · intro i u hm
    rw [hheld]
    exact ⟨(h.waiting hm).1, id⟩
  · exact nofun
  · exact nofun
  · intro hp
    refine absurd ?_ hread
    rcases hp with hp | hp | hp <;> exact hp ▸ trivial

theorem PoolInv.worker (h : PoolInv s) {w : WorkerThread} (hw : s.workers[tid]? = some w)
    (phase : WorkerPhase) :
    PoolInv { s with workers := s.workers.set tid { w with phase } } := by
  have hlt := (List.getElem?_eq_some_iff.mp hw).1
  have hledger :
      ({ s with workers := s.workers.set tid { w with phase } } : Server).ledger = s.ledger := by
    ext1
    · rfl
    · funext u
      simp [Server.ledger]
    · funext u
      simp only [Server.ledger, List.getElem?_set]
      by_cases hu : tid = u
      · subst hu
        simp [hlt, ← (List.getElem?_eq_some_iff.mp hw).2]
      · simp [hu]
  exact ⟨hledger ▸ h.ledger, h.count, h.spawning, h.waiting, h.joining, h.clearing, h.past⟩

theorem poolSpawnOneLocked_frame (s : Server) (created : Bool) :
    (poolSpawnOneLocked s created).1.main = s.main ∧
      (poolSpawnOneLocked s created).1.scaler = s.scaler := by
  unfold poolSpawnOneLocked
  split
  · exact ⟨rfl, rfl⟩
  · split <;> exact ⟨rfl, rfl⟩

/-- The step lemma. -/
theorem serverStep_inv (h : PoolInv s) {cfg : ScalerCfg} {l : ServerLabel}
    (hstep : serverStep cfg s l = some s') (hsafe : ¬ Clashes ⟨s, l, s'⟩) : PoolInv s' := by
  cases serverStep_move hstep
  case signal => exact ⟨h.1, h.2, h.3, h.4, h.5, h.6, h.7⟩
  case mainSpawn created left stop left' hm =>
    obtain ⟨hmain, hscaler⟩ := poolSpawnOneLocked_frame s created
    -- a spawning `main` has read no slot
    have hspawned := h.spawn created fun _ idx _ hr => by simp [hm, MainThread.HasRead] at hr
    refine hspawned.setMain (.spawning left') (fun idx => ?_) (fun _ => False.elim) (fun _ _ => nofun)
      (fun _ _ => ?_) ?_ stop
    · rw [hmain, hm]
      exact Iff.rfl
    · rw [hscaler, h.spawning hm]
    · rintro (hp | hp | hp) <;> cases hp
  case mainReady scaler t hm ht =>
    have hjoining : PoolInv { s with main := .joining 0, stop := s.stop } := by
      refine h.setMain (.joining 0) (fun idx => ?_) (fun idx hr => absurd hr (Nat.not_lt_zero idx))
        (fun _ _ => nofun) (fun _ => nofun) ?_ s.stop
      · rw [hm]
        exact iff_of_false (Nat.not_lt_zero idx) id
      · rintro (hp | hp | hp) <;> cases hp
    exact hjoining.scalerIdle s.idleSince (fun _ => nofun) (by rw [h.spawning hm]; exact fun _ => id) ht
  case mainReadActive i tid hm hthread =>
    refine h.mainReadActive hm hthread fun hemp => hsafe ⟨i, by rw [hm]; rfl, ?_, hemp⟩
    rw [TrafficPool.isActive, hthread]
    rfl
  case mainReadFree i hm hthread => exact h.mainReadFree hm hthread
  case mainJoin hm => exact h.mainJoin hm
  case mainClear hm hmax => exact h.mainClear hm hmax rfl
  case mainJoinScaler hm =>
    refine h.setMain .leaving (fun idx => ?_) (fun idx _ => ?_) (fun _ _ => nofun) (fun _ => nofun)
      (fun _ => .inl hm) s.stop
    · rw [hm]
      exact Iff.rfl
    · rw [hm]
      trivial
  case mainDestroy hm => exact h.mainDestroy hm
  case scalerIdle hon hs ht =>
    exact h.scalerIdle _ (fun _ hm => absurd (h.spawning hm) hon) hs ht
  case scalerUp created hsc =>
    have hidle : ∀ idx, ¬ s.scaler.Empties idx := by
      rw [hsc]
      exact fun _ => id
    -- the scaler is started after the last spawn of `main`
    have hoff : ∀ left, s.main ≠ .spawning left := fun left hm => by
      have hs := h.spawning hm
      rw [hsc] at hs
      cases hs
    unfold poolUpCb
    split
    · next hroom =>
      obtain ⟨hmain, hscaler⟩ := poolSpawnOneLocked_frame s created
      have hspawned := h.spawn created fun hc idx hfirst hr =>
        hsafe ⟨hc, hroom, idx, hfirst, hr⟩
      exact hspawned.scalerIdle _ (fun left hm => absurd (hmain ▸ hm) (hoff left))
        (by rwa [hscaler]) fun _ => id
    · exact h.scalerIdle _ (fun left hm => absurd hm (hoff left)) hidle fun _ => id
  case scalerDown now idx tid hsc hlast hthread =>
    exact h.scalerDown hsc hthread (fun hr => hsafe ⟨idx, hlast, hr⟩) rfl
  case scalerJoin hsc => exact h.scalerJoin hsc
  case scalerClear hsc => exact h.scalerClear hsc rfl _ _
  case worker hw => exact h.worker hw _

end Invariant

/-! ## Runs -/

/-- `main` before the first spawn: `numWorkers` traffic workers to start in `max` slots. -/
def Server.boot (max numWorkers : Nat) : Server where
  pool := poolInit max
  stop := false
  poolSize := 0
  workers := []
  main := .spawning numWorkers
  scaler := .off
  idleSince := 0

/-- `pool_max` is at least `num_workers`. -/
def serverLts (cfg : ScalerCfg) : Lts Server ServerLabel where
  init s := ∃ max numWorkers, numWorkers ≤ max ∧ s = .boot max numWorkers
  step := serverStep cfg

/-- No worker is joined twice, the count is the number of active slots, and when the
slots are freed every worker has been joined. -/
structure PoolSafe (s : Server) : Prop where
  once : ∀ w ∈ s.workers, w.joins ≤ 1
  count : s.pool.count = s.pool.activeCount
  nonneg : 0 ≤ s.pool.count
  destroyed : s.main = .finished → ∀ w ∈ s.workers, w.joins = 1

theorem boot_inv (max numWorkers : Nat) : PoolInv (.boot max numWorkers) := by
  have hthread : ∀ idx, (poolInit max).thread idx = none := by
    intro idx
    simp only [TrafficPool.thread, poolInit, List.getElem?_replicate]
    split <;> rfl
  have hheld : ∀ idx, (Server.boot max numWorkers).held idx = none := by
    intro idx
    rw [Server.held, show (Server.boot max numWorkers).pool = poolInit max from rfl, hthread,
      ite_self]
  constructor
  · exact .empty hheld fun tid => Nat.not_lt_zero tid
  · simp [Server.boot, poolInit, TrafficPool.activeCount, List.countP_replicate]
  · exact fun _ => rfl
  · exact nofun
  · exact nofun
  · exact nofun
  · exact fun _ => hthread

theorem PoolInv.safe {s : Server} (h : PoolInv s) : PoolSafe s := by
  have hjoins : ∀ w ∈ s.workers, ∃ tid, s.ledger.issued tid ∧ s.ledger.settled tid = w.joins := by
    intro w hw
    obtain ⟨tid, hlt, rfl⟩ := List.mem_iff_getElem.mp hw
    exact ⟨tid, hlt, by simp [Server.ledger, List.getElem?_eq_getElem hlt]⟩
  constructor
  · intro w hw
    obtain ⟨tid, hissued, hw⟩ := hjoins w hw
    exact hw ▸ h.ledger.settled_le hissued
  · exact h.count
  · rw [h.count]
    exact Int.natCast_nonneg _
  · intro hm w hw
    obtain ⟨tid, hissued, hw⟩ := hjoins w hw
    refine hw ▸ h.ledger.paid hissued fun idx hheld => ?_
    exact (held_eq_some.mp hheld).1 (by rw [hm]; trivial)

/-- A run in which `pool_join_all` and the scaler keep out of each other's slots. -/
theorem pool_shutdown_safe {cfg : ScalerCfg} {max numWorkers : Nat} {s : Server}
    {tr : List ServerStep} (h : Lts.Run (serverLts cfg) (.boot max numWorkers) tr s)
    (hsafe : ∀ x ∈ tr, ¬ Clashes x) : PoolSafe s := by
  refine PoolInv.safe ?_
  induction h with
  | nil => exact boot_inv max numWorkers
  | @snoc tr t u l _ hs ih =>
    exact serverStep_inv (ih fun x hx => hsafe x (List.mem_append_left _ hx)) hs
      (hsafe ⟨t, l, u⟩ (by simp))

/-! ## Two schedules -/

def smallScaler : ScalerCfg := ⟨1, 2, 1000, 60⟩

/-- Two workers; the scaler stops one of them, and then the server is stopped. -/
def calmShutdown : List ServerLabel :=
  [.mainSpawn true, .mainSpawn true, .mainReady true, .mainRead, .workerOpen 0 true,
    .workerOpen 1 true, .scalerCheck, .scalerQuery (some 0), .scalerSize 100, .scalerWake,
    .scalerCheck, .scalerQuery (some 0), .scalerSize 200, .scalerDown 200, .workerStop 1,
    .scalerJoin, .scalerClear 201, .scalerWake, .signal, .scalerCheck, .workerStop 0, .mainJoin,
    .mainRead, .mainClear, .mainJoinScaler, .mainDestroy]

/-- The server is stopped while the scaler is about to stop the worker that
`pool_join_all` waits for. -/
def doubleJoin : List ServerLabel :=
  [.mainSpawn true, .mainSpawn true, .mainReady true, .mainRead, .workerOpen 0 true,
    .workerOpen 1 true, .scalerCheck, .scalerQuery (some 0), .scalerSize 100, .scalerWake,
    .scalerCheck, .scalerQuery (some 0), .scalerSize 200, .signal, .workerStop 0, .mainJoin,
    .mainRead, .scalerDown 200, .workerStop 1, .mainJoin, .scalerJoin, .mainClear,
    .scalerClear 201]

/-- The calm schedule joins both workers once. -/
theorem pool_shutdown_safe_calm :
    ∃ (tr : List ServerStep) (s : Server),
      Lts.Run (serverLts smallScaler) (.boot 2 2) tr s ∧ s.main = .finished ∧
        s.workers.length = 2 ∧ PoolSafe s := by
  have hok : ((serverLts smallScaler).exec (.boot 2 2) calmShutdown).map
      (fun r => (r.2.main, r.2.workers.length, r.1.all fun x => decide (¬ Clashes x))) =
      some (.finished, 2, true) := by decide +kernel
  obtain ⟨tr, s, hrun, hval⟩ := Lts.run_of_exec hok
  simp only [Prod.mk.injEq, List.all_eq_true, decide_eq_true_eq] at hval
  obtain ⟨hmain, hlen, hsafe⟩ := hval
  exact ⟨tr, s, hrun, hmain, hlen, pool_shutdown_safe hrun hsafe⟩

/-- In the other schedule the second worker is joined twice, by `main` and by the scaler,
and the count ends at -1. -/
theorem doubleJoin_unsafe :
    ∃ (tr : List ServerStep) (s : Server),
      Lts.Run (serverLts smallScaler) (.boot 2 2) tr s ∧ s.workers.map (·.joins) = [1, 2] ∧
        s.pool.count = -1 ∧ ¬ PoolSafe s := by
  have hok : ((serverLts smallScaler).exec (.boot 2 2) doubleJoin).map
      (fun r => (r.2.workers.map (·.joins), r.2.pool.count)) = some ([1, 2], -1) := by
    decide +kernel
  obtain ⟨tr, s, hrun, hval⟩ := Lts.run_of_exec hok
  simp only [Prod.mk.injEq] at hval
  obtain ⟨hjoins, hcount⟩ := hval
  refine ⟨tr, s, hrun, hjoins, hcount, fun hsafe => ?_⟩
  have hpos := hsafe.nonneg
  rw [hcount] at hpos
  exact absurd hpos (by decide)

end TrafficAnalyzer
