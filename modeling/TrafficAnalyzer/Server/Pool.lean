import TrafficAnalyzer.Lib.Lts
import TrafficAnalyzer.Server.Scaler

/-!
# The worker pool of the server (`src/server/nta_server.c`)

`main`, the scaler thread and the traffic workers. A section under the mutex of the pool
is one step, and so is a `pthread_join`, which waits for the end of the thread; a thread
is named by its place in the list of all threads created so far.

* `serverStep`: the steps of all threads.
* `serverStep_move`: what each step needs and what it changes.
-/

namespace TrafficAnalyzer

/-! ## The pool -/

/-- One slot: `active[i]`, `tids[i]`, and the worker's number and stop flag in
`slots[i]`. -/
structure PoolSlot where
  active : Bool
  tid : Nat
  workerId : Nat
  stop : Bool
deriving DecidableEq, Repr

/-- `TrafficPool`; `max` is the number of slots. -/
structure TrafficPool where
  slots : List PoolSlot
  count : Int
  nextId : Nat
deriving DecidableEq, Repr

/-- `pool_init`. -/
def poolInit (max : Nat) : TrafficPool := ⟨List.replicate max ⟨false, 0, 0, false⟩, 0, 0⟩

def TrafficPool.max (p : TrafficPool) : Nat := p.slots.length

/-- The thread in an active slot. -/
def TrafficPool.thread (p : TrafficPool) (idx : Nat) : Option Nat :=
  p.slots[idx]?.bind fun slot => if slot.active then some slot.tid else none

def TrafficPool.isActive (p : TrafficPool) (idx : Nat) : Bool := (p.thread idx).isSome

def TrafficPool.update (p : TrafficPool) (idx : Nat) (f : PoolSlot → PoolSlot) : TrafficPool :=
  { p with slots := p.slots.modify idx f }

/-- The slot that `pool_spawn_one_locked` takes. -/
def TrafficPool.firstFree (p : TrafficPool) : Option Nat :=
  (List.range p.max).find? fun idx => !p.isActive idx

/-- The slot that `pool_down_cb` takes. -/
def TrafficPool.lastActive (p : TrafficPool) : Option Nat :=
  (List.range p.max).reverse.find? fun idx => p.isActive idx

/-! ## The threads -/

/-- Where a worker is. `starting` is before `nta_influx_open`. -/
inductive WorkerPhase
  | starting
  | running
  | ended
deriving DecidableEq, Repr

/-- A created worker thread: its slot, and how often it has been joined. -/
structure WorkerThread where
  slot : Nat
  phase : WorkerPhase
  joins : Nat
deriving DecidableEq, Repr

/-- Where `main` is. `joining` is at the top of the loop of `pool_join_all`, `waiting` at
its `pthread_join`, `stopping` past `pool_join_all`, `leaving` past the join of the
scaler, `finished` past `pool_destroy`. -/
inductive MainThread
  | spawning (left : Nat)
  | joining (i : Nat)
  | waiting (i tid : Nat)
  | stopping
  | leaving
  | finished
deriving DecidableEq, Repr

/-- Where the scaler is. `querying` is past the stop check, `sizing` past the query,
`upping` and `downing` at the call of the callback, `joining` and `clearing` before and
after the `pthread_join` of `pool_down_cb`. -/
inductive ScalerThread
  | off
  | top
  | querying
  | sizing (messagesReady : Int)
  | upping
  | downing
  | joining (idx tid : Nat)
  | clearing (idx : Nat)
  | sleeping
  | exited
deriving DecidableEq, Repr

/-- The pool, `g_nta_stop`, `g_nta_pool_size`, and the threads. -/
structure Server where
  pool : TrafficPool
  stop : Bool
  poolSize : Int
  workers : List WorkerThread
  main : MainThread
  scaler : ScalerThread
  idleSince : Int
deriving DecidableEq, Repr

/-- The `memset` of a slot and the new worker's number. -/
def Server.resetSlot (s : Server) (idx : Nat) : Server :=
  let pool := s.pool.update idx fun slot => { slot with workerId := s.pool.nextId, stop := false }
  { s with pool := { pool with nextId := s.pool.nextId + 1 } }

/-- `pthread_create` has succeeded. -/
def Server.startWorker (s : Server) (idx : Nat) : Server :=
  let pool := s.pool.update idx fun slot => { slot with active := true, tid := s.workers.length }
  { s with
    pool := { pool with count := s.pool.count + 1 }
    poolSize := s.pool.count + 1
    workers := s.workers ++ [⟨idx, .starting, 0⟩] }

/-- `pool_spawn_one_locked`; `created` is whether `pthread_create` succeeds. -/
def poolSpawnOneLocked (s : Server) (created : Bool) : Server × Int :=
  match s.pool.firstFree with
  | none => (s, -1)
  | some idx =>
    if created then
      let s := (s.resetSlot idx).startWorker idx
      (s, s.pool.count)
    else (s.resetSlot idx, -1)

/-- `pool_up_cb`. -/
def poolUpCb (s : Server) (created : Bool) : Server :=
  if s.pool.count < s.pool.max then (poolSpawnOneLocked s created).1 else s

/-- `pthread_join` has returned. -/
def joinThread (s : Server) (tid : Nat) : Server :=
  { s with workers := s.workers.modify tid fun w => { w with joins := w.joins + 1 } }

def hasEnded (s : Server) (tid : Nat) : Bool :=
  match s.workers[tid]? with
  | some w => w.phase = .ended
  | none => false

/-- The steps of the threads, and the stop signal. -/
inductive ServerLabel
  | signal
  | mainSpawn (created : Bool)
  | mainReady (scaler : Bool)
  | mainRead
  | mainJoin
  | mainClear
  | mainJoinScaler
  | mainDestroy
  | scalerCheck
  | scalerQuery (messagesReady : Option Int)
  | scalerSize (now : Int)
  | scalerUp (created : Bool)
  | scalerDown (now : Int)
  | scalerJoin
  | scalerClear (now : Int)
  | scalerWake
  | workerOpen (tid : Nat) (opened : Bool)
  | workerStop (tid : Nat)
deriving DecidableEq, Repr

/-- `on_signal`, `main` from the first spawn to `pool_destroy`, `nta_scaler_thread_main`
with the callbacks of the pool, and the end of `worker_main` for each of its reasons. -/
def serverStep (cfg : ScalerCfg) (s : Server) : ServerLabel → Option Server
  | .signal => some { s with stop := true }
  | .mainSpawn created =>
    match s.main with
    | .spawning (left + 1) =>
      let (s', r) := poolSpawnOneLocked s created
      if r < 0 then some { s' with stop := true, main := .spawning 0 }
      else some { s' with main := .spawning left }
    | _ => none
  | .mainReady scaler =>
    match s.main with
    | .spawning 0 =>
      some { s with main := .joining 0, scaler := if scaler then .top else .off }
    | _ => none
  | .mainRead =>
    match s.main with
    | .joining i =>
      if i < s.pool.max then
        match s.pool.thread i with
        | some tid => some { s with main := .waiting i tid }
        | none => some { s with main := .joining (i + 1) }
      else none
    | _ => none
  | .mainJoin =>
    match s.main with
    | .waiting i tid =>
      if hasEnded s tid then some { joinThread s tid with main := .joining (i + 1) } else none
    | _ => none
  | .mainClear =>
    match s.main with
    | .joining i =>
      if s.pool.max ≤ i then
        let slots := s.pool.slots.map fun slot => { slot with active := false }
        some { s with pool := { s.pool with slots, count := 0 }, main := .stopping }
      else none
    | _ => none
  | .mainJoinScaler =>
    match s.main, s.scaler with
    | .stopping, .off | .stopping, .exited => some { s with main := .leaving }
    | _, _ => none
  | .mainDestroy =>
    match s.main with
    | .leaving => some { s with pool := ⟨[], 0, 0⟩, main := .finished }
    | _ => none
  | .scalerCheck =>
    match s.scaler with
    | .top => some { s with scaler := if s.stop then .exited else .querying }
    | _ => none
  | .scalerQuery messagesReady =>
    match s.scaler, messagesReady with
    | .querying, some ready => some { s with scaler := .sizing ready }
    | .querying, none => some { s with scaler := .sleeping }
    | _, _ => none
  | .scalerSize now =>
    match s.scaler with
    | .sizing ready =>
      match scalerDecide cfg s.idleSince s.pool.count ready now with
      | (.up, idleSince) => some { s with scaler := .upping, idleSince }
      | (.down, idleSince) => some { s with scaler := .downing, idleSince }
      | (.stay, idleSince) => some { s with scaler := .sleeping, idleSince }
    | _ => none
  | .scalerUp created =>
    match s.scaler with
    | .upping => some { poolUpCb s created with scaler := .sleeping }
    | _ => none
  | .scalerDown now =>
    match s.scaler with
    | .downing =>
      match s.pool.lastActive with
      | some idx => do
        let tid ← s.pool.thread idx
        let pool := s.pool.update idx fun slot => { slot with stop := true }
        some { s with pool, scaler := .joining idx tid }
      | none => some { s with scaler := .sleeping, idleSince := now }
    | _ => none
  | .scalerJoin =>
    match s.scaler with
    | .joining idx tid =>
      if hasEnded s tid then some { joinThread s tid with scaler := .clearing idx } else none
    | _ => none
  | .scalerClear now =>
    match s.scaler with
    | .clearing idx =>
      let pool := s.pool.update idx fun slot => { slot with active := false }
      some { s with
        pool := { pool with count := s.pool.count - 1 }
        poolSize := s.pool.count - 1
        scaler := .sleeping
        idleSince := now }
    | _ => none
  | .scalerWake =>
    match s.scaler with
    | .sleeping => some { s with scaler := .top }
    | _ => none
  | .workerOpen tid opened =>
    match s.workers[tid]? with
    | some ⟨slot, .starting, joins⟩ =>
      let w : WorkerThread := ⟨slot, if opened then .running else .ended, joins⟩
      some { s with workers := s.workers.set tid w }
    | _ => none
  | .workerStop tid =>
    match s.workers[tid]? with
    | some ⟨slot, .running, joins⟩ =>
      if s.stop ∨ (s.pool.slots[slot]?.any (·.stop)) then
        some { s with workers := s.workers.set tid ⟨slot, .ended, joins⟩ }
      else none
    | _ => none

/-! ## The steps -/

/-- `pool_down_cb` is emptying the slot. -/
def ScalerThread.Empties (t : ScalerThread) (idx : Nat) : Prop :=
  match t with
  | .joining i _ | .clearing i => i = idx
  | _ => False

instance (t : ScalerThread) (idx : Nat) : Decidable (t.Empties idx) :=
  match t with
  | .joining i _ | .clearing i => inferInstanceAs (Decidable (i = idx))
  | .off | .top | .querying | .sizing _ | .upping | .downing | .sleeping | .exited =>
    inferInstanceAs (Decidable False)

/-- The steps by what they need and what they change, as far as the joins are
concerned. -/
inductive ServerMove (s : Server) : ServerLabel → Server → Prop
  | signal : ServerMove s .signal { s with stop := true }
  | mainSpawn {created left stop left'} : s.main = .spawning left →
      ServerMove s (.mainSpawn created)
        { (poolSpawnOneLocked s created).1 with stop, main := .spawning left' }
  | mainReady {scaler t} : s.main = .spawning 0 → (∀ idx, ¬ t.Empties idx) →
      ServerMove s (.mainReady scaler) { s with main := .joining 0, scaler := t }
  | mainReadActive {i tid} : s.main = .joining i → s.pool.thread i = some tid →
      ServerMove s .mainRead { s with main := .waiting i tid }
  | mainReadFree {i} : s.main = .joining i → s.pool.thread i = none →
      ServerMove s .mainRead { s with main := .joining (i + 1) }
  | mainJoin {i tid} : s.main = .waiting i tid →
      ServerMove s .mainJoin { joinThread s tid with main := .joining (i + 1) }
  | mainClear {i} : s.main = .joining i → s.pool.max ≤ i →
      ServerMove s .mainClear
        { s with
          pool := { s.pool with
            slots := s.pool.slots.map fun slot => { slot with active := false }
            count := 0 }
          main := .stopping }
  | mainJoinScaler : s.main = .stopping → ServerMove s .mainJoinScaler { s with main := .leaving }
  | mainDestroy : s.main = .leaving →
      ServerMove s .mainDestroy { s with pool := ⟨[], 0, 0⟩, main := .finished }
  | scalerIdle {l t idleSince} : s.scaler ≠ .off → (∀ idx, ¬ s.scaler.Empties idx) →
      (∀ idx, ¬ t.Empties idx) → ServerMove s l { s with scaler := t, idleSince }
  | scalerUp {created} : s.scaler = .upping →
      ServerMove s (.scalerUp created) { poolUpCb s created with scaler := .sleeping }
  | scalerDown {now idx tid} : s.scaler = .downing → s.pool.lastActive = some idx →
      s.pool.thread idx = some tid →
      ServerMove s (.scalerDown now)
        { s with
          pool := s.pool.update idx fun slot => { slot with stop := true }
          scaler := .joining idx tid }
  | scalerJoin {idx tid} : s.scaler = .joining idx tid →
      ServerMove s .scalerJoin { joinThread s tid with scaler := .clearing idx }
  | scalerClear {now idx} : s.scaler = .clearing idx →
      ServerMove s (.scalerClear now)
        { s with
          pool := { s.pool.update idx fun slot => { slot with active := false } with
            count := s.pool.count - 1 }
          poolSize := s.pool.count - 1
          scaler := .sleeping
          idleSince := now }
  | worker {l tid w phase} : s.workers[tid]? = some w →
      ServerMove s l { s with workers := s.workers.set tid { w with phase } }

theorem serverStep_move {cfg : ScalerCfg} {s s' : Server} {l : ServerLabel}
    (h : serverStep cfg s l = some s') : ServerMove s l s' := by
  cases l with
  | signal => cases h; exact .signal
  | mainSpawn created =>
    simp only [serverStep] at h
    split at h
    · next left hmain =>
      split at h <;> cases h
      · exact .mainSpawn hmain
      · exact .mainSpawn hmain
    · cases h
  | mainReady scaler =>
    simp only [serverStep] at h
    split at h <;> cases h
    next hmain => exact .mainReady hmain (by cases scaler <;> simp [ScalerThread.Empties])
  | mainRead =>
    simp only [serverStep] at h
    split at h
    · next i hmain =>
      split at h
      · split at h <;> cases h
        · next hact => exact .mainReadActive hmain hact
        · next hfree => exact .mainReadFree hmain hfree
      · cases h
    · cases h
  | mainJoin =>
    simp only [serverStep] at h
    split at h
    · next hmain =>
      split at h <;> cases h
      exact .mainJoin hmain
    · cases h
  | mainClear =>
    simp only [serverStep] at h
    split at h
    · next hmain =>
      split at h <;> cases h
      next hmax => exact .mainClear hmain hmax
    · cases h
  | mainJoinScaler =>
    simp only [serverStep] at h
    split at h <;> cases h
    · next hmain _ => exact .mainJoinScaler hmain
    · next hmain _ => exact .mainJoinScaler hmain
  | mainDestroy =>
    simp only [serverStep] at h
    split at h <;> cases h
    next hmain => exact .mainDestroy hmain
  | scalerCheck =>
    simp only [serverStep] at h
    split at h <;> cases h
    next hsc =>
    refine .scalerIdle (by simp [hsc]) (by simp [hsc, ScalerThread.Empties]) ?_
    split <;> simp [ScalerThread.Empties]
  | scalerQuery messagesReady =>
    simp only [serverStep] at h
    split at h <;> cases h
    all_goals
      next hsc =>
      exact .scalerIdle (by simp [hsc]) (by simp [hsc, ScalerThread.Empties])
        (by simp [ScalerThread.Empties])
  | scalerSize now =>
    simp only [serverStep] at h
    split at h
    · next hsc =>
      split at h <;> cases h
      all_goals
        exact .scalerIdle (by simp [hsc]) (by simp [hsc, ScalerThread.Empties])
          (by simp [ScalerThread.Empties])
    · cases h
  | scalerUp created =>
    simp only [serverStep] at h
    split at h <;> cases h
    next hsc => exact .scalerUp hsc
  | scalerDown now =>
    simp only [serverStep] at h
    split at h
    · next hsc =>
      split at h
      · next hlast =>
        obtain ⟨tid, hthread, hs⟩ := Option.bind_eq_some_iff.mp h
        cases hs
        exact .scalerDown hsc hlast hthread
      · cases h
        exact .scalerIdle (by simp [hsc]) (by simp [hsc, ScalerThread.Empties])
          (by simp [ScalerThread.Empties])
    · cases h
  | scalerJoin =>
    simp only [serverStep] at h
    split at h
    · next hsc =>
      split at h <;> cases h
      exact .scalerJoin hsc
    · cases h
  | scalerClear now =>
    simp only [serverStep] at h
    split at h <;> cases h
    next hsc => exact .scalerClear hsc
  | scalerWake =>
    simp only [serverStep] at h
    split at h <;> cases h
    next hsc =>
    exact .scalerIdle (by simp [hsc]) (by simp [hsc, ScalerThread.Empties])
      (by simp [ScalerThread.Empties])
  | workerOpen tid opened =>
    simp only [serverStep] at h
    split at h <;> cases h
    next hw => exact .worker hw
  | workerStop tid =>
    simp only [serverStep] at h
    split at h
    · next hw =>
      split at h <;> cases h
      exact .worker hw
    · cases h

end TrafficAnalyzer
