import Mathlib.Logic.Function.Basic
import TrafficAnalyzer.Lib.Lts
import TrafficAnalyzer.Server.Consumer

/-!
# Stopping a worker (`nta_amqp_consume_loop`, `worker_main`, `pool_down_cb`)

The broker and the workers that consume one queue without acknowledgements: the broker drops a
message from its queue when it sends it, sends without waiting for the worker, and what the
worker has not read waits in the buffer of its connection. Every worker reads its stop flag and
the flag of the process between two reads.

1. `consumerStep_sent`: what the broker has sent over a connection has been handled or waits
   in its buffer.
2. `stop_loses_nothing_iff`: a stop loses no message exactly when no worker reads a stop flag
   as 1 with a message in its buffer, and none is sent to a worker that has left the loop.
3. `scaleDown_loses`: a scale-down that finds a message in the buffer.
-/

namespace TrafficAnalyzer

/-! ## One worker -/

/-- Where a worker is. `offline` is at the call of `nta_amqp_open_retry`, `opening` past its
stop check, `checking` and `reading` at the two calls of the consume loop, `handling` in the
handler, `left` and `lost` where the loop has returned 0 and -1, `ended` past the
`nta_amqp_close` after a 0, and `stopped` where `nta_amqp_open_retry` has returned -1. -/
inductive ConsumerPhase
  | offline
  | opening
  | checking
  | reading
  | handling
  | left
  | lost
  | ended
  | stopped
deriving DecidableEq

/-- A worker: its stop flag, where it is, the buffer of its connection, and for the connection
what the broker has sent and what the handler has been given. -/
structure QueueConsumer where
  stop : Bool
  phase : ConsumerPhase
  buffer : List Message
  sent : List Message
  handled : List Message

/-- The broker sends to a worker that consumes and has not closed its connection. -/
def QueueConsumer.IsConnected (c : QueueConsumer) : Prop :=
  c.phase = .checking ∨ c.phase = .reading ∨ c.phase = .handling ∨ c.phase = .left ∨
    c.phase = .lost

instance (c : QueueConsumer) : Decidable c.IsConnected :=
  inferInstanceAs (Decidable (c.phase = .checking ∨ c.phase = .reading ∨ c.phase = .handling ∨
    c.phase = .left ∨ c.phase = .lost))

/-- The steps of a worker, and the `stop` flag that `pool_down_cb` sets. -/
inductive ConsumerLabel
  | scaleDown
  | openRetry
  | consume (ok : Bool)
  | check
  | read
  | timeout
  | fail
  | returned
  | close
deriving DecidableEq

/-- One step of a worker. `global` is `nta_should_stop()`. -/
def consumerStep (global : Bool) (c : QueueConsumer) : ConsumerLabel → Option QueueConsumer
  | .scaleDown => some { c with stop := true }
  | .openRetry =>
    match c.phase with
    | .offline =>
      if global ∨ c.stop then some { c with phase := .stopped }
      else some { c with phase := .opening, buffer := [], sent := [], handled := [] }
    | _ => none
  | .consume ok =>
    match c.phase with
    | .opening => some { c with phase := if ok then .checking else .offline }
    | _ => none
  | .check =>
    match c.phase with
    | .checking => some { c with phase := if global ∨ c.stop then .left else .reading }
    | _ => none
  | .read =>
    match c.phase, c.buffer with
    | .reading, m :: rest =>
      some { c with phase := .handling, buffer := rest, handled := c.handled ++ [m] }
    | _, _ => none
  | .timeout =>
    match c.phase with
    | .reading => some { c with phase := .checking }
    | _ => none
  | .fail =>
    match c.phase with
    | .reading => some { c with phase := .lost }
    | _ => none
  | .returned =>
    match c.phase with
    | .handling => some { c with phase := .checking }
    | _ => none
  | .close =>
    match c.phase with
    | .left => some { c with phase := .ended }
    | .lost => some { c with phase := .offline }
    | _ => none

/-- `nta_amqp_consume_loop` has returned 0. -/
def QueueConsumer.HasLeft (c : QueueConsumer) : Prop := c.phase = .left ∨ c.phase = .ended

/-- Messages that nobody reads any more. -/
def QueueConsumer.Stranded (c : QueueConsumer) : Prop := c.HasLeft ∧ c.buffer ≠ []

/-- The broker sends a message over the connection. -/
def QueueConsumer.send (c : QueueConsumer) (m : Message) : QueueConsumer :=
  { c with buffer := c.buffer ++ [m], sent := c.sent ++ [m] }

/-- What was sent has been handled or waits, in order. -/
def QueueConsumer.Accounted (c : QueueConsumer) : Prop := c.sent = c.handled ++ c.buffer

section Worker

variable {global : Bool} {c c' : QueueConsumer} {l : ConsumerLabel}

theorem consumerStep_sent (h : c.Accounted) (hs : consumerStep global c l = some c') :
    c'.Accounted := by
  cases l with
  | scaleDown =>
    cases hs
    exact h
  | openRetry =>
    simp only [consumerStep] at hs
    split at hs
    · split at hs <;> cases hs
      · exact h
      · exact rfl
    · cases hs
  | read =>
    simp only [consumerStep] at hs
    split at hs
    · next m rest _ hbuf =>
      cases hs
      rw [QueueConsumer.Accounted, hbuf] at h
      rw [QueueConsumer.Accounted, h, List.append_assoc]
      rfl
    · cases hs
  | consume | check | timeout | fail | returned | close =>
    simp only [consumerStep] at hs
    split at hs <;> cases hs
    all_goals exact h

/-- A worker strands messages by reading a stop flag as 1 while its buffer holds some; what is
stranded stays so. -/
theorem consumerStep_stranded (hs : consumerStep global c l = some c') :
    c'.Stranded ↔
      (l = .check ∧ (global = true ∨ c.stop = true) ∧ c.buffer ≠ []) ∨ c.Stranded := by
  cases l with
  | scaleDown =>
    cases hs
    simp [QueueConsumer.Stranded, QueueConsumer.HasLeft]
  | openRetry =>
    simp only [consumerStep] at hs
    split at hs
    · next hphase =>
      split at hs <;> cases hs <;> simp [QueueConsumer.Stranded, QueueConsumer.HasLeft, hphase]
    · cases hs
  | read =>
    simp only [consumerStep] at hs
    split at hs
    · next hphase _ =>
      cases hs
      simp [QueueConsumer.Stranded, QueueConsumer.HasLeft, hphase]
    · cases hs
  | consume ok =>
    simp only [consumerStep] at hs
    split at hs
    · next hphase =>
      cases hs
      cases ok <;> simp [QueueConsumer.Stranded, QueueConsumer.HasLeft, hphase]
    · cases hs
  | check =>
    simp only [consumerStep] at hs
    split at hs
    · next hphase =>
      cases hs
      cases global <;> cases hstop : c.stop <;>
        simp [QueueConsumer.Stranded, QueueConsumer.HasLeft, hphase]
    · cases hs
  | timeout | fail | returned | close =>
    simp only [consumerStep] at hs
    split at hs
    all_goals first
      | cases hs; done
      | next hphase => cases hs; simp [QueueConsumer.Stranded, QueueConsumer.HasLeft, hphase]

/-- A message that is sent to a worker that has left the loop is stranded. -/
theorem send_stranded (hconn : c.IsConnected) (m : Message) :
    (c.send m).Stranded ↔ c.phase = .left ∨ c.Stranded := by
  rcases hconn with h | h | h | h | h <;>
    simp [QueueConsumer.Stranded, QueueConsumer.HasLeft, QueueConsumer.send, h]

theorem send_accounted (h : c.Accounted) (m : Message) : (c.send m).Accounted := by
  rw [QueueConsumer.Accounted] at h
  rw [QueueConsumer.Accounted, QueueConsumer.send, h, List.append_assoc]

end Worker

/-! ## The broker and all workers -/

/-- `traffic_queue`, `g_nta_stop`, and every worker that is created. -/
structure Traffic (ι : Type) where
  queue : List Message
  stop : Bool
  workers : ι → QueueConsumer

/-- An agent publishes, a signal arrives, the broker sends a message to a worker, or a worker
takes a step. -/
inductive TrafficLabel (ι : Type)
  | publish (m : Message)
  | signal
  | deliver (i : ι)
  | worker (i : ι) (l : ConsumerLabel)
deriving DecidableEq

/-- All workers are before their first connection. -/
structure IsFresh {ι : Type} (s : Traffic ι) : Prop where
  phase : ∀ i, (s.workers i).phase = .offline
  accounted : ∀ i, (s.workers i).Accounted

section System

variable {ι : Type} [DecidableEq ι]

def Traffic.setWorker (s : Traffic ι) (i : ι) (c : QueueConsumer) : Traffic ι :=
  { s with workers := Function.update s.workers i c }

def trafficStep (s : Traffic ι) : TrafficLabel ι → Option (Traffic ι)
  | .publish m => some { s with queue := s.queue ++ [m] }
  | .signal => some { s with stop := true }
  | .deliver i =>
    match s.queue with
    | m :: queue =>
      if (s.workers i).IsConnected then
        some ({ s with queue }.setWorker i ((s.workers i).send m))
      else none
    | [] => none
  | .worker i l => (consumerStep s.stop (s.workers i) l).map (s.setWorker i)

def trafficLts (ι : Type) [DecidableEq ι] : Lts (Traffic ι) (TrafficLabel ι) where
  init := IsFresh
  step := trafficStep

abbrev TrafficStep (ι : Type) := Lts.Step (Traffic ι) (TrafficLabel ι)

/-- Every message that the broker has removed from the queue for a worker whose loop has
returned 0 was given to the handler of that worker. -/
def LosesNothing (s : Traffic ι) : Prop :=
  ∀ i, (s.workers i).HasLeft → (s.workers i).handled = (s.workers i).sent

/-- The step by which a worker leaves its loop with a message in its buffer, or by which a
message is sent to a worker that has left it. -/
def LeavesBehind (x : TrafficStep ι) : Prop :=
  match x.label with
  | .worker i .check =>
    (x.before.stop = true ∨ (x.before.workers i).stop = true) ∧ (x.before.workers i).buffer ≠ []
  | .deliver i => (x.before.workers i).phase = .left
  | _ => False

variable {s s' s0 t : Traffic ι} {l : TrafficLabel ι} {tr : List (TrafficStep ι)}

/-- A step changes no worker, or one: it leaves messages behind exactly when it strands some
of that worker. -/
theorem trafficStep_cases (hs : trafficStep s l = some s') :
    (s'.workers = s.workers ∧ ¬ LeavesBehind ⟨s, l, s'⟩) ∨
      ∃ i c, s'.workers = Function.update s.workers i c ∧
        ((s.workers i).Accounted → c.Accounted) ∧
        (c.Stranded ↔ LeavesBehind ⟨s, l, s'⟩ ∨ (s.workers i).Stranded) := by
  cases l with
  | publish m =>
    cases hs
    exact .inl ⟨rfl, id⟩
  | signal =>
    cases hs
    exact .inl ⟨rfl, id⟩
  | deliver i =>
    simp only [trafficStep] at hs
    split at hs
    · next m queue _ =>
      split at hs
      · next hconn =>
        cases hs
        exact .inr ⟨i, _, rfl, fun h => send_accounted h m, send_stranded hconn m⟩
      · cases hs
    · cases hs
  | worker i l =>
    obtain ⟨c, hc, rfl⟩ := Option.map_eq_some_iff.mp hs
    refine .inr ⟨i, c, rfl, fun h => consumerStep_sent h hc, ?_⟩
    rw [consumerStep_stranded hc]
    cases l <;> simp [LeavesBehind]

/-- A property of some worker after one worker has changed. -/
theorem exists_update_iff {σ : Type} {P : σ → Prop} {Q : Prop} {w : ι → σ} {i : ι} {c : σ}
    (h : P c ↔ Q ∨ P (w i)) : (∃ j, P (Function.update w i c j)) ↔ Q ∨ ∃ j, P (w j) := by
  constructor
  · rintro ⟨j, hj⟩
    rcases Decidable.em (j = i) with rfl | hne
    · rw [Function.update_self, h] at hj
      exact hj.imp_right fun hp => ⟨j, hp⟩
    · rw [Function.update_of_ne hne] at hj
      exact .inr ⟨j, hj⟩
  · rintro (hq | ⟨j, hj⟩)
    · exact ⟨i, by rw [Function.update_self, h]; exact .inl hq⟩
    · rcases Decidable.em (j = i) with rfl | hne
      · exact ⟨j, by rw [Function.update_self, h]; exact .inr hj⟩
      · exact ⟨j, by rw [Function.update_of_ne hne]; exact hj⟩

theorem run_accounted (h0 : IsFresh s0) (h : Lts.Run (trafficLts ι) s0 tr t) :
    ∀ i, (t.workers i).Accounted := by
  refine h.induct (I := fun _ t => ∀ i, (t.workers i).Accounted) h0.accounted ?_
  intro tr t l u _ hacc hs j
  obtain ⟨hw, _⟩ | ⟨i, c, hw, hkeep, _⟩ := trafficStep_cases hs
  · rw [hw]
    exact hacc j
  · rw [hw]
    rcases Decidable.em (j = i) with rfl | hne
    · rw [Function.update_self]
      exact hkeep (hacc j)
    · rw [Function.update_of_ne hne]
      exact hacc j

/-- Messages are stranded after a run exactly when one of its steps left some behind. -/
theorem run_stranded_worker (h0 : IsFresh s0) (h : Lts.Run (trafficLts ι) s0 tr t) :
    (∃ i, (t.workers i).Stranded) ↔ ∃ x ∈ tr, LeavesBehind x := by
  have hstart : ¬ ∃ i, (s0.workers i).Stranded := by
    simp [QueueConsumer.Stranded, QueueConsumer.HasLeft, h0.phase]
  refine h.marked_iff (P := fun t => ∃ i, (t.workers i).Stranded) hstart fun x hx => ?_
  obtain ⟨hw, hnot⟩ | ⟨i, c, hw, _, hiff⟩ := trafficStep_cases (h.step_of_mem hx)
  · rw [hw, or_iff_right hnot]
  · rw [hw]
    exact exists_update_iff hiff

/-- Between what was sent and what was handled stands the buffer. -/
theorem QueueConsumer.Accounted.handled_iff {c : QueueConsumer} (h : c.Accounted) :
    c.handled = c.sent ↔ c.buffer = [] := by
  rw [QueueConsumer.Accounted] at h
  rw [h, List.self_eq_append_right]

/-- A stop loses no message exactly when no worker leaves its loop with a message in its
buffer and nothing is sent to a worker that has left it. -/
theorem stop_loses_nothing_iff (h0 : IsFresh s0) (h : Lts.Run (trafficLts ι) s0 tr t) :
    LosesNothing t ↔ ∀ x ∈ tr, ¬ LeavesBehind x := by
  have hacc := run_accounted h0 h
  have hstranded := run_stranded_worker h0 h
  have hlost : LosesNothing t ↔ ¬ ∃ i, (t.workers i).Stranded := by
    simp only [LosesNothing, (hacc _).handled_iff, QueueConsumer.Stranded, not_exists, not_and,
      not_not]
  rw [hlost, hstranded]
  simp only [not_exists, not_and]

end System

/-! ## A scale-down -/

/-- A worker before its first connection, and one message in the queue. -/
def oneWorker : Traffic Unit where
  queue := [⟨agentProperties unknownAgent, []⟩]
  stop := false
  workers _ := ⟨false, .offline, [], [], []⟩

theorem oneWorker_fresh : IsFresh oneWorker := ⟨fun _ => rfl, fun _ => rfl⟩

/-- The flag is set while the worker waits in its handler, and the buffer is empty. -/
def calmScaleDown : List (TrafficLabel Unit) :=
  [.worker () .openRetry, .worker () (.consume true), .worker () .check, .deliver (),
    .worker () .read, .worker () .scaleDown, .worker () .returned, .worker () .check,
    .worker () .close]

/-- The flag is set just after the broker has sent the message. -/
def busyScaleDown : List (TrafficLabel Unit) :=
  [.worker () .openRetry, .worker () (.consume true), .deliver (), .worker () .scaleDown,
    .worker () .check, .worker () .close]

instance {ι : Type} [DecidableEq ι] (x : TrafficStep ι) : Decidable (LeavesBehind x) :=
  match x with
  | ⟨s, .worker i .check, _⟩ => inferInstanceAs (Decidable
      ((s.stop = true ∨ (s.workers i).stop = true) ∧ (s.workers i).buffer ≠ []))
  | ⟨s, .deliver i, _⟩ => inferInstanceAs (Decidable ((s.workers i).phase = .left))
  | ⟨_, .publish _, _⟩ | ⟨_, .signal, _⟩ | ⟨_, .worker _ .scaleDown, _⟩
  | ⟨_, .worker _ .openRetry, _⟩ | ⟨_, .worker _ (.consume _), _⟩ | ⟨_, .worker _ .read, _⟩
  | ⟨_, .worker _ .timeout, _⟩ | ⟨_, .worker _ .fail, _⟩ | ⟨_, .worker _ .returned, _⟩
  | ⟨_, .worker _ .close, _⟩ => inferInstanceAs (Decidable False)

/-- A scale-down with an empty buffer loses nothing. -/
theorem stop_loses_nothing_iff_calm :
    ∃ (tr : List (TrafficStep Unit)) (t : Traffic Unit),
      Lts.Run (trafficLts Unit) oneWorker tr t ∧ (t.workers ()).phase = .ended ∧
        (t.workers ()).sent.length = 1 ∧ LosesNothing t := by
  have hok : ((trafficLts Unit).exec oneWorker calmScaleDown).map
      (fun r => ((r.2.workers ()).phase, (r.2.workers ()).sent.length,
        r.1.all fun x => decide (¬ LeavesBehind x))) = some (.ended, 1, true) := by
    decide +kernel
  obtain ⟨tr, t, hrun, hval⟩ := Lts.run_of_exec hok
  simp only [Prod.mk.injEq, List.all_eq_true, decide_eq_true_eq] at hval
  obtain ⟨hphase, hsent, hall⟩ := hval
  exact ⟨tr, t, hrun, hphase, hsent,
    (stop_loses_nothing_iff oneWorker_fresh hrun).mpr hall⟩

/-- A scale-down with a message in the buffer loses it. -/
theorem scaleDown_loses :
    ∃ (tr : List (TrafficStep Unit)) (t : Traffic Unit),
      Lts.Run (trafficLts Unit) oneWorker tr t ∧ (t.workers ()).phase = .ended ∧
        ¬ LosesNothing t := by
  have hok : ((trafficLts Unit).exec oneWorker busyScaleDown).map
      (fun r => ((r.2.workers ()).phase, (r.2.workers ()).sent.length,
        (r.2.workers ()).handled.length)) = some (.ended, 1, 0) := by
    decide +kernel
  obtain ⟨tr, t, hrun, hval⟩ := Lts.run_of_exec hok
  simp only [Prod.mk.injEq] at hval
  obtain ⟨hphase, hsent, hhandled⟩ := hval
  refine ⟨tr, t, hrun, hphase, fun h => ?_⟩
  have hall := congrArg List.length (h () (.inr hphase))
  rw [hsent, hhandled] at hall
  cases hall

end TrafficAnalyzer
