import TrafficAnalyzer.Lib.Backoff
import TrafficAnalyzer.Lib.Lts

/-!
# The connection to the broker (`src/agent/output/publisher.c`)

The publication and the metrics thread share one AMQP connection and its retry policy, and
every access stands in a critical section of `amqp_mutex`. A critical section is one step;
`publisher_send_batch` has two of them, between which other threads may run. The calls to the
broker have any outcome. Connections are numbered, `live` are those not destroyed, and a
section that uses a connection that is not live has no result.

* `connectLocked_connects`: the exits of `connect_locked`.
* `Reconnecting`: `conn` is the only live connection, set exactly when `g_connected` is, and
  the retry policy is the backoff of the attempts so far.
* `run_reconnects`: what the invariant says in every run.
-/

namespace TrafficAnalyzer

/-! ## The source -/

def RECONNECT_MIN_MS : Int := 1000
def RECONNECT_MAX_MS : Int := 30000

/-- `g_use_tls` and `g_use_mtls`. -/
structure PublisherConfig where
  useTls : Bool
  useMtls : Bool
deriving DecidableEq

/-- Whether each call of `connect_locked` to the library and the broker succeeds. -/
structure ConnectOutcome where
  newConnection : Bool
  sslSocket : Bool
  sslKey : Bool
  tcpSocket : Bool
  socketOpen : Bool
  login : Bool
  channelOpen : Bool
  queueDeclare : Bool
  metricsDeclare : Bool
deriving DecidableEq

/-- The globals behind `amqp_mutex`, the connections, the number of calls of
`publisher_send_batch` between their two sections, and the calls of `connect_locked` so far
with the time read before them and whether they returned 0. Times are `long` milliseconds. -/
structure Publisher where
  config : PublisherConfig
  conn : Option Nat
  connected : Bool
  nextRetryMs : Int
  backoffMs : Int
  live : List Nat
  created : Nat
  batches : Nat
  attempts : List Backoff.Attempt
deriving DecidableEq

def Publisher.initial : Publisher :=
  { config := ⟨false, false⟩, conn := none, connected := false, nextRetryMs := 0,
    backoffMs := RECONNECT_MIN_MS, live := [], created := 0, batches := 0, attempts := [] }

/-- `drop_connection_locked`; destroying a dead connection has no result. -/
def dropConnectionLocked (p : Publisher) : Option Publisher :=
  match p.conn with
  | some c =>
    if c ∈ p.live then
      some { p with live := p.live.erase c, conn := none, connected := false }
    else none
  | none => some { p with conn := none, connected := false }

/-- A call on `conn`: it goes on to `next`, or drops the connection. -/
def Publisher.call (p : Publisher) (ok : Bool) (next : Publisher → Option (Publisher × Bool)) :
    Option (Publisher × Bool) :=
  if p.conn.any (· ∈ p.live) then
    if ok then next p else (dropConnectionLocked p).map (·, false)
  else none

/-- `connect_locked` from the opening of the socket on. -/
def openSession (o : ConnectOutcome) (p : Publisher) : Option (Publisher × Bool) :=
  p.call o.socketOpen fun p =>
    p.call o.login fun p =>
      p.call o.channelOpen fun p =>
        p.call o.queueDeclare fun p =>
          p.call o.metricsDeclare fun p =>
            some ({ p with connected := true, backoffMs := RECONNECT_MIN_MS }, true)

/-- `connect_locked` from the creation of the socket on. -/
def openSocket (o : ConnectOutcome) (p : Publisher) : Option (Publisher × Bool) :=
  if p.config.useTls then
    p.call o.sslSocket fun p =>
      if p.config.useMtls then p.call o.sslKey (openSession o) else openSession o p
  else p.call o.tcpSocket (openSession o)

/-- `connect_locked`; the result is whether it returns 0. -/
def connectLocked (o : ConnectOutcome) (p : Publisher) : Option (Publisher × Bool) :=
  if o.newConnection then
    openSocket o { p with
      conn := some p.created, live := p.created :: p.live, created := p.created + 1 }
  else some ({ p with conn := none }, false)

/-- `ensure_connected_locked` at the time `now`; the result is whether it returns 0. -/
def ensureConnectedLocked (now : Int) (o : ConnectOutcome) (p : Publisher) :
    Option (Publisher × Bool) :=
  if p.connected then some (p, true)
  else if now < p.nextRetryMs then some (p, false)
  else do
    let (p, ok) ← connectLocked o p
    let p := { p with attempts := p.attempts ++ [⟨now, ok⟩] }
    if ok then some (p, true)
    else
      some ({ p with
        nextRetryMs := now + p.backoffMs
        backoffMs :=
          if p.backoffMs * 2 > RECONNECT_MAX_MS then RECONNECT_MAX_MS else p.backoffMs * 2 }, false)

/-- The critical section of `publish_to`; `sent` is whether `amqp_basic_publish` succeeds. -/
def publishTo (now : Int) (o : ConnectOutcome) (sent : Bool) (p : Publisher) :
    Option (Publisher × Bool) := do
  let (p, up) ← ensureConnectedLocked now o p
  if up then p.call sent fun p => some (p, true) else some (p, false)

/-- The critical section of `close_queue`. -/
def closeQueue (p : Publisher) : Option Publisher :=
  if p.connected && !p.conn.any (· ∈ p.live) then none else dropConnectionLocked p

/-- The critical sections. `readEnv` and `initQueue` are `init_queue`; `batchCheck` and
`batchPublish` are the two of a call of `publisher_send_batch`, which `batchDrop` leaves when
the message cannot be built. -/
inductive PublisherLabel
  | readEnv (config : PublisherConfig)
  | initQueue (now : Int) (o : ConnectOutcome)
  | batchCheck (now : Int) (o : ConnectOutcome)
  | batchDrop
  | batchPublish (now : Int) (o : ConnectOutcome) (sent : Bool)
  | sendMetrics (now : Int) (o : ConnectOutcome) (sent : Bool)
  | closeQueue

def publisherStep (p : Publisher) : PublisherLabel → Option Publisher
  | .readEnv config => some { p with config := config }
  | .initQueue now o => (ensureConnectedLocked now o p).map Prod.fst
  | .batchCheck now o =>
    (ensureConnectedLocked now o p).map fun r =>
      if r.2 then { r.1 with batches := r.1.batches + 1 } else r.1
  | .batchDrop => if p.batches = 0 then none else some { p with batches := p.batches - 1 }
  | .batchPublish now o sent =>
    if p.batches = 0 then none
    else (publishTo now o sent { p with batches := p.batches - 1 }).map Prod.fst
  | .sendMetrics now o sent => (publishTo now o sent p).map Prod.fst
  | .closeQueue => TrafficAnalyzer.closeQueue p

def publisherLts : Lts Publisher PublisherLabel where
  init p := p = .initial
  step := publisherStep

/-- A section that some thread may enter. -/
def PublisherLabel.Ready (p : Publisher) : PublisherLabel → Prop
  | .batchDrop | .batchPublish .. => p.batches ≠ 0
  | _ => True

/-! ## The invariant -/

def reconnectPolicy : Backoff.Policy where
  base := RECONNECT_MIN_MS
  cap := RECONNECT_MAX_MS
  base_nonneg := by decide
  base_le := by decide

def Publisher.retry (p : Publisher) : Backoff.Retry := ⟨p.nextRetryMs, p.backoffMs⟩

/-- The retry policy after the attempts `as`. -/
def retryAfter (as : List Backoff.Attempt) : Backoff.Retry :=
  as.foldl reconnectPolicy.after Publisher.initial.retry

structure Reconnecting (p : Publisher) : Prop where
  live : p.live = p.conn.toList
  connected : p.conn.isSome = p.connected
  retry : p.retry = retryAfter p.attempts
  paced : reconnectPolicy.Paced Publisher.initial.retry p.attempts

/-- The calls that `connect_locked` makes from the socket on succeed. -/
def ConnectOutcome.opens (o : ConnectOutcome) (config : PublisherConfig) : Bool :=
  (if config.useTls then o.sslSocket && (!config.useMtls || o.sslKey) else o.tcpSocket) &&
    (o.socketOpen && o.login && o.channelOpen && o.queueDeclare && o.metricsDeclare)

section Sections

variable {now : Int} {o : ConnectOutcome} {p : Publisher}

/-- The publisher without a connection. -/
def Publisher.down (p : Publisher) : Publisher :=
  { p with conn := none, connected := false, live := [] }

theorem dropConnectionLocked_eq (h : p.live = p.conn.toList) :
    dropConnectionLocked p = some p.down := by
  unfold dropConnectionLocked Publisher.down
  cases hc : p.conn with
  | none => rw [h, hc]; rfl
  | some c => simp [h, hc]

theorem call_eq {c : Nat} (hc : p.conn = some c) (hlive : p.live = [c]) (ok : Bool)
    (next : Publisher → Option (Publisher × Bool)) :
    p.call ok next = if ok then next p else some (p.down, false) := by
  rw [Publisher.call, dropConnectionLocked_eq (by rw [hlive, hc]; rfl)]
  simp [hc, hlive]

theorem openSession_eq {c : Nat} (hc : p.conn = some c) (hlive : p.live = [c]) :
    openSession o p = some
      (if o.socketOpen && o.login && o.channelOpen && o.queueDeclare && o.metricsDeclare then
        ({ p with connected := true, backoffMs := RECONNECT_MIN_MS }, true)
      else (p.down, false)) := by
  simp only [openSession, call_eq hc hlive, ← apply_ite some, ← ite_and, Bool.and_eq_true, and_assoc]

theorem openSocket_eq {c : Nat} (hc : p.conn = some c) (hlive : p.live = [c]) :
    openSocket o p = some
      (if o.opens p.config then
        ({ p with connected := true, backoffMs := RECONNECT_MIN_MS }, true)
      else (p.down, false)) := by
  unfold openSocket ConnectOutcome.opens
  simp only [call_eq hc hlive, openSession_eq hc hlive]
  cases p.config.useTls with
  | false => cases o.tcpSocket <;> rfl
  | true => cases p.config.useMtls <;> cases o.sslSocket <;> cases o.sslKey <;> rfl

/-- What `connect_locked` leaves: a connection exactly when it returns 0, and the retry policy
with the least backoff then. -/
structure Connects (p : Publisher) (ok : Bool) (q : Publisher) : Prop where
  live : q.live = q.conn.toList
  conn : q.conn.isSome = ok
  connected : q.connected = ok
  attempts : q.attempts = p.attempts
  next : q.nextRetryMs = p.nextRetryMs
  backoff : q.backoffMs = if ok then RECONNECT_MIN_MS else p.backoffMs

theorem connectLocked_connects (hlive : p.live = []) (hdown : p.connected = false) :
    ∃ ok q, connectLocked o p = some (q, ok) ∧ Connects p ok q := by
  unfold connectLocked
  cases o.newConnection with
  | false => exact ⟨false, _, rfl, hlive, rfl, hdown, rfl, rfl, rfl⟩
  | true =>
    rw [if_pos rfl, openSocket_eq rfl (by rw [hlive])]
    cases o.opens p.config with
    | false => exact ⟨false, _, rfl, rfl, rfl, rfl, rfl, rfl, rfl⟩
    | true => exact ⟨true, _, rfl, congrArg (p.created :: ·) hlive, rfl, rfl, rfl, rfl, rfl⟩

theorem Reconnecting.down (h : Reconnecting p) : Reconnecting p.down where
  live := rfl
  connected := rfl
  retry := h.retry
  paced := h.paced

/-- An attempt at the time `now`. -/
theorem Reconnecting.attempt {q : Publisher} {ok : Bool} (h : Reconnecting p)
    (hnow : p.nextRetryMs ≤ now) (hlive : q.live = q.conn.toList)
    (hconn : q.conn.isSome = q.connected) (hattempts : q.attempts = p.attempts ++ [⟨now, ok⟩])
    (hretry : q.retry = reconnectPolicy.after p.retry ⟨now, ok⟩) : Reconnecting q where
  live := hlive
  connected := hconn
  retry := by
    rw [hretry, h.retry, hattempts, retryAfter, retryAfter, List.foldl_append]
    rfl
  paced := by
    rw [hattempts]
    refine reconnectPolicy.paced_snoc.mpr ⟨h.paced, ?_⟩
    exact (congrArg Backoff.Retry.next h.retry).symm.trans_le hnow

/-- The exits of `ensure_connected_locked`: it returns 0 with a connection. -/
theorem ensureConnectedLocked_spec (h : Reconnecting p) (now : Int) (o : ConnectOutcome) :
    ∃ q up, ensureConnectedLocked now o p = some (q, up) ∧ Reconnecting q ∧ q.connected = up := by
  unfold ensureConnectedLocked
  cases hconn : p.connected with
  | true => exact ⟨p, true, rfl, h, hconn⟩
  | false =>
    rw [if_neg Bool.false_ne_true]
    split
    · exact ⟨p, false, rfl, h, hconn⟩
    · next hnow =>
      have hnone : p.conn = none := by
        cases hc : p.conn with
        | none => rfl
        | some c => exact absurd (h.connected.trans hconn) (by rw [hc]; nofun)
      obtain ⟨ok, q, hq, hs⟩ := connectLocked_connects (o := o) (by rw [h.live, hnone]; rfl) hconn
      rw [hq]
      cases ok with
      | true =>
        refine ⟨_, true, rfl, h.attempt (Int.not_lt.mp hnow) hs.live
          (hs.conn.trans hs.connected.symm) (by rw [hs.attempts]) ?_, hs.connected⟩
        exact congrArg₂ Backoff.Retry.mk hs.next hs.backoff
      | false =>
        refine ⟨_, false, rfl, h.attempt (Int.not_lt.mp hnow) hs.live
          (hs.conn.trans hs.connected.symm) (by rw [hs.attempts]) ?_, hs.connected⟩
        have hb : q.backoffMs = p.backoffMs := hs.backoff
        simp only [Publisher.retry, hb]
        rfl

theorem call_spec (h : Reconnecting p) (hconn : p.connected = true) (ok : Bool) :
    ∃ q up, p.call ok (fun p => some (p, true)) = some (q, up) ∧ Reconnecting q := by
  obtain ⟨c, hc⟩ := Option.isSome_iff_exists.mp (h.connected.trans hconn)
  rw [call_eq hc (by rw [h.live, hc]; rfl)]
  cases ok with
  | true => exact ⟨p, true, rfl, h⟩
  | false => exact ⟨p.down, false, rfl, h.down⟩

theorem publishTo_spec (h : Reconnecting p) (now : Int) (o : ConnectOutcome) (sent : Bool) :
    ∃ q up, publishTo now o sent p = some (q, up) ∧ Reconnecting q := by
  obtain ⟨q, up, hq, hs, hup⟩ := ensureConnectedLocked_spec h now o
  unfold publishTo
  rw [hq]
  cases up with
  | true => exact call_spec hs hup sent
  | false => exact ⟨q, false, rfl, hs⟩

theorem closeQueue_spec (h : Reconnecting p) :
    ∃ q, closeQueue p = some q ∧ Reconnecting q := by
  refine ⟨p.down, ?_, h.down⟩
  have huse : (p.connected && !p.conn.any (· ∈ p.live)) = false := by
    rw [← h.connected, h.live]
    cases p.conn <;> simp
  rw [closeQueue, huse, if_neg Bool.false_ne_true]
  exact dropConnectionLocked_eq h.live

/-- The pending calls of `publisher_send_batch` do not matter to the connection. -/
theorem Reconnecting.batches (h : Reconnecting p) (n : Nat) :
    Reconnecting { p with batches := n } where
  live := h.live
  connected := h.connected
  retry := h.retry
  paced := h.paced

/-- Every section that a thread may enter ends, and keeps the invariant. -/
theorem publisherStep_spec {l : PublisherLabel} (h : Reconnecting p) (hl : l.Ready p) :
    ∃ q, publisherStep p l = some q ∧ Reconnecting q := by
  cases l with
  | readEnv config => exact ⟨_, rfl, h.live, h.connected, h.retry, h.paced⟩
  | initQueue now o =>
    obtain ⟨q, up, hq, hs, -⟩ := ensureConnectedLocked_spec h now o
    exact ⟨q, by rw [publisherStep, hq]; rfl, hs⟩
  | batchCheck now o =>
    obtain ⟨q, up, hq, hs, -⟩ := ensureConnectedLocked_spec h now o
    rw [publisherStep, hq]
    cases up with
    | true => exact ⟨_, rfl, hs.batches _⟩
    | false => exact ⟨_, rfl, hs⟩
  | batchDrop => exact ⟨_, if_neg hl, h.batches _⟩
  | batchPublish now o sent =>
    obtain ⟨q, up, hq, hs⟩ := publishTo_spec (h.batches (p.batches - 1)) now o sent
    exact ⟨q, by rw [publisherStep, if_neg hl, hq]; rfl, hs⟩
  | sendMetrics now o sent =>
    obtain ⟨q, up, hq, hs⟩ := publishTo_spec h now o sent
    exact ⟨q, by rw [publisherStep, hq]; rfl, hs⟩
  | closeQueue => exact closeQueue_spec h

theorem ready_of_step {l : PublisherLabel} {q : Publisher} (h : publisherStep p l = some q) :
    l.Ready p := by
  cases l with
  | batchDrop =>
    intro hb
    rw [publisherStep, if_pos hb] at h
    cases h
  | batchPublish now o sent =>
    intro hb
    rw [publisherStep, if_pos hb] at h
    cases h
  | _ => trivial

theorem reachable_reconnecting (h : publisherLts.Reachable p) : Reconnecting p := by
  refine Lts.invariant (fun s hs => ?_) (fun s l t hs ht => ?_) h
  · rw [show s = Publisher.initial from hs]
    exact ⟨rfl, rfl, rfl, reconnectPolicy.paced_nil⟩
  · obtain ⟨q, hq, hinv⟩ := publisherStep_spec hs (ready_of_step ht)
    exact Option.some.inj (hq.symm.trans ht) ▸ hinv

/-- Between the critical sections of every run, `conn` is the only live connection and set
exactly when `g_connected` is, every section that a thread may enter uses only that one, and
the attempts follow the capped backoff. The clock is arbitrary. -/
theorem run_reconnects (h : publisherLts.Reachable p) :
    (p.live = p.conn.toList ∧ (p.conn.isSome ↔ p.connected)) ∧
    (∀ l : PublisherLabel, l.Ready p → (publisherStep p l).isSome) ∧
    p.backoffMs = min (1000 * 2 ^ Backoff.failures p.attempts) 30000 ∧
    (∀ a ∈ p.attempts.getLast?, a.ok → p.backoffMs = 1000) ∧
    ∀ pre a b post k, p.attempts = pre ++ a :: b :: post →
      Backoff.failures (pre ++ [a]) = k + 1 → a.start + min (1000 * 2 ^ k) 30000 ≤ b.start := by
  have hs := reachable_reconnecting h
  have hbackoff : p.backoffMs = reconnectPolicy.delay (Backoff.failures p.attempts) :=
    (congrArg Backoff.Retry.delay hs.retry).trans (reconnectPolicy.foldl_delay rfl p.attempts)
  refine ⟨⟨hs.live, by rw [hs.connected]⟩, fun l hl => ?_, hbackoff, fun a ha hok => ?_,
    fun pre a b post k he hk => hs.paced.spacing rfl he hk⟩
  · obtain ⟨q, hq, -⟩ := publisherStep_spec hs hl
    exact Option.isSome_of_mem hq
  · obtain ⟨as, has⟩ := List.getLast?_eq_some_iff.mp ha
    rw [hbackoff, has, Backoff.failures_snoc, if_pos hok]
    exact reconnectPolicy.delay_zero

/-- A broker that accepts no connection. -/
def refused : ConnectOutcome := ⟨true, true, true, true, false, true, true, true, true⟩

/-- Two failed attempts, the second one after the delay, and the third call within its delay. -/
theorem run_reconnects_refused :
    ∃ p, publisherLts.Reachable p ∧ p.attempts = [⟨0, false⟩, ⟨1000, false⟩] ∧
      p.backoffMs = 4000 ∧ p.conn = none := by
  have hok : (publisherLts.exec .initial
      [.initQueue 0 refused, .batchCheck 1000 refused, .sendMetrics 2999 refused true]).map
        (fun r => (r.2.attempts, r.2.conn)) = some ([⟨0, false⟩, ⟨1000, false⟩], none) := by
    decide
  obtain ⟨tr, p, hrun, hp⟩ := Lts.run_of_exec hok
  obtain ⟨hattempts, hconn⟩ := Prod.mk.inj hp
  have hreach : publisherLts.Reachable p := ⟨_, tr, rfl, hrun⟩
  refine ⟨p, hreach, hattempts, ?_, hconn⟩
  rw [(run_reconnects hreach).2.2.1, hattempts]
  decide

end Sections

end TrafficAnalyzer
