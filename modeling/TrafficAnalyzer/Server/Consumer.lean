import TrafficAnalyzer.Server.Json

/-!
# One AMQP connection (`src/server/nta_consumer.c`)

A message with its properties, `nta_amqp_publish` and `nta_amqp_consume_loop`. The broker
hands a message on as it was published.

* `receive_userId`, `receive_unnamed`: what the consumer takes for the agent.
* `consumeLoop_calls`: the loop calls the handler once for each message it reads.
-/

namespace TrafficAnalyzer

/-! ## Messages -/

/-- `amqp_basic_properties_t`, a field for each flag that the two programs set or test. The
headers are a table of UTF-8 texts. -/
structure Properties where
  contentType : Option Bytes
  deliveryMode : Option Nat
  userId : Option Bytes
  headers : Option (List (Bytes × Bytes))
deriving DecidableEq

structure Message where
  properties : Properties
  body : Bytes
deriving DecidableEq

/-- The properties with which `publisher_send_batch` sends: the broker compares `user_id` with
the login of the agent. -/
def agentProperties (agentId : CStr) : Properties where
  contentType := some (ascii "application/json")
  deliveryMode := some 2
  userId := some agentId.1
  headers := none

/-- `nta_amqp_publish`: the message in the queue, when the call returns 0. `accepted` is
whether `amqp_basic_publish` answers `AMQP_STATUS_OK`. -/
def ntaAmqpPublish (connected accepted : Bool) (agentId : Option CStr) (body : Bytes) :
    Option Message :=
  if connected ∧ accepted then
    let agent := match agentId with
      | some s => s.1
      | none => ascii "unknown"
    some {
      properties := {
        contentType := some (ascii "application/json")
        deliveryMode := some 2
        userId := none
        headers := some [(ascii "x-agent-id", agent)] }
      body }
  else none

/-! ## The consume loop -/

def AGENT_ID_MAX : Nat := 127

/-- The text that a `char *` into these bytes shows. -/
def toCStr (s : Bytes) : CStr := ⟨cString s, cString_nul s⟩

def unknownAgent : CStr := ⟨ascii "unknown", by decide⟩

/-- The arguments of a call of the handler. -/
structure HandlerCall where
  body : Bytes
  agentId : CStr
deriving DecidableEq

/-- The part of the loop of `nta_amqp_consume_loop` after a message has been read: the buffer
`agent_id`, which keeps its bytes from one message to the next, and the call of the handler. -/
def receive (buf : Bytes) (m : Message) : Bytes × HandlerCall :=
  match m.properties.userId with
  | some (c :: cs) =>
    let n := min (c :: cs).length AGENT_ID_MAX
    let buf := (c :: cs).take n ++ 0 :: buf.drop (n + 1)
    (buf, ⟨m.body, toCStr buf⟩)
  | _ => (buf, ⟨m.body, unknownAgent⟩)

/-- One turn of the loop: `stop_requested` answers 1, or `amqp_consume_message` times out,
fails or reads a message. -/
inductive Turn (α : Type)
  | stop
  | timeout
  | failed
  | message (x : α)

def Turn.map {α β : Type} (f : α → β) : Turn α → Turn β
  | .stop => .stop
  | .timeout => .timeout
  | .failed => .failed
  | .message x => .message (f x)

/-- The loop: the calls of the handler, and the return value once it returns. -/
def consumeLoop (buf : Bytes) : List (Turn Message) → List HandlerCall × Option Int
  | [] => ([], none)
  | .stop :: _ => ([], some 0)
  | .timeout :: turns => consumeLoop buf turns
  | .failed :: _ => ([], some (-1))
  | .message m :: turns =>
    let (buf, call) := receive buf m
    let (calls, rc) := consumeLoop buf turns
    (call :: calls, rc)

/-- `nta_amqp_consume_loop`; `consuming` is whether `amqp_basic_consume` succeeds, and `buf`
what the stack holds where `agent_id` is. -/
def ntaAmqpConsumeLoop (connected consuming : Bool) (buf : Bytes) (turns : List (Turn Message)) :
    List HandlerCall × Option Int :=
  if connected ∧ consuming then consumeLoop buf turns else ([], some (-1))

/-! ## What a handler is told -/

/-- A message with a `user_id`: its first 127 bytes, as a C string. What the buffer held
before does not matter. -/
theorem receive_userId {buf : Bytes} {m : Message} {user : Bytes}
    (huser : m.properties.userId = some user) (hne : user ≠ []) :
    (receive buf m).2 = ⟨m.body, toCStr (user.take AGENT_ID_MAX)⟩ := by
  obtain ⟨c, cs, rfl⟩ := List.exists_cons_of_ne_nil hne
  have htake : (c :: cs).take (min (c :: cs).length AGENT_ID_MAX) =
      (c :: cs).take AGENT_ID_MAX := by
    rw [Nat.min_comm, ← List.take_take, List.take_length]
  simp only [receive, huser, htake, toCStr, cString_append_nul]

/-- Without a `user_id` the agent is `unknown`, whatever the headers say. -/
theorem receive_unnamed {buf : Bytes} {m : Message} (huser : m.properties.userId = none) :
    (receive buf m).2 = ⟨m.body, unknownAgent⟩ := by
  simp only [receive, huser]

/-- An agent of 1 to 127 bytes is handed to the handler as it is. -/
theorem receive_agent {buf : Bytes} {m : Message} {agentId : CStr}
    (huser : m.properties.userId = some agentId.1) (hpos : 1 ≤ agentId.1.length)
    (hle : agentId.1.length ≤ AGENT_ID_MAX) :
    (receive buf m).2 = ⟨m.body, agentId⟩ := by
  have hsame : toCStr agentId.1 = agentId := Subtype.ext (cString_of_nul agentId.2)
  rw [receive_userId huser (List.length_pos_iff.mp hpos), List.take_of_length_le hle, hsame]

/-- The messages that the loop reads. -/
def readMessages {α : Type} : List (Turn α) → List α
  | .timeout :: turns => readMessages turns
  | .message x :: turns => x :: readMessages turns
  | _ => []

theorem readMessages_map {α β : Type} (f : α → β) (turns : List (Turn α)) :
    readMessages (turns.map (Turn.map f)) = (readMessages turns).map f := by
  induction turns with
  | nil => rfl
  | cons turn turns ih =>
    cases turn with
    | stop | failed => rfl
    | timeout => exact ih
    | message x => exact congrArg (f x :: ·) ih

/-- One call for each message that is read, in order. When the call does not depend on the
buffer, it is a function of the message alone. -/
theorem consumeLoop_calls (call : Message → HandlerCall) (turns : List (Turn Message))
    (buf : Bytes) (hcall : ∀ m ∈ readMessages turns, ∀ buf, (receive buf m).2 = call m) :
    (consumeLoop buf turns).1 = (readMessages turns).map call := by
  induction turns generalizing buf with
  | nil => rfl
  | cons turn turns ih =>
    cases turn with
    | stop | failed => rfl
    | timeout => exact ih buf hcall
    | message m =>
      have hrest := ih (receive buf m).1 fun m' hm' => hcall m' (List.mem_cons_of_mem _ hm')
      have hhead := hcall m (List.mem_cons_self ..) buf
      simp only [consumeLoop, readMessages, List.map_cons, hrest, hhead]

end TrafficAnalyzer
