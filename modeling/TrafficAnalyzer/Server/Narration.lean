import TrafficAnalyzer.Server.Consumer
import TrafficAnalyzer.Server.Influx

/-!
# From an event to its narrative (`src/server/nta_server.c`)

A traffic worker publishes critical events again for the narrator worker, which runs the same
consume loop on another queue. `nta_amqp_publish` writes the agent into a header, and the loop
reads it from `user_id`.

1. `trafficHandler_message`: what a traffic worker publishes names its agent in the header
   `x-agent-id` and has no `user_id`.
2. `identity_survives_iff`: the narrator worker is told the right agents exactly when they are
   all called `unknown`.
3. `narrated_as_unknown`: every narrative is stored for the agent `unknown`.
-/

namespace TrafficAnalyzer

/-! ## The traffic worker -/

/-- `TrafficCtx`, with what the code outside the repository answers while one message is
handled: the JSON library, InfluxDB, the enrichers, `nta_abuse_score` for the event at each
place of the message, and `amqp_basic_publish`. -/
structure TrafficCtx where
  ready : Bool
  parseJson : Bytes → Option Json
  printJson : Json → Option CStr
  post : Bytes → Int
  enrichers : Nat → Enrichers
  abuse : Option (Nat → Bytes → Int)
  accepted : Nat → Bool
  minScore : Int
  abuseMin : Int

/-- The first condition for which an event is published again. -/
def kcTrigger (ctx : TrafficCtx) (evt : Json) : Bool :=
  match jsonGetNum evt (ascii "kc_score") with
  | some kc => 0 < ctx.minScore ∧ kc.atLeast ctx.minScore
  | none => false

/-- The second one. -/
def abuseTrigger (ctx : TrafficCtx) (i : Nat) (evt : Json) : Bool :=
  match ctx.abuse, jsonGetStr evt (ascii "src_ip") with
  | some score, some src => 0 < ctx.abuseMin ∧ ctx.abuseMin ≤ score i (cString src)
  | _, _ => false

/-- `republish_if_high` on the event at place `i`. The connection is open while its loop
runs. -/
def republishIfHigh (ctx : TrafficCtx) (i : Nat) (evt : Json) (agentId : CStr) : Option Message :=
  if kcTrigger ctx evt ∨ abuseTrigger ctx i evt then
    match ctx.printJson evt with
    | some s => ntaAmqpPublish true (ctx.accepted i) (some agentId) s.1
    | none => none
  else none

/-- The objects of a payload. -/
def payloadObjects : Json → List Json
  | .array items => items.filter Json.isObject
  | root => if root.isObject then [root] else []

/-- `traffic_handler`: the messages that reach the narrator queue. -/
def trafficHandler (ctx : TrafficCtx) (body : Bytes) (agentId : CStr) : List Message :=
  if (ntaInfluxWriteTraffic ctx.ready ctx.parseJson ctx.post ctx.enrichers (some body)
      (some agentId)).1 ≠ 0 then []
  else if ctx.minScore ≤ 0 ∧ (ctx.abuseMin ≤ 0 ∨ ctx.abuse.isNone) then []
  else
    match ctx.parseJson body with
    | none => []
    | some root =>
      ((payloadObjects root).mapIdx fun i evt => republishIfHigh ctx i evt agentId).filterMap id

/-- The properties with which an event is published again. -/
def narratorProperties (agentId : CStr) : Properties where
  contentType := some (ascii "application/json")
  deliveryMode := some 2
  userId := none
  headers := some [(ascii "x-agent-id", agentId.1)]

theorem republishIfHigh_message {ctx : TrafficCtx} {i : Nat} {evt : Json} {agentId : CStr}
    {m : Message} (h : republishIfHigh ctx i evt agentId = some m) :
    m.properties = narratorProperties agentId := by
  unfold republishIfHigh at h
  split at h
  · split at h
    · unfold ntaAmqpPublish at h
      split at h
      · cases h
        rfl
      · cases h
    · cases h
  · cases h

/-- Whatever the trigger, the agent is in the header and in nothing else. -/
theorem trafficHandler_message {ctx : TrafficCtx} {body : Bytes} {agentId : CStr} {m : Message}
    (h : m ∈ trafficHandler ctx body agentId) : m.properties = narratorProperties agentId := by
  unfold trafficHandler at h
  split at h
  · cases h
  split at h
  · cases h
  split at h
  · cases h
  · obtain ⟨published, hmem, hm⟩ := List.mem_filterMap.mp h
    obtain ⟨i, hi, rfl⟩ := List.mem_mapIdx.mp hmem
    exact republishIfHigh_message hm

/-! ## The narrator worker -/

/-- `cJSON_HasObjectItem`, which does not tell capitals from small letters. -/
def Json.hasItem (name : Bytes) : Json → Bool
  | .object members => members.any fun m => (cString m.1).map toLower = name.map toLower
  | _ => false

/-- The event that `build_request_body` puts into the prompt. -/
def promptEvent (parseJson : Bytes → Option Json) (body : Bytes) (agentId : CStr) : Json :=
  match (parseJson body).getD (.object []) with
  | .object members =>
    if agentId.1 ≠ [] ∧ (Json.object members).hasItem (ascii "agent_id") = false then
      .object (members ++ [(ascii "agent_id", .string agentId.1)])
    else .object members
  | evt => evt

/-- What `narrator_handler` makes of a message as far as the agent goes: the event of the
prompt, and the value of the tag `agent_id` of `incident_narrative`. -/
structure Incident where
  prompt : Json
  agentTag : Bytes

def narratorHandler (parseJson : Bytes → Option Json) (call : HandlerCall) : Incident where
  prompt := promptEvent parseJson call.body call.agentId
  agentTag := lpEscape maxTagLen call.agentId.1

/-! ## The hop -/

/-- An event of an agent, with an identity of 1 to 127 bytes, that some traffic worker has
published for the narrator. `buf` is what the loop of that worker had in its buffer. -/
structure Republication where
  agentId : CStr
  sized : 1 ≤ agentId.1.length ∧ agentId.1.length ≤ AGENT_ID_MAX
  ctx : TrafficCtx
  body : Bytes
  buf : Bytes
  message : Message
  republished : message ∈
    let call := (receive buf ⟨agentProperties agentId, body⟩).2
    trafficHandler ctx call.body call.agentId

/-- The traffic worker knows the agent. -/
theorem Republication.properties (r : Republication) :
    r.message.properties = narratorProperties r.agentId := by
  have hcall : (receive r.buf ⟨agentProperties r.agentId, r.body⟩).2 = ⟨r.body, r.agentId⟩ :=
    receive_agent rfl r.sized.1 r.sized.2
  have h := r.republished
  rw [hcall] at h
  exact trafficHandler_message h

/-- The calls of `narrator_handler` over some turns of its loop, each message of which was
published again by a traffic worker. -/
def narratorCalls (buf : Bytes) (turns : List (Turn Republication)) : List HandlerCall :=
  (ntaAmqpConsumeLoop true true buf (turns.map (Turn.map Republication.message))).1

/-- Every message that is read is handed on with the agent that sent it. -/
def IdentitySurvives (buf : Bytes) (turns : List (Turn Republication)) : Prop :=
  narratorCalls buf turns = (readMessages turns).map fun r => ⟨r.message.body, r.agentId⟩

theorem narratorCalls_eq (buf : Bytes) (turns : List (Turn Republication)) :
    narratorCalls buf turns =
      (readMessages turns).map fun r => ⟨r.message.body, unknownAgent⟩ := by
  have hcalls := consumeLoop_calls (fun m => ⟨m.body, unknownAgent⟩)
    (turns.map (Turn.map Republication.message)) buf fun m hm buf => by
      rw [readMessages_map] at hm
      obtain ⟨r, _, rfl⟩ := List.mem_map.mp hm
      exact receive_unnamed (by rw [r.properties]; rfl)
  rw [narratorCalls, ntaAmqpConsumeLoop, if_pos ⟨rfl, rfl⟩, hcalls, readMessages_map, List.map_map]
  rfl

/-- The narrator worker is told the right agents exactly when all of them are called
`unknown`. -/
theorem identity_survives_iff (buf : Bytes) (turns : List (Turn Republication)) :
    IdentitySurvives buf turns ↔ ∀ r ∈ readMessages turns, r.agentId.1 = ascii "unknown" := by
  rw [IdentitySurvives, narratorCalls_eq, List.map_inj_left]
  refine forall₂_congr fun r _ => ?_
  rw [HandlerCall.mk.injEq, eq_self, true_and, eq_comm]
  exact Subtype.ext_iff

/-- Every narrative is stored for the agent `unknown`. -/
theorem narrated_as_unknown (parseJson : Bytes → Option Json) (buf : Bytes)
    (turns : List (Turn Republication)) :
    ∀ incident ∈ (narratorCalls buf turns).map (narratorHandler parseJson),
      incident.agentTag = ascii "unknown" := by
  intro incident hmem
  rw [narratorCalls_eq, List.map_map] at hmem
  obtain ⟨r, _, rfl⟩ := List.mem_map.mp hmem
  show lpEscape maxTagLen (ascii "unknown") = ascii "unknown"
  decide

/-! ## A lost identity -/

/-- A worker that publishes events with a score of at least 80. -/
def criticalCtx : TrafficCtx where
  ready := true
  parseJson body :=
    if body = ascii "[\x7b\"kc_score\":90\x7d]" then
      some (.array [.object [(ascii "kc_score", .number (.ofNat 90))]])
    else if body = ascii "\x7b\"kc_score\":90\x7d" then
      some (.object [(ascii "kc_score", .number (.ofNat 90))])
    else none
  printJson _ := some ⟨ascii "\x7b\"kc_score\":90\x7d", by decide⟩
  post _ := 0
  enrichers _ := ⟨none, none, none⟩
  abuse := none
  accepted _ := true
  minScore := 80
  abuseMin := 0

/-- An event of `sensor-1` with a score of 90. -/
def sensorEvent : Republication where
  agentId := ⟨ascii "sensor-1", by decide⟩
  sized := by decide
  ctx := criticalCtx
  body := ascii "[\x7b\"kc_score\":90\x7d]"
  buf := []
  message :=
    ⟨narratorProperties ⟨ascii "sensor-1", by decide⟩, ascii "\x7b\"kc_score\":90\x7d"⟩
  republished := by decide +kernel

/-- The narrator worker is told that the event of `sensor-1` is one of `unknown`. -/
theorem sensor_narrated_as_unknown : ¬ IdentitySurvives [] [.message sensorEvent] := by
  intro h
  have hcall := List.cons.inj (h.symm.trans (narratorCalls_eq [] [.message sensorEvent]))
  have hagent := congrArg HandlerCall.agentId hcall.1
  exact absurd hagent (by decide)

end TrafficAnalyzer
