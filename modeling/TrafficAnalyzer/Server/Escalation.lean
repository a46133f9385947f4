import TrafficAnalyzer.Agent.Sequential
import TrafficAnalyzer.Server.Delivery
import TrafficAnalyzer.Server.Narration

/-!
# From the analyzer to the narrator

A traffic worker prints the critical events of a batch again and hands them to the narrator
queue. With the JSON library of the repository the narrator worker gets them as the analyzer has
computed them.

* `batch_escalated`: of a batch, the events with the least score go out, in order.
* `escalated_prompt`: what the prompt shows of such a message.
* `run_escalates`: both over a whole run of the agent.
-/

namespace TrafficAnalyzer

open CText Printf LineProtocol
open Cjson hiding render

/-- `cJSON_PrintUnformatted`. -/
def cJSONPrintUnformatted (v : Json) : Option CStr := (print false v).join.map toCStr

/-- A traffic worker with the JSON library of the repository, InfluxDB and the broker at hand,
and no enrichment. -/
def plainCtx (minScore : Int) : TrafficCtx where
  ready := true
  parseJson := parseBody
  printJson := cJSONPrintUnformatted
  post := fun _ => 0
  enrichers := fun _ => noEnrichers
  abuse := none
  accepted := fun _ => true
  minScore := minScore
  abuseMin := 0

theorem plainCtx_printJson (minScore : Int) :
    (plainCtx minScore).printJson = cJSONPrintUnformatted := rfl

/-- The message of an event on the narrator queue. -/
def Event.escalation (agentId : CStr) (e : Event) : Message :=
  ⟨narratorProperties agentId, Cjson.render false 0 e.slot.json⟩

/-! ## One event -/

section Event

variable {agentId : CStr} {e : Event} {minScore : Int}

theorem print_slot (h : e.Sendable) :
    print false e.slot.json = some (some (Cjson.render false 0 e.slot.json)) := by
  have hlen := length_json_le (slot_rooms h.standard) 0
  rw [print_eq, if_pos ((Nat.add_le_add_right hlen 2).trans (by decide))]

theorem printUnformatted_slot (h : e.Sendable) :
    cJSONPrintUnformatted e.slot.json = some (toCStr (Cjson.render false 0 e.slot.json)) := by
  rw [cJSONPrintUnformatted, print_slot h]
  rfl

/-- The text of an event is parsed as the object it was printed from. -/
theorem parseBody_slot (h : e.Sendable) :
    parseBody (Cjson.render false 0 e.slot.json) = some e.slot.json := by
  have hparse := parse_print false e.slot.json (print_slot h) (follow_nil _)
  have hnest : nesting e.slot.json ≤ 1 := Nat.le_refl 1
  rw [List.append_nil, reread_exact (slot_ints h).exact, if_pos (hnest.trans (by decide))] at hparse
  rw [parseBody, hparse]
  rfl

theorem atLeast_ofInt {n m : Int} (h : n.natAbs < 2 ^ 53) :
    (Binary64.ofInt n).atLeast m = true ↔ m ≤ n := by
  rw [Binary64.ofInt, (atLeast_finite _ _ _ m).1, units_ofInt h]
  exact Int.mul_le_mul_right (by positivity)

theorem kcTrigger_slot (h : e.Sendable) (hmin : 0 < minScore) :
    kcTrigger (plainCtx minScore) e.slot.json = decide (minScore ≤ e.kcScore) := by
  have hsmall : e.kcScore.natAbs < 2 ^ 53 := by
    have := h.score
    omega
  have hscore : jsonGetNum e.slot.json (ascii "kc_score") = some (.ofInt e.kcScore) :=
    (json_numbers e.slot).2.2.2
  have htrigger := (and_iff_right hmin).trans (atLeast_ofInt (m := minScore) hsmall)
  rw [kcTrigger, hscore]
  exact decide_eq_decide.mpr htrigger

theorem republish_slot (h : e.Sendable) (hmin : 0 < minScore) (i : Nat) :
    republishIfHigh (plainCtx minScore) i e.slot.json agentId =
      if minScore ≤ e.kcScore then some (e.escalation agentId) else none := by
  have habuse : abuseTrigger (plainCtx minScore) i e.slot.json = false := by
    simp only [abuseTrigger, plainCtx]
  have htext : (toCStr (Cjson.render false 0 e.slot.json)).1 = Cjson.render false 0 e.slot.json :=
    cString_of_nul (render_ne _ 0)
  rw [republishIfHigh, kcTrigger_slot h hmin, habuse, plainCtx_printJson,
    printUnformatted_slot h]
  by_cases hle : minScore ≤ e.kcScore
  · rw [if_pos hle, if_pos (.inl (decide_eq_true hle))]
    dsimp only
    rw [htext]
    rfl
  · rw [if_neg hle, if_neg]
    rintro (hhigh | hhigh)
    · exact hle (of_decide_eq_true hhigh)
    · cases hhigh

end Event

/-! ## One batch -/

section Batch

variable {agentId : CStr} {batch : List Event} {minScore : Int}

theorem filterMap_ite {α β : Type} (p : α → Prop) [DecidablePred p] (f : α → β) (l : List α) :
    (l.map fun x => if p x then some (f x) else none).filterMap id =
      (l.filter fun x => decide (p x)).map f := by
  induction l with
  | nil => rfl
  | cons x l ih =>
    by_cases hx : p x
    · rw [List.map_cons, if_pos hx, List.filterMap_cons_some (f := id) rfl, ih,
        List.filter_cons_of_pos (p := fun x => decide (p x)) (decide_eq_true hx), List.map_cons]
    · rw [List.map_cons, if_neg hx, List.filterMap_cons_none (f := id) rfl, ih,
        List.filter_cons_of_neg (p := fun x => decide (p x)) (by rwa [decide_eq_true_eq])]

/-- With InfluxDB at hand a body that the parser takes is written, whatever its lines. -/
theorem posted_zero {body : Bytes} {root : Json} (hparse : parseBody body = some root)
    (en : Nat → Enrichers) (agentId : Option CStr) :
    (ntaInfluxWriteTraffic true parseBody (fun _ => 0) en (some body) agentId).1 = 0 := by
  have hbody : ¬ (true = false ∨ body.length = 0) := by
    rintro (hready | hnil)
    · cases hready
    · rw [List.length_eq_zero_iff.mp hnil] at hparse
      cases hparse
  rw [ntaInfluxWriteTraffic]
  dsimp only
  rw [if_neg hbody, hparse]
  dsimp only
  split <;> rfl

/-- Of a batch, the critical events go to the narrator queue, in order. -/
theorem batch_escalated (hne : batch ≠ []) (h : ∀ e ∈ batch, e.Sendable)
    (hlen : batch.length ≤ 53) (hmin : 0 < minScore) :
    trafficHandler (plainCtx minScore) (messageText (batch.map Event.slot)) agentId =
      (batch.filter fun e => decide (minScore ≤ e.kcScore)).map (Event.escalation agentId) := by
  have hparse : (plainCtx minScore).parseJson (messageText (batch.map Event.slot)) =
      some (batchJson (batch.map Event.slot)) := parseBody_batch hne h hlen
  have hwritten : ¬ (ntaInfluxWriteTraffic (plainCtx minScore).ready
      (plainCtx minScore).parseJson (plainCtx minScore).post (plainCtx minScore).enrichers
      (some (messageText (batch.map Event.slot))) (some agentId)).1 ≠ 0 :=
    not_not.mpr (posted_zero hparse _ _)
  have hon : ¬ ((plainCtx minScore).minScore ≤ 0 ∧
      ((plainCtx minScore).abuseMin ≤ 0 ∨ (plainCtx minScore).abuse.isNone = true)) :=
    fun hoff => absurd hmin (not_lt.mpr hoff.1)
  have hobjects : payloadObjects (batchJson (batch.map Event.slot)) =
      batch.map fun e => e.slot.json := by
    rw [batchJson, payloadObjects, List.map_map, List.filter_eq_self.mpr]
    · rfl
    · rintro v hv
      obtain ⟨e, -, rfl⟩ := List.mem_map.mp hv
      rfl
  have hmessages : (payloadObjects (batchJson (batch.map Event.slot))).mapIdx
      (fun i evt => republishIfHigh (plainCtx minScore) i evt agentId) =
      batch.map fun e => if minScore ≤ e.kcScore then some (e.escalation agentId) else none := by
    rw [hobjects]
    refine List.ext_getElem (by simp) fun i hi hi' => ?_
    rw [List.getElem_mapIdx, List.getElem_map, List.getElem_map]
    exact republish_slot (h _ (List.getElem_mem _)) hmin i
  unfold trafficHandler
  rw [if_neg hwritten, if_neg hon, hparse]
  dsimp only
  rw [hmessages, filterMap_ite]

end Batch

/-! ## Runs -/

/-- What the narrator worker shows of an event: the object of the agent, with the agent of the
message behind it. -/
theorem escalated_prompt {e : Event} (h : e.Sendable) (agentId : CStr) (buf : Bytes) :
    ∃ members, e.slot.json = .object members ∧
      (narratorHandler parseBody (receive buf (e.escalation agentId)).2).prompt =
        .object (members ++ [(ascii "agent_id", .string (ascii "unknown"))]) := by
  refine ⟨_, rfl, ?_⟩
  have hcall : (receive buf (e.escalation agentId)).2 =
      ⟨Cjson.render false 0 e.slot.json, unknownAgent⟩ := receive_unnamed rfl
  rw [hcall, narratorHandler]
  dsimp only
  rw [promptEvent, parseBody_slot h]
  rfl

section Runs

variable {R : Type} [Double R] {cfg : PipelineConfig} {s0 t : Pipeline R}
  {tr : List (PipelineStep R)} {agentId : CStr} {minScore : Int}

/-- Over a whole run of the agent, the narrator queue gets the critical events among those sent,
each once and in order, and the prompt of each shows what the analyzer has computed. -/
theorem run_escalates (h0 : IsLaunch s0) (hnew : s0.analyzer.suspects.used = [])
    (h : Lts.Run (pipelineLts R cfg) s0 tr t) (hsize : cfg.batchSize ≤ 53)
    (hmin : 0 < minScore) :
    ((sentBatches tr).flatMap fun batch =>
        trafficHandler (plainCtx minScore) (messageText (batch.map Event.slot)) agentId) =
      ((sentBatches tr).flatten.filter fun e => decide (minScore ≤ e.kcScore)).map
        (Event.escalation agentId) ∧
    ∀ e ∈ (sentBatches tr).flatten, ∀ buf, ∃ members, e.slot.json = .object members ∧
      (narratorHandler parseBody (receive buf (e.escalation agentId)).2).prompt =
        .object (members ++ [(ascii "agent_id", .string (ascii "unknown"))]) := by
  refine ⟨?_, fun e he => ?_⟩
  · rw [List.filter_flatten, List.map_flatten, List.map_map, ← List.flatMap_def]
    refine List.flatMap_congr fun batch hb => ?_
    obtain ⟨hne, hlen, hsendable⟩ := run_sendable h0 hnew h hb
    exact batch_escalated hne hsendable (hlen.trans hsize) hmin
  · obtain ⟨batch, hb, he⟩ := List.mem_flatten.mp he
    exact escalated_prompt ((run_sendable h0 hnew h hb).2.2 e he) agentId

end Runs

/-- Of four events the NULL scan reaches a minimum of 20. It is the one message of the run, and
the narrator worker shows it. -/
theorem run_escalates_scan :
    ∃ (tr : List (PipelineStep ℝ)) (e : Event),
      (sentBatches tr).map (List.map Event.kcScore) = [[0, 0], [0, 20]] ∧
      ((sentBatches tr).flatMap fun batch =>
          trafficHandler (plainCtx 20) (messageText (batch.map Event.slot)) agent1) =
        [e.escalation agent1] ∧
      e.kcScore = 20 ∧ ∃ members, e.slot.json = .object members ∧
        (narratorHandler parseBody (receive [] (e.escalation agent1)).2).prompt =
          .object (members ++ [(ascii "agent_id", .string (ascii "unknown"))]) := by
  obtain ⟨tr, t, hrun, -, -, hscores, -⟩ := exists_scan_run
  obtain ⟨hmessages, hprompts⟩ := @run_escalates _ _ _ _ _ _ agent1 20 (launch_isLaunch 2) rfl hrun
    (by decide) (by decide)
  have hcritical : ((sentBatches tr).flatten.filter fun e => decide (20 ≤ e.kcScore)).map
      Event.kcScore = [20] := by
    have hfilter := List.filter_map (f := Event.kcScore) (p := fun n => decide (20 ≤ n))
      (l := (sentBatches tr).flatten)
    rw [List.map_flatten, hscores] at hfilter
    exact hfilter.symm
  obtain ⟨e, hone, hscore⟩ := List.map_eq_singleton_iff.mp hcritical
  rw [hone, List.map_singleton] at hmessages
  have hmem : e ∈ (sentBatches tr).flatten :=
    List.mem_of_mem_filter (hone ▸ List.mem_singleton_self e)
  exact ⟨tr, e, hscores, hmessages, hscore, hprompts e hmem []⟩

end TrafficAnalyzer
