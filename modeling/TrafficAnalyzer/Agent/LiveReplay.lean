import TrafficAnalyzer.Agent.Agreement
import TrafficAnalyzer.Agent.Scoring
import TrafficAnalyzer.Agent.Sequential

/-!
# The live agent and the replay

The replay calls `analyze_packet` on the packets of a file, the live agent hands them through
three threads. The collector of the one and the alerts among the events sent by the other tell
the same story.

* `EventAgrees.alerts`: the alerts of one call are its detections.
* `live_matches_replay`: a live run that drops nothing sends, as its alerts, what a replay of the
  captured packets collects, up to the size of the collector.
-/

namespace TrafficAnalyzer

/-- The text of the attack and of the source. -/
def Event.alert (e : Event) : Bytes × Bytes := (e.slot.attackType, e.slot.srcIp)

def DetectedEvent.alert (d : DetectedEvent) : Bytes × Bytes := (d.attackType, d.srcIp)

/-- The alerts among events. -/
def alertsOf (es : List Event) : List (Bytes × Bytes) := (es.filter (·.isScan)).map Event.alert

theorem alertsOf_append (es es' : List Event) :
    alertsOf (es ++ es') = alertsOf es ++ alertsOf es' := by
  rw [alertsOf, List.filter_append, List.map_append]
  rfl

/-- The alerts that a call publishes are the detections that it records. -/
theorem EventAgrees.alerts {o : Outcome} (h : EventAgrees o) :
    alertsOf o.published = o.recorded.map fun d => d.event.alert := by
  by_cases hret : o.ret = 1
  · obtain ⟨e, he, hscan⟩ := h.scan.mp hret
    obtain ⟨d, hd⟩ := h.recorded.mp hret
    obtain ⟨hattack, hip, -⟩ := h.same e (he ▸ List.mem_singleton_self e) d
      (hd ▸ List.mem_singleton_self d)
    have halert : e.alert = d.event.alert := by
      rw [Event.alert, Event.slot, hattack, hip]
      rfl
    rw [alertsOf, he, hd, List.filter_singleton, hscan, Bool.cond_true, List.map_singleton, halert,
      List.map_singleton]
  · -- an alert among the events would be the only one
    have hnone : ∀ e ∈ o.published, ¬ e.isScan = true := by
      intro e he hscan
      have hlen := h.once
      rcases hpub : o.published with _ | ⟨e', _ | ⟨e'', es⟩⟩
      · rw [hpub] at he
        cases he
      · rw [hpub] at he
        obtain rfl := List.mem_singleton.mp he
        exact hret (h.scan.mpr ⟨e, hpub, hscan⟩)
      · rw [hpub, List.length_cons, List.length_cons] at hlen
        exact absurd hlen (Nat.not_le_of_lt (Nat.succ_lt_succ (Nat.succ_pos _)))
    rw [(h.unrecorded hret).2, alertsOf, List.filter_eq_nil_iff.mpr hnone]
    rfl

section Runs

variable {R : Type} [Double R]

/-- Call by call, the alerts of the analyzer are its detections. -/
theorem alertsOf_eventsOf (st : Analyzer R) (cs : List Call) :
    alertsOf (eventsOf st cs) = (detectionsOf st cs).map fun d => d.event.alert := by
  induction cs generalizing st with
  | nil => rfl
  | cons c cs ih =>
    have hcall := (frameMove_agrees (processFrame_move st c.packet c.now)).alerts
    rw [detectionsOf, List.map_append, ← hcall, ← ih]
    exact alertsOf_append _ _

omit [Double R] in
/-- A packet within the snapshot length goes into its slot as it is. -/
theorem captured_eq_frames {x : PipelineStep R} (h : ∀ c ∈ x.frames, c.packet.length ≤ SNAP_LEN) :
    x.captured = x.frames := by
  obtain ⟨s, l, s'⟩ := x
  cases l with
  | capPush packet ts =>
    have hshort : packet.length ≤ SNAP_LEN := h ⟨packet, ts⟩ List.mem_cons_self
    exact congrArg (fun p : Bytes => [(⟨p, ts⟩ : Call)]) (List.take_of_length_le hshort)
  | _ => rfl

variable {cfg : PipelineConfig} {s0 t : Pipeline R} {tr : List (PipelineStep R)}
  {s : ReplayState R}

/-- A run that ends well, finds room for every packet and every event and gets no packet longer
than the snapshot length sends the alerts that a replay of these packets collects. The collector
keeps the first 1024 of them. -/
theorem live_matches_replay (h0 : IsLaunch s0) (h : Lts.Run (pipelineLts R cfg) s0 tr t)
    (hsend : ∀ x ∈ tr, x.label ≠ .pubSend false) (hexit : t.Exited) (hsafe : ∀ x ∈ tr, ¬ Strands x)
    (hroom : ∀ x ∈ tr, PipelineStep.FindsRoom x)
    (hshort : ∀ x ∈ tr, ∀ c ∈ PipelineStep.frames x, c.packet.length ≤ SNAP_LEN)
    (hreset : analyzerReset s.analyzer = s0.analyzer) :
    ∃ s' r, replayFile s (some (tr.flatMap PipelineStep.frames)) none = some (s', r) ∧
      s'.collector.events.used.map DetectedEvent.alert =
        (alertsOf (sentBatches tr).flatten).take MAX_DETECTIONS := by
  have hframes : tr.flatMap PipelineStep.captured = tr.flatMap PipelineStep.frames :=
    List.flatMap_congr fun x hx => captured_eq_frames (hshort x hx)
  have hsent := run_sends_all h0 h hsend hexit hsafe hroom
  refine ⟨_, _, replayFile_eq s _ none, ?_⟩
  rw [replayed_events, List.map_map, hsent, hframes, alertsOf_eventsOf, ← List.map_take, hreset]
  rfl

end Runs

/-- The NULL scan of 1.2.3.4 is the one alert of both. -/
theorem live_matches_replay_scan : ∃ tr : List (PipelineStep ℝ),
    tr.flatMap PipelineStep.frames = scanFrames ∧
      alertsOf (sentBatches tr).flatten = [(ascii "NULL_SCAN", ascii "1.2.3.4")] ∧
      ∃ s' r, replayFile (⟨.initial, ⟨false, .empty⟩⟩ : ReplayState ℝ)
          (some (tr.flatMap PipelineStep.frames)) none = some (s', r) ∧
        s'.collector.events.used.map DetectedEvent.alert =
          (alertsOf (sentBatches tr).flatten).take MAX_DETECTIONS := by
  obtain ⟨tr, t, hrun, hexit, hframes, -, hall⟩ := exists_scan_run
  have hsent := run_sends_all (launch_isLaunch 2) hrun (fun x hx => (hall x hx).1) hexit
    (fun x hx => (hall x hx).2.1) fun x hx => (hall x hx).2.2.1
  have hcaptured : tr.flatMap PipelineStep.captured = scanFrames :=
    (List.flatMap_congr fun x hx => captured_eq_frames (hall x hx).2.2.2).trans hframes
  have halerts : alertsOf (eventsOf (.initial : Analyzer ℝ) scanFrames) =
      [(ascii "NULL_SCAN", ascii "1.2.3.4")] := by decide +kernel
  refine ⟨tr, hframes, ?_, live_matches_replay (launch_isLaunch 2) hrun (fun x hx => (hall x hx).1)
    hexit (fun x hx => (hall x hx).2.1) (fun x hx => (hall x hx).2.2.1)
    (fun x hx => (hall x hx).2.2.2) rfl⟩
  rw [hsent, hcaptured]
  exact halerts

end TrafficAnalyzer
