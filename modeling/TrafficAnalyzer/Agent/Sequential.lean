import TrafficAnalyzer.Lib.Simulation
import TrafficAnalyzer.Agent.Publication

/-!
# The pipeline refines the analyzer

Three threads and two ring buffers against `analyze_packet` called on one packet after the other.

* `pipelineSimulation`: the pipeline simulates the analyzer. Packets wait in `rb_pkt`, and the
  events of the packet at hand are owed.
* `run_sequential`: in every run the analyzer of the pipeline is that of a sequential run over
  the accepted packets, and the events handed on are the events of that run.
* `run_sends_sublist`: the agent invents, doubles and reorders nothing.
* `run_sends_all`: a run that drops nothing sends what the sequential analyzer publishes.
-/

namespace TrafficAnalyzer

variable {R : Type}

/-- The call that `analysis_thread` makes of a slot. -/
def PktSlot.call (p : PktSlot) : Call := ⟨p.data, p.ts⟩

/-- The events that `analysis_thread` has not handed on yet. -/
def AnalysisThread.pending : AnalysisThread → List Event
  | .running es => es
  | _ => []

/-- The event that the step hands to `rb_push`, whether there is room for it or not. -/
def PipelineStep.offered (x : PipelineStep R) : List Event :=
  match x.label with
  | .anaPublish => x.before.analysis.pending.take 1
  | _ => []

variable [Double R]

/-- The events that a call publishes. -/
def Seen.published (x : Seen R) : List Event :=
  (processFrame x.before x.label.packet x.label.now).2.published

/-- Where the pipeline stands against the analyzer: the packets in `rb_pkt` wait, and the events
of the packet at hand are owed. -/
structure RunsBehind (s : Pipeline R) (a : Analyzer R) (waiting : List Call)
    (owed : List Event) : Prop where
  analyzer : s.analyzer = a
  waiting : s.rbPkt.items.map PktSlot.call = waiting
  owed : s.analysis.pending = owed

/-- The calls that a step puts into `rb_pkt`. -/
def PipelineStep.acceptedCalls (x : PipelineStep R) : List Call :=
  (PipelineStep.accepted x).map PktSlot.call

theorem pipelineStep_runsBehind {cfg : PipelineConfig} {s s' : Pipeline R} {l : PipelineLabel}
    {a : Analyzer R} {waiting : List Call} {owed : List Event} (h : RunsBehind s a waiting owed)
    (hs : pipelineStep cfg s l = some s') :
    ∃ tr a' waiting' owed', Lts.Run analyzerLts a tr a' ∧ RunsBehind s' a' waiting' owed' ∧
      waiting ++ PipelineStep.acceptedCalls ⟨s, l, s'⟩ =
        tr.flatMap (fun x => [x.label]) ++ waiting' ∧
      owed ++ tr.flatMap Seen.published = PipelineStep.offered ⟨s, l, s'⟩ ++ owed' := by
  obtain ⟨rfl, rfl, rfl⟩ := h
  -- a step that leaves the analyzer, the packets and the pending events alone
  have hstay : ∀ {u : Pipeline R}, u.analyzer = s.analyzer → u.rbPkt = s.rbPkt →
      u.analysis.pending = s.analysis.pending → PipelineStep.accepted ⟨s, l, s'⟩ = [] →
      PipelineStep.offered ⟨s, l, s'⟩ = [] → ∃ tr a' waiting' owed',
        Lts.Run analyzerLts s.analyzer tr a' ∧ RunsBehind u a' waiting' owed' ∧
        s.rbPkt.items.map PktSlot.call ++ PipelineStep.acceptedCalls ⟨s, l, s'⟩ =
          tr.flatMap (fun x => [x.label]) ++ waiting' ∧
        s.analysis.pending ++ tr.flatMap Seen.published =
          PipelineStep.offered ⟨s, l, s'⟩ ++ owed' := by
    intro u hana hpkt hpending hacc hoff
    refine Lts.Simulation.stutter ⟨hana, congrArg _ (congrArg _ hpkt), hpending⟩ ?_ ?_
    · rw [PipelineStep.acceptedCalls, hacc, List.map_nil, List.append_nil]
    · rw [hoff, List.nil_append]
  cases pipelineStep_move hs with
  | capPush hrun =>
    refine Lts.Simulation.stutter ⟨rfl, rfl, rfl⟩ ?_ rfl
    rw [PipelineStep.acceptedCalls, ← List.map_append, pipelineStep_packets hs]
    rfl
  | @anaPop slot rbPkt analyzer outcome hrun hpop hpkt =>
    rw [analyzePacket_eq] at hpkt
    have hframe := Option.some.inj hpkt
    have hitems := BoundedQueue.pop?_eq_some hpop
    have hcall : analyzerLts.step s.analyzer slot.call = some analyzer :=
      analyzerLts_step.mpr (by rw [PktSlot.call, hframe])
    refine ⟨_, _, _, _, .single hcall, ⟨rfl, rfl, rfl⟩, ?_, ?_⟩
    · rw [hitems]
      exact List.append_nil _
    · have hpublished : Seen.published ⟨s.analyzer, slot.call, analyzer⟩ = outcome.published := by
        rw [Seen.published, PktSlot.call, hframe]
      rw [hrun, List.flatMap_singleton, hpublished]
      rfl
  | anaPublish hrun =>
    refine Lts.Simulation.stutter ⟨rfl, rfl, rfl⟩ (List.append_nil _) ?_
    rw [PipelineStep.offered, hrun]
    rfl
  | anaPopEmpty hrun | anaCheckDone hrun | anaCheckOpen hrun | anaDone hrun =>
    exact hstay rfl rfl (by rw [hrun]; rfl) rfl rfl
  | _ => exact hstay rfl rfl rfl rfl rfl

/-- The pipeline simulates the analyzer. -/
def pipelineSimulation (cfg : PipelineConfig) :
    Lts.Simulation (pipelineLts R cfg) (analyzerLts : Lts (Analyzer R) Call) Call Event where
  input := PipelineStep.acceptedCalls
  output := PipelineStep.offered
  work x := [x.label]
  result := Seen.published
  rel := RunsBehind
  step := pipelineStep_runsBehind

variable {cfg : PipelineConfig} {s0 t : Pipeline R} {tr : List (PipelineStep R)}

omit [Double R] in
theorem IsLaunch.runsBehind (h0 : IsLaunch s0) : RunsBehind s0 s0.analyzer [] [] := by
  refine ⟨rfl, ?_, ?_⟩
  · rw [h0.rbPkt]
    rfl
  · rw [h0.analysis]
    rfl

/-- The events that the calls `cs` publish. -/
def eventsOf (st : Analyzer R) (cs : List Call) : List Event :=
  (observe st cs).flatMap Seen.published

/-- A run of the analyzer is the run over its calls. -/
theorem run_observe {st st' : Analyzer R} {tr : List (Seen R)} (h : Lts.Run analyzerLts st tr st') :
    tr = observe st (tr.map (·.label)) ∧ st' = afterCalls st (tr.map (·.label)) := by
  induction h with
  | nil => exact ⟨rfl, rfl⟩
  | @snoc tr t u l _ hs ih =>
    have hu := analyzerLts_step.mp hs
    rw [List.map_append, List.map_singleton, observe_concat, afterCalls_concat, ← ih.1, ← ih.2, hu]
    exact ⟨rfl, rfl⟩

/-- In every run the calls of `analyze_packet` are the accepted packets that no longer wait. The
analyzer is in the state after these calls, and their events have been handed on, or belong to
the packet at hand. -/
theorem run_sequential (h0 : IsLaunch s0) (h : Lts.Run (pipelineLts R cfg) s0 tr t) :
    ∃ calls, tr.flatMap PipelineStep.acceptedCalls = calls ++ t.rbPkt.items.map PktSlot.call ∧
      t.analyzer = afterCalls s0.analyzer calls ∧
      eventsOf s0.analyzer calls = tr.flatMap PipelineStep.offered ++ t.analysis.pending := by
  obtain ⟨ref, b, waiting, owed, hrun, hrel, hin, hout⟩ :=
    (pipelineSimulation cfg).run h0.runsBehind h
  obtain ⟨rfl, rfl, rfl⟩ := hrel
  obtain ⟨hseen, hafter⟩ := run_observe hrun
  refine ⟨ref.map (·.label), ?_, hafter, ?_⟩
  · rw [List.map_eq_flatMap]
    exact hin
  · rw [eventsOf, ← hseen]
    exact hout

/-! ## What is lost on the way -/

/-- The packet that the step hands to `rb_push`. -/
def PipelineStep.captured (x : PipelineStep R) : List Call :=
  match x.label with
  | .capPush packet ts => [(packetHandler packet ts).call]
  | _ => []

/-- The packet that the step gets from libpcap. -/
def PipelineStep.frames (x : PipelineStep R) : List Call :=
  match x.label with
  | .capPush packet ts => [⟨packet, ts⟩]
  | _ => []

/-- The step finds room for what it hands to `rb_push`. -/
def PipelineStep.FindsRoom (x : PipelineStep R) : Prop :=
  x.acceptedCalls = x.captured ∧ x.published = x.offered

instance (x : PipelineStep R) : Decidable x.FindsRoom :=
  inferInstanceAs (Decidable (x.acceptedCalls = x.captured ∧ x.published = x.offered))

omit [Double R] in
theorem taken_sublist {α : Type} (q : BoundedQueue α) (x : α) : (q.taken x).Sublist [x] := by
  unfold BoundedQueue.taken
  split
  · exact List.Sublist.refl _
  · exact List.nil_sublist _

omit [Double R] in
theorem acceptedCalls_sublist (x : PipelineStep R) : x.acceptedCalls.Sublist x.captured := by
  obtain ⟨s, l, s'⟩ := x
  cases l with
  | capPush packet ts => exact (taken_sublist _ _).map PktSlot.call
  | _ => exact List.Sublist.refl _

omit [Double R] in
theorem published_sublist (x : PipelineStep R) :
    (PipelineStep.published x).Sublist (PipelineStep.offered x) := by
  obtain ⟨s, l, s'⟩ := x
  cases l with
  | anaPublish =>
    unfold PipelineStep.published PipelineStep.offered
    dsimp only
    split
    · next hana =>
      rw [hana]
      exact taken_sublist _ _
    · exact List.nil_sublist _
  | _ => exact List.Sublist.refl _

omit [Double R] in
theorem sentBatches_flatten (tr : List (PipelineStep R)) :
    (sentBatches tr).flatten = tr.flatMap PipelineStep.sent := by
  induction tr with
  | nil => rfl
  | cons x tr ih =>
    rw [List.flatMap_cons, ← ih, sentBatches, List.filterMap_cons]
    obtain ⟨s, l, s'⟩ := x
    cases l with
    | pubSend ok => cases ok <;> rfl
    | _ => rfl

/-- What the agent sends: the events of accepted packets in order, some of them lost on the way.
Nothing is invented, doubled or reordered. -/
theorem run_sends_sublist (h0 : IsLaunch s0) (h : Lts.Run (pipelineLts R cfg) s0 tr t) :
    ∃ calls, calls.Sublist (tr.flatMap PipelineStep.captured) ∧
      ((sentBatches tr).flatten ++ (t.batch ++ t.rbEvt.items)).Sublist
        (eventsOf s0.analyzer calls) := by
  obtain ⟨calls, hin, -, hout⟩ := run_sequential h0 h
  have haccepted : (tr.flatMap PipelineStep.acceptedCalls).Sublist
      (tr.flatMap PipelineStep.captured) :=
    List.Sublist.flatMap_right tr fun x _ => acceptedCalls_sublist x
  have hoffered : (tr.flatMap PipelineStep.published).Sublist (tr.flatMap PipelineStep.offered) :=
    List.Sublist.flatMap_right tr fun x _ => published_sublist x
  refine ⟨calls, ?_, ?_⟩
  · rw [hin] at haccepted
    exact (List.sublist_append_left _ _).trans haccepted
  · rw [sentBatches_flatten, ← accepted_events h0 h, hout]
    exact hoffered.trans (List.sublist_append_left _ _)

/-- A run that ends well and finds room for every packet and every event sends exactly what the
analyzer publishes when it is called on one captured packet after the other. -/
theorem run_sends_all (h0 : IsLaunch s0) (h : Lts.Run (pipelineLts R cfg) s0 tr t)
    (hsend : ∀ x ∈ tr, x.label ≠ .pubSend false) (hexit : t.Exited) (hsafe : ∀ x ∈ tr, ¬ Strands x)
    (hroom : ∀ x ∈ tr, PipelineStep.FindsRoom x) :
    (sentBatches tr).flatten = eventsOf s0.analyzer (tr.flatMap PipelineStep.captured) := by
  obtain ⟨calls, hin, -, hout⟩ := run_sequential h0 h
  have hdrained := (shutdown_drains_iff h0 h hsend hexit).mpr hsafe
  have hcalls : tr.flatMap PipelineStep.captured = calls := by
    rw [hdrained.rbPkt, List.map_nil, List.append_nil] at hin
    rw [← hin]
    exact List.flatMap_congr fun x hx => (hroom x hx).1.symm
  have hevents : tr.flatMap PipelineStep.published = tr.flatMap PipelineStep.offered :=
    List.flatMap_congr fun x hx => (hroom x hx).2
  have hpending : t.analysis.pending = [] := by
    rw [hexit.analysis]
    rfl
  rw [sentBatches_flatten, ← hdrained.events, hevents, hcalls, hout, hpending, List.append_nil]

/-! ## A run that sends everything -/

/-- A TCP packet of 1.2.3.4 without flags. -/
def nullFrame : Bytes := tcpFrame [1, 2, 3, 4] 22 0

/-- Three NULL packets and an ICMP packet. The analyzer and the publisher run between them, and
the third NULL packet is reported in the second batch. -/
def scanShutdown : List PipelineLabel :=
  [.pubStart true 0, .capPush nullFrame 1000, .capPush icmpFrame 1000, .anaPop, .anaPublish,
    .capPush nullFrame 1001, .anaPop, .anaPublish, .pubPop 1, .pubPop 1, .pubPop 1, .pubCheck 200,
    .pubSend true, .anaPop, .anaPublish, .capPush nullFrame 1002, .anaPop, .anaPublish, .capDone,
    .anaPop, .anaCheck, .anaDone, .pubPop 201, .pubPop 201, .pubPop 201, .pubCheck 202,
    .pubSend true, .pubPop 203, .pubCheck 203]

def scanFrames : List Call :=
  [⟨nullFrame, 1000⟩, ⟨icmpFrame, 1000⟩, ⟨nullFrame, 1001⟩, ⟨nullFrame, 1002⟩]

/-- The schedule is a run, with its packets and the batches that it sends. -/
theorem exists_scan_run : ∃ (tr : List (PipelineStep ℝ)) (t : Pipeline ℝ),
    Lts.Run (pipelineLts ℝ smallPipeline) (.launch 2) tr t ∧ t.Exited ∧
      tr.flatMap PipelineStep.frames = scanFrames ∧
      (sentBatches tr).map (List.map Event.kcScore) = [[0, 0], [0, 20]] ∧
      ∀ x ∈ tr, x.label ≠ .pubSend false ∧ ¬ Strands x ∧ PipelineStep.FindsRoom x ∧
        ∀ c ∈ PipelineStep.frames x, c.packet.length ≤ SNAP_LEN := by
  have hok : ((pipelineLts ℝ smallPipeline).exec (.launch 2) scanShutdown).map
      (fun r => (r.2.capture, r.2.analysis, r.2.publish,
        decide (r.1.flatMap PipelineStep.frames = scanFrames),
        decide ((sentBatches r.1).map (List.map Event.kcScore) = [[0, 0], [0, 20]]),
        r.1.all fun x => decide (x.label ≠ .pubSend false ∧ ¬ Strands x ∧
          PipelineStep.FindsRoom x ∧ ∀ c ∈ PipelineStep.frames x, c.packet.length ≤ SNAP_LEN))) =
      some (.exited, .exited, .exited, true, true, true) := by decide +kernel
  obtain ⟨tr, t, hrun, hval⟩ := Lts.run_of_exec hok
  simp only [Prod.mk.injEq, List.all_eq_true, decide_eq_true_eq] at hval
  obtain ⟨hcap, hana, hpub, hframes, hscores, hall⟩ := hval
  exact ⟨tr, t, hrun, ⟨hcap, hana, .inl hpub⟩, hframes, hscores, hall⟩

theorem run_sequential_scan : ∃ (tr : List (PipelineStep ℝ)) (t : Pipeline ℝ),
    tr.flatMap PipelineStep.frames = scanFrames ∧
      ∃ calls, tr.flatMap PipelineStep.acceptedCalls = calls ++ t.rbPkt.items.map PktSlot.call ∧
        t.analyzer = afterCalls (Pipeline.launch 2 : Pipeline ℝ).analyzer calls ∧
        eventsOf (Pipeline.launch 2 : Pipeline ℝ).analyzer calls =
          tr.flatMap PipelineStep.offered ++ t.analysis.pending := by
  obtain ⟨tr, t, hrun, -, hframes, -⟩ := exists_scan_run
  exact ⟨tr, t, hframes, run_sequential (launch_isLaunch 2) hrun⟩

theorem run_sends_sublist_scan : ∃ (tr : List (PipelineStep ℝ)) (t : Pipeline ℝ),
    tr.flatMap PipelineStep.frames = scanFrames ∧
      (sentBatches tr).map (List.map Event.kcScore) = [[0, 0], [0, 20]] ∧
      ∃ calls, calls.Sublist (tr.flatMap PipelineStep.captured) ∧
        ((sentBatches tr).flatten ++ (t.batch ++ t.rbEvt.items)).Sublist
          (eventsOf (Pipeline.launch 2 : Pipeline ℝ).analyzer calls) := by
  obtain ⟨tr, t, hrun, -, hframes, hscores, -⟩ := exists_scan_run
  exact ⟨tr, t, hframes, hscores, run_sends_sublist (launch_isLaunch 2) hrun⟩

theorem run_sends_all_scan : ∃ tr : List (PipelineStep ℝ),
    tr.flatMap PipelineStep.frames = scanFrames ∧
      (sentBatches tr).map (List.map Event.kcScore) = [[0, 0], [0, 20]] ∧
      (sentBatches tr).flatten =
        eventsOf (Pipeline.launch 2 : Pipeline ℝ).analyzer
          (tr.flatMap PipelineStep.captured) := by
  obtain ⟨tr, t, hrun, hexit, hframes, hscores, hall⟩ := exists_scan_run
  exact ⟨tr, hframes, hscores, run_sends_all (launch_isLaunch 2) hrun (fun x hx => (hall x hx).1)
    hexit (fun x hx => (hall x hx).2.1) fun x hx => (hall x hx).2.2.1⟩

end TrafficAnalyzer
