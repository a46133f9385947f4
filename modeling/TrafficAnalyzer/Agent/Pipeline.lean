import TrafficAnalyzer.Lib.BoundedQueue
import TrafficAnalyzer.Lib.Lts
import TrafficAnalyzer.Lib.RealDouble
import TrafficAnalyzer.Agent.Runs

/-!
# The pipeline of the agent (`src/agent/core/pipeline.c`)

The capture, analysis and publication threads, joined by the two ring buffers and the
two done flags. A push and a pop are one step each; the read of a flag is a step of its
own, so other threads run between a pop that found nothing and the read that follows it.

* `pipelineStep_move`: what each step needs and what it changes.
* `PipelineInv`: what the flags and the places of the threads say about each other.
* `accepted_packets`, `accepted_events`: nothing is lost inside the pipeline.
* `shutdown_drains_iff`: the shutdown drains both buffers exactly when no consumer
  leaves, or has left, while its buffer holds something.
-/

namespace TrafficAnalyzer

variable {R : Type}

/-! ## The threads -/

def SNAP_LEN : Nat := 1518

/-- `pkt_slot_t`: the bytes in use, and `ts.tv_sec`. -/
structure PktSlot where
  data : Bytes
  ts : Int
deriving DecidableEq

/-- The slot that `packet_handler` fills. -/
def packetHandler (packet : Bytes) (ts : Int) : PktSlot := ⟨packet.take SNAP_LEN, ts⟩

/-- `AGENT_BATCH_SIZE` and `AGENT_BATCH_TIMEOUT_MS`. `env_int` returns positive numbers
only. -/
structure PipelineConfig where
  batchSize : Nat
  batchTimeout : Int
  batchSize_pos : 0 < batchSize

inductive CaptureThread
  | running
  | exited
deriving DecidableEq

/-- Where `analysis_thread` is. `running` has the events to publish for the packet at
hand, and pops when there are none left; `emptied` is past an `rb_pop` that failed,
`leaving` past the loop. -/
inductive AnalysisThread
  | running (pending : List Event)
  | emptied
  | leaving
  | exited
deriving DecidableEq

/-- Where `publish_thread` is. `checking` is past the `if` with `rb_pop`, `sending` at
the call of `publisher_send_batch`, `failed` has returned because `calloc` failed. -/
inductive PublishThread
  | starting
  | polling
  | checking
  | sending (drained : Bool)
  | exited
  | failed
deriving DecidableEq

/-- The static variables of the module, the analyzer, and the locals of the threads. -/
structure Pipeline (R : Type) where
  rbPkt : BoundedQueue PktSlot
  rbEvt : BoundedQueue Event
  captureDone : Bool
  analysisDone : Bool
  batchesSent : UInt64
  eventsSent : UInt64
  analyzer : Analyzer R
  capture : CaptureThread
  analysis : AnalysisThread
  publish : PublishThread
  batch : List Event
  batchStart : Int

/-- The steps of the three threads. `now` is the clock of `now_ms_monotonic`. -/
inductive PipelineLabel
  | capPush (packet : Bytes) (ts : Int)
  | capDone
  | anaPop
  | anaPublish
  | anaCheck
  | anaDone
  | pubStart (allocated : Bool) (now : Int)
  | pubPop (now : Int)
  | pubCheck (now : Int)
  | pubSend (sent : Bool)
deriving DecidableEq

/-- The decision of `publish_thread` after the read of `g_analysis_done`. -/
def publishDecision (cfg : PipelineConfig) (batch : List Event) (batchStart now : Int)
    (drained : Bool) : PublishThread :=
  let timedOut := decide (0 < batch.length ∧ cfg.batchTimeout ≤ now - batchStart)
  if batch.length = cfg.batchSize ∨ timedOut ∨ (drained ∧ 0 < batch.length) then .sending drained
  else if drained ∧ batch.length = 0 then .exited
  else .polling

def pipelineStep [Double R] (cfg : PipelineConfig) (s : Pipeline R) :
    PipelineLabel → Option (Pipeline R)
  | .capPush packet ts =>
    match s.capture with
    | .running => some { s with rbPkt := s.rbPkt.offer (packetHandler packet ts) }
    | _ => none
  | .capDone =>
    match s.capture with
    | .running => some { s with captureDone := true, capture := .exited }
    | _ => none
  | .anaPop =>
    match s.analysis with
    | .running [] =>
      match s.rbPkt.pop? with
      | some (slot, rbPkt) => do
        let (analyzer, outcome) ← analyzePacket s.analyzer slot.data slot.ts
        some { s with rbPkt, analyzer, analysis := .running outcome.published }
      | none => some { s with analysis := .emptied }
    | _ => none
  | .anaPublish =>
    match s.analysis with
    | .running (e :: es) => some { s with rbEvt := s.rbEvt.offer e, analysis := .running es }
    | _ => none
  | .anaCheck =>
    match s.analysis with
    | .emptied => some { s with analysis := if s.captureDone then .leaving else .running [] }
    | _ => none
  | .anaDone =>
    match s.analysis with
    | .leaving => some { s with analysisDone := true, analysis := .exited }
    | _ => none
  | .pubStart allocated now =>
    match s.publish with
    | .starting =>
      some { s with publish := if allocated then .polling else .failed, batchStart := now }
    | _ => none
  | .pubPop now =>
    match s.publish with
    | .polling =>
      if s.batch.length < cfg.batchSize then
        match s.rbEvt.pop? with
        | some (e, rbEvt) =>
          some { s with
            rbEvt
            batch := s.batch ++ [e]
            batchStart := if s.batch.length = 0 then now else s.batchStart }
        | none => some { s with publish := .checking }
      else some { s with publish := .checking }
    | _ => none
  | .pubCheck now =>
    match s.publish with
    | .checking =>
      some { s with publish := publishDecision cfg s.batch s.batchStart now s.analysisDone }
    | _ => none
  | .pubSend sent =>
    match s.publish with
    | .sending drained =>
      if sent then
        some { s with
          batchesSent := s.batchesSent + 1
          eventsSent := s.eventsSent + UInt64.ofNat s.batch.length
          batch := []
          publish := .polling }
      -- shutdown with the broker down: the batch is given up
      else some { s with publish := if drained then .exited else .polling }
    | _ => none

/-- The steps by what they need and what they change. -/
inductive PipelineMove [Double R] (cfg : PipelineConfig) (s : Pipeline R) :
    PipelineLabel → Pipeline R → Prop
  | capPush {packet ts} : s.capture = .running →
      PipelineMove cfg s (.capPush packet ts)
        { s with rbPkt := s.rbPkt.offer (packetHandler packet ts) }
  | capDone : s.capture = .running →
      PipelineMove cfg s .capDone { s with captureDone := true, capture := .exited }
  | anaPop {slot rbPkt analyzer outcome} : s.analysis = .running [] →
      s.rbPkt.pop? = some (slot, rbPkt) →
      analyzePacket s.analyzer slot.data slot.ts = some (analyzer, outcome) →
      PipelineMove cfg s .anaPop
        { s with rbPkt, analyzer, analysis := .running outcome.published }
  | anaPopEmpty : s.analysis = .running [] → s.rbPkt.items = [] →
      PipelineMove cfg s .anaPop { s with analysis := .emptied }
  | anaPublish {e es} : s.analysis = .running (e :: es) →
      PipelineMove cfg s .anaPublish
        { s with rbEvt := s.rbEvt.offer e, analysis := .running es }
  | anaCheckDone : s.analysis = .emptied → s.captureDone = true →
      PipelineMove cfg s .anaCheck { s with analysis := .leaving }
  | anaCheckOpen : s.analysis = .emptied → s.captureDone = false →
      PipelineMove cfg s .anaCheck { s with analysis := .running [] }
  | anaDone : s.analysis = .leaving →
      PipelineMove cfg s .anaDone { s with analysisDone := true, analysis := .exited }
  | pubStart {now} : s.publish = .starting →
      PipelineMove cfg s (.pubStart true now) { s with publish := .polling, batchStart := now }
  | pubFail {now} : s.publish = .starting →
      PipelineMove cfg s (.pubStart false now) { s with publish := .failed, batchStart := now }
  | pubPop {now e rbEvt} : s.publish = .polling → s.rbEvt.pop? = some (e, rbEvt) →
      PipelineMove cfg s (.pubPop now)
        { s with
          rbEvt
          batch := s.batch ++ [e]
          batchStart := if s.batch.length = 0 then now else s.batchStart }
  | pubPopNone {now} : s.publish = .polling →
      PipelineMove cfg s (.pubPop now) { s with publish := .checking }
  | pubFlush {now} : s.publish = .checking → s.batch ≠ [] →
      PipelineMove cfg s (.pubCheck now) { s with publish := .sending s.analysisDone }
  | pubExit {now} : s.publish = .checking → s.analysisDone = true → s.batch = [] →
      PipelineMove cfg s (.pubCheck now) { s with publish := .exited }
  | pubIdle {now} : s.publish = .checking → ¬ (s.analysisDone = true ∧ s.batch = []) →
      PipelineMove cfg s (.pubCheck now) { s with publish := .polling }
  | pubSent {drained} : s.publish = .sending drained →
      PipelineMove cfg s (.pubSend true)
        { s with
          batchesSent := s.batchesSent + 1
          eventsSent := s.eventsSent + UInt64.ofNat s.batch.length
          batch := []
          publish := .polling }
  | pubDrop : s.publish = .sending true →
      PipelineMove cfg s (.pubSend false) { s with publish := .exited }
  | pubRetry : s.publish = .sending false →
      PipelineMove cfg s (.pubSend false) { s with publish := .polling }

theorem publishDecision_cases (cfg : PipelineConfig) (batch : List Event)
    (batchStart now : Int) (drained : Bool) :
    (batch ≠ [] ∧ publishDecision cfg batch batchStart now drained = .sending drained) ∨
    (drained = true ∧ batch = [] ∧
      publishDecision cfg batch batchStart now drained = .exited) ∨
    (¬ (drained = true ∧ batch = []) ∧
      publishDecision cfg batch batchStart now drained = .polling) := by
  have hpos := cfg.batchSize_pos
  simp only [publishDecision]
  split
  · next hflush =>
    refine .inl ⟨?_, rfl⟩
    rw [← List.length_pos_iff]
    rcases hflush with hfull | htime | hdrained
    · rwa [hfull]
    · exact (of_decide_eq_true htime).1
    · exact hdrained.2
  · split
    · next hexit => exact .inr (.inl ⟨hexit.1, List.length_eq_zero_iff.mp hexit.2, rfl⟩)
    · next hstay =>
      rw [List.length_eq_zero_iff] at hstay
      exact .inr (.inr ⟨hstay, rfl⟩)

theorem pipelineStep_move [Double R] {cfg : PipelineConfig} {s s' : Pipeline R}
    {l : PipelineLabel} (h : pipelineStep cfg s l = some s') : PipelineMove cfg s l s' := by
  cases l with
  | capPush packet ts =>
    simp only [pipelineStep] at h
    split at h
    · next hrun => cases h; exact .capPush hrun
    · cases h
  | capDone =>
    simp only [pipelineStep] at h
    split at h
    · next hrun => cases h; exact .capDone hrun
    · cases h
  | anaPop =>
    simp only [pipelineStep] at h
    split at h
    · next hrun =>
      split at h
      · next hpop =>
        obtain ⟨⟨analyzer, outcome⟩, hpkt, hs⟩ := Option.bind_eq_some_iff.mp h
        cases hs
        exact .anaPop hrun hpop hpkt
      · next hpop =>
        cases h
        exact .anaPopEmpty hrun (BoundedQueue.pop?_eq_none.mp hpop)
    · cases h
  | anaPublish =>
    simp only [pipelineStep] at h
    split at h
    · next hrun => cases h; exact .anaPublish hrun
    · cases h
  | anaCheck =>
    simp only [pipelineStep] at h
    split at h
    · next hrun =>
      cases h
      split
      · next hdone => exact .anaCheckDone hrun hdone
      · next hopen => exact .anaCheckOpen hrun (Bool.eq_false_of_not_eq_true hopen)
    · cases h
  | anaDone =>
    simp only [pipelineStep] at h
    split at h
    · next hrun => cases h; exact .anaDone hrun
    · cases h
  | pubStart allocated now =>
    simp only [pipelineStep] at h
    split at h
    · next hstart =>
      cases h
      cases allocated with
      | true => exact .pubStart hstart
      | false => exact .pubFail hstart
    · cases h
  | pubPop now =>
    simp only [pipelineStep] at h
    split at h
    · next hpoll =>
      split at h
      · split at h
        · next hpop => cases h; exact .pubPop hpoll hpop
        · cases h; exact .pubPopNone hpoll
      · cases h; exact .pubPopNone hpoll
    · cases h
  | pubCheck now =>
    simp only [pipelineStep] at h
    split at h
    · next hcheck =>
      cases h
      rcases publishDecision_cases cfg s.batch s.batchStart now s.analysisDone
        with ⟨hbatch, hd⟩ | ⟨hdone, hbatch, hd⟩ | ⟨hstay, hd⟩
      · rw [hd]; exact .pubFlush hcheck hbatch
      · rw [hd]; exact .pubExit hcheck hdone hbatch
      · rw [hd]; exact .pubIdle hcheck hstay
    · cases h
  | pubSend sent =>
    simp only [pipelineStep] at h
    split at h
    · next drained hsend =>
      cases sent with
      | true => cases h; exact .pubSent hsend
      | false =>
        cases h
        cases drained with
        | true => exact .pubDrop hsend
        | false => exact .pubRetry hsend
    · cases h

/-! ## Runs -/

/-- `pipeline_run` has created the buffers and the threads. -/
structure IsLaunch (s : Pipeline R) : Prop where
  rbPkt : s.rbPkt.items = []
  rbEvt : s.rbEvt.items = []
  captureDone : s.captureDone = false
  analysisDone : s.analysisDone = false
  capture : s.capture = .running
  analysis : s.analysis = .running []
  publish : s.publish = .starting
  batch : s.batch = []

def pipelineLts (R : Type) [Double R] (cfg : PipelineConfig) : Lts (Pipeline R) PipelineLabel where
  init := IsLaunch
  step := pipelineStep cfg

abbrev PipelineStep (R : Type) := Lts.Step (Pipeline R) PipelineLabel

/-- The packet that the step puts into `rb_pkt`. -/
def PipelineStep.accepted (x : PipelineStep R) : List PktSlot :=
  match x.label with
  | .capPush packet ts => x.before.rbPkt.taken (packetHandler packet ts)
  | _ => []

/-- The packet that the step passes to `analyze_packet`. -/
def PipelineStep.analyzed (x : PipelineStep R) : List PktSlot :=
  match x.label with
  | .anaPop => x.before.rbPkt.items.head?.toList
  | _ => []

/-- The event that the step puts into `rb_evt`. -/
def PipelineStep.published (x : PipelineStep R) : List Event :=
  match x.label, x.before.analysis with
  | .anaPublish, .running (e :: _) => x.before.rbEvt.taken e
  | _, _ => []

/-- The batch that the step sends. -/
def PipelineStep.sent (x : PipelineStep R) : List Event :=
  match x.label with
  | .pubSend true => x.before.batch
  | _ => []

section Accounting

variable [Double R] {cfg : PipelineConfig} {s0 s s' t : Pipeline R} {l : PipelineLabel}
  {tr : List (PipelineStep R)}

theorem pipelineStep_packets (hs : pipelineStep cfg s l = some s') :
    s.rbPkt.items ++ PipelineStep.accepted ⟨s, l, s'⟩ =
      PipelineStep.analyzed ⟨s, l, s'⟩ ++ s'.rbPkt.items := by
  cases pipelineStep_move hs
  case capPush => simp [PipelineStep.accepted, PipelineStep.analyzed, BoundedQueue.offer_items]
  case anaPop hpop _ =>
    simp [PipelineStep.accepted, PipelineStep.analyzed, BoundedQueue.pop?_eq_some hpop]
  case anaPopEmpty hnil => simp [PipelineStep.accepted, PipelineStep.analyzed, hnil]
  all_goals simp [PipelineStep.accepted, PipelineStep.analyzed]

theorem pipelineStep_events (hs : pipelineStep cfg s l = some s') :
    s.batch ++ s.rbEvt.items ++ PipelineStep.published ⟨s, l, s'⟩ =
      PipelineStep.sent ⟨s, l, s'⟩ ++ (s'.batch ++ s'.rbEvt.items) := by
  cases pipelineStep_move hs
  case anaPublish hrun =>
    simp [PipelineStep.published, PipelineStep.sent, hrun, BoundedQueue.offer_items]
  case pubPop hpop =>
    simp [PipelineStep.published, PipelineStep.sent, BoundedQueue.pop?_eq_some hpop]
  all_goals simp [PipelineStep.published, PipelineStep.sent]

/-- Every accepted packet has been analyzed, in the order of the pushes, or waits in
`rb_pkt`. -/
theorem accepted_packets (h0 : IsLaunch s0) (h : Lts.Run (pipelineLts R cfg) s0 tr t) :
    tr.flatMap PipelineStep.accepted = tr.flatMap PipelineStep.analyzed ++ t.rbPkt.items := by
  induction h with
  | nil => simp [h0.rbPkt]
  | @snoc tr t u l _ hs ih =>
    have hstep := pipelineStep_packets hs
    simp only [List.flatMap_append, List.flatMap_singleton, ih, List.append_assoc, hstep]

/-- Every accepted event has been sent, is in the batch, or waits in `rb_evt`. -/
theorem accepted_events (h0 : IsLaunch s0) (h : Lts.Run (pipelineLts R cfg) s0 tr t) :
    tr.flatMap PipelineStep.published =
      tr.flatMap PipelineStep.sent ++ (t.batch ++ t.rbEvt.items) := by
  induction h with
  | nil => simp [h0.batch, h0.rbEvt]
  | @snoc tr t u l _ hs ih =>
    have hstep := pipelineStep_events hs
    simp only [List.flatMap_append, List.flatMap_singleton, ih, List.append_assoc] at hstep ⊢
    rw [hstep]

end Accounting

/-! ## Shutdown -/

/-- `analysis_thread` pops no more. -/
def AnalysisThread.HasLeft (a : AnalysisThread) : Prop := a = .leaving ∨ a = .exited

/-- `publish_thread` pops no more. -/
def PublishThread.HasLeft (p : PublishThread) : Prop := p = .exited ∨ p = .failed

structure PipelineInv (s : Pipeline R) : Prop where
  captureDone : s.captureDone = true → s.capture = .exited
  analysisDone : s.analysisDone = true → s.analysis = .exited
  left : s.analysis.HasLeft → s.captureDone = true
  sending : s.publish = .sending true → s.analysisDone = true
  exited : s.publish = .exited → s.analysisDone = true

/-- The step by which a consumer leaves a buffer that holds something, or after which
something enters a buffer whose consumer has left:

* `analysis_thread` reads `g_capture_done` as 1 while `rb_pkt` holds a packet;
* `publish_thread` reads `g_analysis_done` as 1 with an empty batch while `rb_evt` holds
  an event;
* `publish_thread` cannot allocate its batch while `rb_evt` holds an event, or an event
  enters `rb_evt` afterwards. -/
def Strands (x : PipelineStep R) : Prop :=
  match x.label with
  | .anaCheck => x.before.captureDone = true ∧ x.before.rbPkt.items ≠ []
  | .pubCheck _ =>
    x.before.analysisDone = true ∧ x.before.batch = [] ∧ x.before.rbEvt.items ≠ []
  | .pubStart allocated _ => allocated = false ∧ x.before.rbEvt.items ≠ []
  | .anaPublish => x.before.publish = .failed ∧ x.published ≠ []
  | _ => False

/-- Something waits in a buffer that nobody reads any more. -/
def Stranded (s : Pipeline R) : Prop :=
  (s.analysis.HasLeft ∧ s.rbPkt.items ≠ []) ∨ (s.publish.HasLeft ∧ s.rbEvt.items ≠ [])

instance (x : PipelineStep R) : Decidable (Strands x) :=
  match x with
  | ⟨s, .anaCheck, _⟩ => inferInstanceAs (Decidable (s.captureDone = true ∧ s.rbPkt.items ≠ []))
  | ⟨s, .pubCheck _, _⟩ =>
    inferInstanceAs (Decidable (s.analysisDone = true ∧ s.batch = [] ∧ s.rbEvt.items ≠ []))
  | ⟨s, .pubStart allocated _, _⟩ =>
    inferInstanceAs (Decidable (allocated = false ∧ s.rbEvt.items ≠ []))
  | ⟨s, .anaPublish, s'⟩ =>
    inferInstanceAs (Decidable (s.publish = .failed ∧
      PipelineStep.published ⟨s, .anaPublish, s'⟩ ≠ []))
  | ⟨_, .capPush _ _, _⟩ | ⟨_, .capDone, _⟩ | ⟨_, .anaPop, _⟩ | ⟨_, .anaDone, _⟩
  | ⟨_, .pubPop _, _⟩ | ⟨_, .pubSend _, _⟩ => inferInstanceAs (Decidable False)

theorem PipelineInv.not_left {s : Pipeline R} (hinv : PipelineInv s) (hcap : s.capture = .running) :
    ¬ s.analysis.HasLeft := by
  intro hleft
  have hexit := hinv.captureDone (hinv.left hleft)
  rw [hcap] at hexit
  cases hexit

theorem PipelineInv.not_exited {s : Pipeline R} (hinv : PipelineInv s) {es : List Event}
    (hana : s.analysis = .running es) : s.publish ≠ .exited := by
  intro hexit
  have hdone := hinv.analysisDone (hinv.exited hexit)
  rw [hana] at hdone
  cases hdone

theorem IsLaunch.inv {s0 : Pipeline R} (h0 : IsLaunch s0) : PipelineInv s0 := by
  obtain ⟨_, _, hcap, hana, _, hrun, hstart, _⟩ := h0
  constructor <;> simp [hcap, hana, hrun, hstart, AnalysisThread.HasLeft]

section Shutdown

variable [Double R] {cfg : PipelineConfig} {s0 s s' t : Pipeline R} {l : PipelineLabel}
  {tr : List (PipelineStep R)}

theorem pipelineStep_inv (hinv : PipelineInv s) (hs : pipelineStep cfg s l = some s') :
    PipelineInv s' := by
  obtain ⟨hcap, hana, hleft, hsending, hexited⟩ := hinv
  cases pipelineStep_move hs <;> constructor <;> simp_all [AnalysisThread.HasLeft]

/-- A step strands something, or what is stranded was so before. -/
theorem pipelineStep_stranded (hinv : PipelineInv s) (hsend : l ≠ .pubSend false)
    (hs : pipelineStep cfg s l = some s') :
    Stranded s' ↔ Strands ⟨s, l, s'⟩ ∨ Stranded s := by
  cases pipelineStep_move hs
  case capPush hrun => simp [Stranded, Strands, hinv.not_left hrun]
  case anaPublish e es hrun =>
    have hpub := hinv.not_exited hrun
    -- what enters `rb_evt` after the publisher has failed is stranded by this very step
    by_cases hfail : s.publish = .failed
    · simp only [Stranded, Strands, PublishThread.HasLeft, hrun, hfail, PipelineStep.published,
        AnalysisThread.HasLeft, ne_eq, BoundedQueue.offer_eq_nil]
      tauto
    · simp [Stranded, Strands, PublishThread.HasLeft, hrun, hfail, hpub, AnalysisThread.HasLeft]
  case anaCheckDone hrun hdone =>
    simp [Stranded, Strands, AnalysisThread.HasLeft, hrun, hdone]
  case pubFail hstart =>
    simp [Stranded, Strands, PublishThread.HasLeft, hstart, or_comm]
  case pubExit hcheck hdone hbatch =>
    simp [Stranded, Strands, PublishThread.HasLeft, hcheck, hdone, hbatch, or_comm]
  case pubDrop => exact absurd rfl hsend
  case pubRetry => exact absurd rfl hsend
  all_goals simp_all [Stranded, Strands, AnalysisThread.HasLeft, PublishThread.HasLeft]

theorem run_pipelineInv (h0 : IsLaunch s0) (h : Lts.Run (pipelineLts R cfg) s0 tr t) :
    PipelineInv t :=
  h.induct h0.inv fun _ _ _ _ _ => pipelineStep_inv

/-- Something is stranded after a run exactly when one of its steps stranded it. -/
theorem run_stranded (h0 : IsLaunch s0) (h : Lts.Run (pipelineLts R cfg) s0 tr t)
    (hsend : ∀ x ∈ tr, x.label ≠ .pubSend false) : Stranded t ↔ ∃ x ∈ tr, Strands x := by
  have hstart : ¬ Stranded s0 := by
    simp [Stranded, AnalysisThread.HasLeft, PublishThread.HasLeft, h0.analysis, h0.publish]
  refine h.marked_iff hstart fun x hx => ?_
  obtain ⟨a, hbefore⟩ := h.before_of_mem hx
  exact pipelineStep_stranded (run_pipelineInv h0 hbefore) (hsend x hx) (h.step_of_mem hx)

/-- `publish_thread` leaves with an empty batch, unless a send fails. -/
theorem run_batch (h0 : IsLaunch s0) (h : Lts.Run (pipelineLts R cfg) s0 tr t)
    (hsend : ∀ x ∈ tr, x.label ≠ .pubSend false) :
    t.publish = .starting ∨ t.publish.HasLeft → t.batch = [] := by
  induction h with
  | nil => exact fun _ => h0.batch
  | @snoc tr t u l _ hs ih =>
    have hlast := hsend ⟨t, l, u⟩ (by simp)
    have hprev := ih fun x hx => hsend x (List.mem_append_left _ hx)
    cases pipelineStep_move hs <;> simp_all [PublishThread.HasLeft]

/-- The three threads have exited. -/
structure Pipeline.Exited (t : Pipeline R) : Prop where
  capture : t.capture = .exited
  analysis : t.analysis = .exited
  publish : t.publish.HasLeft

/-- Everything accepted was processed, in order, and both buffers are empty. -/
structure Drained (tr : List (PipelineStep R)) (t : Pipeline R) : Prop where
  packets : tr.flatMap PipelineStep.accepted = tr.flatMap PipelineStep.analyzed
  events : tr.flatMap PipelineStep.published = tr.flatMap PipelineStep.sent
  rbPkt : t.rbPkt.items = []
  rbEvt : t.rbEvt.items = []

/-- A run in which no send fails and all threads exit drains the pipeline if and only
if none of its steps strands anything. -/
theorem shutdown_drains_iff (h0 : IsLaunch s0) (h : Lts.Run (pipelineLts R cfg) s0 tr t)
    (hsend : ∀ x ∈ tr, x.label ≠ .pubSend false) (hexit : t.Exited) :
    Drained tr t ↔ ∀ x ∈ tr, ¬ Strands x := by
  have hiff := run_stranded h0 h hsend
  have hbatch := run_batch h0 h hsend (.inr hexit.publish)
  constructor
  · intro hd x hx hstrands
    rcases hiff.mpr ⟨x, hx, hstrands⟩ with ⟨_, hpkt⟩ | ⟨_, hevt⟩
    · exact hpkt hd.rbPkt
    · exact hevt hd.rbEvt
  · intro hsafe
    have hnot : ¬ Stranded t := fun hst =>
      have ⟨x, hx, hstrands⟩ := hiff.mp hst
      hsafe x hx hstrands
    have hpkt : t.rbPkt.items = [] := by
      by_contra hne
      exact hnot (.inl ⟨.inr hexit.analysis, hne⟩)
    have hevt : t.rbEvt.items = [] := by
      by_contra hne
      exact hnot (.inr ⟨hexit.publish, hne⟩)
    refine ⟨?_, ?_, hpkt, hevt⟩
    · simpa [hpkt] using accepted_packets h0 h
    · simpa [hevt, hbatch] using accepted_events h0 h

end Shutdown

/-! ## Two schedules -/

def smallPipeline : PipelineConfig := ⟨50, 100, by decide⟩

/-- `pipeline_run` with buffers of `capacity` slots. -/
def Pipeline.launch (capacity : Nat) : Pipeline R where
  rbPkt := .empty capacity
  rbEvt := .empty capacity
  captureDone := false
  analysisDone := false
  batchesSent := 0
  eventsSent := 0
  analyzer := .initial
  capture := .running
  analysis := .running []
  publish := .starting
  batch := []
  batchStart := 0

theorem launch_isLaunch (capacity : Nat) : IsLaunch (.launch capacity : Pipeline R) := by
  constructor <;> rfl

/-- An ICMP packet of 1.2.3.4. -/
def icmpFrame : Bytes := ipv4Frame NTA_PROTO_ICMP [1, 2, 3, 4] []

/-- One packet goes through, and then the threads leave one after the other. -/
def orderlyShutdown : List PipelineLabel :=
  [.pubStart true 0, .capPush icmpFrame 1000, .anaPop, .anaPublish, .capDone, .anaPop, .anaCheck,
    .anaDone, .pubPop 1, .pubPop 1, .pubCheck 2, .pubSend true, .pubPop 3, .pubCheck 3]

/-- The last packet arrives after `analysis_thread` has found `rb_pkt` empty, and before
it reads `g_capture_done`. -/
def hastyShutdown : List PipelineLabel :=
  [.pubStart true 0, .anaPop, .capPush icmpFrame 1000, .capDone, .anaCheck, .anaDone, .pubPop 1,
    .pubCheck 1]

/-- The packet of the orderly schedule is published before all threads exit. -/
theorem shutdown_drains_iff_orderly :
    ∃ (tr : List (PipelineStep ℝ)) (t : Pipeline ℝ),
      Lts.Run (pipelineLts ℝ smallPipeline) (.launch 2) tr t ∧ t.Exited ∧
        (tr.flatMap PipelineStep.sent).length = 1 ∧ Drained tr t := by
  have hok : ((pipelineLts ℝ smallPipeline).exec (.launch 2) orderlyShutdown).map
      (fun r => (r.2.capture, r.2.analysis, r.2.publish, (r.1.flatMap PipelineStep.sent).length,
        r.1.all fun x => decide (x.label ≠ .pubSend false ∧ ¬ Strands x))) =
      some (.exited, .exited, .exited, 1, true) := by decide +kernel
  obtain ⟨tr, t, hrun, hval⟩ := Lts.run_of_exec hok
  simp only [Prod.mk.injEq, List.all_eq_true, decide_eq_true_eq] at hval
  obtain ⟨hcap, hana, hpub, hsent, hall⟩ := hval
  have hexit : t.Exited := ⟨hcap, hana, .inl hpub⟩
  exact ⟨tr, t, hrun, hexit, hsent, (shutdown_drains_iff (launch_isLaunch 2) hrun
    (fun x hx => (hall x hx).1) hexit).mpr fun x hx => (hall x hx).2⟩

/-- After the hasty schedule all threads have exited and the packet is still in
`rb_pkt`. -/
theorem hastyShutdown_loses :
    ∃ (tr : List (PipelineStep ℝ)) (t : Pipeline ℝ),
      Lts.Run (pipelineLts ℝ smallPipeline) (.launch 2) tr t ∧
        (∀ x ∈ tr, x.label ≠ .pubSend false) ∧ t.Exited ∧ ¬ Drained tr t := by
  have hok : ((pipelineLts ℝ smallPipeline).exec (.launch 2) hastyShutdown).map
      (fun r => (r.2.capture, r.2.analysis, r.2.publish, r.2.rbPkt.items.length,
        r.1.all fun x => decide (x.label ≠ .pubSend false))) =
      some (.exited, .exited, .exited, 1, true) := by decide +kernel
  obtain ⟨tr, t, hrun, hval⟩ := Lts.run_of_exec hok
  simp only [Prod.mk.injEq, List.all_eq_true, decide_eq_true_eq] at hval
  obtain ⟨hcap, hana, hpub, hlen, hall⟩ := hval
  refine ⟨tr, t, hrun, hall, ⟨hcap, hana, .inl hpub⟩, fun hd => ?_⟩
  rw [hd.rbPkt] at hlen
  cases hlen

end TrafficAnalyzer
