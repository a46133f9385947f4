import TrafficAnalyzer.Agent.Pipeline

/-!
# In-order publication (`publish_thread`)

What the publication thread pops from `rb_evt` against what it sends. A call of
`publisher_send_batch` is one step with two outcomes: the whole batch is enqueued once, or
nothing is.

1. `PublishInv`, `pipelineStep_publishInv`: what the place of the thread says about the batch.
2. `run_publication`: in every run the batches sent and the batch held are what was popped.
3. `run_discard`: a thread that has left with events in its batch left by a failed send after
   `g_analysis_done`.
-/

namespace TrafficAnalyzer

variable {R : Type}

/-! ## What a run pops and sends -/

/-- The events that the step takes out of `rb_evt`. -/
def PipelineStep.popped (x : PipelineStep R) : List Event :=
  match x.label with
  | .pubPop _ =>
    x.before.rbEvt.items.take (x.before.rbEvt.items.length - x.after.rbEvt.items.length)
  | _ => []

/-- The batch that the step sends, for a step that sends one. -/
def PipelineStep.sentBatch (x : PipelineStep R) : Option (List Event) :=
  match x.label with
  | .pubSend true => some x.before.batch
  | _ => none

/-- The batches that `publisher_send_batch` has enqueued, in order. -/
def sentBatches (tr : List (PipelineStep R)) : List (List Event) :=
  tr.filterMap PipelineStep.sentBatch

/-- The start of the process: the two counters are static variables. -/
structure IsColdStart (s : Pipeline R) : Prop extends IsLaunch s where
  batchesSent : s.batchesSent = 0
  eventsSent : s.eventsSent = 0

/-! ## One step -/

/-- What the place of `publish_thread` says about its batch. -/
structure PublishInv (cfg : PipelineConfig) (s : Pipeline R) : Prop where
  room : s.batch.length ≤ cfg.batchSize
  sending : ∀ {drained}, s.publish = .sending drained → s.batch ≠ []
  idle : s.publish = .starting ∨ s.publish = .failed → s.batch = []

section Steps

variable [Double R] {cfg : PipelineConfig} {s s' : Pipeline R} {l : PipelineLabel}

/-- The batch grows only below `batch_size`. -/
theorem pubPop_room {now : Int} (hroom : s.batch.length ≤ cfg.batchSize)
    (hs : pipelineStep cfg s (.pubPop now) = some s') : s'.batch.length ≤ cfg.batchSize := by
  simp only [pipelineStep] at hs
  split at hs
  · split at hs
    · next hlt =>
      split at hs
      · cases hs
        rw [List.length_append]
        exact hlt
      · cases hs
        exact hroom
    · cases hs
      exact hroom
  · cases hs

theorem pipelineStep_publishInv (hinv : PublishInv cfg s) (hs : pipelineStep cfg s l = some s') :
    PublishInv cfg s' := by
  obtain ⟨hroom, hsending, hidle⟩ := hinv
  have hmove := pipelineStep_move hs
  cases hmove with
  | pubPop hpoll hpop =>
    refine ⟨pubPop_room hroom hs, fun hsend => ?_, fun hstart => ?_⟩
    · simp
    · rw [hpoll] at hstart
      rcases hstart with h | h <;> cases h
  | pubSent hsend => exact ⟨Nat.zero_le _, fun h => by (cases h), fun _ => rfl⟩
  | pubFlush hcheck hbatch =>
    exact ⟨hroom, fun _ => hbatch, fun h => by rcases h with h | h <;> cases h⟩
  | pubStart hstart =>
    exact ⟨hroom, fun h => by (cases h), fun h => by rcases h with h | h <;> cases h⟩
  | pubFail hstart => exact ⟨hroom, fun h => by (cases h), fun _ => hidle (.inl hstart)⟩
  | pubPopNone | pubExit | pubIdle | pubDrop | pubRetry =>
    exact ⟨hroom, fun h => by (cases h), fun h => by rcases h with h | h <;> cases h⟩
  | _ => exact ⟨hroom, hsending, hidle⟩

/-- What a step pops enters the batch, and what leaves the batch is sent. -/
theorem pipelineStep_batch (hs : pipelineStep cfg s l = some s') :
    s.batch ++ PipelineStep.popped ⟨s, l, s'⟩ =
      (PipelineStep.sentBatch ⟨s, l, s'⟩).getD [] ++ s'.batch := by
  cases pipelineStep_move hs with
  | pubPop hpoll hpop =>
    simp [PipelineStep.popped, PipelineStep.sentBatch, BoundedQueue.pop?_eq_some hpop]
  | _ => simp [PipelineStep.popped, PipelineStep.sentBatch]

/-- The counters move with a batch that is sent, and only then. -/
theorem pipelineStep_counters (hs : pipelineStep cfg s l = some s') :
    s'.batchesSent =
        s.batchesSent + UInt64.ofNat (PipelineStep.sentBatch ⟨s, l, s'⟩).toList.length ∧
      s'.eventsSent =
        s.eventsSent + UInt64.ofNat ((PipelineStep.sentBatch ⟨s, l, s'⟩).getD []).length := by
  cases pipelineStep_move hs with
  | pubSent => exact ⟨rfl, rfl⟩
  | _ => simp [PipelineStep.sentBatch]

end Steps

/-! ## Runs -/

/-- What a run has published at its end: the batches sent and the batch held are the popped
events in order, every batch passed to `publisher_send_batch` is of the right size, the
counters are the totals, and a thread that has left with events in its batch has left by a
send that failed with `g_analysis_done` set. -/
structure PublishedInOrder (cfg : PipelineConfig) (tr : List (PipelineStep R))
    (t : Pipeline R) : Prop where
  inOrder : (sentBatches tr).flatten ++ t.batch = tr.flatMap PipelineStep.popped
  sizes : ∀ x ∈ tr, ∀ ok, x.label = .pubSend ok →
    1 ≤ x.before.batch.length ∧ x.before.batch.length ≤ cfg.batchSize
  held : t.batch.length ≤ cfg.batchSize
  batchesSent : t.batchesSent = UInt64.ofNat (sentBatches tr).length
  eventsSent : t.eventsSent = UInt64.ofNat (sentBatches tr).flatten.length
  discarded : t.publish.HasLeft → t.batch ≠ [] → ∃ x ∈ tr, x.label = .pubSend false ∧
    x.before.analysisDone = true ∧ x.before.batch = t.batch ∧ x.after.publish = .exited

section Runs

variable [Double R] {cfg : PipelineConfig} {s0 t : Pipeline R} {tr : List (PipelineStep R)}

theorem run_publishInv (h0 : IsLaunch s0) (h : Lts.Run (pipelineLts R cfg) s0 tr t) :
    PublishInv cfg t := by
  refine h.induct (I := fun _ t => PublishInv cfg t) ?_ fun _ _ _ _ _ => pipelineStep_publishInv
  refine ⟨by rw [h0.batch]; exact Nat.zero_le _, fun hsend => ?_, fun _ => h0.batch⟩
  rw [h0.publish] at hsend
  cases hsend

omit [Double R] in
theorem sentBatches_snoc (tr : List (PipelineStep R)) (x : PipelineStep R) :
    sentBatches (tr ++ [x]) = sentBatches tr ++ x.sentBatch.toList := by
  rw [sentBatches, List.filterMap_append]
  cases h : x.sentBatch <;> simp [sentBatches, h]

theorem flatten_toList (b : Option (List Event)) : b.toList.flatten = b.getD [] := by
  cases b <;> simp

/-- The batches sent and the batch held are what was popped. -/
theorem run_inOrder (h0 : IsLaunch s0) (h : Lts.Run (pipelineLts R cfg) s0 tr t) :
    (sentBatches tr).flatten ++ t.batch = tr.flatMap PipelineStep.popped := by
  induction h with
  | nil => simp [sentBatches, h0.batch]
  | @snoc tr t u l _ hs ih =>
    have hstep := pipelineStep_batch hs
    rw [sentBatches_snoc, List.flatten_append, flatten_toList, List.append_assoc, ← hstep,
      ← List.append_assoc, ih, List.flatMap_append, List.flatMap_singleton]

theorem run_counters (h0 : IsColdStart s0) (h : Lts.Run (pipelineLts R cfg) s0 tr t) :
    t.batchesSent = UInt64.ofNat (sentBatches tr).length ∧
      t.eventsSent = UInt64.ofNat (sentBatches tr).flatten.length := by
  induction h with
  | nil => exact ⟨h0.batchesSent, h0.eventsSent⟩
  | @snoc tr t u l _ hs ih =>
    obtain ⟨hbatches, hevents⟩ := pipelineStep_counters hs
    rw [hbatches, hevents, ih.1, ih.2, sentBatches_snoc, List.flatten_append, flatten_toList,
      List.length_append, List.length_append, UInt64.ofNat_add, UInt64.ofNat_add]
    exact ⟨rfl, rfl⟩

/-- A thread that has left with events in its batch left by a failed send, and
`g_analysis_done` was set when it made that send. -/
theorem run_discard (h0 : IsLaunch s0) (h : Lts.Run (pipelineLts R cfg) s0 tr t)
    (hleft : t.publish.HasLeft) (hbatch : t.batch ≠ []) :
    ∃ x ∈ tr, x.label = .pubSend false ∧ x.before.analysisDone = true ∧
      x.before.batch = t.batch ∧ x.after.publish = .exited := by
  induction h with
  | nil => exact absurd h0.batch hbatch
  | @snoc tr t u l hr hs ih =>
    have hinv := run_publishInv h0 hr
    have hdone := run_pipelineInv h0 hr
    -- a step of another thread keeps the batch, and the send that dropped it is in the past
    have hpast : ∀ {v : Pipeline R}, v.batch = t.batch → v.publish = t.publish →
        v.publish.HasLeft → v.batch ≠ [] → ∃ x ∈ tr ++ [⟨t, l, u⟩], x.label = .pubSend false ∧
          x.before.analysisDone = true ∧ x.before.batch = v.batch ∧ x.after.publish = .exited := by
      intro v hb hp hv hne
      rw [hb]
      obtain ⟨x, hx, hdrop⟩ := ih (hp ▸ hv) (hb ▸ hne)
      exact ⟨x, List.mem_append_left _ hx, hdrop⟩
    cases pipelineStep_move hs with
    | pubDrop hsend =>
      exact ⟨_, List.mem_append_right _ (List.mem_singleton_self _), rfl, hdone.sending hsend,
        rfl, rfl⟩
    | pubFail hstart => exact absurd (hinv.idle (.inl hstart)) hbatch
    | pubExit _ _ hnil => exact absurd hnil hbatch
    | pubPop hpoll _ => simp [PublishThread.HasLeft, hpoll] at hleft
    | pubStart | pubPopNone | pubFlush | pubIdle | pubSent | pubRetry =>
      simp [PublishThread.HasLeft] at hleft
    | _ => exact hpast rfl rfl hleft hbatch

/-- Every event popped from `rb_evt` is published once, in order, or held. -/
theorem run_publication (h0 : IsColdStart s0) (h : Lts.Run (pipelineLts R cfg) s0 tr t) :
    PublishedInOrder cfg tr t where
  inOrder := run_inOrder h0.toIsLaunch h
  sizes := by
    rintro ⟨s, l, s'⟩ hx ok rfl
    obtain ⟨a, b, rfl⟩ := List.append_of_mem hx
    obtain ⟨hr, hs, _⟩ := h.around
    have hinv := run_publishInv h0.toIsLaunch hr
    refine ⟨List.length_pos_iff.mpr ?_, hinv.room⟩
    have hmove : PipelineMove cfg s (.pubSend ok) s' := pipelineStep_move hs
    cases hmove with
    | pubSent hsend | pubDrop hsend | pubRetry hsend => exact hinv.sending hsend
  held := (run_publishInv h0.toIsLaunch h).room
  batchesSent := (run_counters h0 h).1
  eventsSent := (run_counters h0 h).2
  discarded := run_discard h0.toIsLaunch h

end Runs

/-! ## A broker that is down for a while -/

/-- The first send fails, the batch grows from one event to two, and the second succeeds. -/
def brokerOutage : List PipelineLabel :=
  [.pubStart true 0, .capPush icmpFrame 1000, .anaPop, .anaPublish, .pubPop 1, .pubPop 1,
    .capPush icmpFrame 1000, .anaPop, .anaPublish, .pubCheck 200, .pubSend false, .pubPop 201,
    .pubPop 201, .pubCheck 202, .pubSend true]

/-- Both events leave in one batch. -/
theorem run_publication_outage :
    ∃ (tr : List (PipelineStep ℝ)) (t : Pipeline ℝ),
      Lts.Run (pipelineLts ℝ smallPipeline) (.launch 2) tr t ∧
        (sentBatches tr).map List.length = [2] ∧ PublishedInOrder smallPipeline tr t := by
  have hok : ((pipelineLts ℝ smallPipeline).exec (.launch 2) brokerOutage).map
      (fun r => (sentBatches r.1).map List.length) = some [2] := by decide +kernel
  obtain ⟨tr, t, hrun, hsent⟩ := Lts.run_of_exec hok
  exact ⟨tr, t, hrun, hsent, run_publication ⟨launch_isLaunch 2, rfl, rfl⟩ hrun⟩

end TrafficAnalyzer
