import TrafficAnalyzer.Lib.RealDouble
import TrafficAnalyzer.Agent.Runs

/-!
# The tables of the analyzer

Lookup, insertion and in-place compaction work on the same array of suspects, driven by
the packets and by the timer of `cleanup_suspects`. The invariants follow `FrameMove`:

1. `TablesOk`: no two records have one address, no record has a port twice, no two ARP
   entries have one MAC, and the counts stay within the arrays. Every call keeps it
   (`processFrame_tablesOk`), also one that creates a record and then finds the transport
   header truncated.
2. `Analyzer.StampsOk`: a record is younger than the timeout at the last cleanup, so no
   record is older than the timeout plus the interval after a call.
3. `run_tables`: both over every run with a clock that does not go back, and what each call
   of such a run does to the suspects.
-/

namespace TrafficAnalyzer

variable {R : Type} [Double R]

/-! ## Storing a record -/

omit [Double R] in
theorem mem_store {st : Analyzer R} {src : UInt32} {s x : Suspect R}
    (h : x ∈ (st.store src s).suspects.used) : x = s ∨ x ∈ st.suspects.used := by
  unfold Analyzer.store at h
  dsimp only at h
  split at h
  · rw [Slots.used_replaceFirst] at h
    exact (List.mem_or_eq_of_mem_set h).symm
  · rw [Slots.used_pushD] at h
    split at h
    · exact (List.mem_append.mp h).symm.imp_left List.mem_singleton.mp
    · exact .inr h

omit [Double R] in
/-- Storing a record moves no other one. -/
theorem store_stays {st : Analyzer R} {src : UInt32} {s x : Suspect R} {i : Nat}
    (hip : s.ip = src) (h : st.suspects.used[i]? = some x) :
    ∃ x', (st.store src s).suspects.used[i]? = some x' ∧ x'.ip = x.ip ∧ (x.ip ≠ src → x' = x) := by
  unfold Analyzer.store
  cases hr : st.record src with
  | some s0 =>
    obtain ⟨_, hlt, hget⟩ := Slots.scan_found hr
    simp only [Option.isSome_some, ↓reduceIte, Slots.used_replaceFirst, List.getElem?_set]
    split
    · next hi =>
      rw [← hi, hget, Option.some.injEq] at h
      subst h
      have hkey := record_ip hr
      refine ⟨s, if_pos (hi ▸ hlt), by rw [hip, hkey], fun hne => absurd hkey hne⟩
    · exact ⟨x, h, rfl, fun _ => rfl⟩
  | none =>
    simp only [Option.isSome_none, Bool.false_eq_true, ↓reduceIte, Slots.used_pushD]
    refine ⟨x, ?_, rfl, fun _ => rfl⟩
    split
    · rw [List.getElem?_append_left (List.getElem?_eq_some_iff.mp h).1]
      exact h
    · exact h

/-! ## The invariant of the tables -/

/-- The counts are within the arrays and the keys are distinct. -/
structure TablesOk (st : Analyzer R) : Prop where
  suspectCount : st.suspects.count ≤ 100
  ips : Distinct st
  portCount : ∀ s ∈ st.suspects.used, s.ports.count ≤ 15
  ports : ∀ s ∈ st.suspects.used, s.ports.used.Nodup
  arpCount : st.arpTable.count ≤ 256
  macs : (st.arpTable.used.map (·.mac)).Nodup

/-- A packet adds no port, or one that the record does not have. -/
theorem transportStep_ports (s : Suspect R) (t : Transport) (src : UInt32) (length : Nat)
    (now : Int) :
    (transportStep s t src length now).1.ports = s.ports ∨
      ∃ port, port ∉ s.ports.used ∧
        (transportStep s t src length now).1.ports = s.ports.pushD port := by
  have hchain : (transportStep s t src length now).1.ports = (detectStep s t length now).1.ports := by
    rw [transportStep_record]
    exact (congrArg Suspect.ports (advanceKillChain_frame _ _ _)).trans rfl
  rw [hchain]
  cases t with
  | icmp => exact .inl rfl
  | tcp dstPort flags =>
    simp only [detectStep, tcpStep_record, portScanStep_record]
    split
    · split
      · exact .inl rfl
      · next h => exact .inr ⟨dstPort, h, rfl⟩
    · exact .inl rfl
  | udp srcPort dstPort payload =>
    refine .inl ?_
    simp only [detectStep]
    split
    · rw [dnsStep_record]
      rfl
    · rfl
  | other => exact .inl rfl

theorem transportStep_ports_nodup {s : Suspect R} (h : s.ports.used.Nodup) (t : Transport)
    (src : UInt32) (length : Nat) (now : Int) :
    (transportStep s t src length now).1.ports.used.Nodup := by
  rcases transportStep_ports s t src length now with he | ⟨port, hnew, he⟩
  · rw [he]
    exact h
  · rw [he]
    exact Slots.nodup_pushD h hnew

omit [Double R] in
/-- A cleanup keeps a record or drops it; what it keeps stays in order, unchanged. -/
theorem cleaned_sublist (st : Analyzer R) (now : Int) :
    (st.cleaned now).suspects.used.Sublist st.suspects.used := by
  rw [cleaned_eq]
  split
  · exact List.filter_sublist
  · exact List.Sublist.refl _

/-- The record that a packet works on has the ports of a record of the table, or none. -/
theorem working_ports {st : Analyzer R} (h : TablesOk st) {src : UInt32} {now : Int}
    {s : Suspect R} (hw : st.working src now = some s) : s.ports.used.Nodup := by
  rcases working_cases hw with ⟨s0, hr, rfl⟩ | ⟨_, _, rfl⟩
  · exact h.ports s0 (List.mem_of_find?_eq_some hr)
  · exact List.nodup_nil

omit [Double R] in
theorem cleaned_tablesOk {st : Analyzer R} (h : TablesOk st) (now : Int) :
    TablesOk (st.cleaned now) where
  suspectCount := Slots.count_le _
  ips := cleaned_distinct h.ips now
  portCount s _ := s.ports.count_le
  ports s hs := h.ports s ((cleaned_sublist st now).subset hs)
  arpCount := Slots.count_le _
  macs := by
    rw [cleaned_arpTable]
    exact h.macs

theorem frameMove_tablesOk {st : Analyzer R} {p : Bytes} {now : Int} {r : Analyzer R × Outcome}
    (h : TablesOk st) (hm : FrameMove st p now r) : TablesOk r.1 := by
  cases hm with
  | skip _ => exact h
  | arpAlert _ _ _ => exact h
  | arpNew _ hnone =>
    refine { h with arpCount := Slots.count_le _, macs := ?_ }
    exact Slots.nodup_key_pushD ArpEntry.mac h.macs fun hmem => by
      obtain ⟨e, he, hkey⟩ := List.mem_map.mp hmem
      exact List.find?_eq_none.mp hnone e he (decide_eq_true hkey)
  | packet _ hw =>
    refine ⟨Slots.count_le _, store_distinct ((transportStep_ip ..).trans (working_ip hw)) h.ips,
      fun s _ => s.ports.count_le, fun s hs => ?_, h.arpCount, h.macs⟩
    rcases mem_store hs with rfl | hs
    · exact transportStep_ports_nodup (working_ports h hw) _ _ _ _
    · exact h.ports s hs

theorem processFrame_tablesOk {st : Analyzer R} (h : TablesOk st) (p : Bytes) (now : Int) :
    TablesOk (processFrame st p now).1 :=
  frameMove_tablesOk (cleaned_tablesOk h now) (processFrame_move st p now)

omit [Double R] in
theorem analyzerReset_tablesOk (st : Analyzer R) : TablesOk (analyzerReset st) where
  suspectCount := Nat.zero_le _
  ips := List.nodup_nil
  portCount _ hs := nomatch hs
  ports _ hs := nomatch hs
  arpCount := Nat.zero_le _
  macs := List.nodup_nil

/-! ## Staleness -/

/-- At the last cleanup every record was younger than the timeout, or it is newer. -/
def StampsOk (st : Analyzer R) : Prop :=
  ∀ s ∈ st.suspects.used, difftime st.lastCleanup s.lastSeen < INACTIVE_TIMEOUT

omit [Double R] in
/-- After the cleanup of a call at `now` the last one is less than an interval ago. -/
theorem cleaned_recent (st : Analyzer R) (now : Int) :
    difftime now (st.cleaned now).lastCleanup < CLEANUP_INTERVAL := by
  unfold Analyzer.cleaned
  split
  · next h => exact h
  · simp [difftime, CLEANUP_INTERVAL]

omit [Double R] in
theorem cleaned_lastCleanup (st : Analyzer R) (now : Int) :
    (st.cleaned now).lastCleanup = st.lastCleanup ∨ (st.cleaned now).lastCleanup = now := by
  rw [cleaned_eq]
  split
  · exact .inr rfl
  · exact .inl rfl

omit [Double R] in
theorem cleaned_stampsOk {st : Analyzer R} (h : StampsOk st) (now : Int) :
    StampsOk (st.cleaned now) := by
  rw [cleaned_eq]
  split
  · intro s hs
    exact of_decide_eq_true (List.mem_filter.mp hs).2
  · exact h

theorem frameMove_lastCleanup {st : Analyzer R} {p : Bytes} {now : Int}
    {r : Analyzer R × Outcome} (hm : FrameMove st p now r) : r.1.lastCleanup = st.lastCleanup := by
  cases hm <;> rfl

theorem working_lastSeen {st : Analyzer R} {src : UInt32} {now : Int} {s : Suspect R}
    (hw : st.working src now = some s) : s.lastSeen = now := by
  rcases working_cases hw with ⟨s0, _, rfl⟩ | ⟨_, _, rfl⟩ <;> rfl

/-- A packet stamps its record with the time of the call. -/
theorem frameMove_mem {st : Analyzer R} {p : Bytes} {now : Int} {r : Analyzer R × Outcome}
    (hm : FrameMove st p now r) {s : Suspect R} (hs : s ∈ r.1.suspects.used) :
    s.lastSeen = now ∨ s ∈ st.suspects.used := by
  cases hm with
  | skip _ => exact .inr hs
  | arpAlert _ _ _ => exact .inr hs
  | arpNew _ _ => exact .inr hs
  | packet _ hw =>
    rcases mem_store hs with rfl | hs
    · exact .inl ((transportStep_lastSeen ..).trans (working_lastSeen hw))
    · exact .inr hs

/-- No call moves or drops a record once the cleanup is done. -/
theorem frameMove_stays {st : Analyzer R} {p : Bytes} {now : Int} {r : Analyzer R × Outcome}
    (hm : FrameMove st p now r) {i : Nat} {s : Suspect R} (hs : st.suspects.used[i]? = some s) :
    ∃ s', r.1.suspects.used[i]? = some s' ∧ s'.ip = s.ip ∧
      ((∀ body, classify p ≠ .ipv4 s.ip body) → s' = s) := by
  cases hm with
  | skip _ => exact ⟨s, hs, rfl, fun _ => rfl⟩
  | arpAlert _ _ _ => exact ⟨s, hs, rfl, fun _ => rfl⟩
  | arpNew _ _ => exact ⟨s, hs, rfl, fun _ => rfl⟩
  | packet hc hw =>
    obtain ⟨s', hget, hip, hsame⟩ :=
      store_stays ((transportStep_ip ..).trans (working_ip hw)) hs
    refine ⟨s', hget, hip, fun hother => hsame ?_⟩
    rintro rfl
    exact hother _ hc

/-! ## Runs -/

/-- What the call `x` does to the suspects. `mid` is the state that its cleanup leaves. -/
structure TableStep (x : Seen R) (mid : Analyzer R) : Prop where
  cleanup : cleanupSuspects x.before x.label.now = some mid
  /-- The survivors keep their order and their contents. -/
  survivors : mid.suspects.used.Sublist x.before.suspects.used
  /-- Only idle records are dropped. -/
  recent : ∀ s ∈ x.before.suspects.used, x.label.now - s.lastSeen < 300 →
    s ∈ mid.suspects.used
  /-- The rest of the call drops and moves nothing, and changes the source's record only. -/
  stays : ∀ (i : Nat) (s : Suspect R), mid.suspects.used[i]? = some s →
    ∃ s' : Suspect R, x.after.suspects.used[i]? = some s' ∧ s'.ip = s.ip ∧
      ((∀ body, classify x.label.packet ≠ .ipv4 s.ip body) → s' = s)
  /-- No record is left that has been idle for the timeout and an interval. -/
  stale : ∀ s ∈ x.after.suspects.used, x.label.now - s.lastSeen < 360

/-- One call, at a time that is not before the last cleanup. -/
theorem call_tableStep {st : Analyzer R} (h : StampsOk st) (c : Call)
    (hnow : st.lastCleanup ≤ c.now) :
    TableStep ⟨st, c, (processFrame st c.packet c.now).1⟩ (st.cleaned c.now) ∧
      StampsOk (processFrame st c.packet c.now).1 := by
  have hm := processFrame_move st c.packet c.now
  have hmid := cleaned_stampsOk h c.now
  have hrecent := cleaned_recent st c.now
  have hle : (st.cleaned c.now).lastCleanup ≤ c.now := by
    rcases cleaned_lastCleanup st c.now with he | he
    · rw [he]
      exact hnow
    · exact he.le
  refine ⟨⟨cleanupSuspects_eq st c.now, cleaned_sublist st c.now, fun s hs halive => ?_,
    fun i s hs => frameMove_stays hm hs, fun s hs => ?_⟩, fun s hs => ?_⟩
  · rw [cleaned_eq]
    split
    · exact List.mem_filter.mpr ⟨hs, decide_eq_true halive⟩
    · exact hs
  · rcases frameMove_mem hm hs with he | hs
    · simp [he]
    -- younger than the timeout at a cleanup less than an interval ago
    · have hold := hmid s hs
      simp only [difftime, CLEANUP_INTERVAL, INACTIVE_TIMEOUT] at hrecent hold
      show c.now - s.lastSeen < 360
      omega
  · show difftime (processFrame st c.packet c.now).1.lastCleanup s.lastSeen < INACTIVE_TIMEOUT
    rw [frameMove_lastCleanup hm]
    rcases frameMove_mem hm hs with he | hs
    · simp only [difftime, INACTIVE_TIMEOUT, he]
      omega
    · exact hmid s hs

omit [Double R] in
theorem analyzerReset_stampsOk (st : Analyzer R) : StampsOk (analyzerReset st) :=
  fun _ hs => nomatch hs

/-- The last cleanup of a run was at its start or at one of its calls. -/
theorem run_lastCleanup {st0 st : Analyzer R} {tr : List (Seen R)}
    (hrun : Lts.Run analyzerLts (analyzerReset st0) tr st) :
    st.lastCleanup = 0 ∨ ∃ x ∈ tr, st.lastCleanup = x.label.now := by
  induction hrun with
  | nil => exact .inl rfl
  | @snoc tr t u c _ hstep ih =>
    rw [← analyzerLts_step.mp hstep, frameMove_lastCleanup (processFrame_move ..)]
    rcases cleaned_lastCleanup t c.now with he | he
    · rw [he]
      exact ih.imp_right fun ⟨x, hx, h⟩ => ⟨x, List.mem_append_left _ hx, h⟩
    · exact .inr ⟨_, List.mem_append_right _ (List.mem_singleton_self _), he⟩

/-- The suspect-table invariant: in every run from `analyzer_reset` whose clock starts at 0
or later and does not go back, the tables are well formed in the state reached, and every
call removes idle records only, keeps the others in place, and leaves no stale one. -/
theorem run_tables {st0 st : Analyzer R} {tr : List (Seen R)}
    (hrun : Lts.Run analyzerLts (analyzerReset st0) tr st)
    (hstart : ∀ x ∈ tr, 0 ≤ x.label.now)
    (hclock : tr.Pairwise (·.label.now ≤ ·.label.now)) :
    TablesOk st ∧ ∀ x ∈ tr, TablesOk x.after ∧ ∃ mid, TableStep x mid := by
  have hinv : TablesOk st ∧ StampsOk st ∧ ∀ x ∈ tr, TablesOk x.after ∧ ∃ mid, TableStep x mid := by
    induction hrun with
    | nil => exact ⟨analyzerReset_tablesOk st0, analyzerReset_stampsOk st0, fun _ h => nomatch h⟩
    | @snoc tr t u c hprev hstep ih =>
      obtain ⟨hpre, -, hlast⟩ := List.pairwise_append.mp hclock
      obtain ⟨htables, hstamps, hcalls⟩ :=
        ih (fun x hx => hstart x (List.mem_append_left _ hx)) hpre
      -- the last cleanup was at time 0 or at an earlier call
      have hnow : t.lastCleanup ≤ c.now := by
        rcases run_lastCleanup hprev with he | ⟨x, hx, he⟩ <;> rw [he]
        · exact hstart ⟨t, c, u⟩ (by simp)
        · exact hlast x hx ⟨t, c, u⟩ (by simp)
      obtain rfl := analyzerLts_step.mp hstep
      obtain ⟨hcall, hstamps'⟩ := call_tableStep hstamps c hnow
      have htables' := processFrame_tablesOk htables c.packet c.now
      refine ⟨htables', hstamps', fun x hx => ?_⟩
      rcases List.mem_append.mp hx with hx | hx
      · exact hcalls x hx
      · obtain rfl := List.mem_singleton.mp hx
        exact ⟨htables', _, hcall⟩
  exact ⟨hinv.1, hinv.2.2⟩

/-- Two sources, a truncated TCP packet, an ARP reply and a cleanup that drops the first
source. -/
theorem run_tables_example :
    let cs : List Call := [⟨tcpFrame [1, 2, 3, 4] 22 2, 0⟩, ⟨ipv4Frame 6 [5, 6, 7, 8] [0, 80], 50⟩,
      ⟨List.replicate 12 0 ++ [8, 6] ++ List.replicate 7 0 ++ [2] ++ List.replicate 20 0, 120⟩,
      ⟨tcpFrame [5, 6, 7, 8] 22 2, 340⟩]
    TablesOk (afterCalls (.initial : Analyzer ℝ) cs) ∧
      (afterCalls (.initial : Analyzer ℝ) cs).suspects.count = 1 := by
  intro cs
  have hrun : Lts.Run analyzerLts (analyzerReset .initial) (observe (.initial : Analyzer ℝ) cs)
      (afterCalls .initial cs) := observe_run .initial cs
  have hlabels := observe_labels (.initial : Analyzer ℝ) cs
  have hstart : ∀ c ∈ cs, 0 ≤ c.now := by decide
  have hclock : cs.Pairwise (·.now ≤ ·.now) := by decide
  rw [← hlabels] at hstart hclock
  have hclock' := List.pairwise_map.mp hclock
  refine ⟨(run_tables hrun (fun x hx => hstart _ (List.mem_map_of_mem hx)) hclock').1,
    by decide +kernel⟩

end TrafficAnalyzer
