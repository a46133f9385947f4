import TrafficAnalyzer.Agent.Coverage

/-!
# Isolation between sources

All sources share one compacted array, one cleanup timer and one clock. This module
compares a run with the run that keeps only the packets of one source `x`. `InStep` is the
relation between the two states: the same HOME_NET and the same record of `x`, although the
tables, their order and the times of their cleanups differ.

* `InStep.other`: a call that is not a packet of `x` moves one side only and keeps the
  relation, as long as it does not evict the record of `x`.
* `InStep.packet`: a packet of `x` has the same outcome on both sides and keeps the relation.
* `replay_isolated`: with at most 100 sources, and no silence of `x` of 300 s, the outcomes
  of the packets of `x` are those of the run that keeps only them.
-/

namespace TrafficAnalyzer

variable {R : Type} [Double R]

/-! ## Runs with their outcomes -/

/-- The source of an IPv4 frame with a valid header. -/
def sourceOf (p : Bytes) : Option UInt32 :=
  match classify p with
  | .ipv4 src _ => some src
  | _ => none

def fromSource (x : UInt32) (c : Call) : Bool := decide (sourceOf c.packet = some x)

/-- The calls `cs` from `st`, each with its outcome. -/
def replay (st : Analyzer R) : List Call → Option (List (Call × Outcome))
  | [] => some []
  | c :: cs => do
    let (st', outcome) ← analyzePacket st c.packet c.now
    let rest ← replay st' cs
    some ((c, outcome) :: rest)

/-- The outcomes of `replay`, which always has a result. -/
def outcomes (st : Analyzer R) : List Call → List (Call × Outcome)
  | [] => []
  | c :: cs =>
    (c, (processFrame st c.packet c.now).2) :: outcomes (processFrame st c.packet c.now).1 cs

theorem replay_eq (st : Analyzer R) (cs : List Call) : replay st cs = some (outcomes st cs) := by
  induction cs generalizing st with
  | nil => rfl
  | cons c cs ih => simp [replay, outcomes, analyzePacket_eq, ih]

theorem outcomes_filter_nil {x : UInt32} {cs : List Call} (st : Analyzer R)
    (h : cs.filter (fromSource x) = []) :
    (outcomes st cs).filter (fun r => fromSource x r.1) = [] := by
  induction cs generalizing st with
  | nil => rfl
  | cons c cs ih =>
    cases hc : fromSource x c with
    | true => simp [hc] at h
    | false =>
      simp only [List.filter_cons, hc, Bool.false_eq_true, ↓reduceIte] at h
      simp only [outcomes, List.filter_cons, hc, Bool.false_eq_true, ↓reduceIte]
      exact ih _ h

/-! ## What a call keeps -/

/-- A call adds no record, or that of the source of its packet, which is not in HOME_NET. -/
theorem frameMove_tracked {st : Analyzer R} {p : Bytes} {now : Int} {r : Analyzer R × Outcome}
    (hm : FrameMove st p now r) {ip : UInt32} (h : ip ∈ r.1.tracked) :
    ip ∈ st.tracked ∨ (sourceOf p = some ip ∧ st.isHome ip = false) := by
  cases hm with
  | skip _ => exact .inl h
  | arpAlert _ _ _ => exact .inl h
  | arpNew _ _ => exact .inl h
  | packet hc hw =>
    obtain ⟨s', hs', rfl⟩ := List.mem_map.mp h
    rcases mem_store hs' with rfl | hs'
    · rw [transportStep_ip, working_ip hw]
      refine .inr ⟨by simp [sourceOf, hc], Bool.eq_false_iff.mpr fun hhome => ?_⟩
      rw [working_eq_none.mpr (.inl hhome)] at hw
      cases hw
    · exact .inl (List.mem_map_of_mem hs')

theorem processFrame_tracked {st : Analyzer R} {c : Call} {ip : UInt32}
    (h : ip ∈ (processFrame st c.packet c.now).1.tracked) :
    ip ∈ st.tracked ∨ (sourceOf c.packet = some ip ∧ st.isHome ip = false) := by
  have hmove := frameMove_tracked (processFrame_move st c.packet c.now) h
  rw [cleaned_isHome] at hmove
  exact hmove.imp_left fun hmem => ((cleaned_sublist st c.now).map _).subset hmem

theorem fromSource_classify {x : UInt32} {c : Call} (h : fromSource x c = true) :
    ∃ body, classify c.packet = .ipv4 x body := by
  unfold fromSource sourceOf at h
  cases hc : classify c.packet with
  | ignored => simp [hc] at h
  | arpReply mac ip => simp [hc] at h
  | ipv4 src body =>
    have hsrc : src = x := by simpa [hc] using h
    exact ⟨body, hsrc ▸ rfl⟩

/-- A call that is not a packet of `x` works on another record, or on none. -/
theorem arrival_other {st : Analyzer R} {x : UInt32} {c : Call} (h : fromSource x c = false) :
    st.arrival x c = none := by
  unfold Analyzer.arrival
  unfold fromSource sourceOf at h
  cases hc : classify c.packet with
  | ignored => rfl
  | arpReply mac ip => rfl
  | ipv4 src body =>
    have hne : src ≠ x := by simpa [hc] using h
    exact if_neg hne

omit [Double R] in
/-- The cleanup keeps a record that is alive. -/
theorem cleaned_record_alive {st : Analyzer R} (hd : Distinct st) {now : Int} {ip : UInt32}
    (h : ∀ s, st.record ip = some s → s.alive now) : (st.cleaned now).record ip = st.record ip := by
  rw [cleaned_record hd]
  split
  · cases hr : st.record ip with
    | none => rfl
    | some s => simp [Option.filter_some, h s hr]
  · rfl

theorem working_congr {st st1 : Analyzer R} {src : UInt32} (now : Int)
    (hhome : st.isHome src = st1.isHome src) (hrec : st.record src = st1.record src)
    (hroom : st.record src = none → st.suspects.count < MAX_SUSPECTS)
    (hroom1 : st1.record src = none → st1.suspects.count < MAX_SUSPECTS) :
    st.working src now = st1.working src now := by
  unfold Analyzer.working
  rw [hhome, hrec]
  rw [hrec] at hroom
  cases hr : st1.record src with
  | some s => rfl
  | none => simp only [Nat.not_le.mpr (hroom hr), Nat.not_le.mpr (hroom1 hr)]

omit [Double R] in
/-- A table whose sources are among at most 100, with one of them missing, has room. -/
theorem room_of_few {st : Analyzer R} (hd : Distinct st) {keys : List UInt32} {x : UInt32}
    (hfew : keys.length ≤ MAX_SUSPECTS) (hkeys : st.tracked ⊆ keys) (hx : x ∈ keys)
    (hnone : st.record x = none) : st.suspects.count < MAX_SUSPECTS := by
  have hcons : (x :: st.tracked).Nodup := List.nodup_cons.mpr ⟨record_eq_none.mp hnone, hd⟩
  have hle := (hcons.subperm (List.cons_subset.mpr ⟨hx, hkeys⟩)).length_le
  rw [List.length_cons, Analyzer.tracked, List.length_map] at hle
  exact Nat.lt_of_lt_of_le hle hfew

/-! ## The relation between the two runs -/

/-- `st` is a state of the run of all packets, `st1` one of the run of the packets of `x`. -/
structure InStep (x : UInt32) (keys : List UInt32) (st st1 : Analyzer R) : Prop where
  homes : st.homeCidrs = st1.homeCidrs
  record : st.record x = st1.record x
  distinct : Distinct st
  distinct1 : Distinct st1
  few : st.tracked ⊆ keys
  alone : st1.tracked ⊆ [x]

section InStep

variable {x : UInt32} {keys : List UInt32} {st st1 : Analyzer R} {c : Call}

/-- A call of the run of all packets that is not one of `x`. -/
theorem InStep.other (h : InStep x keys st st1) (hc : fromSource x c = false)
    (halive : ∀ s, st.record x = some s → s.alive c.now)
    (hkeys : ∀ ip, sourceOf c.packet = some ip → st.isHome ip = false → ip ∈ keys) :
    InStep x keys (processFrame st c.packet c.now).1 st1 where
  homes := (processFrame_homeCidrs ..).trans h.homes
  record := by
    rw [processFrame_record, arrival_other hc]
    exact (cleaned_record_alive h.distinct halive).trans h.record
  distinct := processFrame_distinct h.distinct ..
  distinct1 := h.distinct1
  few ip hip := by
    rcases processFrame_tracked hip with hmem | ⟨hsrc, hhome⟩
    · exact h.few hmem
    · exact hkeys ip hsrc hhome
  alone := h.alone

/-- Both runs work on the same record of `x`. -/
theorem InStep.arrival (h : InStep x keys st st1) (hfew : keys.length ≤ MAX_SUSPECTS)
    (hx : x ∈ keys) (halive : ∀ s, st.record x = some s → s.alive c.now) :
    st.arrival x c = st1.arrival x c := by
  have hclean := cleaned_record_alive h.distinct halive
  have hclean1 := cleaned_record_alive h.distinct1 (h.record ▸ halive)
  have hworking : (st.cleaned c.now).working x c.now = (st1.cleaned c.now).working x c.now := by
    refine working_congr c.now ?_ (hclean.trans (h.record.trans hclean1.symm)) ?_ ?_
    · rw [cleaned_isHome, cleaned_isHome, isHome_congr h.homes]
    · exact room_of_few (cleaned_distinct h.distinct _) hfew
        (List.Subset.trans ((cleaned_sublist st c.now).map _).subset h.few) hx
    · exact room_of_few (cleaned_distinct h.distinct1 _) (show [x].length ≤ MAX_SUSPECTS from (by decide : 1 ≤ 100))
        (List.Subset.trans ((cleaned_sublist st1 c.now).map _).subset h.alone)
        (List.mem_singleton_self x)
  unfold Analyzer.arrival
  rw [hworking]

/-- A packet of `x` finds its record or makes one. -/
theorem InStep.arrives (h : InStep x keys st st1) (hfew : keys.length ≤ MAX_SUSPECTS)
    (hx : x ∈ keys) (hhome : st.isHome x = false) {body : Transport}
    (hc : classify c.packet = .ipv4 x body) : ∃ a, st.arrival x c = some a := by
  have htrack : (st.cleaned c.now).canTrack x := by
    cases hr : (st.cleaned c.now).record x with
    | some s => exact .inl (hr ▸ rfl)
    | none =>
      exact .inr (room_of_few (cleaned_distinct h.distinct _) hfew
        (List.Subset.trans ((cleaned_sublist st c.now).map _).subset h.few) hx hr)
  have hworking := (working_isSome ((cleaned_isHome st c.now x).trans hhome) c.now).mpr htrack
  obtain ⟨s, hs⟩ := Option.isSome_iff_exists.mp hworking
  exact ⟨⟨s, body, c.packet.length, c.now⟩, by simp [Analyzer.arrival, hc, hs]⟩

/-- A packet of `x`, in both runs: the outcome is the same, and the record of `x` has the
time of the call. -/
theorem InStep.packet (h : InStep x keys st st1) (hfew : keys.length ≤ MAX_SUSPECTS)
    (hx : x ∈ keys) (hhome : st.isHome x = false) (hc : fromSource x c = true)
    (halive : ∀ s, st.record x = some s → s.alive c.now) :
    InStep x keys (processFrame st c.packet c.now).1 (processFrame st1 c.packet c.now).1 ∧
      (processFrame st c.packet c.now).2 = (processFrame st1 c.packet c.now).2 ∧
      ∀ s, (processFrame st c.packet c.now).1.record x = some s → s.lastSeen = c.now := by
  obtain ⟨body, hclass⟩ := fromSource_classify hc
  obtain ⟨a, ha⟩ := h.arrives hfew hx hhome hclass
  have ha1 : st1.arrival x c = some a := (h.arrival hfew hx halive).symm.trans ha
  have hrec := processFrame_record st x c
  have hrec1 := processFrame_record st1 x c
  have hout := processFrame_outcome st hclass
  have hout1 := processFrame_outcome st1 hclass
  rw [ha] at hrec hout
  rw [ha1] at hrec1 hout1
  have hsource : sourceOf c.packet = some x := of_decide_eq_true hc
  refine ⟨⟨?_, hrec.trans hrec1.symm, processFrame_distinct h.distinct .., processFrame_distinct
    h.distinct1 .., fun ip hip => ?_, fun ip hip => ?_⟩, hout.trans hout1.symm, fun s hs => ?_⟩
  · rw [processFrame_homeCidrs, processFrame_homeCidrs, h.homes]
  · rcases processFrame_tracked hip with hmem | ⟨hsrc, _⟩
    · exact h.few hmem
    · exact Option.some.inj (hsource.symm.trans hsrc) ▸ hx
  · rcases processFrame_tracked hip with hmem | ⟨hsrc, _⟩
    · exact h.alone hmem
    · exact List.mem_singleton.mpr (Option.some.inj (hsrc.symm.trans hsource))
  · obtain ⟨hnow, _, _, hfound⟩ := arrival_cases ha
    obtain rfl := Option.some.inj (hrec.symm.trans hs)
    refine (transportStep_lastSeen ..).trans ?_
    rcases hfound with ⟨s0, _, hs0⟩ | ⟨_, hs0⟩ <;> rw [hs0]
    rfl

end InStep

/-! ## The two runs -/

/-- The two runs from related states. `hnext` bounds the silence of `x` before its next
packet, and `hgap` the silences after it. -/
theorem outcomes_isolated {x : UInt32} {keys : List UInt32} {st st1 : Analyzer R}
    {cs : List Call} (h : InStep x keys st st1) (hfew : keys.length ≤ MAX_SUSPECTS)
    (hclock : cs.Pairwise (·.now ≤ ·.now)) (hhome : st.isHome x = false)
    (hkeys : ∀ c ∈ cs, ∀ ip, sourceOf c.packet = some ip → st.isHome ip = false → ip ∈ keys)
    (hnext : ∀ s, st.record x = some s →
      ∀ d ∈ (cs.filter (fromSource x)).head?, d.now - s.lastSeen < 300)
    (hgap : (cs.filter (fromSource x)).IsChain fun c d => d.now - c.now < 300) :
    (outcomes st cs).filter (fun r => fromSource x r.1) =
      outcomes st1 (cs.filter (fromSource x)) := by
  induction cs generalizing st st1 with
  | nil => rfl
  | cons c cs ih =>
    obtain ⟨hle, hclock'⟩ := List.pairwise_cons.mp hclock
    cases hrest : (c :: cs).filter (fromSource x) with
    | nil => exact outcomes_filter_nil st hrest
    | cons d ds =>
      -- the next packet of `x` comes with this call or later, so its record is alive now
      have halive : ∀ s, st.record x = some s → s.alive c.now := fun s hs => by
        have hlate := hnext s hs d (by rw [hrest]; rfl)
        have hd : c.now ≤ d.now := by
          rcases List.mem_cons.mp (List.mem_of_mem_filter (hrest ▸ List.mem_cons_self ..)) with he | he
          · exact he ▸ Int.le_refl _
          · exact hle d he
        refine decide_eq_true ?_
        simp only [difftime, INACTIVE_TIMEOUT]
        omega
      have hcs : ∀ e ∈ cs, ∀ ip, sourceOf e.packet = some ip →
          (processFrame st c.packet c.now).1.isHome ip = false → ip ∈ keys := fun e he ip hip hh =>
        hkeys e (List.mem_cons_of_mem _ he) ip hip
          ((isHome_congr (processFrame_homeCidrs ..) ip).symm.trans hh)
      have hhome' := (isHome_congr (processFrame_homeCidrs st c.packet c.now) x).trans hhome
      cases hc : fromSource x c with
      | false =>
        -- a call of another source: the run of `x` alone does not move
        have hrec : (processFrame st c.packet c.now).1.record x = st.record x := by
          rw [processFrame_record, arrival_other hc]
          exact cleaned_record_alive h.distinct halive
        rw [List.filter_cons_of_neg (Bool.eq_false_iff.mp hc)] at hrest hnext hgap
        rw [← hrest]
        simp only [outcomes, List.filter_cons, hc, Bool.false_eq_true, ↓reduceIte]
        exact ih (h.other hc halive (hkeys c (List.mem_cons_self ..))) hclock' hhome' hcs
          (hrec ▸ hnext) hgap
      | true =>
        -- a packet of `x`: both runs take it, and the next gap counts from it
        have hx := hkeys c (List.mem_cons_self ..) x (of_decide_eq_true hc) hhome
        obtain ⟨hstep, hout, hseen⟩ := h.packet hfew hx hhome hc halive
        rw [List.filter_cons_of_pos hc] at hrest hgap
        obtain ⟨rfl, rfl⟩ := List.cons_eq_cons.mp hrest
        obtain ⟨hfirst, hgap'⟩ := List.isChain_cons.mp hgap
        simp only [outcomes, List.filter_cons, hc, ↓reduceIte, hout]
        refine congrArg _ (ih hstep hclock' hhome' hcs (fun s hs d hd => ?_) hgap')
        rw [hseen s hs]
        exact hfirst d hd

/-- The addresses outside HOME_NET that the run sees as sources of IPv4 packets. -/
def sources (st : Analyzer R) (cs : List Call) : List UInt32 :=
  ((cs.filterMap (sourceOf ·.packet)).filter fun ip => !st.isHome ip).dedup

/-- Isolation between sources: in a run from `analyzer_reset` whose clock does not go back,
with at most 100 sources outside HOME_NET, the packets of a source `x` that is never silent
for 300 s return and publish what they do in the run of the packets of `x` alone. -/
theorem replay_isolated (st0 : Analyzer R) {cs : List Call} {x : UInt32}
    (hclock : cs.Pairwise (·.now ≤ ·.now)) (hfew : (sources st0 cs).length ≤ 100)
    (hhome : st0.isHome x = false)
    (hgap : (cs.filter (fromSource x)).IsChain fun c d => d.now - c.now < 300) :
    ∃ all alone, replay (analyzerReset st0) cs = some all ∧
      replay (analyzerReset st0) (cs.filter (fromSource x)) = some alone ∧
      all.filter (fun r => fromSource x r.1) = alone := by
  refine ⟨_, _, replay_eq _ _, replay_eq _ _, ?_⟩
  have hsim : InStep x (sources st0 cs) (analyzerReset st0) (analyzerReset st0) :=
    ⟨rfl, rfl, List.nodup_nil, List.nodup_nil, List.nil_subset _, List.nil_subset _⟩
  refine outcomes_isolated hsim hfew hclock hhome (fun c hc ip hip hh => ?_)
    (fun s hs => nomatch hs) hgap
  rw [sources, List.mem_dedup, List.mem_filter]
  refine ⟨List.mem_filterMap.mpr ⟨c, hc, hip⟩, ?_⟩
  rw [show st0.isHome ip = false from hh]
  rfl

/-- 1.2.3.4 sends three NULL packets over 500 s, while another source, a cut frame and two
cleanups come in between. -/
def mixedTraffic : List Call :=
  [⟨tcpFrame [5, 6, 7, 8] 80 2, 10⟩, ⟨tcpFrame [1, 2, 3, 4] 22 0, 20⟩,
    ⟨ipv4Frame 6 [9, 9, 9, 9] [0, 80], 90⟩, ⟨tcpFrame [1, 2, 3, 4] 22 0, 300⟩, ⟨[8, 0], 350⟩,
    ⟨tcpFrame [5, 6, 7, 8] 80 2, 400⟩, ⟨tcpFrame [1, 2, 3, 4] 22 0, 520⟩]

/-- The third NULL packet is reported in both runs. -/
theorem replay_isolated_mixed :
    ∃ all alone, replay (analyzerReset (.initial : Analyzer ℝ)) mixedTraffic = some all ∧
      replay (analyzerReset (.initial : Analyzer ℝ))
        (mixedTraffic.filter (fromSource 0x04030201)) = some alone ∧
      all.filter (fun r => fromSource 0x04030201 r.1) = alone :=
  replay_isolated .initial (by decide) (by decide +kernel) rfl (by decide +kernel)

end TrafficAnalyzer
