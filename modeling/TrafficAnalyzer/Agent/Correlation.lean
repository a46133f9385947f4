import TrafficAnalyzer.Lib.RealDouble
import TrafficAnalyzer.Agent.Runs

/-!
# Correlation of the stages of one source

The kill chain of a source lives in its record, which has three clocks: a record
silent for 300 s is evicted by the next cleanup, a report resets an incident whose
stage was entered more than 1800 s before, and the documented window is 1800 s between
the reports. `correlation_iff` says when two reported stages are both in the record, and
when the incident is complete: each stage needs a report after which neither clock has
run out. The window between the reports alone is not enough
(`correlation_lost_after_eviction`, `correlation_lost_after_reset`).
-/

namespace TrafficAnalyzer

/-! ## The stages of one report -/

section KillChain

variable {R : Type}

theorem attackToStage_bit (a : Attack) :
    attackToStage (some a) = .recon ∨ attackToStage (some a) = .exploit ∨
      attackToStage (some a) = .exfil := by
  cases a <;> simp [attackToStage]

/-- All three stages are in the bitmask. -/
def allStages (hits : Nat) : Bool := hits &&& 0xE = 0xE

theorem allStages_iff (hits : Nat) :
    allStages hits ↔ hits.testBit 1 = true ∧ hits.testBit 2 = true ∧ hits.testBit 3 = true := by
  simp only [allStages, decide_eq_true_eq]
  constructor
  · intro h
    have hbit : ∀ i, (0xE : Nat).testBit i = true → (hits.testBit i && true) = true :=
      fun i hi => by rw [← hi, ← Nat.testBit_and, h]
    exact ⟨by simpa using hbit 1 rfl, by simpa using hbit 2 rfl, by simpa using hbit 3 rfl⟩
  · rintro ⟨h1, h2, h3⟩
    refine Nat.eq_of_testBit_eq fun i => ?_
    rw [Nat.testBit_and]
    match i with
    | 0 => simp
    | 1 => simp [h1]
    | 2 => simp [h2]
    | 3 => simp [h3]
    | i + 4 => simp [Nat.testBit_succ]

theorem advanceKillChain_stagesHit (s : Suspect R) (a : Attack) (now : Int) :
    (advanceKillChain s (some a) now).kcStagesHit =
      (if s.incidentExpired now then 0 else s.kcStagesHit) |||
        1 <<< (attackToStage (some a)).toNat := by
  have h : (advanceKillChain s (some a) now).kcStagesHit =
      (s.resetExpired now).kcStagesHit ||| 1 <<< (attackToStage (some a)).toNat := by
    simp only [advanceKillChain, attackToStage_some, ↓reduceIte, Suspect.hitStage,
      Suspect.raiseStage, Suspect.markFirstSeen]
    split_ifs <;> rfl
  rw [h, Suspect.resetExpired]
  split <;> rfl

/-- The incident is complete exactly when all three stages are in the bitmask. -/
def Suspect.stageAgrees (s : Suspect R) : Prop := s.kcStage = .complete ↔ allStages s.kcStagesHit

theorem allStages_or {hits : Nat} (h : allStages hits) (b : Nat) : allStages (hits ||| b) := by
  rw [allStages_iff] at h ⊢
  simp [Nat.testBit_or, h]

theorem hitStage_agrees {s : Suspect R} (h : s.kcStage = .complete → allStages s.kcStagesHit)
    (target : KillChainStage) : (s.hitStage target).stageAgrees := by
  unfold Suspect.hitStage
  dsimp only
  split
  · next hall => exact ⟨fun _ => decide_eq_true hall, fun _ => rfl⟩
  · next hnot =>
    have hnot' : ¬ allStages (s.kcStagesHit ||| 1 <<< target.toNat) := by simpa [allStages] using hnot
    exact ⟨fun hc => absurd (allStages_or (h hc) _) hnot', fun ha => absurd ha hnot'⟩

theorem advanceKillChain_agrees {s : Suspect R} (h : s.stageAgrees) (attack : Option Attack)
    (now : Int) : (advanceKillChain s attack now).stageAgrees := by
  cases attack with
  | none => exact h
  | some a =>
    have hreset : (s.resetExpired now).stageAgrees := by
      unfold Suspect.resetExpired
      split
      · simp [Suspect.resetIncident, Suspect.stageAgrees, allStages]
      · exact h
    have hmark : ((s.resetExpired now).markFirstSeen now).stageAgrees := by
      unfold Suspect.markFirstSeen
      split <;> exact hreset
    have htarget : attackToStage (some a) ≠ .complete := by
      rcases attackToStage_bit a with h | h | h <;> simp [h]
    have hraise : ∀ u : Suspect R, u.stageAgrees →
        (u.raiseStage (attackToStage (some a)) now).kcStage = .complete →
        allStages (u.raiseStage (attackToStage (some a)) now).kcStagesHit := fun u hu => by
      unfold Suspect.raiseStage
      split
      · exact fun hc => absurd hc htarget
      · exact hu.mp
    simp only [advanceKillChain, attackToStage_some, ↓reduceIte]
    exact hitStage_agrees (hraise _ hmark) _

end KillChain

variable {R : Type} [Double R]

/-! ## Reports and losses -/

/-- The call reports a packet of `ip` as an attack of the stage `k`. -/
def ReportsStage (ip : UInt32) (k : KillChainStage) (x : Seen R) : Prop :=
  (∃ body, classify x.label.packet = .ipv4 ip body) ∧
    ∃ a, Reports x a ∧ attackToStage (some a) = k

/-- The call evicts the record of `ip`: a cleanup is due and the record is not alive. -/
def Evicts (ip : UInt32) (x : Seen R) : Prop :=
  x.before.due x.label.now = true ∧
    ∃ s, x.before.record ip = some s ∧ s.alive x.label.now = false

/-- The call reports `ip` and finds an expired incident. -/
def Resets (ip : UInt32) (x : Seen R) : Prop :=
  (∃ k, ReportsStage ip k x) ∧
    ∃ s, x.before.record ip = some s ∧ s.incidentExpired x.label.now = true

/-- The kill chain of `ip` is lost in this call. -/
def Loses (ip : UInt32) (x : Seen R) : Prop := Evicts ip x ∨ Resets ip x

/-- The stage `k` is in the bitmask of the record of `ip`. -/
def StageHit (st : Analyzer R) (ip : UInt32) (k : KillChainStage) : Prop :=
  ∃ s, st.record ip = some s ∧ s.kcStagesHit.testBit k.toNat = true

/-- The record of `ip` has reached the stage COMPLETE. -/
def IsComplete (st : Analyzer R) (ip : UInt32) : Prop :=
  ∃ s, st.record ip = some s ∧ s.kcStage = .complete

theorem reportsStage_iff {x : Seen R} {ip : UInt32} {k : KillChainStage}
    (hx : analyzerLts.step x.before x.label = some x.after) :
    ReportsStage ip k x ↔ ∃ ar a, x.before.arrival ip x.label = some ar ∧
      ar.attack = some a ∧ attackToStage (some a) = k := by
  constructor
  · rintro ⟨⟨body, hc⟩, a, hrep, hk⟩
    obtain ⟨ar, harr, hatk⟩ := (reports_ipv4 hc hx a).mp hrep
    exact ⟨ar, a, harr, hatk, hk⟩
  · rintro ⟨ar, a, harr, hatk, hk⟩
    have hc := (arrival_cases harr).2.2.1
    exact ⟨⟨ar.body, hc⟩, a, (reports_arrival hx harr a).mpr hatk, hk⟩

/-- An arrival leaves the kill chain fields of the record it finds to
`advance_kill_chain`. -/
theorem result_stagesHit (ar : Arrival R) :
    ar.result.1.kcStagesHit =
      match ar.attack with
      | none => ar.record.kcStagesHit
      | some a => (if ar.record.incidentExpired ar.now then 0 else ar.record.kcStagesHit) |||
          1 <<< (attackToStage (some a)).toNat := by
  obtain ⟨_, _, hstage, hentered, _, hhits, _⟩ :=
    detectStep_frame ar.record ar.body ar.length ar.now
  rw [Arrival.result, transportStep_record, Arrival.attack]
  cases h : (detectStep ar.record ar.body ar.length ar.now).2 with
  | none => exact hhits
  | some a =>
    have hexpired : (detectStep ar.record ar.body ar.length ar.now).1.incidentExpired ar.now =
        ar.record.incidentExpired ar.now := by
      simp only [Suspect.incidentExpired, hstage, hentered]
    rw [advanceKillChain_stagesHit, hhits, hexpired]

omit [Double R] in
/-- The cleanup of a call keeps the record of `ip` exactly when it does not evict it. -/
theorem cleaned_record_iff {x : Seen R} {ip : UInt32} (hd : Distinct x.before) {s : Suspect R} :
    (x.before.cleaned x.label.now).record ip = some s ↔
      x.before.record ip = some s ∧ ¬ Evicts ip x := by
  rw [cleaned_record hd]
  constructor
  · intro h
    split at h
    · obtain ⟨hs, halive⟩ := Option.filter_eq_some_iff.mp h
      refine ⟨hs, ?_⟩
      rintro ⟨_, s', hs', hdead⟩
      rw [hs, Option.some.injEq] at hs'
      simp [← hs', halive] at hdead
    · next hdue => exact ⟨h, fun he => hdue he.1⟩
  · rintro ⟨hs, he⟩
    split
    · next hdue =>
      refine Option.filter_eq_some_iff.mpr ⟨hs, ?_⟩
      cases halive : s.alive x.label.now with
      | true => rfl
      | false => exact absurd ⟨hdue, s, hs, halive⟩ he
    · exact hs

theorem toNat_injective {k k' : KillChainStage} : k.toNat = k'.toNat ↔ k = k' := by
  cases k <;> cases k' <;> simp [KillChainStage.toNat]

theorem testBit_stage (k k' : KillChainStage) :
    (1 <<< k.toNat).testBit k'.toNat = true ↔ k = k' := by
  rw [Nat.one_shiftLeft, Nat.testBit_two_pow, decide_eq_true_eq, toNat_injective]

/-- One call sets a stage by a report, and clears the stages of `ip` by a loss. -/
theorem stageHit_step {x : Seen R} (hx : analyzerLts.step x.before x.label = some x.after)
    (hd : Distinct x.before) (ip : UInt32) (k : KillChainStage) :
    StageHit x.after ip k ↔ ReportsStage ip k x ∨ (StageHit x.before ip k ∧ ¬ Loses ip x) := by
  have hafter := processFrame_record x.before ip x.label
  rw [analyzerLts_step.mp hx] at hafter
  have hreports : ∀ k, ReportsStage ip k x ↔ _ := fun _ => reportsStage_iff hx
  cases harr : x.before.arrival ip x.label with
  | none =>
    -- no packet of `ip`: only the cleanup can change its record
    have hnot : ∀ k, ¬ ReportsStage ip k x := fun k => by simp [hreports, harr]
    rw [harr] at hafter
    simp only [StageHit, hafter, cleaned_record_iff hd, hnot, Loses, Resets, false_or]
    constructor
    · rintro ⟨s, ⟨hs, he⟩, hbit⟩
      exact ⟨⟨s, hs, hbit⟩, by simpa [hnot] using he⟩
    · rintro ⟨⟨s, hs, hbit⟩, hl⟩
      exact ⟨s, ⟨hs, fun he => hl (.inl he)⟩, hbit⟩
  | some ar =>
    rw [harr] at hafter
    have hstage : StageHit x.after ip k ↔ ar.result.1.kcStagesHit.testBit k.toNat = true := by
      simp [StageHit, hafter]
    rw [hstage, result_stagesHit]
    -- a packet of `ip`, on the record of the last one or on a new record
    obtain ⟨hnow, _, _, ⟨s, hs, hrec⟩ | ⟨hs, hrec⟩⟩ := arrival_cases harr
    · obtain ⟨hbefore, hkept⟩ := (cleaned_record_iff hd).mp hs
      have hhit : StageHit x.before ip k ↔ s.kcStagesHit.testBit k.toNat = true := by
        simp [StageHit, hbefore]
      cases hatk : ar.attack with
      | none =>
        have hnot : ∀ k, ¬ ReportsStage ip k x := fun k => by simp [hreports, harr, hatk]
        simp [hnot, hhit, hrec, Loses, Resets, hkept]
      | some a =>
        have hrep : ∀ k, ReportsStage ip k x ↔ attackToStage (some a) = k := fun k => by
          simp [hreports, harr, hatk]
        have hexp : ar.record.incidentExpired ar.now = s.incidentExpired x.label.now := by
          rw [hrec, hnow]
          rfl
        have hloses : Loses ip x ↔ s.incidentExpired x.label.now = true := by
          simp [Loses, Resets, hkept, hrep, hbefore]
        rw [hrep, hhit, hloses, hexp, Nat.testBit_or, Bool.or_eq_true, testBit_stage, or_comm, hrec]
        cases s.incidentExpired x.label.now <;> simp
    · -- a new record starts without stages
      have hhit : StageHit x.before ip k → Evicts ip x := by
        rintro ⟨s, hbefore, _⟩
        by_contra hkept
        rw [(cleaned_record_iff hd).mpr ⟨hbefore, hkept⟩] at hs
        cases hs
      have hlost : ¬ (StageHit x.before ip k ∧ ¬ Loses ip x) := fun h => h.2 (.inl (hhit h.1))
      cases hatk : ar.attack with
      | none => simp [hlost, hreports, harr, hatk, hrec, Suspect.fresh]
      | some a =>
        have hzero : (if ar.record.incidentExpired ar.now then 0 else ar.record.kcStagesHit) = 0 := by
          rw [hrec]
          split <;> rfl
        simp only [hzero, Nat.zero_or, testBit_stage, hlost, or_false]
        simp [hreports, harr, hatk]

/-! ## Runs -/

theorem run_stageHit {st0 st : Analyzer R} {tr : List (Seen R)}
    (h : Lts.Run analyzerLts (analyzerReset st0) tr st) (ip : UInt32) (k : KillChainStage) :
    StageHit st ip k ↔ Lts.Latched (ReportsStage ip k) (Loses ip) tr := by
  refine h.latched_iff (P := fun st => StageHit st ip k) ?_ fun x hx => ?_
  · rintro ⟨s, hs, _⟩
    cases hs
  · obtain ⟨a, b, rfl⟩ := List.append_of_mem hx
    obtain ⟨ha, hstep, _⟩ := h.around
    exact stageHit_step hstep (run_distinct ha) ip k

theorem result_agrees {ar : Arrival R} (h : ar.record.stageAgrees) : ar.result.1.stageAgrees := by
  obtain ⟨_, _, hstage, _, _, hhits, _⟩ := detectStep_frame ar.record ar.body ar.length ar.now
  rw [Arrival.result, transportStep_record]
  refine advanceKillChain_agrees ?_ _ _
  simpa only [Suspect.stageAgrees, hstage, hhits] using h

theorem history_agrees {ip : UInt32} {as : List (Arrival R)} {s : Suspect R}
    (h : History ip as s) : s.stageAgrees := by
  induction h with
  | first ha =>
    refine result_agrees ?_
    rw [ha]
    simp [Suspect.stageAgrees, Suspect.fresh, allStages]
  | next _ ha ih =>
    refine result_agrees ?_
    rw [ha]
    exact ih

/-- The incident is complete exactly when the three stages are in the bitmask. -/
theorem run_isComplete {st0 st : Analyzer R} {tr : List (Seen R)}
    (h : Lts.Run analyzerLts (analyzerReset st0) tr st) (ip : UInt32) :
    IsComplete st ip ↔ StageHit st ip .recon ∧ StageHit st ip .exploit ∧ StageHit st ip .exfil := by
  cases hs : st.record ip with
  | none => simp [IsComplete, StageHit, hs]
  | some s =>
    have hagrees := history_agrees (run_history h hs)
    simp only [IsComplete, StageHit, hs, Option.some.injEq, exists_eq_left', hagrees.eq]
    exact allStages_iff s.kcStagesHit

/-- Two stages reported for one source, `A` by the call `x` and then `B` by the call `y`,
are both in the record after `y` exactly when they are one stage, or `A` was reported by
`x` or again later and neither an eviction nor a reset came after that report. The
incident is complete exactly when that holds of each of the three stages. -/
theorem correlation_iff {st0 st : Analyzer R} {pre mid : List (Seen R)} {x y : Seen R}
    {ip : UInt32} {A B : KillChainStage}
    (hrun : Lts.Run analyzerLts (analyzerReset st0) (pre ++ x :: (mid ++ [y])) st)
    (hx : ReportsStage ip A x) (hy : ReportsStage ip B y) :
    ((StageHit y.after ip A ∧ StageHit y.after ip B) ↔
      A = B ∨ (Lts.Latched (ReportsStage ip A) (Loses ip) (x :: mid) ∧ ¬ Loses ip y)) ∧
    (IsComplete y.after ip ↔ ∀ k, k = .recon ∨ k = .exploit ∨ k = .exfil →
      Lts.Latched (ReportsStage ip k) (Loses ip) (pre ++ x :: (mid ++ [y]))) := by
  have hsplit : pre ++ x :: (mid ++ [y]) = (pre ++ x :: mid) ++ [y] := by simp
  have hlast : st = y.after ∧ analyzerLts.step y.before y.label = some y.after := by
    rw [hsplit] at hrun
    exact ⟨hrun.snoc_inv.1, hrun.snoc_inv.2.2⟩
  obtain ⟨rfl, hstep⟩ := hlast
  have hB : StageHit y.after ip B := by
    rw [run_stageHit hrun, hsplit]
    exact Lts.latched_snoc.mpr (.inl hy)
  have hsame : ReportsStage ip A y ↔ A = B := by
    constructor
    -- one call reports one attack, so one stage
    · intro hA
      obtain ⟨ar, a, harr, hatk, rfl⟩ := (reportsStage_iff hstep).mp hA
      obtain ⟨ar', a', harr', hatk', rfl⟩ := (reportsStage_iff hstep).mp hy
      rw [harr, Option.some.injEq] at harr'
      subst harr'
      rw [hatk] at hatk'
      rw [hatk']
    · rintro rfl
      exact hy
  constructor
  · rw [run_stageHit hrun, hsplit, Lts.latched_snoc, Lts.latched_append hx, hsame]
    exact and_iff_left hB
  · rw [run_isComplete hrun]
    simp only [run_stageHit hrun]
    constructor
    · rintro ⟨h1, h2, h3⟩ k (rfl | rfl | rfl)
      · exact h1
      · exact h2
      · exact h3
    · exact fun h => ⟨h _ (.inl rfl), h _ (.inr (.inl rfl)), h _ (.inr (.inr rfl))⟩

/-! ## A scan and a flood -/

/-- A NULL scan of 1.2.3.4 at time 1000, reported on its third packet, and an ICMP flood
at time `t`, reported on its 21st. -/
def nullPacket : Call := ⟨tcpFrame [1, 2, 3, 4] 22 0, 1000⟩
def icmpPacket (t : Int) : Call := ⟨ipv4Frame 1 [1, 2, 3, 4] [], t⟩
def scanThenFlood (t : Int) : List Call :=
  List.replicate 3 nullPacket ++ List.replicate 21 (icmpPacket t)

/-- The two reports of the run. -/
def scanReport : Seen R :=
  ⟨afterCalls .initial (List.replicate 2 nullPacket), nullPacket,
    afterCalls .initial (List.replicate 3 nullPacket)⟩
def floodReport (t : Int) : Seen R :=
  ⟨afterCalls .initial (List.replicate 3 nullPacket ++ List.replicate 20 (icmpPacket t)),
    icmpPacket t, afterCalls .initial (scanThenFlood t)⟩

/-- The calls between them. -/
def floodStart (t : Int) : List (Seen R) :=
  observe (afterCalls .initial (List.replicate 3 nullPacket)) (List.replicate 20 (icmpPacket t))

theorem scanThenFlood_observe (t : Int) :
    observe (.initial : Analyzer R) (scanThenFlood t) =
      observe .initial (List.replicate 2 nullPacket) ++
        scanReport :: (floodStart t ++ [floodReport t]) := rfl

theorem scanThenFlood_run (t : Int) :
    Lts.Run analyzerLts (analyzerReset (.initial : Analyzer R))
      (observe .initial (List.replicate 2 nullPacket) ++
        scanReport :: (floodStart t ++ [floodReport t]))
      (afterCalls .initial (scanThenFlood t)) :=
  observe_run .initial (scanThenFlood t)

theorem scanReport_recon : ReportsStage 0x04030201 .recon (scanReport : Seen ℝ) := by
  have hstep := (scanThenFlood_run (R := ℝ) 1000).around.2.1
  exact ⟨⟨.tcp 22 0, by decide +kernel⟩, .nullScan, (reports_iff hstep _).mpr (by decide +kernel), rfl⟩

theorem floodReport_exfil {t : Int} (h : .icmpFlood ∈ verdicts (floodReport (R := ℝ) t).before
    (icmpPacket t)) : ReportsStage 0x04030201 .exfil (floodReport t : Seen ℝ) := by
  have hrun := scanThenFlood_run (R := ℝ) t
  rw [← List.cons_append, ← List.append_assoc] at hrun
  have hclass : classify (ipv4Frame 1 [1, 2, 3, 4] []) = .ipv4 0x04030201 .icmp := by
    decide +kernel
  exact ⟨⟨.icmp, hclass⟩, .icmpFlood, (reports_iff hrun.snoc_inv.2.2 _).mpr h, rfl⟩

/-- With the flood 100 s after the scan both stages are in the record, so neither clock
has run out between the reports. -/
theorem correlation_iff_within_timeout :
    Lts.Latched (ReportsStage 0x04030201 .recon) (Loses 0x04030201)
        ((scanReport : Seen ℝ) :: floodStart 1100) ∧
      ¬ Loses 0x04030201 (floodReport 1100 : Seen ℝ) := by
  have hflood := floodReport_exfil (t := 1100) (by decide +kernel)
  have hiff := (correlation_iff (scanThenFlood_run 1100) scanReport_recon hflood).1
  have hhits : ((floodReport 1100 : Seen ℝ).after.record 0x04030201).map (·.kcStagesHit) = some 10 := by
    decide +kernel
  obtain ⟨s, hs, hbits⟩ := Option.map_eq_some_iff.mp hhits
  exact (hiff.mp ⟨⟨s, hs, by rw [hbits]; rfl⟩, ⟨s, hs, by rw [hbits]; rfl⟩⟩).resolve_left
    (by simp)

/-- With the flood 400 s after the scan, well inside the window of 1800 s, the idle record
is evicted and the reported scan is lost. -/
theorem correlation_lost_after_eviction :
    ∃ (pre mid : List (Seen ℝ)) (x y : Seen ℝ),
      observe .initial (scanThenFlood 1400) = pre ++ x :: (mid ++ [y]) ∧
        (scanThenFlood 1400).Pairwise (·.now ≤ ·.now) ∧
        (∀ z ∈ observe (.initial : Analyzer ℝ) (scanThenFlood 1400),
          z.after.suspects.count < MAX_SUSPECTS) ∧
        ReportsStage 0x04030201 .recon x ∧ ReportsStage 0x04030201 .exfil y ∧
        y.label.now - x.label.now ≤ KC_WINDOW_SEC ∧
        ¬ (StageHit y.after 0x04030201 .recon ∧ StageHit y.after 0x04030201 .exfil) := by
  refine ⟨_, _, scanReport, floodReport 1400, scanThenFlood_observe 1400, by decide +kernel,
    fun z hz => ?_, scanReport_recon, floodReport_exfil (by decide +kernel), by decide, ?_⟩
  · have hcounts : ∀ n ∈ (observe (.initial : Analyzer ℝ) (scanThenFlood 1400)).map
        (·.after.suspects.count), n < MAX_SUSPECTS := by decide +kernel
    exact hcounts _ (List.mem_map_of_mem hz)
  · have hhits : ((floodReport 1400 : Seen ℝ).after.record 0x04030201).map (·.kcStagesHit) =
        some 8 := by decide +kernel
    obtain ⟨s, hs, hbits⟩ := Option.map_eq_some_iff.mp hhits
    rintro ⟨⟨s', hs', hbit⟩, _⟩
    rw [hs, Option.some.injEq] at hs'
    rw [← hs', hbits] at hbit
    cases hbit

end TrafficAnalyzer
