import TrafficAnalyzer.Agent.Incidents

/-!
# Progress and severity of an incident

Two documented promises of the kill chain, over whole runs on one record.

* The stage never goes back and no stage is forgotten while the incident is active. The
  reset looks at the time when the stage was entered, which later attacks of the same or
  an earlier stage do not refresh: `progressKept_iff`, `progress_lost`.
* The score never drops, and its bonus is for an incident that reached EXPLOIT within five
  minutes. The bonus is computed from the time of each attack: `severity_iff`,
  `severity_dropped`.
-/

namespace TrafficAnalyzer

variable {R : Type}

abbrev KcStep (R : Type) := Lts.Step (Suspect R) KcCall

/-! ## Progress -/

/-- The stage does not go back and no stage is forgotten. -/
structure KeepsProgress (s s' : Suspect R) : Prop where
  stage : s.kcStage.toNat ≤ s'.kcStage.toNat
  stagesHit : ∀ n, s.kcStagesHit.testBit n = true → s'.kcStagesHit.testBit n = true

theorem KeepsProgress.refl (s : Suspect R) : KeepsProgress s s := ⟨Nat.le_refl _, fun _ => id⟩

theorem KeepsProgress.trans {a b c : Suspect R} (h : KeepsProgress a b) (h' : KeepsProgress b c) :
    KeepsProgress a c :=
  ⟨Nat.le_trans h.stage h'.stage, fun n hn => h'.stagesHit n (h.stagesHit n hn)⟩

/-- The call is recognised, the stage was entered too long ago, and the new attack is not of
the only stage that was reached. -/
def LosesProgress (x : KcStep R) : Prop :=
  ∃ y, x.label.sighting = some y ∧ x.before.incidentExpired x.label.now = true ∧
    x.before.kcStagesHit ≠ 1 <<< y.stage.toNat

theorem le_later (k k' : KillChainStage) : k.toNat ≤ (k.later k').toNat := by
  unfold KillChainStage.later
  split
  · next h => exact Nat.le_of_lt h
  · exact Nat.le_refl _

theorem stage_le_complete (k : KillChainStage) : k.toNat ≤ KillChainStage.complete.toNat := by
  cases k <;> decide

theorem sighted_keeps (s : Suspect R) (y : Sighting) : KeepsProgress s (s.sighted y) where
  stage := by
    rw [sighted_stage]
    split
    · exact stage_le_complete _
    · exact le_later _ _
  stagesHit n hn := by rw [sighted_stagesHit, Nat.testBit_or, hn, Bool.true_or]

/-- After a reset the record has the stage of the new attack only. -/
theorem sighted_reset (s : Suspect R) (y : Sighting) :
    (s.resetIncident.sighted y).kcStagesHit = 1 <<< y.stage.toNat ∧
      (s.resetIncident.sighted y).kcStage = y.stage := by
  have hhits : (s.resetIncident.sighted y).kcStagesHit = 1 <<< y.stage.toNat := by
    simp [sighted_stagesHit, Suspect.resetIncident]
  refine ⟨hhits, ?_⟩
  rw [sighted_stage, hhits]
  rcases stage_cases y with h | h | h <;> simp only [h] <;> rfl

theorem progress_reset_iff {i : KcIncident} {s : Suspect R} (ht : Tracks i s) (hne : i ≠ [])
    (y : Sighting) :
    KeepsProgress s (s.resetIncident.sighted y) ↔ s.kcStagesHit = 1 <<< y.stage.toNat := by
  obtain ⟨hhits, hstage⟩ := sighted_reset s y
  constructor
  · intro hkeep
    have honly : ∀ n, s.kcStagesHit.testBit n = true → y.stage.toNat = n := fun n hn => by
      have hbit := hkeep.stagesHit n hn
      rwa [hhits, Nat.one_shiftLeft, Nat.testBit_two_pow, decide_eq_true_eq] at hbit
    obtain ⟨z, hz⟩ := List.exists_mem_of_ne_nil i hne
    have hset : s.kcStagesHit.testBit z.stage.toNat = true := (ht.stagesHit _).mpr ⟨z, hz, rfl⟩
    have hz' := honly _ hset
    refine Nat.eq_of_testBit_eq fun n => ?_
    rw [Nat.one_shiftLeft, Nat.testBit_two_pow, Bool.eq_iff_iff, decide_eq_true_eq]
    exact ⟨honly n, fun he => by rw [← he, hz', hset]⟩
  · intro hsame
    refine ⟨?_, fun n hn => by rw [hhits, ← hsame, hn]⟩
    -- all sightings are of this stage, and so is the maximum
    have hall : ∀ z ∈ i, z.stage = y.stage := fun z hz => by
      have hbit := (ht.stagesHit z.stage.toNat).mpr ⟨z, hz, rfl⟩
      rw [hsame, Nat.one_shiftLeft, Nat.testBit_two_pow, decide_eq_true_eq] at hbit
      exact (toNat_injective.mp hbit).symm
    have hnot : ¬ allSeen i := fun hseen => by
      obtain ⟨a, ha, hrecon⟩ := hseen .recon (by simp)
      obtain ⟨b, hb, hexfil⟩ := hseen .exfil (by simp)
      rw [hall a ha] at hrecon
      rw [hall b hb, hrecon] at hexfil
      cases hexfil
    obtain ⟨z, hz, hpeak⟩ := peak_mem hne
    rw [hstage, ht.stage_peak hnot, ← hpeak, hall z hz]

variable [Double R]

theorem kcLts_step {s s' : Suspect R} {c : KcCall} :
    kcLts.step s c = some s' ↔ advanceKillChainText s c.attack c.now = s' := by
  simp [kcLts]

/-- One call keeps the progress unless it loses it. -/
theorem progress_step {x : KcStep R} {i : KcIncident} (ht : Tracks i x.before)
    (hx : kcLts.step x.before x.label = some x.after) :
    KeepsProgress x.before x.after ↔ ¬ LosesProgress x := by
  rw [kcLts_step, advance_sighting] at hx
  rw [← hx, LosesProgress]
  cases hc : x.label.sighting with
  | none => simp [KeepsProgress.refl]
  | some y =>
    simp only [Option.some.injEq, exists_eq_left', ← sighting_now hc, advanceKillChain_sighted,
      Suspect.resetExpired]
    by_cases he : x.before.incidentExpired y.now = true
    · have hne : i ≠ [] := ht.idle_lt_iff.mp (of_decide_eq_true he).1
      simp only [he, ↓reduceIte, progress_reset_iff ht hne, true_and, ne_eq, not_not]
    · simp [he, sighted_keeps]

/-- In a run on one record the stage never goes back and no stage is forgotten exactly when
no call of it loses progress. -/
theorem progressKept_iff {ip : UInt32} {t0 : Int} {s : Suspect R} {tr : List (KcStep R)}
    (h : Lts.Run kcLts (Suspect.fresh ip t0) tr s) :
    (Suspect.fresh ip t0 :: tr.map (·.after)).Pairwise KeepsProgress ↔
      ∀ x ∈ tr, ¬ LosesProgress x := by
  rw [h.pairwise_iff KeepsProgress.refl fun _ _ _ => KeepsProgress.trans]
  refine forall₂_congr fun x hx => ?_
  obtain ⟨pre, hpre⟩ := h.before_of_mem hx
  exact progress_step (run_tracks hpre) (h.step_of_mem hx)

/-- A call that reports an attack. -/
def reported (a : Attack) (now : Int) : KcCall := ⟨some a.name, now⟩

/-- A scan 500 s after a brute-force attack is within the window. -/
def activeCalls : List KcCall := [reported .bruteForce 1000, reported .portScan 1500]

theorem progressKept_iff_active :
    ∃ (tr : List (KcStep ℝ)) (s : Suspect ℝ), Lts.Run kcLts (Suspect.fresh 1 5) tr s ∧
      tr.map (·.label) = activeCalls ∧
        (Suspect.fresh 1 5 :: tr.map (·.after)).Pairwise KeepsProgress := by
  have hexec : ((kcLts (R := ℝ)).exec (Suspect.fresh 1 5) activeCalls).map
      (fun r => (r.1.map (·.label), r.1.map fun x => x.before.incidentExpired x.label.now)) =
        some (activeCalls, [false, false]) := rfl
  obtain ⟨tr, s, hrun, hval⟩ := Lts.run_of_exec hexec
  obtain ⟨hlabels, hexpired⟩ := Prod.mk.inj hval
  refine ⟨tr, s, hrun, hlabels, (progressKept_iff hrun).mpr ?_⟩
  rintro x hx ⟨y, -, hexp, -⟩
  have hmem : x.before.incidentExpired x.label.now ∈ [false, false] :=
    hexpired ▸
      List.mem_map_of_mem (f := fun x : KcStep ℝ => x.before.incidentExpired x.label.now) hx
  simp [hexp] at hmem

/-- A brute-force attack, then a scan every 1000 s: at the second scan the stage was entered
2000 s ago, and the incident goes back from EXPLOIT to RECON. -/
def lostCalls : List KcCall :=
  [reported .bruteForce 1000, reported .portScan 2000, reported .portScan 3000]

theorem progress_lost :
    ¬ ∀ (tr : List (KcStep ℝ)) (s : Suspect ℝ), Lts.Run kcLts (Suspect.fresh 1 5) tr s →
      (∀ c ∈ tr.map (·.label), c.sighting ≠ none) →
      (tr.map (·.label)).IsChain (fun c c' => c.now ≤ c'.now ∧ c'.now - c.now ≤ KC_WINDOW_SEC) →
      (Suspect.fresh 1 5 :: tr.map (·.after)).Pairwise KeepsProgress := by
  intro hall
  have hexec : ((kcLts (R := ℝ)).exec (Suspect.fresh 1 5) lostCalls).map
      (fun r => (r.1.map (·.label), r.1.map (·.after.kcStage))) =
        some (lostCalls, [.exploit, .exploit, .recon]) := rfl
  obtain ⟨tr, s, hrun, hval⟩ := Lts.run_of_exec hexec
  obtain ⟨hlabels, hstages⟩ := Prod.mk.inj hval
  have hkept := hall tr s hrun (by rw [hlabels]; decide) (by rw [hlabels]; decide)
  have hmono : (tr.map (·.after.kcStage)).Pairwise (fun k k' => k.toNat ≤ k'.toNat) := by
    have htail := hkept.of_cons
    rw [List.pairwise_map] at htail ⊢
    exact htail.imp KeepsProgress.stage
  rw [hstages] at hmono
  exact absurd hmono (by decide)

/-! ## Severity -/

/-- The incident first reached EXPLOIT or beyond less than 300 s after its first attack. -/
def earlyExploit (i : KcIncident) : Prop :=
  ∃ first ∈ i.head?, ∃ x ∈ i.find? (fun x => KillChainStage.exploit.toNat ≤ x.stage.toNat),
    difftime x.now first.now < 300

instance (i : KcIncident) : Decidable (earlyExploit i) := by
  unfold earlyExploit
  infer_instance

/-- The documented score of an incident whose record has the stage `k`. -/
def documentedScore (k : KillChainStage) (i : KcIncident) : Int :=
  min 100 (kcBaseScore k + if earlyExploit i then 10 else 0)

/-- The step resets the incident. -/
def ResetsIncident (x : KcStep R) : Prop :=
  x.label.sighting ≠ none ∧ x.before.incidentExpired x.label.now = true

/-- After the calls `tr` the step `x` does not lower the score unless it resets the
incident, and leaves the documented score. -/
structure SeverityKept (tr : List (KcStep R)) (x : KcStep R) : Prop where
  score_le : ¬ ResetsIncident x → x.before.kcScore ≤ x.after.kcScore
  score_eq : x.after.kcScore =
    documentedScore x.after.kcStage (incidentOf (tr.map (·.label) ++ [x.label]))

/-- The time is 300 s or more after the first attack of an incident that has earned the
bonus. -/
def BonusOver (i : KcIncident) (now : Int) : Prop :=
  earlyExploit i ∧ ∃ first ∈ i.head?, 300 ≤ difftime now first.now

/-- The call is recognised and comes after the bonus of the incident that it continues. -/
def LateReport (cs : List KcCall) (c : KcCall) : Prop :=
  c.sighting ≠ none ∧ BonusOver (continued (incidentOf cs) c.now) c.now

instance (i : KcIncident) (now : Int) : Decidable (BonusOver i now) := by
  unfold BonusOver
  infer_instance

instance (cs : List KcCall) (c : KcCall) : Decidable (LateReport cs c) := by
  unfold LateReport
  infer_instance

/-- No call of `cs` is late. -/
def NoLateReport (cs : List KcCall) : Prop :=
  ∀ n, ∀ h : n < cs.length, ¬ LateReport (cs.take n) cs[n]

instance (cs : List KcCall) : Decidable (NoLateReport cs) := by
  unfold NoLateReport
  infer_instance

theorem noLateReport_iff {cs : List KcCall} :
    NoLateReport cs ↔ ∀ pre c post, cs = pre ++ c :: post → ¬ LateReport pre c := by
  constructor
  · rintro h pre c post rfl
    simpa using h pre.length (by simp)
  · intro h n hn
    refine h _ _ (cs.drop (n + 1)) ?_
    rw [List.cons_getElem_drop_succ, List.take_append_drop]

theorem NoLateReport.of_append {a b : List KcCall} (h : NoLateReport (a ++ b)) :
    NoLateReport a := by
  rw [noLateReport_iff] at h ⊢
  rintro pre c post rfl
  exact h pre c (post ++ b) (by simp)

/-! ### The score of one sighting -/

section Score

omit [Double R]

theorem calculateKcScore_eq (s : Suspect R) (now : Int) :
    calculateKcScore s now =
      min 100 (kcBaseScore s.kcStage +
        if 0 < s.kcFirstSeen ∧ KillChainStage.exploit.toNat ≤ s.kcStage.toNat ∧
          difftime now s.kcFirstSeen < 300 then 10 else 0) := by
  unfold calculateKcScore
  dsimp only
  split_ifs <;> omega

theorem kcBaseScore_mono {k k' : KillChainStage} (h : k.toNat ≤ k'.toNat) :
    kcBaseScore k ≤ kcBaseScore k' := by
  revert h
  cases k <;> cases k' <;> decide

theorem kcBaseScore_le (k : KillChainStage) : kcBaseScore k ≤ 90 := by
  cases k <;> decide

/-- The record has reached EXPLOIT when a sighting of the incident has. -/
theorem exploit_le_iff (i : KcIncident) :
    KillChainStage.exploit.toNat ≤ (incidentStage i).toNat ↔
      ∃ y ∈ i, KillChainStage.exploit.toNat ≤ y.stage.toNat := by
  unfold incidentStage
  split
  · next hall =>
    obtain ⟨y, hy, hstage⟩ := hall .exploit (by simp)
    exact iff_of_true (by decide) ⟨y, hy, by rw [hstage]⟩
  · constructor
    · intro hpeak
      have hne : i ≠ [] := by
        rintro rfl
        exact absurd hpeak (by decide)
      obtain ⟨y, hy, hstage⟩ := peak_mem hne
      exact ⟨y, hy, hstage ▸ hpeak⟩
    · rintro ⟨y, hy, hle⟩
      exact Nat.le_trans hle (stage_le_peak hy)

theorem earlyExploit_append {i : KcIncident} (h : earlyExploit i) (x : Sighting) :
    earlyExploit (i ++ [x]) := by
  obtain ⟨first, hfirst, y, hy, hlt⟩ := h
  refine ⟨first, ?_, y, ?_, hlt⟩
  · rw [Option.mem_def] at hfirst ⊢
    rw [List.head?_append, hfirst, Option.some_or]
  · rw [Option.mem_def] at hy ⊢
    rw [List.find?_append, hy, Option.some_or]

/-- The bonus of the code at the sighting `x`: the documented one, unless `x` is late. -/
theorem bonus_iff {i : KcIncident} {x first : Sighting} (hle : ∀ y ∈ i, y.now ≤ x.now)
    (hfirst : (i ++ [x]).head? = some first) :
    (KillChainStage.exploit.toNat ≤ (incidentStage (i ++ [x])).toNat ∧
        difftime x.now first.now < 300) ↔
      earlyExploit (i ++ [x]) ∧ ¬ BonusOver i x.now := by
  have hhead : ∀ f, i.head? = some f → f = first := fun f hf => by
    rw [List.head?_append, hf, Option.some_or] at hfirst
    exact Option.some.inj hfirst
  rw [exploit_le_iff]
  constructor
  · rintro ⟨⟨y, hy, hdeep⟩, hlt⟩
    obtain ⟨e, he⟩ : ∃ e, (i ++ [x]).find?
        (fun y => KillChainStage.exploit.toNat ≤ y.stage.toNat) = some e :=
      Option.isSome_iff_exists.mp (List.find?_isSome.mpr ⟨y, hy, decide_eq_true hdeep⟩)
    have hnow : e.now ≤ x.now := by
      rcases List.mem_append.mp (List.mem_of_find?_eq_some he) with hmem | hlast
      · exact hle e hmem
      · rw [List.mem_singleton.mp hlast]
    refine ⟨⟨first, hfirst, e, he, ?_⟩, ?_⟩
    · exact Int.lt_of_le_of_lt (Int.sub_le_sub_right hnow _) hlt
    · rintro ⟨-, f, hf, hlate⟩
      rw [hhead f hf] at hlate
      exact absurd hlt (Int.not_lt.mpr hlate)
  · rintro ⟨⟨f, hf, e, he, hlt⟩, hnot⟩
    obtain rfl : first = f := Option.some.inj (hfirst.symm.trans hf)
    refine ⟨⟨e, List.mem_of_find?_eq_some he, by simpa using List.find?_some he⟩, ?_⟩
    by_contra hge
    rw [Option.mem_def, List.find?_append] at he
    cases hfind : i.find? (fun y => KillChainStage.exploit.toNat ≤ y.stage.toNat) with
    | some e' =>
      -- the bonus was earned before `x`, which is then late
      obtain ⟨g, hg⟩ := Option.isSome_iff_exists.mp
        (List.isSome_head?.mpr (List.ne_nil_of_mem (List.mem_of_find?_eq_some hfind)))
      rw [hfind, Option.some_or, Option.some.injEq] at he
      refine hnot ⟨⟨g, hg, e', hfind, ?_⟩, g, hg, ?_⟩
      · rwa [hhead g hg, he]
      · rw [hhead g hg]
        exact Int.not_lt.mp hge
    | none =>
      rw [hfind, Option.none_or] at he
      rw [List.mem_singleton.mp (List.mem_of_find?_eq_some he)] at hlt
      exact hge hlt

/-- The score after a sighting is the documented one unless the sighting is late. -/
theorem sighted_score_iff {i : KcIncident} {s : Suspect R} {x : Sighting} (h : Summarises i s)
    (hpos : ∀ y ∈ i ++ [x], 0 < y.now) (hle : ∀ y ∈ i, y.now ≤ x.now) :
    (s.sighted x).kcScore = documentedScore (s.sighted x).kcStage (i ++ [x]) ↔
      ¬ BonusOver i x.now := by
  have hsum := h.sighted (fun y hy => hpos y (List.mem_append_left _ hy)) x
  obtain ⟨first, hfirst⟩ : ∃ first, (i ++ [x]).head? = some first := by
    cases i <;> exact ⟨_, rfl⟩
  have hseen : (s.sighted x).kcFirstSeen = first.now := by rw [hsum.firstSeen, hfirst]; rfl
  have hfirstpos : 0 < first.now := hpos first (List.mem_of_mem_head? hfirst)
  have hbonus := bonus_iff hle hfirst
  have hbase := kcBaseScore_le (s.sighted x).kcStage
  rw [← hsum.stage] at hbonus
  rw [sighted_score, calculateKcScore_eq, documentedScore, hseen]
  simp only [hfirstpos, true_and, hbonus]
  by_cases hover : BonusOver i x.now
  · have hearly := earlyExploit_append hover.1 x
    simp only [hover, hearly, not_true_eq_false, and_false, ↓reduceIte, iff_false]
    omega
  · simp [hover]

/-- The documented score does not drop while the incident continues. -/
theorem documentedScore_append (i : KcIncident) (x : Sighting) :
    documentedScore (incidentStage i) i ≤
      documentedScore (incidentStage (i ++ [x])) (i ++ [x]) := by
  have hstage : (incidentStage i).toNat ≤ (incidentStage (i ++ [x])).toNat := by
    unfold incidentStage
    split
    · next hall => rw [if_pos (allSeen_append hall x)]
    · split
      · exact stage_le_complete _
      · rw [peak_append]
        exact le_later _ _
  have hbase := kcBaseScore_mono hstage
  unfold documentedScore
  by_cases hearly : earlyExploit i
  · rw [if_pos hearly, if_pos (earlyExploit_append hearly x)]
    omega
  · rw [if_neg hearly]
    split <;> omega

end Score

/-! ### Runs -/

/-- One call leaves the documented score exactly when it is not late. A call that is not
recognised leaves the score it finds. -/
theorem score_step {x : KcStep R} {cs : List KcCall}
    (hsum : Summarises (incidentOf cs) x.before)
    (hstep : kcLts.step x.before x.label = some x.after)
    (hpos : ∀ c ∈ cs ++ [x.label], 0 < c.now) (hle : ∀ c ∈ cs, c.now ≤ x.label.now)
    (hscore : x.label.sighting = none →
      x.before.kcScore = documentedScore x.before.kcStage (incidentOf cs)) :
    x.after.kcScore = documentedScore x.after.kcStage (incidentOf (cs ++ [x.label])) ↔
      ¬ LateReport cs x.label := by
  rw [kcLts_step, advance_sighting] at hstep
  rw [← hstep, incidentOf_concat, LateReport]
  cases hc : x.label.sighting with
  | none => simpa using hscore hc
  | some y =>
    have hnow := sighting_now hc
    have hreset := hsum.reset y.now
    have hpos' : ∀ z ∈ continued (incidentOf cs) y.now ++ [y], 0 < z.now := fun z hz => by
      rcases List.mem_append.mp hz with hz | hz
      · obtain ⟨c, hmem, hz⟩ := incidentOf_calls (continued_subset hz)
        exact hz ▸ hpos c (List.mem_append_left _ hmem)
      · rw [List.mem_singleton.mp hz, hnow]
        exact hpos _ (by simp)
    have hle' : ∀ z ∈ continued (incidentOf cs) y.now, z.now ≤ y.now := fun z hz => by
      obtain ⟨c, hmem, hz⟩ := incidentOf_calls (continued_subset hz)
      rw [← hz, hnow]
      exact hle c hmem
    simp only [addSighting_eq, advanceKillChain_sighted, ← hnow]
    simpa using sighted_score_iff hreset hpos' hle'

section Run

variable {ip : UInt32} {t0 : Int} {s : Suspect R} {tr : List (KcStep R)}

theorem score_documented (h : Lts.Run kcLts (Suspect.fresh ip t0) tr s)
    (hpos : ∀ c ∈ tr.map (·.label), 0 < c.now)
    (hmono : (tr.map (·.label)).Pairwise (·.now ≤ ·.now))
    (hno : NoLateReport (tr.map (·.label))) :
    s.kcScore = documentedScore s.kcStage (incidentOf (tr.map (·.label))) := by
  induction h with
  | nil => rfl
  | @snoc tr s s' c hr hstep ih =>
    rw [List.map_append, List.map_singleton] at *
    obtain ⟨hmono', -, hle⟩ := List.pairwise_append.mp hmono
    have hpos' : ∀ c ∈ tr.map (·.label), 0 < c.now := fun c hc => hpos c (List.mem_append_left _ hc)
    have hsum := run_summarises hr fun x hx => hpos' x.label (List.mem_map_of_mem hx)
    refine (score_step (x := ⟨s, c, s'⟩) hsum hstep hpos
      (fun c' hc' => hle c' hc' c (List.mem_singleton_self c))
      fun _ => ih hpos' hmono' hno.of_append).mpr ?_
    exact noLateReport_iff.mp hno _ c [] rfl

/-- A step of a run at positive, non-decreasing times, after the calls before it. -/
theorem run_step {pre post : List (KcStep R)} {x : KcStep R}
    (h : Lts.Run kcLts (Suspect.fresh ip t0) (pre ++ x :: post) s)
    (hpos : ∀ c ∈ (pre ++ x :: post).map (·.label), 0 < c.now)
    (hmono : ((pre ++ x :: post).map (·.label)).Pairwise (·.now ≤ ·.now)) :
    Lts.Run kcLts (Suspect.fresh ip t0) pre x.before ∧
      kcLts.step x.before x.label = some x.after ∧
      (∀ c ∈ pre.map (·.label) ++ [x.label], 0 < c.now) ∧
      (pre.map (·.label) ++ [x.label]).Pairwise (·.now ≤ ·.now) := by
  obtain ⟨hpre, hstep, -⟩ := h.around
  have hsplit : (pre ++ x :: post).map (·.label) =
      (pre.map (·.label) ++ [x.label]) ++ post.map (·.label) := by simp
  rw [hsplit] at hpos hmono
  exact ⟨hpre, hstep, fun c hc => hpos c (List.mem_append_left _ hc),
    (List.pairwise_append.mp hmono).1⟩

/-- In a run on one record at positive, non-decreasing times, the score never drops inside
an incident and is the documented one after every call exactly when no call is late. -/
theorem severity_iff (h : Lts.Run kcLts (Suspect.fresh ip t0) tr s)
    (hpos : ∀ c ∈ tr.map (·.label), 0 < c.now)
    (hmono : (tr.map (·.label)).Pairwise (·.now ≤ ·.now)) :
    (∀ pre x post, tr = pre ++ x :: post → SeverityKept pre x) ↔
      NoLateReport (tr.map (·.label)) := by
  constructor
  · intro hkept
    rw [noLateReport_iff]
    intro pre c post heq hlate
    obtain ⟨a, b, rfl, rfl, hb⟩ := List.map_eq_append_iff.mp heq
    obtain ⟨x, post', rfl, rfl, rfl⟩ := List.map_eq_cons_iff.mp hb
    obtain ⟨hpre, hstep, hpos', hmono'⟩ := run_step h hpos hmono
    have hle := (List.pairwise_append.mp hmono').2.2
    have hsum := run_summarises hpre fun y hy =>
      hpos' y.label (List.mem_append_left _ (List.mem_map_of_mem hy))
    exact (score_step hsum hstep hpos' (fun c hc => hle c hc _ (List.mem_singleton_self _))
      fun hnone => absurd hnone hlate.1).mp (hkept a x post' rfl).score_eq hlate
  · rintro hno pre x post rfl
    obtain ⟨hpre, hstep, hpos', hmono'⟩ := run_step h hpos hmono
    have hno' : NoLateReport (pre.map (·.label) ++ [x.label]) := by
      refine NoLateReport.of_append (b := post.map (·.label)) ?_
      simpa using hno
    have hbefore := score_documented hpre (fun c hc => hpos' c (List.mem_append_left _ hc))
      (List.pairwise_append.mp hmono').1 hno'.of_append
    have hafter := score_documented (hpre.snoc hstep) (by simpa using hpos') (by simpa using hmono')
      (by simpa using hno')
    rw [List.map_append, List.map_singleton] at hafter
    refine ⟨fun hreset => ?_, hafter⟩
    rw [hbefore, hafter, (run_tracks hpre).stage, (run_tracks (hpre.snoc hstep)).stage,
      List.map_append, List.map_singleton, incidentOf_concat]
    dsimp only
    cases hc : x.label.sighting with
    | none => exact Int.le_refl _
    | some y =>
      have hover : overdue (incidentOf (pre.map (·.label))) y.now = false := by
        rw [(run_tracks hpre).overdue_eq, sighting_now hc, Bool.eq_false_iff]
        exact fun he => hreset ⟨by simp [hc], he⟩
      simp only [addSighting, hover, Bool.false_eq_true, ↓reduceIte]
      exact documentedScore_append _ y

end Run

/-- A scan, a flood and a tunnel within 300 s: the score is 100 in the end. -/
def promptCalls : List KcCall :=
  [reported .portScan 100, reported .synFlood 200, reported .dnsTunnel 350]

theorem severity_iff_prompt :
    ∃ (tr : List (KcStep ℝ)) (s : Suspect ℝ), Lts.Run kcLts (Suspect.fresh 1 5) tr s ∧
      tr.map (·.label) = promptCalls ∧
        ∀ pre x post, tr = pre ++ x :: post → SeverityKept pre x := by
  have hexec : ((kcLts (R := ℝ)).exec (Suspect.fresh 1 5) promptCalls).map
      (fun r => r.1.map (·.label)) = some promptCalls := rfl
  obtain ⟨tr, s, hrun, hlabels⟩ := Lts.run_of_exec hexec
  refine ⟨tr, s, hrun, hlabels, (severity_iff hrun ?_ ?_).mpr ?_⟩ <;> rw [hlabels] <;> decide

/-- A flood one second after a scan scores 60. Another scan, in the seventh minute of the
same incident, takes the bonus away. -/
def droppedCalls : List KcCall :=
  [reported .portScan 1, reported .synFlood 2, reported .portScan 400]

theorem severity_dropped :
    ¬ ∀ (tr : List (KcStep ℝ)) (s : Suspect ℝ), Lts.Run kcLts (Suspect.fresh 1 5) tr s →
      (∀ c ∈ tr.map (·.label), 0 < c.now) → (tr.map (·.label)).Pairwise (·.now ≤ ·.now) →
      ∀ pre x post, tr = pre ++ x :: post → SeverityKept pre x := by
  intro hall
  have hexec : ((kcLts (R := ℝ)).exec (Suspect.fresh 1 5) droppedCalls).map (fun r =>
      r.1.getLast?.map fun x =>
        (x.before.kcScore, x.after.kcScore, x.before.incidentExpired x.label.now)) =
      some (some (60, 50, false)) := rfl
  obtain ⟨pre, x, hrun, hlabels, hlast⟩ := Lts.run_of_exec_last hexec
  obtain ⟨hbefore, hafter, hexpired⟩ : x.before.kcScore = 60 ∧ x.after.kcScore = 50 ∧
      x.before.incidentExpired x.label.now = false := by simpa only [Prod.mk.injEq] using hlast
  have hkept := hall (pre ++ [x]) x.after hrun (by rw [hlabels]; decide) (by rw [hlabels]; decide)
  have hle := (hkept pre x [] rfl).score_le fun hreset => by simp [hreset.2] at hexpired
  rw [hbefore, hafter] at hle
  exact absurd hle (by decide)

end TrafficAnalyzer
