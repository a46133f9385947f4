import TrafficAnalyzer.Lib.FirstSeen
import TrafficAnalyzer.Lib.Joined
import TrafficAnalyzer.Lib.Lts
import TrafficAnalyzer.Agent.Correlation

/-!
# The kill chain record of one source

`advance_kill_chain` takes the name of an attack as a text. Here it is called with any
text at any time, on one record. The specification is the incident: the recognised
attacks since the last reset, with their times. It is computed from the calls alone.

Results:
1. `advanceKillChainText_eq`: on texts the function is `advanceKillChain` on the attack
   that the text names.
2. `advance_tracks`, `advance_summarises`: one call keeps the record a summary of the
   incident.
3. `run_summarises`: so does every run from a fresh record.
-/

namespace TrafficAnalyzer

variable {R : Type}

/-! ## Attacks by name -/

/-- `attack_to_stage`, on the text. -/
def attackToStageText : Option String → KillChainStage
  | none => .idle
  | some attack =>
    if attack = "PORT_SCAN" ∨ attack = "NULL_SCAN" ∨ attack = "XMAS_SCAN" ∨
      attack = "SYNFIN_SCAN" ∨ attack = "ARP_SPOOF" then .recon
    else if attack = "SYN_FLOOD" ∨ attack = "BRUTE_FORCE" then .exploit
    else if attack = "DNS_TUNNEL" ∨ attack = "AMPLIFICATION" ∨ attack = "ICMP_FLOOD" then .exfil
    else .idle

/-- `attack_to_mitre`, on the text. -/
def attackToMitreText : Option String → String
  | none => ""
  | some attack =>
    if attack = "PORT_SCAN" then "T1046"
    else if attack = "NULL_SCAN" then "T1046"
    else if attack = "XMAS_SCAN" then "T1046"
    else if attack = "SYNFIN_SCAN" then "T1046"
    else if attack = "ARP_SPOOF" then "T1557"
    else if attack = "SYN_FLOOD" then "T1498"
    else if attack = "BRUTE_FORCE" then "T1110"
    else if attack = "DNS_TUNNEL" then "T1071.004,T1048"
    else if attack = "AMPLIFICATION" then "T1498"
    else if attack = "ICMP_FLOOD" then "T1498"
    else ""

/-- `advance_kill_chain`, on the text. -/
def advanceKillChainText (s : Suspect R) (attack : Option String) (now : Int) : Suspect R :=
  if attack = none then s
  else
    let target := attackToStageText attack
    if target = .idle then s
    else
      let s := (((s.resetExpired now).markFirstSeen now).raiseStage target now).hitStage target
      let s := { s with kcMitre := accumulateMitre s.kcMitre (attackToMitreText attack).toList }
      { s with kcScore := calculateKcScore s now }

/-- All attacks. -/
def attacks : List Attack :=
  [.portScan, .nullScan, .xmasScan, .synfinScan, .arpSpoof, .synFlood, .bruteForce, .dnsTunnel,
    .amplification, .icmpFlood]

theorem mem_attacks (a : Attack) : a ∈ attacks := by
  cases a <;> decide

/-- The attack that a text names. -/
def attackNamed (text : String) : Option Attack := attacks.find? (·.name = text)

@[simp] theorem attackNamed_name (a : Attack) : attackNamed a.name = some a := by
  cases a <;> decide

theorem attackNamed_eq_some {text : String} {a : Attack} :
    attackNamed text = some a ↔ text = a.name := by
  constructor
  · intro h
    simpa [eq_comm] using List.find?_some h
  · rintro rfl
    exact attackNamed_name a

/-- A text names an attack or is different from all names. -/
theorem attackNamed_cases (text : String) :
    (∃ a : Attack, text = a.name ∧ attackNamed text = some a) ∨
      ((∀ a : Attack, text ≠ a.name) ∧ attackNamed text = none) := by
  cases h : attackNamed text with
  | some a => exact .inl ⟨a, attackNamed_eq_some.mp h, rfl⟩
  | none =>
    refine .inr ⟨fun a ha => ?_, rfl⟩
    rw [attackNamed_eq_some.mpr ha] at h
    cases h

theorem attackToStageText_eq (text : String) :
    attackToStageText (some text) = attackToStage (attackNamed text) := by
  rcases attackNamed_cases text with ⟨a, rfl, h⟩ | ⟨hne, h⟩
  · rw [h]
    cases a <;> decide
  · have hnames : ∀ a ∈ attacks, text ≠ a.name := fun a _ => hne a
    simp only [attacks, List.forall_mem_cons, Attack.name] at hnames
    simp [attackToStageText, attackToStage, h, hnames]

theorem attackToMitreText_name (a : Attack) :
    attackToMitreText (some a.name) = attackToMitre (some a) := by
  cases a <;> decide

/-- On texts the function is `advanceKillChain` on the attack that the text names. -/
theorem advanceKillChainText_eq (s : Suspect R) (attack : Option String) (now : Int) :
    advanceKillChainText s attack now = advanceKillChain s (attack.bind attackNamed) now := by
  cases attack with
  | none => rfl
  | some text =>
    rw [Option.bind_some]
    rcases attackNamed_cases text with ⟨a, rfl, h⟩ | ⟨-, h⟩
    · rw [h]
      simp [advanceKillChainText, advanceKillChain, attackToStageText_eq, attackToMitreText_name]
    · rw [h]
      simp [advanceKillChainText, attackToStageText_eq, h, attackToStage]

/-! ## Incidents -/

/-- A recognised attack and its time. -/
structure Sighting where
  attack : Attack
  now : Int
deriving DecidableEq, Repr

/-- The recognised attacks since the last reset, in order. -/
abbrev KcIncident := List Sighting

def Sighting.stage (x : Sighting) : KillChainStage := attackToStage (some x.attack)

/-- The techniques of an attack. A DNS tunnel has two. -/
def techniques : Attack → List String
  | .portScan | .nullScan | .xmasScan | .synfinScan => ["T1046"]
  | .arpSpoof => ["T1557"]
  | .synFlood | .amplification | .icmpFlood => ["T1498"]
  | .bruteForce => ["T1110"]
  | .dnsTunnel => ["T1071.004", "T1048"]

def Attack.tags (a : Attack) : List (List Char) := (techniques a).map String.toList

/-- The stage that lies further on. -/
def KillChainStage.later (k k' : KillChainStage) : KillChainStage :=
  if k.toNat < k'.toNat then k' else k

/-- The maximum stage of the incident. -/
def peak (i : KcIncident) : KillChainStage := i.foldl (fun k x => k.later x.stage) .idle

/-- The sighting that last raised the maximum stage: the first one of that stage. -/
def peakSighting (i : KcIncident) : Option Sighting := i.find? fun x => x.stage = peak i

/-- All three stages occur. -/
def allSeen (i : KcIncident) : Prop :=
  ∀ k ∈ [KillChainStage.recon, .exploit, .exfil], ∃ x ∈ i, x.stage = k

instance (i : KcIncident) : Decidable (allSeen i) := inferInstanceAs (Decidable (∀ k ∈ _, _))

/-- The stage of the incident. -/
def incidentStage (i : KcIncident) : KillChainStage := if allSeen i then .complete else peak i

/-- The distinct techniques of the incident, in order of first occurrence. -/
def incidentTags (i : KcIncident) : List (List Char) := (i.flatMap (·.attack.tags)).eraseDups

/-- The correlation window of the incident is over at `now`. -/
def overdue (i : KcIncident) (now : Int) : Bool :=
  (peakSighting i).any fun x => KC_WINDOW_SEC < difftime now x.now

/-- The incident after one more sighting. -/
def addSighting (i : KcIncident) (x : Sighting) : KcIncident :=
  if overdue i x.now then [x] else i ++ [x]

theorem stage_cases (x : Sighting) : x.stage = .recon ∨ x.stage = .exploit ∨ x.stage = .exfil :=
  attackToStage_bit x.attack

theorem peak_append (i : KcIncident) (x : Sighting) : peak (i ++ [x]) = (peak i).later x.stage := by
  simp [peak]

theorem stage_le_peak {i : KcIncident} {x : Sighting} (hx : x ∈ i) :
    x.stage.toNat ≤ (peak i).toNat := by
  induction i using List.reverseRecOn with
  | nil => cases hx
  | append_singleton i y ih =>
    rw [peak_append, KillChainStage.later]
    rcases List.mem_append.mp hx with hmem | hlast
    · split
      · next hlt => exact Nat.le_of_lt (Nat.lt_of_le_of_lt (ih hmem) hlt)
      · exact ih hmem
    · obtain rfl := List.mem_singleton.mp hlast
      split
      · exact Nat.le_refl _
      · next hle => exact Nat.le_of_not_lt hle

theorem peak_mem {i : KcIncident} (hi : i ≠ []) : ∃ x ∈ i, x.stage = peak i := by
  induction i using List.reverseRecOn with
  | nil => exact absurd rfl hi
  | append_singleton i y ih =>
    rw [peak_append, KillChainStage.later]
    split
    · exact ⟨y, by simp, rfl⟩
    · next hle =>
      have hne : i ≠ [] := by
        rintro rfl
        rcases stage_cases y with h | h | h <;> simp [h, peak, KillChainStage.toNat] at hle
      obtain ⟨x, hx, hstage⟩ := ih hne
      exact ⟨x, List.mem_append_left _ hx, hstage⟩

/-- A sighting raises the maximum stage, or the sighting that raised it last stays. -/
theorem peakSighting_append (i : KcIncident) (x : Sighting) :
    peakSighting (i ++ [x]) =
      if (peak i).toNat < x.stage.toNat then some x else peakSighting i := by
  unfold peakSighting
  rw [List.find?_append, peak_append, KillChainStage.later]
  split
  · next hlt =>
    have hnone : i.find? (fun y => y.stage = x.stage) = none := by
      rw [List.find?_eq_none]
      intro y hy
      have hle := stage_le_peak hy
      simpa using fun he : y.stage = x.stage => absurd (he ▸ hle) (Nat.not_le.mpr hlt)
    simp [hnone]
  · next hle =>
    cases hfind : i.find? (fun y => y.stage = peak i) with
    | some y => rfl
    | none =>
      have hnil : i = [] := by
        by_contra hne
        obtain ⟨y, hy, hstage⟩ := peak_mem hne
        simpa [hstage] using List.find?_eq_none.mp hfind y hy
      subst hnil
      rcases stage_cases x with h | h | h <;> simp [h, peak, KillChainStage.toNat] at hle

/-- The sighting that raised the maximum stage last is further on than all before it, and
none after it is further on. -/
theorem peakSighting_spec {i : KcIncident} {x : Sighting} (h : peakSighting i = some x) :
    ∃ pre post, i = pre ++ x :: post ∧ (∀ y ∈ pre, y.stage.toNat < x.stage.toNat) ∧
      ∀ y ∈ post, y.stage.toNat ≤ x.stage.toNat := by
  obtain ⟨hpeak, pre, post, rfl, hpre⟩ := List.find?_eq_some_iff_append.mp h
  have hstage : x.stage = peak (pre ++ x :: post) := by simpa using hpeak
  refine ⟨pre, post, rfl, fun y hy => ?_, fun y hy => ?_⟩
  · have hle := stage_le_peak (List.mem_append_left (x :: post) hy)
    have hne : y.stage ≠ peak (pre ++ x :: post) := by simpa using hpre y hy
    rw [hstage]
    exact Nat.lt_of_le_of_ne hle fun he => hne (toNat_injective.mp he)
  · rw [hstage]
    exact stage_le_peak (by simp [hy])

/-! ## Techniques -/

/-- The techniques of all attacks. -/
def tagWords : List (List Char) :=
  ["T1046", "T1557", "T1498", "T1110", "T1071.004", "T1048"].map String.toList

theorem tagWords_tags : Joined.Tags ',' 'T' tagWords where
  sep_ne := by decide
  starts := by
    have h : ∀ w ∈ tagWords, w = 'T' :: w.tail ∧ 'T' ∉ w.tail := by decide
    exact fun w hw => ⟨w.tail, h w hw⟩
  antichain := by decide

theorem tags_subset (a : Attack) : a.tags ⊆ tagWords := by
  have h : ∀ a ∈ attacks, ∀ t ∈ a.tags, t ∈ tagWords := by decide
  exact fun t => h a (mem_attacks a) t

theorem tags_blocks : FirstSeen.Blocks fun x : Sighting => x.attack.tags where
  nonempty x := by
    have h : ∀ a ∈ attacks, a.tags ≠ [] := by decide
    exact h _ (mem_attacks _)
  nodup x := by
    have h : ∀ a ∈ attacks, a.tags.Nodup := by decide
    exact h _ (mem_attacks _)
  apart x y := by
    have h : ∀ a ∈ attacks, ∀ b ∈ attacks, a.tags = b.tags ∨ ∀ t ∈ a.tags, t ∉ b.tags := by decide
    exact (h _ (mem_attacks _) _ (mem_attacks _)).imp_right fun hd t => hd t

/-- The text of `attack_to_mitre` is the list of the techniques. -/
theorem attackToMitre_join (a : Attack) :
    (attackToMitre (some a)).toList = [','].intercalate a.tags := by
  have h : ∀ a ∈ attacks, (attackToMitre (some a)).toList = [','].intercalate a.tags := by decide
  exact h a (mem_attacks a)

theorem incidentTags_subset (i : KcIncident) : incidentTags i ⊆ tagWords := fun t ht => by
  obtain ⟨x, -, hx⟩ := List.mem_flatMap.mp (List.mem_eraseDups.mp ht)
  exact tags_subset x.attack hx

/-- The tags of an incident fit into the buffer. -/
theorem incidentTags_fits (i : KcIncident) :
    ([','].intercalate (incidentTags i)).length < KC_MITRE_SIZE :=
  Nat.lt_of_le_of_lt
    (Joined.join_length_le_of_nodup (incidentTags_subset i) (FirstSeen.nodup_eraseDups _))
    (by decide)

/-- `strncat` appends the whole text when there is room for it. -/
theorem strncat_fits (dst src : List Char) {n : Nat} (h : src.length ≤ n) :
    strncat dst src n = dst ++ src := by
  rw [strncat, List.take_of_length_le h]

/-- The accumulation searches for the text of the attack in the text of the tags, and so
adds the techniques of an attack once. -/
theorem accumulateMitre_incident (i : KcIncident) (x : Sighting) :
    accumulateMitre ([','].intercalate (incidentTags i)) (attackToMitre (some x.attack)).toList =
      [','].intercalate (incidentTags (i ++ [x])) := by
  have hne := tags_blocks.nonempty x
  have hwords := tags_subset x.attack
  have hfits := incidentTags_fits (i ++ [x])
  obtain ⟨text, htext⟩ := tagWords_tags.join_starts hwords hne
  have hmitre : [','].intercalate x.attack.tags ≠ [] := htext ▸ List.cons_ne_nil 'T' text
  -- the text of the tags of the attack is found exactly where its tags are
  have hfound := tagWords_tags.join_infix_iff hwords (incidentTags_subset i) hne
  rw [attackToMitre_join, accumulateMitre, strstr]
  by_cases hknown : x.attack.tags <:+: incidentTags i
  · have hsame : incidentTags (i ++ [x]) = incidentTags i :=
      FirstSeen.eraseDups_concat_known hknown
    simp [hsame, hfound.mpr hknown]
  · have hnew : incidentTags (i ++ [x]) = incidentTags i ++ x.attack.tags :=
      tags_blocks.eraseDups_concat_new hknown
    have habsent : ¬ [','].intercalate x.attack.tags <:+: [','].intercalate (incidentTags i) :=
      fun h => hknown (hfound.mp h)
    rw [hnew] at hfits ⊢
    simp only [hmitre, habsent, ne_eq, not_false_eq_true, decide_false, and_self, ↓reduceIte]
    by_cases hempty : incidentTags i = []
    · rw [hempty, List.nil_append] at hfits ⊢
      simp only [List.intercalate_nil, not_true_eq_false, ↓reduceIte]
      exact strncat_fits _ _ (by simpa using Nat.le_sub_one_of_lt hfits)
    · have htags : [','].intercalate (incidentTags i) ≠ [] := by
        obtain ⟨text, h⟩ := tagWords_tags.join_starts (incidentTags_subset i) hempty
        exact h ▸ List.cons_ne_nil 'T' text
      rw [Joined.join_append hempty hne] at hfits ⊢
      generalize [','].intercalate (incidentTags i) = tags at *
      generalize [','].intercalate x.attack.tags = mitre at *
      simp only [List.length_append, List.length_cons] at hfits
      have hcomma := strncat_fits tags [','] (n := KC_MITRE_SIZE - tags.length - 1)
        (by simp only [List.length_singleton]; omega)
      simp only [htags, not_false_eq_true, ↓reduceIte, hcomma, List.length_append,
        List.length_singleton]
      rw [strncat_fits _ _ (by omega), List.append_assoc, List.singleton_append]

/-! ## The record -/

/-- The three fields of the record that follow the stages of the incident. -/
structure Tracks (i : KcIncident) (s : Suspect R) : Prop where
  stagesHit : ∀ n, s.kcStagesHit.testBit n = true ↔ ∃ x ∈ i, x.stage.toNat = n
  stage : s.kcStage = incidentStage i
  entered : ∀ x, peakSighting i = some x → s.kcStageEntered = x.now

/-- The record summarises the incident. -/
structure Summarises (i : KcIncident) (s : Suspect R) : Prop extends Tracks i s where
  firstSeen : s.kcFirstSeen = (i.head?.map (·.now)).getD 0
  mitre : s.kcMitre = [','].intercalate (incidentTags i)
  mitreFits : s.kcMitre.length < KC_MITRE_SIZE
  mitreDistinct : (incidentTags i).Nodup
  score_nonneg : 0 ≤ s.kcScore
  score_le : s.kcScore ≤ 100

/-! ## One call -/

/-- The part of `advance_kill_chain` after the reset. -/
def Suspect.sighted (s : Suspect R) (x : Sighting) : Suspect R :=
  let s := ((s.markFirstSeen x.now).raiseStage x.stage x.now).hitStage x.stage
  let s := { s with kcMitre := accumulateMitre s.kcMitre (attackToMitre (some x.attack)).toList }
  { s with kcScore := calculateKcScore s x.now }

theorem advanceKillChain_sighted (s : Suspect R) (x : Sighting) :
    advanceKillChain s (some x.attack) x.now = (s.resetExpired x.now).sighted x := by
  simp [advanceKillChain, attackToStage_some, Suspect.sighted, Sighting.stage]

theorem sighted_stagesHit (s : Suspect R) (x : Sighting) :
    (s.sighted x).kcStagesHit = s.kcStagesHit ||| 1 <<< x.stage.toNat := by
  simp only [Suspect.sighted, Suspect.hitStage, Suspect.raiseStage, Suspect.markFirstSeen]
  split_ifs <;> rfl

theorem sighted_stage (s : Suspect R) (x : Sighting) :
    (s.sighted x).kcStage =
      if allStages (s.sighted x).kcStagesHit then .complete else s.kcStage.later x.stage := by
  rw [sighted_stagesHit]
  simp only [Suspect.sighted, Suspect.hitStage, Suspect.raiseStage, Suspect.markFirstSeen,
    KillChainStage.later, allStages, decide_eq_true_eq]
  split_ifs <;> rfl

theorem sighted_entered (s : Suspect R) (x : Sighting) :
    (s.sighted x).kcStageEntered =
      if s.kcStage.toNat < x.stage.toNat then x.now else s.kcStageEntered := by
  simp only [Suspect.sighted, Suspect.hitStage, Suspect.raiseStage, Suspect.markFirstSeen]
  split_ifs <;> rfl

theorem sighted_firstSeen (s : Suspect R) (x : Sighting) :
    (s.sighted x).kcFirstSeen = if s.kcFirstSeen = 0 then x.now else s.kcFirstSeen := by
  simp only [Suspect.sighted, Suspect.hitStage, Suspect.raiseStage, Suspect.markFirstSeen]
  split_ifs <;> rfl

theorem sighted_mitre (s : Suspect R) (x : Sighting) :
    (s.sighted x).kcMitre =
      accumulateMitre s.kcMitre (attackToMitre (some x.attack)).toList := by
  simp only [Suspect.sighted, Suspect.hitStage, Suspect.raiseStage, Suspect.markFirstSeen]
  split_ifs <;> rfl

/-- The score of a call is computed from the stage and the first time it leaves. -/
theorem sighted_score (s : Suspect R) (x : Sighting) :
    (s.sighted x).kcScore = calculateKcScore (s.sighted x) x.now := rfl

theorem calculateKcScore_bounds (s : Suspect R) (now : Int) :
    0 ≤ calculateKcScore s now ∧ calculateKcScore s now ≤ 100 := by
  have hbase : 0 ≤ kcBaseScore s.kcStage ∧ kcBaseScore s.kcStage ≤ 90 := by
    cases s.kcStage <;> decide
  unfold calculateKcScore
  dsimp only
  split_ifs <;> omega

variable {i : KcIncident} {s : Suspect R}

theorem tracks_nil (hhits : s.kcStagesHit = 0) (hstage : s.kcStage = .idle) :
    Tracks [] s where
  stagesHit n := by simp [hhits]
  stage := by rw [hstage]; decide
  entered x hx := by cases hx

/-- The bitmask of the stages of an incident has all three bits when all three occur. -/
theorem allStages_iff_allSeen {hits : Nat}
    (h : ∀ n, hits.testBit n = true ↔ ∃ x ∈ i, x.stage.toNat = n) : allStages hits ↔ allSeen i := by
  have hbit (k : KillChainStage) : hits.testBit k.toNat = true ↔ ∃ x ∈ i, x.stage = k := by
    simp only [h, toNat_injective]
  rw [allStages_iff]
  simp only [allSeen, List.forall_mem_cons]
  exact and_congr (hbit .recon) (and_congr (hbit .exploit) ((hbit .exfil).trans (by simp)))

theorem allSeen_append (h : allSeen i) (x : Sighting) : allSeen (i ++ [x]) := fun k hk => by
  obtain ⟨y, hy, hstage⟩ := h k hk
  exact ⟨y, List.mem_append_left _ hy, hstage⟩

/-- Unless it is complete, the stage of the record is the maximum stage. -/
theorem Tracks.stage_peak (h : Tracks i s) (hnot : ¬ allSeen i) : s.kcStage = peak i := by
  rw [h.stage, incidentStage, if_neg hnot]

/-- A complete incident cannot be raised, and neither can the record. -/
theorem Tracks.raises_iff (h : Tracks i s) (x : Sighting) :
    s.kcStage.toNat < x.stage.toNat ↔ (peak i).toNat < x.stage.toNat := by
  by_cases hall : allSeen i
  · obtain ⟨y, hy, hstage⟩ := hall .exfil (by simp)
    have hpeak := stage_le_peak hy
    have hx : x.stage.toNat ≤ 3 := by
      rcases stage_cases x with h | h | h <;> simp [h, KillChainStage.toNat]
    rw [hstage] at hpeak
    rw [h.stage, incidentStage, if_pos hall]
    exact iff_of_false (Nat.not_lt.mpr (Nat.le_succ_of_le hx))
      (Nat.not_lt.mpr (Nat.le_trans hx hpeak))
  · rw [h.stage_peak hall]

theorem Tracks.sighted (h : Tracks i s) (x : Sighting) : Tracks (i ++ [x]) (s.sighted x) := by
  have hhits : ∀ n, (s.sighted x).kcStagesHit.testBit n = true ↔
      ∃ y ∈ i ++ [x], y.stage.toNat = n := fun n => by
    rw [sighted_stagesHit, Nat.testBit_or, Bool.or_eq_true, h.stagesHit, Nat.one_shiftLeft,
      Nat.testBit_two_pow, decide_eq_true_eq]
    simp only [List.mem_append, List.mem_singleton, or_and_right, exists_or, exists_eq_left]
  refine ⟨hhits, ?_, fun y hy => ?_⟩
  · rw [sighted_stage, incidentStage, if_congr (allStages_iff_allSeen hhits) rfl rfl]
    split
    · rfl
    · next hnot => rw [h.stage_peak fun hall => hnot (allSeen_append hall x), peak_append]
  · rw [peakSighting_append] at hy
    rw [sighted_entered, if_congr (h.raises_iff x) rfl rfl]
    split at hy
    · next hlt => rw [if_pos hlt, Option.some.inj hy]
    · next hle => rw [if_neg hle, h.entered y hy]

theorem peakSighting_eq_none : peakSighting i = none ↔ i = [] := by
  constructor
  · intro h
    by_contra hne
    obtain ⟨y, hy, hstage⟩ := peak_mem hne
    simpa [hstage] using List.find?_eq_none.mp h y hy
  · rintro rfl
    rfl

/-- The record is idle exactly when nothing has been seen. -/
theorem Tracks.idle_lt_iff (h : Tracks i s) :
    KillChainStage.idle.toNat < s.kcStage.toNat ↔ i ≠ [] := by
  rw [h.stage, incidentStage]
  constructor
  · rintro hlt rfl
    exact absurd hlt (by decide)
  · intro hne
    obtain ⟨x, hx⟩ := List.exists_mem_of_ne_nil i hne
    split
    · decide
    · refine Nat.lt_of_lt_of_le ?_ (stage_le_peak hx)
      rcases stage_cases x with h | h | h <;> rw [h] <;> decide

/-- The reset of the record is the reset of the incident. -/
theorem Tracks.overdue_eq (h : Tracks i s) (now : Int) : overdue i now = s.incidentExpired now := by
  unfold overdue Suspect.incidentExpired
  cases hpeak : peakSighting i with
  | none => simp [h.idle_lt_iff, peakSighting_eq_none.mp hpeak]
  | some x =>
    have hne : i ≠ [] := List.ne_nil_of_mem (List.mem_of_find?_eq_some hpeak)
    simp [h.idle_lt_iff, hne, h.entered x hpeak]

/-- The incident that a sighting at `now` continues. -/
def continued (i : KcIncident) (now : Int) : KcIncident := if overdue i now then [] else i

theorem addSighting_eq (i : KcIncident) (x : Sighting) :
    addSighting i x = continued i x.now ++ [x] := by
  unfold addSighting continued
  split <;> rfl

theorem Tracks.reset (h : Tracks i s) (now : Int) :
    Tracks (continued i now) (s.resetExpired now) := by
  unfold continued Suspect.resetExpired
  rw [h.overdue_eq]
  split
  · exact tracks_nil rfl rfl
  · exact h

/-- One call keeps the stages. -/
theorem advance_tracks (h : Tracks i s) (x : Sighting) :
    Tracks (addSighting i x) (advanceKillChain s (some x.attack) x.now) := by
  rw [addSighting_eq, advanceKillChain_sighted]
  exact (h.reset x.now).sighted x

theorem summarises_nil (h : Tracks [] s) (hfirst : s.kcFirstSeen = 0) (hmitre : s.kcMitre = [])
    (hscore : s.kcScore = 0) : Summarises [] s where
  toTracks := h
  firstSeen := hfirst
  mitre := hmitre
  mitreFits := by rw [hmitre]; decide
  mitreDistinct := FirstSeen.nodup_eraseDups _
  score_nonneg := by rw [hscore]
  score_le := by rw [hscore]; decide

/-- A time of 0 would be taken for no time at all. -/
theorem Summarises.sighted (h : Summarises i s) (hpos : ∀ y ∈ i, 0 < y.now) (x : Sighting) :
    Summarises (i ++ [x]) (s.sighted x) where
  toTracks := h.toTracks.sighted x
  firstSeen := by
    rw [sighted_firstSeen, h.firstSeen]
    cases i with
    | nil => rfl
    | cons y i =>
      have hy := hpos y List.mem_cons_self
      exact if_neg (Int.ne_of_gt hy)
  mitre := by rw [sighted_mitre, h.mitre, accumulateMitre_incident]
  mitreFits := by
    rw [sighted_mitre, h.mitre, accumulateMitre_incident]
    exact incidentTags_fits _
  mitreDistinct := FirstSeen.nodup_eraseDups _
  score_nonneg := (calculateKcScore_bounds _ _).1
  score_le := (calculateKcScore_bounds _ _).2

theorem Summarises.reset (h : Summarises i s) (now : Int) :
    Summarises (continued i now) (s.resetExpired now) := by
  have hreset := h.toTracks.reset now
  unfold continued Suspect.resetExpired at *
  rw [h.overdue_eq] at *
  split
  · next he => exact summarises_nil (by simpa [he] using hreset) rfl rfl rfl
  · exact h

theorem continued_subset {i : KcIncident} {now : Int} {x : Sighting} (hx : x ∈ continued i now) :
    x ∈ i := by
  unfold continued at hx
  split at hx
  · cases hx
  · exact hx

/-- One call keeps the record a summary of the incident. -/
theorem advance_summarises (h : Summarises i s) (hpos : ∀ y ∈ i, 0 < y.now) (x : Sighting) :
    Summarises (addSighting i x) (advanceKillChain s (some x.attack) x.now) := by
  rw [addSighting_eq, advanceKillChain_sighted]
  exact (h.reset x.now).sighted (fun y hy => hpos y (continued_subset hy)) x

/-! ## Runs on one record -/

/-- One call of `advance_kill_chain`. -/
structure KcCall where
  attack : Option String
  now : Int
deriving DecidableEq, Repr

/-- The recognised attack of a call. -/
def KcCall.sighting (c : KcCall) : Option Sighting :=
  (c.attack.bind attackNamed).map fun a => ⟨a, c.now⟩

/-- One record, fresh at first, one call a step. -/
def kcLts [Double R] : Lts (Suspect R) KcCall where
  init s := ∃ ip now, s = Suspect.fresh ip now
  step s c := some (advanceKillChainText s c.attack c.now)

/-- The recognised attacks since the last reset, computed from the calls alone. -/
def incidentOf (cs : List KcCall) : KcIncident :=
  (cs.filterMap KcCall.sighting).foldl addSighting []

theorem incidentOf_concat (cs : List KcCall) (c : KcCall) :
    incidentOf (cs ++ [c]) =
      match c.sighting with
      | none => incidentOf cs
      | some x => addSighting (incidentOf cs) x := by
  unfold incidentOf
  rw [List.filterMap_append]
  cases h : c.sighting <;> simp [h]

theorem advance_sighting (s : Suspect R) (c : KcCall) :
    advanceKillChainText s c.attack c.now =
      match c.sighting with
      | none => s
      | some x => advanceKillChain s (some x.attack) x.now := by
  rw [advanceKillChainText_eq, KcCall.sighting]
  cases c.attack.bind attackNamed <;> rfl

theorem sighting_now {c : KcCall} {x : Sighting} (h : c.sighting = some x) : x.now = c.now := by
  obtain ⟨a, -, rfl⟩ := Option.map_eq_some_iff.mp h
  rfl

/-- The sightings of the incident are calls. -/
theorem incidentOf_calls {cs : List KcCall} {x : Sighting} (hx : x ∈ incidentOf cs) :
    ∃ c ∈ cs, c.now = x.now := by
  induction cs using List.reverseRecOn with
  | nil => cases hx
  | append_singleton cs c ih =>
    rw [incidentOf_concat] at hx
    cases hc : c.sighting with
    | none =>
      rw [hc] at hx
      obtain ⟨c', hc', hnow⟩ := ih hx
      exact ⟨c', List.mem_append_left _ hc', hnow⟩
    | some y =>
      rw [hc] at hx
      simp only [addSighting_eq] at hx
      rcases List.mem_append.mp hx with hold | hlast
      · obtain ⟨c', hc', hnow⟩ := ih (continued_subset hold)
        exact ⟨c', List.mem_append_left _ hc', hnow⟩
      · obtain rfl := List.mem_singleton.mp hlast
        exact ⟨c, by simp, (sighting_now hc).symm⟩

variable [Double R]

/-- The stages of the record are those of the incident, at any times. -/
theorem run_tracks {ip : UInt32} {t0 : Int} {s : Suspect R}
    {tr : List (Lts.Step (Suspect R) KcCall)} (h : Lts.Run kcLts (Suspect.fresh ip t0) tr s) :
    Tracks (incidentOf (tr.map (·.label))) s := by
  induction h with
  | nil => exact tracks_nil rfl rfl
  | @snoc tr s s' c hr hstep ih =>
    obtain rfl : advanceKillChainText s c.attack c.now = s' := Option.some.inj hstep
    rw [List.map_append, List.map_singleton, incidentOf_concat, advance_sighting]
    cases c.sighting with
    | none => exact ih
    | some x => exact advance_tracks ih x

/-- The record after every call of a run summarises the recognised attacks since the last
reset: the bitmask is the set of their stages; the stage is IDLE, COMPLETE or the maximum;
the two times are those of the first attack and of the one that last raised the maximum;
the tags are the distinct techniques; the score is between 0 and 100. -/
theorem run_summarises {ip : UInt32} {t0 : Int} {s : Suspect R}
    {tr : List (Lts.Step (Suspect R) KcCall)}
    (h : Lts.Run kcLts (Suspect.fresh ip t0) tr s) (hpos : ∀ x ∈ tr, 0 < x.label.now) :
    Summarises (incidentOf (tr.map (·.label))) s := by
  induction h with
  | nil => exact summarises_nil (tracks_nil rfl rfl) rfl rfl rfl
  | @snoc tr s s' c hr hstep ih =>
    have hpos' : ∀ x ∈ tr, 0 < x.label.now := fun x hx => hpos x (List.mem_append_left _ hx)
    have hsum := ih hpos'
    have htimes : ∀ y ∈ incidentOf (tr.map (·.label)), 0 < y.now := fun y hy => by
      obtain ⟨c', hc', hnow⟩ := incidentOf_calls hy
      obtain ⟨x, hx, rfl⟩ := List.mem_map.mp hc'
      exact hnow ▸ hpos' x hx
    obtain rfl : advanceKillChainText s c.attack c.now = s' := Option.some.inj hstep
    rw [List.map_append, List.map_singleton, incidentOf_concat, advance_sighting]
    cases c.sighting with
    | none => exact hsum
    | some x => exact advance_summarises hsum htimes x

/-- A scan, an unknown name, a flood, a tunnel and a brute-force attack: four sightings. -/
def mixedCalls : List KcCall :=
  [⟨some "PORT_SCAN", 10⟩, ⟨some "TELNET", 15⟩, ⟨some "ICMP_FLOOD", 20⟩, ⟨none, 25⟩,
    ⟨some "DNS_TUNNEL", 30⟩, ⟨some "BRUTE_FORCE", 40⟩]

theorem run_summarises_mixed :
    ∃ (tr : List (Lts.Step (Suspect ℝ) KcCall)) (s : Suspect ℝ),
      Lts.Run kcLts (Suspect.fresh 1 5) tr s ∧ tr.map (·.label) = mixedCalls ∧
        Summarises [⟨.portScan, 10⟩, ⟨.icmpFlood, 20⟩, ⟨.dnsTunnel, 30⟩, ⟨.bruteForce, 40⟩] s := by
  have hexec : ((kcLts (R := ℝ)).exec (Suspect.fresh 1 5) mixedCalls).map
      (fun r => r.1.map (·.label)) = some mixedCalls := rfl
  obtain ⟨tr, s, hrun, hlabels⟩ := Lts.run_of_exec hexec
  have hpos : ∀ c ∈ mixedCalls, 0 < c.now := by decide
  have hincident : incidentOf mixedCalls =
      [⟨.portScan, 10⟩, ⟨.icmpFlood, 20⟩, ⟨.dnsTunnel, 30⟩, ⟨.bruteForce, 40⟩] := by decide
  have hsum := run_summarises hrun fun x hx => hpos x.label (hlabels ▸ List.mem_map_of_mem hx)
  rw [hlabels, hincident] at hsum
  exact ⟨tr, s, hrun, hlabels, hsum⟩

end TrafficAnalyzer
