import Mathlib.Data.List.Infix
import TrafficAnalyzer.Agent.Records

/-!
# The kill chain correlator

`advanceKillChain` resets an expired incident, raises the stage, records it in the
bitmask and accumulates the MITRE tags. C strings are lists of characters here, and
`strncat` keeps the bound that the source computes.
-/

namespace TrafficAnalyzer

variable {R : Type}

/-- `attack_to_stage`; a null name is not an attack. -/
def attackToStage : Option Attack → KillChainStage
  | none => .idle
  | some .portScan | some .nullScan | some .xmasScan | some .synfinScan | some .arpSpoof => .recon
  | some .synFlood | some .bruteForce => .exploit
  | some .dnsTunnel | some .amplification | some .icmpFlood => .exfil

/-- `attack_to_mitre`. -/
def attackToMitre : Option Attack → String
  | none => ""
  | some .portScan | some .nullScan | some .xmasScan | some .synfinScan => "T1046"
  | some .arpSpoof => "T1557"
  | some .synFlood => "T1498"
  | some .bruteForce => "T1110"
  | some .dnsTunnel => "T1071.004,T1048"
  | some .amplification => "T1498"
  | some .icmpFlood => "T1498"

/-- The `base` table of `calculate_kc_score`. -/
def kcBaseScore : KillChainStage → Int
  | .idle => 0
  | .recon => 20
  | .exploit => 50
  | .exfil => 70
  | .complete => 90

/-- `calculate_kc_score`. -/
def calculateKcScore (s : Suspect R) (now : Int) : Int :=
  let score := kcBaseScore s.kcStage
  let score :=
    if s.kcFirstSeen > 0 ∧ KillChainStage.exploit.toNat ≤ s.kcStage.toNat then
      if difftime now s.kcFirstSeen < 300 then score + 10 else score
    else score
  if score > 100 then 100 else score

/-- `strstr(hay, needle) != NULL`. -/
def strstr (hay needle : List Char) : Bool := decide (needle <:+: hay)

/-- `strncat(dst, src, n)`. -/
def strncat (dst src : List Char) (n : Nat) : List Char := dst ++ src.take n

/-- The tag accumulation at the end of `advance_kill_chain`. -/
def accumulateMitre (tags mitre : List Char) : List Char :=
  if mitre ≠ [] ∧ strstr tags mitre = false then
    let tags := if tags ≠ [] then strncat tags [','] (KC_MITRE_SIZE - tags.length - 1) else tags
    strncat tags mitre (KC_MITRE_SIZE - tags.length - 1)
  else tags

/-- The reset condition: an incident is open and its stage was entered more than
`KC_WINDOW_SEC` ago. -/
def Suspect.incidentExpired (s : Suspect R) (now : Int) : Bool :=
  decide (KillChainStage.idle.toNat < s.kcStage.toNat ∧
    KC_WINDOW_SEC < difftime now s.kcStageEntered)

/-- The fields that a reset clears. -/
def Suspect.resetIncident (s : Suspect R) : Suspect R :=
  { s with kcStage := .idle, kcStagesHit := 0, kcFirstSeen := 0, kcScore := 0, kcMitre := [] }

/-- The reset of an expired incident. -/
def Suspect.resetExpired (s : Suspect R) (now : Int) : Suspect R :=
  if s.incidentExpired now then s.resetIncident else s

/-- The time of the first activity of the incident. -/
def Suspect.markFirstSeen (s : Suspect R) (now : Int) : Suspect R :=
  if s.kcFirstSeen = 0 then { s with kcFirstSeen := now } else s

/-- The stage advances when the target lies further on. -/
def Suspect.raiseStage (s : Suspect R) (target : KillChainStage) (now : Int) : Suspect R :=
  if s.kcStage.toNat < target.toNat then { s with kcStage := target, kcStageEntered := now }
  else s

/-- The bitmask records the stage, and all three stages make the incident complete. -/
def Suspect.hitStage (s : Suspect R) (target : KillChainStage) : Suspect R :=
  let s := { s with kcStagesHit := s.kcStagesHit ||| (1 <<< target.toNat) }
  if s.kcStagesHit &&& 0xE = 0xE then { s with kcStage := .complete } else s

/-- `advance_kill_chain`. -/
def advanceKillChain (s : Suspect R) (attack : Option Attack) (now : Int) : Suspect R :=
  let target := attackToStage attack
  if target = .idle then s
  else
    let s := (((s.resetExpired now).markFirstSeen now).raiseStage target now).hitStage target
    let s := { s with kcMitre := accumulateMitre s.kcMitre (attackToMitre attack).toList }
    { s with kcScore := calculateKcScore s now }

/-! ## The frame of the kill chain -/

/-- The record `s` with the kill chain fields of `k`. -/
def Suspect.withChain (s k : Suspect R) : Suspect R :=
  { s with
    kcStage := k.kcStage, kcStageEntered := k.kcStageEntered, kcFirstSeen := k.kcFirstSeen
    kcStagesHit := k.kcStagesHit, kcScore := k.kcScore, kcMitre := k.kcMitre }

theorem withChain_trans {s x y : Suspect R} (hx : x = s.withChain x) (hy : y = x.withChain y) :
    y = s.withChain y :=
  hy.trans (by rw [hx]; rfl)

theorem resetExpired_frame (s : Suspect R) (now : Int) :
    s.resetExpired now = s.withChain (s.resetExpired now) := by
  unfold Suspect.resetExpired
  split <;> rfl

theorem markFirstSeen_frame (s : Suspect R) (now : Int) :
    s.markFirstSeen now = s.withChain (s.markFirstSeen now) := by
  unfold Suspect.markFirstSeen
  split <;> rfl

theorem raiseStage_frame (s : Suspect R) (target : KillChainStage) (now : Int) :
    s.raiseStage target now = s.withChain (s.raiseStage target now) := by
  unfold Suspect.raiseStage
  split <;> rfl

theorem hitStage_frame (s : Suspect R) (target : KillChainStage) :
    s.hitStage target = s.withChain (s.hitStage target) := by
  unfold Suspect.hitStage
  dsimp only
  split <;> rfl

/-- The kill chain changes its own fields only. -/
theorem advanceKillChain_frame (s : Suspect R) (attack : Option Attack) (now : Int) :
    advanceKillChain s attack now = s.withChain (advanceKillChain s attack now) := by
  unfold advanceKillChain
  dsimp only
  split
  · rfl
  · refine withChain_trans (x := ((((s.resetExpired now).markFirstSeen now).raiseStage _ now).hitStage
      _)) ?_ rfl
    exact withChain_trans (withChain_trans (withChain_trans (resetExpired_frame s now)
      (markFirstSeen_frame _ now)) (raiseStage_frame _ _ now)) (hitStage_frame _ _)

/-- Every attack has a stage, so only a null name leaves the record alone. -/
theorem attackToStage_some (a : Attack) : attackToStage (some a) ≠ .idle := by
  cases a <;> simp [attackToStage]

@[simp] theorem advanceKillChain_none (s : Suspect R) (now : Int) :
    advanceKillChain s none now = s := rfl

end TrafficAnalyzer
