import TrafficAnalyzer.Agent.Correlation
import TrafficAnalyzer.Agent.Incidents

/-!
# From a detection to the kill chain of its source

Each IPv4 branch of `analyze_packet` advances the kill chain of the source and publishes the
stage and the score of the record. The ARP branch does neither: it publishes the constants
of RECON, and the record of the sender, if there is one, stays as it is.

* `history_recon`: a record in the stage RECON has the RECON bit and the score 20.
* `feeds_iff`: when a report feeds the kill chain of its source.
* `arpSpoof_unfed`: a reported sender without a record.
-/

namespace TrafficAnalyzer

variable {R : Type}

/-- The address that a frame is attributed to: the IPv4 source, or the sender of an ARP
reply. -/
def attributedIp (p : Bytes) : Option UInt32 :=
  match classify p with
  | .ipv4 src _ => some src
  | .arpReply _ sender => some sender
  | .ignored => none

/-- The frame is an ARP reply. -/
def isArpReply (p : Bytes) : Bool :=
  match classify p with
  | .arpReply _ _ => true
  | _ => false

/-- The call leaves a record of `ip` with the stage bit of `a`, and publishes one event,
with the stage and the score of that record. -/
def Feeds [Double R] (ip : UInt32) (a : Attack) (x : Seen R) : Prop :=
  ∃ outcome s e, analyzePacket x.before x.label.packet x.label.now = some (x.after, outcome) ∧
    x.after.record ip = some s ∧ s.kcStagesHit.testBit (attackToStage (some a)).toNat = true ∧
    outcome.published = [e] ∧ e.killChainStage = s.kcStage ∧ e.kcScore = s.kcScore

/-! ## Records in the stage RECON -/

/-- What the ARP branch publishes fits a record in the stage RECON. -/
def Suspect.reconAgrees (s : Suspect R) : Prop :=
  s.kcStage = .recon → s.kcStagesHit.testBit KillChainStage.recon.toNat = true ∧ s.kcScore = 20

theorem calculateKcScore_recon {s : Suspect R} (h : s.kcStage = .recon) (now : Int) :
    calculateKcScore s now = 20 := by
  simp [calculateKcScore, h, kcBaseScore, KillChainStage.toNat]

/-- A report of a later stage takes the record out of RECON. -/
theorem sighted_reconAgrees (s : Suspect R) (x : Sighting) : (s.sighted x).reconAgrees := by
  intro hstage
  have hrecon : x.stage = .recon := by
    rw [sighted_stage] at hstage
    split at hstage
    · cases hstage
    · unfold KillChainStage.later at hstage
      split at hstage
      · exact hstage
      · next hlater =>
        rw [hstage] at hlater
        rcases attackToStage_bit x.attack with h | h | h
        · exact h
        · simp [Sighting.stage, h, KillChainStage.toNat] at hlater
        · simp [Sighting.stage, h, KillChainStage.toNat] at hlater
  refine ⟨?_, by rw [sighted_score, calculateKcScore_recon hstage]⟩
  rw [sighted_stagesHit, Nat.testBit_or, (testBit_stage x.stage .recon).mpr hrecon, Bool.or_true]

variable [Double R]

/-- The one event of a reported packet carries the stage and the score of its record. -/
theorem result_published {a : Arrival R} {atk : Attack} (h : a.attack = some atk) :
    ∃ e, a.result.2.published = [e] ∧ e.killChainStage = a.result.1.kcStage ∧
      e.kcScore = a.result.1.kcScore := by
  unfold Arrival.attack at h
  unfold Arrival.result transportStep
  cases hbody : a.body with
  | other =>
    rw [hbody] at h
    cases h
  | _ => exact ⟨_, rfl, rfl, rfl⟩

theorem result_reconAgrees {a : Arrival R} (h : a.record.reconAgrees) :
    a.result.1.reconAgrees := by
  obtain ⟨_, _, hstage, _, _, hhits, hscore, _⟩ := detectStep_frame a.record a.body a.length a.now
  rw [Arrival.result, transportStep_record]
  cases hatk : (detectStep a.record a.body a.length a.now).2 with
  | none => simpa only [advanceKillChain_none, Suspect.reconAgrees, hstage, hhits, hscore] using h
  | some atk =>
    rw [advanceKillChain_sighted _ ⟨atk, a.now⟩]
    exact sighted_reconAgrees _ _

theorem history_recon {ip : UInt32} {as : List (Arrival R)} {s : Suspect R}
    (h : History ip as s) : s.reconAgrees := by
  induction h with
  | first ha =>
    refine result_reconAgrees ?_
    rw [ha]
    intro hstage
    cases hstage
  | next _ ha ih =>
    refine result_reconAgrees ?_
    rw [ha]
    exact ih

/-! ## Reports -/

/-- A reported IPv4 packet leaves the record of its source advanced, and its event is
built from that record. -/
theorem feeds_ipv4 {x : Seen R} {ip : UInt32} {body : Transport} {a : Attack}
    (hc : classify x.label.packet = .ipv4 ip body)
    (hx : analyzerLts.step x.before x.label = some x.after) (h : Reports x a) : Feeds ip a x := by
  obtain ⟨ar, harr, hatk⟩ := (reports_ipv4 hc hx a).mp h
  have hout : (processFrame x.before x.label.packet x.label.now).2 = ar.result.2 := by
    rw [processFrame_outcome x.before hc, harr]
  have hbit : ar.result.1.kcStagesHit.testBit (attackToStage (some a)).toNat = true := by
    rw [result_stagesHit, hatk, Nat.testBit_or, (testBit_stage _ _).mpr rfl, Bool.or_true]
  obtain ⟨e, hpub, hstage, hscore⟩ := result_published hatk
  refine ⟨ar.result.2, ar.result.1, e, ?_, record_of_arrival hx harr, hbit, hpub, hstage, hscore⟩
  rw [analyzePacket_eq, ← hout, ← analyzerLts_step.mp hx]

/-- The ARP branch on a reply that it reports. -/
theorem processFrame_arp {st : Analyzer R} {p : Bytes} {mac : Bytes} {ip : UInt32} {now : Int}
    (hc : classify p = .arpReply mac ip) (hret : (processFrame st p now).2.ret = 1) :
    processFrame st p now = (st.cleaned now,
      ⟨1, [⟨inetNtoa ip, 0, "ARP", p.length, true, some .arpSpoof, .recon, 20, "T1557"⟩],
        [⟨.arpSpoof, inetNtoa ip, now⟩]⟩) := by
  unfold processFrame Analyzer.processArp at *
  rw [hc] at hret ⊢
  dsimp only at *
  split at hret
  · split at hret
    · next hne => exact if_pos hne
    · cases hret
  · cases hret

/-- A reported ARP reply leaves the records to the cleanup, and publishes RECON and 20. -/
theorem feeds_arp {x : Seen R} {ip : UInt32} {mac : Bytes} {a : Attack}
    (hc : classify x.label.packet = .arpReply mac ip) (h : Reports x a) :
    Feeds ip a x ↔ ∃ s, (x.before.cleaned x.label.now).record ip = some s ∧
      s.kcStagesHit.testBit KillChainStage.recon.toNat = true ∧ s.kcStage = .recon ∧
      s.kcScore = 20 := by
  obtain ⟨rfl, -⟩ := reports_arp hc h
  obtain ⟨outcome, hcall, hret, -⟩ := h
  have hframe : processFrame x.before x.label.packet x.label.now = (x.after, outcome) := by
    rwa [analyzePacket_eq, Option.some.injEq] at hcall
  rw [processFrame_arp hc (by rw [hframe]; exact hret)] at hframe
  obtain ⟨hafter, hout⟩ := Prod.mk.inj hframe
  rw [hafter]
  constructor
  · rintro ⟨outcome', s, e, hcall', hs, hbit, hpub, hstage, hscore⟩
    rw [hcall, Option.some.injEq, Prod.mk.injEq, and_iff_right rfl] at hcall'
    rw [← hcall', ← hout] at hpub
    obtain rfl := List.singleton_inj.mp hpub
    exact ⟨s, hs, hbit, hstage.symm, hscore.symm⟩
  · rintro ⟨s, hs, hbit, hstage, hscore⟩
    exact ⟨outcome, s, _, hcall, hs, hbit, by rw [← hout], hstage.symm, hscore.symm⟩

/-- In a run from `analyzer_reset`, a reported frame feeds the kill chain of its source
exactly when it is no ARP reply, or its sender has a record in the stage RECON that this
call does not evict. -/
theorem feeds_iff {st0 st : Analyzer R} {tr : List (Seen R)} {x : Seen R} {ip : UInt32}
    {a : Attack} (h : Lts.Run analyzerLts (analyzerReset st0) (tr ++ [x]) st)
    (hsrc : attributedIp x.label.packet = some ip) (hrep : Reports x a) :
    Feeds ip a x ↔ isArpReply x.label.packet = false ∨
      ∃ s, x.before.record ip = some s ∧ ¬ Evicts ip x ∧ s.kcStage = .recon := by
  obtain ⟨-, hpre, hstep⟩ := h.snoc_inv
  unfold attributedIp at hsrc
  unfold isArpReply
  cases hc : classify x.label.packet with
  | ignored => exact absurd hrep (not_reports_ignored hc)
  | ipv4 src body =>
    rw [hc] at hsrc
    cases hsrc
    exact iff_of_true (feeds_ipv4 hc hstep hrep) (.inl rfl)
  | arpReply mac sender =>
    rw [hc] at hsrc
    cases hsrc
    rw [feeds_arp hc hrep, or_iff_right Bool.true_eq_false.mp]
    refine exists_congr fun s => ?_
    rw [cleaned_record_iff (run_distinct hpre), and_assoc]
    refine and_congr_right fun hs => and_congr_right fun _ => ?_
    -- the stage alone says the rest, over the history of the record
    exact ⟨fun hall => hall.2.1, fun hstage =>
      have hagrees := history_recon (run_history hpre hs) hstage
      ⟨hagrees.1, hstage, hagrees.2⟩⟩

/-! ## Two runs -/

/-- An ARP reply in which the MAC 02:00:00:00:00:01 claims `sender`. -/
def arpClaim (sender : Bytes) : Call :=
  ⟨List.replicate 12 0 ++ [0x08, 0x06, 0, 1, 8, 0, 6, 4, 0, 2] ++ [2, 0, 0, 0, 0, 1] ++ sender ++
    List.replicate 10 0, 1000⟩

/-- The MAC claims 1.2.3.4 and then 5.6.7.8. -/
def spoofCalls : List Call := [arpClaim [1, 2, 3, 4], arpClaim [5, 6, 7, 8]]

/-- The same, after a NULL scan by 5.6.7.8. -/
def scannedSpoofCalls : List Call :=
  List.replicate 3 ⟨tcpFrame [5, 6, 7, 8] 22 0, 1000⟩ ++ spoofCalls

/-- A run over the calls `cs` whose last call reports a spoof by 5.6.7.8. -/
structure Spoofed (cs : List Call) (tr : List (Seen ℝ)) (x : Seen ℝ) : Prop where
  run : Lts.Run analyzerLts (analyzerReset .initial) (tr ++ [x]) x.after
  labels : (tr ++ [x]).map (·.label) = cs
  source : attributedIp x.label.packet = some 0x08070605
  reports : Reports x .arpSpoof

theorem spoofed_of_exec {β : Type} {g : Seen ℝ → β} {v : β} (cs : List Call)
    (h : (analyzerLts.exec (analyzerReset .initial) cs).map (fun r => r.1.getLast?.map fun x =>
      ((attributedIp x.label.packet, verdicts x.before x.label), g x)) =
      some (some ((some 0x08070605, [.arpSpoof]), v))) :
    ∃ tr x, Spoofed cs tr x ∧ g x = v := by
  obtain ⟨tr, x, hrun, hlabels, hval⟩ := Lts.run_of_exec_last
    (f := fun x => ((attributedIp x.label.packet, verdicts x.before x.label), g x)) h
  obtain ⟨hread, hv⟩ := Prod.mk.inj hval
  obtain ⟨hsource, hverdicts⟩ := Prod.mk.inj hread
  have hrep : Reports x .arpSpoof :=
    (reports_iff hrun.snoc_inv.2.2 _).mpr (by rw [hverdicts]; exact List.mem_singleton_self _)
  exact ⟨tr, x, ⟨hrun, hlabels, hsource, hrep⟩, hv⟩

theorem feeds_iff_scanned :
    ∃ tr x, Spoofed scannedSpoofCalls tr x ∧ Feeds 0x08070605 .arpSpoof x := by
  obtain ⟨tr, x, hs, hv⟩ := spoofed_of_exec scannedSpoofCalls
    (g := fun x => ((x.before.record 0x08070605).map (·.kcStage), x.before.due x.label.now))
    (v := (some .recon, false)) (by decide +kernel)
  obtain ⟨hstage, hdue⟩ := Prod.mk.inj hv
  obtain ⟨s, hrec, hrecon⟩ := Option.map_eq_some_iff.mp hstage
  have hkept : ¬ Evicts 0x08070605 x := fun he => by
    rw [Evicts, hdue] at he
    exact absurd he.1 Bool.false_ne_true
  exact ⟨tr, x, hs, (feeds_iff hs.run hs.source hs.reports).mpr (.inr ⟨s, hrec, hkept, hrecon⟩)⟩

/-- The sender of the reported reply has no record, although there is room for one. -/
theorem arpSpoof_unfed :
    ∃ tr x, Spoofed spoofCalls tr x ∧ x.before.suspects.count < MAX_SUSPECTS ∧
      ¬ Feeds 0x08070605 .arpSpoof x := by
  obtain ⟨tr, x, hs, hv⟩ := spoofed_of_exec spoofCalls
    (g := fun x => ((x.after.record 0x08070605).isNone, x.before.suspects.count))
    (v := (true, 0)) (by decide +kernel)
  obtain ⟨hnone, hcount⟩ := Prod.mk.inj hv
  refine ⟨tr, x, hs, by rw [hcount]; decide, ?_⟩
  rintro ⟨_, s, _, _, hrec, _⟩
  rw [hrec] at hnone
  cases hnone

end TrafficAnalyzer
