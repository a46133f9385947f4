import TrafficAnalyzer.Lib.FirstSeen
import TrafficAnalyzer.Lib.Lts
import TrafficAnalyzer.Lib.RealDouble
import TrafficAnalyzer.Agent.Steps

/-!
# The port scan detector

The record keeps the first 15 distinct ports of its source. Until then every new port is
stored; afterwards a port that is not among the 15 is reported each time it is seen, since
it is never stored.

* `run_ports`: the stored ports are the first 15 distinct ones.
* `portScan_iff`: when a call reports a scan.
* `portScan_repeated`: a sixteenth port is reported again.
-/

namespace TrafficAnalyzer

variable {R : Type} [Double R]

/-- One record, fresh at first, one port a step. -/
def portLts : Lts (Suspect R) UInt16 where
  init s := ∃ ip now, s = Suspect.fresh ip now
  step s dstPort := (detectPortScan s dstPort).map Prod.fst

abbrev PortStep (R : Type) := Lts.Step (Suspect R) UInt16

/-- The call returns PORT_SCAN. -/
def PortAlert (x : PortStep R) : Prop :=
  detectPortScan x.before x.label = some (x.after, some .portScan)

theorem portLts_step {s s' : Suspect R} {dstPort : UInt16} :
    portLts.step s dstPort = some s' ↔ (portScanStep s dstPort).1 = s' := by
  simp [portLts, detectPortScan_eq]

theorem portAlert_iff {x : PortStep R} (hx : portLts.step x.before x.label = some x.after) :
    PortAlert x ↔ (portScanStep x.before x.label).2 = some .portScan := by
  rw [portLts_step] at hx
  rw [PortAlert, detectPortScan_eq, Option.some.injEq, Prod.ext_iff]
  exact and_iff_right hx

/-- The stored ports are the first 15 distinct ports. -/
theorem run_ports {ip : UInt32} {t0 : Int} {s : Suspect R} {tr : List (PortStep R)}
    (h : Lts.Run portLts (Suspect.fresh ip t0) tr s) :
    s.ports.used = (tr.map (·.label)).eraseDups.take SCAN_THRESHOLD := by
  induction h with
  | nil => rfl
  | @snoc tr s s' p _ hstep ih =>
    rw [portLts_step] at hstep
    rw [← hstep, portScanStep_record, List.map_append, List.map_singleton,
      FirstSeen.take_eraseDups_concat, ← ih]
    dsimp only
    split
    · rfl
    · exact Slots.used_pushD s.ports p

/-- In a run on one record a call reports a scan exactly when at least 15 distinct ports
have been seen, its own included, and its port is not among the first 15 of the ports
before it. -/
theorem portScan_iff {ip : UInt32} {t0 : Int} {s : Suspect R} {pre : List (PortStep R)}
    {x : PortStep R} (h : Lts.Run portLts (Suspect.fresh ip t0) (pre ++ [x]) s) :
    PortAlert x ↔ 15 ≤ ((pre ++ [x]).map (·.label)).eraseDups.length ∧
      x.label ∉ (pre.map (·.label)).eraseDups.take 15 := by
  obtain ⟨rfl, hpre, hstep⟩ := h.snoc_inv
  have hbefore := run_ports hpre
  have hafter := run_ports h
  rw [portLts_step] at hstep
  have hstored : x.label ∈ x.before.ports.used ↔
      x.label ∈ (pre.map (·.label)).eraseDups.take 15 := by rw [hbefore]; rfl
  rw [portAlert_iff h.snoc_inv.2.2, portScanStep_attack, ← hstored]
  by_cases hseen : x.label ∈ x.before.ports.used
  · simp [hseen]
  · -- the port is stored or the memory is full, and the count says which
    rw [← hstep, portScanStep_record] at hafter
    simp only [hseen, ↓reduceIte] at hafter
    have hcount : SCAN_THRESHOLD ≤ (x.before.ports.pushD x.label).count ↔
        15 ≤ ((pre ++ [x]).map (·.label)).eraseDups.length := by
      rw [Slots.count, hafter, List.length_take, SCAN_THRESHOLD]
      omega
    simp [hseen, hcount]

/-- Fifteen ports; the last one is reported. -/
def fifteenPorts : List UInt16 := (List.range 15).map UInt16.ofNat

theorem portScan_iff_fifteenth :
    ∃ (pre : List (PortStep ℝ)) (x : PortStep ℝ),
      Lts.Run portLts (Suspect.fresh 1 0) (pre ++ [x]) x.after ∧
        (pre ++ [x]).map (·.label) = fifteenPorts ∧ PortAlert x := by
  have hexec : ((portLts (R := ℝ)).exec (Suspect.fresh 1 0) fifteenPorts).map
      (fun r => r.1.getLast?.map (·.label)) = some (some 14) := by decide +kernel
  obtain ⟨pre, x, hrun, hlabels, hlast⟩ := Lts.run_of_exec_last hexec
  have hsplit : pre.map (·.label) ++ [x.label] = (List.range 14).map UInt16.ofNat ++ [14] := by
    rw [← List.map_singleton, ← List.map_append, hlabels]
    decide +kernel
  have hpre := (List.append_inj' hsplit rfl).1
  refine ⟨pre, x, hrun, hlabels, (portScan_iff hrun).mpr ⟨?_, ?_⟩⟩
  · rw [hlabels]
    decide +kernel
  · rw [hpre, hlast]
    decide +kernel

/-- A sixteenth port is reported, and reported again when it is seen again. -/
def repeatedPorts : List UInt16 := fifteenPorts ++ [15, 15]

theorem portScan_repeated :
    ∃ (pre : List (PortStep ℝ)) (x : PortStep ℝ),
      Lts.Run portLts (Suspect.fresh 1 0) (pre ++ [x]) x.after ∧
        (pre ++ [x]).map (·.label) = repeatedPorts ∧
        ¬ (PortAlert x ↔ x.label ∉ pre.map (·.label) ∧
          15 ≤ ((pre ++ [x]).map (·.label)).eraseDups.length) := by
  have hexec : ((portLts (R := ℝ)).exec (Suspect.fresh 1 0) repeatedPorts).map
      (fun r => r.1.getLast?.map fun x => (x.label, (portScanStep x.before x.label).2)) =
        some (some (15, some .portScan)) := by decide +kernel
  obtain ⟨pre, x, hrun, hlabels, hlast⟩ := Lts.run_of_exec_last hexec
  obtain ⟨hport, hverdict⟩ := Prod.mk.inj hlast
  have hsplit : pre.map (·.label) ++ [x.label] = (fifteenPorts ++ [15]) ++ [15] := by
    rw [← List.map_singleton, ← List.map_append, hlabels]
    decide +kernel
  have hpre := (List.append_inj' hsplit rfl).1
  refine ⟨pre, x, hrun, hlabels, fun hiff => ?_⟩
  have hnew := (hiff.mp ((portAlert_iff hrun.snoc_inv.2.2).mpr hverdict)).1
  rw [hpre, hport] at hnew
  exact hnew (by decide +kernel)

end TrafficAnalyzer
