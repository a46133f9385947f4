import TrafficAnalyzer.Lib.RealDouble
import TrafficAnalyzer.Agent.Runs

/-!
# The TCP detectors and the chain they form

A TCP packet passes the four detectors in a fixed order and the first alert ends the
chain: a packet has one verdict, and a later detector neither reports nor counts a
packet on which an earlier one alerts. `solo` is a detector alone on a list of packets,
fed some of them, and `fedVerdicts` feeds each detector the packets on which the ones
before it are silent.

* `reported_eq_fed`: over a run of TCP packets of one tracked source, the reported
  attacks are exactly those of the four detectors so fed.
* `portScan_masked`: fed all packets, a detector can report an attack that the chain
  never reports.
-/

namespace TrafficAnalyzer

variable {R : Type} [Double R]

/-- What the TCP detectors see of a packet. -/
structure Segment where
  dstPort : UInt16
  flags : UInt8
  now : Int

/-- The four detectors, in the order of the chain. -/
inductive Detector
  | stealth | syn | brute | port

def Detector.run (s : Suspect R) (g : Segment) : Detector → Suspect R × Option Attack
  | .stealth => detectStealthScan s g.flags
  | .syn => detectSynFlood s g.flags
  | .brute => detectBruteForce s g.flags g.dstPort g.now
  | .port => portScanStep s g.dstPort

/-- The baseline update of a TCP packet. -/
def Suspect.observeSegment (s : Suspect R) (g : Segment) : Suspect R :=
  withBaseline s (decide (g.dstPort ∉ s.ports.used)) false g.now

/-- A packet for the detector `d` alone: it updates the baseline, and `d` is called when
the packet is fed to it. -/
def Detector.onSegment (d : Detector) (s : Suspect R) (g : Segment) (fed : Bool) :
    Suspect R × Option Attack :=
  if fed then d.run (s.observeSegment g) g else (s.observeSegment g, none)

/-- The verdicts of the detector `d` alone, from the record `s`, on packets marked with
whether they are fed to it. -/
def solo (d : Detector) (s : Suspect R) : List (Segment × Bool) → List (Option Attack)
  | [] => []
  | (g, fed) :: gs => (d.onSegment s g fed).2 :: solo d (d.onSegment s g fed).1 gs

/-- The packets `gs`, marked where the verdicts `vs` of the detectors so far are silent. -/
def feed (gs : List Segment) (vs : List (Option Attack)) : List (Segment × Bool) :=
  gs.zip (vs.map (·.isNone))

/-- All packets `gs`. -/
def feedAll (gs : List Segment) : List (Segment × Bool) := gs.map (·, true)

def orVerdicts (us vs : List (Option Attack)) : List (Option Attack) := List.zipWith Option.or us vs

/-- The verdicts of the four detectors, each from its own copy of the record and fed the
packets on which the ones before it are silent. -/
structure FedVerdicts where
  stealth : List (Option Attack)
  syn : List (Option Attack)
  brute : List (Option Attack)
  port : List (Option Attack)

def fedVerdicts (s1 s2 s3 s4 : Suspect R) (gs : List Segment) : FedVerdicts :=
  let stealth := solo .stealth s1 (feedAll gs)
  let syn := solo .syn s2 (feed gs stealth)
  let brute := solo .brute s3 (feed gs (orVerdicts stealth syn))
  let port := solo .port s4 (feed gs (orVerdicts (orVerdicts stealth syn) brute))
  ⟨stealth, syn, brute, port⟩

/-- Some detector reports `a` on some packet. -/
def FedVerdicts.Reports (v : FedVerdicts) (a : Attack) : Prop :=
  some a ∈ v.stealth ∨ some a ∈ v.syn ∨ some a ∈ v.brute ∨ some a ∈ v.port

/-! ## Detectors read their own fields -/

/-- The part of the baseline that the flood threshold reads. -/
def IpBaseline.rate (b : IpBaseline R) : R × R × Int × Int × Int :=
  (b.ewmaPps, b.ewmaVarPps, b.sampleCount, b.windowStart, b.pktInWindow)

/-- The rate does not depend on what the packet counts for besides itself. -/
theorem updateBaseline_rate {b b' : IpBaseline R} (h : b.rate = b'.rate)
    (newPort newPort' isDns isDns' : Bool) (now : Int) :
    (updateBaseline b newPort isDns now).rate = (updateBaseline b' newPort' isDns' now).rate := by
  obtain ⟨p, v, _, _, _, _, n, w, k, _, _⟩ := b
  obtain ⟨p', v', _, _, _, _, n', w', k', _, _⟩ := b'
  simp only [IpBaseline.rate, Prod.mk.injEq] at h
  obtain ⟨rfl, rfl, rfl, rfl, rfl⟩ := h
  by_cases hopen : difftime now w < EWMA_WINDOW_SEC
  · simp [updateBaseline, IpBaseline.tick, IpBaseline.rate, hopen]
  · by_cases hn : n = 0 <;>
      simp [updateBaseline, IpBaseline.tick, IpBaseline.close, IpBaseline.rate, hopen, hn,
        ewmaStep]

theorem synFloodThreshold_rate {b b' : IpBaseline R} (h : b.rate = b'.rate) :
    synFloodThreshold b = synFloodThreshold b' := by
  simp only [IpBaseline.rate, Prod.mk.injEq] at h
  obtain ⟨hp, hv, hn, _⟩ := h
  simp only [synFloodThreshold, floodThreshold, hp, hv, hn]

/-- The record `r` of the chain and the four records of the detectors agree on what each
detector reads. -/
structure Agrees (r s1 s2 s3 s4 : Suspect R) : Prop where
  nullScan : s1.nullScanCount = r.nullScanCount
  xmasScan : s1.xmasScanCount = r.xmasScanCount
  synfinScan : s1.synfinScanCount = r.synfinScanCount
  syn : s2.synCount = r.synCount
  rate : s2.baseline.rate = r.baseline.rate
  brute : s3.bruteCount = r.bruteCount
  bruteStart : s3.bruteWindowStart = r.bruteWindowStart
  ports : s4.ports = r.ports

section Step

variable {r s1 s2 s3 s4 : Suspect R}

/-- The baseline update keeps the agreement. -/
theorem Agrees.observe (h : Agrees r s1 s2 s3 s4) (g : Segment) :
    Agrees (r.observeSegment g) (s1.observeSegment g) (s2.observeSegment g) (s3.observeSegment g)
      (s4.observeSegment g) :=
  ⟨h.1, h.2, h.3, h.4, updateBaseline_rate h.5 _ _ _ _ _, h.6, h.7, h.8⟩

omit [Double R] in
/-- No detector reads the kill chain or `last_seen`. -/
theorem Agrees.withChain (h : Agrees r s1 s2 s3 s4) (k : Suspect R) :
    Agrees (r.withChain k) s1 s2 s3 s4 :=
  ⟨h.1, h.2, h.3, h.4, h.5, h.6, h.7, h.8⟩

omit [Double R] in
theorem Agrees.touch (h : Agrees r s1 s2 s3 s4) (now : Int) :
    Agrees { r with lastSeen := now } s1 s2 s3 s4 :=
  ⟨h.1, h.2, h.3, h.4, h.5, h.6, h.7, h.8⟩

omit [Double R] in
theorem Agrees.xmasFires (h : Agrees r s1 s2 s3 s4) (flags : UInt8) :
    TrafficAnalyzer.xmasFires s1 flags = TrafficAnalyzer.xmasFires r flags := by
  simp only [TrafficAnalyzer.xmasFires, h.xmasScan]

omit [Double R] in
theorem Agrees.bruteExpired (h : Agrees r s1 s2 s3 s4) (now : Int) :
    s3.bruteExpired now = r.bruteExpired now := by
  simp only [Suspect.bruteExpired, h.bruteStart]

/-- The verdict of each detector on its own record is its verdict on the record of the
chain. -/
theorem Agrees.attack (h : Agrees r s1 s2 s3 s4) (g : Segment) :
    (Detector.stealth.run s1 g).2 = (Detector.stealth.run r g).2 ∧
      (Detector.syn.run s2 g).2 = (Detector.syn.run r g).2 ∧
      (Detector.brute.run s3 g).2 = (Detector.brute.run r g).2 ∧
      (Detector.port.run s4 g).2 = (Detector.port.run r g).2 := by
  refine ⟨?_, ?_, ?_, ?_⟩
  · simp only [Detector.run, detectStealthScan_attack, h.xmasFires, h.nullScan, h.synfinScan]
  · simp only [Detector.run, detectSynFlood_attack, synFloodThreshold_rate h.rate, h.syn]
  · simp only [Detector.run, detectBruteForce_attack, h.bruteExpired, h.brute]
  · simp only [Detector.run, portScanStep_attack, h.ports]

/-- The records agree again after each detector has run when the ones before it are
silent. -/
theorem Agrees.record (h : Agrees r s1 s2 s3 s4) (g : Segment) :
    let silent1 := (Detector.stealth.run r g).2.isNone
    let silent2 := (Detector.syn.run r g).2.isNone
    let silent3 := (Detector.brute.run r g).2.isNone
    Agrees (tcpStep r g.flags g.dstPort g.now).1 (Detector.stealth.run s1 g).1
      (if silent1 then (Detector.syn.run s2 g).1 else s2)
      (if silent1 && silent2 then (Detector.brute.run s3 g).1 else s3)
      (if silent1 && silent2 && silent3 then (Detector.port.run s4 g).1 else s4) := by
  intro silent1 silent2 silent3
  rw [tcpStep_record]
  refine ⟨?_, ?_, ?_, ?_, ?_, ?_, ?_, ?_⟩
  · simp only [Detector.run, detectStealthScan_record, h.nullScan]
  · simp only [Detector.run, detectStealthScan_record, h.xmasScan]
  · simp only [Detector.run, detectStealthScan_record, h.synfinScan, h.xmasFires]
  · show Suspect.synCount (if silent1 = true then _ else _) =
      if silent1 = true then _ else _
    split
    · simp only [Detector.run, detectSynFlood_record, h.syn]
    · exact h.syn
  · show IpBaseline.rate (Suspect.baseline (if silent1 = true then _ else _)) = r.baseline.rate
    split
    · simp only [Detector.run, detectSynFlood_record, h.rate]
    · exact h.rate
  · show Suspect.bruteCount (if (silent1 && silent2) = true then _ else _) =
      if (silent1 && silent2) = true then _ else _
    split
    · simp only [Detector.run, detectBruteForce_record, h.bruteExpired, h.brute]
    · exact h.brute
  · show Suspect.bruteWindowStart (if (silent1 && silent2) = true then _ else _) =
      if (silent1 && silent2) = true then _ else _
    split
    · simp only [Detector.run, detectBruteForce_record, h.bruteExpired, h.bruteStart]
    · exact h.bruteStart
  · show Suspect.ports (if (silent1 && silent2 && silent3) = true then _ else _) =
      if (silent1 && silent2 && silent3) = true then _ else _
    split
    · simp only [Detector.run, portScanStep_record, h.ports]
    · exact h.ports

/-- One packet in the chain and in the four detectors, each fed when the ones before it
are silent: the chain reports what one of them reports, and the records keep agreeing. -/
theorem Agrees.step (h : Agrees r s1 s2 s3 s4) (g : Segment) :
    let a1 := Detector.stealth.onSegment s1 g true
    let a2 := Detector.syn.onSegment s2 g a1.2.isNone
    let a3 := Detector.brute.onSegment s3 g (a1.2.or a2.2).isNone
    let a4 := Detector.port.onSegment s4 g ((a1.2.or a2.2).or a3.2).isNone
    let c := tcpStep (r.observeSegment g) g.flags g.dstPort g.now
    (∀ a, c.2 = some a ↔ a1.2 = some a ∨ a2.2 = some a ∨ a3.2 = some a ∨ a4.2 = some a) ∧
      Agrees c.1 a1.1 a2.1 a3.1 a4.1 := by
  intro a1 a2 a3 a4 c
  have hobs := h.observe g
  obtain ⟨h1, h2, h3, h4⟩ := hobs.attack g
  have hrec := hobs.record g
  have hc : c.2 = (Detector.stealth.run (r.observeSegment g) g).2.or
      ((Detector.syn.run (r.observeSegment g) g).2.or
        ((Detector.brute.run (r.observeSegment g) g).2.or
          (Detector.port.run (r.observeSegment g) g).2)) := tcpStep_attack _ _ _ _
  have ha1 : a1 = Detector.stealth.run (s1.observeSegment g) g := rfl
  -- the detector that answers in the chain is the last one that is fed
  cases hv1 : (Detector.stealth.run (r.observeSegment g) g).2 with
  | some b =>
    have ha2 : a2 = (s2.observeSegment g, none) := by
      simp [a2, Detector.onSegment, ha1, h1, hv1]
    have ha3 : a3 = (s3.observeSegment g, none) := by
      simp [a3, Detector.onSegment, ha1, h1, hv1]
    have ha4 : a4 = (s4.observeSegment g, none) := by
      simp [a4, Detector.onSegment, ha1, h1, hv1]
    simp only [hv1, Option.isNone_some, Bool.false_and, Bool.false_eq_true, ↓reduceIte] at hrec
    refine ⟨fun a => ?_, ?_⟩
    · simp [hc, ha1, ha2, ha3, ha4, h1, hv1]
    · rw [ha1, ha2, ha3, ha4]
      exact hrec
  | none =>
    have ha2 : a2 = Detector.syn.run (s2.observeSegment g) g := by
      simp [a2, Detector.onSegment, ha1, h1, hv1]
    cases hv2 : (Detector.syn.run (r.observeSegment g) g).2 with
    | some b =>
      have ha3 : a3 = (s3.observeSegment g, none) := by
        simp [a3, Detector.onSegment, ha1, ha2, h1, h2, hv1, hv2]
      have ha4 : a4 = (s4.observeSegment g, none) := by
        simp [a4, Detector.onSegment, ha1, ha2, h1, h2, hv1, hv2]
      simp only [hv1, hv2, Option.isNone_some, Option.isNone_none, Bool.true_and, Bool.false_and,
        Bool.false_eq_true, ↓reduceIte] at hrec
      refine ⟨fun a => ?_, ?_⟩
      · simp [hc, ha1, ha2, ha3, ha4, h1, h2, hv1, hv2]
      · rw [ha1, ha2, ha3, ha4]
        exact hrec
    | none =>
      have ha3 : a3 = Detector.brute.run (s3.observeSegment g) g := by
        simp [a3, Detector.onSegment, ha1, ha2, h1, h2, hv1, hv2]
      cases hv3 : (Detector.brute.run (r.observeSegment g) g).2 with
      | some b =>
        have ha4 : a4 = (s4.observeSegment g, none) := by
          simp [a4, Detector.onSegment, ha1, ha2, ha3, h1, h2, h3, hv1, hv2, hv3]
        simp only [hv1, hv2, hv3, Option.isNone_some, Option.isNone_none, Bool.true_and,
          Bool.false_eq_true, ↓reduceIte] at hrec
        refine ⟨fun a => ?_, ?_⟩
        · simp [hc, ha1, ha2, ha3, ha4, h1, h2, h3, hv1, hv2, hv3]
        · rw [ha1, ha2, ha3, ha4]
          exact hrec
      | none =>
        have ha4 : a4 = Detector.port.run (s4.observeSegment g) g := by
          simp [a4, Detector.onSegment, ha1, ha2, ha3, h1, h2, h3, hv1, hv2, hv3]
        simp only [hv1, hv2, hv3, Option.isNone_none, Bool.true_and, ↓reduceIte] at hrec
        refine ⟨fun a => ?_, ?_⟩
        · simp [hc, ha1, ha2, ha3, ha4, h1, h2, h3, h4, hv1, hv2, hv3]
        · rw [ha1, ha2, ha3, ha4]
          exact hrec

/-- The first packet of the four detectors, and the rest. -/
theorem fedVerdicts_cons (s1 s2 s3 s4 : Suspect R) (g : Segment) (gs : List Segment) :
    let a1 := Detector.stealth.onSegment s1 g true
    let a2 := Detector.syn.onSegment s2 g a1.2.isNone
    let a3 := Detector.brute.onSegment s3 g (a1.2.or a2.2).isNone
    let a4 := Detector.port.onSegment s4 g ((a1.2.or a2.2).or a3.2).isNone
    let v := fedVerdicts a1.1 a2.1 a3.1 a4.1 gs
    fedVerdicts s1 s2 s3 s4 (g :: gs) =
      ⟨a1.2 :: v.stealth, a2.2 :: v.syn, a3.2 :: v.brute, a4.2 :: v.port⟩ := rfl

/-- A report on the first packet or on a later one. -/
theorem FedVerdicts.reports_cons {v : FedVerdicts} {b1 b2 b3 b4 : Option Attack} {a : Attack} :
    (FedVerdicts.mk (b1 :: v.stealth) (b2 :: v.syn) (b3 :: v.brute) (b4 :: v.port)).Reports a ↔
      (b1 = some a ∨ b2 = some a ∨ b3 = some a ∨ b4 = some a) ∨ v.Reports a := by
  simp only [FedVerdicts.Reports, List.mem_cons]
  constructor
  · rintro ((h | h) | (h | h) | (h | h) | (h | h))
    · exact .inl (.inl h.symm)
    · exact .inr (.inl h)
    · exact .inl (.inr (.inl h.symm))
    · exact .inr (.inr (.inl h))
    · exact .inl (.inr (.inr (.inl h.symm)))
    · exact .inr (.inr (.inr (.inl h)))
    · exact .inl (.inr (.inr (.inr h.symm)))
    · exact .inr (.inr (.inr (.inr h)))
  · rintro ((h | h | h | h) | (h | h | h | h))
    · exact .inl (.inl h.symm)
    · exact .inr (.inl (.inl h.symm))
    · exact .inr (.inr (.inl (.inl h.symm)))
    · exact .inr (.inr (.inr (.inl h.symm)))
    · exact .inl (.inr h)
    · exact .inr (.inl (.inr h))
    · exact .inr (.inr (.inl (.inr h)))
    · exact .inr (.inr (.inr (.inr h)))

end Step

/-! ## Runs of one source -/

/-- The segment of a TCP packet of `ip`. -/
def segmentOf (ip : UInt32) (c : Call) : Option Segment :=
  match classify c.packet with
  | .ipv4 src (.tcp dstPort flags) => if src = ip then some ⟨dstPort, flags, c.now⟩ else none
  | _ => none

def segments (ip : UInt32) (tr : List (Seen R)) : List Segment :=
  tr.filterMap fun x => segmentOf ip x.label

theorem segmentOf_some {ip : UInt32} {c : Call} {g : Segment} (h : segmentOf ip c = some g) :
    classify c.packet = .ipv4 ip (.tcp g.dstPort g.flags) ∧ c.now = g.now := by
  unfold segmentOf at h
  split at h
  · next src dstPort flags hc =>
    split at h
    · next hsrc =>
      cases h
      exact ⟨hsrc ▸ hc, rfl⟩
    · cases h
  · cases h

/-- The arrival of a packet of a source that has a record. -/
theorem arrival_of_record {st : Analyzer R} {ip : UInt32} {c : Call} {body : Transport}
    {s : Suspect R} (hc : classify c.packet = .ipv4 ip body) (hhome : st.isHome ip = false)
    (hs : (st.cleaned c.now).record ip = some s) :
    st.arrival ip c = some ⟨{ s with lastSeen := c.now }, body, c.packet.length, c.now⟩ := by
  simp only [Analyzer.arrival, hc, ↓reduceIte, Analyzer.working, cleaned_isHome, hhome, hs,
    Bool.false_eq_true, Option.map_some]

/-- A packet of a source that keeps its record finds what the packet before it left. -/
theorem next_arrival {st : Analyzer R} {ip : UInt32} {c : Call} {g : Segment} {s : Suspect R}
    (hd : Distinct st) (hhome : st.isHome ip = false) (hs : st.record ip = some s)
    (hg : segmentOf ip c = some g) (htracked : (st.cleaned c.now).record ip ≠ none) :
    ∃ ar, st.arrival ip c = some ar ∧ ar.record = { s with lastSeen := c.now } := by
  obtain ⟨s', hs'⟩ := Option.ne_none_iff_exists'.mp htracked
  have hsame : s' = s := by
    have hkept := cleaned_kept hd hs'
    rw [hs] at hkept
    exact (Option.some.inj hkept).symm
  exact ⟨_, arrival_of_record (segmentOf_some hg).1 hhome hs', by rw [hsame]⟩

/-- The induction over a run: the record of the source agrees with the records of the
four detectors before every packet. -/
theorem run_fed {ip : UInt32} {st st' : Analyzer R} {tr : List (Seen R)} {s1 s2 s3 s4 : Suspect R}
    (hrun : Lts.Run analyzerLts st tr st') (hd : Distinct st) (hhome : st.isHome ip = false)
    (htcp : ∀ x ∈ tr, ∃ g, segmentOf ip x.label = some g)
    (hfirst : ∀ x, tr.head? = some x → ∃ ar, x.before.arrival ip x.label = some ar ∧
      Agrees ar.record s1 s2 s3 s4)
    (htracked : ∀ x ∈ tr.tail, (x.before.cleaned x.label.now).record ip ≠ none) (a : Attack) :
    (∃ x ∈ tr, Reports x a) ↔ (fedVerdicts s1 s2 s3 s4 (segments ip tr)).Reports a := by
  induction tr generalizing st s1 s2 s3 s4 with
  | nil => simp [segments, fedVerdicts, FedVerdicts.Reports, solo, feed, feedAll]
  | cons x tr ih =>
    obtain ⟨rfl, hstep, hrest⟩ := hrun.cons_inv
    obtain ⟨ar, harr, hagree⟩ := hfirst x rfl
    obtain ⟨g, hg⟩ := htcp x (by simp)
    obtain ⟨hclass, hnow⟩ := segmentOf_some hg
    obtain ⟨harnow, _, hbody, _⟩ := arrival_cases harr
    rw [hclass, Frame.ipv4.injEq] at hbody
    obtain ⟨hverdict, hagree'⟩ := hagree.step g
    have hchain : detectStep ar.record ar.body ar.length ar.now =
        tcpStep (ar.record.observeSegment g) g.flags g.dstPort g.now := by
      rw [← hbody.2, harnow, hnow]
      rfl
    have hreport : Reports x a ↔
        (tcpStep (ar.record.observeSegment g) g.flags g.dstPort g.now).2 = some a := by
      rw [reports_arrival hstep harr, Arrival.attack, hchain]
    have hafter := record_of_arrival hstep harr
    have hd' : Distinct x.after := analyzerLts_step.mp hstep ▸ processFrame_distinct hd _ _
    have hhome' : x.after.isHome ip = false := by
      rw [← analyzerLts_step.mp hstep, isHome_congr (processFrame_homeCidrs _ _ _)]
      exact hhome
    have hnext : ∀ y, tr.head? = some y → ∃ ar', y.before.arrival ip y.label = some ar' ∧
        Agrees ar'.record _ _ _ _ := fun y hy => by
      obtain ⟨ys, rfl⟩ := List.head?_eq_some_iff.mp hy
      obtain ⟨hbefore, _, _⟩ := hrest.cons_inv
      obtain ⟨g', hg'⟩ := htcp y (by simp)
      obtain ⟨ar', harr', hrec'⟩ := next_arrival (hbefore ▸ hd') (hbefore ▸ hhome')
        (hbefore ▸ hafter) hg' (htracked y (by simp))
      refine ⟨ar', harr', ?_⟩
      rw [hrec', result_tracked, Arrival.tracked, hchain]
      exact (hagree'.withChain _).touch _
    have ih' := ih hrest hd' hhome' (fun y hy => htcp y (by simp [hy])) hnext
      (fun y hy => htracked y (List.mem_of_mem_tail hy))
    have hsegs : segments ip (x :: tr) = g :: segments ip tr := by
      simp [segments, hg]
    rw [hsegs, fedVerdicts_cons]
    rw [FedVerdicts.reports_cons, ← ih', ← hverdict, ← hreport]
    simp only [List.mem_cons, exists_eq_or_imp]

theorem reachable_distinct {st : Analyzer R} (h : Lts.Reachable analyzerLts st) : Distinct st := by
  obtain ⟨_, _, ⟨_, rfl⟩, hrun⟩ := h
  exact run_distinct hrun

/-- Over a run of TCP packets of one tracked source, the reported attacks are the union of
what the four detectors report, each alone from the record that the first packet works
on and fed the packets on which the detectors before it are silent. -/
theorem reported_eq_fed {ip : UInt32} {st st' : Analyzer R} {x : Seen R} {tr : List (Seen R)}
    {s0 : Suspect R} (hreach : Lts.Reachable analyzerLts st)
    (hrun : Lts.Run analyzerLts st (x :: tr) st')
    (htcp : ∀ y ∈ x :: tr, ∃ g, segmentOf ip y.label = some g)
    (hstart : (st.cleaned x.label.now).working ip x.label.now = some s0)
    (htracked : ∀ y ∈ tr, (y.before.cleaned y.label.now).record ip ≠ none) (a : Attack) :
    (∃ y ∈ x :: tr, Reports y a) ↔
      (fedVerdicts s0 s0 s0 s0 (segments ip (x :: tr))).Reports a := by
  have hhome : st.isHome ip = false := by
    rw [← cleaned_isHome st x.label.now]
    unfold Analyzer.working at hstart
    split at hstart
    · cases hstart
    · next h => simpa using h
  refine run_fed hrun (reachable_distinct hreach) hhome htcp (fun y hy => ?_) htracked a
  obtain rfl := Option.some.inj hy
  obtain ⟨g, hg⟩ := htcp x (by simp)
  refine ⟨⟨s0, .tcp g.dstPort g.flags, x.label.packet.length, x.label.now⟩, ?_,
    rfl, rfl, rfl, rfl, rfl, rfl, rfl, rfl⟩
  rw [hrun.cons_inv.1]
  simp only [Analyzer.arrival, (segmentOf_some hg).1, ↓reduceIte, hstart, Option.map_some]

/-! ## A NULL scan hides a port scan -/

/-- 1.2.3.4 sends packets without flags to the ports 1 to 15. -/
def nullSweep : List Call :=
  (List.range 15).map fun i => ⟨tcpFrame [1, 2, 3, 4] (UInt8.ofNat (i + 1)) 0, 1000⟩

/-- The packets of the sweep, each found to be a TCP packet of the tracked source. -/
theorem nullSweep_tracked :
    let tr : List (Seen ℝ) := observe .initial nullSweep
    (∀ y ∈ tr, ∃ g, segmentOf 0x04030201 y.label = some g) ∧
      ∀ y ∈ tr.tail, (y.before.cleaned y.label.now).record 0x04030201 ≠ none := by
  intro tr
  have htcp : ∀ y ∈ tr, (segmentOf 0x04030201 y.label).isSome := by
    have h : (tr.all fun y => (segmentOf 0x04030201 y.label).isSome) = true := by decide +kernel
    exact List.all_eq_true.mp h
  have htracked : ∀ y ∈ tr.tail, ((y.before.cleaned y.label.now).record 0x04030201).isSome := by
    have h : (tr.tail.all fun y =>
        ((y.before.cleaned y.label.now).record 0x04030201).isSome) = true := by decide +kernel
    exact List.all_eq_true.mp h
  exact ⟨fun y hy => Option.isSome_iff_exists.mp (htcp y hy),
    fun y hy => Option.isSome_iff_ne_none.mp (htracked y hy)⟩

/-- The sweep is reported, and as nothing that the fed detectors do not report. -/
theorem reported_eq_fed_nullSweep :
    (fedVerdicts (Suspect.fresh 0x04030201 1000) (Suspect.fresh 0x04030201 1000)
      (Suspect.fresh 0x04030201 1000) (Suspect.fresh 0x04030201 1000 : Suspect ℝ)
      (segments 0x04030201 (observe (.initial : Analyzer ℝ) nullSweep))).Reports .nullScan := by
  have hrun := observe_run (R := ℝ) .initial nullSweep
  have hreach : Lts.Reachable analyzerLts (.initial : Analyzer ℝ) :=
    ⟨.initial, [], ⟨.initial, rfl⟩, .nil⟩
  obtain ⟨htcp, htracked⟩ := nullSweep_tracked
  refine (reported_eq_fed hreach hrun htcp rfl htracked .nullScan).mp ?_
  have h : ((observe (.initial : Analyzer ℝ) nullSweep).any fun y =>
      decide (.nullScan ∈ verdicts y.before y.label)) = true := by decide +kernel
  obtain ⟨y, hy, hv⟩ := List.any_eq_true.mp h
  exact ⟨y, hy, (reports_iff (hrun.step_of_mem hy) _).mpr (of_decide_eq_true hv)⟩

/-- Alone and fed all packets of the sweep, the port scan detector reports a port scan;
`analyze_packet` never does, since the NULL packets from the third on end the chain. -/
theorem portScan_masked :
    let tr : List (Seen ℝ) := observe .initial nullSweep
    Lts.Run analyzerLts .initial tr (afterCalls .initial nullSweep) ∧
      nullSweep.Pairwise (·.now ≤ ·.now) ∧
      ((Analyzer.initial : Analyzer ℝ).cleaned 1000).working 0x04030201 1000 =
        some (Suspect.fresh 0x04030201 1000) ∧
      (∀ y ∈ tr, ∃ g, segmentOf 0x04030201 y.label = some g) ∧
      (∀ y ∈ tr.tail, (y.before.cleaned y.label.now).record 0x04030201 ≠ none) ∧
      some .portScan ∈ solo .port (Suspect.fresh 0x04030201 1000 : Suspect ℝ)
        (feedAll (segments 0x04030201 tr)) ∧
      ¬ ∃ y ∈ tr, Reports y .portScan := by
  intro tr
  have hrun := observe_run (R := ℝ) .initial nullSweep
  refine ⟨hrun, by decide +kernel, rfl, nullSweep_tracked.1, nullSweep_tracked.2,
    by decide +kernel, ?_⟩
  rintro ⟨y, hy, hrep⟩
  have h : (tr.all fun y => decide (.portScan ∉ verdicts y.before y.label)) = true := by
    decide +kernel
  have hnot := of_decide_eq_true (List.all_eq_true.mp h y hy)
  exact hnot ((reports_iff (hrun.step_of_mem hy) _).mp hrep)

end TrafficAnalyzer
