import TrafficAnalyzer.Lib.WrapCount
import TrafficAnalyzer.Agent.Correlation
import TrafficAnalyzer.Agent.Soundness
import TrafficAnalyzer.Agent.Tables

/-!
# Floods that go on

The flood and stealth detectors count in a C `int` that is never reset while the source is
tracked, and compare the counter after each increment. An `Alarm` is such a detector: the
packets that it counts, its counter, and the value from which it alerts.

* `history_counter`: the counter is the number of counted packets, wrapped to 32 bits.
* `alarm_iff`: the alarm keeps sounding exactly as long as the counter does not wrap.
* `flood_stops`: packet number `2 ^ 31` of an ICMP flood ends the alarm.
-/

namespace TrafficAnalyzer

variable {R : Type} [Double R]

/-- A detector that counts the packets of a source. -/
structure Alarm (R : Type) where
  attack : Attack
  /-- The detector is called for the packet, and counts it. -/
  counts : Arrival R → Bool
  counter : Suspect R → Int
  /-- The least value of the counter that alerts. -/
  bound : Int

/-- `detect_icmp_flood` is called for every ICMP packet. -/
def icmpAlarm : Alarm R := ⟨.icmpFlood, (·.body.isIcmp), (·.icmpCount), ICMP_THRESHOLD + 1⟩

/-- The SYN-without-ACK calls of `detect_syn_flood`: the stealth detector is silent. -/
def Arrival.callsSynFlood (a : Arrival R) : Bool :=
  a.body.isTcp fun _ flags => synNoAck flags && stealthSilent a.record flags

def synAlarm : Alarm R :=
  ⟨.synFlood, Arrival.callsSynFlood, (·.synCount), SYN_FLOOD_THRESHOLD + 1⟩

/-- The calls of `detect_stealth_scan` with flags 0. -/
def nullAlarm : Alarm R :=
  ⟨.nullScan, (·.body.isNullScan), (·.nullScanCount), STEALTH_THRESHOLD⟩

/-- Fewer than 100 baseline windows are closed when the detectors run. -/
def Arrival.Uncalibrated (a : Arrival R) : Prop :=
  a.tracked.baseline.sampleCount < EWMA_CALIBRATION

/-- What an alarm has to satisfy. -/
structure Alarm.Lawful (A : Alarm R) : Prop where
  one_le_bound : 1 ≤ A.bound
  bound_lt : A.bound < 2 ^ 31
  counter_fresh : ∀ ip now, A.counter (Suspect.fresh ip now) = 0
  counter_touch : ∀ s now, A.counter { s with lastSeen := now } = A.counter s
  counter_chain : ∀ s k : Suspect R, A.counter (s.withChain k) = A.counter s
  counter_tracked : ∀ a, A.counter a.tracked = countIf (A.counts a) (A.counter a.record)
  alerts_iff : ∀ a : Arrival R, A.counts a = true → a.Uncalibrated →
    (a.attack = some A.attack ↔ A.bound ≤ A.counter a.tracked)

theorem icmpAlarm_lawful : (icmpAlarm : Alarm R).Lawful where
  one_le_bound := (by decide : (1 : Int) ≤ ICMP_THRESHOLD + 1)
  bound_lt := (by decide : ICMP_THRESHOLD + 1 < 2 ^ 31)
  counter_fresh _ _ := rfl
  counter_touch _ _ := rfl
  counter_chain _ _ := rfl
  counter_tracked a := detectStep_icmpCount a.record a.body a.length a.now
  alerts_iff a hcounts hcal := by
    have hbody : a.body = .icmp := of_decide_eq_true hcounts
    have hcal' : (withBaseline a.record false false a.now).baseline.sampleCount <
        EWMA_CALIBRATION := by
      simpa [Arrival.Uncalibrated, Arrival.tracked, hbody, detectStep, detectIcmpFlood_record]
        using hcal
    simp only [Arrival.attack, Arrival.tracked, hbody, detectStep, detectIcmpFlood_attack,
      detectIcmpFlood_record, icmpFloodThreshold, floodThreshold_uncalibrated hcal', icmpAlarm]
    split <;> simp_all

/-- On a NULL packet the other two stealth tests and the SYN detectors are silent. -/
theorem tcpStep_null (s : Suspect R) (dstPort : UInt16) (now : Int) :
    (tcpStep s 0 dstPort now).2 = some .nullScan ↔ STEALTH_THRESHOLD ≤ inc32 s.nullScanCount := by
  have hsyn : synNoAck 0 = false := by decide
  have hauth : isAuthSyn 0 dstPort = false := by simp [isAuthSyn, hsyn]
  have hmasks := not_hasFlags_zero
  rw [tcpStep_attack, detectStealthScan_attack, detectSynFlood_attack, detectBruteForce_attack,
    portScanStep_attack]
  simp only [hsyn, hauth, hmasks, xmasFires, decide_true, countIf_true, true_and,
    Bool.false_and, Bool.false_eq_true, false_and, ↓reduceIte]
  by_cases h : STEALTH_THRESHOLD ≤ inc32 s.nullScanCount
  · simp [h]
  · simp only [h, ↓reduceIte, Option.none_or, iff_false]
    split <;> simp

theorem nullAlarm_lawful : (nullAlarm : Alarm R).Lawful where
  one_le_bound := (by decide : (1 : Int) ≤ STEALTH_THRESHOLD)
  bound_lt := (by decide : STEALTH_THRESHOLD < 2 ^ 31)
  counter_fresh _ _ := rfl
  counter_touch _ _ := rfl
  counter_chain _ _ := rfl
  counter_tracked a := detectStep_nullScanCount a.record a.body a.length a.now
  alerts_iff a hcounts _ := by
    obtain ⟨port, hbody⟩ : ∃ port, a.body = .tcp port 0 := by
      cases hb : a.body <;> simp_all [nullAlarm, Transport.isNullScan, Transport.isTcp]
    have hcounter : a.tracked.nullScanCount = inc32 a.record.nullScanCount := by
      rw [Arrival.tracked, detectStep_nullScanCount, hbody]
      rfl
    simp only [nullAlarm, hcounter, Arrival.attack, hbody, detectStep, tcpStep_null]
    rfl

theorem stealthSilent_withBaseline (s : Suspect R) (newPort isDns : Bool) (now : Int)
    (flags : UInt8) :
    stealthSilent (withBaseline s newPort isDns now) flags = stealthSilent s flags := by
  simp only [stealthSilent, detectStealthScan_attack]
  rfl

theorem tracked_synCount (a : Arrival R) :
    a.tracked.synCount = countIf a.callsSynFlood a.record.synCount := by
  unfold Arrival.tracked Arrival.callsSynFlood
  cases hb : a.body with
  | tcp dstPort flags =>
    simp only [detectStep, tcpStep_record, detectSynFlood_record, stealthSilent_withBaseline,
      Transport.isTcp]
    cases stealthSilent a.record flags <;> simp [withBaseline]
  | udp srcPort dstPort payload =>
    simp only [detectStep, Transport.isTcp]
    split <;> simp [dnsStep_record, withBaseline]
  | _ => rfl

/-- When the stealth detector is silent, a SYN without ACK is reported as a flood exactly
when the SYN counter passes its threshold. -/
theorem tcpStep_syn {s : Suspect R} {flags : UInt8} (hstealth : stealthSilent s flags = true)
    (hsyn : synNoAck flags = true) (dstPort : UInt16) (now : Int) :
    (tcpStep s flags dstPort now).2 = some .synFlood ↔
      synFloodThreshold s.baseline < inc32 s.synCount := by
  have hnone : (detectStealthScan s flags).2 = none := Option.isNone_iff_eq_none.mp hstealth
  rw [tcpStep_attack, hnone, Option.none_or, detectSynFlood_attack, detectBruteForce_attack,
    portScanStep_attack]
  by_cases h : synFloodThreshold s.baseline < inc32 s.synCount
  · simp [h, hsyn]
  · simp only [h, and_false, ↓reduceIte, Option.none_or, iff_false]
    split
    · simp
    · split <;> simp

theorem synAlarm_lawful : (synAlarm : Alarm R).Lawful where
  one_le_bound := (by decide : (1 : Int) ≤ SYN_FLOOD_THRESHOLD + 1)
  bound_lt := (by decide : SYN_FLOOD_THRESHOLD + 1 < 2 ^ 31)
  counter_fresh _ _ := rfl
  counter_touch _ _ := rfl
  counter_chain _ _ := rfl
  counter_tracked := tracked_synCount
  alerts_iff a hcounts hcal := by
    obtain ⟨port, flags, hbody, hsyn, hstealth⟩ : ∃ port flags, a.body = .tcp port flags ∧
        synNoAck flags = true ∧ stealthSilent a.record flags = true := by
      cases hb : a.body <;> simp_all [synAlarm, Arrival.callsSynFlood, Transport.isTcp]
    have hcounter : a.tracked.synCount = inc32 a.record.synCount := by
      rw [tracked_synCount, show a.callsSynFlood = true from hcounts, countIf_true]
    have hcal' : (withBaseline a.record (decide (port ∉ a.record.ports.used)) false
        a.now).baseline.sampleCount < EWMA_CALIBRATION := by
      simpa [Arrival.Uncalibrated, Arrival.tracked, hbody, detectStep, tcpStep_record] using hcal
    have hsilent := (stealthSilent_withBaseline a.record (decide (port ∉ a.record.ports.used))
      false a.now flags).trans hstealth
    simp only [synAlarm, hcounter, Arrival.attack, hbody, detectStep,
      tcpStep_syn hsilent hsyn, synFloodThreshold, floodThreshold_uncalibrated hcal']
    rfl

/-! ## Histories -/

section Lawful

variable {A : Alarm R} {ip : UInt32} {as : List (Arrival R)} {s : Suspect R}

/-- The counter after one arrival, when the counter before it was the wrapped number `n`. -/
theorem Alarm.Lawful.counter_step (hA : A.Lawful) {a : Arrival R} {n : Int}
    (h : A.counter a.record = wrap32 n) :
    A.counter a.tracked = wrap32 (n + if A.counts a then 1 else 0) := by
  rw [hA.counter_tracked, h]
  cases A.counts a with
  | true => exact WrapCount.wrap32_succ n
  | false => rw [countIf_false, if_neg Bool.false_ne_true, Int.add_zero]

theorem Alarm.Lawful.counter_result (hA : A.Lawful) (a : Arrival R) :
    A.counter a.result.1 = A.counter a.tracked := by
  rw [result_tracked, hA.counter_chain]

/-- The counter is the number of counted packets, wrapped. -/
theorem history_counter (hA : A.Lawful) (h : History ip as s) :
    A.counter s = wrap32 (as.countP A.counts) := by
  induction h with
  | @first a hfresh =>
    have h0 : A.counter a.record = wrap32 0 := by
      rw [hfresh, hA.counter_fresh, WrapCount.wrap32_zero]
    rw [hA.counter_result, hA.counter_step h0, List.countP_singleton]
    simp
  | @next as s a _ ha ih =>
    have hrec : A.counter a.record = wrap32 (as.countP A.counts) := by
      rw [ha, hA.counter_touch, ih]
    rw [hA.counter_result, hA.counter_step hrec, countP_snoc]
    simp

/-- What a counted packet of a history finds and reports. -/
theorem history_alerts (hA : A.Lawful) (h : History ip as s) (hcal : ∀ a ∈ as, a.Uncalibrated)
    {pre post : List (Arrival R)} {a : Arrival R} (he : as = pre ++ a :: post)
    (ha : A.counts a = true) :
    a.attack = some A.attack ↔ A.bound ≤ wrap32 (pre.countP A.counts + 1) := by
  have hrec : A.counter a.record = wrap32 (pre.countP A.counts) := by
    rcases h.record_cases he with ⟨rfl, hfresh⟩ | ⟨s0, hpre, hs0⟩
    · rw [hfresh, hA.counter_fresh, List.countP_nil]
      exact WrapCount.wrap32_zero.symm
    · rw [hs0, hA.counter_touch, history_counter hA hpre]
  have hmem : a ∈ as := he ▸ List.mem_append_right pre List.mem_cons_self
  rw [hA.alerts_iff a ha (hcal a hmem), hA.counter_step hrec, if_pos ha]

end Lawful

/-- Once a counted packet has been reported, every later one is. -/
def KeepsAlerting (A : Alarm R) (as : List (Arrival R)) : Prop :=
  WrapCount.Keeps A.counts (fun a => a.attack = some A.attack) as

theorem history_keeps_iff {A : Alarm R} (hA : A.Lawful) {ip : UInt32} {as : List (Arrival R)}
    {s : Suspect R} (h : History ip as s) (hcal : ∀ a ∈ as, a.Uncalibrated) :
    KeepsAlerting A as ↔ as.countP A.counts < 2 ^ 31 :=
  WrapCount.keeps_iff hA.one_le_bound hA.bound_lt fun _ _ _ he ha =>
    history_alerts hA h hcal he ha

/-- In a run from `analyzer_reset`, for a source that is tracked in the end and has closed
fewer than 100 baseline windows: each of the three detectors keeps alerting, once it has
alerted, exactly as long as it is called fewer than `2 ^ 31` times on the record. -/
theorem alarm_iff {st0 st : Analyzer R} {tr : List (Seen R)} {ip : UInt32} {s : Suspect R}
    (h : Lts.Run analyzerLts (analyzerReset st0) tr st) (hs : st.record ip = some s)
    (hcal : ∀ a ∈ arrivals ip (epoch ip tr), a.Uncalibrated) :
    ∀ A ∈ [icmpAlarm, synAlarm, nullAlarm],
      KeepsAlerting A (arrivals ip (epoch ip tr)) ↔
        (arrivals ip (epoch ip tr)).countP A.counts < 2 ^ 31 := by
  have hlawful : ∀ A ∈ [(icmpAlarm : Alarm R), synAlarm, nullAlarm], A.Lawful := by
    simp [icmpAlarm_lawful, synAlarm_lawful, nullAlarm_lawful]
  exact fun A hA => history_keeps_iff (hlawful A hA) (run_history h hs) hcal

/-! ## An ICMP flood -/

/-- The flood of 1.2.3.4: the first packet at time 1000, the others at the times `ts`. -/
def floodIp : UInt32 := 0x04030201
def floodCalls (ts : List Int) : List Call := (1000 :: ts).map icmpPacket

/-- A state after `n` packets of the flood. -/
structure Flooded (n : Nat) (st : Analyzer R) : Prop where
  home : st.homeCidrs.used = []
  cleanup : st.lastCleanup = 1000
  record : ∃ s, st.record floodIp = some s ∧ s.icmpCount = wrap32 n ∧
    s.baseline.windowStart = 1000 ∧ s.baseline.sampleCount = 0

theorem icmpPacket_classify (t : Int) : classify (icmpPacket t).packet = .ipv4 floodIp .icmp :=
  (by decide +kernel : classify (ipv4Frame 1 [1, 2, 3, 4] []) = .ipv4 floodIp .icmp)

/-- An ICMP packet of the flood is an arrival on the record that the cleanup leaves. -/
theorem icmpPacket_arrival {st : Analyzer R} {t : Int} {s : Suspect R}
    (hw : (st.cleaned t).working floodIp t = some s) :
    st.arrival floodIp (icmpPacket t) = some ⟨s, .icmp, (icmpPacket t).packet.length, t⟩ := by
  have hw' : (st.cleaned (icmpPacket t).now).working floodIp (icmpPacket t).now = some s := hw
  simp only [Analyzer.arrival, icmpPacket_classify, hw', ↓reduceIte, Option.map_some]
  rfl

/-- What one packet of the flood does within the first minute. -/
theorem flooded_step {st : Analyzer R} {n : Nat} {t : Int} {s : Suspect R}
    (hhome : st.homeCidrs.used = []) (hcleanup : (st.cleaned t).lastCleanup = 1000)
    (hw : (st.cleaned t).working floodIp t = some s) (hcount : s.icmpCount = wrap32 n)
    (hstart : s.baseline.windowStart = 1000) (hsample : s.baseline.sampleCount = 0)
    (hlt : t < 1060) :
    ∃ a, st.arrival floodIp (icmpPacket t) = some a ∧ a.body = .icmp ∧ a.Uncalibrated ∧
      (a.attack = some .icmpFlood ↔ 21 ≤ wrap32 (n + 1)) ∧
      Flooded (n + 1) (processFrame st (icmpPacket t).packet t).1 := by
  have harr := icmpPacket_arrival hw
  have hopen : s.baseline.windowExpired t = false := by
    simp only [IpBaseline.windowExpired, hstart, difftime, EWMA_WINDOW_SEC, decide_eq_false_iff_not]
    omega
  generalize ha : (⟨s, .icmp, (icmpPacket t).packet.length, t⟩ : Arrival R) = a at harr
  have hrecord : a.record = s := by rw [← ha]
  have hcounts : (icmpAlarm : Alarm R).counts a = true := by
    rw [← ha]
    rfl
  have hbaseline : a.tracked.baseline = s.baseline.tick false false := by
    rw [← ha, ← updateBaseline_open false false hopen]
    rfl
  have hcal : a.Uncalibrated := by
    rw [Arrival.Uncalibrated, hbaseline]
    exact hsample ▸ (by decide : (0 : Int) < EWMA_CALIBRATION)
  have hcounter : a.tracked.icmpCount = wrap32 (n + 1) := by
    have hrec : (icmpAlarm : Alarm R).counter a.record = wrap32 n := by rw [hrecord]; exact hcount
    rw [← if_pos (c := (icmpAlarm : Alarm R).counts a = true) (t := (1 : Int)) (e := 0) hcounts]
    exact icmpAlarm_lawful.counter_step hrec
  refine ⟨a, harr, by rw [← ha], hcal, ?_, ?_, ?_, a.result.1, ?_, ?_, ?_, ?_⟩
  · rw [← hcounter]
    exact icmpAlarm_lawful.alerts_iff a hcounts hcal
  · rw [processFrame_homeCidrs, hhome]
  · rw [frameMove_lastCleanup (processFrame_move st _ t), hcleanup]
  · have hafter := processFrame_record st floodIp (icmpPacket t)
    rw [harr] at hafter
    exact hafter
  · rw [result_tracked]
    exact_mod_cast hcounter
  · rw [result_tracked]
    exact (congrArg IpBaseline.windowStart hbaseline).trans hstart
  · rw [result_tracked]
    exact (congrArg IpBaseline.sampleCount hbaseline).trans hsample

/-- The first packet finds no record, and the cleanup of that call is due. -/
theorem flooded_first :
    ∃ a, (.initial : Analyzer R).arrival floodIp (icmpPacket 1000) = some a ∧ a.body = .icmp ∧
      a.Uncalibrated ∧ (a.attack = some .icmpFlood ↔ 21 ≤ wrap32 (0 + 1)) ∧
      Flooded 1 (processFrame (.initial : Analyzer R) (icmpPacket 1000).packet 1000).1 := by
  have hw : ((.initial : Analyzer R).cleaned 1000).working floodIp 1000 =
      some (Suspect.fresh floodIp 1000) := rfl
  exact flooded_step (n := 0) rfl rfl hw WrapCount.wrap32_zero.symm rfl rfl (by decide)

/-- The others find the record of the last one. -/
theorem flooded_next {st : Analyzer R} {n : Nat} {t : Int} (h : Flooded n st) (h1 : 1000 ≤ t)
    (h2 : t < 1060) :
    ((st.cleaned t).record floodIp).isSome ∧
      ∃ a, st.arrival floodIp (icmpPacket t) = some a ∧ a.body = .icmp ∧ a.Uncalibrated ∧
        (a.attack = some .icmpFlood ↔ 21 ≤ wrap32 (n + 1)) ∧
        Flooded (n + 1) (processFrame st (icmpPacket t).packet t).1 := by
  obtain ⟨s, hrec, hcount, hstart, hsample⟩ := h.record
  have hclean : st.cleaned t = st := by
    have hlt : difftime t st.lastCleanup < CLEANUP_INTERVAL := by
      rw [h.cleanup, difftime, CLEANUP_INTERVAL]
      omega
    exact if_pos hlt
  have hw : (st.cleaned t).working floodIp t = some { s with lastSeen := t } := by
    simp [hclean, Analyzer.working, Analyzer.isHome, h.home, hrec]
  refine ⟨by simp [hclean, hrec], ?_⟩
  exact flooded_step h.home (by rw [hclean, h.cleanup]) hw hcount hstart hsample h2

/-- The flood within the first minute: every packet is an arrival of one history. -/
theorem flood_arrivals (ts : List Int) (hts : ∀ t ∈ ts, 1000 ≤ t ∧ t < 1060) :
    let as := arrivals floodIp (epoch floodIp (observe (.initial : Analyzer R) (floodCalls ts)))
    Flooded (ts.length + 1) (afterCalls (.initial : Analyzer R) (floodCalls ts)) ∧
      as.length = ts.length + 1 ∧ ∀ a ∈ as, a.body = .icmp ∧ a.Uncalibrated := by
  induction ts using List.reverseRecOn with
  | nil =>
    obtain ⟨a, harr, hbody, hcal, -, hflood⟩ := flooded_first (R := R)
    have hone : arrivals floodIp (epoch floodIp
        (observe (.initial : Analyzer R) (floodCalls []))) = [a] := by
      simp [floodCalls, observe, epoch, arrivals, harr]
    rw [hone]
    exact ⟨hflood, rfl, fun b hb => List.mem_singleton.mp hb ▸ ⟨hbody, hcal⟩⟩
  | append_singleton ts t ih =>
    obtain ⟨hflood, hlen, hall⟩ := ih fun u hu => hts u (List.mem_append_left _ hu)
    obtain ⟨h1, h2⟩ := hts t (by simp)
    obtain ⟨hkept, a, harr, hbody, hcal, -, hnext⟩ := flooded_next hflood h1 h2
    have hcalls : floodCalls (ts ++ [t]) = floodCalls ts ++ [icmpPacket t] := by simp [floodCalls]
    have hnone : ¬ (((afterCalls (.initial : Analyzer R) (floodCalls ts)).cleaned
        (icmpPacket t).now).record floodIp).isNone = true := fun h => by
      have hsome : (((afterCalls (.initial : Analyzer R) (floodCalls ts)).cleaned
          (icmpPacket t).now).record floodIp).isSome = true := hkept
      rw [Option.isNone_iff_eq_none.mp h] at hsome
      cases hsome
    rw [hcalls, observe_concat, epoch_snoc, if_neg hnone, arrivals_snoc, harr, afterCalls_concat]
    simp only [Option.toList_some, List.length_append, List.length_singleton, hlen]
    refine ⟨hnext, trivial, fun b hb => ?_⟩
    rcases List.mem_append.mp hb with hb | hb
    · exact hall b hb
    · exact List.mem_singleton.mp hb ▸ ⟨hbody, hcal⟩

/-- The run of a flood within one second. -/
theorem flood_run (n : Nat) :
    ∃ (tr : List (Seen R)) (st : Analyzer R) (s : Suspect R),
      Lts.Run analyzerLts (analyzerReset .initial) tr st ∧
        tr.map (·.label) = floodCalls (List.replicate n 1000) ∧ st.record floodIp = some s ∧
        (arrivals floodIp (epoch floodIp tr)).length = n + 1 ∧
        ∀ a ∈ arrivals floodIp (epoch floodIp tr), a.body = .icmp ∧ a.Uncalibrated := by
  have htimes : ∀ t ∈ List.replicate n (1000 : Int), 1000 ≤ t ∧ t < 1060 := fun t ht => by
    rw [List.eq_of_mem_replicate ht]
    decide
  obtain ⟨hflood, hlen, hall⟩ := flood_arrivals (R := R) _ htimes
  obtain ⟨s, hs, -⟩ := hflood.record
  rw [List.length_replicate] at hlen
  exact ⟨_, _, s, observe_run .initial _, observe_labels .initial _, hs, hlen, hall⟩

/-- The alarm sounds for all of the 41 packets of a flood, once it has sounded. -/
theorem alarm_iff_short :
    ∃ (tr : List (Seen ℝ)) (st : Analyzer ℝ), Lts.Run analyzerLts (analyzerReset .initial) tr st ∧
      tr.map (·.label) = floodCalls (List.replicate 40 1000) ∧
        ∀ A ∈ [icmpAlarm, synAlarm, nullAlarm],
          KeepsAlerting A (arrivals floodIp (epoch floodIp tr)) := by
  obtain ⟨tr, st, s, hrun, hlabels, hs, hlen, hall⟩ := flood_run (R := ℝ) 40
  refine ⟨tr, st, hrun, hlabels, fun A hA => ?_⟩
  refine (alarm_iff hrun hs (fun a ha => (hall a ha).2) A hA).mpr ?_
  exact Nat.lt_of_le_of_lt (List.countP_le_length.trans_eq hlen) (by decide)

/-- `2 ^ 31` ICMP packets of one second: the last one is not reported although others are. -/
theorem flood_stops :
    ∃ (tr : List (Seen ℝ)) (st : Analyzer ℝ) (s : Suspect ℝ),
      Lts.Run analyzerLts (analyzerReset .initial) tr st ∧
        tr.map (·.label) = floodCalls (List.replicate (2 ^ 31 - 1) 1000) ∧
        st.record floodIp = some s ∧ (∀ a ∈ arrivals floodIp (epoch floodIp tr), a.Uncalibrated) ∧
        ¬ KeepsAlerting icmpAlarm (arrivals floodIp (epoch floodIp tr)) := by
  obtain ⟨tr, st, s, hrun, hlabels, hs, hlen, hall⟩ := flood_run (R := ℝ) (2 ^ 31 - 1)
  have hcal : ∀ a ∈ arrivals floodIp (epoch floodIp tr), a.Uncalibrated := fun a ha => (hall a ha).2
  refine ⟨tr, st, s, hrun, hlabels, hs, hcal, fun hkeeps => ?_⟩
  have hfew := (history_keeps_iff icmpAlarm_lawful (run_history hrun hs) hcal).mp hkeeps
  have hcount : (arrivals floodIp (epoch floodIp tr)).countP (icmpAlarm : Alarm ℝ).counts =
      (arrivals floodIp (epoch floodIp tr)).length :=
    List.countP_eq_length.mpr fun a ha => decide_eq_true (hall a ha).1
  rw [hcount, hlen] at hfew
  omega

end TrafficAnalyzer
