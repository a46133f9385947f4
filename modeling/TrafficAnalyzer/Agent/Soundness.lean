import Mathlib.Data.List.Dedup
import Mathlib.Data.List.Perm.Subperm
import TrafficAnalyzer.Lib.RealDouble
import TrafficAnalyzer.Agent.Runs

/-!
# Soundness of the alerts

Every alert is justified by the packets of its source. `Tally as s` relates the
counters of a record to the arrivals that led to it: each counter is at most the number
of packets it is meant to count, and the DNS byte counters are exact. `history_tally`
is the induction over `History`, one step lemma for each counter; `Justified` says what
each attack needs, and `alerts_justified` is the result on runs.
-/

namespace TrafficAnalyzer

/-! ## What a packet counts for -/

/-- A TCP segment with `p dstPort flags`. -/
def Transport.isTcp (p : UInt16 → UInt8 → Bool) : Transport → Bool
  | .tcp dstPort flags => p dstPort flags
  | _ => false

def Transport.tcpPort : Transport → Option UInt16
  | .tcp dstPort _ => some dstPort
  | _ => none

/-- A UDP packet with a DNS port and `p payload`. -/
def Transport.isDns (p : Bytes → Bool) : Transport → Bool
  | .udp srcPort dstPort payload => isDnsPorts srcPort dstPort && p payload
  | _ => false

def Transport.isNullScan : Transport → Bool := Transport.isTcp fun _ flags => flags = 0
def Transport.isXmasScan : Transport → Bool := Transport.isTcp fun _ flags => hasFlags flags xmasMask
def Transport.isSynfinScan : Transport → Bool :=
  Transport.isTcp fun _ flags => hasFlags flags synfinMask
def Transport.isSyn : Transport → Bool := Transport.isTcp fun _ flags => synNoAck flags
def Transport.isAuthSyn : Transport → Bool :=
  Transport.isTcp fun dstPort flags => TrafficAnalyzer.isAuthSyn flags dstPort
def Transport.isIcmp (t : Transport) : Bool := t = .icmp

variable {R : Type} [Double R]

/-- A DNS query that the tunnel detector classifies as suspicious. -/
def Arrival.suspicious (a : Arrival R) : Bool :=
  a.body.isDns fun payload =>
    isQuery payload && querySuspicious (withBaseline a.record false true a.now) payload

/-- A DNS query that is not reported as a tunnel. -/
def Arrival.plainQuery (a : Arrival R) : Bool :=
  a.body.isDns isQuery && decide (a.attack ≠ some .dnsTunnel)

/-- A packet that closes a baseline window. -/
def Arrival.closes (a : Arrival R) : Bool :=
  a.body.publishes.isSome && a.record.baseline.windowExpired a.now

/-- The captured bytes of the arrivals that satisfy `p`. -/
def bytesOf (p : Arrival R → Bool) (as : List (Arrival R)) : Nat :=
  ((as.filter p).map (·.length)).sum

def requestBytes (as : List (Arrival R)) : Nat := bytesOf (·.plainQuery) as
def responseBytes (as : List (Arrival R)) : Nat := bytesOf (·.body.isDns isReply) as

/-- The baseline windows that the arrivals close. -/
def closedWindows (as : List (Arrival R)) : Nat := as.countP (·.closes)

/-- The destination ports of the TCP arrivals, without repetition. -/
def scannedPorts (as : List (Arrival R)) : List UInt16 := (as.filterMap (·.body.tcpPort)).dedup

/-! ## The counters of a packet -/

section Counters

variable (s : Suspect R) (t : Transport) (length : Nat) (now : Int)

theorem detectStep_nullScanCount :
    (detectStep s t length now).1.nullScanCount = countIf t.isNullScan s.nullScanCount := by
  cases t with
  | tcp dstPort flags =>
    simp [detectStep, tcpStep_record, detectStealthScan_record, withBaseline,
      Transport.isNullScan, Transport.isTcp]
  | udp srcPort dstPort payload =>
    simp only [detectStep]
    split <;> simp [dnsStep_record, withBaseline, Transport.isNullScan, Transport.isTcp]
  | _ => rfl

theorem detectStep_xmasScanCount :
    (detectStep s t length now).1.xmasScanCount = countIf t.isXmasScan s.xmasScanCount := by
  cases t with
  | tcp dstPort flags =>
    simp [detectStep, tcpStep_record, detectStealthScan_record, withBaseline,
      Transport.isXmasScan, Transport.isTcp]
  | udp srcPort dstPort payload =>
    simp only [detectStep]
    split <;> simp [dnsStep_record, withBaseline, Transport.isXmasScan, Transport.isTcp]
  | _ => rfl

theorem detectStep_synfinScanCount :
    ∃ b, (detectStep s t length now).1.synfinScanCount = countIf b s.synfinScanCount ∧
      (b = true → t.isSynfinScan = true) := by
  cases t with
  | tcp dstPort flags =>
    refine ⟨_, by simp [detectStep, tcpStep_record, detectStealthScan_record, withBaseline]; rfl, ?_⟩
    simp +contextual [Transport.isSynfinScan, Transport.isTcp]
  | udp srcPort dstPort payload =>
    refine ⟨false, ?_, by simp⟩
    simp only [detectStep]
    split <;> simp [dnsStep_record, withBaseline]
  | _ => exact ⟨false, rfl, by simp⟩

theorem detectStep_synCount :
    ∃ b, (detectStep s t length now).1.synCount = countIf b s.synCount ∧
      (b = true → t.isSyn = true) := by
  cases t with
  | tcp dstPort flags =>
    simp only [detectStep, tcpStep_record, detectSynFlood_record]
    split
    · exact ⟨synNoAck flags, rfl, by simp [Transport.isSyn, Transport.isTcp]⟩
    · exact ⟨false, rfl, by simp⟩
  | udp srcPort dstPort payload =>
    refine ⟨false, ?_, by simp⟩
    simp only [detectStep]
    split <;> simp [dnsStep_record, withBaseline]
  | _ => exact ⟨false, rfl, by simp⟩

theorem detectStep_icmpCount :
    (detectStep s t length now).1.icmpCount = countIf t.isIcmp s.icmpCount := by
  cases t with
  | tcp dstPort flags => simp [detectStep, tcpStep_record, withBaseline, Transport.isIcmp]
  | udp srcPort dstPort payload =>
    simp only [detectStep]
    split <;> simp [dnsStep_record, withBaseline, Transport.isIcmp]
  | _ => rfl

/-- Either the brute-force counter stands still, or the packet is counted into the
current window or into a new one. -/
theorem detectStep_brute :
    let s' := (detectStep s t length now).1
    (s'.bruteCount = s.bruteCount ∧ s'.bruteWindowStart = s.bruteWindowStart) ∨
      t.isAuthSyn = true ∧
        ((s'.bruteCount = inc32 s.bruteCount ∧ s'.bruteWindowStart = s.bruteWindowStart) ∨
          (s'.bruteCount = 1 ∧ s'.bruteWindowStart = now)) := by
  intro s'
  cases t with
  | tcp dstPort flags =>
    simp only [s', detectStep, tcpStep_record, detectBruteForce_record]
    split
    · cases hauth : isAuthSyn flags dstPort with
      | false => exact .inl ⟨rfl, rfl⟩
      | true =>
        refine .inr ⟨hauth, ?_⟩
        simp only [Bool.true_and]
        split
        · exact .inr ⟨rfl, rfl⟩
        · exact .inl ⟨rfl, rfl⟩
    · exact .inl ⟨rfl, rfl⟩
  | udp srcPort dstPort payload =>
    refine .inl ?_
    simp only [s', detectStep]
    split <;> simp [dnsStep_record, withBaseline]
  | _ => exact .inl ⟨rfl, rfl⟩

/-- Either the port list stands still, or it gains the port of the packet. -/
theorem detectStep_ports :
    (detectStep s t length now).1.ports = s.ports ∨
      ∃ port, t.tcpPort = some port ∧ port ∉ s.ports.used ∧
        (detectStep s t length now).1.ports = s.ports.pushD port := by
  cases t with
  | tcp dstPort flags =>
    simp only [detectStep, tcpStep_record, portScanStep_record]
    split
    · by_cases hmem : dstPort ∈ s.ports.used
      · exact .inl (if_pos hmem)
      · exact .inr ⟨dstPort, rfl, hmem, if_neg hmem⟩
    · exact .inl rfl
  | udp srcPort dstPort payload =>
    refine .inl ?_
    simp only [detectStep]
    split <;> simp [dnsStep_record, withBaseline]
  | _ => exact .inl rfl

theorem detectStep_baseline :
    (detectStep s t length now).1.baseline.sampleCount =
      if t.publishes.isSome && s.baseline.windowExpired now then inc32 s.baseline.sampleCount
      else s.baseline.sampleCount := by
  cases t with
  | icmp =>
    simp [detectStep, detectIcmpFlood_record, withBaseline, updateBaseline_sampleCount,
      Transport.publishes]
  | tcp dstPort flags =>
    simp [detectStep, tcpStep_record, withBaseline, updateBaseline_sampleCount,
      Transport.publishes]
  | udp srcPort dstPort payload =>
    simp only [detectStep]
    split <;>
      simp [dnsStep_record, withBaseline, updateBaseline_sampleCount, Transport.publishes]
  | other => rfl

end Counters

theorem suspicious_udp {a : Arrival R} {srcPort dstPort : UInt16} {payload : Bytes}
    (h : a.body = .udp srcPort dstPort payload) :
    a.suspicious = (isDnsPorts srcPort dstPort && (isQuery payload &&
      querySuspicious (withBaseline a.record false true a.now) payload)) := by
  simp [Arrival.suspicious, h, Transport.isDns]

theorem tracked_dnsSuspiciousCount (a : Arrival R) :
    a.tracked.dnsSuspiciousCount = countIf a.suspicious a.record.dnsSuspiciousCount := by
  unfold Arrival.tracked
  cases hb : a.body with
  | tcp dstPort flags =>
    simp [detectStep, tcpStep_record, withBaseline, Arrival.suspicious, hb, Transport.isDns]
  | udp srcPort dstPort payload =>
    rw [suspicious_udp hb]
    cases hp : isDnsPorts srcPort dstPort <;> simp [detectStep, hp, dnsStep_record, withBaseline]
  | _ => simp [detectStep, detectIcmpFlood_record, withBaseline, Arrival.suspicious, hb,
      Transport.isDns]

/-- A query is a tunnel report exactly when the tunnel detector is not silent. -/
theorem plainQuery_udp {a : Arrival R} {srcPort dstPort : UInt16} {payload : Bytes}
    (h : a.body = .udp srcPort dstPort payload) (hp : isDnsPorts srcPort dstPort = true) :
    a.plainQuery =
      (isQuery payload && tunnelSilent (withBaseline a.record false true a.now) payload) := by
  simp only [Arrival.plainQuery, h, Transport.isDns, hp, Bool.true_and]
  cases hq : isQuery payload with
  | false => rfl
  | true =>
    have hr : isReply payload = false := by
      unfold isQuery at hq
      unfold isReply
      cases hres : isResponse payload <;> simp_all
    simp only [Arrival.attack, h, detectStep, hp, ↓reduceIte, dnsStep_attack, hr, hq,
      Bool.false_eq_true, Bool.true_and, tunnelSilent, dnsTunnelStep_attack]
    split
    · simp
    · simp only [Option.none_or, detectAmplification_attack]
      split
      · simp
      · split <;> simp

theorem tracked_dnsReqBytes (a : Arrival R) :
    a.tracked.dnsReqBytes =
      if a.plainQuery then a.record.dnsReqBytes + UInt64.ofNat a.length
      else a.record.dnsReqBytes := by
  unfold Arrival.tracked
  cases hb : a.body with
  | tcp dstPort flags =>
    simp [detectStep, tcpStep_record, withBaseline, Arrival.plainQuery, hb, Transport.isDns]
  | udp srcPort dstPort payload =>
    cases hp : isDnsPorts srcPort dstPort with
    | true => simp [plainQuery_udp hb hp, detectStep, hp, dnsStep_record, withBaseline]
    | false =>
      simp [detectStep, hp, withBaseline, Arrival.plainQuery, hb, Transport.isDns]
  | _ => simp [detectStep, detectIcmpFlood_record, withBaseline, Arrival.plainQuery, hb,
      Transport.isDns]

theorem tracked_dnsRespBytes (a : Arrival R) :
    a.tracked.dnsRespBytes =
      if a.body.isDns isReply then a.record.dnsRespBytes + UInt64.ofNat a.length
      else a.record.dnsRespBytes := by
  unfold Arrival.tracked
  cases hb : a.body with
  | tcp dstPort flags => simp [detectStep, tcpStep_record, withBaseline, Transport.isDns]
  | udp srcPort dstPort payload =>
    cases hp : isDnsPorts srcPort dstPort <;>
      simp [detectStep, hp, dnsStep_record, withBaseline, Transport.isDns]
  | _ => simp [detectStep, detectIcmpFlood_record, withBaseline, Transport.isDns]

/-! ## What an alert says about the counters -/

/-- The threshold that the record `s` has passed when `a` is reported at `now`. -/
def Fires (s : Suspect R) (now : Int) : Attack → Prop
  | .nullScan => STEALTH_THRESHOLD ≤ s.nullScanCount
  | .xmasScan => STEALTH_THRESHOLD ≤ s.xmasScanCount
  | .synfinScan => STEALTH_THRESHOLD ≤ s.synfinScanCount
  | .synFlood => synFloodThreshold s.baseline < s.synCount
  | .bruteForce => BRUTE_THRESHOLD ≤ s.bruteCount ∧ now - s.bruteWindowStart ≤ BRUTE_WINDOW_SEC
  | .portScan => SCAN_THRESHOLD ≤ s.ports.count
  | .icmpFlood => icmpFloodThreshold s.baseline < s.icmpCount
  | .dnsTunnel => DNS_SUSPICIOUS_MAX ≤ s.dnsSuspiciousCount
  | .amplification => ¬ s.dnsReqBytes < 100 ∧ s.dnsReqBytes * AMPLIFICATION_RATIO < s.dnsRespBytes
  | .arpSpoof => False

theorem fires_withChain (s k : Suspect R) (now : Int) (a : Attack) :
    Fires (s.withChain k) now a ↔ Fires s now a := by
  cases a <;> rfl

theorem detectStealthScan_fires {s : Suspect R} {flags : UInt8} {a : Attack} (now : Int)
    (h : (detectStealthScan s flags).2 = some a) : Fires (detectStealthScan s flags).1 now a := by
  rw [detectStealthScan_attack] at h
  rw [detectStealthScan_record]
  split at h
  · next h0 =>
    cases h
    exact h0.2
  split at h
  · next hx =>
    cases h
    simp only [xmasFires, Bool.and_eq_true, decide_eq_true_eq] at hx
    exact hx.2
  split at h
  · next hx hs =>
    cases h
    simp only [Fires, hs.1, Bool.true_and, Bool.not_eq_true] at hx hs ⊢
    simpa [hx] using hs.2
  · cases h

theorem detectSynFlood_fires {s : Suspect R} {flags : UInt8} {a : Attack} (now : Int)
    (h : (detectSynFlood s flags).2 = some a) : Fires (detectSynFlood s flags).1 now a := by
  rw [detectSynFlood_attack, Option.ite_none_right_eq_some] at h
  obtain ⟨⟨hsyn, hcount⟩, ⟨⟩⟩ := h
  rw [detectSynFlood_record, hsyn]
  exact hcount

theorem detectBruteForce_fires {s : Suspect R} {flags : UInt8} {dstPort : UInt16} {now : Int}
    {a : Attack} (h : (detectBruteForce s flags dstPort now).2 = some a) :
    Fires (detectBruteForce s flags dstPort now).1 now a := by
  rw [detectBruteForce_attack, Option.ite_none_right_eq_some] at h
  obtain ⟨⟨hauth, hcount⟩, ⟨⟩⟩ := h
  rw [detectBruteForce_record, hauth]
  refine ⟨hcount, ?_⟩
  cases he : s.bruteExpired now with
  | true => simp [BRUTE_WINDOW_SEC]
  | false =>
    unfold Suspect.bruteExpired difftime at he
    simpa using he

theorem portScanStep_fires {s : Suspect R} {dstPort : UInt16} {a : Attack} (now : Int)
    (h : (portScanStep s dstPort).2 = some a) : Fires (portScanStep s dstPort).1 now a := by
  rw [portScanStep_attack, Option.ite_none_right_eq_some] at h
  obtain ⟨⟨hnew, hcount⟩, ⟨⟩⟩ := h
  rw [portScanStep_record, if_neg hnew]
  exact hcount

/-- The first detector of the chain that alerts is the last one to touch the record. -/
theorem tcpStep_fires {s : Suspect R} {flags : UInt8} {dstPort : UInt16} {now : Int} {a : Attack}
    (h : (tcpStep s flags dstPort now).2 = some a) : Fires (tcpStep s flags dstPort now).1 now a := by
  rcases tcpStep_cases s flags dstPort now with
    ⟨_, _, hc⟩ | ⟨_, ⟨_, _, hc⟩ | ⟨_, ⟨_, _, hc⟩ | ⟨_, hc⟩⟩⟩ <;> rw [hc] at h ⊢
  · exact detectStealthScan_fires now h
  · exact detectSynFlood_fires now h
  · exact detectBruteForce_fires h
  · exact portScanStep_fires now h

theorem dnsTunnelStep_fires {s : Suspect R} {payload : Bytes} {a : Attack} (now : Int)
    (h : (dnsTunnelStep s payload).2 = some a) : Fires (dnsTunnelStep s payload).1 now a := by
  rw [dnsTunnelStep_attack, Option.ite_none_right_eq_some] at h
  obtain ⟨⟨hquery, hcount⟩, ⟨⟩⟩ := h
  rw [dnsTunnelStep_record, hquery]
  exact hcount

theorem detectAmplification_fires {s : Suspect R} {bytes : Nat} {isResponse : Bool} {a : Attack}
    (now : Int) (h : (detectAmplification s bytes isResponse).2 = some a) :
    Fires (detectAmplification s bytes isResponse).1 now a := by
  rw [detectAmplification_attack] at h
  split at h
  · cases h
  · next hreq =>
    split at h
    · next hresp =>
      cases h
      exact ⟨hreq, hresp⟩
    · cases h

theorem dnsStep_fires {s : Suspect R} {payload : Bytes} {length : Nat} {a : Attack} (now : Int)
    (h : (dnsStep s payload length).2 = some a) : Fires (dnsStep s payload length).1 now a := by
  unfold dnsStep at h ⊢
  split at h
  · cases h
  next hlen =>
  split at h
  · next hr =>
    rw [if_neg hlen, if_pos hr]
    exact detectAmplification_fires now h
  · next hr =>
    rw [if_neg hlen, if_neg hr]
    cases ht : (dnsTunnelStep s payload).2 with
    | some b =>
      rw [unlessAlert_some ht] at h ⊢
      exact dnsTunnelStep_fires now h
    | none =>
      rw [unlessAlert_none ht] at h ⊢
      exact detectAmplification_fires now h

/-- Every alert comes with a record that has passed the threshold of the attack. -/
theorem detectStep_fires {s : Suspect R} {t : Transport} {length : Nat} {now : Int} {a : Attack}
    (h : (detectStep s t length now).2 = some a) : Fires (detectStep s t length now).1 now a := by
  cases t with
  | icmp =>
    simp only [detectStep, detectIcmpFlood_attack, Option.ite_none_right_eq_some] at h
    obtain ⟨hcount, ⟨⟩⟩ := h
    exact hcount
  | tcp dstPort flags => exact tcpStep_fires h
  | udp srcPort dstPort payload =>
    simp only [detectStep] at h ⊢
    split at h
    · next hp =>
      simp only [hp, ↓reduceIte] at h ⊢
      exact dnsStep_fires now h
    · cases h
  | other => cases h

theorem floodThreshold_le (b : IpBaseline R) (fixed : Int) (factor : R) (floor : Int)
    (h : floor ≤ fixed) : floor ≤ floodThreshold b fixed factor floor := by
  unfold floodThreshold
  split
  · dsimp only
    split
    · exact Int.le_refl _
    · next hlt => exact Int.not_lt.mp hlt
  · exact h

theorem floodThreshold_uncalibrated {b : IpBaseline R} (h : b.sampleCount < EWMA_CALIBRATION)
    (fixed : Int) (factor : R) (floor : Int) : floodThreshold b fixed factor floor = fixed :=
  if_neg fun hc => absurd hc.1 (Int.not_le.mpr h)

/-! ## Tallies -/

/-- The counter `n` is not negative and at most `k`. -/
def Bounded (n : Int) (k : Nat) : Prop := 0 ≤ n ∧ n ≤ k

/-- A counter that moves only on packets that satisfy `q` stays below their number, while
that number fits an `int`. -/
theorem Bounded.countIf {n : Int} {k : Nat} {b q : Bool} (h : Bounded n k)
    (hk : k + 1 < 2 ^ 31) (hb : b = true → q = true) :
    Bounded (countIf b n) (k + if q then 1 else 0) := by
  unfold Bounded at *
  cases b with
  | false => simp only [countIf_false]; split <;> omega
  | true =>
    rw [hb rfl, countIf_true, inc32_of_bounds h.1 (by omega)]
    simp only [↓reduceIte]
    omega

/-- The counters of `s` against the arrivals `as` that led to it. -/
structure Tally (as : List (Arrival R)) (s : Suspect R) : Prop where
  nullScan : Bounded s.nullScanCount (as.countP (·.body.isNullScan))
  xmasScan : Bounded s.xmasScanCount (as.countP (·.body.isXmasScan))
  synfinScan : Bounded s.synfinScanCount (as.countP (·.body.isSynfinScan))
  syn : Bounded s.synCount (as.countP (·.body.isSyn))
  icmp : Bounded s.icmpCount (as.countP (·.body.isIcmp))
  brute : Bounded s.bruteCount
    (as.countP fun a => a.body.isAuthSyn && decide (s.bruteWindowStart ≤ a.now))
  ports : s.ports.used.Nodup ∧ ∀ p ∈ s.ports.used, p ∈ scannedPorts as
  suspicious : Bounded s.dnsSuspiciousCount (as.countP (·.suspicious))
  requests : s.dnsReqBytes.toNat = requestBytes as
  responses : s.dnsRespBytes.toNat = responseBytes as
  windows : Bounded s.baseline.sampleCount (closedWindows as)

theorem Tally.fresh (ip : UInt32) (now : Int) : Tally [] (Suspect.fresh ip now : Suspect R) where
  nullScan := ⟨Int.le_refl _, Int.le_refl _⟩
  xmasScan := ⟨Int.le_refl _, Int.le_refl _⟩
  synfinScan := ⟨Int.le_refl _, Int.le_refl _⟩
  syn := ⟨Int.le_refl _, Int.le_refl _⟩
  icmp := ⟨Int.le_refl _, Int.le_refl _⟩
  brute := ⟨Int.le_refl _, Int.le_refl _⟩
  ports := ⟨List.nodup_nil, by simp [Suspect.fresh]⟩
  suspicious := ⟨Int.le_refl _, Int.le_refl _⟩
  requests := rfl
  responses := rfl
  windows := ⟨Int.le_refl _, Int.le_refl _⟩

omit [Double R] in
theorem countP_snoc_lt {as : List (Arrival R)} (h : as.length + 1 < 2 ^ 31)
    (p : Arrival R → Bool) : as.countP p + 1 < 2 ^ 31 :=
  Nat.lt_of_le_of_lt (Nat.succ_le_succ List.countP_le_length) h

omit [Double R] in
theorem countP_snoc (as : List (Arrival R)) (a : Arrival R) (p : Arrival R → Bool) :
    (as ++ [a]).countP p = as.countP p + if p a then 1 else 0 := by
  rw [List.countP_append, List.countP_singleton]

omit [Double R] in
theorem bytesOf_snoc (p : Arrival R → Bool) (as : List (Arrival R)) (a : Arrival R) :
    bytesOf p (as ++ [a]) = bytesOf p as + if p a then a.length else 0 := by
  unfold bytesOf
  cases h : p a <;> simp [List.filter_append, h]

omit [Double R] in
/-- The captured bytes fit far below `2^64`. -/
theorem bytesOf_le {as : List (Arrival R)} (p : Arrival R → Bool)
    (h : ∀ a ∈ as, a.length ≤ 65535) : bytesOf p as ≤ 65535 * as.length := by
  induction as using List.reverseRecOn with
  | nil => exact Nat.le_refl _
  | append_singleton as a ih =>
    have ha := h a (by simp)
    have has := ih fun b hb => h b (by simp [hb])
    rw [bytesOf_snoc, List.length_append, List.length_singleton]
    split <;> omega

theorem toNat_add_ofNat {n : UInt64} {k m : Nat} (hn : n.toNat = k) (h : k + m < 2 ^ 64) :
    (n + UInt64.ofNat m).toNat = k + m := by
  rw [UInt64.toNat_add, UInt64.toNat_ofNat', hn]
  omega

omit [Double R] in
/-- A 64-bit counter of captured bytes does not wrap. -/
theorem bytesOf_count {as : List (Arrival R)} {a : Arrival R} {p : Arrival R → Bool} {n : UInt64}
    (hn : n.toNat = bytesOf p as) (hcount : as.length + 1 < 2 ^ 31)
    (hlen : ∀ b ∈ as ++ [a], b.length ≤ 65535) :
    (if p a then n + UInt64.ofNat a.length else n).toNat = bytesOf p (as ++ [a]) := by
  have hle := bytesOf_le p hlen
  rw [List.length_append, List.length_singleton] at hle
  rw [bytesOf_snoc] at hle ⊢
  cases hp : p a with
  | true =>
    simp only [hp, ↓reduceIte] at hle ⊢
    exact toNat_add_ofNat hn (show bytesOf p as + a.length < 2 ^ 64 by omega)
  | false => exact hn

omit [Double R] in
theorem mem_scannedPorts {as : List (Arrival R)} {p : UInt16} :
    p ∈ scannedPorts as ↔ ∃ a ∈ as, a.body.tcpPort = some p := by
  rw [scannedPorts, List.mem_dedup, List.mem_filterMap]

/-- What one arrival does to the tally. -/
theorem Tally.step {as : List (Arrival R)} {a : Arrival R} (h : Tally as a.record)
    (hstart : a.record.bruteWindowStart ≤ a.now) (hcount : as.length + 1 < 2 ^ 31)
    (hlen : ∀ b ∈ as ++ [a], b.length ≤ 65535) : Tally (as ++ [a]) a.tracked where
  nullScan := by
    rw [countP_snoc, Arrival.tracked, detectStep_nullScanCount]
    exact h.nullScan.countIf (countP_snoc_lt hcount _) id
  xmasScan := by
    rw [countP_snoc, Arrival.tracked, detectStep_xmasScanCount]
    exact h.xmasScan.countIf (countP_snoc_lt hcount _) id
  synfinScan := by
    obtain ⟨b, hb, himp⟩ := detectStep_synfinScanCount a.record a.body a.length a.now
    rw [countP_snoc, Arrival.tracked, hb]
    exact h.synfinScan.countIf (countP_snoc_lt hcount _) himp
  syn := by
    obtain ⟨b, hb, himp⟩ := detectStep_synCount a.record a.body a.length a.now
    rw [countP_snoc, Arrival.tracked, hb]
    exact h.syn.countIf (countP_snoc_lt hcount _) himp
  icmp := by
    rw [countP_snoc, Arrival.tracked, detectStep_icmpCount]
    exact h.icmp.countIf (countP_snoc_lt hcount _) id
  brute := by
    have hlt := countP_snoc_lt hcount
      fun b => b.body.isAuthSyn && decide (a.record.bruteWindowStart ≤ b.now)
    obtain ⟨h0, hle⟩ := h.brute
    rw [countP_snoc, Arrival.tracked]
    -- no authentication attempt, one inside the window, or one that opens a new window
    rcases detectStep_brute a.record a.body a.length a.now with
      ⟨hc, hw⟩ | ⟨hauth, ⟨hc, hw⟩ | ⟨hc, hw⟩⟩
    · rw [hc, hw]
      exact ⟨h0, by push_cast; split <;> omega⟩
    · rw [hc, hw, inc32_of_bounds h0 (by omega)]
      simp only [hauth, hstart, decide_true, Bool.and_self, ↓reduceIte]
      exact ⟨by omega, by push_cast; omega⟩
    · rw [hc, hw]
      simp only [hauth, Int.le_refl, decide_true, Bool.and_self, ↓reduceIte]
      exact ⟨by omega, by push_cast; omega⟩
  ports := by
    obtain ⟨hnodup, hmem⟩ := h.ports
    have hold : ∀ p ∈ a.record.ports.used, p ∈ scannedPorts (as ++ [a]) := fun p hp => by
      obtain ⟨b, hb, hport⟩ := mem_scannedPorts.mp (hmem p hp)
      exact mem_scannedPorts.mpr ⟨b, List.mem_append_left _ hb, hport⟩
    rw [Arrival.tracked]
    rcases detectStep_ports a.record a.body a.length a.now with hp | ⟨port, hport, hnew, hp⟩
    · rw [hp]
      exact ⟨hnodup, hold⟩
    · rw [hp]
      refine ⟨Slots.nodup_pushD hnodup hnew, fun q hq => ?_⟩
      rcases Slots.mem_pushD hq with hq | rfl
      · exact hold q hq
      · exact mem_scannedPorts.mpr ⟨a, by simp, hport⟩
  suspicious := by
    rw [countP_snoc, tracked_dnsSuspiciousCount]
    exact h.suspicious.countIf (countP_snoc_lt hcount _) id
  requests := by
    rw [tracked_dnsReqBytes]
    exact bytesOf_count h.requests hcount hlen
  responses := by
    rw [tracked_dnsRespBytes]
    exact bytesOf_count (p := fun b => b.body.isDns isReply) h.responses hcount hlen
  windows := by
    rw [closedWindows, countP_snoc, Arrival.tracked, detectStep_baseline]
    exact h.windows.countIf (countP_snoc_lt hcount _) id

/-- A tally only reads counters, which the kill chain and `last_seen` do not touch. -/
theorem Tally.withChain {as : List (Arrival R)} {s : Suspect R} (h : Tally as s)
    (k : Suspect R) : Tally as (s.withChain k) :=
  ⟨h.1, h.2, h.3, h.4, h.5, h.6, h.7, h.8, h.9, h.10, h.11⟩

theorem Tally.touch {as : List (Arrival R)} {s : Suspect R} (h : Tally as s) (now : Int) :
    Tally as { s with lastSeen := now } :=
  ⟨h.1, h.2, h.3, h.4, h.5, h.6, h.7, h.8, h.9, h.10, h.11⟩

/-- The brute-force window starts at an arrival. -/
theorem history_bruteWindowStart {ip : UInt32} {as : List (Arrival R)} {s : Suspect R}
    (h : History ip as s) : ∃ b ∈ as, s.bruteWindowStart = b.now := by
  have hstep : ∀ a : Arrival R, a.result.1.bruteWindowStart = a.record.bruteWindowStart ∨
      a.result.1.bruteWindowStart = a.now := fun a => by
    have hw := congrArg Suspect.bruteWindowStart (result_tracked a)
    rw [hw, Suspect.withChain, Arrival.tracked]
    rcases detectStep_brute a.record a.body a.length a.now with ⟨_, h⟩ | ⟨_, ⟨_, h⟩ | ⟨_, h⟩⟩
    · exact .inl h
    · exact .inl h
    · exact .inr h
  induction h with
  | @first a ha =>
    refine ⟨a, by simp, ?_⟩
    rcases hstep a with h | h
    · rw [h, ha]
      rfl
    · exact h
  | @next as s a _ ha ih =>
    rcases hstep a with h | h
    · obtain ⟨b, hb, hs⟩ := ih
      exact ⟨b, List.mem_append_left _ hb, by rw [h, ha]; exact hs⟩
    · exact ⟨a, by simp, h⟩

/-- The tally of a history whose times do not decrease. -/
theorem history_tally {ip : UInt32} {as : List (Arrival R)} {s : Suspect R}
    (h : History ip as s) (htime : as.Pairwise (·.now ≤ ·.now)) (hcount : as.length < 2 ^ 31)
    (hlen : ∀ a ∈ as, a.length ≤ 65535) : Tally as s := by
  induction h with
  | @first a ha =>
    rw [result_tracked]
    have hfresh : Tally [] a.record := ha ▸ Tally.fresh ip a.now
    refine (hfresh.step ?_ (by simp) hlen).withChain _
    rw [ha]
    exact Int.le_refl _
  | @next as s a hs ha ih =>
    rw [List.length_append, List.length_singleton] at hcount
    obtain ⟨hpre, _, hlast⟩ := List.pairwise_append.mp htime
    have htally := ih hpre (by omega) fun b hb => hlen b (List.mem_append_left _ hb)
    rw [result_tracked]
    refine Tally.withChain (Tally.step ?_ ?_ hcount hlen) _
    · rw [ha]
      exact htally.touch a.now
    · obtain ⟨b, hb, hstart⟩ := history_bruteWindowStart hs
      rw [ha]
      show s.bruteWindowStart ≤ a.now
      rw [hstart]
      exact hlast b hb a (by simp)

/-! ## Alerts -/

/-- What the packets `as` of a source contain when `a` is reported at `now`. -/
def Justified (as : List (Arrival R)) (now : Int) : Attack → Prop
  | .nullScan => 3 ≤ as.countP (·.body.isNullScan)
  | .xmasScan => 3 ≤ as.countP (·.body.isXmasScan)
  | .synfinScan => 3 ≤ as.countP (·.body.isSynfinScan)
  | .bruteForce =>
    30 ≤ as.countP fun b => b.body.isAuthSyn && decide (now - 60 ≤ b.now ∧ b.now ≤ now)
  | .portScan => 15 ≤ (scannedPorts as).length
  | .synFlood =>
    10 < as.countP (·.body.isSyn) ∧ (closedWindows as < 100 → 100 < as.countP (·.body.isSyn))
  | .icmpFlood =>
    5 < as.countP (·.body.isIcmp) ∧ (closedWindows as < 100 → 20 < as.countP (·.body.isIcmp))
  | .dnsTunnel => 10 ≤ as.countP (·.suspicious)
  | .amplification => 100 ≤ requestBytes as ∧ 10 * requestBytes as < responseBytes as
  | .arpSpoof => False

/-- A flood threshold that is passed, in packets. -/
theorem flood_justified {s : Suspect R} {n : Int} {k w : Nat} {fixed floor : Int} {factor : R}
    (hfloor : floor ≤ fixed) (hn : Bounded n k) (hw : Bounded s.baseline.sampleCount w)
    (h : floodThreshold s.baseline fixed factor floor < n) :
    floor < k ∧ (w < 100 → fixed < k) := by
  have hle := floodThreshold_le s.baseline fixed factor floor hfloor
  refine ⟨by have := hn.2; omega, fun hlt => ?_⟩
  have hcal : s.baseline.sampleCount < EWMA_CALIBRATION := by
    have := hw.2
    simp only [EWMA_CALIBRATION]
    omega
  rw [floodThreshold_uncalibrated hcal] at h
  have := hn.2
  omega

/-- Passed thresholds are justified by the arrivals that the counters stand for. -/
theorem justified_of_fires {as : List (Arrival R)} {s : Suspect R} {now : Int} {a : Attack}
    (htally : Tally as s) (hnow : ∀ b ∈ as, b.now ≤ now) (hcount : as.length < 2 ^ 31)
    (hlen : ∀ b ∈ as, b.length ≤ 65535) (h : Fires s now a) : Justified as now a := by
  cases a with
  | nullScan => exact Int.ofNat_le.mp (Int.le_trans h htally.nullScan.2)
  | xmasScan => exact Int.ofNat_le.mp (Int.le_trans h htally.xmasScan.2)
  | synfinScan => exact Int.ofNat_le.mp (Int.le_trans h htally.synfinScan.2)
  | dnsTunnel => exact Int.ofNat_le.mp (Int.le_trans h htally.suspicious.2)
  | arpSpoof => exact h
  | synFlood =>
    have hf := flood_justified (by decide) htally.syn htally.windows h
    exact ⟨Int.ofNat_lt.mp hf.1, fun hw => Int.ofNat_lt.mp (hf.2 hw)⟩
  | icmpFlood =>
    have hf := flood_justified (by decide) htally.icmp htally.windows h
    exact ⟨Int.ofNat_lt.mp hf.1, fun hw => Int.ofNat_lt.mp (hf.2 hw)⟩
  -- the counted attempts lie in the window, which starts at most a minute before `now`
  | bruteForce =>
    obtain ⟨hcnt, hwin⟩ := h
    have hk := Int.ofNat_le.mp (Int.le_trans hcnt htally.brute.2)
    refine Nat.le_trans hk (List.countP_mono_left fun b hb hp => ?_)
    simp only [Bool.and_eq_true, decide_eq_true_eq, BRUTE_WINDOW_SEC] at hp hwin ⊢
    exact ⟨hp.1, by omega, hnow b hb⟩
  -- the recorded ports are distinct, so they are no more than the scanned ones
  | portScan =>
    obtain ⟨hnodup, hmem⟩ := htally.ports
    exact Nat.le_trans h (hnodup.subperm hmem).length_le
  | amplification =>
    obtain ⟨hreq, hresp⟩ := h
    have hle := bytesOf_le (fun b => b.plainQuery) hlen
    have hreq' := htally.requests
    have hresp' := htally.responses
    rw [requestBytes] at hreq'
    rw [UInt64.not_lt, UInt64.le_iff_toNat_le, hreq'] at hreq
    rw [UInt64.lt_iff_toNat_lt, UInt64.toNat_mul, hreq', hresp'] at hresp
    have h10 : AMPLIFICATION_RATIO.toNat = 10 := rfl
    have h100 : (100 : UInt64).toNat = 100 := rfl
    -- ten times the request bytes do not wrap either
    rw [h10, Nat.mod_eq_of_lt (by omega)] at hresp
    rw [h100] at hreq
    exact ⟨hreq, by rw [Nat.mul_comm]; exact hresp⟩

theorem mem_arrivals {ip : UInt32} {tr : List (Seen R)} {a : Arrival R}
    (h : a ∈ arrivals ip tr) :
    ∃ x ∈ tr, a.now = x.label.now ∧ a.length = x.label.packet.length := by
  obtain ⟨x, hx, harr⟩ := List.mem_filterMap.mp h
  obtain ⟨hnow, hlen, _⟩ := arrival_cases harr
  exact ⟨x, hx, hnow, hlen⟩

theorem arrivals_pairwise {ip : UInt32} {tr : List (Seen R)}
    (h : tr.Pairwise (·.label.now ≤ ·.label.now)) :
    (arrivals ip tr).Pairwise (·.now ≤ ·.now) := by
  refine List.Pairwise.filterMap _ (fun x y hxy a ha b hb => ?_) h
  rw [(arrival_cases ha).1, (arrival_cases hb).1]
  exact hxy

theorem frameMove_arpTable {st : Analyzer R} {p : Bytes} {now : Int} {r : Analyzer R × Outcome}
    (hm : FrameMove st p now r) {entry : ArpEntry} (h : entry ∈ r.1.arpTable.used) :
    entry ∈ st.arpTable.used ∨ classify p = .arpReply entry.mac entry.ip := by
  cases hm with
  | arpNew hc _ =>
    rw [Slots.used_pushD] at h
    split at h
    · rcases List.mem_append.mp h with h | h
      · exact .inl h
      · obtain rfl := List.mem_singleton.mp h
        exact .inr hc
    · exact .inl h
  | skip | arpAlert | packet => exact .inl h

/-- An entry of the ARP table was there before the call or is the call's own. -/
theorem processFrame_arpTable {st : Analyzer R} {p : Bytes} {now : Int} {entry : ArpEntry}
    (h : entry ∈ (processFrame st p now).1.arpTable.used) :
    entry ∈ st.arpTable.used ∨ classify p = .arpReply entry.mac entry.ip :=
  cleaned_arpTable st now ▸ frameMove_arpTable (processFrame_move st p now) h

/-- Every entry of the ARP table comes from a reply in the run. -/
theorem run_arpTable {st0 st : Analyzer R} {tr : List (Seen R)}
    (h : Lts.Run analyzerLts (analyzerReset st0) tr st) {entry : ArpEntry}
    (he : entry ∈ st.arpTable.used) :
    ∃ y ∈ tr, classify y.label.packet = .arpReply entry.mac entry.ip := by
  induction h with
  | nil => cases he
  | @snoc tr st st' c _ hs ih =>
    have hold : entry ∈ st.arpTable.used →
        ∃ y ∈ tr ++ [⟨st, c, st'⟩], classify y.label.packet = .arpReply entry.mac entry.ip :=
      fun he => by
        obtain ⟨y, hy, hc⟩ := ih he
        exact ⟨y, List.mem_append_left _ hy, hc⟩
    rw [← analyzerLts_step.mp hs] at he
    rcases processFrame_arpTable he with he | hc
    · exact hold he
    · exact ⟨⟨st, c, st'⟩, by simp, hc⟩

/-- Soundness of every alert: in a run from `analyzer_reset`, a reported IPv4 packet is
justified by the packets of its source since the record was created, and a reported ARP
reply contradicts an earlier one. -/
theorem alerts_justified {st0 st : Analyzer R} {tr : List (Seen R)} {x : Seen R} {a : Attack}
    (hrun : Lts.Run analyzerLts (analyzerReset st0) (tr ++ [x]) st)
    (htime : (tr ++ [x]).Pairwise (·.label.now ≤ ·.label.now))
    (hcount : (tr ++ [x]).length < 2 ^ 31)
    (hlen : ∀ y ∈ tr ++ [x], y.label.packet.length ≤ 65535) (hrep : Reports x a) :
    match classify x.label.packet with
    | .ipv4 src _ =>
      epoch src (tr ++ [x]) <:+ tr ++ [x] ∧
        Justified (arrivals src (epoch src (tr ++ [x]))) x.label.now a
    | .arpReply mac ip =>
      a = .arpSpoof ∧ ∃ y ∈ tr, ∃ ip', classify y.label.packet = .arpReply mac ip' ∧ ip' ≠ ip
    | .ignored => False := by
  obtain ⟨rfl, hpre, hstep⟩ := hrun.snoc_inv
  cases hc : classify x.label.packet with
  | ignored => exact not_reports_ignored hc hrep
  | arpReply mac ip =>
    obtain ⟨hattack, entry, hentry, hmac, hne⟩ := reports_arp hc hrep
    obtain ⟨y, hy, hframe⟩ := run_arpTable hpre hentry
    exact ⟨hattack, y, hy, entry.ip, hmac ▸ hframe, hne⟩
  | ipv4 src body =>
    refine ⟨epoch_suffix src _, ?_⟩
    obtain ⟨ar, harr, hattack⟩ := (reports_ipv4 hc hstep a).mp hrep
    have hafter := record_of_arrival hstep harr
    have hsub := (epoch_suffix src (tr ++ [x])).sublist
    have harrlen : ∀ b ∈ arrivals src (epoch src (tr ++ [x])), b.length ≤ 65535 := fun b hb => by
      obtain ⟨y, hy, _, hlen'⟩ := mem_arrivals hb
      rw [hlen']
      exact hlen y (hsub.mem hy)
    have hcount' : (arrivals src (epoch src (tr ++ [x]))).length < 2 ^ 31 :=
      Nat.lt_of_le_of_lt (Nat.le_trans (List.length_filterMap_le _ _) hsub.length_le) hcount
    have htally := history_tally (run_history hrun hafter)
      (arrivals_pairwise (htime.sublist hsub)) hcount' harrlen
    refine justified_of_fires htally (fun b hb => ?_) hcount' harrlen ?_
    · obtain ⟨y, hy, hnow, _⟩ := mem_arrivals hb
      rw [hnow]
      rcases List.mem_append.mp (hsub.mem hy) with hy | hy
      · exact (List.pairwise_append.mp htime).2.2 y hy x (by simp)
      · rw [List.mem_singleton.mp hy]
    · rw [result_tracked, fires_withChain, ← (arrival_cases harr).1]
      exact detectStep_fires hattack

/-- Three NULL packets of 1.2.3.4 in exact arithmetic, the third of them reported. -/
theorem alerts_justified_three_null :
    let c : Call := ⟨tcpFrame [1, 2, 3, 4] 22 0, 7⟩
    let tr : List (Seen ℝ) := observe .initial [c, c]
    let x : Seen ℝ := ⟨afterCalls .initial [c, c], c, afterCalls .initial [c, c, c]⟩
    Reports x .nullScan ∧
      Justified (arrivals 0x04030201 (epoch 0x04030201 (tr ++ [x]))) 7 .nullScan := by
  intro c tr x
  have hrun : Lts.Run analyzerLts (analyzerReset .initial) (tr ++ [x]) x.after :=
    observe_run (R := ℝ) .initial [c, c, c]
  have hrep : Reports x .nullScan :=
    (reports_iff hrun.snoc_inv.2.2 _).mpr (by decide +kernel)
  have hlabels : (tr ++ [x]).map (·.label) = [c, c, c] :=
    observe_labels (R := ℝ) .initial [c, c, c]
  have hall : ∀ y ∈ tr ++ [x], y.label = c := fun y hy => by
    have := List.mem_map_of_mem (f := (·.label)) hy
    simpa [hlabels] using this
  refine ⟨hrep, ?_⟩
  have htime : (tr ++ [x]).Pairwise (·.label.now ≤ ·.label.now) :=
    List.pairwise_iff_forall_sublist.mpr fun {a b} h => by
      rw [hall a (h.mem (by simp)), hall b (h.mem (by simp))]
  have hlen : ∀ y ∈ tr ++ [x], y.label.packet.length ≤ 65535 := fun y hy => by
    rw [hall y hy]
    decide
  have hclass : classify x.label.packet = .ipv4 0x04030201 (.tcp 22 0) := by decide +kernel
  have h := alerts_justified hrun htime (by simp [tr, observe]) hlen hrep
  rw [hclass] at h
  exact h.2

end TrafficAnalyzer
