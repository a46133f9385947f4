import TrafficAnalyzer.Agent.Frames

/-!
# What one packet does to a record

For every detector, the record it leaves and the attack it reports, in closed form:
which counters move, by how much, and that nothing else moves. `transportStep_record`
puts the kill chain on top. The results on runs use these lemmas and never unfold a
detector.
-/

namespace TrafficAnalyzer

variable {R : Type} [Double R]

/-- `n++` when `b` holds. -/
def countIf (b : Bool) (n : Int) : Int := if b then inc32 n else n

@[simp] theorem countIf_true (n : Int) : countIf true n = inc32 n := rfl
@[simp] theorem countIf_false (n : Int) : countIf false n = n := rfl

/-! ## TCP -/

/-- The XMAS test of `detect_stealth_scan` fires. -/
def xmasFires (s : Suspect R) (flags : UInt8) : Bool :=
  hasFlags flags xmasMask &&
    decide (STEALTH_THRESHOLD ≤ countIf (hasFlags flags xmasMask) s.xmasScanCount)

theorem not_hasFlags_zero : hasFlags 0 xmasMask = false ∧ hasFlags 0 synfinMask = false := by
  decide

omit [Double R] in
/-- The counters of `detect_stealth_scan`. The SYN-FIN counter is skipped when the XMAS
test has fired. -/
theorem detectStealthScan_record (s : Suspect R) (flags : UInt8) :
    (detectStealthScan s flags).1 =
      { s with
        nullScanCount := countIf (flags = 0) s.nullScanCount
        xmasScanCount := countIf (hasFlags flags xmasMask) s.xmasScanCount
        synfinScanCount :=
          countIf (hasFlags flags synfinMask && !xmasFires s flags) s.synfinScanCount } := by
  unfold detectStealthScan xmasFires
  by_cases h0 : flags = 0
  · subst h0
    obtain ⟨hx, hs⟩ := not_hasFlags_zero
    by_cases ht : STEALTH_THRESHOLD ≤ inc32 s.nullScanCount <;> simp [hx, hs, ht]
  · by_cases hxt : STEALTH_THRESHOLD ≤ inc32 s.xmasScanCount <;>
      by_cases hst : STEALTH_THRESHOLD ≤ inc32 s.synfinScanCount <;>
      cases hx : hasFlags flags xmasMask <;> cases hs : hasFlags flags synfinMask <;>
      simp [h0, hxt, hst]

omit [Double R] in
/-- The verdict of `detect_stealth_scan`. -/
theorem detectStealthScan_attack (s : Suspect R) (flags : UInt8) :
    (detectStealthScan s flags).2 =
      if flags = 0 ∧ STEALTH_THRESHOLD ≤ countIf (flags = 0) s.nullScanCount then some .nullScan
      else if xmasFires s flags then some .xmasScan
      else if hasFlags flags synfinMask ∧
        STEALTH_THRESHOLD ≤ countIf (hasFlags flags synfinMask) s.synfinScanCount then
          some .synfinScan
      else none := by
  unfold detectStealthScan xmasFires
  by_cases h0 : flags = 0
  · subst h0
    obtain ⟨hx, hs⟩ := not_hasFlags_zero
    by_cases ht : STEALTH_THRESHOLD ≤ inc32 s.nullScanCount <;> simp [hx, hs, ht]
  · by_cases hxt : STEALTH_THRESHOLD ≤ inc32 s.xmasScanCount <;>
      by_cases hst : STEALTH_THRESHOLD ≤ inc32 s.synfinScanCount <;>
      cases hx : hasFlags flags xmasMask <;> cases hs : hasFlags flags synfinMask <;>
      simp [h0, hxt, hst]

theorem detectSynFlood_record (s : Suspect R) (flags : UInt8) :
    (detectSynFlood s flags).1 =
      { s with synCount := countIf (synNoAck flags) s.synCount } := by
  unfold detectSynFlood
  cases synNoAck flags <;> simp

theorem detectSynFlood_attack (s : Suspect R) (flags : UInt8) :
    (detectSynFlood s flags).2 =
      if synNoAck flags ∧ synFloodThreshold s.baseline < inc32 s.synCount then some .synFlood
      else none := by
  unfold detectSynFlood
  cases synNoAck flags <;> simp

/-- A packet that `detect_brute_force` counts. -/
def isAuthSyn (flags : UInt8) (dstPort : UInt16) : Bool := synNoAck flags && isAuthPort dstPort

/-- The brute-force window of `s` is over at `now`. -/
def Suspect.bruteExpired (s : Suspect R) (now : Int) : Bool :=
  decide (BRUTE_WINDOW_SEC < difftime now s.bruteWindowStart)

omit [Double R] in
theorem detectBruteForce_record (s : Suspect R) (flags : UInt8) (dstPort : UInt16) (now : Int) :
    (detectBruteForce s flags dstPort now).1 =
      { s with
        bruteCount :=
          countIf (isAuthSyn flags dstPort)
            (if isAuthSyn flags dstPort && s.bruteExpired now then 0 else s.bruteCount)
        bruteWindowStart :=
          if isAuthSyn flags dstPort && s.bruteExpired now then now else s.bruteWindowStart } := by
  unfold detectBruteForce isAuthSyn Suspect.bruteExpired
  by_cases he : BRUTE_WINDOW_SEC < difftime now s.bruteWindowStart <;>
    cases synNoAck flags <;> cases isAuthPort dstPort <;> simp [he]

omit [Double R] in
theorem detectBruteForce_attack (s : Suspect R) (flags : UInt8) (dstPort : UInt16) (now : Int) :
    (detectBruteForce s flags dstPort now).2 =
      if isAuthSyn flags dstPort ∧
        BRUTE_THRESHOLD ≤ inc32 (if s.bruteExpired now then 0 else s.bruteCount) then
          some .bruteForce
      else none := by
  unfold detectBruteForce isAuthSyn Suspect.bruteExpired
  by_cases he : BRUTE_WINDOW_SEC < difftime now s.bruteWindowStart <;>
    cases synNoAck flags <;> cases isAuthPort dstPort <;> simp [he]

omit [Double R] in
theorem portScanStep_record (s : Suspect R) (dstPort : UInt16) :
    (portScanStep s dstPort).1 =
      { s with
        ports := if dstPort ∈ s.ports.used then s.ports else s.ports.pushD dstPort } := by
  unfold portScanStep
  split <;> rfl

omit [Double R] in
theorem portScanStep_attack (s : Suspect R) (dstPort : UInt16) :
    (portScanStep s dstPort).2 =
      if dstPort ∉ s.ports.used ∧ SCAN_THRESHOLD ≤ (s.ports.pushD dstPort).count then
        some .portScan
      else none := by
  unfold portScanStep
  split
  · next h => simp [h]
  · next h => simp [h]

/-- How far the TCP chain goes: the first detector that alerts ends it. -/
theorem tcpStep_cases (s : Suspect R) (flags : UInt8) (dstPort : UInt16) (now : Int) :
    let s1 := (detectStealthScan s flags).1
    let s2 := (detectSynFlood s1 flags).1
    let s3 := (detectBruteForce s2 flags dstPort now).1
    (∃ a, (detectStealthScan s flags).2 = some a ∧
        tcpStep s flags dstPort now = detectStealthScan s flags) ∨
      (detectStealthScan s flags).2 = none ∧
        ((∃ a, (detectSynFlood s1 flags).2 = some a ∧
            tcpStep s flags dstPort now = detectSynFlood s1 flags) ∨
          (detectSynFlood s1 flags).2 = none ∧
            ((∃ a, (detectBruteForce s2 flags dstPort now).2 = some a ∧
                tcpStep s flags dstPort now = detectBruteForce s2 flags dstPort now) ∨
              (detectBruteForce s2 flags dstPort now).2 = none ∧
                tcpStep s flags dstPort now = portScanStep s3 dstPort)) := by
  intro s1 s2 s3
  unfold tcpStep
  cases h1 : (detectStealthScan s flags).2 with
  | some a => exact .inl ⟨a, rfl, unlessAlert_some h1 _⟩
  | none =>
    rw [unlessAlert_none h1]
    refine .inr ⟨rfl, ?_⟩
    cases h2 : (detectSynFlood s1 flags).2 with
    | some a => exact .inl ⟨a, rfl, unlessAlert_some h2 _⟩
    | none =>
      rw [unlessAlert_none h2]
      refine .inr ⟨rfl, ?_⟩
      cases h3 : (detectBruteForce s2 flags dstPort now).2 with
      | some a => exact .inl ⟨a, rfl, unlessAlert_some h3 _⟩
      | none => exact .inr ⟨rfl, unlessAlert_none h3 _⟩

/-- The verdicts of the four TCP detectors, each on the record `s` itself. -/
def stealthSilent (s : Suspect R) (flags : UInt8) : Bool := (detectStealthScan s flags).2.isNone
def synSilent (s : Suspect R) (flags : UInt8) : Bool := (detectSynFlood s flags).2.isNone
def bruteSilent (s : Suspect R) (flags : UInt8) (dstPort : UInt16) (now : Int) : Bool :=
  (detectBruteForce s flags dstPort now).2.isNone

/-- A detector reads no counter of another one, so its verdict in the chain is its
verdict on the record that the packet finds. -/
theorem synFlood_after_stealth (s : Suspect R) (flags : UInt8) :
    (detectSynFlood (detectStealthScan s flags).1 flags).2 = (detectSynFlood s flags).2 := by
  simp only [detectSynFlood_attack, detectStealthScan_record]

theorem bruteForce_after_syn (s : Suspect R) (flags : UInt8) (dstPort : UInt16) (now : Int) :
    (detectBruteForce (detectSynFlood (detectStealthScan s flags).1 flags).1 flags dstPort now).2 =
      (detectBruteForce s flags dstPort now).2 := by
  simp only [detectBruteForce_attack, detectSynFlood_record, detectStealthScan_record]
  rfl

theorem portScan_after_brute (s : Suspect R) (flags : UInt8) (dstPort : UInt16) (now : Int) :
    (portScanStep (detectBruteForce (detectSynFlood (detectStealthScan s flags).1 flags).1 flags
      dstPort now).1 dstPort).2 = (portScanStep s dstPort).2 := by
  simp only [portScanStep_attack, detectBruteForce_record, detectSynFlood_record,
    detectStealthScan_record]

/-- The verdict of the chain is the first verdict of the four detectors. -/
theorem tcpStep_attack (s : Suspect R) (flags : UInt8) (dstPort : UInt16) (now : Int) :
    (tcpStep s flags dstPort now).2 =
      ((detectStealthScan s flags).2.or ((detectSynFlood s flags).2.or
        ((detectBruteForce s flags dstPort now).2.or (portScanStep s dstPort).2))) := by
  rw [← synFlood_after_stealth, ← bruteForce_after_syn, ← portScan_after_brute s flags dstPort now]
  rcases tcpStep_cases s flags dstPort now with
    ⟨a, h1, h⟩ | ⟨h1, ⟨a, h2, h⟩ | ⟨h2, ⟨a, h3, h⟩ | ⟨h3, h⟩⟩⟩ <;> rw [h] <;> simp [*]

/-- The record of the chain: every detector counts the packets on which all detectors
before it are silent. -/
theorem tcpStep_record (s : Suspect R) (flags : UInt8) (dstPort : UInt16) (now : Int) :
    (tcpStep s flags dstPort now).1 =
      { s with
        nullScanCount := (detectStealthScan s flags).1.nullScanCount
        xmasScanCount := (detectStealthScan s flags).1.xmasScanCount
        synfinScanCount := (detectStealthScan s flags).1.synfinScanCount
        synCount :=
          if stealthSilent s flags then (detectSynFlood s flags).1.synCount else s.synCount
        bruteCount :=
          if stealthSilent s flags && synSilent s flags then
            (detectBruteForce s flags dstPort now).1.bruteCount
          else s.bruteCount
        bruteWindowStart :=
          if stealthSilent s flags && synSilent s flags then
            (detectBruteForce s flags dstPort now).1.bruteWindowStart
          else s.bruteWindowStart
        ports :=
          if stealthSilent s flags && synSilent s flags && bruteSilent s flags dstPort now then
            (portScanStep s dstPort).1.ports
          else s.ports } := by
  unfold stealthSilent synSilent bruteSilent
  rw [← synFlood_after_stealth, ← bruteForce_after_syn]
  rcases tcpStep_cases s flags dstPort now with
    ⟨a, h1, h⟩ | ⟨h1, ⟨a, h2, h⟩ | ⟨h2, ⟨a, h3, h⟩ | ⟨h3, h⟩⟩⟩ <;> rw [h] <;>
    simp only [*, Option.isNone_some, Option.isNone_none, Bool.false_and, Bool.and_false,
      Bool.and_true, Bool.false_eq_true, ↓reduceIte] <;>
    simp [detectStealthScan_record, detectSynFlood_record, detectBruteForce_record,
      portScanStep_record, Suspect.bruteExpired]

/-! ## ICMP and UDP -/

theorem detectIcmpFlood_record (s : Suspect R) :
    (detectIcmpFlood s).1 = { s with icmpCount := inc32 s.icmpCount } := rfl

theorem detectIcmpFlood_attack (s : Suspect R) :
    (detectIcmpFlood s).2 =
      if icmpFloodThreshold s.baseline < inc32 s.icmpCount then some .icmpFlood else none := rfl

theorem dnsTunnelStep_record (s : Suspect R) (payload : Bytes) :
    (dnsTunnelStep s payload).1 =
      { s with
        dnsQueryCount := countIf (dnsName payload ≠ []) s.dnsQueryCount
        dnsSuspiciousCount := countIf (querySuspicious s payload) s.dnsSuspiciousCount } := by
  unfold dnsTunnelStep
  by_cases h : dnsName payload = []
  · simp [h, querySuspicious]
  · cases hq : querySuspicious s payload <;> simp [h, countQuery]

theorem dnsTunnelStep_attack (s : Suspect R) (payload : Bytes) :
    (dnsTunnelStep s payload).2 =
      if querySuspicious s payload ∧ DNS_SUSPICIOUS_MAX ≤ inc32 s.dnsSuspiciousCount then
        some .dnsTunnel
      else none := by
  unfold dnsTunnelStep
  by_cases h : dnsName payload = []
  · simp [h, querySuspicious]
  · cases hq : querySuspicious s payload <;> simp [h, countQuery]

omit [Double R] in
theorem detectAmplification_record (s : Suspect R) (bytes : Nat) (isResponse : Bool) :
    (detectAmplification s bytes isResponse).1 =
      { s with
        dnsReqBytes := if isResponse then s.dnsReqBytes else s.dnsReqBytes + UInt64.ofNat bytes
        dnsRespBytes :=
          if isResponse then s.dnsRespBytes + UInt64.ofNat bytes else s.dnsRespBytes } := by
  unfold detectAmplification
  cases isResponse <;> simp <;> split <;> rfl

omit [Double R] in
theorem detectAmplification_attack (s : Suspect R) (bytes : Nat) (isResponse : Bool) :
    let s' := (detectAmplification s bytes isResponse).1
    (detectAmplification s bytes isResponse).2 =
      if s'.dnsReqBytes < 100 then none
      else if s'.dnsReqBytes * AMPLIFICATION_RATIO < s'.dnsRespBytes then some .amplification
      else none := by
  intro s'
  have hs : s' = (detectAmplification s bytes isResponse).1 := rfl
  rw [detectAmplification_record] at hs
  rw [hs]
  unfold detectAmplification
  cases isResponse <;> simp only [Bool.false_eq_true, ↓reduceIte] <;> split <;> rfl

/-- A DNS message that reaches the detectors, and the sort of it. -/
def isQuery (payload : Bytes) : Bool := decide (12 ≤ payload.length) && !isResponse payload
def isReply (payload : Bytes) : Bool := decide (12 ≤ payload.length) && isResponse payload

/-- The verdict of the tunnel detector on the record `s` itself. -/
def tunnelSilent (s : Suspect R) (payload : Bytes) : Bool := (dnsTunnelStep s payload).2.isNone

theorem amplification_after_tunnel (s : Suspect R) (payload : Bytes) (length : Nat) :
    (detectAmplification (dnsTunnelStep s payload).1 length false).2 =
      (detectAmplification s length false).2 := by
  simp only [detectAmplification_attack, detectAmplification_record, dnsTunnelStep_record]

theorem dnsStep_attack (s : Suspect R) (payload : Bytes) (length : Nat) :
    (dnsStep s payload length).2 =
      if isReply payload then (detectAmplification s length true).2
      else if isQuery payload then
        (dnsTunnelStep s payload).2.or (detectAmplification s length false).2
      else none := by
  unfold dnsStep isReply isQuery
  rw [← amplification_after_tunnel s payload]
  by_cases hlen : payload.length < 12
  · simp [hlen, Nat.not_le.mpr hlen]
  · cases hr : isResponse payload with
    | true => simp [hlen, Nat.le_of_not_lt hlen]
    | false =>
      simp only [hlen, Nat.le_of_not_lt hlen, ↓reduceIte, Bool.false_eq_true, decide_true,
        Bool.and_false, Bool.not_false, Bool.and_true]
      cases h : (dnsTunnelStep s payload).2 with
      | none => rw [unlessAlert_none h]; simp
      | some a => rw [unlessAlert_some h, h]; simp

/-- The record of the DNS chain: a query that the tunnel detector reports is not counted
into the request bytes. -/
theorem dnsStep_record (s : Suspect R) (payload : Bytes) (length : Nat) :
    (dnsStep s payload length).1 =
      { s with
        dnsQueryCount := countIf (isQuery payload && dnsName payload ≠ []) s.dnsQueryCount
        dnsSuspiciousCount :=
          countIf (isQuery payload && querySuspicious s payload) s.dnsSuspiciousCount
        dnsReqBytes :=
          if isQuery payload && tunnelSilent s payload then
            s.dnsReqBytes + UInt64.ofNat length
          else s.dnsReqBytes
        dnsRespBytes :=
          if isReply payload then s.dnsRespBytes + UInt64.ofNat length else s.dnsRespBytes } := by
  unfold dnsStep isReply isQuery tunnelSilent
  by_cases hlen : payload.length < 12
  · simp [hlen, Nat.not_le.mpr hlen]
  · cases hr : isResponse payload with
    | true => simp [hlen, Nat.le_of_not_lt hlen, detectAmplification_record]
    | false =>
      simp only [hlen, Nat.le_of_not_lt hlen, ↓reduceIte, Bool.false_eq_true, decide_true,
        Bool.and_false, Bool.not_false, Bool.true_and]
      cases h : (dnsTunnelStep s payload).2 with
      | none =>
        rw [unlessAlert_none h]
        simp [detectAmplification_record, dnsTunnelStep_record]
      | some a =>
        rw [unlessAlert_some h]
        simp [dnsTunnelStep_record]

/-! ## The frame of a packet -/

/-- The detectors change neither the identity of the record nor its kill chain. -/
theorem detectStep_frame (s : Suspect R) (t : Transport) (length : Nat) (now : Int) :
    let s' := (detectStep s t length now).1
    s'.ip = s.ip ∧ s'.lastSeen = s.lastSeen ∧ s'.kcStage = s.kcStage ∧
      s'.kcStageEntered = s.kcStageEntered ∧ s'.kcFirstSeen = s.kcFirstSeen ∧
      s'.kcStagesHit = s.kcStagesHit ∧ s'.kcScore = s.kcScore ∧ s'.kcMitre = s.kcMitre := by
  intro s'
  cases t with
  | icmp => simp [s', detectStep, detectIcmpFlood_record, withBaseline]
  | tcp dstPort flags =>
    simp [s', detectStep, tcpStep_record, withBaseline]
  | udp srcPort dstPort payload =>
    simp only [s', detectStep]
    split <;> simp [dnsStep_record, withBaseline]
  | other => simp [s', detectStep]

/-- A packet updates the counters and then the kill chain. -/
theorem transportStep_record (s : Suspect R) (t : Transport) (src : UInt32) (length : Nat)
    (now : Int) :
    (transportStep s t src length now).1 =
      advanceKillChain (detectStep s t length now).1 (detectStep s t length now).2 now := by
  cases t <;> rfl

/-- What a packet reports is what the detectors answer. -/
theorem transportStep_reports (s : Suspect R) (t : Transport) (src : UInt32) (length : Nat)
    (now : Int) :
    (transportStep s t src length now).2.ret =
        (if (detectStep s t length now).2.isSome then 1 else 0) ∧
      (transportStep s t src length now).2.recorded =
        (detectStep s t length now).2.toList.map fun a => ⟨a, inetNtoa src, now⟩ := by
  cases t <;> exact ⟨rfl, rfl⟩

@[simp] theorem transportStep_ip (s : Suspect R) (t : Transport) (src : UInt32) (length : Nat)
    (now : Int) : (transportStep s t src length now).1.ip = s.ip := by
  rw [transportStep_record]
  exact (congrArg Suspect.ip (advanceKillChain_frame _ _ _)).trans
    (detectStep_frame s t length now).1

@[simp] theorem transportStep_lastSeen (s : Suspect R) (t : Transport) (src : UInt32)
    (length : Nat) (now : Int) : (transportStep s t src length now).1.lastSeen = s.lastSeen := by
  rw [transportStep_record]
  exact (congrArg Suspect.lastSeen (advanceKillChain_frame _ _ _)).trans
    (detectStep_frame s t length now).2.1

end TrafficAnalyzer
