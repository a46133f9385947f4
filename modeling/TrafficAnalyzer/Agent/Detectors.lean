import TrafficAnalyzer.Agent.Baseline
import TrafficAnalyzer.Agent.KillChain

/-!
# The detectors

Each detector takes the record of the source and returns the updated record with
the attack it reports, if any. The ones that touch an array or the packet return an
`Option`: `none` means that an access left its array.
-/

namespace TrafficAnalyzer

variable {R : Type} [Double R]

/-! ## TCP and ICMP -/

/-- SYN without ACK. -/
def synNoAck (flags : UInt8) : Bool :=
  flags &&& NTA_TH_SYN ≠ 0 && flags &&& NTA_TH_ACK = 0

/-- All flags of `mask` are set. -/
def hasFlags (flags mask : UInt8) : Bool := flags &&& mask = mask

def xmasMask : UInt8 := NTA_TH_FIN ||| NTA_TH_PUSH ||| NTA_TH_URG
def synfinMask : UInt8 := NTA_TH_SYN ||| NTA_TH_FIN

/-- The threshold rule of the flood detectors: `fixed` while the baseline is not
calibrated, then `(int)((ewma_pps + 3 * stddev) * factor)`, at least `floor`. -/
def floodThreshold (b : IpBaseline R) (fixed : Int) (factor : R) (floor : Int) : Int :=
  if EWMA_CALIBRATION ≤ b.sampleCount ∧ Double.lt (Double.ofInt 0) b.ewmaVarPps then
    let stddev := Double.sqrt b.ewmaVarPps
    let adaptive := b.ewmaPps + ewmaSigma * stddev
    let threshold := Double.trunc (adaptive * factor)
    if threshold < floor then floor else threshold
  else fixed

/-- The thresholds of `detect_syn_flood` and `detect_icmp_flood`. -/
def synFloodThreshold (b : IpBaseline R) : Int :=
  floodThreshold b SYN_FLOOD_THRESHOLD (Double.ofInt 2) 10
def icmpFloodThreshold (b : IpBaseline R) : Int :=
  floodThreshold b ICMP_THRESHOLD (Double.ofInt 3 / Double.ofInt 2) 5

/-- `detect_syn_flood`. -/
def detectSynFlood (s : Suspect R) (flags : UInt8) : Suspect R × Option Attack :=
  if !synNoAck flags then (s, none)
  else
    let s := { s with synCount := inc32 s.synCount }
    (s, if s.synCount > synFloodThreshold s.baseline then some .synFlood else none)

/-- `detect_stealth_scan`. -/
def detectStealthScan (s : Suspect R) (flags : UInt8) : Suspect R × Option Attack :=
  let s := if flags = 0 then { s with nullScanCount := inc32 s.nullScanCount } else s
  if flags = 0 ∧ s.nullScanCount ≥ STEALTH_THRESHOLD then (s, some .nullScan)
  else
    let s :=
      if hasFlags flags xmasMask then { s with xmasScanCount := inc32 s.xmasScanCount } else s
    if hasFlags flags xmasMask ∧ s.xmasScanCount ≥ STEALTH_THRESHOLD then (s, some .xmasScan)
    else
      let s :=
        if hasFlags flags synfinMask then { s with synfinScanCount := inc32 s.synfinScanCount }
        else s
      if hasFlags flags synfinMask ∧ s.synfinScanCount ≥ STEALTH_THRESHOLD then
        (s, some .synfinScan)
      else (s, none)

/-- The ports that `detect_brute_force` watches. -/
def isAuthPort (port : UInt16) : Bool :=
  port = PORT_SSH || port = PORT_FTP || port = PORT_RDP

/-- `detect_brute_force`. -/
def detectBruteForce (s : Suspect R) (flags : UInt8) (dstPort : UInt16) (now : Int) :
    Suspect R × Option Attack :=
  if !synNoAck flags then (s, none)
  else if !isAuthPort dstPort then (s, none)
  else
    let s :=
      if difftime now s.bruteWindowStart > BRUTE_WINDOW_SEC then
        { s with bruteCount := 0, bruteWindowStart := now }
      else s
    let s := { s with bruteCount := inc32 s.bruteCount }
    (s, if s.bruteCount ≥ BRUTE_THRESHOLD then some .bruteForce else none)

/-- `detect_port_scan`. -/
def detectPortScan (s : Suspect R) (dstPort : UInt16) : Option (Suspect R × Option Attack) := do
  match ← s.ports.scan (· = dstPort) with
  | some _ => some (s, none)
  | none =>
    let ports ← if s.ports.count < SCAN_THRESHOLD then s.ports.push? dstPort else some s.ports
    let s := { s with ports }
    some (s, if s.ports.count ≥ SCAN_THRESHOLD then some .portScan else none)

/-- `detect_icmp_flood`. -/
def detectIcmpFlood (s : Suspect R) : Suspect R × Option Attack :=
  let s := { s with icmpCount := inc32 s.icmpCount }
  (s, if s.icmpCount > icmpFloodThreshold s.baseline then some .icmpFlood else none)

/-! ## DNS -/

/-- `sizeof(domain)` in `detect_dns_tunnel`. -/
def DOMAIN_SIZE : Nat := 256

/-- `for (i = 0; i < n && pos < out_size - 1; i++) out[pos++] = *ptr++;` -/
def copyLabel (payload : Bytes) :
    Nat → Nat → Slots UInt8 DOMAIN_SIZE → Option (Nat × Slots UInt8 DOMAIN_SIZE)
  | 0, ptr, out => some (ptr, out)
  | n + 1, ptr, out =>
    if out.count < DOMAIN_SIZE - 1 then do
      let b ← payload[ptr]?
      let out ← out.push? b
      copyLabel payload n (ptr + 1) out
    else some (ptr, out)

/-- `if (pos > 0 && pos < out_size - 1) out[pos++] = '.';` -/
def appendDot (out : Slots UInt8 DOMAIN_SIZE) : Option (Slots UInt8 DOMAIN_SIZE) :=
  if 0 < out.count ∧ out.count < DOMAIN_SIZE - 1 then out.push? '.'.toUInt8 else some out

/-- The label walk of `extract_dns_name`; `none` in the result is its `return 0` on
a bad label. The fuel is the number of iterations left. -/
def walkLabels (payload : Bytes) :
    Nat → Nat → Slots UInt8 DOMAIN_SIZE → Option (Option (Slots UInt8 DOMAIN_SIZE))
  | 0, _, _ => none
  | fuel + 1, ptr, out =>
    if ptr < payload.length then do
      let labelLen ← payload[ptr]?
      if labelLen = 0 then some (some out)
      else
        let ptr := ptr + 1
        if labelLen.toNat > 63 ∨ ptr + labelLen.toNat > payload.length then some none
        else
          let out ← appendDot out
          let (ptr, out) ← copyLabel payload labelLen.toNat ptr out
          walkLabels payload fuel ptr out
    else some (some out)

/-- `extract_dns_name` into `domain[256]`: the text, whose length is the return
value. Every iteration consumes a byte, so the fuel covers all of them. -/
def extractDnsName (payload : Bytes) : Option Bytes :=
  if payload.length < 13 then some []
  else do
    match ← walkLabels payload (payload.length + 1) 12 .empty with
    | none => some []
    | some out =>
      -- out[pos] = '\0'
      let _ ← out.push? 0
      some out.used

/-- `calculate_entropy`. -/
def calculateEntropy (data : Bytes) : R :=
  if data.length = 0 then Double.ofInt 0
  else
    (List.range 256).foldl (fun entropy i =>
      let freq := data.count (UInt8.ofNat i)
      if freq = 0 then entropy
      else
        let p : R := Double.ofInt freq / Double.ofInt data.length
        entropy - p * Double.log2 p) (Double.ofInt 0)

/-- `DNS_ENTROPY_THRESH`. -/
def dnsEntropyThresh : R := Double.ofInt 7 / Double.ofInt 2

/-- The classification of one query in `detect_dns_tunnel`, after the query has been
counted. -/
def dnsSuspicious (s : Suspect R) (domain : Bytes) : Bool :=
  let firstLabelLen := (domain.takeWhile (· ≠ '.'.toUInt8)).length
  let suspicious := decide (firstLabelLen > DNS_SUBDOMAIN_LEN) ||
    Double.lt dnsEntropyThresh (calculateEntropy (R := R) domain)
  if !suspicious ∧ EWMA_CALIBRATION ≤ s.baseline.sampleCount then
    isAnomaly (Double.ofInt s.dnsQueryCount) s.baseline.ewmaDns s.baseline.ewmaVarDns
  else suspicious

/-- `detect_dns_tunnel`. -/
def detectDnsTunnel (s : Suspect R) (payload : Bytes) : Option (Suspect R × Option Attack) := do
  let domain ← extractDnsName payload
  if domain.length = 0 then some (s, none)
  else
    let s := { s with dnsQueryCount := inc32 s.dnsQueryCount }
    if dnsSuspicious s domain then
      let s := { s with dnsSuspiciousCount := inc32 s.dnsSuspiciousCount }
      some (s, if s.dnsSuspiciousCount ≥ DNS_SUSPICIOUS_MAX then some .dnsTunnel else none)
    else some (s, none)

/-- `detect_amplification`. -/
def detectAmplification (s : Suspect R) (bytes : Nat) (isResponse : Bool) :
    Suspect R × Option Attack :=
  let s :=
    if isResponse then { s with dnsRespBytes := s.dnsRespBytes + UInt64.ofNat bytes }
    else { s with dnsReqBytes := s.dnsReqBytes + UInt64.ofNat bytes }
  if s.dnsReqBytes < 100 then (s, none)
  else
    (s, if s.dnsRespBytes > s.dnsReqBytes * AMPLIFICATION_RATIO then some .amplification
      else none)

end TrafficAnalyzer
