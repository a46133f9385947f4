import TrafficAnalyzer.Agent.Analyzer

/-!
# Frames: `analyze_packet` never leaves its buffers

`classify` says what header validation finds in a capture, and `processFrame` what
the analyzer does with it, as total functions. `analyzePacket_eq` is the link: the
checked function of `TrafficAnalyzer.Agent.Analyzer` always has a result, and it is
this one. Every later result about the analyzer goes through it.
-/

namespace TrafficAnalyzer

/-! ## Classification -/

def byteAt (p : Bytes) (i : Nat) : UInt8 := p[i]?.getD 0
def wordAt (p : Bytes) (i : Nat) : UInt16 := be16 (byteAt p i) (byteAt p (i + 1))
def dwordAt (p : Bytes) (i : Nat) : UInt32 :=
  load32 (byteAt p i) (byteAt p (i + 1)) (byteAt p (i + 2)) (byteAt p (i + 3))

/-- The transport part of an IPv4 frame. `other` is a truncated TCP or UDP header or
an unknown protocol. -/
inductive Transport
  | icmp
  | tcp (dstPort : UInt16) (flags : UInt8)
  | udp (srcPort dstPort : UInt16) (payload : Bytes)
  | other
deriving DecidableEq, Repr

/-- A capture after header validation. `ignored` is everything that the analyzer
drops before it looks at a table. -/
inductive Frame
  | ignored
  | arpReply (mac : Bytes) (ip : UInt32)
  | ipv4 (src : UInt32) (body : Transport)
deriving DecidableEq, Repr

def classifyTransport (p : Bytes) (ipHlen : Nat) : Transport :=
  let l4 := NTA_ETH_HLEN + ipHlen
  let l4Len := p.length - NTA_ETH_HLEN - ipHlen
  let proto := byteAt p (NTA_ETH_HLEN + 9)
  if proto = NTA_PROTO_ICMP then .icmp
  else if proto = NTA_PROTO_TCP then
    if l4Len < sizeofTcpHdr then .other else .tcp (wordAt p (l4 + 2)) (byteAt p (l4 + 13))
  else if proto = NTA_PROTO_UDP then
    if l4Len < sizeofUdpHdr then .other
    else .udp (wordAt p l4) (wordAt p (l4 + 2)) (p.drop (l4 + 8))
  else .other

def classifyIpv4 (p : Bytes) : Frame :=
  if p.length < NTA_ETH_HLEN + sizeofIpv4Hdr then .ignored
  else
    let ipHlen := ipv4Hlen (byteAt p NTA_ETH_HLEN)
    if ipHlen < sizeofIpv4Hdr ∨ NTA_ETH_HLEN + ipHlen > p.length then .ignored
    else .ipv4 (dwordAt p (NTA_ETH_HLEN + 12)) (classifyTransport p ipHlen)

theorem classifyIpv4_cases (p : Bytes) :
    classifyIpv4 p = .ignored ∨ ∃ src body, classifyIpv4 p = .ipv4 src body := by
  unfold classifyIpv4
  split
  · exact .inl rfl
  · dsimp only
    split
    · exact .inl rfl
    · exact .inr ⟨_, _, rfl⟩

def classify (p : Bytes) : Frame :=
  if p.length < 14 then .ignored
  else if wordAt p 12 = 0x0806 then
    if p.length < 42 then .ignored
    else if wordAt p (14 + 6) ≠ 2 then .ignored
    else .arpReply ((p.drop (14 + 8)).take 6) (dwordAt p (14 + 14))
  else if wordAt p 12 ≠ 0x0800 then .ignored
  else classifyIpv4 p

theorem byte_eq {p : Bytes} {i : Nat} (h : i < p.length) : p[i]? = some (byteAt p i) := by
  simp [byteAt, List.getElem?_eq_getElem h]

theorem read16_eq {p : Bytes} {i : Nat} (h : i + 1 < p.length) :
    read16 p i = some (wordAt p i) := by
  simp [read16, wordAt, byte_eq h, byte_eq (show i < p.length by omega)]

theorem read32_eq {p : Bytes} {i : Nat} (h : i + 3 < p.length) :
    read32 p i = some (dwordAt p i) := by
  simp [read32, dwordAt, byte_eq h, byte_eq (show i < p.length by omega),
    byte_eq (show i + 1 < p.length by omega), byte_eq (show i + 2 < p.length by omega)]

theorem readBytes_eq {p : Bytes} {i n : Nat} (h : i + n ≤ p.length) :
    readBytes p i n = some ((p.drop i).take n) := by
  induction n generalizing i with
  | zero => simp [readBytes]
  | succ n ih =>
    have hi : i < p.length := by omega
    rw [List.drop_eq_getElem_cons hi, List.take_succ_cons]
    simp [readBytes, ih (i := i + 1) (by omega), hi]

/-! ## The DNS name walk -/

/-- Copying a label that lies inside the payload never fails, moves the pointer
forward and keeps room for the terminator. -/
theorem copyLabel_inside {payload : Bytes} {n ptr : Nat} {out : Slots UInt8 DOMAIN_SIZE}
    (hp : ptr + n ≤ payload.length) (ho : out.count ≤ DOMAIN_SIZE - 1) :
    ∃ ptr' out', copyLabel payload n ptr out = some (ptr', out') ∧ ptr ≤ ptr' ∧
      out'.count ≤ DOMAIN_SIZE - 1 := by
  induction n generalizing ptr out with
  | zero => exact ⟨ptr, out, rfl, Nat.le_refl _, ho⟩
  | succ n ih =>
    unfold copyLabel
    split
    · next hroom =>
      obtain ⟨out1, hpush, hused⟩ :=
        out.push?_of_lt (byteAt payload ptr) (by simp only [DOMAIN_SIZE] at *; omega)
      have hout1 : out1.count ≤ DOMAIN_SIZE - 1 := by
        simp only [Slots.count, hused, List.length_append, List.length_singleton] at *
        omega
      obtain ⟨ptr', out', h, hle, hroom'⟩ := ih (show ptr + 1 + n ≤ _ by omega) hout1
      refine ⟨ptr', out', ?_, by omega, hroom'⟩
      simp [byte_eq (show ptr < payload.length by omega), hpush, h]
    · exact ⟨ptr, out, rfl, Nat.le_refl _, ho⟩

theorem appendDot_inside {out : Slots UInt8 DOMAIN_SIZE} (ho : out.count ≤ DOMAIN_SIZE - 1) :
    ∃ out', appendDot out = some out' ∧ out'.count ≤ DOMAIN_SIZE - 1 := by
  unfold appendDot
  split
  · next hroom =>
    obtain ⟨out', hpush, hused⟩ :=
      out.push?_of_lt '.'.toUInt8 (by simp only [DOMAIN_SIZE] at *; omega)
    refine ⟨out', hpush, ?_⟩
    simp only [Slots.count, hused, List.length_append, List.length_singleton] at *
    omega
  · exact ⟨out, rfl, ho⟩

/-- The label walk ends within its fuel, reads inside the payload only, and leaves
room for the terminator. Every iteration moves the pointer past one length byte,
also after the text is full and the bytes of a label are read again as lengths. -/
theorem walkLabels_inside {payload : Bytes} {fuel ptr : Nat} {out : Slots UInt8 DOMAIN_SIZE}
    (hf : payload.length < ptr + fuel) (hfuel : 0 < fuel) (ho : out.count ≤ DOMAIN_SIZE - 1) :
    ∃ r, walkLabels payload fuel ptr out = some r ∧
      ∀ out', r = some out' → out'.count ≤ DOMAIN_SIZE - 1 := by
  induction fuel generalizing ptr out with
  | zero => omega
  | succ fuel ih =>
    unfold walkLabels
    split
    · next hptr =>
      simp only [byte_eq hptr, Option.bind_eq_bind, Option.bind_some]
      split
      · exact ⟨some out, rfl, by rintro _ ⟨⟩; exact ho⟩
      split
      · exact ⟨none, rfl, by rintro _ ⟨⟩⟩
      next hlabel =>
      have hend : ptr + 1 + (byteAt payload ptr).toNat ≤ payload.length := by omega
      obtain ⟨out1, h1, hout1⟩ := appendDot_inside ho
      obtain ⟨ptr', out', h2, hle, hout'⟩ := copyLabel_inside hend hout1
      simp only [h1, h2, Option.bind_some]
      exact ih (by omega) (by omega) hout'
    · exact ⟨some out, rfl, by rintro _ ⟨⟩; exact ho⟩

/-- `extract_dns_name` terminates on every payload, and the text it writes leaves the
last byte of `domain[256]` for the terminator. -/
theorem extractDnsName_inside (payload : Bytes) :
    ∃ name, extractDnsName payload = some name ∧ name.length < DOMAIN_SIZE := by
  unfold extractDnsName
  split
  · exact ⟨[], rfl, by simp [DOMAIN_SIZE]⟩
  · obtain ⟨r, hr, hroom⟩ := @walkLabels_inside payload (payload.length + 1) 12 .empty
      (by omega) (by omega) (by simp)
    rw [hr]
    cases r with
    | none => exact ⟨[], rfl, by simp [DOMAIN_SIZE]⟩
    | some out =>
      have hout := hroom out rfl
      have hlt : out.count < DOMAIN_SIZE := by simp only [DOMAIN_SIZE] at *; omega
      obtain ⟨_, hpush, _⟩ := out.push?_of_lt 0 hlt
      exact ⟨out.used, by simp [hpush], hlt⟩

/-- The text that `extract_dns_name` writes. -/
def dnsName (payload : Bytes) : Bytes := (extractDnsName payload).getD []

theorem extractDnsName_eq (payload : Bytes) : extractDnsName payload = some (dnsName payload) := by
  obtain ⟨name, h, _⟩ := extractDnsName_inside payload
  simp [dnsName, h]

/-! ## The analyzer on frames -/

section Process

variable {R : Type} [Double R]

def portScanStep (s : Suspect R) (dstPort : UInt16) : Suspect R × Option Attack :=
  if dstPort ∈ s.ports.used then (s, none)
  else
    let s := { s with ports := s.ports.pushD dstPort }
    (s, if s.ports.count ≥ SCAN_THRESHOLD then some .portScan else none)

/-- The record after `detect_dns_tunnel` has counted a query. -/
def countQuery (s : Suspect R) : Suspect R := { s with dnsQueryCount := inc32 s.dnsQueryCount }

/-- `detect_dns_tunnel` decodes a name in `payload` and classifies it as suspicious. -/
def querySuspicious (s : Suspect R) (payload : Bytes) : Bool :=
  decide (dnsName payload ≠ []) && dnsSuspicious (countQuery s) (dnsName payload)

def dnsTunnelStep (s : Suspect R) (payload : Bytes) : Suspect R × Option Attack :=
  if dnsName payload = [] then (s, none)
  else if querySuspicious s payload then
    let s := { countQuery s with dnsSuspiciousCount := inc32 s.dnsSuspiciousCount }
    (s, if s.dnsSuspiciousCount ≥ DNS_SUSPICIOUS_MAX then some .dnsTunnel else none)
  else (countQuery s, none)

/-- The QR bit. -/
def isResponse (payload : Bytes) : Bool := byteAt payload 2 &&& 0x80 ≠ 0

/-- The next detector of a chain runs on the record the previous one left, unless that
one has alerted. -/
def unlessAlert (r : Suspect R × Option Attack)
    (next : Suspect R → Suspect R × Option Attack) : Suspect R × Option Attack :=
  if r.2.isSome then r else next r.1

omit [Double R] in
theorem unlessAlert_some {r : Suspect R × Option Attack} {a : Attack} (h : r.2 = some a)
    (next : Suspect R → Suspect R × Option Attack) : unlessAlert r next = r := by
  simp [unlessAlert, h]

omit [Double R] in
theorem unlessAlert_none {r : Suspect R × Option Attack} (h : r.2 = none)
    (next : Suspect R → Suspect R × Option Attack) : unlessAlert r next = next r.1 := by
  simp [unlessAlert, h]

def dnsStep (s : Suspect R) (payload : Bytes) (length : Nat) : Suspect R × Option Attack :=
  if payload.length < 12 then (s, none)
  else if isResponse payload then detectAmplification s length true
  else unlessAlert (dnsTunnelStep s payload) fun s => detectAmplification s length false

def tcpStep (s : Suspect R) (flags : UInt8) (dstPort : UInt16) (now : Int) :
    Suspect R × Option Attack :=
  unlessAlert (detectStealthScan s flags) fun s =>
    unlessAlert (detectSynFlood s flags) fun s =>
      unlessAlert (detectBruteForce s flags dstPort now) fun s => portScanStep s dstPort

/-- A UDP packet with a DNS port. -/
def isDnsPorts (srcPort dstPort : UInt16) : Bool := srcPort = 53 || dstPort = 53

/-- The detectors that a packet reaches, on the record after the baseline update. -/
def detectStep (s : Suspect R) (t : Transport) (length : Nat) (now : Int) :
    Suspect R × Option Attack :=
  match t with
  | .icmp => detectIcmpFlood (withBaseline s false false now)
  | .tcp dstPort flags =>
    tcpStep (withBaseline s (decide (dstPort ∉ s.ports.used)) false now) flags dstPort now
  | .udp srcPort dstPort payload =>
    let s := withBaseline s false (isDnsPorts srcPort dstPort) now
    if isDnsPorts srcPort dstPort then dnsStep s payload length else (s, none)
  | .other => (s, none)

/-- The port and protocol that the event of a packet carries; none for a packet that
publishes nothing. -/
def Transport.publishes : Transport → Option (Nat × String)
  | .icmp => some (0, "ICMP")
  | .tcp dstPort _ => some (dstPort.toNat, "TCP")
  | .udp _ dstPort _ => some (dstPort.toNat, "UDP")
  | .other => none

def transportStep (s : Suspect R) (t : Transport) (src : UInt32) (length : Nat) (now : Int) :
    Suspect R × Outcome :=
  match t.publishes with
  | none => (s, .quiet)
  | some (port, proto) =>
    let (s, attack) := detectStep s t length now
    conclude s attack src port proto length now

/-- The record of `ip`, the first one with that address. -/
def Analyzer.record (st : Analyzer R) (ip : UInt32) : Option (Suspect R) :=
  st.suspects.used.find? (·.ip = ip)

def Analyzer.isHome (st : Analyzer R) (src : UInt32) : Bool :=
  st.homeCidrs.used.any fun hc => src &&& hc.maskBe = hc.addrBe

/-- The state after `cleanup_suspects(now)`. -/
def Analyzer.cleaned (st : Analyzer R) (now : Int) : Analyzer R :=
  if difftime now st.lastCleanup < CLEANUP_INTERVAL then st
  else
    { st with
      suspects := st.suspects.filter fun s => difftime now s.lastSeen < INACTIVE_TIMEOUT
      lastCleanup := now }

/-- The record that a packet of `src` works on, in a cleaned state: none for a HOME_NET
source, and none for a new source when the table is full. -/
def Analyzer.working (st : Analyzer R) (src : UInt32) (now : Int) : Option (Suspect R) :=
  if st.isHome src then none
  else
    match st.record src with
    | some s => some { s with lastSeen := now }
    | none => if MAX_SUSPECTS ≤ st.suspects.count then none else some (Suspect.fresh src now)

/-- `s` is written where the record of `src` is found, or appended. -/
def Analyzer.store (st : Analyzer R) (src : UInt32) (s : Suspect R) : Analyzer R :=
  { st with
    suspects :=
      if (st.record src).isSome then st.suspects.replaceFirst (·.ip = src) s
      else st.suspects.pushD s }

/-- A packet of `src` in a cleaned state. -/
def Analyzer.processIp (st : Analyzer R) (src : UInt32) (t : Transport) (length : Nat)
    (now : Int) : Analyzer R × Outcome :=
  match st.working src now with
  | none => (st, .quiet)
  | some s =>
    let (s, outcome) := transportStep s t src length now
    (st.store src s, outcome)

/-- An ARP reply: a MAC that was seen with another address is reported. -/
def Analyzer.processArp (st : Analyzer R) (mac : Bytes) (ip : UInt32) (length : Nat)
    (now : Int) : Analyzer R × Outcome :=
  match st.arpTable.used.find? (·.mac = mac) with
  | some entry =>
    if entry.ip ≠ ip then
      (st, ⟨1, [⟨inetNtoa ip, 0, "ARP", length, true, some .arpSpoof, .recon, 20, "T1557"⟩],
        [⟨.arpSpoof, inetNtoa ip, now⟩]⟩)
    else (st, .quiet)
  | none => ({ st with arpTable := st.arpTable.pushD ⟨mac, ip⟩ }, .quiet)

/-- The analyzer on one capture. -/
def processFrame (st : Analyzer R) (packet : Bytes) (now : Int) : Analyzer R × Outcome :=
  match classify packet with
  | .ignored => (st.cleaned now, .quiet)
  | .arpReply mac ip => (st.cleaned now).processArp mac ip packet.length now
  | .ipv4 src body => (st.cleaned now).processIp src body packet.length now

/-! ## The checked functions have these results -/

omit [Double R] in
theorem detectPortScan_eq (s : Suspect R) (dstPort : UInt16) :
    detectPortScan s dstPort = some (portScanStep s dstPort) := by
  unfold detectPortScan portScanStep
  obtain ⟨r, hr, hsome⟩ := s.ports.scan_isSome (· = dstPort)
  have hany : s.ports.used.any (· = dstPort) = decide (dstPort ∈ s.ports.used) := by
    rw [List.any_eq]
    simp
  rw [hr]
  cases r with
  | some i =>
    have h : dstPort ∈ s.ports.used := by simpa [hany] using hsome
    simp [h]
  | none =>
    have h : dstPort ∉ s.ports.used := by simpa [hany] using hsome
    simp only [h, Option.bind_eq_bind, Option.bind_some, if_false]
    by_cases hroom : s.ports.count < SCAN_THRESHOLD
    · obtain ⟨u, hu, _⟩ := s.ports.push?_of_lt dstPort hroom
      simp [hroom, hu, Slots.pushD]
    · have hfull : s.ports.push? dstPort = none :=
        Slots.push?_eq_none dstPort (Nat.le_antisymm s.ports.fits (by simpa using hroom))
      simp [hroom, hfull, Slots.pushD]

theorem detectDnsTunnel_eq (s : Suspect R) (payload : Bytes) :
    detectDnsTunnel s payload = some (dnsTunnelStep s payload) := by
  unfold detectDnsTunnel dnsTunnelStep
  simp only [extractDnsName_eq, Option.bind_eq_bind, Option.bind_some, List.length_eq_zero_iff]
  by_cases h : dnsName payload = []
  · simp [h]
  · cases hs : dnsSuspicious (countQuery s) (dnsName payload) <;>
      simp only [countQuery] at hs <;> simp [h, querySuspicious, hs, countQuery]

theorem tcpDetectors_eq (s : Suspect R) (flags : UInt8) (dstPort : UInt16) (now : Int) :
    tcpDetectors s flags dstPort now = some (tcpStep s flags dstPort now) := by
  simp only [tcpDetectors, tcpStep, unlessAlert, detectPortScan_eq]
  split
  · rfl
  · split
    · rfl
    · split <;> rfl

theorem dnsDetectors_eq (s : Suspect R) (payload : Bytes) (length : Nat) :
    dnsDetectors s payload length = some (dnsStep s payload length) := by
  unfold dnsDetectors dnsStep
  by_cases h : payload.length < 12
  · simp [h]
  · simp only [h, if_false, byte_eq (show 2 < payload.length by omega), Option.bind_eq_bind,
      Option.bind_some]
    by_cases hr : byteAt payload 2 &&& 0x80 = 0
    · simp only [hr, isResponse, detectDnsTunnel_eq, unlessAlert]
      simp
      split <;> rfl
    · simp [hr, isResponse]

theorem analyzeTransport_eq (s : Suspect R) (p : Bytes) (ipHlen : Nat) (src : UInt32) (now : Int)
    (hlen : NTA_ETH_HLEN + sizeofIpv4Hdr ≤ p.length) (hip : NTA_ETH_HLEN + ipHlen ≤ p.length) :
    analyzeTransport s p ipHlen src now =
      some (transportStep s (classifyTransport p ipHlen) src p.length now) := by
  unfold analyzeTransport classifyTransport
  simp only [NTA_ETH_HLEN, sizeofIpv4Hdr, sizeofTcpHdr, sizeofUdpHdr] at *
  rw [byte_eq (show 14 + 9 < p.length by omega)]
  simp only [Option.bind_eq_bind, Option.bind_some]
  by_cases hicmp : byteAt p (14 + 9) = NTA_PROTO_ICMP
  · simp only [hicmp, ↓reduceIte]
    rfl
  by_cases htcp : byteAt p (14 + 9) = NTA_PROTO_TCP
  · by_cases hl4 : p.length - 14 - ipHlen < 20
    · simp only [htcp, hl4, ↓reduceIte]
      rfl
    · obtain ⟨r, hr, hsome⟩ := s.ports.scan_isSome (· = wordAt p (14 + ipHlen + 2))
      have hnew : r.isNone = decide (wordAt p (14 + ipHlen + 2) ∉ s.ports.used) := by
        rw [← Option.not_isSome, hsome, List.any_eq]
        simp
      simp only [htcp, hl4, ↓reduceIte,
        read16_eq (show 14 + ipHlen + 2 + 1 < p.length by omega),
        byte_eq (show 14 + ipHlen + 13 < p.length by omega), hr, hnew, Option.bind_some,
        tcpDetectors_eq]
      rfl
  by_cases hudp : byteAt p (14 + 9) = NTA_PROTO_UDP
  · by_cases hl4 : p.length - 14 - ipHlen < 8
    · simp only [hudp, hl4, ↓reduceIte]
      rfl
    · simp only [hudp, hl4, ↓reduceIte,
        read16_eq (show 14 + ipHlen + 1 < p.length by omega),
        read16_eq (show 14 + ipHlen + 2 + 1 < p.length by omega), Option.bind_some,
        dnsDetectors_eq]
      cases hdns : isDnsPorts (wordAt p (14 + ipHlen)) (wordAt p (14 + ipHlen + 2)) with
      | true =>
        have hd : wordAt p (14 + ipHlen) = 53 ∨ wordAt p (14 + ipHlen + 2) = 53 := by
          simpa [isDnsPorts] using hdns
        simp [transportStep, Transport.publishes, detectStep, hdns, hd, NTA_PROTO_ICMP,
          NTA_PROTO_TCP, NTA_PROTO_UDP]
      | false =>
        have hd : ¬ (wordAt p (14 + ipHlen) = 53 ∨ wordAt p (14 + ipHlen + 2) = 53) := by
          simpa [isDnsPorts] using hdns
        simp [transportStep, Transport.publishes, detectStep, hdns, hd, NTA_PROTO_ICMP,
          NTA_PROTO_TCP, NTA_PROTO_UDP]
  · simp only [hicmp, htcp, hudp, ↓reduceIte]
    rfl

omit [Double R] in
theorem isHomeIp_eq (st : Analyzer R) (src : UInt32) :
    isHomeIp st.homeCidrs src = some (st.isHome src) := by
  obtain ⟨r, hr, hsome⟩ := st.homeCidrs.scan_isSome fun hc => src &&& hc.maskBe = hc.addrBe
  simp [isHomeIp, hr, hsome, Analyzer.isHome]

omit [Double R] in
theorem cleanupSuspects_eq (st : Analyzer R) (now : Int) :
    cleanupSuspects st now = some (st.cleaned now) := by
  unfold cleanupSuspects Analyzer.cleaned
  split
  · rfl
  · simp [Slots.compact_eq]

/-- The record that a packet of `src` works on lies in the table, at the index that
`find_or_create_suspect` answers. -/
theorem findOrCreate_found {t : Slots (Suspect R) MAX_SUSPECTS} {src : UInt32} {s : Suspect R}
    (now : Int) (h : t.used.find? (·.ip = src) = some s) :
    ∃ u i, findOrCreateSuspect t src now = some (u, some i) ∧
      u.used[i]? = some { s with lastSeen := now } ∧
      ∀ s', u.set? i s' = some (t.replaceFirst (·.ip = src) s') := by
  obtain ⟨hscan, hlt, hget⟩ := Slots.scan_found h
  have hlt' : t.used.findIdx (·.ip = src) < t.used.length := hlt
  refine ⟨⟨t.used.set (t.used.findIdx (·.ip = src)) { s with lastSeen := now }, by
    simpa using t.fits⟩, t.used.findIdx (·.ip = src), ?_, ?_, ?_⟩
  · simp [findOrCreateSuspect, hscan, hget, Slots.set?_of_lt _ hlt]
  · simp [hlt']
  · intro s'
    rw [Slots.set?_of_lt _ (by simpa [Slots.count] using hlt)]
    exact congrArg some (Slots.ext_used (by simp))

theorem findOrCreate_new {t : Slots (Suspect R) MAX_SUSPECTS} {src : UInt32} (now : Int)
    (h : t.used.find? (·.ip = src) = none) (hroom : t.count < MAX_SUSPECTS) :
    ∃ u i, findOrCreateSuspect t src now = some (u, some i) ∧
      u.used[i]? = some (Suspect.fresh src now) ∧
      ∀ s', u.set? i s' = some (t.pushD s') := by
  obtain ⟨u, hpush, hused⟩ := t.push?_of_lt (Suspect.fresh src now) hroom
  refine ⟨u, t.count, ?_, ?_, ?_⟩
  · simp [findOrCreateSuspect, Slots.scan_absent h, hpush, show ¬ MAX_SUSPECTS ≤ t.count by omega]
  · simp [hused, Slots.count]
  · intro s'
    rw [Slots.set?_of_lt _ (by simp [Slots.count, hused])]
    refine congrArg some (Slots.ext_used ?_)
    rw [Slots.used_pushD, if_pos hroom]
    simp [Slots.count, hused]

theorem analyzeIpv4_eq (st : Analyzer R) (p : Bytes) (now : Int) :
    analyzeIpv4 st p now = some (match classifyIpv4 p with
      | .ipv4 src body => st.processIp src body p.length now
      | _ => (st, .quiet)) := by
  unfold analyzeIpv4 classifyIpv4
  by_cases hlen : p.length < NTA_ETH_HLEN + sizeofIpv4Hdr
  · simp [hlen]
  have hlen' : 14 + 20 ≤ p.length := by simpa [NTA_ETH_HLEN, sizeofIpv4Hdr] using hlen
  rw [read32_eq (show NTA_ETH_HLEN + 12 + 3 < p.length by simp only [NTA_ETH_HLEN]; omega),
    byte_eq (show NTA_ETH_HLEN < p.length by simp only [NTA_ETH_HLEN]; omega)]
  simp only [hlen, ↓reduceIte, Option.bind_eq_bind, Option.bind_some, isHomeIp_eq]
  generalize hsrc : dwordAt p (NTA_ETH_HLEN + 12) = src
  generalize hihl : ipv4Hlen (byteAt p NTA_ETH_HLEN) = ipHlen
  by_cases hip : ipHlen < sizeofIpv4Hdr ∨ NTA_ETH_HLEN + ipHlen > p.length
  · simp [hip]
  have htransport : ∀ s : Suspect R, analyzeTransport s p ipHlen src now =
      some (transportStep s (classifyTransport p ipHlen) src p.length now) := fun s =>
    analyzeTransport_eq s p ipHlen src now (by omega) (by omega)
  simp only [hip, ↓reduceIte, Analyzer.processIp, Analyzer.working, Analyzer.store]
  cases st.isHome src with
  | true => rfl
  | false =>
    cases hrec : st.record src with
    | some s =>
      obtain ⟨u, i, hfind, hget, hset⟩ := findOrCreate_found now hrec
      simp [hfind, hget, htransport, hset]
    | none =>
      by_cases hfull : MAX_SUSPECTS ≤ st.suspects.count
      · simp [findOrCreateSuspect, Slots.scan_absent hrec, hfull]
      · obtain ⟨u, i, hfind, hget, hset⟩ :=
          findOrCreate_new now hrec (Nat.lt_of_not_le hfull)
        simp [hfind, hget, htransport, hset, hfull]

omit [Double R] in
theorem analyzeArp_eq (st : Analyzer R) (p : Bytes) (now : Int) :
    analyzeArp st p now = some (
      if p.length < 42 ∨ wordAt p (14 + 6) ≠ 2 then (st, .quiet)
      else st.processArp ((p.drop (14 + 8)).take 6) (dwordAt p (14 + 14)) p.length now) := by
  unfold analyzeArp detectArpSpoof
  by_cases hlen : p.length < 42
  · simp [hlen, Outcome.quiet]
  rw [read16_eq (show 14 + 6 + 1 < p.length by omega)]
  by_cases hop : wordAt p (14 + 6) = 2
  · rw [readBytes_eq (show 14 + 8 + 6 ≤ p.length by omega),
      read32_eq (show 14 + 14 + 3 < p.length by omega)]
    simp only [hlen, hop, Analyzer.processArp, Option.bind_eq_bind, Option.bind_some]
    cases hfind : st.arpTable.used.find? (·.mac = (p.drop (14 + 8)).take 6) with
    | some entry =>
      obtain ⟨hscan, hlt, hget⟩ := Slots.scan_found hfind
      by_cases hip : entry.ip = dwordAt p (14 + 14)
      · simp [hscan, hget, hip, Outcome.quiet]
      · simp [hscan, hget, hip, Nat.le_of_not_lt hlen]
    | none =>
      by_cases hroom : st.arpTable.count < MAX_ARP_ENTRIES
      · obtain ⟨u, hpush, _⟩ :=
          st.arpTable.push?_of_lt ⟨(p.drop (14 + 8)).take 6, dwordAt p (14 + 14)⟩ hroom
        simp [Slots.scan_absent hfind, hroom, hpush, Slots.pushD, Outcome.quiet]
      · have hfull : st.arpTable.push? ⟨(p.drop (14 + 8)).take 6, dwordAt p (14 + 14)⟩ = none :=
          Slots.push?_eq_none _ (Nat.le_antisymm st.arpTable.fits (by simpa using hroom))
        simp [Slots.scan_absent hfind, hroom, hfull, Slots.pushD, Outcome.quiet]
  · simp [hlen, hop, Outcome.quiet]

/-- `analyze_packet` always has a result: no lookup leaves the packet, no write leaves a
table, and no loop runs out of fuel. -/
theorem analyzePacket_eq (st : Analyzer R) (p : Bytes) (now : Int) :
    analyzePacket st p now = some (processFrame st p now) := by
  unfold analyzePacket processFrame classify
  rw [cleanupSuspects_eq]
  by_cases hlen : p.length < 14
  · simp [hlen]
  rw [read16_eq (show 12 + 1 < p.length by omega)]
  simp only [hlen, ↓reduceIte, Option.bind_eq_bind, Option.bind_some, analyzeArp_eq,
    analyzeIpv4_eq]
  by_cases harp : wordAt p 12 = 0x0806
  · simp only [harp, ↓reduceIte]
    by_cases hshort : p.length < 42
    · simp [hshort]
    by_cases hop : wordAt p (14 + 6) = 2 <;> simp [hshort, hop]
  · by_cases hip : wordAt p 12 = 0x0800
    · simp only [hip, ne_eq, not_true_eq_false, ↓reduceIte]
      rcases classifyIpv4_cases p with h | ⟨src, body, h⟩ <;> simp [h]
    · simp [harp, hip]

/-- Safety of `analyze_packet` on hostile input: every checked access of a call
succeeds, whatever the capture, the state and the time, the tables stay within their
arrays, and the DNS name walk ends inside `domain[0..255]`. -/
theorem analyzePacket_in_bounds (st : Analyzer R) (p : Bytes) (now : Int) :
    (∃ st' outcome, analyzePacket st p now = some (st', outcome) ∧
      st'.suspects.count ≤ 100 ∧ st'.arpTable.count ≤ 256 ∧
      ∀ s ∈ st'.suspects.used, s.ports.count ≤ 15) ∧
    ∀ payload, ∃ name, extractDnsName payload = some name ∧ name.length ≤ 255 := by
  refine ⟨⟨_, _, analyzePacket_eq st p now, Slots.count_le _, Slots.count_le _,
    fun s _ => s.ports.count_le⟩, fun payload => ?_⟩
  obtain ⟨name, h, hlt⟩ := extractDnsName_inside payload
  exact ⟨name, h, Nat.le_of_lt_succ hlt⟩

end Process

end TrafficAnalyzer
