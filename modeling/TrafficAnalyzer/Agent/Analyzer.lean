import TrafficAnalyzer.Agent.Detectors

/-!
# `analyze_packet`

The function as the source computes it. `none` means that some access left the
packet or one of the fixed arrays, or that a loop ran out of fuel;
`TrafficAnalyzer.Agent.Frames` shows that this never happens.
-/

namespace TrafficAnalyzer

variable {R : Type} [Double R]

/-- `is_home_ip`. -/
def isHomeIp (home : Slots HomeCidr MAX_HOME_CIDR) (src : UInt32) : Option Bool := do
  some (← home.scan fun hc => src &&& hc.maskBe = hc.addrBe).isSome

/-- `cleanup_suspects`. -/
def cleanupSuspects (st : Analyzer R) (now : Int) : Option (Analyzer R) :=
  if difftime now st.lastCleanup < CLEANUP_INTERVAL then some st
  else do
    let suspects ← st.suspects.compact fun s => difftime now s.lastSeen < INACTIVE_TIMEOUT
    some { st with suspects, lastCleanup := now }

/-- `find_or_create_suspect`: the table and the index of the record, or no index when
the table is full. -/
def findOrCreateSuspect (t : Slots (Suspect R) MAX_SUSPECTS) (ip : UInt32) (now : Int) :
    Option (Slots (Suspect R) MAX_SUSPECTS × Option Nat) := do
  match ← t.scan (·.ip = ip) with
  | some i =>
    let s ← t.get? i
    let t ← t.set? i { s with lastSeen := now }
    some (t, some i)
  | none =>
    if MAX_SUSPECTS ≤ t.count then some (t, none)
    else
      let i := t.count
      let t ← t.push? (Suspect.fresh ip now)
      some (t, some i)

/-- `detect_arp_spoof`: the ARP table, the attack, and what it publishes. -/
def detectArpSpoof (arp : Slots ArpEntry MAX_ARP_ENTRIES) (packet : Bytes) :
    Option (Slots ArpEntry MAX_ARP_ENTRIES × Option Attack × List Event) :=
  if packet.length < 42 then some (arp, none, [])
  else do
    let operation ← read16 packet (14 + 6)
    if operation ≠ 2 then some (arp, none, [])
    else
      let senderMac ← readBytes packet (14 + 8) 6
      let senderIp ← read32 packet (14 + 14)
      match ← arp.scan (·.mac = senderMac) with
      | some i =>
        let entry ← arp.get? i
        if entry.ip ≠ senderIp then
          some (arp, some .arpSpoof,
            [⟨inetNtoa senderIp, 0, "ARP", packet.length, true, some .arpSpoof, .recon, 20,
              "T1557"⟩])
        else some (arp, none, [])
      | none =>
        if arp.count < MAX_ARP_ENTRIES then
          let arp ← arp.push? ⟨senderMac, senderIp⟩
          some (arp, none, [])
        else some (arp, none, [])

/-- The end of each protocol branch: the kill chain, the collector and the event. -/
def conclude (s : Suspect R) (attack : Option Attack) (srcIp : UInt32) (port : Nat)
    (proto : String) (length : Nat) (now : Int) : Suspect R × Outcome :=
  let s := advanceKillChain s attack now
  let recorded := attack.toList.map fun a => ⟨a, inetNtoa srcIp, now⟩
  let event : Event := ⟨inetNtoa srcIp, port, proto, length, attack.isSome, attack, s.kcStage,
    s.kcScore, attackToMitre attack⟩
  (s, ⟨if attack.isSome then 1 else 0, [event], recorded⟩)

/-- The detector chain of the TCP branch: the first attack wins. -/
def tcpDetectors (s : Suspect R) (flags : UInt8) (dstPort : UInt16) (now : Int) :
    Option (Suspect R × Option Attack) :=
  let (s, attack) := detectStealthScan s flags
  if attack.isSome then some (s, attack)
  else
    let (s, attack) := detectSynFlood s flags
    if attack.isSome then some (s, attack)
    else
      let (s, attack) := detectBruteForce s flags dstPort now
      if attack.isSome then some (s, attack) else detectPortScan s dstPort

/-- The detectors of the UDP branch on a DNS payload. -/
def dnsDetectors (s : Suspect R) (payload : Bytes) (length : Nat) :
    Option (Suspect R × Option Attack) :=
  if payload.length < 12 then some (s, none)
  else do
    let flags ← payload[2]?
    let isResponse := decide (flags &&& 0x80 ≠ 0)
    let (s, attack) ← if isResponse then some (s, none) else detectDnsTunnel s payload
    if attack.isSome then some (s, attack) else some (detectAmplification s length isResponse)

/-- The record after the baseline update of a packet. -/
def withBaseline (s : Suspect R) (newPort isDns : Bool) (now : Int) : Suspect R :=
  { s with baseline := updateBaseline s.baseline newPort isDns now }

/-- The part of `analyze_packet` that works on the record of the source: the branch
on the protocol. A truncated TCP or UDP header and an unknown protocol publish
nothing. -/
def analyzeTransport (s : Suspect R) (packet : Bytes) (ipHlen : Nat) (srcIp : UInt32)
    (now : Int) : Option (Suspect R × Outcome) := do
  let length := packet.length
  let l4Len := length - NTA_ETH_HLEN - ipHlen
  let l4 := NTA_ETH_HLEN + ipHlen
  let proto ← packet[NTA_ETH_HLEN + 9]?
  if proto = NTA_PROTO_ICMP then
    let s := withBaseline s false false now
    let (s, attack) := detectIcmpFlood s
    some (conclude s attack srcIp 0 "ICMP" length now)
  else if proto = NTA_PROTO_TCP then
    if l4Len < sizeofTcpHdr then some (s, .quiet)
    else
      let dstPort ← read16 packet (l4 + 2)
      let flags ← packet[l4 + 13]?
      let newPort := (← s.ports.scan (· = dstPort)).isNone
      let s := withBaseline s newPort false now
      let (s, attack) ← tcpDetectors s flags dstPort now
      some (conclude s attack srcIp dstPort.toNat "TCP" length now)
  else if proto = NTA_PROTO_UDP then
    if l4Len < sizeofUdpHdr then some (s, .quiet)
    else
      let srcPort ← read16 packet l4
      let dstPort ← read16 packet (l4 + 2)
      let isDns := decide (srcPort = 53 ∨ dstPort = 53)
      let s := withBaseline s false isDns now
      let (s, attack) ←
        if isDns then dnsDetectors s (packet.drop (l4 + 8)) length else some (s, none)
      some (conclude s attack srcIp dstPort.toNat "UDP" length now)
  else some (s, .quiet)

/-- The IPv4 part of `analyze_packet`. -/
def analyzeIpv4 (st : Analyzer R) (packet : Bytes) (now : Int) : Option (Analyzer R × Outcome) :=
  let length := packet.length
  if length < NTA_ETH_HLEN + sizeofIpv4Hdr then some (st, .quiet)
  else do
    let srcIp ← read32 packet (NTA_ETH_HLEN + 12)
    let ipHlen := ipv4Hlen (← packet[NTA_ETH_HLEN]?)
    if ipHlen < sizeofIpv4Hdr ∨ NTA_ETH_HLEN + ipHlen > length then some (st, .quiet)
    else
      if ← isHomeIp st.homeCidrs srcIp then some (st, .quiet)
      else
        match ← findOrCreateSuspect st.suspects srcIp now with
        | (suspects, none) => some ({ st with suspects }, .quiet)
        | (suspects, some i) =>
          let s ← suspects.get? i
          let (s, outcome) ← analyzeTransport s packet ipHlen srcIp now
          let suspects ← suspects.set? i s
          some ({ st with suspects }, outcome)

/-- The ARP part of `analyze_packet`. -/
def analyzeArp (st : Analyzer R) (packet : Bytes) (now : Int) : Option (Analyzer R × Outcome) := do
  let (arpTable, attack, published) ← detectArpSpoof st.arpTable packet
  let st := { st with arpTable }
  match attack with
  | none => some (st, ⟨0, published, []⟩)
  | some a =>
    if 42 ≤ packet.length then
      let arpSender ← read32 packet 28
      some (st, ⟨1, published, [⟨a, inetNtoa arpSender, now⟩]⟩)
    else some (st, ⟨1, published, []⟩)

/-- `analyze_packet`. -/
def analyzePacket (st : Analyzer R) (packet : Bytes) (now : Int) :
    Option (Analyzer R × Outcome) := do
  let st ← cleanupSuspects st now
  if packet.length < 14 then some (st, .quiet)
  else
    let etherType ← read16 packet 12
    if etherType = 0x0806 then analyzeArp st packet now
    else if etherType ≠ 0x0800 then some (st, .quiet)
    else analyzeIpv4 st packet now

end TrafficAnalyzer
