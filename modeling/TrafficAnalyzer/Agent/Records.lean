import TrafficAnalyzer.Lib.Double
import TrafficAnalyzer.Lib.Slots
import TrafficAnalyzer.Agent.Wire

/-!
# Constants and records of the analyzer (`src/agent/analysis/analyzer.c`)

The attack names of the source are string constants that are only compared and
copied; `Attack` enumerates them and `Attack.name` gives the text.
-/

namespace TrafficAnalyzer

/-! ## Configuration -/

def MAX_HOME_CIDR : Nat := 8
def MAX_SUSPECTS : Nat := 100
def CLEANUP_INTERVAL : Int := 60
def INACTIVE_TIMEOUT : Int := 300
def MAX_ARP_ENTRIES : Nat := 256

def SCAN_THRESHOLD : Nat := 15
def ICMP_THRESHOLD : Int := 20
def SYN_FLOOD_THRESHOLD : Int := 100
def STEALTH_THRESHOLD : Int := 3
def BRUTE_THRESHOLD : Int := 30
def BRUTE_WINDOW_SEC : Int := 60
def DNS_SUBDOMAIN_LEN : Nat := 50
def DNS_SUSPICIOUS_MAX : Int := 10
def AMPLIFICATION_RATIO : UInt64 := 10

def PORT_SSH : UInt16 := 22
def PORT_FTP : UInt16 := 21
def PORT_RDP : UInt16 := 3389

def EWMA_CALIBRATION : Int := 100
def EWMA_WINDOW_SEC : Int := 60

def KC_WINDOW_SEC : Int := 1800
def KC_MITRE_SIZE : Nat := 128

/-! ## Attacks and stages -/

/-- The attack names that the detectors return. -/
inductive Attack
  | portScan | nullScan | xmasScan | synfinScan | arpSpoof
  | synFlood | bruteForce
  | dnsTunnel | amplification | icmpFlood
deriving DecidableEq, Repr

def Attack.name : Attack → String
  | .portScan => "PORT_SCAN"
  | .nullScan => "NULL_SCAN"
  | .xmasScan => "XMAS_SCAN"
  | .synfinScan => "SYNFIN_SCAN"
  | .arpSpoof => "ARP_SPOOF"
  | .synFlood => "SYN_FLOOD"
  | .bruteForce => "BRUTE_FORCE"
  | .dnsTunnel => "DNS_TUNNEL"
  | .amplification => "AMPLIFICATION"
  | .icmpFlood => "ICMP_FLOOD"

/-- `strcmp` on the names is equality of the enumeration. -/
theorem Attack.name_injective {a b : Attack} (h : a.name = b.name) : a = b := by
  revert h
  cases a <;> cases b <;> simp [Attack.name]

inductive KillChainStage
  | idle | recon | exploit | exfil | complete
deriving DecidableEq, Repr

/-- The value of the C enumerator. -/
def KillChainStage.toNat : KillChainStage → Nat
  | .idle => 0
  | .recon => 1
  | .exploit => 2
  | .exfil => 3
  | .complete => 4

def kcStageName : KillChainStage → String
  | .idle => "IDLE"
  | .recon => "RECON"
  | .exploit => "EXPLOIT"
  | .exfil => "EXFIL"
  | .complete => "COMPLETE"

/-! ## Records -/

/-- `ip_baseline_t`. -/
structure IpBaseline (R : Type) where
  ewmaPps : R
  ewmaVarPps : R
  ewmaPorts : R
  ewmaVarPorts : R
  ewmaDns : R
  ewmaVarDns : R
  sampleCount : Int
  windowStart : Int
  pktInWindow : Int
  portsInWindow : Int
  dnsInWindow : Int

/-- The record of one tracked source. The ports array and its `port_count` are one
field. -/
structure Suspect (R : Type) where
  ip : UInt32
  lastSeen : Int
  ports : Slots UInt16 SCAN_THRESHOLD
  icmpCount : Int
  synCount : Int
  nullScanCount : Int
  xmasScanCount : Int
  synfinScanCount : Int
  bruteCount : Int
  bruteWindowStart : Int
  dnsQueryCount : Int
  dnsSuspiciousCount : Int
  dnsReqBytes : UInt64
  dnsRespBytes : UInt64
  baseline : IpBaseline R
  kcStage : KillChainStage
  kcStageEntered : Int
  kcFirstSeen : Int
  kcStagesHit : Nat
  kcScore : Int
  kcMitre : List Char

structure ArpEntry where
  mac : Bytes
  ip : UInt32

structure HomeCidr where
  addrBe : UInt32
  maskBe : UInt32

/-- The global state of the analyzer. -/
structure Analyzer (R : Type) where
  homeCidrs : Slots HomeCidr MAX_HOME_CIDR
  suspects : Slots (Suspect R) MAX_SUSPECTS
  lastCleanup : Int
  arpTable : Slots ArpEntry MAX_ARP_ENTRIES

variable {R : Type} [Double R]

/-- An all-zero `ip_baseline_t`. -/
def IpBaseline.zero : IpBaseline R :=
  ⟨Double.ofInt 0, Double.ofInt 0, Double.ofInt 0, Double.ofInt 0, Double.ofInt 0, Double.ofInt 0,
    0, 0, 0, 0, 0⟩

/-- The record that `find_or_create_suspect` builds after its `memset`. -/
def Suspect.fresh (ip : UInt32) (now : Int) : Suspect R where
  ip := ip
  lastSeen := now
  ports := .empty
  icmpCount := 0
  synCount := 0
  nullScanCount := 0
  xmasScanCount := 0
  synfinScanCount := 0
  bruteCount := 0
  bruteWindowStart := now
  dnsQueryCount := 0
  dnsSuspiciousCount := 0
  dnsReqBytes := 0
  dnsRespBytes := 0
  baseline := { IpBaseline.zero with windowStart := now }
  kcStage := .idle
  kcStageEntered := 0
  kcFirstSeen := 0
  kcStagesHit := 0
  kcScore := 0
  kcMitre := []

/-- `analyzer_reset`: the suspects and the ARP table are cleared, HOME_NET stays. -/
def analyzerReset (st : Analyzer R) : Analyzer R :=
  { st with suspects := .empty, lastCleanup := 0, arpTable := .empty }

/-- The arguments of one `publish_packet` call. -/
structure Event where
  srcIp : String
  port : Nat
  proto : String
  bytes : Nat
  isScan : Bool
  attackType : Option Attack
  killChainStage : KillChainStage
  kcScore : Int
  mitre : String
deriving DecidableEq, Repr

/-- The arguments of one `collector_record` call. -/
structure Detection where
  attackType : Attack
  srcIp : String
  timestamp : Int
deriving DecidableEq, Repr

/-- What one `analyze_packet` call returns, publishes and records. -/
structure Outcome where
  ret : Nat
  published : List Event
  recorded : List Detection
deriving DecidableEq, Repr

/-- A packet that is ignored. -/
def Outcome.quiet : Outcome := ⟨0, [], []⟩

end TrafficAnalyzer
