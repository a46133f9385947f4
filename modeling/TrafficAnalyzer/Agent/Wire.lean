import TrafficAnalyzer.Lib.Bytes

/-!
# Packet bytes (`include/agent/nta_net.h`)

A captured packet is the list of its bytes. Every access is a lookup that answers
`none` outside the capture, so a function that reads past the end has no result.
Multi-byte loads are those of a little-endian host: `read32` keeps the memory
order, as `memcpy` into a `uint32_t` does, and `read16` is `ntohs` of the two
bytes.
-/

namespace TrafficAnalyzer

def NTA_ETH_HLEN : Nat := 14
/-- `sizeof(nta_ipv4_hdr)`, `sizeof(nta_tcp_hdr)` and `sizeof(nta_udp_hdr)`. -/
def sizeofIpv4Hdr : Nat := 20
def sizeofTcpHdr : Nat := 20
def sizeofUdpHdr : Nat := 8

def NTA_PROTO_ICMP : UInt8 := 1
def NTA_PROTO_TCP : UInt8 := 6
def NTA_PROTO_UDP : UInt8 := 17

def NTA_TH_FIN : UInt8 := 0x01
def NTA_TH_SYN : UInt8 := 0x02
def NTA_TH_PUSH : UInt8 := 0x08
def NTA_TH_ACK : UInt8 := 0x10
def NTA_TH_URG : UInt8 := 0x20

/-- `(hi << 8) | lo`. -/
def be16 (hi lo : UInt8) : UInt16 := hi.toUInt16 <<< 8 ||| lo.toUInt16

/-- The `uint32_t` whose bytes in memory are `b0 b1 b2 b3`. -/
def load32 (b0 b1 b2 b3 : UInt8) : UInt32 :=
  b0.toUInt32 ||| b1.toUInt32 <<< 8 ||| b2.toUInt32 <<< 16 ||| b3.toUInt32 <<< 24

def read16 (p : Bytes) (i : Nat) : Option UInt16 := do
  let hi ← p[i]?
  let lo ← p[i + 1]?
  some (be16 hi lo)

def read32 (p : Bytes) (i : Nat) : Option UInt32 := do
  let b0 ← p[i]?
  let b1 ← p[i + 1]?
  let b2 ← p[i + 2]?
  let b3 ← p[i + 3]?
  some (load32 b0 b1 b2 b3)

/-- `memcpy` of `n` bytes at offset `i`. -/
def readBytes (p : Bytes) (i : Nat) : Nat → Option Bytes
  | 0 => some []
  | n + 1 => do
    let b ← p[i]?
    let bs ← readBytes p (i + 1) n
    some (b :: bs)

/-- `NTA_IPV4_HLEN`: the header length that the IHL nibble gives. -/
def ipv4Hlen (verIhl : UInt8) : Nat := (verIhl &&& 0x0F).toNat * 4

/-- `inet_ntoa`: the four bytes in memory order, in decimal. -/
def inetNtoa (a : UInt32) : String :=
  toString (a &&& 0xFF).toNat ++ "." ++ toString (a >>> 8 &&& 0xFF).toNat ++ "." ++
    toString (a >>> 16 &&& 0xFF).toNat ++ "." ++ toString (a >>> 24 &&& 0xFF).toNat

end TrafficAnalyzer
