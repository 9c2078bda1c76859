import RustOs.Lib.OnesComplement

/-!
# Packet formats

The headers of IPv4, UDP, ICMP and TCP as the stack writes and reads them
(`net/ip.rs`, `net/udp.rs`, `net/icmp.rs`, `net/tcp.rs`). A header is read from
the front of a byte string and is refused if the string is too short; nothing else
is checked. It is written with a zero checksum first, over which the checksum is
computed.

Lengths are 16 bits wide. `build_datagram` and the segment builder of `emit` cast
the payload length down before they add the header length, so a long payload
either overflows the addition or goes out with a length that is too small.
-/

namespace RustOs.Net

open Lib List Outcome UInt8

/-- A packet as it goes over an interface. -/
abbrev Packet := List UInt8

/-- `Ipv4Addr`. -/
structure Ipv4Addr where
  a : UInt8
  b : UInt8
  c : UInt8
  d : UInt8
  deriving DecidableEq, Repr

namespace Ipv4Addr

/-- `LOCALHOST`. -/
def localhost : Ipv4Addr := ⟨127, 0, 0, 1⟩

/-- `ANY`. -/
def any : Ipv4Addr := ⟨0, 0, 0, 0⟩

/-- `is_loopback`. -/
def isLoopback (ip : Ipv4Addr) : Bool := ip.a == 127

/-- `is_unspecified`. -/
def isUnspecified (ip : Ipv4Addr) : Bool := ip == any

/-- The address as it stands in a header. -/
def octets (ip : Ipv4Addr) : List UInt8 := [ip.a, ip.b, ip.c, ip.d]

/-- The address at an offset of a header. -/
def at_ (buf : List UInt8) (i : Nat) : Ipv4Addr :=
  ⟨buf.getD i 0, buf.getD (i + 1) 0, buf.getD (i + 2) 0, buf.getD (i + 3) 0⟩

/-- The two words of the address. -/
def words (ip : Ipv4Addr) : Nat := (ofBe16 ip.a ip.b).toNat + (ofBe16 ip.c ip.d).toNat

end Ipv4Addr

/-- `SocketAddrV4`. -/
structure SocketAddrV4 where
  ip : Ipv4Addr
  port : UInt16
  deriving DecidableEq, Repr

/-- The complement of a folded sum: `!(sum as u16)`. -/
def complement16 (sum : Nat) : UInt16 := UInt16.ofNat (65535 - sum)

/-! ## IPv4 -/

/-- `PROTO_ICMP`. -/
def protoIcmp : UInt8 := 1

/-- `PROTO_TCP`. -/
def protoTcp : UInt8 := 6

/-- `PROTO_UDP`. -/
def protoUdp : UInt8 := 17

/-- `IPV4_HEADER_LEN`. -/
def ipv4HeaderLen : Nat := 20

/-- `compute_checksum`. -/
def computeChecksum {ε : Type} (data : List UInt8) : Outcome ε UInt16 := do
  let sum ← sumWords data 0
  return complement16 (fold16 sum)

/-- `Ipv4Header`. -/
structure Ipv4Header where
  versionIhl : UInt8
  tos : UInt8
  totalLength : UInt16
  identification : UInt16
  flagsFragoff : UInt16
  ttl : UInt8
  protocol : UInt8
  checksum : UInt16
  src : Ipv4Addr
  dst : Ipv4Addr
  deriving DecidableEq, Repr

namespace Ipv4Header

/-- `Ipv4Header::new`. The total length is added up in 16 bits. -/
def new {ε : Type} (src dst : Ipv4Addr) (protocol : UInt8) (payloadLen : UInt16) :
    Outcome ε Ipv4Header := do
  let totalLength ← .uadd 16 ipv4HeaderLen payloadLen.toNat
  return {
    versionIhl := 0x45
    tos := 0
    totalLength := UInt16.ofNat totalLength
    identification := 0
    flagsFragoff := 0x4000
    ttl := 64
    protocol
    checksum := 0
    src
    dst }

/-- The header with its checksum field as it is. -/
def bytes (h : Ipv4Header) : List UInt8 :=
  [h.versionIhl, h.tos] ++ be16 h.totalLength ++ be16 h.identification ++ be16 h.flagsFragoff ++
    [h.ttl, h.protocol] ++ be16 h.checksum ++ h.src.octets ++ h.dst.octets

/-- `write_to`. -/
def writeTo {ε : Type} (h : Ipv4Header) : Outcome ε (List UInt8) := do
  let cksum ← computeChecksum { h with checksum := 0 }.bytes
  return { h with checksum := cksum }.bytes

/-- `parse`. -/
def parse (buf : List UInt8) : Option Ipv4Header :=
  if buf.length < ipv4HeaderLen then none
  else some {
    versionIhl := buf.getD 0 0
    tos := buf.getD 1 0
    totalLength := u16At buf 2
    identification := u16At buf 4
    flagsFragoff := u16At buf 6
    ttl := buf.getD 8 0
    protocol := buf.getD 9 0
    checksum := u16At buf 10
    src := .at_ buf 12
    dst := .at_ buf 16 }

end Ipv4Header

/-! ## UDP -/

/-- `UDP_HEADER_LEN`. -/
def udpHeaderLen : Nat := 8

/-- `UdpHeader`. -/
structure UdpHeader where
  srcPort : UInt16
  dstPort : UInt16
  length : UInt16
  checksum : UInt16
  deriving DecidableEq, Repr

namespace UdpHeader

/-- `UdpHeader::new`. -/
def new {ε : Type} (srcPort dstPort payloadLen : UInt16) : Outcome ε UdpHeader := do
  let length ← .uadd 16 udpHeaderLen payloadLen.toNat
  return { srcPort, dstPort, length := UInt16.ofNat length, checksum := 0 }

/-- `write_to`. -/
def bytes (h : UdpHeader) : List UInt8 :=
  be16 h.srcPort ++ be16 h.dstPort ++ be16 h.length ++ be16 h.checksum

/-- `parse`. -/
def parse (buf : List UInt8) : Option UdpHeader :=
  if buf.length < udpHeaderLen then none
  else some {
    srcPort := u16At buf 0
    dstPort := u16At buf 2
    length := u16At buf 4
    checksum := u16At buf 6 }

end UdpHeader

/-- `pseudo_header_sum`; six words cannot overflow 32 bits. -/
def pseudoHeaderSum (src dst : Ipv4Addr) (proto : UInt8) (len : UInt16) : Nat :=
  src.words + dst.words + proto.toNat + len.toNat

/-- `add_words`. -/
def addWords {ε : Type} (a b : Nat) : Outcome ε Nat := do
  let s ← .uadd 32 a b
  return fold16 s

/-- The checksum a header carries: zero is sent as all ones. -/
def nonzeroChecksum (cksum : UInt16) : UInt16 := if cksum = 0 then 0xFFFF else cksum

/-- `build_datagram`. -/
def buildDatagram {ε : Type} (src dst : SocketAddrV4) (payload : List UInt8) :
    Outcome ε Packet := do
  let udpLen := UInt16.ofNat (udpHeaderLen + payload.length)
  let ipHdr ← Ipv4Header.new src.ip dst.ip protoUdp udpLen
  let ip ← ipHdr.writeTo
  let udpHdr ← UdpHeader.new src.port dst.port (UInt16.ofNat payload.length)
  let pseudoSum := pseudoHeaderSum src.ip dst.ip protoUdp udpLen
  let partialSum ← sumWords (udpHdr.bytes ++ payload) 0
  let sum ← addWords pseudoSum partialSum
  let cksum := nonzeroChecksum (complement16 sum)
  return ip ++ { udpHdr with checksum := cksum }.bytes ++ payload

/-- `verify_ip_checksum`. -/
def verifyIpChecksum {ε : Type} (packet : Packet) : Outcome ε Bool := do
  if packet.length < ipv4HeaderLen then return false
  let cksum ← computeChecksum (packet.take ipv4HeaderLen)
  return cksum == 0

/-! ## ICMP -/

/-- `ICMP_TYPE_ECHO_REPLY`. -/
def icmpTypeEchoReply : UInt8 := 0

/-- `ICMP_TYPE_ECHO_REQUEST`. -/
def icmpTypeEchoRequest : UInt8 := 8

/-- `ICMP_HEADER_LEN`. -/
def icmpHeaderLen : Nat := 8

/-- `IcmpHeader`. -/
structure IcmpHeader where
  kind : UInt8
  code : UInt8
  checksum : UInt16
  identifier : UInt16
  sequence : UInt16
  deriving DecidableEq, Repr

namespace IcmpHeader

/-- The header, as `send_echo_reply` writes it. -/
def bytes (h : IcmpHeader) : List UInt8 :=
  [h.kind, h.code] ++ be16 h.checksum ++ be16 h.identifier ++ be16 h.sequence

/-- `parse`. -/
def parse (buf : List UInt8) : Option IcmpHeader :=
  if buf.length < icmpHeaderLen then none
  else some {
    kind := buf.getD 0 0
    code := buf.getD 1 0
    checksum := u16At buf 2
    identifier := u16At buf 4
    sequence := u16At buf 6 }

end IcmpHeader

/-- The packet of `send_echo_reply`. -/
def buildEchoReply {ε : Type} (src dst : Ipv4Addr) (identifier sequence : UInt16)
    (payload : List UInt8) : Outcome ε Packet := do
  let ipHdr ← Ipv4Header.new src dst protoIcmp (UInt16.ofNat (icmpHeaderLen + payload.length))
  let ip ← ipHdr.writeTo
  let hdr : IcmpHeader := ⟨icmpTypeEchoReply, 0, 0, identifier, sequence⟩
  let cksum ← computeChecksum (hdr.bytes ++ payload)
  return ip ++ { hdr with checksum := cksum }.bytes ++ payload

/-! ## TCP -/

/-- `TCP_HEADER_MIN`. -/
def tcpHeaderMin : Nat := 20

namespace Flags

/-- `FIN`. -/
def fin : UInt8 := 0x01

/-- `SYN`. -/
def syn : UInt8 := 0x02

/-- `RST`. -/
def rst : UInt8 := 0x04

/-- `PSH`. -/
def psh : UInt8 := 0x08

/-- `ACK`. -/
def ack : UInt8 := 0x10

end Flags

/-- `TcpHeader`. -/
structure TcpHeader where
  srcPort : UInt16
  dstPort : UInt16
  seq : UInt32
  ack : UInt32
  dataOffsetWords : UInt8
  flags : UInt8
  window : UInt16
  checksum : UInt16
  urgent : UInt16
  deriving DecidableEq, Repr

namespace TcpHeader

/-- The header with its checksum field as it is. -/
def bytes (h : TcpHeader) : List UInt8 :=
  be16 h.srcPort ++ be16 h.dstPort ++ be32 h.seq ++ be32 h.ack ++
    be16 (h.dataOffsetWords.toUInt16 <<< 12 ||| h.flags.toUInt16) ++ be16 h.window ++
    be16 h.checksum ++ be16 h.urgent

/-- `parse`. -/
def parse (buf : List UInt8) : Option TcpHeader :=
  if buf.length < tcpHeaderMin then none
  else some {
    srcPort := u16At buf 0
    dstPort := u16At buf 2
    seq := u32At buf 4
    ack := u32At buf 8
    dataOffsetWords := (u16At buf 12 >>> 12 &&& 0xF).toUInt8
    flags := (u16At buf 12 &&& 0x3F).toUInt8
    window := u16At buf 14
    checksum := u16At buf 16
    urgent := u16At buf 18 }

end TcpHeader

/-- What an endpoint looks at in a header, and what it wants sent: sequence number,
acknowledgement, flags. -/
structure Control where
  seq : UInt32
  ack : UInt32
  flags : UInt8
  deriving DecidableEq, Repr

/-- Is one of the given flags set? -/
def Control.has (c : Control) (flags : UInt8) : Bool := c.flags &&& flags != 0

/-- The control fields of a header. -/
def TcpHeader.control (h : TcpHeader) : Control := ⟨h.seq, h.ack, h.flags⟩

/-- The header that `emit` writes, before its checksum is known. -/
def TcpHeader.new (localAddr remoteAddr : SocketAddrV4) (c : Control) : TcpHeader where
  srcPort := localAddr.port
  dstPort := remoteAddr.port
  seq := c.seq
  ack := c.ack
  dataOffsetWords := 5
  flags := c.flags
  window := 0xFFFF
  checksum := 0
  urgent := 0

/-- The packet that `emit` builds. The pseudo-header is summed in the same
accumulator as the segment, with the length not cast down. -/
def buildSegment {ε : Type} (localAddr remoteAddr : SocketAddrV4) (c : Control)
    (payload : List UInt8) : Outcome ε Packet := do
  let ipHdr ← Ipv4Header.new localAddr.ip remoteAddr.ip protoTcp
    (UInt16.ofNat (tcpHeaderMin + payload.length))
  let ip ← ipHdr.writeTo
  let th := TcpHeader.new localAddr remoteAddr c
  let pseudo ← .uadd 32 (localAddr.ip.words + remoteAddr.ip.words + protoTcp.toNat)
    ((tcpHeaderMin + payload.length) % 2 ^ 32)
  let sum ← sumWords (th.bytes ++ payload) pseudo
  let cksum := nonzeroChecksum (complement16 (fold16 sum))
  return ip ++ { th with checksum := cksum }.bytes ++ payload

/-! ## What is written is read back -/

/-- A header that was written is long enough to be parsed. -/
lemma not_short {b : List UInt8} {n : Nat} (h : b.length = n) (rest : List UInt8) :
    ¬ (b ++ rest).length < n := by
  rw [length_append, h]
  omega

namespace Ipv4Header

variable (h : Ipv4Header)

@[simp] lemma bytes_length : h.bytes.length = ipv4HeaderLen := rfl

/-- The header that `new` returns, if the total length fits. -/
lemma new_eq_ok {ε : Type} {src dst : Ipv4Addr} {protocol : UInt8} {len : UInt16} {h : Ipv4Header}
    (heq : (new src dst protocol len : Outcome ε Ipv4Header) = .ok h) :
    h.protocol = protocol ∧ h.src = src ∧ h.dst = dst ∧ h.totalLength.toNat = 20 + len.toNat := by
  obtain ⟨total, htotal, heq⟩ := bind_eq_ok.mp heq
  unfold uadd at htotal
  split at htotal
  next hlt =>
    cases htotal
    cases heq
    refine ⟨rfl, rfl, rfl, ?_⟩
    rw [UInt16.toNat_ofNat', Nat.mod_eq_of_lt hlt]
    rfl
  next => cases htotal

lemma new_ok {ε : Type} (src dst : Ipv4Addr) (protocol : UInt8) {len : UInt16}
    (h : len.toNat ≤ 65515) :
      ∃ hdr, (new src dst protocol len : Outcome ε Ipv4Header) = .ok hdr := by
  unfold new
  rw [uadd_of_lt (by unfold ipv4HeaderLen; omega)]
  exact ⟨_, rfl⟩

lemma parse_append (rest : List UInt8) : parse (h.bytes ++ rest) = some h := by
  unfold parse
  rw [if_neg (not_short h.bytes_length rest)]
  simp only [bytes, be16, Ipv4Addr.octets, Ipv4Addr.at_, cons_append, nil_append,
    u16At_succ, u16At_zero, getD_cons_succ, getD_cons_zero]

/-- The words of a header are its fields; the checksum is one of them. -/
lemma wordSum_bytes :
    wordSum h.bytes = wordSum { h with checksum := 0 }.bytes + h.checksum.toNat := by
  simp only [bytes, be16, cons_append, nil_append, wordSum, be16_word]
  rw [show (0 : UInt16).toNat = 0 from rfl]
  omega

lemma wordSum_bytes_le : wordSum h.bytes ≤ 655350 := by
  have hle := wordSum_le h.bytes
  rwa [bytes_length] at hle

/-- The header that goes out, with its checksum. -/
def sealed : Ipv4Header :=
  { h with checksum := complement16 (fold16 (wordSum { h with checksum := 0 }.bytes)) }

lemma writeTo_eq {ε : Type} (h : Ipv4Header) :
    (h.writeTo : Outcome ε (List UInt8)) = .ok h.sealed.bytes := by
  have hle := wordSum_bytes_le { h with checksum := 0 }
  have hsum : 0 + wordSum { h with checksum := 0 }.bytes < 2 ^ 32 := by omega
  unfold writeTo computeChecksum
  rw [sumWords_eq _ (Nat.two_pow_pos 32), if_pos hsum, Nat.zero_add]
  rfl

end Ipv4Header

lemma complement16_toNat (sum : Nat) : (complement16 sum).toNat = 65535 - sum := by
  unfold complement16
  rw [UInt16.toNat_ofNat']
  omega

/-- A sealed header adds up to all ones. -/
lemma Ipv4Header.fold16_sealed (h : Ipv4Header) : fold16 (wordSum h.sealed.bytes) = 65535 := by
  have hle := wordSum_bytes_le { h with checksum := 0 }
  have hfield : h.sealed.checksum.toNat =
      65535 - fold16 (wordSum { h with checksum := 0 }.bytes) := complement16_toNat _
  have hrest : { h.sealed with checksum := 0 } = { h with checksum := 0 } := rfl
  rw [wordSum_bytes, hrest, hfield]
  exact fold16_complement (by omega)

lemma UdpHeader.parse_append (h : UdpHeader) (rest : List UInt8) :
    parse (h.bytes ++ rest) = some h := by
  unfold parse
  rw [if_neg (not_short (b := h.bytes) (n := udpHeaderLen) rfl rest)]
  simp only [bytes, be16, cons_append, nil_append, u16At_succ, u16At_zero]

lemma IcmpHeader.parse_append (h : IcmpHeader) (rest : List UInt8) :
    parse (h.bytes ++ rest) = some h := by
  unfold parse
  rw [if_neg (not_short (b := h.bytes) (n := icmpHeaderLen) rfl rest)]
  simp only [bytes, be16, cons_append, nil_append, u16At_succ, u16At_zero,
    getD_cons_succ, getD_cons_zero]

/-- Offset and flags share a word. -/
lemma offset_flags : ∀ flags < 64,
    (((5 : UInt8).toUInt16 <<< 12 ||| (ofNat flags).toUInt16) >>> 12 &&& 0xF).toUInt8 = 5 ∧
      (((5 : UInt8).toUInt16 <<< 12 ||| (ofNat flags).toUInt16) &&& 0x3F).toUInt8 =
        ofNat flags := by decide +kernel

lemma TcpHeader.parse_append (h : TcpHeader) (hoff : h.dataOffsetWords = 5)
    (hflags : h.flags.toNat < 64) (rest : List UInt8) : parse (h.bytes ++ rest) = some h := by
  obtain ⟨hwords, hbits⟩ := offset_flags h.flags.toNat hflags
  rw [UInt8.ofNat_toNat] at hwords hbits
  unfold parse
  rw [if_neg (not_short (b := h.bytes) (n := tcpHeaderMin) rfl rest)]
  simp only [bytes, be16, be32, cons_append, nil_append, u16At_succ, u16At_zero,
    u32At_succ, u32At_zero, hoff, hwords, hbits]
  rw [← hoff]

end RustOs.Net
