import RustOs.Net.Packet

/-!
# ICMPv6 echo

`handle_inbound` of `net/ipv6.rs` answers an echo request to one of our addresses:
it parses the IPv6 header and builds the reply from all that stands behind it. The
`payload_len` of the request is not looked at, so padding that the link layer has
put behind the message is sent back as data (`handleInbound_mirrors_iff`).
-/

namespace RustOs.Net.Ipv6

open Lib Outcome List Nat UInt16

/-- `Ipv6Addr`. -/
@[ext] structure Ipv6Addr where
  octets : List UInt8
  length_octets : octets.length = 16
  deriving DecidableEq

/-- `IPV6_HEADER_LEN`. -/
def ipv6HeaderLen : Nat := 40

/-- `NH_ICMPV6`. -/
def nhIcmpv6 : UInt8 := 58

/-- `ICMPV6_ECHO_REQUEST`. -/
def icmpv6EchoRequest : UInt8 := 128

/-- `ICMPV6_ECHO_REPLY`. -/
def icmpv6EchoReply : UInt8 := 129

/-- `Ipv6Header`, without what is only carried: traffic class, flow label and hop limit. -/
@[ext] structure Ipv6Header where
  payloadLen : UInt16
  nextHeader : UInt8
  src : Ipv6Addr
  dst : Ipv6Addr
  deriving DecidableEq

namespace Ipv6Header

/-- `write_to` for a header of `new`: version 6, no class and label, 64 hops. -/
def bytes (h : Ipv6Header) : List UInt8 :=
  [0x60, 0, 0, 0] ++ (be16 h.payloadLen ++ ([h.nextHeader, 64] ++ (h.src.octets ++ h.dst.octets)))

/-- `parse`. -/
def parse (buf : List UInt8) : Option Ipv6Header :=
  if h : buf.length < ipv6HeaderLen then none
  else if (buf.getD 0 0 >>> 4) &&& 0xF ≠ 6 then none
  else some {
    payloadLen := u16At buf 4
    nextHeader := buf.getD 6 0
    src := ⟨(buf.drop 8).take 16, by unfold ipv6HeaderLen at h; simp; omega⟩
    dst := ⟨(buf.drop 24).take 16, by unfold ipv6HeaderLen at h; simp; omega⟩ }

end Ipv6Header

/-- `icmpv6_checksum`. -/
def icmpv6Checksum (src dst : Ipv6Addr) (length : UInt32) (nh : UInt8)
    (msg : List UInt8) : Outcome Empty UInt16 := do
  let sum ← sumWords src.octets 0
  let sum ← sumWords dst.octets sum
  let sum ← uadd 32 sum (length.toNat / 2 ^ 16)
  let sum ← uadd 32 sum (length.toNat % 2 ^ 16)
  let sum ← uadd 32 sum 0
  let sum ← uadd 32 sum nh.toNat
  let sum ← sumWords msg sum
  return complement16 (fold16 sum)

/-- An ICMPv6 message. -/
def message (kind : UInt8) (csum : UInt16) (body : List UInt8) : List UInt8 :=
  [kind, 0] ++ be16 csum ++ body

/-- An IPv6 packet around a message. -/
def packet (src dst : Ipv6Addr) (icmp : List UInt8) : Packet :=
  Ipv6Header.bytes ⟨UInt16.ofNat icmp.length, nhIcmpv6, src, dst⟩ ++ icmp

/-- `build_echo_request`. -/
def buildEchoRequest (src dst : Ipv6Addr) (identifier sequence : UInt16)
    (payload : List UInt8) : Outcome Empty Packet := do
  let body := be16 identifier ++ (be16 sequence ++ payload)
  let icmp := message icmpv6EchoRequest 0 body
  let csum ← icmpv6Checksum src dst (UInt32.ofNat icmp.length) nhIcmpv6 icmp
  return packet src dst (message icmpv6EchoRequest csum body)

/-- `build_echo_reply`. -/
def buildEchoReply (src dst : Ipv6Addr) (identifier sequence : UInt16)
    (payload : List UInt8) : Outcome Empty Packet := do
  let p ← buildEchoRequest src dst identifier sequence payload
  -- the type and the checksum are written over; the code stays 0
  let rest := p.drop (ipv6HeaderLen + 4)
  let icmp := message icmpv6EchoReply 0 rest
  let csum ← icmpv6Checksum src dst (UInt32.ofNat icmp.length) nhIcmpv6 icmp
  return p.take ipv6HeaderLen ++ message icmpv6EchoReply csum rest

/-- `handle_inbound`. -/
def handleInbound (buf : List UInt8) (our : List Ipv6Addr) : Outcome Empty (Option Packet) :=
  match Ipv6Header.parse buf with
  | none => .ok none
  | some hdr =>
    let payload := buf.drop ipv6HeaderLen
    if hdr.nextHeader ≠ nhIcmpv6 ∨ payload.length < 8 ∨ payload.getD 0 0 ≠ icmpv6EchoRequest
        ∨ hdr.dst ∉ our then .ok none
    else do
      let p ← buildEchoReply hdr.dst hdr.src (u16At payload 4) (u16At payload 6) (payload.drop 8)
      return some p

/-! ## The checksum -/

section

variable (src dst : Ipv6Addr) (length : UInt32) (nh : UInt8)

/-- The sum of the pseudo-header. -/
def pseudoSum : Nat :=
  wordSum src.octets + wordSum dst.octets + length.toNat / 2 ^ 16 + length.toNat % 2 ^ 16 + nh.toNat

lemma pseudoSum_lt : pseudoSum src dst length nh < 2 ^ 21 := by
  have hs := wordSum_le src.octets
  have hd := wordSum_le dst.octets
  rw [src.length_octets] at hs
  rw [dst.length_octets] at hd
  have hl := length.toNat_lt
  have hn := nh.toNat_lt
  unfold pseudoSum
  omega

/-- The checksum, unless the sum overflows. -/
lemma icmpv6Checksum_eq (msg : List UInt8) :
    icmpv6Checksum src dst length nh msg =
      if pseudoSum src dst length nh + wordSum msg < 2 ^ 32 then
        .ok (complement16 (fold16 (pseudoSum src dst length nh + wordSum msg)))
      else .panic := by
  have hlt := pseudoSum_lt src dst length nh
  unfold icmpv6Checksum
  unfold pseudoSum at hlt ⊢
  rw [sumWords_eq _ (by decide), if_pos (by omega), ok_bind, sumWords_eq _ (by omega),
    if_pos (by omega), ok_bind, uadd_of_lt (by omega), ok_bind, uadd_of_lt (by omega), ok_bind,
    uadd_of_lt (by omega), ok_bind, uadd_of_lt (by omega), ok_bind, sumWords_eq _ (by omega),
    zero_add, add_zero]
  split <;> rfl

end

lemma message_length (kind : UInt8) (csum : UInt16) (body : List UInt8) :
    (message kind csum body).length = 4 + body.length := by
  simp only [message, length_append, be16_length]
  rfl

lemma wordSum_message (kind : UInt8) (csum : UInt16) (body : List UInt8) :
    wordSum (message kind csum body) = kind.toNat * 256 + (csum.toNat + wordSum body) := by
  simp only [message, be16, cons_append, nil_append, wordSum, be16_word, UInt8.toNat_zero,
    Nat.add_zero]

/-- What a reply sums to without its checksum. -/
def replySum (src dst : Ipv6Addr) (body : List UInt8) : Nat :=
  pseudoSum src dst (UInt32.ofNat (4 + body.length)) nhIcmpv6 + wordSum
    (message icmpv6EchoReply 0 body)

/-- The reply that `build_echo_reply` makes. -/
def reply (src dst : Ipv6Addr) (body : List UInt8) : List UInt8 :=
  message icmpv6EchoReply (complement16 (fold16 (replySum src dst body))) body

variable {src dst : Ipv6Addr} {body : List UInt8}

/-- With its checksum, the reply sums to all ones. -/
lemma fold16_reply (hfits : replySum src dst body + 65535 < 2 ^ 32) :
    fold16 (pseudoSum src dst (UInt32.ofNat (reply src dst body).length) nhIcmpv6
      + wordSum (reply src dst body)) = 0xFFFF := by
  have hlen : (reply src dst body).length = 4 + body.length := message_length ..
  have hsum : replySum src dst body = _ + wordSum _ := rfl
  have hfold := fold16_complement hfits
  rw [← complement16_toNat] at hfold
  rw [hlen]
  refine Eq.trans (congrArg fold16 ?_) hfold
  unfold reply
  generalize complement16 (fold16 (replySum src dst body)) = csum
  rw [wordSum_message, UInt16.toNat_zero, Nat.zero_add] at hsum
  rw [wordSum_message, hsum]
  ac_rfl

/-! ## The reply -/

lemma bytes_length (h : Ipv6Header) : h.bytes.length = ipv6HeaderLen := by
  simp [Ipv6Header.bytes, h.src.length_octets, h.dst.length_octets, ipv6HeaderLen]

/-- A packet is read back. -/
lemma parse_packet (src dst : Ipv6Addr) (icmp : List UInt8) :
    (packet src dst icmp).drop ipv6HeaderLen = icmp ∧
    Ipv6Header.parse (packet src dst icmp) =
      some ⟨ofNat icmp.length, nhIcmpv6, src, dst⟩ := by
  have hlen := bytes_length ⟨ofNat icmp.length, nhIcmpv6, src, dst⟩
  refine ⟨drop_left' hlen, ?_⟩
  have hbytes : packet src dst icmp = [0x60, 0, 0, 0] ++ (be16 (ofNat icmp.length) ++
      ([nhIcmpv6, 64] ++ (src.octets ++ (dst.octets ++ icmp)))) := by
    simp only [packet, Ipv6Header.bytes, append_assoc]
  rw [Ipv6Header.parse, dif_neg (by simp [packet, hlen])]
  simp only [hbytes]
  rw [if_neg fun h => h (by decide : (0x60 : UInt8) >>> 4 &&& 0xF = 6)]
  refine congrArg some (Ipv6Header.ext ?_ rfl (Ipv6Addr.ext ?_) (Ipv6Addr.ext ?_))
  · exact u16At_zero _ ([nhIcmpv6, 64] ++ (src.octets ++ (dst.octets ++ icmp)))
  · exact take_left' src.length_octets
  · show ((src.octets ++ (dst.octets ++ icmp)).drop 16).take 16 = dst.octets
    rw [drop_left' src.length_octets, take_left' dst.length_octets]

/-- The reply, unless the sum of its words overflows. -/
lemma buildEchoReply_eq {identifier sequence : UInt16} {payload : List UInt8}
    (hbody : be16 identifier ++ (be16 sequence ++ payload) = body) :
    buildEchoReply src dst identifier sequence payload =
      if replySum src dst body < 2 ^ 32 then .ok (packet src dst (reply src dst body))
      else .panic := by
  have hfront := bytes_length ⟨ofNat (4 + body.length), nhIcmpv6, src, dst⟩
  -- the request sums to less
  have hle : wordSum (message icmpv6EchoRequest 0 body) ≤ wordSum
    (message icmpv6EchoReply 0 body) := by
    rw [wordSum_message, wordSum_message]
    exact Nat.add_le_add_right (by decide) _
  unfold buildEchoReply buildEchoRequest packet reply replySum
  simp only [hbody, message_length, icmpv6Checksum_eq]
  split
  next =>
    have hrest (csum : UInt16) : (message icmpv6EchoRequest csum body).drop 4 = body := rfl
    rw [ok_bind, pure_eq, ok_bind, ← hfront, take_left, drop_length_add_append, hrest]
    split <;> rfl
  next h =>
    rw [if_neg fun hlt => h (Nat.lt_of_le_of_lt (Nat.add_le_add_left hle _) hlt)]
    rfl

/-! ## The answer to a request -/

/-- The buffer is an echo request to one of our addresses: the message its header
declares, and what the link layer has put behind it. -/
structure EchoRequest (our : List Ipv6Addr) (buf : List UInt8) (hdr : Ipv6Header)
    (msg pad : List UInt8) : Prop where
  parsed : Ipv6Header.parse buf = some hdr
  icmp : hdr.nextHeader = nhIcmpv6
  ours : hdr.dst ∈ our
  split : buf.drop ipv6HeaderLen = msg ++ pad
  declared : msg.length = hdr.payloadLen.toNat
  whole : 8 ≤ msg.length
  kind : msg.getD 0 0 = icmpv6EchoRequest

/-- The packet goes back with the identifier, the sequence number and the data of
the message, under a length that is right and a checksum with which the words of the
pseudo-header and of the message sum to all ones. -/
structure Mirrors (hdr : Ipv6Header) (msg : List UInt8) (p : Packet) : Prop where
  header : ∃ len, Ipv6Header.parse p = some ⟨len, nhIcmpv6, hdr.dst, hdr.src⟩ ∧
    len.toNat = (p.drop ipv6HeaderLen).length
  kind : (p.drop ipv6HeaderLen).getD 0 0 = icmpv6EchoReply
  echoed : (p.drop ipv6HeaderLen).drop 4 = msg.drop 4
  verifies : fold16 (pseudoSum hdr.dst hdr.src (UInt32.ofNat (p.drop ipv6HeaderLen).length) nhIcmpv6
    + wordSum (p.drop ipv6HeaderLen)) = 0xFFFF

variable {our : List Ipv6Addr} {buf msg pad : List UInt8} {hdr : Ipv6Header}

/-- The identifier and the sequence number, written as they were read. -/
lemma be16_words (hwhole : 8 ≤ msg.length) :
    be16 (u16At msg 4) ++ (be16 (u16At msg 6) ++ msg.drop 8) = msg.drop 4 := by
  have hpair (a b : UInt8) : be16 (ofBe16 a b) = [a, b] := by
    have ha := a.toNat_lt
    have hb := b.toNat_lt
    unfold be16 ofBe16
    rw [UInt16.toNat_ofNat', Nat.mod_eq_of_lt (by omega)]
    refine congrArg₂ (fun x y => [x, y]) (UInt8.toNat.inj ?_) (UInt8.toNat.inj ?_)
      <;> rw [UInt8.toNat_ofNat'] <;> omega
  match msg, hwhole with
  | _ :: _ :: _ :: _ :: a :: b :: c :: d :: rest, _ =>
    show be16 (ofBe16 a b) ++ (be16 (ofBe16 c d) ++ rest) = a :: b :: c :: d :: rest
    rw [hpair, hpair]
    rfl

/-- An echo request is answered. -/
lemma handleInbound_eq (h : EchoRequest our buf hdr msg pad) :
    handleInbound buf our =
      if replySum hdr.dst hdr.src ((msg ++ pad).drop 4) < 2 ^ 32 then
        .ok (some (packet hdr.dst hdr.src (reply hdr.dst hdr.src ((msg ++ pad).drop 4))))
      else .panic := by
  have hwhole := h.whole
  have hlen : 8 ≤ (msg ++ pad).length := by
    rw [length_append]
    omega
  have hkind : (msg ++ pad).getD 0 0 = icmpv6EchoRequest := by
    rw [← h.kind, getD_eq_getElem?_getD, getElem?_append_left (by omega),
      getD_eq_getElem?_getD]
  unfold handleInbound
  rw [h.parsed]
  dsimp only
  rw [h.split, buildEchoReply_eq (be16_words hlen), if_neg]
  · split <;> rfl
  · rintro (hno | hno | hno | hno)
    · exact hno h.icmp
    · omega
    · exact hno hkind
    · exact hno h.ours

/-- The request is mirrored if nothing stands behind its message. -/
theorem handleInbound_mirrors_iff (h : EchoRequest our buf hdr msg pad) :
    (∃ p, handleInbound buf our = .ok (some p) ∧ Mirrors hdr msg p) ↔ pad = [] := by
  have hwhole := h.whole
  rw [handleInbound_eq h]
  constructor
  · rintro ⟨p, hp, hm⟩
    split at hp
    next =>
      cases hp
      have hlen := congrArg length hm.echoed
      rw [(parse_packet ..).1] at hlen
      simp [reply, message] at hlen
      exact length_eq_zero_iff.mp (by omega)
    next => cases hp
  · rintro rfl
    have hlt := hdr.payloadLen.toNat_lt
    rw [← h.declared] at hlt
    have hfits : replySum hdr.dst hdr.src (msg.drop 4) + 65535 < 2 ^ 32 := by
      have hpseudo := pseudoSum_lt hdr.dst hdr.src (UInt32.ofNat (4 + (msg.drop 4).length)) nhIcmpv6
      have hwords := wordSum_le (message icmpv6EchoReply 0 (msg.drop 4))
      rw [message_length, length_drop] at hwords
      unfold replySum
      omega
    rw [append_nil, if_pos (by omega)]
    refine ⟨_, rfl, ?_⟩
    obtain ⟨hdrop, hparse⟩ := parse_packet hdr.dst hdr.src (reply hdr.dst hdr.src (msg.drop 4))
    refine ⟨⟨_, hparse, ?_⟩, ?_, ?_, ?_⟩ <;> rw [hdrop]
    · rw [UInt16.toNat_ofNat', Nat.mod_eq_of_lt]
      simp [reply, message]
      omega
    · rfl
    · rfl
    · exact fold16_reply hfits

/-- `LOOPBACK`. -/
def loopback : Ipv6Addr := ⟨[0, 0, 0, 0, 0, 0, 0, 0, 0, 0, 0, 0, 0, 0, 0, 1], rfl⟩

/-- An echo request with no data and a right checksum. -/
def ping : List UInt8 := message icmpv6EchoRequest 0x7FB3 [0, 7, 0, 1]

/-- Its header. -/
def pingHeader : Ipv6Header := ⟨8, nhIcmpv6, loopback, loopback⟩

/-- A ping of one word. -/
theorem handleInbound_mirrors_ping :
    ∃ p, handleInbound (packet loopback loopback ping) [loopback] = .ok (some p) ∧
      Mirrors pingHeader ping p :=
  (handleInbound_mirrors_iff
    ⟨by decide +kernel, rfl, by decide, by decide, by decide, by decide, by decide⟩).mpr rfl

/-- One byte of padding comes back as data. -/
theorem padding_comes_back :
    EchoRequest [loopback] (packet loopback loopback ping ++ [0]) pingHeader ping [0] ∧
    ¬∃ p, handleInbound (packet loopback loopback ping ++ [0]) [loopback] = .ok (some p) ∧
      Mirrors pingHeader ping p := by
  have hreq : EchoRequest [loopback] (packet loopback loopback ping ++ [0]) pingHeader ping [0] :=
    ⟨by decide +kernel, rfl, by decide, by decide, by decide, by decide, by decide⟩
  refine ⟨hreq, ?_⟩
  rintro ⟨p, hp, hm⟩
  rw [handleInbound_eq hreq, if_pos (by decide +kernel)] at hp
  cases hp
  exact absurd hm.echoed (by decide +kernel)

end RustOs.Net.Ipv6
