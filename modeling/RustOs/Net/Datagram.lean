import RustOs.Net.Delivery

/-!
# Datagrams over loopback

`sendto` builds a packet, puts it on the loopback queue and drains the queue, so the
datagram is in the receive queue of a socket when the call returns. What arrives is
what was sent, once, at the one socket that was bound to the destination, with checksums
that verify (`sendto_delivers_iff`), with two exceptions:

* The length fields have 16 bits. A payload of 65508 to 65535 bytes makes their
  computation overflow, and of a longer one only the front arrives, `len % 65536` bytes,
  while the call answers with the full length.
* A sender that is not bound yet picks its port when it sends, from a counter that does
  not look whether the port is taken. If the port is that of the destination, and the
  sender stands before the receiver in the table, the datagram goes to the sender.
-/

namespace RustOs.Net

open Lib Outcome Prog Slots Ipv4Header List

/-! ## The packet of a datagram -/

/-- The header that `new` returns, if the length fits. -/
lemma UdpHeader.new_eq_ok {ε : Type} {srcPort dstPort len : UInt16} {h : UdpHeader}
    (heq : (UdpHeader.new srcPort dstPort len : Outcome ε UdpHeader) = .ok h) :
    h.srcPort = srcPort ∧ h.dstPort = dstPort ∧ h.length.toNat = 8 + len.toNat ∧
      h.checksum = 0 := by
  obtain ⟨length, hlength, heq⟩ := bind_eq_ok.mp heq
  unfold uadd at hlength
  split at hlength
  next hlt =>
    cases hlength
    cases heq
    refine ⟨rfl, rfl, ?_, rfl⟩
    rw [UInt16.toNat_ofNat', Nat.mod_eq_of_lt hlt]
    rfl
  next => cases hlength

/-- The checksum is one of the words of a segment. -/
lemma UdpHeader.wordSum_sealed {h : UdpHeader} (hzero : h.checksum = 0) (cksum : UInt16)
    (payload : List UInt8) : wordSum ({ h with checksum := cksum }.bytes ++ payload) =
      wordSum (h.bytes ++ payload) + cksum.toNat := by
  simp only [bytes, be16, cons_append, nil_append, wordSum, be16_word, hzero]
  rw [show (0 : UInt16).toNat = 0 from rfl]
  omega

/-- The one's-complement sum over pseudo-header and segment of a packet. -/
def datagramSum (packet : Packet) : Nat :=
  match Ipv4Header.parse packet with
  | none => 0
  | some hdr =>
    let segment := packet.drop ipv4HeaderLen
    fold16 (pseudoHeaderSum hdr.src hdr.dst hdr.protocol (UInt16.ofNat segment.length)
      + wordSum segment)

/-- The packet carries a datagram: two headers that name its addresses and, modulo 2¹⁶,
its length, and then the payload. -/
structure CarriesDatagram (packet : Packet) (src dst : SocketAddrV4) (payload : List UInt8) :
    Prop where
  parts : ∃ ip udp, packet = Ipv4Header.bytes ip ++ (UdpHeader.bytes udp ++ payload) ∧
    ip.protocol = protoUdp ∧ ip.src = src.ip ∧ ip.dst = dst.ip ∧
    ip.totalLength.toNat = 28 + payload.length % 65536 ∧
    udp.srcPort = src.port ∧ udp.dstPort = dst.port ∧
    udp.length.toNat = 8 + payload.length % 65536 ∧
    fold16 (wordSum ip.bytes) = 65535 ∧
    (payload.length ≤ 65507 → fold16 (pseudoHeaderSum src.ip dst.ip protoUdp
      (UInt16.ofNat (8 + payload.length)) + wordSum (udp.bytes ++ payload)) = 65535)

/-- Adding the checksum makes the sum all ones. -/
lemma fold16_nonzeroChecksum {sum : Nat} (h : sum + 65535 < 2 ^ 32) :
    fold16 (sum + (nonzeroChecksum (complement16 (fold16 sum))).toNat) = 65535 := by
  have hcompl := complement16_toNat (fold16 sum)
  unfold nonzeroChecksum
  split
  next hz =>
    rw [hz] at hcompl
    exact fold16_complement_zero h hcompl.symm
  next =>
    rw [hcompl]
    exact fold16_complement h

variable {packet : Packet} {src dst : SocketAddrV4}

/-- A datagram that can be built carries what it was built from. -/
lemma buildDatagram_carries {ε : Type} {payload : List UInt8}
    (h : (buildDatagram src dst payload : Outcome ε Packet) = .ok packet) :
    CarriesDatagram packet src dst payload := by
  unfold buildDatagram at h
  simp only [writeTo_eq] at h
  obtain ⟨ip, hip, h⟩ := bind_eq_ok.mp h
  obtain ⟨hproto, hsrc, hdst, htotal⟩ := new_eq_ok hip
  rw [ok_bind] at h
  obtain ⟨udp, hudp, h⟩ := bind_eq_ok.mp h
  obtain ⟨hsport, hdport, hulen, hzero⟩ := UdpHeader.new_eq_ok hudp
  obtain ⟨partialSum, hpartial, h⟩ := bind_eq_ok.mp h
  obtain ⟨sum, hsum, h⟩ := bind_eq_ok.mp h
  cases h
  have hbound := udp.length.toNat_lt
  rw [UInt16.toNat_ofNat'] at htotal hulen
  -- both lengths fit, so they agree
  have hlen : ip.totalLength.toNat = 28 + payload.length % 65536 := by
    rw [htotal]
    unfold udpHeaderLen
    omega
  refine ⟨ip.sealed, _, append_assoc _ _ _, hproto, hsrc, hdst, hlen, hsport, hdport, hulen,
    ip.fold16_sealed, fun hle => ?_⟩
  obtain rfl : fold16 (pseudoHeaderSum src.ip dst.ip protoUdp
      (UInt16.ofNat (udpHeaderLen + payload.length)) + partialSum) = sum := by
    unfold addWords uadd at hsum
    split at hsum
    next =>
      cases hsum
      rfl
    next => cases hsum
  obtain rfl : 0 + wordSum (udp.bytes ++ payload) = partialSum := by
    rw [sumWords_eq _ (Nat.two_pow_pos 32)] at hpartial
    split at hpartial
    next =>
      cases hpartial
      rfl
    next => cases hpartial
  rw [Nat.zero_add, UdpHeader.wordSum_sealed hzero, ← Nat.add_assoc]
  refine fold16_nonzeroChecksum ?_
  have hw := wordSum_le (udp.bytes ++ payload)
  rw [length_append, show udp.bytes.length = 8 from rfl] at hw
  have hs := src.ip.words_lt
  have hd := dst.ip.words_lt
  have hu := (UInt16.ofNat (8 + payload.length)).toNat_lt
  have hproto : protoUdp.toNat = 17 := rfl
  unfold pseudoHeaderSum
  omega

/-- The checksums of a datagram verify. -/
lemma CarriesDatagram.verifies {ε : Type}
    {payload : List UInt8} (h : CarriesDatagram packet src dst payload)
    (hle : payload.length ≤ 65507) :
    (verifyIpChecksum packet : Outcome ε Bool) = .ok true ∧
      fold16 (wordSum (packet.take ipv4HeaderLen)) = 65535 ∧ datagramSum packet = 65535 := by
  obtain ⟨ip, udp, rfl, hproto, hsrc, hdst, -, -, -, -, hip, hudp⟩ := h.parts
  have hlen : (udp.bytes ++ payload).length = 8 + payload.length := length_append
  refine ⟨?_, by rw [take_left' (bytes_length ip), hip], ?_⟩
  · have hshort : ¬ (ip.bytes ++ (udp.bytes ++ payload)).length < ipv4HeaderLen := by
      rw [length_append, bytes_length]
      omega
    have hsum := ip.wordSum_bytes_le
    unfold verifyIpChecksum computeChecksum
    rw [if_neg hshort, take_left' (bytes_length ip),
      sumWords_eq _ (Nat.two_pow_pos 32), if_pos (by omega), Nat.zero_add, ok_bind, hip]
    rfl
  · unfold datagramSum
    rw [parse_append]
    dsimp only
    rw [drop_left' (bytes_length ip), hlen, hsrc, hdst, hproto]
    exact hudp hle

namespace Stack

variable {n n' n₁ : Stack} {h r : Nat} {payload : List UInt8}

/-- A datagram comes in. Of a payload whose length does not fit 16 bits only the front
arrives. -/
lemma ipv4InputWith_datagram (hc : CarriesDatagram packet src dst payload)
    (input : Input) : ipv4InputWith input packet =
      deliverDatagram dst ⟨src, payload.take (payload.length % 65536)⟩ := by
  obtain ⟨ip, udp, rfl, hproto, hsrc, hdst, htotal, hsport, hdport, hulen, -⟩ := hc.parts
  have hmod := Nat.mod_le payload.length 65536
  have hudp : udp.bytes.length = 8 := rfl
  have hlen : (ip.bytes ++ (udp.bytes ++ payload)).length = 28 + payload.length := by
    simp only [length_append, bytes_length, ipv4HeaderLen]
    omega
  have hsegment : ((ip.bytes ++ (udp.bytes ++ payload)).drop ipv4HeaderLen).take
      (ip.totalLength.toNat - ipv4HeaderLen) =
        udp.bytes ++ payload.take (payload.length % 65536) := by
    rw [drop_left' (bytes_length ip), take_append, hudp,
      take_of_length_le (by unfold ipv4HeaderLen; omega), htotal]
    exact congrArg (fun k => udp.bytes ++ payload.take k) (by unfold ipv4HeaderLen; omega)
  have hseglen : (udp.bytes ++ payload.take (payload.length % 65536)).length =
      8 + payload.length % 65536 := by
    rw [length_append, hudp, length_take, Nat.min_eq_left hmod]
  unfold ipv4InputWith
  rw [parse_append]
  dsimp only
  rw [if_neg (by omega), if_pos hproto, range_of_le (by unfold ipv4HeaderLen; omega) (by omega),
    lift_ok_bind, hsegment]
  unfold udpInput
  rw [UdpHeader.parse_append]
  dsimp only
  rw [if_neg (by omega), range_of_le (by unfold udpHeaderLen; omega) (by omega), lift_ok_bind,
    drop_left' (show udp.bytes.length = udpHeaderLen from rfl), hulen, hdst, hsrc, hsport, hdport]
  rw [take_of_length_le]
  rw [length_take]
  unfold udpHeaderLen
  omega

/-- The source address is found, or picked; nothing but the socket table changes. -/
lemma sourceAddr_loRx (hsrc : sourceAddr h dst n = (.ok src, n₁)) :
    n₁.loRx = n.loRx := by
  unfold sourceAddr at hsrc
  split at hsrc
  next => cases hsrc
  next =>
    split at hsrc
    next =>
      split at hsrc <;> · cases hsrc; rfl
    next =>
      cases hsrc
      rfl

lemma deliverDatagram_ok (dst : SocketAddrV4) (dgram : ReceivedDatagram) (n : Stack) :
    (deliverDatagram dst dgram n).1 = .ok () := by
  unfold deliverDatagram
  split
  next => rfl
  next => split <;> rfl

/-- What `sendto` does once it has a source address. -/
lemma sendto_eq {depth : Nat} (hq : n.loRx = [])
    (hsrc : sourceAddr h dst n = (.ok src, n₁)) :
    sendto (depth + 1) h payload dst n =
      match (buildDatagram src dst payload : Outcome SocketError Packet) with
      | .ok _ => match n₁.route dst.ip with
        | none => (.err .noRoute, n₁)
        | some false => (.err .unreachable, n₁)
        | some true => (.ok payload.length,
            (deliverDatagram dst ⟨src, payload.take (payload.length % 65536)⟩ n₁).2)
      | .err e => (.err e, n₁)
      | .panic => (.panic, n₁)
      | .diverge => (.diverge, n₁) := by
  have hq₁ : n₁.loRx = [] := (sourceAddr_loRx hsrc).trans hq
  unfold sendto
  rw [bind_ok hsrc]
  cases hbuild : (buildDatagram src dst payload : Outcome SocketError Packet) with
  | ok packet =>
    rw [lift_ok_bind]
    cases hroute : n₁.route dst.ip with
    | none => exact bind_err (by unfold transmit; rw [hroute])
    | some up =>
      cases up with
      | false => exact bind_err (by unfold transmit; rw [hroute])
      | true =>
        -- the queue holds the one packet
        have hdrain : drainPending (ipv4Input (depth + 1)) { n₁ with loRx := [packet] } =
            deliverDatagram dst ⟨src, payload.take (payload.length % 65536)⟩ n₁ :=
          (drainLoop_single (ipv4Input_within _ packet) hq₁ 127).trans
            (congrFun (ipv4InputWith_datagram (buildDatagram_carries hbuild) _) n₁)
        have htransmit : transmit (ε := SocketError) .noRoute .unreachable dst.ip packet n₁ =
            (.ok (), { n₁ with loRx := [packet] }) := by
          unfold transmit
          rw [hroute, hq₁]
          rfl
        rw [bind_ok htransmit,
          bind_ok (a := ()) (by rw [sure, mapErr_apply, hdrain, deliverDatagram_ok]; rfl)]
        rfl
  | _ => rfl

/-- A call of `sendto` that succeeds has handed the datagram to the table. -/
lemma sendto_ok {depth k : Nat} (hq : n.loRx = [])
    (hsend : sendto (depth + 1) h payload dst n = (.ok k, n')) : k = payload.length ∧
    ∃ src n₁ packet, sourceAddr h dst n = (.ok src, n₁) ∧
      (buildDatagram src dst payload : Outcome SocketError Packet) = .ok packet ∧
      deliverDatagram dst ⟨src, payload.take (payload.length % 65536)⟩ n₁ = (.ok (), n') := by
  obtain ⟨src, n₁, hsrc, -⟩ := bind_eq_ok hsend
  rw [sendto_eq hq hsrc] at hsend
  split at hsend
  next packet hbuild =>
    split at hsend
    next => cases hsend
    next => cases hsend
    next =>
      cases hsend
      exact ⟨rfl, src, n₁, packet, hsrc, hbuild, Prod.ext (deliverDatagram_ok _ _ _) rfl⟩
  all_goals cases hsend

/-! ## Which socket gets it -/

/-- The one open socket that is bound to the destination. -/
def OnlyBound (n : Stack) (dst : SocketAddrV4) (r : Nat) : Prop :=
  ∀ j, SocketTable.isBoundTo dst.ip dst.port .udp (n.sockets.get j) = true ↔ j = r

/-- What a `sendto` that answers with `k` is to have done: `k` is the length, one
datagram with the payload and the port of the sender has been appended to the queue of the
receiver, and the sums of the packet are all ones, that of the IPv4 header also by the kernel's own
check. -/
structure Delivered (n n' : Stack) (h r : Nat) (payload : List UInt8) (dst : SocketAddrV4)
    (k : Nat) : Prop where
  count : k = payload.length
  queued : ∃ s s' dgram sender addr, n.sockets.get r = some s ∧ n'.sockets.get r = some s' ∧
    s'.rx = s.rx ++ [dgram] ∧ dgram.data = payload ∧
    n'.sockets.get h = some sender ∧ sender.bound = some addr ∧ dgram.fromAddr.port = addr.port
  verifies : ∃ src n₁ packet, sourceAddr h dst n = (.ok src, n₁) ∧
    (buildDatagram src dst payload : Outcome SocketError Packet) = .ok packet ∧
    (verifyIpChecksum packet : Outcome SocketError Bool) = .ok true ∧
    fold16 (wordSum (packet.take ipv4HeaderLen)) = 0xFFFF ∧ datagramSum packet = 0xFFFF

/-- The payload fits a datagram, and a sender that is given the very address of the
destination stands behind the receiver. -/
structure Deliverable (n : Stack) (h r : Nat) (payload : List UInt8)
    (dst : SocketAddrV4) : Prop where
  fits : payload.length ≤ 65507
  behind : ∀ s, n.sockets.get h = some s → s.bound = none →
    dst = ⟨.localhost, n.sockets.nextEphemeralPort⟩ → r < h

/-- The source address of a bound socket, or a new one. -/
lemma sourceAddr_cases (hsrc : sourceAddr h dst n = (.ok src, n₁)) :
    ∃ s, n.sockets.get h = some s ∧
      ((∃ b, s.bound = some b ∧ src.port = b.port ∧ n₁ = n) ∨
        (s.bound = none ∧ src = ⟨.localhost, n.sockets.nextEphemeralPort⟩ ∧
          n₁.sockets.sockets = n.sockets.sockets.set h (some { s with bound := some src }))) := by
  unfold sourceAddr at hsrc
  split at hsrc
  next => cases hsrc
  next s hs =>
    refine ⟨s, hs, ?_⟩
    split at hsrc
    next b hb =>
      left
      split at hsrc
      · cases hsrc
        exact ⟨b, hb, rfl, rfl⟩
      · cases hsrc
        exact ⟨src, hb, rfl, rfl⟩
    next hb =>
      cases hsrc
      exact .inr ⟨hb, rfl, rfl⟩

/-- A datagram goes to the first socket that matches. -/
lemma deliverDatagram_found {f : Nat} {s : Socket} (dgram : ReceivedDatagram)
    (hfind : n.sockets.findBound dst.ip dst.port .udp = some f) (hget : n.sockets.get f = some s) :
    deliverDatagram dst dgram n =
      (.ok (), { n with sockets := n.sockets.put f { s with rx := s.rx ++ [dgram] } }) := by
  unfold deliverDatagram
  rw [hfind]
  dsimp only
  rw [hget]

/-- The receiver is a socket. -/
lemma OnlyBound.receiver (hone : OnlyBound n dst r) : ∃ s, n.sockets.get r = some s ∧
    SocketTable.isBoundTo dst.ip dst.port .udp (some s) = true := by
  have hr := (hone r).mpr rfl
  cases hget : n.sockets.get r with
  | none =>
    rw [hget] at hr
    cases hr
  | some s =>
    rw [hget] at hr
    exact ⟨s, rfl, hr⟩

/-- Whether the datagram was delivered, when the socket that got it is known: it has to be
the receiver, and nothing may have been cut off. -/
lemma delivered_iff {f : Nat} {sr sr₁ sender : Socket}
    {addr : SocketAddrV4}
    (hsrc : sourceAddr h dst n = (.ok src, n₁))
    (hbuild : (buildDatagram src dst payload : Outcome SocketError Packet) = .ok packet)
    (hdeliver : deliverDatagram dst ⟨src, payload.take (payload.length % 65536)⟩ n₁ = (.ok (), n'))
    (hfind : n₁.sockets.findBound dst.ip dst.port .udp = some f)
    (hr : n.sockets.get r = some sr) (hr₁ : n₁.sockets.get r = some sr₁) (hrx : sr₁.rx = sr.rx)
    (hsender : n₁.sockets.get h = some sender) (hbound : sender.bound = some addr)
    (hport : src.port = addr.port) :
    Delivered n n' h r payload dst payload.length ↔ f = r ∧ payload.length ≤ 65507 := by
  obtain ⟨sf, hf, -⟩ : ∃ sf, n₁.sockets.get f = some sf ∧ _ := first_get rfl hfind
  rw [deliverDatagram_found _ hfind hf] at hdeliver
  cases hdeliver
  have hcarries := buildDatagram_carries hbuild
  constructor
  · rintro ⟨-, ⟨s, s', dgram, -, -, hs, hs', happend, hdata, -⟩, -⟩
    cases hr.symm.trans hs
    have hfr : f = r := by
      by_contra hne
      have hsame : n₁.sockets.get r = some s' := (get_set_ne _ (Ne.symm hne)).symm.trans hs'
      cases hr₁.symm.trans hsame
      have hlen := congrArg List.length (hrx.symm.trans happend)
      rw [length_append, length_singleton] at hlen
      omega
    refine ⟨hfr, ?_⟩
    subst hfr
    cases hr₁.symm.trans hf
    have hs'' : some s' = some _ := hs'.symm.trans (get_set_self hf)
    cases hs''
    -- what was appended is the front of the payload
    have hdgram : dgram = ⟨src, payload.take (payload.length % 65536)⟩ := by
      have := append_inj_right (happend.symm.trans (congrArg (· ++ _) hrx)) rfl
      exact singleton_inj.mp this
    rw [hdgram] at hdata
    have hlen := congrArg List.length hdata
    rw [length_take] at hlen
    obtain ⟨ip, udp, -, -, -, -, htotal, -⟩ := hcarries.parts
    have hbound := ip.totalLength.toNat_lt
    omega
  · rintro ⟨rfl, hle⟩
    cases hr₁.symm.trans hf
    have hfull : payload.take (payload.length % 65536) = payload := take_of_length_le (by omega)
    refine ⟨rfl, ?_, src, n₁, packet, hsrc, hbuild, hcarries.verifies hle⟩
    have hself : ∃ sender', (n₁.sockets.put f { sr₁ with rx := sr₁.rx ++
        [⟨src, payload.take (payload.length % 65536)⟩] }).get h = some sender' ∧
        sender'.bound = some addr := by
      by_cases hhf : h = f
      · subst hhf
        cases hsender.symm.trans hf
        exact ⟨_, get_set_self hf, hbound⟩
      · exact ⟨sender, (get_set_ne _ hhf).trans hsender, hbound⟩
    obtain ⟨sender', hget', hbound'⟩ := hself
    exact ⟨sr, _, ⟨src, payload.take (payload.length % 65536)⟩, sender', addr, hr,
      get_set_self hf, congrArg (· ++ _) hrx, hfull, hget', hbound', hport⟩

/-- A socket that was just bound matches its own address only. -/
lemma isBoundTo_picked (s : Socket) (port : UInt16) :
    SocketTable.isBoundTo dst.ip dst.port .udp (some { s with bound := some ⟨.localhost, port⟩ }) =
      true ↔ dst = ⟨.localhost, port⟩ := by
  have hproto : (s.proto == .udp) = true := by
    cases s.proto
    rfl
  have hloop : Ipv4Addr.localhost.isUnspecified = false := rfl
  obtain ⟨ip, p⟩ := dst
  simp only [SocketTable.isBoundTo, Option.any_some, hproto, hloop, Bool.true_and, Bool.false_or,
    Bool.and_eq_true, beq_iff_eq, SocketAddrV4.mk.injEq]
  exact ⟨fun h => ⟨h.1.symm, h.2.symm⟩, fun h => ⟨h.1.symm, h.2.symm⟩⟩

/-- **Datagrams over loopback.** For every socket table, sender, payload and destination to
which exactly one open socket is bound: a `sendto` that succeeds has delivered the datagram
exactly if the payload fits and the sender was not given the receiver's address in front of
it. -/
theorem sendto_delivers_iff (n : Stack) (hq : n.loRx = []) (depth h : Nat) (payload : List UInt8)
    (dst : SocketAddrV4) (r : Nat) (hone : OnlyBound n dst r) (k : Nat) (n' : Stack)
    (hsend : sendto (depth + 1) h payload dst n = (.ok k, n')) :
    Delivered n n' h r payload dst k ↔ Deliverable n h r payload dst := by
  obtain ⟨rfl, src, n₁, packet, hsrc, hbuild, hdeliver⟩ := sendto_ok hq hsend
  obtain ⟨sr, hr, hrbound⟩ := hone.receiver
  obtain ⟨s, hs, ⟨b, hb, hport, rfl⟩ | ⟨hb, hsrcEq, hsockets⟩⟩ := sourceAddr_cases hsrc
  · -- a bound sender: the table is as it was
    obtain ⟨f, hfind⟩ := first_of_get hr hrbound
    obtain rfl : f = r := (hone f).mp (first_least hfind).1
    rw [delivered_iff hsrc hbuild hdeliver hfind hr hr rfl hs hb hport]
    refine ⟨fun hle => ⟨hle.2, fun s' hs' hnone => ?_⟩, fun hd => ⟨rfl, hd.fits⟩⟩
    cases hs.symm.trans hs'
    exact nomatch hb.symm.trans hnone
  · have hhr : r ≠ h := by
      rintro rfl
      cases hr.symm.trans hs
      unfold SocketTable.isBoundTo at hrbound
      simp [hb] at hrbound
    have hget (j : Nat) (hj : j ≠ h) : n₁.sockets.get j = n.sockets.get j := by
      show get n₁.sockets.sockets j = _
      rw [hsockets]
      exact get_set_ne _ hj
    have hgeth : n₁.sockets.get h = some { s with bound := some src } := by
      show get n₁.sockets.sockets h = _
      rw [hsockets]
      exact get_set_self hs
    have hr₁ : n₁.sockets.get r = some sr := (hget r hhr).trans hr
    obtain ⟨f, hfind⟩ := first_of_get hr₁ hrbound
    rw [delivered_iff hsrc hbuild hdeliver hfind hr hr₁ rfl hgeth rfl rfl]
    obtain ⟨hmatch, hbefore⟩ := first_least hfind
    have hpicked : SocketTable.isBoundTo dst.ip dst.port .udp (n₁.sockets.get h) = true ↔
        dst = ⟨.localhost, n.sockets.nextEphemeralPort⟩ := by
      rw [hgeth, hsrcEq]
      exact isBoundTo_picked s _
    have hrmatch : SocketTable.isBoundTo dst.ip dst.port .udp (n₁.sockets.get r) = true := by
      rw [hr₁]
      exact hrbound
    -- the first of the two that match
    have hfirst : f = r ↔ (dst = ⟨.localhost, n.sockets.nextEphemeralPort⟩ → r < h) := by
      constructor
      · rintro rfl hdst
        rcases Nat.lt_or_gt_of_ne hhr with hlt | hgt
        · exact hlt
        · exact nomatch (hbefore h hgt).symm.trans (hpicked.mpr hdst)
      · intro hbehind
        by_cases hfh : f = h
        · subst hfh
          have hlt := hbehind (hpicked.mp hmatch)
          exact nomatch (hbefore r hlt).symm.trans hrmatch
        · have hf : n₁.sockets.get f = n.sockets.get f := hget f hfh
          exact (hone f).mp (hf ▸ hmatch)
    rw [hfirst]
    refine ⟨fun hd => ⟨hd.2, fun s' _ _ => hd.1⟩, fun hd => ⟨hd.behind s hs hb, hd.fits⟩⟩

/-- A receiver on port 80, and a sender that is not bound yet. -/
def twoSockets : Stack := { boot 0 with
  sockets := ⟨[some ⟨0, .udp, some ⟨.localhost, 80⟩, []⟩, some ⟨1, .udp, none, []⟩], 49152⟩ }

/-- From an unbound socket to another. -/
theorem sendto_delivers_twoSockets : ∃ k n',
    sendto 1 1 [1, 2, 3] ⟨.localhost, 80⟩ twoSockets = (.ok k, n') ∧
      Delivered twoSockets n' 1 0 [1, 2, 3] ⟨.localhost, 80⟩ k := by
  have hone : OnlyBound twoSockets ⟨.localhost, 80⟩ 0 := by
    intro j
    match j with
    | 0 => decide
    | 1 => decide
    | j + 2 => exact ⟨nofun, nofun⟩
  have hsend : (sendto 1 1 [1, 2, 3] ⟨.localhost, 80⟩ twoSockets).1 = .ok 3 := by decide +kernel
  have hsend : sendto 1 1 [1, 2, 3] ⟨.localhost, 80⟩ twoSockets =
      (.ok 3, (sendto 1 1 [1, 2, 3] ⟨.localhost, 80⟩ twoSockets).2) := Prod.ext hsend rfl
  refine ⟨3, _, hsend, (sendto_delivers_iff twoSockets rfl 0 1 [1, 2, 3] ⟨.localhost, 80⟩ 0 hone 3 _
    hsend).mpr ⟨?_, ?_⟩⟩
  · decide
  · intro _ _ _ _
    exact Nat.zero_lt_one

/-- A sender that is not bound yet, and behind it a receiver on the port that is next in
line. -/
def clash : Stack := { boot 0 with
  sockets := ⟨[some ⟨0, .udp, none, []⟩, some ⟨1, .udp, some ⟨.localhost, 49152⟩, []⟩], 49152⟩ }

/-- The datagram goes to the sender. -/
theorem sendto_clash_lost : OnlyBound clash ⟨.localhost, 49152⟩ 1 ∧
    (sendto 1 0 [7] ⟨.localhost, 49152⟩ clash).1 = .ok 1 ∧
    ¬ Delivered clash (sendto 1 0 [7] ⟨.localhost, 49152⟩ clash).2 0 1 [7]
      ⟨.localhost, 49152⟩ 1 := by
  refine ⟨?_, by decide +kernel, ?_⟩
  · intro j
    match j with
    | 0 => decide
    | 1 => decide
    | j + 2 => exact ⟨nofun, nofun⟩
  · rintro ⟨-, ⟨s, s', dgram, -, -, hs, hs', happend, -⟩, -⟩
    have hrx :
        ((sendto 1 0 [7] ⟨.localhost, 49152⟩ clash).2.sockets.get 1).map (·.rx) = some [] := by
      decide +kernel
    rw [hs', Option.map_some, happend] at hrx
    exact absurd (Option.some.inj hrx) (concat_ne_nil _ _)

end Stack

end RustOs.Net
