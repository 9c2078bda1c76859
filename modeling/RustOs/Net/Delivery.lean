import RustOs.Net.Stack
import RustOs.Lib.Invariant

/-!
# What a packet that is sent does

A packet goes out through `emit`, lands on the queue of the loopback interface, is
taken off it by `drain_pending` and comes in through `ipv4_input`. As long as the
queue is empty to begin with, it is empty again when a call returns
(`ipv4Input_within`), and the way through bytes and queue can be forgotten: a
segment that is sent is a segment that comes in at the other side, with the
addresses swapped (`reply_ipv4Input`).

The byte level shows in one place only. The length fields of a segment are those of
its length modulo 2¹⁶, so of a long segment only the front arrives
(`ipv4InputWith_segment`).
-/

namespace RustOs.Net

open Lib Outcome Ipv4Header Prog List Nat

/-! ## Segments as packets -/

/-- The packet carries a segment: its two headers, and then the payload. -/
structure Carries (packet : Packet) (localAddr remoteAddr : SocketAddrV4) (c : Control)
    (payload : List UInt8) : Prop where
  parts : ∃ ip th, packet = Ipv4Header.bytes ip ++ (TcpHeader.bytes th ++ payload) ∧
    ip.protocol = protoTcp ∧ ip.src = localAddr.ip ∧ ip.dst = remoteAddr.ip ∧
    ip.totalLength.toNat = 20 + (20 + payload.length) % 65536 ∧
    th.control = c ∧ th.srcPort = localAddr.port ∧ th.dstPort = remoteAddr.port ∧
    th.dataOffsetWords = 5

lemma Ipv4Addr.words_lt (ip : Ipv4Addr) : ip.words < 131072 := by
  have h₁ := (ofBe16 ip.a ip.b).toNat_lt
  have h₂ := (ofBe16 ip.c ip.d).toNat_lt
  unfold words
  omega

variable {localAddr remoteAddr : SocketAddrV4}

/-- A segment that can be built carries what it was built from. -/
lemma buildSegment_carries {ε : Type} {c : Control}
    {payload : List UInt8} {packet : Packet}
    (h : (buildSegment localAddr remoteAddr c payload : Outcome ε Packet) = .ok packet) :
    Carries packet localAddr remoteAddr c payload := by
  unfold buildSegment at h
  simp only [writeTo_eq] at h
  obtain ⟨ip, hip, h⟩ := bind_eq_ok.mp h
  obtain ⟨hproto, hsrc, hdst, htotal⟩ := new_eq_ok hip
  rw [ok_bind] at h
  obtain ⟨pseudo, -, h⟩ := bind_eq_ok.mp h
  obtain ⟨sum, -, h⟩ := bind_eq_ok.mp h
  cases h
  refine ⟨ip.sealed, _, append_assoc _ _ _, hproto, hsrc, hdst, ?_, rfl, rfl, rfl, rfl⟩
  exact htotal

/-- A segment of ordinary size can be built. -/
lemma buildSegment_ok {ε : Type} (localAddr remoteAddr : SocketAddrV4) (c : Control)
    {payload : List UInt8} (h : payload.length ≤ 65495) :
    ∃ packet, (buildSegment localAddr remoteAddr c payload : Outcome ε Packet) = .ok packet := by
  have hl := localAddr.ip.words_lt
  have hr := remoteAddr.ip.words_lt
  have hsum := wordSum_le ((TcpHeader.new localAddr remoteAddr c).bytes ++ payload)
  rw [length_append, show (TcpHeader.new localAddr remoteAddr c).bytes.length = 20 from rfl] at hsum
  have hproto : protoTcp.toNat = 6 := rfl
  have hlen : (UInt16.ofNat (tcpHeaderMin + payload.length)).toNat = 20 + payload.length := by
    rw [UInt16.toNat_ofNat', mod_eq_of_lt (by unfold tcpHeaderMin; omega)]
    rfl
  have hlen32 : (tcpHeaderMin + payload.length) % 2 ^ 32 = 20 + payload.length := by
    rw [mod_eq_of_lt (by unfold tcpHeaderMin; omega)]
    rfl
  unfold buildSegment new
  rw [hlen, uadd_of_lt (by unfold ipv4HeaderLen; omega)]
  simp only [ok_bind, pure_eq, writeTo_eq]
  rw [uadd_of_lt (by omega), ok_bind, sumWords_eq _ (by omega), if_pos (by omega)]
  exact ⟨_, rfl⟩

namespace Stack

variable {input : Input} {payload : List UInt8} {n : Stack} {packet : Packet} {c : Control}
    {ε ε' α : Type}

/-- A segment comes in. Of a segment whose length does not fit 16 bits only the
front arrives, and nothing at all if not even the header is left. -/
lemma ipv4InputWith_segment
    (h : Carries packet localAddr remoteAddr c payload)
    (hflags : c.flags.toNat < 64) (input : Input) :
    ipv4InputWith input packet = if (20 + payload.length) % 65536 < 20 then pure ()
      else segmentInput input remoteAddr localAddr c
        (payload.take ((20 + payload.length) % 65536 - 20)) := by
  obtain ⟨ip, th, rfl, hproto, hsrc, hdst, htotal, rfl, hsport, hdport, hoff⟩ := h.parts
  have hth : th.bytes.length = 20 := rfl
  have hlen : (ip.bytes ++ (th.bytes ++ payload)).length = 40 + payload.length := by
    simp only [length_append, bytes_length, ipv4HeaderLen]
    omega
  have hrange : (range (ip.bytes ++ (th.bytes ++ payload)) ipv4HeaderLen ip.totalLength.toNat :
      Outcome Empty _) = .ok ((th.bytes ++ payload).take ((20 + payload.length) % 65536)) := by
    rw [range_of_le (by unfold ipv4HeaderLen; omega) (by omega), htotal,
      drop_left' (bytes_length ip)]
    rw [show 20 + (20 + payload.length) % 65536 - ipv4HeaderLen = (20 + payload.length) % 65536 from
      Nat.add_sub_cancel_left ..]
  unfold ipv4InputWith
  rw [parse_append]
  dsimp only
  rw [if_neg (by omega), if_neg (by rw [hproto]; decide), if_neg (by rw [hproto]; decide),
    if_pos hproto, hrange, lift_ok_bind]
  unfold tcpInput
  by_cases hshort : (20 + payload.length) % 65536 < 20
  · -- no header came through
    have hnone :
        TcpHeader.parse ((th.bytes ++ payload).take ((20 + payload.length) % 65536)) = none := by
      refine if_pos ?_
      rw [length_take]
      exact Nat.lt_of_le_of_lt (Nat.min_le_left _ _) hshort
    rw [hnone, if_pos hshort]
  · have htake : (th.bytes ++ payload).take ((20 + payload.length) % 65536) =
        th.bytes ++ payload.take ((20 + payload.length) % 65536 - 20) := by
      rw [take_append, hth, take_of_length_le (by omega)]
    rw [htake, TcpHeader.parse_append th hoff hflags, if_neg hshort]
    dsimp only
    rw [hoff, if_neg]
    · show segmentInput input ⟨ip.dst, th.dstPort⟩ ⟨ip.src, th.srcPort⟩ th.control
        ((th.bytes ++ _).drop 20) = _
      rw [drop_left' hth, hdst, hsrc, hsport, hdport]
    · rw [length_append, hth]
      exact Nat.not_lt.mpr (Nat.le_add_right 20 _)

/-! ## The queue of the interface -/

/-- From an empty queue to an empty queue, with interface and clock as they were, and
without emptying a slot of the endpoint table. -/
structure Settles (n n' : Stack) : Prop where
  loRx : n'.loRx = []
  lo : n'.lo = n.lo
  ticks : n'.ticks = n.ticks
  full : Slots.Full n.tcp.endpoints → Slots.Full n'.tcp.endpoints

/-- What a call does when the queue is empty to begin with. -/
def Quiet (n n' : Stack) : Prop := n.loRx = [] → Settles n n'

lemma Quiet.refl (n : Stack) : Quiet n n := fun h => ⟨h, rfl, rfl, id⟩

lemma Quiet.trans (n n₁ n₂ : Stack) (h : Quiet n n₁) (h' : Quiet n₁ n₂) : Quiet n n₂ := by
  intro hq
  have h₁ := h hq
  have h₂ := h' h₁.loRx
  exact ⟨h₂.loRx, h₂.lo.trans h₁.lo, h₂.ticks.trans h₁.ticks, fun hfull => h₂.full (h₁.full hfull)⟩

variable {x : Prog Stack ε α}

/-- A call that changes nothing but the tables. -/
lemma within_tables
    (h : ∀ n, (x n).2.loRx = n.loRx ∧ (x n).2.lo = n.lo ∧ (x n).2.ticks = n.ticks ∧
      (Slots.Full n.tcp.endpoints → Slots.Full (x n).2.tcp.endpoints)) :
    Within Quiet x := by
  intro n _ hq
  obtain ⟨hrx, hlo, hticks, hfull⟩ := h n
  exact ⟨hrx.trans hq, hlo, hticks, hfull⟩

/-- A drained queue is left alone. -/
lemma drainLoop_nil (input : Input) (rounds : Nat) (h : n.loRx = []) :
    drainLoop input rounds n = (.ok (), n) := by
  cases rounds with
  | zero => rfl
  | succ rounds =>
    unfold drainLoop
    rw [h]

/-- A queue of one packet is drained in one round. -/
lemma drainLoop_single (hin : Within Quiet (input packet))
    (hq : n.loRx = []) (rounds : Nat) :
    drainLoop input (rounds + 1) { n with loRx := [packet] } = input packet n := by
  have hn : ({ n with loRx := [] } : Stack) = n := by rw [← hq]
  have hquiet := hin n
  show (input packet >>= fun _ => drainLoop input rounds) { n with loRx := [] } = _
  rw [hn]
  rcases hr : input packet n with ⟨o, n'⟩
  rw [hr] at hquiet
  cases o with
  | ok u =>
    rw [bind_ok hr]
    exact drainLoop_nil input rounds (hquiet trivial hq).loRx
  | err e => cases e
  | panic => exact bind_panic hr
  | diverge => exact bind_diverge hr

/-- The packet that was sent comes in, and nothing else does. -/
lemma sendPacket_eq (hin : Within Quiet (input packet))
    (hq : n.loRx = []) (dst : Ipv4Addr) :
    sendPacket input dst packet n = match n.route dst with
      | none => (.err "no route", n)
      | some false => (.err "interface down", n)
      | some true => sure (input packet) n := by
  unfold sendPacket
  cases hroute : n.route dst with
  | none =>
    refine bind_err ?_
    unfold transmit
    rw [hroute]
  | some up =>
    cases up with
    | false =>
      refine bind_err ?_
      unfold transmit
      rw [hroute]
    | true =>
      have htransmit : transmit "no route" "interface down" dst packet n =
          (.ok (), { n with loRx := [packet] }) := by
        unfold transmit
        rw [hroute, hq]
        rfl
      rw [bind_ok htransmit]
      show ((drainLoop input 128 _).1.mapErr _, (drainLoop input 128 _).2) = _
      rw [drainLoop_single hin hq]
      rfl

lemma sendPacket_within (hin : Within Quiet (input packet))
    (dst : Ipv4Addr) : Within Quiet (sendPacket input dst packet) := by
  intro n hret hq
  rw [sendPacket_eq hin hq] at hret ⊢
  split at hret
  next => exact Quiet.refl n hq
  next => exact Quiet.refl n hq
  next => exact hin.mapErr _ n hret hq

/-! ## The input path leaves the queue empty -/

lemma ignore_within (hx : Within Quiet x) :
    Within Quiet (ignore x : Prog Stack ε' Unit) :=
  hx.attempt.bind Quiet.trans fun _ => .lift Quiet.refl _

section

variable (hin : ∀ packet, Within Quiet (input packet))
    (localAddr remoteAddr : SocketAddrV4) (c : Control)
include hin

lemma emit_within (payload : List UInt8) :
    Within Quiet (emit input localAddr remoteAddr c payload) :=
  (Within.lift Quiet.refl _).bind Quiet.trans fun packet => sendPacket_within (hin packet) _

lemma reply_within : Within Quiet (reply input localAddr remoteAddr c) :=
  ignore_within (emit_within hin localAddr remoteAddr c [])

end

lemma udpInput_within (ipHdr : Ipv4Header) (segment : List UInt8) :
    Within Quiet (udpInput ipHdr segment) := by
  unfold udpInput
  split
  next => exact .lift Quiet.refl _
  next =>
    split
    next => exact .lift Quiet.refl _
    next =>
      refine (Within.lift Quiet.refl _).bind Quiet.trans fun payload => within_tables fun n => ?_
      unfold deliverDatagram
      split
      next => exact ⟨rfl, rfl, rfl, id⟩
      next => split <;> exact ⟨rfl, rfl, rfl, id⟩

lemma icmpInput_within (hin : ∀ packet, Within Quiet (input packet))
    (ipHdr : Ipv4Header) (segment : List UInt8) : Within Quiet (icmpInput input ipHdr segment) := by
  unfold icmpInput
  split
  next => exact .lift Quiet.refl _
  next hdr _ =>
    split
    next =>
      refine ignore_within ((Within.lift Quiet.refl _).bind Quiet.trans fun packet => ?_)
      exact sendPacket_within (hin packet) _
    next =>
      split
      next => exact within_tables fun n => ⟨rfl, rfl, rfl, id⟩
      next => exact .lift Quiet.refl _

/-- A segment for an endpoint changes that endpoint and nothing else. -/
lemma processSegmentFor_ok {i : Nat}
    {ep ep' : TcpEndpoint} {pending : Option Control} (hget : n.tcp.get i = some ep)
    (hseg : (ep.processSegment n.ticks c payload : Outcome Empty _) = .ok (ep', pending)) :
    processSegmentFor i c payload n = (.ok pending, { n with tcp := n.tcp.put i ep' }) := by
  unfold processSegmentFor
  rw [bind_ok (get_apply n)]
  simp only [hget, hseg]
  rfl

lemma processSegmentFor_panic {i : Nat}
    {ep : TcpEndpoint} (hget : n.tcp.get i = some ep)
    (hseg : (ep.processSegment n.ticks c payload : Outcome Empty _) = .panic) :
    processSegmentFor i c payload n = (.panic, n) := by
  unfold processSegmentFor
  rw [bind_ok (get_apply n)]
  simp only [hget, hseg]
  rfl

lemma processSegmentFor_within (i : Nat) (c : Control) (payload : List UInt8) :
    Within Quiet (processSegmentFor i c payload) := by
  refine within_tables fun n => ?_
  unfold processSegmentFor
  rw [bind_ok (get_apply n)]
  cases n.tcp.get i with
  | none => exact ⟨rfl, rfl, rfl, id⟩
  | some ep =>
    dsimp only
    cases (ep.processSegment n.ticks c payload : Outcome Empty _) with
    | ok r => exact ⟨rfl, rfl, rfl, fun h => h.set i r.1⟩
    | err e => cases e
    | _ => exact ⟨rfl, rfl, rfl, id⟩

/-- A child is added, and its listener changed. -/
lemma spawnChild_within (localAddr remoteAddr : SocketAddrV4) (peerSeq : UInt32) :
    Within Quiet (spawnChild localAddr remoteAddr peerSeq) := by
  refine within_tables fun n => ⟨rfl, rfl, rfl, fun hfull => ?_⟩
  have hnew := hfull.alloc (.newChildForSyn n.ticks localAddr remoteAddr peerSeq)
  unfold spawnChild
  dsimp only
  rw [TcpTable.allocate_eq]
  split
  next => exact hnew
  next =>
    split
    next => exact hnew
    next => exact hnew.set _ _

/-- What a segment is answered with is drained. -/
lemma segmentInput_within (hin : ∀ packet, Within Quiet (input packet))
    (localAddr remoteAddr : SocketAddrV4) (c : Control) (payload : List UInt8) :
    Within Quiet (segmentInput input localAddr remoteAddr c payload) := by
  have hreply := reply_within hin localAddr remoteAddr
  refine .bind Quiet.trans (within_tables fun n => ⟨rfl, rfl, rfl, id⟩) fun n => ?_
  split
  next i _ =>
    refine (processSegmentFor_within i c payload).bind Quiet.trans fun pending => ?_
    split
    next p => exact hreply p
    next => exact .lift Quiet.refl _
  next =>
    split
    next =>
      split
      next =>
        exact (spawnChild_within localAddr remoteAddr c.seq).bind Quiet.trans
          fun synAck => hreply synAck
      next => exact hreply _
    next => exact hreply _

lemma tcpInput_within (hin : ∀ packet, Within Quiet (input packet))
    (ipHdr : Ipv4Header) (segment : List UInt8) : Within Quiet (tcpInput input ipHdr segment) := by
  unfold tcpInput
  split
  next => exact .lift Quiet.refl _
  next =>
    dsimp only
    split
    next => exact .lift Quiet.refl _
    next => exact segmentInput_within hin _ _ _ _

/-- A call of `ipv4_input` that returns has drained what it sent. -/
lemma ipv4Input_within (depth : Nat) (packet : Packet) : Within Quiet (ipv4Input depth packet) := by
  induction depth generalizing packet with
  | zero => exact fun n hret => absurd hret id
  | succ depth ih =>
    unfold ipv4Input ipv4InputWith
    split
    next => exact .lift Quiet.refl _
    next hdr _ =>
      have hrange {f : List UInt8 → Call Unit} (hf : ∀ segment, Within Quiet (f segment)) :
          Within Quiet (lift (range packet ipv4HeaderLen hdr.totalLength.toNat) >>= f) :=
        (Within.lift Quiet.refl _).bind Quiet.trans hf
      split
      next => exact .lift Quiet.refl _
      next =>
        split
        next => exact hrange (udpInput_within hdr)
        next =>
          split
          next => exact hrange (icmpInput_within ih hdr)
          next =>
            split
            next => exact hrange (tcpInput_within ih hdr)
            next => exact .lift Quiet.refl _

/-! ## Replies -/

lemma ignore_congr {x y : Prog Stack ε α} (h : x n = y n) :
    (ignore x : Prog Stack ε' Unit) n = ignore y n := by
  have hattempt : (x.attempt : Prog Stack ε' _) n = y.attempt n := by
    unfold attempt
    rw [h]
  show Prog.bind _ _ n = Prog.bind _ _ n
  unfold Prog.bind
  rw [hattempt]

lemma ignore_err {n' : Stack} {e : ε}
    (h : x n = (.err e, n')) : (ignore x : Prog Stack ε' Unit) n = (.ok (), n') := by
  unfold ignore
  rw [bind_ok (attempt_err h)]
  rfl

/-- A call that returns no error ends as it does. -/
lemma ignore_sure (x : Call Unit) (n : Stack) :
    (ignore (sure x : Prog Stack ε Unit) : Call Unit) n = x n := by
  have hsure : (sure x : Prog Stack ε Unit) n = ((x n).1.mapErr _, (x n).2) := rfl
  unfold ignore
  rcases hr : x n with ⟨o, n'⟩
  rw [hr] at hsure
  cases o with
  | ok u =>
    rw [bind_ok (attempt_ok hsure)]
    rfl
  | err e => cases e
  | panic => exact bind_panic (attempt_panic hsure)
  | diverge => exact bind_diverge (attempt_diverge hsure)

variable (depth : Nat) (localAddr remoteAddr : SocketAddrV4)

/-- A segment that is sent is a packet that comes in, if it goes anywhere. -/
lemma emit_eq (c : Control) (hlen : payload.length ≤ 65495) (hq : n.loRx = []) :
    ∃ packet, Carries packet localAddr remoteAddr c payload ∧
      emit (ipv4Input depth) localAddr remoteAddr c payload n = match n.route remoteAddr.ip with
        | none => (.err "no route", n)
        | some false => (.err "interface down", n)
        | some true => sure (ipv4Input depth packet) n := by
  obtain ⟨packet, hbuild⟩ := buildSegment_ok (ε := String) localAddr remoteAddr c hlen
  refine ⟨packet, buildSegment_carries hbuild, ?_⟩
  unfold emit
  rw [hbuild, lift_ok_bind, sendPacket_eq (ipv4Input_within depth packet) hq]

/-- How `emit` ends, in terms of what the other side does with the segment. -/
lemma emit_ipv4Input (hflags : c.flags.toNat < 64) (hlen : payload.length ≤ 65495)
    (hq : n.loRx = []) :
    emit (ipv4Input (depth + 1)) localAddr remoteAddr c payload n = match n.route remoteAddr.ip with
      | none => (.err "no route", n)
      | some false => (.err "interface down", n)
      | some true => sure (segmentInput (ipv4Input depth) remoteAddr localAddr c payload) n := by
  obtain ⟨packet, hcarries, heq⟩ := emit_eq (depth + 1) localAddr remoteAddr c hlen hq
  have hinput : ipv4Input (depth + 1) packet =
      segmentInput (ipv4Input depth) remoteAddr localAddr c payload := by
    have hmod : (20 + payload.length) % 65536 = 20 + payload.length := mod_eq_of_lt (by omega)
    show ipv4InputWith (ipv4Input depth) packet = _
    rw [ipv4InputWith_segment hcarries hflags, hmod, if_neg (by omega),
      take_of_length_le (by omega)]
  rw [heq, hinput]

/-- A segment without payload is a packet that comes in, or nothing. -/
lemma reply_eq (c : Control) (hq : n.loRx = []) :
    ∃ packet, Carries packet localAddr remoteAddr c [] ∧
    reply (ipv4Input depth) localAddr remoteAddr c n =
      if n.route remoteAddr.ip = some true then ipv4Input depth packet n else (.ok (), n) := by
  obtain ⟨packet, hcarries, hemit⟩ := emit_eq depth localAddr remoteAddr c
    (show ([] : List UInt8).length ≤ 65495 by decide) hq
  refine ⟨packet, hcarries, ?_⟩
  unfold reply
  split at hemit
  next hroute => rw [hroute, if_neg nofun, ignore_err hemit]
  next hroute => rw [hroute, if_neg (by simp), ignore_err hemit]
  next hroute => rw [hroute, if_pos rfl, ignore_congr hemit, ignore_sure]

/-- A segment without payload that is sent comes in at the other side. -/
lemma reply_ipv4Input (hflags : c.flags.toNat < 64) (hq : n.loRx = []) :
    reply (ipv4Input (depth + 1)) localAddr remoteAddr c n =
      if n.route remoteAddr.ip = some true then
        segmentInput (ipv4Input depth) remoteAddr localAddr c [] n
      else (.ok (), n) := by
  obtain ⟨packet, hcarries, heq⟩ := reply_eq (depth + 1) localAddr remoteAddr c hq
  have hinput : ipv4Input (depth + 1) packet =
    segmentInput (ipv4Input depth) remoteAddr localAddr c [] :=
    ipv4InputWith_segment hcarries hflags (ipv4Input depth)
  rw [heq, hinput]

end Stack

end RustOs.Net
