import RustOs.Net.Tcp

/-!
# The network stack

The tables and the loopback interface of `net/mod.rs`, `net/loopback.rs`,
`net/socket.rs`, `net/icmp.rs` and `net/tcp.rs`, and the calls on them. The loopback
interface is the only one there is, so a packet to any other address has no route.

Sending is synchronous. A packet that is sent is put on the receive queue of the
interface, and the queue is drained at once: `ipv4_input` runs inside the call that
sent the packet, may send packets of its own, and those are drained inside it. The
functions of the input path therefore take the input function for the next level as
an argument, and `ipv4Input` ties the knot with a bound on the depth of the
recursion. Past the bound it answers `diverge`: the kernel stack has no such bound
to offer, and a call that needs arbitrary depth does not return.
-/

namespace RustOs.Net

open Lib

/-! ## State -/

/-- `ReceivedDatagram`. -/
structure ReceivedDatagram where
  fromAddr : SocketAddrV4
  data : List UInt8
  deriving DecidableEq, Repr

/-- `SocketProto`. -/
inductive SocketProto where
  | udp
  deriving DecidableEq, Repr

/-- `Socket`. -/
structure Socket where
  handle : Nat
  proto : SocketProto
  bound : Option SocketAddrV4
  rx : List ReceivedDatagram
  deriving DecidableEq, Repr

/-- `SocketTable`. -/
structure SocketTable where
  sockets : List (Option Socket)
  nextEphemeralPort : UInt16
  deriving DecidableEq, Repr

/-- `SocketError`. -/
inductive SocketError where
  | invalidHandle
  | addressInUse
  | notBound
  | unreachable
  | noRoute
  | bufferTooSmall
  deriving DecidableEq, Repr

/-- `EchoReply`. -/
structure EchoReply where
  fromAddr : Ipv4Addr
  identifier : UInt16
  sequence : UInt16
  payload : List UInt8
  recvTick : UInt64
  deriving DecidableEq, Repr

/-- The statics of the network stack, and the time. -/
structure Stack where
  sockets : SocketTable
  tcp : TcpTable
  /-- The loopback interface: is it registered, and is it up? -/
  lo : Option Bool
  /-- `LO_RX_QUEUE`. -/
  loRx : List Packet
  /-- `ECHO_REPLIES`. -/
  echoReplies : List EchoReply
  /-- `current_ticks`. -/
  ticks : UInt64
  deriving DecidableEq, Repr

/-- Calls that return no error. -/
abbrev Call (α : Type) := Prog Stack Empty α

/-- A function that takes a packet in. -/
abbrev Input := Packet → Call Unit

namespace SocketTable

/-- `SocketTable::new`. -/
def new : SocketTable := ⟨[], 49152⟩

variable (t : SocketTable)

/-- `get` and `get_mut`. -/
def get (h : Nat) : Option Socket := t.sockets[h]?.join

/-- Put a socket in its slot. -/
def put (h : Nat) (s : Socket) : SocketTable :=
  { t with sockets := t.sockets.set h (some s) }

/-- Does the slot hold a socket bound to this address? -/
def isBoundTo (ip : Ipv4Addr) (port : UInt16) (proto : SocketProto) (slot : Option Socket) : Bool :=
  slot.any fun s => s.proto == proto && s.bound.any fun addr =>
    (addr.ip.isUnspecified || addr.ip == ip) && addr.port == port

/-- `find_bound`. -/
def findBound (ip : Ipv4Addr) (port : UInt16) (proto : SocketProto) : Option Nat :=
  t.sockets.findIdx? (isBoundTo ip port proto)

end SocketTable

namespace Stack

/-- The stack after `init`, before the first packet. -/
def boot (ticks : UInt64) : Stack := ⟨.new, .new, some true, [], [], ticks⟩

/-! ## The interface -/

/-- `route`: is there an interface for the address, and is it up? -/
def route (n : Stack) (dst : Ipv4Addr) : Option Bool := if dst.isLoopback then n.lo else none

/-- `route`, then `transmit_ipv4`, with the error for each. -/
def transmit {ε : Type} (noRoute interfaceDown : ε) (dst : Ipv4Addr) (packet : Packet) :
    Prog Stack ε Unit := fun n =>
  match n.route dst with
  | none => (.err noRoute, n)
  | some false => (.err interfaceDown, n)
  | some true => (.ok (), { n with loRx := n.loRx ++ [packet] })

/-- The loop of `drain_pending`, with the rounds left. -/
def drainLoop (input : Input) : Nat → Call Unit
  | 0 => pure ()
  | rounds + 1 => fun n =>
    match n.loRx with
    | [] => (.ok (), n)
    | packet :: loRx => (do input packet; drainLoop input rounds) { n with loRx }

variable (input : Input)

/-- `drain_pending`. -/
def drainPending : Call Unit := drainLoop input 128

/-- A call without errors, among calls with errors. -/
def sure {ε α : Type} (x : Call α) : Prog Stack ε α := x.mapErr nofun

/-- `let _ = ..`. -/
def ignore {ε ε' α : Type} (x : Prog Stack ε α) : Prog Stack ε' Unit := do
  let _ ← (x.attempt : Prog Stack ε' (Except ε α))

/-- A packet is routed, transmitted and drained. -/
def sendPacket (dst : Ipv4Addr) (packet : Packet) : Prog Stack String Unit := do
  transmit "no route" "interface down" dst packet
  sure (drainPending input)

/-- `emit`. -/
def emit (localAddr remoteAddr : SocketAddrV4) (c : Control)
    (payload : List UInt8) : Prog Stack String Unit := do
  let packet ← Prog.lift (buildSegment localAddr remoteAddr c payload)
  sendPacket input remoteAddr.ip packet

/-- `let _ = emit(..)` of a segment without payload. -/
def reply (localAddr remoteAddr : SocketAddrV4) (c : Control) : Call Unit :=
  ignore (emit input localAddr remoteAddr c [])

/-! ## Input -/

/-- A datagram goes to the socket that is bound to its destination, if there is
one. -/
def deliverDatagram (dst : SocketAddrV4) (dgram : ReceivedDatagram) : Call Unit := fun n =>
  match n.sockets.findBound dst.ip dst.port .udp with
  | none => (.ok (), n)
  | some i =>
    match n.sockets.get i with
    | none => (.ok (), n)
    | some s => (.ok (), { n with sockets := n.sockets.put i { s with rx := s.rx ++ [dgram] } })

/-- `udp_input`. -/
def udpInput (ipHdr : Ipv4Header) (segment : List UInt8) : Call Unit :=
  match UdpHeader.parse segment with
  | none => pure ()
  | some udp =>
    if udp.length.toNat > segment.length then pure ()
    else do
      let payload ← Prog.lift (range segment udpHeaderLen udp.length.toNat)
      deliverDatagram ⟨ipHdr.dst, udp.dstPort⟩ ⟨⟨ipHdr.src, udp.srcPort⟩, payload⟩

/-- `send_echo_reply`. -/
def sendEchoReply (src dst : Ipv4Addr) (identifier sequence : UInt16)
    (payload : List UInt8) : Prog Stack String Unit := do
  let packet ← Prog.lift (buildEchoReply src dst identifier sequence payload)
  sendPacket input dst packet

/-- An echo reply is queued for whoever waits for it. -/
def queueEcho (fromAddr : Ipv4Addr) (hdr : IcmpHeader) (payload : List UInt8) :
    Call Unit := fun n =>
  let echo : EchoReply := ⟨fromAddr, hdr.identifier, hdr.sequence, payload, n.ticks⟩
  (.ok (), { n with echoReplies := n.echoReplies ++ [echo] })

/-- `icmp_input`. -/
def icmpInput (ipHdr : Ipv4Header) (segment : List UInt8) : Call Unit :=
  match IcmpHeader.parse segment with
  | none => pure ()
  | some hdr =>
    let payload := segment.drop icmpHeaderLen
    if hdr.kind = icmpTypeEchoRequest then
      ignore (sendEchoReply input ipHdr.dst ipHdr.src hdr.identifier hdr.sequence payload)
    else if hdr.kind = icmpTypeEchoReply then queueEcho ipHdr.src hdr payload
    else pure ()

/-- `process_segment_for`, in its slot of the table. -/
def processSegmentFor (i : Nat) (c : Control) (payload : List UInt8) : Call (Option Control) := do
  let n ← Prog.get
  match n.tcp.get i with
  | none => return none
  | some ep =>
    let (ep, pending) ← Prog.lift (ep.processSegment n.ticks c payload)
    Prog.set { n with tcp := n.tcp.put i ep }
    return pending

/-- A SYN for a listener: a child endpoint is made and queued for `accept`. Answers
with the SYN+ACK. -/
def spawnChild (localAddr remoteAddr : SocketAddrV4) (peerSeq : UInt32) :
    Call Control := fun n =>
  let child := TcpEndpoint.newChildForSyn n.ticks localAddr remoteAddr peerSeq
  let r := n.tcp.allocate child
  let tcp := match r.2.findListener localAddr with
    | none => r.2
    | some l =>
      match r.2.get l with
      | none => r.2
      | some listener => r.2.put l { listener with acceptQueue := listener.acceptQueue ++ [r.1] }
  (.ok ⟨child.sndUna, child.rcvNxt, Flags.syn ||| Flags.ack⟩, { n with tcp })

/-- `tcp_input`, for a segment that has been parsed. -/
def segmentInput (localAddr remoteAddr : SocketAddrV4) (c : Control)
    (payload : List UInt8) : Call Unit := do
  let n ← Prog.get
  match n.tcp.findEndpoint localAddr remoteAddr with
  | some i =>
    match ← processSegmentFor i c payload with
    | some pending => reply input localAddr remoteAddr pending
    | none => pure ()
  | none =>
    if c.has Flags.syn ∧ ¬ c.has Flags.ack then
      match n.tcp.findListener localAddr with
      | some _ =>
        let synAck ← spawnChild localAddr remoteAddr c.seq
        reply input localAddr remoteAddr synAck
      | none => reply input localAddr remoteAddr ⟨0, c.seq + 1, Flags.rst ||| Flags.ack⟩
    else
      reply input localAddr remoteAddr
        ⟨c.ack, c.seq + UInt32.ofNat payload.length, Flags.rst⟩

/-- `tcp_input`. -/
def tcpInput (ipHdr : Ipv4Header) (segment : List UInt8) : Call Unit :=
  match TcpHeader.parse segment with
  | none => pure ()
  | some th =>
    let headerLen := th.dataOffsetWords.toNat * 4
    if segment.length < headerLen then pure ()
    else segmentInput input ⟨ipHdr.dst, th.dstPort⟩ ⟨ipHdr.src, th.srcPort⟩ th.control
      (segment.drop headerLen)

/-- `ipv4_input`, for a given input function of the next level. -/
def ipv4InputWith (packet : Packet) : Call Unit :=
  match Ipv4Header.parse packet with
  | none => pure ()
  | some hdr =>
    if hdr.totalLength.toNat > packet.length then pure ()
    else if hdr.protocol = protoUdp then do
      let segment ← Prog.lift (range packet ipv4HeaderLen hdr.totalLength.toNat)
      udpInput hdr segment
    else if hdr.protocol = protoIcmp then do
      let segment ← Prog.lift (range packet ipv4HeaderLen hdr.totalLength.toNat)
      icmpInput input hdr segment
    else if hdr.protocol = protoTcp then do
      let segment ← Prog.lift (range packet ipv4HeaderLen hdr.totalLength.toNat)
      tcpInput input hdr segment
    else pure ()

/-- `ipv4_input`, with a bound on the depth of the recursion. -/
def ipv4Input : Nat → Input
  | 0 => fun _ n => (.diverge, n)
  | depth + 1 => ipv4InputWith (ipv4Input depth)

/-! ## Calls on datagram sockets -/

/-- `source_ip_for`, or `LOCALHOST`: the loopback address either way. -/
def sourceIpFor (_dst : Ipv4Addr) : Ipv4Addr := .localhost

/-- The first part of `sendto`: the source address, which an unbound socket picks
now. -/
def sourceAddr (h : Nat) (dst : SocketAddrV4) : Prog Stack SocketError SocketAddrV4 := fun n =>
  match n.sockets.get h with
  | none => (.err .invalidHandle, n)
  | some s =>
    match s.bound with
    | some b => if b.ip.isUnspecified then (.ok ⟨sourceIpFor dst.ip, b.port⟩, n) else (.ok b, n)
    | none =>
      let addr : SocketAddrV4 := ⟨sourceIpFor dst.ip, n.sockets.nextEphemeralPort⟩
      let sockets := { n.sockets with nextEphemeralPort := nextPort n.sockets.nextEphemeralPort }
      (.ok addr, { n with sockets := sockets.put h { s with bound := some addr } })

/-- `sendto`. -/
def sendto (depth : Nat) (h : Nat) (payload : List UInt8) (dst : SocketAddrV4) :
    Prog Stack SocketError Nat := do
  let src ← sourceAddr h dst
  let datagram ← Prog.lift (buildDatagram src dst payload)
  transmit .noRoute .unreachable dst.ip datagram
  sure (drainPending (ipv4Input depth))
  return payload.length

/-! ## Calls on streams -/

/-- `listen`. -/
def listen (addr : SocketAddrV4) (backlog : UInt32) : Prog Stack TcpError Nat := fun n =>
  if n.tcp.endpoints.any fun slot => slot.any fun ep => ep.state == .listen &&
    ep.localAddr == addr then
    (.err .addressInUse, n)
  else
    let r := n.tcp.allocate (.newListener addr backlog)
    (.ok r.1, { n with tcp := r.2 })

/-- `accept`. -/
def accept (h : Nat) : Prog Stack TcpError Nat := fun n =>
  match n.tcp.get h with
  | none => (.err .invalidHandle, n)
  | some lp =>
    if lp.state ≠ .listen then (.err .notListening, n)
    else
      match lp.acceptQueue with
      | [] => (.err .notListening, n)
      | child :: acceptQueue => (.ok child, { n with tcp := n.tcp.put h { lp with acceptQueue } })

/-- The first part of `connect`: the new endpoint in its slot. -/
def openActive (remoteAddr : SocketAddrV4) : Prog Stack TcpError (Nat × TcpEndpoint) := fun n =>
  let localAddr : SocketAddrV4 := ⟨.localhost, n.tcp.nextEphemeralPort⟩
  let ep := TcpEndpoint.newActive n.ticks localAddr remoteAddr
  let r := { n.tcp with nextEphemeralPort := nextPort n.tcp.nextEphemeralPort }.allocate ep
  (.ok (r.1, ep), { n with tcp := r.2 })

/-- `connect`. -/
def connect (depth : Nat) (remoteAddr : SocketAddrV4) : Prog Stack TcpError Nat := do
  let (h, ep) ← openActive remoteAddr
  (emit (ipv4Input depth) ep.localAddr remoteAddr ⟨ep.sndUna, 0, Flags.syn⟩ []).mapErr
    fun _ => TcpError.noRoute
  let n ← Prog.get
  match n.tcp.get h with
  | none => Prog.fail .invalidHandle
  | some ep =>
    if ep.state = .established then return h
    else if ep.state = .closed then Prog.fail .refused
    else return h

/-- `send`. -/
def send (depth : Nat) (h : Nat) (data : List UInt8) : Prog Stack TcpError Nat := do
  let n ← Prog.get
  match n.tcp.get h with
  | none => Prog.fail .invalidHandle
  | some ep =>
    match ep.send n.ticks data with
    | none => Prog.fail .notConnected
    | some (ep, c) =>
      Prog.set { n with tcp := n.tcp.put h ep }
      (emit (ipv4Input depth) ep.localAddr ep.remoteAddr c data).mapErr fun _ => TcpError.closed
      return data.length

/-- `close`. -/
def close (depth : Nat) (h : Nat) : Prog Stack TcpError Unit := do
  let n ← Prog.get
  match n.tcp.get h with
  | none => Prog.fail .invalidHandle
  | some ep =>
    let r := ep.close
    Prog.set { n with tcp := n.tcp.put h r.1 }
    match r.2 with
    | none => pure ()
    | some fin => ignore (emit (ipv4Input depth) ep.localAddr ep.remoteAddr fin [])

end Stack

end RustOs.Net
