import RustOs.Net.Packet
import RustOs.Lib.Slots

/-!
# TCP endpoints

One connection, or one listener, of `net/tcp.rs`: the sequence numbers, the
retransmission queue with its timer, and what the endpoint does with a segment.
Sequence numbers are 32-bit and wrap.

The functions on a single endpoint come first (`processAck`, `onRto`,
`processSegment`, and the parts of `send`, `close` and `retransmit_tick` that work
on one endpoint); each answers with what is to be sent. `TcpTable` then finds the
endpoint of a segment: the first slot with that local port and that remote address,
whatever its state.
-/

namespace RustOs.Net

open Lib Outcome Option UInt32 Slots

/-- `TcpState`. -/
inductive TcpState where
  | closed
  | listen
  | synSent
  | synRcvd
  | established
  | finWait1
  | finWait2
  | closeWait
  | lastAck
  | closing
  | timeWait
  deriving DecidableEq, Repr

/-- `RetxSegment`. -/
structure RetxSegment where
  seq : UInt32
  flags : UInt8
  data : List UInt8
  sendTick : UInt64
  retries : UInt8
  deriving DecidableEq, Repr

/-- The sequence number after the segment. -/
def RetxSegment.stop (seg : RetxSegment) : UInt32 := seg.seq + UInt32.ofNat seg.data.length

/-- `MSS`. -/
def mss : UInt32 := 1460

/-- `u32::MAX`. -/
def u32Max : Nat := 2 ^ 32 - 1

/-- `saturating_add`. -/
def satAdd (a b : UInt32) : UInt32 := UInt32.ofNat (min (a.toNat + b.toNat) u32Max)

/-- `saturating_mul`. -/
def satMul (a b : UInt32) : UInt32 := UInt32.ofNat (min (a.toNat * b.toNat) u32Max)

/-- `saturating_add(1)` of a `u8`. -/
def satSucc (a : UInt8) : UInt8 := UInt8.ofNat (min (a.toNat + 1) 255)

/-- The segment when it is sent again. -/
def RetxSegment.again (now : UInt64) (seg : RetxSegment) : RetxSegment :=
  { seg with retries := satSucc seg.retries, sendTick := now }

/-- `TcpEndpoint`. -/
structure TcpEndpoint where
  state : TcpState
  localAddr : SocketAddrV4
  remoteAddr : SocketAddrV4
  sndNxt : UInt32
  sndUna : UInt32
  rcvNxt : UInt32
  rcvBuf : List UInt8
  cwnd : UInt32
  ssthresh : UInt32
  srtt : UInt32
  rttvar : UInt32
  rto : UInt32
  retx : List RetxSegment
  rtoBackoff : UInt8
  acceptQueue : List Nat
  backlog : UInt32
  deriving DecidableEq, Repr

/-- `seq_le`: at most half the sequence space ahead. -/
def seqLe (a b : UInt32) : Bool := b - a < 0x80000000

/-- `TcpError`. -/
inductive TcpError where
  | invalidHandle
  | notListening
  | addressInUse
  | noRoute
  | refused
  | alreadyConnected
  | notConnected
  | closed
  deriving DecidableEq, Repr

namespace TcpEndpoint

/-- The fields that every new endpoint has alike. -/
def fresh (state : TcpState) (localAddr remoteAddr : SocketAddrV4) (sndNxt sndUna rcvNxt : UInt32)
    (backlog : UInt32) : TcpEndpoint where
  state
  localAddr
  remoteAddr
  sndNxt
  sndUna
  rcvNxt
  rcvBuf := []
  cwnd := mss
  ssthresh := UInt32.ofNat u32Max
  srtt := 0
  rttvar := 0
  rto := 2
  retx := []
  rtoBackoff := 0
  acceptQueue := []
  backlog

/-- `new_listener`. -/
def newListener (localAddr : SocketAddrV4) (backlog : UInt32) : TcpEndpoint :=
  fresh .listen localAddr ⟨.any, 0⟩ 0 0 0 backlog

/-- `new_child_for_syn`. -/
def newChildForSyn (now : UInt64) (localAddr remoteAddr : SocketAddrV4) (peerSeq : UInt32) :
    TcpEndpoint :=
  let iss := now.toUInt32 ^^^ 0x12345678
  fresh .synRcvd localAddr remoteAddr iss iss (peerSeq + 1) 0

/-- `new_active`. -/
def newActive (now : UInt64) (localAddr remoteAddr : SocketAddrV4) : TcpEndpoint :=
  let iss := now.toUInt32 ^^^ 0xCAFEBABE
  fresh .synSent localAddr remoteAddr (iss + 1) iss 0 0

/-! ## Acknowledgements -/

/-- The loop of `process_ack`: segments that end by `ack` leave the front of the
queue. Returns the bytes they held and when the last of them that was never
retransmitted was sent. -/
def popAcked (ack : UInt32) : List RetxSegment → UInt32 → Option UInt64 →
    List RetxSegment × UInt32 × Option UInt64
  | [], acked, newest => ([], acked, newest)
  | seg :: retx, acked, newest =>
    if seqLe seg.stop ack then
      popAcked ack retx (satAdd acked (UInt32.ofNat seg.data.length))
        (if seg.retries = 0 then some seg.sendTick else newest)
    else (seg :: retx, acked, newest)

/-- The round-trip estimate after a sample, in 32-bit arithmetic. -/
def sampleRtt {ε : Type} (ep : TcpEndpoint) (rtt : UInt32) : Outcome ε TcpEndpoint := do
  let (srtt, rttvar) ←
    if ep.srtt = 0 then pure (rtt.toNat, rtt.toNat / 2)
    else do
      let absDiff := if ep.srtt > rtt then ep.srtt.toNat - rtt.toNat else rtt.toNat - ep.srtt.toNat
      let rttvar ← uadd 32 (ep.rttvar.toNat - ep.rttvar.toNat / 4) (absDiff / 4)
      let srtt ← uadd 32 (ep.srtt.toNat - ep.srtt.toNat / 8) (rtt.toNat / 8)
      pure (srtt, rttvar)
  let var4 ← umul 32 4 rttvar
  let rto ← uadd 32 srtt var4
  return { ep with
    srtt := UInt32.ofNat srtt
    rttvar := UInt32.ofNat rttvar
    rto := UInt32.ofNat (max rto 2) }

variable (ep : TcpEndpoint)

/-- The congestion window after bytes were acknowledged. -/
def grow (acked : UInt32) : TcpEndpoint :=
  if ep.cwnd < ep.ssthresh then { ep with cwnd := satAdd ep.cwnd (min acked mss) }
  else { ep with cwnd := satAdd ep.cwnd (max (satMul mss mss / max ep.cwnd 1) 1) }

/-- `process_ack`. -/
def processAck {ε : Type} (now : UInt64) (ack : UInt32) (ep : TcpEndpoint) :
    Outcome ε TcpEndpoint := do
  let (retx, acked, newest) := popAcked ack ep.retx 0 none
  let ep := { ep with retx }
  if acked = 0 then return ep
  let ep := { ep with sndUna := ack, rtoBackoff := 0 }
  let ep ← match newest with
    | some sendTick => ep.sampleRtt (UInt32.ofNat (now.toNat - sendTick.toNat))
    | none => pure ep
  return ep.grow acked

/-- `on_rto`. -/
def onRto : TcpEndpoint := { ep with
  ssthresh := max (ep.cwnd / 2) (2 * mss)
  cwnd := mss
  rto := min (satMul ep.rto 2) 60
  rtoBackoff := satSucc ep.rtoBackoff }

/-! ## Segments -/

/-- Data that is next in sequence is buffered and acknowledged. -/
def takeData (c : Control) (payload : List UInt8) (ep : TcpEndpoint) :
    TcpEndpoint × Option Control :=
  if payload ≠ [] ∧ c.seq = ep.rcvNxt then
    let ep := { ep with
      rcvBuf := ep.rcvBuf ++ payload
      rcvNxt := ep.rcvNxt + UInt32.ofNat payload.length }
    (ep, some ⟨ep.sndNxt, ep.rcvNxt, Flags.ack⟩)
  else (ep, none)

/-- The endpoint acknowledges up to its `rcv_nxt`. -/
def pendingAck : Control := ⟨ep.sndNxt, ep.rcvNxt, Flags.ack⟩

/-- The peer's FIN is taken to end at `seq + 1`. -/
def takeFin (c : Control) (state : TcpState) (ep : TcpEndpoint) : TcpEndpoint × Option Control :=
  let ep := { ep with rcvNxt := c.seq + 1, state }
  (ep, some ep.pendingAck)

/-- `process_segment_for`, on the endpoint it found. -/
def processSegment {ε : Type} (now : UInt64) (c : Control) (payload : List UInt8)
    (ep : TcpEndpoint) : Outcome ε (TcpEndpoint × Option Control) :=
  match ep.state with
  | .synSent =>
    if c.flags &&& (Flags.syn ||| Flags.ack) = Flags.syn ||| Flags.ack then
      let ep := { ep with sndUna := c.ack, rcvNxt := c.seq + 1, state := .established }
      .ok (ep, some ep.pendingAck)
    else if c.has Flags.rst then .ok ({ ep with state := .closed }, none)
    else .ok (ep, none)
  | .synRcvd =>
    if c.has Flags.ack ∧ c.ack = ep.sndNxt + 1 then
      .ok ({ ep with sndUna := c.ack, sndNxt := c.ack, state := .established }, none)
    else .ok (ep, none)
  | .established => do
    let (ep, reply) := ep.takeData c payload
    let ep ← if c.has Flags.ack then ep.processAck now c.ack else pure ep
    if c.has Flags.fin then
      -- the FIN counts whatever its sequence number
      let ep := { ep with rcvNxt := ep.rcvNxt + 1, state := TcpState.closeWait }
      return (ep, some ep.pendingAck)
    else return (ep, reply)
  | .finWait1 =>
    if c.has Flags.fin ∧ c.has Flags.ack then .ok (ep.takeFin c .closed)
    else if c.has Flags.ack then .ok ({ ep with state := .finWait2 }, none)
    else if c.has Flags.fin then .ok (ep.takeFin c .closing)
    else .ok (ep, none)
  | .finWait2 => if c.has Flags.fin then .ok (ep.takeFin c .closed) else .ok (ep, none)
  | .closeWait => .ok (ep.takeData c payload)
  | .lastAck => if c.has Flags.ack then .ok ({ ep with state := .closed }, none) else .ok (ep, none)
  | .closed | .listen | .closing | .timeWait => .ok (ep, none)

/-! ## Sending -/

/-- The first half of `send`: the data gets its sequence numbers and is queued for
retransmission. -/
def send (now : UInt64) (data : List UInt8) (ep : TcpEndpoint) : Option (TcpEndpoint × Control) :=
  if ep.state ≠ .established ∧ ep.state ≠ .closeWait then none
  else
    let seg : RetxSegment := ⟨ep.sndNxt, Flags.ack ||| Flags.psh, data, now, 0⟩
    some ({ ep with
        sndNxt := ep.sndNxt + UInt32.ofNat data.length
        retx := ep.retx ++ [seg] },
      ⟨ep.sndNxt, ep.rcvNxt, Flags.ack ||| Flags.psh⟩)

/-- The FIN takes one sequence number. It is not queued for retransmission. -/
def sendFin (state : TcpState) (ep : TcpEndpoint) : TcpEndpoint × Option Control :=
  ({ ep with state, sndNxt := ep.sndNxt + 1 }, some ⟨ep.sndNxt, ep.rcvNxt, Flags.fin ||| Flags.ack⟩)

/-- The first half of `close`. -/
def close : TcpEndpoint × Option Control :=
  match ep.state with
  | .established => ep.sendFin .finWait1
  | .closeWait => ep.sendFin .lastAck
  | .listen | .closed => ({ ep with state := .closed }, none)
  | _ => (ep, none)

/-- The part of `retransmit_tick` on one endpoint: when the timer of the oldest
segment has run out, it goes to the back of the queue and is sent again. -/
def retransmit (now : UInt64) (ep : TcpEndpoint) : TcpEndpoint × Option (Control × List UInt8) :=
  match ep.retx with
  | [] => (ep, none)
  | oldest :: rest =>
    let elapsed := UInt32.ofNat (now.toNat - oldest.sendTick.toNat)
    if elapsed < ep.rto then (ep, none)
    else
      let seg := { oldest with retries := satSucc oldest.retries, sendTick := now }
      ({ ep.onRto with retx := rest ++ [seg] }, some (⟨seg.seq, ep.rcvNxt, seg.flags⟩, seg.data))

/-- A tick does nothing, or sends the oldest segment of the queue again. -/
lemma retransmit_cases (now : UInt64) (ep : TcpEndpoint) :
    ep.retransmit now = (ep, none) ∨ ∃ oldest rest, ep.retx = oldest :: rest ∧
      ep.retransmit now = ({ ep.onRto with retx := rest ++ [oldest.again now] },
        some (⟨oldest.seq, ep.rcvNxt, oldest.flags⟩, oldest.data)) := by
  unfold retransmit
  cases ep.retx with
  | nil => exact .inl rfl
  | cons oldest rest =>
    by_cases hrto : ofNat (now.toNat - oldest.sendTick.toNat) < ep.rto
    · exact .inl (if_pos hrto)
    · exact .inr ⟨oldest, rest, rfl, if_neg hrto⟩

/-- The loop of `recv`: up to `n` bytes leave the receive buffer. -/
def recv (n : Nat) (ep : TcpEndpoint) : Outcome TcpError (List UInt8) × TcpEndpoint :=
  if ep.rcvBuf = [] then
    if ep.state = .closed ∨ ep.state = .closeWait ∨ ep.state = .lastAck then (.ok [], ep)
    else (.err .notConnected, ep)
  else (.ok (ep.rcvBuf.take n), { ep with rcvBuf := ep.rcvBuf.drop n })

end TcpEndpoint

/-! ## The table -/

/-- `TcpTable`. -/
structure TcpTable where
  endpoints : List (Option TcpEndpoint)
  nextEphemeralPort : UInt16
  deriving DecidableEq, Repr

/-- The next port of the ephemeral range. -/
def nextPort (p : UInt16) : UInt16 := if p ≥ 65000 then 49152 else p + 1

namespace TcpTable

/-- `TcpTable::new`. -/
def new : TcpTable := ⟨[], 49152⟩

variable (t : TcpTable)

/-- The endpoint of a handle. -/
def get (h : Nat) : Option TcpEndpoint := t.endpoints[h]?.join

/-- Put an endpoint in its slot. -/
def put (h : Nat) (ep : TcpEndpoint) : TcpTable :=
  { t with endpoints := t.endpoints.set h (some ep) }

/-- `allocate`: the first free slot, or a new one. -/
def allocate (ep : TcpEndpoint) : Nat × TcpTable :=
  match t.endpoints.findIdx? Option.isNone with
  | some i => (i, t.put i ep)
  | none => (t.endpoints.length, { t with endpoints := t.endpoints ++ [some ep] })

/-- Does the slot hold an endpoint for this pair of addresses? The local IP is not
compared. -/
def isEndpointOf (localAddr remoteAddr : SocketAddrV4) (slot : Option TcpEndpoint) : Bool :=
  slot.any fun ep => ep.localAddr.port == localAddr.port && ep.remoteAddr == remoteAddr

/-- `find_endpoint`. -/
def findEndpoint (localAddr remoteAddr : SocketAddrV4) : Option Nat :=
  t.endpoints.findIdx? (isEndpointOf localAddr remoteAddr)

/-- Does the slot hold a listener for this address? -/
def isListenerOf (localAddr : SocketAddrV4) (slot : Option TcpEndpoint) : Bool :=
  slot.any fun ep => ep.state == .listen &&
    ((ep.localAddr.ip.isUnspecified || ep.localAddr.ip == localAddr.ip) &&
      ep.localAddr.port == localAddr.port)

/-- `find_listener`. -/
def findListener (localAddr : SocketAddrV4) : Option Nat :=
  t.endpoints.findIdx? (isListenerOf localAddr)

/-! ### Lookups after a change -/

variable {t : TcpTable} {localAddr remoteAddr : SocketAddrV4} {i j : Nat} {ep ep' : TcpEndpoint}

lemma allocate_eq (t : TcpTable) (ep : TcpEndpoint) : t.allocate ep =
    ((alloc t.endpoints ep).1, { t with endpoints := (alloc t.endpoints ep).2 }) := by
  unfold allocate alloc
  cases t.endpoints.findIdx? isNone <;> rfl

lemma get_put_self (h : t.get i = some ep) : (t.put i ep').get i = some ep' :=
  get_set_self h

lemma get_put_ne (h : j ≠ i) : (t.put i ep').get j = t.get j := get_set_ne _ h

lemma get_allocate_self (t : TcpTable) (ep : TcpEndpoint) :
    (t.allocate ep).2.get (t.allocate ep).1 = some ep := by
  rw [allocate_eq]
  exact get_alloc_self t.endpoints ep

lemma get_allocate_ne (t : TcpTable) (ep : TcpEndpoint) (h : j ≠ (t.allocate ep).1) :
    (t.allocate ep).2.get j = t.get j := by
  rw [allocate_eq] at h ⊢
  exact get_alloc_ne t.endpoints ep h

/-- The slot of a new endpoint was free. -/
lemma get_allocate_fst (t : TcpTable) (ep : TcpEndpoint) : t.get (t.allocate ep).1 = none := by
  rw [allocate_eq]
  exact get_alloc_fst t.endpoints ep

lemma get_allocate_of_some (ep' : TcpEndpoint) (h : t.get j = some ep) :
    j ≠ (t.allocate ep').1 ∧ (t.allocate ep').2.get j = some ep := by
  rw [allocate_eq]
  exact get_alloc_of_some ep' h

lemma isEndpointOf_some : isEndpointOf localAddr remoteAddr (some ep) = true ↔
    ep.localAddr.port = localAddr.port ∧ ep.remoteAddr = remoteAddr := by
  simp only [isEndpointOf, any_some, Bool.and_eq_true, beq_iff_eq]

lemma findEndpoint_get (h : t.findEndpoint localAddr remoteAddr = some i) :
    ∃ ep, t.get i = some ep ∧ ep.localAddr.port = localAddr.port ∧ ep.remoteAddr = remoteAddr := by
  obtain ⟨ep, hget, hp⟩ := first_get rfl h
  exact ⟨ep, hget, isEndpointOf_some.mp hp⟩

lemma findEndpoint_put (h : t.get i = some ep) (hlocal : ep'.localAddr = ep.localAddr)
    (hremote : ep'.remoteAddr = ep.remoteAddr) :
    (t.put i ep').findEndpoint localAddr remoteAddr = t.findEndpoint localAddr remoteAddr := by
  refine first_set h ?_
  simp only [isEndpointOf, any_some, hlocal, hremote]

lemma findEndpoint_allocate (h : isEndpointOf localAddr remoteAddr (some ep) = false) :
    (t.allocate ep).2.findEndpoint localAddr remoteAddr = t.findEndpoint localAddr remoteAddr := by
  rw [allocate_eq]
  exact first_alloc rfl h

lemma findEndpoint_allocate_new (h : t.findEndpoint localAddr remoteAddr = none)
    (hep : isEndpointOf localAddr remoteAddr (some ep) = true) :
    (t.allocate ep).2.findEndpoint localAddr remoteAddr = some (t.allocate ep).1 := by
  rw [allocate_eq]
  exact first_alloc_new h hep

lemma findListener_get (h : t.findListener localAddr = some i) :
    ∃ ep, t.get i = some ep ∧ isListenerOf localAddr (some ep) = true :=
  first_get rfl h

lemma isListenerOf_state (h : isListenerOf localAddr (some ep) = true) : ep.state = .listen := by
  simp only [isListenerOf, any_some, Bool.and_eq_true, beq_iff_eq] at h
  exact h.1

lemma findListener_allocate (h : ep.state ≠ .listen) :
    (t.allocate ep).2.findListener localAddr = t.findListener localAddr := by
  rw [allocate_eq]
  refine first_alloc rfl ?_
  simp only [isListenerOf, any_some, beq_eq_false_iff_ne.mpr h, Bool.false_and]

end TcpTable

/-! ## Round-trip samples -/

namespace TcpEndpoint

variable (ep : TcpEndpoint)

/-- The smoothed round-trip time after a sample. -/
def srttAfter (rtt : UInt32) : Nat :=
  if ep.srtt = 0 then rtt.toNat else ep.srtt.toNat - ep.srtt.toNat / 8 + rtt.toNat / 8

/-- Its variation after a sample. -/
def rttvarAfter (rtt : UInt32) : Nat :=
  if ep.srtt = 0 then rtt.toNat / 2
  else ep.rttvar.toNat - ep.rttvar.toNat / 4 +
    (if ep.srtt > rtt then ep.srtt.toNat - rtt.toNat else rtt.toNat - ep.srtt.toNat) / 4

/-- The timeout computed from a sample fits 32 bits. -/
def RttFits (rtt : UInt32) : Prop :=
  ep.srttAfter rtt + 4 * ep.rttvarAfter rtt < 2 ^ 32

instance (ep : TcpEndpoint) (rtt : UInt32) : Decidable (ep.RttFits rtt) :=
  inferInstanceAs (Decidable (_ < _))

/-- The endpoint after a sample. -/
def sampled (rtt : UInt32) : TcpEndpoint := { ep with
  srtt := UInt32.ofNat (ep.srttAfter rtt)
  rttvar := UInt32.ofNat (ep.rttvarAfter rtt)
  rto := UInt32.ofNat (max (ep.srttAfter rtt + 4 * ep.rttvarAfter rtt) 2) }

/-- Smoothing itself cannot overflow; the timeout can. -/
lemma sampleRtt_eq {ε : Type} (ep : TcpEndpoint) (rtt : UInt32) :
    (ep.sampleRtt rtt : Outcome ε TcpEndpoint) =
      if ep.RttFits rtt then .ok (ep.sampled rtt) else .panic := by
  have hend : ∀ srtt rttvar : Nat, ((do
      let var4 ← umul 32 4 rttvar
      let rto ← uadd 32 srtt var4
      return { ep with
        srtt := ofNat srtt
        rttvar := ofNat rttvar
        rto := ofNat (max rto 2) }) : Outcome ε TcpEndpoint) =
      if srtt + 4 * rttvar < 2 ^ 32 then .ok { ep with
        srtt := ofNat srtt
        rttvar := ofNat rttvar
        rto := ofNat (max (srtt + 4 * rttvar) 2) } else .panic := by
    intro srtt rttvar
    by_cases hmul : 4 * rttvar < 2 ^ 32
    · rw [umul_of_lt hmul, ok_bind]
      by_cases hadd : srtt + 4 * rttvar < 2 ^ 32
      · rw [uadd_of_lt hadd, if_pos hadd]
        rfl
      · rw [if_neg hadd, uadd, if_neg hadd]
        rfl
    · have hadd : ¬ srtt + 4 * rttvar < 2 ^ 32 := by omega
      rw [if_neg hadd, umul, if_neg hmul]
      rfl
  unfold sampleRtt RttFits sampled srttAfter rttvarAfter
  by_cases hz : ep.srtt = 0
  · simp only [hz]
    exact hend _ _
  · have hs := ep.srtt.toNat_lt
    have hv := ep.rttvar.toNat_lt
    have hr := rtt.toNat_lt
    have hsum : ep.srtt.toNat - ep.srtt.toNat / 8 + rtt.toNat / 8 < 2 ^ 32 := by omega
    have hvar : ep.rttvar.toNat - ep.rttvar.toNat / 4 +
        (if ep.srtt > rtt then ep.srtt.toNat - rtt.toNat else rtt.toNat - ep.srtt.toNat) / 4 <
        2 ^ 32 := by
      split <;> omega
    simp only [hz]
    rw [uadd_of_lt hvar, ok_bind, uadd_of_lt hsum]
    exact hend _ _

/-- The sample that an acknowledgement leads to, if any, fits. -/
def AckFits (now : UInt64) (ack : UInt32) (ep : TcpEndpoint) : Prop :=
  (popAcked ack ep.retx 0 none).2.1 ≠ 0 → ∀ tick ∈ (popAcked ack ep.retx 0 none).2.2,
    ep.RttFits (UInt32.ofNat (now.toNat - tick.toNat))

/-- What `process_ack` leaves alone. -/
structure Acked (ep ep' : TcpEndpoint) : Prop where
  state : ep'.state = ep.state
  localAddr : ep'.localAddr = ep.localAddr
  remoteAddr : ep'.remoteAddr = ep.remoteAddr
  sndNxt : ep'.sndNxt = ep.sndNxt
  rcvNxt : ep'.rcvNxt = ep.rcvNxt
  rcvBuf : ep'.rcvBuf = ep.rcvBuf
  acceptQueue : ep'.acceptQueue = ep.acceptQueue

lemma grow_acked (acked : UInt32) : Acked ep (ep.grow acked) ∧
    (ep.grow acked).retx = ep.retx ∧ (ep.grow acked).sndUna = ep.sndUna := by
  unfold grow
  split <;> exact ⟨⟨rfl, rfl, rfl, rfl, rfl, rfl, rfl⟩, rfl, rfl⟩

variable {ep}

/-- `process_ack` returns exactly if the sample fits. -/
lemma processAck_cases {ε : Type} (now : UInt64) (ack : UInt32) (ep : TcpEndpoint) :
    (ep.AckFits now ack ∧ ∃ ep', (ep.processAck now ack : Outcome ε TcpEndpoint) = .ok ep' ∧
      Acked ep ep' ∧ ep'.retx = (popAcked ack ep.retx 0 none).1 ∧
      ep'.sndUna = if (popAcked ack ep.retx 0 none).2.1 = 0 then ep.sndUna else ack) ∨
    (¬ ep.AckFits now ack ∧ (ep.processAck now ack : Outcome ε TcpEndpoint) = .panic) := by
  unfold processAck AckFits
  rcases popAcked ack ep.retx 0 none with ⟨retx, acked, newest⟩
  dsimp only
  by_cases hz : acked = 0
  · rw [if_pos hz]
    exact .inl ⟨fun h => absurd hz h, _, rfl, ⟨rfl, rfl, rfl, rfl, rfl, rfl, rfl⟩, rfl,
      (if_pos hz).symm⟩
  rw [if_neg hz, if_neg hz]
  let ep₁ : TcpEndpoint := { ep with retx, sndUna := ack, rtoBackoff := 0 }
  -- a sample changes none of this either
  have hgrow (ep₂ : TcpEndpoint) (h : Acked ep₁ ep₂ ∧ ep₂.retx = retx ∧ ep₂.sndUna = ack) :
      Acked ep (ep₂.grow acked) ∧ (ep₂.grow acked).retx = retx ∧ (ep₂.grow acked).sndUna = ack := by
    have hgrown := grow_acked ep₂ acked
    refine ⟨?_, hgrown.2.1.trans h.2.1, hgrown.2.2.trans h.2.2⟩
    constructor <;> grind [Acked]
  have hself (ep₂ : TcpEndpoint) : Acked ep₂ ep₂ := ⟨rfl, rfl, rfl, rfl, rfl, rfl, rfl⟩
  cases newest with
  | none => exact .inl ⟨nofun, _, rfl, hgrow ep₁ ⟨hself ep₁, rfl, rfl⟩⟩
  | some tick =>
    dsimp only
    rw [sampleRtt_eq]
    by_cases hfits : ep.RttFits (ofNat (now.toNat - tick.toNat))
    · have hfits' : ep₁.RttFits (ofNat (now.toNat - tick.toNat)) := hfits
      rw [if_pos hfits', ok_bind]
      refine .inl ⟨fun _ t ht => some.inj ht ▸ hfits, _, rfl,
        hgrow _ ⟨⟨rfl, rfl, rfl, rfl, rfl, rfl, rfl⟩, rfl, rfl⟩⟩
    · have hfits' : ¬ ep₁.RttFits (ofNat (now.toNat - tick.toNat)) := hfits
      rw [if_neg hfits', panic_bind]
      exact .inr ⟨fun h => hfits (h hz tick rfl), rfl⟩

/-! ## What a segment does to an endpoint -/

/-- The endpoint can take the acknowledgement of a segment. -/
def Accepts (now : UInt64) (c : Control) (ep : TcpEndpoint) : Prop :=
  ep.state = .established → c.has Flags.ack = true → ep.AckFits now c.ack

/-- What is common to all segments an endpoint takes. -/
structure Processed (c : Control) (payload : List UInt8) (ep ep' : TcpEndpoint)
    (pending : Option Control) : Prop where
  localAddr : ep'.localAddr = ep.localAddr
  remoteAddr : ep'.remoteAddr = ep.remoteAddr
  flags : ∀ p ∈ pending, p.flags = Flags.ack
  /-- A bare segment is answered in the handshake only. -/
  answers : payload = [] → c.has Flags.fin = false → pending ≠ none →
    ep.state = .synSent ∧ c.flags &&& (Flags.syn ||| Flags.ack) = Flags.syn ||| Flags.ack

lemma takeData_ackFits (now : UInt64) (ack : UInt32) (c : Control) (payload : List UInt8)
    (ep : TcpEndpoint) : (ep.takeData c payload).1.AckFits now ack ↔ ep.AckFits now ack := by
  unfold takeData
  split <;> exact .rfl

lemma takeData_state (c : Control) (payload : List UInt8) (ep : TcpEndpoint) :
    (ep.takeData c payload).1.state = ep.state := by
  unfold takeData
  split <;> rfl

/-- An established endpoint takes the data, then the acknowledgement, then a FIN. It returns
exactly if it can take the acknowledgement. -/
lemma established_cases {ε : Type} (now : UInt64) (c : Control) (payload : List UInt8)
    {ep : TcpEndpoint} (hstate : ep.state = .established) :
    (ep.Accepts now c ∧ ∃ ep₁, Acked (ep.takeData c payload).1 ep₁ ∧
      ep₁.retx = (if c.has Flags.ack then (popAcked c.ack ep.retx 0 none).1 else ep.retx) ∧
      ep₁.sndUna = (if c.has Flags.ack ∧
        (popAcked c.ack ep.retx 0 none).2.1 ≠ 0 then c.ack else ep.sndUna) ∧
      (ep.processSegment now c payload : Outcome ε _) = .ok (if c.has Flags.fin then
        (({ ep₁ with rcvNxt := ep₁.rcvNxt + 1, state := .closeWait } : TcpEndpoint),
          some (pendingAck { ep₁ with rcvNxt := ep₁.rcvNxt + 1, state := .closeWait }))
        else (ep₁, (ep.takeData c payload).2))) ∨
    (¬ ep.Accepts now c ∧ (ep.processSegment now c payload : Outcome ε _) = .panic) := by
  have hdata : (ep.takeData c payload).1.retx = ep.retx ∧
    (ep.takeData c payload).1.sndUna = ep.sndUna := by
    unfold takeData
    split <;> exact ⟨rfl, rfl⟩
  unfold processSegment Accepts
  rw [hstate]
  by_cases hack : c.has Flags.ack = true
  · simp only [hack, true_and]
    rcases processAck_cases (ε := ε) now c.ack (ep.takeData c payload).1 with
      ⟨hfits, ep₁, heq, hacked, hretx, huna⟩ | ⟨hfits, heq⟩
    · rw [hdata.1] at hretx
      rw [hdata.1, hdata.2, ← ite_not] at huna
      refine .inl ⟨fun _ _ => (takeData_ackFits ..).mp hfits, ep₁, hacked, hretx, huna, ?_⟩
      rw [heq, ok_bind]
      exact (apply_ite ok _ _ _).symm
    · refine .inr ⟨fun h => hfits ((takeData_ackFits ..).mpr (h trivial trivial)), ?_⟩
      rw [heq]
      rfl
  · simp only [Bool.eq_false_iff.mpr hack, Bool.false_eq_true]
    exact .inl ⟨fun _ h => h.elim, _, ⟨rfl, rfl, rfl, rfl, rfl, rfl, rfl⟩, hdata.1, hdata.2,
      (apply_ite ok _ _ _).symm⟩

/-- `process_segment_for` returns exactly if the endpoint can take the
acknowledgement. -/
lemma processSegment_cases {ε : Type} (now : UInt64) (c : Control) (payload : List UInt8)
    (ep : TcpEndpoint) :
    (ep.Accepts now c ∧ ∃ ep' pending,
      (ep.processSegment now c payload : Outcome ε _) = .ok (ep', pending) ∧
      Processed c payload ep ep' pending) ∨
    (¬ ep.Accepts now c ∧ (ep.processSegment now c payload : Outcome ε _) = .panic) := by
  by_cases hest : ep.state = .established
  · refine (established_cases now c payload hest).imp_left ?_
    rintro ⟨hacc, ep₁, hacked, -, -, heq⟩
    split at heq <;>
      refine ⟨hacc, _, _, heq, ?_⟩ <;>
      constructor <;> grind [Acked, takeData, pendingAck]
  · refine .inl ⟨fun h => absurd h hest, ?_⟩
    cases heq : (ep.processSegment now c payload : Outcome ε _) with
    | ok r =>
      refine ⟨r.1, r.2, rfl, ?_⟩
      unfold processSegment takeFin takeData at heq
      constructor <;> grind [pendingAck]
    | _ =>
      unfold processSegment at heq
      grind

end TcpEndpoint

end RustOs.Net
