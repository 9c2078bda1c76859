import RustOs.Net.Delivery

/-!
# Which packets `ipv4_input` survives

`ipv4_input` runs on whatever bytes come in, and everything a packet sets off runs
inside the call. `ipv4Input_returns_iff` says for every packet and every state of the
tables whether the call comes back. Four things can go wrong:

* a total length below 20 makes the slice `packet[20..total_length]` panic, for each
  of the three protocols;
* a UDP length below 8 makes the slice `segment[8..length]` panic;
* an acknowledgement leads to a round-trip sample from which the retransmission
  timeout is computed in 32 bits without a check;
* a TCP segment that no endpoint knows is answered with a reset. If no endpoint knows
  the reset either and both addresses are loopback addresses, the reset is answered
  with a reset, and so on inside one call.

The data offset of the TCP header and the ICMP path are harmless. A call that comes
back needs three levels of nesting at most.
-/

namespace RustOs.Net.Stack

open Lib Flags Outcome Ipv4Header List Prog TcpTable UInt16

variable {localAddr remoteAddr : SocketAddrV4} {c : Control} {payload : List UInt8} {n : Stack}
  {i : Nat} {ep ep' : TcpEndpoint} (input : Input) (depth : Nat)

/-! ## The ways through `tcp_input` -/

/-- A segment for an endpoint, which answers or not. -/
lemma segmentInput_found {pending : Option Control}
    (hfind : n.tcp.findEndpoint localAddr remoteAddr = some i) (hget : n.tcp.get i = some ep)
    (hseg : (ep.processSegment n.ticks c payload : Outcome Empty _) = .ok (ep', pending)) :
    segmentInput input localAddr remoteAddr c payload n = match pending with
      | some p => reply input localAddr remoteAddr p { n with tcp := n.tcp.put i ep' }
      | none => (.ok (), { n with tcp := n.tcp.put i ep' }) := by
  unfold segmentInput
  rw [bind_ok (get_apply n), hfind]
  dsimp only
  rw [bind_ok (processSegmentFor_ok hget hseg)]
  cases pending <;> rfl

lemma segmentInput_panic
    (hfind : n.tcp.findEndpoint localAddr remoteAddr = some i) (hget : n.tcp.get i = some ep)
    (hseg : (ep.processSegment n.ticks c payload : Outcome Empty _) = .panic) :
    segmentInput input localAddr remoteAddr c payload n = (.panic, n) := by
  unfold segmentInput
  rw [bind_ok (get_apply n), hfind]
  dsimp only
  rw [bind_panic (processSegmentFor_panic hget hseg)]

/-- A segment that opens a connection. -/
def Opens (c : Control) : Prop := c.has Flags.syn = true ∧ ¬ c.has Flags.ack = true

/-- The reset that answers a segment no endpoint knows. -/
def rstFor (c : Control) (payload : List UInt8) : Control :=
  ⟨c.ack, c.seq + UInt32.ofNat payload.length, Flags.rst⟩

/-- The refusal that answers a SYN no listener is there for. -/
def refusalFor (c : Control) : Control := ⟨0, c.seq + 1, Flags.rst ||| Flags.ack⟩

/-- A segment outside the handshake and the end of a connection. -/
structure Plain (c : Control) : Prop where
  flags : c.flags.toNat < 64
  fin : c.has Flags.fin = false
  syn : c.has Flags.syn = false

/-- Whether a segment is plain, its flags say. -/
lemma plain_of_flags (flags : UInt8) (h : c.flags = flags)
    (hf : flags.toNat < 64 ∧ (flags &&& fin != 0) = false ∧ (flags &&& syn != 0) = false) :
    Plain c := by
  subst h
  exact ⟨hf.1, hf.2.1, hf.2.2⟩

lemma ack_plain (h : c.flags = Flags.ack) : Plain c := plain_of_flags _ h (by decide)

lemma rstFor_plain (c : Control) (payload : List UInt8) : Plain (rstFor c payload) :=
  plain_of_flags rst rfl (by decide)

lemma refusalFor_plain (c : Control) : Plain (refusalFor c) :=
  plain_of_flags (rst ||| Flags.ack) rfl (by decide)

lemma rstFor_ack (c : Control) (payload : List UInt8) : (rstFor c payload).has Flags.ack = false :=
  show (rst &&& Flags.ack != 0) = false by decide

lemma refusalFor_ack (c : Control) : (refusalFor c).has Flags.ack = true :=
  show (((rst ||| Flags.ack) &&& Flags.ack) != 0) = true by decide

lemma Plain.not_opens (h : Plain c) : ¬ Opens c := fun ho => absurd ho.1 (by rw [h.syn]; decide)

/-- A plain segment is no SYN+ACK. -/
lemma Plain.not_synAck (h : Plain c) :
    c.flags &&& (Flags.syn ||| Flags.ack) ≠ Flags.syn ||| Flags.ack := by
  intro heq
  have hsyn : c.flags &&& Flags.syn = Flags.syn := calc
    c.flags &&& Flags.syn = c.flags &&& ((Flags.syn ||| Flags.ack) &&& Flags.syn) := rfl
    _ = c.flags &&& (Flags.syn ||| Flags.ack) &&& Flags.syn := (UInt8.and_assoc ..).symm
    _ = (Flags.syn ||| Flags.ack) &&& Flags.syn := by rw [heq]
    _ = Flags.syn := rfl
  have hno := h.syn
  unfold Control.has at hno
  rw [hsyn] at hno
  exact absurd hno (by decide)

lemma segmentInput_stray (hfind : n.tcp.findEndpoint localAddr remoteAddr = none)
    (hopens : ¬ Opens c) :
    segmentInput input localAddr remoteAddr c payload n =
      reply input localAddr remoteAddr (rstFor c payload) n := by
  unfold segmentInput
  rw [bind_ok (get_apply n), hfind]
  unfold Opens at hopens
  rw [if_neg hopens]
  rfl

lemma segmentInput_refused
    (hfind : n.tcp.findEndpoint localAddr remoteAddr = none) (hopens : Opens c)
    (hlisten : n.tcp.findListener localAddr = none) :
    segmentInput input localAddr remoteAddr c payload n =
      reply input localAddr remoteAddr (refusalFor c) n := by
  unfold segmentInput
  rw [bind_ok (get_apply n), hfind]
  unfold Opens at hopens
  rw [if_pos hopens, hlisten]
  rfl

/-- The table after a SYN for a listener. -/
structure Spawned (t : TcpTable) (localAddr : SocketAddrV4) (child : TcpEndpoint)
    (t' : TcpTable) : Prop where
  port : t'.nextEphemeralPort = t.nextEphemeralPort
  new : t'.get (t.allocate child).1 = some child
  listener : ∀ l ep, t.findListener localAddr = some l → t.get l = some ep →
    t'.get l = some { ep with acceptQueue := ep.acceptQueue ++ [(t.allocate child).1] }
  others : ∀ j, j ≠ (t.allocate child).1 → t.findListener localAddr ≠ some j → t'.get j = t.get j
  findEndpoint : ∀ l r, t'.findEndpoint l r = (t.allocate child).2.findEndpoint l r

/-- The child is made, and queued on the listener. -/
lemma spawnChild_spec (remoteAddr : SocketAddrV4) (seq : UInt32) {l : Nat}
    (hlisten : n.tcp.findListener localAddr = some l) : ∃ tcp,
    spawnChild localAddr remoteAddr seq n = (.ok ⟨n.ticks.toUInt32 ^^^ 0x12345678, seq + 1,
      syn ||| Flags.ack⟩, { n with tcp }) ∧
    Spawned n.tcp localAddr (.newChildForSyn n.ticks localAddr remoteAddr seq) tcp := by
  let child := TcpEndpoint.newChildForSyn n.ticks localAddr remoteAddr seq
  obtain ⟨lep, hlget, hlis⟩ := findListener_get hlisten
  obtain ⟨hne, hlget'⟩ := get_allocate_of_some child hlget
  have hlisten' : (n.tcp.allocate child).2.findListener localAddr = some l := by
    rw [findListener_allocate (show child.state ≠ .listen by exact nofun), hlisten]
  refine ⟨(n.tcp.allocate child).2.put l
    { lep with acceptQueue := lep.acceptQueue ++ [(n.tcp.allocate child).1] }, ?_, ?_,
      ?_, ?_, ?_, ?_⟩
  · unfold spawnChild
    dsimp only
    rw [hlisten']
    dsimp only
    rw [hlget']
    rfl
  · show (n.tcp.allocate child).2.nextEphemeralPort = _
    rw [allocate_eq]
  · rw [get_put_ne hne.symm]
    exact get_allocate_self n.tcp child
  · intro l' ep hl' hget
    cases hlisten.symm.trans hl'
    cases hlget.symm.trans hget
    exact get_put_self hlget'
  · intro j hj hnl
    have hjl : j ≠ l := fun h => hnl (h ▸ hlisten)
    rw [get_put_ne hjl]
    exact get_allocate_ne n.tcp child hj
  · intro l' r'
    exact findEndpoint_put hlget' rfl rfl

/-- The SYN makes a child and is answered. -/
lemma segmentInput_syn (payload : List UInt8)
    (hfind : n.tcp.findEndpoint localAddr remoteAddr = none) (hopens : Opens c) {l : Nat}
    (hlisten : n.tcp.findListener localAddr = some l) : ∃ tcp,
    segmentInput input localAddr remoteAddr c payload n = reply input localAddr remoteAddr
      ⟨n.ticks.toUInt32 ^^^ 0x12345678, c.seq + 1, syn ||| Flags.ack⟩ { n with tcp } ∧
    Spawned n.tcp localAddr (.newChildForSyn n.ticks localAddr remoteAddr c.seq) tcp := by
  obtain ⟨tcp, hspawn, hspawned⟩ := spawnChild_spec remoteAddr c.seq hlisten
  refine ⟨tcp, ?_, hspawned⟩
  unfold segmentInput
  rw [bind_ok (get_apply n), hfind]
  unfold Opens at hopens
  rw [if_pos hopens, hlisten]
  dsimp only
  rw [bind_ok hspawn]

/-! ## Replies that come back -/

/-- A reply comes back if it goes nowhere, or if the other side comes back with one
level less. -/
lemma reply_returns_iff (hflags : c.flags.toNat < 64) (hq : n.loRx = []) :
    (reply (ipv4Input depth) localAddr remoteAddr c n).1.Returns ↔
      (n.route remoteAddr.ip = some true → ∃ d, depth = d + 1 ∧
        (segmentInput (ipv4Input d) remoteAddr localAddr c [] n).1.Returns) := by
  cases depth with
  | zero =>
    -- the bound is spent
    obtain ⟨packet, -, heq⟩ := reply_eq 0 localAddr remoteAddr c hq
    rw [heq]
    split
    next hroute =>
      refine ⟨fun h => absurd h id, fun h => ?_⟩
      obtain ⟨d, hd, -⟩ := h hroute
      cases hd
    next hroute => exact ⟨fun _ h => absurd h hroute, fun _ => trivial⟩
  | succ d =>
    rw [reply_ipv4Input d localAddr remoteAddr hflags hq]
    split
    next hroute =>
      refine ⟨fun h _ => ⟨d, rfl, h⟩, fun h => ?_⟩
      obtain ⟨d', hd, hret⟩ := h hroute
      cases hd
      exact hret
    next hroute => exact ⟨fun _ h => absurd h hroute, fun _ => trivial⟩

/-- What is said of the endpoint that a segment finds is said of one endpoint. -/
lemma forall_found {P : Nat → TcpEndpoint → Prop}
    (hfind : n.tcp.findEndpoint localAddr remoteAddr = some i) (hget : n.tcp.get i = some ep) :
    (∀ j ep', n.tcp.findEndpoint localAddr remoteAddr = some j → n.tcp.get j = some ep' → P j ep') ↔
      P i ep := by
  refine ⟨fun h => h i ep hfind hget, fun h j ep' hj hep' => ?_⟩
  cases hfind.symm.trans hj
  cases hget.symm.trans hep'
  exact h

/-- The endpoint that a segment is for, if any, can take its acknowledgement. -/
def PeerAccepts (n : Stack) (localAddr remoteAddr : SocketAddrV4) (c : Control) : Prop :=
  ∀ i ep, n.tcp.findEndpoint localAddr remoteAddr = some i → n.tcp.get i = some ep →
    ep.Accepts n.ticks c

/-- A segment that its endpoint does not answer. -/
lemma bare_returns_iff (hfin : c.has fin = false)
    (hquiet : ¬ (ep.state = .synSent ∧
      c.flags &&& (syn ||| Flags.ack) = syn ||| Flags.ack))
    (hfind : n.tcp.findEndpoint localAddr remoteAddr = some i) (hget : n.tcp.get i = some ep) :
    (segmentInput input localAddr remoteAddr c [] n).1.Returns ↔ ep.Accepts n.ticks c := by
  rcases ep.processSegment_cases (ε := Empty) n.ticks c [] with
    ⟨hacc, ep', pending, hseg, hproc⟩ | ⟨hacc, hseg⟩
  · have hnone : pending = none := by
      by_contra hne
      exact hquiet (hproc.answers rfl hfin hne)
    subst hnone
    rw [segmentInput_found input hfind hget hseg]
    exact ⟨fun _ => hacc, fun _ => trivial⟩
  · rw [segmentInput_panic input hfind hget hseg]
    exact ⟨fun h => absurd h id, fun h => absurd h hacc⟩

/-- The same, when the endpoint is not named. -/
lemma plain_returns_iff (hplain : Plain c)
    (hfind : n.tcp.findEndpoint localAddr remoteAddr = some i) :
    (segmentInput input localAddr remoteAddr c [] n).1.Returns ↔
      PeerAccepts n localAddr remoteAddr c := by
  obtain ⟨ep, hget, -⟩ := findEndpoint_get hfind
  rw [bare_returns_iff input hplain.fin (fun h => hplain.not_synAck h.2) hfind hget]
  exact (forall_found (P := fun _ ep' => ep'.Accepts n.ticks c) hfind hget).symm

/-- A reset is taken by whatever endpoint it finds. -/
lemma rst_returns (c : Control) (payload : List UInt8)
    (hfind : n.tcp.findEndpoint localAddr remoteAddr = some i) :
    (segmentInput input localAddr remoteAddr (rstFor c payload) [] n).1.Returns := by
  refine (plain_returns_iff input (rstFor_plain c payload) hfind).mpr ?_
  intro j ep _ _ _ hack
  rw [rstFor_ack] at hack
  cases hack

/-- Two loopback addresses without an endpoint on either side: every reset is answered
with a reset. -/
lemma stray_not_returns (hq : n.loRx = [])
    (hfind : n.tcp.findEndpoint localAddr remoteAddr = none)
    (hfind' : n.tcp.findEndpoint remoteAddr localAddr = none)
    (hroute : n.route remoteAddr.ip = some true) (hroute' : n.route localAddr.ip = some true)
    (hopens : ¬ Opens c) :
    ¬ (segmentInput (ipv4Input depth) localAddr remoteAddr c payload n).1.Returns := by
  induction depth generalizing localAddr remoteAddr c payload with
  | zero =>
    rw [segmentInput_stray _ hfind hopens, reply_returns_iff 0 (rstFor_plain c payload).flags hq]
    intro h
    obtain ⟨d, hd, -⟩ := h hroute
    cases hd
  | succ depth ih =>
    rw [segmentInput_stray _ hfind hopens, reply_returns_iff _ (rstFor_plain c payload).flags hq]
    intro h
    obtain ⟨d, hd, hret⟩ := h hroute
    cases hd
    -- the reset arrives on the other side, with the addresses swapped
    exact ih hfind' hfind hroute' hroute (rstFor_plain c payload).not_opens hret

/-- An answer comes in: an acknowledgement or a reset. -/
lemma answer_returns_iff (hq : n.loRx = []) (hplain : Plain c) :
    (segmentInput (ipv4Input (depth + 1)) localAddr remoteAddr c [] n).1.Returns ↔
      PeerAccepts n localAddr remoteAddr c ∧
      (n.tcp.findEndpoint localAddr remoteAddr = none →
        n.tcp.findEndpoint remoteAddr localAddr = none →
        n.route remoteAddr.ip = some true → n.route localAddr.ip ≠ some true) := by
  cases hfind : n.tcp.findEndpoint localAddr remoteAddr with
  | some i =>
    rw [plain_returns_iff _ hplain hfind]
    exact ⟨fun h => ⟨h, nofun⟩, fun h => h.1⟩
  | none =>
    have hpeer : PeerAccepts n localAddr remoteAddr c := by
      intro i ep hi
      exact nomatch hfind.symm.trans hi
    constructor
    · intro hret
      refine ⟨hpeer, fun _ hfind' hroute hroute' => ?_⟩
      exact stray_not_returns _ hq hfind hfind' hroute hroute' hplain.not_opens hret
    · rintro ⟨-, hone⟩
      rw [segmentInput_stray _ hfind hplain.not_opens,
        reply_returns_iff _ (rstFor_plain c []).flags hq]
      intro hroute
      refine ⟨depth, rfl, ?_⟩
      cases hfind' : n.tcp.findEndpoint remoteAddr localAddr with
      | some j => exact rst_returns _ _ _ hfind'
      | none =>
        rw [segmentInput_stray _ hfind' (rstFor_plain c []).not_opens,
          reply_returns_iff _ (rstFor_plain _ []).flags hq]
        exact fun hroute' => absurd hroute' (hone rfl hfind' hroute)

/-! ## The segments that come back -/

/-- The endpoint that is waiting for this acknowledgement, if there is one, can take
it. -/
def PeerTakes (n : Stack) (localAddr remoteAddr : SocketAddrV4) (ack : UInt32) : Prop :=
  ∀ i ep, n.tcp.findEndpoint localAddr remoteAddr = some i → n.tcp.get i = some ep →
    ep.state = .established → ep.AckFits n.ticks ack

lemma peerAccepts_iff (h : c.has Flags.ack = true) :
    PeerAccepts n localAddr remoteAddr c ↔ PeerTakes n localAddr remoteAddr c.ack :=
  ⟨fun hp i ep hi hget hstate => hp i ep hi hget hstate h,
    fun hp i ep hi hget hstate _ => hp i ep hi hget hstate⟩

/-- An endpoint that was found: it takes the segment, and its peer takes the answer. -/
lemma found_returns_iff (hq : n.loRx = [])
    (hfind : n.tcp.findEndpoint localAddr remoteAddr = some i) (hget : n.tcp.get i = some ep) :
    (segmentInput (ipv4Input (depth + 2)) localAddr remoteAddr c payload n).1.Returns ↔
      ep.Accepts n.ticks c ∧ ∀ ep' p,
        (ep.processSegment n.ticks c payload : Outcome Empty _) = .ok (ep', some p) →
        n.route remoteAddr.ip = some true →
        PeerTakes { n with tcp := n.tcp.put i ep' } remoteAddr localAddr p.ack := by
  rcases ep.processSegment_cases (ε := Empty) n.ticks c payload with
    ⟨hacc, ep', pending, hseg, hproc⟩ | ⟨hacc, hseg⟩
  rotate_left
  · rw [segmentInput_panic _ hfind hget hseg]
    exact ⟨fun h => absurd h id, fun h => absurd h.1 hacc⟩
  rw [segmentInput_found _ hfind hget hseg]
  cases pending with
  | none =>
    refine ⟨fun _ => ⟨hacc, fun ep'' p hseg' => ?_⟩, fun _ => trivial⟩
    exact nomatch hseg.symm.trans hseg'
  | some p =>
    have hp : p.flags = Flags.ack := hproc.flags p rfl
    have hplain := ack_plain hp
    have hack : p.has Flags.ack = true := by
      unfold Control.has
      rw [hp]
      decide
    -- the endpoint is still found on the way back
    have hback : ({ n with tcp := n.tcp.put i ep' } : Stack).tcp.findEndpoint localAddr remoteAddr =
        some i := (findEndpoint_put hget hproc.localAddr hproc.remoteAddr).trans hfind
    have hq' : ({ n with tcp := n.tcp.put i ep' } : Stack).loRx = [] := hq
    rw [reply_returns_iff _ hplain.flags hq']
    constructor
    · intro h
      refine ⟨hacc, fun ep'' p' hseg' hroute => ?_⟩
      cases hseg.symm.trans hseg'
      obtain ⟨d, hd, hret⟩ := h hroute
      cases hd
      exact (peerAccepts_iff hack).mp ((answer_returns_iff depth hq' hplain).mp hret).1
    · rintro ⟨-, h⟩ hroute
      refine ⟨depth + 1, rfl, (answer_returns_iff depth hq' hplain).mpr ⟨?_, ?_⟩⟩
      · exact (peerAccepts_iff hack).mpr (h ep' p hseg hroute)
      · intro _ hnone
        exact nomatch hback.symm.trans hnone

/-- A reset or refusal: the peer takes it, or the way ends. -/
lemma refusal_returns_iff (hq : n.loRx = []) (hplain : Plain c)
    (hfind : n.tcp.findEndpoint localAddr remoteAddr = none) :
    (reply (ipv4Input (depth + 2)) localAddr remoteAddr c n).1.Returns ↔
      (n.route remoteAddr.ip = some true → PeerAccepts n remoteAddr localAddr c ∧
        (n.tcp.findEndpoint remoteAddr localAddr = none → n.route localAddr.ip ≠ some true)) := by
  rw [reply_returns_iff _ hplain.flags hq]
  constructor
  · intro h hroute
    obtain ⟨d, hd, hret⟩ := h hroute
    cases hd
    obtain ⟨hpeer, hone⟩ := (answer_returns_iff depth hq hplain).mp hret
    exact ⟨hpeer, fun hfind' hroute' => hone hfind' hfind hroute' hroute⟩
  · intro h hroute
    obtain ⟨hpeer, hone⟩ := h hroute
    refine ⟨depth + 1, rfl, (answer_returns_iff depth hq hplain).mpr ⟨hpeer, ?_⟩⟩
    exact fun hfind' _ hroute' => absurd hroute' (hone hfind')

/-- A SYN+ACK comes in while its sender is still in the handshake: what it sets off ends
there. -/
lemma synAck_returns_iff (hq : n.loRx = []) (hfin : c.has fin = false)
    (hack : c.has Flags.ack = true)
    (hfind : n.tcp.findEndpoint remoteAddr localAddr = some i) (hget : n.tcp.get i = some ep)
    (hstate : ep.state = .synRcvd) :
    (segmentInput (ipv4Input (depth + 1)) localAddr remoteAddr c [] n).1.Returns ↔
      PeerAccepts n localAddr remoteAddr c := by
  cases hfind' : n.tcp.findEndpoint localAddr remoteAddr with
  | none =>
    refine ⟨fun _ j ep hj => (nomatch hfind'.symm.trans hj), fun _ => ?_⟩
    rw [segmentInput_stray _ hfind' fun h => h.2 hack,
      reply_returns_iff _ (rstFor_plain c []).flags hq]
    exact fun _ => ⟨depth, rfl, rst_returns _ c [] hfind⟩
  | some j =>
    obtain ⟨peer, hpeer, -⟩ := findEndpoint_get hfind'
    rw [PeerAccepts, forall_found (P := fun _ ep' => ep'.Accepts n.ticks c) hfind' hpeer]
    rcases peer.processSegment_cases (ε := Empty) n.ticks c [] with
      ⟨hacc, peer', pending, hseg, hproc⟩ | ⟨hacc, hseg⟩
    rotate_left
    · rw [segmentInput_panic _ hfind' hpeer hseg]
      exact ⟨fun h => absurd h id, fun h => absurd h hacc⟩
    refine ⟨fun _ => hacc, fun _ => ?_⟩
    rw [segmentInput_found _ hfind' hpeer hseg]
    cases pending with
    | none => trivial
    | some p =>
      -- only the other end of the handshake answers, and the child takes the answer
      have hsent := (hproc.answers rfl hfin nofun).1
      have hp : p.flags = Flags.ack := hproc.flags p rfl
      have hij : i ≠ j := by
        rintro rfl
        cases hget.symm.trans hpeer
        exact nomatch hstate.symm.trans hsent
      have hplain := ack_plain hp
      have hq' : ({ n with tcp := n.tcp.put j peer' } : Stack).loRx = [] := hq
      rw [reply_returns_iff _ hplain.flags hq']
      refine fun _ => ⟨depth, rfl, ?_⟩
      have hfind₁ : ({ n with tcp := n.tcp.put j peer' } : Stack).tcp.findEndpoint
        remoteAddr localAddr =
          some i := (findEndpoint_put hpeer hproc.localAddr hproc.remoteAddr).trans hfind
      have hget₁ : ({ n with tcp := n.tcp.put j peer' } : Stack).tcp.get i = some ep :=
        (get_put_ne hij).trans hget
      refine (bare_returns_iff _ hplain.fin ?_ hfind₁ hget₁).mpr ?_
      · rintro ⟨h, -⟩
        exact nomatch hstate.symm.trans h
      · intro h
        exact nomatch hstate.symm.trans h

/-- The child is no peer that waits for an acknowledgement. -/
lemma spawned_peerTakes {tcp : TcpTable} {seq ack : UInt32}
    (hfind : n.tcp.findEndpoint localAddr remoteAddr = none)
    (hspawned : Spawned n.tcp localAddr (.newChildForSyn n.ticks localAddr remoteAddr seq) tcp) :
    PeerTakes { n with tcp } remoteAddr localAddr ack ↔ PeerTakes n remoteAddr localAddr ack := by
  let child := TcpEndpoint.newChildForSyn n.ticks localAddr remoteAddr seq
  by_cases hself : isEndpointOf remoteAddr localAddr (some child) = true
  · -- a connection of an address with itself
    obtain ⟨-, hsame⟩ := isEndpointOf_some.mp hself
    have hsame : remoteAddr = localAddr := hsame
    subst hsame
    constructor
    · intro _ i ep hi
      exact nomatch hfind.symm.trans hi
    · intro _ i ep hi hget hstate
      have hnew : tcp.findEndpoint remoteAddr remoteAddr = some (n.tcp.allocate child).1 := by
        rw [hspawned.findEndpoint]
        exact findEndpoint_allocate_new hfind hself
      cases hnew.symm.trans hi
      cases hspawned.new.symm.trans hget
      cases hstate
  · have hsame : tcp.findEndpoint remoteAddr localAddr =
      n.tcp.findEndpoint remoteAddr localAddr := by
      rw [hspawned.findEndpoint]
      exact findEndpoint_allocate (Bool.not_eq_true _ ▸ hself)
    -- what the lookup finds differs in its queue at most
    have hentry : ∀ i ep, n.tcp.get i = some ep → ∃ ep', tcp.get i = some ep' ∧
        ep'.state = ep.state ∧ (ep'.AckFits n.ticks ack ↔ ep.AckFits n.ticks ack) := by
      intro i ep hget
      by_cases hl : n.tcp.findListener localAddr = some i
      · exact ⟨_, hspawned.listener i ep hl hget, rfl, .rfl⟩
      · have hne := (get_allocate_of_some child hget).1
        exact ⟨ep, (hspawned.others i hne hl).trans hget, rfl, .rfl⟩
    constructor
    · intro h i ep hi hget hstate
      obtain ⟨ep', hget', hstate', hiff⟩ := hentry i ep hget
      exact hiff.mp (h i ep' (hsame.trans hi) hget' (hstate'.trans hstate))
    · intro h i ep' hi hget' hstate'
      have hi : n.tcp.findEndpoint remoteAddr localAddr = some i := hsame.symm.trans hi
      obtain ⟨ep, hget, -⟩ := findEndpoint_get hi
      obtain ⟨ep'', hget'', hstate'', hiff⟩ := hentry i ep hget
      cases hget'.symm.trans hget''
      exact hiff.mpr (h i ep hi hget (hstate''.symm.trans hstate'))

/-- A connection attempt on a listener: the SYN+ACK comes in, and what it sets off ends
at the child. -/
lemma syn_returns_iff (hq : n.loRx = []) (hopens : Opens c)
    (hfind : n.tcp.findEndpoint localAddr remoteAddr = none) {l : Nat}
    (hlisten : n.tcp.findListener localAddr = some l) :
    (segmentInput (ipv4Input (depth + 2)) localAddr remoteAddr c payload n).1.Returns ↔
      (n.route remoteAddr.ip = some true → PeerTakes n remoteAddr localAddr (c.seq + 1)) := by
  obtain ⟨tcp, heq, hspawned⟩ :=
    segmentInput_syn (ipv4Input (depth + 2)) payload hfind hopens hlisten
  let child := TcpEndpoint.newChildForSyn n.ticks localAddr remoteAddr c.seq
  let synAck : Control := ⟨n.ticks.toUInt32 ^^^ 0x12345678, c.seq + 1, syn ||| Flags.ack⟩
  have hflags : synAck.flags.toNat < 64 := show (syn ||| Flags.ack).toNat < 64 by decide
  have hfin : synAck.has fin = false :=
    show (((syn ||| Flags.ack) &&& fin) != 0) = false by decide
  have hack : synAck.has Flags.ack = true :=
    show (((syn ||| Flags.ack) &&& Flags.ack) != 0) = true by decide
  have hchild : ({ n with tcp } : Stack).tcp.findEndpoint localAddr remoteAddr =
      some (n.tcp.allocate child).1 := by
    refine (hspawned.findEndpoint _ _).trans ?_
    exact findEndpoint_allocate_new hfind (isEndpointOf_some.mpr ⟨rfl, rfl⟩)
  have hq' : ({ n with tcp } : Stack).loRx = [] := hq
  have hpeer : PeerAccepts { n with tcp } remoteAddr localAddr synAck ↔
      PeerTakes n remoteAddr localAddr (c.seq + 1) :=
    (peerAccepts_iff hack).trans (spawned_peerTakes hfind hspawned)
  rw [heq, reply_returns_iff _ hflags hq']
  constructor
  · intro h hroute
    obtain ⟨d, hd, hret⟩ := h hroute
    cases hd
    exact hpeer.mp ((synAck_returns_iff depth hq' hfin hack hchild hspawned.new rfl).mp hret)
  · intro h hroute
    exact ⟨depth + 1, rfl,
      (synAck_returns_iff depth hq' hfin hack hchild hspawned.new rfl).mpr (hpeer.mpr (h hroute))⟩

/-- What a TCP segment needs of the tables: the endpoint it is for can take it, the peer
can take what is sent back, and where there is no endpoint on either side the two
addresses are not both reachable. -/
def SegmentSafe (n : Stack) (localAddr remoteAddr : SocketAddrV4) (c : Control)
    (payload : List UInt8) : Prop :=
  (∀ i ep, n.tcp.findEndpoint localAddr remoteAddr = some i → n.tcp.get i = some ep →
    ep.Accepts n.ticks c ∧ ∀ ep' p,
      (ep.processSegment n.ticks c payload : Outcome Empty _) = .ok (ep', some p) →
      n.route remoteAddr.ip = some true →
      PeerTakes { n with tcp := n.tcp.put i ep' } remoteAddr localAddr p.ack) ∧
  (n.tcp.findEndpoint localAddr remoteAddr = none → n.route remoteAddr.ip = some true →
    (Opens c → PeerTakes n remoteAddr localAddr (c.seq + 1)) ∧
    (n.tcp.findEndpoint remoteAddr localAddr = none → n.route localAddr.ip = some true →
      Opens c ∧ n.tcp.findListener localAddr ≠ none))

/-- Every TCP segment. -/
lemma segmentInput_returns_iff (hq : n.loRx = []) :
    (segmentInput (ipv4Input (depth + 2)) localAddr remoteAddr c payload n).1.Returns ↔
      SegmentSafe n localAddr remoteAddr c payload := by
  unfold SegmentSafe
  cases hfind : n.tcp.findEndpoint localAddr remoteAddr with
  | some i =>
    obtain ⟨ep, hget, -⟩ := findEndpoint_get hfind
    rw [found_returns_iff depth hq hfind hget, ← hfind,
      forall_found hfind hget]
    exact ⟨fun h => ⟨h, fun hnone => nomatch hnone.symm.trans hfind⟩, And.left⟩
  | none =>
    refine .trans ?_ (and_iff_right (fun i ep hi => nomatch hi)).symm
    simp only [forall_const]
    by_cases hopens : Opens c
    · cases hlisten : n.tcp.findListener localAddr with
      | some l =>
        rw [syn_returns_iff depth hq hopens hfind hlisten]
        refine forall_congr' fun _ => ⟨fun h => ⟨fun _ => h, fun _ _ => ⟨hopens, nofun⟩⟩,
          fun h => h.1 hopens⟩
      | none =>
        rw [segmentInput_refused _ hfind hopens hlisten,
          refusal_returns_iff depth hq (refusalFor_plain c) hfind]
        refine forall_congr' fun _ => and_congr ?_
          (forall_congr' fun _ => forall_congr' fun _ => ?_)
        · exact (peerAccepts_iff (refusalFor_ack c)).trans ⟨fun h _ => h, fun h => h hopens⟩
        · exact ⟨False.elim, fun h => h.2 rfl⟩
    · rw [segmentInput_stray _ hfind hopens,
        refusal_returns_iff depth hq (rstFor_plain c payload) hfind]
      refine forall_congr' fun _ => and_congr ?_ (forall_congr' fun _ => forall_congr' fun _ => ?_)
      · refine ⟨fun _ h => absurd h hopens, fun _ i ep _ _ _ h => ?_⟩
        rw [rstFor_ack] at h
        cases h
      · exact ⟨False.elim, fun h => hopens h.1⟩

/-! ## Datagrams -/

/-- The length field of a UDP header that is looked at covers the header. -/
def DatagramSafe (segment : List UInt8) : Prop :=
  ∀ udp, UdpHeader.parse segment = some udp → udp.length.toNat ≤ segment.length →
    udpHeaderLen ≤ udp.length.toNat

lemma deliverDatagram_returns (dst : SocketAddrV4) (dgram : ReceivedDatagram) (n : Stack) :
    (deliverDatagram dst dgram n).1.Returns := by
  unfold deliverDatagram
  split
  next => trivial
  next => split <;> trivial

/-- What the UDP path needs. -/
lemma udpInput_returns_iff (ipHdr : Ipv4Header) (segment : List UInt8) (n : Stack) :
    (udpInput ipHdr segment n).1.Returns ↔ DatagramSafe segment := by
  unfold udpInput DatagramSafe
  cases UdpHeader.parse segment with
  | none => exact ⟨fun _ => nofun, fun _ => trivial⟩
  | some udp =>
    dsimp only
    by_cases hlong : udp.length.toNat > segment.length
    · rw [if_pos hlong]
      refine ⟨fun _ udp' hudp hle => ?_, fun _ => trivial⟩
      cases hudp
      exact absurd hle (Nat.not_le.mpr hlong)
    · rw [if_neg hlong]
      by_cases hshort : udp.length.toNat < udpHeaderLen
      · rw [range_of_lt hshort]
        refine ⟨fun h => absurd h id, fun h => ?_⟩
        exact absurd (h udp rfl (Nat.not_lt.mp hlong)) (Nat.not_le.mpr hshort)
      · rw [range_of_le (Nat.not_lt.mp hshort) (Nat.not_lt.mp hlong), lift_ok_bind]
        refine ⟨fun _ udp' hudp _ => ?_, fun _ => deliverDatagram_returns _ _ n⟩
        cases hudp
        exact Nat.not_lt.mp hshort

/-! ## Echo -/

/-- An echo reply can be built, and it is an echo reply. -/
lemma buildEchoReply_ok {ε : Type} (src dst : Ipv4Addr) (identifier sequence : UInt16)
    (h : payload.length ≤ 65507) : ∃ ip icmp,
    (buildEchoReply src dst identifier sequence payload : Outcome ε Packet) =
      .ok (bytes ip ++ (IcmpHeader.bytes icmp ++ payload)) ∧
    ip.protocol = protoIcmp ∧ ip.totalLength.toNat = 28 + payload.length ∧
    icmp.kind = icmpTypeEchoReply := by
  let hdr : IcmpHeader := ⟨icmpTypeEchoReply, 0, 0, identifier, sequence⟩
  have hsum := wordSum_le (hdr.bytes ++ payload)
  rw [length_append, show hdr.bytes.length = 8 from rfl] at hsum
  have hlen : (ofNat (icmpHeaderLen + payload.length)).toNat = 8 + payload.length := by
    rw [toNat_ofNat', Nat.mod_eq_of_lt (by unfold icmpHeaderLen; omega)]
    rfl
  obtain ⟨ip, hip⟩ := new_ok (ε := ε) src dst protoIcmp
    (show (ofNat (icmpHeaderLen + payload.length)).toNat ≤ 65515 by omega)
  obtain ⟨hproto, -, -, htotal⟩ := new_eq_ok hip
  have hcksum : (computeChecksum (hdr.bytes ++ payload) : Outcome ε UInt16) =
      .ok (complement16 (fold16 (0 + wordSum (hdr.bytes ++ payload)))) := by
    unfold computeChecksum
    rw [sumWords_eq _ (by omega), if_pos (by omega)]
    rfl
  let sent := { hdr with checksum := complement16 (fold16 (0 + wordSum (hdr.bytes ++ payload))) }
  refine ⟨ip.sealed, sent, ?_, hproto, htotal.trans (by omega), rfl⟩
  unfold buildEchoReply
  rw [hip, ok_bind, writeTo_eq, ok_bind]
  dsimp only
  rw [hcksum, ok_bind]
  exact congrArg ok (append_assoc _ _ _)

/-- An echo reply comes in and is queued. -/
lemma echoReply_returns {ip : Ipv4Header} {icmp : IcmpHeader} (n : Stack)
    (hproto : ip.protocol = protoIcmp) (htotal : ip.totalLength.toNat = 28 + payload.length)
    (hkind : icmp.kind = icmpTypeEchoReply) :
    (ipv4InputWith input (ip.bytes ++ (icmp.bytes ++ payload)) n).1.Returns := by
  have hlen : (ip.bytes ++ (icmp.bytes ++ payload)).length = 28 + payload.length := by
    simp only [length_append, bytes_length, ipv4HeaderLen,
      show icmp.bytes.length = 8 from rfl]
    omega
  unfold ipv4InputWith
  rw [parse_append]
  dsimp only
  rw [if_neg (by omega), if_neg (by rw [hproto]; decide), if_pos hproto,
    range_of_le (by unfold ipv4HeaderLen; omega) (by omega), lift_ok_bind,
    drop_left' (bytes_length ip), take_of_length_le]
  · unfold icmpInput
    rw [IcmpHeader.parse_append]
    dsimp only
    rw [if_neg (by rw [hkind]; decide), if_pos hkind]
    trivial
  · rw [length_append, show icmp.bytes.length = 8 from rfl]
    unfold ipv4HeaderLen
    omega

/-- `icmp_input` always comes back. -/
lemma icmpInput_returns (hq : n.loRx = []) (ipHdr : Ipv4Header)
    {segment : List UInt8} (hlen : segment.length ≤ 65515) :
    (icmpInput (ipv4Input (depth + 1)) ipHdr segment n).1.Returns := by
  unfold icmpInput
  cases hparse : IcmpHeader.parse segment with
  | none => trivial
  | some hdr =>
    dsimp only
    split
    next =>
      have hpayload : (segment.drop icmpHeaderLen).length ≤ 65507 := by
        rw [length_drop]
        unfold icmpHeaderLen
        omega
      obtain ⟨ip, icmp, hbuild, hproto, htotal, hkind⟩ := buildEchoReply_ok (ε := String) ipHdr.dst
        ipHdr.src hdr.identifier hdr.sequence hpayload
      have hsend : sendEchoReply (ipv4Input (depth + 1)) ipHdr.dst ipHdr.src hdr.identifier
          hdr.sequence (segment.drop icmpHeaderLen) n = sendPacket (ipv4Input (depth + 1)) ipHdr.src
            (ip.bytes ++ (icmp.bytes ++ segment.drop icmpHeaderLen)) n := by
        unfold sendEchoReply
        rw [hbuild, lift_ok_bind]
      rw [sendPacket_eq (ipv4Input_within _ _) hq] at hsend
      split at hsend
      next =>
        rw [ignore_err hsend]
        trivial
      next =>
        rw [ignore_err hsend]
        trivial
      next =>
        rw [ignore_congr hsend, ignore_sure]
        exact echoReply_returns (ipv4Input depth) n hproto htotal hkind
    next => split <;> trivial

/-! ## Packets -/

/-- What the header and the segment behind it need: total length and UDP length cover
their headers, and a TCP segment finds the tables as it needs them. -/
structure HeaderSafe (n : Stack) (hdr : Ipv4Header) (segment : List UInt8) : Prop where
  total : hdr.protocol = protoUdp ∨ hdr.protocol = protoIcmp ∨ hdr.protocol = protoTcp →
    ipv4HeaderLen ≤ hdr.totalLength.toNat
  udp : hdr.protocol = protoUdp → DatagramSafe segment
  tcp : hdr.protocol = protoTcp → ∀ th, TcpHeader.parse segment = some th →
    th.dataOffsetWords.toNat * 4 ≤ segment.length →
    SegmentSafe n ⟨hdr.dst, th.dstPort⟩ ⟨hdr.src, th.srcPort⟩ th.control
      (segment.drop (th.dataOffsetWords.toNat * 4))

/-- A packet that has a header, and is as long as the header says, is safe. -/
def InputSafe (n : Stack) (packet : Packet) : Prop :=
  ∀ hdr, Ipv4Header.parse packet = some hdr → hdr.totalLength.toNat ≤ packet.length →
    HeaderSafe n hdr ((packet.drop ipv4HeaderLen).take (hdr.totalLength.toNat - ipv4HeaderLen))

/-- What the TCP path needs: only a whole header matters. -/
lemma tcpInput_returns_iff (hq : n.loRx = []) (ipHdr : Ipv4Header)
    (segment : List UInt8) :
    (tcpInput (ipv4Input (depth + 2)) ipHdr segment n).1.Returns ↔
      ∀ th, TcpHeader.parse segment = some th → th.dataOffsetWords.toNat * 4 ≤ segment.length →
        SegmentSafe n ⟨ipHdr.dst, th.dstPort⟩ ⟨ipHdr.src, th.srcPort⟩ th.control
          (segment.drop (th.dataOffsetWords.toNat * 4)) := by
  unfold tcpInput
  cases TcpHeader.parse segment with
  | none => exact ⟨fun _ => nofun, fun _ => trivial⟩
  | some th =>
    dsimp only
    by_cases hshort : segment.length < th.dataOffsetWords.toNat * 4
    · rw [if_pos hshort]
      refine ⟨fun _ th' hth hle => ?_, fun _ => trivial⟩
      cases hth
      exact absurd hle (Nat.not_le.mpr hshort)
    · rw [if_neg hshort, segmentInput_returns_iff depth hq]
      refine ⟨fun h th' hth _ => ?_, fun h => h th rfl (Nat.not_lt.mp hshort)⟩
      cases hth
      exact h

/-- The slice behind the header, and then the protocol. -/
lemma slice_returns_iff {packet : Packet} {total : Nat} (hle : total ≤ packet.length)
    (f : List UInt8 → Call Unit) (n : Stack) :
    ((Prog.lift (range packet ipv4HeaderLen total) >>= f) n).1.Returns ↔
      ipv4HeaderLen ≤ total ∧
        (f ((packet.drop ipv4HeaderLen).take (total - ipv4HeaderLen)) n).1.Returns := by
  by_cases hshort : total < ipv4HeaderLen
  · rw [range_of_lt hshort]
    exact ⟨fun h => absurd h id, fun h => absurd h.1 (Nat.not_le.mpr hshort)⟩
  · rw [range_of_le (Nat.not_lt.mp hshort) hle, lift_ok_bind]
    exact ⟨fun h => ⟨Nat.not_lt.mp hshort, h⟩, fun h => h.2⟩

/-- **Which packets the input path survives.** For every packet and every state of the
tables, `ipv4_input` comes back exactly if the packet is safe; room for more than three
nested calls changes nothing. -/
theorem ipv4Input_returns_iff (n : Stack) (hq : n.loRx = []) (depth : Nat) (hdepth : 3 ≤ depth)
    (packet : Packet) : (ipv4Input depth packet n).1.Returns ↔ InputSafe n packet := by
  obtain ⟨d, rfl⟩ : ∃ d, depth = d + 3 := ⟨depth - 3, by omega⟩
  show (ipv4InputWith (ipv4Input (d + 2)) packet n).1.Returns ↔ _
  unfold ipv4InputWith InputSafe
  cases parse packet with
  | none => exact ⟨fun _ => nofun, fun _ => trivial⟩
  | some hdr =>
    have hone {P : Ipv4Header → Prop} : P hdr ↔ ∀ hdr', some hdr = some hdr' → P hdr' :=
      ⟨fun h hdr' heq => Option.some.inj heq ▸ h, fun h => h hdr rfl⟩
    rw [← hone]
    dsimp only
    by_cases hlong : hdr.totalLength.toNat > packet.length
    · rw [if_pos hlong]
      exact ⟨fun _ h => absurd h (Nat.not_le.mpr hlong), fun _ => trivial⟩
    have hle : hdr.totalLength.toNat ≤ packet.length := Nat.not_lt.mp hlong
    rw [if_neg hlong]
    refine .trans ?_ (forall_prop_of_true hle).symm
    -- one protocol at a time; the other two conditions are void
    by_cases hudp : hdr.protocol = protoUdp
    · rw [if_pos hudp, slice_returns_iff hle, udpInput_returns_iff]
      refine ⟨fun h => ⟨fun _ => h.1, fun _ => h.2, fun htcp => ?_⟩,
        fun h => ⟨h.total (.inl hudp), h.udp hudp⟩⟩
      exact absurd (hudp.symm.trans htcp) (by decide)
    by_cases hicmp : hdr.protocol = protoIcmp
    · rw [if_neg hudp, if_pos hicmp, slice_returns_iff hle]
      refine ⟨fun h => ⟨fun _ => h.1, fun h => absurd h hudp, fun htcp => ?_⟩, fun h =>
        ⟨h.total (.inr (.inl hicmp)), icmpInput_returns (d + 1) hq hdr ?_⟩⟩
      · exact absurd (hicmp.symm.trans htcp) (by decide)
      · have hbound := hdr.totalLength.toNat_lt
        rw [length_take]
        unfold ipv4HeaderLen
        omega
    by_cases htcp : hdr.protocol = protoTcp
    · rw [if_neg hudp, if_neg hicmp, if_pos htcp, slice_returns_iff hle, tcpInput_returns_iff d hq]
      exact ⟨fun h => ⟨fun _ => h.1, fun h => absurd h hudp, fun _ => h.2⟩, fun h =>
        ⟨h.total (.inr (.inr htcp)), h.tcp htcp⟩⟩
    · rw [if_neg hudp, if_neg hicmp, if_neg htcp]
      refine ⟨fun _ => ⟨?_, fun h => absurd h hudp, fun h => absurd h htcp⟩, fun _ => trivial⟩
      rintro (h | h | h)
      · exact absurd h hudp
      · exact absurd h hicmp
      · exact absurd h htcp

/-- An echo request from one loopback address to another. -/
def echoRequest : Packet :=
  [0x45, 0, 0, 28, 0, 0, 0x40, 0, 64, 1, 0, 0, 127, 0, 0, 1, 127, 0, 0, 2, 8, 0, 0, 0, 0, 7, 0, 1]

/-- An echo request comes back. -/
theorem ipv4Input_returns_echoRequest :
    (ipv4Input 3 echoRequest (boot 0)).1.Returns ∧ InputSafe (boot 0) echoRequest := by
  have hret : (ipv4Input 3 echoRequest (boot 0)).1.Returns := by decide +kernel
  exact ⟨hret, (ipv4Input_returns_iff (boot 0) rfl 3 (Nat.le_refl 3) echoRequest).mp hret⟩

/-- A header of protocol UDP with a total length of zero. -/
def emptyTotal : Packet := [0x45, 0, 0, 0, 0, 0, 0x40, 0, 64, 17, 0, 0, 127, 0, 0, 1, 127, 0, 0, 1]

/-- The slice `packet[20..0]` is out of order. -/
theorem ipv4Input_emptyTotal_panics : (ipv4Input 3 emptyTotal (boot 0)).1 = .panic := by
  decide +kernel

end RustOs.Net.Stack
