import RustOs.Lib.Trace
import RustOs.Net.Input

/-!
# Connecting over loopback

`connect` takes the next port of a counter, puts an endpoint into the table and sends a
SYN; over loopback the whole handshake runs inside the call. `find_endpoint` decides who
gets each segment: the first endpoint with the local port and the remote address of the
segment, whatever its state, and endpoints stay in the table for good. The counter wraps.

So the handshake is between the new endpoint and the new child only if no endpoint of the
table, old or new, answers to their addresses. `connect_establishes_iff` says that this is
all it takes, in every state that a history of calls reaches: connecting to the port the
counter stands at, or with a port that was used for this destination before the counter
wrapped, leaves the new endpoint in `SynSent`.
-/

namespace RustOs.Net.Stack

open Lib TcpEndpoint Flags Option Quiet Prog TcpTable Outcome

/-! ## Histories -/

/-- The calls of a history. -/
inductive Op where
  | listen (addr : SocketAddrV4) (backlog : UInt32)
  | connect (remoteAddr : SocketAddrV4)
  | accept (h : Nat)
  | send (h : Nat) (data : List UInt8)
  | close (h : Nat)
  deriving DecidableEq, Repr

/-- A call, with what it answers left out. -/
def Op.run (depth : Nat) : Op → Prog Stack TcpError Unit
  | .listen addr backlog => do let _ ← Stack.listen addr backlog
  | .connect remoteAddr => do let _ ← Stack.connect depth remoteAddr
  | .accept h => do let _ ← Stack.accept h
  | .send h data => do let _ ← Stack.send depth h data
  | .close h => Stack.close depth h

/-- The states that histories reach: calls that come back, and time that passes between
them. -/
inductive Reached : Stack → Prop where
  | boot (ticks : UInt64) : Reached (boot ticks)
  | call {n : Stack} (op : Op) (depth : Nat) (ticks : UInt64) : Reached n →
      (op.run depth n).1.Returns → Reached { (op.run depth n).2 with ticks }

/-- Between calls the interface is up, its queue is empty and no slot of the table is
free. -/
structure Ready (n : Stack) : Prop where
  lo : n.lo = some true
  loRx : n.loRx = []
  full : Slots.Full n.tcp.endpoints

variable {n n₁ n' : Stack} {h l : Nat}

lemma listen_within (addr : SocketAddrV4) (backlog : UInt32) :
    Within Quiet (listen addr backlog) := by
  refine within_tables fun n => ?_
  unfold listen
  split
  next => exact ⟨rfl, rfl, rfl, id⟩
  next =>
    refine ⟨rfl, rfl, rfl, fun hfull => ?_⟩
    rw [allocate_eq]
    exact hfull.alloc _

lemma accept_within (h : Nat) : Within Quiet (accept h) := by
  refine within_tables fun n => ?_
  unfold accept
  split
  next => exact ⟨rfl, rfl, rfl, id⟩
  next =>
    split
    next => exact ⟨rfl, rfl, rfl, id⟩
    next => split <;> exact ⟨rfl, rfl, rfl,
        fun hfull => by first | exact hfull | exact hfull.set _ _⟩

lemma openActive_within (remoteAddr : SocketAddrV4) : Within Quiet (openActive remoteAddr) := by
  refine within_tables fun n => ⟨rfl, rfl, rfl, fun hfull => ?_⟩
  unfold openActive
  dsimp only
  rw [allocate_eq]
  exact hfull.alloc _

/-- Reading the state changes nothing. -/
lemma get_within {ε : Type} : Within Quiet (Prog.get : Prog Stack ε Stack) :=
  within_tables fun _ => ⟨rfl, rfl, rfl, id⟩

lemma connect_within (depth : Nat) (remoteAddr : SocketAddrV4) :
    Within Quiet (connect depth remoteAddr) := by
  refine (openActive_within remoteAddr).bind trans fun r => ?_
  refine ((emit_within (ipv4Input_within depth) _ _ _ _).mapErr _).bind trans fun _ => ?_
  refine get_within.bind trans fun n => ?_
  split
  next => exact .lift refl _
  next =>
    split
    next => exact .lift refl _
    next => split <;> exact .lift refl _

/-- A call that writes an endpoint back and then goes on. -/
lemma put_within {ε α : Type} {x : Prog Stack ε α} (hx : Within Quiet x) (h : Nat)
    (ep : TcpEndpoint)
    (hret : (x { n with tcp := n.tcp.put h ep }).1.Returns) :
    Quiet n (x { n with tcp := n.tcp.put h ep }).2 := by
  have hput : Quiet n { n with tcp := n.tcp.put h ep } :=
    fun hq => ⟨hq, rfl, rfl, fun hfull => Slots.Full.set hfull h ep⟩
  exact hput.trans n _ _ (hx _ hret)

/-- `send` drains what it puts on the loopback. -/
lemma send_within (depth h : Nat) (data : List UInt8) : Within Quiet (send depth h data) := by
  intro n
  unfold send
  rw [bind_ok (get_apply n)]
  cases n.tcp.get h with
  | none => exact fun _ => .refl n
  | some ep =>
    dsimp only
    cases ep.send n.ticks data with
    | none => exact fun _ => .refl n
    | some r =>
      obtain ⟨ep', c⟩ := r
      dsimp only
      rw [bind_ok (set_apply n _)]
      refine put_within ?_ h ep'
      exact ((emit_within (ipv4Input_within depth) _ _ _ _).mapErr _).bind trans
        fun _ => .lift refl _

lemma close_within (depth h : Nat) : Within Quiet (close depth h) := by
  intro n
  unfold close
  rw [bind_ok (get_apply n)]
  cases n.tcp.get h with
  | none => exact fun _ => .refl n
  | some ep =>
    refine put_within ?_ h ep.close.1
    split
    next => exact .lift refl _
    next => exact ignore_within (emit_within (ipv4Input_within depth) _ _ _ _)

lemma quiet_void {ε α : Type} {x : Prog Stack ε α} (hx : Within Quiet x) :
    Within Quiet (do let _ ← x) :=
  hx.bind trans fun _ => .lift refl _

lemma Op.run_within (depth : Nat) (op : Op) : Within Quiet (op.run depth) := by
  cases op with
  | listen addr backlog => exact quiet_void (listen_within addr backlog)
  | connect remoteAddr => exact quiet_void (connect_within depth remoteAddr)
  | accept h => exact quiet_void (accept_within h)
  | send h data => exact quiet_void (send_within depth h data)
  | close h => exact close_within depth h

/-- Every state of a history is ready for the next call. -/
lemma Reached.ready (hreach : Reached n) : Ready n := by
  induction hreach with
  | boot ticks => exact ⟨rfl, rfl, nofun⟩
  | call op depth ticks _ hret ih =>
    have hsettles := op.run_within depth _ hret ih.loRx
    exact ⟨hsettles.lo.trans ih.lo, hsettles.loRx, hsettles.full ih.full⟩

/-- **The loopback queue is drained.** Whatever calls are made and whatever packets come in, in any
order and at any time, every state in between is ready for the next call. -/
theorem ready_run (depth : Nat) (ticks : UInt64) (calls : List (UInt64 × (Op ⊕ Packet))) :
    Always (fun c n => c.2.elim (fun op => (op.run depth).after { n with ticks := c.1 })
      fun p => (ipv4Input depth p).after { n with ticks := c.1 }) Ready calls (boot ticks) := by
  refine always_of_along (fun c n n' h hs _ => ?_) (Reached.boot ticks).ready (along_true calls _)
  have hset : Settles { n with ticks := c.1 } n' := by
    obtain ⟨now, op | p⟩ := c
    · obtain ⟨hret, rfl⟩ := after_eq_some.mp hs
      exact op.run_within depth _ hret h.loRx
    · obtain ⟨hret, rfl⟩ := after_eq_some.mp hs
      exact ipv4Input_within depth p _ hret h.loRx
  exact ⟨hset.lo.trans h.lo, hset.loRx, hset.full h.full⟩

/-! ## The new endpoint -/

/-- The state after the first part of `connect`. -/
structure Opened (n : Stack) (h : Nat) (ep : TcpEndpoint) (n₁ : Stack) : Prop where
  ready : Ready n₁
  ticks : n₁.ticks = n.ticks
  fresh : n.tcp.get h = none
  new : n₁.tcp.get h = some ep
  others : ∀ j, j ≠ h → n₁.tcp.get j = n.tcp.get j
  findNew : ∀ a b, n.tcp.findEndpoint a b = none → TcpTable.isEndpointOf a b (some ep) = true →
    n₁.tcp.findEndpoint a b = some h
  findOld : ∀ a b k, n.tcp.findEndpoint a b = some k → n₁.tcp.findEndpoint a b = some k
  findNone : ∀ a b, n.tcp.findEndpoint a b = none → TcpTable.isEndpointOf a b (some ep) = false →
    n₁.tcp.findEndpoint a b = none
  findListener : ∀ a, n₁.tcp.findListener a = n.tcp.findListener a

/-- The address that the next `connect` takes. -/
def nextAddr (n : Stack) : SocketAddrV4 := ⟨.localhost, n.tcp.nextEphemeralPort⟩

/-- The endpoint that the next `connect` makes. -/
def nextActive (n : Stack) (remoteAddr : SocketAddrV4) : TcpEndpoint :=
  .newActive n.ticks n.nextAddr remoteAddr

/-- A new endpoint, in SYN-SENT. -/
lemma openActive_opened (hready : Ready n) (remoteAddr : SocketAddrV4) : ∃ h n₁,
    openActive remoteAddr n = (.ok (h, n.nextActive remoteAddr), n₁) ∧
      Opened n h (n.nextActive remoteAddr) n₁ := by
  let t : TcpTable := { n.tcp with nextEphemeralPort := nextPort n.tcp.nextEphemeralPort }
  let ep := n.nextActive remoteAddr
  have hsettles := openActive_within remoteAddr n trivial hready.loRx
  refine ⟨(t.allocate ep).1, { n with tcp := (t.allocate ep).2 }, rfl, ⟨hready.lo, hready.loRx,
    hsettles.full hready.full⟩, rfl, ?_, ?_, ?_, ?_, ?_, ?_, ?_⟩
  · exact t.get_allocate_fst ep
  · exact t.get_allocate_self ep
  · exact fun j hj => t.get_allocate_ne ep hj
  · exact fun a b hnone hep => findEndpoint_allocate_new (t := t) hnone hep
  · intro a b k hk
    rw [allocate_eq]
    exact hready.full.first_alloc ep hk
  · exact fun a b hnone hep => (findEndpoint_allocate (t := t) hep).trans hnone
  · exact fun a => findListener_allocate (t := t) (show ep.state ≠ .listen by exact nofun)

/-- The SYN that `connect` sends. -/
def synFor (ep : TcpEndpoint) : Control := ⟨ep.sndUna, 0, Flags.syn⟩

/-- The SYN comes in at the other side. -/
lemma emit_syn (depth : Nat) (hready : Ready n₁) {remoteAddr : SocketAddrV4}
    (hloop : remoteAddr.ip = .localhost) (ep : TcpEndpoint) :
    emit (ipv4Input (depth + 1)) ep.localAddr remoteAddr (synFor ep) [] n₁ =
      sure (segmentInput (ipv4Input depth) remoteAddr ep.localAddr (synFor ep) []) n₁ := by
  have hroute : n₁.route remoteAddr.ip = some true := by
    rw [hloop]
    exact hready.lo
  rw [emit_ipv4Input depth _ _ (show syn.toNat < 64 by decide) (Nat.zero_le _) hready.loRx,
    hroute]

/-- `connect` answers with the new endpoint, once the SYN has done its work, unless it has
been refused. -/
lemma connect_ok_iff {depth h' : Nat} {remoteAddr : SocketAddrV4} {ep : TcpEndpoint}
    (hloop : remoteAddr.ip = .localhost) (hready : Ready n₁)
    (hopen : openActive remoteAddr n = (.ok (h, ep), n₁)) :
    connect (depth + 1) remoteAddr n = (.ok h', n') ↔ h' = h ∧
      segmentInput (ipv4Input depth) remoteAddr ep.localAddr (synFor ep) [] n₁ = (.ok (), n') ∧
      ∃ ep', n'.tcp.get h = some ep' ∧ ep'.state ≠ .closed := by
  have hsyn := emit_syn depth hready hloop ep
  unfold connect
  rw [bind_ok hopen]
  dsimp only
  rcases hseg : segmentInput (ipv4Input depth) remoteAddr ep.localAddr (synFor ep)
    [] n₁ with ⟨out, n₂⟩
  unfold synFor at hsyn hseg
  rw [sure, mapErr_apply, hseg] at hsyn
  constructor
  · intro hok
    obtain ⟨_, _, hemit, hok⟩ := bind_eq_ok hok
    rw [mapErr_apply, hsyn] at hemit
    obtain ⟨hout, rfl⟩ := Prod.mk.inj hemit
    obtain rfl := mapErr_eq_ok.mp (mapErr_eq_ok.mp hout)
    rw [bind_ok (get_apply _)] at hok
    -- both answers that are no error are the handle
    cases hget : n₂.tcp.get h with
    | none =>
      rw [hget] at hok
      cases hok
    | some ep' =>
      rw [hget] at hok
      dsimp only at hok
      split at hok
      next hstate =>
        cases hok
        exact ⟨rfl, rfl, ep', hget, by rw [hstate]; exact nofun⟩
      next =>
        split at hok
        next => cases hok
        next hstate =>
          cases hok
          exact ⟨rfl, rfl, ep', hget, hstate⟩
  · rintro ⟨rfl, heq, ep', hget, hstate⟩
    cases heq
    rw [bind_ok (a := ()) (by rw [mapErr_apply, hsyn]; rfl), bind_ok (get_apply n'), hget]
    dsimp only
    rw [if_neg hstate, ite_self]
    rfl

/-! ## The handshake -/

/-- The SYN+ACK establishes the end that sent the SYN. -/
lemma processSegment_synSent (now : UInt64) {ep : TcpEndpoint} (hstate : ep.state = .synSent)
    (seq ack : UInt32) :
    (ep.processSegment now ⟨seq, ack, Flags.syn ||| Flags.ack⟩ [] : Outcome Empty _) =
      .ok ({ ep with sndUna := ack, rcvNxt := seq + 1, state := .established },
        some ⟨ep.sndNxt, seq + 1, Flags.ack⟩) := by
  unfold processSegment
  rw [hstate]
  exact if_pos (show (Flags.syn ||| Flags.ack) &&& (Flags.syn ||| Flags.ack) =
    Flags.syn ||| Flags.ack
    by decide)

/-- The last acknowledgement establishes the child. -/
lemma processSegment_synRcvd (now : UInt64) {ep : TcpEndpoint} (hstate : ep.state = .synRcvd)
    {c : Control} (hack : c.has Flags.ack = true) (hnext : c.ack = ep.sndNxt + 1) :
    (ep.processSegment now c [] : Outcome Empty _) =
      .ok ({ ep with sndUna := c.ack, sndNxt := c.ack, state := .established }, none) := by
  unfold processSegment
  rw [hstate]
  exact if_pos ⟨hack, hnext⟩

variable {ep : TcpEndpoint}

/-- A bare SYN opens a connection. -/
lemma synFor_opens (ep : TcpEndpoint) : Opens (synFor ep) :=
  show (syn &&& syn != 0) = true ∧ ¬ (syn &&& Flags.ack != 0) = true by decide

/-- The new endpoint waits for an answer, and its SYN finds no endpoint but the listener. -/
structure Waits (n₁ : Stack) (localAddr remoteAddr : SocketAddrV4) (h l : Nat) (ep : TcpEndpoint) :
    Prop where
  ready : Ready n₁
  ports : localAddr.port ≠ remoteAddr.port
  loop : localAddr.ip = .localhost
  loop' : remoteAddr.ip = .localhost
  nobody : n₁.tcp.findEndpoint remoteAddr localAddr = none
  get : n₁.tcp.get h = some ep
  state : ep.state = .synSent
  listen : n₁.tcp.findListener remoteAddr = some l

variable {localAddr remoteAddr : SocketAddrV4}

/-- A listener answers the SYN, if it finds no endpoint: a child is made, which answers to its
own addresses, and what other endpoints answer to stays as it was. -/
lemma syn_answered (depth : Nat) (hw : Waits n₁ localAddr remoteAddr h l ep) :
    let child := newChildForSyn n₁.ticks remoteAddr localAddr ep.sndUna
    ∃ tcp, segmentInput (ipv4Input (depth + 1)) remoteAddr localAddr (synFor ep) [] n₁ =
        segmentInput (ipv4Input depth) localAddr remoteAddr
          ⟨n₁.ticks.toUInt32 ^^^ 0x12345678, ep.sndUna + 1, syn ||| Flags.ack⟩ []
          { n₁ with tcp } ∧
      Spawned n₁.tcp remoteAddr child tcp ∧ tcp.get h = some ep ∧
      tcp.findEndpoint remoteAddr localAddr = some (n₁.tcp.allocate child).1 ∧
      tcp.findEndpoint localAddr remoteAddr = n₁.tcp.findEndpoint localAddr remoteAddr := by
  intro child
  obtain ⟨tcp, heq, hspawned⟩ :=
    segmentInput_syn (ipv4Input (depth + 1)) [] hw.nobody (synFor_opens ep) hw.listen
  have hroute : ({ n₁ with tcp } : Stack).route localAddr.ip = some true := by
    rw [hw.loop]
    exact hw.ready.lo
  refine ⟨tcp, ?_, hspawned, ?_, ?_, ?_⟩
  · rw [heq, reply_ipv4Input depth remoteAddr localAddr
      (show (syn ||| Flags.ack).toNat < 64 by decide)
      (show ({ n₁ with tcp } : Stack).loRx = [] from hw.ready.loRx)]
    exact if_pos hroute
  · -- it is not the listener
    have hne := (get_allocate_of_some child hw.get).1
    refine (hspawned.others h hne fun hl => ?_).trans hw.get
    obtain ⟨lep, hlget, hlis⟩ := findListener_get hl
    cases hw.get.symm.trans hlget
    exact nomatch hw.state.symm.trans (isListenerOf_state hlis)
  · rw [hspawned.findEndpoint]
    exact findEndpoint_allocate_new hw.nobody (isEndpointOf_some.mpr ⟨rfl, rfl⟩)
  · rw [hspawned.findEndpoint]
    refine findEndpoint_allocate (Bool.eq_false_iff.mpr fun hm => ?_)
    exact hw.ports (isEndpointOf_some.mp hm).1.symm

/-- The table after a handshake: both ends are established, and the child is queued. -/
structure Shaken (n₁ : Stack) (localAddr remoteAddr : SocketAddrV4) (h l : Nat)
    (n' : Stack) : Prop where
  active : ∃ ep, n'.tcp.get h = some ep ∧ ep.state = .established ∧ ep.localAddr = localAddr ∧
    ep.remoteAddr = remoteAddr
  child : ∃ c child, n₁.tcp.get c = none ∧ n'.tcp.get c = some child ∧ child.state = .established ∧
    child.localAddr = remoteAddr ∧ child.remoteAddr = localAddr ∧
    (∀ lep, n₁.tcp.get l = some lep →
      n'.tcp.get l = some { lep with acceptQueue := lep.acceptQueue ++ [c] }) ∧
    ∀ j, j ≠ h → j ≠ c → j ≠ l → n'.tcp.get j = n₁.tcp.get j

/-- The handshake, when nobody else answers to the two addresses. -/
lemma handshake (depth : Nat) (hw : Waits n₁ localAddr remoteAddr h l ep)
    (hfind' : n₁.tcp.findEndpoint localAddr remoteAddr = some h)
    (hlocal : ep.localAddr = localAddr) (hremote : ep.remoteAddr = remoteAddr) : ∃ n',
    segmentInput (ipv4Input (depth + 2)) remoteAddr localAddr (synFor ep) [] n₁ = (.ok (), n') ∧
      Shaken n₁ localAddr remoteAddr h l n' := by
  obtain ⟨tcp, heq, hspawned, hget₂, hfindc, hsame⟩ := syn_answered (depth + 1) hw
  let child := newChildForSyn n₁.ticks remoteAddr localAddr ep.sndUna
  let c := (n₁.tcp.allocate child).1
  let synAck : Control := ⟨n₁.ticks.toUInt32 ^^^ 0x12345678, ep.sndUna + 1, syn ||| Flags.ack⟩
  have hroute : n₁.route remoteAddr.ip = some true := by
    rw [hw.loop']
    exact hw.ready.lo
  -- three different handles
  have hfresh : n₁.tcp.get c = none := n₁.tcp.get_allocate_fst child
  have hhc : h ≠ c := (get_allocate_of_some child hw.get).1
  obtain ⟨lep, hlget, hlis⟩ := findListener_get hw.listen
  have hlc : l ≠ c := (get_allocate_of_some child hlget).1
  have hhl : h ≠ l := by
    rintro rfl
    cases hw.get.symm.trans hlget
    exact nomatch hw.state.symm.trans (isListenerOf_state hlis)
  -- the two segments that follow
  let ep' : TcpEndpoint :=
    { ep with sndUna := synAck.ack, rcvNxt := synAck.seq + 1, state := .established }
  let p : Control := ⟨ep.sndNxt, synAck.seq + 1, Flags.ack⟩
  let n₂ : Stack := { n₁ with tcp }
  let n₃ : Stack := { n₁ with tcp := tcp.put h ep' }
  have hseg : (ep.processSegment n₂.ticks synAck [] : Outcome Empty _) = .ok (ep', some p) :=
    processSegment_synSent n₁.ticks hw.state synAck.seq synAck.ack
  have hput : (tcp.put h ep').findEndpoint remoteAddr localAddr =
      tcp.findEndpoint remoteAddr localAddr :=
    findEndpoint_put hget₂ (show ep'.localAddr = ep.localAddr from rfl)
      (show ep'.remoteAddr = ep.remoteAddr from rfl)
  have hfind₃ : n₃.tcp.findEndpoint remoteAddr localAddr = some c := hput.trans hfindc
  have hget₃ : n₃.tcp.get c = some child := (get_put_ne hhc.symm).trans hspawned.new
  have hack : p.has Flags.ack = true := show (Flags.ack &&& Flags.ack != 0) = true by decide
  let child' : TcpEndpoint := { child with sndUna := p.ack, sndNxt := p.ack, state := .established }
  have hseg' : (child.processSegment n₃.ticks p [] : Outcome Empty _) = .ok (child', none) :=
    processSegment_synRcvd n₁.ticks (show child.state = .synRcvd from rfl) hack rfl
  refine ⟨{ n₃ with tcp := n₃.tcp.put c child' }, ?_, ⟨ep', ?_, rfl, hlocal, hremote⟩, c, _, hfresh,
    get_put_self hget₃, rfl, rfl, rfl, ?_, ?_⟩
  · calc segmentInput (ipv4Input (depth + 2)) remoteAddr localAddr (synFor ep) [] n₁
      _ = segmentInput (ipv4Input (depth + 1)) localAddr remoteAddr synAck [] n₂ := heq
      _ = reply (ipv4Input (depth + 1)) localAddr remoteAddr p n₃ :=
        segmentInput_found (n := n₂) _ (hsame.trans hfind') hget₂ hseg
      _ = segmentInput (ipv4Input depth) remoteAddr localAddr p [] n₃ := by
        rw [reply_ipv4Input depth localAddr remoteAddr (show Flags.ack.toNat < 64 by decide)
          (show n₃.loRx = [] from hw.ready.loRx)]
        exact if_pos hroute
      _ = _ := segmentInput_found (n := n₃) _ hfind₃ hget₃ hseg'
  · exact (get_put_ne hhc).trans (get_put_self hget₂)
  · intro lep' hlep'
    exact ((get_put_ne hlc).trans (get_put_ne hhl.symm)).trans
      (hspawned.listener l lep' hw.listen hlep')
  · intro j hjh hjc hjl
    refine ((get_put_ne hjc).trans (get_put_ne hjh)).trans ?_
    exact hspawned.others j hjc fun hl => hjl (some.inj (hw.listen.symm.trans hl)).symm

/-! ## What goes wrong -/

/-- A bare SYN is not answered by an endpoint that it finds; the endpoint that sent it does
not even notice. -/
lemma syn_ignored {k : Nat} (input : Input)
    (hfind : n₁.tcp.findEndpoint remoteAddr localAddr = some k)
    (hget : n₁.tcp.get h = some ep) (hstate : ep.state = .synSent) : ∃ n',
    segmentInput input remoteAddr localAddr (synFor ep) [] n₁ = (.ok (), n') ∧
      ∃ ep', n'.tcp.get h = some ep' ∧ ep'.state = .synSent := by
  obtain ⟨epk, hgetk, -⟩ := findEndpoint_get hfind
  have hsilent : ∃ epk', (epk.processSegment n₁.ticks (synFor ep) [] : Outcome Empty _) =
      .ok (epk', none) := by
    rcases epk.processSegment_cases (ε := Empty) n₁.ticks (synFor ep) [] with
      ⟨-, epk', pending, hseg, hproc⟩ | ⟨hacc, -⟩
    · have hfin : (synFor ep).has fin = false :=
        show (syn &&& fin != 0) = false by decide
      have hnone : pending = none := by
        by_contra hne
        have := (hproc.answers rfl hfin hne).2
        exact absurd this (show syn &&& (syn ||| Flags.ack) ≠ syn ||| Flags.ack by decide)
      subst hnone
      exact ⟨epk', hseg⟩
    · refine absurd (fun _ hack => ?_) hacc
      exact absurd hack (show ¬ (syn &&& Flags.ack != 0) = true by decide)
  obtain ⟨epk', hseg⟩ := hsilent
  refine ⟨_, segmentInput_found input hfind hgetk hseg, ?_⟩
  by_cases hk : h = k
  · subst hk
    cases hget.symm.trans hgetk
    refine ⟨epk', get_put_self hgetk, ?_⟩
    -- neither SYN+ACK nor RST
    have hnoAck : ¬ (synFor ep).flags &&& (syn ||| Flags.ack) = syn ||| Flags.ack :=
      show ¬ syn &&& (syn ||| Flags.ack) = syn ||| Flags.ack by decide
    have hnoRst : ¬ (synFor ep).has rst = true :=
      show ¬ (syn &&& rst != 0) = true by decide
    unfold processSegment at hseg
    rw [hstate] at hseg
    rw [if_neg hnoAck, if_neg hnoRst] at hseg
    cases hseg
    exact hstate
  · exact ⟨ep, (get_put_ne hk).trans hget, hstate⟩

/-- If another endpoint answers to the address of the new one, it gets the SYN+ACK, and the
new one is left waiting. -/
lemma synAck_stolen {depth k : Nat} (hw : Waits n₁ localAddr remoteAddr h l ep)
    (hfind' : n₁.tcp.findEndpoint localAddr remoteAddr = some k) (hkh : h ≠ k)
    (hseg : segmentInput (ipv4Input (depth + 2)) remoteAddr localAddr (synFor ep)
      [] n₁ = (.ok (), n')) :
    ∃ ep', n'.tcp.get h = some ep' ∧ ep'.state = .synSent := by
  obtain ⟨tcp, heq, hspawned, hget₂, hfindc, hsame⟩ := syn_answered (depth + 1) hw
  let child := newChildForSyn n₁.ticks remoteAddr localAddr ep.sndUna
  let c := (n₁.tcp.allocate child).1
  let synAck : Control := ⟨n₁.ticks.toUInt32 ^^^ 0x12345678, ep.sndUna + 1, syn ||| Flags.ack⟩
  let n₂ : Stack := { n₁ with tcp }
  have hroute : n₂.route remoteAddr.ip = some true := by
    rw [hw.loop']
    exact hw.ready.lo
  have hhc : h ≠ c := (get_allocate_of_some child hw.get).1
  have hkc : k ≠ c := by
    obtain ⟨epk, hgetk, -⟩ := findEndpoint_get hfind'
    exact (get_allocate_of_some child hgetk).1
  have hfind₂ : n₂.tcp.findEndpoint localAddr remoteAddr = some k := hsame.trans hfind'
  obtain ⟨epk, hgetk, -⟩ := findEndpoint_get hfind₂
  rw [heq] at hseg
  rcases epk.processSegment_cases (ε := Empty) n₂.ticks synAck [] with
    ⟨-, epk', pending, hsegk, hproc⟩ | ⟨-, hpanic⟩
  rotate_left
  · rw [segmentInput_panic _ hfind₂ hgetk hpanic] at hseg
    cases hseg
  rw [segmentInput_found _ hfind₂ hgetk hsegk] at hseg
  have hkept : ({ n₂ with tcp := n₂.tcp.put k epk' } : Stack).tcp.get h = some ep :=
    (get_put_ne hkh).trans hget₂
  cases pending with
  | none =>
    cases hseg
    exact ⟨ep, hkept, hw.state⟩
  | some p =>
    -- the other endpoint answers, and the child is established with it
    let n₃ : Stack := { n₂ with tcp := n₂.tcp.put k epk' }
    have hplain := ack_plain (hproc.flags p rfl)
    have hfind₃ : n₃.tcp.findEndpoint remoteAddr localAddr = some c :=
      (findEndpoint_put hgetk hproc.localAddr hproc.remoteAddr).trans hfindc
    have hget₃ : n₃.tcp.get c = some child := (get_put_ne hkc.symm).trans hspawned.new
    dsimp only at hseg
    rw [reply_ipv4Input depth localAddr remoteAddr hplain.flags
      (show n₃.loRx = [] from hw.ready.loRx),
      if_pos (show n₃.route remoteAddr.ip = some true from hroute)] at hseg
    rcases child.processSegment_cases (ε := Empty) n₃.ticks p [] with
      ⟨-, child', pending, hsegc, hproc'⟩ | ⟨hacc, -⟩
    rotate_left
    · exact absurd (fun h => nomatch h) hacc
    have hnone : pending = none := by
      by_contra hne
      exact nomatch (hproc'.answers rfl hplain.fin hne).1
    subst hnone
    rw [segmentInput_found _ hfind₃ hget₃ hsegc] at hseg
    cases hseg
    exact ⟨ep, (get_put_ne hhc).trans hkept, hw.state⟩

/-! ## The result -/

/-- What `connect` is to have done when it answers with a handle: the endpoint is new and
established, no other open endpoint has its addresses, and exactly one new endpoint has
been queued on the listener, established and with the addresses mirrored. -/
structure Connected (n : Stack) (remoteAddr : SocketAddrV4) (h l : Nat) (n' : Stack) : Prop where
  fresh : n.tcp.get h = none
  active : ∃ ep, n'.tcp.get h = some ep ∧ ep.state = .established ∧ ep.remoteAddr = remoteAddr ∧
    (∀ j ep', j ≠ h → n'.tcp.get j = some ep' → ep'.state ≠ .closed →
      ¬ (ep'.localAddr = ep.localAddr ∧ ep'.remoteAddr = ep.remoteAddr)) ∧
    ∃ c child, n.tcp.get c = none ∧ n'.tcp.get c = some child ∧ child.state = .established ∧
      child.localAddr = ep.remoteAddr ∧ child.remoteAddr = ep.localAddr ∧
      (∀ lep, n.tcp.get l = some lep → ∃ lep', n'.tcp.get l = some lep' ∧
        lep'.acceptQueue = lep.acceptQueue ++ [c]) ∧
      ∀ j, j ≠ h → j ≠ c → j ≠ l → n'.tcp.get j = n.tcp.get j

/-- Nobody answers to the addresses that the next `connect` to this port will use: the port
is not the one the counter stands at, and no endpoint, whatever its state, has these ports
and this remote address, on either side. -/
structure Unused (n : Stack) (port : UInt16) : Prop where
  ports : n.tcp.nextEphemeralPort ≠ port
  active : ∀ j ep, n.tcp.get j = some ep →
    ¬ (ep.localAddr.port = n.tcp.nextEphemeralPort ∧ ep.remoteAddr = ⟨.localhost, port⟩)
  passive : ∀ j ep, n.tcp.get j = some ep →
    ¬ (ep.localAddr.port = port ∧ ep.remoteAddr = n.nextAddr)

/-- No endpoint has this pair of addresses. -/
lemma findEndpoint_eq_none_iff {t : TcpTable} :
    t.findEndpoint localAddr remoteAddr = none ↔ ∀ j ep, t.get j = some ep →
      ¬ (ep.localAddr.port = localAddr.port ∧ ep.remoteAddr = remoteAddr) := by
  constructor
  · intro hnone j ep hget hmatch
    obtain ⟨k, hk⟩ := Slots.first_of_get hget (isEndpointOf_some.mpr hmatch)
    exact nomatch hk.symm.trans hnone
  · intro hall
    refine eq_none_iff_forall_ne_some.mpr fun k hfind => ?_
    obtain ⟨ep, hget, hmatch⟩ := findEndpoint_get hfind
    exact hall k ep hget hmatch

/-- An endpoint that is still waiting is not connected. -/
lemma not_connected (hget : n'.tcp.get h = some ep)
    (hstate : ep.state = .synSent) : ¬ Connected n remoteAddr h l n' := by
  rintro ⟨-, ep', hget', hest, -⟩
  cases hget.symm.trans hget'
  exact nomatch hstate.symm.trans hest

/-- **Connecting over loopback.** In every state that a history reaches, `connect` to a port
somebody listens on yields a fresh established connection exactly if nobody answers to the
addresses it uses. -/
theorem connect_establishes_iff (n : Stack) (hreach : Reached n) (depth : Nat) (hdepth : 3 ≤ depth)
    (port : UInt16) (l : Nat) (hlisten : n.tcp.findListener ⟨.localhost, port⟩ = some l) :
    (∃ h, (connect depth ⟨.localhost, port⟩ n).1 = .ok h ∧
      Connected n ⟨.localhost, port⟩ h l (connect depth ⟨.localhost, port⟩ n).2) ↔
        Unused n port := by
  obtain ⟨d, rfl⟩ : ∃ d, depth = d + 2 + 1 := ⟨depth - 3, by omega⟩
  let remoteAddr : SocketAddrV4 := ⟨.localhost, port⟩
  let ep := n.nextActive remoteAddr
  obtain ⟨h, n₁, hopen, hopened⟩ := openActive_opened hreach.ready remoteAddr
  have hlisten₁ : n₁.tcp.findListener remoteAddr = some l := (hopened.findListener _).trans hlisten
  have hmatch : isEndpointOf n.nextAddr remoteAddr (some ep) = true :=
    isEndpointOf_some.mpr ⟨rfl, rfl⟩
  constructor
  · rintro ⟨h', hok, hconn⟩
    rcases hconnect : connect (d + 2 + 1) ⟨.localhost, port⟩ n with ⟨out, n'⟩
    rw [hconnect] at hok hconn
    obtain rfl : out = .ok h' := hok
    obtain ⟨rfl, hseg, -⟩ := (connect_ok_iff rfl hopened.ready hopen).mp hconnect
    -- the SYN found no endpoint
    have hsyn : n₁.tcp.findEndpoint remoteAddr n.nextAddr = none := by
      refine eq_none_iff_forall_ne_some.mpr fun k hfind => ?_
      obtain ⟨n'', hseg', ep', hget', hstate'⟩ :=
        syn_ignored (ipv4Input (d + 2)) hfind hopened.new rfl
      cases hseg.symm.trans hseg'
      exact not_connected hget' hstate' hconn
    have hpassive : n.tcp.findEndpoint remoteAddr n.nextAddr = none :=
      eq_none_iff_forall_ne_some.mpr fun k hfind =>
        nomatch hsyn.symm.trans (hopened.findOld _ _ k hfind)
    have hports : n.tcp.nextEphemeralPort ≠ port := by
      intro hsame
      have hself : isEndpointOf remoteAddr n.nextAddr (some ep) = true := by
        refine isEndpointOf_some.mpr ⟨hsame, ?_⟩
        show remoteAddr = ⟨.localhost, n.tcp.nextEphemeralPort⟩
        rw [hsame]
      exact nomatch hsyn.symm.trans (hopened.findNew _ _ hpassive hself)
    have hactive : n.tcp.findEndpoint n.nextAddr remoteAddr = none := by
      refine eq_none_iff_forall_ne_some.mpr fun k hfind => ?_
      obtain ⟨epk, hgetk, -⟩ := findEndpoint_get hfind
      have hkh : h' ≠ k := by
        rintro rfl
        exact nomatch hopened.fresh.symm.trans hgetk
      obtain ⟨ep', hget', hstate'⟩ := synAck_stolen
        ⟨hopened.ready, hports, rfl, rfl, hsyn, hopened.new, rfl, hlisten₁⟩
        (hopened.findOld _ _ k hfind) hkh hseg
      exact not_connected hget' hstate' hconn
    exact ⟨hports, findEndpoint_eq_none_iff.mp hactive, findEndpoint_eq_none_iff.mp hpassive⟩
  · rintro ⟨hports, hnobody, hpassive⟩
    have hactive : n.tcp.findEndpoint n.nextAddr remoteAddr = none :=
      findEndpoint_eq_none_iff.mpr hnobody
    have hpassive : n.tcp.findEndpoint remoteAddr n.nextAddr = none :=
      findEndpoint_eq_none_iff.mpr hpassive
    have hother : isEndpointOf remoteAddr n.nextAddr (some ep) = false :=
      Bool.eq_false_iff.mpr fun hm => hports (isEndpointOf_some.mp hm).1
    obtain ⟨n', hseg, hshaken⟩ := handshake d ⟨hopened.ready, hports, rfl, rfl,
      hopened.findNone _ _ hpassive hother, hopened.new, rfl, hlisten₁⟩
      (hopened.findNew _ _ hactive hmatch) rfl rfl
    obtain ⟨ep', hget', hest, hlocal, hremote⟩ := hshaken.active
    obtain ⟨c, child, hcfresh, hcget, hcest, hclocal, hcremote, hclisten, hcothers⟩ := hshaken.child
    rw [(connect_ok_iff rfl hopened.ready hopen).mpr
      ⟨rfl, hseg, ep', hget', by rw [hest]; exact nofun⟩]
    have hlh : l ≠ h := by
      rintro rfl
      obtain ⟨lep, hlget, -⟩ := findListener_get hlisten
      exact nomatch hopened.fresh.symm.trans hlget
    have hch : c ≠ h := by
      rintro rfl
      exact nomatch hopened.new.symm.trans hcfresh
    refine ⟨h, rfl, hopened.fresh, ep', hget', hest, hremote, ?_, c, child, ?_, hcget, hcest,
      hclocal.trans hremote.symm, hcremote.trans hlocal.symm, ?_, ?_⟩
    · rintro j other hjh hother' - ⟨holocal, horemote⟩
      have holocal : other.localAddr = n.nextAddr := holocal.trans hlocal
      have horemote : other.remoteAddr = remoteAddr := horemote.trans hremote
      by_cases hjc : j = c
      · subst hjc
        cases hcget.symm.trans hother'
        exact hports (congrArg SocketAddrV4.port (hclocal.symm.trans holocal)).symm
      · -- an endpoint of the old table, up to the queue of the listener
        obtain ⟨old, hold, hsame, hsame'⟩ : ∃ old, n.tcp.get j = some old ∧
            old.localAddr = other.localAddr ∧ old.remoteAddr = other.remoteAddr := by
          by_cases hjl : j = l
          · subst hjl
            obtain ⟨lep, hlget, -⟩ := findListener_get hlisten
            cases (hclisten lep ((hopened.others j hlh).trans hlget)).symm.trans hother'
            exact ⟨lep, hlget, rfl, rfl⟩
          · have hkept := (hcothers j hjh hjc hjl).trans (hopened.others j hjh)
            exact ⟨other, hkept.symm.trans hother', rfl, rfl⟩
        exact hnobody j old hold
          ⟨congrArg SocketAddrV4.port (hsame.trans holocal), hsame'.trans horemote⟩
    · exact (hopened.others c hch).symm.trans hcfresh
    · intro lep hlep
      exact ⟨_, hclisten lep ((hopened.others l hlh).trans hlep), rfl⟩
    · intro j hjh hjc hjl
      exact (hcothers j hjh hjc hjl).trans (hopened.others j hjh)

/-- A listener, and nothing else. -/
def listening (port : UInt16) : Stack :=
  { boot 0 with tcp := ⟨[some (.newListener ⟨.localhost, port⟩ 1)], 49152⟩ }

lemma reached_listening (port : UInt16) : Reached (listening port) :=
  .call (.listen ⟨.localhost, port⟩ 1) 0 0 (.boot 0) trivial

/-- To a listener on port 80. -/
theorem connect_establishes_listening : ∃ h,
    (connect 3 ⟨.localhost, 80⟩ (listening 80)).1 = .ok h ∧
      Connected (listening 80) ⟨.localhost, 80⟩ h 0
        (connect 3 ⟨.localhost, 80⟩ (listening 80)).2 := by
  refine (connect_establishes_iff (listening 80) (reached_listening 80) 3 (Nat.le_refl 3) 80 0
    (by decide)).mpr ⟨by decide, ?_, ?_⟩
  all_goals
    intro j ep hget
    match j with
    | 0 =>
      cases hget
      decide
    | j + 1 => cases hget

/-- Connecting to the port the counter stands at: the new endpoint gets its own SYN, and stays
in `SynSent`. -/
theorem connect_own_port : Reached (listening 49152) ∧
    (listening 49152).tcp.findListener ⟨.localhost, 49152⟩ = some 0 ∧
    ¬ ∃ h, (connect 3 ⟨.localhost, 49152⟩ (listening 49152)).1 = .ok h ∧
      Connected (listening 49152) ⟨.localhost, 49152⟩ h 0
        (connect 3 ⟨.localhost, 49152⟩ (listening 49152)).2 := by
  refine ⟨reached_listening 49152, by decide, ?_⟩
  rintro ⟨h, hok, hconn⟩
  have hout : (connect 3 ⟨.localhost, 49152⟩ (listening 49152)).1 = .ok 1 := by decide +kernel
  have hstate : ((connect 3 ⟨.localhost, 49152⟩ (listening 49152)).2.tcp.get 1).map (·.state) =
      some .synSent := by decide +kernel
  obtain rfl : 1 = h := ok.inj (hout.symm.trans hok)
  obtain ⟨ep, hget, hep⟩ := map_eq_some_iff.mp hstate
  exact not_connected hget hep hconn

end RustOs.Net.Stack
