import RustOs.Net.Stream

/-!
# Closing a connection

Both sides of a connection call `close`, in any order, while data and acknowledgements are on
their way. The FIN of a side that closes first takes the other to `CloseWait`, and the FIN that
comes back ends the connection at once; if the two FINs cross, each ends it at the other side.
Only `LastAck` has to wait: for any segment of the other side, which has one under way or will
answer the FIN (`Good.last`).

Every segment of a connection carries the ACK flag and a side sends one FIN, so the state of an
endpoint is told by whether it has sent its FIN and whether the other has come (`expects`).
`closed_of_drained`: when both sides have closed and nothing is under way, both are `Closed`.
-/

namespace RustOs.Net

open Lib TcpEndpoint Flags List Option Bool

/-- One side of a connection: its endpoint, the segments it has sent that are still under way,
and whether it has called `close`. -/
structure Side where
  ep : TcpEndpoint
  out : List Segment
  closed : Bool

/-- The FINs among the segments. -/
def fins (out : List Segment) : Nat := out.countP fun seg => seg.1.has Flags.fin

namespace Side

/-- The FIN of the side has come to the other. -/
def ended (s : Side) : Bool := s.closed && fins s.out == 0

/-- The side goes on with another endpoint and sends something. -/
def emits (s : Side) (ep : TcpEndpoint) (out : List Segment) : Side :=
    { s with ep, out := s.out ++ out }

end Side

/-- A call on a side of the connection, or the next segment for it. -/
inductive SideMove where
  | send (now : UInt64) (data : List UInt8)
  | close
  | deliver (now : UInt64)

/-- The two sides. -/
abbrev Connection := Bool → Side

namespace Connection

def set (k : Connection) (i : Bool) (s : Side) : Connection := fun j => if j = i then s else k j

/-- One move; none if there is nothing to deliver, if the side has closed already, or if the
call does not come back. -/
def step : Bool × SideMove → Connection → Option Connection
  | (i, .send now data), k =>
    match (k i).ep.send now data with
    | none => some k
    | some (ep, c) => some (k.set i ((k i).emits ep [(c, data)]))
  | (i, .close), k =>
    if (k i).closed then none
    else
      let r := (k i).ep.close
      some (k.set i { (k i).emits r.1 (r.2.toList.map (·, [])) with closed := true })
  | (i, .deliver now), k =>
    match (k !i).out with
    | [] => none
    | seg :: out =>
      match ((k i).ep.processSegment now seg.1 seg.2 : Outcome Empty _) with
      | .ok (ep, reply) =>
        some ((k.set (!i) { k !i with out }).set i ((k i).emits ep (reply.toList.map (·, []))))
      | _ => none

end Connection

/-! ## The states of a side -/

/-- The state of a side by whether it has sent its FIN and whether the other has come. -/
def expects : Bool → Bool → TcpState → Prop
  | false, false, s => s = .established
  | false, true, s => s = .closeWait
  | true, false, s => s = .finWait1 ∨ s = .finWait2
  | true, true, s => s = .lastAck ∨ s = .closed

/-- What holds of a side, facing the other. -/
structure Good (me peer : Side) : Prop where
  acks : ∀ seg ∈ me.out, seg.1.has Flags.ack = true
  once : fins me.out ≤ if me.closed then 1 else 0
  state : expects me.closed peer.ended me.ep.state
  last : me.ep.state = .lastAck → peer.out ≠ [] ∨ fins me.out ≠ 0

/-- What a segment with the ACK flag does to a side that is connected or closing. -/
lemma processSegment_closing {ep ep' : TcpEndpoint} {now : UInt64} {c : Control}
    {payload : List UInt8} {reply : Option Control} {closed ended : Bool}
    (hstate : expects closed ended ep.state) (hack : c.has Flags.ack = true)
    (hfin : c.has fin = true → ended = false)
    (h : (ep.processSegment now c payload : Outcome Empty _) = .ok (ep', reply)) :
    expects closed (ended || c.has fin) ep'.state ∧ ep'.state ≠ .lastAck ∧
      (c.has fin = true → reply ≠ none) := by
  unfold expects at *
  by_cases hest : ep.state = .established
  · obtain ⟨-, ep₁, hleft, -, -, heq⟩ :=
      (established_cases (ε := Empty) now c payload hest).resolve_right
      fun hno => nomatch hno.2.symm.trans h
    have hkept : ep₁.state = .established := hleft.state.trans ((takeData_state ..).trans hest)
    grind
  · unfold processSegment takeFin at h
    grind [takeData_state]

/-- Segments that carry an acknowledgement and no FIN. -/
def Bare (out : List Segment) : Prop :=
  ∀ seg ∈ out, seg.1.has Flags.ack = true ∧ seg.1.has Flags.fin = false

section

variable {me peer : Side} {ep : TcpEndpoint} {out : List Segment}

lemma fins_append (old : List Segment) : fins (old ++ out) = fins old + fins out := countP_append

lemma fins_bare (hout : Bare out) : fins out = 0 :=
  countP_eq_zero.mpr fun seg hseg => eq_false_iff.mp (hout seg hseg).2

/-- A side sends data. -/
lemma Good.send (h : Good me peer) (hpeer : Good peer me) {now : UInt64}
    {data : List UInt8} {c : Control}
    (hsend : me.ep.send now data = some (ep, c)) :
    Good (me.emits ep [(c, data)]) peer ∧ Good peer (me.emits ep [(c, data)]) := by
  have hflags : (Flags.ack ||| psh) &&& Flags.ack ≠ 0 ∧ (Flags.ack ||| psh) &&& fin = 0 := by decide
  have hkept : ep.state = me.ep.state ∧ Bare [(c, data)] := by grind [send, Control.has, Bare]
  have hfins := fins_bare hkept.2
  have hne : me.out ++ [(c, data)] ≠ [] := by simp
  constructor <;> constructor <;> grind [Good, Bare, Side.ended, Side.emits, fins_append]

/-- A side closes: its FIN is under way. -/
lemma Good.close (h : Good me peer) (hpeer : Good peer me) (hopen : me.closed = false) :
    Good { me.emits me.ep.close.1 (me.ep.close.2.toList.map (·, [])) with closed := true } peer ∧
      Good peer { me.emits me.ep.close.1
        (me.ep.close.2.toList.map (·, [])) with closed := true } := by
  let fin : Segment := (⟨me.ep.sndNxt, me.ep.rcvNxt, Flags.fin ||| Flags.ack⟩, [])
  have hfin : fin.1.has Flags.ack = true ∧ fin.1.has Flags.fin = true :=
    (by decide : ((Flags.fin ||| Flags.ack) &&& Flags.ack != 0) = true ∧
      ((Flags.fin ||| Flags.ack) &&& Flags.fin != 0) = true)
  have hone : fins [fin] = 1 := by simp [fins, hfin.2]
  obtain ⟨state, hclose, hstate⟩ : ∃ state, me.ep.close = me.ep.sendFin state ∧
      expects true peer.ended state := by
    have hstate := h.state
    rw [hopen] at hstate
    unfold TcpEndpoint.close
    cases hended : peer.ended <;> rw [hended] at hstate <;> rw [hstate]
    · exact ⟨.finWait1, rfl, .inl rfl⟩
    · exact ⟨.lastAck, rfl, .inl rfl⟩
  have hout : me.ep.close.2.toList.map (·, []) = [fin] := by rw [hclose]; rfl
  have hne : me.out ++ [fin] ≠ [] := by simp
  constructor <;> constructor <;> grind [Good, Side.ended, Side.emits, fins_append, sendFin]

/-- A segment comes to a side. -/
lemma Good.deliver (h : Good me peer) (hpeer : Good peer me) {now : UInt64} {seg : Segment}
    {reply : Option Control} (hpending : peer.out = seg :: out)
    (hseg : (me.ep.processSegment now seg.1 seg.2 : Outcome Empty _) = .ok (ep, reply)) :
    Good (me.emits ep (reply.toList.map (·, []))) { peer with out } ∧
      Good { peer with out } (me.emits ep (reply.toList.map (·, []))) := by
  have hcount : fins peer.out = fins out + if seg.1.has fin then 1 else 0 := by
    rw [hpending]
    exact countP_cons
  obtain ⟨hstate, hlast, hanswer⟩ := processSegment_closing h.state
    (hpeer.acks seg (hpending ▸ mem_cons_self)) (by grind [Side.ended]) hseg
  have hbare : Bare (reply.toList.map (·, [])) := by
    intro seg' hseg'
    obtain ⟨r, hr, rfl⟩ := mem_map.mp hseg'
    rcases me.ep.processSegment_cases (ε := Empty) now seg.1 seg.2 with ⟨-, _, _, hok,
      hproc⟩ | ⟨-, hpanic⟩
    · cases hok.symm.trans hseg
      unfold Control.has
      rw [hproc.flags r (mem_toList.mp hr)]
      decide
    · exact nomatch hpanic.symm.trans hseg
  have hfins := fins_bare hbare
  have hne : reply ≠ none → me.out ++ reply.toList.map (·, ([] : List UInt8)) ≠ [] := by
    cases reply <;> simp
  constructor <;> constructor <;> grind [Good, Bare, Side.ended, Side.emits, fins_append]

end

/-- Both sides stay good in every move. -/
lemma step_good {i : Bool} {m : SideMove} {k k' : Connection} (h : ∀ i, Good (k i) (k !i))
    (hstep : Connection.step (i, m) k = some k') : ∀ j, Good (k' j) (k' !j) := by
  have hpeer : Good (k !i) (k i) := by simpa using h !i
  have hboth {me peer : Side} (hk : k' i = me) (hk' : (k' !i) = peer)
    (hgood : Good me peer ∧ Good peer me) :
      ∀ j, Good (k' j) (k' !j) := by
    subst hk hk'
    intro j
    cases i <;> cases j <;> simp_all
  cases m with
  | send now data =>
    dsimp only [Connection.step] at hstep
    split at hstep
    next => exact some.inj hstep ▸ h
    next hsend =>
      cases hstep
      exact hboth (if_pos rfl) (if_neg (by simp)) ((h i).send hpeer hsend)
  | close =>
    dsimp only [Connection.step] at hstep
    split at hstep
    next => cases hstep
    next hopen =>
      cases hstep
      exact hboth (if_pos rfl) (if_neg (by simp)) ((h i).close hpeer (eq_false_iff.mpr hopen))
  | deliver now =>
    dsimp only [Connection.step] at hstep
    split at hstep
    next => cases hstep
    next hout =>
      split at hstep
      next hseg =>
        cases hstep
        exact hboth (if_pos rfl) ((if_neg (by simp)).trans (if_pos rfl))
          ((h i).deliver hpeer hout hseg)
      next => cases hstep

/-- Two connected endpoints; what is under way carries data or acknowledgements. -/
def Connected (k : Connection) : Prop :=
  ∀ i, (k i).ep.state = .established ∧ Bare (k i).out ∧ (k i).closed = false

/-- **Both sides close.** However calls and deliveries are interleaved: once both sides have
called `close` and nothing is under way, both endpoints are closed. -/
theorem closed_of_drained {k k' : Connection} (hk : Connected k) {moves : List (Bool × SideMove)}
    (hrun : trace Connection.step moves k = some k') (hclosed : ∀ i, (k' i).closed = true)
    (hdrained : ∀ i, (k' i).out = []) : ∀ i, (k' i).ep.state = .closed := by
  have hstart : ∀ i, Good (k i) (k !i) := by
    intro i
    obtain ⟨hstate, hbare, hopen⟩ := hk i
    have hnone := fins_bare hbare
    refine ⟨fun seg hseg => (hbare seg hseg).1, by simp [hnone], ?_,
      fun hl => nomatch hstate.symm.trans hl⟩
    have hended : (k !i).ended = false := by rw [Side.ended, (hk !i).2.2, Bool.false_and]
    rw [hopen, hended]
    exact hstate
  have hgood : ∀ i, Good (k' i) (k' !i) :=
    trace_of_along (fun _ _ _ h hs _ => step_good h hs) hstart (along_true moves k) hrun
  intro i
  have hended : (k' !i).ended = true := by
    rw [Side.ended, hclosed, hdrained]
    rfl
  have hstate := (hgood i).state
  rw [hclosed, hended] at hstate
  refine hstate.resolve_left fun hl => ?_
  have hwaits := (hgood i).last hl
  rw [hdrained, hdrained] at hwaits
  exact hwaits.elim (absurd rfl) (absurd rfl)

/-- A connection in which nothing is under way. -/
def idle : Connection := fun i => ⟨if i then Stream.connected.b else Stream.connected.a, [], false⟩

/-- Data is sent and both sides close before anything is delivered. -/
def crossing : List (Bool × SideMove) :=
  [(false, .send 0 [1]), (false, .close), (true, .close), (true, .deliver 0), (true, .deliver 0),
    (false, .deliver 0), (false, .deliver 0), (true, .deliver 0)]

/-- Two FINs that cross. -/
theorem closed_of_drained_crossing : ∃ k', trace Connection.step crossing idle = some k' ∧
    (∀ i, (k' i).closed = true ∧ (k' i).out = []) ∧ ∀ i, (k' i).ep.state = .closed := by
  obtain ⟨k', hrun, hend⟩ := map_eq_some_iff.mp (by decide +kernel :
    (trace Connection.step crossing idle).map (fun k => (k false).closed && (k true).closed &&
      (k false).out.isEmpty && (k true).out.isEmpty) = some true)
  have hall : ∀ i, (k' i).closed = true ∧ (k' i).out = [] := by
    intro i
    cases i <;> simp_all
  refine ⟨k', hrun, hall, closed_of_drained (fun i => ?_) hrun (fun i => (hall i).1)
    fun i => (hall i).2⟩
  cases i <;> exact ⟨rfl, nofun, rfl⟩

end RustOs.Net
