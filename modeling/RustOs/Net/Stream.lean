import RustOs.Net.Input
import RustOs.Lib.Serial
import RustOs.Lib.Trace

/-!
# The bytes of a stream

Two endpoints, `a` that sends and `b` that receives, and between them a network that may
lose, duplicate, delay and reorder what `a` sends. What `b` has delivered is to be a prefix
of what was passed to `send` on `a`, in every state that is reached.

`b` takes data only at the sequence number it waits for, so nothing that is late, early or
sent twice does harm, and the invariant `Inv` is that every segment on its way carries the
bytes that belong at its place. The FIN is the exception: an established endpoint takes it
whatever its sequence number. A FIN that overtakes data shifts `rcv_nxt` by one, and the
next byte that is taken is the wrong one (`fin_overtakes`). If every FIN comes when all
data has come, the stream is intact (`stream_intact`).

Sequence numbers wrap. A segment is told from one that was sent 2³² bytes before it because
fewer than 2³¹ bytes are outstanding (`Bounded`).
-/

namespace RustOs.Net

open Lib TcpEndpoint Flags List Nat Option UInt32

/-! ## What arrives of a segment -/

/-- A segment as it comes in. -/
abbrev Segment := Control × List UInt8

/-- What comes in of a segment that is sent: its front, if its length does not fit the length
field. -/
def arrives (c : Control) (data : List UInt8) : Option Segment :=
  if (20 + data.length) % 65536 < 20 then none
  else some (c, data.take ((20 + data.length) % 65536 - 20))

/-- What an endpoint puts on the wire, if the packet can be built. -/
def transmits (ep : TcpEndpoint) (c : Control) (data : List UInt8) : Option (Option Segment) :=
  match (buildSegment ep.localAddr ep.remoteAddr c data : Outcome Empty Packet) with
  | .ok _ => some (arrives c data)
  | _ => none

/-- The payload that arrives is a front of the data. -/
lemma transmits_eq {ep : TcpEndpoint} {c : Control} {data : List UInt8} {out : Option Segment}
    (h : transmits ep c data = some out) : ∀ seg ∈ out, seg.1 = c ∧ ∃ k, seg.2 = data.take k := by
  unfold transmits at h
  split at h
  next =>
    cases h
    intro seg hseg
    unfold arrives at hseg
    split at hseg
    next => cases hseg
    next =>
      cases hseg
      exact ⟨rfl, _, rfl⟩
  next => cases h

/-! ## The two sides of an endpoint -/

namespace TcpEndpoint

variable {pending : Option Control} {payload : List UInt8} {ep ep' : TcpEndpoint}
    {now : UInt64} {c : Control}

/-- The endpoint may still send data. -/
def sending (ep : TcpEndpoint) : Prop := ep.state = .established ∨ ep.state = .closeWait

/-- The endpoint has sent its FIN, and will not send data again. -/
def finished (ep : TcpEndpoint) : Prop :=
  ep.state = .finWait1 ∨ ep.state = .finWait2 ∨ ep.state = .closing ∨ ep.state = .lastAck ∨
    ep.state = .closed

lemma not_sending_of_finished (h : ep.finished) : ¬ ep.sending := by
  rintro (hs | hs) <;> rcases h with h | h | h | h | h <;> exact nomatch h.symm.trans hs

/-- What an acknowledgement leaves in the queue was there before. -/
lemma popAcked_suffix (ack : UInt32) (retx : List RetxSegment) (acked : UInt32)
    (newest : Option UInt64) : (popAcked ack retx acked newest).1 <:+ retx := by
  induction retx generalizing acked newest with
  | nil => exact suffix_rfl
  | cons seg retx ih =>
    unfold popAcked
    split
    next => exact (ih _ _).trans (suffix_cons seg retx)
    next => exact suffix_rfl

/-- What is left alone on the side that sends when nothing new is sent: the queue holds the
segments it held, or some of them. -/
structure Hears (ep ep' : TcpEndpoint) : Prop where
  sndNxt : ep'.sndNxt = ep.sndNxt
  retx : ∀ seg ∈ ep'.retx, ∃ seg' ∈ ep.retx,
    seg.seq = seg'.seq ∧ seg.flags = seg'.flags ∧ seg.data = seg'.data
  sending : ep.sending → ep'.sending
  finished : ep.finished → ep'.finished

/-- What a segment does on the side that receives, in the established state. -/
structure Receives (c : Control) (payload : List UInt8) (ep ep' : TcpEndpoint) : Prop where
  rcvBuf : ep'.rcvBuf = (ep.takeData c payload).1.rcvBuf
  data : c.has Flags.fin = false →
    ep'.rcvNxt = (ep.takeData c payload).1.rcvNxt ∧ ep'.state = .established
  fin : c.has Flags.fin = true →
    ep'.rcvNxt = (ep.takeData c payload).1.rcvNxt + 1 ∧ ep'.state = .closeWait

/-- An endpoint takes a segment while it is ESTABLISHED. -/
lemma established_ok {ε : Type}
    (hstate : ep.state = .established)
    (h : (ep.processSegment now c payload : Outcome ε _) = .ok (ep', pending)) :
    Hears ep ep' ∧ Receives c payload ep ep' := by
  obtain ⟨-, ep₁, hacked, hretx, -, heq⟩ :=
    (established_cases (ε := ε) now c payload hstate).resolve_right
    fun hno => nomatch hno.2.symm.trans h
  have hmem (seg : RetxSegment) (hseg : seg ∈ ep₁.retx) : seg ∈ ep.retx := by
    rw [hretx] at hseg
    split at hseg
    next => exact (popAcked_suffix _ _ _ _).subset hseg
    next => exact hseg
  have hfinished : ¬ ep.finished := by
    intro hf
    exact not_sending_of_finished hf (.inl hstate)
  have hdata : (ep.takeData c payload).1.sndNxt = ep.sndNxt ∧
    (ep.takeData c payload).1.state = ep.state := by
    unfold takeData
    split <;> exact ⟨rfl, rfl⟩
  refine ⟨⟨?_, fun seg hseg => ⟨seg, hmem seg ?_, rfl, rfl, rfl⟩, fun _ => ?_,
    fun hf => absurd hf hfinished⟩, ?_⟩
  · grind [Acked]
  · grind
  · grind [Acked, sending]
  · constructor <;> grind [Acked]

lemma closeWait_ok {ε : Type}
    (hstate : ep.state = .closeWait)
    (h : (ep.processSegment now c payload : Outcome ε _) = .ok (ep', pending)) :
    ep' = (ep.takeData c payload).1 := by
  unfold processSegment at h
  rw [hstate] at h
  have hpair : ep.takeData c payload = (ep', pending) := Outcome.ok.inj h
  rw [hpair]

/-- The side that sends, in every state it can be in once it is connected. -/
lemma processSegment_hears {ε : Type}
    (hstate : ep.sending ∨ ep.finished)
    (h : (ep.processSegment now c payload : Outcome ε _) = .ok (ep', pending)) : Hears ep ep' := by
  by_cases hest : ep.state = .established
  · exact (established_ok hest h).1
  · -- only an established endpoint looks at the acknowledgement
    obtain ⟨hnxt, hretx, hsend, hfin⟩ : ep'.sndNxt = ep.sndNxt ∧ ep'.retx = ep.retx ∧
        (ep.sending → ep'.sending) ∧ (ep.finished → ep'.finished) := by
      unfold processSegment takeFin takeData at h
      unfold sending finished at *
      grind
    exact ⟨hnxt, fun seg hseg => ⟨seg, hretx ▸ hseg, rfl, rfl, rfl⟩, hsend, hfin⟩

end TcpEndpoint

/-! ## The system -/

/-- Two endpoints, the segments of `a` that are on their way, what was passed to `send` on
`a` and what was taken by `recv` on `b`. -/
structure Stream where
  a : TcpEndpoint
  b : TcpEndpoint
  wire : List Segment
  sent : List UInt8
  taken : List UInt8
  deriving DecidableEq, Repr

/-- What can happen: calls on `a`, timer ticks, a segment that comes to `a`, what the network
does with the segments of `a`, and `recv` on `b`. -/
inductive Move where
  | send (now : UInt64) (data : List UInt8)
  | close
  | tick (now : UInt64)
  | hear (now : UInt64) (c : Control) (payload : List UInt8)
  | deliver (now : UInt64) (i : Nat)
  | lose (i : Nat)
  | recv (len : Nat)
  deriving DecidableEq, Repr

namespace Stream

/-- `a` puts a segment on the wire. -/
def emit (s : Stream) (a : TcpEndpoint) (c : Control) (data : List UInt8) : Option Stream :=
  (transmits a c data).map fun seg => { s with a, wire := s.wire ++ seg.toList }

/-- One move; none if the call does not come back. A segment that is delivered stays on the
wire: it may come again. -/
def step : Move → Stream → Option Stream
  | .send now data, s =>
    match s.a.send now data with
    | none => some s
    | some (a, c) => { s with sent := s.sent ++ data }.emit a c data
  | .close, s =>
    match s.a.close with
    | (a, none) => some { s with a }
    | (a, some fin) => s.emit a fin []
  | .tick now, s =>
    match s.a.retransmit now with
    | (a, none) => some { s with a }
    | (a, some (c, data)) => s.emit a c data
  | .hear now c payload, s =>
    match (s.a.processSegment now c payload : Outcome Empty _) with
    | .ok (a, _) => some { s with a }
    | _ => none
  | .deliver now i, s =>
    match s.wire[i]? with
    | none => some s
    | some seg =>
      match (s.b.processSegment now seg.1 seg.2 : Outcome Empty _) with
      | .ok (b, _) => some { s with b }
      | _ => none
  | .lose i, s => some { s with wire := s.wire.eraseIdx i }
  | .recv len, s =>
    match s.b.recv len with
    | (.ok bytes, b) => some { s with b, taken := s.taken ++ bytes }
    | (_, b) => some { s with b }

/-- What `b` has delivered is a prefix of what was sent. -/
def Intact (s : Stream) : Prop := s.taken ++ s.b.rcvBuf <+: s.sent

instance (s : Stream) : Decidable s.Intact := inferInstanceAs (Decidable (_ <+: _))

/-- Fewer than 2³¹ bytes are outstanding: neither the segments on the wire or in the queue nor
the byte `b` waits for lie farther back, once the new data is sent. -/
def Bounded : Move → Stream → Prop
  | .send _ data, s =>
    (∀ seg ∈ s.wire, (s.a.sndNxt - seg.1.seq).toNat + data.length < 2 ^ 31) ∧
    (∀ seg ∈ s.a.retx, (s.a.sndNxt - seg.seq).toNat + data.length < 2 ^ 31) ∧
    (s.a.sndNxt - s.b.rcvNxt).toNat + data.length < 2 ^ 31
  | _, _ => True

/-- A FIN that comes to the established `b` comes in order. -/
def FinInOrder : Move → Stream → Prop
  | .deliver _ i, s => ∀ seg ∈ s.wire[i]?, s.b.state = .established → seg.1.has Flags.fin = true →
    seg.1.seq = s.b.rcvNxt
  | _, _ => True

instance : (m : Move) → (s : Stream) → Decidable (Bounded m s)
  | .send _ _, _ => inferInstanceAs (Decidable (_ ∧ _))
  | .close, _ | .tick _, _ | .hear _ _ _, _ | .deliver _ _, _ | .lose _, _ | .recv _, _ =>
    inferInstanceAs (Decidable True)

instance : (m : Move) → (s : Stream) → Decidable (FinInOrder m s)
  | .deliver _ i, s => inferInstanceAs (Decidable (∀ seg ∈ s.wire[i]?, _))
  | .close, _ | .tick _, _ | .hear _ _ _, _ | .send _ _, _ | .lose _, _ | .recv _, _ =>
    inferInstanceAs (Decidable True)

/-- A segment from before the start: it ends where `a` stands now, or before. -/
def Old (a : TcpEndpoint) (seq : UInt32) (flags : UInt8) (data : List UInt8) : Prop :=
  data.length ≤ (a.sndNxt - seq).toNat ∧ (a.sndNxt - seq).toNat < 2 ^ 31 ∧
    (flags &&& Flags.fin != 0) = false

/-- Two endpoints that are connected, with everything received that was sent. There may be
older segments about. -/
structure Start (s : Stream) : Prop where
  a : s.a.state = .established
  b : s.b.state = .established
  next : s.a.sndNxt = s.b.rcvNxt
  received : s.taken ++ s.b.rcvBuf = s.sent
  retx : ∀ seg ∈ s.a.retx, Old s.a seg.seq seg.flags seg.data
  wire : ∀ seg ∈ s.wire, Old s.a seg.1.seq seg.1.flags seg.2

/-! ## The invariant

Byte `i` of the stream stands at position `2 ^ 31 + i`, so that segments from before the
start have positions too. `old` is the position of the first byte sent after the start. -/

/-- The data belongs at position `x`: it is not too far back, and unless it is from before the
start it is what was sent. -/
structure Placed (origin : UInt32) (old : Nat) (sent : List UInt8) (x : Nat) (seq : UInt32)
    (data : List UInt8) : Prop where
  seq : seq = seqAt origin x
  inside : x + data.length ≤ 2 ^ 31 + sent.length
  recent : sent.length < x
  data : old ≤ x → data = (sent.drop (x - 2 ^ 31)).take data.length

section Placed

variable {origin : UInt32} {old x : Nat} {sent data : List UInt8} {seq : UInt32}

/-- More is sent, and the data does not lie too far back then. -/
lemma Placed.append (h : Placed origin old sent x seq data) (hold : 2 ^ 31 ≤ old)
    {more : List UInt8}
    (hmore : (seqAt origin (2 ^ 31 + sent.length) - seq).toNat + more.length < 2 ^ 31) :
    Placed origin old (sent ++ more) x seq data := by
  have hin := h.inside
  have hrec := h.recent
  rw [h.seq, seqAt_sub_toNat origin (by omega) (by omega)] at hmore
  refine ⟨h.seq, by grind, by grind, fun hx => ?_⟩
  · have hdrop : x - 2 ^ 31 ≤ sent.length := by omega
    have htake : data.length ≤ (sent.drop (x - 2 ^ 31)).length := by
      rw [length_drop]
      omega
    rw [drop_append_of_le_length hdrop, take_append_of_le_length htake]
    exact h.data hx

/-- A front of the data belongs there too. -/
lemma Placed.take (h : Placed origin old sent x seq data) (k : Nat) :
    Placed origin old sent x seq (data.take k) := by
  have hin := h.inside
  refine ⟨h.seq, ?_, h.recent, fun hx => ?_⟩
  · rw [length_take]
    omega
  · conv_lhs => rw [h.data hx]
    rw [take_take, length_take]

/-- The sequence number tells the position. -/
lemma Placed.position {y : Nat} (h : Placed origin old sent x seq data)
    (hseq : seq = seqAt origin y) (hlow : y < x + 2 ^ 32)
    (hhigh : 2 ^ 31 + sent.length < y + 2 ^ 32) : x = y := by
  have hin := h.inside
  exact seqAt_inj (h.seq.symm.trans hseq) (by omega) hlow

end Placed

/-- The invariant of a stream. -/
structure Inv (origin : UInt32) (old : Nat) (s : Stream) : Prop where
  start : 2 ^ 31 ≤ old
  /-- `snd_nxt` is the end of the stream, or one more once the FIN is sent. -/
  next : (s.a.sending ∧ s.a.sndNxt = seqAt origin (2 ^ 31 + s.sent.length)) ∨ s.a.finished
  retx : ∀ seg ∈ s.a.retx, (seg.flags &&& Flags.fin != 0) = false ∧
    ∃ x, Placed origin old s.sent x seg.seq seg.data
  wire : ∀ seg ∈ s.wire,
    (seg.1.has Flags.fin = false ∧ ∃ x, Placed origin old s.sent x seg.1.seq seg.2) ∨
    (s.a.finished ∧ seg.1.seq = seqAt origin (2 ^ 31 + s.sent.length) ∧ seg.2 = [])
  /-- `b` has delivered the first `d` bytes and waits for the next, or for nothing. -/
  received : ∃ d, s.taken ++ s.b.rcvBuf = s.sent.take d ∧ d ≤ s.sent.length ∧
    s.sent.length < d + 2 ^ 31 ∧ old ≤ 2 ^ 31 + d ∧
    ((s.b.state = .established ∧ s.b.rcvNxt = seqAt origin (2 ^ 31 + d)) ∨
      (s.b.state = .closeWait ∧ s.a.finished ∧ d = s.sent.length ∧
        s.b.rcvNxt = seqAt origin (2 ^ 31 + d + 1)))

lemma Inv.intact {origin : UInt32} {old : Nat} {s : Stream} (h : Inv origin old s) : s.Intact := by
  obtain ⟨d, hd, -⟩ := h.received
  unfold Intact
  rw [hd]
  exact take_prefix d s.sent

/-- The invariant holds at the start. -/
lemma Start.inv {s : Stream} (h : Start s) : ∃ origin old, Inv origin old s := by
  let y := 2 ^ 31 + s.sent.length
  let origin := s.a.sndNxt - ofNat y
  have hnext : s.a.sndNxt = seqAt origin y := by
    show s.a.sndNxt = s.a.sndNxt - UInt32.ofNat y + UInt32.ofNat y
    rw [UInt32.sub_add_cancel]
  have hplaced {seq : UInt32} {flags : UInt8} {data : List UInt8} (hold : Old s.a seq flags data) :
      ∃ x, Placed origin y s.sent x seq data := by
    obtain ⟨hlen, hdist, -⟩ := hold
    rw [hnext] at hlen hdist
    have hseq : seq = seqAt origin (y - (seqAt origin y - seq).toNat) := eq_seqAt_of_sub (by omega)
    refine ⟨y - (seqAt origin y - seq).toNat, hseq, by omega, by omega, fun hx => ?_⟩
    -- the data of a segment that begins where the stream begins is empty
    have hnil : data = [] := eq_nil_of_length_eq_zero (by omega)
    rw [hnil]
    rfl
  refine ⟨origin, y, le_add_right _ _, .inl ⟨.inl h.a, hnext⟩, ?_, ?_, ?_⟩
  · exact fun seg hseg => ⟨(h.retx seg hseg).2.2, hplaced (h.retx seg hseg)⟩
  · exact fun seg hseg => .inl ⟨(h.wire seg hseg).2.2, hplaced (h.wire seg hseg)⟩
  · refine ⟨s.sent.length, ?_, le_refl _, by omega, le_refl _, .inl ⟨h.b, ?_⟩⟩
    · rw [h.received, take_length]
    · rw [← h.next, hnext]

/-! ## One move -/

section Step

variable {origin : UInt32} {old : Nat} {s s' : Stream} {now : UInt64} {pending : Option Control}
  {payload : List UInt8} {c : Control} {a b : TcpEndpoint}

/-- A segment goes out: it is on the wire, in part or whole, or it is not. -/
lemma emit_eq {data : List UInt8} (h : s.emit a c data = some s') :
    ∃ out, s' = { s with a, wire := s.wire ++ out } ∧ ∀ seg ∈ out, seg.1 = c ∧
      ∃ k, seg.2 = data.take k := by
  obtain ⟨out, hout, rfl⟩ := map_eq_some_iff.mp h
  refine ⟨out.toList, rfl, fun seg hseg => ?_⟩
  exact transmits_eq hout seg (mem_toList.mp hseg)

variable (hinv : Inv origin old s)

include hinv

/-- While `a` may send, `snd_nxt` is the end of the stream. -/
lemma Inv.of_sending (hsending : s.a.sending) :
    ¬ s.a.finished ∧ s.a.sndNxt = seqAt origin (2 ^ 31 + s.sent.length) := by
  have hnot : ¬ s.a.finished := fun hf => not_sending_of_finished hf hsending
  exact ⟨hnot, hinv.next.elim And.right fun hf => absurd hf hnot⟩

/-- `send`: the data is put behind what was sent. -/
lemma Inv.send {data : List UInt8}
    (hbound : Bounded (.send now data) s) (h : step (.send now data) s = some s') :
    Inv origin old s' := by
  dsimp only [step] at h
  cases hsend : s.a.send now data with
  | none =>
    rw [hsend] at h
    cases h
    exact hinv
  | some r =>
    obtain ⟨a, c⟩ := r
    rw [hsend] at h
    obtain ⟨out, rfl, hout⟩ := emit_eq h
    unfold send at hsend
    split at hsend
    next => cases hsend
    next hstate =>
      cases hsend
      have hsending : s.a.sending := by
        by_contra hno
        exact hstate ⟨fun h => hno (.inl h), fun h => hno (.inr h)⟩
      obtain ⟨hnot, hnext⟩ := hinv.of_sending hsending
      obtain ⟨hwire, hretx, hrcv⟩ := hbound
      rw [hnext] at hwire hretx hrcv
      obtain ⟨d, htaken, hd, hdT, hold, hb⟩ := hinv.received
      -- `b` is still waiting for data
      have hb : s.b.state = .established ∧ s.b.rcvNxt = seqAt origin (2 ^ 31 + d) :=
        hb.elim id fun h => absurd h.2.1 hnot
      rw [hb.2, seqAt_sub_toNat origin (by omega) (by omega)] at hrcv
      have hnew : Placed origin old (s.sent ++ data) (2 ^ 31 + s.sent.length) s.a.sndNxt data := by
        refine ⟨hnext, by grind, by grind, fun _ => ?_⟩
        rw [Nat.add_sub_cancel_left, drop_left, take_length]
      have hlen : (s.sent ++ data).length = s.sent.length + data.length := length_append
      refine ⟨hinv.start, .inl ⟨hsending, ?_⟩, ?_, ?_, d, ?_, by grind, by grind, hold, .inl hb⟩
      · show s.a.sndNxt + ofNat data.length = seqAt origin (2 ^ 31 + (s.sent ++ data).length)
        rw [hlen, ← add_assoc, seqAt_add, hnext]
      · intro seg hseg
        rcases mem_append.mp hseg with hseg | hseg
        · obtain ⟨hfin, x, hx⟩ := hinv.retx seg hseg
          exact ⟨hfin, x, hx.append hinv.start (hretx seg hseg)⟩
        · rw [mem_singleton.mp hseg]
          exact ⟨show ((Flags.ack ||| psh) &&& fin != 0) = false by decide, _, hnew⟩
      · intro seg hseg
        rcases mem_append.mp hseg with hseg | hseg
        · rcases hinv.wire seg hseg with ⟨hfin, x, hx⟩ | ⟨hf, -⟩
          · exact .inl ⟨hfin, x, hx.append hinv.start (hwire seg hseg)⟩
          · exact absurd hf hnot
        · obtain ⟨hc, k, hk⟩ := hout seg hseg
          refine .inl ⟨?_, 2 ^ 31 + s.sent.length, ?_⟩
          · rw [hc]
            exact show ((Flags.ack ||| psh) &&& fin != 0) = false by decide
          · rw [hc, hk]
            exact hnew.take k
      · show s.taken ++ s.b.rcvBuf = (s.sent ++ data).take d
        rw [take_append_of_le_length hd, htaken]

/-- Moves that leave both streams alone keep the invariant, if what is new on the wire is
placed. -/
lemma Inv.of_sender {out : List Segment}
    (hears : TcpEndpoint.Hears s.a a)
    (hout : ∀ seg ∈ out, seg.1.has fin = false ∧ ∃ x, Placed origin old s.sent x seg.1.seq seg.2) :
    Inv origin old { s with a, wire := s.wire ++ out } := by
  refine ⟨hinv.start, ?_, ?_, ?_, ?_⟩
  · rcases hinv.next with ⟨hs, hnext⟩ | hf
    · exact .inl ⟨hears.sending hs, hears.sndNxt.trans hnext⟩
    · exact .inr (hears.finished hf)
  · intro seg hseg
    obtain ⟨seg', hmem, hseq, hflags, hdata⟩ := hears.retx seg hseg
    rw [hseq, hflags, hdata]
    exact hinv.retx seg' hmem
  · intro seg hseg
    rcases mem_append.mp hseg with hseg | hseg
    · exact (hinv.wire seg hseg).imp id fun h => ⟨hears.finished h.1, h.2⟩
    · exact .inl (hout seg hseg)
  · obtain ⟨d, htaken, hd, hdT, hold, hb⟩ := hinv.received
    exact ⟨d, htaken, hd, hdT, hold, hb.imp id fun h => ⟨h.1, hears.finished h.2.1, h.2.2⟩⟩

/-- The same, when nothing is sent. -/
lemma Inv.of_silent (hears : TcpEndpoint.Hears s.a a) :
    Inv origin old { s with a } := by
  have hnone : Inv origin old { s with a, wire := s.wire ++ [] } := hinv.of_sender hears nofun
  rwa [append_nil] at hnone

/-- `close`: a FIN is put behind the data. -/
lemma Inv.close (h : step .close s = some s') : Inv origin old s' := by
  have hfin {state : TcpState} (hsending : s.a.sending)
      (hf : { s.a with state, sndNxt := s.a.sndNxt + 1 }.finished)
      (h : s.emit { s.a with state, sndNxt := s.a.sndNxt + 1 }
        ⟨s.a.sndNxt, s.a.rcvNxt, fin ||| Flags.ack⟩ [] = some s') : Inv origin old s' := by
    obtain ⟨hnot, hnext⟩ := hinv.of_sending hsending
    obtain ⟨out, rfl, hout⟩ := emit_eq h
    refine ⟨hinv.start, .inr hf, hinv.retx, ?_, ?_⟩
    · intro seg hseg
      rcases mem_append.mp hseg with hseg | hseg
      · exact (hinv.wire seg hseg).imp id fun h => absurd h.1 hnot
      · obtain ⟨hc, k, hk⟩ := hout seg hseg
        rw [take_nil] at hk
        exact .inr ⟨hf, hc ▸ hnext, hk⟩
    · obtain ⟨d, htaken, hd, hdT, hold, hb⟩ := hinv.received
      exact ⟨d, htaken, hd, hdT, hold, hb.imp id fun h => absurd h.2.1 hnot⟩
  dsimp only [step] at h
  unfold TcpEndpoint.close at h
  cases hstate : s.a.state with
  | established =>
    rw [hstate] at h
    exact hfin (.inl hstate) (.inl rfl) h
  | closeWait =>
    rw [hstate] at h
    exact hfin (.inr hstate) (.inr (.inr (.inr (.inl rfl)))) h
  | closed | listen =>
    rw [hstate] at h
    cases h
    have hno : ¬ s.a.sending := by rintro (hs | hs) <;> exact nomatch hstate.symm.trans hs
    exact hinv.of_silent ⟨rfl, fun seg hseg => ⟨seg, hseg, rfl, rfl, rfl⟩, fun hs => absurd hs hno,
      fun _ => .inr (.inr (.inr (.inr rfl)))⟩
  | synSent | synRcvd | finWait1 | finWait2 | lastAck | closing | timeWait =>
    rw [hstate] at h
    cases h
    exact hinv

/-- The timer sends again what was sent. -/
lemma Inv.tick (h : step (.tick now) s = some s') :
    Inv origin old s' := by
  dsimp only [step] at h
  rcases s.a.retransmit_cases now with hr | ⟨oldest, rest, hretx, hr⟩
  · rw [hr] at h
    cases h
    exact hinv
  · rw [hr] at h
    obtain ⟨out, rfl, hout⟩ := emit_eq h
    have hmem : oldest ∈ s.a.retx := by
      rw [hretx]
      exact mem_cons_self
    obtain ⟨hfin, x, hx⟩ := hinv.retx oldest hmem
    refine hinv.of_sender ⟨rfl, fun seg hseg => ?_, id, id⟩ fun seg hseg => ?_
    · rcases mem_append.mp hseg with hseg | hseg
      · refine ⟨seg, ?_, rfl, rfl, rfl⟩
        rw [hretx]
        exact mem_cons_of_mem oldest hseg
      · rw [mem_singleton.mp hseg]
        exact ⟨oldest, hmem, rfl, rfl, rfl⟩
    · obtain ⟨hc, k, hk⟩ := hout seg hseg
      rw [hc, hk]
      exact ⟨hfin, x, hx.take k⟩

lemma Inv.hear
    (h : step (.hear now c payload) s = some s') : Inv origin old s' := by
  dsimp only [step] at h
  split at h
  next a pending hseg =>
    cases h
    exact hinv.of_silent (processSegment_hears (hinv.next.imp And.left id) hseg)
  next => cases h

lemma Inv.lose {i : Nat} (h : step (.lose i) s = some s') :
    Inv origin old s' := by
  cases h
  exact ⟨hinv.start, hinv.next, hinv.retx, fun seg hseg => hinv.wire seg (mem_of_mem_eraseIdx hseg),
    hinv.received⟩

/-- `recv` takes bytes off the front. -/
lemma Inv.recv {len : Nat} (h : step (.recv len) s = some s') :
    Inv origin old s' := by
  dsimp only [step] at h
  unfold TcpEndpoint.recv at h
  by_cases hempty : s.b.rcvBuf = []
  · rw [if_pos hempty] at h
    split at h
    next bytes b hr =>
      split at hr
      next =>
        cases hr
        cases h
        rw [append_nil]
        exact hinv
      next => cases hr
    next out b hr =>
      split at hr <;> · cases hr; cases h; exact hinv
  · rw [if_neg hempty] at h
    cases h
    obtain ⟨d, htaken, hrest⟩ := hinv.received
    refine ⟨hinv.start, hinv.next, hinv.retx, hinv.wire, d, ?_, hrest⟩
    rw [append_assoc, take_append_drop]
    exact htaken

/-- A data segment comes to the established `b`. -/
lemma Inv.data
    (hstate : s.b.state = .established)
    (hfin : c.has fin = false)
    (hplaced : payload = [] ∨ ∃ x, Placed origin old s.sent x c.seq payload)
    (h : (s.b.processSegment now c payload : Outcome Empty _) = .ok (b, pending)) :
    Inv origin old { s with b } := by
  obtain ⟨-, hbuf, hdata, -⟩ := established_ok hstate h
  obtain ⟨hnxt, hest⟩ := hdata hfin
  obtain ⟨d, htaken, hd, hdT, hold, hb⟩ := hinv.received
  have hwaits : s.b.rcvNxt = seqAt origin (2 ^ 31 + d) :=
    hb.elim And.right fun h => nomatch hstate.symm.trans h.1
  refine ⟨hinv.start, hinv.next, hinv.retx, hinv.wire, ?_⟩
  unfold takeData at hbuf hnxt
  by_cases htake : payload ≠ [] ∧ c.seq = s.b.rcvNxt
  · rw [if_pos htake] at hbuf hnxt
    obtain ⟨x, hx⟩ := hplaced.resolve_left htake.1
    have hin := hx.inside
    have hrec := hx.recent
    have hpos : x = 2 ^ 31 + d := hx.position (htake.2.trans hwaits) (by omega) (by omega)
    have hbytes : payload = (s.sent.drop d).take payload.length := by
      have hdata := hx.data (hpos ▸ hold)
      rwa [hpos, Nat.add_sub_cancel_left] at hdata
    have hend : d + payload.length ≤ s.sent.length := by omega
    refine ⟨d + payload.length, ?_, hend, lt_of_lt_of_le hdT (by omega), by omega,
      .inl ⟨hest, ?_⟩⟩
    · show s.taken ++ b.rcvBuf = s.sent.take (d + payload.length)
      rw [hbuf, take_add, ← htaken, ← hbytes, append_assoc]
    · show b.rcvNxt = seqAt origin (2 ^ 31 + (d + payload.length))
      rw [hnxt, ← add_assoc, seqAt_add, hwaits]
  · rw [if_neg htake] at hbuf hnxt
    refine ⟨d, ?_, hd, hdT, hold, .inl ⟨hest, hnxt.trans hwaits⟩⟩
    show s.taken ++ b.rcvBuf = s.sent.take d
    rw [hbuf]
    exact htaken

/-- The FIN comes to the established `b`, in order. -/
lemma Inv.fin
    (hstate : s.b.state = .established) (hfin : c.has fin = true)
    (hfinished : s.a.finished) (hseq : c.seq = seqAt origin (2 ^ 31 + s.sent.length))
    (horder : c.seq = s.b.rcvNxt)
    (h : (s.b.processSegment now c [] : Outcome Empty _) = .ok (b, pending)) :
    Inv origin old { s with b } := by
  obtain ⟨-, hbuf, -, hfin'⟩ := established_ok hstate h
  obtain ⟨hnxt, hclosed⟩ := hfin' hfin
  obtain ⟨d, htaken, hd, hdT, hold, hb⟩ := hinv.received
  have hwaits : s.b.rcvNxt = seqAt origin (2 ^ 31 + d) :=
    hb.elim And.right fun h => nomatch hstate.symm.trans h.1
  have hall : d = s.sent.length := by
    have hpos : 2 ^ 31 + d = 2 ^ 31 + s.sent.length :=
      seqAt_inj (hwaits.symm.trans (horder.symm.trans hseq)) (by omega) (by omega)
    omega
  unfold takeData at hbuf hnxt
  rw [if_neg fun h => h.1 rfl] at hbuf hnxt
  refine ⟨hinv.start, hinv.next, hinv.retx, hinv.wire, d, ?_, hd, hdT, hold,
    .inr ⟨hclosed, hfinished, hall, ?_⟩⟩
  · show s.taken ++ b.rcvBuf = s.sent.take d
    rw [hbuf]
    exact htaken
  · show b.rcvNxt = seqAt origin (2 ^ 31 + d + 1)
    rw [hnxt, seqAt_add, ← hwaits]
    rfl

/-- Once the FIN has come, nothing is taken: `b` waits for a byte after the end. -/
lemma Inv.ended
    (hstate : s.b.state = .closeWait)
    (hplaced : payload = [] ∨ ∃ x, Placed origin old s.sent x c.seq payload)
    (h : (s.b.processSegment now c payload : Outcome Empty _) = .ok (b, pending)) :
    Inv origin old { s with b } := by
  have hsame : b = s.b := by
    rw [closeWait_ok hstate h]
    refine congrArg Prod.fst (if_neg ?_)
    intro ⟨hne, hseq⟩
    obtain ⟨x, hx⟩ := hplaced.resolve_left hne
    have hin := hx.inside
    have hrec := hx.recent
    obtain ⟨d, -, hd, hdT, -, hb⟩ := hinv.received
    have hend := hb.elim (fun h => nomatch hstate.symm.trans h.1) And.right
    have hpos : x = 2 ^ 31 + d + 1 := hx.position (hseq.trans hend.2.2) (by omega) (by omega)
    omega
  rw [hsame]
  exact hinv

/-- A segment of the wire is delivered, once more or not. -/
lemma Inv.deliver {i : Nat}
    (horder : FinInOrder (.deliver now i) s) (h : step (.deliver now i) s = some s') :
    Inv origin old s' := by
  dsimp only [step] at h
  cases hget : s.wire[i]? with
  | none =>
    rw [hget] at h
    cases h
    exact hinv
  | some seg =>
    rw [hget] at h
    dsimp only at h
    have horder := horder seg hget
    have hwire := hinv.wire seg (mem_of_getElem? hget)
    have hplaced : seg.2 = [] ∨ ∃ x, Placed origin old s.sent x seg.1.seq seg.2 :=
      hwire.elim (fun h => .inr h.2) fun h => .inl h.2.2
    split at h
    next b pending hseg =>
      cases h
      obtain ⟨d, -, -, -, -, ⟨hstate, -⟩ | ⟨hstate, -⟩⟩ := hinv.received
      · by_cases hfin : seg.1.has Flags.fin = true
        · obtain ⟨hno, -⟩ | ⟨hfinished, hseq, hnil⟩ := hwire
          · exact nomatch hno.symm.trans hfin
          · rw [hnil] at hseg
            exact hinv.fin hstate hfin hfinished hseq (horder hstate hfin) hseg
        · exact hinv.data hstate (Bool.eq_false_iff.mpr hfin) hplaced hseg
      · exact hinv.ended hstate hplaced hseg
    next => cases h

/-- Every move keeps the invariant. -/
lemma Inv.step {m : Move} (h : Stream.step m s = some s')
    (hsuits : Bounded m s ∧ FinInOrder m s) : Inv origin old s' := by
  cases m with
  | send now data => exact hinv.send hsuits.1 h
  | close => exact hinv.close h
  | tick now => exact hinv.tick h
  | hear now c payload => exact hinv.hear h
  | deliver now i => exact hinv.deliver hsuits.2 h
  | lose i => exact hinv.lose h
  | recv len => exact hinv.recv h

end Step

/-! ## Runs -/

/-- The stream is intact in every state of a run in which fewer than 2³¹ bytes are outstanding
and no FIN overtakes data. -/
theorem stream_intact {s : Stream} (hstart : Start s) {moves : List Move}
    (hrun : Along step (fun m s => Bounded m s ∧ FinInOrder m s) moves s) :
    Always step Intact moves s := by
  obtain ⟨origin, old, hinv⟩ := hstart.inv
  have hall : Always step (Inv origin old) moves s :=
    always_of_along (fun _ _ _ hI hstep hP => hI.step hstep hP) hinv hrun
  exact fun moves' t hpre ht => (hall moves' t hpre ht).intact

/-- Two endpoints that have just been connected over the loopback. -/
def connected : Stream where
  a := TcpEndpoint.fresh .established ⟨.localhost, 49152⟩ ⟨.localhost, 80⟩ 100 100 500 0
  b := TcpEndpoint.fresh .established ⟨.localhost, 80⟩ ⟨.localhost, 49152⟩ 500 500 100 0
  wire := []
  sent := []
  taken := []

lemma connected_start : Start connected := ⟨rfl, rfl, rfl, rfl, nofun, nofun⟩

/-- Two segments come in the wrong order and the first is lost and sent again; then comes the
FIN. -/
def reordered : List Move :=
  [.send 0 [1], .send 0 [2], .deliver 0 1, .lose 0, .tick 9, .deliver 9 1, .deliver 9 0, .close,
    .deliver 9 2, .recv 8]

/-- Two segments that arrive in the wrong order. -/
theorem stream_intact_reordered :
    Start connected ∧ Along step (fun m s => Bounded m s ∧ FinInOrder m s) reordered connected ∧
      Always step Intact reordered connected := by
  have hrun : Along step (fun m s => Bounded m s ∧ FinInOrder m s) reordered connected := by
    decide +kernel
  exact ⟨connected_start, hrun, stream_intact connected_start hrun⟩

/-- The FIN overtakes the two bytes before it. It takes the place of the first, and the second
is then delivered as if it came first. -/
theorem fin_overtakes : Start connected ∧
    Along step Bounded [.send 0 [1], .send 0 [2], .close, .deliver 0 2, .deliver 0 1] connected ∧
    ¬ Always step Intact
      [.send 0 [1], .send 0 [2], .close, .deliver 0 2, .deliver 0 1] connected := by
  refine ⟨connected_start, by decide +kernel, fun h => ?_⟩
  have hend := h _ _ prefix_rfl (some_get (by decide +kernel)).symm
  exact absurd hend (by decide +kernel)

end Stream

end RustOs.Net
