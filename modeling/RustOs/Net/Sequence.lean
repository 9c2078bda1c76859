import RustOs.Net.Retransmission
import RustOs.Lib.Trace

/-!
# What has been acknowledged

`snd_una` should never pass `snd_nxt`, and a handshake should be completed by an
acknowledgement of the SYN alone. The code does not compare an acknowledgement with what
was sent: in `SynSent` the `ack` of any segment with SYN and ACK becomes `snd_una`, and
`process_ack` takes one that lies beyond `snd_nxt` as soon as it covers a queued segment.

`inOrder_iff` says of every sequence of segments, `send` and `close` calls when both hold
throughout.
-/

namespace RustOs.Net.TcpEndpoint

open Lib

/-- What happens to an endpoint. -/
inductive Event where
  | segment (now : UInt64) (c : Control) (payload : List UInt8)
  | send (now : UInt64) (data : List UInt8)
  | close

/-- The endpoint afterwards, if the call returns. A `send` that is refused changes nothing. -/
def step : Event → TcpEndpoint → Option TcpEndpoint
  | .segment now c payload, ep =>
    match (ep.processSegment now c payload : Outcome TcpError _) with
    | .ok (ep', _) => some ep'
    | _ => none
  | .send now data, ep => some (((ep.send now data).map (·.1)).getD ep)
  | .close, ep => some ep.close.1

/-- `snd_una` is at most `snd_nxt`. -/
def InOrder (ep : TcpEndpoint) : Prop := seqLe ep.sndUna ep.sndNxt = true

/-- The acknowledgement number of a segment. -/
def Event.ack : Event → Option UInt32
  | .segment _ c _ => some c.ack
  | _ => none

/-- If the event completes the handshake, it is a segment that acknowledges the SYN. -/
def Opens (iss : UInt32) (e : Event) (ep : TcpEndpoint) : Prop :=
  ∀ ep' ∈ step e ep, ep.state = .synSent → ep'.state = .established → e.ack = some (iss + 1)

/-- Fewer than 2³¹ bytes are outstanding after the event. -/
def Fits (e : Event) (ep : TcpEndpoint) : Prop :=
  match e with
  | .segment _ _ _ => True
  | .send now data => (ep.send now data).isSome →
      (ep.sndNxt - ep.sndUna).toNat + data.length < 2 ^ 31
  | .close => ep.close.2.isSome → (ep.sndNxt - ep.sndUna).toNat + 1 < 2 ^ 31

/-- The segments whose `ack` becomes `snd_una`: the answer to a SYN, and the acknowledgement of
queued data. -/
def Moves (c : Control) (ep : TcpEndpoint) : Prop :=
  ep.state = .synSent ∧ c.flags &&& (Flags.syn ||| Flags.ack) = Flags.syn ||| Flags.ack ∨
  ep.state = .established ∧ c.has Flags.ack = true ∧
    ∃ seg ∈ ep.retx.takeWhile (covered c.ack), seg.stop ≠ seg.seq

instance (c : Control) (ep : TcpEndpoint) : Decidable (Moves c ep) :=
  inferInstanceAs (Decidable (_ ∨ _))

/-- The acknowledgement is for what has been sent, and for all of it in the handshake. -/
def AcksSent (e : Event) (ep : TcpEndpoint) : Prop :=
  match e with
  | .segment _ c _ => Moves c ep →
      seqLe c.ack ep.sndNxt = true ∧ (ep.state = .synSent → c.ack = ep.sndNxt)
  | _ => True

/-! ## What an event does to the sequence numbers -/

lemma seqLe_add {una nxt : UInt32} {n : Nat} (h : (nxt - una).toNat + n < 2 ^ 31) :
    seqLe una (nxt + UInt32.ofNat n) = true := by
  have hsub : nxt + UInt32.ofNat n - una = nxt - una + UInt32.ofNat n := by
    rw [UInt32.sub_eq_add_neg, UInt32.sub_eq_add_neg, UInt32.add_assoc,
      UInt32.add_comm (UInt32.ofNat n), ← UInt32.add_assoc]
  refine decide_eq_true (UInt32.lt_iff_toNat_lt.mpr ?_)
  rw [hsub, UInt32.toNat_add, UInt32.toNat_ofNat']
  show _ < 2 ^ 31
  omega

/-- A segment completes a handshake that the other side began, or leaves `snd_nxt` alone and
moves `snd_una` to its `ack` or not at all. -/
lemma processSegment_sequence {ε : Type} {now : UInt64} {c : Control} {payload : List UInt8}
    {ep ep' : TcpEndpoint} {reply : Option Control}
    (h : (ep.processSegment now c payload : Outcome ε _) = .ok (ep', reply)) :
    (ep.state = .synRcvd ∧ ep'.sndUna = ep'.sndNxt ∧ ep'.state = .established) ∨
    (ep'.sndNxt = ep.sndNxt ∧ ep'.sndUna = (if Moves c ep then c.ack else ep.sndUna) ∧
      (ep'.state = .synSent → ep.state = .synSent) ∧
      (ep.state = .synSent → (ep'.state = .established ↔ Moves c ep))) := by
  cases hstate : ep.state with
  | established =>
    refine .inr ?_
    obtain ⟨-, ep₁, hleft, -, huna, heq⟩ :=
      (established_cases (ε := ε) now c payload hstate).resolve_right
      fun hno => nomatch hno.2.symm.trans h
    -- a FIN changes neither number
    have hpopped := @popAcked_acked c.ack ep.retx 0 none
    grind [Moves, takeData, Acked]
  | closeWait =>
    unfold processSegment takeData at h
    grind [Moves]
  | _ =>
    refine or_iff_not_imp_left.mpr fun hno => ?_
    unfold processSegment at h
    grind [Moves, takeFin]

/-- What one event does, as long as an endpoint in `SynSent` has sent its SYN only. -/
lemma step_sequence {iss : UInt32} {e : Event} {ep ep' : TcpEndpoint}
    (hiss : ep.state = .synSent → ep.sndNxt = iss + 1) (hin : ep.InOrder) (h : step e ep = some ep')
    (hfits : Fits e ep) :
    (ep'.InOrder ∧ Opens iss e ep ↔ AcksSent e ep) ∧
      (ep'.state = .synSent → ep'.sndNxt = iss + 1) := by
  have hopens : Opens iss e ep ↔
      (ep.state = .synSent → ep'.state = .established → e.ack = some (iss + 1)) := by
        simp [Opens, h]
  unfold InOrder AcksSent Event.ack at *
  cases e with
  | segment now c payload =>
    unfold step at h
    dsimp only at h
    split at h
    next hok =>
      cases h
      have hself : seqLe ep'.sndNxt ep'.sndNxt = true := by simp [seqLe]
      have hmoves : ep.state = .synRcvd → ¬ Moves c ep := fun hstate => by simp [Moves, hstate]
      grind [processSegment_sequence hok]
    next => cases h
  | send now data =>
    cases h
    have hsmall (hsome : (ep.send now data).isSome) := seqLe_add (hfits hsome)
    unfold send at *
    grind
  | close =>
    cases h
    have hsmall (hsome : ep.close.2.isSome) : seqLe ep.sndUna (ep.sndNxt + 1) = true :=
      seqLe_add (hfits hsome)
    unfold close sendFin at *
    grind

/-- An endpoint as `connect` makes it, or an incoming SYN. -/
def Opened (ep : TcpEndpoint) : Prop :=
  (∃ now l r, ep = newActive now l r) ∨ ∃ now l r peerSeq, ep = newChildForSyn now l r peerSeq

/-- **Nothing is acknowledged that was not sent**, throughout a sequence of segments, `send`
and `close` calls, exactly if no segment acknowledges it. -/
theorem inOrder_iff {ep : TcpEndpoint} (hep : Opened ep) (events : List Event)
    (hfits : Along step Fits events ep) :
    Always step InOrder events ep ∧ Along step (Opens ep.sndUna) events ep ↔
      Along step AcksSent events ep := by
  have hstart (iss : UInt32) (n : Nat) (hn : n < 2 ^ 31) :
    seqLe iss (iss + UInt32.ofNat n) = true :=
    seqLe_add (by rwa [UInt32.sub_self, UInt32.toNat_zero, Nat.zero_add])
  refine always_and_along_within (W := fun ep' => ep'.state = .synSent → ep'.sndNxt = ep.sndUna + 1)
    (fun e s s' hw hs h hq _ => (step_sequence hw hs h hq).2)
    (fun e s s' hw hs h hq => (step_sequence hw hs h hq).1) events ep ?_ ?_ hfits
  · rcases hep with ⟨now, l, r, rfl⟩ | ⟨now, l, r, peerSeq, rfl⟩
    · exact fun _ => rfl
    · exact nofun
  · rcases hep with ⟨now, l, r, rfl⟩ | ⟨now, l, r, peerSeq, rfl⟩
    · exact hstart _ 1 (by decide)
    · show seqLe (now.toUInt32 ^^^ 0x12345678) (now.toUInt32 ^^^ 0x12345678) = true
      simpa using hstart (now.toUInt32 ^^^ 0x12345678) 0 (by decide)

instance (e : Event) (ep : TcpEndpoint) : Decidable (Fits e ep) := by
  unfold Fits
  cases e <;> infer_instance

instance (e : Event) (ep : TcpEndpoint) : Decidable (AcksSent e ep) := by
  unfold AcksSent
  cases e <;> infer_instance

/-- A client that has sent its SYN. -/
def client : TcpEndpoint := newActive 0 ⟨.localhost, 49152⟩ ⟨.localhost, 80⟩

/-- The server answers with this acknowledgement. -/
def answer (ack : UInt32) : Event := .segment 1 ⟨7, ack, Flags.syn ||| Flags.ack⟩ []

/-- A handshake, data and a close. -/
theorem inOrder_client :
    Always step InOrder [answer (client.sndUna + 1), .send 2 [65], .close] client ∧
      Along step (Opens client.sndUna) [answer (client.sndUna + 1), .send 2 [65], .close] client :=
  (inOrder_iff (.inl ⟨_, _, _, rfl⟩) _ (by decide)).mpr (by decide)

/-- An answer opens the connection whatever it acknowledges. -/
theorem forged_answer_opens : ¬ (Always step InOrder [answer (client.sndUna + 2)] client ∧
    Along step (Opens client.sndUna) [answer (client.sndUna + 2)] client) := by
  intro ⟨_, h⟩
  exact absurd ((h _ rfl).1 _ rfl rfl rfl) (by decide)

end RustOs.Net.TcpEndpoint
