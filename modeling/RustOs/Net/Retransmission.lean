import RustOs.Net.Tcp
import RustOs.Lib.Trim

/-!
# The retransmission queue

`process_ack` takes segments off the front of the queue up to the first one that ends
after the acknowledgement. What is left is exactly what is not acknowledged, provided
that no acknowledged segment stands further back. `send` appends in order, but
`retransmit_tick` moves the oldest segment to the back, in front of which the loop then
stops. And an acknowledgement that ends inside a segment takes nothing off, so that
`snd_una` stays behind it.

`Exact` is what was meant, and `exact_iff` says of every endpoint and every
acknowledgement when it holds.
-/

namespace RustOs.Net.TcpEndpoint

open Lib List UInt32

/-- The segment ends by the acknowledgement. -/
def covered (ack : UInt32) (seg : RetxSegment) : Bool := seqLe seg.stop ack

/-- The acknowledgement leaves exactly the segments that end after it, and `snd_una`
follows it if it is new. -/
def Exact (now : UInt64) (ack : UInt32) (ep : TcpEndpoint) : Prop :=
  ∃ ep', (ep.processAck now ack : Outcome TcpError TcpEndpoint) = .ok ep'
    ∧ ep'.retx = ep.retx.filter (fun seg => !covered ack seg)
    ∧ (ack ≠ ep.sndUna → ep'.sndUna = ack)

/-- A segment with data ends by the acknowledgement. -/
def Acknowledges (ack : UInt32) (ep : TcpEndpoint) : Prop :=
  ∃ seg ∈ ep.retx, covered ack seg = true ∧ seg.stop ≠ seg.seq

/-- The queue suits an acknowledgement. -/
structure Suits (now : UInt64) (ack : UInt32) (ep : TcpEndpoint) : Prop where
  -- no segment that it covers stands behind one that it does not
  order : ep.retx.Pairwise fun a b => covered ack b = true → covered ack a = true
  whole : ack ≠ ep.sndUna → ep.Acknowledges ack
  -- the round-trip sample, from the last segment that was sent once, fits 32 bits
  sample : ep.Acknowledges ack →
    ∀ seg ∈ ((ep.retx.filter (covered ack)).filter (·.retries == 0)).getLast?,
      ep.RttFits (UInt32.ofNat (now.toNat - seg.sendTick.toNat))

/-! ## What the loop does -/

variable {ack : UInt32} (retx : List RetxSegment)

lemma popAcked_fst : ∀ acked newest,
    (popAcked ack retx acked newest).1 = retx.dropWhile (covered ack) := by
  induction retx with
  | nil => exact fun _ _ => rfl
  | cons seg retx ih =>
    intro acked newest
    rw [popAcked]
    split
    next h => rw [ih, dropWhile_cons_of_pos (p := covered ack) h]
    next h => rw [dropWhile_cons_of_neg (p := covered ack) h]

lemma satAdd_eq_zero {a b : UInt32} : satAdd a b = 0 ↔ a = 0 ∧ b = 0 := by
  simp only [satAdd, u32Max, ← UInt32.toNat_inj, UInt32.toNat_ofNat', UInt32.toNat_zero]
  omega

/-- Nothing is counted exactly if the segments taken off have no data. -/
lemma popAcked_acked : ∀ acked newest,
    (popAcked ack retx acked newest).2.1 = 0
      ↔ acked = 0 ∧ ∀ seg ∈ retx.takeWhile (covered ack), seg.stop = seg.seq := by
  induction retx with
  | nil => exact fun acked _ => ⟨fun h => ⟨h, nofun⟩, fun h => h.1⟩
  | cons seg retx ih =>
    intro acked newest
    rw [popAcked]
    split
    next h =>
      rw [ih, satAdd_eq_zero, takeWhile_cons_of_pos (p := covered ack) h, forall_mem_cons,
        RetxSegment.stop,
        add_eq_left, and_assoc]
    next h =>
      rw [takeWhile_cons_of_neg (p := covered ack) h]
      exact ⟨fun h => ⟨h, nofun⟩, fun h => h.1⟩

/-- The sample is that of the last segment taken off that was sent once. -/
lemma popAcked_newest : ∀ acked newest,
    (popAcked ack retx acked newest).2.2
      = ((((retx.takeWhile (covered ack)).filter (·.retries == 0)).getLast?).map
          (·.sendTick)).or newest := by
  induction retx with
  | nil => exact fun _ _ => rfl
  | cons seg retx ih =>
    intro acked newest
    rw [popAcked]
    split
    next h =>
      rw [ih, takeWhile_cons_of_pos (p := covered ack) h]
      by_cases hr : seg.retries = 0
      · rw [if_pos hr, filter_cons_of_pos (by simp [hr]), getLast?_cons]
        cases ((retx.takeWhile _).filter (·.retries == 0)).getLast? <;> rfl
      · rw [if_neg hr, filter_cons_of_neg (by simp [hr])]
    next h =>
      rw [takeWhile_cons_of_neg (p := covered ack) h]
      rfl

/-! ## When the queue is exact -/

/-- In a queue in order the loop counts something exactly if a segment with data is
acknowledged, and then takes the sample of `Suits`. -/
lemma popAcked_ne_zero {ep : TcpEndpoint}
    (h : ep.retx.Pairwise fun a b => covered ack b = true → covered ack a = true) :
    (popAcked ack ep.retx 0 none).2.1 ≠ 0 ↔ ep.Acknowledges ack := by
  rw [ne_eq, popAcked_acked, takeWhile_eq_filter h]
  simp [Acknowledges]

/-- If what is acknowledged comes first, the last sample decides. -/
lemma ackFits_iff {ep : TcpEndpoint} (now : UInt64)
    (h : ep.retx.Pairwise fun a b => covered ack b = true → covered ack a = true) :
    ep.AckFits now ack ↔ (ep.Acknowledges ack →
      ∀ seg ∈ ((ep.retx.filter (covered ack)).filter (·.retries == 0)).getLast?,
        ep.RttFits (ofNat (now.toNat - seg.sendTick.toNat))) := by
  unfold AckFits
  rw [popAcked_ne_zero h, popAcked_newest, takeWhile_eq_filter h, Option.or_none]
  refine imp_congr_right fun _ => ?_
  cases (filter _ (filter _ ep.retx)).getLast? <;> simp

/-- After an acknowledgement the queue holds exactly the segments that are not
acknowledged, and `snd_una` is up to date, exactly if the queue suits it. -/
theorem exact_iff (now : UInt64) (ack : UInt32) (ep : TcpEndpoint) :
    ep.Exact now ack ↔ ep.Suits now ack := by
  rcases processAck_cases (ε := TcpError) now ack ep with
    ⟨hfits, ep', heq, -, hretx, huna⟩ | ⟨hfits, hpanic⟩
  · rw [popAcked_fst] at hretx
    constructor
    · intro ⟨ep'', heq', hexact, hnew⟩
      cases heq.symm.trans heq'
      have horder := (dropWhile_eq_filter_iff ep.retx).mp (hretx.symm.trans hexact)
      refine ⟨horder, fun hne => ?_, (ackFits_iff now horder).mp hfits⟩
      refine (popAcked_ne_zero horder).mp fun hzero => hne ?_
      rw [if_pos hzero] at huna
      exact (hnew hne).symm.trans huna
    · intro h
      refine ⟨ep', heq, hretx.trans ((dropWhile_eq_filter_iff _).mpr h.order), fun hne => ?_⟩
      rw [huna, if_neg ((popAcked_ne_zero h.order).mpr (h.whole hne))]
  · refine iff_of_false (fun ⟨_, heq, _⟩ => nomatch hpanic.symm.trans heq) fun h => hfits ?_
    exact (ackFits_iff now h.order).mpr h.sample

/-- A connection on which two bytes are sent one by one, and the first a second time. The
acknowledgement of the first finds the second at the front of the queue. -/
theorem exact_fails_after_tick : ∃ ep ep₁ ep₂ c₁ c₂,
    ((newActive 0 ⟨.any, 1⟩ ⟨.any, 2⟩).processSegment 0
        ⟨7, 0xCAFEBABF, Flags.syn ||| Flags.ack⟩ [] : Outcome TcpError _)
      = .ok (ep, some ep.pendingAck)
    ∧ ep.send 0 [1] = some (ep₁, c₁) ∧ ep₁.send 0 [2] = some (ep₂, c₂)
    ∧ seqLe (ep₂.retransmit 2).1.sndUna 0xCAFEBAC0 = true
    ∧ seqLe 0xCAFEBAC0 (ep₂.retransmit 2).1.sndNxt = true
    ∧ ¬(ep₂.retransmit 2).1.Exact 3 0xCAFEBAC0 := by
  refine ⟨_, _, _, _, _, rfl, rfl, rfl, by decide, by decide, fun ⟨ep', heq, hretx, _⟩ => ?_⟩
  cases heq
  exact absurd hretx (by decide)

end RustOs.Net.TcpEndpoint
