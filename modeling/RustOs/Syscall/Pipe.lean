import RustOs.Lib.Outcome
import RustOs.Lib.Ring
import RustOs.Lib.Slots

/-!
# Pipes

`syscall/pipe.rs`: a table of pipes, each a ring of 4096 bytes with two ends. An end is a
flag that is cleared once and not counted; a pipe with both flags cleared leaves its slot,
and the next pipe takes the first slot that is free.

Of a slot the modules above need three things: whether an end is open (`isOpen`), what is
buffered (`buffered`), and that a slot is not touched by calls on another one.
-/

namespace RustOs.Syscall

open Lib Slots List Option Bool

/-- `PIPE_BUF_SIZE`. -/
def pipeBufSize : Nat := 4096

/-- `MAX_PIPES`. -/
def maxPipes : Nat := 64

/-- The two ends of a pipe. -/
inductive End where
  | read
  | write
  deriving DecidableEq, Repr

/-- `Pipe`. -/
structure Pipe where
  ring : Ring UInt8 pipeBufSize
  readOpen : Bool
  writeOpen : Bool
  deriving DecidableEq

namespace Pipe

/-- `Pipe::new`. -/
def new : Pipe := ⟨.new pipeBufSize (by decide) 0, true, true⟩

variable (p : Pipe)

/-- Is the end open? -/
def isOpen : End → Bool
  | .read => p.readOpen
  | .write => p.writeOpen

/-- `close_read` and `close_write`. -/
def close : End → Pipe
  | .read => { p with readOpen := false }
  | .write => { p with writeOpen := false }

/-- `is_closed`. -/
def isClosed : Bool := !p.readOpen && !p.writeOpen

/-- The bytes in the pipe. -/
def buffered : List UInt8 := p.ring.contents 0

/-- `Pipe::read`. -/
def read (count : Nat) : List UInt8 × Pipe :=
  ((p.ring.pop 0 count).1, { p with ring := (p.ring.pop 0 count).2 })

/-- `Pipe::write`, and how many bytes there was room for. -/
def write (data : List UInt8) : Nat × Pipe :=
  (min data.length (pipeBufSize - p.ring.count), { p with ring := p.ring.push data })

variable (p : Pipe)

lemma isOpen_close (e e' : End) :
    (p.close e).isOpen e' = if e' = e then false else p.isOpen e' := by
  cases e <;> cases e' <;> rfl

@[simp] lemma buffered_close (e : End) : (p.close e).buffered = p.buffered := by
  cases e <;> rfl

lemma isClosed_iff : p.isClosed = true ↔ ∀ e, p.isOpen e = false := by
  unfold isClosed
  constructor
  · intro h e
    obtain ⟨hr, hw⟩ := (and_eq_true _ _).mp h
    cases e with
    | read => exact (not_eq_true' _).mp hr
    | write => exact (not_eq_true' _).mp hw
  · intro h
    have hr : p.readOpen = false := h .read
    have hw : p.writeOpen = false := h .write
    rw [hr, hw]
    rfl

/-- Reading takes bytes from the front. -/
lemma read_append (count : Nat) :
    (p.read count).1 ++ (p.read count).2.buffered = p.buffered :=
  Ring.pop_append 0 p.ring count

/-- Writing appends as many bytes as it says. -/
lemma buffered_write (data : List UInt8) :
    (p.write data).2.buffered = p.buffered ++ data.take (p.write data).1 := by
  have hpush := Ring.contents_push 0 p.ring data
  rwa [take_eq_take_min, Nat.min_comm] at hpush

/-! ### A bounded queue -/

/-- The calls on a pipe. -/
inductive Call where
  | write (data : List UInt8)
  | read (len : Nat)

/-- A pipe, with the bytes it has accepted and the bytes that have been read. -/
structure Log where
  pipe : Pipe
  accepted : List UInt8
  taken : List UInt8

/-- A call. Of a write that returns `n`, the first `n` bytes are accepted. -/
def Log.step (l : Log) : Call → Log
  | .write data =>
    ⟨(l.pipe.write data).2, l.accepted ++ data.take (l.pipe.write data).1, l.taken⟩
  | .read len => ⟨(l.pipe.read len).2, l.accepted, l.taken ++ (l.pipe.read len).1⟩

/-- What has been read and what is buffered is what was accepted. -/
lemma Log.step_balance {l : Log} (h : l.taken ++ l.pipe.buffered = l.accepted) (c : Call) :
    (l.step c).taken ++ (l.step c).pipe.buffered = (l.step c).accepted := by
  cases c with
  | write data =>
    show l.taken ++ (l.pipe.write data).2.buffered = _
    rw [buffered_write, ← append_assoc, h]
    rfl
  | read len =>
    show l.taken ++ (l.pipe.read len).1 ++ (l.pipe.read len).2.buffered = l.accepted
    rw [append_assoc, read_append, h]

/-- The pipe is a queue of 4096 bytes. -/
structure Log.Fifo (l : Log) : Prop where
  order : l.taken <+: l.accepted
  count : l.taken.length + l.pipe.ring.count = l.accepted.length
  bound : l.pipe.ring.count ≤ 4096
  write : ∀ data, (l.pipe.write data).1 = min data.length (4096 - l.pipe.ring.count)
  read : ∀ len, (l.pipe.read len).1.length = min len l.pipe.ring.count

/-- After every sequence of calls on a fresh pipe, it is one. -/
theorem fifo_run (calls : List Call) : (calls.foldl Log.step ⟨new, [], []⟩).Fifo := by
  have hbalance : ∀ l : Log, l.taken ++ l.pipe.buffered = l.accepted →
      (calls.foldl Log.step l).taken ++ (calls.foldl Log.step l).pipe.buffered =
        (calls.foldl Log.step l).accepted := by
    induction calls with
    | nil => exact fun l h => h
    | cons c calls ih => exact fun l h => ih _ (l.step_balance h c)
  have h := hbalance ⟨new, [], []⟩ rfl
  generalize calls.foldl Log.step ⟨new, [], []⟩ = l at h
  have hlen := congrArg length h
  rw [length_append, buffered, Ring.contents_length] at hlen
  exact ⟨⟨_, h⟩, hlen, l.pipe.ring.fits, fun _ => rfl, fun _ => Ring.readLoop_length ..⟩

end Pipe

/-- `PipeError`. -/
inductive PipeError where
  | invalidPipe
  | wouldBlock
  | brokenPipe
  deriving DecidableEq, Repr

/-- `PipeTable`. -/
structure PipeTable where
  pipes : List (Option Pipe)
  deriving DecidableEq

namespace PipeTable

/-- `PipeTable::new`. -/
def new : PipeTable := ⟨[]⟩

/-- The pipe with this id. -/
def get (t : PipeTable) (id : Nat) : Option Pipe := Slots.get t.pipes id

variable (t : PipeTable)

/-- `create`. -/
def create : Option (Nat × PipeTable) :=
  match t.pipes.findIdx? Option.isNone with
  | some i => some (i, ⟨t.pipes.set i (some .new)⟩)
  | none =>
    if t.pipes.length < maxPipes then some (t.pipes.length, ⟨t.pipes ++ [some .new]⟩) else none

/-- What is done with `get_mut`: change the pipe, if there is one. -/
def update (id : Nat) (f : Pipe → Pipe) : PipeTable :=
  match t.get id with
  | some p => ⟨t.pipes.set id (some (f p))⟩
  | none => t

/-- `cleanup`. -/
def cleanup (id : Nat) : PipeTable :=
  match t.get id with
  | some p => if p.isClosed then ⟨t.pipes.set id none⟩ else t
  | none => t

/-- Close one end, and the pipe with it if it was the last. -/
def closeEnd (e : End) (id : Nat) : PipeTable :=
  (t.update id fun p => p.close e).cleanup id

/-- `pipe_close_read`. -/
def pipeCloseRead (id : Nat) : PipeTable := t.closeEnd .read id

/-- `pipe_close_write`. -/
def pipeCloseWrite (id : Nat) : PipeTable := t.closeEnd .write id

/-- `pipe_read`. -/
def pipeRead (id count : Nat) : Outcome PipeError (List UInt8) × PipeTable :=
  match t.get id with
  | none => (.err .invalidPipe, t)
  | some p =>
    if p.ring.count = 0 then
      if p.writeOpen then (.err .wouldBlock, t) else (.ok [], t)
    else (.ok (p.read count).1, t.update id fun p => (p.read count).2)

/-- `pipe_write`. -/
def pipeWrite (id : Nat) (data : List UInt8) : Outcome PipeError Nat × PipeTable :=
  match t.get id with
  | none => (.err .invalidPipe, t)
  | some p =>
    if !p.readOpen then (.err .brokenPipe, t)
    else
      let t := t.update id fun p => (p.write data).2
      if (p.write data).1 = 0 ∧ data ≠ [] then (.err .wouldBlock, t) else (.ok (p.write data).1, t)

/-! ## What the calls do to a slot -/

/-- Is the end of this pipe open? A slot that is free has no open ends. -/
def isOpen (t : PipeTable) (e : End) (id : Nat) : Bool := (t.get id).any (·.isOpen e)

/-- The bytes in this pipe. -/
def buffered (t : PipeTable) (id : Nat) : List UInt8 := ((t.get id).map Pipe.buffered).getD []

section

variable {t : PipeTable} {id : Nat} {p : Pipe} (f : Pipe → Pipe) (i : Nat)

lemma get_update :
    (t.update id f).get i = if i = id then (t.get id).map f else t.get i := by
  unfold update
  cases h : t.get id with
  | none =>
    by_cases hi : i = id
    · rw [if_pos hi, hi, h]
      rfl
    · rw [if_neg hi]
  | some p =>
    by_cases hi : i = id
    · rw [if_pos hi, hi]
      exact get_set_self h
    · rw [if_neg hi]
      exact get_set_ne _ hi

/-- A pipe goes once both ends are closed. -/
lemma get_cleanup : (t.cleanup id).get i =
    if i = id then (t.get id).filter fun p => !p.isClosed else t.get i := by
  unfold cleanup
  cases h : t.get id with
  | none =>
    by_cases hi : i = id
    · rw [if_pos hi, hi, h]
      rfl
    · rw [if_neg hi]
  | some p =>
    have hlt : id < t.pipes.length := (List.getElem?_eq_some_iff.mp (get_eq_some.mp h)).1
    by_cases hi : i = id
    · rw [if_pos hi, hi]
      dsimp only
      by_cases hclosed : p.isClosed = true
      · rw [if_pos hclosed, filter_some, hclosed]
        show (t.pipes.set id none)[id]?.join = _
        rw [getElem?_set_self hlt]
        rfl
      · rw [if_neg hclosed, filter_some, eq_false_iff.mpr hclosed]
        exact h
    · dsimp only
      split
      next => exact get_set_ne _ hi
      next => rfl

lemma get_closeEnd (e : End) (i : Nat) : (t.closeEnd e id).get i =
    if i = id then ((t.get id).map (·.close e)).filter fun p => !p.isClosed else t.get i := by
  unfold closeEnd
  rw [get_cleanup, get_update, get_update, if_pos rfl]
  by_cases hi : i = id
  · rw [if_pos hi, if_pos hi]
  · rw [if_neg hi, if_neg hi, if_neg hi]

/-- A pipe that is cleaned up has no open ends. -/
lemma any_filter_isClosed (slot : Option Pipe) (e : End) :
    (slot.filter fun p => !p.isClosed).any (·.isOpen e) = slot.any (·.isOpen e) := by
  cases slot with
  | none => rfl
  | some p =>
    by_cases hclosed : p.isClosed = true
    · have hopen : p.isOpen e = false := p.isClosed_iff.mp hclosed e
      rw [filter_some, hclosed, any_some, hopen]
      rfl
    · rw [filter_some, eq_false_iff.mpr hclosed]
      rfl

/-- Closing an end clears its flag. -/
lemma isOpen_closeEnd (e e' : End) (i : Nat) : (t.closeEnd e id).isOpen e' i =
    if i = id ∧ e' = e then false else t.isOpen e' i := by
  unfold isOpen
  rw [get_closeEnd]
  by_cases hi : i = id
  · rw [if_pos hi, any_filter_isClosed, hi]
    cases t.get id with
    | none =>
      split <;> rfl
    | some p =>
      rw [map_some, any_some, p.isOpen_close]
      by_cases he : e' = e
      · rw [if_pos he, if_pos ⟨rfl, he⟩]
      · rw [if_neg he, if_neg fun h => he h.2]
        rfl
  · rw [if_neg hi, if_neg fun h => hi h.1]

/-- A change that leaves the ends alone. -/
lemma isOpen_update {f : Pipe → Pipe} (hf : ∀ p e, (f p).isOpen e = p.isOpen e)
    (e : End) (i : Nat) :
    (t.update id f).isOpen e i = t.isOpen e i := by
  unfold isOpen
  rw [get_update]
  by_cases hi : i = id
  · rw [if_pos hi, hi]
    cases t.get id with
    | none => rfl
    | some p => exact hf p e
  · rw [if_neg hi]

/-- A change of one pipe, seen from the slots. -/
lemma buffered_update : (t.update id f).buffered i =
    if i = id then ((t.get id).map fun p => (f p).buffered).getD [] else t.buffered i := by
  unfold buffered
  rw [get_update]
  by_cases hi : i = id
  · rw [if_pos hi, if_pos hi, Option.map_map]
    rfl
  · rw [if_neg hi, if_neg hi]

lemma isSome_update :
    ((t.update id f).get i).isSome = (t.get i).isSome := by
  rw [get_update]
  by_cases hi : i = id
  · rw [if_pos hi, hi, isSome_map]
  · rw [if_neg hi]

/-- A pipe that is left after an end was closed was there before, with the same bytes. -/
lemma closeEnd_keeps (e : End) {i : Nat} (h : ((t.closeEnd e id).get i).isSome) :
    (t.get i).isSome ∧ (t.closeEnd e id).buffered i = t.buffered i := by
  revert h
  unfold buffered
  rw [get_closeEnd]
  by_cases hi : i = id
  · rw [if_pos hi, hi]
    cases t.get id with
    | none => exact fun h => nomatch h
    | some p =>
      rw [map_some, filter_some]
      split
      next => exact fun _ => ⟨rfl, p.buffered_close e⟩
      next => exact fun h => nomatch h
  · rw [if_neg hi]
    exact fun h => ⟨h, rfl⟩

/-- How a call that reads or writes leaves the slots: only what is buffered in one of them
changes. -/
structure Moves (t t' : PipeTable) (id : Nat) : Prop where
  isSome : ∀ i, (t'.get i).isSome = (t.get i).isSome
  isOpen : ∀ e i, t'.isOpen e i = t.isOpen e i
  others : ∀ i ≠ id, t'.buffered i = t.buffered i

lemma Moves.refl (t : PipeTable) (id : Nat) : Moves t t id :=
  ⟨fun _ => rfl, fun _ _ => rfl, fun _ _ => rfl⟩

lemma Moves.update {f : Pipe → Pipe} (hf : ∀ p e, (f p).isOpen e = p.isOpen e) :
    Moves t (t.update id f) id := by
  refine ⟨isSome_update f, isOpen_update hf, fun i hi => ?_⟩
  rw [buffered_update, if_neg hi]

/-- The bytes of an answer. -/
def bytesOf : Outcome PipeError (List UInt8) → List UInt8
  | .ok bytes => bytes
  | _ => []

/-- What `pipe_read` answers comes from the front of the pipe. -/
lemma pipeRead_spec (t : PipeTable) (id count : Nat) :
    Moves t (t.pipeRead id count).2 id ∧
      bytesOf (t.pipeRead id count).1 ++ (t.pipeRead id count).2.buffered id = t.buffered id := by
  unfold pipeRead
  cases h : t.get id with
  | none => exact ⟨Moves.refl t id, rfl⟩
  | some p =>
    dsimp only
    split
    next =>
      split <;> exact ⟨Moves.refl t id, rfl⟩
    next =>
      refine ⟨Moves.update fun p e => ?_, ?_⟩
      · cases e <;> rfl
      · rw [buffered_update, if_pos rfl]
        unfold buffered
        rw [h]
        exact p.read_append count

/-- `pipe_read` answers with no bytes exactly if there are none. -/
lemma pipeRead_some {count : Nat} (h : t.get id = some p) (hcount : count ≠ 0) :
    (t.buffered id = [] ∧
      t.pipeRead id count = (if p.writeOpen then .err .wouldBlock else .ok [], t)) ∨
    (t.buffered id ≠ [] ∧ (p.read count).1 ≠ [] ∧
      t.pipeRead id count = (.ok (p.read count).1, t.update id fun p => (p.read count).2)) := by
  have hlen : p.buffered.length = p.ring.count := Ring.contents_length 0 p.ring
  have hbuffered : t.buffered id = p.buffered := by
    unfold buffered
    rw [h]
    rfl
  unfold pipeRead
  rw [h, hbuffered]
  dsimp only
  by_cases hempty : p.ring.count = 0
  · refine .inl ⟨eq_nil_of_length_eq_zero (hlen.trans hempty), ?_⟩
    rw [if_pos hempty]
    split <;> rfl
  · refine .inr ⟨fun hnil => hempty ?_, fun hnil => hempty ?_, if_neg hempty⟩
    · rw [← hlen, hnil]
      rfl
    · have hread : (p.ring.contents 0).take count = [] :=
        (Ring.pop_fst 0 p.ring count).symm.trans hnil
      have hzero := congrArg length hread
      rw [length_take, Ring.contents_length] at hzero
      have hmin : min count p.ring.count = 0 := hzero
      omega

/-- How many bytes were written. -/
def countOf : Outcome PipeError Nat → Nat
  | .ok n => n
  | _ => 0

/-- What `pipe_write` takes goes to the back of the pipe. -/
lemma pipeWrite_spec (t : PipeTable) (id : Nat) (data : List UInt8) :
    Moves t (t.pipeWrite id data).2 id ∧ ((t.get id).isSome → (t.pipeWrite id data).2.buffered id =
      t.buffered id ++ data.take (countOf (t.pipeWrite id data).1)) := by
  have hopen (p : Pipe) (e : End) : (p.write data).2.isOpen e = p.isOpen e := by
    cases e <;> rfl
  unfold pipeWrite
  cases h : t.get id with
  | none => exact ⟨Moves.refl t id, nofun⟩
  | some p =>
    dsimp only
    have hbuffered : (t.update id fun p => (p.write data).2).buffered id =
        t.buffered id ++ data.take (p.write data).1 := by
      rw [buffered_update, if_pos rfl]
      unfold buffered
      rw [h]
      exact p.buffered_write data
    split
    next => exact ⟨Moves.refl t id, fun _ => (append_nil _).symm⟩
    next =>
      split
      next hfull =>
        refine ⟨Moves.update hopen, fun _ => ?_⟩
        rw [hbuffered, hfull.1]
        rfl
      next => exact ⟨Moves.update hopen, fun _ => hbuffered⟩

end

/-- `create` finds a slot that is free, or there is none. -/
lemma create_eq_some {t t' : PipeTable} {id : Nat} (h : t.create = some (id, t')) :
    t.get id = none ∧ ∀ i, t'.get i = if i = id then some .new else t.get i := by
  have halloc : (id, t'.pipes) = alloc t.pipes Pipe.new := by
    unfold create at h
    unfold alloc
    cases hfree : t.pipes.findIdx? isNone with
    | some i =>
      rw [hfree] at h
      cases h
      rfl
    | none =>
      rw [hfree] at h
      dsimp only at h
      split at h
      next =>
        cases h
        rfl
      next => cases h
  have hid : id = (alloc t.pipes Pipe.new).1 := congrArg Prod.fst halloc
  have hpipes : t'.pipes = (alloc t.pipes Pipe.new).2 := congrArg Prod.snd halloc
  refine ⟨?_, fun i => ?_⟩
  · rw [hid]
    exact get_alloc_fst ..
  · unfold get
    rw [hpipes]
    by_cases hi : i = id
    · rw [if_pos hi, hi, hid]
      exact get_alloc_self ..
    · rw [if_neg hi]
      exact get_alloc_ne _ _ (hid ▸ hi)

/-- A new pipe whose ends are both closed at once leaves no trace. -/
lemma get_create_close {t t' : PipeTable} {id : Nat} (h : t.create = some (id, t')) (i : Nat) :
    ((t'.pipeCloseRead id).pipeCloseWrite id).get i = t.get i := by
  obtain ⟨hfree, hnew⟩ := create_eq_some h
  unfold pipeCloseRead pipeCloseWrite
  rw [get_closeEnd, get_closeEnd, get_closeEnd, hnew, hnew]
  by_cases hi : i = id
  · rw [if_pos hi, if_pos rfl, if_pos rfl, hi, hfree]
    rfl
  · rw [if_neg hi, if_neg hi, if_neg hi]

end PipeTable

end RustOs.Syscall
