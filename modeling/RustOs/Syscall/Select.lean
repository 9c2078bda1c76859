import RustOs.Syscall.FileDesc
import Mathlib.Data.Finset.Card

/-!
# Waiting for descriptors

`do_select` of `poll.rs` with timeout 0: the three sets are turned into one request for each
descriptor, `fd_readiness` answers each of them, and the answers are sorted into three sets
again. Hang-up and error are answered whether or not they were asked for, and a pipe at its
end is answered with a hang-up alone. `selects_iff` says when the sets come out as they should.
-/

namespace RustOs.Syscall

open Lib List

/-! ## Requests and answers -/

namespace Poll

def pollIn : UInt16 := 0x0001
def pollPri : UInt16 := 0x0002
def pollOut : UInt16 := 0x0004
def pollErr : UInt16 := 0x0008
def pollHup : UInt16 := 0x0010
def pollNval : UInt16 := 0x0020
def pollRdnorm : UInt16 := 0x0040
def pollWrnorm : UInt16 := 0x0100

/-- `FD_SETSIZE`. -/
def fdSetsize : Nat := 1024

/-- A mask, if a condition holds. -/
def flag (b : Bool) (mask : UInt16) : UInt16 := if b then mask else 0

/-- What the descriptors and the terminal look like. -/
structure Files where
  table : FileDescriptorTable
  pipes : PipeTable
  ttyBytes : Nat

namespace Files

variable (s : Files)

/-- `pipe_bytes_available`. -/
def bytesAvailable (id : Nat) : Nat := (s.pipes.buffered id).length

/-- `pipe_write_closed` or `pipe_read_closed`. -/
def closed (e : End) (id : Nat) : Bool := !s.pipes.isOpen e id

/-- `pipe_writable`. -/
def writable (id : Nat) : Bool := s.bytesAvailable id < pipeBufSize && s.pipes.isOpen .read id

/-- `fd_readiness`. -/
def fdReadiness (fd : Nat) (requested : UInt16) : UInt16 :=
  if fd ≥ 4096 then pollNval
  else
    match s.table.get fd with
    | none => pollNval
    | some f =>
      let reads := requested &&& pollIn != 0
      let writes := requested &&& pollOut != 0
      let revents := match f.kind with
        | .regular => flag reads (pollIn ||| pollRdnorm) ||| flag writes (pollOut ||| pollWrnorm)
        | .pipeRead id => flag (0 < s.bytesAvailable id && reads) (pollIn ||| pollRdnorm) |||
          flag (s.closed .write id) pollHup
        | .pipeWrite id => flag (s.writable id && writes) (pollOut ||| pollWrnorm) |||
          flag (s.closed .read id) pollErr
      let revents := revents ||| flag (fd == 0 && reads && 0 < s.ttyBytes) (pollIn ||| pollRdnorm)
      revents ||| flag ((fd == 1 || fd == 2) && writes) (pollOut ||| pollWrnorm)

end Files

/-- The three sets of `select`, and the count. -/
@[ext] structure Sets where
  read : Finset Nat
  write : Finset Nat
  except : Finset Nat
  count : Nat
  deriving DecidableEq

/-- The answer has a bit of the mask. -/
def hits (mask revents : UInt16) : Bool := revents &&& mask != 0

def readMask : UInt16 := pollIn ||| pollRdnorm
def writeMask : UInt16 := pollOut ||| pollWrnorm
def exceptMask : UInt16 := pollPri ||| pollErr ||| pollHup

/-- The bits of a set that are looked at. -/
def isSet (set : Finset Nat) (fd : Nat) : Bool := fd < fdSetsize && fd ∈ set

/-- What is asked of a descriptor. -/
def events (q : Sets) (fd : Nat) : UInt16 :=
  flag (isSet q.read fd) pollIn ||| flag (isSet q.write fd) pollOut ||| flag
    (isSet q.except fd) pollPri

/-- An answer is sorted into the sets. -/
def Sets.add (a : Sets) (p : Nat × UInt16) : Sets :=
  if p.2 = 0 then a
  else
    { read := if hits readMask p.2 then insert p.1 a.read else a.read
      write := if hits writeMask p.2 then insert p.1 a.write else a.write
      except := if hits exceptMask p.2 then insert p.1 a.except else a.except
      count := a.count + (hits readMask p.2).toNat + (hits writeMask p.2).toNat +
        (hits exceptMask p.2).toNat }

/-- The requests, with their answers. -/
def polls (s : Files) (nfds : Nat) (q : Sets) : List (Nat × UInt16) :=
  ((List.range (min nfds fdSetsize)).filter fun fd => events q fd != 0).map fun fd =>
    (fd, s.fdReadiness fd (events q fd))

/-- `do_select` with timeout 0. The count of `q` is not read. -/
def doSelect (s : Files) (nfds : Nat) (q : Sets) : Sets :=
  let polls := polls s nfds q
  if polls.countP (fun p => p.2 != 0) = 0 then ⟨∅, ∅, ∅, 0⟩
  else polls.foldl Sets.add ⟨∅, ∅, ∅, 0⟩

/-! ## What the sets hold -/

/-- The descriptors whose answer has a bit of the mask. -/
def marked (mask : UInt16) (l : List (Nat × UInt16)) : List Nat :=
  (l.filter fun p => hits mask p.2).map (·.1)

lemma hits_zero (mask : UInt16) : hits mask 0 = false := by simp [hits]

lemma marked_cons (mask : UInt16) (p : Nat × UInt16) (l : List (Nat × UInt16)) :
    marked mask (p :: l) = (if hits mask p.2 then [p.1] else []) ++ marked mask l := by
  unfold marked
  rw [filter_cons]
  split <;> rfl

/-- The loop collects them, and counts them. -/
lemma foldl_add (l : List (Nat × UInt16)) : ∀ a : Sets, l.foldl Sets.add a =
    { read := a.read ∪ (marked readMask l).toFinset
      write := a.write ∪ (marked writeMask l).toFinset
      except := a.except ∪ (marked exceptMask l).toFinset
      count := a.count + (marked readMask l).length + (marked writeMask l).length +
        (marked exceptMask l).length } := by
  induction l with
  | nil => intro a; simp [marked]
  | cons p l ih =>
    intro a
    rw [foldl_cons, ih]
    simp only [marked_cons]
    unfold Sets.add
    split
    next h => simp [h, hits_zero]
    next =>
      cases hits readMask p.2 <;> cases hits writeMask p.2 <;> cases hits exceptMask p.2 <;>
        simp <;> omega

/-- The loop adds what each descriptor is ready for. -/
lemma doSelect_eq (s : Files) (nfds : Nat) (q : Sets) :
    doSelect s nfds q = (polls s nfds q).foldl Sets.add ⟨∅, ∅, ∅, 0⟩ := by
  unfold doSelect
  dsimp only
  split
  next h =>
    rw [foldl_add]
    have hnone (mask : UInt16) : marked mask (polls s nfds q) = [] := by
      unfold marked
      rw [map_eq_nil_iff, filter_eq_nil_iff]
      intro p hp
      have hzero := countP_eq_zero.mp h p hp
      simp only [bne_iff_ne, not_not] at hzero
      rw [hzero, hits_zero]
      exact Bool.false_ne_true
    simp [hnone]
  next => rfl

lemma marked_polls (s : Files) (nfds : Nat) (q : Sets) (mask : UInt16) :
    marked mask (polls s nfds q) = (range (min nfds fdSetsize)).filter fun fd =>
      hits mask (s.fdReadiness fd (events q fd)) && events q fd != 0 := by
  unfold marked polls
  rw [filter_map, map_map, filter_filter]
  exact map_id _

lemma events_ne_zero (q : Sets) (fd : Nat) : (events q fd != 0) =
    (isSet q.read fd || isSet q.write fd || isSet q.except fd) := by
  unfold events
  generalize isSet q.read fd = r, isSet q.write fd = w, isSet q.except fd = e
  revert r w e
  decide

namespace Files

variable (s : Files) (f : OpenFile) (fd : Nat)

/-- There is something to read, or it seems so. -/
def readable : Bool :=
  (match f.kind with
    | .regular => true
    | .pipeRead id => 0 < s.bytesAvailable id
    | .pipeWrite _ => false) || fd == 0 && 0 < s.ttyBytes

/-- The other end is closed. -/
def hungUp : Bool :=
  match f.kind with
  | .regular => false
  | .pipeRead id => s.closed .write id
  | .pipeWrite id => s.closed .read id

/-- The bits of an answer. -/
lemma fdReadiness_hits (q : Sets) (hfd : fd < 4096) (hf : s.table.get fd = some f) :
    hits readMask (s.fdReadiness fd (events q fd)) = (isSet q.read fd && s.readable f fd) ∧
    (hits writeMask (s.fdReadiness fd (events q fd)) = true → isSet q.write fd = true) ∧
    hits exceptMask (s.fdReadiness fd (events q fd)) = s.hungUp f := by
  unfold fdReadiness events readable hungUp
  rw [if_neg (Nat.not_le.mpr hfd), hf]
  dsimp only
  generalize isSet q.read fd = r, isSet q.write fd = w, isSet q.except fd = e,
    (fd == 0) = zero, (fd == 1 || fd == 2) = out, decide (0 < s.ttyBytes) = tty
  cases f.kind with
  | regular =>
    dsimp only
    revert r w e zero out tty
    decide +kernel
  | pipeRead id =>
    dsimp only
    generalize decide (0 < s.bytesAvailable id) = some, s.closed .write id = closed
    revert r w e zero out tty some closed
    decide +kernel
  | pipeWrite id =>
    dsimp only
    generalize s.writable id = room, s.closed .read id = closed
    revert r w e zero out tty room closed
    decide +kernel

lemma fdReadiness_none {s : Files} {fd : Nat} (h : s.table.get fd = none) (requested : UInt16) :
    s.fdReadiness fd requested = pollNval := by
  unfold fdReadiness
  rw [h]
  split <;> rfl

/-- A read would not block: there are data, or a pipe is at its end. -/
def ReadReady : Prop :=
  match f.kind with
  | .regular => True
  | .pipeRead id => 0 < s.bytesAvailable id ∨ ∃ p, s.pipes.get id = some p ∧ p.isOpen .write = false
  | .pipeWrite _ => False

end Files

/-! ## The sets that are asked for -/

/-- The sets hold what they should. -/
structure Selects (s : Files) (nfds : Nat) (q a : Sets) : Prop where
  read : ∀ fd ∈ a.read, fd < nfds ∧ fd ∈ q.read
  write : ∀ fd ∈ a.write, fd < nfds ∧ fd ∈ q.write
  except : ∀ fd ∈ a.except, fd < nfds ∧ fd ∈ q.except
  count : a.count = a.read.card + a.write.card + a.except.card
  ready : ∀ fd f, fd < min nfds fdSetsize → fd ∈ q.read → s.table.get fd = some f → s.ReadReady f →
    fd ∈ a.read

section

variable {s : Files} {nfds : Nat} {q : Sets}

lemma isSet_eq_true {set : Finset Nat} {fd : Nat} :
    isSet set fd = true ↔ fd < fdSetsize ∧ fd ∈ set := by simp [isSet]

/-- The sets that come out of `do_select`. -/
lemma doSelect_spec : ∃ sets : UInt16 → Finset Nat,
    doSelect s nfds q = ⟨sets readMask, sets writeMask, sets exceptMask,
      (sets readMask).card + (sets writeMask).card + (sets exceptMask).card⟩ ∧
    ∀ mask fd, fd ∈ sets mask ↔ fd < min nfds fdSetsize ∧
      hits mask (s.fdReadiness fd (events q fd)) = true ∧
      (fd ∈ q.read ∨ fd ∈ q.write ∨ fd ∈ q.except) := by
  refine ⟨fun mask => (marked mask (polls s nfds q)).toFinset, ?_, fun mask fd => ?_⟩
  · have hcard (mask : UInt16) : (marked mask (polls s nfds q)).toFinset.card =
        (marked mask (polls s nfds q)).length := by
      rw [marked_polls]
      exact toFinset_card_of_nodup (nodup_range.filter _)
    rw [doSelect_eq, foldl_add]
    simp [hcard]
  · rw [mem_toFinset, marked_polls, mem_filter, mem_range, Bool.and_eq_true, events_ne_zero]
    refine and_congr_right fun hlt => and_congr_right fun _ => ?_
    have hlt : fd < fdSetsize := (lt_min_iff.mp hlt).2
    simp [isSet_eq_true, hlt, or_assoc]

/-- `select` answers as it should exactly if a descriptor whose other end is closed is in the
third set, and no pipe that is asked for reading is at its end. -/
theorem selects_iff : Selects s nfds q (doSelect s nfds q) ↔
    ∀ fd f, fd < min nfds fdSetsize → s.table.get fd = some f →
      (fd ∈ q.read ∨ fd ∈ q.write ∨ fd ∈ q.except → s.hungUp f = true → fd ∈ q.except) ∧
      (fd ∈ q.read → s.ReadReady f → s.readable f fd = true) := by
  obtain ⟨sets, heq, hsets⟩ := @doSelect_spec s nfds q
  have hbits {fd : Nat} {f : OpenFile} (hlt : fd < min nfds fdSetsize)
    (hf : s.table.get fd = some f) :=
    s.fdReadiness_hits f fd q (Nat.lt_trans (lt_min_iff.mp hlt).2 (by decide)) hf
  -- a descriptor that is in a set is open
  have hopen {mask : UInt16} (hmask : hits mask pollNval = false) {fd : Nat}
      (h : hits mask (s.fdReadiness fd (events q fd)) = true) : ∃ f, s.table.get fd = some f := by
    refine Option.ne_none_iff_exists'.mp fun hnone => ?_
    rw [Files.fdReadiness_none hnone, hmask] at h
    cases h
  rw [heq]
  constructor
  · intro h fd f hlt hf
    obtain ⟨hread, -, hexcept⟩ := hbits hlt hf
    refine ⟨fun hasked hhung => ?_, fun hin hready => ?_⟩
    · exact (h.except fd ((hsets _ fd).mpr ⟨hlt, hexcept.trans hhung, hasked⟩)).2
    · have hhits := ((hsets _ fd).mp (h.ready fd f hlt hin hf hready)).2.1
      rw [hread, Bool.and_eq_true] at hhits
      exact hhits.2
  · intro h
    refine ⟨fun fd hfd => ?_, fun fd hfd => ?_, fun fd hfd => ?_, rfl,
      fun fd f hlt hin hf hready => ?_⟩
    · obtain ⟨hlt, hhits, -⟩ := (hsets _ fd).mp hfd
      obtain ⟨f, hf⟩ := hopen (by decide) hhits
      rw [(hbits hlt hf).1, Bool.and_eq_true] at hhits
      exact ⟨(lt_min_iff.mp hlt).1, (isSet_eq_true.mp hhits.1).2⟩
    · obtain ⟨hlt, hhits, -⟩ := (hsets _ fd).mp hfd
      obtain ⟨f, hf⟩ := hopen (by decide) hhits
      exact ⟨(lt_min_iff.mp hlt).1, (isSet_eq_true.mp ((hbits hlt hf).2.1 hhits)).2⟩
    · obtain ⟨hlt, hhits, hasked⟩ := (hsets _ fd).mp hfd
      obtain ⟨f, hf⟩ := hopen (by decide) hhits
      exact ⟨(lt_min_iff.mp hlt).1, (h fd f hlt hf).1 hasked ((hbits hlt hf).2.2.symm.trans hhits)⟩
    · refine (hsets _ fd).mpr ⟨hlt, ?_, .inl hin⟩
      rw [(hbits hlt hf).1, (h fd f hlt hf).2 hin hready,
        isSet_eq_true.mpr ⟨(lt_min_iff.mp hlt).2, hin⟩]
      rfl

end

/-- A pipe that is empty and has lost its write end, with the read end at descriptor 3. -/
def atEnd : Files :=
  ⟨FileDescriptorTable.withStdio.set 3 (some (.newPipeRead 0)),
    ⟨[some { Pipe.new with writeOpen := false }]⟩, 0⟩

/-- A reader that waits for it is told of an exception, and not that it can read. -/
theorem end_not_readable : doSelect atEnd 4 ⟨{3}, ∅, ∅, 0⟩ = ⟨∅, ∅, {3}, 1⟩ ∧
    ¬ Selects atEnd 4 ⟨{3}, ∅, ∅, 0⟩ (doSelect atEnd 4 ⟨{3}, ∅, ∅, 0⟩) := by
  have hrun : doSelect atEnd 4 ⟨{3}, ∅, ∅, 0⟩ = ⟨∅, ∅, {3}, 1⟩ := by decide +kernel
  refine ⟨hrun, fun h => ?_⟩
  rw [hrun] at h
  exact absurd (h.except 3 (Finset.mem_singleton_self 3)).2 (Finset.notMem_empty 3)

end Poll

end RustOs.Syscall
