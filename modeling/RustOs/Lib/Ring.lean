import Mathlib.Algebra.Group.Nat.Defs
import Mathlib.Data.List.Basic

/-!
# Ring buffers

A queue in a buffer of fixed size: elements are read from one position and written to
another, and both go round. The two positions and the number of elements hang together
(`stop`), which is a field of the structure, so that a ring is always a queue: `contents`.

Reading takes from the front (`pop_fst`, `contents_pop`) and writing appends to the back
(`contents_push`), as long as there is something to read and room to write.
-/

namespace RustOs.Lib

open List Nat

/-- A buffer of `n` cells. -/
structure Ring (α : Type) (n : Nat) where
  cells : List α
  readPos : Nat
  writePos : Nat
  count : Nat
  size : cells.length = n
  start : readPos < n
  fits : count ≤ n
  stop : writePos = (readPos + count) % n
  deriving DecidableEq

namespace Ring

variable {α : Type} {n : Nat}

/-- The loop that reads: one cell after the other. -/
def readLoop (n : Nat) (default : α) (cells : List α) : Nat → Nat → List α
  | 0, _ => []
  | k + 1, pos => cells.getD pos default :: readLoop n default cells k ((pos + 1) % n)

/-- The loop that writes. -/
def writeLoop (n : Nat) : List α → List α → Nat → List α
  | [], cells, _ => cells
  | x :: xs, cells, pos => writeLoop n xs (cells.set pos x) ((pos + 1) % n)

/-- A ring with nothing in it. -/
def new (n : Nat) (hn : 0 < n) (default : α) : Ring α n where
  cells := List.replicate n default
  readPos := 0
  writePos := 0
  count := 0
  size := List.length_replicate
  start := hn
  fits := Nat.zero_le n
  stop := (Nat.zero_mod n).symm

/-- What is in the ring, the oldest first. -/
def contents (default : α) (r : Ring α n) : List α := readLoop n default r.cells r.count r.readPos

/-- Read `k` elements, or all. -/
def pop (default : α) (k : Nat) (r : Ring α n) : List α × Ring α n :=
  (readLoop n default r.cells (min k r.count) r.readPos,
    { r with
      readPos := (r.readPos + min k r.count) % n
      count := r.count - min k r.count
      start := Nat.mod_lt _ (Nat.lt_of_le_of_lt (Nat.zero_le _) r.start)
      fits := Nat.le_trans (Nat.sub_le ..) r.fits
      stop := by
        rw [r.stop, Nat.mod_add_mod, Nat.add_assoc, Nat.add_sub_cancel' (Nat.min_le_right ..)] })

lemma writeLoop_length (xs cells : List α) (pos : Nat) :
    (writeLoop n xs cells pos).length = cells.length := by
  induction xs generalizing cells pos with
  | nil => rfl
  | cons x xs ih => rw [writeLoop, ih, length_set]

/-- Write as many of the elements as there is room for. -/
def push (xs : List α) (r : Ring α n) : Ring α n where
  cells := writeLoop n (xs.take (n - r.count)) r.cells r.writePos
  readPos := r.readPos
  writePos := (r.writePos + (xs.take (n - r.count)).length) % n
  count := r.count + (xs.take (n - r.count)).length
  size := (writeLoop_length ..).trans r.size
  start := r.start
  fits := by
    have hfits := r.fits
    rw [List.length_take]
    omega
  stop := by rw [r.stop, Nat.mod_add_mod, Nat.add_assoc]

section

variable {default : α} {cells xs : List α} {k pos : Nat}

lemma readLoop_length (default : α) (cells : List α) (k pos : Nat) :
    (readLoop n default cells k pos).length = k := by
  induction k generalizing pos with
  | zero => rfl
  | succ k ih => rw [readLoop, length_cons, ih]

/-- Reading in two parts. -/
lemma readLoop_add (default : α) (hpos : pos < n) (j : Nat) : readLoop n default cells (k + j) pos =
    readLoop n default cells k pos ++ readLoop n default cells j ((pos + k) % n) := by
  induction k generalizing pos with
  | zero =>
    rw [zero_add, add_zero, mod_eq_of_lt hpos]
    rfl
  | succ k ih =>
    have hpos' : (pos + 1) % n < n := Nat.mod_lt _ (Nat.lt_of_le_of_lt (Nat.zero_le _) hpos)
    rw [Nat.succ_add, readLoop, readLoop, ih hpos', Nat.mod_add_mod, Nat.add_assoc,
      Nat.add_comm 1 k]
    rfl

/-- A write outside what is read is not seen. -/
lemma readLoop_set_of_ne {x : α} {p : Nat} (hpos : pos < n)
    (h : ∀ i < k, (pos + i) % n ≠ p) :
    readLoop n default (cells.set p x) k pos = readLoop n default cells k pos := by
  induction k generalizing pos with
  | zero => rfl
  | succ k ih =>
    have hpos' : (pos + 1) % n < n := Nat.mod_lt _ (Nat.lt_of_le_of_lt (Nat.zero_le _) hpos)
    have hhead : pos ≠ p := by
      have h0 := h 0 (succ_pos k)
      rwa [add_zero, mod_eq_of_lt hpos] at h0
    have htail : ∀ i < k, ((pos + 1) % n + i) % n ≠ p := by
      intro i hi
      rw [mod_add_mod, add_assoc, add_comm 1 i]
      exact h (i + 1) (succ_lt_succ hi)
    rw [readLoop, readLoop, ih hpos' htail, getD_eq_getElem?_getD,
      getElem?_set_ne hhead.symm, getD_eq_getElem?_getD]

/-- Fewer than `n` steps on, the position is another one. -/
lemma mod_ne {i : Nat} (hi : i < k) (hk : k < n) : (pos + i) % n ≠ (pos + k) % n := by
  intro h
  have hzero := Nat.sub_mod_eq_zero_of_mod_eq h.symm
  rw [Nat.add_sub_add_left, Nat.mod_eq_of_lt (by omega)] at hzero
  omega

/-- What was there, and then what is written. -/
lemma readLoop_writeLoop (default : α) (hlen : cells.length = n) (hpos : pos < n)
    (hfit : k + xs.length ≤ n) :
    readLoop n default (writeLoop n xs cells ((pos + k) % n)) (k + xs.length) pos =
      readLoop n default cells k pos ++ xs := by
  induction xs generalizing cells k with
  | nil => rw [append_nil]; rfl
  | cons x xs ih =>
    have hn : 0 < n := Nat.lt_of_le_of_lt (Nat.zero_le _) hpos
    have hk : k < n := by
      rw [length_cons] at hfit
      omega
    have hfit' : k + 1 + xs.length ≤ n := by
      rw [length_cons] at hfit
      omega
    have hlen' : (cells.set ((pos + k) % n) x).length = n := length_set.trans hlen
    have hcell : ((pos + k) % n + 1) % n = (pos + (k + 1)) % n := by
      rw [mod_add_mod, add_assoc]
    have hwritten : (cells.set ((pos + k) % n) x).getD ((pos + k) % n) default = x := by
      have hlt : (pos + k) % n < cells.length := by
        rw [hlen]
        exact mod_lt _ hn
      rw [getD_eq_getElem?_getD, getElem?_set_self hlt]
      rfl
    have hcount : k + (x :: xs).length = k + 1 + xs.length := by
      rw [length_cons]
      omega
    rw [writeLoop, hcell, hcount, ih hlen' hfit', readLoop_add default hpos,
      readLoop_set_of_ne hpos fun i hi => mod_ne hi hk, readLoop, hwritten, readLoop,
      append_assoc]
    rfl

end

/-! ## As a queue -/

variable (default : α) (r : Ring α n)

lemma contents_length : (r.contents default).length = r.count := readLoop_length ..

/-- The split of the contents that reading makes. -/
lemma pop_append (k : Nat) :
    (r.pop default k).1 ++ (r.pop default k).2.contents default = r.contents default := by
  have hcount : min k r.count + (r.count - min k r.count) = r.count :=
    Nat.add_sub_cancel' (Nat.min_le_right ..)
  unfold contents
  rw [← hcount, readLoop_add default r.start]
  rfl

/-- Reading takes from the front. -/
lemma pop_fst (k : Nat) : (r.pop default k).1 = (r.contents default).take k := by
  have hlen : (r.pop default k).1.length = min k r.count := readLoop_length ..
  have hcontents := contents_length default r
  rw [← pop_append default r k] at hcontents ⊢
  rw [length_append, hlen] at hcontents
  rcases Nat.le_total k r.count with hle | hle
  · rw [take_append_of_le_length (by omega), take_of_length_le (by omega)]
  · have hrest : (r.pop default k).2.contents default = [] := eq_nil_of_length_eq_zero (by omega)
    rw [hrest, append_nil, take_of_length_le (by omega)]

/-- Writing appends to the back. -/
lemma contents_push (xs : List α) :
    (r.push xs).contents default = r.contents default ++ xs.take (n - r.count) := by
  have hfits := r.fits
  have hfit : r.count + (xs.take (n - r.count)).length ≤ n := by
    rw [length_take]
    omega
  have hpush := readLoop_writeLoop default r.size r.start hfit
  rw [← r.stop] at hpush
  exact hpush

end Ring

end RustOs.Lib
