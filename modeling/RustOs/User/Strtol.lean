import RustOs.Lib.Outcome

/-!
# `strtol`

`strtol` of the C library (`coreutils_src/lib/libc.c`) and its mirror `rs_strtol` of
`src/userlib.rs`, beside what ISO C asks for. Both take `0` and `0x` for a prefix before they have
seen a digit behind it, the C function moves its end pointer over white space and sign even if no
number follows, and neither stops at the range of a 64-bit integer. `strtol_iff` says that this is
all.
-/

namespace RustOs.User

open Lib Outcome List

/-- White space. -/
def isSpace (c : UInt8) : Bool := c == 0x20 || (0x09 ≤ c && c ≤ 0x0D)

/-- The value of a digit or letter. -/
def digit (c : UInt8) : Option Nat :=
  if 0x30 ≤ c && c ≤ 0x39 then some (c.toNat - 0x30)
  else if 0x61 ≤ c && c ≤ 0x7A then some (c.toNat - 0x61 + 10)
  else if 0x41 ≤ c && c ≤ 0x5A then some (c.toNat - 0x41 + 10)
  else none

/-- A digit of the base. -/
def isDigit (base : Nat) (c : UInt8) : Bool := (digit c).any (· < base)

/-- White space and sign: whether it is a minus, and what follows. -/
def sign (s : List UInt8) : Bool × List UInt8 :=
  match s.dropWhile isSpace with
  | 0x2D :: u => (true, u)
  | 0x2B :: u => (false, u)
  | u => (false, u)

/-- It starts with `0x` or `0X`. -/
def hexPrefixed : List UInt8 → Bool
  | 0x30 :: x :: _ => x == 0x78 || x == 0x58
  | _ => false

/-- The base both functions choose, and what follows the prefix. -/
def radix (base : Nat) (u : List UInt8) : Nat × List UInt8 :=
  -- what follows the prefix is not looked at
  if (base = 0 ∨ base = 16) ∧ hexPrefixed u then (16, u.drop 2)
  else if base = 0 ∧ u.head? = some 0x30 then (8, u.tail)
  else if base = 0 then (10, u)
  else (base, u)

/-- The number with one more digit. -/
def push (base acc : Nat) (c : UInt8) : Nat := acc * base + (digit c).getD 0

/-- The loop of both functions over the digits: the accumulator, and what follows. An overflow is a
panic in the mirror, and in C it is undefined. -/
def digits (base : Nat) : List UInt8 → Nat → Outcome Empty (Nat × List UInt8)
  | [], acc => .ok (acc, [])
  | c :: s, acc =>
    if isDigit base c then
      if push base acc c < 2 ^ 63 then digits base s (push base acc c) else .panic
    else .ok (acc, c :: s)

/-- The number with its sign. -/
def signed (neg : Bool) (acc : Nat) : Int := if neg then -acc else acc

/-- The value in the range of a 64-bit integer that is closest to it. -/
def clamp (v : Int) : Int :=
  if v < -0x8000000000000000 then -0x8000000000000000
  else if v < 0x8000000000000000 then v
  else 0x7FFFFFFFFFFFFFFF

variable (s : List UInt8)

/-- What both do: the value, the bytes from the first digit on, and those behind the last. -/
def scan (base : Nat) : Outcome Empty (Int × List UInt8 × List UInt8) := do
  let (neg, u) := sign s
  let (base, r) := radix base u
  let (acc, e) ← digits base r 0
  .ok (signed neg acc, r, e)

/-- `rs_strtol`: the value and the bytes consumed. -/
def rsStrtol (base : Nat) : Outcome Empty (Int × Nat) := do
  let (v, r, e) ← scan s base
  .ok (if e.length = r.length then (0, 0) else (v, s.length - e.length))

/-- `strtol`: the value and the bytes up to the end pointer. -/
def strtol (base : Nat) : Outcome Empty (Int × Nat) := do
  let (v, _, e) ← scan s base
  .ok (v, s.length - e.length)

/-- What ISO C asks for: the value, cut to the range, and the bytes consumed. If no digit follows
the prefix, its `0` is the number. -/
def isoStrtol (base : Nat) : Int × Nat :=
  let (neg, u) := sign s
  let (base, r) := radix base u
  let ds := r.takeWhile (isDigit base)
  if ds ≠ [] then
    (clamp (signed neg (ds.foldl (push base) 0)), s.length - (r.dropWhile (isDigit base)).length)
  else if r.length < u.length then (0, s.length - u.length + 1)
  else (0, 0)

/-- Both functions do what ISO C asks for. -/
def Agree (base : Nat) : Prop :=
  rsStrtol s base = .ok (isoStrtol s base) ∧ strtol s base = .ok (isoStrtol s base)

/-- The number is below 2^63, and if there is no digit, there is no white space, sign or prefix. -/
def Plain (base : Nat) : Prop :=
  let (base, r) := radix base (sign s).2
  let ds := r.takeWhile (isDigit base)
  ds.foldl (push base) 0 < 2 ^ 63 ∧ (ds = [] → s.length ≤ r.length)

variable {base acc : Nat} {r : List UInt8}

lemma le_foldl (r : List UInt8) : acc ≤ (r.takeWhile (isDigit base)).foldl (push base) acc := by
  induction r generalizing acc with
  | nil => exact Nat.le_refl acc
  | cons c r ih =>
    by_cases hc : isDigit base c = true
    · -- base 0 has no digits, so one more digit never makes the number smaller
      have hpos : base ≠ 0 := by
        rintro rfl
        rw [isDigit] at hc
        cases hd : digit c <;> simp [hd] at hc
      rw [takeWhile_cons_of_pos hc]
      refine Nat.le_trans (Nat.le_trans ?_ (Nat.le_add_right _ _)) ih
      exact Nat.le_mul_of_pos_right acc (by omega)
    · rw [takeWhile_cons_of_neg hc]
      exact Nat.le_refl acc

/-- The loop finds the number, if it is small enough. -/
lemma digits_eq (hacc : acc < 2 ^ 63) : digits base r acc =
    if (r.takeWhile (isDigit base)).foldl (push base) acc < 2 ^ 63 then
      .ok ((r.takeWhile (isDigit base)).foldl (push base) acc, r.dropWhile (isDigit base))
    else .panic := by
  induction r generalizing acc with
  | nil => exact (if_pos hacc).symm
  | cons c r ih =>
    rw [digits]
    by_cases hc : isDigit base c = true
    · rw [if_pos hc, takeWhile_cons_of_pos hc, dropWhile_cons_of_pos hc, foldl_cons]
      split
      next hlt => exact ih hlt
      next hlt =>
        -- once past the range the number stays past it
        have hle : push base acc c ≤ (r.takeWhile (isDigit base)).foldl _ _ := le_foldl r
        rw [if_neg (by omega)]
    · rw [if_neg hc, takeWhile_cons_of_neg hc, dropWhile_cons_of_neg hc]
      exact (if_pos hacc).symm

/-- A number below 2^63 is in the range, with either sign. -/
lemma clamp_signed {neg : Bool} (hacc : acc < 2 ^ 63) :
    clamp (signed neg acc) = signed neg acc := by
  unfold clamp signed
  cases neg
  · rw [if_neg (by omega), if_pos (by omega)]
  · rw [if_neg (by omega), if_pos (by omega)]

lemma sign_length (s : List UInt8) : (sign s).2.length ≤ s.length := by
  refine Nat.le_trans ?_ (dropWhile_suffix isSpace).length_le
  unfold sign
  split
  next u h => rw [h]; exact Nat.le_succ _
  next u h => rw [h]; exact Nat.le_succ _
  next => exact Nat.le_refl _

/-- The parser agrees with C exactly on plain numbers. -/
theorem strtol_iff (s : List UInt8) (base : Nat) : Agree s base ↔ Plain s base := by
  unfold Agree Plain rsStrtol strtol scan isoStrtol
  rcases hs : sign s with ⟨neg, u⟩
  rcases hr : radix base u with ⟨b, r⟩
  have hu : u.length ≤ s.length := by simpa [hs] using sign_length s
  have hsplit := takeWhile_append_dropWhile (p := isDigit b) (l := r)
  simp only [hr, digits_eq (show 0 < 2 ^ 63 by decide)]
  by_cases hlt : (r.takeWhile (isDigit b)).foldl (push b) 0 < 2 ^ 63
  · rw [if_pos hlt]
    simp only [ok_bind, ok.injEq, hlt, true_and]
    by_cases hds : r.takeWhile (isDigit b) = []
    · -- no digit: the mirror takes nothing, so C has to be at the start of the string as well
      rw [hds, nil_append] at hsplit
      rw [hsplit, hds, if_pos rfl, if_neg (absurd rfl)]
      constructor
      · rintro ⟨hrs, hc⟩ -
        have hend : s.length - r.length = 0 := congrArg Prod.snd (hc.trans hrs.symm)
        omega
      · intro h
        have hle := h rfl
        rw [if_neg (by omega), Nat.sub_eq_zero_of_le hle]
        cases neg <;> exact ⟨rfl, rfl⟩
    · have hlen := congrArg length hsplit
      have hpos := length_pos_iff.mpr hds
      rw [length_append] at hlen
      rw [if_neg (by omega), if_pos hds, clamp_signed hlt]
      exact iff_of_true ⟨rfl, rfl⟩ fun h => absurd h hds
  · rw [if_neg hlt]
    exact iff_of_false (fun h => by cases h.1) fun h => hlt h.1

/-- The 0 is taken for a prefix, and no digit follows. -/
theorem zero_not_agree : ¬ Agree [0x30] 0 := by
  unfold Agree
  decide

end RustOs.User
