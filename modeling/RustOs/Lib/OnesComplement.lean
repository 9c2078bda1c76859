import RustOs.Lib.Wire

/-!
# One's-complement sums

The Internet checksum adds the 16-bit words of a byte string in a 32-bit
accumulator, folds the carries back in until 16 bits are left, and takes the
complement. `sumWords` is the adding loop with its overflow check, `wordSum` the
sum it computes, `foldCarry` the folding loop.

Folding keeps the sum modulo 65535 and never makes a sum zero (`fold16_eq`), so a
field that holds the complement of the folded rest brings the whole to `0xFFFF`
(`fold16_complement`).
-/

namespace RustOs.Lib

variable {sum : Nat}

/-- The sum of the big-endian words of a byte string; a last odd byte counts as
the high half of a word. -/
def wordSum : List UInt8 → Nat
  | [] => 0
  | [a] => a.toNat * 256
  | a :: b :: rest => a.toNat * 256 + b.toNat + wordSum rest

/-- The adding loop, on a 32-bit accumulator. -/
def sumWords {ε : Type} : List UInt8 → Nat → Outcome ε Nat
  | [], sum => .ok sum
  | [a], sum => .uadd 32 sum (a.toNat * 256)
  | a :: b :: rest, sum => do
    let sum ← .uadd 32 sum (a.toNat * 256 + b.toNat)
    sumWords rest sum

/-- The folding loop: `while sum >> 16 != 0`. Three rounds end it for every 32-bit
sum. -/
def foldCarry : Nat → Nat → Nat
  | 0, sum => sum
  | fuel + 1, sum =>
    if sum / 2 ^ 16 ≠ 0 then foldCarry fuel (sum % 2 ^ 16 + sum / 2 ^ 16) else sum

/-- The folded sum. -/
def fold16 (sum : Nat) : Nat := foldCarry 3 sum

/-! ## The adding loop -/

lemma wordSum_le (data : List UInt8) : wordSum data ≤ (data.length + 1) / 2 * 65535 := by
  induction data using wordSum.induct with
  | case1 => exact Nat.le_refl 0
  | case2 x =>
    have hx := x.toNat_lt
    simp only [wordSum, List.length_cons]
    omega
  | case3 x y rest ih =>
    have hx := x.toNat_lt
    have hy := y.toNat_lt
    simp only [wordSum, List.length_cons]
    omega

/-- The loop computes the sum, unless it does not fit 32 bits. -/
lemma sumWords_eq {ε : Type} (data : List UInt8) (hs : sum < 2 ^ 32) :
    (sumWords data sum : Outcome ε Nat) =
      if sum + wordSum data < 2 ^ 32 then .ok (sum + wordSum data) else .panic := by
  induction data, sum using sumWords.induct with
  | case1 sum =>
    rw [sumWords, wordSum, Nat.add_zero, if_pos hs]
  | case2 x sum => rfl
  | case3 x y rest sum ih =>
    rw [sumWords, wordSum, Outcome.uadd]
    have hassoc := Nat.add_assoc sum (x.toNat * 256 + y.toNat) (wordSum rest)
    by_cases h : sum + (x.toNat * 256 + y.toNat) < 2 ^ 32
    · rw [if_pos h, Outcome.ok_bind, ih (sum + (x.toNat * 256 + y.toNat)) h]
      simp only [hassoc]
    · rw [if_neg h, Outcome.panic_bind, if_neg]
      rw [← hassoc]
      exact fun hlt => h (Nat.lt_of_le_of_lt (Nat.le_add_right _ _) hlt)

/-! ## The folding loop -/

/-- A sum modulo 65535, with 65535 for the multiples that are not zero. -/
def residue (sum : Nat) : Nat := if sum = 0 then 0 else (sum - 1) % 65535 + 1

lemma residue_step (sum : Nat) : residue (sum % 2 ^ 16 + sum / 2 ^ 16) = residue sum := by
  unfold residue
  split
  next h => rw [if_pos (by omega)]
  next h =>
    rw [if_neg (by omega)]
    omega

lemma residue_of_lt (h : sum < 2 ^ 16) : residue sum = sum := by
  unfold residue
  split <;> omega

/-- Two folds leave at most one carry. -/
lemma fold16_eq (h : sum < 2 ^ 32) : fold16 sum = residue sum := by
  have step : ∀ fuel s, (s < 2 ^ 16 ∨ foldCarry fuel (s % 2 ^ 16 + s / 2 ^ 16) =
      residue (s % 2 ^ 16 + s / 2 ^ 16)) → foldCarry (fuel + 1) s = residue s := by
    intro fuel s hs
    unfold foldCarry
    split
    next hc =>
      rcases hs with hlt | hs
      · omega
      · rw [hs, residue_step]
    next hc => exact (residue_of_lt (by omega)).symm
  refine step 2 sum (.inr (step 1 _ (.inr (step 0 _ ?_))))
  exact .inl (by omega)

lemma residue_le (sum : Nat) : residue sum ≤ 65535 := by
  unfold residue
  split <;> omega

/-- A field that holds the complement of the folded rest brings the whole sum to
all ones. -/
lemma fold16_complement (h : sum + 65535 < 2 ^ 32) :
    fold16 (sum + (65535 - fold16 sum)) = 65535 := by
  have hfold : fold16 sum = residue sum := fold16_eq (by omega)
  rw [hfold, fold16_eq (by omega)]
  unfold residue
  by_cases hs : sum = 0
  · rw [if_pos hs, if_neg (by omega)]
    omega
  · rw [if_neg hs, if_neg (by omega)]
    omega

/-- The same for a complement of zero that is sent as all ones. -/
lemma fold16_complement_zero (h : sum + 65535 < 2 ^ 32) (hz : 65535 - fold16 sum = 0) :
    fold16 (sum + 65535) = 65535 := by
  have hle := residue_le sum
  have hfold : fold16 sum = residue sum := fold16_eq (by omega)
  rw [fold16_eq h]
  have hres : residue sum = 65535 := by omega
  unfold residue at hres ⊢
  split at hres
  next => omega
  next =>
    rw [if_neg (by omega)]
    omega

end RustOs.Lib
