import Mathlib.Algebra.Group.Nat.Defs

/-!
# Byte strings

On-disk structures are read and written as little- or big-endian integers at
byte offsets of a buffer. A buffer is a list of bytes; `leAt b off w` is the
`w`-byte little-endian integer at `off` and `patch b off bs` is
`b[off..off + bs.len()].copy_from_slice(bs)`.

The two facts everything above rests on: a patched integer reads back as
itself (`leAt_patch_leBytes`), and a read that does not overlap a patch does
not see it (`leAt_patch_of_disjoint`).
-/

namespace RustOs.Lib

open List Nat

variable {b : List UInt8} {off n : Nat} {bs : List UInt8}

/-- The `w`-byte little-endian integer at offset `off`. -/
def leAt (b : List UInt8) : Nat → Nat → Nat
  | _, 0 => 0
  | off, w + 1 => (b.getD off 0).toNat + 256 * leAt b (off + 1) w

/-- The `w`-byte big-endian integer at offset `off`. -/
def beAt (b : List UInt8) : Nat → Nat → Nat
  | _, 0 => 0
  | off, w + 1 => (b.getD off 0).toNat * 256 ^ w + beAt b (off + 1) w

/-- The `w` low bytes of `n`, least significant first (`to_le_bytes`). -/
def leBytes : Nat → Nat → List UInt8
  | 0, _ => []
  | w + 1, n => UInt8.ofNat n :: leBytes w (n / 256)

/-- Overwrite `b` from `off` on with `bs`. -/
def patch (b : List UInt8) (off : Nat) (bs : List UInt8) : List UInt8 :=
  b.take off ++ bs ++ b.drop (off + bs.length)

/-- `data` padded with zeros to `n` bytes. -/
def padTo (n : Nat) (data : List UInt8) : List UInt8 :=
  data ++ List.replicate (n - data.length) 0

/-- The bytes `off..off + n` of `b`. -/
def slice (b : List UInt8) (off n : Nat) : List UInt8 := (b.drop off).take n

@[simp] lemma leBytes_length (w n : Nat) : (leBytes w n).length = w := by
  induction w generalizing n with
  | zero => rfl
  | succ w ih => simp [leBytes, ih]

lemma patch_length (h : off + bs.length ≤ b.length) :
    (patch b off bs).length = b.length := by
  simp only [patch, length_append, length_take, length_drop]
  omega

lemma padTo_length {data : List UInt8} (h : data.length ≤ n) : (padTo n data).length = n := by
  simp only [padTo, length_append, length_replicate]
  omega

lemma padTo_of_length {data : List UInt8} (h : data.length = n) : padTo n data = data := by
  simp [padTo, h]

/-- Reading a patched buffer: the patch inside its range, the old bytes outside. -/
lemma getD_patch {i : Nat} (h : off + bs.length ≤ b.length) :
    (patch b off bs).getD i 0
      = if off ≤ i ∧ i < off + bs.length then bs.getD (i - off) 0 else b.getD i 0 := by
  simp only [patch, getD_eq_getElem?_getD, append_assoc]
  rcases Nat.lt_or_ge i off with hi | hi
  · rw [getElem?_append_left (by simp; omega), getElem?_take, if_pos hi, if_neg (by omega)]
  · rw [getElem?_append_right (by simp; omega)]
    have hlen : (take off b).length = off := by simp; omega
    rw [hlen]
    rcases Nat.lt_or_ge i (off + bs.length) with hi' | hi'
    · rw [getElem?_append_left (by omega), if_pos ⟨hi, hi'⟩]
    · rw [getElem?_append_right (by omega), getElem?_drop, if_neg (by omega)]
      congr 2
      omega

lemma leAt_lt (b : List UInt8) (off w : Nat) : leAt b off w < 256 ^ w := by
  induction w generalizing off with
  | zero => simp [leAt]
  | succ w ih =>
    have h1 := ih (off + 1)
    have h2 := (b.getD off 0).toNat_lt
    simp only [leAt]
    omega

lemma beAt_lt (b : List UInt8) (off w : Nat) : beAt b off w < 256 ^ w := by
  induction w generalizing off with
  | zero => simp [beAt]
  | succ w ih =>
    have h1 := ih (off + 1)
    have h2 : (b.getD off 0).toNat ≤ 255 := by have := (b.getD off 0).toNat_lt; omega
    have h3 : (b.getD off 0).toNat * 256 ^ w ≤ 255 * 256 ^ w := mul_le_mul_right _ h2
    simp only [beAt]
    omega

/-- Two buffers with the same bytes in the range hold the same integer there. -/
lemma leAt_congr {b' : List UInt8} {w : Nat} :
    ∀ {off off' : Nat}, (∀ i, i < w → b.getD (off + i) 0 = b'.getD (off' + i) 0) →
      leAt b off w = leAt b' off' w := by
  induction w with
  | zero => intro off off' _; rfl
  | succ w ih =>
    intro off off' h
    have h0 := h 0 (by omega)
    have hrest : leAt b (off + 1) w = leAt b' (off' + 1) w := by
      apply ih
      intro i hi
      have hi1 := h (i + 1) (by omega)
      rw [show off + 1 + i = off + (i + 1) by omega, show off' + 1 + i = off' + (i + 1) by omega]
      exact hi1
    simp only [add_zero] at h0
    simp only [leAt, h0, hrest]

lemma leAt_replicate_zero (k off w : Nat) : leAt (replicate k 0) off w = 0 := by
  induction w generalizing off with
  | zero => rfl
  | succ w ih =>
    have hbyte : (replicate k (0 : UInt8)).getD off 0 = 0 := by
      rw [getD_eq_getElem?_getD, getElem?_replicate]
      split <;> rfl
    rw [leAt, hbyte, ih]
    rfl

/-- An integer written with `leBytes` reads back wherever it stands, cut to its
width. -/
lemma leAt_append_leBytes (w n : Nat) (pre post : List UInt8) :
    leAt (pre ++ (leBytes w n ++ post)) pre.length w = n % 256 ^ w := by
  induction w generalizing n pre with
  | zero => simp [leAt, mod_one]
  | succ w ih =>
    have hnext := ih (n / 256) (pre ++ [UInt8.ofNat n])
    simp only [length_append, length_singleton, append_assoc, singleton_append] at hnext
    have hhead : (pre ++ UInt8.ofNat n :: (leBytes w (n / 256) ++ post)).getD pre.length 0
        = UInt8.ofNat n := by simp
    have hpow : 256 ^ (w + 1) = 256 * 256 ^ w := by rw [pow_succ, mul_comm]
    simp only [leAt, leBytes, cons_append, hnext]
    rw [hhead, UInt8.toNat_ofNat', hpow, mod_mul]

lemma leAt_leBytes (w n : Nat) : leAt (leBytes w n) 0 w = n % 256 ^ w := by
  have h := leAt_append_leBytes w n [] []
  simpa using h

/-- A patched integer reads back as itself. -/
lemma leAt_patch_leBytes {w : Nat} (h : off + w ≤ b.length) :
    leAt (patch b off (leBytes w n)) off w = n % 256 ^ w := by
  rw [← leAt_leBytes]
  apply leAt_congr
  intro i hi
  rw [getD_patch (by simpa using h), if_pos (by simp; omega), zero_add]
  congr 1
  omega

/-- A read that does not overlap the patch does not see it. -/
lemma leAt_patch_of_disjoint {off' w : Nat}
    (h : off + bs.length ≤ b.length) (hd : off' + w ≤ off ∨ off + bs.length ≤ off') :
    leAt (patch b off bs) off' w = leAt b off' w := by
  apply leAt_congr
  intro i hi
  rw [getD_patch h, if_neg (by omega)]

/-- The patched range holds the patch. -/
lemma slice_patch (h : off + bs.length ≤ b.length) :
    slice (patch b off bs) off bs.length = bs := by
  have hlen : (b.take off).length = off := by simp; omega
  simp only [slice, patch, append_assoc]
  rw [drop_append, drop_of_length_le (by omega), hlen, Nat.sub_self, drop_zero,
    nil_append, take_left]

lemma slice_length (h : off + n ≤ b.length) : (slice b off n).length = n := by
  simp only [slice, length_take, length_drop]
  omega

/-- A slice inside the buffer, byte by byte. -/
lemma slice_eq_map (h : off + n ≤ b.length) :
    slice b off n = (range n).map fun i => b.getD (off + i) 0 := by
  refine ext_getElem (by rw [slice_length h, length_map, length_range]) ?_
  intro i h₁ h₂
  rw [slice_length h] at h₁
  rw [getElem_map, getElem_range, getD_eq_getElem?_getD, getElem?_eq_getElem (by omega)]
  simp only [slice, getElem_take, getElem_drop, Option.getD_some]

/-- A slice that does not overlap the patch does not see it. -/
lemma slice_patch_of_disjoint {off' : Nat}
    (h : off + bs.length ≤ b.length) (h' : off' + n ≤ b.length)
    (hd : off' + n ≤ off ∨ off + bs.length ≤ off') :
    slice (patch b off bs) off' n = slice b off' n := by
  rw [slice_eq_map (by rw [patch_length h]; exact h'), slice_eq_map h']
  refine map_congr_left fun i hi => ?_
  have hi' := mem_range.mp hi
  rw [getD_patch h, if_neg (by omega)]

lemma getD_slice {i : Nat} (h : i < n) : (slice b off n).getD i 0 = b.getD (off + i) 0 := by
  simp only [slice, getD_eq_getElem?_getD, getElem?_take, if_pos h, getElem?_drop]

/-- An integer inside a slice is read where the slice lies. -/
lemma leAt_slice {k w : Nat} (h : k + w ≤ n) : leAt (slice b off n) k w = leAt b (off + k) w := by
  apply leAt_congr
  intro i hi
  rw [getD_slice (by omega), add_assoc]

lemma slice_slice {k m : Nat} (h : k + m ≤ n) :
    slice (slice b off n) k m = slice b (off + k) m := by
  simp only [slice, drop_take, drop_drop, take_take]
  rw [Nat.min_eq_left (by omega)]

/-- Patching the first byte of a block is patching the block. -/
lemma patch_head (x : UInt8) (h : off + (n + 1) ≤ b.length) :
    patch b off [x] = patch b off (x :: (slice b off (n + 1)).tail) := by
  have hlt : off < b.length := by omega
  have htail : (slice b off (n + 1)).tail = (b.drop (off + 1)).take n := by
    rw [slice, drop_eq_getElem_cons hlt, take_succ_cons, tail_cons]
  have hlen : ((b.drop (off + 1)).take n).length = n := by
    rw [length_take, length_drop]
    omega
  have hdrop : b.drop (off + 1) = (b.drop (off + 1)).take n ++ b.drop (off + (n + 1)) := by
    have hd : b.drop (off + (n + 1)) = (b.drop (off + 1)).drop n := by
      rw [drop_drop, show off + 1 + n = off + (n + 1) by omega]
    rw [hd, take_append_drop]
  rw [htail]
  simp only [patch, length_cons, length_nil, hlen, append_assoc, cons_append, nil_append]
  rw [← hdrop]

/-- A buffer is the run of its blocks. -/
lemma flatMap_range_slice (b : List UInt8) (n k : Nat) :
    ((range n).flatMap fun i => slice b (i * k) k) = b.take (n * k) := by
  induction n with
  | zero => simp
  | succ n ih =>
    rw [range_succ, flatMap_append, ih, succ_mul, take_add]
    simp [slice]

/-- A unit of a row of units ends where the row does, at the latest. -/
lemma unit_end_le (s : Nat) {i n : Nat} (h : i < n) : i * s + s ≤ n * s := by
  rw [← add_one_mul]
  exact mul_le_mul_right s h

end RustOs.Lib
