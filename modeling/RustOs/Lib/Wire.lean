import RustOs.Lib.Outcome

/-!
# Bytes on the wire

Packets are lists of bytes with big-endian integers at fixed places. `be16` and
`be32` are `to_be_bytes`, `u16At` and `u32At` read an integer back, and `range` is
the slice `b[lo..hi]`, which panics when the bounds are not in order.

A parser that walks through a buffer reads it with `byte` and `four`, which
panic past the end. `At buf i xs` says that the bytes `xs` stand in the buffer from `i`
on; it splits along `++` (`At.left`, `At.right`), and each read has a rule under it.
-/

namespace RustOs.Lib

open List Outcome UInt8

/-- `to_be_bytes` of a `u16`. -/
def be16 (x : UInt16) : List UInt8 := [UInt8.ofNat (x.toNat / 256), UInt8.ofNat x.toNat]

/-- `to_be_bytes` of a `u32`. -/
def be32 (x : UInt32) : List UInt8 :=
  [UInt8.ofNat (x.toNat / 2 ^ 24), UInt8.ofNat (x.toNat / 2 ^ 16), UInt8.ofNat (x.toNat / 256),
    UInt8.ofNat x.toNat]

/-- `u16::from_be_bytes`. -/
def ofBe16 (a b : UInt8) : UInt16 := UInt16.ofNat (a.toNat * 256 + b.toNat)

/-- `u32::from_be_bytes`. -/
def ofBe32 (a b c d : UInt8) : UInt32 :=
  UInt32.ofNat (a.toNat * 2 ^ 24 + b.toNat * 2 ^ 16 + c.toNat * 256 + d.toNat)

/-- The `u16` at an offset that lies inside the buffer. -/
def u16At (buf : List UInt8) (i : Nat) : UInt16 := ofBe16 (buf.getD i 0) (buf.getD (i + 1) 0)

/-- The `u32` at an offset that lies inside the buffer. -/
def u32At (buf : List UInt8) (i : Nat) : UInt32 :=
  ofBe32 (buf.getD i 0) (buf.getD (i + 1) 0) (buf.getD (i + 2) 0) (buf.getD (i + 3) 0)

/-- The slice `buf[lo..hi]`. -/
def range {ε : Type} (buf : List UInt8) (lo hi : Nat) : Outcome ε (List UInt8) :=
  if lo ≤ hi ∧ hi ≤ buf.length then .ok ((buf.drop lo).take (hi - lo)) else .panic

variable (x : UInt16)

@[simp] lemma be16_length : (be16 x).length = 2 := rfl

@[simp] lemma be32_length (x : UInt32) : (be32 x).length = 4 := rfl

@[simp] lemma ofBe16_be16 :
    ofBe16 (ofNat (x.toNat / 256)) (ofNat x.toNat) = x := by
  have hx := x.toNat_lt
  have hsum : x.toNat / 256 % 2 ^ 8 * 256 + x.toNat % 2 ^ 8 = x.toNat := by omega
  unfold ofBe16
  rw [toNat_ofNat', toNat_ofNat', hsum]
  exact UInt16.ofNat_toNat

@[simp] lemma ofBe32_be32 (x : UInt32) :
    ofBe32 (ofNat (x.toNat / 2 ^ 24)) (ofNat (x.toNat / 2 ^ 16))
      (ofNat (x.toNat / 256)) (ofNat x.toNat) = x := by
  have hx := x.toNat_lt
  have hsum : x.toNat / 2 ^ 24 % 2 ^ 8 * 2 ^ 24 + x.toNat / 2 ^ 16 % 2 ^ 8 * 2 ^ 16 +
      x.toNat / 256 % 2 ^ 8 * 256 + x.toNat % 2 ^ 8 = x.toNat := by omega
  unfold ofBe32
  rw [toNat_ofNat', toNat_ofNat', toNat_ofNat', toNat_ofNat', hsum]
  exact UInt32.ofNat_toNat

lemma u16At_succ (a : UInt8) (l : List UInt8) (i : Nat) : u16At (a :: l) (i + 1) = u16At l i := rfl

lemma u16At_zero (l : List UInt8) :
    u16At (ofNat (x.toNat / 256) :: ofNat x.toNat :: l) 0 = x := ofBe16_be16 x

lemma u32At_succ (a : UInt8) (l : List UInt8) (i : Nat) : u32At (a :: l) (i + 1) = u32At l i := rfl

lemma u32At_zero (x : UInt32) (l : List UInt8) :
    u32At (ofNat (x.toNat / 2 ^ 24) :: ofNat (x.toNat / 2 ^ 16) ::
      ofNat (x.toNat / 256) :: ofNat x.toNat :: l) 0 = x := ofBe32_be32 x

/-- The two bytes of a `u16`, as a word. -/
lemma be16_word :
    (ofNat (x.toNat / 256)).toNat * 256 + (ofNat x.toNat).toNat = x.toNat := by
  have hx := x.toNat_lt
  rw [toNat_ofNat', toNat_ofNat']
  omega

lemma range_of_le {ε : Type} {buf : List UInt8} {lo hi : Nat} (h : lo ≤ hi) (h' : hi ≤ buf.length) :
    (range buf lo hi : Outcome ε (List UInt8)) = .ok ((buf.drop lo).take (hi - lo)) :=
  if_pos ⟨h, h'⟩

lemma range_of_lt {ε : Type} {buf : List UInt8} {lo hi : Nat} (h : hi < lo) :
    (range buf lo hi : Outcome ε (List UInt8)) = .panic :=
  if_neg fun h' => Nat.not_lt.mpr h'.1 h

/-! ## Walking through a buffer -/

/-- `buf[i]`. -/
def byte {ε : Type} (buf : List UInt8) (i : Nat) : Outcome ε UInt8 :=
  match buf[i]? with
  | some b => .ok b
  | none => .panic

/-- What `k` makes of `[buf[i], buf[i + 1], buf[i + 2], buf[i + 3]]`. -/
def four {ε α : Type} (k : UInt8 → UInt8 → UInt8 → UInt8 → α) (buf : List UInt8) (i : Nat) :
    Outcome ε α := do
  let a ← byte buf i
  let b ← byte buf (i + 1)
  let c ← byte buf (i + 2)
  let d ← byte buf (i + 3)
  return k a b c d

section
variable {ε α : Type} {buf : List UInt8} {i : Nat}

lemma byte_of_lt (h : i < buf.length) : (byte buf i : Outcome ε UInt8) = .ok buf[i] := by
  rw [byte, getElem?_eq_getElem h]

lemma four_of_lt {k : UInt8 → UInt8 → UInt8 → UInt8 → α} (h : i + 3 < buf.length) :
    (four k buf i : Outcome ε α) = .ok (k buf[i] buf[i + 1] buf[i + 2] buf[i + 3]) := by
  rw [four, byte_of_lt (by omega), ok_bind, byte_of_lt (by omega), ok_bind,
    byte_of_lt (by omega), ok_bind, byte_of_lt h]
  rfl

end

/-- The bytes stand in the buffer from this place on. -/
def At (buf : List UInt8) (i : Nat) (xs : List UInt8) : Prop :=
  ∃ front back, buf = front ++ (xs ++ back) ∧ front.length = i

namespace At

variable {ε α : Type} {buf xs ys : List UInt8} {i : Nat} {a b c d : UInt8}

lemma left (h : At buf i (xs ++ ys)) : At buf i xs := by
  obtain ⟨front, back, rfl, hi⟩ := h
  exact ⟨front, ys ++ back, by rw [append_assoc], hi⟩

lemma right (h : At buf i (xs ++ ys)) : At buf (i + xs.length) ys := by
  obtain ⟨front, back, rfl, rfl⟩ := h
  exact ⟨front ++ xs, back, by simp only [append_assoc], length_append⟩

lemma tail (h : At buf i (a :: xs)) : At buf (i + 1) xs := by
  have h : At buf i ([a] ++ xs) := h
  exact h.right

lemma le (h : At buf i xs) : i + xs.length ≤ buf.length := by
  obtain ⟨front, back, rfl, rfl⟩ := h
  simp only [length_append]
  omega

lemma byte (h : At buf i (a :: xs)) : (byte buf i : Outcome ε UInt8) = .ok a := by
  obtain ⟨front, back, rfl, rfl⟩ := h
  rw [Lib.byte, getElem?_append_right (Nat.le_refl _), Nat.sub_self]
  rfl

lemma four {k : UInt8 → UInt8 → UInt8 → UInt8 → α} (h : At buf i (a :: b :: c :: d :: xs)) :
    (four k buf i : Outcome ε α) = .ok (k a b c d) := by
  rw [Lib.four, h.byte, ok_bind, h.tail.byte, ok_bind, h.tail.tail.byte,
    ok_bind, h.tail.tail.tail.byte]
  rfl

lemma range (h : At buf i xs) :
    (range buf i (i + xs.length) : Outcome ε (List UInt8)) = .ok xs := by
  obtain ⟨front, back, rfl, rfl⟩ := h
  rw [range_of_le (Nat.le_add_right _ _) (by simp), drop_left, Nat.add_sub_cancel_left,
    take_left]

end At

end RustOs.Lib
