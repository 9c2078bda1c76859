import Mathlib.Data.List.DropRight

/-!
# Strings

A `&str` is a list of characters; its bytes are their UTF-8 encodings. The
functions here are the standard-library string functions the file systems
call, and the facts are the ones their path handling needs: how a path falls
into components, what `rfind` splits off, and that decoding undoes encoding.
-/

namespace RustOs.Lib

/-- A `&str` or a `String`. -/
abbrev Str := List Char

variable (c : Char)

/-- `trim_start_matches(c)`. -/
def trimStartMatches (s : Str) : Str := s.dropWhile (· == c)

/-- `trim_end_matches(c)`. -/
def trimEndMatches (s : Str) : Str := (s.reverse.dropWhile (· == c)).reverse

/-- `trim_start_matches(pat)` for a string pattern: strip it as often as it is
there. The empty pattern strips nothing. -/
def trimStartStr (pat s : Str) : Str :=
  if _h : pat ≠ [] ∧ pat.isPrefixOf s then trimStartStr pat (s.drop pat.length) else s
  termination_by s.length
  decreasing_by
    have hp : pat.length ≤ s.length := (List.isPrefixOf_iff_prefix.mp _h.2).length_le
    have hn : 0 < pat.length := List.length_pos_iff.mpr _h.1
    simp only [List.length_drop]
    omega

/-- `char::is_whitespace`: the Unicode `White_Space` property. -/
def isWhitespace : Bool :=
  (0x9 ≤ c.toNat && c.toNat ≤ 0xD) || c.toNat == 0x20 || c.toNat == 0x85 || c.toNat == 0xA0
    || c.toNat == 0x1680 || (0x2000 ≤ c.toNat && c.toNat ≤ 0x200A) || c.toNat == 0x2028
    || c.toNat == 0x2029 || c.toNat == 0x202F || c.toNat == 0x205F || c.toNat == 0x3000

/-- `trim()`. -/
def trim (s : Str) : Str := ((s.dropWhile isWhitespace).reverse.dropWhile isWhitespace).reverse

/-- `rfind(c)`, as the two slices around the position it finds. -/
def rfindSplit (c : Char) : Str → Option (Str × Str)
  | [] => none
  | a :: s =>
    match rfindSplit c s with
    | some (x, y) => some (a :: x, y)
    | none => if a = c then some ([], s) else none

/-- `split('/').filter(|s| !s.is_empty())`. -/
def components (s : Str) : List Str := (s.splitOn '/').filter (fun t => !t.isEmpty)

/-- The UTF-8 bytes of a string. -/
def utf8 (s : Str) : List UInt8 := s.flatMap String.utf8EncodeChar

/-- The UTF-16 units of a character: itself, or a surrogate pair. -/
def utf16Char : List UInt16 :=
  if c.toNat < 0x10000 then [UInt16.ofNat c.toNat]
  else [UInt16.ofNat (0xD800 + (c.toNat - 0x10000) / 0x400),
    UInt16.ofNat (0xDC00 + (c.toNat - 0x10000) % 0x400)]

/-- The UTF-16 units of a string. -/
def utf16 (s : Str) : List UInt16 := s.flatMap utf16Char

/-- `core::str::from_utf8`. -/
def fromUtf8 (b : List UInt8) : Option Str := (b.toByteArray.utf8Decode?).map (·.toList)

/-! ## Facts -/

lemma trimStartMatches_idem (s : Str) :
    trimStartMatches c (trimStartMatches c s) = trimStartMatches c s :=
  List.dropWhile_idempotent _ s

lemma rfindSplit_eq_none {c : Char} {s : Str} : rfindSplit c s = none ↔ c ∉ s := by
  induction s with
  | nil => simp [rfindSplit]
  | cons a s ih =>
    simp only [rfindSplit]
    cases h : rfindSplit c s with
    | none =>
      have hs := ih.mp h
      by_cases hac : a = c
      · simp [hac]
      · simp [hac, hs, Ne.symm hac]
    | some p =>
      have hs : c ∈ s := Decidable.byContradiction fun hc => by
        rw [ih.mpr hc] at h
        exact absurd h (by simp)
      simp [hs]

/-- `rfind` splits at the last occurrence. -/
lemma rfindSplit_eq_some {c : Char} {s x y : Str} (h : rfindSplit c s = some (x, y)) :
    s = x ++ c :: y ∧ c ∉ y := by
  induction s generalizing x y with
  | nil => simp [rfindSplit] at h
  | cons a s ih =>
    simp only [rfindSplit] at h
    cases hs : rfindSplit c s with
    | none =>
      rw [hs] at h
      by_cases hac : a = c
      · rw [if_pos hac] at h
        obtain ⟨rfl, rfl⟩ := h
        exact ⟨by rw [hac]; rfl, rfindSplit_eq_none.mp hs⟩
      · rw [if_neg hac] at h
        simp at h
    | some p =>
      rw [hs] at h
      obtain ⟨rfl, rfl⟩ := h
      obtain ⟨h1, h2⟩ := ih hs
      exact ⟨by rw [h1]; rfl, h2⟩

lemma rfindSplit_append {c : Char} {x y : Str} (h : c ∉ y) :
    rfindSplit c (x ++ c :: y) = some (x, y) := by
  induction x with
  | nil =>
    rw [List.nil_append, rfindSplit, rfindSplit_eq_none.mpr h]
    exact if_pos rfl
  | cons a x ih => rw [List.cons_append, rfindSplit, ih]

@[simp] lemma utf8_cons (s : Str) :
    utf8 (c :: s) = String.utf8EncodeChar c ++ utf8 s := rfl

@[simp] lemma utf8_append (s t : Str) : utf8 (s ++ t) = utf8 s ++ utf8 t := by
  simp [utf8]

/-- Without surrogate pairs there is one unit for each character. -/
lemma utf16_of_lt {s : Str} (h : ∀ c ∈ s, c.toNat < 0x10000) :
    utf16 s = s.map fun c => UInt16.ofNat c.toNat := by
  induction s with
  | nil => rfl
  | cons c s ih =>
    have hc : utf16Char c = [UInt16.ofNat c.toNat] := if_pos (h c List.mem_cons_self)
    show utf16Char c ++ utf16 s = _
    rw [hc, ih fun c' hc' => h c' (List.mem_cons_of_mem _ hc')]
    rfl

/-- Decoding undoes encoding. -/
lemma fromUtf8_utf8 (s : Str) : fromUtf8 (utf8 s) = some s := by
  have h : (utf8 s).toByteArray = s.utf8Encode := rfl
  rw [fromUtf8, h, List.utf8Decode?_utf8Encode]
  simp

/-- Only the bytes of a string decode to it. -/
lemma utf8_of_fromUtf8 {b : List UInt8} {s : Str} (h : fromUtf8 b = some s) : utf8 s = b := by
  simp only [fromUtf8, Option.map_eq_some_iff] at h
  obtain ⟨a, ha, rfl⟩ := h
  have hsome : (b.toByteArray.utf8Decode?).isSome := by rw [ha]; rfl
  have henc := ByteArray.utf8Encode_get_utf8Decode? (h := hsome)
  have hget : (b.toByteArray.utf8Decode?).get hsome = a := by simp [ha]
  rw [hget] at henc
  have hdata := congrArg (fun x : ByteArray => x.data.toList) henc
  simpa [List.utf8Encode, utf8] using hdata

end RustOs.Lib
