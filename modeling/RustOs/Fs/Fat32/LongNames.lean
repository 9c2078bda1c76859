import RustOs.Fs.Fat32.Ownership

/-!
# Long file names

VFAT keeps a long name in slots in front of the short-name entry: 13 UTF-16
units each, the last piece first, every slot with the checksum of the short
name. `lfnSlots` lays a name out that way, as the specification describes it
and without a look at the reader, and a `Item` is what stands at one place of a
directory: an entry with or without a long name, a deleted slot or a label.

`read_directory_with_lfn` decodes unit by unit: `char::from_u32` refuses the
two halves of a surrogate pair, and a unit `0xFFFF` is taken for padding. So it
gives every entry the name that was stored for it exactly when all names stay
below U+FFFF:

> `readDirectoryWithLfn_stored`: the directory reads back as it was stored if
> and only if no stored name has a character from U+FFFF on.
-/

namespace RustOs.Fs.Fat32

open Lib Nat DirectoryEntry Drivers
open List hiding Vector
open LfnState

/-! ## The stored form -/

/-- A name VFAT can hold: 1 to 255 units, no NUL. -/
structure LongName where
  chars : Str
  ne_nil : chars ≠ []
  units_le : (utf16 chars).length ≤ 255
  no_nul : '\x00' ∉ chars

variable (units : List UInt16)

/-- The units of a name, NUL-terminated and padded with `0xFFFF` to whole
slots. A name that fills its last slot has no terminator. -/
def lfnPadded : List UInt16 :=
  if units.length % 13 = 0 then units
  else units ++ 0 :: List.replicate (12 - units.length % 13) 0xFFFF

/-- Piece `i` of a name. -/
def lfnPiece (i : Nat) : List UInt16 :=
  ((lfnPadded units).drop (13 * i)).take 13

/-- The slot with these 13 units: `ord`, five units, the attributes, the type,
the checksum, six units, the cluster word, two units. -/
def lfnSlot (ord chk : UInt8) (piece : List UInt16) : List UInt8 :=
  [ord] ++ (piece.take 5).flatMap (fun w => leBytes 2 w.toNat)
    ++ [0x0F, 0, chk] ++ ((piece.drop 5).take 6).flatMap (fun w => leBytes 2 w.toNat)
    ++ [0, 0] ++ (piece.drop 11).flatMap (fun w => leBytes 2 w.toNat)

/-- The slots a name takes. -/
def lfnCount : Nat := (lfnPadded units).length / 13

/-- The ordinal of piece `i` of `n`, with the last-slot bit on the last. -/
def lfnOrd (n i : Nat) : UInt8 := UInt8.ofNat (if i + 1 = n then i + 1 + 0x40 else i + 1)

/-- The slots of a name in front of an entry, the last piece first. -/
def lfnSlots (short : Vector UInt8 11) (units : List UInt16) : List (List UInt8) :=
  (List.range (lfnCount units)).reverse.map fun i =>
    lfnSlot (lfnOrd (lfnCount units) i) (sfnChecksum short) (lfnPiece units i)

/-- What stands at one place of a directory. -/
inductive Item where
  | entry (e : DirectoryEntry) (live : e.live = true) (name : Option LongName)
  | deleted (raw : List UInt8) (size : raw.length = 31)
  | label (e : DirectoryEntry) (used : e.isFree = false) (short : e.isLongName = false)
      (label : e.isVolumeLabel = true)

namespace Item

/-- The slots of an item. -/
def slots : Item → List (List UInt8)
  | entry e _ (some name) => lfnSlots e.name (utf16 name.chars) ++ [e.toBytes]
  | entry e _ none => [e.toBytes]
  | deleted raw _ => [0xE5 :: raw]
  | label e _ _ _ => [e.toBytes]

/-- What a reader should report for an item. -/
def report : Item → List (DirectoryEntry × Option Str)
  | entry e _ name => [(e, name.map LongName.chars)]
  | deleted _ _ => []
  | label _ _ _ _ => []

/-- The long name of an item. -/
def name? : Item → Option LongName
  | entry _ _ name => name
  | deleted _ _ => none
  | label _ _ _ _ => none

end Item

/-- The bytes of a directory: its items, and behind them nothing or an end mark. -/
structure StoredDirectory where
  items : List Item
  tail : List UInt8
  ended : tail = [] ∨ tail.head? = some 0

namespace StoredDirectory

def bytes (dir : StoredDirectory) : List UInt8 := (dir.items.flatMap Item.slots).flatten ++ dir.tail

/-- The listing of the directory. -/
def listing (dir : StoredDirectory) : List (DirectoryEntry × Option Str) :=
  dir.items.flatMap Item.report

end StoredDirectory

/-! ## A slot reads back -/

/-- The units of a run of words in a buffer. -/
lemma map_leAt_words (ws : List UInt16) (pre post : List UInt8) :
    (range ws.length).map
        (fun j => leAt (pre ++ (ws.flatMap (fun w => leBytes 2 w.toNat) ++ post))
          (pre.length + j * 2) 2)
      = ws.map UInt16.toNat := by
  refine ext_getElem (by simp) ?_
  intro j h₁ h₂
  have hj : j < ws.length := by simpa using h₁
  rw [getElem_map, getElem_range, getElem_map, mul_comm j 2,
    leAt_words ws pre post j hj, getD_eq_getElem?_getD,
    getElem?_eq_getElem hj, Option.getD_some]

lemma flatMap_words_length (ws : List UInt16) :
    (ws.flatMap fun w => leBytes 2 w.toNat).length = 2 * ws.length := by simp [mul_comm]

section
variable {ord chk : UInt8} {piece : List UInt16}

lemma lfnSlot_length (h : piece.length = 13) : (lfnSlot ord chk piece).length = 32 := by
  simp only [lfnSlot, length_append, flatMap_words_length, length_take, length_drop,
    length_cons, length_nil]
  omega

/-- The units of a slot are those it was made of. -/
lemma lfnChars_lfnSlot (h : piece.length = 13) :
    lfnChars (lfnSlot ord chk piece) = piece.map UInt16.toNat := by
  have h5 : (piece.take 5).length = 5 := by simp [h]
  have h6 : ((piece.drop 5).take 6).length = 6 := by simp [h]
  have h2 : (piece.drop 11).length = 2 := by simp [h]
  have hfirst := map_leAt_words (piece.take 5) [ord]
    ([0x0F, 0, chk] ++ ((piece.drop 5).take 6).flatMap (fun w => leBytes 2 w.toNat)
      ++ [0, 0] ++ (piece.drop 11).flatMap (fun w => leBytes 2 w.toNat))
  have hmiddle := map_leAt_words ((piece.drop 5).take 6)
    ([ord] ++ (piece.take 5).flatMap (fun w => leBytes 2 w.toNat) ++ [0x0F, 0, chk])
    ([0, 0] ++ (piece.drop 11).flatMap (fun w => leBytes 2 w.toNat))
  have hlast := map_leAt_words (piece.drop 11)
    ([ord] ++ (piece.take 5).flatMap (fun w => leBytes 2 w.toNat) ++ [0x0F, 0, chk]
      ++ ((piece.drop 5).take 6).flatMap (fun w => leBytes 2 w.toNat) ++ [0, 0]) []
  rw [h2] at hlast
  simp only [length_append, flatMap_words_length, h5, h6, length_cons, length_nil,
    reduceAdd, reduceMul, append_assoc, append_nil] at hfirst hmiddle hlast
  unfold lfnChars lfnSlot
  simp only [append_assoc]
  rw [hfirst, hmiddle, hlast, ← map_append, ← map_append]
  congr 1
  rw [show (11 : Nat) = 5 + 6 from rfl, ← drop_drop, take_append_drop, take_append_drop]

lemma lfnSlot_head : (lfnSlot ord chk piece).getD 0 0 = ord := by
  simp [lfnSlot]

lemma lfnSlot_marks (h : piece.length = 13) :
    (lfnSlot ord chk piece).getD 11 0 = 0x0F ∧ (lfnSlot ord chk piece).getD 13 0 = chk := by
  have h5 : ((piece.take 5).flatMap fun w => leBytes 2 w.toNat).length = 10 := by
    rw [flatMap_words_length, length_take, h]
    rfl
  simp only [lfnSlot, append_assoc, getD_eq_getElem?_getD]
  constructor <;>
    rw [getElem?_append_right (by simp), getElem?_append_right (by simp [h5]), h5] <;> rfl

lemma lfnSlot_isLongName (h : piece.length = 13) :
    (ofBytes (lfnSlot ord chk piece)).isLongName = true := by
  show (((lfnSlot ord chk piece).getD 11 0 &&& 0x0F) == 0x0F) = true
  rw [(lfnSlot_marks h).1]
  rfl

lemma lfnSlot_isFree (h0 : ord ≠ 0) (h1 : ord ≠ 0xE5) :
    (ofBytes (lfnSlot ord chk piece)).isFree = false := by
  have hname : mark (ofBytes (lfnSlot ord chk piece)).name = ord := by simp [ofBytes, lfnSlot]
  unfold isFree
  rw [hname]
  simp [h0, h1]

end

/-! ## The slots of a name -/

section
variable (units : List UInt16)

lemma lfnPadded_length : (lfnPadded units).length = 13 * lfnCount units := by
  have hdvd : 13 ∣ (lfnPadded units).length := by
    unfold lfnPadded
    split
    next h => exact dvd_of_mod_eq_zero h
    next h =>
      refine dvd_of_mod_eq_zero ?_
      simp only [length_append, length_cons, length_replicate]
      omega
  exact (Nat.mul_div_cancel' hdvd).symm

/-- A name and its padding: at most 12 units more. -/
lemma lfnPadded_eq : ∃ z, lfnPadded units = units ++ z ∧ z.length ≤ 12 ∧
    (z = [] ∨ z.head? = some 0) := by
  unfold lfnPadded
  split
  next => exact ⟨[], (append_nil _).symm, by simp, .inl rfl⟩
  next h =>
    refine ⟨0 :: replicate (12 - units.length % 13) 0xFFFF, rfl, ?_, .inr rfl⟩
    simp only [length_cons, length_replicate]
    omega

lemma lfnCount_le (h : units.length ≤ 255) : lfnCount units ≤ 20 := by
  obtain ⟨z, hz, hlen, -⟩ := lfnPadded_eq units
  have hp := lfnPadded_length units
  rw [hz, length_append] at hp
  omega

lemma lfnPiece_length {i : Nat} (h : i < lfnCount units) : (lfnPiece units i).length = 13 := by
  have hp := lfnPadded_length units
  simp only [lfnPiece, length_take, length_drop]
  omega

end

section

variable {n i : Nat} (hn : n ≤ 20) (hi : i < n)
include hn hi

lemma lfnOrd_toNat : (lfnOrd n i).toNat = if i + 1 = n then i + 1 + 0x40 else i + 1 := by
  unfold lfnOrd
  rw [UInt8.toNat_ofNat']
  split <;> omega

/-- The position the reader takes from the ordinal. -/
lemma lfnOrd_position :
    (lfnOrd n i &&& 0x1F) - (if lfnOrd n i &&& 0x1F = 0 then 0 else 1) = UInt8.ofNat i := by
  have hall : ∀ n ≤ 20, ∀ i < n,
      (lfnOrd n i &&& 0x1F) - (if lfnOrd n i &&& 0x1F = 0 then 0 else 1) = UInt8.ofNat i := by
    decide
  exact hall n hn i hi

lemma lfnOrd_used : lfnOrd n i ≠ 0 ∧ lfnOrd n i ≠ 0xE5 := by
  have ho := lfnOrd_toNat hn hi
  refine ⟨fun h => ?_, fun h => ?_⟩
  · rw [h] at ho
    have h0 : (0 : UInt8).toNat = 0 := rfl
    split at ho <;> omega
  · rw [h] at ho
    have h0 : (0xE5 : UInt8).toNat = 0xE5 := rfl
    split at ho <;> omega

/-- The reader behind one slot of a name. -/
lemma scanSlots_lfnSlot {piece : List UInt16}
    (hp : piece.length = 13) (chk : UInt8) (B : List (List UInt8)) (st : LfnState) :
    scanSlots (lfnSlot (lfnOrd n i) chk piece :: B) st
      = scanSlots B ⟨st.parts ++ [(UInt8.ofNat i, piece.map UInt16.toNat)], chk⟩ := by
  obtain ⟨h0, h1⟩ := lfnOrd_used hn hi
  have hfree : (ofBytes (lfnSlot (lfnOrd n i) chk piece)).isFree = false :=
    lfnSlot_isFree h0 h1
  rw [scanSlots, isLast_of_not_isFree hfree, hfree, lfnSlot_isLongName hp]
  simp only [Bool.false_eq_true, if_false, if_true]
  congr 1
  unfold push
  rw [lfnSlot_head, (lfnSlot_marks hp).2, lfnChars_lfnSlot hp, lfnOrd_position hn hi]

end

variable (units : List UInt16)

/-- The pieces with their positions, the last first. -/
def lfnParts (m : Nat) : List (UInt8 × List Nat) :=
  (List.range m).reverse.map fun i => (UInt8.ofNat i, (lfnPiece units i).map UInt16.toNat)

/-- The reader behind the last `m` slots of a name. -/
lemma scanSlots_lfnSlots (h : units.length ≤ 255) (chk : UInt8)
    (B : List (List UInt8)) (m : Nat) (hm : m ≤ lfnCount units) :
    ∀ st : LfnState, st.checksum = chk ∨ 0 < m →
      scanSlots ((range m).reverse.map (fun i =>
          lfnSlot (lfnOrd (lfnCount units) i) chk (lfnPiece units i)) ++ B) st
        = scanSlots B ⟨st.parts ++ lfnParts units m, chk⟩ := by
  induction m with
  | zero =>
    intro st hst
    rcases hst with rfl | hlt
    · show scanSlots B st = scanSlots B ⟨st.parts ++ [], st.checksum⟩
      rw [append_nil]
    · omega
  | succ m ih =>
    intro st _
    have hrev : (range (m + 1)).reverse = m :: (range m).reverse := by
      rw [range_succ, reverse_append]
      rfl
    unfold lfnParts
    rw [hrev, map_cons, map_cons, cons_append,
      scanSlots_lfnSlot (lfnCount_le units h) (by omega) (lfnPiece_length units (by omega)),
      ih (by omega) _ (.inl rfl), append_assoc]
    rfl

/-! ## The order of the pieces -/

lemma orderedInsert_last {α : Type} (r : α → α → Prop) [DecidableRel r] (a : α) :
    ∀ l : List α, (∀ b ∈ l, ¬r a b) → l.orderedInsert r a = l ++ [a] := by
  intro l
  induction l with
  | nil => intro _; rfl
  | cons b l ih =>
    intro h
    rw [orderedInsert, if_neg (h b mem_cons_self), ih fun c hc => h c (mem_cons_of_mem _ hc)]
    rfl

/-- Sorting the pieces puts them back in order. -/
lemma sort_lfnParts (m : Nat) (hm : m ≤ 20) :
    (lfnParts units m).insertionSort (fun a b => a.1 ≤ b.1)
      = (range m).map fun i => (UInt8.ofNat i, (lfnPiece units i).map UInt16.toNat) := by
  induction m with
  | zero => rfl
  | succ m ih =>
    have hrev : lfnParts units (m + 1)
        = (UInt8.ofNat m, (lfnPiece units m).map UInt16.toNat) :: lfnParts units m := by
      unfold lfnParts
      rw [range_succ, reverse_append]
      rfl
    rw [hrev, insertionSort_cons, ih (by omega), range_succ, map_append,
      orderedInsert_last]
    · rfl
    · intro b hb hle
      obtain ⟨i, hi, rfl⟩ := mem_map.mp hb
      have hlt := mem_range.mp hi
      have hle' : (UInt8.ofNat m).toNat ≤ (UInt8.ofNat i).toNat := hle
      rw [UInt8.toNat_ofNat', UInt8.toNat_ofNat'] at hle'
      omega

/-! ## Decoding -/

/-- The characters the reader makes of the pieces of a name. -/
def lfnRead : Str :=
  (List.range (lfnCount units)).flatMap fun i => lfnDecode ((lfnPiece units i).map UInt16.toNat)

/-- The name the reader reports. -/
def lfnReported : Option Str :=
  if (lfnRead units).isEmpty then none else some (lfnRead units)

variable {units}

/-- An entry behind the slots of its name gets what was decoded from them. -/
lemma nameFor_lfnParts {units : List UInt16} (h : units.length ≤ 255) (h0 : 0 < lfnCount units)
    (short : Vector UInt8 11) :
    nameFor ⟨lfnParts units (lfnCount units), sfnChecksum short⟩ short = lfnReported units := by
  have hne : (lfnParts units (lfnCount units)).isEmpty = false := by
    rw [isEmpty_eq_false_iff_exists_mem]
    refine ⟨_, mem_map.mpr ⟨0, ?_, rfl⟩⟩
    exact mem_reverse.mpr (mem_range.mpr h0)
  unfold nameFor
  simp only [hne]
  rw [sort_lfnParts units _ (lfnCount_le units h), flatMap_map]
  rfl

/-- Decoded characters lie below U+FFFF. -/
lemma mem_lfnDecode {ws : List UInt16} {c : Char} (h : c ∈ lfnDecode (ws.map UInt16.toNat)) :
    c.toNat < 0xFFFF := by
  obtain ⟨u, hu, hc⟩ := mem_filterMap.mp h
  have hgood := all_eq_true.mp all_takeWhile u hu
  obtain ⟨w, -, rfl⟩ := mem_map.mp (takeWhile_subset _ hu)
  have hlt := w.toNat_lt
  split at hc
  next hvalid =>
    obtain rfl := Option.some.inj hc
    have hval : (Char.ofNat w.toNat).toNat = w.toNat := by
      unfold Char.ofNat
      rw [dif_pos hvalid]
      rfl
    simp only [Bool.and_eq_true, bne_iff_ne] at hgood
    omega
  next => contradiction

/-- A run of plain characters in front of the end of a piece decodes to itself. -/
lemma lfnDecode_plain {s : Str} (hs : ∀ c ∈ s, c.toNat < 0xFFFF ∧ c ≠ '\x00') {z : List Nat}
    (hz : z = [] ∨ z.head? = some 0) : lfnDecode (s.map Char.toNat ++ z) = s := by
  induction s with
  | nil =>
    rcases hz with rfl | hz
    · rfl
    · cases z with
      | nil => rfl
      | cons a z =>
        obtain rfl : a = 0 := Option.some.inj hz
        rfl
  | cons c s ih =>
    obtain ⟨hlt, hne⟩ := hs c mem_cons_self
    have h0 : c.toNat ≠ 0 := fun h => hne (Char.toNat_inj.mp h)
    have hgood : (c.toNat != 0 && c.toNat != 0xFFFF) = true := by
      simp only [Bool.and_eq_true, bne_iff_ne]
      omega
    have hrest := ih fun c' hc' => hs c' (mem_cons_of_mem _ hc')
    unfold lfnDecode at hrest ⊢
    rw [map_cons, cons_append, takeWhile_cons, if_pos hgood,
      filterMap_cons, if_pos (show c.toNat.isValidChar from c.valid), hrest]
    simp

section
variable {s : Str}

/-- The pieces of a plain name, in order. -/
lemma lfnRead_plain (hs : ∀ c ∈ s, c.toNat < 0xFFFF ∧ c ≠ '\x00') : lfnRead (utf16 s) = s := by
  have hunits : utf16 s = s.map fun c => UInt16.ofNat c.toNat :=
    utf16_of_lt fun c hc => by have := (hs c hc).1; omega
  have hback : ∀ t : Str, (∀ c ∈ t, c ∈ s) →
      (t.map fun c => UInt16.ofNat c.toNat).map UInt16.toNat = t.map Char.toNat := by
    intro t ht
    rw [map_map]
    refine map_congr_left fun c hc => ?_
    have hlt := (hs c (ht c hc)).1
    simp only [Function.comp, UInt16.toNat_ofNat']
    omega
  obtain ⟨z, hz, hzlen, hz0⟩ := lfnPadded_eq (utf16 s)
  have hlen := lfnPadded_length (utf16 s)
  have hulen : (utf16 s).length = s.length := by rw [hunits, length_map]
  rw [hz, length_append, hulen] at hlen
  -- after `m` pieces the first `13 * m` characters are there
  have hpieces : ∀ m ≤ lfnCount (utf16 s),
      ((range m).flatMap fun i => lfnDecode ((lfnPiece (utf16 s) i).map UInt16.toNat))
        = s.take (13 * m) := by
    intro m
    induction m with
    | zero => intro _; rfl
    | succ m ih =>
      intro hm
      have hpiece : (lfnPiece (utf16 s) m).map UInt16.toNat
          = ((s.drop (13 * m)).take 13).map Char.toNat
            ++ (z.take (13 - (s.length - 13 * m))).map UInt16.toNat := by
        unfold lfnPiece
        rw [hz, drop_append_of_le_length (by omega), take_append, map_append,
          length_drop, hulen, hunits, ← map_drop, ← map_take,
          hback _ fun c hc => mem_of_mem_drop (mem_of_mem_take hc)]
      rw [range_succ, flatMap_append, ih (by omega), flatMap_singleton, hpiece,
        lfnDecode_plain fun c hc => hs c (mem_of_mem_drop (mem_of_mem_take hc)),
        mul_succ, take_add]
      rcases hz0 with rfl | hz0
      · exact .inl (by simp)
      · cases z with
        | nil => contradiction
        | cons a z =>
          obtain rfl : a = 0 := Option.some.inj hz0
          cases hk : 13 - (s.length - 13 * m) with
          | zero => exact .inl rfl
          | succ k => exact .inr rfl
  unfold lfnRead
  rw [hpieces _ (le_refl _), take_of_length_le (by omega)]

end

/-- A name is reported as it was stored exactly when it stays below U+FFFF. -/
lemma lfnReported_iff (name : LongName) :
    lfnReported (utf16 name.chars) = some name.chars ↔ ∀ c ∈ name.chars, c.toNat < 0xFFFF := by
  unfold lfnReported
  constructor
  · intro h
    split at h
    next => contradiction
    next =>
      intro c hc
      rw [← Option.some.inj h] at hc
      obtain ⟨i, -, hi⟩ := mem_flatMap.mp hc
      exact mem_lfnDecode hi
  · intro h
    have hs : ∀ c ∈ name.chars, c.toNat < 0xFFFF ∧ c ≠ '\x00' :=
      fun c hc => ⟨h c hc, fun h0 => name.no_nul (h0 ▸ hc)⟩
    rw [lfnRead_plain hs, if_neg]
    rw [List.isEmpty_iff]
    exact name.ne_nil

/-! ## The directory -/

lemma LongName.lfnCount_pos (name : LongName) : 0 < lfnCount (utf16 name.chars) := by
  have hpos : 0 < (utf16 name.chars).length := by
    cases hc : name.chars with
    | nil => exact absurd hc name.ne_nil
    | cons c s =>
      show 0 < (utf16Char c ++ utf16 s).length
      unfold utf16Char
      split <;> simp
  obtain ⟨z, hz, -⟩ := lfnPadded_eq (utf16 name.chars)
  have hlen := lfnPadded_length (utf16 name.chars)
  rw [hz, length_append] at hlen
  omega

namespace Item

/-- What the reader reports for an item. -/
def seen : Item → List (DirectoryEntry × Option Str)
  | entry e _ name => [(e, name.bind fun n => lfnReported (utf16 n.chars))]
  | deleted _ _ => []
  | label _ _ _ _ => []

lemma slots_length (item : Item) : ∀ raw ∈ item.slots, raw.length = 32 := by
  intro raw hraw
  cases item with
  | entry e live name =>
    cases name with
    | none =>
      obtain rfl := mem_singleton.mp hraw
      exact e.toBytes_length
    | some name =>
      rcases mem_append.mp hraw with h | h
      · obtain ⟨i, hi, rfl⟩ := mem_map.mp h
        exact lfnSlot_length (lfnPiece_length _ (mem_range.mp (mem_reverse.mp hi)))
      · obtain rfl := mem_singleton.mp h
        exact e.toBytes_length
  | deleted raw' size =>
    obtain rfl := mem_singleton.mp hraw
    rw [length_cons, size]
  | label e used short label =>
    obtain rfl := mem_singleton.mp hraw
    exact e.toBytes_length

/-- A name is seen as it was written. -/
lemma scanSlots_item (item : Item) (B : List (List UInt8)) :
    scanSlots (item.slots ++ B) init = item.seen ++ scanSlots B init := by
  cases item with
  | entry e live name =>
    have hlive : isLive e.toBytes = true := by
      unfold isLive
      rw [ofBytes_toBytes]
      exact live
    cases name with
    | none =>
      show scanSlots (e.toBytes :: B) init = _
      rw [scanSlots_live hlive, ofBytes_toBytes]
      rfl
    | some name =>
      show scanSlots (lfnSlots e.name (utf16 name.chars) ++ [e.toBytes] ++ B) init = _
      rw [append_assoc, lfnSlots,
        scanSlots_lfnSlots _ name.units_le _ _ _ (le_refl _) _ (.inr name.lfnCount_pos)]
      show scanSlots (e.toBytes :: B) _ = _
      rw [scanSlots_live hlive, ofBytes_toBytes]
      show (e, nameFor ⟨lfnParts _ _, _⟩ e.name) :: _ = _
      rw [nameFor_lfnParts name.units_le name.lfnCount_pos]
      rfl
  | deleted raw size =>
    refine scanSlots_deleted ?_ ?_ B _
    · unfold isFree
      rfl
    · unfold isLast
      rfl
  | label e used short label =>
    show scanSlots (e.toBytes :: B) init = scanSlots B init
    rw [scanSlots, ofBytes_toBytes, isLast_of_not_isFree used, used, short, label]
    simp only [Bool.false_eq_true, if_false, if_true, scanSlots_clear]

/-- The reader reports an item as it was stored exactly when its name is plain. -/
lemma seen_eq_report_iff (item : Item) :
    item.seen = item.report ↔ ∀ name ∈ item.name?, ∀ c ∈ name.chars, c.toNat < 0xFFFF := by
  cases item with
  | entry e live name =>
    cases name with
    | none => simp [seen, report, name?]
    | some name =>
      simp only [seen, report, name?, Option.bind_some, Option.map_some, cons.injEq,
        Prod.mk.injEq, true_and, and_true, Option.mem_def, Option.some.injEq, forall_eq',
        lfnReported_iff]
  | _ => simp [seen, report, name?]

end Item

namespace StoredDirectory

section

variable (dir : StoredDirectory)

/-- The slots of a directory, with what stands behind the end. -/
lemma slots_bytes : slots dir.bytes = dir.items.flatMap Item.slots ++ slots dir.tail := by
  have hrows : ∀ rows : List (List UInt8), (∀ raw ∈ rows, raw.length = 32) →
      slots (rows.flatten ++ dir.tail) = rows ++ slots dir.tail := by
    intro rows
    induction rows with
    | nil => intro _; rfl
    | cons raw rows ih =>
      intro h
      rw [flatten_cons, append_assoc, slots_append (h raw mem_cons_self),
        ih fun r hr => h r (mem_cons_of_mem _ hr)]
      rfl
  refine hrows _ fun raw hraw => ?_
  obtain ⟨item, -, hitem⟩ := mem_flatMap.mp hraw
  exact item.slots_length raw hitem

/-- Nothing is reported behind the end. -/
lemma scanSlots_tail : scanSlots (slots dir.tail) init = [] := by
  cases hS : slots dir.tail with
  | nil => rfl
  | cons raw S =>
    refine scanSlots_end ?_ S _
    have hlen : 0 < (slots dir.tail).length := by rw [hS]; simp
    have hraw : raw = slice dir.tail 0 32 := by
      have h0 := slots_getElem hlen
      simp only [hS] at h0
      exact h0
    rcases dir.ended with h | h
    · rw [h] at hlen
      simp at hlen
    · cases ht : dir.tail with
      | nil => rw [ht] at h; contradiction
      | cons a t =>
        rw [ht] at h hraw
        obtain rfl : a = 0 := Option.some.inj h
        rw [hraw]
        exact beq_iff_eq.mpr (ofBytes_cons_name 0 (t.take 31))

/-- What the scan reports for a stored directory. -/
lemma scanSlots_bytes : scanSlots (slots dir.bytes) init = dir.items.flatMap Item.seen := by
  rw [slots_bytes]
  induction dir.items with
  | nil => exact dir.scanSlots_tail
  | cons item items ih =>
    rw [flatMap_cons, append_assoc, Item.scanSlots_item, ih]
    rfl

/-- The scan gives the listing exactly when every name is plain. -/
lemma seen_eq_listing_iff :
    dir.items.flatMap Item.seen = dir.listing ↔
      ∀ item ∈ dir.items, ∀ name ∈ item.name?, ∀ c ∈ name.chars, c.toNat < 0xFFFF := by
  have hsame : ∀ item : Item, item.seen.length = item.report.length := by
    intro item
    cases item <;> rfl
  have hall : ∀ items : List Item, items.flatMap Item.seen = items.flatMap Item.report ↔
      ∀ item ∈ items, item.seen = item.report := by
    intro items
    induction items with
    | nil => simp
    | cons item items ih =>
      rw [forall_mem_cons]
      constructor
      · intro h
        obtain ⟨h₁, h₂⟩ := append_inj h (hsame item)
        exact ⟨h₁, ih.mp h₂⟩
      · intro ⟨h₁, h₂⟩
        rw [flatMap_cons, flatMap_cons, h₁, ih.mpr h₂]
  unfold listing
  rw [hall]
  simp only [Item.seen_eq_report_iff]

end

end StoredDirectory

/-- A stored directory reads back, every entry with the long name in front of
it and the others with none, exactly when no stored name has a character from
U+FFFF on. -/
theorem readDirectoryWithLfn_stored {σ : Type} [Drive σ] (fs : Fat32) (cluster : Nat)
    (dir : StoredDirectory) {d d' : σ}
    (hread : fs.readClusterChain cluster d = (.ok dir.bytes, d')) :
    fs.readDirectoryWithLfn cluster d = (.ok dir.listing, d') ↔
      ∀ item ∈ dir.items, ∀ name ∈ item.name?, ∀ c ∈ name.chars, c.toNat < 0xFFFF := by
  have hrun : fs.readDirectoryWithLfn cluster d = (.ok (dir.items.flatMap Item.seen), d') := by
    unfold readDirectoryWithLfn
    rw [Prog.bind_ok hread, dir.scanSlots_bytes]
    rfl
  rw [hrun, ← dir.seen_eq_listing_iff]
  constructor
  · intro h
    exact Outcome.ok.inj (congrArg Prod.fst h)
  · intro h
    rw [h]

/-! ## Two small directories -/

/-- A root directory with one file and its long name. -/
def namedDirectory (name : LongName) (free : Nat) : StoredDirectory where
  items := [.entry smallFile rfl (some name)]
  tail := List.replicate (free + 1) 0
  ended := .inr rfl

/-- The small volume with this root directory. -/
def namedDisk (dir : StoredDirectory) : Disk := fun n =>
  if n = 32 ∨ n = 544 then smallFat
  else if n = 1056 then Sector.ofBytes dir.bytes
  else zeroSector

def accented : LongName where
  chars := ['É', 'T', 'É']
  ne_nil := by decide
  units_le := by decide
  no_nul := by decide

def smiling : LongName where
  chars := ['😀']
  ne_nil := by decide
  units_le := by decide
  no_nul := by decide

lemma readClusterChain_named {name : LongName}
    (h : (smallFs.readClusterChain 2 (namedDisk (namedDirectory name 447))).1
      = .ok (namedDirectory name 447).bytes) :
    smallFs.readClusterChain 2 (namedDisk (namedDirectory name 447))
      = (.ok (namedDirectory name 447).bytes, namedDisk (namedDirectory name 447)) :=
  Prod.ext h (readClusterChain_readOnly smallFs 2 _)

/-- A name without such characters reads back. -/
theorem readDirectoryWithLfn_accented :
    smallFs.readDirectoryWithLfn 2 (namedDisk (namedDirectory accented 447))
      = (.ok (namedDirectory accented 447).listing, namedDisk (namedDirectory accented 447)) := by
  refine (readDirectoryWithLfn_stored smallFs 2 (namedDirectory accented 447)
    (readClusterChain_named (by decide +kernel))).mpr ?_
  intro item hitem name hname c hc
  obtain rfl := mem_singleton.mp hitem
  obtain rfl := Option.some.inj hname
  simp only [accented, mem_cons, not_mem_nil, or_false] at hc
  rcases hc with rfl | rfl | rfl <;> decide

/-- The two halves of a surrogate pair are dropped, and the entry has no long name. -/
theorem readDirectoryWithLfn_smiling :
    smallFs.readClusterChain 2 (namedDisk (namedDirectory smiling 447))
        = (.ok (namedDirectory smiling 447).bytes, namedDisk (namedDirectory smiling 447))
      ∧ (smallFs.readDirectoryWithLfn 2 (namedDisk (namedDirectory smiling 447))).1
        = .ok [(smallFile, none)]
      ∧ (namedDirectory smiling 447).listing = [(smallFile, some ['😀'])] := by
  refine ⟨readClusterChain_named (by decide +kernel), by decide +kernel, rfl⟩

end RustOs.Fs.Fat32
