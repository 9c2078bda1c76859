import RustOs.Elf.Safety

/-!
# The hashed and the linear lookup

For an object with a well-formed `DT_HASH` table both ways to look up a symbol come down to a search
through indices of the symbol table: the linear one through all of them, the hashed one through the
chain of a bucket. Only the linear one looks at `DT_SYMENT`: it refuses a table whose entries are
said not to have 24 bytes. `lookups_agree_iff` says that this is all that can come between them.
-/

namespace RustOs.Elf.ElfLoader

open Lib Outcome Nat Option
open List hiding lookup

variable {l : ElfLoader} {h a i : Nat} {st name : List UInt8} {is : List Nat}

/-- `nchain` of the hash table at `h`. -/
def nchain (l : ElfLoader) (h : Nat) : Nat := leAt l.data (h + 4) 4

/-- The symbol of an index. -/
def symAt (l : ElfLoader) (a i : Nat) : Elf64Sym :=
  Elf64Sym.parse (slice l.data (a + i * symSize) symSize)

/-- The symbol of an index is defined under the name. -/
def hasName (l : ElfLoader) (a : Nat) (st name : List UInt8) (i : Nat) : Bool :=
  names st name (l.symAt a i)

/-- A chain of the hash table: it leads through symbols to the index 0. -/
inductive Linked (l : ElfLoader) (h : Nat) : Nat → List Nat → Prop where
  | stop : Linked l h 0 []
  | next {i : Nat} {is : List Nat} (hne : i ≠ 0) (hlow : i < l.nchain h)
      (rest : Linked l h (leAt l.data (h + 8 + leAt l.data h 4 * 4 + i * 4) 4) is) :
      Linked l h i (i :: is)

/-- The dynamic tables lie inside the file, and the hash table is well formed: it has buckets, its
chains end, the symbols defined under a name are in the chain of its bucket, and there is one at
most. -/
structure HashOk (l : ElfLoader) (h a : Nat) (st : List UInt8) : Prop where
  dynamic : l.DynamicFits
  strtab : l.strtab = some st
  symtab : lastOf dtSymtab l.entries = some a
  symbols : a + l.nchain h * 24 ≤ l.data.length
  hash : lastOf dtHash l.entries = some h
  table : h + 8 + leAt l.data h 4 * 4 + l.nchain h * 4 ≤ l.data.length
  buckets : leAt l.data h 4 ≠ 0
  chains : ∀ name, ∃ is, l.Linked h (leAt l.data (l.bucketOff h name) 4) is ∧
    ∀ i < l.nchain h, l.hasName a st name i = true → i ∈ is
  unique : ∀ name, ∀ i < l.nchain h, ∀ j < l.nchain h,
    l.hasName a st name i = true → l.hasName a st name j = true → i = j

/-- The value of the first of these symbols that has the name. -/
def valueIn (l : ElfLoader) (a : Nat) (st name : List UInt8) (is : List Nat) : Option Nat :=
  (is.find? (l.hasName a st name)).map fun i => (l.symAt a i).value

/-- A symbol is defined under the name, with this value. -/
def HasValue (l : ElfLoader) (h a : Nat) (st name : List UInt8) (v : Nat) : Prop :=
  ∃ i < l.nchain h, l.hasName a st name i = true ∧ (l.symAt a i).value = v

/-- Both lookups find the value of the symbol that is defined under the name. -/
def Agree (l : ElfLoader) (h a : Nat) (st name : List UInt8) : Prop :=
  l.lookupSymbolHashed name = l.lookupSymbol name ∧
    ∀ v, l.lookupSymbol name = .ok v ↔ l.HasValue h a st name v

lemma Linked.low (hl : l.Linked h i is) : ∀ j ∈ is, j < l.nchain h := by
  induction hl with
  | stop => simp
  | next _ hlow _ ih => simpa using ⟨hlow, ih⟩

namespace HashOk

variable (hok : l.HashOk h a st)
include hok

/-- A search through the indices that matter finds the value. -/
lemma valueIn_iff (hlow : ∀ i ∈ is, i < l.nchain h)
    (hall : ∀ i < l.nchain h, l.hasName a st name i = true → i ∈ is) (v : Nat) :
    l.valueIn a st name is = some v ↔ l.HasValue h a st name v := by
  rw [valueIn, map_eq_some_iff]
  constructor
  · rintro ⟨i, hi, rfl⟩
    exact ⟨i, hlow i (mem_of_find?_eq_some hi), find?_some hi, rfl⟩
  · rintro ⟨i, hi, hname, rfl⟩
    obtain ⟨j, hj⟩ := isSome_iff_exists.mp (find?_isSome.mpr ⟨i, hall i hi hname, hname⟩)
    cases hok.unique name i hi j (hlow j (mem_of_find?_eq_some hj)) hname (find?_some hj)
    exact ⟨i, hj, rfl⟩

lemma strtabFits : l.StrtabFits := by
  intro b s hb hs
  have hst := hok.strtab
  have hshort := l.short
  simp only [ElfLoader.strtab, hb, hs] at hst
  split at hst
  · cases hst
  · omega

/-- The linear lookup searches all symbols. -/
lemma lookupSymbol_eq (hsize : (lastOf dtSyment l.entries).getD 24 = 24) :
    l.lookupSymbol name = required (l.valueIn a st name (range (l.nchain h))) := by
  have hshort := l.short
  have hin := hok.symbols
  have htable := hok.table
  have hsafe : l.SymbolsSafe := by
    refine ⟨hok.dynamic, fun a' ha' _ => ⟨hok.strtabFits, fun _ => ?_⟩⟩
    cases hok.symtab.symm.trans ha'
    rw [SizeFits, hok.hash]
    exact ⟨by omega, fun _ => by rw [nchain] at hin; omega⟩
  have hcount : l.symCount = some (l.nchain h) := by
    rw [symCount, hok.hash]
    exact if_neg (by omega)
  have htab : l.symtab = some (slice l.data a (l.nchain h * 24)) := by
    rw [ElfLoader.symtab, hok.symtab, hcount]
    exact if_neg (by simp [hsize, hin])
  have hsyms :
      symbolsIn (slice l.data a (l.nchain h * 24)) = (range (l.nchain h)).map (l.symAt a) := by
    rw [symbolsIn, slice_length hin, symSize, Nat.mul_div_cancel _ (by decide)]
    refine map_congr_left fun i hi => ?_
    rw [slice_slice (unit_end_le 24 (mem_range.mp hi))]
    rfl
  rw [lookupSymbol, (dynamicSymbols_eq_ok hsafe).mpr ⟨htab, hok.strtab⟩, ok_bind]
  show (required ((symbolsIn _).find? _) >>= _) = _
  rw [hsyms, find?_map]
  show (required (((range (l.nchain h)).find? (l.hasName a st name)).map _) >>= _) = _
  rw [valueIn]
  cases (range (l.nchain h)).find? (l.hasName a st name) <;> rfl

lemma lookupSymbol_refused (hsize : (lastOf dtSyment l.entries).getD 24 ≠ 24) :
    l.lookupSymbol name = .err () := by
  rw [lookupSymbol, dynamicSymbols, dynamicEntries_eq hok.dynamic, ok_bind, hok.symtab]
  simp only [required, ok_bind]
  rw [if_pos hsize, err_bind]

lemma chainFits (hl : l.Linked h i is) : l.ChainFits (l.chainTables h a st name) i := by
  have hshort := l.short
  have hin := hok.symbols
  induction hl with
  | stop => exact .intro (absurd rfl) fun _ hn => absurd rfl hn.nonzero
  | @next i _ _ hlow _ ih =>
    refine .intro (fun _ _ => ?_) fun _ hn => hn.next ▸ ih
    show a + i * 24 + 24 < 2 ^ 64
    omega

/-- The loop along a chain, if it has fuel enough to come back. -/
lemma hashChain_eq (hl : l.Linked h i is) {fuel : Nat}
    (hret : (l.hashChain a (h + 8 + leAt l.data h 4 * 4) (l.nchain h) st name fuel i).Returns) :
    l.hashChain a (h + 8 + leAt l.data h 4 * 4) (l.nchain h) st name fuel i =
      required (l.valueIn a st name is) := by
  have hshort := l.short
  have hin := hok.symbols
  have htable := hok.table
  induction hl generalizing fuel with
  | stop =>
    cases fuel with
    | zero => cases hret
    | succ fuel => rfl
  | @next i is hne hlow _ ih =>
    cases fuel with
    | zero => cases hret
    | succ fuel =>
      have hsym : a + i * symSize + symSize ≤ l.data.length := by
        rw [symSize]
        omega
      rw [hashChain, if_pos ⟨hne, hlow⟩, uadd_of_lt (by omega), ok_bind, sliceChecked_eq (by omega),
        if_neg (by omega), ok_bind, if_neg (not_lt.mpr (by omega))] at hret ⊢
      rw [valueIn, find?_cons]
      cases hn : l.hasName a st name i with
      | true => exact if_pos hn
      | false =>
        rw [hasName, symAt] at hn
        rw [hn] at hret ⊢
        exact ih hret

/-- The hashed lookup searches a chain. -/
lemma lookupSymbolHashed_eq (hl : l.Linked h (leAt l.data (l.bucketOff h name) 4) is) :
    l.lookupSymbolHashed name = required (l.valueIn a st name is) := by
  have hshort := l.short
  have htable := hok.table
  have hbucket := Nat.mod_lt (elfHash name).toNat (Nat.pos_of_ne_zero hok.buckets)
  rw [lookupSymbolHashed, dynamicEntries_eq hok.dynamic, ok_bind, hok.hash, hok.symtab]
  show (l.dynamicStrtab >>= fun st => l.lookupIn h a st name) = _
  rw [dynamicStrtab_eq ⟨hok.dynamic, hok.strtabFits⟩, hok.strtab]
  show l.lookupIn h a st name = _
  rw [lookupIn_eq (by omega), if_neg (by omega), if_neg hok.buckets,
    if_neg (by rw [bucketOff]; omega)]
  exact hok.hashChain_eq hl
    (hashChain_returns (t := l.chainTables h a st name).mpr (hok.chainFits hl))

end HashOk

/-- The lookups agree, and find what the table defines, exactly if the table is not said to have
entries of another size or does not define the name. -/
theorem lookups_agree_iff (hok : l.HashOk h a st) (name : List UInt8) :
    l.Agree h a st name ↔
      (lastOf dtSyment l.entries).getD 24 = 24 ∨ ∀ v, ¬ l.HasValue h a st name v := by
  obtain ⟨is, hl, hall⟩ := hok.chains name
  have hchain : ∀ v, l.valueIn a st name is = some v ↔ l.HasValue h a st name v :=
    hok.valueIn_iff hl.low hall
  rw [Agree, hok.lookupSymbolHashed_eq hl]
  by_cases hsize : (lastOf dtSyment l.entries).getD 24 = 24
  · have hsame : l.valueIn a st name (range (l.nchain h)) = l.valueIn a st name is :=
      ext fun v => (hok.valueIn_iff (fun i => mem_range.mp)
        (fun i hi _ => mem_range.mpr hi) v).trans (hchain v).symm
    rw [hok.lookupSymbol_eq hsize, hsame]
    refine iff_of_true ⟨rfl, fun v => Iff.trans ?_ (hchain v)⟩ (.inl hsize)
    cases l.valueIn a st name is <;> simp [required]
  · simp only [hok.lookupSymbol_refused hsize, ← hchain, hsize, false_or]
    cases l.valueIn a st name is <;> simp [required]

/-- An object that defines `f` with the value 7. Its dynamic section is at 120 and names the hash
table at 200, the string table at 220, the symbols at 224 and the size of one. -/
def oneSymbol (syment : Nat) : List UInt8 :=
  [0x7F, 0x45, 0x4C, 0x46, 2, 1, 1, 0] ++ replicate 8 0 ++ [2, 0, 62, 0, 1, 0, 0, 0] ++
    leBytes 8 0 ++ leBytes 8 64 ++ replicate 12 0 ++ [64, 0, 56, 0, 1, 0] ++ replicate 6 0 ++
    leBytes 8 2 ++ [120, 120, 120, 80, 80, 8].flatMap (leBytes 8) ++
    [4, 200, 5, 220, 6, 224, 10, 3, 11, syment].flatMap (leBytes 8) ++
    [1, 2, 1, 0, 0].flatMap (leBytes 4) ++ [0, 0x66, 0, 0] ++
    replicate 24 0 ++ leBytes 6 1 ++ leBytes 2 1 ++ leBytes 8 7 ++ leBytes 8 0

/-- Its loader, on a page of a memory of zeros. -/
def oneSymbolLoader (wide : Bool) : ElfLoader :=
  ⟨oneSymbol (if wide then 25 else 24), fun _ => 0, 4096, by revert wide; decide +kernel,
    by revert wide; decide +kernel, by revert wide; decide +kernel, by revert wide; decide +kernel⟩

/-- Its hash table is in order. -/
lemma oneSymbol_hashOk (wide : Bool) : (oneSymbolLoader wide).HashOk 200 224 [0, 0x66, 0] := by
  have hfacts : let l := oneSymbolLoader wide
      l.header.phoff = 64 ∧ l.firstHeader ptDynamic = some ⟨2, 120, 120, 80, 80⟩ ∧
        l.strtab = some [0, 0x66, 0] ∧
      lastOf dtSymtab l.entries = some 224 ∧ lastOf dtHash l.entries = some 200 ∧
      l.data.length = 272 ∧ l.nchain 200 = 2 ∧ leAt l.data 200 4 = 1 ∧ leAt l.data 208 4 = 1 ∧
      leAt l.data 216 4 = 0 ∧ (l.symAt 224 0).isUndefined = true := by
    revert wide
    decide +kernel
  obtain ⟨hoff, hseg, hst, hsym, hhash, hlen, hcount, hbuckets, hfirst, hlast, hzero⟩ := hfacts
  have hone : ∀ name, ∀ i < 2,
      (oneSymbolLoader wide).hasName 224 [0, 0x66, 0] name i = true → i = 1 := by
    intro name i hi hname
    obtain rfl | rfl : i = 0 ∨ i = 1 := by omega
    · simp [hasName, names, hzero] at hname
    · rfl
  refine ⟨⟨fun _ => ?_, fun ph hph => ?_⟩, hst, hsym, by rw [hcount, hlen], hhash,
    by simp [hcount, hbuckets, hlen], by simp [hbuckets], fun name => ⟨[1], ?_, fun i hi hn => ?_⟩,
    fun name i hi j hj hn hn' => ?_⟩
  · rw [hoff]
    exact ⟨by decide, show 4096 + 64 < 2 ^ 64 by decide, show (4096 + 64) % 8 = 0 from rfl⟩
  · cases hseg.symm.trans hph
    decide
  · rw [bucketOff, hbuckets, mod_one, hfirst]
    refine .next (by decide) (by rw [hcount]; decide) ?_
    rw [hbuckets, hlast]
    exact .stop
  · rw [hcount] at hi
    exact mem_singleton.mpr (hone name i hi hn)
  · rw [hcount] at hi hj
    exact (hone name i hi hn).trans (hone name j hj hn').symm

/-- A library with one symbol. -/
theorem oneSymbol_agree : (oneSymbolLoader false).HashOk 200 224 [0, 0x66, 0] ∧
    (oneSymbolLoader false).Agree 200 224 [0, 0x66, 0] [0x66] :=
  ⟨oneSymbol_hashOk false,
    (lookups_agree_iff (oneSymbol_hashOk false) _).mpr (.inl (by decide +kernel))⟩

/-- With another `DT_SYMENT` the hashed lookup still finds `f`. -/
theorem wideSymbol_not_agree : (oneSymbolLoader true).HashOk 200 224 [0, 0x66, 0] ∧
    ¬ (oneSymbolLoader true).Agree 200 224 [0, 0x66, 0] [0x66] := by
  have hok := oneSymbol_hashOk true
  refine ⟨hok, fun hagree => ?_⟩
  have hlin := (hagree.2 7).mpr ⟨1, by decide +kernel, by decide +kernel, by decide +kernel⟩
  rw [hok.lookupSymbol_refused (by decide +kernel)] at hlin
  cases hlin

end RustOs.Elf.ElfLoader
