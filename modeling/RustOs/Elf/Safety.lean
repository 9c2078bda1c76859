import RustOs.Elf.Relocate
import RustOs.Lib.Follow

/-!
# Looking up symbols in any ELF file

What the parser does on a file of which nothing is known but that its header has been accepted.
For each function there is a condition on the numbers in the file, and a lemma that the function
comes back exactly if the condition holds: `DynamicFits`, `StrtabSafe`, `SymbolsSafe` and
`HashedSafe`. They say which sums stay below 2^64, that a hash table has a bucket and that its
chains end.

`Listed` and `Defines` say, in terms of the tables in the file, which names the linear and the
hashed lookup find. `fallsBack_iff` compares the two for a hash table that cannot be used.
-/

namespace RustOs.Elf

open Lib Outcome Nat

namespace ElfLoader

variable {l : ElfLoader}

/-! ## Small helpers -/

section Helpers

variable {off len : Nat} {α ε : Type}

@[simp] lemma uadd_returns {w a b : Nat} : (uadd w a b : Outcome ε Nat).Returns ↔
    a + b < 2 ^ w := by
  unfold uadd
  split <;> simp [*]

@[simp] lemma sliceChecked_returns : (l.sliceChecked off len).Returns ↔ off + len < 2 ^ 64 := by
  simp [sliceChecked]

lemma sliceChecked_eq (h : off + len < 2 ^ 64) : l.sliceChecked off len =
    if off + len > l.data.length then .err () else .ok (slice l.data off len) := by
  unfold sliceChecked
  rw [uadd_of_lt h]
  rfl

@[simp] lemma returns_sliceChecked_bind {f : List UInt8 → Outcome Unit α} :
    (l.sliceChecked off len >>= f).Returns ↔
      off + len < 2 ^ 64 ∧ (off + len ≤ l.data.length → (f (slice l.data off len)).Returns) := by
  rw [returns_bind, sliceChecked_returns]
  refine and_congr_right fun h => ?_
  rw [sliceChecked_eq h]
  split <;> simp_all

@[simp] lemma orElse_returns {x : Outcome Unit α} {a : α} :
    (orElse x a : Outcome ε α).Returns ↔ x.Returns := by
  cases x <;> exact .rfl

@[simp] lemma required_returns (x : Option α) : (required x).Returns := by
  cases x <;> trivial

/-- A lookup that comes back and finds nothing answers `None`. -/
lemma eq_err_of_not_found {x : Outcome Unit α} (hret : x.Returns) (h : ¬ ∃ a, x = .ok a) :
    x = .err () := by
  cases x with
  | ok a => exact absurd ⟨a, rfl⟩ h
  | err e => rfl
  | _ => exact absurd hret id

end Helpers

/-! ## The dynamic section -/

variable (l)

/-- The address of the table of program headers, if it is read, is one, and is aligned. -/
def TableReachable : Prop :=
  l.header.phentsize = programHeaderSize →
    l.header.phoff < 2 ^ 63 ∧ l.addr + l.header.phoff < 2 ^ 64 ∧ (l.addr + l.header.phoff) % 8 = 0

/-- The program headers there are. -/
def headers : List ProgramHeader :=
  if l.header.phentsize ≠ programHeaderSize then [] else l.headerTable

/-- The first of them of a type. -/
def firstHeader (type : Nat) : Option ProgramHeader := l.headers.find? (·.type == type)

/-- The table can be reached, and the section ends below 2^64. -/
structure DynamicFits : Prop where
  table : l.TableReachable
  ends : ∀ ph, l.firstHeader ptDynamic = some ph → ph.offset + ph.filesz < 2 ^ 64

/-- The entries of the section, if it lies inside the file. -/
def entries : List (Nat × Nat) :=
  match l.firstHeader ptDynamic with
  | none => []
  | some ph =>
    if ph.offset + ph.filesz > l.data.length then []
    else entriesIn (slice l.data ph.offset ph.filesz)

/-- The string table, if it lies inside the file. -/
def strtab : Option (List UInt8) :=
  match lastOf dtStrtab l.entries, lastOf dtStrsz l.entries with
  | some a, some s => if a + s > l.data.length then none else some (slice l.data a s)
  | _, _ => none

/-- The string table ends below 2^64. -/
def StrtabFits : Prop :=
  ∀ a s, lastOf dtStrtab l.entries = some a → lastOf dtStrsz l.entries = some s → a + s < 2 ^ 64

/-- The string table can be looked for. -/
structure StrtabSafe : Prop where
  dynamic : l.DynamicFits
  strtab : l.StrtabFits

section Dynamic

variable {l} {ε : Type}

/-- `program_headers` comes back exactly if the table can be reached. -/
lemma programHeaders_returns : (l.programHeaders : Outcome ε _).Returns ↔ l.TableReachable := by
  unfold programHeaders TableReachable
  split
  next hsize => exact iff_of_true trivial fun h => absurd h hsize
  next hsize =>
    rw [forall_prop_of_true (not_not.mp hsize)]
    split
    next hbig => exact iff_of_false id fun h => by omega
    next hbig =>
      split
      next hodd => exact iff_of_false id fun h => hodd h.2.2
      next hodd => exact iff_of_true trivial (by omega)

lemma programHeaders_eq (h : l.TableReachable) :
    (l.programHeaders : Outcome ε _) = .ok l.headers := by
  unfold programHeaders headers
  split
  next => rfl
  next hsize =>
    obtain ⟨hoff, haddr, halign⟩ := h (not_not.mp hsize)
    rw [if_neg (by omega), if_neg (not_not_intro halign)]

/-- A call that starts by looking for a program header. -/
lemma segment_bind {α : Type} (type : Nat) (f : Option ProgramHeader → Outcome ε α) :
    (l.segment type >>= f).Returns ↔ l.TableReachable ∧ (f (l.firstHeader type)).Returns := by
  unfold segment
  rw [bind_assoc, returns_bind, programHeaders_returns]
  refine and_congr_right fun h => ?_
  rw [programHeaders_eq h]
  exact ⟨fun hf => hf _ rfl, fun hf hs heq => by cases heq; exact hf⟩

lemma segment_eq (h : l.TableReachable) (type : Nat) :
    (l.segment type : Outcome ε _) = .ok (l.firstHeader type) := by
  unfold segment
  rw [programHeaders_eq h]
  rfl

lemma dynamicEntries_returns : (l.dynamicEntries : Outcome ε _).Returns ↔ l.DynamicFits := by
  unfold dynamicEntries
  rw [segment_bind]
  refine Iff.trans (and_congr_right fun _ => ?_) ⟨fun h => ⟨h.1, h.2⟩, fun h => ⟨h.1, h.2⟩⟩
  cases l.firstHeader ptDynamic <;> simp [returns_bind]

lemma dynamicEntries_eq (h : l.DynamicFits) : (l.dynamicEntries : Outcome ε _) = .ok l.entries := by
  unfold dynamicEntries entries
  rw [segment_eq h.table]
  cases hs : l.firstHeader ptDynamic with
  | none => rfl
  | some ph =>
    show orElse (l.sliceChecked ph.offset ph.filesz) [] >>= _ = _
    dsimp only
    rw [sliceChecked_eq (h.ends ph hs)]
    split <;> rfl

/-- A call that starts by reading the dynamic section. -/
lemma dynamicEntries_bind {α : Type} (f : List (Nat × Nat) → Outcome ε α) :
    (l.dynamicEntries >>= f).Returns ↔ l.DynamicFits ∧ (f l.entries).Returns := by
  rw [returns_bind, dynamicEntries_returns]
  refine and_congr_right fun h => ?_
  simp [dynamicEntries_eq h]

lemma dynamicStrtab_returns : l.dynamicStrtab.Returns ↔ l.StrtabSafe := by
  have hsafe : l.StrtabSafe ↔ l.DynamicFits ∧ l.StrtabFits :=
    ⟨fun h => ⟨h.1, h.2⟩, fun h => ⟨h.1, h.2⟩⟩
  rw [dynamicStrtab, dynamicEntries_bind, hsafe, StrtabFits]
  cases lastOf dtStrtab l.entries <;> cases lastOf dtStrsz l.entries <;> simp [required]

lemma dynamicStrtab_eq (h : l.StrtabSafe) : l.dynamicStrtab = required l.strtab := by
  have hfits := h.strtab
  unfold dynamicStrtab strtab
  rw [dynamicEntries_eq h.dynamic, ok_bind]
  cases ha : lastOf dtStrtab l.entries with
  | none => rfl
  | some a =>
    cases hs : lastOf dtStrsz l.entries with
    | none => rfl
    | some s =>
      show l.sliceChecked a s = _
      rw [sliceChecked_eq (hfits a s ha hs)]
      dsimp only
      split <;> rfl

/-- A call that goes on with the string table, after the dynamic section has been read. -/
lemma dynamicStrtab_bind {α : Type} (hdyn : l.DynamicFits) (f : List UInt8 → Outcome Unit α) :
    (l.dynamicStrtab >>= f).Returns ↔ l.StrtabFits ∧ ∀ st, l.strtab = some st → (f st).Returns := by
  rw [returns_bind, dynamicStrtab_returns]
  constructor
  · rintro ⟨hsafe, h⟩
    refine ⟨hsafe.strtab, fun st hst => h st ?_⟩
    rw [dynamicStrtab_eq hsafe, hst]
    rfl
  · rintro ⟨hfits, h⟩
    have hsafe : l.StrtabSafe := ⟨hdyn, hfits⟩
    refine ⟨hsafe, fun st hst => h st ?_⟩
    rw [dynamicStrtab_eq hsafe] at hst
    cases hs : l.strtab <;> simp_all [required]

lemma neededLibraries_returns : (l.neededLibraries : Outcome ε _).Returns ↔ l.StrtabSafe := by
  have hstr : (some <$> l.dynamicStrtab).Returns ↔ l.dynamicStrtab.Returns := by
    cases l.dynamicStrtab <;> exact .rfl
  rw [neededLibraries, returns_bind, orElse_returns, hstr, dynamicStrtab_returns]
  refine and_iff_left_of_imp fun h st _ => ?_
  cases st with
  | none => trivial
  | some st => exact (dynamicEntries_bind _).mpr ⟨h.dynamic, trivial⟩

lemma soname_returns : l.soname.Returns ↔ l.StrtabSafe := by
  rw [soname, returns_bind, dynamicStrtab_returns]
  refine and_iff_left_of_imp fun h st _ => (dynamicEntries_bind _).mpr ⟨h.dynamic, ?_⟩
  simp [returns_bind]

end Dynamic

/-! ## The symbol table -/

/-- The hash table can be asked for the size of the symbol table, and the table ends below 2^64. -/
def SizeFits (symtabAddr : Nat) : Prop :=
  match lastOf dtHash l.entries, lastOf dtGnuHash l.entries with
  | some h, _ => h + 8 < 2 ^ 64 ∧
    (h + 8 ≤ l.data.length → symtabAddr + leAt l.data (h + 4) 4 * 24 < 2 ^ 64)
  | none, some h => h + 16 < 2 ^ 64 ∧
    ∀ count, l.gnuSymbolCount h = .ok count → symtabAddr + count * 24 < 2 ^ 64
  | none, none => True

/-- The symbol table can be looked for. -/
structure SymbolsSafe (l : ElfLoader) : Prop where
  dynamic : l.DynamicFits
  tables : ∀ a, lastOf dtSymtab l.entries = some a → (lastOf dtSyment l.entries).getD 24 = 24 →
    l.StrtabFits ∧ (l.strtab.isSome → l.SizeFits a)

/-- The number of symbols, as the hash table there is tells it. -/
def symCount : Option Nat :=
  match lastOf dtHash l.entries, lastOf dtGnuHash l.entries with
  | some h, _ => if h + 8 > l.data.length then none else some (leAt l.data (h + 4) 4)
  | none, some h =>
    match l.gnuSymbolCount h with
    | .ok count => some count
    | _ => none
  | none, none => none

/-- The symbol table, if it lies inside the file. -/
def symtab : Option (List UInt8) :=
  match lastOf dtSymtab l.entries, l.symCount with
  | some a, some count =>
    if (lastOf dtSyment l.entries).getD 24 ≠ 24 ∨ a + count * 24 > l.data.length then none
    else some (slice l.data a (count * 24))
  | _, _ => none

/-- The symbol table defines the name. -/
def Listed (name : List UInt8) : Prop :=
  ∃ tab st, l.symtab = some tab ∧ l.strtab = some st ∧
    ∃ sym ∈ symbolsIn tab, names st name sym = true

section Symbols

variable {l}

/-- The walk ends at the end of the file at the latest. -/
lemma gnuChainEnd_returns (chainOff fuel : Nat) : ∀ idx, l.data.length < fuel + 1 + idx * 4 →
    (l.gnuChainEnd chainOff (fuel + 1) idx).Returns := by
  induction fuel with
  | zero =>
    intro idx hlen
    unfold gnuChainEnd
    rw [if_pos (by omega)]
    trivial
  | succ fuel ih =>
    intro idx hlen
    unfold gnuChainEnd
    split
    next => trivial
    next =>
      split
      next => trivial
      next => exact ih (idx + 1) (by omega)

lemma gnuSymbolCount_returns {h : Nat} : (l.gnuSymbolCount h).Returns ↔ h + 16 < 2 ^ 64 := by
  have hend (chainOff idx : Nat) : (l.gnuChainEnd chainOff (l.data.length + 1) idx).Returns :=
    gnuChainEnd_returns _ _ _ (by omega)
  simp [gnuSymbolCount, maxBucket, returns_bind, hend]

/-- The symbol table is sliced as far as its size was told. -/
lemma sliceCount_returns {x : Outcome Unit Nat} {a : Nat} :
    (x >>= fun count => umul 64 count 24 >>= fun sz => l.sliceChecked a sz).Returns ↔
      x.Returns ∧ ∀ count, x = .ok count → a + count * 24 < 2 ^ 64 := by
  rw [returns_bind]
  refine and_congr_right fun _ => forall₂_congr fun count _ => ?_
  rw [returns_umul_bind, sliceChecked_returns]
  omega

/-- The number of symbols, with the sums that are made on the way to it. -/
def countOf (l : ElfLoader) : Outcome Unit Nat :=
  match lastOf dtHash l.entries, lastOf dtGnuHash l.entries with
  | some h, _ => do
    let stop ← uadd 64 h 8
    if stop > l.data.length then .err () else .ok (leAt l.data (h + 4) 4)
  | none, some h => l.gnuSymbolCount h
  | none, none => .err ()

lemma symtabSize_eq : l.symtabSize l.entries 24 = l.countOf >>= fun count => umul 64 count 24 := by
  unfold symtabSize countOf
  cases lastOf dtHash l.entries with
  | some h =>
    dsimp only
    rw [bind_assoc]
    refine congrArg _ (funext fun stop => ?_)
    split <;> rfl
  | none => cases lastOf dtGnuHash l.entries <;> rfl

/-- The size is that of the counted symbols. -/
lemma sizeFits_iff {a : Nat} : l.SizeFits a ↔
    l.countOf.Returns ∧ ∀ count, l.countOf = .ok count → a + count * 24 < 2 ^ 64 := by
  unfold SizeFits countOf
  cases lastOf dtHash l.entries with
  | some h =>
    dsimp only
    by_cases hfit : h + 8 < 2 ^ 64
    · rw [uadd_of_lt hfit, ok_bind]
      split <;> grind [returns_ok, returns_err]
    · exact iff_of_false (fun h => hfit h.1) fun h => hfit (returns_uadd_bind.mp h.1).1
  | none =>
    cases lastOf dtGnuHash l.entries with
    | some h =>
      rw [gnuSymbolCount_returns]
    | none => simp

lemma countOf_eq_ok {count : Nat} (h : l.countOf.Returns) :
    l.countOf = .ok count ↔ l.symCount = some count := by
  unfold countOf at h ⊢
  unfold symCount
  cases hh : lastOf dtHash l.entries with
  | some h' =>
    rw [hh] at h
    dsimp only
    rw [uadd_of_lt (returns_uadd_bind.mp h).1, ok_bind]
    split <;> simp
  | none =>
    cases lastOf dtGnuHash l.entries with
    | some h' =>
      dsimp only
      cases l.gnuSymbolCount h' <;> simp
    | none => simp

/-- What `dynamic_symbols` does once it has the string table. -/
lemma sizedSlice_returns {a : Nat} :
    (l.symtabSize l.entries 24 >>= fun sz => l.sliceChecked a sz).Returns ↔ l.SizeFits a := by
  rw [symtabSize_eq, bind_assoc, sliceCount_returns, sizeFits_iff]

/-- The symbol table is as long as the hash table says. -/
lemma sizedSlice_eq_ok {a : Nat} {tab : List UInt8} (h : l.SizeFits a) :
    (l.symtabSize l.entries 24 >>= fun sz => l.sliceChecked a sz) = .ok tab ↔
      ∃ count, l.symCount = some count ∧ a + count * 24 ≤ l.data.length ∧
        tab = slice l.data a (count * 24) := by
  obtain ⟨hcount, hfits⟩ := sizeFits_iff.mp h
  rw [symtabSize_eq, bind_assoc, bind_eq_ok]
  refine exists_congr fun count => ?_
  rw [countOf_eq_ok hcount]
  refine and_congr_right fun hc => ?_
  have hfit := hfits count ((countOf_eq_ok hcount).mpr hc)
  rw [umul_of_lt (by omega), ok_bind, sliceChecked_eq hfit]
  split
  next hout => exact iff_of_false nofun fun hin => not_le.mpr hout hin.1
  next hin =>
    exact ⟨fun heq => ⟨not_lt.mp hin, (ok.inj heq).symm⟩, fun heq => heq.2 ▸ rfl⟩

/-- When the tables of symbols and strings are found or refused. -/
lemma dynamicSymbols_returns : l.dynamicSymbols.Returns ↔ l.SymbolsSafe := by
  have htail (a : Nat) (st : List UInt8) : ((do
      let sz ← l.symtabSize l.entries 24
      let symtab ← l.sliceChecked a sz
      .ok (symtab, st)) : Outcome Unit _).Returns ↔ l.SizeFits a := by
    rw [← bind_assoc, returns_bind, sizedSlice_returns]
    exact and_iff_left fun _ _ => trivial
  unfold dynamicSymbols
  rw [dynamicEntries_bind]
  constructor
  · rintro ⟨hdyn, h⟩
    refine ⟨hdyn, fun a ha hent => ?_⟩
    rw [ha, hent] at h
    obtain ⟨hfits, hsize⟩ := (dynamicStrtab_bind hdyn _).mp h
    refine ⟨hfits, fun hsome => ?_⟩
    obtain ⟨st, hst⟩ := Option.isSome_iff_exists.mp hsome
    exact (htail a st).mp (hsize st hst)
  · intro h
    refine ⟨h.dynamic, ?_⟩
    cases ha : lastOf dtSymtab l.entries with
    | none => trivial
    | some a =>
      show (if (lastOf dtSyment l.entries).getD 24 ≠ 24 then _ else _ : Outcome Unit _).Returns
      split
      next => trivial
      next hent =>
        have hent := not_not.mp hent
        obtain ⟨hfits, hsize⟩ := h.tables a ha hent
        rw [hent]
        refine (dynamicStrtab_bind h.dynamic _).mpr ⟨hfits, fun st hst => ?_⟩
        exact (htail a st).mpr (hsize (hst ▸ rfl))

/-- Which they are. -/
lemma dynamicSymbols_eq_ok (h : l.SymbolsSafe) {tab st : List UInt8} :
    l.dynamicSymbols = .ok (tab, st) ↔ l.symtab = some tab ∧ l.strtab = some st := by
  unfold dynamicSymbols symtab
  rw [dynamicEntries_eq h.dynamic, ok_bind]
  cases ha : lastOf dtSymtab l.entries with
  | none => exact iff_of_false nofun fun hno => nomatch hno.1
  | some a =>
    show (if (lastOf dtSyment l.entries).getD 24 ≠ 24 then _ else _ : Outcome Unit _) = _ ↔ _
    by_cases hent : (lastOf dtSyment l.entries).getD 24 = 24
    · obtain ⟨hfits, hsize⟩ := h.tables a ha hent
      rw [if_neg (not_not_intro hent), hent, dynamicStrtab_eq ⟨h.dynamic, hfits⟩]
      cases hst : l.strtab with
      | none => exact iff_of_false nofun fun hno => nomatch hno.2
      | some st' =>
        show (l.symtabSize l.entries 24 >>= fun sz => l.sliceChecked a sz >>= fun symtab =>
          .ok (symtab, st')) = .ok (tab, st) ↔ _
        rw [← bind_assoc, bind_eq_ok]
        simp only [sizedSlice_eq_ok (hsize (hst ▸ rfl))]
        cases l.symCount <;> grind
    · cases l.symCount <;> simp [hent]

lemma lookupSymbol_returns {name : List UInt8} : (l.lookupSymbol name).Returns ↔ l.SymbolsSafe := by
  unfold lookupSymbol
  rw [returns_bind, dynamicSymbols_returns]
  refine ⟨fun h => h.1, fun h => ⟨h, fun tables _ => ?_⟩⟩
  exact returns_bind.mpr ⟨required_returns _, fun _ _ => trivial⟩

/-- The linear lookup finds the names the symbol table defines. -/
lemma lookupSymbol_found (h : l.SymbolsSafe) {name : List UInt8} :
    (∃ value, l.lookupSymbol name = .ok value) ↔ l.Listed name := by
  unfold lookupSymbol Listed
  constructor
  · intro ⟨value, hv⟩
    obtain ⟨⟨tab, st⟩, htab, hv⟩ := bind_eq_ok.mp hv
    obtain ⟨sym, hsym, -⟩ := bind_eq_ok.mp hv
    obtain ⟨htab, hst⟩ := (dynamicSymbols_eq_ok h).mp htab
    refine ⟨tab, st, htab, hst, ?_⟩
    cases hfind : (symbolsIn tab).find? (names st name) with
    | none => exact nomatch (congrArg required hfind).symm.trans hsym
    | some found => exact ⟨found, List.mem_of_find?_eq_some hfind, List.find?_some hfind⟩
  · intro ⟨tab, st, htab, hst, sym, hsym, hnamed⟩
    rw [(dynamicSymbols_eq_ok h).mpr ⟨htab, hst⟩, ok_bind]
    obtain ⟨found, hfound⟩ :=
      Option.isSome_iff_exists.mp (List.find?_isSome.mpr ⟨sym, hsym, hnamed⟩)
    refine ⟨found.value, ?_⟩
    show (required ((symbolsIn tab).find? (names st name)) >>= _) = _
    rw [hfound]
    rfl

end Symbols

/-! ## The hash table -/

/-- The tables a chain of the hash table is walked with. -/
structure ChainTables where
  symtabAddr : Nat
  chainOff : Nat
  nchain : Nat
  strtab : List UInt8
  name : List UInt8

/-- The bytes of a symbol lie inside the file. -/
def SymInside (l : ElfLoader) (t : ChainTables) (idx : Nat) : Prop :=
  t.symtabAddr + idx * symSize + symSize ≤ l.data.length

/-- The symbol of an index is the one that is looked for. -/
def IsNamed (l : ElfLoader) (t : ChainTables) (idx : Nat) : Prop :=
  names t.strtab t.name
    (Elf64Sym.parse (slice l.data (t.symtabAddr + idx * symSize) symSize)) = true

/-- The chain goes on from an index to another. -/
structure ChainNext (l : ElfLoader) (t : ChainTables) (idx next : Nat) : Prop where
  nonzero : idx ≠ 0
  low : idx < t.nchain
  inside : l.SymInside t idx
  other : ¬ l.IsNamed t idx
  link : t.chainOff + idx * 4 + 4 ≤ l.data.length
  next : next = leAt l.data (t.chainOff + idx * 4) 4

/-- The chain can be walked: symbols end below 2^64, and it does not go on for ever. -/
inductive ChainFits (l : ElfLoader) (t : ChainTables) : Nat → Prop where
  | intro {idx : Nat}
      (fits : idx ≠ 0 → idx < t.nchain → t.symtabAddr + idx * symSize + symSize < 2 ^ 64)
      (on : ∀ next, l.ChainNext t idx next → ChainFits l t next) : ChainFits l t idx

/-- The chain ends at an index with the symbol. -/
structure ChainEnd (l : ElfLoader) (t : ChainTables) (idx : Nat) : Prop where
  nonzero : idx ≠ 0
  low : idx < t.nchain
  inside : l.SymInside t idx
  named : l.IsNamed t idx

/-- The chain leads to the symbol. -/
inductive ChainFinds (l : ElfLoader) (t : ChainTables) : Nat → Prop where
  | here {idx : Nat} (found : l.ChainEnd t idx) : ChainFinds l t idx
  | next {idx next : Nat} (link : l.ChainNext t idx next) (rest : ChainFinds l t next) :
      ChainFinds l t idx

/-- The chain is well formed as far as the lookup needs it: it leads to index 0 or to the symbol. -/
inductive ChainGood (l : ElfLoader) (t : ChainTables) : Nat → Prop where
  | stop : ChainGood l t 0
  | here {idx : Nat} (found : l.ChainEnd t idx) : ChainGood l t idx
  | next {idx next : Nat} (link : l.ChainNext t idx next) (rest : ChainGood l t next) :
      ChainGood l t idx

/-- One turn of the walk: the value of the symbol, or the next index. -/
def hashStep (l : ElfLoader) (t : ChainTables) (idx : Nat) :
    Outcome Unit (Option Nat × Option Nat) :=
  if idx ≠ 0 ∧ idx < t.nchain then do
    let symOff ← uadd 64 t.symtabAddr (idx * symSize)
    let raw ← l.sliceChecked symOff symSize
    if names t.strtab t.name (Elf64Sym.parse raw) then .ok (some (Elf64Sym.parse raw).value, none)
    else if t.chainOff + idx * 4 + 4 > l.data.length then .err ()
    else .ok (none, some (leAt l.data (t.chainOff + idx * 4) 4))
  else .err ()

section Hash

variable {l} {t : ChainTables} {idx : Nat}

/-- A turn that finds nothing adds nothing to the last of what is found. -/
lemma getLast?_cons_join (rest : List (Option Nat)) :
    (none :: rest).getLast?.join = rest.getLast?.join := by
  rw [List.getLast?_cons]
  cases rest.getLast? <;> rfl

/-- The loop follows the chain. -/
lemma hashChain_eq (l : ElfLoader) (t : ChainTables) (fuel : Nat) : ∀ idx,
    l.hashChain t.symtabAddr t.chainOff t.nchain t.strtab t.name fuel idx =
      (follow (l.hashStep t) fuel idx >>= fun found => required found.getLast?.join) := by
  induction fuel with
  | zero => exact fun idx => rfl
  | succ fuel ih =>
    intro idx
    unfold hashChain
    by_cases hidx : idx ≠ 0 ∧ idx < t.nchain
    · unfold follow
      rw [if_pos hidx, hashStep, if_pos hidx, bind_assoc, bind_assoc]
      refine congrArg _ (funext fun symOff => ?_)
      rw [bind_assoc]
      refine congrArg _ (funext fun raw => ?_)
      split
      next => rfl
      split
      next => rfl
      rw [ih, ok_bind]
      rw [bind_assoc]
      refine congrArg _ (funext fun rest => ?_)
      rw [ok_bind, getLast?_cons_join]
    · have hstep : l.hashStep t idx = .err () := if_neg hidx
      rw [if_neg hidx]
      unfold follow
      rw [hstep]
      rfl

/-- A turn on an index that is one. -/
lemma hashStep_eq (hidx : idx ≠ 0 ∧ idx < t.nchain)
    (hfits : t.symtabAddr + idx * symSize + symSize < 2 ^ 64) : l.hashStep t idx =
      if t.symtabAddr + idx * symSize + symSize > l.data.length then .err ()
      else
        let sym := Elf64Sym.parse (slice l.data (t.symtabAddr + idx * symSize) symSize)
        if names t.strtab t.name sym then .ok (some sym.value, none)
        else if t.chainOff + idx * 4 + 4 > l.data.length then .err ()
        else .ok (none, some (leAt l.data (t.chainOff + idx * 4) 4)) := by
  unfold hashStep
  rw [if_pos hidx, uadd_of_lt (by omega), ok_bind, sliceChecked_eq hfits]
  split <;> rfl

lemma hashStep_returns : (l.hashStep t idx).Returns ↔
    (idx ≠ 0 → idx < t.nchain → t.symtabAddr + idx * symSize + symSize < 2 ^ 64) := by
  rw [hashStep, returns_ite, ← and_imp]
  refine and_iff_left (fun _ => trivial) |>.trans (imp_congr_right fun _ => ?_)
  rw [returns_uadd_bind, returns_sliceChecked_bind]
  exact ⟨fun h => h.2.1, fun h => ⟨by omega, h, fun _ => by simp⟩⟩

/-- What a turn answers. -/
lemma hashStep_eq_ok {r : Option Nat × Option Nat} : l.hashStep t idx = .ok r ↔
    (l.ChainEnd t idx ∧
      r = (some (Elf64Sym.parse (slice l.data (t.symtabAddr + idx * symSize) symSize)).value,
        none)) ∨
    ∃ next, l.ChainNext t idx next ∧ r = (none, some next) := by
  have hshort := l.short
  constructor
  · intro h
    have hidx : idx ≠ 0 ∧ idx < t.nchain := by
      by_contra hidx
      exact nomatch (if_neg hidx).symm.trans h
    have hret : (l.hashStep t idx).Returns := by
      rw [h]
      trivial
    rw [hashStep_eq hidx (hashStep_returns.mp hret hidx.1 hidx.2)] at h
    dsimp only at h
    split at h
    next => cases h
    next hin =>
      have hin := not_lt.mp hin
      split at h
      next hnamed => exact .inl ⟨⟨hidx.1, hidx.2, hin, hnamed⟩, (ok.inj h).symm⟩
      next hnot =>
        split at h
        next => cases h
        next hlink => exact .inr ⟨_, ⟨hidx.1, hidx.2, hin, hnot, not_lt.mp hlink, rfl⟩,
            (ok.inj h).symm⟩
  · have hstep (h : l.SymInside t idx) (hidx : idx ≠ 0 ∧ idx < t.nchain) :=
      hashStep_eq (l := l) hidx
      (lt_of_le_of_lt h (by omega))
    rintro (⟨h, rfl⟩ | ⟨next, h, rfl⟩)
    · rw [hstep h.inside ⟨h.nonzero, h.low⟩, if_neg (not_lt.mpr h.inside)]
      exact if_pos h.named
    · rw [hstep h.inside ⟨h.nonzero, h.low⟩, if_neg (not_lt.mpr h.inside)]
      refine (if_neg h.other).trans ?_
      rw [if_neg (not_lt.mpr h.link), h.next]

/-- A turn that goes on. -/
lemma hashStep_next {found : Option Nat} {next : Nat} :
    l.hashStep t idx = .ok (found, some next) ↔ found = none ∧ l.ChainNext t idx next := by
  rw [hashStep_eq_ok]
  simp [and_comm]

/-- A turn that finds the symbol. -/
lemma hashStep_found {found : Option Nat} : l.hashStep t idx = .ok (found, none) ↔
    l.ChainEnd t idx ∧
      found = some (Elf64Sym.parse
        (slice l.data (t.symtabAddr + idx * symSize) symSize)).value := by
  rw [hashStep_eq_ok]
  simp

lemma chainFits_iff : l.ChainFits t idx ↔ Follows (l.hashStep t) idx := by
  constructor
  · intro h
    induction h with
    | intro fits _ ih =>
      refine .intro (hashStep_returns.mpr fits) fun found next hstep => ?_
      exact ih next (hashStep_next.mp hstep).2
  · intro h
    induction h with
    | intro here _ ih =>
      refine .intro (hashStep_returns.mp here) fun next hnext => ?_
      exact ih none next (hashStep_next.mpr ⟨rfl, hnext⟩)

/-- The loop of `lookup_symbol_hashed` comes back from the chains that can be walked. -/
lemma hashChain_returns :
    (l.hashChain t.symtabAddr t.chainOff t.nchain t.strtab t.name hashFuel idx).Returns ↔
      l.ChainFits t idx := by
  have hlinks : ∀ idx found next, l.hashStep t idx = .ok (found, some next) →
      next ∈ Finset.range (2 ^ 32) := by
    intro idx found next hstep
    rw [(hashStep_next.mp hstep).2.next]
    exact Finset.mem_range.mpr (leAt_lt l.data _ 4)
  have hfuel : (Finset.range (2 ^ 32)).card < hashFuel := by
    rw [Finset.card_range]
    exact Nat.lt_add_of_pos_right (by omega)
  rw [hashChain_eq, returns_bind, follow_returns_iff hlinks hfuel, chainFits_iff]
  exact ⟨fun h => h.1, fun h => ⟨h, fun _ _ => required_returns _⟩⟩

/-- A symbol is found exactly along the chains that lead to it. -/
lemma hashChain_found (hfits : l.ChainFits t idx) :
    (∃ value, l.hashChain t.symtabAddr t.chainOff t.nchain t.strtab t.name hashFuel idx = .ok value)
      ↔ l.ChainFinds t idx := by
  have hret := hashChain_returns.mpr hfits
  rw [hashChain_eq] at hret ⊢
  have hfollow {found : List (Option Nat)} := follow_eq_ok_iff (l := found) (returns_bind.mp hret).1
  constructor
  · intro ⟨value, h⟩
    obtain ⟨found, hok, -⟩ := bind_eq_ok.mp h
    have hcollects := hfollow.mp hok
    clear hok h hfollow hret hfits
    induction hcollects with
    | last hstep => exact .here (hashStep_found.mp hstep).1
    | cons hstep _ ih => exact .next (hashStep_next.mp hstep).2 ih
  · intro h
    have hcollects : ∃ found value, Collects (l.hashStep t) idx found ∧
      found.getLast?.join = some value := by
      clear hfollow hret hfits
      induction h with
      | here hend => exact ⟨_, _, .last (hashStep_found.mpr ⟨hend, rfl⟩), rfl⟩
      | next hlink _ ih =>
        obtain ⟨found, value, hcollects, hvalue⟩ := ih
        refine ⟨none :: found, value, .cons (hashStep_next.mpr ⟨rfl, hlink⟩) hcollects, ?_⟩
        rw [getLast?_cons_join, hvalue]
    obtain ⟨found, value, hcollects, hvalue⟩ := hcollects
    refine ⟨value, ?_⟩
    rw [hfollow.mpr hcollects, ok_bind, hvalue]
    rfl

lemma ChainFinds.good (h : l.ChainFinds t idx) : l.ChainGood t idx := by
  induction h with
  | here hend => exact .here hend
  | next hlink _ ih => exact .next hlink ih

end Hash

/-- The bucket of the hash table at `h` that a name belongs to, as an offset. -/
def bucketOff (h : Nat) (name : List UInt8) : Nat :=
  h + 8 + (elfHash name).toNat % leAt l.data h 4 * 4

/-- The tables the lookup of a name in the hash table at `h` works with. -/
def chainTables (h symtabAddr : Nat) (strtab name : List UInt8) : ChainTables :=
  ⟨symtabAddr, h + 8 + leAt l.data h 4 * 4, leAt l.data (h + 4) 4, strtab, name⟩

/-- The hash table at `h` can be used: it has a bucket, and the chain of the name can be walked. -/
structure TableFits (l : ElfLoader) (h symtabAddr : Nat) (strtab name : List UInt8) : Prop where
  head : h + 8 < 2 ^ 64
  buckets : h + 8 ≤ l.data.length → leAt l.data h 4 ≠ 0
  chain : h + 8 ≤ l.data.length → l.bucketOff h name + 4 ≤ l.data.length →
    l.ChainFits (l.chainTables h symtabAddr strtab name) (leAt l.data (l.bucketOff h name) 4)

/-- A name can be looked up in the hash table, or without one. -/
structure HashedSafe (l : ElfLoader) (name : List UInt8) : Prop where
  dynamic : l.DynamicFits
  linear : lastOf dtHash l.entries = none → l.SymbolsSafe
  hashed : ∀ h a, lastOf dtHash l.entries = some h → lastOf dtSymtab l.entries = some a →
    l.StrtabFits ∧ ∀ st, l.strtab = some st → l.TableFits h a st name

/-- There is a hash table, and what the lookup of the name needs of it is not in order. -/
def HashMalformed (name : List UInt8) : Prop :=
  ∃ h, lastOf dtHash l.entries = some h ∧ (l.data.length < h + 8 ∨ leAt l.data h 4 = 0 ∨
    l.data.length < l.bucketOff h name + 4 ∨
    ∃ a st, lastOf dtSymtab l.entries = some a ∧ l.strtab = some st ∧
      ¬ l.ChainGood (l.chainTables h a st name) (leAt l.data (l.bucketOff h name) 4))

/-- The hash table at `h` leads to the name. -/
structure ChainedIn (l : ElfLoader) (h symtabAddr : Nat) (strtab name : List UInt8) : Prop where
  head : h + 8 ≤ l.data.length
  bucket : l.bucketOff h name + 4 ≤ l.data.length
  chain : l.ChainFinds (l.chainTables h symtabAddr strtab name) (leAt l.data (l.bucketOff h name) 4)

/-- The object defines the name: its hash table leads to it or, without one, its symbol table
lists it. -/
def Defines (name : List UInt8) : Prop :=
  match lastOf dtHash l.entries with
  | none => l.Listed name
  | some h => ∃ a st, lastOf dtSymtab l.entries = some a ∧ l.strtab = some st ∧
      l.ChainedIn h a st name

section Hashed

variable {l} {h a : Nat} {st name : List UInt8}

/-- The lookup, for a table head that can be read. -/
lemma lookupIn_eq (hfit : h + 8 < 2 ^ 64) : l.lookupIn h a st name =
    if h + 8 > l.data.length then .err ()
    else if leAt l.data h 4 = 0 then .panic
    else if l.bucketOff h name + 4 > l.data.length then .err ()
    else l.hashChain a (h + 8 + leAt l.data h 4 * 4) (leAt l.data (h + 4) 4) st name hashFuel
      (leAt l.data (l.bucketOff h name) 4) := by
  unfold lookupIn bucketOff urem
  rw [uadd_of_lt hfit, ok_bind]
  split
  next => rfl
  next =>
    dsimp only
    split <;> rfl

/-- When the lookup in a table comes back. -/
lemma lookupIn_returns : (l.lookupIn h a st name).Returns ↔ l.TableFits h a st name := by
  have hfits : l.TableFits h a st name ↔
    h + 8 < 2 ^ 64 ∧ (h + 8 ≤ l.data.length → leAt l.data h 4 ≠ 0 ∧
      (l.bucketOff h name + 4 ≤ l.data.length → l.ChainFits (l.chainTables h a st name)
        (leAt l.data (l.bucketOff h name) 4))) :=
    ⟨fun h => ⟨h.head, fun hin => ⟨h.buckets hin, h.chain hin⟩⟩,
      fun h => ⟨h.1, fun hin => (h.2 hin).1, fun hin => (h.2 hin).2⟩⟩
  rw [hfits]
  by_cases hfit : h + 8 < 2 ^ 64
  · rw [lookupIn_eq hfit, and_iff_right hfit]
    simp only [returns_ite, not_lt, returns_err, implies_true, true_and]
    refine imp_congr_right fun _ => and_congr_right fun hzero =>
      (forall_prop_of_true hzero).trans ?_
    exact imp_congr_right fun _ => hashChain_returns (t := l.chainTables h a st name)
  · refine iff_of_false (fun hret => hfit ?_) fun hf => hfit hf.1
    exact (returns_uadd_bind.mp hret).1

/-- When the hashed lookup comes back. -/
lemma lookupSymbolHashed_returns : (l.lookupSymbolHashed name).Returns ↔ l.HashedSafe name := by
  unfold lookupSymbolHashed
  rw [dynamicEntries_bind]
  cases hh : lastOf dtHash l.entries with
  | none =>
    rw [lookupSymbol_returns]
    exact ⟨fun hs => ⟨hs.1, fun _ => hs.2, fun h a hno => nomatch hh.symm.trans hno⟩,
      fun hs => ⟨hs.dynamic, hs.linear hh⟩⟩
  | some h =>
    constructor
    · rintro ⟨hdyn, hret⟩
      refine ⟨hdyn, fun hno => (nomatch hh.symm.trans hno), fun h' a hh' ha => ?_⟩
      cases hh.symm.trans hh'
      rw [ha] at hret
      obtain ⟨hfits, htab⟩ := (dynamicStrtab_bind hdyn _).mp hret
      exact ⟨hfits, fun st hst => lookupIn_returns.mp (htab st hst)⟩
    · intro hs
      refine ⟨hs.dynamic, ?_⟩
      cases ha : lastOf dtSymtab l.entries with
      | none => trivial
      | some a =>
        obtain ⟨hfits, htab⟩ := hs.hashed h a hh ha
        refine (dynamicStrtab_bind hs.dynamic _).mpr ⟨hfits, fun st hst => ?_⟩
        exact lookupIn_returns.mpr (htab st hst)

lemma lookupIn_found (hfit : l.TableFits h a st name) :
    (∃ value, l.lookupIn h a st name = .ok value) ↔ l.ChainedIn h a st name := by
  rw [lookupIn_eq hfit.head]
  by_cases hin : h + 8 > l.data.length
  · rw [if_pos hin]
    exact iff_of_false nofun fun hc => not_le.mpr hin hc.head
  · have hin' := not_lt.mp hin
    rw [if_neg hin, if_neg (hfit.buckets hin')]
    by_cases hout : l.bucketOff h name + 4 > l.data.length
    · rw [if_pos hout]
      exact iff_of_false nofun fun hc => not_le.mpr hout hc.bucket
    · have hout' := not_lt.mp hout
      rw [if_neg hout]
      refine (hashChain_found (hfit.chain hin' hout')).trans ?_
      exact ⟨fun hc => ⟨hin', hout', hc⟩, fun hc => hc.chain⟩

/-- The lookup finds the names the object defines. -/
lemma lookupSymbolHashed_found (hs : l.HashedSafe name) :
    (∃ value, l.lookupSymbolHashed name = .ok value) ↔ l.Defines name := by
  unfold lookupSymbolHashed Defines
  rw [dynamicEntries_eq hs.dynamic, ok_bind]
  cases hh : lastOf dtHash l.entries with
  | none => exact lookupSymbol_found (hs.linear hh)
  | some h =>
    cases ha : lastOf dtSymtab l.entries with
    | none => exact iff_of_false nofun fun hno => by obtain ⟨a, st, hno, -⟩ := hno; cases hno
    | some a =>
      obtain ⟨hfits, htab⟩ := hs.hashed h a hh ha
      rw [dynamicStrtab_eq ⟨hs.dynamic, hfits⟩]
      cases hst : l.strtab with
      | none =>
        exact iff_of_false nofun fun hno => by obtain ⟨a, st, -, hno, -⟩ := hno; cases hno
      | some st =>
        refine (lookupIn_found (htab st hst)).trans ⟨fun hc => ⟨a, st, rfl, rfl, hc⟩, fun hc => ?_⟩
        obtain ⟨a', st', ha', hst', hc⟩ := hc
        cases ha'
        cases hst'
        exact hc

/-- Where the hash table is malformed, it does not define the name. -/
lemma HashMalformed.not_defines (hbad : l.HashMalformed name) (hs : l.HashedSafe name) :
    ¬ l.Defines name := by
  obtain ⟨h, hh, hbad⟩ := hbad
  intro hdef
  unfold Defines at hdef
  rw [hh] at hdef
  obtain ⟨a, st, ha, hst, hc⟩ := hdef
  rcases hbad with hbad | hbad | hbad | ⟨a', st', ha', hst', hbad⟩
  · exact not_le.mpr hbad hc.head
  · exact ((hs.hashed h a hh ha).2 st hst).buckets hc.head hbad
  · exact not_le.mpr hbad hc.bucket
  · cases ha.symm.trans ha'
    cases hst.symm.trans hst'
    exact hbad hc.chain.good

/-- The hashed lookup gives what the linear one gives when there is no usable hash table. -/
def FallsBack (l : ElfLoader) (name : List UInt8) : Prop :=
  lastOf dtHash l.entries = none ∨ l.HashMalformed name →
    l.lookupSymbolHashed name = l.lookupSymbol name

/-- A malformed hash table hides the names that the symbol table lists. -/
lemma fallsBack_iff (hs : l.HashedSafe name) (hl : l.SymbolsSafe) :
    l.FallsBack name ↔ (l.HashMalformed name → ¬ l.Listed name) := by
  constructor
  · intro h hbad hlisted
    obtain ⟨value, hvalue⟩ := (lookupSymbol_found hl).mpr hlisted
    refine hbad.not_defines hs ((lookupSymbolHashed_found hs).mp ⟨value, ?_⟩)
    rw [h (.inr hbad), hvalue]
  · intro h hcase
    rcases hcase with hnone | hbad
    · unfold lookupSymbolHashed
      rw [dynamicEntries_eq hs.dynamic, ok_bind, hnone]
    · have hlook : l.lookupSymbolHashed name = .err () :=
        eq_err_of_not_found (lookupSymbolHashed_returns.mpr hs) fun hfound =>
          hbad.not_defines hs ((lookupSymbolHashed_found hs).mp hfound)
      have hlin : l.lookupSymbol name = .err () :=
        eq_err_of_not_found (lookupSymbol_returns.mpr hl) fun hfound =>
          h hbad ((lookupSymbol_found hl).mp hfound)
      rw [hlook, hlin]

end Hashed

end ElfLoader

end RustOs.Elf
