import RustOs.Elf.Format

/-!
# The dynamic section of an ELF file

The part of `src/elf.rs` that finds the dynamic section, the string and symbol tables it names
and the symbols in them. Offsets and sizes come from the file and are 64-bit numbers, so their
sums may leave that width; those sums are checked. A sum of a position inside the file and a
32-bit number stays far below 2^64 and is plain.

A function that returns an `Option` is an `Outcome` whose error is `()`. The loops over records
of a fixed size are maps over their indices. The chain of a hash table can lead anywhere, also
back, so `hashChain` has fuel: more than there are indices of 32 bits.
-/

namespace RustOs.Elf

open Lib
open Lib.Outcome (uadd umul urem)

/-! ## The tags of the dynamic section -/

def dtNull : Nat := 0
def dtNeeded : Nat := 1
def dtPltrelsz : Nat := 2
def dtHash : Nat := 4
def dtStrtab : Nat := 5
def dtSymtab : Nat := 6
def dtRela : Nat := 7
def dtRelasz : Nat := 8
def dtRelaent : Nat := 9
def dtStrsz : Nat := 10
def dtSyment : Nat := 11
def dtSoname : Nat := 14
def dtJmprel : Nat := 23
def dtGnuHash : Nat := 0x6FFFFEF5

/-- The value of the last entry with a tag: later entries replace earlier ones. -/
def lastOf (tag : Nat) (entries : List (Nat × Nat)) : Option Nat :=
  (entries.reverse.find? (·.1 == tag)).map (·.2)

/-- The value of the first entry with a tag. -/
def firstOf (tag : Nat) (entries : List (Nat × Nat)) : Option Nat :=
  (entries.find? (·.1 == tag)).map (·.2)

/-- The entries up to the first `DT_NULL`, which is one of them. -/
def throughNull : List (Nat × Nat) → List (Nat × Nat)
  | [] => []
  | e :: rest => if e.1 = dtNull then [e] else e :: throughNull rest

/-- The entries in the bytes of the section. -/
def entriesIn (body : List UInt8) : List (Nat × Nat) :=
  throughNull ((List.range (body.length / 16)).map fun i =>
    (leAt body (i * 16) 8, leAt body (i * 16 + 8) 8))

/-- The name at an offset of a string table: up to the next NUL, or to the end. -/
def nameAt (strtab : List UInt8) (off : Nat) : List UInt8 := (strtab.drop off).takeWhile (· != 0)

/-- The step of `elf_hash`. -/
def elfHashStep (h : UInt32) (c : UInt8) : UInt32 :=
  let h := (h <<< 4) + c.toUInt32
  let g := h &&& 0xF0000000
  let h := if g ≠ 0 then h ^^^ (g >>> 24) else h
  h &&& ~~~g

/-- `elf_hash`. -/
def elfHash (name : List UInt8) : UInt32 := name.foldl elfHashStep 0

namespace ElfLoader

variable {ε : Type}

variable (l : ElfLoader)

/-- The bytes `off..off + len` of the file, with the test the source makes before it slices. -/
def sliceChecked (off len : Nat) : Outcome Unit (List UInt8) := do
  let stop ← uadd 64 off len
  if stop > l.data.length then .err () else .ok (slice l.data off len)

/-- A call whose `None` is a value here. -/
def orElse {α : Type} (x : Outcome Unit α) (default : α) : Outcome ε α :=
  match x with
  | .ok a => .ok a
  | .err _ => .ok default
  | .panic => .panic
  | .diverge => .diverge

/-- `dynamic_entries`. -/
def dynamicEntries : Outcome ε (List (Nat × Nat)) := do
  match ← l.segment ptDynamic with
  | none => .ok []
  | some ph => do
    let body ← orElse (l.sliceChecked ph.offset ph.filesz) []
    .ok (entriesIn body)

/-- `interp_path`. -/
def interpPath : Outcome Unit (List UInt8) := do
  match ← l.segment ptInterp with
  | none => .err ()
  | some ph => do
    let s ← l.sliceChecked ph.offset ph.filesz
    .ok (if s.getLast? = some 0 then s.dropLast else s)

/-- A value that has to be there: `?` on an `Option`. -/
def required {α : Type} (x : Option α) : Outcome Unit α :=
  match x with
  | some a => .ok a
  | none => .err ()

/-- `dynamic_strtab`. -/
def dynamicStrtab : Outcome Unit (List UInt8) := do
  let entries ← l.dynamicEntries
  let addr ← required (lastOf dtStrtab entries)
  let sz ← required (lastOf dtStrsz entries)
  l.sliceChecked addr sz

/-- `needed_libraries`. -/
def neededLibraries : Outcome ε (List (List UInt8)) := do
  let strtab ← orElse (some <$> l.dynamicStrtab) none
  match strtab with
  | none => .ok []
  | some strtab => do
    let entries ← l.dynamicEntries
    .ok ((entries.filter fun e => e.1 == dtNeeded && e.2 < strtab.length).map fun e =>
      nameAt strtab e.2)

/-- `soname`. -/
def soname : Outcome Unit (List UInt8) := do
  let strtab ← l.dynamicStrtab
  let entries ← l.dynamicEntries
  let off ← required (firstOf dtSoname entries)
  if off ≥ strtab.length then .err () else .ok (nameAt strtab off)

/-- `symtab_size_from_hash`. -/
def symtabSizeFromHash (h syment : Nat) : Outcome Unit Nat := do
  let stop ← uadd 64 h 8
  if stop > l.data.length then .err () else umul 64 (leAt l.data (h + 4) 4) syment

/-- The largest of the buckets, if they lie inside the file. -/
def maxBucket (bucketsOff nbuckets : Nat) : Outcome Unit Nat :=
  if nbuckets ≠ 0 ∧ bucketsOff + nbuckets * 4 > l.data.length then .err ()
  else .ok (((List.range nbuckets).map fun i => leAt l.data (bucketsOff + i * 4) 4).foldl max 0)

/-- The walk of `symtab_size_from_gnu_hash` to the end of the last chain: the index behind it.
Each turn needs four more bytes of the file. -/
def gnuChainEnd (l : ElfLoader) (chainOff : Nat) : Nat → Nat → Outcome Unit Nat
  | 0, _ => .diverge
  | fuel + 1, idx =>
    if chainOff + idx * 4 + 4 > l.data.length then .err ()
    else if leAt l.data (chainOff + idx * 4) 4 % 2 ≠ 0 then .ok (idx + 1)
    else gnuChainEnd l chainOff fuel (idx + 1)

/-- The number of symbols that a GNU hash table at `h` tells. -/
def gnuSymbolCount (h : Nat) : Outcome Unit Nat := do
  let stop ← uadd 64 h 16
  if stop > l.data.length then .err ()
  else do
    let nbuckets := leAt l.data h 4
    let symoffset := leAt l.data (h + 4) 4
    let bloomSize := leAt l.data (h + 8) 4
    let bucketsOff := h + 16 + bloomSize * 8
    let chainOff := bucketsOff + nbuckets * 4
    let top ← l.maxBucket bucketsOff nbuckets
    if top < symoffset then .ok symoffset
    else do
      let idx ← l.gnuChainEnd chainOff (l.data.length + 1) (top - symoffset)
      .ok (symoffset + idx)

/-- `symtab_size_from_gnu_hash`. -/
def symtabSizeFromGnuHash (h syment : Nat) : Outcome Unit Nat := do
  let count ← l.gnuSymbolCount h
  umul 64 count syment

/-- The size of the symbol table, from the hash table there is. -/
def symtabSize (entries : List (Nat × Nat)) (syment : Nat) : Outcome Unit Nat :=
  match lastOf dtHash entries, lastOf dtGnuHash entries with
  | some h, _ => l.symtabSizeFromHash h syment
  | none, some h => l.symtabSizeFromGnuHash h syment
  | none, none => .err ()

/-- `dynamic_symbols`: the symbol table and the string table. -/
def dynamicSymbols : Outcome Unit (List UInt8 × List UInt8) := do
  let entries ← l.dynamicEntries
  let symtabAddr ← required (lastOf dtSymtab entries)
  let syment := (lastOf dtSyment entries).getD 24
  if syment ≠ 24 then .err ()
  else do
    let strtab ← l.dynamicStrtab
    let sz ← l.symtabSize entries syment
    let symtab ← l.sliceChecked symtabAddr sz
    .ok (symtab, strtab)

/-- Is this a defined symbol of that name? -/
def names (strtab name : List UInt8) (sym : Elf64Sym) : Bool :=
  !sym.isUndefined && sym.name < strtab.length && nameAt strtab sym.name == name

/-- The symbols of a symbol table. -/
def symbolsIn (symtab : List UInt8) : List Elf64Sym :=
  (List.range (symtab.length / symSize)).map fun i => Elf64Sym.parse
    (slice symtab (i * symSize) symSize)

/-- `lookup_symbol`. -/
def lookupSymbol (name : List UInt8) : Outcome Unit Nat := do
  let (symtab, strtab) ← l.dynamicSymbols
  let sym ← required ((symbolsIn symtab).find? (names strtab name))
  .ok sym.value

/-- The loop of `lookup_symbol_hashed` along a chain. -/
def hashChain (l : ElfLoader) (symtabAddr chainOff nchain : Nat) (strtab name : List UInt8) :
    Nat → Nat → Outcome Unit Nat
  | 0, _ => .diverge
  | fuel + 1, idx =>
    if idx ≠ 0 ∧ idx < nchain then do
      let symOff ← uadd 64 symtabAddr (idx * symSize)
      let raw ← l.sliceChecked symOff symSize
      if names strtab name (Elf64Sym.parse raw) then .ok (Elf64Sym.parse raw).value
      else if chainOff + idx * 4 + 4 > l.data.length then .err ()
      else
        hashChain l symtabAddr chainOff nchain strtab name fuel (leAt l.data (chainOff + idx * 4) 4)
    else .err ()

/-- More steps than there are indices of 32 bits, and one for the start. -/
def hashFuel : Nat := 2 ^ 32 + 2

/-- The part of `lookup_symbol_hashed` that uses the hash table at `h`. -/
def lookupIn (h symtabAddr : Nat) (strtab name : List UInt8) : Outcome Unit Nat := do
  let stop ← uadd 64 h 8
  if stop > l.data.length then .err ()
  else do
    let nbucket := leAt l.data h 4
    let nchain := leAt l.data (h + 4) 4
    let chainOff := h + 8 + nbucket * 4
    let r ← urem (elfHash name).toNat nbucket
    if h + 8 + r * 4 + 4 > l.data.length then .err ()
    else do
      let idx := leAt l.data (h + 8 + r * 4) 4
      l.hashChain symtabAddr chainOff nchain strtab name hashFuel idx

/-- `lookup_symbol_hashed`. -/
def lookupSymbolHashed (name : List UInt8) : Outcome Unit Nat := do
  let entries ← l.dynamicEntries
  match lastOf dtHash entries with
  | none => l.lookupSymbol name
  | some h => do
    let symtabAddr ← required (lastOf dtSymtab entries)
    let strtab ← l.dynamicStrtab
    l.lookupIn h symtabAddr strtab name

end ElfLoader

end RustOs.Elf
