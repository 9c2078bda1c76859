import RustOs.Elf.Dynamic

/-!
# Relocating an image

The relocation engine of `src/elf.rs`: one relocation (`apply_rela_with`), the loop over a table
of them in the image that is being relocated, and its two users, `apply_pie_relocations` and
`MultiObjectResolver::link`. The image is the state: what has been written stays written when a
later relocation fails. The table is part of the image, so a relocation may change those behind it.

`link` takes the size of an entry from the file as it is. With 0 the loop stays where it is, so
it has fuel; every other size moves it on by a byte at least.
-/

namespace RustOs.Elf

open Lib
open Lib.Outcome (uadd)

def rX8664None : Nat := 0
def rX866464 : Nat := 1
def rX8664GlobDat : Nat := 6
def rX8664JumpSlot : Nat := 7
def rX8664Relative : Nat := 8

/-- Store a 64-bit word in the image. -/
def storeWord (off val : Nat) : Prog (List UInt8) String Unit := fun image =>
  (.ok (), patch image off (leBytes 8 val))

/-- The symbol has to be found. -/
def resolved (x : Outcome Unit Nat) : Prog (List UInt8) String Nat :=
  Prog.lift (x.mapErr fun _ => "rela: unresolved symbol")

/-- `apply_rela_with`. -/
def applyRelaWith (imageBase : Nat) (r : Rela) (resolve : Nat → Outcome Unit Nat) :
    Prog (List UInt8) String Unit := do
  let image ← Prog.get
  let stop ← Prog.lift (uadd 64 r.offset 8)
  if stop > image.length then Prog.fail "rela: r_offset out of bounds"
  else if r.type = rX8664None then pure ()
  else if r.type = rX8664Relative then storeWord r.offset ((imageBase + r.addend) % 2 ^ 64)
  else if r.type = rX866464 then do
    let s ← resolved (if r.sym = 0 then .ok 0 else resolve r.sym)
    storeWord r.offset ((s + r.addend) % 2 ^ 64)
  else if r.type = rX8664GlobDat ∨ r.type = rX8664JumpSlot then do
    let s ← resolved (resolve r.sym)
    storeWord r.offset s
  else Prog.fail "rela: unsupported relocation type"

/-- `apply_rela`. -/
def applyRela (imageBase : Nat) (r : Rela) : Prog (List UInt8) String Unit :=
  applyRelaWith imageBase r fun _ => .err ()

/-- The loop over the table from `pos` to `stop`, whose entries are `ent` bytes apart. It adds up
what `onEntry` says of each entry. -/
def relaLoop (onEntry : Rela → Prog (List UInt8) String Nat) (ent stop : Nat) :
    Nat → Nat → Prog (List UInt8) String Nat
  | 0, _ => Prog.lift .diverge
  | fuel + 1, pos => do
    let next ← Prog.lift (uadd 64 pos ent)
    if next > stop then pure 0
    else do
      let last ← Prog.lift (uadd 64 pos 24)
      let image ← Prog.get
      if last > image.length then pure 0
      else do
        let k ← onEntry (Rela.at image pos)
        let n ← relaLoop onEntry ent stop fuel next
        pure (k + n)

/-- A table: each turn of the loop passes a byte of the image at least, unless an entry has
size 0. -/
def relaTable (onEntry : Rela → Prog (List UInt8) String Nat) (off sz ent : Nat) :
    Prog (List UInt8) String Nat := do
  let stop ← Prog.lift (uadd 64 off sz)
  let image ← Prog.get
  relaLoop onEntry ent stop (image.length + 1) off

/-- An entry in `apply_pie_relocations`: only `R_X86_64_RELATIVE` is applied, and an error ends
the loop. -/
def pieEntry (imageBase : Nat) (r : Rela) : Prog (List UInt8) String Nat :=
  if r.type = rX8664Relative then do
    applyRela imageBase r
    pure 1
  else pure 0

/-- An entry in `link`: every type is applied, and an error is not counted. -/
def linkEntry (imageBase : Nat) (resolve : Nat → Outcome Unit Nat) (r : Rela) :
    Prog (List UInt8) String Nat := do
  match ← (applyRelaWith imageBase r resolve).attempt with
  | .ok _ => pure 1
  | .error _ => pure 0

/-- `apply_pie_relocations`. -/
def ElfLoader.applyPieRelocations (l : ElfLoader) (imageBase : Nat) :
    Prog (List UInt8) String Nat := do
  let entries ← Prog.lift l.dynamicEntries
  match lastOf dtRela entries, lastOf dtRelasz entries, lastOf dtRelaent entries with
  | some off, some sz, some ent =>
    if ent < 24 then Prog.fail "rela: entry size < 24"
    else relaTable (pieEntry imageBase) off sz ent
  | _, _, _ => pure 0

/-- `MultiObjectResolver`: the objects with their bases. -/
structure MultiObjectResolver where
  objects : List (Nat × ElfLoader)

/-- `resolve`, on the objects that are left. -/
def resolveIn (name : List UInt8) : List (Nat × ElfLoader) → Outcome Unit Nat
  | [] => .err ()
  | (base, l) :: rest =>
    match l.lookupSymbolHashed name with
    | .ok off => .ok ((base + off) % 2 ^ 64)
    | .err _ => resolveIn name rest
    | .panic => .panic
    | .diverge => .diverge

namespace MultiObjectResolver

/-- `resolve`. -/
def resolve (r : MultiObjectResolver) (name : List UInt8) : Outcome Unit Nat :=
    resolveIn name r.objects

/-- `resolve_sym`: the name of a symbol of the loader, looked up in all objects. -/
def resolveSym (r : MultiObjectResolver) (l : ElfLoader) (symtabAddr : Nat) (strtab : List UInt8)
    (rSym : Nat) : Outcome Unit Nat :=
  if rSym = 0 then .err ()
  else do
    let symOff ← uadd 64 symtabAddr (rSym * symSize)
    let raw ← l.sliceChecked symOff symSize
    if (Elf64Sym.parse raw).name ≥ strtab.length then .err ()
    else r.resolve (nameAt strtab (Elf64Sym.parse raw).name)

/-- The `DT_RELA` table, if there is one. -/
def linkRela (onEntry : Rela → Prog (List UInt8) String Nat) (entries : List (Nat × Nat)) :
    Prog (List UInt8) String Nat :=
  match lastOf dtRela entries, lastOf dtRelasz entries, lastOf dtRelaent entries with
  | some off, some sz, some ent => relaTable onEntry off sz ent
  | _, _, _ => pure 0

/-- The `DT_JMPREL` table, if there is one. -/
def linkPlt (onEntry : Rela → Prog (List UInt8) String Nat) (entries : List (Nat × Nat)) :
    Prog (List UInt8) String Nat :=
  match lastOf dtJmprel entries, lastOf dtPltrelsz entries with
  | some off, some sz => relaTable onEntry off sz 24
  | _, _ => pure 0

/-- `link`: the counts of the `DT_RELA` and of the `DT_JMPREL` table. -/
def link (r : MultiObjectResolver) (l : ElfLoader) (imageBase : Nat) :
    Prog (List UInt8) String (Nat × Nat) := do
  let entries ← Prog.lift l.dynamicEntries
  let strtab ← Prog.lift (l.dynamicStrtab.mapErr fun _ => "link: no DT_STRTAB")
  let symtabAddr ← Prog.lift ((ElfLoader.required (firstOf dtSymtab entries)).mapErr
    fun _ => "link: no DT_SYMTAB")
  let onEntry := linkEntry imageBase (r.resolveSym l symtabAddr strtab)
  let relaApplied ← linkRela onEntry entries
  let pltApplied ← linkPlt onEntry entries
  pure (relaApplied, pltApplied)

end MultiObjectResolver

end RustOs.Elf
