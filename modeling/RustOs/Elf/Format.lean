import RustOs.Lib.Bytes
import RustOs.Lib.Outcome

/-!
# ELF files

The records of `src/elf.rs` as they stand in a file: the ELF header, a program header, a symbol
and a relocation with addend. `ElfLoader` is a file whose header has been checked; the checks are
a field of it, so there is no loader for a file that `ElfLoader::new` refuses.

The table of program headers is found by its offset alone, and its bytes are read wherever they
lie. `around` is what memory holds where the file is not, and `addr` is where the file lies. The
pointer to the table is made by `ptr::add` and `slice::from_raw_parts`, which panic in a debug
build when an address overflows or is not aligned.
-/

namespace RustOs.Elf

open Lib

/-- `ElfHeader`, without the fields nothing looks at. -/
structure ElfHeader where
  ident : List UInt8
  type : Nat
  machine : Nat
  entry : Nat
  phoff : Nat
  ehsize : Nat
  phentsize : Nat
  phnum : Nat
  deriving DecidableEq, Repr

/-- The size of an `ElfHeader`. -/
def headerSize : Nat := 64

/-- The header in these bytes. -/
def ElfHeader.ofBytes (b : List UInt8) : ElfHeader where
  ident := slice b 0 16
  type := leAt b 16 2
  machine := leAt b 18 2
  entry := leAt b 24 8
  phoff := leAt b 32 8
  ehsize := leAt b 52 2
  phentsize := leAt b 54 2
  phnum := leAt b 56 2

/-- `ProgramHeader`, without the fields nothing looks at. -/
structure ProgramHeader where
  type : Nat
  offset : Nat
  vaddr : Nat
  filesz : Nat
  memsz : Nat
  deriving DecidableEq, Repr

/-- The size of a `ProgramHeader`. -/
def programHeaderSize : Nat := 56

/-- The program header in these bytes. -/
def ProgramHeader.ofBytes (b : List UInt8) : ProgramHeader where
  type := leAt b 0 4
  offset := leAt b 8 8
  vaddr := leAt b 16 8
  filesz := leAt b 32 8
  memsz := leAt b 40 8

def ptDynamic : Nat := 2
def ptInterp : Nat := 3

/-- `Elf64Sym`, without the fields nothing looks at. -/
structure Elf64Sym where
  name : Nat
  shndx : Nat
  value : Nat
  deriving DecidableEq, Repr

/-- The size of an `Elf64Sym`. -/
def symSize : Nat := 24

/-- `parse`, on the 24 bytes of a symbol. -/
def Elf64Sym.parse (b : List UInt8) : Elf64Sym where
  name := leAt b 0 4
  shndx := leAt b 6 2
  value := leAt b 8 8

/-- `is_undefined`. -/
def Elf64Sym.isUndefined (sym : Elf64Sym) : Bool := sym.shndx == 0

/-- An `Elf64_Rela`; the addend is the 64-bit word of the signed number. -/
structure Rela where
  offset : Nat
  info : Nat
  addend : Nat
  deriving DecidableEq, Repr

/-- The relocation at a position of the image. -/
def Rela.at (image : List UInt8) (pos : Nat) : Rela where
  offset := leAt image pos 8
  info := leAt image (pos + 8) 8
  addend := leAt image (pos + 16) 8

/-- The low word of `r_info`. -/
def Rela.type (r : Rela) : Nat := r.info % 2 ^ 32

/-- The high word of `r_info`. -/
def Rela.sym (r : Rela) : Nat := r.info / 2 ^ 32

/-- `ElfError`. -/
inductive ElfError where
  | invalidMagic
  | unsupportedClass
  | unsupportedEndianness
  | unsupportedVersion
  | unsupportedABI
  | notExecutable
  | wrongArchitecture
  | invalidHeaderSize
  | noLoadableSegments
  | allocationFailed
  | tooSmall
  deriving DecidableEq, Repr

/-- `validate_header`: 64-bit little-endian System V, a program or a shared object for x86-64. -/
def ElfHeader.validate (h : ElfHeader) : Except ElfError Unit :=
  if h.ident.take 4 ≠ [0x7F, 0x45, 0x4C, 0x46] then .error .invalidMagic
  else if h.ident.getD 4 0 ≠ 2 then .error .unsupportedClass
  else if h.ident.getD 5 0 ≠ 1 then .error .unsupportedEndianness
  else if h.ident.getD 6 0 ≠ 1 then .error .unsupportedVersion
  else if h.ident.getD 7 0 ≠ 0 then .error .unsupportedABI
  else if h.type ≠ 2 ∧ h.type ≠ 3 then .error .notExecutable
  else if h.machine ≠ 62 then .error .wrongArchitecture
  else if h.ehsize ≠ headerSize then .error .invalidHeaderSize
  else .ok ()

/-- `ElfLoader`: a file that `new` has accepted. A slice has at most `isize::MAX` bytes. -/
structure ElfLoader where
  data : List UInt8
  around : Nat → UInt8
  addr : Nat
  short : data.length < 2 ^ 63
  placed : 0 < addr ∧ addr + data.length ≤ 2 ^ 64
  big : headerSize ≤ data.length
  valid : (ElfHeader.ofBytes data).validate = .ok ()

namespace ElfLoader

/-- `new`. -/
def new (data : List UInt8) (around : Nat → UInt8) (addr : Nat) (short : data.length < 2 ^ 63)
    (placed : 0 < addr ∧ addr + data.length ≤ 2 ^ 64) : Except ElfError ElfLoader :=
  if hsize : data.length < headerSize then .error .tooSmall
  else
    match hvalid : (ElfHeader.ofBytes data).validate with
    | .error e => .error e
    | .ok () => .ok ⟨data, around, addr, short, placed, Nat.not_lt.mp hsize, hvalid⟩

/-- The header of the file. -/
def header (l : ElfLoader) : ElfHeader := ElfHeader.ofBytes l.data

/-- A byte at an offset from the start of the file. -/
def byteAt (l : ElfLoader) (i : Nat) : UInt8 :=
  if i < l.data.length then l.data.getD i 0 else l.around i

/-- The program headers at `e_phoff`, whatever stands there. -/
def headerTable (l : ElfLoader) : List ProgramHeader :=
  (List.range l.header.phnum).map fun i => ProgramHeader.ofBytes
    ((List.range programHeaderSize).map fun j => l.byteAt
      (l.header.phoff + i * programHeaderSize + j))

/-- `program_headers`. The size of the slice never comes near `isize::MAX`. -/
def programHeaders {ε : Type} (l : ElfLoader) : Outcome ε (List ProgramHeader) :=
  if l.header.phentsize ≠ programHeaderSize then .ok []
  else if l.header.phoff ≥ 2 ^ 63 ∨ l.addr + l.header.phoff ≥ 2 ^ 64 then .panic -- `ptr::add`
  else if (l.addr + l.header.phoff) % 8 ≠ 0 then .panic -- `slice::from_raw_parts`
  else .ok l.headerTable

/-- The first program header of a type. -/
def segment {ε : Type} (l : ElfLoader) (type : Nat) : Outcome ε (Option ProgramHeader) := do
  let headers ← l.programHeaders
  .ok (headers.find? (·.type == type))

end ElfLoader

end RustOs.Elf
