import RustOs.Fs.Fat32.Driver
import RustOs.Fs.RamDisk
import RustOs.Fs.Tmpfs

/-!
# The virtual file system

`VfsContext` in `src/fs/vfs.rs` chooses a back end for each call: the generated
files under `/proc`, `/dev` and `/sys`, tmpfs under `/tmp`, and for everything
else the FAT32 volume if one is mounted and the RAM disk. Each operation writes
the choice out again, and they do not agree: `delete` and `rename` know nothing
of the generated files, `rmdir` and `rename` nothing of tmpfs, and with a volume
mounted `read`, `exists` and `delete` fall through to the RAM disk while `write`,
`mkdir` and `rmdir` do not.

What the kernel generates under `/proc`, `/dev` and `/sys` comes from outside the
file systems. It is a field of the state here, one function from names to
contents for each of the three.
-/

namespace RustOs.Fs

open Lib Drivers

/-- The generated files, by the name behind the mount point. -/
structure Generated where
  proc : Str → Option (List UInt8)
  dev : Str → Option (List UInt8)
  /-- `DEV_NODES`, which `exists` asks and `read_dev` does not. -/
  devNodes : List Str
  sys : Str → Option (List UInt8)

/-- The mount points of the generated files. -/
def procRoot : Str := ['/', 'p', 'r', 'o', 'c']
def devRoot : Str := ['/', 'd', 'e', 'v']
def sysRoot : Str := ['/', 's', 'y', 's']

/-- `is_proc_path`. -/
def isProcPath (path : Str) : Bool := isUnder procRoot path

/-- `is_dev_path`. -/
def isDevPath (path : Str) : Bool := isUnder devRoot path

/-- `is_sys_path`. -/
def isSysPath (path : Str) : Bool := isUnder sysRoot path

/-- The name behind a mount point, which is cut off as often as it is there. -/
def nameUnder (root path : Str) : Str := trimStartMatches '/' (trimStartStr root path)

namespace Generated

variable (gen : Generated)

/-- `read_proc`. -/
def readProc (path : Str) : Option (List UInt8) := gen.proc (nameUnder procRoot path)

/-- `read_dev`. -/
def readDev (path : Str) : Option (List UInt8) := gen.dev (nameUnder devRoot path)

/-- `read_sys`. -/
def readSys (path : Str) : Option (List UInt8) := gen.sys (nameUnder sysRoot path)

/-- `procfs::exists`. -/
def procExists (path : Str) : Bool := (gen.readProc path).isSome

/-- `devfs::exists`. -/
def devExists (path : Str) : Bool :=
  nameUnder devRoot path == [] || nameUnder devRoot path == ['.']
    || gen.devNodes.any (· == nameUnder devRoot path)

/-- `sysfs::exists`. -/
def sysExists (path : Str) : Bool := (gen.readSys path).isSome

end Generated

/-- The devices `write_dev` accepts; what it prints is not modelled. -/
def devSinks : List Str :=
  [['n', 'u', 'l', 'l'], ['c', 'o', 'n', 's', 'o', 'l', 'e'], ['t', 't', 'y'],
    ['k', 'm', 's', 'g'], ['z', 'e', 'r', 'o'], ['r', 'a', 'n', 'd', 'o', 'm'],
    ['u', 'r', 'a', 'n', 'd', 'o', 'm']]

/-- The state behind `VfsContext`. -/
structure Vfs where
  fat32 : Option Fat32
  disk : Disk
  ram : RamDisk
  tmp : Tmpfs
  gen : Generated
  now : Nat

namespace Vfs

/-- Nothing mounted and nothing stored. -/
def empty : Vfs where
  fat32 := none
  disk := fun _ => Sector.ofBytes []
  ram := ⟨[]⟩
  tmp := ⟨[]⟩
  gen := ⟨fun _ => none, fun _ => none, [], fun _ => none⟩
  now := 0

variable {ε α : Type}

/-- A call on the FAT32 volume. -/
def onFat (m : Prog Disk ε α) : Prog Vfs ε α := fun st =>
  ((m st.disk).1, { st with disk := (m st.disk).2 })

/-- A call on the RAM disk. -/
def onRam (m : Prog RamDisk ε α) : Prog Vfs ε α := fun st =>
  ((m st.ram).1, { st with ram := (m st.ram).2 })

/-- A call on tmpfs. -/
def onTmp (m : Prog Tmpfs ε α) : Prog Vfs ε α := fun st =>
  ((m st.tmp).1, { st with tmp := (m st.tmp).2 })

/-- `ok_or(VfsError::FileNotFound)`. -/
def orNotFound : Option α → Outcome VfsError α
  | some a => .ok a
  | none => .err .fileNotFound

/-- `readlink`: FAT32 has no links. -/
def readlink (st : Vfs) (path : Str) : Outcome VfsError Str :=
  if st.fat32.isSome then .err .permissionDenied else st.ram.readlink path

/-- Where a link leads: an absolute target, or one beside the link. -/
def follow (link target : Str) : Str :=
  if target.head? = some '/' then target
  else if parentPath link = ['/'] then '/' :: target
  else parentPath link ++ '/' :: target

/-- The loop of `resolve_path`. -/
def resolveFrom (st : Vfs) : Nat → Str → Outcome VfsError Str
  | 0, _ => .err .ioError
  | n + 1, path =>
    match st.readlink path with
    | .ok target => resolveFrom st n (follow path target)
    | _ => .ok path

/-- `resolve_path`: up to eight links. -/
def resolvePath (st : Vfs) (path : Str) : Outcome VfsError Str := st.resolveFrom 8 path

/-- `read` behind the links. -/
def readResolved (path : Str) : Prog Vfs VfsError (List UInt8) := fun st =>
  if isProcPath path then (orNotFound (st.gen.readProc path), st)
  else if isDevPath path then (orNotFound (st.gen.readDev path), st)
  else if isSysPath path then (orNotFound (st.gen.readSys path), st)
  else if isTmpPath path then (st.tmp.read path, st)
  else
    match st.fat32 with
    | none => (st.ram.readFile path, st)
    | some fs =>
      match onFat (fs.read path) st with
      | (.err .fileNotFound, st') => (st'.ram.readFile path, st')
      | result => result

/-- `read`. -/
def read (path : Str) : Prog Vfs VfsError (List UInt8) := fun st =>
  match st.resolvePath path with
  | .ok resolved => readResolved resolved st
  | .err e => (.err e, st)
  | .panic => (.panic, st)
  | .diverge => (.diverge, st)

/-- `write`. -/
def write (path : Str) (data : List UInt8) : Prog Vfs VfsError Unit := fun st =>
  if isDevPath path then
    (if devSinks.contains (nameUnder devRoot path) then .ok () else .err .fileNotFound, st)
  else if isTmpPath path then onTmp (Tmpfs.write path data) st
  else if isSysPath path || isProcPath path then (.err .permissionDenied, st)
  else
    match st.fat32 with
    | some fs => onFat (fs.write path data) st
    | none => onRam (RamDisk.writeFile st.now path data) st

/-- `exists`. -/
def exists_ (path : Str) : Prog Vfs VfsError Bool := fun st =>
  if isProcPath path then (.ok (st.gen.procExists path), st)
  else if isDevPath path then (.ok (st.gen.devExists path), st)
  else if isSysPath path then (.ok (st.gen.sysExists path), st)
  else if isTmpPath path then (.ok (st.tmp.exists_ path), st)
  else
    match st.fat32 with
    | none => (.ok (st.ram.fileExists path), st)
    | some fs =>
      match onFat (fs.exists_ path) st with
      | (.ok false, st') => (.ok (st'.ram.fileExists path), st')
      | result => result

/-- `mkdir`. -/
def mkdir (path : Str) : Prog Vfs VfsError Unit := fun st =>
  if isTmpPath path then onTmp (Tmpfs.mkdir path) st
  else
    match st.fat32 with
    | some fs => onFat (fs.mkdir path) st
    | none => onRam (RamDisk.createDirectory st.now path) st

/-- `rmdir`. -/
def rmdir (path : Str) : Prog Vfs VfsError Unit := fun st =>
  match st.fat32 with
  | some fs => onFat (fs.rmdir path) st
  | none => onRam (RamDisk.removeDirectory path) st

/-- `rename`. -/
def rename (oldPath newPath : Str) : Prog Vfs VfsError Unit := fun st =>
  match st.fat32 with
  | some fs => onFat (fs.rename oldPath newPath) st
  | none => onRam (RamDisk.rename oldPath newPath) st

/-! ## Which back end -/

/-- Under `/proc`, `/dev` or `/sys`. -/
def isGenerated (path : Str) : Bool := isProcPath path || isDevPath path || isSysPath path

lemma isGenerated_eq_false {path : Str} : isGenerated path = false
    ↔ isProcPath path = false ∧ isDevPath path = false ∧ isSysPath path = false := by
  simp [isGenerated, and_assoc]

/-- A path below a mount point begins with it. -/
lemma isUnder_take {root path : Str} (h : isUnder root path = true) :
    path.take root.length = root := by
  rcases (Bool.or_eq_true _ _).mp h with h | h
  · rw [beq_iff_eq.mp h, List.take_length]
  · obtain ⟨rest, rfl⟩ := List.isPrefixOf_iff_prefix.mp h
    rw [List.append_assoc, List.take_left]

/-- `/tmp` is none of the generated trees. -/
lemma isTmpPath_not_generated {path : Str} (h : isTmpPath path = true) :
    isGenerated path = false := by
  have htake := isUnder_take h
  have hchar : path[1]? = some 't' := by
    have := congrArg (·[1]?) htake
    simpa [tmpRoot] using this
  rw [isGenerated_eq_false]
  refine ⟨?_, ?_, ?_⟩ <;>
  · rw [Bool.eq_false_iff]
    intro hother
    have := congrArg (·[1]?) (isUnder_take hother)
    simp [procRoot, devRoot, sysRoot, hchar] at this

section
variable {st : Vfs} {path : Str}

lemma exists_tmp (h : isTmpPath path = true) :
    exists_ path st = (.ok (st.tmp.exists_ path), st) := by
  obtain ⟨h₁, h₂, h₃⟩ := isGenerated_eq_false.mp (isTmpPath_not_generated h)
  unfold exists_
  rw [h₁, h₂, h₃, h]
  rfl

/-- Without FAT32 the other paths are the RAM disk's. -/
lemma exists_ram (hgen : isGenerated path = false) (htmp : isTmpPath path = false)
    (hfat : st.fat32 = none) : exists_ path st = (.ok (st.ram.fileExists path), st) := by
  obtain ⟨h₁, h₂, h₃⟩ := isGenerated_eq_false.mp hgen
  unfold exists_
  rw [h₁, h₂, h₃, htmp]
  simp only [Bool.false_eq_true, if_false, hfat]

lemma readResolved_ram (hgen : isGenerated path = false) (htmp : isTmpPath path = false)
    (hfat : st.fat32 = none) : readResolved path st = (st.ram.readFile path, st) := by
  obtain ⟨h₁, h₂, h₃⟩ := isGenerated_eq_false.mp hgen
  unfold readResolved
  rw [h₁, h₂, h₃, htmp]
  simp only [Bool.false_eq_true, if_false, hfat]

/-- A path that is no link is read where it is. -/
lemma read_of_no_link (h : ∀ target, st.readlink path ≠ .ok target) :
    read path st = readResolved path st := by
  have hres : st.resolvePath path = .ok path := by
    unfold resolvePath resolveFrom
    cases hl : st.readlink path with
    | ok target => exact absurd hl (h target)
    | _ => rfl
  unfold read
  rw [hres]

end

end Vfs

end RustOs.Fs
