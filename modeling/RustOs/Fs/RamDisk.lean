import RustOs.Lib.Outcome
import RustOs.Lib.Text
import RustOs.Lib.FirstMatch
import RustOs.Fs.Types

/-!
# The RAM disk

`src/fs/ramdisk.rs`: a flat vector of files under their whole path, directories
and symbolic links among them. Every operation normalises its path first and
searches the vector from the front.

`Valid` is what the operations keep: names are distinct, nothing is larger than
the limits allow. `Op.valid` says so for each operation and `valid_run` for any
sequence of them, so on the disks that occur the first entry with a name is the
only one.

`rename` changes the name of one entry. What lies below a directory keeps its
old name, so a directory moves with its contents only if it has none
(`rename_moves_iff`).

A file's time stamp is the tick count divided by 18 when it is made; it is an
argument here.
-/

namespace RustOs.Fs

open Lib Nat List

/-- `FileType`. -/
inductive FileType where
  | regular
  | directory
  | symlink
  deriving DecidableEq, Repr

/-- `File`. -/
structure File where
  name : Str
  content : List UInt8
  fileType : FileType
  mode : Nat
  uid : Nat
  gid : Nat
  ctime : Nat
  mtime : Nat
  atime : Nat
  deriving DecidableEq, Repr

/-- `RamDisk`. -/
structure RamDisk where
  files : List File
  deriving DecidableEq, Repr

/-- `MAX_FILES`. -/
def maxFiles : Nat := 256

/-- `MAX_FILE_SIZE`. -/
def maxFileSize : Nat := 1024 * 1024

/-- `MAX_FILENAME_LEN`. -/
def maxFilenameLen : Nat := 255

namespace File

/-- A fresh file of a kind, owned by root. -/
def fresh (name : Str) (content : List UInt8) (fileType : FileType) (mode now : Nat) : File where
  name := name
  content := content
  fileType := fileType
  mode := mode
  uid := 0
  gid := 0
  ctime := now
  mtime := now
  atime := now

/-- `File::new`. -/
def new (name : Str) (content : List UInt8) (now : Nat) : Except String File :=
  if (utf8 name).length > maxFilenameLen then .error "Filename too long"
  else if content.length > maxFileSize then .error "File too large"
  else .ok (fresh name content .regular 0o644 now)

/-- `File::new_directory`. -/
def newDirectory (name : Str) (now : Nat) : Except String File :=
  if (utf8 name).length > maxFilenameLen then .error "Filename too long"
  else .ok (fresh name [] .directory 0o755 now)

/-- `File::new_symlink`. -/
def newSymlink (name target : Str) (now : Nat) : Except String File :=
  if (utf8 name).length > maxFilenameLen then .error "Filename too long"
  else .ok (fresh name (utf8 target) .symlink 0o777 now)

/-- `is_directory`. -/
def isDirectory (f : File) : Bool := f.fileType == .directory

/-- `symlink_target`. -/
def symlinkTarget (f : File) : Option Str :=
  if f.fileType = .symlink then fromUtf8 f.content else none

end File

/-- `normalize_path`: no slashes at the ends. The root is `/`, but a path of
several slashes is the empty name. -/
def normalizePath (path : Str) : Str :=
  if trim path = ['/'] ∨ trim path = [] then ['/']
  else trimStartMatches '/' (trimEndMatches '/' (trim path))

/-- `parent_path`. -/
def parentPath (path : Str) : Str :=
  match rfindSplit '/' path with
  | some (parent, _) => if parent = [] then ['/'] else parent
  | none => ['/']

namespace RamDisk

variable {name : Str} {disk : RamDisk} {op : Op}

/-- Does a file of this name exist? -/
def has (disk : RamDisk) (name : Str) : Bool := disk.files.any fun f => f.name == name

/-- Does a directory of this name exist? -/
def hasDir (disk : RamDisk) (name : Str) : Bool :=
  disk.files.any fun f => f.name == name && f.isDirectory

/-- A file of this name that is no directory. -/
def isFile (name : Str) (f : File) : Bool := f.name == name && !f.isDirectory

/-- The error `write_file` makes of what `File::new` says. -/
def fileError : String → VfsError
  | "Filename too long" => .invalidName
  | "File too large" => .fileTooLarge
  | _ => .ioError

variable (now : Nat)

/-- `write_file`. The parent need not exist. -/
def writeFile (name : Str) (content : List UInt8) : Prog RamDisk VfsError Unit :=
  fun disk =>
    if name = [] then (.err .invalidName, disk)
    else
      match File.new (normalizePath name) content now with
      | .error e => (.err (fileError e), disk)
      | .ok file =>
        if disk.hasDir (normalizePath name) then (.err .isADirectory, disk)
        else if disk.files.any (isFile (normalizePath name)) then
          (.ok (), ⟨updateFirst (isFile (normalizePath name)) (fun _ => file) disk.files⟩)
        else if disk.files.length ≥ maxFiles then (.err .tooManyFiles, disk)
        else (.ok (), ⟨disk.files ++ [file]⟩)

/-- `read_file`. -/
def readFile (disk : RamDisk) (name : Str) : Outcome VfsError (List UInt8) :=
  match disk.files.find? (isFile (normalizePath name)) with
  | some f => .ok f.content
  | none => .err .fileNotFound

/-- `delete_file`. -/
def deleteFile (name : Str) : Prog RamDisk VfsError Unit := fun disk =>
  if disk.files.any (isFile (normalizePath name)) then
    (.ok (), ⟨disk.files.eraseP (isFile (normalizePath name))⟩)
  else (.err .fileNotFound, disk)

/-- `file_exists`. -/
def fileExists (disk : RamDisk) (name : Str) : Bool :=
  name == ['/'] || disk.has (normalizePath name)

/-- The test that `create_directory` and `symlink` make of the parent. -/
def parentOk (disk : RamDisk) (name : Str) : Bool :=
  parentPath name == ['/'] || disk.hasDir (parentPath name)

/-- `create_directory`. -/
def createDirectory (path : Str) : Prog RamDisk VfsError Unit := fun disk =>
  if normalizePath path = ['/'] then (.ok (), disk)
  else if disk.has (normalizePath path) then (.err .fileExists, disk)
  else if !disk.parentOk (normalizePath path) then (.err .fileNotFound, disk)
  else if disk.files.length ≥ maxFiles then (.err .tooManyFiles, disk)
  else
    match File.newDirectory (normalizePath path) now with
    | .error _ => (.err .invalidName, disk)
    | .ok dir => (.ok (), ⟨disk.files ++ [dir]⟩)

/-- The prefix of everything inside a directory. -/
def childPrefix (name : Str) : Str := if name.getLast? = some '/' then name else name ++ ['/']

/-- `remove_directory`. -/
def removeDirectory (path : Str) : Prog RamDisk VfsError Unit := fun disk =>
  if normalizePath path = ['/'] then (.err .permissionDenied, disk)
  else if !disk.hasDir (normalizePath path) then (.err .fileNotFound, disk)
  else if disk.files.any (fun f => (childPrefix (normalizePath path)).isPrefixOf f.name) then
    (.err .directoryNotEmpty, disk)
  else
    (.ok (), ⟨disk.files.eraseP fun f => f.name == normalizePath path && f.isDirectory⟩)

/-- `FileSystem::is_directory`. -/
def isDirectory (disk : RamDisk) (path : Str) : Bool :=
  path == ['/'] || disk.hasDir (normalizePath path)

/-- `FileSystem::rename`. Any entry moves, and no directory is asked for. -/
def rename (oldPath newPath : Str) : Prog RamDisk VfsError Unit := fun disk =>
  if disk.has (normalizePath newPath) then (.err .fileExists, disk)
  else if disk.has (normalizePath oldPath) then
    (.ok (), ⟨updateFirst (fun f => f.name == normalizePath oldPath)
      (fun f => { f with name := normalizePath newPath }) disk.files⟩)
  else (.err .fileNotFound, disk)

/-- `FileSystem::symlink`. -/
def symlink (linkPath target : Str) : Prog RamDisk VfsError Unit := fun disk =>
  if disk.has (normalizePath linkPath) then (.err .fileExists, disk)
  else if !disk.parentOk (normalizePath linkPath) then (.err .fileNotFound, disk)
  else if disk.files.length ≥ maxFiles then (.err .tooManyFiles, disk)
  else
    match File.newSymlink (normalizePath linkPath) target now with
    | .error _ => (.err .invalidName, disk)
    | .ok link => (.ok (), ⟨disk.files ++ [link]⟩)

/-- `FileSystem::readlink`. -/
def readlink (disk : RamDisk) (path : Str) : Outcome VfsError Str :=
  match disk.files.find? fun f => f.name == normalizePath path with
  | none => .err .fileNotFound
  | some f =>
    match f.symlinkTarget with
    | some target => .ok target
    | none => .err .notAFile

/-- A change to the first entry of a name: `chmod` and `chown`. -/
def touch (path : Str) (change : File → File) : Prog RamDisk VfsError Unit := fun disk =>
  if disk.has (normalizePath path) then
    (.ok (), ⟨updateFirst (fun f => f.name == normalizePath path) change disk.files⟩)
  else (.err .fileNotFound, disk)

/-- `FileSystem::chmod`. -/
def chmod (path : Str) (mode : Nat) : Prog RamDisk VfsError Unit :=
  touch path fun f => { f with mode := mode, mtime := now }

/-- `FileSystem::chown`. -/
def chown (path : Str) (uid gid : Nat) : Prog RamDisk VfsError Unit :=
  touch path fun f => { f with uid := uid, gid := gid, mtime := now }

/-! ## What the operations keep -/

/-- Distinct names within the limits. -/
structure Valid (disk : RamDisk) : Prop where
  unique : (disk.files.map (·.name)).Nodup
  count : disk.files.length ≤ maxFiles

/-- The operations that change the disk. -/
inductive Op where
  | write (name : Str) (content : List UInt8)
  | delete (name : Str)
  | mkdir (path : Str)
  | rmdir (path : Str)
  | rename (oldPath newPath : Str)
  | symlink (linkPath target : Str)
  | chmod (path : Str) (mode : Nat)
  | chown (path : Str) (uid gid : Nat)

/-- The function behind an operation. -/
def Op.run : Op → Prog RamDisk VfsError Unit
  | .write name content => writeFile now name content
  | .delete name => deleteFile name
  | .mkdir path => createDirectory now path
  | .rmdir path => removeDirectory path
  | .rename oldPath newPath => RamDisk.rename oldPath newPath
  | .symlink linkPath target => RamDisk.symlink now linkPath target
  | .chmod path mode => RamDisk.chmod now path mode
  | .chown path uid gid => RamDisk.chown now path uid gid

lemma has_eq_false :
    disk.has name = false ↔ ∀ f ∈ disk.files, f.name ≠ name := by simp [has]

lemma has_eq_true : disk.has name = true ↔ ∃ f ∈ disk.files, f.name = name := by
  simp [has]

lemma hasDir_eq_false :
    disk.hasDir name = false ↔ ∀ f ∈ disk.files, f.name = name → f.isDirectory = false := by
  simp [hasDir]

lemma isFile_iff {f : File} : isFile name f = true ↔ f.name = name ∧ f.isDirectory = false := by
  simp [isFile]

lemma any_isFile_eq_false :
    disk.files.any (isFile name) = false
      ↔ ∀ f ∈ disk.files, f.name = name → f.isDirectory = true := by simp [isFile]

/-- There is room for an entry of a new name. -/
def Room (disk : RamDisk) (name : Str) : Prop :=
  (utf8 name).length ≤ maxFilenameLen ∧ disk.has name = false ∧ disk.files.length < maxFiles

instance (disk : RamDisk) (name : Str) : Decidable (disk.Room name) :=
  inferInstanceAs (Decidable (_ ∧ _))

/-- Which name a call adds or moves, if any. -/
inductive Change where
  | none
  | add (name : Str)
  | move (old new : Str)

/-- What a call comes to in a state of the disk. -/
def Op.change (disk : RamDisk) : Op → Change
  | .write name content =>
    if name ≠ [] ∧ content.length ≤ maxFileSize ∧ disk.Room (normalizePath name) then
      .add (normalizePath name) else .none
  | .mkdir path =>
    if normalizePath path ≠ ['/'] ∧ disk.parentOk (normalizePath path) = true
        ∧ disk.Room (normalizePath path) then .add (normalizePath path) else .none
  | .symlink linkPath _ =>
    if disk.parentOk (normalizePath linkPath) = true ∧ disk.Room (normalizePath linkPath) then
      .add (normalizePath linkPath) else .none
  | .rename oldPath newPath =>
    if disk.has (normalizePath newPath) = false ∧ disk.has (normalizePath oldPath) = true then
      .move (normalizePath oldPath) (normalizePath newPath) else .none
  | .delete _ | .rmdir _ | .chmod _ _ | .chown _ _ _ => .none

/-- What a call does to the disk: it adds an entry, moves one, takes one out that has
nothing inside it, or leaves names and directories as they are. -/
inductive Op.Effect (op : Op) (disk : RamDisk) : RamDisk → Prop where
  | add (f : File) (h : op.change disk = .add f.name) : Effect op disk ⟨disk.files ++ [f]⟩
  | move (old new : Str) (h : op.change disk = .move old new) :
      Effect op disk ⟨updateFirst (fun f => f.name == old)
        (fun f => { f with name := new }) disk.files⟩
  | drop (p : File → Bool) (h : op.change disk = .none)
      (hempty : ∀ f ∈ disk.files, p f = true → f.isDirectory = true →
        ∀ g ∈ disk.files, (childPrefix f.name).isPrefixOf g.name = false) :
      Effect op disk ⟨disk.files.eraseP p⟩
  | keep (disk' : RamDisk) (h : op.change disk = .none)
      (hsame : disk'.files.map (fun f => (f.name, f.isDirectory))
        = disk.files.map fun f => (f.name, f.isDirectory)) : Effect op disk disk'

lemma Op.change_add (h : op.change disk = .add name) :
    disk.Room name ∧ ∃ path, name = normalizePath path := by
  cases op <;> simp only [Op.change, reduceCtorEq] at h
  all_goals
    split at h
    next hc => first | (cases h; exact ⟨by simp [hc], _, rfl⟩) | cases h
    next => cases h

lemma Op.change_move {old new : Str}
    (h : op.change disk = .move old new) :
    disk.has new = false ∧ disk.has old = true ∧ ∃ path, new = normalizePath path := by
  cases op <;> simp only [Op.change, reduceCtorEq] at h
  all_goals
    split at h
    next hc => first | (cases h; exact ⟨hc.1, hc.2, _, rfl⟩) | cases h
    next => cases h

lemma new_ok {content : List UInt8} {now : Nat} {f : File}
    (h : File.new name content now = .ok f) : (utf8 name).length ≤ maxFilenameLen
      ∧ content.length ≤ maxFileSize ∧ f = File.fresh name content .regular 0o644 now := by
  unfold File.new at h
  split at h
  next => cases h
  next hname =>
    split at h
    next => cases h
    next hsize =>
      cases h
      exact ⟨Nat.le_of_not_lt hname, Nat.le_of_not_lt hsize, rfl⟩

section
variable (disk : RamDisk) (now : Nat)

/-- What `write_file` changes. -/
lemma writeFile_effect (name : Str) (content : List UInt8) :
    (Op.write name content).Effect disk (writeFile now name content disk).2 := by
  by_cases hadd : name ≠ [] ∧ content.length ≤ maxFileSize ∧ disk.Room (normalizePath name)
  · have hchange : (Op.write name content).change disk = .add (normalizePath name) := if_pos hadd
    obtain ⟨hne, hsize, hname, hfresh, hroom⟩ := hadd
    have hfresh := has_eq_false.mp hfresh
    have hdir : disk.hasDir (normalizePath name) = false :=
      hasDir_eq_false.mpr fun f hf heq => absurd heq (hfresh f hf)
    have hfile : disk.files.any (isFile (normalizePath name)) = false :=
      any_isFile_eq_false.mpr fun f hf heq => absurd heq (hfresh f hf)
    rw [writeFile, if_neg hne, File.new, if_neg (not_lt.mpr hname), if_neg (not_lt.mpr hsize)]
    simp only [hdir, hfile, if_neg (not_le.mpr hroom)]
    exact .add _ hchange
  · have hchange : (Op.write name content).change disk = .none := if_neg hadd
    unfold writeFile
    split
    next => exact .keep disk hchange rfl
    next hne =>
      split
      next => exact .keep disk hchange rfl
      next file hnew =>
        obtain ⟨hname, hsize, rfl⟩ := new_ok hnew
        split
        next => exact .keep disk hchange rfl
        next hdir =>
          split
          next =>
            refine .keep _ hchange ?_
            apply map_updateFirst
            intro f hf
            rw [← (isFile_iff.mp hf).1, (isFile_iff.mp hf).2]
            rfl
          next hfile =>
            split
            next => exact .keep disk hchange rfl
            next hroom =>
              -- nothing is left that could have kept the entry out
              refine absurd ⟨hne, hsize, hname, has_eq_false.mpr fun f hf heq => ?_,
                Nat.lt_of_not_le hroom⟩ hadd
              have h₁ := hasDir_eq_false.mp (Bool.eq_false_iff.mpr hdir) f hf heq
              have h₂ := any_isFile_eq_false.mp (Bool.eq_false_iff.mpr hfile) f hf heq
              exact nomatch h₁.symm.trans h₂

/-- The end that `create_directory` and `symlink` share. -/
lemma make_effect (content : List UInt8) (kind : FileType) (mode : Nat)
    (hchange : op.change disk
      = if disk.parentOk name = true ∧ disk.Room name then .add name else .none) :
    op.Effect disk (if disk.has name then (Outcome.err VfsError.fileExists, disk)
      else if !disk.parentOk name then (.err .fileNotFound, disk)
      else if disk.files.length ≥ maxFiles then (.err .tooManyFiles, disk)
      else
        match (if (utf8 name).length > maxFilenameLen then .error "Filename too long"
            else .ok (File.fresh name content kind mode now) : Except String File) with
        | .error _ => (.err .invalidName, disk)
        | .ok f => (.ok (), ⟨disk.files ++ [f]⟩)).2 := by
  have hkeep : ¬(disk.parentOk name = true ∧ disk.Room name) → op.Effect disk disk :=
    fun h => .keep disk (hchange.trans (if_neg h)) rfl
  split
  next hhas => exact hkeep fun h => nomatch hhas.symm.trans h.2.2.1
  next hfresh =>
    split
    next hparent => exact hkeep fun h => by simp [h.1] at hparent
    next hparent =>
      split
      next hfull => exact hkeep fun h => not_le.mpr h.2.2.2 hfull
      next hroom =>
        split
        next hlong =>
          refine hkeep fun h => ?_
          rw [if_neg (not_lt.mpr h.2.1)] at hlong
          cases hlong
        next f hf =>
          split at hf
          next => cases hf
          next hname =>
            cases hf
            refine .add _ (hchange.trans (if_pos ⟨by simpa using hparent, Nat.le_of_not_lt hname,
              Bool.eq_false_iff.mpr hfresh, Nat.lt_of_not_le hroom⟩))

lemma createDirectory_effect (path : Str) :
    (Op.mkdir path).Effect disk (createDirectory now path disk).2 := by
  unfold createDirectory
  split
  next hroot => exact .keep disk (if_neg fun h => h.1 hroot) rfl
  next hroot =>
    refine make_effect disk now [] .directory 0o755 ?_
    rw [Op.change]
    simp only [hroot, ne_eq, not_false_eq_true, true_and]

/-- What `remove_directory` changes. -/
lemma removeDirectory_effect (path : Str) :
    (Op.rmdir path).Effect disk (removeDirectory path disk).2 := by
  unfold removeDirectory
  split
  next => exact .keep disk rfl rfl
  next =>
    split
    next => exact .keep disk rfl rfl
    next =>
      split
      next => exact .keep disk rfl rfl
      next hany =>
        refine .drop _ rfl fun f _ hp _ g hg => Bool.eq_false_iff.mpr fun hin => hany ?_
        rw [Bool.and_eq_true, beq_iff_eq] at hp
        rw [hp.1] at hin
        exact any_eq_true.mpr ⟨g, hg, hin⟩

lemma touch_effect (hop : op.change disk = .none) (path : Str) {change : File → File}
    (h : ∀ f, ((change f).name, (change f).isDirectory) = (f.name, f.isDirectory)) :
    op.Effect disk (touch path change disk).2 := by
  unfold touch
  split
  next =>
    refine .keep _ hop ?_
    apply map_updateFirst
    exact fun f _ => h f
  next => exact .keep disk hop rfl

/-- What an operation changes. -/
lemma Op.effect (op : Op) : op.Effect disk (op.run now disk).2 := by
  cases op with
  | write name content => exact writeFile_effect disk now name content
  | delete name =>
    show Op.Effect _ disk (deleteFile name disk).2
    unfold deleteFile
    split
    next =>
      refine .drop _ rfl fun f _ hp hdir => ?_
      exact nomatch (isFile_iff.mp hp).2.symm.trans hdir
    next => exact .keep disk rfl rfl
  | mkdir path => exact createDirectory_effect disk now path
  | rmdir path => exact removeDirectory_effect disk path
  | rename oldPath newPath =>
    show Op.Effect _ disk (RamDisk.rename oldPath newPath disk).2
    unfold RamDisk.rename
    split
    next hhas => exact .keep disk (if_neg fun h => by simp [hhas] at h) rfl
    next hfresh =>
      split
      next hhas => exact .move _ _ (if_pos ⟨Bool.eq_false_iff.mpr hfresh, hhas⟩)
      next hno => exact .keep disk (if_neg fun h => hno h.2) rfl
  | symlink linkPath target => exact make_effect disk now (utf8 target) .symlink 0o777 rfl
  | chmod path mode => exact touch_effect disk rfl path fun _ => rfl
  | chown path uid gid => exact touch_effect disk rfl path fun _ => rfl

end

/-- Every operation keeps the disk valid, whether it succeeds or not. -/
lemma Op.valid (hv : disk.Valid) (now : Nat) (op : Op) :
    (op.run now disk).2.Valid := by
  have heffect := op.effect disk now
  generalize (op.run now disk).2 = disk' at heffect
  cases heffect with
  | add f h =>
    obtain ⟨⟨-, hfresh, hroom⟩, -⟩ := Op.change_add h
    refine ⟨nodup_push _ hv.unique (has_eq_false.mp hfresh), ?_⟩
    rw [length_append, length_singleton]
    exact hroom
  | move old new h =>
    have hfresh := has_eq_false.mp (Op.change_move h).1
    refine ⟨nodup_updateFirst _ hv.unique fun _ _ _ => .inr hfresh, ?_⟩
    rw [length_updateFirst]
    exact hv.count
  | drop p _ _ =>
    exact ⟨nodup_eraseP _ hv.unique p, le_trans length_eraseP_le hv.count⟩
  | keep _ _ hsame =>
    have hnames := congrArg (List.map Prod.fst) hsame
    have hcount := congrArg List.length hsame
    rw [map_map, map_map] at hnames
    rw [length_map, length_map] at hcount
    exact ⟨hnames ▸ hv.unique, hcount ▸ hv.count⟩

/-- The disk after a sequence of operations, each at its own time. -/
def run (disk : RamDisk) : List (Nat × Op) → RamDisk
  | [] => disk
  | (now, op) :: ops => run (op.run now disk).2 ops

lemma valid_empty : Valid ⟨[]⟩ := ⟨nodup_nil, zero_le _⟩

/-- From an empty disk only valid disks are reached. -/
lemma valid_run (ops : List (Nat × Op)) (hv : disk.Valid) :
    (disk.run ops).Valid := by
  induction ops generalizing disk with
  | nil => exact hv
  | cons op ops ih => exact ih (op.2.valid hv op.1)

/-! ## Renaming a directory -/

/-- `name` lies below the directory `d`. -/
def Below (d name : Str) : Prop := (d ++ ['/']) <+: name

instance (d name : Str) : Decidable (Below d name) :=
  inferInstanceAs (Decidable ((d ++ ['/']) <+: name))

/-- The subtree at `d` has moved to `e`: what was stored at `d/x` can be read at
`e/x`, nothing is left at or below `d`, and the rest is as it was. -/
structure Moved (disk disk' : RamDisk) (d e : Str) : Prop where
  directory : disk'.isDirectory e = true
  below : ∀ f ∈ disk.files, ∀ x, f.name = normalizePath d ++ '/' :: x →
    if f.isDirectory then disk'.isDirectory (normalizePath e ++ '/' :: x) = true
    else disk'.readFile (normalizePath e ++ '/' :: x) = .ok f.content
  gone : ∀ f ∈ disk'.files, f.name ≠ normalizePath d ∧ ¬ Below (normalizePath d) f.name
  kept : ∀ f ∈ disk.files, f.name ≠ normalizePath d → ¬ Below (normalizePath d) f.name →
    f ∈ disk'.files
  nothingNew : ∀ f ∈ disk'.files, f.name ≠ normalizePath e → ¬ Below (normalizePath e) f.name →
    f ∈ disk.files

/-- The entries around the one that a new name changes. -/
lemma move_split (hv : (disk.files.map (·.name)).Nodup) {old : Str}
    (hhas : disk.has old = true) (new : Str) :
    ∃ A f B, disk.files = A ++ f :: B ∧ f.name = old ∧ (∀ g ∈ A ++ B, g.name ≠ old) ∧
      updateFirst (fun f => f.name == old) (fun f => { f with name := new }) disk.files
        = A ++ { f with name := new } :: B := by
  obtain ⟨f, hf⟩ := Option.isSome_iff_exists.mp (find?_isSome.mpr (any_eq_true.mp hhas))
  obtain ⟨A, B, hl, hp, hA⟩ := find?_split hf
  have hname : f.name = old := beq_iff_eq.mp hp
  refine ⟨A, f, B, hl, hname, fun g hg => ?_, ?_⟩
  · rw [hl] at hv
    exact hname ▸ key_ne_of_split (·.name) hv g hg
  · rw [hl]
    exact updateFirst_split (fun f : File => { f with name := new }) hp hA

/-- A rename changes one entry. -/
lemma rename_split (hv : disk.Valid) {d e : Str}
    (h : (rename d e disk).1 = .ok ()) :
    ∃ A f B, disk.files = A ++ f :: B ∧ f.name = normalizePath d ∧
      (∀ g ∈ A ++ B, g.name ≠ normalizePath d) ∧ normalizePath e ≠ normalizePath d ∧
      (rename d e disk).2 = ⟨A ++ { f with name := normalizePath e } :: B⟩ := by
  unfold rename at h ⊢
  split at h
  next => cases h
  next hfresh =>
    split at h
    next hhas =>
      rw [if_neg hfresh, if_pos hhas]
      obtain ⟨A, f, B, hl, hname, hother, heq⟩ := move_split hv.unique hhas (normalizePath e)
      exact ⟨A, f, B, hl, hname, hother, fun he => hfresh (he ▸ hhas), congrArg RamDisk.mk heq⟩
    next => cases h

/-- A directory renamed to a new place outside itself moves with everything
below it exactly when nothing is below it. -/
theorem rename_moves_iff {disk : RamDisk} (hv : disk.Valid) {d e : Str}
    (hdir : disk.hasDir (normalizePath d) = true)
    (houtside : ¬ Below (normalizePath d) (normalizePath e))
    (h : (rename d e disk).1 = .ok ()) :
    disk.Moved (rename d e disk).2 d e ↔ ∀ f ∈ disk.files, ¬ Below (normalizePath d) f.name := by
  obtain ⟨A, f, B, hl, hname, hother, hne, heq⟩ := rename_split hv h
  rw [heq]
  constructor
  · intro hmoved g hg hbelow
    -- an entry below `d` is not the one that got the new name, so it is still there
    have hne : g ≠ f := fun hgf => by
      have hlen := hbelow.length_le
      rw [hgf, hname, length_append, length_singleton] at hlen
      omega
    rw [hl, mem_middle] at hg
    exact (hmoved.gone g (mem_middle.mpr (.inr (hg.resolve_left hne)))).2 hbelow
  · intro hnone
    have hold : ∀ g, g ∈ disk.files ↔ g = f ∨ g ∈ A ++ B := fun _ => hl ▸ mem_middle
    refine ⟨?_, ?_, ?_, ?_, ?_⟩
    · obtain ⟨g, hg, hgd⟩ := any_eq_true.mp hdir
      rw [Bool.and_eq_true, beq_iff_eq] at hgd
      have hgf : g = f := ((hold g).mp hg).resolve_right fun hg => hother g hg hgd.1
      have hfdir : f.isDirectory = true := hgf ▸ hgd.2
      refine Bool.or_eq_true_iff.mpr (.inr (any_eq_true.mpr
        ⟨_, mem_middle.mpr (.inl rfl), ?_⟩))
      exact Bool.and_eq_true_iff.mpr ⟨beq_self_eq_true _, hfdir⟩
    · intro g hg x hx
      exact absurd ⟨x, by rw [hx, append_assoc]; rfl⟩ (hnone g hg)
    · intro g hg
      rcases mem_middle.mp hg with rfl | hg
      · exact ⟨hne, houtside⟩
      · exact ⟨hother g hg, hnone g ((hold g).mpr (.inr hg))⟩
    · intro g hg hne _
      rcases (hold g).mp hg with rfl | hg
      · exact absurd hname hne
      · exact mem_middle.mpr (.inr hg)
    · intro g hg hne _
      rcases mem_middle.mp hg with rfl | hg
      · exact absurd rfl hne
      · exact (hold g).mpr (.inr hg)

/-- A directory without contents, made on an empty disk. -/
theorem rename_moves_empty :
    let disk := (⟨[]⟩ : RamDisk).run [(0, .mkdir ['a'])]
    disk.Moved (rename ['a'] ['b'] disk).2 ['a'] ['b'] :=
  (rename_moves_iff (valid_run _ valid_empty) (by decide) (by decide) (by decide)).mpr (by decide)

/-- A directory `a` with a file `a/f` renamed to `b`: the file is still at
`a/f`, and there is none at `b/f`. -/
theorem rename_leaves_contents :
    let disk := (⟨[]⟩ : RamDisk).run [(0, .mkdir ['a']), (0, .write ['a', '/', 'f'] [1])]
    disk.isDirectory ['a'] = true ∧ disk.readFile ['a', '/', 'f'] = .ok [1] ∧
    (rename ['a'] ['b'] disk).1 = .ok () ∧
    (rename ['a'] ['b'] disk).2.readFile ['b', '/', 'f'] = .err .fileNotFound ∧
    (rename ['a'] ['b'] disk).2.readFile ['a', '/', 'f'] = .ok [1] ∧
    ¬ disk.Moved (rename ['a'] ['b'] disk).2 ['a'] ['b'] := by
  refine ⟨by decide, by decide, by decide, by decide, by decide, fun hmoved => ?_⟩
  exact (hmoved.gone ⟨['a', '/', 'f'], [1], .regular, 0o644, 0, 0, 0, 0, 0⟩ (by decide)).2
    (by decide)

end RamDisk

end RustOs.Fs
