import RustOs.Lib.Outcome
import RustOs.Lib.Text
import RustOs.Lib.FirstMatch
import RustOs.Fs.Types

/-!
# The `/tmp` file system

`src/fs/tmpfs.rs`: a second flat vector, with names relative to `/tmp`. It has no
`rmdir` and no `rename`: a directory is removed by `delete`, and nothing moves.
The functions are reached through `is_tmp_path`, but take the whole path and cut
`/tmp` off themselves, as often as it is there. Two paths below `/tmp` are
therefore one file as soon as what is left of them is the same: `/tmp/tmp/x` and
`/tmp/tmpx` are both `x`, like `/tmp/x`. `writes_apart_iff` says that this is the
only way in which one write shows under the other's path.
-/

namespace RustOs.Fs

open Lib Outcome List

/-- `TmpFile`. -/
structure TmpFile where
  name : Str
  content : List UInt8
  isDirectory : Bool
  deriving DecidableEq, Repr

/-- `TmpFs`. -/
structure Tmpfs where
  files : List TmpFile
  deriving DecidableEq, Repr

/-- The path `/tmp`. -/
def tmpRoot : Str := ['/', 't', 'm', 'p']

/-- A path is `root` or below it: `is_tmp_path` and its like. -/
def isUnder (root path : Str) : Bool := path == root || (root ++ ['/']).isPrefixOf path

/-- `is_tmp_path`. -/
def isTmpPath (path : Str) : Bool := isUnder tmpRoot path

namespace Tmpfs

variable {path : Str} {fs : Tmpfs} {data : List UInt8}

/-- `MAX_TMP_FILES`. -/
def maxTmpFiles : Nat := 128

/-- `MAX_TMP_FILE_SIZE`. -/
def maxTmpFileSize : Nat := 512 * 1024

/-- `normalize`: the name inside `/tmp`, `.` for `/tmp` itself. -/
def normalize (path : Str) : Str :=
  if trimStartMatches '/' (trimStartStr tmpRoot path) = [] then ['.']
  else trimStartMatches '/' (trimStartStr tmpRoot path)

/-- A file of this name that is no directory. -/
def isFile (name : Str) (f : TmpFile) : Bool := f.name == name && !f.isDirectory

/-- `exists`. -/
def exists_ (fs : Tmpfs) (path : Str) : Bool :=
  normalize path == ['.'] || fs.files.any fun f => f.name == normalize path

/-- `read`. Reading `/tmp` lists the names, one a line. -/
def read (fs : Tmpfs) (path : Str) : Outcome VfsError (List UInt8) :=
  if normalize path = ['.'] then .ok (utf8 (fs.files.flatMap fun f => f.name ++ ['\n']))
  else
    match fs.files.find? (isFile (normalize path)) with
    | some f => .ok f.content
    | none => .err .fileNotFound

/-- `write`. A file may be made under the name of a directory. -/
def write (path : Str) (data : List UInt8) : Prog Tmpfs VfsError Unit := fun fs =>
  if normalize path = ['.'] then (.err .notAFile, fs)
  else if data.length > maxTmpFileSize then (.err .ioError, fs)
  else if fs.files.any (isFile (normalize path)) then
    (.ok (), ⟨updateFirst (isFile (normalize path)) (fun f => { f with content := data }) fs.files⟩)
  else if fs.files.length ≥ maxTmpFiles then (.err .ioError, fs)
  else (.ok (), ⟨fs.files ++ [⟨normalize path, data, false⟩]⟩)

/-- `delete`: every entry of the name goes. -/
def delete (path : Str) : Prog Tmpfs VfsError Unit := fun fs =>
  if normalize path = ['.'] then (.err .notAFile, fs)
  else if (fs.files.filter fun f => f.name != normalize path).length < fs.files.length then
    (.ok (), ⟨fs.files.filter fun f => f.name != normalize path⟩)
  else (.err .fileNotFound, ⟨fs.files.filter fun f => f.name != normalize path⟩)

/-- `mkdir`. -/
def mkdir (path : Str) : Prog Tmpfs VfsError Unit := fun fs =>
  if normalize path = ['.'] then (.err .alreadyExists, fs)
  else if fs.files.any (fun f => f.name == normalize path) then (.err .alreadyExists, fs)
  else if fs.files.length ≥ maxTmpFiles then (.err .ioError, fs)
  else (.ok (), ⟨fs.files ++ [⟨normalize path, [], true⟩]⟩)

/-! ## After each operation -/

/-- A directory just made exists. -/
lemma mkdir_exists (h : (mkdir path fs).1 = .ok ()) : (mkdir path fs).2.exists_ path = true := by
  unfold mkdir at h ⊢
  obtain ⟨hdot, h⟩ := passed h
  obtain ⟨hfresh, h⟩ := passed h
  rw [if_neg hdot, if_neg hfresh, if_neg (passed h).1]
  simp [exists_]

/-- A file just written exists. -/
lemma write_exists
    (h : (write path data fs).1 = .ok ()) : (write path data fs).2.exists_ path = true := by
  unfold write at h ⊢
  obtain ⟨hdot, h⟩ := passed h
  obtain ⟨hsize, h⟩ := passed h
  split at h
  next hany =>
    rw [if_neg hdot, if_neg hsize, if_pos hany]
    obtain ⟨f, hf⟩ := Option.isSome_iff_exists.mp (find?_isSome.mpr (any_eq_true.mp hany))
    obtain ⟨A, B, hl, hp, hA⟩ := find?_split hf
    have hname : f.name = normalize path := by
      unfold isFile at hp
      simp only [Bool.and_eq_true, beq_iff_eq] at hp
      exact hp.1
    rw [hl, updateFirst_split _ hp hA]
    simp [exists_, hname]
  next hany =>
    rw [if_neg hdot, if_neg hsize, if_neg hany, if_neg (passed h).1]
    simp [exists_]

/-! ## Two files -/

lemma isFile_iff {name : Str} {f : TmpFile} :
    isFile name f = true ↔ f.name = name ∧ f.isDirectory = false := by simp [isFile]

/-- The names of files are apart. -/
lemma isFile_other {name other : Str} (hne : other ≠ name) {f : TmpFile}
    (h : isFile name f = true) : isFile other f = false := by
  rw [isFile_iff] at h
  simp [isFile, h.1, hne.symm]

/-- What a write leaves: its data under its own name, and everything else. -/
lemma read_write
    (h : (write path data fs).1 = .ok ()) {other : Str} (hdot : normalize other ≠ ['.']) :
    (write path data fs).2.read other
      = if normalize other = normalize path then .ok data else fs.read other := by
  unfold write at h ⊢
  obtain ⟨hpath, h⟩ := passed h
  obtain ⟨hsize, h⟩ := passed h
  split at h
  next hany =>
    rw [if_neg hpath, if_neg hsize, if_pos hany, read, if_neg hdot]
    by_cases hname : normalize other = normalize path
    · obtain ⟨f, hf⟩ := Option.isSome_iff_exists.mp (find?_isSome.mpr (any_eq_true.mp hany))
      have hfound : (updateFirst (isFile (normalize path))
          (fun f => { f with content := data }) fs.files).find? (isFile (normalize path))
          = some { f with content := data } := by
        refine find?_updateFirst_self (f := fun f : TmpFile => { f with content := data }) ?_ hf
        exact fun _ ha => ha
      rw [if_pos hname, hname, hfound]
    · rw [if_neg hname, read, if_neg hdot, find?_updateFirst_other]
      intro f hf
      exact ⟨isFile_other hname hf, isFile_other hname hf⟩
  next hany =>
    rw [if_neg hpath, if_neg hsize, if_neg hany, if_neg (passed h).1, read, if_neg hdot,
      find?_append]
    by_cases hname : normalize other = normalize path
    · have hnone : fs.files.find? (isFile (normalize path)) = none :=
        find?_eq_none.mpr fun f hf hp =>
          hany (any_eq_true.mpr ⟨f, hf, hp⟩)
      rw [if_pos hname, hname, hnone]
      simp [isFile]
    · have hnew : isFile (normalize other) ⟨normalize path, data, false⟩ = false :=
        isFile_other hname (isFile_iff.mpr ⟨rfl, rfl⟩)
      rw [if_neg hname, read, if_neg hdot, find?_cons, hnew, find?_nil, Option.or_none]

lemma write_normalize
    (h : (write path data fs).1 = .ok ()) : normalize path ≠ ['.'] := by
  intro hdot
  unfold write at h
  rw [if_pos hdot] at h
  cases h

/-- The path of `a` below `/tmp`. -/
def below (a : Str) : Str := tmpRoot ++ '/' :: a

/-- What is left behind a leading `tmp`: `/tmp` goes as often as it is there, and then the
slashes. -/
def behindTmp : Str → Str
  | '/' :: 't' :: 'm' :: 'p' :: rest => behindTmp rest
  | rest => rest.dropWhile (· == '/')

/-- What is left of a name below `/tmp`: all of it, unless it begins with a slash or with
`tmp`. -/
def residue : Str → Str
  | 't' :: 'm' :: 'p' :: rest => behindTmp rest
  | a => a.dropWhile (· == '/')

/-- The two trims leave what stands behind the repetitions. -/
lemma trim_eq_behindTmp (s : Str) :
    trimStartMatches '/' (trimStartStr tmpRoot s) = behindTmp s := by
  induction s using behindTmp.induct with
  | case1 rest ih =>
    rw [trimStartStr, dif_pos ⟨by decide, rfl⟩, behindTmp]
    exact ih
  | case2 s hno =>
    rw [trimStartStr, dif_neg, behindTmp]
    · rfl
    · exact hno
    · rintro ⟨_, hpre⟩
      obtain ⟨rest, rfl⟩ := isPrefixOf_iff_prefix.mp hpre
      exact hno rest rfl

/-- The mount point and the slash behind it go; what goes of the name is no part of them. -/
lemma behindTmp_below (a : Str) : behindTmp (below a) = residue a := by
  show behindTmp ('/' :: a) = residue a
  unfold residue
  split
  next rest => rw [behindTmp]
  next hno =>
    rw [behindTmp]
    · exact dropWhile_cons_of_pos rfl
    · intro rest hrest
      exact hno rest (cons.inj hrest).2

/-- A file that can be written is stored under what is left of its name. -/
lemma normalize_of_write {a : Str} (h : (write (below a) data fs).1 = .ok ()) :
    normalize (below a) = residue a := by
  have hdot := write_normalize h
  unfold normalize at hdot ⊢
  rw [trim_eq_behindTmp, behindTmp_below] at hdot ⊢
  split at hdot
  next => exact absurd rfl hdot
  next hne => exact if_neg hne

/-- Two writes below `/tmp` that both succeed can both be read back exactly when something
else is left of the one name than of the other, or their data is the same. -/
theorem writes_apart_iff {fs : Tmpfs} {a b : Str} {x y : List UInt8}
    (h₁ : (write (below a) x fs).1 = .ok ())
    (h₂ : (write (below b) y (write (below a) x fs).2).1 = .ok ()) :
    ((write (below b) y (write (below a) x fs).2).2.read (below a) = .ok x ∧
      (write (below b) y (write (below a) x fs).2).2.read (below b) = .ok y) ↔
      residue a ≠ residue b ∨ x = y := by
  have hdota := write_normalize h₁
  have hdotb := write_normalize h₂
  rw [← normalize_of_write h₁, ← normalize_of_write h₂, read_write h₂ hdota, read_write h₂ hdotb,
    if_pos rfl]
  by_cases hname : normalize (below a) = normalize (below b)
  · rw [if_pos hname]
    constructor
    · intro h
      exact .inr (ok.inj h.1).symm
    · intro h
      rcases h with h | rfl
      · exact absurd hname h
      · exact ⟨rfl, rfl⟩
  · rw [if_neg hname, read_write h₁ hdota, if_pos rfl]
    exact ⟨fun _ => .inl hname, fun _ => ⟨rfl, rfl⟩⟩

/-- Two plain names. -/
theorem writes_apart_plain :
    ((write (below ['b']) [2] (write (below ['a']) [1] ⟨[]⟩).2).2.read (below ['a']) = .ok [1] ∧
      (write (below ['b']) [2] (write (below ['a']) [1] ⟨[]⟩).2).2.read (below ['b']) = .ok [2]) :=
  (writes_apart_iff (by decide +kernel) (by decide +kernel)).mpr (.inl (by decide +kernel))

/-- `/tmp/tmpx` is `/tmp/x`. -/
theorem tmp_prefix_collides :
    (write (below ['t', 'm', 'p', 'x']) [1] ⟨[]⟩).1 = .ok () ∧
      (write (below ['x']) [2] (write (below ['t', 'm', 'p', 'x']) [1] ⟨[]⟩).2).1 = .ok () ∧
      (write (below ['x']) [2] (write (below ['t', 'm', 'p', 'x']) [1] ⟨[]⟩).2).2.read
        (below ['t', 'm', 'p', 'x']) = .ok [2] := by decide +kernel

end Tmpfs

end RustOs.Fs
