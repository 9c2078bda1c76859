import RustOs.Fs.RamDisk
import RustOs.Lib.Trim

/-!
# Paths of the RAM disk

`normalize_path` takes the blanks off a path and then the slashes off what is left.
Its comment promises that there are no double slashes, but those between two
components stay, and so do the blanks that stand between a slash and a name. So one
sequence of components has several normal forms, a normal form need not be its own
(`/a / ` is `a `, which is `a`), and a path of two slashes is the empty name.

`PathLaw p q` is what was meant, of two paths with the same components: what is
written at one is read at the other, and the name that is stored is a path of the
same entry. It holds exactly if the two paths are the same text once the blanks and
then the slashes around them are gone, and that text has no blanks around it
(`pathLaw_iff`).
-/

namespace RustOs.Fs

open Lib Outcome File List

/-! ## What the RAM disk lists -/

/-- `VfsFileType`, the kinds a RAM disk has. -/
inductive VfsFileType where
  | regular
  | directory
  | symlink
  deriving DecidableEq, Repr

/-- `FileInfo`. -/
structure FileInfo where
  name : Str
  size : Nat
  isDirectory : Bool
  fileType : VfsFileType
  mode : Nat
  uid : Nat
  gid : Nat
  ctime : Nat
  mtime : Nat
  atime : Nat
  ino : UInt64
  nlink : Nat
  deriving DecidableEq, Repr

/-- `ramdisk_ino`: FNV-1a of the name, with 1 in the top four bits. -/
def ramdiskIno (path : Str) : UInt64 :=
  let h := (utf8 path).foldl (fun h b => (h ^^^ b.toUInt64) * 0x100000001b3) 0xcbf29ce484222325
  0x1000000000000000 ||| (h &&& 0x0fffffffffffffff)

/-- `to_info`. -/
def File.toInfo (f : File) (displayName : Str) : FileInfo where
  name := displayName
  size := f.content.length
  isDirectory := f.isDirectory
  fileType := match f.fileType with
    | .regular => .regular
    | .directory => .directory
    | .symlink => .symlink
  mode := f.mode
  uid := f.uid
  gid := f.gid
  ctime := f.ctime
  mtime := f.mtime
  atime := f.atime
  ino := ramdiskIno f.name
  nlink := if f.isDirectory then 2 else 1

namespace RamDisk

/-- `list_files`. -/
def listFiles (disk : RamDisk) : List FileInfo := disk.files.map fun f => f.toInfo f.name

/-- The prefix of the entries of a directory; the root has none. -/
def listPrefix (name : Str) : Str := if name = ['/'] then [] else name ++ ['/']

/-- What is left of a name below a prefix, if there is no directory in between. -/
def childName (pre name : Str) : Option Str :=
  if pre = [] then if name.contains '/' then none else some name
  else if pre.isPrefixOf name then
    if (name.drop pre.length).contains '/' then none else some (name.drop pre.length)
  else none

/-- The entries `list_directory` shows, with the names it shows them under. -/
def listed (disk : RamDisk) (path : Str) : Outcome VfsError (List (File × Str)) :=
  if normalizePath path ≠ ['/'] ∧ disk.hasDir (normalizePath path) = false then .err .notADirectory
  else .ok (disk.files.filterMap fun f =>
    (childName (listPrefix (normalizePath path)) f.name).map fun name => (f, name))

/-- `list_directory`. -/
def listDirectory (disk : RamDisk) (path : Str) : Outcome VfsError (List FileInfo) := do
  let entries ← disk.listed path
  pure (entries.map fun e => e.1.toInfo e.2)

end RamDisk

variable {path : Str} {name : Str}

/-! ## Stripping -/

/-- The slashes at both ends taken off. -/
def stripSlashes (s : Str) : Str := trimStartMatches '/' (trimEndMatches '/' s)

/-- What is left of a path without the blanks and then the slashes around it. -/
def barePath (path : Str) : Str := stripSlashes (trim path)

/-- A path of blanks and at most one slash, which stands for the root. -/
def IsRoot (path : Str) : Prop := trim path = ['/'] ∨ trim path = []

instance (path : Str) : Decidable (IsRoot path) := inferInstanceAs (Decidable (_ ∨ _))

lemma normalizePath_of_root (h : IsRoot path) : normalizePath path = ['/'] := if_pos h

lemma normalizePath_of_not_root (h : ¬IsRoot path) :
    normalizePath path = barePath path := if_neg h

lemma trim_bare (s : Str) : Bare isWhitespace (trim s) := bare_rdropWhile_dropWhile s

lemma trim_of_bare {s : Str} (h : Bare isWhitespace s) : trim s = s := by
  have hfront := h.dropWhile
  show (s.dropWhile isWhitespace).rdropWhile isWhitespace = s
  rw [hfront, h.rdropWhile]

lemma trim_sublist (s : Str) : (trim s).Sublist s :=
  ( rdropWhile_prefix isWhitespace _).sublist.trans (dropWhile_sublist isWhitespace)

lemma stripSlashes_bare (s : Str) : Bare (· == '/') (stripSlashes s) := bare_dropWhile_rdropWhile s

lemma stripSlashes_of_bare {s : Str} (h : Bare (· == '/') s) : stripSlashes s = s := by
  have hback := h.rdropWhile
  show (s.rdropWhile (· == '/')).dropWhile (· == '/') = s
  rw [hback, h.dropWhile]

lemma stripSlashes_sublist (s : Str) : (stripSlashes s).Sublist s :=
  (dropWhile_sublist _).trans ( rdropWhile_prefix _ _).sublist

/-- A name without slashes at its ends is not the root. -/
lemma ne_root_of_bare {s : Str} (h : Bare (· == '/') s) : s ≠ ['/'] := by
  intro hs
  rw [hs] at h
  exact nomatch h.head '/' rfl

/-- A normalised name has no slashes at its ends, but for the root. -/
lemma normalizePath_bare (h : normalizePath path ≠ ['/']) :
    Bare (· == '/') (normalizePath path) := by
  by_cases hroot : IsRoot path
  · exact absurd (normalizePath_of_root hroot) h
  · rw [normalizePath_of_not_root hroot]
    exact stripSlashes_bare _

lemma normalizePath_eq_root_iff : normalizePath path = ['/'] ↔ IsRoot path := by
  refine ⟨fun h => ?_, normalizePath_of_root⟩
  by_contra hroot
  rw [normalizePath_of_not_root hroot] at h
  exact ne_root_of_bare (stripSlashes_bare _) h

lemma normalizePath_root : normalizePath ['/'] = ['/'] := normalizePath_of_root (.inl (by decide))

lemma normalizePath_getLast (path : Str) (h : normalizePath path ≠ ['/']) :
    (normalizePath path).getLast? ≠ some '/' :=
  fun hlast => nomatch (normalizePath_bare h).last '/' hlast

/-- A bare name without blanks at its ends is its own path. -/
lemma normalizePath_of_bare (hne : name ≠ []) (hslash : Bare (· == '/') name)
    (hblank : Bare isWhitespace name) : normalizePath name = name := by
  have htrim := trim_of_bare hblank
  have hroot : ¬IsRoot name := by
    intro h
    rcases h with h | h
    · exact ne_root_of_bare hslash (htrim.symm.trans h)
    · exact hne (htrim.symm.trans h)
  rw [normalizePath_of_not_root hroot, barePath, htrim, stripSlashes_of_bare hslash]

/-- With blanks at its ends it is not. -/
lemma normalizePath_ne_of_blank (hslash : Bare (· == '/') name)
    (hblank : trim name ≠ name) : normalizePath name ≠ name := by
  intro h
  by_cases hroot : IsRoot name
  · rw [normalizePath_of_root hroot] at h
    exact ne_root_of_bare hslash h.symm
  · rw [normalizePath_of_not_root hroot] at h
    -- stripping takes nothing away that trimming has not
    have hlen := (stripSlashes_sublist (trim name)).length_le
    rw [show stripSlashes (trim name) = name from h] at hlen
    exact hblank ((trim_sublist name).eq_of_length_le hlen)

/-- When `normalize_path` is idempotent. -/
lemma normalizePath_idem_iff (path : Str) : normalizePath (normalizePath path) = normalizePath path
    ↔ IsRoot path ∨ (barePath path ≠ [] ∧ trim (barePath path) = barePath path) := by
  by_cases hroot : IsRoot path
  · rw [normalizePath_of_root hroot]
    exact iff_of_true normalizePath_root (.inl hroot)
  · have hslash : Bare (· == '/') (barePath path) := stripSlashes_bare _
    rw [normalizePath_of_not_root hroot, or_iff_right hroot]
    constructor
    · intro h
      refine ⟨fun hnil => ?_, ?_⟩
      · rw [hnil] at h
        cases h
      · by_contra hblank
        exact normalizePath_ne_of_blank hslash hblank h
    · intro ⟨hne, hblank⟩
      exact normalizePath_of_bare hne hslash (hblank ▸ trim_bare _)

lemma childPrefix_not_self (h : name.getLast? ≠ some '/') :
    (RamDisk.childPrefix name).isPrefixOf name = false := by
  rw [Bool.eq_false_iff]
  intro hp
  have hlen := ( isPrefixOf_iff_prefix.mp hp).length_le
  unfold RamDisk.childPrefix at hlen
  rw [if_neg h, length_append, length_singleton] at hlen
  omega

namespace RamDisk

variable {disk : RamDisk} {path : Str}

lemma fileExists_eq_false :
    disk.fileExists path = false ↔ path ≠ ['/'] ∧ disk.has (normalizePath path) = false := by
  simp [fileExists]

/-! ## What a call that went through did -/

/-- A file written stands in front of every other entry of its name. -/
lemma writeFile_ok {now : Nat} {data : List UInt8}
    (h : (writeFile now path data disk).1 = .ok ()) :
    ∃ A B, (writeFile now path data disk).2.files
        = A ++ fresh (normalizePath path) data .regular 0o644 now :: B
      ∧ (∀ f ∈ A, f.name ≠ normalizePath path)
      ∧ ((∃ old, old.name = normalizePath path ∧ disk.files = A ++ old :: B)
          ∨ disk.files = A ∧ B = []) := by
  unfold writeFile at h ⊢
  obtain ⟨hne, h⟩ := passed h
  rw [if_neg hne]
  split at h
  next => cases h
  next file hfile =>
    obtain ⟨-, -, hdata⟩ := new_ok hfile
    obtain ⟨hdir, h⟩ := passed h
    rw [if_neg hdir]
    have hother : ∀ f ∈ disk.files, isFile (normalizePath path) f = false →
        f.name ≠ normalizePath path := by
      intro f hf hnot heq
      have hfd := hasDir_eq_false.mp (Bool.eq_false_iff.mpr hdir) f hf heq
      rw [isFile_iff.mpr ⟨heq, hfd⟩] at hnot
      cases hnot
    split at h
    next hany =>
      rw [if_pos hany]
      obtain ⟨old, hold⟩ := Option.isSome_iff_exists.mp (find?_isSome.mpr (any_eq_true.mp hany))
      obtain ⟨A, B, hl, hp, hA⟩ := find?_split hold
      refine ⟨A, B, ?_, fun f hf => ?_, .inl ⟨old, (isFile_iff.mp hp).1, hl⟩⟩
      · rw [hl, updateFirst_split _ hp hA, hdata]
      · refine hother f ?_ (hA f hf)
        rw [hl]
        exact mem_append_left _ hf
    next hany =>
      rw [if_neg hany, if_neg (passed h).1]
      refine ⟨disk.files, [], by rw [hdata], fun f hf => hother f hf ?_, .inr ⟨rfl, rfl⟩⟩
      exact Bool.eq_false_iff.mpr fun hp => hany (any_eq_true.mpr ⟨f, hf, hp⟩)

/-- A directory made stands behind the others, and none has its name. -/
lemma createDirectory_ok {now : Nat}
    (hroot : normalizePath path ≠ ['/']) (h : (createDirectory now path disk).1 = .ok ()) :
    disk.has (normalizePath path) = false
      ∧ (createDirectory now path disk).2.files
        = disk.files ++ [fresh (normalizePath path) [] .directory 0o755 now] := by
  unfold createDirectory at h ⊢
  rw [if_neg hroot] at h ⊢
  obtain ⟨hfresh, h⟩ := passed h
  obtain ⟨hparent, h⟩ := passed h
  obtain ⟨hroom, h⟩ := passed h
  rw [if_neg hfresh, if_neg hparent, if_neg hroom]
  split at h
  next => cases h
  next dir hdir =>
    unfold newDirectory at hdir
    split at hdir
    next => cases hdir
    next =>
      cases hdir
      exact ⟨Bool.eq_false_iff.mpr hfresh, rfl⟩

/-- What is written at a path is read at every path of the same name. -/
lemma readFile_of_writeFile {now : Nat} {p q : Str} {data : List UInt8}
    (h : (writeFile now p data disk).1 = .ok ()) (hname : normalizePath q = normalizePath p) :
    (writeFile now p data disk).2.readFile q = .ok data
      ∧ (writeFile now p data disk).2.fileExists q = true := by
  obtain ⟨A, B, hfiles, hA, -⟩ := writeFile_ok h
  have hself : isFile (normalizePath p) (fresh (normalizePath p) data .regular 0o644 now)
      = true := isFile_iff.mpr ⟨rfl, rfl⟩
  have hfront : A.find? (isFile (normalizePath p)) = none :=
    find?_eq_none.mpr fun f hf hp => hA f hf (isFile_iff.mp hp).1
  constructor
  · unfold readFile
    rw [hfiles, hname, find?_append, hfront, find?_cons, hself]
    rfl
  · unfold fileExists has
    rw [hfiles, hname, any_append, any_cons]
    simp [fresh]

/-- The first file on an empty disk. -/
lemma writeFile_empty {p : Str} (hne : p ≠ []) (hlen : (utf8 (normalizePath p)).length ≤ 255) :
    writeFile 0 p [] ⟨[]⟩ = (.ok (), ⟨[fresh (normalizePath p) [] .regular 0o644 0]⟩) := by
  have hfit : ¬(utf8 (normalizePath p)).length > maxFilenameLen := Nat.not_lt.mpr hlen
  have hnew : new (normalizePath p) [] 0
      = .ok (fresh (normalizePath p) [] .regular 0o644 0) := by
    unfold new
    rw [if_neg hfit, if_neg (by decide)]
  unfold writeFile
  rw [if_neg hne, hnew]
  rfl

end RamDisk

/-! ## Paths with the same components -/

open RamDisk

/-- What is meant by a path: another path with the same components is a path of the
same file, the name stored for it is a path again, and the path of the same
entry. -/
structure PathLaw (p q : Str) : Prop where
  same : components p = components q → components p ≠ [] → ∀ now data disk,
    (writeFile now p data disk).1 = .ok () →
      (writeFile now p data disk).2.readFile q = .ok data
        ∧ (writeFile now p data disk).2.fileExists q = true
  idempotent : normalizePath (normalizePath p) = normalizePath p
  nonempty : normalizePath p ≠ []
  listed : ∀ disk : RamDisk, ∀ f ∈ disk.listFiles, f.name = normalizePath p →
    disk.readFile f.name = disk.readFile p ∧ disk.listDirectory f.name = disk.listDirectory p

/-- The two paths come down to the same text. -/
def SameText (p q : Str) : Prop :=
  (IsRoot p ∧ IsRoot q) ∨ (¬IsRoot p ∧ ¬IsRoot q ∧ barePath p = barePath q)

/-- Two paths have one name exactly if they are the same text between blanks and slashes. -/
lemma normalizePath_eq_iff {p q : Str} : normalizePath p = normalizePath q ↔ SameText p q := by
  by_cases hp : IsRoot p
  · rw [normalizePath_of_root hp, eq_comm, normalizePath_eq_root_iff]
    exact ⟨fun hq => .inl ⟨hp, hq⟩, fun h => h.elim (·.2) fun h => absurd hp h.1⟩
  · by_cases hq : IsRoot q
    · rw [normalizePath_of_root hq, normalizePath_eq_root_iff]
      exact iff_of_false hp fun h => h.elim (fun h => hp h.1) fun h => h.2.1 hq
    · rw [normalizePath_of_not_root hp, normalizePath_of_not_root hq]
      exact ⟨fun h => .inr ⟨hp, hq, h⟩, fun h => h.elim (fun h => absurd h.1 hp) (·.2.2)⟩

/-- A file written at `p` is found at `q`, on every disk, exactly if the two come
down to the same text or the name is too long to be stored. -/
lemma writeFile_readFile_iff {p q : Str} (hne : p ≠ []) :
    (∀ now data disk, (writeFile now p data disk).1 = .ok () →
      (writeFile now p data disk).2.readFile q = .ok data
        ∧ (writeFile now p data disk).2.fileExists q = true)
      ↔ SameText p q ∨ 255 < (utf8 (normalizePath p)).length := by
  constructor
  · intro h
    by_cases hlen : (utf8 (normalizePath p)).length ≤ 255
    · refine .inl (normalizePath_eq_iff.mp ?_)
      have hwrite := writeFile_empty hne hlen
      have hread := (h 0 [] ⟨[]⟩ (by rw [hwrite])).1
      rw [hwrite] at hread
      -- the only file there is has the name of `p`
      by_contra hdiff
      have hnone : isFile (normalizePath q) (fresh (normalizePath p) [] .regular 0o644 0)
          = false := by
        rw [Bool.eq_false_iff]
        exact fun hfile => hdiff (isFile_iff.mp hfile).1
      unfold readFile at hread
      rw [find?_cons, hnone, find?_nil] at hread
      cases hread
    · exact .inr (Nat.lt_of_not_le hlen)
  · intro h now data disk hok
    rcases h with hsame | hlong
    · exact readFile_of_writeFile hok (normalizePath_eq_iff.mpr hsame).symm
    · -- a name that long is refused
      exfalso
      have hnew : new (normalizePath p) data now = .error "Filename too long" := if_pos hlong
      unfold writeFile at hok
      rw [if_neg hne, hnew] at hok
      cases hok

lemma barePath_of_root {p : Str} (h : IsRoot p) : barePath p = [] := by
  unfold barePath
  rcases h with h | h
  · rw [h]
    decide
  · rw [h]
    decide

lemma too_long_iff (p : Str) :
    255 < (utf8 (normalizePath p)).length ↔ 255 < (utf8 (barePath p)).length := by
  by_cases hroot : IsRoot p
  · rw [normalizePath_of_root hroot, barePath_of_root hroot]
    exact iff_of_false (by decide) (by decide)
  · rw [normalizePath_of_not_root hroot]

/-- A name that is its own path denotes what the path denotes. -/
lemma denotes_of_idem {p : Str} (h : normalizePath (normalizePath p) = normalizePath p)
    (disk : RamDisk) : disk.readFile (normalizePath p) = disk.readFile p
      ∧ disk.listDirectory (normalizePath p) = disk.listDirectory p := by
  unfold readFile listDirectory listed
  rw [h]
  exact ⟨rfl, rfl⟩

/-- The law holds of two paths exactly if the first is the root or comes down to a
text without blanks at its ends, and the second comes down to the same if it has
the same components. -/
theorem pathLaw_iff (p q : Str) : PathLaw p q
    ↔ (IsRoot p ∨ (barePath p ≠ [] ∧ trim (barePath p) = barePath p))
      ∧ (components p = components q → components p ≠ [] →
          SameText p q ∨ 255 < (utf8 (barePath p)).length) := by
  have hne : components p ≠ [] → p ≠ [] := fun h hp => h (hp ▸ rfl)
  rw [← normalizePath_idem_iff, ← too_long_iff]
  constructor
  · intro h
    exact ⟨h.idempotent, fun hsame hcomps =>
      (writeFile_readFile_iff (hne hcomps)).mp (h.same hsame hcomps)⟩
  · intro ⟨hidem, hsame⟩
    refine ⟨fun heq hcomps => (writeFile_readFile_iff (hne hcomps)).mpr (hsame heq hcomps), hidem,
      fun hnil => ?_, fun disk f _ hf => ?_⟩
    · rw [hnil] at hidem
      cases hidem
    · rw [hf]
      exact denotes_of_idem hidem disk

/-- One of two paths with the components `a` and `b` has a slash too many. -/
theorem pathLaw_inner_slash :
    components ['a', '/', 'b'] = components ['a', '/', '/', 'b']
      ∧ (writeFile 0 ['a', '/', 'b'] [1] ⟨[]⟩).1 = .ok ()
      ∧ (writeFile 0 ['a', '/', 'b'] [1] ⟨[]⟩).2.readFile ['a', '/', '/', 'b'] = .err .fileNotFound
      ∧ ¬PathLaw ['a', '/', 'b'] ['a', '/', '/', 'b'] := by
  have hcomps : components ['a', '/', 'b'] = components ['a', '/', '/', 'b'] := by decide
  have hok : (writeFile 0 ['a', '/', 'b'] [1] ⟨[]⟩).1 = .ok () := by decide
  have hread : (writeFile 0 ['a', '/', 'b'] [1] ⟨[]⟩).2.readFile ['a', '/', '/', 'b']
      = .err .fileNotFound := by decide
  refine ⟨hcomps, hok, hread, fun h => ?_⟩
  exact nomatch hread.symm.trans (h.same hcomps (by decide) 0 [1] ⟨[]⟩ hok).1

end RustOs.Fs
