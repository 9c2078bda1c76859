import RustOs.Fs.RamPaths
import RustOs.Fs.Vfs

/-!
# Do the operations agree on the back end?

Without a FAT32 volume every path belongs to tmpfs or to the RAM disk. A
directory made by `mkdir` should be gone after `rmdir`, and a file written and
renamed should be found under its new name only. On tmpfs neither ever holds:
`rmdir` and `rename` go to the RAM disk whatever the path is. On the RAM disk the
first holds unless the path is the root or a file already lies below it (`write`
does not ask for the parent, so this happens), the second unless the path is
literally `/`, which always exists.
-/

namespace RustOs.Fs

open Lib RamDisk List

namespace RamDisk

/-- A directory made is removed again exactly if nothing lies below it. -/
lemma removeDirectory_created {now : Nat} {path : Str} {disk : RamDisk}
    (hroot : normalizePath path ≠ ['/']) (h : (createDirectory now path disk).1 = .ok ()) :
    if disk.files.any (fun f => (childPrefix (normalizePath path)).isPrefixOf f.name) then
      (removeDirectory path (createDirectory now path disk).2).1 = .err .directoryNotEmpty
    else removeDirectory path (createDirectory now path disk).2 = (.ok (), disk) := by
  obtain ⟨hfresh, hfiles⟩ := createDirectory_ok hroot h
  have hself := childPrefix_not_self (normalizePath_getLast path hroot)
  generalize (createDirectory now path disk).2 = made at *
  have hdir : made.hasDir (normalizePath path) = true := by
    simp [hasDir, hfiles, File.fresh, File.isDirectory]
  have hany : made.files.any (fun f => (childPrefix (normalizePath path)).isPrefixOf f.name)
      = disk.files.any (fun f => (childPrefix (normalizePath path)).isPrefixOf f.name) := by
    simp [hfiles, File.fresh, hself]
  have herase : made.files.eraseP (fun f => f.name == normalizePath path && f.isDirectory)
      = disk.files := by
    rw [hfiles, eraseP_split (by simp [File.fresh, File.isDirectory]) fun f hf => ?_, append_nil]
    simp [has_eq_false.mp hfresh f hf]
  unfold removeDirectory
  split <;> simp_all

end RamDisk

namespace Vfs

/-! ## The two laws -/

/-- `mkdir` then `rmdir`: the directory goes. -/
def Undone (st : Vfs) (p : Str) : Prop :=
  (rmdir p (mkdir p st).2).1 = .ok ()
    ∧ (exists_ p (rmdir p (mkdir p st).2).2).1 = .ok false

/-- `write` then `rename`: the file is under the new name and not the old. -/
def Moved (st : Vfs) (p q : Str) (d : List UInt8) : Prop :=
  (rename p q (write p d st).2).1 = .ok ()
    ∧ (read q (rename p q (write p d st).2).2).1 = .ok d
    ∧ (exists_ p (rename p q (write p d st).2).2).1 = .ok false

/-- The directory a path lies in exists on the back end of the path. -/
def ParentOn (st : Vfs) (q : Str) : Prop :=
  if isTmpPath q then
    parentPath (Tmpfs.normalize q) = ['/']
      ∨ ∃ f ∈ st.tmp.files, f.name = parentPath (Tmpfs.normalize q) ∧ f.isDirectory = true
  else st.ram.parentOk (normalizePath q) = true

section
variable {st : Vfs} (hfat : st.fat32 = none) {p : Str} (hp : isGenerated p = false)

include hfat hp

/-- When `rmdir` undoes `mkdir`. -/
lemma undone_iff (hok : (mkdir p st).1 = .ok ()) :
    Undone st p ↔ isTmpPath p = false ∧ normalizePath p ≠ ['/']
      ∧ ∀ f ∈ st.ram.files, (childPrefix (normalizePath p)).isPrefixOf f.name = false := by
  cases htmp : isTmpPath p with
  | true =>
    -- `rmdir` looks on the RAM disk, and the directory stays on tmpfs
    have hmk : mkdir p st = onTmp (Tmpfs.mkdir p) st := by
      unfold mkdir
      rw [if_pos htmp]
    rw [hmk] at hok
    refine iff_of_false ?_ fun h => nomatch h.1
    rintro ⟨_, hgone⟩
    rw [exists_tmp htmp] at hgone
    unfold rmdir at hgone
    rw [hmk] at hgone
    simp only [onTmp, hfat, onRam] at hgone
    injection hgone with hgone
    rw [Tmpfs.mkdir_exists hok] at hgone
    cases hgone
  | false =>
    have hmk : mkdir p st = onRam (createDirectory st.now p) st := by
      unfold mkdir
      rw [htmp, if_neg Bool.false_ne_true, hfat]
    rw [hmk] at hok
    unfold Undone rmdir
    rw [hmk]
    simp only [onRam, hfat]
    by_cases hroot : normalizePath p = ['/']
    · refine iff_of_false ?_ fun h => h.2.1 hroot
      rintro ⟨hrm, _⟩
      unfold removeDirectory at hrm
      rw [if_pos hroot] at hrm
      cases hrm
    · have hrm := removeDirectory_created hroot hok
      have hfresh := (createDirectory_ok hroot hok).1
      split at hrm
      next hany =>
        obtain ⟨f, hf, hpre⟩ := any_eq_true.mp hany
        refine iff_of_false (fun h => ?_) fun h => ?_
        · rw [hrm] at h
          exact nomatch h.1
        · rw [h.2.2 f hf] at hpre
          cases hpre
      next hany =>
        refine iff_of_true ⟨by rw [hrm], ?_⟩ ⟨trivial, hroot, fun f hf => ?_⟩
        · rw [hrm, exists_ram hp htmp rfl]
          refine congrArg _ (fileExists_eq_false.mpr ⟨?_, hfresh⟩)
          rintro rfl
          exact hroot normalizePath_root
        · exact Bool.eq_false_iff.mpr fun hpre => hany (any_eq_true.mpr ⟨f, hf, hpre⟩)

/-- When a file is found under its new name only. -/
lemma moved_iff {q : Str} {d : List UInt8} (hq : isGenerated q = false)
    (hok : (write p d st).1 = .ok ()) (hfresh : (exists_ q (write p d st).2).1 = .ok false)
    (hsame : isTmpPath q = isTmpPath p) :
    Moved st p q d ↔ isTmpPath p = false ∧ p ≠ ['/']
      ∧ st.ram.files.countP (fun f => f.name == normalizePath p) ≤ 1 := by
  obtain ⟨hproc, hdev, hsys⟩ := isGenerated_eq_false.mp hp
  cases htmp : isTmpPath p with
  | true =>
    have hwr : write p d st = onTmp (Tmpfs.write p d) st := by
      unfold write
      rw [hdev, htmp, if_neg Bool.false_ne_true, if_pos rfl]
    rw [hwr] at hok
    refine iff_of_false ?_ fun h => nomatch h.1
    rintro ⟨_, _, hgone⟩
    rw [exists_tmp htmp] at hgone
    unfold rename at hgone
    rw [hwr] at hgone
    simp only [onTmp, hfat, onRam] at hgone
    injection hgone with hgone
    rw [Tmpfs.write_exists hok] at hgone
    cases hgone
  | false =>
    have hwr : write p d st = onRam (writeFile st.now p d) st := by
      unfold write
      rw [hdev, htmp, hsys, hproc, hfat]
      rfl
    rw [htmp] at hsame
    rw [hwr] at hok hfresh
    unfold Moved rename
    rw [hwr]
    simp only [onRam, hfat] at hok hfresh ⊢
    obtain ⟨A, B, hfiles, hA, hbefore⟩ := writeFile_ok hok
    generalize (writeFile st.now p d st.ram).2 = wrote at *
    rw [exists_ram hq hsame rfl] at hfresh
    injection hfresh with hfresh
    obtain ⟨_, hm⟩ := fileExists_eq_false.mp hfresh
    have hnames := has_eq_false.mp hm
    rw [hfiles] at hnames
    have hhas : wrote.has (normalizePath p) = true :=
      has_eq_true.mpr ⟨_, by rw [hfiles]; exact mem_append_right _ mem_cons_self, rfl⟩
    have hne : normalizePath q ≠ normalizePath p := by
      intro heq
      rw [heq, hhas] at hm
      cases hm
    -- the renamed file is the one just written
    have hren : RamDisk.rename p q wrote = (.ok (), ⟨A ++
        File.fresh (normalizePath q) d .regular 0o644 st.now :: B⟩) := by
      unfold RamDisk.rename
      rw [hm, if_neg Bool.false_ne_true, if_pos hhas, hfiles,
        updateFirst_split _ (by simp [File.fresh]) fun f hf => by simp [hA f hf]]
      rfl
    have hfront : ∀ f ∈ A, f.name ≠ normalizePath q := fun f hf => hnames f (mem_append_left _ hf)
    rw [hren, read_of_no_link, readResolved_ram hq hsame rfl, exists_ram hp htmp rfl]
    · have hread : readFile ⟨A ++ File.fresh (normalizePath q) d .regular 0o644 st.now :: B⟩ q
          = .ok d := by
        unfold readFile
        rw [find?_append, find?_eq_none.mpr fun f hf => by
          simp [isFile, hfront f hf]]
        simp [isFile, File.fresh, File.isDirectory]
      simp only [hread, true_and]
      have hcount : st.ram.files.countP (fun f => f.name == normalizePath p) ≤ 1
          ↔ ∀ f ∈ B, f.name ≠ normalizePath p := by
        have hA0 : A.countP (fun f => f.name == normalizePath p) = 0 := by
          rw [countP_eq_zero]
          intro f hf
          simp [hA f hf]
        rcases hbefore with ⟨old, hold, hl⟩ | ⟨hl, rfl⟩
        · rw [hl, countP_append, hA0, countP_cons_of_pos (by simp [hold]), Nat.zero_add,
            Nat.succ_le_succ_iff, Nat.le_zero, countP_eq_zero]
          simp
        · rw [hl, hA0]
          simp
      rw [hcount]
      constructor
      · intro hgone
        injection hgone with hgone
        obtain ⟨hroot, hno⟩ := fileExists_eq_false.mp hgone
        refine ⟨hroot, fun f hf => has_eq_false.mp hno f ?_⟩
        exact mem_append_right _ (mem_cons_of_mem _ hf)
      · rintro ⟨hroot, hB⟩
        refine congrArg _ (fileExists_eq_false.mpr ⟨hroot, has_eq_false.mpr ?_⟩)
        intro f hf
        rcases mem_middle.mp hf with rfl | hf
        · exact hne
        · exact (mem_append.mp hf).elim (hA f) (hB f)
    · -- a file just written is no link
      intro target
      unfold readlink RamDisk.readlink
      rw [find?_append, find?_eq_none.mpr fun f hf => by simp [hfront f hf]]
      simp [File.fresh, File.symlinkTarget]

end

/-- Exactly when the operations agree, without FAT32. -/
theorem backends_agree (st : Vfs) (hfat : st.fat32 = none) (p : Str) (hp : isGenerated p = false) :
    ((mkdir p st).1 = .ok () →
      (Undone st p ↔ isTmpPath p = false ∧ normalizePath p ≠ ['/']
        ∧ ∀ f ∈ st.ram.files, (RamDisk.childPrefix (normalizePath p)).isPrefixOf f.name = false))
    ∧ ∀ q d, isGenerated q = false → (write p d st).1 = .ok () →
        (exists_ q (write p d st).2).1 = .ok false → isTmpPath q = isTmpPath p →
        ParentOn (write p d st).2 q →
        (Moved st p q d ↔ isTmpPath p = false ∧ p ≠ ['/']
          ∧ st.ram.files.countP (fun f => f.name == normalizePath p) ≤ 1) :=
  ⟨fun hok => undone_iff hfat hp hok,
    fun _ _ hq hok hfresh hsame _ => moved_iff hfat hp hq hok hfresh hsame⟩

/-- A directory and a file of the RAM disk. -/
theorem backends_agree_ram :
    (mkdir ['/', 'a'] empty).1 = .ok () ∧ Undone empty ['/', 'a']
      ∧ (write ['/', 'a'] [1] empty).1 = .ok () ∧ Moved empty ['/', 'a'] ['/', 'b'] [1] := by
  obtain ⟨hdir, hfile⟩ := backends_agree empty rfl ['/', 'a'] (by decide)
  have hmk : (mkdir ['/', 'a'] empty).1 = .ok () := by decide +kernel
  have hwr : (write ['/', 'a'] [1] empty).1 = .ok () := by decide +kernel
  refine ⟨hmk, (hdir hmk).mpr ⟨by decide, by decide, fun f hf => nomatch hf⟩, hwr, ?_⟩
  refine (hfile ['/', 'b'] [1] (by decide) hwr (by decide +kernel) (by decide) ?_).mpr ?_
  · unfold ParentOn
    decide +kernel
  · exact ⟨by decide, by decide, by decide⟩

/-- A directory of tmpfs cannot be removed: `rmdir` looks for it on the RAM disk. -/
theorem tmp_directory_stays :
    (mkdir ['/', 't', 'm', 'p', '/', 'a'] empty).1 = .ok ()
      ∧ (rmdir ['/', 't', 'm', 'p', '/', 'a']
          (mkdir ['/', 't', 'm', 'p', '/', 'a'] empty).2).1 = .err .fileNotFound
      ∧ ¬Undone empty ['/', 't', 'm', 'p', '/', 'a'] := by
  have hrm : (rmdir ['/', 't', 'm', 'p', '/', 'a']
      (mkdir ['/', 't', 'm', 'p', '/', 'a'] empty).2).1 = .err .fileNotFound := by decide +kernel
  refine ⟨by decide +kernel, hrm, ?_⟩
  rintro ⟨hok, _⟩
  cases hok

end Vfs

end RustOs.Fs
