import RustOs.Fs.Tmpfs
import RustOs.Lib.Trace

/-!
# The names in `/tmp`

`write`, `mkdir` and `delete` of `src/fs/tmpfs.rs` have three notions of a name
that is taken. `mkdir` asks for any entry. `write` asks for a file, so under the
name of a directory it makes a second entry. `delete` takes out every entry of the
name, directories among them.

A sequence of calls keeps the names distinct, and each `delete` that succeeds takes
out one file and nothing else, exactly if no file is made under the name of a
directory and no directory is deleted (`tmpNames_iff`).
-/

namespace RustOs.Fs.Tmpfs

open Lib List

/-- The calls that change `/tmp`. -/
inductive TmpCall where
  | write (path : Str) (data : List UInt8)
  | delete (path : Str)
  | mkdir (path : Str)

/-- The function behind a call. -/
def TmpCall.run : TmpCall → Prog Tmpfs VfsError Unit
  | .write path data => Tmpfs.write path data
  | .delete path => Tmpfs.delete path
  | .mkdir path => Tmpfs.mkdir path

/-- The state after a call; every call returns. -/
def TmpCall.step (call : TmpCall) (fs : Tmpfs) : Option Tmpfs := some (call.run fs).2

/-- No two entries have the same name. -/
def Unique (fs : Tmpfs) : Prop := (fs.files.map (·.name)).Nodup

/-- One entry is gone, and it was a file. -/
def LosesFile (fs fs' : Tmpfs) : Prop :=
  ∃ A f B, fs.files = A ++ f :: B ∧ f.isDirectory = false ∧ fs'.files = A ++ B

/-- A `delete` that succeeds takes out one file. -/
def TmpCall.Deletes : TmpCall → Tmpfs → Prop
  | .delete path, fs => (Tmpfs.delete path fs).1 = .ok () → LosesFile fs (Tmpfs.delete path fs).2
  | .write _ _, _ => True
  | .mkdir _, _ => True

/-- A directory of this name exists. -/
def hasDir (fs : Tmpfs) (name : Str) : Bool := fs.files.any fun f => f.name == name && f.isDirectory

/-- A write under the name of a directory is refused for another reason, and a
directory is not deleted. -/
def TmpCall.Suits : TmpCall → Tmpfs → Prop
  | .write path data, fs => fs.hasDir (normalize path) = true →
      normalize path = ['.'] ∨ data.length > maxTmpFileSize ∨ fs.files.length ≥ maxTmpFiles
  | .delete path, fs => normalize path = ['.'] ∨ fs.hasDir (normalize path) = false
  | .mkdir _, _ => True

variable {fs : Tmpfs}

lemma hasDir_eq_true {name : Str} :
    fs.hasDir name = true ↔ ∃ f ∈ fs.files, f.name = name ∧ f.isDirectory = true := by simp [hasDir]

variable (hu : fs.Unique)
include hu

/-- With distinct names an entry is split off by its name. -/
lemma Unique.split {f : TmpFile} (hf : f ∈ fs.files) :
    ∃ A B, fs.files = A ++ f :: B ∧ ∀ g ∈ A ++ B, g.name ≠ f.name := by
  obtain ⟨A, B, hl⟩ := append_of_mem hf
  unfold Unique at hu
  rw [hl] at hu
  exact ⟨A, B, hl, key_ne_of_split TmpFile.name hu⟩

/-- A file and a directory of one name are two entries. -/
lemma Unique.not_both {f g : TmpFile} (hf : f ∈ fs.files) (hg : g ∈ fs.files)
    (hname : g.name = f.name) : g = f := by
  obtain ⟨A, B, hl, hother⟩ := hu.split hf
  rw [hl, mem_middle] at hg
  exact hg.resolve_right fun h => hother g h hname

/-! ## One call -/

/-- `write` keeps names unique exactly if it suits. -/
lemma write_unique_iff (path : Str) (data : List UInt8) :
    (write path data fs).2.Unique ↔ (TmpCall.write path data).Suits fs := by
  unfold write TmpCall.Suits
  split
  next hdot => exact iff_of_true hu fun _ => .inl hdot
  next hdot =>
    split
    next hsize => exact iff_of_true hu fun _ => .inr (.inl hsize)
    next hsize =>
      split
      next hany =>
        -- an existing file keeps its name, and no directory has it too
        refine iff_of_true ?_ fun hdir => ?_
        · have hnames : (updateFirst (isFile (normalize path))
              (fun f => { f with content := data }) fs.files).map (·.name) =
                fs.files.map (·.name) := by
            apply map_updateFirst
            exact fun _ _ => rfl
          show (List.map _ _).Nodup
          rw [hnames]
          exact hu
        · obtain ⟨g, hg, hname, hd⟩ := hasDir_eq_true.mp hdir
          obtain ⟨f, hf, hp⟩ := any_eq_true.mp hany
          rw [isFile_iff] at hp
          rw [hu.not_both hf hg (hname.trans hp.1.symm), hp.2] at hd
          cases hd
      next hany =>
        split
        next hroom => exact iff_of_true hu fun _ => .inr (.inr hroom)
        next hroom =>
          constructor
          · intro h hdir
            obtain ⟨g, hg, hname, -⟩ := hasDir_eq_true.mp hdir
            unfold Unique at h
            rw [map_append, nodup_append] at h
            exact absurd hname (h.2.2 _ (mem_map_of_mem hg) _ (mem_singleton.mpr rfl))
          · intro h
            refine nodup_push _ hu fun g hg hname => ?_
            cases hd : g.isDirectory with
            | false => exact hany (any_eq_true.mpr ⟨g, hg, isFile_iff.mpr ⟨hname, hd⟩⟩)
            | true =>
              rcases h (hasDir_eq_true.mpr ⟨g, hg, hname, hd⟩) with h | h | h
              · exact hdot h
              · exact hsize h
              · exact hroom h

lemma mkdir_unique (path : Str) : (mkdir path fs).2.Unique := by
  unfold mkdir
  split
  · exact hu
  · split
    · exact hu
    · next hfresh =>
      split
      · exact hu
      · refine nodup_push _ hu fun g hg hname => hfresh ?_
        exact any_eq_true.mpr ⟨g, hg, beq_iff_eq.mpr hname⟩

lemma delete_unique (path : Str) : (delete path fs).2.Unique := by
  have hfilter : Unique ⟨fs.files.filter fun f => f.name != normalize path⟩ :=
    hu.sublist (filter_sublist.map _)
  unfold delete
  split
  · exact hu
  · split
    · exact hfilter
    · exact hfilter

omit hu

/-- What is left when the entries of a name are taken out of a list that has one. -/
lemma filter_split {A B : List TmpFile} {f : TmpFile} (hother : ∀ g ∈ A ++ B, g.name ≠ f.name) :
    (A ++ f :: B).filter (fun g => g.name != f.name) = A ++ B := by
  have hkeep : (A ++ B).filter (fun g => g.name != f.name) = A ++ B :=
    filter_eq_self.mpr fun g hg => bne_iff_ne.mpr (hother g hg)
  rw [filter_append, filter_cons_of_neg (by simp), ← filter_append, hkeep]

/-- A path is gone after `delete` exactly if the call suits. -/
lemma delete_loses_iff (hu : fs.Unique) (path : Str) :
    (TmpCall.delete path).Deletes fs ↔ (TmpCall.delete path).Suits fs := by
  show ((delete path fs).1 = .ok () → LosesFile fs (delete path fs).2)
    ↔ normalize path = ['.'] ∨ fs.hasDir (normalize path) = false
  unfold delete
  split
  next hdot => exact iff_of_true nofun (.inl hdot)
  next hdot =>
    rw [or_iff_right hdot]
    split
    next hlen =>
      -- something goes, and it is one entry
      have hsome : ∃ f ∈ fs.files, f.name = normalize path := by
        refine Classical.byContradiction fun hno => ?_
        have hall : fs.files.filter (fun f => f.name != normalize path) = fs.files :=
          filter_eq_self.mpr fun g hg => bne_iff_ne.mpr fun h => hno ⟨g, hg, h⟩
        rw [hall] at hlen
        omega
      obtain ⟨f, hf, hname⟩ := hsome
      obtain ⟨A, B, hl, hother⟩ := hu.split hf
      rw [← hname]
      constructor
      · intro h
        obtain ⟨A', f', B', hl', hfile, hrest⟩ := h rfl
        rw [Bool.eq_false_iff]
        intro hdir
        obtain ⟨g, hg, hgname, hd⟩ := hasDir_eq_true.mp hdir
        -- the file that is gone has the name, so it is the directory
        have hf' : f' ∈ fs.files := hl' ▸ mem_middle.mpr (.inl rfl)
        have hgone : f'.name = f.name := by
          refine Classical.byContradiction fun hne => ?_
          have hmem : f' ∈ A' ++ B' := hrest ▸ mem_filter.mpr ⟨hf', bne_iff_ne.mpr hne⟩
          have hnodup : ((A' ++ f' :: B').map (·.name)).Nodup := hl' ▸ hu
          exact key_ne_of_split TmpFile.name hnodup f' hmem rfl
        rw [hu.not_both hf' hg (hgname.trans hgone.symm), hfile] at hd
        cases hd
      · intro hdir _
        refine ⟨A, f, B, hl, ?_, ?_⟩
        · rw [Bool.eq_false_iff]
          intro hd
          exact Bool.eq_false_iff.mp hdir (hasDir_eq_true.mpr ⟨f, hf, rfl, hd⟩)
        · rw [hl, filter_split hother]
    next hlen =>
      refine iff_of_true nofun ?_
      rw [Bool.eq_false_iff]
      intro hdir
      obtain ⟨g, hg, hname, -⟩ := hasDir_eq_true.mp hdir
      refine hlen (length_filter_lt_length_iff_exists.mpr ⟨g, hg, ?_⟩)
      simp [hname]

lemma TmpCall.step_iff (call : TmpCall) {fs' : Tmpfs} (hu : fs.Unique)
    (hstep : call.step fs = some fs') : fs'.Unique ∧ call.Deletes fs ↔ call.Suits fs := by
  cases hstep
  cases call with
  | write path data => exact (and_iff_left trivial).trans (write_unique_iff hu path data)
  | delete path => exact (and_iff_right (delete_unique hu path)).trans (delete_loses_iff hu path)
  | mkdir path => exact iff_of_true ⟨mkdir_unique hu path, trivial⟩ trivial

/-! ## Sequences of calls -/

/-- From an empty `/tmp`, names stay distinct and every `delete` that succeeds takes
out one file, exactly if every call suits. -/
theorem tmpNames_iff (calls : List TmpCall) :
    Always TmpCall.step Unique calls ⟨[]⟩ ∧ Along TmpCall.step TmpCall.Deletes calls ⟨[]⟩
      ↔ Along TmpCall.step TmpCall.Suits calls ⟨[]⟩ :=
  always_and_along_iff (fun call _ _ hu hstep => call.step_iff hu hstep) calls ⟨[]⟩ List.nodup_nil

/-- A directory `d` in `/tmp` and a file of the same name. -/
def confused : Tmpfs := (TmpCall.write (below ['d'])
    [1] |>.run (Tmpfs.mkdir (below ['d']) ⟨[]⟩).2).2

/-- The file is made beside the directory, and both are deleted at once. -/
theorem write_under_directory :
    let calls : List TmpCall :=
      [.mkdir (below ['d']), .write (below ['d']) [1], .delete (below ['d'])]
    ¬Always TmpCall.step Unique calls ⟨[]⟩ ∧ ¬Along TmpCall.step TmpCall.Deletes calls ⟨[]⟩ := by
  intro calls
  constructor
  · intro h
    have hunique : confused.Unique := h (calls.take 2) confused ( take_prefix 2 calls) rfl
    have hsame : ¬(confused.files.map (·.name)).Nodup := by decide +kernel
    exact hsame hunique
  · intro h
    have hdelete := (((h _ rfl).2 confused rfl).2 _ rfl).1
    have hgone : (Tmpfs.delete (below ['d']) confused).1 = .ok ()
        ∧ (Tmpfs.delete (below ['d']) confused).2.files.length = 0 ∧ confused.files.length = 2 := by
      decide +kernel
    obtain ⟨A, f, B, hbefore, -, hafter⟩ := hdelete hgone.1
    -- two entries went
    have hlen := congrArg List.length hbefore
    have hlen' := congrArg List.length hafter
    rw [length_append, length_cons, hgone.2.2] at hlen
    rw [length_append, hgone.2.1] at hlen'
    omega

end RustOs.Fs.Tmpfs
