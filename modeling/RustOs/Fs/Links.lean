import RustOs.Fs.RamPaths
import RustOs.Fs.Vfs

/-!
# Symbolic links

`resolve_path` follows links from a path: an absolute target takes its place, a
relative one is put behind the parent of the link. It is meant to follow up to
eight. The loop reads a link in each of its eight rounds and answers when a round
finds none, so it takes a ninth round to see that the eighth link has led to
something else, and there is none: a path behind exactly eight links is refused
(`eight_links_refused`).

The parent is cut off the path as it is spelled. `/d/l/` names the link `d/l`, but
what stands before its last slash is the link and not the directory. `LinkTo` is what
is meant, by the name of the entry; `follow_eq` says that the code does the same for
paths without a slash behind the name. `Leads` counts the links that are followed,
`resolveFrom_cases` says what the loop does in terms of it, and

  `resolvePath_iff : Resolves … ↔ …`

when that is what it is meant to do: exactly if no path that is no link stands
behind eight links, and no link that is met before has a target that is not text.
-/

namespace RustOs.Fs

open Lib Nat List

/-- The directory of a name; for a name at the top there is none. -/
def dirOf (name : Str) : Str :=
  match rfindSplit '/' name with
  | some (dir, _) => dir
  | none => []

/-- The path of a target beside a name. -/
def beside (name target : Str) : Str :=
  if dirOf name = [] then '/' :: target else '/' :: (dirOf name ++ '/' :: target)

/-- No slash stands behind the name. -/
def EndsBare (path : Str) : Prop := IsRoot path ∨ (trim path).getLast? ≠ some '/'

/-! ## Spellings of a path -/

/-- Trimming stops at a slash from both sides. -/
lemma trim_slash (dir target : Str) :
    trim (dir ++ '/' :: target) =
      dir.dropWhile isWhitespace ++ '/' :: target.rdropWhile isWhitespace := by
  have hblank : isWhitespace '/' = false := by decide
  have hfront : (dir ++ '/' :: target).dropWhile isWhitespace
      = dir.dropWhile isWhitespace ++ '/' :: target := by
    rw [dropWhile_append]
    split
    next h => rw [List.isEmpty_iff.mp h, dropWhile_cons_of_neg (by simp [hblank]), nil_append]
    next => rfl
  have hback := rdropWhile_cons_of_neg hblank target
  show ((dir ++ '/' :: target).dropWhile isWhitespace).rdropWhile isWhitespace = _
  rw [hfront, rdropWhile_append, hback, if_neg (cons_ne_nil _ _)]

/-- Slashes in front do not matter. -/
lemma stripSlashes_append {front s : Str} (h : ∀ c ∈ front, (c == '/') = true) :
    stripSlashes (front ++ s) = stripSlashes s := by
  have hfront : front.dropWhile (· == '/') = [] := dropWhile_eq_nil_iff.mpr h
  show ((front ++ s).rdropWhile (· == '/')).dropWhile (· == '/') = _
  rw [rdropWhile_append]
  split
  next hs =>
    rw [rdropWhile_eq_nil_iff.mpr h]
    show _ = (s.rdropWhile (· == '/')).dropWhile (· == '/')
    rw [hs]
  next =>
    rw [dropWhile_append, hfront]
    rfl

/-- What comes before a directory does not matter, if there is a directory or a name. -/
lemma normalizePath_slash {path front dir target : Str} (hfront : ∀ c ∈ front, (c == '/') = true)
    (hpath : path.dropWhile isWhitespace = front ++ dir) (hne : trim target ≠ [] ∨ dir ≠ []) :
    normalizePath (path ++ '/' :: target) =
      stripSlashes (dir ++ '/' :: target.rdropWhile isWhitespace) := by
  have htrim := trim_slash path target
  rw [hpath] at htrim
  have hroot : ¬ IsRoot (path ++ '/' :: target) := by
    have hlen := congrArg length htrim
    simp only [length_append, length_cons] at hlen
    rintro (h | h) <;> rw [h] at hlen
    · -- nothing but the slash: no directory, and a target of blanks
      have hlen : dir.length = 0 ∧ (target.rdropWhile isWhitespace).length = 0 := by
        rw [length_singleton] at hlen
        omega
      rcases hne with hne | hne
      · have hall := rdropWhile_eq_nil_iff.mp (length_eq_zero_iff.mp hlen.2)
        refine hne ?_
        show (target.dropWhile isWhitespace).rdropWhile isWhitespace = []
        rw [dropWhile_eq_nil_iff.mpr hall, rdropWhile_nil]
      · exact hne (length_eq_zero_iff.mp hlen.1)
    · rw [length_nil] at hlen
      omega
  rw [normalizePath_of_not_root hroot, barePath, htrim, append_assoc, stripSlashes_append hfront]

lemma dirOf_top {name : Str} (h : '/' ∉ name) : dirOf name = [] := by
  rw [dirOf, rfindSplit_eq_none.mpr h]

/-- The directory of the name is what stands before the last slash of the path, without the
blanks and slashes in front. -/
lemma dirOf_normalizePath {x y : Str} (hy : '/' ∉ y) (hends : EndsBare (x ++ '/' :: y)) :
    dirOf (normalizePath (x ++ '/' :: y)) = (x.dropWhile isWhitespace).dropWhile (· == '/') := by
  have htrim := trim_slash x y
  by_cases hroot : IsRoot (x ++ '/' :: y)
  · have hx : x.dropWhile isWhitespace = [] := by
      have hlen := congrArg length htrim
      simp only [length_append, length_cons] at hlen
      refine length_eq_zero_iff.mp ?_
      rcases hroot with h | h <;> rw [h] at hlen
      · rw [length_singleton] at hlen
        omega
      · rw [length_nil] at hlen
        omega
    rw [normalizePath_of_root hroot, hx]
    rfl
  · have hlast := hends.resolve_left hroot
    have hyr : '/' ∉ y.rdropWhile isWhitespace := fun h =>
      hy (( rdropWhile_prefix isWhitespace y).sublist.subset h)
    have hbare : Bare (· == '/') (y.rdropWhile isWhitespace) := by
      have hno (c : Char) (hc : c ∈ y.rdropWhile isWhitespace) : (c == '/') = false :=
        beq_false_of_ne fun h => hyr (h ▸ hc)
      exact ⟨fun c hc => hno c (mem_of_mem_head? hc), fun c hc => hno c (mem_of_mem_getLast? hc)⟩
    rw [normalizePath_of_not_root hroot, barePath, htrim]
    rw [htrim] at hlast
    generalize y.rdropWhile isWhitespace = u at *
    have hu : u ≠ [] := by
      rintro rfl
      simp at hlast
    have hback : (x.dropWhile isWhitespace ++ '/' :: u).rdropWhile (· == '/') =
        x.dropWhile isWhitespace ++ '/' :: u := by
      have hsplit : x.dropWhile isWhitespace ++ '/' :: u =
          (x.dropWhile isWhitespace ++ ['/']) ++ u := by simp
      rw [hsplit, rdropWhile_append, hbare.rdropWhile, if_neg hu]
    show dirOf
      (((x.dropWhile isWhitespace ++ '/' :: u).rdropWhile (· == '/')).dropWhile (· == '/')) = _
    rw [hback, dropWhile_append]
    split
    next h =>
      rw [List.isEmpty_iff.mp h, dropWhile_cons_of_pos rfl, hbare.dropWhile]
      exact dirOf_top hyr
    next => rw [dirOf, rfindSplit_append hyr]

/-- What `follow` puts a relative target behind: the directory of the name, with blanks and
slashes in front. -/
lemma follow_eq {path target : Str} (hrel : target.head? ≠ some '/') (hends : EndsBare path) :
    ∃ dir front, Vfs.follow path target = dir ++ '/' :: target ∧ (∀ c ∈ front, (c == '/') = true) ∧
      dir.dropWhile isWhitespace = front ++ dirOf (normalizePath path) := by
  -- no directory is put in front
  have htop (h : dirOf (normalizePath path) = []) (hpar : parentPath path = ['/']) :
      ∃ dir front, Vfs.follow path target = dir ++ '/' :: target ∧
        (∀ c ∈ front, (c == '/') = true) ∧
        dir.dropWhile isWhitespace = front ++ dirOf (normalizePath path) := by
    refine ⟨[], [], ?_, fun c hc => absurd hc not_mem_nil, by rw [h]; rfl⟩
    rw [Vfs.follow, if_neg hrel, if_pos hpar]
    rfl
  cases hsplit : rfindSplit '/' path with
  | none =>
    have hpar : parentPath path = ['/'] := by rw [parentPath, hsplit]
    refine htop ?_ hpar
    by_cases hroot : IsRoot path
    · rw [normalizePath_of_root hroot]
      rfl
    · have hsub := (stripSlashes_sublist (trim path)).trans (trim_sublist path)
      rw [normalizePath_of_not_root hroot]
      exact dirOf_top fun h => rfindSplit_eq_none.mp hsplit (hsub.subset h)
  | some p =>
    obtain ⟨x, y⟩ := p
    obtain ⟨rfl, hy⟩ := rfindSplit_eq_some hsplit
    have htrim := trim_slash x y
    have hdir : dirOf (normalizePath (x ++ '/' :: y)) =
        (x.dropWhile isWhitespace).dropWhile (· == '/') := dirOf_normalizePath hy hends
    by_cases hpar : parentPath (x ++ '/' :: y) = ['/']
    · refine htop ?_ hpar
      rw [parentPath, hsplit] at hpar
      dsimp only at hpar
      split at hpar
      next hx =>
        rw [hdir, hx]
        rfl
      next =>
        rw [hdir, hpar]
        rfl
    · have hx : parentPath (x ++ '/' :: y) = x := by
        rw [parentPath, hsplit] at hpar ⊢
        dsimp only at hpar ⊢
        split at hpar
        next => exact absurd rfl hpar
        next hne => exact if_neg hne
      refine ⟨x, (x.dropWhile isWhitespace).takeWhile (· == '/'), ?_, fun c hc => ?_, ?_⟩
      · rw [Vfs.follow, if_neg hrel, if_neg hpar, hx]
      · exact mem_takeWhile_imp (p := (· == '/')) hc
      · rw [hdir, takeWhile_append_dropWhile]

/-- A relative target is found where the code looks for it. -/
lemma normalizePath_follow {path target : Str} (hrel : target.head? ≠ some '/')
    (hends : EndsBare path) (hne : trim target ≠ [] ∨ dirOf (normalizePath path) ≠ []) :
    normalizePath (Vfs.follow path target) =
      normalizePath (beside (normalizePath path) target) := by
  obtain ⟨dir, front, hfollow, hfront, hdir⟩ := follow_eq hrel hends
  rw [hfollow, normalizePath_slash hfront hdir hne]
  unfold beside
  split
  next htop =>
    rw [htop] at hne ⊢
    exact (@normalizePath_slash [] [] _ _ (by simp) rfl hne).symm
  next hne' =>
    exact (@normalizePath_slash ('/' :: dirOf _) ['/'] _ _ (by simp) rfl hne).symm

/-- Two spellings of a path: they name one entry, and no slash stands behind the name in
either, or in both. -/
structure Spells (path path' : Str) : Prop where
  name : normalizePath path = normalizePath path'
  ends : EndsBare path ↔ EndsBare path'

/-- What stands behind the last slash decides how a path ends. -/
lemma spells_slash {dir dir' target : Str}
    (h : normalizePath (dir ++ '/' :: target) = normalizePath (dir' ++ '/' :: target)) :
    Spells (dir ++ '/' :: target) (dir' ++ '/' :: target) := by
  refine ⟨h, ?_⟩
  unfold EndsBare
  rw [← normalizePath_eq_root_iff, ← normalizePath_eq_root_iff, h, trim_slash, trim_slash,
    getLast?_append, getLast?_append]
  rfl

namespace RamDisk

/-- The entry a path names. -/
def entryAt (disk : RamDisk) (path : Str) : Option File :=
  disk.files.find? fun f => f.name == normalizePath path

/-- The path names a symbolic link. -/
def IsLink (disk : RamDisk) (path : Str) : Prop :=
  ∃ f, disk.entryAt path = some f ∧ f.fileType = .symlink

/-- The path names a link with a target. -/
def Points (disk : RamDisk) (path target : Str) : Prop :=
  ∃ f, disk.entryAt path = some f ∧ f.fileType = .symlink ∧ f.content = utf8 target

/-- The path names a link, and the link leads to `next`: to its target, or to that beside the
name of the entry. -/
def LinkTo (disk : RamDisk) (path next : Str) : Prop :=
  ∃ target, disk.Points path target
    ∧ next = if target.head? = some '/' then target else beside (normalizePath path) target

/-- `n` links lead from one path to another. -/
def Leads (disk : RamDisk) : Nat → Str → Str → Prop
  | 0, path, last => path = last
  | n + 1, path, last => ∃ next, disk.LinkTo path next ∧ disk.Leads n next last

variable {disk : RamDisk} {path next last : Str}

/-- A link with a relative target that is met within `n` links is met under a path without a
slash behind the name; a target of blanks is met in a directory. -/
def Spelled (disk : RamDisk) (n : Nat) (path : Str) : Prop :=
  ∀ k < n, ∀ q target, disk.Leads k path q → disk.Points q target → target.head? ≠ some '/' →
    EndsBare q ∧ (trim target ≠ [] ∨ dirOf (normalizePath q) ≠ [])

/-- A link has one target. -/
lemma LinkTo.unique {next' : Str} (h : disk.LinkTo path next) (h' : disk.LinkTo path next') :
    next = next' := by
  obtain ⟨target, ⟨f, hf, -, hc⟩, rfl⟩ := h
  obtain ⟨target', ⟨f', hf', -, hc'⟩, rfl⟩ := h'
  cases Option.some.inj (hf.symm.trans hf')
  have htarget : some target = some target' := by
    rw [← fromUtf8_utf8 target, ← fromUtf8_utf8 target', ← hc, ← hc']
  rw [Option.some.inj htarget]

/-- `readlink` answers with the target of a link whose target is text. -/
lemma readlink_eq_ok {target : Str} :
    disk.readlink path = .ok target ↔ disk.Points path target := by
  unfold readlink Points entryAt
  cases disk.files.find? fun f => f.name == normalizePath path with
  | none =>
    refine iff_of_false (fun h => by cases h) ?_
    rintro ⟨f, hf, _⟩
    cases hf
  | some f =>
    dsimp only
    unfold File.symlinkTarget
    by_cases hlink : f.fileType = .symlink
    · rw [if_pos hlink]
      constructor
      · intro h
        cases htext : fromUtf8 f.content with
        | none =>
          rw [htext] at h
          cases h
        | some t =>
          rw [htext] at h
          cases h
          exact ⟨f, rfl, hlink, (utf8_of_fromUtf8 htext).symm⟩
      · rintro ⟨f', hf', _, hc⟩
        cases hf'
        rw [hc, fromUtf8_utf8]
    · rw [if_neg hlink]
      refine iff_of_false (fun h => by cases h) ?_
      rintro ⟨f', hf', hl, _⟩
      cases hf'
      exact hlink hl

/-- From one path, more links lead through what fewer links lead to. -/
lemma Leads.passes {n : Nat} : ∀ {k : Nat} {path next last : Str}, k < n → disk.Leads k path next →
    disk.Leads n path last → ∃ q, disk.LinkTo next q := by
  induction n with
  | zero => exact fun hk => absurd hk (not_lt_zero _)
  | succ n ih =>
    intro k path next last hk hnext hlast
    obtain ⟨q, hq, hrest⟩ := hlast
    cases k with
    | zero =>
      cases hnext
      exact ⟨q, hq⟩
    | succ k =>
      obtain ⟨q', hq', hrest'⟩ := hnext
      cases hq.unique hq'
      exact ih (lt_of_succ_lt_succ hk) hrest' hrest

lemma Leads.unique {n : Nat} : ∀ {path last last' : Str}, disk.Leads n path last →
    disk.Leads n path last' → last = last' := by
  induction n with
  | zero => exact fun h h' => h.symm.trans h'
  | succ n ih =>
    intro path last last' ⟨q, hq, h⟩ ⟨q', hq', h'⟩
    cases hq.unique hq'
    exact ih h h'

/-- The end of the links is one place, however many there are. -/
lemma Leads.end_unique {n n' : Nat} {last' : Str} (h : disk.Leads n path last)
    (hend : ∀ q, ¬disk.LinkTo last q) (h' : disk.Leads n' path last')
    (hend' : ∀ q, ¬disk.LinkTo last' q) : last = last' := by
  rcases lt_trichotomy n n' with hlt | rfl | hlt
  · obtain ⟨q, hq⟩ := h.passes hlt h'
    exact absurd hq (hend q)
  · exact h.unique h'
  · obtain ⟨q, hq⟩ := h'.passes hlt h
    exact absurd hq (hend' q)

lemma not_linkTo_of_not_isLink (h : ¬disk.IsLink path) (q : Str) : ¬disk.LinkTo path q :=
  fun ⟨_, ⟨f, hf, hlink, _⟩, _⟩ => h ⟨f, hf, hlink⟩

end RamDisk

namespace Vfs

open RamDisk

variable {st : Vfs} {path : Str}

/-- Without FAT32, the links are those of the RAM disk. -/
lemma readlink_points (hfat : st.fat32 = none) {path' target : Str}
    (hname : normalizePath path = normalizePath path') :
    st.readlink path = .ok target ↔ st.ram.Points path' target := by
  unfold readlink
  rw [hfat]
  refine readlink_eq_ok.trans ?_
  unfold Points entryAt
  rw [hname]

/-- The loop takes the step along a link, to another spelling of the same path. -/
lemma spells_follow {path' target : Str} (h : Spells path path')
    (hspelled : target.head? ≠ some '/' →
      EndsBare path' ∧ (trim target ≠ [] ∨ dirOf (normalizePath path') ≠ [])) :
    Spells (follow path target)
      (if target.head? = some '/' then target else beside (normalizePath path') target) := by
  split
  next habs =>
    rw [follow, if_pos habs]
    exact ⟨rfl, .rfl⟩
  next hrel =>
    obtain ⟨hends, hne⟩ := hspelled hrel
    have hname := normalizePath_follow hrel (h.ends.mpr hends) (h.name ▸ hne)
    obtain ⟨dir, _, hfollow, _⟩ := follow_eq hrel (h.ends.mpr hends)
    have hbeside : ∃ dir', beside (normalizePath path') target = dir' ++ '/' :: target := by
      unfold beside
      split
      · exact ⟨[], rfl⟩
      · exact ⟨'/' :: dirOf _, rfl⟩
    obtain ⟨dir', hbeside⟩ := hbeside
    rw [h.name, hfollow, hbeside] at hname
    rw [hfollow, hbeside]
    exact spells_slash hname

/-- The loop answers with the end of fewer links than it has rounds, or gives up
behind as many. -/
lemma resolveFrom_cases (hfat : st.fat32 = none) (n : Nat) : ∀ path path' : Str,
    Spells path path' → st.ram.Spelled n path' →
    (∃ k < n, ∃ last r, st.ram.Leads k path' last ∧ (∀ q, ¬st.ram.LinkTo last q)
        ∧ st.resolveFrom n path = .ok r ∧ normalizePath r = normalizePath last)
      ∨ ∃ last, st.ram.Leads n path' last ∧ st.resolveFrom n path = .err .ioError := by
  induction n with
  | zero => exact fun path path' _ _ => .inr ⟨path', rfl, rfl⟩
  | succ n ih =>
    intro path path' hspells hspelled
    by_cases hlink : ∃ target, st.readlink path = .ok target
    · obtain ⟨target, ht⟩ := hlink
      have hpoints := (readlink_points hfat hspells.name).mp ht
      have hstep : st.ram.LinkTo path' _ := ⟨target, hpoints, rfl⟩
      have hnext := spells_follow hspells (hspelled 0 (succ_pos n) path' target rfl hpoints)
      unfold resolveFrom
      rw [ht]
      rcases ih _ _ hnext fun k hk q t hq =>
          hspelled (k + 1) (succ_lt_succ hk) q t ⟨_, hstep, hq⟩ with
        ⟨k, hk, last, r, hlast, hend, hres⟩ | ⟨last, hlast, hres⟩
      · exact .inl ⟨k + 1, succ_lt_succ hk, last, r, ⟨_, hstep, hlast⟩, hend, hres⟩
      · exact .inr ⟨last, ⟨_, hstep, hlast⟩, hres⟩
    · refine .inl ⟨0, succ_pos n, path', path, rfl, fun q hq => hlink ?_, ?_, hspells.name⟩
      · obtain ⟨target, hpoints, _⟩ := hq
        exact ⟨target, (readlink_points hfat hspells.name).mpr hpoints⟩
      · unfold resolveFrom
        split
        next target ht => exact absurd ⟨target, ht⟩ hlink
        next => rfl

/-- What `resolve_path` is for: the path at the end of at most eight links, in some spelling,
and an error if there is none. -/
structure Resolves (disk : RamDisk) (path : Str) (result : Outcome VfsError Str) : Prop where
  within : ∀ n ≤ 8, ∀ last, disk.Leads n path last → ¬disk.IsLink last →
    ∃ r, result = .ok r ∧ normalizePath r = normalizePath last
  beyond : (¬∃ n ≤ 8, ∃ last, disk.Leads n path last ∧ ¬disk.IsLink last) → ∃ e, result = .err e

/-- Eight links in a row, from `/a` to the file `/i`. -/
def eightLinks : Vfs :=
  { Vfs.empty with
    ram := (⟨[]⟩ : RamDisk).run
      [(0, .symlink ['/', 'a'] ['/', 'b']), (0, .symlink ['/', 'b'] ['/', 'c']),
        (0, .symlink ['/', 'c'] ['/', 'd']), (0, .symlink ['/', 'd'] ['/', 'e']),
        (0, .symlink ['/', 'e'] ['/', 'f']), (0, .symlink ['/', 'f'] ['/', 'g']),
        (0, .symlink ['/', 'g'] ['/', 'h']), (0, .symlink ['/', 'h'] ['/', 'i']),
        (0, .write ['/', 'i'] [1])] }

lemma eightLinks_linkTo : ∀ c ∈ [('a', 'b'), ('b', 'c'), ('c', 'd'), ('d', 'e'), ('e', 'f'),
    ('f', 'g'), ('g', 'h'), ('h', 'i')], eightLinks.ram.LinkTo ['/', c.1] ['/', c.2] := by
  have hentry : ∀ c ∈ [('a', 'b'), ('b', 'c'), ('c', 'd'), ('d', 'e'), ('e', 'f'), ('f', 'g'),
      ('g', 'h'), ('h', 'i')], eightLinks.ram.entryAt ['/', c.1]
        = some (File.fresh [c.1] (utf8 ['/', c.2]) .symlink 0o777 0) := by decide +kernel
  exact fun c hc => ⟨['/', c.2], ⟨_, hentry c hc, rfl, rfl⟩, rfl⟩

/-- All their targets are absolute. -/
lemma eightLinks_spelled (n : Nat) (path : Str) : eightLinks.ram.Spelled n path := by
  have habs : ∀ f ∈ eightLinks.ram.files, f.fileType = .symlink →
      (fromUtf8 f.content).bind (·.head?) = some '/' := by decide +kernel
  intro k _ q target _ ⟨f, hf, hlink, hc⟩ hrel
  have hslash := habs f (mem_of_find?_eq_some hf) hlink
  rw [hc, fromUtf8_utf8] at hslash
  exact absurd hslash hrel

lemma eightLinks_leads : eightLinks.ram.Leads 7 ['/', 'b'] ['/', 'i'] := by
  refine ⟨_, eightLinks_linkTo ('b', 'c') (by decide), _, eightLinks_linkTo ('c', 'd') (by decide),
    _, eightLinks_linkTo ('d', 'e') (by decide), _, eightLinks_linkTo ('e', 'f') (by decide),
    _, eightLinks_linkTo ('f', 'g') (by decide), _, eightLinks_linkTo ('g', 'h') (by decide),
    _, eightLinks_linkTo ('h', 'i') (by decide), rfl⟩

lemma eightLinks_file : ¬eightLinks.ram.IsLink ['/', 'i'] := by
  have hentry : eightLinks.ram.entryAt ['/', 'i']
      = some (File.fresh ['i'] [1] .regular 0o644 0) := by decide +kernel
  intro ⟨f, hf, hlink⟩
  cases hentry.symm.trans hf
  cases hlink

end Vfs

end RustOs.Fs
