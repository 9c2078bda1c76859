import RustOs.Fs.RamPaths
import RustOs.Lib.Trace

/-!
# The RAM disk as a tree

The RAM disk keeps whole paths in one flat list. It is a tree if the names are
distinct, every entry whose name has a slash in it lies in a directory that is
stored, and every entry is found by descending from the root with `list_dir`
(`Tree`).

`mkdir` and `symlink` ask for the parent, `write` and `rename` do not, `symlink`
takes `/` itself for a name, and `rename` moves a directory without what lies in it.
And a directory whose name ends in a blank is listed, but its path is not its own
(see `Fs.RamPaths`): what lies in it is not found. `Op.Suits` says when a call does
none of that, and

  `ramTree_iff : Always … Tree … ↔ Along … Suits …`

that a sequence of calls keeps the tree exactly if every call suits.
-/

namespace RustOs.Fs.RamDisk

open Lib List

variable {dir name : Str} {f : File}

/-! ## Trees -/

/-- `list_dir` of the path shows the entry. -/
def Shows (disk : RamDisk) (path : Str) (f : File) : Prop :=
  ∃ entries name, disk.listed path = .ok entries ∧ (f, name) ∈ entries

/-- The name lies directly in the directory. -/
def InDir (dir name : Str) : Prop := ∃ base, rfindSplit '/' name = some (dir, base)

/-- The entry is found by descending from the root: it is shown there, or it is shown
by its directory, which is found. -/
inductive Reached (disk : RamDisk) : File → Prop where
  | top {f : File} (h : disk.Shows ['/'] f) : Reached disk f
  | inside {g f : File} (hg : Reached disk g) (hdir : g.isDirectory = true)
      (hin : InDir g.name f.name)
      (h : disk.Shows ('/' :: g.name) f) : Reached disk f

/-- The disk is a tree. -/
structure Tree (disk : RamDisk) : Prop where
  unique : (disk.files.map (·.name)).Nodup
  rooted : ∀ f ∈ disk.files, ∀ dir, InDir dir f.name → disk.hasDir dir = true
  reached : ∀ f ∈ disk.files, disk.Reached f

/-- The name of a directory that can be descended into. -/
def Plain (name : Str) : Prop := ∃ c, name.getLast? = some c ∧ isWhitespace c = false

/-- The place of a name: the root, or a directory that is stored and can be
descended into. -/
def Home (disk : RamDisk) (name : Str) : Prop :=
  ∀ dir, InDir dir name → disk.hasDir dir = true ∧ Plain dir

/-- The names that `normalize_path` makes. -/
def Normal (disk : RamDisk) : Prop := ∀ f ∈ disk.files, f.name = ['/'] ∨ Bare (· == '/') f.name

/-- A call keeps the tree a tree: a new name has its place, and an entry that moves
leaves nothing behind that lay in it. -/
def Op.Suits (op : Op) (disk : RamDisk) : Prop :=
  match op.change disk with
  | .none => True
  | .add name => disk.Home name
  | .move old new =>
    (∀ f ∈ disk.files, ¬InDir old f.name) ∧ ¬InDir old new ∧ disk.Home new

variable {disk : RamDisk}

lemma InDir.eq (h : InDir dir name) : ∃ base, name = dir ++ '/' :: base ∧ '/' ∉ base := by
  obtain ⟨base, hsplit⟩ := h
  exact ⟨base, rfindSplit_eq_some hsplit⟩

lemma rfindSplit_append {base : Str} (h : '/' ∉ base) :
    rfindSplit '/' (dir ++ '/' :: base) = some (dir, base) := by
  induction dir with
  | nil =>
    rw [nil_append, rfindSplit, rfindSplit_eq_none.mpr h]
    exact if_pos rfl
  | cons c dir ih => rw [cons_append, rfindSplit, ih]

lemma InDir.unique {dir' : Str} (h : InDir dir name) (h' : InDir dir' name) : dir = dir' := by
  obtain ⟨base, h⟩ := h
  obtain ⟨base', h'⟩ := h'
  cases h.symm.trans h'
  rfl

lemma InDir.length_lt (h : InDir dir name) : dir.length < name.length := by
  obtain ⟨base, rfl, -⟩ := h.eq
  rw [length_append, length_cons]
  omega

/-- A name without a slash lies in no directory. -/
lemma not_inDir_iff : (∀ dir, ¬InDir dir name) ↔ '/' ∉ name := by
  rw [← rfindSplit_eq_none]
  constructor
  · intro h
    cases hsplit : rfindSplit '/' name with
    | none => rfl
    | some p => exact absurd ⟨p.2, hsplit⟩ (h p.1)
  · intro h dir ⟨base, hsplit⟩
    exact nomatch h.symm.trans hsplit

lemma hasDir_eq_true :
    disk.hasDir name = true ↔ ∃ f ∈ disk.files, f.name = name ∧ f.isDirectory = true := by
  simp [hasDir]

/-! ## What is listed -/

/-- What `list_directory` shows. -/
lemma shows_iff {path : Str} : disk.Shows path f
    ↔ f ∈ disk.files ∧ (normalizePath path = ['/'] ∨ disk.hasDir (normalizePath path) = true)
      ∧ childName (listPrefix (normalizePath path)) f.name ≠ none := by
  unfold Shows listed
  by_cases hno : normalizePath path ≠ ['/'] ∧ disk.hasDir (normalizePath path) = false
  · rw [if_pos hno]
    refine iff_of_false (fun ⟨_, _, h, _⟩ => nomatch h) fun ⟨_, h, _⟩ => ?_
    rcases h with h | h
    · exact hno.1 h
    · exact nomatch hno.2.symm.trans h
  · rw [if_neg hno]
    have hdir : normalizePath path = ['/'] ∨ disk.hasDir (normalizePath path) = true := by
      by_contra h
      rw [not_or, Bool.not_eq_true] at h
      exact hno h
    rw [and_iff_right hdir]
    constructor
    · intro ⟨entries, name, heq, hmem⟩
      cases heq
      obtain ⟨g, hg, hname⟩ := mem_filterMap.mp hmem
      obtain ⟨n, hn, hpair⟩ := Option.map_eq_some_iff.mp hname
      cases hpair
      rw [hn]
      exact ⟨hg, nofun⟩
    · intro ⟨hf, hname⟩
      obtain ⟨n, hn⟩ := Option.ne_none_iff_exists'.mp hname
      refine ⟨_, n, rfl, mem_filterMap.mpr ⟨f, hf, ?_⟩⟩
      rw [hn]
      rfl

lemma childName_root : childName [] name ≠ none ↔ '/' ∉ name := by
  unfold childName
  by_cases h : '/' ∈ name <;> simp

lemma childName_dir : childName (dir ++ ['/']) name ≠ none ↔ InDir dir name := by
  unfold childName
  rw [if_neg (by simp)]
  constructor
  · intro h
    split at h
    next hpre =>
      obtain ⟨base, rfl⟩ := isPrefixOf_iff_prefix.mp hpre
      split at h
      next => exact absurd rfl h
      next hbase =>
        rw [append_assoc]
        exact ⟨_, rfindSplit_append (by simpa using hbase)⟩
    next => exact absurd rfl h
  · intro h
    obtain ⟨base, rfl, hbase⟩ := h.eq
    have heq : dir ++ '/' :: base = (dir ++ ['/']) ++ base := by rw [append_assoc]; rfl
    rw [heq, if_pos ( isPrefixOf_iff_prefix.mpr (prefix_append _ _)), drop_left,
      if_neg (by simpa using hbase)]
    exact nofun

/-- The root shows the names without a slash. -/
lemma shows_root : disk.Shows ['/'] f ↔ f ∈ disk.files ∧ '/' ∉ f.name := by
  rw [shows_iff, normalizePath_root, listPrefix, if_pos rfl, childName_root]
  simp

/-- A directory shows what lies directly in it. -/
lemma shows_dir {path : Str} (hne : normalizePath path ≠ ['/']) :
    disk.Shows path f ↔ f ∈ disk.files ∧ disk.hasDir (normalizePath path) = true
      ∧ InDir (normalizePath path) f.name := by
  rw [shows_iff, listPrefix, if_neg hne, childName_dir, or_iff_right hne]

/-! ## Names that can be descended into -/

lemma trim_slash (name : Str) : trim ('/' :: name) = '/' :: name.rdropWhile isWhitespace := by
  have hfront : ('/' :: name).dropWhile isWhitespace = '/' :: name :=
    dropWhile_cons_of_neg (by decide)
  show (('/' :: name).dropWhile isWhitespace).rdropWhile isWhitespace = _
  rw [hfront, rdropWhile_cons_of_neg (by decide)]

lemma stripSlashes_slash_sublist (s : Str) : (stripSlashes ('/' :: s)).Sublist s := by
  rcases sublist_cons_iff.mp (stripSlashes_sublist ('/' :: s)) with h | ⟨r, hr, -⟩
  · exact h
  · exact nomatch (stripSlashes_bare ('/' :: s)).head '/' (hr ▸ rfl)

/-- The path of a directory is its own exactly if its name does not end in a
blank. -/
lemma normalizePath_slash_iff (hbare : Bare (· == '/') name) :
    normalizePath ('/' :: name) = name ↔ Plain name := by
  constructor
  · intro h
    by_cases hroot : IsRoot ('/' :: name)
    · rw [normalizePath_of_root hroot] at h
      exact absurd h.symm (ne_root_of_bare hbare)
    · rw [normalizePath_of_not_root hroot, barePath, trim_slash] at h
      -- nothing was lost, so there was no blank to trim
      have hlen := (stripSlashes_slash_sublist (name.rdropWhile isWhitespace)).length_le
      rw [h] at hlen
      have hkeep : name.rdropWhile isWhitespace = name :=
        ( rdropWhile_prefix isWhitespace name).eq_of_length_le hlen
      cases hlast : name.getLast? with
      | none =>
        rw [getLast?_eq_none_iff] at hlast
        rw [hlast] at hroot
        exact absurd (.inl (by decide)) hroot
      | some c => exact ⟨c, hlast, last_rdropWhile (s := name) (hkeep.symm ▸ hlast)⟩
  · rintro ⟨c, hlast, hc⟩
    have hkeep : name.rdropWhile isWhitespace = name := by
      rw [rdropWhile_eq_self_iff]
      intro hne
      rw [getLast?_eq_getLast_of_ne_nil hne] at hlast
      rw [Option.some.inj hlast, hc]
      exact Bool.false_ne_true
    have hne : name ≠ [] := by
      intro h
      rw [h] at hlast
      cases hlast
    have htrim : trim ('/' :: name) = '/' :: name := by rw [trim_slash, hkeep]
    have hroot : ¬IsRoot ('/' :: name) := by
      unfold IsRoot
      rw [htrim]
      simp [hne]
    have hback : ('/' :: name).rdropWhile (· == '/') = '/' :: name := by
      rw [rdropWhile_eq_self_iff]
      intro _
      rw [getLast_cons hne, hbare.last _ (getLast?_eq_getLast_of_ne_nil hne)]
      exact Bool.false_ne_true
    have hfront : ('/' :: name).dropWhile (· == '/') = name := by
      exact hbare.dropWhile
    rw [normalizePath_of_not_root hroot, barePath, htrim]
    show (('/' :: name).rdropWhile (· == '/')).dropWhile (· == '/') = name
    rw [hback, hfront]

/-! ## Trees by the place of each name -/

lemma Reached.mem (h : disk.Reached f) : f ∈ disk.files := by
  cases h with
  | top h => exact (shows_iff.mp h).1
  | inside _ _ _ h => exact (shows_iff.mp h).1

/-- A directory that shows what lies in it can be descended into. -/
lemma plain_of_shows {g : File} (hn : disk.Normal) (hg : g ∈ disk.files)
    (hin : InDir g.name f.name) (h : disk.Shows ('/' :: g.name) f) : Plain g.name := by
  have hroot : normalizePath ('/' :: g.name) ≠ ['/'] := by
    intro hroot
    have hchild := (shows_iff.mp h).2.2
    rw [hroot, listPrefix, if_pos rfl, childName_root] at hchild
    exact not_inDir_iff.mpr hchild _ hin
  have hself : normalizePath ('/' :: g.name) = g.name := ((shows_dir hroot).mp h).2.2.unique hin
  rcases hn g hg with hname | hbare
  · exact absurd (hself.trans hname) hroot
  · exact (normalizePath_slash_iff hbare).mp hself

/-- The disk is a tree exactly if its names are distinct and each has its place. -/
lemma tree_iff (hn : disk.Normal) :
    disk.Tree ↔ (disk.files.map (·.name)).Nodup ∧ ∀ f ∈ disk.files, disk.Home f.name := by
  constructor
  · intro h
    refine ⟨h.unique, fun f hf dir hdir => ⟨h.rooted f hf dir hdir, ?_⟩⟩
    cases h.reached f hf with
    | top htop => exact absurd hdir (not_inDir_iff.mpr (shows_root.mp htop).2 dir)
    | inside hg _ hin hshows =>
      rw [hdir.unique hin]
      exact plain_of_shows hn hg.mem hin hshows
  · intro ⟨hunique, hhome⟩
    refine ⟨hunique, fun f hf dir hdir => (hhome f hf dir hdir).1, fun f => ?_⟩
    -- by the length of the name: a directory has a shorter one
    induction hlen : f.name.length using Nat.strong_induction_on generalizing f with
    | _ n ih =>
      intro hf
      by_cases hslash : '/' ∈ f.name
      · obtain ⟨dir, hdir⟩ : ∃ dir, InDir dir f.name := by
          by_contra hno
          exact not_inDir_iff.mp (not_exists.mp hno) hslash
        obtain ⟨hstored, hplain⟩ := hhome f hf dir hdir
        obtain ⟨g, hg, rfl, hgdir⟩ := hasDir_eq_true.mp hstored
        have hshort := hdir.length_lt
        have hbare : Bare (· == '/') g.name := by
          rcases hn g hg with hname | hbare
          · -- nothing lies in an entry with the name of the root
            obtain ⟨base, hsplit, -⟩ := hdir.eq
            rw [hname] at hsplit hshort
            rcases hn f hf with hfname | hfbare
            · rw [hfname] at hshort
              exact absurd hshort (by decide)
            · rw [hsplit] at hfbare
              exact nomatch hfbare.head '/' rfl
          · exact hbare
        have hself := (normalizePath_slash_iff hbare).mpr hplain
        refine .inside (ih _ (hlen ▸ hshort) g rfl hg) hgdir hdir ?_
        have hroot : normalizePath ('/' :: g.name) ≠ ['/'] := by
          rw [hself]
          exact ne_root_of_bare hbare
        rw [shows_dir hroot, hself]
        exact ⟨hf, hstored, hdir⟩
      · exact .top (shows_root.mpr ⟨hf, hslash⟩)

/-! ## What a call does to the tree -/

lemma childPrefix_of_inDir (h : InDir dir name) : (childPrefix dir).isPrefixOf name = true := by
  obtain ⟨base, rfl, -⟩ := h.eq
  rw [ isPrefixOf_iff_prefix, childPrefix]
  split
  next => exact prefix_append _ _
  next => exact ⟨base, by rw [append_assoc]; rfl⟩

section
variable (hn : disk.Normal)
include hn

/-- The names stay normal. -/
lemma Normal.step (now : Nat) (op : Op) : (op.run now disk).2.Normal := by
  have hpath : ∀ path, normalizePath path = ['/'] ∨ Bare (· == '/') (normalizePath path) := by
    intro path
    by_cases h : normalizePath path = ['/']
    · exact .inl h
    · exact .inr (normalizePath_bare h)
  have heffect := op.effect disk now
  generalize (op.run now disk).2 = disk' at heffect
  intro f hf
  cases heffect with
  | add g h =>
    obtain ⟨-, path, hname⟩ := Op.change_add h
    rcases mem_append.mp hf with hf | hf
    · exact hn f hf
    · rw [mem_singleton.mp hf, hname]
      exact hpath path
  | move old new h =>
    obtain ⟨-, -, path, rfl⟩ := Op.change_move h
    rcases mem_updateFirst hf with hf | ⟨g, -, -, rfl⟩
    · exact hn f hf
    · exact hpath path
  | drop p _ _ => exact hn f (mem_of_mem_eraseP hf)
  | keep _ _ hsame =>
    have hmem : (f.name, f.isDirectory) ∈ disk.files.map fun f => (f.name, f.isDirectory) :=
      hsame ▸ mem_map_of_mem hf
    obtain ⟨g, hg, heq⟩ := mem_map.mp hmem
    rw [← (Prod.mk.inj heq).1]
    exact hn g hg

variable (ht : disk.Tree)
include ht

/-- A new entry keeps the tree exactly if it has its place. -/
lemma tree_push (hfresh : disk.has f.name = false)
    (hn' : Normal ⟨disk.files ++ [f]⟩) : Tree ⟨disk.files ++ [f]⟩ ↔ disk.Home f.name := by
  obtain ⟨hunique, hhome⟩ := (tree_iff hn).mp ht
  rw [tree_iff hn']
  constructor
  · intro ⟨_, h⟩ dir hdir
    obtain ⟨hstored, hplain⟩ := h f (mem_append_right _ (mem_singleton_self f)) dir hdir
    refine ⟨?_, hplain⟩
    obtain ⟨g, hg, rfl, hgdir⟩ := hasDir_eq_true.mp hstored
    rcases mem_append.mp hg with hg | hg
    · exact hasDir_eq_true.mpr ⟨g, hg, rfl, hgdir⟩
    · rw [mem_singleton.mp hg] at hdir
      exact absurd hdir.length_lt (Nat.lt_irrefl _)
  · intro hf
    have hmono : ∀ name, disk.Home name → Home ⟨disk.files ++ [f]⟩ name := by
      intro name h dir hdir
      obtain ⟨g, hg, hname, hgdir⟩ := hasDir_eq_true.mp (h dir hdir).1
      exact ⟨hasDir_eq_true.mpr ⟨g, mem_append_left _ hg, hname, hgdir⟩, (h dir hdir).2⟩
    refine ⟨nodup_push _ hunique (has_eq_false.mp hfresh), fun g hg => hmono _ ?_⟩
    rcases mem_append.mp hg with hg | hg
    · exact hhome g hg
    · rw [mem_singleton.mp hg]
      exact hf

/-- Only names and directories matter. -/
lemma tree_congr {disk' : RamDisk} (hn' : disk'.Normal)
    (hsame : disk'.files.map (fun f => (f.name, f.isDirectory))
      = disk.files.map fun f => (f.name, f.isDirectory)) : disk'.Tree := by
  obtain ⟨hunique, hhome⟩ := (tree_iff hn).mp ht
  have hnames := congrArg (List.map Prod.fst) hsame
  have hdirs : ∀ dir, disk'.hasDir dir = disk.hasDir dir := by
    intro dir
    have h := congrArg (List.any · fun k => k.1 == dir && k.2) hsame
    simp only [any_map] at h
    exact h
  rw [map_map, map_map] at hnames
  refine (tree_iff hn').mpr ⟨hnames ▸ hunique, fun f hf => ?_⟩
  have hmem : f.name ∈ disk.files.map (·.name) := hnames ▸ mem_map_of_mem hf
  obtain ⟨g, hg, hgname⟩ := mem_map.mp hmem
  intro dir hdir
  rw [hdirs]
  exact hhome g hg dir (hgname ▸ hdir)

/-- An entry with nothing in it can go. -/
lemma tree_erase {p : File → Bool} (hn' : Normal ⟨disk.files.eraseP p⟩)
    (h : ∀ f ∈ disk.files, p f = true → f.isDirectory = true →
      ∀ g ∈ disk.files, ¬InDir f.name g.name) : Tree ⟨disk.files.eraseP p⟩ := by
  obtain ⟨hunique, hhome⟩ := (tree_iff hn).mp ht
  refine (tree_iff hn').mpr ⟨nodup_eraseP _ hunique p, fun f hf dir hdir => ?_⟩
  have hmem := mem_of_mem_eraseP hf
  obtain ⟨hstored, hplain⟩ := hhome f hmem dir hdir
  obtain ⟨g, hg, rfl, hgdir⟩ := hasDir_eq_true.mp hstored
  refine ⟨hasDir_eq_true.mpr ⟨g, (mem_eraseP_of_neg fun hp => ?_).mpr hg, rfl, hgdir⟩, hplain⟩
  exact h g hg hp hgdir f hmem hdir

/-- An entry that moves to a free name keeps the tree exactly if nothing lies in its
old place, the new one included, and the new one is a place. -/
lemma tree_move {old new : Str} (hfresh : disk.has new = false) (hhas : disk.has old = true)
    (hn' : Normal ⟨updateFirst (fun f => f.name == old) (fun f => { f with name := new })
      disk.files⟩) :
    Tree ⟨updateFirst (fun f => f.name == old) (fun f => { f with name := new }) disk.files⟩
      ↔ (∀ f ∈ disk.files, ¬InDir old f.name) ∧ ¬InDir old new ∧ disk.Home new := by
  obtain ⟨hunique, hhome⟩ := (tree_iff hn).mp ht
  have hne : new ≠ old := by
    intro h
    rw [h] at hfresh
    exact nomatch hfresh.symm.trans hhas
  have hnodup := nodup_updateFirst File.name hunique (p := fun f => f.name == old)
    (f := fun f => { f with name := new }) fun _ _ _ => .inr (has_eq_false.mp hfresh)
  obtain ⟨A, f, B, hl, hname, hother, heq⟩ := move_split hunique hhas new
  rw [heq] at hn' hnodup ⊢
  rw [tree_iff hn']
  have hold : ∀ g, g ∈ disk.files ↔ g = f ∨ g ∈ A ++ B := fun _ => hl ▸ mem_middle
  -- elsewhere the same directories are stored
  have hdirs : ∀ dir, dir ≠ old → dir ≠ new →
      (hasDir ⟨A ++ { f with name := new } :: B⟩ dir = true
        ↔ disk.hasDir dir = true) := by
    intro dir hd he
    rw [hasDir_eq_true, hasDir_eq_true]
    constructor
    · intro ⟨g, hg, hgname, hgdir⟩
      rcases mem_middle.mp hg with rfl | hg
      · exact absurd hgname.symm he
      · exact ⟨g, (hold g).mpr (.inr hg), hgname, hgdir⟩
    · intro ⟨g, hg, hgname, hgdir⟩
      rcases (hold g).mp hg with rfl | hg
      · exact absurd (hgname.symm.trans hname) hd
      · exact ⟨g, mem_middle.mpr (.inr hg), hgname, hgdir⟩
  have hself : ∀ name, ¬InDir name name := fun name h => Nat.lt_irrefl _ h.length_lt
  constructor
  · intro ⟨_, hplace⟩
    -- the old name is gone, so nothing can lie in it
    have hgone : ∀ name, Home ⟨A ++ { f with name := new } :: B⟩ name → ¬InDir old name := by
      intro name h hin
      obtain ⟨g, hg, hgname, -⟩ := hasDir_eq_true.mp (h _ hin).1
      rcases mem_middle.mp hg with rfl | hg
      · exact hne hgname
      · exact hother g hg hgname
    have hnew := hplace _ (mem_middle.mpr (.inl rfl))
    refine ⟨fun g hg => ?_, hgone _ hnew, fun dir hdir => ?_⟩
    · rcases (hold g).mp hg with rfl | hg
      · rw [hname]
        exact hself _
      · exact hgone _ (hplace g (mem_middle.mpr (.inr hg)))
    · obtain ⟨hstored, hplain⟩ := hnew dir hdir
      refine ⟨(hdirs dir ?_ ?_).mp hstored, hplain⟩
      · exact fun h => hgone _ hnew (h ▸ hdir)
      · exact fun h => hself _ (h ▸ hdir)
  · intro ⟨hempty, hout, hnew⟩
    refine ⟨hnodup, fun g hg dir hdir => ?_⟩
    rcases mem_middle.mp hg with rfl | hg
    · obtain ⟨hstored, hplain⟩ := hnew dir hdir
      refine ⟨(hdirs dir ?_ ?_).mpr hstored, hplain⟩
      · exact fun h => hout (h ▸ hdir)
      · exact fun h => hself _ (h ▸ hdir)
    · have hmem := (hold g).mpr (.inr hg)
      obtain ⟨hstored, hplain⟩ := hhome g hmem dir hdir
      refine ⟨(hdirs dir (fun h => hempty g hmem (h ▸ hdir)) fun h => ?_).mpr hstored, hplain⟩
      obtain ⟨g', hg', hname', -⟩ := hasDir_eq_true.mp hstored
      exact has_eq_false.mp hfresh g' hg' (hname'.trans h)

/-- A call keeps the tree exactly if it suits. -/
lemma tree_step (now : Nat) (op : Op) : (op.run now disk).2.Tree ↔ op.Suits disk := by
  have hn' := hn.step now op
  have heffect := op.effect disk now
  unfold Op.Suits
  generalize (op.run now disk).2 = disk' at heffect hn' ⊢
  cases heffect with
  | add f h =>
    rw [h]
    exact tree_push hn ht (Op.change_add h).1.2.1 hn'
  | move old new h =>
    obtain ⟨hfresh, hhas, -⟩ := Op.change_move h
    rw [h]
    exact tree_move hn ht hfresh hhas hn'
  | drop p h hempty =>
    rw [h]
    refine iff_of_true (tree_erase hn ht hn' fun f hf hp hdir g hg hin => ?_) trivial
    exact nomatch (hempty f hf hp hdir g hg).symm.trans (childPrefix_of_inDir hin)
  | keep _ h hsame =>
    rw [h]
    exact iff_of_true (tree_congr hn ht hn' hsame) trivial

end

/-- A sequence of calls from the empty disk, each at its own time, keeps the tree
throughout exactly if every call suits. -/
theorem ramTree_iff (ops : List (Nat × Op)) :
    Always (fun a disk => some (a.2.run a.1 disk).2) Tree ops ⟨[]⟩
      ↔ Along (fun a disk => some (a.2.run a.1 disk).2)
        (fun a disk => a.2.Suits disk) ops ⟨[]⟩ := by
  have hempty : Tree ⟨[]⟩ := ⟨nodup_nil, nofun, nofun⟩
  refine always_iff_along (W := Normal) ?_ ?_ ops nofun hempty
  · intro a disk disk' hn hstep
    cases hstep
    exact hn.step a.1 a.2
  · intro a disk disk' hn ht hstep
    cases hstep
    exact tree_step hn ht a.1 a.2

/-- A file in a directory that was never made. -/
theorem write_without_directory :
    let disk := (Op.run 0 (.write ['a', '/', 'b'] [1]) ⟨[]⟩).2
    disk.readFile ['a', '/', 'b'] = .ok [1] ∧ disk.hasDir ['a'] = false
      ∧ disk.listDirectory ['/'] = .ok [] ∧ ¬disk.Tree := by
  refine ⟨by decide, by decide, by decide, fun h => ?_⟩
  have hdir := h.rooted _ mem_cons_self ['a'] ⟨['b'], by decide⟩
  cases hdir

end RustOs.Fs.RamDisk
