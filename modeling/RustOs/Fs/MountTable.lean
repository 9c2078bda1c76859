import RustOs.Lib.Text

/-!
# The mount table

The table of `src/fs/vfs.rs` that says which file system is rooted where, and
`resolve_mount`, which looks for the mount a path lies in. It scans the table for
the longest mount point that the path begins with, as a string: `/tmpx` begins
with `/tmp` and is taken to lie in it (`resolveMount_sibling`).

The mount that encloses a path is the one with the longest mount point that is the
path, or is followed by a slash in it, or is `/`. `resolve_mount` finds it unless
the path begins with a longer mount point that ends inside one of its components:

  `resolveMount_iff : EnclosedBy … ↔ ∀ m ∈ table, m.mountPoint <+: path → …`.
-/

namespace RustOs.Fs

open Lib List

/-- `Mount`. -/
structure Mount where
  source : Str
  mountPoint : Str
  fsType : Str
  options : Str
  deriving DecidableEq, Repr

/-- `str::len`, in bytes. -/
def strLen (s : Str) : Nat := (utf8 s).length

/-- `register_mount`. -/
def registerMount (m : Mount) (table : List Mount) : List Mount :=
  if table.any fun e => e.mountPoint == m.mountPoint && e.fsType == m.fsType then table
  else table ++ [m]

/-- Does the mount take the place of the best one so far? The first of several
mounts at one place stays. -/
def beats (m : Mount) : Option Mount → Bool
  | some b => strLen b.mountPoint < strLen m.mountPoint
  | none => true

/-- The loop of `resolve_mount`, with the best mount so far. -/
def resolveLoop (path : Str) : Option Mount → List Mount → Option Mount
  | best, [] => best
  | best, m :: table =>
    if m.mountPoint.isPrefixOf path && beats m best then resolveLoop path (some m) table
    else resolveLoop path best table

/-- `resolve_mount`. -/
def resolveMount (path : Str) (table : List Mount) : Option Mount := resolveLoop path none table

/-! ## The mount that encloses a path -/

/-- A path lies at or below a mount point. -/
def Encloses (mountPoint path : Str) : Prop :=
  mountPoint = ['/'] ∨ mountPoint = path ∨ (mountPoint ++ ['/']) <+: path

instance (mountPoint path : Str) : Decidable (Encloses mountPoint path) :=
  inferInstanceAs (Decidable (_ ∨ _))

/-- What `resolve_mount` is for: the mount with the longest mount point among those
that enclose the path, and nothing if there is none. -/
def EnclosedBy (table : List Mount) (path : Str) : Option Mount → Prop
  | some m => m ∈ table ∧ Encloses m.mountPoint path
      ∧ ∀ m' ∈ table, Encloses m'.mountPoint path → strLen m'.mountPoint ≤ strLen m.mountPoint
  | none => ∀ m ∈ table, ¬Encloses m.mountPoint path

/-- An absolute path begins with every mount point that encloses it. -/
lemma Encloses.isPrefix {mountPoint path : Str} (h : Encloses mountPoint path)
    (habs : path.head? = some '/') : mountPoint <+: path := by
  rcases h with rfl | rfl | h
  · obtain ⟨rest, rfl⟩ := head?_eq_some_iff.mp habs
    exact ⟨rest, rfl⟩
  · exact prefix_rfl
  · exact (prefix_append _ _).trans h

/-- A longer string has more bytes. -/
lemma strLen_lt_of_prefix {s t : Str} (h : s <+: t) (hne : s ≠ t) : strLen s < strLen t := by
  obtain ⟨rest, rfl⟩ := h
  cases rest with
  | nil => exact absurd (append_nil s).symm hne
  | cons c rest =>
    have hc : 0 < (String.utf8EncodeChar c).length := by
      rw [String.length_utf8EncodeChar]
      exact Char.utf8Size_pos c
    unfold strLen
    rw [utf8_append, utf8_cons, length_append, length_append]
    omega

/-- Two beginnings of one string are the same if they have as many bytes. -/
lemma eq_of_prefix_of_strLen {s t path : Str} (hs : s <+: path) (ht : t <+: path)
    (hlen : strLen s = strLen t) : s = t := by
  refine Decidable.byContradiction fun hne => ?_
  rcases prefix_or_prefix_of_prefix hs ht with h | h
  · have := strLen_lt_of_prefix h hne
    omega
  · have := strLen_lt_of_prefix h (Ne.symm hne)
    omega

/-! ## The scan -/

section

variable (path : Str) (table : List Mount)

/-- The scan keeps what it was given or finds something at least as long. -/
lemma resolveLoop_ge : ∀ (best : Option Mount) (b : Mount),
    b ∈ best → ∃ b' ∈ resolveLoop path best table, strLen b.mountPoint ≤ strLen b'.mountPoint := by
  induction table with
  | nil => exact fun best b hb => ⟨b, hb, Nat.le_refl _⟩
  | cons m table ih =>
    intro best b hb
    unfold resolveLoop
    split
    next hm =>
      rw [Option.mem_def.mp hb, Bool.and_eq_true] at hm
      have hlt : strLen b.mountPoint < strLen m.mountPoint := of_decide_eq_true hm.2
      obtain ⟨b', hb', hle⟩ := ih (some m) m rfl
      exact ⟨b', hb', by omega⟩
    next => exact ih best b hb

/-- Every mount point in the table that the path begins with is no longer than the
one that is found. -/
lemma resolveLoop_bound : ∀ (best : Option Mount),
    ∀ m ∈ table, m.mountPoint <+: path →
      ∃ b ∈ resolveLoop path best table, strLen m.mountPoint ≤ strLen b.mountPoint := by
  induction table with
  | nil => exact fun best m hm => nomatch hm
  | cons a table ih =>
    intro best m hm hpre
    unfold resolveLoop
    rcases mem_cons.mp hm with rfl | hm
    · rw [ isPrefixOf_iff_prefix.mpr hpre, Bool.true_and]
      split
      next => exact resolveLoop_ge path table (some m) m rfl
      next hbeats =>
        -- the best so far is at least as long
        cases best with
        | none => exact absurd rfl hbeats
        | some b =>
          have hle : ¬strLen b.mountPoint < strLen m.mountPoint := fun h =>
            hbeats (decide_eq_true h)
          obtain ⟨b', hb', hge⟩ := resolveLoop_ge path table (some b) b rfl
          exact ⟨b', hb', by omega⟩
    · split
      next => exact ih (some a) m hm hpre
      next => exact ih best m hm hpre

/-- What is found was given, or is a mount of the table whose mount point the path
begins with. -/
lemma resolveLoop_cases : ∀ (best : Option Mount),
    resolveLoop path best table = best
      ∨ ∃ m ∈ table, m.mountPoint <+: path ∧ resolveLoop path best table = some m := by
  induction table with
  | nil => exact fun best => .inl rfl
  | cons a table ih =>
    intro best
    unfold resolveLoop
    split
    next ha =>
      rw [Bool.and_eq_true] at ha
      rcases ih (some a) with h | ⟨m, hm, hpre, h⟩
      · exact .inr ⟨a, mem_cons_self, isPrefixOf_iff_prefix.mp ha.1, h⟩
      · exact .inr ⟨m, mem_cons_of_mem _ hm, hpre, h⟩
    next =>
      rcases ih best with h | ⟨m, hm, hpre, h⟩
      · exact .inl h
      · exact .inr ⟨m, mem_cons_of_mem _ hm, hpre, h⟩

end

/-- `resolve_mount` finds the longest mount point the path begins with. -/
lemma resolveMount_some {path : Str} {table : List Mount} {b : Mount}
    (h : resolveMount path table = some b) : b ∈ table ∧ b.mountPoint <+: path
      ∧ ∀ m ∈ table, m.mountPoint <+: path → strLen m.mountPoint ≤ strLen b.mountPoint := by
  have hbound : ∀ m ∈ table, m.mountPoint <+: path → strLen m.mountPoint ≤ strLen b.mountPoint := by
    intro m hm hpre
    obtain ⟨b', hb', hle⟩ := resolveLoop_bound path table none m hm hpre
    cases Option.some.inj (h.symm.trans hb')
    exact hle
  rcases resolveLoop_cases path table none with hnone | ⟨m, hm, hpre, hsome⟩
  · exact nomatch h.symm.trans hnone
  · cases Option.some.inj (h.symm.trans hsome)
    exact ⟨hm, hpre, hbound⟩

lemma resolveMount_none {path : Str} {table : List Mount} (h : resolveMount path table = none) :
    ∀ m ∈ table, ¬m.mountPoint <+: path := by
  intro m hm hpre
  obtain ⟨b, hb, -⟩ := resolveLoop_bound path table none m hm hpre
  exact nomatch h.symm.trans hb

/-- `resolve_mount` finds the mount that encloses an absolute path exactly if every
mount point that the path begins with but that does not enclose it is shorter than
one that does. -/
theorem resolveMount_iff {path : Str} (habs : path.head? = some '/') (table : List Mount) :
    EnclosedBy table path (resolveMount path table)
      ↔ ∀ m ∈ table, m.mountPoint <+: path → ¬Encloses m.mountPoint path →
          ∃ m' ∈ table, Encloses m'.mountPoint path
            ∧ strLen m.mountPoint < strLen m'.mountPoint := by
  cases hres : resolveMount path table with
  | none =>
    have hnone := resolveMount_none hres
    refine iff_of_true (fun m hm h => ?_) fun m hm hpre _ => absurd hpre (hnone m hm)
    exact hnone m hm (h.isPrefix habs)
  | some b =>
    obtain ⟨hb, hpre, hmax⟩ := resolveMount_some hres
    constructor
    · intro ⟨_, hin, _⟩ m hm hmpre hout
      refine ⟨b, hb, hin, ?_⟩
      have hle := hmax m hm hmpre
      -- a mount point of the same length would be the same one
      have hne : strLen m.mountPoint ≠ strLen b.mountPoint := fun heq =>
        hout (eq_of_prefix_of_strLen hmpre hpre heq ▸ hin)
      omega
    · intro hall
      refine ⟨hb, ?_, fun m' hm' hin => hmax m' hm' (hin.isPrefix habs)⟩
      refine Decidable.byContradiction fun hout => ?_
      obtain ⟨m', hm', hin, hlt⟩ := hall b hb hpre hout
      have := hmax m' hm' (hin.isPrefix habs)
      omega

/-- `install_default_mounts` without a FAT32 volume. -/
def defaultMounts : List Mount :=
  [⟨"ramdisk".toList, "/".toList, "ramdisk".toList, "rw".toList⟩,
    ⟨"proc".toList, "/proc".toList, "procfs".toList, "rw,nosuid,nodev,noexec".toList⟩,
    ⟨"sys".toList, "/sys".toList, "sysfs".toList, "rw,nosuid,nodev,noexec".toList⟩,
    ⟨"dev".toList, "/dev".toList, "devfs".toList, "rw,nosuid".toList⟩,
    ⟨"tmpfs".toList, "/tmp".toList, "tmpfs".toList, "rw,nosuid,nodev".toList⟩].foldl
      (fun table m => registerMount m table) []

/-- `/tmp/x` is found in `/tmp`. -/
theorem resolveMount_tmp :
    EnclosedBy defaultMounts "/tmp/x".toList (resolveMount "/tmp/x".toList defaultMounts) :=
  (resolveMount_iff (by decide) defaultMounts).mpr (by decide)

/-- So is `/tmpx`, which lies in `/`. -/
theorem resolveMount_sibling :
    (∀ m ∈ defaultMounts, m.mountPoint.head? = some '/'
        ∧ (m.mountPoint.getLast? = some '/' → m.mountPoint = ['/']))
      ∧ (resolveMount "/tmpx".toList defaultMounts).map (·.mountPoint) = some "/tmp".toList
      ∧ ¬EnclosedBy defaultMounts "/tmpx".toList (resolveMount "/tmpx".toList defaultMounts) := by
  refine ⟨by decide, rfl, fun h => ?_⟩
  have hout : ¬Encloses "/tmp".toList "/tmpx".toList := by decide
  exact hout h.2.1

end RustOs.Fs
