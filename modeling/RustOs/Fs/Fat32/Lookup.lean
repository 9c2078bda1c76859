import RustOs.Fs.Fat32.Ownership

/-!
# Walking a path

`resolve` is the walk of `find_file` on a volume: one `lookup` for each
component, into the directory the last one found. A walk through a `..` that
stores cluster 0 for the root panics in the driver, which subtracts 2 from it.

`Walkable` is what a walk needs, a set of directories that each have a chain and
that no found directory leaves; the directories of a well-formed volume whose
dots point into it are one (`walkable_dirAt`).
-/

namespace RustOs.Fs.Fat32

open Lib Drivers List Prod

variable {fs : Fat32} {v w : Volume fs} {S : Nat → Prop} (g : Geometry fs) {path : Str}
    {bytes : List UInt8}

/-! ## Names are compared in upper case -/

/-- Whether a reported entry answers to a name depends on the upper case of the
name only. -/
lemma nameMatches_iff (x : Str) (p : DirectoryEntry × Option Str) :
    nameMatches x p = true ↔ (∃ n, p.2 = some n ∧ toUppercase n = toUppercase x)
      ∨ toUppercase p.1.getName = toUppercase x := by
  unfold nameMatches
  rcases p with ⟨e, _ | n⟩
  · simp
  · simp only [Bool.or_eq_true, beq_iff_eq, Option.some.injEq, exists_eq_left']
    constructor
    · rintro ((rfl | h) | h)
      · exact .inl rfl
      · exact .inl h
      · exact .inr h
    · rintro (h | h)
      · exact .inl (.inr h)
      · exact .inr h

lemma nameMatches_congr {x y : Str} (h : toUppercase x = toUppercase y) :
    nameMatches x = nameMatches y := by
  funext p
  rw [Bool.eq_iff_iff, nameMatches_iff, nameMatches_iff, h]

namespace Volume

lemma lookup_congr (v : Volume fs) (c : Nat) {x y : Str} (h : toUppercase x = toUppercase y) :
    v.lookup c x = v.lookup c y := by
  unfold lookup
  rw [nameMatches_congr h]

variable {e : DirectoryEntry}

/-- A found entry stands in the listing. -/
lemma mem_of_lookup {c : Nat} {x : Str}
    (h : v.lookup c x = some e) : ∃ lfn, (e, lfn) ∈ v.listing c := by
  obtain ⟨p, hp, rfl⟩ := Option.map_eq_some_iff.mp h
  exact ⟨p.2, mem_of_find?_eq_some hp⟩

/-! ## The walk -/

/-- The component loop of `find_file` on a volume. -/
def resolve (v : Volume fs) : Nat → List Str → Outcome String (Option DirectoryEntry)
  | _, [] => .ok none
  | c, [x] => if c = 0 then .panic else .ok (v.lookup c x)
  | c, x :: y :: rest =>
    if c = 0 then .panic
    else
      match v.lookup c x with
      | some e =>
        if e.isDirectory then resolve v e.firstCluster (y :: rest)
        else .err "Not a directory in path"
      | none => .ok none

/-- Where a path leads. -/
def find (v : Volume fs) (path : Str) : Outcome String (Option DirectoryEntry) :=
  v.resolve fs.rootCluster (components (trimStartMatches '/' path))

/-- Each of these directories has a chain, and a directory found in one of them
is another, or stored as cluster 0. -/
structure Walkable (v : Volume fs) (S : Nat → Prop) : Prop where
  chained : ∀ c, S c → v.Chained c
  closed : ∀ c, S c → ∀ x e, v.lookup c x = some e → e.isDirectory = true →
    e.firstCluster = 0 ∨ S e.firstCluster

/-- The dots of every subdirectory are directories, of the volume or cluster 0. -/
def DotsClosed (v : Volume fs) : Prop :=
  ∀ c, v.DirAt c → c ≠ fs.rootCluster → ∀ p ∈ v.listing c, isDot p.1 = true →
    p.1.isDirectory = true ∧ (p.1.firstCluster = 0 ∨ v.DirAt p.1.firstCluster)

/-- An entry of a directory owns its chain, or is one of the dots. -/
lemma owned_or_dot {c : Nat} {lfn : Option Str}
    (h : (e, lfn) ∈ v.listing c) : e ∈ v.owned c ∨ c ≠ fs.rootCluster ∧ isDot e = true := by
  by_cases hown : c = fs.rootCluster ∨ isDot e = false
  · refine .inl (mem_filter.mpr ⟨mem_map.mpr ⟨(e, lfn), h, rfl⟩, ?_⟩)
    rcases hown with rfl | hdot
    · simp
    · simp [hdot]
  · rw [not_or] at hown
    exact .inr ⟨hown.1, by simpa using hown.2⟩

/-- The directories of a well-formed volume can be walked. -/
lemma walkable_dirAt (h : v.WellFormed) (hdots : v.DotsClosed) :
    v.Walkable v.DirAt := by
  refine ⟨fun c hc => h.dirAt_chained hc, ?_⟩
  intro c hc x e hx hdir
  obtain ⟨lfn, hmem⟩ := mem_of_lookup hx
  rcases owned_or_dot hmem with hown | ⟨hne, hdot⟩
  · exact .inr (.sub hc hown hdir)
  · exact (hdots c hc hne _ hmem hdot).2

/-- A volume with the same listings can be walked too. -/
lemma Walkable.congr (hS : v.Walkable S)
    (h : ∀ c, S c → w.Chained c ∧ w.listing c = v.listing c) : w.Walkable S := by
  refine ⟨fun c hc => (h c hc).1, fun c hc x e hx => ?_⟩
  unfold lookup at hx
  rw [(h c hc).2] at hx
  exact hS.closed c hc x e hx

/-- A walk that found something found it in one of the directories. -/
lemma resolve_mem (hS : v.Walkable S)
    (names : List Str) : ∀ c, S c → v.resolve c names = .ok (some e) →
      ∃ c' lfn, S c' ∧ (e, lfn) ∈ v.listing c' := by
  induction names with
  | nil =>
    intro c _ h
    cases h
  | cons x rest ih =>
    intro c hc h
    cases rest with
    | nil =>
      unfold resolve at h
      split at h
      next => cases h
      next =>
        injection h with h
        obtain ⟨lfn, hmem⟩ := mem_of_lookup h
        exact ⟨c, lfn, hc, hmem⟩
    | cons y rest =>
      unfold resolve at h
      split at h
      next => cases h
      next =>
        split at h
        next f hf =>
          split at h
          next hdir =>
            rcases hS.closed c hc x f hf hdir with h0 | hSf
            · rw [h0] at h
              cases rest <;> exact nomatch h
            · exact ih _ hSf h
          next => cases h
        next => cases h

end Volume

/-! ## The driver walks the volume -/

/-- Cluster 0 is not a place: the driver's subtraction underflows. -/
lemma readClusterChain_zero (v : Volume fs) :
    Runs (Stands g) (fs.readClusterChain 0) v .panic v := by
  unfold readClusterChain
  exact .bind_panic (.bind_panic (.lift _))

lemma findFileInDirectory_zero (v : Volume fs) (x : Str) :
    Runs (Stands g) (fs.findFileInDirectory 0 x) v .panic v :=
  Runs.bind_panic (.bind_panic (readClusterChain_zero g v))

/-- The walk along a path is `resolve`. -/
lemma findFileFrom_runs (hS : v.Walkable S)
    (names : List Str) : ∀ c, c = 0 ∨ S c →
      Runs (Stands g) (fs.findFileFrom c names) v (v.resolve c names) v := by
  induction names with
  | nil => exact fun c _ => .pure _
  | cons x rest ih =>
    intro c hc
    by_cases h0 : c = 0
    · subst h0
      cases rest with
      | nil => exact findFileInDirectory_zero g v x
      | cons y rest =>
        exact .bind_panic (findFileInDirectory_zero g v x)
    · have hc := hc.resolve_left h0
      have hlook := findFileInDirectory_runs (R := Stands g) g (hS.chained c hc) x
      cases rest with
      | nil =>
        unfold findFileFrom Volume.resolve
        rw [if_neg h0]
        exact hlook
      | cons y rest =>
        unfold findFileFrom Volume.resolve
        rw [if_neg h0]
        refine .bind hlook ?_
        rcases hx : v.lookup c x with _ | e
        · exact .pure _
        · simp only
          cases hdir : e.isDirectory with
          | true =>
            exact ih _ (hS.closed c hc x e hx hdir)
          | false =>
            exact .fail _

/-- `find_file` walks the path. -/
lemma findFile_runs (hS : v.Walkable S)
    (hroot : S fs.rootCluster) (path : Str) :
    Runs (Stands g) (fs.findFile path) v (v.find path) v :=
  findFileFrom_runs g hS _ _ (.inr hroot)

/-! ## Reading a file -/

/-- How `read` ends on a file with this entry. -/
def fileOutcome (v : Volume fs) (e : DirectoryEntry) : Outcome VfsError (List UInt8) :=
  if e.fileSize.toNat ≤ (v.chainData e.firstCluster).length then
    .ok ((v.chainData e.firstCluster).take e.fileSize.toNat)
  else .panic

section
variable {g : Geometry fs}

section

variable {e : DirectoryEntry} (hfind : Runs (Stands g) (fs.findFile path) v (.ok (some e)) v)
include hfind

lemma read_directory (hdir : e.isDirectory = true) :
    Runs (Stands g) (fs.read path) v (.err .permissionDenied) v := by
  refine .bind (hfind.mapErr fun _ => VfsError.ioError) ?_
  simp only [hdir]
  exact .fail _

lemma read_file (hdir : e.isDirectory = false)
    (hc : v.Chained e.firstCluster) :
    Runs (Stands g) (fs.read path) v (fileOutcome v e) v := by
  refine .bind (hfind.mapErr fun _ => VfsError.ioError) ?_
  simp only [hdir]
  refine .bind ((readClusterChain_runs g v hc).mapErr _) ?_
  unfold fileOutcome
  split
  next => exact .pure _
  next => exact .lift _

/-- A file without clusters cannot be read: `read` asks for cluster 0. -/
lemma read_empty (hdir : e.isDirectory = false)
    (h0 : e.firstCluster = 0) : Runs (Stands g) (fs.read path) v .panic v := by
  refine .bind (hfind.mapErr fun _ => VfsError.ioError) ?_
  simp only [hdir, h0]
  exact .bind_panic ((readClusterChain_zero g v).mapErr _)

end

end

/-- `read` begins with the lookup. -/
lemma read_ok_found {d : Disk}
    (h : (fs.read path d).1 = .ok bytes) : ∃ e, (fs.findFile path d).1 = .ok (some e) := by
  have hrun : fs.read path d = (.ok bytes, (fs.read path d).2) := Prod.ext h rfl
  obtain ⟨found, d₁, hlook, hrest⟩ := Prog.bind_eq_ok hrun
  have hf := Outcome.mapErr_eq_ok.mp (congrArg fst hlook)
  cases found with
  | none => exact nomatch congrArg fst hrest
  | some e => exact ⟨e, hf⟩

/-- What a successful `read` went through. -/
lemma read_ok_inv (hS : v.Walkable S)
    (hroot : S fs.rootCluster) {d : Disk} (hd : Stands g d v)
    (hok : ∀ e, v.find path = .ok (some e) → e.isDirectory = false → v.EntryOk e)
    (h : (fs.read path d).1 = .ok bytes) :
    ∃ e, v.find path = .ok (some e) ∧ e.isDirectory = false ∧ e.firstCluster ≠ 0
      ∧ fileOutcome v e = .ok bytes := by
  have hfind := findFile_runs g hS hroot path
  obtain ⟨e, he⟩ := read_ok_found h
  have hf : v.find path = .ok (some e) := (hfind.outcome hd).symm.trans he
  rw [hf] at hfind
  cases hdir : e.isDirectory with
  | true =>
    exact absurd h ((read_directory hfind hdir).ne_ok hd)
  | false =>
    by_cases h0 : e.firstCluster = 0
    · have hrun := (read_empty hfind hdir h0).outcome hd
      rw [h] at hrun
      cases hrun
    · have hrun := (read_file hfind hdir (hok e hf hdir h0)).outcome hd
      rw [h] at hrun
      exact ⟨e, hf, hdir, h0, hrun.symm⟩

/-- No file reads longer than a 32-bit size says. -/
lemma read_length_lt {d : Disk}
    (h : (fs.read path d).1 = .ok bytes) : bytes.length < 2 ^ 32 := by
  have hrun : fs.read path d = (.ok bytes, (fs.read path d).2) := Prod.ext h rfl
  obtain ⟨found, d₁, _, hrest⟩ := Prog.bind_eq_ok hrun
  cases found with
  | none => exact nomatch congrArg fst hrest
  | some e =>
    simp only at hrest
    split at hrest
    next => exact nomatch congrArg fst hrest
    next =>
      obtain ⟨data, d₂, _, hlast⟩ := Prog.bind_eq_ok hrest
      split at hlast
      next =>
        have heq := congrArg fst hlast
        injection heq with heq
        rw [← heq, length_take]
        have := e.fileSize.toNat_lt
        omega
      next => exact nomatch congrArg fst hlast

namespace Volume

/-! ## Walking a changed volume -/

/-- The walk reads the listings of the directories it goes through and no more. -/
lemma resolve_congr (hS : v.Walkable S)
    (hsame : ∀ c, S c → ∀ x, w.lookup c x = v.lookup c x) (names : List Str) :
    ∀ c, c = 0 ∨ S c → w.resolve c names = v.resolve c names := by
  induction names with
  | nil => exact fun _ _ => rfl
  | cons x rest ih =>
    intro c hc
    by_cases h0 : c = 0
    · subst h0
      cases rest <;> rfl
    · have hc := hc.resolve_left h0
      cases rest with
      | nil =>
        unfold resolve
        rw [hsame c hc]
      | cons y rest =>
        unfold resolve
        rw [if_neg h0, if_neg h0, hsame c hc]
        rcases hx : v.lookup c x with _ | e
        · rfl
        · cases hdir : e.isDirectory with
          | false => simp [hdir]
          | true =>
            simp only [hdir]
            exact ih _ (hS.closed c hc x e hx hdir)

/-- A walk that ends at an entry outside `X` ends there too in a volume whose
root listing still answers with every entry outside `X`, if the entries of `X`
are files and the other directories list the same. Only the directories on the way
need a chain there. -/
lemma findFileFrom_frame {X : List DirectoryEntry}
    (hS : v.Walkable S) (hfile : ∀ e ∈ X, e.isDirectory = false)
    (hchain : ∀ c, S c → w.Chained c)
    (hsame : ∀ c, S c → ∀ x f, v.lookup c x = some f → f ∉ X → w.lookup c x = some f)
    {f : DirectoryEntry} (hf : f ∉ X) (names : List Str) :
    ∀ c, S c → v.resolve c names = .ok (some f) →
      Runs (Stands g) (fs.findFileFrom c names) w (.ok (some f)) w := by
  induction names with
  | nil =>
    intro c _ h
    cases h
  | cons x rest ih =>
    intro c hc h
    have hlook := findFileInDirectory_runs (R := Stands g) g (hchain c hc) x
    cases rest with
    | nil =>
      unfold resolve at h
      split at h
      next => cases h
      next =>
        injection h with h
        rw [hsame c hc x f h hf] at hlook
        exact hlook
    | cons y rest =>
      unfold resolve at h
      split at h
      next => cases h
      next =>
        split at h
        next e he =>
          split at h
          next hdir =>
            have heX : e ∉ X := fun hX => by
              rw [hfile e hX] at hdir
              cases hdir
            rw [hsame c hc x e he heX] at hlook
            refine .bind hlook ?_
            simp only [hdir, if_true]
            rcases hS.closed c hc x e he hdir with hz | hSe
            · rw [hz] at h
              cases rest <;> cases h
            · exact ih _ hSe h
          next => cases h
        next => cases h

end Volume

end RustOs.Fs.Fat32
