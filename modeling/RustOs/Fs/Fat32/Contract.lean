import RustOs.Fs.Fat32.Lookup

/-!
# Written is read

After a `write` that returned `Ok`, does `read` return what was written, and is
every other file as it was? `Contract` says so. It holds when the path is
`Storable`, a condition on the volume and the arguments:

* the path has one component. The driver enters a new file in the root
  directory under the whole path turned into an 8.3 name, and looks for the
  entry to rewrite there too;
* a file that exists is no directory, and the slot its name selects by its 8.3
  form is the slot the lookup stops at;
* a new file has an 8.3 name that does not start with a byte that marks a free
  slot. It answers to what that name spells, and to a stray long name in front of
  its slot if the check sum fits: one of the two is the name, and neither hides an
  entry behind the slot;
* the length fits the 32-bit size field.

On a volume whose names are `Tidy` (each 8.3 form belongs to the entry the name
finds, the names a new entry would pick up are free, no stale entry stands behind
the end mark, no `..` stores the root's own cluster) the condition is also
necessary: `write_read_contract`.
-/

namespace RustOs.Fs.Fat32

open Lib DirectoryEntry Volume Drivers
open DirectoryEntry (ofBytes)
open List hiding Vector
open LfnState

variable {fs : Fat32} {v w : Volume fs} {data : List UInt8} {e : DirectoryEntry}

/-! ## Statements -/

/-- The file reads back, and every other file that could be read still reads the
same. -/
def Contract (fs : Fat32) (d : Disk) (path : Str) (data : List UInt8) : Prop :=
  (fs.read path (fs.write path data d).2).1 = .ok data
    ∧ ∀ q bytes, (fs.findFile q d).1 ≠ (fs.findFile path d).1 → (fs.read q d).1 = .ok bytes →
        (fs.read q (fs.write path data d).2).1 = .ok bytes

/-- Slot `i` is the first live slot that answers to the name, and holds `e`. -/
def FoundAt (S : List (List UInt8)) (x : Str) (i : Nat) (e : DirectoryEntry) : Prop :=
  ∃ A raw B, S = A ++ raw :: B ∧ A.length = i ∧ NoEnd A ∧ isLive raw = true
    ∧ DirectoryEntry.ofBytes raw = e
    ∧ (scanSlots A LfnState.init).find? (nameMatches x) = none
    ∧ nameMatches x (e, (lfnAfter A).nameFor e.name) = true

namespace Volume

/-- A file that exists can be rewritten: lookup and update mean the same slot. -/
def Rewritable (v : Volume fs) (path x : Str) : Prop :=
  ∃ i e, FoundAt v.rootSlots x i e ∧ v.slotFor (trimStartMatches '/' path) = some i
    ∧ e.isDirectory = false

/-- The names an entry with this 8.3 name answers to in root slot `i`. -/
def answers (v : Volume fs) (n : Vector UInt8 11) (i : Nat) : List Str :=
  ((lfnAfter (v.rootSlots.take i)).nameFor n).toList ++ [DirectoryEntry.spell n]

/-- The name is found in front of root slot `i`. -/
def FoundBefore (v : Volume fs) (i : Nat) (m : Str) : Prop :=
  (scanSlots (v.rootSlots.take i) LfnState.init).find? (nameMatches m) ≠ none

/-- A new file can be entered so that the lookup finds it and nothing is hidden
by it. -/
def Enterable (v : Volume fs) (path x : Str) : Prop :=
  v.lookup fs.rootCluster x = none ∧
    ∃ n i, toShortName (trimStartMatches '/' path) = .ok n ∧ v.freeSlot = some i
      ∧ mark n ≠ 0xE5 ∧ mark n ≠ 0
      ∧ (∃ m ∈ v.answers n i, toUppercase m = toUppercase x)
      ∧ ∀ m ∈ v.answers n i, v.lookup fs.rootCluster m = none ∨ v.FoundBefore i m

/-- The condition under which a successful `write` keeps the contract. -/
def Storable (v : Volume fs) (path : Str) (data : List UInt8) : Prop :=
  data.length < 2 ^ 32 ∧ ∃ x, components (trimStartMatches '/' path) = [x]
    ∧ (v.Rewritable path x ∨ v.Enterable path x)

/-- Names that do not get in each other's way: a path whose 8.3 form selects a
root slot is found there, a new entry that picks up a stray long name answers to
free names only, nothing stale stands behind the free slot, and no dot stores the
cluster of the root. -/
structure Tidy (v : Volume fs) : Prop where
  unaliased : ∀ path i e, v.slotFor (trimStartMatches '/' path) = some i →
    v.find path = .ok (some e) →
    ∃ x, components (trimStartMatches '/' path) = [x] ∧ FoundAt v.rootSlots x i e
  unhidden : ∀ n i, v.freeSlot = some i → (lfnAfter (v.rootSlots.take i)).nameFor n ≠ none →
    ∀ m ∈ v.answers n i, v.lookup fs.rootCluster m = none
  fresh : ∀ i, v.freeSlot = some i → v.NoStaleAt i
  dots : ∀ c, v.DirAt c → c ≠ fs.rootCluster → ∀ p ∈ v.listing c, isDot p.1 = true →
    p.1.firstCluster ≠ fs.rootCluster

/-! ## Lookups around a slot -/

/-- The lookup in the root directory, split at a slot. -/
lemma lookup_around {A B : List (List UInt8)} {raw : List UInt8}
    (hS : v.rootSlots = A ++ raw :: B) (hB : NoStale raw B) (hA : NoEnd A)
    (hraw : isLive raw = true ∨ (ofBytes raw).isFree = true) (x : Str) :
    v.lookup fs.rootCluster x
      = (((scanSlots A init).find? (nameMatches x)).or
          ((((liveOf raw).map fun e => (e, (lfnAfter A).nameFor e.name)).find? (nameMatches x)).or
            ((scanSlots B init).find? (nameMatches x)))).map (·.1) := by
  have hlist : v.listing fs.rootCluster = scanSlots v.rootSlots init := rfl
  unfold lookup
  rw [hlist, hS, scanSlots_around hB hA hraw, find?_append, find?_append, Option.or_assoc]

/-- At a live slot. -/
lemma lookup_live {A B : List (List UInt8)} {raw : List UInt8}
    (hS : v.rootSlots = A ++ raw :: B) (hA : NoEnd A) (hlive : isLive raw = true) (x : Str) :
    v.lookup fs.rootCluster x
      = (((scanSlots A init).find? (nameMatches x)).or
          (([(ofBytes raw, (lfnAfter A).nameFor (ofBytes raw).name)].find? (nameMatches x)).or
            ((scanSlots B init).find? (nameMatches x)))).map (·.1) := by
  rw [lookup_around hS (noStale_of_not_last (isLast_of_isLive hlive) B) hA (.inl hlive),
    liveOf_live hlive]
  rfl

/-- Around a free slot something is found in front of it or behind it. Behind an end
mark nothing is. -/
lemma lookup_free {A B : List (List UInt8)} {raw : List UInt8}
    (hS : v.rootSlots = A ++ raw :: B) (hA : NoEnd A) (hfree : (ofBytes raw).isFree = true)
    {x : Str} (hx : v.lookup fs.rootCluster x = some e) :
    ((scanSlots A init).find? (nameMatches x)).map (·.1) = some e
      ∨ (scanSlots A init).find? (nameMatches x) = none
        ∧ ((scanSlots B init).find? (nameMatches x)).map (·.1) = some e := by
  have hlist : v.listing fs.rootCluster = scanSlots v.rootSlots init := rfl
  unfold lookup at hx
  rw [hlist, hS] at hx
  cases hP : (scanSlots A init).find? (nameMatches x) with
  | some p =>
    left
    cases hlast : (ofBytes raw).isLast with
    | false => rwa [scanSlots_delete hA hfree hlast, find?_append, hP] at hx
    | true => rwa [scanSlots_at_end hA hlast, hP] at hx
  | none =>
    right
    cases hlast : (ofBytes raw).isLast with
    | false =>
      rw [scanSlots_delete hA hfree hlast, find?_append, hP] at hx
      exact ⟨rfl, hx⟩
    | true =>
      rw [scanSlots_at_end hA hlast, hP] at hx
      cases hx

/-- What is found in front of a free slot is found. -/
lemma lookup_before {A B : List (List UInt8)} {raw : List UInt8}
    (hS : v.rootSlots = A ++ raw :: B) (hA : NoEnd A) (hfree : (ofBytes raw).isFree = true)
    {x : Str} (hx : v.lookup fs.rootCluster x = none) :
    (scanSlots A init).find? (nameMatches x) = none := by
  have hlist : v.listing fs.rootCluster = scanSlots v.rootSlots init := rfl
  unfold lookup at hx
  rw [hlist, hS, Option.map_eq_none_iff] at hx
  cases hlast : (ofBytes raw).isLast with
  | false =>
    rw [scanSlots_delete hA hfree hlast, find?_append] at hx
    exact (Option.or_eq_none_iff.mp hx).1
  | true => rwa [scanSlots_at_end hA hlast] at hx

lemma rootCluster_ne_zero (g : Geometry fs) : fs.rootCluster ≠ 0 := by
  have := g.root.1
  omega

/-- The walk of a path with one component is one lookup in the root. -/
lemma find_single (g : Geometry fs) (v : Volume fs) {path x : Str}
    (hx : components (trimStartMatches '/' path) = [x]) :
    v.find path = .ok (v.lookup fs.rootCluster x) := by
  unfold find
  rw [hx, resolve, if_neg (rootCluster_ne_zero g)]

lemma find_trim (v : Volume fs) (path : Str) :
    v.find (trimStartMatches '/' path) = v.find path := by
  unfold find
  rw [trimStartMatches_idem]

lemma FoundAt.lookup {x : Str} {i : Nat} {e : DirectoryEntry}
    (h : FoundAt v.rootSlots x i e) : v.lookup fs.rootCluster x = some e := by
  obtain ⟨A, raw, B, hS, _, hA, hlive, rfl, hnone, hmatch⟩ := h
  rw [lookup_live hS hA hlive, hnone]
  simp [hmatch]

/-! ## The general step -/

/-- Below the root the changed volume lists the same. -/
lemma Replaces.listing_below {X X' R : List DirectoryEntry}
    (h : v.WellFormed) (r : Replaces v w X X' R) (hX : ∀ e ∈ X, e.isDirectory = false) {c : Nat}
    (hc : v.DirAt c) (hne : c ≠ fs.rootCluster) :
    w.Chained c ∧ w.listing c = v.listing c := by
  have hX' : ∀ x ∈ X, x.isDirectory = true → x.firstCluster ≠ c := by
    intro x hx hdir
    rw [hX x hx] at hdir
    cases hdir
  have hw : w.DirAt c := by
    rcases r.dirAt_before h hc with ⟨x, hx, hdir, _⟩ | hw
    · rw [hX x hx] at hdir
      cases hdir
    · exact hw
  refine ⟨(h.replace r).dirAt_chained hw, ?_⟩
  unfold listing
  rw [(r.owned_below h hc hne hX').2]

/-- A volume with the same directories below the root can be walked, if no
directory is new in the root. -/
lemma walkable_of_listing (h : v.WellFormed) (hdots : v.DotsClosed)
    (hroot : w.Chained fs.rootCluster)
    (hbelow : ∀ c, v.DirAt c → c ≠ fs.rootCluster → w.Chained c ∧ w.listing c = v.listing c)
    (hown : ∀ e ∈ w.owned fs.rootCluster, e.isDirectory = true → e ∈ v.owned fs.rootCluster) :
    w.Walkable v.DirAt := by
  refine ⟨?_, ?_⟩
  · intro c hc
    by_cases hcr : c = fs.rootCluster
    · rw [hcr]
      exact hroot
    · exact (hbelow c hc hcr).1
  · intro c hc x e hx hdir
    by_cases hcr : c = fs.rootCluster
    · subst hcr
      obtain ⟨lfn, hmem⟩ := mem_of_lookup hx
      have he : e ∈ w.owned fs.rootCluster := by
        rw [owned_root]
        exact mem_map.mpr ⟨_, hmem, rfl⟩
      exact .inr (.sub .root (hown e he hdir) hdir)
    · have hlook : w.lookup c x = v.lookup c x := by
        unfold lookup
        rw [(hbelow c hc hcr).2]
      rw [hlook] at hx
      exact (walkable_dirAt h hdots).closed c hc x e hx hdir

/-- A found file is an entry that owns its chain. -/
lemma found_owned (h : v.WellFormed) (hdots : v.DotsClosed) {path : Str}
    {e : DirectoryEntry} (hf : v.find path = .ok (some e)) (hdir : e.isDirectory = false) :
    ∃ c, v.DirAt c ∧ e ∈ v.owned c := by
  obtain ⟨c, lfn, hc, hmem⟩ := resolve_mem (walkable_dirAt h hdots) _ _ .root hf
  rcases owned_or_dot hmem with hown | ⟨hne, hdot⟩
  · exact ⟨c, hc, hown⟩
  · rw [(hdots c hc hne _ hmem hdot).1] at hdir
    cases hdir

end Volume

/-- One file of the root directory exchanged for another, with the lookups, the
directories and the files of everything else as they were: the contract holds. -/
lemma contract_of_frame (g : Geometry fs) {d d' : Disk} (hd : Stands g d v)
    (hd' : Stands g d' w) (h : v.WellFormed) (hdots : v.DotsClosed) {X : List DirectoryEntry}
    {e' : DirectoryEntry} (hX : ∀ e ∈ X, e.isDirectory = false) (he' : e'.isDirectory = false)
    (hroot : w.Chained fs.rootCluster)
    (hbelow : ∀ c, v.DirAt c → c ≠ fs.rootCluster → w.Chained c ∧ w.listing c = v.listing c)
    (hkept : ∀ c f, v.DirAt c → f ∈ v.owned c → f ∉ X → Volume.Agree v w (v.entryChain f))
    {path x : Str} (hx : components (trimStartMatches '/' path) = [x])
    (hXp : ∀ e ∈ X, v.find path = .ok (some e)) (hnew : w.lookup fs.rootCluster x = some e')
    (hold : ∀ y f, v.lookup fs.rootCluster y = some f → f ∉ X → w.lookup fs.rootCluster y = some f)
    (hchain' : w.Chained e'.firstCluster) (hread : fileOutcome w e' = .ok data) :
    (fs.read path d').1 = .ok data
      ∧ ∀ q bytes, (fs.findFile q d).1 ≠ (fs.findFile path d).1 → (fs.read q d).1 = .ok bytes →
          (fs.read q d').1 = .ok bytes := by
  have hS := walkable_dirAt h hdots
  constructor
  · have hrun := findFileInDirectory_runs (R := Stands g) g hroot x
    rw [hnew] at hrun
    have hfind : Runs (Stands g) (fs.findFile path) w (.ok (some e')) w := by
      unfold findFile
      rw [hx, findFileFrom]
      exact hrun
    rw [(read_file hfind he' hchain').outcome hd', hread]
  · intro q bytes hne hq
    have hown := fun e => @found_owned fs v h hdots q e
    obtain ⟨f, hf, hfile, hf0, hout⟩ := read_ok_inv g hS .root hd (fun e hf hdir => by
      obtain ⟨c, hc, he⟩ := hown e hf hdir
      exact h.chained c hc e he) hq
    have hfX : f ∉ X := by
      intro hfX
      apply hne
      rw [(findFile_runs g hS .root q).outcome hd, (findFile_runs g hS .root path).outcome hd, hf,
        hXp f hfX]
    -- the other file keeps its chain
    obtain ⟨c, hc, hfc⟩ := hown f hf hfile
    have hchain := h.chained c hc f hfc hf0
    have hagree := hkept c f hc hfc hfX
    rw [entryChain_of_ne hf0] at hagree
    have hw := (chained_frame hchain fun b hb => (hagree b hb).1).1
    have hsame : fileOutcome w f = fileOutcome v f := by
      unfold fileOutcome
      rw [chainData_frame hchain hagree]
    have hrun : Runs (Stands g) (fs.findFile q) w (.ok (some f)) w := by
      refine findFileFrom_frame g hS hX ?_ ?_ hfX _ _ .root hf
      · intro c hc
        by_cases hcr : c = fs.rootCluster
        · exact hcr ▸ hroot
        · exact (hbelow c hc hcr).1
      · intro c hc y f hy hfX
        by_cases hcr : c = fs.rootCluster
        · subst hcr
          exact hold y f hy hfX
        · unfold Volume.lookup
          rw [(hbelow c hc hcr).2]
          exact hy
    rw [(read_file hrun hfile hw).outcome hd', hsame, hout]

/-- What is not exchanged keeps its chain. -/
lemma Volume.Replaces.agree_other {X X' R : List DirectoryEntry} (h : v.WellFormed)
    (r : Volume.Replaces v w X X' R) {c : Nat} {f : DirectoryEntry} (hc : v.DirAt c)
    (hfc : f ∈ v.owned c) (hfX : f ∉ X) : Volume.Agree v w (v.entryChain f) := by
  refine r.agree ?_
  by_cases hcr : c = fs.rootCluster
  · subst hcr
    rcases mem_append.mp (r.before.mem_iff.mp hfc) with hmem | hmem
    · exact absurd hmem hfX
    · exact r.kept_rest h hmem
  · exact r.kept_below h hc hcr hfc

/-! ## What a successful write did -/

section
variable {g : Geometry fs} {d : Disk} {path : Str}

/-- `write` goes on with what the walk found. -/
lemma write_eq {S : Nat → Prop} (hS : v.Walkable S) (hroot : S fs.rootCluster)
    (hd : Stands g d v) {found : Option DirectoryEntry} (hf : v.find path = .ok found) :
    fs.write path data d = (match found with
      | some e => fs.writeExisting (trimStartMatches '/' path) e data
      | none => fs.writeNew (trimStartMatches '/' path) data) d := by
  have hfind := (findFile_runs g hS hroot (trimStartMatches '/' path)).outcome hd
  rw [find_trim, hf] at hfind
  exact Prog.bind_ok ((findFile_readOnly fs (trimStartMatches '/' path)).mapErr_run _ hfind)

/-- `write` goes one of the two ways. -/
lemma write_ok_inv {S : Nat → Prop} (hS : v.Walkable S) (hroot : S fs.rootCluster)
    (hd : Stands g d v) (hok : (fs.write path data d).1 = .ok ()) :
    (∃ e, v.find path = .ok (some e)
        ∧ fs.write path data d = fs.writeExisting (trimStartMatches '/' path) e data d)
      ∨ (v.find path = .ok none
        ∧ fs.write path data d = fs.writeNew (trimStartMatches '/' path) data d) := by
  have hfind := (findFile_runs g hS hroot (trimStartMatches '/' path)).outcome hd
  rw [find_trim] at hfind
  have hrun : fs.write path data d = (.ok (), (fs.write path data d).2) := Prod.ext hok rfl
  obtain ⟨found, d₁, hlook, _⟩ := Prog.bind_eq_ok hrun
  have hf := Outcome.mapErr_eq_ok.mp (congrArg Prod.fst hlook)
  rw [hfind] at hf
  have heq := @write_eq fs v data g d path S hS hroot hd found hf
  cases found with
  | none => exact .inr ⟨hf, heq⟩
  | some e => exact .inl ⟨e, hf, heq⟩

/-- What a file that was rewritten needed, and left. -/
lemma writeExisting_ok_inv (hd : Stands g d v) (hroot : v.Chained fs.rootCluster)
    (he : v.EntryOk e)
    (hdis : (v.chainOf fs.rootCluster).Disjoint (v.entryChain e))
    (hok : (fs.writeExisting path e data d).1 = .ok ()) :
    fs.clustersFor data ≤ (v.clear (v.entryChain e)).freeList.length ∧ fs.Counted data ∧
      ∃ i, v.slotFor path = some i ∧ Stands g (fs.writeExisting path e data d).2
        (((v.clear (v.entryChain e)).fill (fs.clustersFor data) data).setSlot i
          (rewritten e (v.clear (v.entryChain e)).firstFree data).toBytes) := by
  obtain ⟨hr, _, hs⟩ := rootSlots_frame hroot
    (refill_agree hroot hdis (fs.clustersFor data) data)
  have hslot := slotFor_congr hs path
  by_cases hle : fs.clustersFor data ≤ (v.clear (v.entryChain e)).freeList.length
  · by_cases hfit : fs.Counted data
    · cases hi : v.slotFor path with
      | none =>
        exact absurd hok ((writeExisting_fails g he hle hr (.inr (hslot.trans hi))).ne_ok hd)
      | some i =>
        exact ⟨hle, hfit, i, rfl, (writeExisting_runs g he hle hfit hr (hslot.trans hi)).state hd⟩
    · exact absurd hok
        ((writeExisting_fails g he hle hr (.inl (Nat.lt_of_not_le hfit))).ne_ok hd)
  · exact absurd hok ((writeExisting_full g he (Nat.lt_of_not_le hle)).ne_ok hd)

/-- What a new file that was written needed, and left. -/
lemma writeNew_ok_inv (hd : Stands g d v) (hroot : v.Chained fs.rootCluster)
    (hok : (fs.writeNew path data d).1 = .ok ()) :
    fs.clustersFor data ≤ v.freeList.length ∧ fs.Counted data ∧
      ∃ n i, toShortName path = .ok n ∧ v.freeSlot = some i
        ∧ Stands g (fs.writeNew path data d).2
          ((v.fill (fs.clustersFor data) data).setSlot i
            (newEntry n 0x20 v.firstFree (data.length % 2 ^ 32)).toBytes) := by
  have hagree := refill_agree hroot (disjoint_nil_right _) (fs.clustersFor data) data
  obtain ⟨hr, _, hs⟩ := rootSlots_frame hroot hagree
  have hslot := freeSlot_congr hs
  by_cases hle : fs.clustersFor data ≤ v.freeList.length
  · by_cases hfit : fs.Counted data
    · by_cases hbad : ∀ n i, toShortName path = .ok n →
          (v.fill (fs.clustersFor data) data).freeSlot ≠ some i
      · exact absurd hok ((writeNew_fails g hle hr (.inr hbad)).ne_ok hd)
      · simp only [not_forall, not_not] at hbad
        obtain ⟨n, i, hn, hi⟩ := hbad
        exact ⟨hle, hfit, n, i, hn, hslot.symm.trans hi,
          (writeNew_runs g hle hfit hr hn hi).state hd⟩
    · exact absurd hok ((writeNew_fails g hle hr (.inl (Nat.lt_of_not_le hfit))).ne_ok hd)
  · exact absurd hok ((writeNew_full g (Nat.lt_of_not_le hle)).ne_ok hd)

end

/-! ## The condition suffices -/

/-- A file of the right size over a chain that begins with the data. -/
lemma fileOutcome_stored {w : Volume fs}
    (hsize : e.fileSize.toNat = data.length)
    (hdata : (w.chainData e.firstCluster).take data.length = data)
    (hle : data.length ≤ (w.chainData e.firstCluster).length) : fileOutcome w e = .ok data := by
  unfold fileOutcome
  rw [hsize, if_pos hle, hdata]

lemma rewritten_fileSize (e : DirectoryEntry) (f : Nat)
    (h : data.length < 2 ^ 32) : (rewritten e f data).fileSize.toNat = data.length := by
  show (UInt32.ofNat data.length).toNat = data.length
  exact Nat.mod_eq_of_lt h

lemma newEntry_fileSize (n : Vector UInt8 11) (f : Nat)
    (h : data.length < 2 ^ 32) :
    (newEntry n 0x20 f (data.length % 2 ^ 32)).fileSize.toNat = data.length := by
  show (UInt32.ofNat (data.length % 2 ^ 32)).toNat = data.length
  rw [UInt32.toNat_ofNat', Nat.mod_mod, Nat.mod_eq_of_lt h]

/-- A rewritten entry answers to the names it had. -/
lemma nameMatches_rewritten (e : DirectoryEntry) (f : Nat) (data : List UInt8) (st : LfnState)
    (y : Str) : nameMatches y (rewritten e f data, st.nameFor (rewritten e f data).name)
      = nameMatches y (e, st.nameFor e.name) :=
  rfl

/-- A new entry answers to what its 8.3 field spells, and to the long name it
picks up. -/
lemma nameMatches_newEntry {A B : List (List UInt8)} (hS : v.rootSlots = A ++ B)
    (n : Vector UInt8 11) (f size : Nat) (y : Str) :
    nameMatches y
        (newEntry n 0x20 f size, (lfnAfter A).nameFor (newEntry n 0x20 f size).name) = true
      ↔ ∃ m ∈ v.answers n A.length, toUppercase m = toUppercase y := by
  have hname : (newEntry n 0x20 f size).name = n := rfl
  have hspell : (newEntry n 0x20 f size).getName = spell n := rfl
  unfold answers
  rw [nameMatches_iff, hname, hspell, hS, take_left]
  simp only [mem_append, Option.mem_toList, mem_singleton, or_and_right, exists_or,
    exists_eq_left]

namespace Volume

/-- A new file changes nothing that was allocated, but for the root directory. -/
lemma enter_same (hroot : v.Chained fs.rootCluster) (n i : Nat)
    (data bs : List UInt8) {b : Nat} (ha : v.fat b ≠ 0) (hb : b ∉ v.chainOf fs.rootCluster) :
    ((v.fill n data).setSlot i bs).fat b = v.fat b
      ∧ ((v.fill n data).setSlot i bs).data b = v.data b := by
  have hsame := refill_same v [] n data ha not_mem_nil
  have hchain := rootSlots_frame hroot (refill_agree hroot (disjoint_nil_right _) n data)
  rw [clear_nil] at hsame hchain
  rw [setSlot_fat, setSlot_data _ _ _ (by rw [hchain.2.1]; exact hb)]
  exact hsame

/-- A new file in a slot of the root directory: the root has the bytes in the slot, and
every directory and file keeps what it had. -/
lemma enter_frame (h : v.WellFormed) {A B : List (List UInt8)} {raw bs : List UInt8}
    (hS : v.rootSlots = A ++ raw :: B) (n : Nat) (data : List UInt8) (hbs : bs.length = 32) :
    ((v.fill n data).setSlot A.length bs).Chained fs.rootCluster
      ∧ ((v.fill n data).setSlot A.length bs).rootSlots = A ++ bs :: B
      ∧ (∀ c, v.DirAt c → c ≠ fs.rootCluster →
          ((v.fill n data).setSlot A.length bs).Chained c
            ∧ ((v.fill n data).setSlot A.length bs).listing c = v.listing c)
      ∧ ∀ c f, v.DirAt c → f ∈ v.owned c →
          Agree v ((v.fill n data).setSlot A.length bs) (v.entryChain f) := by
  have hframe := rootSlots_frame h.root (refill_agree h.root (disjoint_nil_right _) n data)
  obtain ⟨hr, _, hs⟩ := hframe
  refine ⟨setSlot_chained A.length bs hr, setSlot_exchange hr (hs.trans hS) hbs, ?_, ?_⟩
  · intro c hc hne
    have hch := h.dirAt_chained hc
    have hagree : Agree v ((v.fill n data).setSlot A.length bs) (v.chainOf c) :=
      fun b hb => enter_same h.root _ _ _ _ (chain_allocated hch hb)
        fun hroot => h.dirAt_apart hc hne hroot hb
    exact ⟨(chained_frame hch fun b hb => (hagree b hb).1).1, listing_frame hch hagree⟩
  · intro c f hc hf b hb
    exact enter_same h.root _ _ _ _ (entryChain_allocated (h.chained c hc f hf) hb).2
      fun hroot => h.apart c hc f hf hroot hb

/-- The chain of a new file holds the data. -/
lemma enter_chain (hroot : v.Chained fs.rootCluster) (g : Geometry fs) {n : Nat} (hn : 0 < n)
    (hle : n ≤ v.freeList.length) (hfit : data.length ≤ n * fs.clusterSize) (i : Nat)
    (bs : List UInt8) :
    ((v.fill n data).setSlot i bs).Chained v.firstFree
      ∧ (((v.fill n data).setSlot i bs).chainData v.firstFree).take data.length = data
      ∧ (((v.fill n data).setSlot i bs).chainData v.firstFree).length = n * fs.clusterSize := by
  have hframe := rootSlots_frame hroot (refill_agree hroot (disjoint_nil_right _) n data)
  have hfill := (chain_fill g hn hle data).2
  constructor
  · exact chained_of_chain (chain_congr hfill fun b _ => by rw [setSlot_fat])
  · rw [setSlot_chainData_of_disjoint]
    · exact fill_chainData g hn hle hfit
    · rw [clear_nil] at hframe
      rw [hframe.2.1, chainOf_eq hfill]
      intro c hc hfree
      exact chain_allocated hroot hc (mem_freeList.mp (mem_of_mem_take hfree)).2

end Volume

section
variable {g : Geometry fs} {d : Disk} {path x : Str}
  (hd : Stands g d v) (h : v.WellFormed) (hdots : v.DotsClosed) (hlen : data.length < 2 ^ 32)
  (hx : components (trimStartMatches '/' path) = [x])
  (hok : (fs.write path data d).1 = .ok ())

include hd h hdots hlen hx hok

/-- A file that is rewritten in its slot keeps the contract. -/
lemma contract_rewrite (hre : v.Rewritable path x) : Contract fs d path data := by
  obtain ⟨i, e, hfound, hi, hdir⟩ := hre
  have hfind : v.find path = .ok (some e) := by
    rw [find_single g v hx, Volume.FoundAt.lookup hfound]
  have hwrite : fs.write path data d
      = fs.writeExisting (trimStartMatches '/' path) e data d := by
    rcases write_ok_inv (walkable_dirAt h hdots) .root hd hok with ⟨e₁, hf, hw⟩ | ⟨hf, _⟩
    · rw [hfind] at hf
      cases hf
      exact hw
    · rw [hfind] at hf
      cases hf
  obtain ⟨A, raw, B, hS, rfl, hA, hlive, rfl, hnone, hmatch⟩ := hfound
  have hmem := mem_owned_root hS hA hlive
  rw [hwrite] at hok
  obtain ⟨hle, hfit, i, hi', hst⟩ := writeExisting_ok_inv hd h.root (h.chained _ .root _ hmem)
    (h.apart _ .root _ hmem) hok
  rw [hi] at hi'
  cases hi'
  have hl := clustersOf_live (v := v) hlive
  have hpos := clustersFor_pos fs data
  have hfirst := firstFree_lt g hpos hle
  have hfc := rewritten_firstCluster (ofBytes raw) hfirst.2 data
  have hsize := rewritten_fileSize (ofBytes raw)
    (v.clear (v.entryChain (ofBytes raw))).firstFree hlen
  have hanswers := nameMatches_rewritten (ofBytes raw)
    (v.clear (v.entryChain (ofBytes raw))).firstFree data (lfnAfter A)
  have hlive' := isLive_toBytes (e := rewritten (ofBytes raw)
    (v.clear (v.entryChain (ofBytes raw))).firstFree data) hlive
  have hdir' := (rewritten_isDirectory (ofBytes raw)
    (v.clear (v.entryChain (ofBytes raw))).firstFree data).trans hdir
  generalize rewritten (ofBytes raw) _ data = e' at *
  have hfile : ∀ e ∈ liveOf raw, e.isDirectory = false := by
    intro e he
    rw [liveOf_live hlive, mem_singleton] at he
    rw [he, hdir]
  obtain ⟨hrep, hslots, _⟩ := fill_replaces h hS hA (.inl hlive) hl
    (noStale_of_not_last (isLast_of_isLive hlive) B) g hpos hle data hlive' hfc
    (fun x hx hxdir => by
      rw [hfile x hx] at hxdir
      exact nomatch hxdir)
    (fun hxdir => by
      rw [hdir'] at hxdir
      exact nomatch hxdir)
  obtain ⟨hbytes, hlength⟩ := refill_chainData h hS hA hl g hpos hle hfit
    A.length e'.toBytes
  rw [← hfc] at hbytes hlength
  unfold Contract
  rw [hwrite]
  refine contract_of_frame g hd hst h hdots hfile hdir' (hrep.root_frame h).1
    (fun c hc => hrep.listing_below h hfile hc) (fun c f hc => hrep.agree_other h hc) hx
    ?_ ?_ ?_ ?_ ?_
  · intro e he
    rw [liveOf_live hlive, mem_singleton] at he
    rw [he, hfind]
  · rw [← hanswers] at hmatch
    exact Volume.FoundAt.lookup ⟨A, _, B, hslots, rfl, hA, hlive', e'.ofBytes_toBytes,
      hnone, hmatch⟩
  · -- the slot answers to the same names as before
    intro y f hy hf
    rw [lookup_live hS hA hlive y] at hy
    rw [lookup_live hslots hA hlive' y, e'.ofBytes_toBytes]
    cases hP : (scanSlots A init).find? (nameMatches y) with
    | some p =>
      rw [hP] at hy
      exact hy
    | none =>
      rw [hP] at hy
      cases hm : nameMatches y (ofBytes raw,
          (lfnAfter A).nameFor (ofBytes raw).name) with
      | true =>
        simp [hm] at hy
        rw [liveOf_live hlive, hy] at hf
        exact absurd mem_cons_self hf
      | false => simpa [hm, hanswers y] using hy
  · refine hrep.chained' e' (mem_singleton_self _) ?_
    have := hfirst.1.1
    omega
  · exact fileOutcome_stored hsize hbytes (by rw [hlength]; exact hfit)

/-- A new file keeps the contract. -/
lemma contract_enter (hnew : v.Enterable path x) : Contract fs d path data := by
  obtain ⟨hnone, n, i, hn, hi, h₁, h₂, hname, hfree⟩ := hnew
  have hfind : v.find path = .ok none := by rw [find_single g v hx, hnone]
  have hwrite : fs.write path data d = fs.writeNew (trimStartMatches '/' path) data d := by
    rcases write_ok_inv (walkable_dirAt h hdots) .root hd hok with ⟨e₁, hf, _⟩ | ⟨_, hw⟩
    · rw [hfind] at hf
      cases hf
    · exact hw
  rw [hwrite] at hok
  obtain ⟨hle, hfit, n', i', hn', hi', hst⟩ := writeNew_ok_inv hd h.root hok
  rw [hn] at hn'
  cases hn'
  rw [hi] at hi'
  cases hi'
  obtain ⟨A, raw, B, hS, rfl, hraw, hA⟩ := freeSlot_split hi
  have hpos := clustersFor_pos fs data
  have hfirst := firstFree_lt g hpos hle
  have hfc := newEntry_firstCluster n 0x20 hfirst.2 (data.length % 2 ^ 32)
  have hlive' := isLive_toBytes (newEntry_live (.inl rfl) h₁ h₂ v.firstFree (data.length % 2 ^ 32))
  have hdir' := newEntry_file n v.firstFree (data.length % 2 ^ 32)
  have hsize := newEntry_fileSize n v.firstFree hlen
  have hanswers := nameMatches_newEntry hS n v.firstFree (data.length % 2 ^ 32)
  generalize newEntry n 0x20 v.firstFree (data.length % 2 ^ 32) = e' at *
  obtain ⟨hroot', hslots, hbelow, hkept⟩ := enter_frame h hS (fs.clustersFor data) data
    e'.toBytes_length
  obtain ⟨hchain', hbytes, hlength⟩ := enter_chain h.root g hpos hle hfit A.length e'.toBytes
  rw [← hfc] at hchain' hbytes hlength
  unfold Contract
  rw [hwrite]
  refine contract_of_frame g hd hst h hdots (X := [])
    (fun _ he => absurd he not_mem_nil) hdir' hroot'
    hbelow (fun c f hc hf _ => hkept c f hc hf) hx (fun _ he => absurd he not_mem_nil) ?_ ?_ hchain'
    (fileOutcome_stored hsize hbytes (by rw [hlength]; exact hfit))
  · -- nothing in front of the slot answers to the name
    rw [lookup_live hslots hA hlive', e'.ofBytes_toBytes, lookup_before hS hA hraw hnone]
    simp [(hanswers x).mpr hname]
  · intro y f hy _
    rw [lookup_live hslots hA hlive', e'.ofBytes_toBytes]
    rcases lookup_free hS hA hraw hy with hfront | ⟨hfront, hback⟩
    · obtain ⟨p, hp, rfl⟩ := Option.map_eq_some_iff.mp hfront
      simp [hp]
    · have hno : nameMatches y (e', (lfnAfter A).nameFor e'.name) = false := by
        rw [Bool.eq_false_iff]
        intro hm
        obtain ⟨m, hm, hup⟩ := (hanswers y).mp hm
        rcases hfree m hm with hm | hm
        · rw [v.lookup_congr _ hup, hy] at hm
          cases hm
        · unfold FoundBefore at hm
          rw [hS, take_left, nameMatches_congr hup] at hm
          exact hm hfront
      simpa [hfront, hno] using hback

end

/-! ## The condition is needed -/

namespace Volume

section
variable (h : v.WellFormed) (hdots : v.DotsClosed) (ht : v.Tidy)

include h hdots ht

/-- Below the root of a tidy volume no walk comes back to the root. -/
lemma walkable_below : v.Walkable fun c => v.DirAt c ∧ c ≠ fs.rootCluster := by
  refine ⟨fun c hc => h.dirAt_chained hc.1, ?_⟩
  rintro c ⟨hc, hne⟩ x e hx hdir
  obtain ⟨lfn, hmem⟩ := mem_of_lookup hx
  rcases owned_or_dot hmem with hown | ⟨_, hdot⟩
  · exact .inr ⟨.sub hc hown hdir, h.owned_ne_root hc hown (h.dirs c hc e hown hdir)⟩
  · have hroot := ht.dots c hc hne (e, lfn) hmem hdot
    exact (hdots c hc hne (e, lfn) hmem hdot).2.imp_right fun hat => ⟨hat, hroot⟩

/-- What is found on a tidy volume is apart from the root directory. -/
lemma found_apart {path : Str} (hf : v.find path = .ok (some e)) :
    v.EntryOk e ∧ (v.chainOf fs.rootCluster).Disjoint (v.entryChain e) := by
  obtain ⟨c, lfn, hc, hmem⟩ := resolve_mem (walkable_dirAt h hdots) _ _ .root hf
  rcases owned_or_dot hmem with hown | ⟨hne, hdot⟩
  · exact ⟨h.chained c hc e hown, h.apart c hc e hown⟩
  · have hroot := ht.dots c hc hne (e, lfn) hmem hdot
    rcases (hdots c hc hne (e, lfn) hmem hdot).2 with h0 | hat
    · refine ⟨fun hn => absurd h0 hn, ?_⟩
      unfold entryChain
      rw [if_pos h0]
      exact disjoint_nil_right _
    · have hch := h.dirAt_chained hat
      refine ⟨fun _ => hch, ?_⟩
      unfold entryChain
      split
      next => exact disjoint_nil_right _
      next => exact h.dirAt_apart hat hroot

end

/-- A root directory with a free slot filled. The new entry may be one that
cannot be seen, and may then hide what is behind it. -/
lemma listing_entered {w : Volume fs} {A B : List (List UInt8)} {raw : List UInt8} (hA : NoEnd A)
    (hS : w.rootSlots = A ++ raw :: B)
    (hraw : isLive raw = true ∨ (ofBytes raw).isFree = true) :
    ∃ Q, (Q = scanSlots B init ∨ Q = []) ∧ w.listing fs.rootCluster
      = scanSlots A init
        ++ ((liveOf raw).map (fun e => (e, (lfnAfter A).nameFor e.name)) ++ Q) := by
  have hlist : w.listing fs.rootCluster = scanSlots w.rootSlots init := rfl
  rw [hlist, hS]
  rcases hraw with hlive | hfree
  · refine ⟨_, .inl rfl, ?_⟩
    rw [scanSlots_at hA hlive, liveOf_live hlive]
    rfl
  · rw [liveOf_free hfree]
    cases hlast : (ofBytes raw).isLast with
    | false => exact ⟨_, .inl rfl, scanSlots_delete hA hfree hlast⟩
    | true => exact ⟨_, .inr rfl, by simp [scanSlots_at_end hA hlast]⟩

section
variable {A B : List (List UInt8)} {raw raw' : List UInt8}
  (hS : v.rootSlots = A ++ raw :: B) (hB : NoStale raw B) (hA : NoEnd A)
  (hraw : (DirectoryEntry.ofBytes raw).isFree = true) (hS' : w.rootSlots = A ++ raw' :: B)
  (hraw' : isLive raw' = true ∨ (DirectoryEntry.ofBytes raw').isFree = true)

include hS hB hA hraw hS' hraw'

/-- A lookup after a free slot was filled finds what it found before, or the new
entry. -/
lemma lookup_entered {y : Str} {f : DirectoryEntry} (hy : w.lookup fs.rootCluster y = some f) :
    v.lookup fs.rootCluster y = some f
      ∨ isLive raw' = true ∧ f = ofBytes raw'
        ∧ nameMatches y (f, (lfnAfter A).nameFor f.name) = true := by
  obtain ⟨Q, hQ, hlist⟩ := listing_entered hA hS' hraw'
  rw [lookup_around hS hB hA (.inr hraw), liveOf_free hraw]
  unfold lookup at hy
  rw [hlist, find?_append, find?_append] at hy
  cases hP : (scanSlots A init).find? (nameMatches y) with
  | some p =>
    rw [hP] at hy
    exact .inl hy
  | none =>
    rw [hP, Option.none_or] at hy
    cases hM : ((liveOf raw').map fun e => (e, (lfnAfter A).nameFor e.name)).find?
      (nameMatches y) with
    | some p =>
      rw [hM] at hy
      cases hy
      have hm := find?_some hM
      obtain ⟨e, he, rfl⟩ := mem_map.mp (mem_of_find?_eq_some hM)
      unfold liveOf at he
      split at he
      next hlive => exact .inr ⟨hlive, mem_singleton.mp he, hm⟩
      next => cases he
    | none =>
      rw [hM, Option.none_or] at hy
      rcases hQ with rfl | rfl
      · exact .inl hy
      · cases hy

/-- The root has no new directory, if the new entry is a file. -/
lemma owned_entered (hfile : (ofBytes raw').isDirectory = false)
    {f : DirectoryEntry} (hf : f ∈ w.owned fs.rootCluster) (hdir : f.isDirectory = true) :
    f ∈ v.owned fs.rootCluster := by
  obtain ⟨Q, hQ, hlist⟩ := listing_entered hA hS' hraw'
  have hperm := owned_root_perm hS hB hA (.inr hraw)
  rw [liveOf_free hraw, nil_append] at hperm
  rw [owned_root, hlist] at hf
  obtain ⟨p, hp, rfl⟩ := mem_map.mp hf
  refine hperm.mem_iff.mpr (mem_map.mpr ⟨p, ?_, rfl⟩)
  rcases mem_append.mp hp with hP | hp
  · exact mem_append_left _ hP
  · rcases mem_append.mp hp with hM | hp
    · obtain ⟨e, he, rfl⟩ := mem_map.mp hM
      unfold liveOf at he
      split at he
      next =>
        rw [mem_singleton.mp he, hfile] at hdir
        cases hdir
      next => cases he
    · rcases hQ with rfl | rfl
      · exact mem_append_right _ hp
      · cases hp

/-- A path that leads somewhere only since a free root slot was filled is a name
the new entry answers to. -/
lemma find_entered (g : Geometry fs) (h : v.WellFormed) (hdots : v.DotsClosed) (ht : v.Tidy)
    (hfile : (ofBytes raw').isDirectory = false)
    (hbelow : ∀ c, v.DirAt c → c ≠ fs.rootCluster → w.listing c = v.listing c) {path : Str}
    {f : DirectoryEntry} (hv : v.find path = .ok none) (hw : w.find path = .ok (some f)) :
    ∃ x, components (trimStartMatches '/' path) = [x] ∧ v.lookup fs.rootCluster x = none
      ∧ isLive raw' = true ∧ f = ofBytes raw'
      ∧ nameMatches x (f, (lfnAfter A).nameFor f.name) = true := by
  have hroot0 := rootCluster_ne_zero g
  have hlook := fun y e => @lookup_entered fs v w A B raw raw' hS hB hA hraw hS' hraw' y e
  unfold find at hv hw
  cases hc : components (trimStartMatches '/' path) with
  | nil =>
    rw [hc] at hw
    cases hw
  | cons x rest =>
    cases rest with
    | nil =>
      rw [hc, resolve, if_neg hroot0] at hv hw
      injection hv with hnone
      injection hw with hsome
      refine ⟨x, rfl, hnone, (hlook x f hsome).resolve_left fun hv => ?_⟩
      rw [hnone] at hv
      cases hv
    | cons y rest =>
      -- the walk goes through a directory, so not through the new file, and
      -- does not come back to the root
      rw [hc, resolve, if_neg hroot0] at hv hw
      split at hw
      next e he =>
        split at hw
        next hdir =>
          rcases hlook x e he with hve | ⟨_, rfl, _⟩
          · simp only [hve, hdir, if_true] at hv
            have hsame := resolve_congr (walkable_below h hdots ht) (w := w) (fun c hc x => by
                unfold lookup
                rw [hbelow c hc.1 hc.2]) (y :: rest) e.firstCluster
              (.inr ?_)
            · rw [hsame, hv] at hw
              cases hw
            · obtain ⟨lfn, hmem⟩ := mem_of_lookup hve
              have hown : e ∈ v.owned fs.rootCluster := by
                rw [owned_root]
                exact mem_map.mpr ⟨_, hmem, rfl⟩
              exact ⟨.sub .root hown hdir, h.owned_ne_root .root hown (h.dirs _ .root e hown hdir)⟩
          · rw [hfile] at hdir
            cases hdir
        next => cases hw
      next => cases hw

end

end Volume

/-- The entry of a new file is live, unless its name starts with a mark. -/
lemma newEntry_seen (n : Vector UInt8 11) (f size : Nat) :
    ((newEntry n 0x20 f size).live = true ∧ mark n ≠ 0xE5 ∧ mark n ≠ 0)
      ∨ (newEntry n 0x20 f size).isFree = true := by
  by_cases h₁ : mark n = 0xE5
  · exact .inr (by simp [isFree, newEntry, h₁])
  · by_cases h₂ : mark n = 0
    · exact .inr (by simp [isFree, newEntry, h₂])
    · exact .inl ⟨newEntry_live (.inl rfl) h₁ h₂ _ _, h₁, h₂⟩

section
variable {g : Geometry fs} {d : Disk} {path : Str}
  (hd : Stands g d v) (h : v.WellFormed) (hdots : v.DotsClosed) (ht : v.Tidy)

include hd h hdots ht

/-- A rewritten file that is read back could be stored. -/
lemma storable_of_rewrite (hf : v.find path = .ok (some e))
    (hok : (fs.writeExisting (trimStartMatches '/' path) e data d).1 = .ok ())
    (hread : (fs.read path (fs.writeExisting (trimStartMatches '/' path) e data d).2).1
      = .ok data) : v.Storable path data := by
  obtain ⟨he, hdis⟩ := found_apart h hdots ht hf
  obtain ⟨_, _, i, hi, hst⟩ := writeExisting_ok_inv hd h.root he hdis hok
  obtain ⟨x, hx, hfound⟩ := ht.unaliased path i e hi hf
  refine ⟨read_length_lt hread, x, hx, .inl ⟨i, e, hfound, hi, ?_⟩⟩
  rw [Bool.eq_false_iff]
  intro hdir
  -- the rewritten entry is found again, and is a directory still
  obtain ⟨A, raw, B, hS, rfl, hA, hlive, rfl, hnone, hmatch⟩ := hfound
  obtain ⟨hr, hchain, hs⟩ := rootSlots_frame h.root
    (refill_agree h.root hdis (fs.clustersFor data) data)
  have hanswers := nameMatches_rewritten (ofBytes raw)
    (v.clear (v.entryChain (ofBytes raw))).firstFree data (lfnAfter A) x
  have hlive' := isLive_toBytes (e := rewritten (ofBytes raw)
    (v.clear (v.entryChain (ofBytes raw))).firstFree data) hlive
  have hdir' := (rewritten_isDirectory (ofBytes raw)
    (v.clear (v.entryChain (ofBytes raw))).firstFree data).trans hdir
  generalize rewritten (ofBytes raw) _ data = e' at *
  generalize (v.clear (v.entryChain (ofBytes raw))).fill _ data = W at *
  have hslots := setSlot_exchange hr (hs.trans hS) e'.toBytes_length
  rw [← hanswers] at hmatch
  have hlook := Volume.FoundAt.lookup
    ⟨A, _, B, hslots, rfl, hA, hlive', e'.ofBytes_toBytes, hnone, hmatch⟩
  have hroot' := setSlot_chained A.length e'.toBytes hr
  have hfind : Runs (Stands g) (fs.findFile path) (W.setSlot A.length e'.toBytes)
      (.ok (some e')) (W.setSlot A.length e'.toBytes) := by
    rw [← hlook]
    unfold findFile
    rw [hx, findFileFrom]
    exact findFileInDirectory_runs g hroot' x
  rw [(read_directory hfind hdir').outcome hst] at hread
  cases hread

/-- A new file that is read back could be stored. -/
lemma storable_of_enter (hf : v.find path = .ok none)
    (hok : (fs.writeNew (trimStartMatches '/' path) data d).1 = .ok ())
    (hread : (fs.read path (fs.writeNew (trimStartMatches '/' path) data d).2).1 = .ok data) :
    v.Storable path data := by
  obtain ⟨_, _, n, i, hn, hi, hst⟩ := writeNew_ok_inv hd h.root hok
  obtain ⟨A, raw, B, hS, rfl, hraw, hA⟩ := freeSlot_split hi
  have hB := (ht.fresh _ hi).split hS
  have hanswers := nameMatches_newEntry hS n v.firstFree (data.length % 2 ^ 32)
  have hseen := newEntry_seen n v.firstFree (data.length % 2 ^ 32)
  have hfile := newEntry_file n v.firstFree (data.length % 2 ^ 32)
  generalize newEntry n 0x20 v.firstFree (data.length % 2 ^ 32) = e' at *
  have hof := e'.ofBytes_toBytes
  have hraw' : isLive e'.toBytes = true ∨ (ofBytes e'.toBytes).isFree = true := by
    rw [hof]
    exact hseen.imp_left fun hl => isLive_toBytes hl.1
  rw [← hof] at hfile
  -- the directories below are as they were, the root has at most a file more
  obtain ⟨hroot', hslots, hbelow, _⟩ := enter_frame h hS (fs.clustersFor data) data
    e'.toBytes_length
  have hwalk := walkable_of_listing h hdots hroot' hbelow fun f hf hdir =>
    owned_entered hS hB hA hraw hslots hraw' hfile hf hdir
  obtain ⟨f, hfound⟩ := read_ok_found hread
  rw [(findFile_runs g hwalk .root path).outcome hst] at hfound
  obtain ⟨x, hx, hnone, hlive, rfl, hm⟩ := find_entered hS hB hA hraw hslots hraw' g h hdots
    ht hfile (fun c hc hne => (hbelow c hc hne).2) hf hfound
  refine ⟨read_length_lt hread, x, hx, .inr ⟨hnone, n, A.length, hn, hi, ?_⟩⟩
  rw [hof] at hm
  rcases hseen with ⟨_, h₁, h₂⟩ | hfree
  · obtain ⟨m, hmem, hup⟩ := (hanswers x).mp hm
    refine ⟨h₁, h₂, ⟨m, hmem, hup⟩, fun k hk => .inl ?_⟩
    by_cases hstray : (lfnAfter (v.rootSlots.take A.length)).nameFor n = none
    · -- then the 8.3 name is the only one
      have honly : v.answers n A.length = [spell n] := by
        unfold answers
        rw [hstray]
        rfl
      rw [honly, mem_singleton] at hmem hk
      rw [hk, ← hmem, v.lookup_congr _ hup, hnone]
    · exact ht.unhidden n _ hi hstray k hk
  · have hno := isFree_of_isLive hlive
    rw [hof, hfree] at hno
    cases hno

end

/-- A write that returned `Ok` keeps the contract if the path is storable, and on
a tidy volume only then. -/
theorem write_read_contract (g : Geometry fs) (d : Disk) (hm : fs.Mirrored d)
    (hwf : (view g d).WellFormed) (hdots : (view g d).DotsClosed) (path : Str) (data : List UInt8)
    (hok : (fs.write path data d).1 = .ok ()) :
    ((view g d).Storable path data → Contract fs d path data)
      ∧ ((view g d).Tidy → Contract fs d path data → (view g d).Storable path data) := by
  have hd : Stands g d (view g d) := ⟨hm, rfl⟩
  constructor
  · rintro ⟨hlen, x, hx, hre | hnew⟩
    · exact contract_rewrite hd hwf hdots hlen hx hok hre
    · exact contract_enter hd hwf hdots hlen hx hok hnew
  · rintro ht ⟨hread, _⟩
    rcases write_ok_inv (walkable_dirAt hwf hdots) .root hd hok with ⟨e, hf, hw⟩ | ⟨hf, hw⟩
    · rw [hw] at hok hread
      exact storable_of_rewrite hd hwf hdots ht hf hok hread
    · rw [hw] at hok hread
      exact storable_of_enter hd hwf hdots ht hf hok hread

/-- The dots of the only subdirectory. -/
lemma dots_small {v : Volume smallFs}
    (h2 : ∀ e ∈ v.owned 2, e.isDirectory = true → e.firstCluster = 3)
    (h3 : ∀ e ∈ v.owned 3, e.isDirectory = false)
    (hlist : ∀ p ∈ v.listing 3, isDot p.1 = true →
      p.1.isDirectory = true ∧ (p.1.firstCluster = 0 ∨ p.1.firstCluster = 3)) : v.DotsClosed := by
  intro c hc hne p hp hdot
  rcases dirAt_small h2 h3 hc with rfl | rfl
  · exact absurd rfl hne
  · obtain ⟨hd, h0 | h3⟩ := hlist p hp hdot
    · exact ⟨hd, .inl h0⟩
    · rw [h3]
      exact ⟨hd, .inr hc⟩

lemma smallDisk_dots : (view smallGeometry smallDisk).DotsClosed :=
  dots_small (by decide +kernel) (by decide +kernel) (by decide +kernel)

/-- A new file `B` in the root directory: stored, and the rest is as it was. -/
theorem write_read_contract_small :
    (smallFs.write ['B'] [7] smallDisk).1 = .ok () ∧ Contract smallFs smallDisk ['B'] [7] := by
  have hok : (smallFs.write ['B'] [7] smallDisk).1 = .ok () := by decide +kernel
  have hnone : (view smallGeometry smallDisk).lookup smallFs.rootCluster ['B'] = none := by
    decide +kernel
  have hslot : (view smallGeometry smallDisk).freeSlot = some 1 := by decide +kernel
  have hnames : (view smallGeometry smallDisk).answers (shortName [0x42] []) 1 = [['B']] := by
    decide +kernel
  refine ⟨hok, (write_read_contract smallGeometry smallDisk smallDisk_mirrored smallDisk_sound.2.1
    smallDisk_dots ['B'] [7] hok).1 ⟨by decide, ['B'], by decide, .inr ⟨hnone, ?_⟩⟩⟩
  refine ⟨shortName [0x42] [], 1, rfl, hslot, by decide, by decide, ?_⟩
  rw [hnames]
  exact ⟨⟨['B'], mem_cons_self, rfl⟩, fun m hm => .inl (mem_singleton.mp hm ▸ hnone)⟩

/-- A new file in a subdirectory: `write` returns `Ok`, but the entry went to the
root under the name `D/G`, where no walk finds it. -/
theorem nested_write_lost :
    smallFs.Mirrored smallDisk ∧ (view smallGeometry smallDisk).WellFormed
      ∧ (view smallGeometry smallDisk).DotsClosed
      ∧ (smallFs.write ['D', '/', 'G'] [9] smallDisk).1 = .ok ()
      ∧ (smallFs.read ['D', '/', 'G'] (smallFs.write ['D', '/', 'G'] [9] smallDisk).2).1
          = .err .fileNotFound
      ∧ ¬Contract smallFs smallDisk ['D', '/', 'G'] [9] := by
  have hread : (smallFs.read ['D', '/', 'G']
      (smallFs.write ['D', '/', 'G'] [9] smallDisk).2).1 = .err .fileNotFound := by decide +kernel
  refine ⟨smallDisk_mirrored, smallDisk_sound.2.1, smallDisk_dots, by decide +kernel, hread, ?_⟩
  rintro ⟨hok, _⟩
  rw [hread] at hok
  cases hok

end RustOs.Fs.Fat32
