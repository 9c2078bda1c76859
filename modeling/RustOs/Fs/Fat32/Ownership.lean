import RustOs.Fs.Fat32.Exchange

/-!
# Ownership along runs

A run is any sequence of `write`, `delete`, `mkdir` and `rmdir` calls. The
volume stays sound (`Sound`: equal FAT copies, every live entry with a chain of
its own, nothing else allocated) as long as each call meets `StepOk`, and that
condition is about the volume the call finds:

* a file that is overwritten or deleted is the entry its name selects in the
  root directory, in front of the end mark. The driver frees the chain of the entry it
  found by walking the path, but rewrites the slot it finds by turning the whole path into an
  8.3 name, and these may be different entries or no entry;
* an overwrite finds enough room, since the old chain is freed first;
* a new file or directory finds a slot, has an 8.3 name and a first byte that
  does not mark the slot free, since its clusters are taken first. If the slot is
  the end mark, no stale entry stands behind it, which would become live;
* `write` is not called on a directory.

`sound_run` is the theorem; `mkdir_leaks` is the shortest run that breaks it,
one `mkdir` of a name that is too long.
-/

namespace RustOs.Fs.Fat32

open Lib Nat DirectoryEntry Bool VfsError Prog Volume Drivers
open DirectoryEntry (ofBytes)
open List hiding Vector

variable {fs : Fat32}

/-! ## Calls and runs -/

/-- The calls that change a volume. -/
inductive Call where
  | write (path : Str) (data : List UInt8)
  | delete (path : Str)
  | mkdir (path : Str)
  | rmdir (path : Str)

/-- The driver function behind a call. -/
def Call.run (fs : Fat32) : Call → Prog Disk VfsError Unit
  | .write path data => fs.write path data
  | .delete path => fs.delete path
  | .mkdir path => fs.mkdir path
  | .rmdir path => fs.rmdir path

/-- The disks after each call of a run. A call that panics ends the run. -/
def trace (fs : Fat32) : Disk → List Call → List Disk
  | _, [] => []
  | d, c :: calls =>
    if (c.run fs d).1.Returns then (c.run fs d).2 :: trace fs (c.run fs d).2 calls else []

/-- Equal FAT copies, and every allocated cluster in the chain of exactly one
live entry or of the root directory. -/
def Sound (g : Geometry fs) (d : Disk) : Prop :=
  fs.Mirrored d ∧ (view g d).WellFormed ∧ (view g d).NoLeak

/-! ## The condition on a step -/

namespace Volume

/-- The root slot that the 8.3 form of the path selects holds this entry, and stands in front
of the end mark. -/
def HeldAt (v : Volume fs) (path : Str) (e : DirectoryEntry) : Prop :=
  ∃ i raw, v.slotFor path = some i ∧ v.rootSlots[i]? = some raw ∧ DirectoryEntry.ofBytes raw = e
    ∧ NoEnd (v.rootSlots.take i)

/-- No stale entry becomes live when the root slot is taken. -/
def NoStaleAt (v : Volume fs) (i : Nat) : Prop :=
  ∀ raw, v.rootSlots[i]? = some raw → NoStale raw (v.rootSlots.drop (i + 1))

/-- A new entry of this name can be stored and seen, and nothing else is seen with it. -/
def Creatable (v : Volume fs) (path : Str) : Prop :=
  (∃ n, toShortName path = .ok n ∧ mark n ≠ 0xE5 ∧ mark n ≠ 0)
    ∧ ∃ i, v.freeSlot = some i ∧ v.NoStaleAt i

end Volume

variable {e : DirectoryEntry} {v w : Volume fs} {c : Nat} {raw : List UInt8}

/-- The data is counted in clusters without wrapping around. -/
def Counted (fs : Fat32) (data : List UInt8) : Prop :=
  data.length ≤ fs.clustersFor data * fs.clusterSize

instance (fs : Fat32) (data : List UInt8) : Decidable (fs.Counted data) :=
  inferInstanceAs (Decidable (_ ≤ _))

/-- `rmdir` found nothing but `.` and `..` in the directory. -/
def FoundEmpty (fs : Fat32) (d : Disk) (e : DirectoryEntry) : Prop :=
  ∃ l, (fs.readDirectory e.firstCluster d).1 = .ok l ∧ l.all isDot = true

/-- The test of `rmdir`. -/
lemma all_isDot_iff {l : List DirectoryEntry} :
    l.all isDot = true ↔ ¬(l.filter (fun e => !isDot e)).length > 0 := by
  rw [not_lt, le_zero, length_eq_zero_iff, filter_eq_nil_iff, all_eq_true]
  simp only [not_eq_true', not_eq_false]

/-- What a call must find. -/
@[irreducible] def StepOk (g : Geometry fs) (d : Disk) : Call → Prop
  | .write path data =>
    match (fs.findFile (trimStartMatches '/' path) d).1 with
    | .ok (some e) =>
      e.isDirectory = false ∧ (view g d).HeldAt (trimStartMatches '/' path) e ∧ fs.Counted data
        ∧ fs.clustersFor data ≤ (view g d).freeList.length + ((view g d).entryChain e).length
    | .ok none =>
      (view g d).freeList.length < fs.clustersFor data
        ∨ fs.Counted data ∧ (view g d).Creatable (trimStartMatches '/' path)
    | _ => True
  | .delete path =>
    match (fs.findFile (trimStartMatches '/' path) d).1 with
    | .ok (some e) => e.isDirectory = true ∨ (view g d).HeldAt (trimStartMatches '/' path) e
    | _ => True
  | .mkdir path =>
    match (fs.findFile (trimStartMatches '/' path) d).1 with
    | .ok (some _) => True
    | _ => (view g d).freeList = [] ∨ (view g d).Creatable (trimStartMatches '/' path)
  | .rmdir path =>
    match (fs.findFile (trimStartMatches '/' path) d).1 with
    | .ok (some e) =>
      e.isDirectory = false ∨ ¬fs.FoundEmpty d e ∨ (view g d).HeldAt (trimStartMatches '/' path) e
    | _ => True

/-- Every call of the run meets the condition on the disk it finds. -/
def Admissible (g : Geometry fs) : Disk → List Call → Prop
  | _, [] => True
  | d, c :: calls =>
    StepOk g d c ∧ ((c.run fs d).1.Returns → Admissible g (c.run fs d).2 calls)

/-! ## What a lookup finds is an entry -/

/-- What is found is live. -/
lemma findFileInDirectory_live {name : Str} {d : Disk}
    (h : (fs.findFileInDirectory c name d).1 = .ok (some e)) : e.live = true := by
  have hrun := (findFileInDirectory_readOnly fs c name).run h
  obtain ⟨entries, d₁, hread, hpure⟩ := bind_eq_ok hrun
  obtain ⟨data, d₂, _, hscan⟩ := bind_eq_ok hread
  have hentries : scanSlots (slots data) LfnState.init = entries := by
    have := congrArg Prod.fst hscan
    simpa using this
  have hfind : (entries.find? (nameMatches name)).map (·.1) = some e := by
    have := congrArg Prod.fst hpure
    simpa using this
  obtain ⟨p, hp, rfl⟩ := Option.map_eq_some_iff.mp hfind
  rw [← hentries] at hp
  obtain ⟨raw, _, hlive, heq⟩ := mem_scanSlots (mem_of_find?_eq_some hp)
  rw [heq]
  exact hlive

lemma findFileFrom_live {d : Disk} (names : List Str) :
    ∀ c, (fs.findFileFrom c names d).1 = .ok (some e) → e.live = true := by
  induction names with
  | nil =>
    intro c h
    cases h
  | cons x rest ih =>
    intro c h
    cases rest with
    | nil => exact findFileInDirectory_live h
    | cons y rest =>
      unfold findFileFrom at h
      rcases (findFileInDirectory_readOnly fs c x).bind_cases (by rw [h]; trivial) with
        ⟨found, -, hrun⟩ | ⟨m, -, hrun⟩ <;> rw [hrun] at h
      · cases found with
        | none => cases h
        | some f =>
          simp only at h
          split at h
          next => exact ih _ h
          next => cases h
      · cases h

/-- The walk of `find_file` ends at a live entry, whatever the disk holds. -/
lemma findFile_live {d : Disk} {path : Str}
    (h : (fs.findFile path d).1 = .ok (some e)) : e.live = true :=
  findFileFrom_live _ _ h

/-! ## Entries the driver writes -/

@[simp] lemma rewritten_isDirectory (e : DirectoryEntry) (f : Nat) (data : List UInt8) :
    (rewritten e f data).isDirectory = e.isDirectory := rfl

lemma rewritten_firstCluster (e : DirectoryEntry) {f : Nat} (hf : f < 2 ^ 32) (data : List UInt8) :
    (rewritten e f data).firstCluster = f :=
  e.setFirstCluster_firstCluster hf

lemma newEntry_firstCluster (n : Vector UInt8 11) (a : UInt8) {f : Nat} (hf : f < 2 ^ 32)
    (size : Nat) : (newEntry n a f size).firstCluster = f := by
  simp only [newEntry, firstCluster, UInt16.toNat_ofNat']
  omega

/-- A new entry is live unless its name says that it is not. -/
lemma newEntry_live {n : Vector UInt8 11} {a : UInt8} (ha : a = 0x20 ∨ a = 0x10)
    (h₁ : mark n ≠ 0xE5) (h₂ : mark n ≠ 0) (f size : Nat) : (newEntry n a f size).live = true := by
  have hfree : (newEntry n a f size).isFree = false := by simp [isFree, newEntry, h₁, h₂]
  have hattr : (a &&& 0x0F == 0x0F) = false ∧ (a &&& 0x08 != 0) = false := by
    rcases ha with rfl | rfl <;> decide
  have hlong : (newEntry n a f size).isLongName = false := hattr.1
  have hlabel : (newEntry n a f size).isVolumeLabel = false := hattr.2
  unfold live
  rw [hfree, hlong, hlabel]
  rfl

lemma newEntry_file (n : Vector UInt8 11) (f size : Nat) :
    (newEntry n 0x20 f size).isDirectory = false := by
  show ((0x20 : UInt8) &&& 0x10 != 0) = false
  decide

lemma isLive_toBytes (h : e.live = true) : isLive e.toBytes = true := by
  unfold isLive
  rw [e.ofBytes_toBytes]
  exact h

/-! ## A new directory has nothing in it -/

lemma isLast_of_mem_slots_replicate {k : Nat}
    (h : raw ∈ slots (List.replicate k 0)) : (ofBytes raw).isLast = true := by
  obtain ⟨i, _, rfl⟩ := mem_map.mp h
  simp [slice, isLast, ofBytes, getElem?_replicate]
  split <;> rfl

/-- The slots `mkdir` writes: `.`, `..` and end marks. -/
lemma slots_newDirectory (fs : Fat32) (c parent : Nat) :
    ∃ Z, slots (fs.newDirectory c parent)
        = (newEntry dotName 0x10 c 0).toBytes :: (newEntry dotdotName 0x10 parent 0).toBytes :: Z
      ∧ Z.all (fun r => (ofBytes r).isLast) = true := by
  refine ⟨slots (List.replicate (fs.clusterSize - 64) 0), ?_, ?_⟩
  · unfold newDirectory padTo
    rw [append_assoc, slots_append (toBytes_length _),
      slots_append (toBytes_length _), length_append,
      toBytes_length, toBytes_length]
  · rw [all_eq_true]
    exact fun r hr => isLast_of_mem_slots_replicate hr

lemma newDirectory_length (g : Geometry fs) (c parent : Nat) :
    (fs.newDirectory c parent).length = fs.clusterSize := by
  have hpos := g.spc_pos
  have hcs := clusterSize_eq g
  refine padTo_length ?_
  rw [length_append, toBytes_length, toBytes_length]
  omega

lemma isDot_dotName (c : Nat) : isDot (newEntry dotName 0x10 c 0) = true := by
  show (spell dotName == ['.'] || spell dotName == ['.', '.']) = true
  rfl

lemma isDot_dotdotName (c : Nat) : isDot (newEntry dotdotName 0x10 c 0) = true := by
  show (spell dotdotName == ['.']
    || spell dotdotName == ['.', '.']) = true
  rfl

/-- A directory with these bytes owns nothing. -/
lemma newDirectory_leaf {w : Volume fs} {c parent : Nat}
    (hne : c ≠ fs.rootCluster) (hdata : w.chainData c = fs.newDirectory c parent) :
    w.owned c = [] := by
  obtain ⟨Z, hZ, hall⟩ := slots_newDirectory fs c parent
  have hdot : (newEntry dotName 0x10 c 0).live = true :=
    newEntry_live (.inr rfl) (by decide) (by decide) _ _
  have hdotdot : (newEntry dotdotName 0x10 parent 0).live = true :=
    newEntry_live (.inr rfl) (by decide) (by decide) _ _
  have hend : scanSlots Z LfnState.init = [] := by
    cases Z with
    | nil => rfl
    | cons raw Z => exact scanSlots_end (all_eq_true.mp hall raw mem_cons_self) Z _
  unfold Volume.owned Volume.listing
  rw [hdata, hZ, scanSlots_live (isLive_toBytes hdot), scanSlots_live (isLive_toBytes hdotdot),
    hend, ofBytes_toBytes, ofBytes_toBytes]
  simp [hne, isDot_dotName, isDot_dotdotName]

/-! ## One step -/

lemma getElem?_split {α : Type} {l : List α} {i : Nat} {x : α} (h : l[i]? = some x) :
    ∃ A B, l = A ++ x :: B ∧ A.length = i := by
  obtain ⟨hi, rfl⟩ := List.getElem?_eq_some_iff.mp h
  refine ⟨l.take i, l.drop (i + 1), ?_, length_take_of_le (le_of_lt hi)⟩
  rw [getElem_cons_drop, take_append_drop]

namespace Volume

lemma slotFor_congr (h : w.rootSlots = v.rootSlots) (path : Str) :
    w.slotFor path = v.slotFor path := by
  unfold slotFor
  rw [h]

lemma freeSlot_congr (h : w.rootSlots = v.rootSlots) :
    w.freeSlot = v.freeSlot := by
  unfold freeSlot
  rw [h]

/-- The slot that holds a live entry, split off the root directory. -/
lemma HeldAt.split {path : Str} (hheld : v.HeldAt path e) (hlive : e.live = true) :
    ∃ A raw B, v.rootSlots = A ++ raw :: B ∧ v.slotFor path = some A.length
      ∧ ofBytes raw = e ∧ isLive raw = true ∧ NoEnd A := by
  obtain ⟨i, raw, hi, hraw, rfl, hfront⟩ := hheld
  obtain ⟨A, B, hS, rfl⟩ := getElem?_split hraw
  rw [hS, take_left] at hfront
  exact ⟨A, raw, B, hS, hi, rfl, hlive, hfront⟩

/-- The slot a new entry will take, split off the root directory. -/
lemma freeSlot_split {i : Nat} (hi : v.freeSlot = some i) :
    ∃ A raw B, v.rootSlots = A ++ raw :: B ∧ A.length = i
      ∧ (ofBytes raw).isFree = true ∧ NoEnd A := by
  obtain ⟨A, raw, B, hS, rfl, hraw, hA⟩ := findIdx?_split hi
  refine ⟨A, raw, B, hS, rfl, ?_, ?_⟩
  · rcases (or_eq_true _ _).mp hraw with hf | hl
    · exact hf
    · exact isFree_of_isLast hl
  · intro r hr
    exact (or_eq_false_iff.mp (hA r hr)).2

/-- Behind the slot that is split off. -/
lemma NoStaleAt.split {A B : List (List UInt8)} (h : v.NoStaleAt A.length)
    (hS : v.rootSlots = A ++ raw :: B) : NoStale raw B := by
  have hraw := h raw
  rw [hS, getElem?_append_right (Nat.le_refl _), Nat.sub_self, drop_length_add_append] at hraw
  exact hraw rfl

lemma firstFree_lt (g : Geometry fs) {n : Nat} (hn : 0 < n)
    (hle : n ≤ v.freeList.length) : fs.InRange v.firstFree ∧ v.firstFree < 2 ^ 32 := by
  obtain ⟨F, hF⟩ := take_freeList hn hle
  have hr := (mem_freeList.mp (mem_of_mem_take (hF ▸ mem_cons_self
    : v.firstFree ∈ v.freeList.take n))).1
  have hnum := g.numbers
  have hr₂ := hr.2
  exact ⟨hr, by omega⟩

lemma entryChain_nodup (he : v.EntryOk e) : (v.entryChain e).Nodup := by
  unfold entryChain
  split
  next => exact nodup_nil
  next h0 => exact (he h0).nodup

/-- The room left once an entry's chain is given back. -/
lemma freeList_clear_length (he : v.EntryOk e) :
    (v.clear (v.entryChain e)).freeList.length = v.freeList.length + (v.entryChain e).length := by
  have hp := freeList_clear_perm v (entryChain_nodup he)
    (fun c hc => (entryChain_allocated he hc).1)
    fun c hc => (entryChain_allocated he hc).2
  rw [hp.length_eq, length_append]

end Volume

section
variable {g : Geometry fs} {d : Disk}

variable {path : Str} {data : List UInt8} {A B : List (List UInt8)}

lemma sound_of_stands {w : Volume fs} (hs : Stands g d w) (hw : w.WellFormed) (hl : w.NoLeak) :
    Sound g d := by
  obtain ⟨hm, rfl⟩ := hs
  exact ⟨hm, hw, hl⟩

/-- A new entry for the clusters just filled keeps the volume sound. -/
lemma sound_fill (h : v.WellFormed) (hnl : v.NoLeak)
    {l : List Nat} {n i : Nat} {bs : List UInt8} {e' : DirectoryEntry}
    (hl : Volume.ClustersOf v raw l) (hw : ((v.clear l).fill n data).setSlot i bs = w)
    (hrep : Volume.Replaces v w (liveOf raw) [e'] (others A B))
    (hchain : w.entryChain e' = (v.clear l).freeList.take n) : w.WellFormed ∧ w.NoLeak := by
  refine ⟨h.replace hrep, Volume.NoLeak.replace h hrep hnl fun c _ ha => ?_⟩
  rw [← hw] at ha
  rcases fill_allocated hl ha with hc | hkeep
  · exact .inl ⟨e', mem_singleton_self _, by rw [hchain]; exact hc⟩
  · exact .inr hkeep

/-- Overwriting a file keeps the volume sound. -/
lemma writeExisting_sound (hd : Sound g d)
    (hlive : e.live = true) (hdir : e.isDirectory = false) (hheld : (view g d).HeldAt path e)
    (hcount : fs.Counted data)
    (hroom : fs.clustersFor data ≤ (view g d).freeList.length + ((view g d).entryChain e).length) :
    ∃ d', fs.writeExisting path e data d = (.ok (), d') ∧ Sound g d' := by
  obtain ⟨hm, hwf, hnl⟩ := hd
  obtain ⟨A, raw, B, hS, hi, rfl, hraw, hA⟩ := hheld.split hlive
  have he := hwf.chained _ .root _ (mem_owned_root hS hA hraw)
  have hl := clustersOf_live (v := view g d) hraw
  have hpos := clustersFor_pos fs data
  have hle : fs.clustersFor data
      ≤ ((view g d).clear ((view g d).entryChain (ofBytes raw))).freeList.length := by
    rw [freeList_clear_length he]
    exact hroom
  obtain ⟨hroot, _, hslots⟩ := refill_root hwf hS hA hl (fs.clustersFor data) data
  rw [← slotFor_congr hslots] at hi
  obtain ⟨d', hrun, hst⟩ := writeExisting_runs (R := Stands g) g he hle hcount hroot hi d ⟨hm, rfl⟩
  have hfirst := (firstFree_lt g hpos hle).2
  obtain ⟨hrep, _, hchain⟩ := fill_replaces hwf hS hA (.inl hraw) hl
    (noStale_of_not_last (isLast_of_isLive hraw) B) g hpos hle data
    (f := rewritten (ofBytes raw) _ data) (isLive_toBytes hlive)
    (rewritten_firstCluster _ hfirst data)
    (by
      intro x hx hxdir
      rw [liveOf_live hraw, mem_singleton] at hx
      rw [hx, hdir] at hxdir
      exact nomatch hxdir)
    (by
      intro hxdir
      rw [rewritten_isDirectory, hdir] at hxdir
      exact nomatch hxdir)
  obtain ⟨hw, hwl⟩ := sound_fill hwf hnl hl rfl hrep hchain
  exact ⟨d', hrun, sound_of_stands hst hw hwl⟩

/-- Creating a file keeps the volume sound. -/
lemma writeNew_sound (hd : Sound g d) (hcount : fs.Counted data)
    (hcreate : (view g d).Creatable path)
    (hroom : fs.clustersFor data ≤ (view g d).freeList.length) :
    ∃ d', fs.writeNew path data d = (.ok (), d') ∧ Sound g d' := by
  obtain ⟨hm, hwf, hnl⟩ := hd
  obtain ⟨⟨n, hn, h₁, h₂⟩, i, hi, hstale⟩ := hcreate
  obtain ⟨A, raw, B, hS, rfl, hraw, hA⟩ := freeSlot_split hi
  have hl := clustersOf_free (v := view g d) hraw
  have hpos := clustersFor_pos fs data
  have hroot := refill_root hwf hS hA hl (fs.clustersFor data) data
  have hfirst := (firstFree_lt g hpos hroom).2
  have hrep := fill_replaces hwf hS hA (.inr hraw) hl (hstale.split hS) g hpos
    (by rw [clear_nil]; exact hroom) data
    (f := newEntry n 0x20 (view g d).firstFree (data.length % 2 ^ 32))
    (isLive_toBytes (newEntry_live (.inl rfl) h₁ h₂ _ _))
    (by rw [clear_nil]; exact newEntry_firstCluster n _ hfirst _)
    (by rw [liveOf_free hraw]; exact fun x hx => nomatch hx)
    (by rw [newEntry_file]; exact fun hdir => nomatch hdir)
  rw [← freeSlot_congr hroot.2.2] at hi
  obtain ⟨d', hrun, hst⟩ := writeNew_runs (R := Stands g) g hroom hcount hroot.1 hn hi d ⟨hm, rfl⟩
  obtain ⟨hw, hwl⟩ := sound_fill hwf hnl hl (by rw [clear_nil]) hrep.1
    (by rw [clear_nil]; exact hrep.2.2)
  exact ⟨d', hrun, sound_of_stands hst hw hwl⟩

/-- Giving a chain back and clearing its slot keeps the volume sound. -/
lemma sound_remove (h : v.WellFormed) (hnl : v.NoLeak)
    {l : List Nat} {i : Nat} {bs : List UInt8}
    (hl : Volume.ClustersOf v raw l) (hw : (v.clear l).setSlot i bs = w)
    (hrep : Volume.Replaces v w (liveOf raw) [] (others A B)) : w.WellFormed ∧ w.NoLeak := by
  refine ⟨h.replace hrep, Volume.NoLeak.replace h hrep hnl fun c _ ha => .inr ?_⟩
  rw [← hw, setSlot_fat, clear_fat] at ha
  split at ha
  next => exact absurd rfl ha
  next hcl => exact ⟨ha, fun x hx hcx => hcl ((hl c).mpr ⟨x, hx, hcx⟩)⟩

/-- Deleting a file keeps the volume sound. -/
lemma deleteFile_sound (hd : Sound g d)
    (hlive : e.live = true) (hheld : (view g d).HeldAt path e)
    (hleaf : e.isDirectory = true → (view g d).owned e.firstCluster = []) :
    ∃ d', fs.deleteFile path e d = (.ok (), d') ∧ Sound g d' := by
  obtain ⟨hm, hwf, hnl⟩ := hd
  obtain ⟨A, raw, B, hS, hi, rfl, hraw, hA⟩ := hheld.split hlive
  have he := hwf.chained _ .root _ (mem_owned_root hS hA hraw)
  have hl := clustersOf_live (v := view g d) hraw
  obtain ⟨hroot, _, hslots⟩ := clear_root hwf hS hA hl
  rw [← slotFor_congr hslots] at hi
  obtain ⟨d', hrun, hst⟩ := deleteFile_runs (R := Stands g) g he hroot hi d ⟨hm, rfl⟩
  have hrep := remove_replaces hwf hS hA (.inl hraw) hl
      (noStale_of_not_last (isLast_of_isLive hraw) B) fun x hx hxdir => by
    rw [liveOf_live hraw, mem_singleton] at hx
    rw [hx] at hxdir ⊢
    exact hleaf hxdir
  obtain ⟨hw, hwl⟩ := sound_remove hwf hnl hl rfl hrep
  exact ⟨d', hrun, sound_of_stands hst hw hwl⟩

/-- A directory whose listing is all dots owns nothing. -/
lemma owned_nil_of_foundEmpty (hm : fs.Mirrored d)
    (he : (view g d).Chained e.firstCluster) (hne : e.firstCluster ≠ fs.rootCluster)
    (hempty : fs.FoundEmpty d e) : (view g d).owned e.firstCluster = [] := by
  obtain ⟨l, hl, hall⟩ := hempty
  have hrun := (readDirectory_runs (R := Stands g) g he).outcome ⟨hm, rfl⟩
  rw [hl] at hrun
  injection hrun with hlist
  unfold Volume.owned
  rw [← hlist, filter_eq_nil_iff]
  intro x hx
  rw [all_eq_true.mp hall x hx]
  simp [hne]

/-- Removing a directory keeps the volume sound. -/
lemma removeDirectory_sound (hd : Sound g d)
    (hlive : e.live = true) (hdir : e.isDirectory = true) (hheld : (view g d).HeldAt path e)
    (hempty : fs.FoundEmpty d e) :
    ∃ d', fs.removeDirectory path e d = (.ok (), d') ∧ Sound g d' := by
  have ⟨hm, hwf, _⟩ := hd
  obtain ⟨A, raw, B, hS, -, rfl, hraw, hA⟩ := hheld.split hlive
  have hmem := mem_owned_root hS hA hraw
  have h0 := hwf.dirs _ .root _ hmem hdir
  have he := hwf.chained _ .root _ hmem h0
  have hne := hwf.owned_ne_root .root hmem h0
  rw [removeDirectory_eq h0]
  exact deleteFile_sound hd hlive hheld fun _ => owned_nil_of_foundEmpty hm he hne hempty

lemma parentCluster_ne_err (fs : Fat32) (path : Str) (d : Disk) (m : VfsError) :
    (fs.parentCluster path d).1 ≠ .err m := by
  intro h
  unfold parentCluster at h
  split at h
  next => cases h
  next =>
    rcases (findDirectoryCluster_readOnly fs (splitPath path).1).attempt_cases
      (by rw [h]; trivial) with ⟨c, -, hrun⟩ | ⟨e, -, hrun⟩ <;> rw [hrun] at h <;> cases h

/-- The part of `mkdir` behind the walk to the parent. -/
lemma enterDirectory_sound (hwf : v.WellFormed) (hnl : v.NoLeak)
    (hroom : v.freeList ≠ []) (hcreate : v.Creatable path) (parent : Nat) :
    ∃ w, w.WellFormed ∧ w.NoLeak ∧
      Runs (Stands g) ((fs.writeClusterChain v.firstFree
        (fs.newDirectory v.firstFree parent)).mapErr
          (fun _ => ioError) >>=
        fun _ => (fs.createDirEntry path v.firstFree).mapErr (fun _ => ioError))
        (v.linkUp (v.freeList.take 1)) (.ok ()) w := by
  obtain ⟨⟨n, hn, h₁, h₂⟩, i, hi, hstale⟩ := hcreate
  obtain ⟨A, raw, B, hS, rfl, hraw, hA⟩ := freeSlot_split hi
  have hle : 1 ≤ v.freeList.length := length_pos_of_ne_nil hroom
  obtain ⟨_, hfirst⟩ := firstFree_lt g one_pos hle
  have hl := clustersOf_free (v := v) hraw
  have hfc : (newEntry n 0x10 v.firstFree 0).firstCluster = v.firstFree :=
    newEntry_firstCluster n _ hfirst _
  have hlen := newDirectory_length g v.firstFree parent
  have hfit : (fs.newDirectory v.firstFree parent).length ≤ 1 * fs.clusterSize := by
    rw [hlen, one_mul]
  have hroot := refill_root hwf hS hA hl 1 (fs.newDirectory v.firstFree parent)
  have hdis := refill_disjoint hwf hS hA hl 1
  have hdata := refill_chainData hwf hS hA hl g one_pos
    (by rw [clear_nil]; exact hle) hfit A.length (newEntry n 0x10 v.firstFree 0).toBytes
  rw [clear_nil] at hdis hdata
  rw [take_of_length_le (by rw [hdata.2, hlen, one_mul])] at hdata
  have hnroot : v.firstFree ≠ fs.rootCluster := by
    obtain ⟨F, hF⟩ := take_freeList one_pos hle
    intro heq
    exact hdis hwf.root.mem_head (by rw [hF, ← heq]; exact mem_cons_self)
  have hrep := fill_replaces hwf hS hA (.inr hraw) hl (hstale.split hS) g one_pos
    (by rw [clear_nil]; exact hle) (fs.newDirectory v.firstFree parent)
    (f := newEntry n 0x10 v.firstFree 0) (isLive_toBytes (newEntry_live (.inr rfl) h₁ h₂ _ _))
    (by rw [clear_nil, hfc]) (by rw [liveOf_free hraw]; exact fun x hx => nomatch hx)
    (by
      intro _
      rw [clear_nil, hfc]
      exact newDirectory_leaf hnroot hdata.1)
  obtain ⟨hw, hwl⟩ := sound_fill hwf hnl hl (by rw [clear_nil]) hrep.1
    (by rw [clear_nil]; exact hrep.2.2)
  have hstore := fill_runs (R := Stands g) g one_pos hle (fs.newDirectory v.firstFree parent)
  rw [if_pos hfit] at hstore
  rw [← freeSlot_congr hroot.2.2] at hi
  exact ⟨_, hw, hwl, .bind (hstore.mapErr _)
    ((createEntry_runs g hroot.1 hn hi 0x10 v.firstFree 0).mapErr _)⟩

section

variable (hd : Sound g d)
include hd

/-- Creating a directory keeps the volume sound. -/
lemma makeDirectory_sound (hroom : (view g d).freeList ≠ [])
    (hcreate : (view g d).Creatable path) (hret : (fs.makeDirectory path d).1.Returns) :
    Sound g (fs.makeDirectory path d).2 := by
  obtain ⟨hm, hwf, hnl⟩ := hd
  have hle : 1 ≤ (view g d).freeList.length := length_pos_of_ne_nil hroom
  obtain ⟨d₁, halloc, hst₁⟩ := ((allocate_runs (R := Stands g) g one_pos hle).mapErr
    (fun _ => noSpace)) d ⟨hm, rfl⟩
  unfold makeDirectory at hret ⊢
  rw [bind_ok halloc] at hret ⊢
  rcases (parentCluster_readOnly fs path).bind_cases hret with ⟨parent, -, hback⟩ | ⟨m, hp, -⟩
  · -- the walk to the parent came back: the directory is written and entered
    obtain ⟨w, hw, hwl, hrun⟩ := enterDirectory_sound (g := g) hwf hnl hroom hcreate parent
    rw [hback]
    exact sound_of_stands (hrun.state hst₁) hw hwl
  · exact absurd hp (parentCluster_ne_err fs path d₁ m)

lemma write_sound (hok : StepOk g d (.write path data)) (hret : (fs.write path data d).1.Returns) :
    Sound g (fs.write path data d).2 := by
  unfold write at hret ⊢
  rcases (findFile_readOnly fs _).mapErr_cases hret with ⟨found, hf, hrun⟩ | ⟨m, -, hsame⟩
  · rw [hrun]
    cases found with
    | some e =>
      simp only [StepOk, hf] at hok
      obtain ⟨hdir, hheld, hcount, hroom⟩ := hok
      obtain ⟨d', hrun, hsound⟩ := writeExisting_sound hd (findFile_live hf) hdir hheld hcount hroom
      simp only [hrun]
      exact hsound
    | none =>
      simp only [StepOk, hf] at hok
      by_cases hroom : (view g d).freeList.length < fs.clustersFor data
      · -- nothing was taken, nothing is left behind
        have hst := (@writeNew_full fs g (Stands g) _ _ (trimStartMatches '/' path) _
          hroom).state ⟨hd.1, rfl⟩
        exact sound_of_stands hst hd.2.1 hd.2.2
      · obtain ⟨hcount, hcreate⟩ := hok.resolve_left hroom
        obtain ⟨d', hrun, hsound⟩ := writeNew_sound hd hcount hcreate (Nat.le_of_not_lt hroom)
        simp only [hrun]
        exact hsound
  · rw [hsame]
    exact hd

lemma delete_sound (hok : StepOk g d (.delete path))
    (hret : (fs.delete path d).1.Returns) : Sound g (fs.delete path d).2 := by
  unfold delete at hret ⊢
  rcases (findFile_readOnly fs _).mapErr_cases hret with ⟨found, hf, hrun⟩ | ⟨m, -, hsame⟩
  · rw [hrun]
    cases found with
    | some e =>
      simp only [StepOk, hf] at hok
      cases hdir : e.isDirectory with
      | true =>
        simp only [hdir, if_true]
        exact hd
      | false =>
        obtain ⟨d', hrun, hsound⟩ := deleteFile_sound hd (findFile_live hf)
          (hok.resolve_left (by rw [hdir]; exact false_ne_true))
          fun h => by cases hdir.symm.trans h
        simp only [hdir, false_eq_true, if_false, hrun]
        exact hsound
    | none => exact hd
  · rw [hsame]
    exact hd

lemma rmdir_sound (hok : StepOk g d (.rmdir path))
    (hret : (fs.rmdir path d).1.Returns) : Sound g (fs.rmdir path d).2 := by
  unfold rmdir at hret ⊢
  by_cases ht : trimStartMatches '/' path = []
  · rw [if_pos ht]
    exact hd
  · rw [if_neg ht] at hret ⊢
    rcases (findFile_readOnly fs _).mapErr_cases hret with ⟨found, hf, hrun⟩ | ⟨m, -, hsame⟩
    · rw [hrun] at hret ⊢
      cases found with
      | none => exact hd
      | some e =>
        simp only [StepOk, hf] at hok
        cases hdir : e.isDirectory with
        | false =>
          simp only [hdir, Bool.not_false, if_true]
          exact hd
        | true =>
          simp only [hdir, Bool.not_true, Bool.false_eq_true, if_false] at hret ⊢
          rcases (readDirectory_readOnly fs e.firstCluster).mapErr_cases hret with
            ⟨l, hl, hread⟩ | ⟨m, -, hread⟩ <;> rw [hread] at hret ⊢
          · by_cases hempty : (l.filter (fun e => !isDot e)).length > 0
            · rw [if_pos hempty]
              exact hd
            · have hall := all_isDot_iff.mpr hempty
              have hheld := (hok.resolve_left (by rw [hdir]; exact Bool.noConfusion)).resolve_left
                (not_not_intro ⟨l, hl, hall⟩)
              obtain ⟨d', hrun, hsound⟩ :=
                removeDirectory_sound hd (findFile_live hf) hdir hheld ⟨l, hl, hall⟩
              rw [if_neg hempty, hrun]
              exact hsound
          · exact hd
    · rw [hsame]
      exact hd

/-- Without a free cluster `mkdir` gives up before it changes anything. -/
lemma makeDirectory_full (hfull : (view g d).freeList = []) :
    Sound g (fs.makeDirectory path d).2 := by
  have hlt : (view g d).freeList.length < 1 := by
    rw [hfull]
    exact one_pos
  obtain ⟨m, hm⟩ := allocateClusters_full (R := Stands g) g _ hlt
  obtain ⟨d', hrun, hst⟩ := (hm.mapErr (fun _ => noSpace)) d ⟨hd.1, rfl⟩
  unfold makeDirectory
  rw [bind_err hrun]
  exact sound_of_stands hst hd.2.1 hd.2.2

lemma mkdir_sound (hok : StepOk g d (.mkdir path))
    (hret : (fs.mkdir path d).1.Returns) : Sound g (fs.mkdir path d).2 := by
  have hmake : (view g d).freeList = [] ∨ (view g d).Creatable (trimStartMatches '/' path) →
      (fs.makeDirectory (trimStartMatches '/' path) d).1.Returns →
      Sound g (fs.makeDirectory (trimStartMatches '/' path) d).2 := by
    intro hok hret
    by_cases hfull : (view g d).freeList = []
    · exact makeDirectory_full hd hfull
    · exact makeDirectory_sound hd hfull (hok.resolve_left hfull) hret
  unfold mkdir at hret ⊢
  by_cases ht : trimStartMatches '/' path = []
  · rw [if_pos ht]
    exact hd
  · rw [if_neg ht] at hret ⊢
    rcases (findFile_readOnly fs _).attempt_cases hret with ⟨found, hf, hrun⟩ | ⟨m, hf, hrun⟩ <;>
      rw [hrun] at hret ⊢ <;> simp only [StepOk, hf] at hok
    · cases found with
      | some e => exact hd
      | none => exact hmake hok hret
    · exact hmake hok hret

/-- A call that meets its condition leaves a sound volume. -/
lemma step_sound (c : Call) (hok : StepOk g d c)
    (hret : (c.run fs d).1.Returns) : Sound g (c.run fs d).2 := by
  cases c with
  | write path data => exact write_sound hd hok hret
  | delete path => exact delete_sound hd hok hret
  | mkdir path => exact mkdir_sound hd hok hret
  | rmdir path => exact rmdir_sound hd hok hret

end

end

/-- The volume is sound after every call of a run whose calls meet their
condition. -/
theorem sound_run (g : Geometry fs) (d : Disk) (hd : Sound g d) (calls : List Call)
    (hok : Admissible g d calls) : ∀ d' ∈ trace fs d calls, Sound g d' := by
  induction calls generalizing d with
  | nil => exact fun d' hd' => nomatch hd'
  | cons c calls ih =>
    obtain ⟨hstep, hrest⟩ := hok
    unfold trace
    split
    next hret =>
      have hnext := step_sound hd c hstep hret
      intro d' hd'
      rcases mem_cons.mp hd' with rfl | hd'
      · exact hnext
      · exact ih _ hnext (hrest hret) d' hd'
    next => exact fun d' hd' => nomatch hd'

/-! ## A small volume

The smallest number of clusters `Fat32::new` accepts, one sector each. The root
directory holds a directory `D`, and `D` a file `F` of three bytes. -/

def smallFs : Fat32 where
  firstDataSector := 1056
  sectorsPerCluster := 1
  bytesPerSector := 512
  firstFatSector := 32
  rootCluster := 2
  sectorsPerFat := 512
  totalSectors := 66581
  totalClusters := 65525
  numFats := 2
  fsInfoSector := 1

lemma smallGeometry : Geometry smallFs where
  sector := rfl
  spc_pos := by decide
  spc_le := by decide
  fats_pos := by decide
  info := by decide
  covers := by decide
  apart := by decide
  fits := by decide
  addressable := by decide
  clusters := by decide
  numbers := by decide
  root := by decide

/-- The entry of the directory `D`. -/
def smallDir : DirectoryEntry := newEntry (shortName [0x44] []) 0x10 3 0

/-- The entry of the file `D/F`. -/
def smallFile : DirectoryEntry := newEntry (shortName [0x46] []) 0x20 4 3

def zeroSector : Sector := ⟨List.replicate 512 0, List.length_replicate⟩

/-- Two reserved entries, then clusters 2, 3 and 4, each a chain of its own. -/
def smallFat : Sector :=
  Sector.ofBytes (padTo 512 (([0x0FFFFFF8, 0x0FFFFFFF, 0x0FFFFFFF, 0x0FFFFFFF, 0x0FFFFFFF]
    : List Nat).flatMap (leBytes 4)))

def smallDisk : Disk := fun n =>
  if n = 32 ∨ n = 544 then smallFat
  else if n = 1056 then Sector.ofBytes (padTo 512 smallDir.toBytes)
  else if n = 1057 then
    Sector.ofBytes (padTo 512 ((newEntry dotName 0x10 3 0).toBytes
      ++ (newEntry dotdotName 0x10 0 0).toBytes ++ smallFile.toBytes))
  else if n = 1058 then Sector.ofBytes (padTo 512 [1, 2, 3])
  else zeroSector

lemma smallDisk_mirrored : smallFs.Mirrored smallDisk := by
  intro k hk j hj
  have hk' : k < 2 := hk
  have hj' : j < 512 := hj
  show smallDisk (32 + k * 512 + j) = smallDisk (32 + j)
  have hcases : k = 0 ∨ k = 1 := by omega
  rcases hcases with rfl | rfl
  · rw [Nat.zero_mul, Nat.add_zero]
  · by_cases h0 : j = 0
    · subst h0
      rfl
    · simp only [smallDisk]
      rw [if_neg (by omega), if_neg (by omega), if_neg (by omega), if_neg (by omega),
        if_neg (by omega), if_neg (by omega), if_neg (by omega), if_neg (by omega)]

/-- With these two listings there are no other directories. -/
lemma dirAt_small {v : Volume smallFs}
    (h2 : ∀ e ∈ v.owned 2, e.isDirectory = true → e.firstCluster = 3)
    (h3 : ∀ e ∈ v.owned 3, e.isDirectory = false) (hc : v.DirAt c) : c = 2 ∨ c = 3 := by
  induction hc with
  | root => exact .inl rfl
  | @sub c e _ he hdir ih =>
    rcases ih with rfl | rfl
    · exact .inr (h2 e he hdir)
    · rw [h3 e he] at hdir
      cases hdir

section
variable {v : Volume smallFs} (h2 : v.owned 2 = [smallDir]) (h3 : v.owned 3 = [smallFile])

include h2 h3

lemma dirAt_of_owned (hc : v.DirAt c) : c = 2 ∨ c = 3 :=
  dirAt_small (by rw [h2]; decide) (by rw [h3]; decide) hc

/-- The entries of the volume, with the directory they stand in. -/
lemma owned_small (hc : v.DirAt c) (he : e ∈ v.owned c) :
    (c = 2 ∧ e = smallDir) ∨ (c = 3 ∧ e = smallFile) := by
  rcases dirAt_of_owned h2 h3 hc with rfl | rfl
  · rw [h2, mem_singleton] at he
    exact .inl ⟨rfl, he⟩
  · rw [h3, mem_singleton] at he
    exact .inr ⟨rfl, he⟩

end

lemma smallDisk_owned : (view smallGeometry smallDisk).owned 2 = [smallDir]
    ∧ (view smallGeometry smallDisk).owned 3 = [smallFile] := by decide +kernel

lemma smallDisk_chains : (view smallGeometry smallDisk).chainOf 2 = [2]
    ∧ (view smallGeometry smallDisk).entryChain smallDir = [3]
    ∧ (view smallGeometry smallDisk).entryChain smallFile = [4] := by decide +kernel

/-- Beyond cluster 4 the FAT is zero. -/
lemma smallDisk_entry (hc : 5 ≤ c) (hlt : c < 65536) :
    entryIn (smallDisk (32 + c / 128)) c % 2 ^ 28 = 0 := by
  by_cases h128 : c < 128
  · have hall : ∀ c < 128, 5 ≤ c → entryIn (smallDisk (32 + c / 128)) c % 2 ^ 28 = 0 := by
      decide +kernel
    exact hall c h128 hc
  · have hzero : smallDisk (32 + c / 128) = zeroSector := by
      simp only [smallDisk]
      rw [if_neg (by omega), if_neg (by omega), if_neg (by omega), if_neg (by omega)]
    rw [hzero]
    show leAt (List.replicate 512 0) _ 4 % 2 ^ 28 = 0
    rw [leAt_replicate_zero, zero_mod]

lemma smallDisk_free (hc : 5 ≤ c) : (view smallGeometry smallDisk).fat c = 0 := by
  by_cases hr : smallFs.InRange c
  · rw [view_fat hr]
    exact smallDisk_entry hc (lt_trans hr.2 (by decide))
  · exact if_neg hr

/-- The small volume is sound. -/
lemma smallDisk_sound : Sound smallGeometry smallDisk := by
  obtain ⟨h2, h3⟩ := smallDisk_owned
  obtain ⟨hc2, hcD, hcF⟩ := smallDisk_chains
  have hlinks : (view smallGeometry smallDisk).link 2 = .stop
      ∧ (view smallGeometry smallDisk).link 3 = .stop
      ∧ (view smallGeometry smallDisk).link 4 = .stop := by decide +kernel
  have hroot : (view smallGeometry smallDisk).chainOf smallFs.rootCluster = [2] := hc2
  refine ⟨smallDisk_mirrored, ?_, ?_⟩
  · refine ⟨chained_of_chain (.last hlinks.1), ?_, ?_, ?_, ?_, ?_⟩
    · intro c hc e he _
      rcases owned_small h2 h3 hc he with ⟨_, rfl⟩ | ⟨_, rfl⟩
      · exact chained_of_chain (.last hlinks.2.1)
      · exact chained_of_chain (.last hlinks.2.2)
    · intro c hc e he _
      rcases owned_small h2 h3 hc he with ⟨_, rfl⟩ | ⟨_, rfl⟩ <;> decide
    · intro c hc
      rcases dirAt_of_owned h2 h3 hc with rfl | rfl
      · rw [h2]
        exact pairwise_singleton _ _
      · rw [h3]
        exact pairwise_singleton _ _
    · intro c c' hc hc' hne e he e' he'
      unfold Volume.Apart
      rcases owned_small h2 h3 hc he with ⟨rfl, rfl⟩ | ⟨rfl, rfl⟩ <;>
        rcases owned_small h2 h3 hc' he' with ⟨rfl, rfl⟩ | ⟨rfl, rfl⟩
      · exact absurd rfl hne
      · rw [hcD, hcF]
        simp
      · rw [hcD, hcF]
        simp
      · exact absurd rfl hne
    · intro c hc e he
      rw [hroot]
      rcases owned_small h2 h3 hc he with ⟨_, rfl⟩ | ⟨_, rfl⟩
      · rw [hcD]
        simp
      · rw [hcF]
        simp
  · intro c hr ha
    have hmem : smallDir ∈ (view smallGeometry smallDisk).owned 2 := by
      rw [h2]
      exact mem_singleton_self _
    have hlt : c < 5 := Nat.lt_of_not_le fun hge => ha (smallDisk_free hge)
    have h2le : 2 ≤ c := hr.1
    have hcases : c = 2 ∨ c = 3 ∨ c = 4 := by omega
    rcases hcases with rfl | rfl | rfl
    · rw [hroot]
      exact .inl (mem_singleton_self _)
    · exact .inr ⟨2, .root, smallDir, hmem, by rw [hcD]; exact mem_singleton_self _⟩
    · have hsub : (view smallGeometry smallDisk).DirAt 3 := .sub .root hmem (by decide)
      refine .inr ⟨3, hsub, smallFile, ?_, by rw [hcF]; exact mem_singleton_self _⟩
      rw [h3]
      exact mem_singleton_self _

/-- Behind the only entry of the root directory all is zero. -/
lemma smallDisk_noStale : (view smallGeometry smallDisk).NoStaleAt 1 := by
  have hrest : scanSlots ((view smallGeometry smallDisk).rootSlots.drop 2) LfnState.init = [] := by
    decide +kernel
  exact fun _ _ _ => hrest

/-- A new file `B` in the root directory is a call the condition allows. -/
lemma smallDisk_step : StepOk smallGeometry smallDisk (.write ['B'] [7]) := by
  have hf : (smallFs.findFile (trimStartMatches '/' ['B']) smallDisk).1 = .ok none := by
    decide +kernel
  have hslot : (view smallGeometry smallDisk).freeSlot = some 1 := by decide +kernel
  have hcreate : (view smallGeometry smallDisk).Creatable ['B'] := by
    exact ⟨⟨shortName [0x42] [], rfl, by decide, by decide⟩, 1, hslot, smallDisk_noStale⟩
  simp only [StepOk, hf]
  exact .inr ⟨by decide, hcreate⟩

/-- A run of one `write` that the theorem covers. -/
theorem sound_run_small :
    Admissible smallGeometry smallDisk [.write ['B'] [7]]
      ∧ (trace smallFs smallDisk [.write ['B'] [7]]).length = 1
      ∧ ∀ d' ∈ trace smallFs smallDisk [.write ['B'] [7]], Sound smallGeometry d' := by
  have hok : Admissible smallGeometry smallDisk [.write ['B'] [7]] := by
    unfold Admissible
    refine ⟨smallDisk_step, fun _ => ?_⟩
    unfold Admissible
    exact True.intro
  exact ⟨hok, by decide +kernel, sound_run smallGeometry smallDisk smallDisk_sound _ hok⟩

/-- One `mkdir` of a name that has no 8.3 form: the call fails and the cluster
it took belongs to nobody. -/
theorem mkdir_leaks :
    Sound smallGeometry smallDisk
      ∧ (smallFs.mkdir ['D', 'O', 'C', 'U', 'M', 'E', 'N', 'T', 'S'] smallDisk).1 = .err .ioError
      ∧ ¬Sound smallGeometry
          (smallFs.mkdir ['D', 'O', 'C', 'U', 'M', 'E', 'N', 'T', 'S'] smallDisk).2 := by
  refine ⟨smallDisk_sound, by decide +kernel, ?_⟩
  rintro ⟨_, _, hleak⟩
  generalize hv : view smallGeometry
    (smallFs.mkdir ['D', 'O', 'C', 'U', 'M', 'E', 'N', 'T', 'S'] smallDisk).2 = v at hleak
  have hsame : v.owned 2 = [smallDir] ∧ v.owned 3 = [smallFile] ∧ v.fat 5 ≠ 0
      ∧ v.chainOf smallFs.rootCluster = [2] ∧ v.entryChain smallDir = [3]
      ∧ v.entryChain smallFile = [4] := by
    rw [← hv]
    decide +kernel
  obtain ⟨h2, h3, hfat, hroot, hD, hF⟩ := hsame
  rcases hleak 5 (by decide) hfat with h | ⟨c, hc, e, he, h⟩
  · rw [hroot] at h
    exact absurd h (by decide)
  · rcases owned_small h2 h3 hc he with ⟨_, rfl⟩ | ⟨_, rfl⟩
    · rw [hD] at h
      exact absurd h (by decide)
    · rw [hF] at h
      exact absurd h (by decide)

end RustOs.Fs.Fat32
