import RustOs.Lib.Trace
import RustOs.Fs.Fat32.BrokenChains
import RustOs.Fs.Fat32.Ownership

/-!
# Whether names stay unique

`write` and `mkdir` look a path up by the name an entry spells (`get_name`: up to
the first space) and enter a new file under the 11 bytes of `to_short_name`,
which keeps spaces, non-ASCII bytes and slashes. The two do not agree on when
names are the same: a file `A B` is entered as `A B` and spells `A`, so the next
`write` to `A B` does not find it and enters the name a second time
(`write_twice`).

`shortNames` are the 11-byte names of the slots in front of the end mark that are
neither free nor part of a long name. Each call overwrites at most one root slot;
`setSlot_unique_iff` says when that keeps the names apart, with two things to
look at: the names in the other slots, and the slots behind the end mark, which
an entry in the place of the mark brings back. The result is

  `uniqueNames_run : UniqueNames g d → Along (StepApart g) calls d →
     (Always (UniqueNames g) calls d ↔ Along (NamesKept g) calls d)`

where `StepApart` asks for a root directory that is a chain and, for an overwrite,
that the chain given back does not run into it. The copies of the FAT need not
agree.
-/

namespace RustOs.Fs.Fat32

open Lib DirectoryEntry VfsError Prog Volume Drivers
open List hiding Vector

variable {fs : Fat32} {e : DirectoryEntry} {raw : List UInt8} {path : Str}

/-! ## The names of a directory -/

/-- A slot with a short name: not free and not a piece of a long name. -/
def isUsed (raw : List UInt8) : Bool :=
  !(DirectoryEntry.ofBytes raw).isFree && !(DirectoryEntry.ofBytes raw).isLongName

/-- The short names in the slots in front of the end mark. -/
def shortNames (S : List (List UInt8)) : List (Vector UInt8 11) :=
  ((S.takeWhile fun raw => !(DirectoryEntry.ofBytes raw).isLast).filter isUsed).map
    fun raw => (DirectoryEntry.ofBytes raw).name

/-- What a slot adds to the names. -/
def nameOf (raw : List UInt8) : List (Vector UInt8 11) :=
  if isUsed raw then [(DirectoryEntry.ofBytes raw).name] else []

lemma shortNames_cons (h : (ofBytes raw).isLast = false)
    (B : List (List UInt8)) : shortNames (raw :: B) = nameOf raw ++ shortNames B := by
  unfold shortNames nameOf
  rw [takeWhile_cons_of_pos (by rw [h]; rfl), filter_cons]
  split
  next => rfl
  next => rfl

lemma shortNames_end (h : (ofBytes raw).isLast = true)
    (B : List (List UInt8)) : shortNames (raw :: B) = [] := by
  unfold shortNames
  rw [takeWhile_cons_of_neg (by rw [h]; exact Bool.false_ne_true)]
  rfl

/-- Without an end mark the names go on. -/
lemma shortNames_append {A : List (List UInt8)} (hA : NoEnd A) (B : List (List UInt8)) :
    shortNames (A ++ B) = shortNames A ++ shortNames B := by
  induction A with
  | nil => rfl
  | cons raw A ih =>
    have hraw := hA raw mem_cons_self
    rw [cons_append, shortNames_cons hraw, shortNames_cons hraw,
      ih fun r hr => hA r (mem_cons_of_mem _ hr), append_assoc]

/-- Behind an end mark nothing counts. -/
lemma shortNames_append_of_end {A : List (List UInt8)} (hA : ¬NoEnd A) (B : List (List UInt8)) :
    shortNames (A ++ B) = shortNames A := by
  induction A with
  | nil => exact absurd (fun raw hraw => nomatch hraw) hA
  | cons raw A ih =>
    rw [cons_append]
    cases hraw : (ofBytes raw).isLast with
    | true => rw [shortNames_end hraw, shortNames_end hraw]
    | false =>
      rw [shortNames_cons hraw, shortNames_cons hraw, ih]
      intro h
      refine hA fun r hr => ?_
      rcases mem_cons.mp hr with rfl | hr
      · exact hraw
      · exact h r hr

instance (S : List (List UInt8)) : Decidable (NoEnd S) :=
  inferInstanceAs (Decidable (∀ raw ∈ S, _))

/-- An entry with this name between the slots `A` and `B` has a name of its own,
or is not there: behind an end mark, or an end mark or deleted itself. In the last
case, and if the slot was the end mark, the slots of `B` are listed after it. -/
def Admits (A B : List (List UInt8)) (name : Vector UInt8 11) : Prop :=
  ¬NoEnd A ∨ mark name = 0
    ∨ (shortNames A ++ shortNames B).Nodup
      ∧ (mark name = 0xE5 ∨ name ∉ shortNames A ++ shortNames B)

instance (A B : List (List UInt8)) (name : Vector UInt8 11) : Decidable (Admits A B name) :=
  inferInstanceAs (Decidable (_ ∨ _))

lemma nodup_insert {α : Type} (l₁ l₂ : List α) (a : α) :
    (l₁ ++ a :: l₂).Nodup ↔ (l₁ ++ l₂).Nodup ∧ a ∉ l₁ ++ l₂ := by
  rw [nodup_middle, nodup_cons, and_comm]

/-- Putting an entry between `A` and `B` keeps the names unique exactly if it is
admitted. -/
lemma nodup_iff_admits {A B : List (List UInt8)}
    (hu : (shortNames (A ++ raw :: B)).Nodup) (he : e.isLongName = false) :
    (shortNames (A ++ e.toBytes :: B)).Nodup ↔ Admits A B e.name := by
  have hof := e.ofBytes_toBytes
  unfold Admits
  by_cases hA : NoEnd A
  · rw [shortNames_append hA] at hu ⊢
    have hleft : (shortNames A).Nodup := (nodup_append.mp hu).1
    by_cases h0 : mark e.name = 0
    · have hlast : (ofBytes e.toBytes).isLast = true := by
        rw [hof]
        exact beq_iff_eq.mpr h0
      rw [shortNames_end hlast, append_nil]
      exact iff_of_true hleft (.inr (.inl h0))
    · have hlast : (ofBytes e.toBytes).isLast = false := by
        rw [hof]
        exact beq_eq_false_iff_ne.mpr h0
      have hfree : e.isFree = (mark e.name == 0xE5) := by
        unfold isFree
        rw [beq_eq_false_iff_ne.mpr h0, Bool.or_false]
      rw [shortNames_cons hlast]
      unfold nameOf isUsed
      rw [hof, he, hfree]
      by_cases hE5 : mark e.name = 0xE5
      · -- a deleted entry: the slots around it are listed
        simp [hE5, hA]
      · simp only [beq_eq_false_iff_ne.mpr hE5, Bool.not_false, Bool.and_self, if_true,
          singleton_append, nodup_insert]
        simp [hA, h0, hE5]
  · rw [shortNames_append_of_end hA] at hu ⊢
    exact iff_of_true hu (.inl hA)

/-! ## The root directory -/

namespace Volume

/-- No two entries of the root directory share a short name. -/
def Unique (v : Volume fs) : Prop := (shortNames v.rootSlots).Nodup

/-- The root directory can take an entry of this name in slot `i`. -/
def AdmitsAt (v : Volume fs) (i : Nat) (name : Vector UInt8 11) : Prop :=
  Admits (v.rootSlots.take i) (v.rootSlots.drop (i + 1)) name

/-- The slot that a new entry of this name would take admits it. -/
def CreatesUnique (v : Volume fs) (path : Str) : Prop :=
  ∀ n i, toShortName path = .ok n → v.freeSlot = some i → v.AdmitsAt i n

/-- The slot that an update under this name would overwrite admits the entry. -/
def UpdatesUnique (v : Volume fs) (path : Str) (e : DirectoryEntry) : Prop :=
  ∀ i, v.slotFor path = some i → v.AdmitsAt i e.name

/-- The root directory of `w` is that of `v`. -/
def SameRoot (v w : Volume fs) : Prop :=
  w.Chained fs.rootCluster ∧ w.rootSlots = v.rootSlots

section

variable {v w : Volume fs}

lemma SameRoot.unique (h : SameRoot v w) (hu : v.Unique) : w.Unique := by
  unfold Unique
  rw [h.2]
  exact hu

lemma slotFor_lt {i : Nat} (h : v.slotFor path = some i) :
    i < v.rootSlots.length := by
  unfold slotFor at h
  split at h
  next => exact lt_length_of_findIdx? h
  next => cases h

/-- One slot overwritten. -/
lemma setSlot_unique_iff (h : SameRoot v w) (hu : v.Unique) {i : Nat}
    (hi : i < v.rootSlots.length) (he : e.isLongName = false) :
    (w.setSlot i e.toBytes).Unique ↔ v.AdmitsAt i e.name := by
  have hsplit : v.rootSlots = v.rootSlots.take i ++ v.rootSlots[i] :: v.rootSlots.drop (i + 1) := by
    rw [getElem_cons_drop, take_append_drop]
  have hset : (w.setSlot i e.toBytes).rootSlots
      = v.rootSlots.take i ++ e.toBytes :: v.rootSlots.drop (i + 1) := by
    rw [setSlot_rootSlots h.1 (by rw [h.2]; exact hi) e.toBytes_length, h.2,
      set_eq_take_append_cons_drop, if_pos hi]
  unfold Unique at hu ⊢
  rw [hsplit] at hu
  rw [hset]
  exact nodup_iff_admits hu he

/-- Clusters given back and free ones filled leave the root directory alone. -/
lemma sameRoot_refill (hroot : v.Chained fs.rootCluster) {l : List Nat}
    (hl : (v.chainOf fs.rootCluster).Disjoint l) (n : Nat) (data : List UInt8) :
    SameRoot v (v.clear l) ∧ SameRoot v ((v.clear l).fill n data) := by
  have hclear : Agree v (v.clear l) (v.chainOf fs.rootCluster) :=
    fun c hc => ⟨if_neg fun hcl => hl hc hcl, rfl⟩
  obtain ⟨hc₁, -, hs₁⟩ := rootSlots_frame hroot hclear
  obtain ⟨hc₂, -, hs₂⟩ := rootSlots_frame hroot (refill_agree hroot hl n data)
  exact ⟨⟨hc₁, hs₁⟩, ⟨hc₂, hs₂⟩⟩

lemma sameRoot_fill (hroot : v.Chained fs.rootCluster) (n : Nat)
    (data : List UInt8) : SameRoot v (v.fill n data) := by
  have h := (sameRoot_refill hroot (l := []) (disjoint_nil_right _) n data).2
  rwa [clear_nil] at h

lemma SameRoot.freeSlot (h : SameRoot v w) : w.freeSlot = v.freeSlot := by
  unfold Volume.freeSlot
  rw [h.2]

end

end Volume

/-- On this disk the names of the root directory are unique. -/
def UniqueNames (g : Geometry fs) (d : Disk) : Prop := (view g d).Unique

lemma uniqueNames_iff {g : Geometry fs} {d : Disk} {v : Volume fs} (h : Views g d v) :
    UniqueNames g d ↔ v.Unique := by
  unfold UniqueNames
  rw [show view g d = v from h]

/-! ## The calls -/

section
variable {g : Geometry fs} {d : Disk} {v w : Volume fs}

/-- Entering a new file or directory. -/
lemma createEntry_unique (hw : Volume.SameRoot v w) (hu : v.Unique) (hd : Views g d w)
    (path : Str) (attributes : UInt8) (ha : attributes &&& 0x0F ≠ 0x0F) (first size : Nat) :
    UniqueNames g ((Prog.lift (shortNameOf path) >>= fun n =>
        fs.writeDirectoryEntryToRoot (newEntry n attributes first size)) d).2
      ↔ v.CreatesUnique path := by
  by_cases hslot : ∃ n i, toShortName path = .ok n ∧ v.freeSlot = some i
  · obtain ⟨n, i, hn, hi⟩ := hslot
    have hst := (createEntry_runs (R := Views g) g hw.1 hn (hw.freeSlot.trans hi) attributes first
      size).state hd
    have he : (newEntry n attributes first size).isLongName = false := beq_eq_false_iff_ne.mpr ha
    rw [uniqueNames_iff hst, setSlot_unique_iff hw hu (lt_length_of_findIdx? hi) he]
    constructor
    · intro h n' i' hn' hi'
      cases hn.symm.trans hn'
      cases hi.symm.trans hi'
      exact h
    · exact fun h => h n i hn hi
  · have hnone : ∀ n i, toShortName path = .ok n → w.freeSlot ≠ some i :=
      fun n i hn hi => hslot ⟨n, i, hn, hw.freeSlot ▸ hi⟩
    obtain ⟨m, hm⟩ := createEntry_fails (R := Views g) g hw.1 hnone attributes first size
    rw [uniqueNames_iff (hm.state hd)]
    exact iff_of_true (hw.unique hu) fun n i hn hi => absurd ⟨n, i, hn, hi⟩ hslot

section

variable (hroot : v.Chained fs.rootCluster) (hu : v.Unique) (hd : Views g d v)
include hroot hu hd

/-- A new file. -/
lemma writeNew_unique (path : Str) (data : List UInt8) :
    UniqueNames g (fs.writeNew path data d).2
      ↔ v.freeList.length < fs.clustersFor data ∨ ¬fs.Counted data ∨ v.CreatesUnique path := by
  have hsame := sameRoot_fill hroot (fs.clustersFor data) data
  by_cases hlt : v.freeList.length < fs.clustersFor data
  · have hst := (@writeNew_full fs g (Views g) _ v path data hlt).state hd
    rw [uniqueNames_iff hst]
    exact iff_of_true hu (.inl hlt)
  · have hle := Nat.le_of_not_lt hlt
    by_cases hcount : fs.Counted data
    · -- the clusters are taken and filled, then the entry is made
      have hpos := clustersFor_pos fs data
      have hstore := fill_runs (R := Views g) g hpos hle data
      rw [if_pos (show data.length ≤ _ from hcount)] at hstore
      obtain ⟨d₁, hrun₁, hd₁⟩ :=
        ((allocate_runs (R := Views g) g hpos hle).mapErr fun _ => noSpace) d hd
      obtain ⟨d₂, hrun₂, hd₂⟩ := (hstore.mapErr fun _ => ioError) d₁ hd₁
      unfold writeNew
      rw [bind_ok hrun₁, bind_ok hrun₂, mapErr_apply]
      have hcreate := createEntry_unique hsame hu hd₂ path 0x20 (by decide) v.firstFree
        (data.length % 2 ^ 32)
      simp only [hlt, hcount, false_or, not_true_eq_false]
      exact hcreate
    · have hst := (@writeNew_fails fs g (Views g) _ v path data hle hsame.1
        (.inl (Nat.lt_of_not_le hcount))).state hd
      rw [uniqueNames_iff hst]
      exact iff_of_true (hsame.unique hu) (.inr (.inl hcount))

/-- An overwrite: the entry that was found goes into the slot of the path. -/
lemma writeExisting_unique (hlive : e.live = true) {l : List Nat} {r : Bool}
    (hfreed : v.EntryFreed e l r) (hl : (v.chainOf fs.rootCluster).Disjoint l) (path : Str)
    (data : List UInt8) :
    UniqueNames g (fs.writeExisting path e data d).2
      ↔ ¬v.EntryOk e ∨ v.freeList.length + (v.entryChain e).length < fs.clustersFor data
        ∨ ¬fs.Counted data ∨ v.UpdatesUnique path e := by
  obtain ⟨hclear, hfill⟩ := sameRoot_refill hroot hl (fs.clustersFor data) data
  -- the steps of an overwrite: free the old chain, take a new one, write the slot
  cases r with
  | false =>
    obtain ⟨d', hrun, hd'⟩ := freeEntry_freed (R := Views g) g hfreed d hd
    have hnot : ¬v.EntryOk e := fun hok =>
      Bool.false_ne_true (hfreed.unique (entryFreed_of_entryOk hok)).2
    have hstate : (fs.writeExisting path e data d).2 = d' := by
      unfold writeExisting
      rw [bind_err hrun]
    rw [hstate, uniqueNames_iff hd']
    exact iff_of_true (hclear.unique hu) (.inl hnot)
  | true =>
    have hlen := freeList_length_clear hfreed.allocated.1 hfreed.allocated.2
    obtain ⟨hok, rfl⟩ := hfreed.entryOk
    rw [← hlen]
    by_cases hlt : (v.clear (v.entryChain e)).freeList.length < fs.clustersFor data
    · have hst := (@writeExisting_full fs g (Views g) _ v e path data hok hlt).state hd
      rw [uniqueNames_iff hst]
      exact iff_of_true (hclear.unique hu) (.inr (.inl hlt))
    · have hle := Nat.le_of_not_lt hlt
      have hslot := slotFor_congr hfill.2 path
      -- names can only clash if the slot is written at all
      by_cases hfit : fs.Counted data ∧ ∃ i, v.slotFor path = some i
      · obtain ⟨hcount, i, hi⟩ := hfit
        have hst := (writeExisting_runs (R := Views g) g hok hle hcount hfill.1
          (hslot.trans hi)).state hd
        have hlong :
            (rewritten e (v.clear (v.entryChain e)).firstFree data).isLongName = false := by
          unfold live at hlive
          simp only [Bool.and_eq_true, Bool.not_eq_true'] at hlive
          exact hlive.1.2
        rw [uniqueNames_iff hst, setSlot_unique_iff hfill hu (slotFor_lt hi) hlong]
        constructor
        · intro h
          refine .inr (.inr (.inr fun i' hi' => ?_))
          cases hi.symm.trans hi'
          exact h
        · intro h
          exact (((h.resolve_left (not_not_intro hok)).resolve_left
            (Nat.not_lt_of_le hle)).resolve_left
            (not_not_intro hcount)) i hi
      · have hbad : fs.clustersFor data * fs.clusterSize < data.length
            ∨ ((v.clear (v.entryChain e)).fill (fs.clustersFor data) data).slotFor path = none := by
          rw [hslot]
          by_cases hcount : fs.Counted data
          · exact .inr (Option.eq_none_iff_forall_ne_some.mpr fun i hi => hfit ⟨hcount, i, hi⟩)
          · exact .inl (Nat.lt_of_not_le hcount)
        have hst := (writeExisting_fails (R := Views g) g hok hle hfill.1 hbad).state hd
        rw [uniqueNames_iff hst]
        refine iff_of_true (hfill.unique hu) (.inr (.inr ?_))
        by_cases hcount : fs.Counted data
        · exact .inr fun i hi => absurd ⟨hcount, i, hi⟩ hfit
        · exact .inl hcount

/-- A new directory. -/
lemma makeDirectory_unique (path : Str) (hret : (fs.makeDirectory path d).1.Returns) :
    UniqueNames g (fs.makeDirectory path d).2 ↔ v.freeList = [] ∨ v.CreatesUnique path := by
  unfold makeDirectory at hret ⊢
  by_cases hfull : v.freeList = []
  · obtain ⟨m, hm⟩ := allocateClusters_full (R := Views g) g v
      (n := 1) (by rw [hfull]; exact Nat.one_pos)
    obtain ⟨d', hrun, hd'⟩ := (hm.mapErr fun _ => noSpace) d hd
    rw [bind_err hrun, uniqueNames_iff hd']
    exact iff_of_true hu (.inl hfull)
  · have hle : 1 ≤ v.freeList.length := length_pos_of_ne_nil hfull
    obtain ⟨d₁, hrun₁, hd₁⟩ :=
      ((allocate_runs (R := Views g) g Nat.one_pos hle).mapErr fun _ => noSpace) d hd
    rw [bind_ok hrun₁] at hret ⊢
    rcases (parentCluster_readOnly fs path).bind_cases hret with ⟨parent, -, hrun⟩ | ⟨m, hp, -⟩
    · rw [hrun]
      have hfit : (fs.newDirectory v.firstFree parent).length ≤ 1 * fs.clusterSize := by
        rw [newDirectory_length g, Nat.one_mul]
      have hstore := fill_runs (R := Views g) g Nat.one_pos hle (fs.newDirectory v.firstFree parent)
      rw [if_pos hfit] at hstore
      obtain ⟨d₂, hrun₂, hd₂⟩ := (hstore.mapErr fun _ => ioError) d₁ hd₁
      rw [bind_ok hrun₂, mapErr_apply]
      have hsame := sameRoot_fill hroot 1 (fs.newDirectory v.firstFree parent)
      simp only [hfull, false_or]
      exact createEntry_unique hsame hu hd₂ path 0x10 (by decide) v.firstFree 0
    · exact absurd hp (parentCluster_ne_err fs path d₁ m)

end

end

/-! ## Runs -/

/-- The calls that put names into the root directory. -/
inductive NameCall where
  | write (path : Str) (data : List UInt8)
  | mkdir (path : Str)

/-- The disk after a call, if it returns. -/
def NameCall.step (fs : Fat32) : NameCall → Disk → Option Disk
  | .write path data => (fs.write path data).after
  | .mkdir path => (fs.mkdir path).after

/-- The root directory is a chain, and what an overwrite gives back is no part of
it. -/
def StepApart (g : Geometry fs) : NameCall → Disk → Prop
  | .write path _, d =>
    (view g d).Chained fs.rootCluster
      ∧ ∀ e, (fs.findFile (trimStartMatches '/' path) d).1 = .ok (some e) →
        ∃ l r, (view g d).EntryFreed e l r ∧ ((view g d).chainOf fs.rootCluster).Disjoint l
  | .mkdir _, d => (view g d).Chained fs.rootCluster

/-- What a call must find for the names to stay unique: it gives up before it
writes to the root directory, or the slot it writes to admits the name. -/
def NamesKept (g : Geometry fs) : NameCall → Disk → Prop
  | .write path data, d =>
    match (fs.findFile (trimStartMatches '/' path) d).1 with
    | .ok (some e) =>
      ¬(view g d).EntryOk e
        ∨ (view g d).freeList.length + ((view g d).entryChain e).length < fs.clustersFor data
        ∨ ¬fs.Counted data ∨ (view g d).UpdatesUnique (trimStartMatches '/' path) e
    | .ok none =>
      (view g d).freeList.length < fs.clustersFor data ∨ ¬fs.Counted data
        ∨ (view g d).CreatesUnique (trimStartMatches '/' path)
    | _ => True
  | .mkdir path, d =>
    trimStartMatches '/' path = []
      ∨ (∃ e, (fs.findFile (trimStartMatches '/' path) d).1 = .ok (some e))
      ∨ (view g d).freeList = [] ∨ (view g d).CreatesUnique (trimStartMatches '/' path)

section
variable {g : Geometry fs} {d : Disk}

/-- When `write` keeps names unique. -/
lemma write_unique (hu : UniqueNames g d) {data : List UInt8}
    (ha : StepApart g (.write path data) d) (hret : (fs.write path data d).1.Returns) :
    UniqueNames g (fs.write path data d).2 ↔ NamesKept g (.write path data) d := by
  obtain ⟨hroot, hfound⟩ := ha
  unfold NamesKept
  unfold write at hret ⊢
  rcases (findFile_readOnly fs _).mapErr_cases hret with ⟨found, hf, hrun⟩ | ⟨m, hf, hsame⟩
  · rw [hrun]
    simp only [hf]
    cases found with
    | some e =>
      obtain ⟨l, r, hfreed, hl⟩ := hfound e hf
      exact writeExisting_unique hroot hu rfl (findFile_live hf) hfreed hl _ data
    | none => exact writeNew_unique hroot hu rfl _ data
  · rw [hsame]
    simp only [hf]
    exact iff_of_true hu trivial

/-- When `mkdir` keeps names unique. -/
lemma mkdir_unique (hu : UniqueNames g d) (ha : StepApart g (.mkdir path) d)
    (hret : (fs.mkdir path d).1.Returns) :
    UniqueNames g (fs.mkdir path d).2 ↔ NamesKept g (.mkdir path) d := by
  unfold NamesKept
  unfold mkdir at hret ⊢
  by_cases ht : trimStartMatches '/' path = []
  · rw [if_pos ht]
    exact iff_of_true hu (.inl ht)
  · rw [if_neg ht] at hret ⊢
    simp only [ht, false_or]
    have hmake := makeDirectory_unique ha hu rfl (trimStartMatches '/' path)
    rcases (findFile_readOnly fs _).attempt_cases hret with ⟨found, hf, hrun⟩ | ⟨m, hf, hrun⟩ <;>
      rw [hrun] at hret ⊢ <;> rw [hf]
    · cases found with
      | some e => exact iff_of_true hu (.inl ⟨e, rfl⟩)
      | none => exact (hmake hret).trans (by simp)
    · exact (hmake hret).trans (by simp)

/-- One call keeps the names unique exactly if it finds what it must. -/
lemma step_unique (c : NameCall) {d' : Disk} (hu : UniqueNames g d)
    (hs : c.step fs d = some d') (ha : StepApart g c d) : UniqueNames g d' ↔ NamesKept g c d := by
  cases c with
  | write path data =>
    rw [← after_eq hs]
    exact write_unique hu ha (after_returns hs)
  | mkdir path =>
    rw [← after_eq hs]
    exact mkdir_unique hu ha (after_returns hs)

end

end RustOs.Fs.Fat32
