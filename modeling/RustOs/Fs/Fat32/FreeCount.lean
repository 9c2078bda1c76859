import RustOs.Lib.Invariant
import RustOs.Fs.Fat32.BrokenChains
import RustOs.Fs.Fat32.Ownership

/-!
# The free count of the FSInfo sector

The FSInfo sector records how many clusters are free. The driver moves the count
when it frees a chain to its end, and nowhere else: `allocate_clusters` takes
clusters without a word to it, and a chain that turns out to be broken is left
half freed.

What a call leaves is described by the volume's FAT and the recorded count
(`Booked`); whether the count is right can be read off them. Each of the calls
that take or free clusters has its theorem here: it keeps the count right if it
takes nothing and frees a whole chain or nothing, and as far as the links it
follows stay in the data area, only then.
-/

namespace RustOs.Fs.Fat32

open Lib Prog VfsError Volume Drivers Nat
open List hiding Vector

variable {fs : Fat32}

/-! ## The recorded count -/

/-- The FSInfo sector has its three signatures. -/
structure Signed (fs : Fat32) (d : Disk) : Prop where
  lead : leAt (d fs.fsInfoSector).bytes 0 4 = 0x41615252
  middle : leAt (d fs.fsInfoSector).bytes 484 4 = 0x61417272
  trail : leAt (d fs.fsInfoSector).bytes 508 4 = 0xAA550000

/-- The free count in the FSInfo sector. -/
def recorded (fs : Fat32) (d : Disk) : Nat := leAt (d fs.fsInfoSector).bytes 488 4

/-- The recorded count is the number of free clusters. -/
def Tracks (g : Geometry fs) (d : Disk) : Prop :=
  Signed fs d ∧ recorded fs d = (view g d).freeList.length

/-- The boot sector names an FSInfo sector. -/
def HasInfo (fs : Fat32) : Prop := fs.fsInfoSector ≠ 0 ∧ fs.fsInfoSector ≠ 0xFFFF

/-- The free clusters of a table. -/
def zeros (fs : Fat32) (f : Nat → Nat) : Nat :=
  ((List.range' 2 fs.totalClusters).filter (fun c => f c = 0)).length

/-- The disk holds this volume, and `n` is recorded. -/
def Books (g : Geometry fs) (n : Nat) (d : Disk) (v : Volume fs) : Prop :=
  (Signed fs d ∧ recorded fs d = n) ∧ view g d = v

/-- The disk holds this FAT, and `n` is recorded. -/
def Booked (g : Geometry fs) (n : Nat) (f : Nat → Nat) (d : Disk) : Prop :=
  (Signed fs d ∧ recorded fs d = n) ∧ (view g d).fat = f

section
variable {g : Geometry fs} {n : Nat} {d : Disk} {v : Volume fs}

lemma Books.booked (h : Books g n d v) : Booked g n v.fat d := ⟨h.1, congrArg Volume.fat h.2⟩

lemma Booked.tracks_iff {f : Nat → Nat} (h : Booked g n f d) : Tracks g d ↔ n = zeros fs f := by
  have hlen : (view g d).freeList.length = zeros fs f := by
    rw [← h.2]
    rfl
  unfold Tracks
  rw [h.1.2, hlen]
  exact ⟨And.right, fun hn => ⟨h.1.1, hn⟩⟩

lemma Books.tracks_iff (h : Books g n d v) : Tracks g d ↔ n = v.freeList.length :=
  h.booked.tracks_iff

lemma Tracks.books (h : Tracks g d) : Books g (view g d).freeList.length d (view g d) := ⟨h, rfl⟩

lemma books_table (g : Geometry fs) (hi : HasInfo fs) (n : Nat) : Table g (Books g n) := by
  have hlow : fs.fsInfoSector < fs.firstFatSector := by
    have := g.info
    have := hi.1
    have := hi.2
    omega
  have hb := fatSector_bound g g.root.2
  have hkept : ∀ d d' : Disk, d' fs.fsInfoSector = d fs.fsInfoSector →
      Signed fs d ∧ recorded fs d = n → Signed fs d' ∧ recorded fs d' = n := by
    intro d d' h ⟨hs, hr⟩
    unfold recorded at hr ⊢
    rw [h]
    exact ⟨⟨h ▸ hs.lead, h ▸ hs.middle, h ▸ hs.trail⟩, hr⟩
  exact Table.of_kept g (fun d d' h => hkept d d' (h _ (by omega)))
    fun d d' _ h => hkept d d' (h _ hlow)

/-- `update_fsinfo` moves the count. -/
lemma updateFsinfo_books (hi : HasInfo fs) (h : Books g n d v) {k : Nat} (hk : n + k < 0xFFFFFFFF) :
    ∃ d', fs.updateFsinfo k 0 d = (.ok (), d') ∧ Books g (n + k) d' v := by
  obtain ⟨⟨hs, hr⟩, hv⟩ := h
  have hlow : fs.fsInfoSector < fs.firstFatSector := by
    have := g.info
    have := hi.1
    have := hi.2
    omega
  have hb := fatSector_bound g g.root.2
  have hlen := (d fs.fsInfoSector).len
  have hpatch : (patch (d fs.fsInfoSector).bytes 488 (leBytes 4 (n + k))).length = 512 := by
    rw [patch_length (by rw [leBytes_length]; omega), hlen]
  have hrun : fs.updateFsinfo k 0 d = (.ok (), d.update fs.fsInfoSector
      (Sector.ofBytes (patch (d fs.fsInfoSector).bytes 488 (leBytes 4 (n + k))))) := by
    unfold recorded at hr
    unfold updateFsinfo
    rw [if_neg (not_or.mpr hi), bind_ok (readSector_disk d (by omega)),
      if_neg (not_not_intro hs.lead), hr,
      if_neg (show ¬(0 : Nat) ≠ 0 from not_not_intro rfl), if_pos (show n ≠ 0xFFFFFFFF by omega),
      if_neg (show ¬(k : Int) < 0 by omega), Int.toNat_natCast, min_eq_left (by omega),
      writeSector_disk d _ (by omega)]
  obtain ⟨d', hrun', hview, -⟩ := updateFsinfo_disk g d k 0
  have hd' : d' = d.update fs.fsInfoSector
      (Sector.ofBytes (patch (d fs.fsInfoSector).bytes 488 (leBytes 4 (n + k)))) :=
    congrArg Prod.snd (hrun'.symm.trans hrun)
  have hbytes : (d' fs.fsInfoSector).bytes =
    patch (d fs.fsInfoSector).bytes 488 (leBytes 4 (n + k)) := by
    rw [hd', Disk.update_same]
    exact Sector.ofBytes_bytes hpatch
  have hother : ∀ i, i + 4 ≤ 488 ∨ 492 ≤ i → i + 4 ≤ 512 →
      leAt (d' fs.fsInfoSector).bytes i 4 = leAt (d fs.fsInfoSector).bytes i 4 := by
    intro i hi _
    rw [hbytes]
    exact leAt_patch_of_disjoint (by rw [leBytes_length]; omega) (by rw [leBytes_length]; omega)
  refine ⟨d', hrun', ⟨⟨?_, ?_, ?_⟩, ?_⟩, hview.trans hv⟩
  · rw [hother 0 (by omega) (by omega), hs.lead]
  · rw [hother 484 (by omega) (by omega), hs.middle]
  · rw [hother 508 (by omega) (by omega), hs.trail]
  · unfold recorded
    rw [hbytes, leAt_patch_leBytes (by omega), mod_eq_of_lt (by omega)]

/-- The count recorded after a chain was freed: it is moved only at its end. -/
def freedCount (v : Volume fs) (l : List Nat) (r : Bool) : Nat :=
  if r then (v.clear l).freeList.length else v.freeList.length

/-- Freeing keeps the count right if it gets to the end, or nowhere. -/
lemma freedCount_eq_iff {l : List Nat} {r : Bool} (hnd : l.Nodup)
    (h : ∀ b ∈ l, fs.InRange b ∧ v.fat b ≠ 0) :
    freedCount v l r = (v.clear l).freeList.length ↔ r = true ∨ l = [] := by
  have hlen := freeList_length_clear hnd h
  unfold freedCount
  cases r with
  | true => exact iff_of_true rfl (.inl rfl)
  | false =>
    rw [if_neg Bool.false_ne_true, hlen]
    constructor
    · intro heq
      exact .inr (eq_nil_of_length_eq_zero (by omega))
    · intro hl
      rcases hl with hl | hl
      · cases hl
      · rw [hl]
        rfl

/-- The two walks that free a chain: the loop and then the count. -/
lemma freeThenCount_books (hi : HasInfo fs) (h : Books g v.freeList.length d v) {c : Nat}
    {l : List Nat} {r : Bool} (hf : Volume.Freed v c l r) {α : Type} (a : Nat → α) :
    ∃ d', (do
        let freed ← fs.freeClusterChainFrom chainFuel c
        let _ ← (fs.updateFsinfo freed 0).attempt
        pure (a freed) : Prog Disk String α) d
        = (if r then .ok (a l.length) else .err "Invalid cluster number in FAT", d')
      ∧ Books g (freedCount v l r) d' (v.clear l) := by
  have hlen := freeList_length_clear hf.allocated.1 hf.allocated.2
  have hle := freeList_length_le (v.clear l)
  have hnum := g.numbers
  have := books_table g hi v.freeList.length
  obtain ⟨d₁, hrun, hd₁⟩ := freeClusterChainFrom_freed g hf chainFuel (hf.length_lt_fuel g) d h
  unfold freedCount
  cases r with
  | true =>
    obtain ⟨d₂, hup, hd₂⟩ := updateFsinfo_books (g := g) hi hd₁ (k := l.length) (by omega)
    refine ⟨d₂, ?_, ?_⟩
    · rw [bind_ok hrun, bind_ok (attempt_ok hup)]
      rfl
    · rw [if_pos rfl, hlen]
      exact hd₂
  | false => exact ⟨d₁, bind_err hrun, hd₁⟩

end

/-! ## Writing to clusters

Neither the FAT nor the FSInfo sector changes, as long as the clusters written
are clusters. -/

section
variable {g : Geometry fs} {n : Nat} {f : Nat → Nat}

/-- Writing data counts no cluster. -/
lemma writeClusterChainFrom_booked (hi : HasInfo fs) (fuel : Nat) :
    ∀ (c : Nat) (data : List UInt8) (d : Disk), (view g d).Inside c → Booked g n f d →
      Booked g n f (fs.writeClusterChainFrom fuel c data d).2 := by
  have := books_table g hi n
  -- the loop writes clusters only: the table it walks along stays as it is
  induction fuel with
  | zero =>
    intro c data d _ hd
    unfold writeClusterChainFrom
    split
    next => exact hd
    next => exact hd
  | succ fuel ih =>
    intro c data d hin hd
    unfold writeClusterChainFrom
    by_cases he : data.isEmpty = true
    · rw [if_pos he]
      exact hd
    · have hbooks : Books g n d (view g d) := ⟨hd.1, rfl⟩
      obtain ⟨d₁, hw, hd₁⟩ := Table.writeCluster (R := Books g n) g (view g d) hin.here
        (show (data.take fs.clusterSize).length ≤ fs.clusterSize by simp) d hbooks
      have hfat : (view g d₁).fat = (view g d).fat := by
        rw [hd₁.2]
        rfl
      have hbooked : Booked g n f d₁ := ⟨hd₁.1, hfat.trans hd.2⟩
      have hin₁ : (view g d₁).Inside c := hin.congr hfat
      rw [if_neg he, bind_ok hw]
      by_cases hrest : (data.drop fs.clusterSize).isEmpty = true
      · rw [if_pos hrest]
        exact hbooked
      · obtain ⟨d₂, hnext, hd₂⟩ := getNextCluster_runs (R := Books g n) g (view g d₁) hin₁.here d₁
          ⟨hd₁.1, rfl⟩
        have hsame : d₂ = d₁ := by
          have h := getNextCluster_readOnly fs c d₁
          rw [hnext] at h
          exact h
        rw [hsame] at hnext
        rw [if_neg hrest]
        rcases hlink : (view g d₁).link c with b | _ | _
        · rw [hlink] at hnext
          rw [bind_ok hnext]
          exact ih b _ d₁ (hin₁.next hlink) hbooked
        · rw [hlink] at hnext
          rw [bind_ok hnext]
          exact hbooked
        · rw [hlink] at hnext
          rw [bind_err hnext]
          exact hbooked

lemma writeClusterChain_booked (hi : HasInfo fs) {v : Volume fs} {c : Nat} (hin : v.Inside c)
    (data : List UInt8) : Preserves (Booked g n v.fat) (fs.writeClusterChain c data) :=
  fun d _ hd => writeClusterChainFrom_booked hi _ c data d (hin.congr hd.2) hd

variable {v : Volume fs} (hi : HasInfo fs) (hroot : v.Inside fs.rootCluster)

include hi hroot

lemma createEntry_booked (name : Str) (e : Vector UInt8 11 → DirectoryEntry) :
    Preserves (Booked g n v.fat) (lift (shortNameOf name) >>= fun n =>
      fs.writeDirectoryEntryToRoot (e n)) := by
  refine (Preserves.lift _).bind fun nm => ?_
  refine (Preserves.of_readOnly (readClusterChain_readOnly fs _)).bind fun data => ?_
  split
  next => exact writeClusterChain_booked hi hroot _
  next => exact .lift _

lemma updateDirectoryEntry_booked (name : Str) (e : DirectoryEntry) :
    Preserves (Booked g n v.fat) (fs.updateDirectoryEntry name e) := by
  refine (Preserves.lift _).bind fun nm => ?_
  refine (Preserves.of_readOnly (readClusterChain_readOnly fs _)).bind fun data => ?_
  split
  next => exact writeClusterChain_booked hi hroot _
  next => exact .lift _

lemma deleteDirectoryEntry_booked (name : Str) :
    Preserves (Booked g n v.fat) (fs.deleteDirectoryEntry name) := by
  refine (Preserves.lift _).bind fun nm => ?_
  refine (Preserves.of_readOnly (readClusterChain_readOnly fs _)).bind fun data => ?_
  split
  next => exact writeClusterChain_booked hi hroot _
  next => exact .lift _

end

/-! ## Taking clusters -/

namespace Volume

variable {v : Volume fs} {k : Nat}

/-- The clusters taken lead to each other, so no link leaves the data area because of them. -/
lemma Inside.linkUp (g : Geometry fs) (hk : 0 < k) (hle : k ≤ v.freeList.length) {c : Nat}
    (h : v.Inside c) : (v.linkUp (v.freeList.take k)).Inside c := by
  have hchain := (v.chain_fill g hk hle []).1
  have hsplit : ∀ b, Relation.ReflTransGen (v.linkUp (v.freeList.take k)).Leads c b →
      Relation.ReflTransGen v.Leads c b ∨ b ∈ v.freeList.take k := by
    intro b hb
    induction hb with
    | refl => exact .inl .refl
    | @tail x y _ hxy ih =>
      by_cases hx : x ∈ v.freeList.take k
      · obtain ⟨l₁, l₂, heq, hl₂⟩ := hchain.suffix_of_mem hx
        have hy : y ∈ l₂ := mem_of_leads hl₂ (.single hxy)
        exact .inr (heq ▸ mem_append_right l₁ hy)
      · refine .inl ((ih.resolve_right hx).tail ?_)
        unfold Leads link at hxy ⊢
        rwa [linkUp_fat_of_not_mem v hx] at hxy
  intro b hb
  rcases hsplit b hb with hb | hb
  · exact h b hb
  · exact chain_inRange hchain hb

/-- Fewer clusters are free than before. -/
lemma freeList_length_linkUp_lt (g : Geometry fs) (hk : 0 < k) (hle : k ≤ v.freeList.length) :
    (v.linkUp (v.freeList.take k)).freeList.length < v.freeList.length := by
  have hchain := (v.chain_fill g hk hle []).1
  have hmem : ∀ c ∈ (v.linkUp (v.freeList.take k)).freeList, c ∈ v.freeList ∧ c ≠ v.firstFree := by
    intro c hc
    obtain ⟨hr, h0⟩ := mem_freeList.mp hc
    have hout : c ∉ v.freeList.take k := fun hin => chain_allocated hchain hin h0
    rw [linkUp_fat_of_not_mem v hout] at h0
    exact ⟨mem_freeList.mpr ⟨hr, h0⟩, fun h => hout (h ▸ hchain.mem_head)⟩
  have hnd : (v.firstFree :: (v.linkUp (v.freeList.take k)).freeList).Nodup :=
    nodup_cons.mpr ⟨fun h => (hmem _ h).2 rfl, freeList_nodup _⟩
  have hsub : v.firstFree :: (v.linkUp (v.freeList.take k)).freeList ⊆ v.freeList := by
    intro c hc
    rcases mem_cons.mp hc with rfl | hc
    · exact mem_of_mem_take hchain.mem_head
    · exact (hmem c hc).1
  exact (subperm_of_subset hnd hsub).length_le

end Volume

section
variable {g : Geometry fs} {d : Disk} {v : Volume fs} {k : Nat}

/-- An allocation that fails leaves the count right. -/
lemma allocate_short (hi : HasInfo fs) (hd : Books g v.freeList.length d v)
    (hlt : v.freeList.length < k) {α : Type} (rest : Nat → Prog Disk VfsError α) :
    Tracks g (((fs.allocateClusters k).mapErr (fun _ => noSpace) >>= rest) d).2 := by
  have := books_table g hi v.freeList.length
  obtain ⟨m, hm⟩ := allocateClusters_full (R := Books g v.freeList.length) g v hlt
  obtain ⟨d', hrun, hd'⟩ := (hm.mapErr fun _ => noSpace) d hd
  rw [bind_err hrun]
  exact hd'.tracks_iff.mpr rfl

/-- An allocation that succeeds leaves it wrong, whatever is written then. -/
lemma allocate_takes (hi : HasInfo fs) (hd : Books g v.freeList.length d v) (hk : 0 < k)
    (hle : k ≤ v.freeList.length) {α : Type} {rest : Nat → Prog Disk VfsError α}
    (hrest : Preserves (Booked g v.freeList.length (v.linkUp (v.freeList.take k)).fat)
      (rest v.firstFree))
    (hret : (((fs.allocateClusters k).mapErr (fun _ => noSpace) >>= rest) d).1.Returns) :
    ¬Tracks g (((fs.allocateClusters k).mapErr (fun _ => noSpace) >>= rest) d).2 := by
  have := books_table g hi v.freeList.length
  obtain ⟨d', hrun, hd'⟩ := ((allocate_runs (R := Books g v.freeList.length) g hk hle).mapErr
    fun _ => noSpace) d hd
  rw [bind_ok hrun] at hret ⊢
  rw [(hrest d' hret hd'.booked).tracks_iff]
  have hlt := freeList_length_linkUp_lt g hk hle
  intro heq
  have heq' : v.freeList.length = (v.linkUp (v.freeList.take k)).freeList.length := heq
  omega

end

section
variable {g : Geometry fs} {d : Disk} {v : Volume fs} {e : DirectoryEntry} {l : List Nat} {r : Bool}

section

variable (hi : HasInfo fs) (h : Books g v.freeList.length d v)
include hi h

lemma freeClusterChain_books {c : Nat}
    (hf : Volume.Freed v c l r) :
    ∃ d', fs.freeClusterChain c d
        = (if r then .ok () else .err "Invalid cluster number in FAT", d')
      ∧ Books g (freedCount v l r) d' (v.clear l) :=
  freeThenCount_books hi h hf fun _ => ()

lemma freeEntry_books (hf : v.EntryFreed e l r) :
    ∃ d', fs.freeEntry e d = (if r then .ok () else .err .ioError, d')
      ∧ Books g (freedCount v l r) d' (v.clear l) := by
  unfold Volume.EntryFreed at hf
  unfold freeEntry
  by_cases h0 : e.firstCluster = 0
  · rw [if_pos h0] at hf
    obtain ⟨rfl, rfl⟩ := hf
    refine ⟨d, by rw [if_neg (not_not_intro h0)]; rfl, ?_⟩
    unfold freedCount
    exact h
  · rw [if_neg h0] at hf
    obtain ⟨d', hrun, hd'⟩ := freeClusterChain_books hi h hf
    refine ⟨d', ?_, hd'⟩
    rw [if_pos h0, mapErr_apply, hrun]
    cases r <;> rfl

/-- What an overwrite leaves: only an overwrite that takes nothing keeps the count right. -/
lemma writeExisting_tracks (hf : v.EntryFreed e l r) (path : Str) (data : List UInt8) :
    (r = true ∧ (v.clear l).freeList.length < fs.clustersFor data ∨ r = false ∧ l = [] →
      Tracks g (fs.writeExisting path e data d).2)
    ∧ (v.Inside fs.rootCluster → (fs.writeExisting path e data d).1.Returns →
      Tracks g (fs.writeExisting path e data d).2 →
      r = true ∧ (v.clear l).freeList.length < fs.clustersFor data ∨ r = false ∧ l = []) := by
  obtain ⟨d', hrun, hd'⟩ := freeEntry_books hi h hf
  have hcount := freedCount_eq_iff (r := r) hf.allocated.1 hf.allocated.2
  unfold writeExisting
  cases r with
  | false =>
    rw [bind_err hrun, hd'.tracks_iff, hcount]
    exact ⟨fun hc => hc.imp And.left And.right,
      fun _ _ ht => .inr ⟨rfl, ht.resolve_left (fun h => nomatch h)⟩⟩
  | true =>
    rw [bind_ok hrun]
    constructor
    · intro hc
      obtain ⟨-, hlt⟩ := hc.resolve_right fun h => nomatch h.1
      exact allocate_short hi hd' hlt _
    · intro hroot hret ht
      refine .inl ⟨rfl, Nat.lt_of_not_le fun hle => ?_⟩
      have hpos := clustersFor_pos fs data
      refine allocate_takes hi hd' hpos hle ?_ hret ht
      refine .bind (.mapErr ?_ _) fun _ => .mapErr ?_ _
      · exact writeClusterChain_booked hi (inside_of_chain (chain_fill g hpos hle []).1) data
      · refine updateDirectoryEntry_booked hi (Volume.Inside.linkUp g hpos hle ?_) path _
        exact hroot.mono fun a b => leads_clear

/-- A new file is not counted. -/
lemma writeNew_tracks (path : Str)
    (data : List UInt8) :
    (v.freeList.length < fs.clustersFor data → Tracks g (fs.writeNew path data d).2)
    ∧ (v.Inside fs.rootCluster → (fs.writeNew path data d).1.Returns →
      Tracks g (fs.writeNew path data d).2 → v.freeList.length < fs.clustersFor data) := by
  constructor
  · intro hlt
    exact allocate_short hi h hlt _
  · intro hroot hret ht
    refine Nat.lt_of_not_le fun hle => ?_
    have hpos := clustersFor_pos fs data
    refine allocate_takes hi h hpos hle ?_ hret ht
    refine .bind (.mapErr ?_ _) fun _ => .mapErr ?_ _
    · exact writeClusterChain_booked hi (inside_of_chain (chain_fill g hpos hle []).1) data
    · exact createEntry_booked hi (Volume.Inside.linkUp g hpos hle hroot) path _

/-- A new directory is not counted. -/
lemma makeDirectory_tracks (path : Str) :
    (v.freeList = [] → Tracks g (fs.makeDirectory path d).2)
    ∧ (v.Inside fs.rootCluster → (fs.makeDirectory path d).1.Returns →
      Tracks g (fs.makeDirectory path d).2 → v.freeList = []) := by
  constructor
  · intro hnil
    exact allocate_short hi h (by rw [hnil]; exact one_pos) _
  · intro hroot hret ht
    by_contra hne
    have hle : 1 ≤ v.freeList.length := length_pos_of_ne_nil hne
    refine allocate_takes hi h one_pos hle ?_ hret ht
    refine .bind (.of_readOnly (parentCluster_readOnly fs path)) fun parent => ?_
    refine .bind (.mapErr ?_ _) fun _ => .mapErr ?_ _
    · exact writeClusterChain_booked hi
        (inside_of_chain (chain_fill g one_pos hle []).1) _
    · exact createEntry_booked hi (Volume.Inside.linkUp g one_pos hle hroot) path _

end

/-- Freeing and then removing a root slot: what was freed decides. -/
lemma freeThenDelete_tracks (hi : HasInfo fs) {free : Prog Disk VfsError Unit} {d' : Disk}
    (hrun : free d = (if r then .ok () else .err .ioError, d'))
    (hd' : Books g (freedCount v l r) d' (v.clear l)) (hnd : l.Nodup)
    (hl : ∀ b ∈ l, fs.InRange b ∧ v.fat b ≠ 0) (path : Str)
    (hret : ((free >>= fun _ => (fs.deleteDirectoryEntry path).mapErr fun _ =>
      ioError) d).1.Returns)
    (hroot : r = true → v.Inside fs.rootCluster) :
    Tracks g ((free >>= fun _ => (fs.deleteDirectoryEntry path).mapErr fun _ => ioError) d).2
      ↔ r = true ∨ l = [] := by
  have hcount := freedCount_eq_iff (r := r) hnd hl
  cases r with
  | false =>
    rw [bind_err hrun, hd'.tracks_iff, hcount]
  | true =>
    rw [bind_ok hrun] at hret ⊢
    have hin : (v.clear l).Inside fs.rootCluster := (hroot rfl).mono fun a b => leads_clear
    have hkept := (deleteDirectoryEntry_booked hi hin path).mapErr (fun _ => ioError) d' hret
      hd'.booked
    exact iff_of_true (hkept.tracks_iff.mpr rfl) (.inl rfl)

end

end RustOs.Fs.Fat32
