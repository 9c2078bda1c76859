import RustOs.Fs.Fat32.Contract

/-!
# An overwrite that fails

`write` on a file that exists frees its chain, allocates a new one, stores the
data and only then rewrites the directory entry, and no error path puts the old
chain back. So the file survives an error in two ways only: there is none
(`Fits`), or what the driver left behind happens to be what was there
(`Coincides`): the clusters it took are those of the file, and the new data laid
over them in ascending order still reads as the old content.
-/

namespace RustOs.Fs.Fat32

open Lib Volume Drivers Nat List

variable {fs : Fat32}

/-- If the call fails, the file reads as before and the same clusters are free. -/
def KeptOnError (g : Geometry fs) (d : Disk) (path : Str) (data content : List UInt8) : Prop :=
  ∀ e, (fs.write path data d).1 = .err e →
    (fs.read path (fs.write path data d).2).1 = .ok content
      ∧ (view g (fs.write path data d).2).freeList = (view g d).freeList

namespace Volume

variable (v : Volume fs)

/-- There is room once the old chain is given back. -/
def HasRoom (e : DirectoryEntry) (data : List UInt8) : Prop :=
  fs.clustersFor data ≤ v.freeList.length + (v.entryChain e).length

/-- The clusters an overwrite of this file takes. -/
def retaken (e : DirectoryEntry) (data : List UInt8) : List Nat :=
  (v.clear (v.entryChain e)).freeList.take (fs.clustersFor data)

/-- The overwrite goes through: room, a count of clusters that did not wrap
around, and a root slot with the 8.3 form of the path. -/
def Fits (path : Str) (e : DirectoryEntry) (data : List UInt8) : Prop :=
  v.HasRoom e data ∧ fs.Counted data ∧ v.slotFor (trimStartMatches '/' path) ≠ none

/-- What a failed overwrite leaves happens to be what there was. -/
def Coincides (e : DirectoryEntry) (data content : List UInt8) : Prop :=
  v.HasRoom e data ∧ (v.retaken e data).Perm (v.entryChain e)
    ∧ (((v.retaken e data).dropWhile fun c => c ≠ e.firstCluster).flatMap
        (v.store (v.retaken e data) data).data).take e.fileSize.toNat = content

/-! ## Cells of the volume -/

/-- What is stored depends on what was there, not on the FAT. -/
lemma store_data_congr {v w : Volume fs} (l : List Nat) (data : List UInt8)
    (h : w.data = v.data) : (w.store l data).data = (v.store l data).data := by
  induction l generalizing v w data with
  | nil => exact h
  | cons c l ih =>
    unfold store
    split
    next => exact h
    next =>
      refine ih _ ?_
      funext b
      rw [setData_data, setData_data, h]

lemma fill_clear_data (l : List Nat) (n : Nat) (data : List UInt8) :
    ((v.clear l).fill n data).data = (v.store ((v.clear l).freeList.take n) data).data := by
  refine store_data_congr _ data ?_
  rw [linkUp_data]
  rfl

/-- The free clusters are the same exactly if the clusters taken are the ones
given back. -/
lemma freeList_refill (g : Geometry fs) {v : Volume fs} {l : List Nat} {n : Nat} (hn : 0 < n)
    (hle : n ≤ (v.clear l).freeList.length) (data : List UInt8) (hnd : l.Nodup)
    (hl : ∀ c ∈ l, fs.InRange c ∧ v.fat c ≠ 0) :
    ((v.clear l).fill n data).freeList = v.freeList ↔ ((v.clear l).freeList.take n).Perm l := by
  have hF : ∀ c ∈ (v.clear l).freeList.take n, ((v.clear l).fill n data).fat c ≠ 0 :=
    fun c hc => chain_allocated (chain_fill g hn hle data).2 hc
  have hmem : ∀ c ∈ (v.clear l).freeList.take n, fs.InRange c ∧ (c ∈ l ∨ v.fat c = 0) := by
    intro c hc
    obtain ⟨hr, h0⟩ := mem_freeList.mp (mem_of_mem_take hc)
    refine ⟨hr, ?_⟩
    rw [clear_fat] at h0
    split at h0
    next hcl => exact .inl hcl
    next => exact .inr h0
  constructor
  · intro heq
    refine (perm_ext_iff_of_nodup ((freeList_nodup _).sublist (take_sublist _ _)) hnd).mpr
      fun c => ⟨fun hc => ?_, fun hc => ?_⟩
    · obtain ⟨hr, hcl | h0⟩ := hmem c hc
      · exact hcl
      · have hfree := mem_freeList.mpr ⟨hr, h0⟩
        rw [← heq] at hfree
        exact absurd (mem_freeList.mp hfree).2 (hF c hc)
    · by_contra hcF
      have hfree : c ∈ ((v.clear l).fill n data).freeList := by
        refine mem_freeList.mpr ⟨(hl c hc).1, ?_⟩
        rw [fill_fat n data hcF, clear_fat, if_pos hc]
      rw [heq] at hfree
      exact (hl c hc).2 (mem_freeList.mp hfree).2
  · intro hp
    refine freeList_congr fun c _ => ?_
    by_cases hc : c ∈ l
    · exact iff_of_false (hF c (hp.mem_iff.mpr hc)) (hl c hc).2
    · rw [fill_fat n data (fun hcF => hc (hp.mem_iff.mp hcF)), clear_fat, if_neg hc]

section

variable {v : Volume fs} (h : v.WellFormed) {c₀ c : Nat} (hc₀ : v.DirAt c₀) {e : DirectoryEntry}
  (he : e ∈ v.owned c₀) (hdir : e.isDirectory = false)
include h hc₀ he hdir

/-- The clusters of a file are apart from every directory. -/
lemma file_apart (hc : v.DirAt c) : (v.chainOf c).Disjoint (v.entryChain e) := by
  by_cases hcr : c = fs.rootCluster
  · rw [hcr]
    exact h.apart c₀ hc₀ e he
  · obtain ⟨c', e', hc', he', hdir', _, heq⟩ := h.dirAt_owner hc hcr
    rw [← heq]
    refine h.apart_of_ne hc' hc₀ he' he ?_
    rintro rfl
    rw [hdir] at hdir'
    cases hdir'

/-- After the clusters of a file were given back and others filled, every
directory lists the same. -/
lemma refill_listing (n : Nat)
    (data : List UInt8) (hc : v.DirAt c) :
    ((v.clear (v.entryChain e)).fill n data).Chained c
      ∧ ((v.clear (v.entryChain e)).fill n data).listing c = v.listing c := by
  have hch := h.dirAt_chained hc
  have hagree : Agree v ((v.clear (v.entryChain e)).fill n data) (v.chainOf c) :=
    fun b hb => refill_same v _ n data (chain_allocated hch hb)
      fun hbe => file_apart h hc₀ he hdir hc hb hbe
  exact ⟨(chained_frame hch fun b hb => (hagree b hb).1).1, listing_frame hch hagree⟩

end

end Volume

/-! ## The failed call -/

/-- A file is read if its chain holds as much as it should. -/
lemma fileOutcome_eq_ok {v : Volume fs} {e : DirectoryEntry} {content : List UInt8} :
    fileOutcome v e = .ok content ↔ (v.chainData e.firstCluster).take e.fileSize.toNat = content
      ∧ content.length = e.fileSize.toNat := by
  unfold fileOutcome
  split
  next hle =>
    constructor
    · intro h
      injection h with h
      refine ⟨h, ?_⟩
      rw [← h, length_take, min_eq_left hle]
    · rintro ⟨h, _⟩
      rw [h]
  next hle =>
    constructor
    · intro h
      cases h
    · rintro ⟨rfl, h⟩
      rw [length_take] at h
      omega

section
variable {g : Geometry fs} {v : Volume fs} {d : Disk} {path : Str} {e : DirectoryEntry}
  {data content : List UInt8} (h : v.WellFormed) (hdots : v.DotsClosed)
  (hf : v.find path = .ok (some e)) (hdir : e.isDirectory = false) (h0 : e.firstCluster ≠ 0)
  (hroom : v.HasRoom e data)

include h hdots hf hdir h0 hroom

/-- The entry still stands, over whatever the overwrite stored: read through the
clusters it took, from the old first cluster on. -/
lemma read_refilled (g : Geometry fs) {d' : Disk}
    (hd' : Stands g d' ((v.clear (v.entryChain e)).fill (fs.clustersFor data) data))
    (hsize : content.length = e.fileSize.toNat)
    (hperm : (v.retaken e data).Perm (v.entryChain e)) :
    (fs.read path d').1 = .ok content
      ↔ (((v.retaken e data).dropWhile fun c => c ≠ e.firstCluster).flatMap
          (v.store (v.retaken e data) data).data).take e.fileSize.toNat = content := by
  obtain ⟨c, hc, he⟩ := found_owned h hdots hf hdir
  have hok := h.chained c hc e he
  have hle : fs.clustersFor data ≤ (v.clear (v.entryChain e)).freeList.length := by
    rw [freeList_clear_length hok]
    exact hroom
  -- the walk is as before
  have hlist := fun c => @refill_listing fs v h _ c hc e he hdir (fs.clustersFor data) data
  have hS := walkable_dirAt h hdots
  have hfind := findFile_runs g (hS.congr hlist) .root path
  unfold find at hfind hf
  rw [resolve_congr hS (fun c hc x => by
    unfold Volume.lookup
    rw [(hlist c hc).2]) _ _ (.inr .root), hf] at hfind
  -- the first cluster of the file lies in the new chain
  have hchain := (chain_fill g (clustersFor_pos fs data) hle data).2.dropWhile_of_mem
    (hperm.mem_iff.mpr (firstCluster_mem hok h0))
  have hchained := chained_of_chain hchain
  rw [(read_file hfind hdir hchained).outcome hd', fileOutcome_eq_ok]
  unfold chainData
  rw [chainOf_eq hchain, fill_clear_data]
  exact and_iff_left hsize

end

/-- A file survives a failed overwrite exactly if there was no failure to survive
or the driver left it by coincidence. -/
theorem overwrite_kept_iff (g : Geometry fs) (d : Disk) (hm : fs.Mirrored d)
    (hwf : (view g d).WellFormed) (hdots : (view g d).DotsClosed) (path : Str) (e : DirectoryEntry)
    (hf : (view g d).find path = .ok (some e)) (content : List UInt8)
    (hread : (fs.read path d).1 = .ok content) (data : List UInt8) :
    KeptOnError g d path data content
      ↔ (view g d).Fits path e data ∨ (view g d).Coincides e data content := by
  have hd : Stands g d (view g d) := ⟨hm, rfl⟩
  have hS := walkable_dirAt hwf hdots
  generalize hv : view g d = v at *
  obtain ⟨e₁, hf₁, hdir, h0, hout⟩ := read_ok_inv g hS .root hd (fun e hf hdir => by
    obtain ⟨c, hc, he⟩ := found_owned hwf hdots hf hdir
    exact hwf.chained c hc e he) hread
  rw [hf] at hf₁
  cases hf₁
  obtain ⟨c, hc, he⟩ := found_owned hwf hdots hf hdir
  have hok := hwf.chained c hc e he
  have hwrite := @write_eq fs v data g d path _ hS .root hd _ hf
  unfold KeptOnError
  rw [hwrite, hv]
  have hlen := freeList_clear_length hok
  by_cases hroom : v.HasRoom e data
  · have hle : fs.clustersFor data ≤ (v.clear (v.entryChain e)).freeList.length := by
      rw [hlen]
      exact hroom
    obtain ⟨hr, _, hs⟩ := rootSlots_frame hwf.root
      (refill_agree hwf.root (hwf.apart c hc e he) (fs.clustersFor data) data)
    have hslot := slotFor_congr hs (trimStartMatches '/' path)
    by_cases hgood : fs.Counted data ∧ v.slotFor (trimStartMatches '/' path) ≠ none
    · -- no failure
      obtain ⟨i, hi⟩ := Option.ne_none_iff_exists'.mp hgood.2
      have hrun := (writeExisting_runs g hok hle hgood.1 hr (hslot.trans hi)).outcome hd
      refine iff_of_true (fun err herr => ?_) (.inl ⟨hroom, hgood⟩)
      rw [hrun] at herr
      cases herr
    · have hbad : fs.clustersFor data * fs.clusterSize < data.length
          ∨ ((v.clear (v.entryChain e)).fill (fs.clustersFor data) data).slotFor
              (trimStartMatches '/' path) = none := by
        rw [hslot]
        by_cases hfit : fs.Counted data
        · exact .inr (by_contra fun hne => hgood ⟨hfit, hne⟩)
        · exact .inl (Nat.lt_of_not_le hfit)
      have hrun := writeExisting_fails (R := Stands g) g hok hle hr hbad
      have hst := hrun.state hd
      rw [hrun.outcome hd, hst.2,
        freeList_refill g (clustersFor_pos fs data) hle data (entryChain_nodup hok)
          fun c hc => entryChain_allocated hok hc]
      have hreads := read_refilled hwf hdots hf hdir h0 hroom g hst (fileOutcome_eq_ok.mp hout).2
      constructor
      · intro hkept
        obtain ⟨hread', hperm⟩ := hkept .ioError rfl
        exact .inr ⟨hroom, hperm, (hreads hperm).mp hread'⟩
      · rintro (hfits | ⟨_, hperm, hbytes⟩) _ _
        · exact absurd hfits.2 hgood
        · exact ⟨(hreads hperm).mpr hbytes, hperm⟩
  · -- the old chain is gone
    have hrun := @writeExisting_full fs g (Stands g) _ v e (trimStartMatches '/' path) data hok (by
      rw [hlen]
      exact Nat.lt_of_not_le hroom)
    have hst := hrun.state hd
    rw [hrun.outcome hd, hst.2]
    refine iff_of_false (fun hkept => ?_) (by
      rintro (hfits | hcoin)
      · exact hroom hfits.1
      · exact hroom hcoin.1)
    have hfc := firstCluster_mem hok h0
    have halloc := entryChain_allocated hok hfc
    have hfree : e.firstCluster ∈ (v.clear (v.entryChain e)).freeList := by
      refine mem_freeList.mpr ⟨halloc.1, ?_⟩
      rw [clear_fat, if_pos hfc]
    rw [(hkept .noSpace rfl).2] at hfree
    exact halloc.2 (mem_freeList.mp hfree).2

/-- The small volume with a file `B` of one byte in the root directory. -/
@[irreducible] def diskB : Disk := (smallFs.write ['B'] [7] smallDisk).2

lemma diskB_sound : Sound smallGeometry diskB := by
  have hok : (smallFs.write ['B'] [7] smallDisk).1 = .ok () := by decide +kernel
  unfold diskB
  refine write_sound smallDisk_sound smallDisk_step ?_
  rw [hok]
  exact True.intro

lemma diskB_dots : (view smallGeometry diskB).DotsClosed :=
  dots_small (by decide +kernel) (by decide +kernel) (by decide +kernel)

/-- A file in the root directory with room for more. -/
theorem overwrite_kept_small :
    (smallFs.read ['B'] diskB).1 = .ok [7]
      ∧ KeptOnError smallGeometry diskB ['B'] [8, 9] [7] := by
  have hread : (smallFs.read ['B'] diskB).1 = .ok [7] := by decide +kernel
  have hf : (view smallGeometry diskB).find ['B']
      = .ok (some (newEntry (shortName [0x42] []) 0x20 5 1)) := by decide +kernel
  have hslot : (view smallGeometry diskB).slotFor (trimStartMatches '/' ['B']) = some 1 := by
    decide +kernel
  have hchain : (view smallGeometry diskB).entryChain (newEntry (shortName [0x42] []) 0x20 5 1)
      = [5] := by decide +kernel
  refine ⟨hread, (overwrite_kept_iff smallGeometry diskB diskB_sound.1 diskB_sound.2.1
    diskB_dots ['B'] _ hf [7] hread [8, 9]).mpr (.inl ⟨?_, by decide, ?_⟩)⟩
  · have hone : smallFs.clustersFor [8, 9] = 1 := by decide
    unfold Volume.HasRoom
    rw [hchain, hone, length_singleton]
    exact le_add_left 1 _
  · rw [hslot]
    exact Option.some_ne_none 1

/-- A file in a subdirectory: the driver stores the new byte in its cluster, fails
to find `D/F` in the root, and the old content is lost. -/
theorem nested_overwrite_loses :
    smallFs.Mirrored smallDisk ∧ (view smallGeometry smallDisk).WellFormed
      ∧ (view smallGeometry smallDisk).DotsClosed
      ∧ (smallFs.read ['D', '/', 'F'] smallDisk).1 = .ok [1, 2, 3]
      ∧ (smallFs.write ['D', '/', 'F'] [5] smallDisk).1 = .err .ioError
      ∧ (smallFs.read ['D', '/', 'F'] (smallFs.write ['D', '/', 'F'] [5] smallDisk).2).1
          = .ok [5, 0, 0]
      ∧ ¬KeptOnError smallGeometry smallDisk ['D', '/', 'F'] [5] [1, 2, 3] := by
  have herr : (smallFs.write ['D', '/', 'F'] [5] smallDisk).1 = .err .ioError := by decide +kernel
  have hread : (smallFs.read ['D', '/', 'F']
      (smallFs.write ['D', '/', 'F'] [5] smallDisk).2).1 = .ok [5, 0, 0] := by decide +kernel
  refine ⟨smallDisk_mirrored, smallDisk_sound.2.1, smallDisk_dots, by decide +kernel,
    herr, hread, ?_⟩
  intro hkept
  exact nomatch hread.symm.trans (hkept .ioError herr).1

end RustOs.Fs.Fat32
