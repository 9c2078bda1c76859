import RustOs.Fs.Fat32.Directory

/-!
# What the file system calls do to a volume

`write`, `delete`, `mkdir` and `rmdir` look their path up and then free,
allocate, store and touch one slot of the root directory. The second half of
each is described here as an update of the volume, for every way it can end.
The lookup only reads, whatever is on the disk, so its result is taken as given.

An overwrite frees before it allocates: `writeExisting_full` and
`writeExisting_fails` say what is left behind when a later step fails.
-/

namespace RustOs.Fs.Fat32

open Lib VfsError Drivers Volume
open List hiding Vector

variable {fs : Fat32}

/-! ## Lookups only read -/

section

variable (fs) {σ : Type} [Drive σ] [PassiveDrive σ] (c : Nat) (path : Str)

lemma readSectorsFrom_readOnly (lba n : Nat) :
    ∀ i, ReadOnly (readSectorsFrom lba i n : Prog σ String _) := by
  induction n with
  | zero => exact fun i => .pure _
  | succ n ih =>
    intro i
    refine (ReadOnly.lift _).bind fun at_ => (PassiveDrive.readOnly at_).bind fun s => ?_
    exact (ih (i + 1)).bind fun rest => ReadOnly.pure _

lemma readSectors_readOnly (lba count len : Nat) :
    ReadOnly (readSectors lba count len : Prog σ String _) := by
  unfold readSectors
  split
  next => exact .fail _
  next => exact (readSectorsFrom_readOnly lba count 0).bind fun b => .pure _

lemma readCluster_readOnly : ReadOnly (fs.readCluster c : Prog σ String _) :=
  (ReadOnly.lift _).bind fun sector => readSectors_readOnly sector _ _

lemma readFatEntry_readOnly : ReadOnly (fs.readFatEntry c : Prog σ String _) := by
  refine (ReadOnly.lift _).bind fun _ => (ReadOnly.lift _).bind fun _ => ?_
  refine (ReadOnly.lift _).bind fun _ => (ReadOnly.lift _).bind fun _ => ?_
  refine (PassiveDrive.readOnly _).bind fun _ => (ReadOnly.lift _).bind fun _ => ?_
  exact ReadOnly.pure _

lemma getNextCluster_readOnly : ReadOnly (fs.getNextCluster c : Prog σ String _) := by
  refine (readFatEntry_readOnly fs c).bind fun next => ?_
  split
  next => exact .pure _
  next =>
    split
    next => exact .fail _
    next => exact .pure _

lemma readClusterChainFrom_readOnly (fuel c : Nat) :
    ReadOnly (fs.readClusterChainFrom fuel c : Prog σ String _) := by
  induction fuel generalizing c with
  | zero => exact .lift _
  | succ fuel ih =>
    refine (readCluster_readOnly fs c).bind fun data => ?_
    refine (getNextCluster_readOnly fs c).bind fun next => ?_
    cases next with
    | none => exact .pure _
    | some next => exact (ih next).bind fun rest => .pure _

lemma readClusterChain_readOnly : ReadOnly (fs.readClusterChain c : Prog σ String _) :=
  readClusterChainFrom_readOnly fs chainFuel c

lemma readDirectoryWithLfn_readOnly :
    ReadOnly (fs.readDirectoryWithLfn c : Prog σ String _) :=
  (readClusterChain_readOnly fs c).bind fun _ => .pure _

lemma readDirectory_readOnly : ReadOnly (fs.readDirectory c : Prog σ String _) :=
  (readDirectoryWithLfn_readOnly fs c).bind fun _ => .pure _

lemma findFileInDirectory_readOnly (name : Str) :
    ReadOnly (fs.findFileInDirectory c name : Prog σ String _) :=
  (readDirectoryWithLfn_readOnly fs c).bind fun _ => .pure _

lemma findFileFrom_readOnly (names : List Str) (c : Nat) :
    ReadOnly (fs.findFileFrom c names : Prog σ String _) := by
  induction names generalizing c with
  | nil => exact .pure _
  | cons x rest ih =>
    cases rest with
    | nil => exact findFileInDirectory_readOnly fs c x
    | cons y rest =>
      refine (findFileInDirectory_readOnly fs c x).bind fun found => ?_
      cases found with
      | none => exact .pure _
      | some e =>
        show ReadOnly (if _ then _ else _)
        split
        next => exact ih _
        next => exact .fail _

lemma findFile_readOnly : ReadOnly (fs.findFile path : Prog σ String _) :=
  findFileFrom_readOnly fs _ _

lemma findDirectoryCluster_readOnly :
    ReadOnly (fs.findDirectoryCluster path : Prog σ String _) := by
  unfold findDirectoryCluster
  generalize fs.rootCluster = c
  induction components (trimStartMatches '/' path) generalizing c with
  | nil => exact .pure _
  | cons x rest ih =>
    refine (findFileInDirectory_readOnly fs c x).bind fun found => ?_
    cases found with
    | none => exact .fail _
    | some e =>
      show ReadOnly (if _ then _ else _)
      split
      next => exact ih _
      next => exact .fail _

lemma parentCluster_readOnly :
    ReadOnly (fs.parentCluster path : Prog σ VfsError _) := by
  unfold parentCluster
  split
  next => exact .pure _
  next =>
    refine (findDirectoryCluster_readOnly fs _).attempt.bind fun r => ?_
    cases r <;> exact .pure _

end

/-! ## Updates of the volume -/

/-- The entry `write` stores back: the new chain and the new size. -/
def rewritten (e : DirectoryEntry) (first : Nat) (data : List UInt8) : DirectoryEntry :=
  { e.setFirstCluster first with fileSize := UInt32.ofNat data.length }

namespace Volume

/-- The clusters an entry names; cluster 0 stands for none. -/
def entryChain (v : Volume fs) (e : DirectoryEntry) : List Nat :=
  if e.firstCluster = 0 then [] else v.chainOf e.firstCluster

/-- The entry names no cluster, or the head of a chain. -/
def EntryOk (v : Volume fs) (e : DirectoryEntry) : Prop :=
  e.firstCluster ≠ 0 → v.Chained e.firstCluster

/-- The cluster the allocator takes first. -/
def firstFree (v : Volume fs) : Nat := v.freeList.headD 0

/-- The `n` lowest free clusters linked up and filled with `data`. -/
def fill (v : Volume fs) (n : Nat) (data : List UInt8) : Volume fs :=
  (v.linkUp (v.freeList.take n)).store (v.freeList.take n) data

lemma take_freeList {v : Volume fs} {n : Nat} (hn : 0 < n) (hle : n ≤ v.freeList.length) :
    ∃ F, v.freeList.take n = v.firstFree :: F := by
  unfold firstFree
  rcases hF : v.freeList with _ | ⟨first, F⟩
  · rw [hF, length_nil] at hle
    omega
  · obtain ⟨m, rfl⟩ : ∃ m, n = m + 1 := ⟨n - 1, by omega⟩
    exact ⟨F.take m, rfl⟩

section

variable (g : Geometry fs) {v : Volume fs} {n : Nat} (hn : 0 < n) (hle : n ≤ v.freeList.length)
include g hn hle

/-- The clusters the allocator linked are a chain, and stay one while data is
stored in them. -/
lemma chain_fill (data : List UInt8) :
    Chain (v.linkUp (v.freeList.take n)).link v.firstFree (v.freeList.take n)
      ∧ Chain (v.fill n data).link v.firstFree (v.freeList.take n) := by
  obtain ⟨F, hF⟩ := take_freeList hn hle
  have hnd : (v.freeList.take n).Nodup := (freeList_nodup v).sublist (take_sublist _ _)
  have hr : ∀ c ∈ v.freeList.take n, fs.InRange c :=
    fun c hc => (mem_freeList.mp (mem_of_mem_take hc)).1
  have hlink : Chain (v.linkUp (v.freeList.take n)).link v.firstFree (v.freeList.take n) := by
    rw [hF] at hnd hr ⊢
    exact chain_linkUp g v hnd hr
  refine ⟨hlink, chain_congr hlink fun b _ => ?_⟩
  unfold fill
  rw [store_fat]

/-- The chain just filled starts with the data. -/
lemma fill_chainData {data : List UInt8} (hfit : data.length ≤ n * fs.clusterSize) :
    ((v.fill n data).chainData v.firstFree).take data.length = data
      ∧ ((v.fill n data).chainData v.firstFree).length = n * fs.clusterSize := by
  have hchain := chainOf_eq (v.chain_fill g hn hle data).2
  have hlen : (v.freeList.take n).length = n := length_take_of_le hle
  constructor
  · unfold chainData
    rw [hchain]
    refine store_take _ ((freeList_nodup v).sublist (take_sublist _ _)) ?_
    rw [hlen]
    exact hfit
  · rw [chainData_length, hchain, hlen]

end

section

variable {v : Volume fs} (n : Nat) (data : List UInt8) {c : Nat} (h : c ∉ v.freeList.take n)
include h

/-- `fill` touches free clusters only. -/
lemma fill_fat : (v.fill n data).fat c = v.fat c := by
  unfold fill
  rw [store_fat, linkUp_fat_of_not_mem _ h]

lemma fill_data : (v.fill n data).data c = v.data c := by
  unfold fill
  rw [store_data_of_not_mem _ _ h, linkUp_data]

end

end Volume

/-! ## The operations -/

lemma clustersFor_pos (fs : Fat32) (data : List UInt8) : 0 < fs.clustersFor data := by
  unfold clustersFor
  omega

section
variable (g : Geometry fs) {R : Disk → Volume fs → Prop} [Table g R] {v : Volume fs}

include g

/-- The allocator's success in terms of `firstFree`. -/
lemma allocate_runs {n : Nat} (hn : 0 < n) (hle : n ≤ v.freeList.length) :
    Runs R (fs.allocateClusters n) v (.ok v.firstFree) (v.linkUp (v.freeList.take n)) := by
  rcases hF : v.freeList with _ | ⟨first, F⟩
  · rw [hF, length_nil] at hle
    omega
  · have h := allocateClusters_runs (R := R) g v hF hn hle
    have hfirst : v.firstFree = first := by
      unfold firstFree
      rw [hF]
      rfl
    obtain ⟨m, rfl⟩ : ∃ m, n = m + 1 := ⟨n - 1, by omega⟩
    rw [hfirst, take_succ_cons]
    exact h

/-- Storing in the clusters just taken. -/
lemma fill_runs {n : Nat} (hn : 0 < n) (hle : n ≤ v.freeList.length) (data : List UInt8) :
    Runs R (fs.writeClusterChain v.firstFree data) (v.linkUp (v.freeList.take n))
      (if data.length ≤ n * fs.clusterSize then .ok () else .err "Cluster chain too short for data")
      (v.fill n data) := by
  have h := writeClusterChain_runs (R := R) g _ (v.chain_fill g hn hle data).1 data
  rwa [storeOutcome, length_take, Nat.min_eq_left hle] at h

end

section
variable (g : Geometry fs) {R : Disk → Volume fs → Prop} [Medium g R] {v : Volume fs}

variable {e : DirectoryEntry} {path : Str} {i : Nat} {data : List UInt8}

include g

variable (he : v.EntryOk e)
include he

lemma freeEntry_runs :
    Runs R (fs.freeEntry e) v (.ok ()) (v.clear (v.entryChain e)) := by
  unfold freeEntry entryChain
  by_cases h0 : e.firstCluster = 0
  · rw [if_neg (not_not_intro h0), if_pos h0, clear_nil]
    exact .pure _
  · rw [if_pos h0, if_neg h0]
    exact (freeClusterChain_runs g v (he h0)).mapErr _

/-- Not enough room even after the old chain is freed: the file is gone. -/
lemma writeExisting_full
    (hlt : (v.clear (v.entryChain e)).freeList.length < fs.clustersFor data) :
    Runs R (fs.writeExisting path e data) v (.err .noSpace) (v.clear (v.entryChain e)) := by
  obtain ⟨m, hm⟩ := allocateClusters_full (R := R) g _ hlt
  exact .bind (freeEntry_runs g he) (.bind_err (hm.mapErr fun _ => noSpace))

/-- The overwrite that goes through. -/
lemma writeExisting_runs (hle : fs.clustersFor data ≤ (v.clear (v.entryChain e)).freeList.length)
    (hfit : data.length ≤ fs.clustersFor data * fs.clusterSize)
    (hroot : ((v.clear (v.entryChain e)).fill (fs.clustersFor data) data).Chained fs.rootCluster)
    (hi : ((v.clear (v.entryChain e)).fill (fs.clustersFor data) data).slotFor path = some i) :
    Runs R (fs.writeExisting path e data) v (.ok ())
      (((v.clear (v.entryChain e)).fill (fs.clustersFor data) data).setSlot i
        (rewritten e (v.clear (v.entryChain e)).firstFree data).toBytes) := by
  have hpos := clustersFor_pos fs data
  have hstore := fill_runs (R := R) g hpos hle data
  rw [if_pos hfit] at hstore
  refine .bind (freeEntry_runs g he) (.bind ((allocate_runs g hpos hle).mapErr _) ?_)
  exact .bind (hstore.mapErr _) ((updateDirectoryEntry_runs g hroot hi _).mapErr _)

/-- The overwrite that fails after it has stored the data. -/
lemma writeExisting_fails (hle : fs.clustersFor data ≤ (v.clear (v.entryChain e)).freeList.length)
    (hroot : ((v.clear (v.entryChain e)).fill (fs.clustersFor data) data).Chained fs.rootCluster)
    (hbad : fs.clustersFor data * fs.clusterSize < data.length
      ∨ ((v.clear (v.entryChain e)).fill (fs.clustersFor data) data).slotFor path = none) :
    Runs R (fs.writeExisting path e data) v (.err .ioError)
      ((v.clear (v.entryChain e)).fill (fs.clustersFor data) data) := by
  have hpos := clustersFor_pos fs data
  have hstore := fill_runs (R := R) g hpos hle data
  refine .bind (freeEntry_runs g he) (.bind ((allocate_runs g hpos hle).mapErr _) ?_)
  by_cases hfit : data.length ≤ fs.clustersFor data * fs.clusterSize
  · rw [if_pos hfit] at hstore
    obtain ⟨m, hm⟩ := (directoryEntry_missing (R := R) g hroot (hbad.resolve_left (by omega))).1
      (rewritten e (v.clear (v.entryChain e)).firstFree data)
    exact .bind (hstore.mapErr _) (hm.mapErr fun _ => ioError)
  · rw [if_neg hfit] at hstore
    exact .bind_err (hstore.mapErr fun _ => ioError)

omit he

lemma writeNew_full (hlt : v.freeList.length < fs.clustersFor data) :
    Runs R (fs.writeNew path data) v (.err .noSpace) v := by
  obtain ⟨m, hm⟩ := allocateClusters_full (R := R) g v hlt
  exact .bind_err (hm.mapErr fun _ => noSpace)

/-- What writing a new file does. -/
lemma writeNew_runs {n : Vector UInt8 11}
    (hle : fs.clustersFor data ≤ v.freeList.length)
    (hfit : data.length ≤ fs.clustersFor data * fs.clusterSize)
    (hroot : (v.fill (fs.clustersFor data) data).Chained fs.rootCluster)
    (hn : toShortName path = .ok n) (hi : (v.fill (fs.clustersFor data) data).freeSlot = some i) :
    Runs R (fs.writeNew path data) v (.ok ())
      ((v.fill (fs.clustersFor data) data).setSlot i
        (newEntry n 0x20 v.firstFree (data.length % 2 ^ 32)).toBytes) := by
  have hpos := clustersFor_pos fs data
  have hstore := fill_runs (R := R) g hpos hle data
  rw [if_pos hfit] at hstore
  refine .bind ((allocate_runs g hpos hle).mapErr _) (.bind (hstore.mapErr _) ?_)
  exact (createEntry_runs g hroot hn hi 0x20 _ _).mapErr _

/-- Without room for the data or the entry the clusters stay taken. -/
lemma writeNew_fails (hle : fs.clustersFor data ≤ v.freeList.length)
    (hroot : (v.fill (fs.clustersFor data) data).Chained fs.rootCluster)
    (hbad : fs.clustersFor data * fs.clusterSize < data.length
      ∨ ∀ n i, toShortName path = .ok n → (v.fill (fs.clustersFor data) data).freeSlot ≠ some i) :
    Runs R (fs.writeNew path data) v (.err .ioError) (v.fill (fs.clustersFor data) data) := by
  have hpos := clustersFor_pos fs data
  have hstore := fill_runs (R := R) g hpos hle data
  refine .bind ((allocate_runs g hpos hle).mapErr _) ?_
  by_cases hfit : data.length ≤ fs.clustersFor data * fs.clusterSize
  · rw [if_pos hfit] at hstore
    obtain ⟨m, hm⟩ := createEntry_fails (R := R) g hroot (hbad.resolve_left (by omega))
      0x20 v.firstFree
      (data.length % 2 ^ 32)
    exact .bind (hstore.mapErr _) (hm.mapErr fun _ => ioError)
  · rw [if_neg hfit] at hstore
    exact .bind_err (hstore.mapErr fun _ => ioError)

lemma deleteFile_runs (he : v.EntryOk e)
    (hroot : (v.clear (v.entryChain e)).Chained fs.rootCluster)
    (hi : (v.clear (v.entryChain e)).slotFor path = some i) :
    Runs R (fs.deleteFile path e) v (.ok ()) ((v.clear (v.entryChain e)).setSlot i [0xE5]) :=
  Runs.bind (freeEntry_runs g he) ((deleteDirectoryEntry_runs g hroot hi).mapErr _)

omit g [Medium g R] in
/-- A directory that has a chain goes the way a file does. -/
lemma removeDirectory_eq (h : e.firstCluster ≠ 0) :
    (fs.removeDirectory path e : Prog Disk VfsError Unit) = fs.deleteFile path e := by
  unfold removeDirectory deleteFile freeEntry
  rw [if_pos h]

end

end RustOs.Fs.Fat32
