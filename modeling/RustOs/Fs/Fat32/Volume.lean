import RustOs.Lib.Chain
import RustOs.Fs.Fat32.Driver

/-!
# What a FAT32 disk stands for

The driver works on sectors. What it keeps in them is a table, one number for
each cluster, and a block of bytes for each cluster; `Volume` is that pair and
`view` reads it off a disk. A disk `Stands` for a volume when all FAT copies
are equal and the view of the first is the volume.

Each driver function that touches sectors has one theorem here, `f_disk`: it
ends with the value computed from the view, and leaves a disk whose view is
updated accordingly. A relation for which the accesses act so is a `Table`, and
the theorems `f_runs` about the functions above them hold for each of those.
Sector addresses, the address arithmetic and the copies of the FAT are not
mentioned above this file. The geometry, which `Fat32::new` checks in part only,
is that of a volume whose FATs cover its clusters, whose sectors are the sectors
of the drive and which the 28-bit addresses of the drive reach.
-/

namespace RustOs.Fs.Fat32

open Lib Outcome Nat Prog Drivers List

/-- The cluster numbers of the data area. -/
def InRange (fs : Fat32) (c : Nat) : Prop := 2 ≤ c ∧ c < fs.totalClusters + 2

instance (fs : Fat32) (c : Nat) : Decidable (fs.InRange c) :=
  inferInstanceAs (Decidable (_ ∧ _))

/-- A mounted volume on a drive with 512-byte sectors: the reserved area, the
FAT copies and the data area follow each other and fit the drive. -/
structure Geometry (fs : Fat32) : Prop where
  sector : fs.bytesPerSector = 512
  spc_pos : 0 < fs.sectorsPerCluster
  spc_le : fs.sectorsPerCluster ≤ 128
  fats_pos : 0 < fs.numFats
  info : fs.fsInfoSector = 0 ∨ fs.fsInfoSector = 0xFFFF ∨ fs.fsInfoSector < fs.firstFatSector
  covers : fs.totalClusters + 2 ≤ fs.sectorsPerFat * 128
  apart : fs.firstFatSector + fs.numFats * fs.sectorsPerFat ≤ fs.firstDataSector
  fits : fs.firstDataSector + fs.totalClusters * fs.sectorsPerCluster ≤ fs.totalSectors
  addressable : fs.totalSectors ≤ 2 ^ 28
  clusters : 65525 ≤ fs.totalClusters
  numbers : fs.totalClusters + 2 ≤ 0x0FFFFFF7
  root : fs.InRange fs.rootCluster

/-! ## Volumes -/

/-- The FAT and the contents of the clusters. -/
structure Volume (fs : Fat32) where
  fat : Nat → Nat
  data : Nat → List UInt8
  data_length : ∀ c, (data c).length = fs.clusterSize

namespace Volume

variable {fs : Fat32}

protected lemma ext {v w : Volume fs} (hf : ∀ c, v.fat c = w.fat c)
    (hd : ∀ c, v.data c = w.data c) : v = w := by
  cases v
  cases w
  simp only [mk.injEq]
  exact ⟨funext hf, funext hd⟩

/-- One FAT entry replaced. -/
def setFat (v : Volume fs) (c x : Nat) : Volume fs :=
  { v with fat := fun c' => if c' = c then x else v.fat c' }

/-- One cluster replaced, padded with zeros. -/
def setData (v : Volume fs) (c : Nat) (bs : List UInt8) : Volume fs where
  fat := v.fat
  data := fun c' => if c' = c then padTo fs.clusterSize (bs.take fs.clusterSize) else v.data c'
  data_length := by
    intro c'
    split
    · exact padTo_length (by simp)
    · exact v.data_length c'

section

variable (v : Volume fs) (c : Nat)

@[simp] lemma setFat_fat (x c' : Nat) :
    (v.setFat c x).fat c' = if c' = c then x else v.fat c' := rfl

@[simp] lemma setFat_data (x : Nat) : (v.setFat c x).data = v.data := rfl

@[simp] lemma setData_fat (bs : List UInt8) : (v.setData c bs).fat = v.fat := rfl

lemma setData_data (bs : List UInt8) (c' : Nat) :
    (v.setData c bs).data c'
      = if c' = c then padTo fs.clusterSize (bs.take fs.clusterSize) else v.data c' := rfl

lemma setFat_setFat (x y : Nat) : (v.setFat c x).setFat c y = v.setFat c y := by
  refine Volume.ext (fun c' => ?_) fun _ => rfl
  simp only [setFat_fat]
  split <;> rfl

end

lemma setFat_self {v : Volume fs} {c x : Nat} (h : v.fat c = x) : v.setFat c x = v := by
  refine Volume.ext (fun c' => ?_) fun _ => rfl
  rw [setFat_fat]
  split
  next hc => rw [hc, h]
  next => rfl

/-- Where a cluster leads, as `get_next_cluster` reads its entry. -/
def link (v : Volume fs) (c : Nat) : Link Nat :=
  if ¬fs.InRange c then .bad
  else if v.fat c ≥ 0x0FFFFFF8 then .stop
  else if v.fat c < 2 then .bad
  else .next (v.fat c)

/-- The free clusters in ascending order. -/
def freeList (v : Volume fs) : List Nat :=
  (List.range' 2 fs.totalClusters).filter (fun c => v.fat c = 0)

end Volume

/-! ## The view of a disk -/

section
variable {fs : Fat32}

variable {c : Nat} (s : Sector)

/-- The first sector of a cluster. -/
def firstSector (fs : Fat32) (c : Nat) : Nat := (c - 2) * fs.sectorsPerCluster + fs.firstDataSector

/-- The raw FAT entry of a cluster in a sector of the FAT. -/
def entryIn (s : Sector) (c : Nat) : Nat := leAt s.bytes (c % 128 * 4) 4

/-- The bytes of a cluster. -/
def clusterBytes (fs : Fat32) (d : Disk) (c : Nat) : List UInt8 :=
  (List.range fs.sectorsPerCluster).flatMap fun i => (d (fs.firstSector c + i)).bytes

lemma clusterSize_eq (g : Geometry fs) : fs.clusterSize = fs.sectorsPerCluster * 512 := by
  rw [clusterSize, g.sector]

lemma clusterSize_pos (g : Geometry fs) : 0 < fs.clusterSize := by
  have := g.spc_pos
  rw [clusterSize_eq g]
  omega

lemma clusterBytes_length (fs : Fat32) (d : Disk) (c : Nat) :
    (fs.clusterBytes d c).length = fs.sectorsPerCluster * 512 := by simp [clusterBytes, Sector.len]

/-- The volume a disk holds, read through the first FAT. -/
def view (g : Geometry fs) (d : Disk) : Volume fs where
  fat c := if fs.InRange c then entryIn (d (fs.firstFatSector + c / 128)) c % 2 ^ 28 else 0
  data c := if fs.InRange c then fs.clusterBytes d c else List.replicate fs.clusterSize 0
  data_length := by
    intro c
    split
    · rw [clusterBytes_length, clusterSize_eq g]
    · exact List.length_replicate

/-- Every FAT copy is equal to the first. -/
def Mirrored (fs : Fat32) (d : Disk) : Prop :=
  ∀ k < fs.numFats, ∀ j < fs.sectorsPerFat,
    d (fs.firstFatSector + k * fs.sectorsPerFat + j) = d (fs.firstFatSector + j)

/-- The disk keeps its FAT copies equal and holds this volume. -/
def Stands (g : Geometry fs) (d : Disk) (v : Volume fs) : Prop :=
  fs.Mirrored d ∧ view g d = v

/-! ## Addresses -/

lemma firstSector_bound (g : Geometry fs) (hc : fs.InRange c) :
    fs.firstDataSector ≤ fs.firstSector c
      ∧ fs.firstSector c + fs.sectorsPerCluster ≤ 2 ^ 28 := by
  obtain ⟨h2, hlt⟩ := hc
  have hmul := unit_end_le fs.sectorsPerCluster (show c - 2 < fs.totalClusters by omega)
  have hfits := g.fits
  have haddr := g.addressable
  unfold firstSector
  omega

/-- Distinct clusters have distinct sectors. -/
lemma firstSector_apart {c' : Nat} (hc : fs.InRange c) (hc' : fs.InRange c') (h : c ≠ c') :
    fs.firstSector c + fs.sectorsPerCluster ≤ fs.firstSector c'
      ∨ fs.firstSector c' + fs.sectorsPerCluster ≤ fs.firstSector c := by
  have hstep : ∀ a b, 2 ≤ a → a < b →
      fs.firstSector a + fs.sectorsPerCluster ≤ fs.firstSector b := by
    intro a b h2 hab
    have hmul := unit_end_le fs.sectorsPerCluster (show a - 2 < b - 2 by omega)
    unfold firstSector
    omega
  rcases lt_or_gt_of_ne h with hlt | hgt
  · exact .inl (hstep c c' hc.1 hlt)
  · exact .inr (hstep c' c hc'.1 hgt)

/-- The FAT sector of a cluster lies in the first FAT, below the data area. -/
lemma fatSector_bound (g : Geometry fs) (hc : c < fs.totalClusters + 2) :
    c / 128 < fs.sectorsPerFat ∧ fs.firstFatSector + fs.sectorsPerFat ≤ fs.firstDataSector
      ∧ fs.firstDataSector < 2 ^ 28 := by
  have hcov := g.covers
  have hapart := g.apart
  have hmul : 1 * fs.sectorsPerFat ≤ fs.numFats * fs.sectorsPerFat :=
    mul_le_mul_right _ g.fats_pos
  have hroot := firstSector_bound g g.root
  have hspc := g.spc_pos
  omega

lemma clusterToSector_eq (g : Geometry fs) (hc : fs.InRange c) :
    fs.clusterToSector c = .ok (fs.firstSector c) := by
  have hb := firstSector_bound g hc
  unfold firstSector at hb
  unfold clusterToSector
  rw [usub_of_le hc.1, ok_bind, umul_of_lt (by omega), ok_bind, uadd_of_lt (by omega)]
  rfl

/-- The address arithmetic of a FAT access, with what it computes. -/
lemma fatAddress (g : Geometry fs) (hc : c < fs.totalClusters + 2) :
    (umul 32 c 4 : Outcome String Nat) = .ok (c * 4)
      ∧ (udiv (c * 4) fs.bytesPerSector : Outcome String Nat) = .ok (c / 128)
      ∧ (uadd 32 fs.firstFatSector (c / 128) : Outcome String Nat)
          = .ok (fs.firstFatSector + c / 128)
      ∧ (urem (c * 4) fs.bytesPerSector : Outcome String Nat) = .ok (c % 128 * 4) := by
  have hnum := g.numbers
  have hb := fatSector_bound g hc
  refine ⟨umul_of_lt (by omega), ?_, uadd_of_lt (by omega), ?_⟩
  · rw [g.sector, udiv_of_ne (by omega)]
    congr 1
    omega
  · rw [g.sector, urem_of_ne (by omega)]
    congr 1
    omega

lemma le32In_entry (c : Nat) : le32In s (c % 128 * 4) = .ok (entryIn s c) :=
  if_pos (by omega)

lemma readSector_disk (d : Disk) {lba : Nat} (h : lba < 2 ^ 28) :
    (Drive.readSector lba : Prog Disk String Sector) d = (.ok (d lba), d) := by
  show (ok (d (lba % 2 ^ 28)), d) = _
  rw [mod_eq_of_lt h]

lemma writeSector_disk (d : Disk) {lba : Nat} (s : Sector) (h : lba < 2 ^ 28) :
    (Drive.writeSector lba s : Prog Disk String Unit) d = (.ok (), d.update lba s) := by
  show (ok (), d.update (lba % 2 ^ 28) s) = _
  rw [mod_eq_of_lt h]

/-! ## Reading and writing a cluster -/

/-- Two disks with the same FAT and data sectors hold the same volume. -/
lemma view_congr (g : Geometry fs) {d d' : Disk}
    (hfat : ∀ j < fs.sectorsPerFat, d' (fs.firstFatSector + j) = d (fs.firstFatSector + j))
    (hdata : ∀ m, fs.firstDataSector ≤ m → d' m = d m) : view g d' = view g d := by
  refine Volume.ext (fun c => ?_) fun c => ?_
  · simp only [view]
    split
    next hc => rw [hfat _ (fatSector_bound g hc.2).1]
    next => rfl
  · simp only [view]
    split
    next hc =>
      unfold clusterBytes
      congr 1
      funext i
      rw [hdata _ (by have := (firstSector_bound g hc).1; omega)]
    next => rfl

/-- A cluster is read from its sectors. -/
lemma readCluster_disk (g : Geometry fs) (d : Disk) (hc : fs.InRange c) :
    fs.readCluster c d = (.ok ((view g d).data c), d) := by
  have hb := firstSector_bound g hc
  have hlen : fs.sectorsPerCluster * 512 = fs.clusterSize := (clusterSize_eq g).symm
  unfold readCluster
  rw [clusterToSector_eq g hc, lift_ok_bind]
  unfold readSectors
  rw [if_neg (by omega), bind_ok (readSectorsFrom_disk d _ 0 _ (by omega)),
    ← range_eq_range', pure_apply]
  have hdata : (view g d).data c = fs.clusterBytes d c := if_pos hc
  rw [hdata]
  congr 2
  exact padTo_of_length (by rw [← hlen]; exact clusterBytes_length fs d c)

/-- A cluster that is written is replaced, and nothing below the data area changes. -/
lemma writeCluster_disk (g : Geometry fs) (d : Disk) (hc : fs.InRange c)
    {bs : List UInt8} (hbs : bs.length ≤ fs.clusterSize) :
    ∃ d', fs.writeCluster c bs d = (.ok (), d') ∧ view g d' = (view g d).setData c bs
      ∧ ∀ m < fs.firstDataSector, d' m = d m := by
  have hb := firstSector_bound g hc
  have hcs := clusterSize_eq g
  have hpad : (padTo fs.clusterSize bs).length = fs.sectorsPerCluster * 512 := by
    rw [padTo_length hbs, hcs]
  unfold writeCluster
  rw [clusterToSector_eq g hc, lift_ok_bind, if_neg (by omega)]
  unfold writeSectors
  rw [if_neg (by omega), writeSectorsFrom_disk d _ 0 _ _ (by omega)]
  have hlow : ∀ m, m < fs.firstDataSector →
      d.overlay (fs.firstSector c) 0 fs.sectorsPerCluster (padTo fs.clusterSize bs) m = d m :=
    fun m hm => Disk.overlay_of_not_mem (by omega)
  refine ⟨_, rfl, ?_, hlow⟩
  -- the table lies below the data area; of the clusters only this one changes
  refine Volume.ext (fun c' => ?_) fun c' => ?_
  · simp only [view, Volume.setData_fat]
    split
    next hc' =>
      have hb' := fatSector_bound g hc'.2
      rw [hlow _ (by omega)]
    next => rfl
  · rw [Volume.setData_data]
    simp only [view]
    by_cases hcc : c' = c
    · subst hcc
      rw [if_pos hc, if_pos rfl, take_of_length_le hbs]
      unfold clusterBytes
      have hsec : ∀ i ∈ List.range fs.sectorsPerCluster,
          (d.overlay (fs.firstSector c') 0 fs.sectorsPerCluster (padTo fs.clusterSize bs)
            (fs.firstSector c' + i)).bytes = slice (padTo fs.clusterSize bs) (i * 512) 512 := by
        intro i hi
        have hi' := mem_range.mp hi
        rw [Disk.overlay, if_pos (by omega), Nat.add_sub_cancel_left]
        exact Sector.ofBytes_bytes (slice_length (by omega))
      rw [flatMap_congr hsec, flatMap_range_slice, ← hpad, take_length]
    · split
      next hc' =>
        have hap := firstSector_apart hc' hc hcc
        refine flatMap_congr fun i hi => ?_
        have hi' := mem_range.mp hi
        rw [Disk.overlay_of_not_mem (by omega)]
      next => rfl

/-! ## The FAT -/

lemma view_fat {g : Geometry fs} {d : Disk} (hc : fs.InRange c) :
    (view g d).fat c = entryIn (d (fs.firstFatSector + c / 128)) c % 2 ^ 28 :=
  if_pos hc

lemma readFatEntry_disk (g : Geometry fs) (d : Disk) (hc : fs.InRange c) :
    fs.readFatEntry c d = (.ok ((view g d).fat c), d) := by
  obtain ⟨h₁, h₂, h₃, h₄⟩ := fatAddress g hc.2
  have hb := fatSector_bound g hc.2
  unfold readFatEntry
  rw [h₁, lift_ok_bind, h₂, lift_ok_bind, h₃, lift_ok_bind, h₄, lift_ok_bind,
    bind_ok (readSector_disk d (by omega)), le32In_entry, lift_ok_bind, view_fat hc]
  rfl

/-- A FAT sector with the low 28 bits of one entry replaced. -/
def mergeEntry (s : Sector) (c x : Nat) : Sector :=
  Sector.ofBytes (patch s.bytes (c % 128 * 4) (leBytes 4 (entryIn s c / 2 ^ 28 * 2 ^ 28 + x)))

lemma mergeEntry_bytes (c x : Nat) :
    (mergeEntry s c x).bytes
      = patch s.bytes (c % 128 * 4) (leBytes 4 (entryIn s c / 2 ^ 28 * 2 ^ 28 + x)) := by
  have hlen := s.len
  exact Sector.ofBytes_bytes (by rw [patch_length (by rw [leBytes_length]; omega), hlen])

lemma entryIn_mergeEntry_self (c : Nat) {x : Nat} (hx : x < 2 ^ 28) :
    entryIn (mergeEntry s c x) c % 2 ^ 28 = x := by
  have hlen := s.len
  unfold entryIn
  rw [mergeEntry_bytes, leAt_patch_leBytes (by omega)]
  omega

lemma entryIn_mergeEntry_ne (x : Nat) {c' : Nat} (h : c' % 128 ≠ c % 128) :
    entryIn (mergeEntry s c x) c' = entryIn s c' := by
  have hlen := s.len
  unfold entryIn
  rw [mergeEntry_bytes]
  exact leAt_patch_of_disjoint (by rw [leBytes_length]; omega) (by rw [leBytes_length]; omega)

/-- The loop over the FAT copies: the sectors of the copies from `i` on are
merged, every other sector is as it was. -/
lemma writeFatEntryFrom_disk (g : Geometry fs) (hc : c < fs.totalClusters + 2) (x n : Nat) :
    ∀ (d : Disk) (i : Nat), i + n ≤ fs.numFats →
      ∃ d', fs.writeFatEntryFrom (c * 4) (c % 128 * 4) x i n d = (.ok (), d')
        ∧ (∀ k, i ≤ k → k < i + n →
            d' (fs.firstFatSector + k * fs.sectorsPerFat + c / 128)
              = mergeEntry (d (fs.firstFatSector + k * fs.sectorsPerFat + c / 128)) c x)
        ∧ (∀ m, (∀ k, i ≤ k → k < i + n →
            m ≠ fs.firstFatSector + k * fs.sectorsPerFat + c / 128) → d' m = d m) := by
  have hb := fatSector_bound g hc
  obtain ⟨_, hdiv, _, _⟩ := fatAddress g hc
  induction n with
  | zero =>
    intro d i _
    refine ⟨d, rfl, ?_, fun _ _ => rfl⟩
    intro k h₁ h₂
    omega
  | succ n ih =>
    intro d i hi
    have hmul := unit_end_le fs.sectorsPerFat (show i < fs.numFats by omega)
    have hap := g.apart
    have hsec : fs.firstFatSector + i * fs.sectorsPerFat + c / 128 < 2 ^ 28 := by omega
    obtain ⟨d', hrun, hin, hout⟩ := ih
      (d.update (fs.firstFatSector + i * fs.sectorsPerFat + c / 128)
        (mergeEntry (d (fs.firstFatSector + i * fs.sectorsPerFat + c / 128)) c x))
          (i + 1) (by omega)
    -- a later copy has its sector further on
    have hlater : ∀ k, i + 1 ≤ k →
        fs.firstFatSector + i * fs.sectorsPerFat + c / 128
          < fs.firstFatSector + k * fs.sectorsPerFat + c / 128 := by
      intro k hk
      have hk' := unit_end_le fs.sectorsPerFat hk
      omega
    refine ⟨d', ?_, ?_, ?_⟩
    · unfold writeFatEntryFrom
      rw [umul_of_lt (by omega), bind_ok (lift_apply _ _),
        uadd_of_lt (by omega), bind_ok (lift_apply _ _), hdiv,
        bind_ok (lift_apply _ _), uadd_of_lt (by omega),
        bind_ok (lift_apply _ _), bind_ok (readSector_disk d hsec), le32In_entry,
        bind_ok (lift_apply _ _)]
      have hset : ∀ (s : Sector) y, setLe32In s (c % 128 * 4) y
          = .ok (Sector.ofBytes (patch s.bytes (c % 128 * 4) (leBytes 4 y))) :=
        fun s y => if_pos (by omega)
      rw [hset, bind_ok (lift_apply _ _), bind_ok (writeSector_disk d _ hsec)]
      exact hrun
    · intro k hk hlt
      by_cases hki : k = i
      · subst hki
        rw [hout _ (fun k' hk' _ => by have := hlater k' hk'; omega), Disk.update_same]
      · rw [hin k (by omega) (by omega), Disk.update_ne (by have := hlater k (by omega); omega)]
    · intro m hm
      rw [hout m (fun k hk hlt => hm k (by omega) (by omega)),
        Disk.update_ne (hm i (by omega) (by omega))]

/-- The entry changes in every copy, so equal copies stay equal, and nothing
below the FATs changes. -/
lemma writeFatEntry_disk (g : Geometry fs) (d : Disk) (hc : fs.InRange c) (x : Nat) :
    ∃ d', fs.writeFatEntry c x d = (.ok (), d') ∧ view g d' = (view g d).setFat c (x % 2 ^ 28)
      ∧ (fs.Mirrored d → fs.Mirrored d') ∧ ∀ m < fs.firstFatSector, d' m = d m := by
  have hx : x % 2 ^ 28 < 2 ^ 28 := mod_lt _ (by omega)
  obtain ⟨h₁, _, _, h₄⟩ := fatAddress g hc.2
  have hb := fatSector_bound g hc.2
  have hpos := g.fats_pos
  unfold writeFatEntry
  rw [h₁, lift_ok_bind, h₄, lift_ok_bind]
  obtain ⟨d', hrun, hin, hout⟩ :=
    writeFatEntryFrom_disk g hc.2 (x % 2 ^ 28) fs.numFats d 0 (by omega)
  -- sector `j` of copy `k` is written exactly when `j` is the sector of the entry
  have hsec : ∀ k < fs.numFats, ∀ j < fs.sectorsPerFat,
      d' (fs.firstFatSector + k * fs.sectorsPerFat + j)
        = if j = c / 128 then mergeEntry (d (fs.firstFatSector + k * fs.sectorsPerFat + j))
          c (x % 2 ^ 28)
          else d (fs.firstFatSector + k * fs.sectorsPerFat + j) := by
    intro k hk j hj
    split
    next hjc => rw [hjc]; exact hin k (by omega) (by omega)
    next hjc =>
      refine hout _ fun k' _ _ heq => hjc ?_
      have hkk : k * fs.sectorsPerFat + j = k' * fs.sectorsPerFat + c / 128 := by omega
      have := congrArg (· % fs.sectorsPerFat) hkk
      simp only [mul_add_mod_self_right, mod_eq_of_lt hj, mod_eq_of_lt hb.1] at this
      exact this
  have hfirst : ∀ j < fs.sectorsPerFat, d' (fs.firstFatSector + j)
      = if j = c / 128 then mergeEntry (d (fs.firstFatSector + j)) c (x % 2 ^ 28)
        else d (fs.firstFatSector + j) := by
    intro j hj
    have h := hsec 0 hpos j hj
    rw [Nat.zero_mul, Nat.add_zero] at h
    exact h
  refine ⟨d', hrun, ?_, ?_, ?_⟩
  · refine Volume.ext (fun c' => ?_) fun c' => ?_
    · rw [Volume.setFat_fat]
      by_cases hc' : fs.InRange c'
      · rw [view_fat hc', view_fat hc', hfirst _ (fatSector_bound g hc'.2).1]
        by_cases hcc : c' = c
        · rw [if_pos hcc, hcc, if_pos rfl]
          exact entryIn_mergeEntry_self _ _ hx
        · split
          next hq => rw [entryIn_mergeEntry_ne _ _ (by omega)]
          next => rfl
      · have hcc : c' ≠ c := fun h => hc' (h ▸ hc)
        simp only [view, if_neg hc', if_neg hcc]
    · rw [Volume.setFat_data]
      simp only [view]
      split
      next hc' =>
        unfold clusterBytes
        congr 1
        funext i
        have hlow := firstSector_bound g hc'
        rw [hout]
        intro k _ hk
        have hmul := unit_end_le fs.sectorsPerFat (show k < fs.numFats by omega)
        have hap := g.apart
        omega
      next => rfl
  · intro hmir k hk j hj
    rw [hsec k hk j hj, hfirst j hj, hmir k hk j hj]
  · intro m hm
    exact hout m fun k _ _ => by omega

/-- The FSInfo sector is outside the volume, and only it can change. -/
lemma updateFsinfo_disk (g : Geometry fs) (d : Disk) (delta : Int) (hint : Nat) :
    ∃ d', fs.updateFsinfo delta hint d = (.ok (), d') ∧ view g d' = view g d
      ∧ ∀ m, fs.firstFatSector ≤ m → d' m = d m := by
  unfold updateFsinfo
  by_cases hnone : fs.fsInfoSector = 0 ∨ fs.fsInfoSector = 0xFFFF
  · rw [if_pos hnone]
    exact ⟨d, rfl, rfl, fun _ _ => rfl⟩
  · have hlow : fs.fsInfoSector < fs.firstFatSector := by
      have := g.info
      omega
    have hb := fatSector_bound g g.root.2
    rw [if_neg hnone, bind_ok (readSector_disk d (by omega))]
    split
    next => exact ⟨d, rfl, rfl, fun _ _ => rfl⟩
    next =>
      refine ⟨_, rfl, ?_, fun m hm => Disk.update_ne (by omega)⟩
      refine view_congr g (fun j _ => ?_) fun m hm => ?_
      · exact Disk.update_ne (by omega)
      · exact Disk.update_ne (by omega)

/-! ## Relations with a volume

The functions above the accesses only use that the accesses act on the volume,
so their theorems hold for every relation between disks and volumes for which
this is so. `Stands` is one; `Views` leaves the copies of the FAT aside. -/

/-- The disk holds this volume; the other copies of the FAT are not looked at. -/
def Views (g : Geometry fs) (d : Disk) (v : Volume fs) : Prop := view g d = v

/-- The FAT and the clusters of the volume can be read and written. -/
class Table (g : Geometry fs) (R : Disk → Volume fs → Prop) : Prop where
  readCluster : ∀ (v : Volume fs) {c : Nat}, fs.InRange c →
    Runs R (fs.readCluster c) v (.ok (v.data c)) v
  writeCluster : ∀ (v : Volume fs) {c : Nat} {bs : List UInt8}, fs.InRange c →
    bs.length ≤ fs.clusterSize → Runs R (fs.writeCluster c bs) v (.ok ()) (v.setData c bs)
  readFatEntry : ∀ (v : Volume fs) {c : Nat}, fs.InRange c →
    Runs R (fs.readFatEntry c) v (.ok (v.fat c)) v
  writeFatEntry : ∀ (v : Volume fs) {c : Nat} (x : Nat), fs.InRange c →
    Runs R (fs.writeFatEntry c x) v (.ok ()) (v.setFat c (x % 2 ^ 28))

/-- The FSInfo sector is left out of account as well. -/
class Medium (g : Geometry fs) (R : Disk → Volume fs → Prop) : Prop extends Table g R where
  updateFsinfo : ∀ (v : Volume fs) (delta : Int) (hint : Nat),
    Runs R (fs.updateFsinfo delta hint) v (.ok ()) v

/-- A property of the sectors below the data area that the table accesses keep
can be carried along with the volume. -/
lemma Table.of_kept (g : Geometry fs) {P : Disk → Prop}
    (hdata : ∀ d d', (∀ m < fs.firstDataSector, d' m = d m) → P d → P d')
    (hfat : ∀ d d', (fs.Mirrored d → fs.Mirrored d') → (∀ m < fs.firstFatSector, d' m = d m) →
      P d → P d') : Table g fun d v => P d ∧ view g d = v where
  readCluster := by
    intro v c hc
    refine .of_eq fun d ⟨_, hv⟩ => ?_
    rw [← hv]
    exact readCluster_disk g d hc
  writeCluster := by
    intro v c bs hc hbs d ⟨hP, hv⟩
    obtain ⟨d', hrun, hview, hlow⟩ := writeCluster_disk g d hc hbs
    exact ⟨d', hrun, hdata d d' hlow hP, hv ▸ hview⟩
  readFatEntry := by
    intro v c hc
    refine .of_eq fun d ⟨_, hv⟩ => ?_
    rw [← hv]
    exact readFatEntry_disk g d hc
  writeFatEntry := by
    intro v c x hc d ⟨hP, hv⟩
    obtain ⟨d', hrun, hview, hmir, hlow⟩ := writeFatEntry_disk g d hc x
    exact ⟨d', hrun, hfat d d' hmir hlow hP, hv ▸ hview⟩

/-- Equal copies stay equal when the sectors of all of them are as they were. -/
lemma mirrored_congr (g : Geometry fs) {d d' : Disk}
    (h : ∀ m, fs.firstFatSector ≤ m → m < fs.firstDataSector → d' m = d m) (hm : fs.Mirrored d) :
    fs.Mirrored d' := by
  intro k hk j hj
  have hmul := unit_end_le fs.sectorsPerFat hk
  have hap := g.apart
  rw [h _ (by omega) (by omega), h _ (by omega) (by omega)]
  exact hm k hk j hj

instance (g : Geometry fs) : Medium g (Stands g) where
  toTable := Table.of_kept g (fun _ _ h => mirrored_congr g fun m _ hm => h m hm)
    fun _ _ hmir _ => hmir
  updateFsinfo := by
    intro v delta hint d ⟨hm, hv⟩
    obtain ⟨d', hrun, hview, hhigh⟩ := updateFsinfo_disk g d delta hint
    exact ⟨d', hrun, mirrored_congr g (fun m hle _ => hhigh m hle) hm, hview.trans hv⟩

instance (g : Geometry fs) : Medium g (Views g) where
  toTable := by
    have h : Table g fun d v => True ∧ view g d = v :=
      Table.of_kept g (fun _ _ _ h => h) fun _ _ _ _ h => h
    have heq : (fun d v => True ∧ view g d = v) = Views g := by
      funext d v
      exact propext ⟨And.right, fun h => ⟨trivial, h⟩⟩
    exact heq ▸ h
  updateFsinfo := by
    intro v delta hint d hv
    obtain ⟨d', hrun, hview, _⟩ := updateFsinfo_disk g d delta hint
    exact ⟨d', hrun, hview.trans hv⟩

/-! ## Searching the FAT -/

variable {R : Disk → Volume fs → Prop}

section

variable (g : Geometry fs) [Table g R] (v : Volume fs)
include g

/-- What `get_next_cluster` answers, by where the cluster leads. -/
lemma getNextCluster_runs (hc : fs.InRange c) :
    Runs R (fs.getNextCluster c) v
      (match v.link c with
        | .next n => .ok (some n)
        | .stop => .ok none
        | .bad => .err "Invalid cluster number in FAT") v := by
  refine .bind (Table.readFatEntry g v hc) ?_
  unfold Volume.link
  split
  next => exact .pure _
  next =>
    split
    next => exact .fail _
    next => exact .pure _

/-- The first free cluster from one on. -/
lemma findFreeClusterFrom_runs (n : Nat) :
    ∀ c, 2 ≤ c → c + n ≤ fs.totalClusters + 2 →
      Runs R (fs.findFreeClusterFrom c n) v
        (.ok ((List.range' c n).filter (fun c => v.fat c = 0)).head?) v := by
  induction n with
  | zero =>
    intro c _ _
    exact .pure _
  | succ n ih =>
    intro c h2 hle
    refine .bind (Table.readFatEntry g v ⟨h2, by omega⟩) ?_
    rw [range'_succ]
    by_cases hfree : v.fat c = 0
    · rw [if_pos hfree, filter_cons_of_pos (by simpa using hfree)]
      exact .pure _
    · rw [if_neg hfree, filter_cons_of_neg (by simpa using hfree)]
      exact ih (c + 1) (by omega) (by omega)

/-- `find_free_cluster` finds the lowest free cluster. -/
lemma findFreeCluster_runs : Runs R fs.findFreeCluster v (.ok v.freeList.head?) v := by
  have hnum := g.numbers
  refine .lift_bind (uadd_of_lt (by omega)) ?_
  exact findFreeClusterFrom_runs g v _ 2 (by omega) (by omega)

end

end

end RustOs.Fs.Fat32
