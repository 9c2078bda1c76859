import RustOs.Fs.Fat32.Driver

/-!
# Mounting a FAT32 volume

`Fat32::new` and `recover_fsinfo` of `src/fs/fat32.rs`, for a drive that is there. The numbers
of the boot sector are checked one by one, and the sums made of them are `u32`; a sum that leaves
its width ends in `panic`. If the FSInfo sector is not in order it is written anew, whatever
sector the boot sector names for it.

`new_ok` says what is known of a volume that has been mounted.
-/

namespace RustOs.Fs.Fat32

open Lib Outcome
open Lib.Outcome (uadd usub umul udiv urem)
open Drivers

section
variable {σ : Type} [Drive σ]

/-- The scan of `recover_fsinfo` over `n` clusters from `cluster` on, with the FAT sector that is
in the buffer. It stops early behind the end of the FAT. -/
def countFreeFrom (fs : Fat32) : Nat → Nat → Nat → List UInt8 → Nat → Prog σ String Nat
  | 0, _, _, _, free => pure free
  | n + 1, cluster, sectorIdx, sectorBuf, free => do
    let fatOffset ← Prog.lift (umul 32 cluster 4)
    let q ← Prog.lift (udiv fatOffset fs.bytesPerSector)
    let needSector ← Prog.lift (uadd 32 fs.firstFatSector q)
    let sectorBuf ←
      if needSector ≠ sectorIdx then readSectors needSector 1 fs.bytesPerSector else pure sectorBuf
    let off ← Prog.lift (urem fatOffset fs.bytesPerSector)
    if off + 4 > sectorBuf.length then Prog.lift .panic
    else do
      let free ← if leAt sectorBuf off 4 % 2 ^ 28 = 0 then Prog.lift (uadd 32 free 1) else pure free
      let covered ← Prog.lift (umul 32 (fs.bytesPerSector / 4) fs.sectorsPerFat)
      let bound ← Prog.lift (uadd 32 2 covered)
      if cluster > bound then pure free
      else countFreeFrom fs n (cluster + 1) needSector sectorBuf free

/-- A fresh FSInfo sector. -/
def freshFsinfo (fs : Fat32) (free : Nat) : List UInt8 :=
  patch (patch (patch (patch (patch (List.replicate fs.bytesPerSector 0)
    0 (leBytes 4 0x41615252)) 484 (leBytes 4 0x61417272)) 488 (leBytes 4 free))
    492 (leBytes 4 2)) 508 (leBytes 4 0xAA550000)

/-- `recover_fsinfo`. -/
def recoverFsinfo (fs : Fat32) : Prog σ String Unit :=
  if fs.fsInfoSector = 0 ∨ fs.fsInfoSector ≥ fs.totalSectors then pure ()
  else do
    let buf ← readSectors fs.fsInfoSector 1 fs.bytesPerSector
    let sigsOk := leAt buf 0 4 = 0x41615252 ∧ leAt buf 484 4 = 0x61417272 ∧
      leAt buf 508 4 = 0xAA550000
    let freeOk := leAt buf 488 4 ≠ 0xFFFFFFFF ∧ leAt buf 488 4 ≤ fs.totalClusters
    if sigsOk ∧ freeOk then pure ()
    else do
      let _ ← Prog.lift (uadd 32 fs.totalClusters 2)
      let free ← fs.countFreeFrom fs.totalClusters 2 (2 ^ 32 - 1)
        (List.replicate fs.bytesPerSector 0) 0
      writeSectors fs.fsInfoSector 1 (fs.freshFsinfo free)

/-- Not a power of two. -/
def notPowerOfTwo (n : Nat) : Prop := n = 0 ∨ n &&& (n - 1) ≠ 0

instance (n : Nat) : Decidable (notPowerOfTwo n) := inferInstanceAs (Decidable (_ ∨ _))

/-- The fields of `BiosParameterBlock` and `Fat32ExtendedBootRecord` that are used, and the
signature. -/
structure BootSector where
  bytesPerSector : Nat
  sectorsPerCluster : Nat
  reservedSectors : Nat
  numFats : Nat
  rootEntryCount : Nat
  totalSectors16 : Nat
  fatSize16 : Nat
  totalSectors32 : Nat
  fatSize32 : Nat
  rootCluster : Nat
  fsInfo : Nat
  signature : Nat

namespace BootSector

/-- The boot sector in these bytes. -/
def ofBytes (boot : List UInt8) : BootSector where
  bytesPerSector := leAt boot 11 2
  sectorsPerCluster := leAt boot 13 1
  reservedSectors := leAt boot 14 2
  numFats := leAt boot 16 1
  rootEntryCount := leAt boot 17 2
  totalSectors16 := leAt boot 19 2
  fatSize16 := leAt boot 22 2
  totalSectors32 := leAt boot 32 4
  fatSize32 := leAt boot 36 4
  rootCluster := leAt boot 44 4
  fsInfo := leAt boot 48 2
  signature := leAt boot 510 2

variable (b : BootSector)

/-- The size of a FAT. -/
def fatSize : Nat := if b.fatSize16 ≠ 0 then b.fatSize16 else b.fatSize32

/-- The size of the volume. -/
def totalSectors : Nat :=
  if b.totalSectors16 ≠ 0 then b.totalSectors16 else b.totalSectors32

/-- The sectors of a FAT16 root directory. -/
def rootDirSectors : Nat :=
  (b.rootEntryCount * 32 + (b.bytesPerSector - 1)) / b.bytesPerSector

/-- The sum that ends at the first data sector. -/
def firstDataSector : Outcome String Nat := do
  let fatSectors ← umul 32 b.numFats b.fatSize
  let behindFats ← uadd 32 b.reservedSectors fatSectors
  uadd 32 behindFats b.rootDirSectors

/-- The clusters behind the first data sector. -/
def totalClusters (firstDataSector : Nat) : Nat :=
  (b.totalSectors - firstDataSector) / b.sectorsPerCluster

/-- The volume, if the numbers are in order. -/
def volume : Outcome String Fat32 :=
  if b.signature ≠ 0xAA55 then .err "Invalid boot sector signature"
  else if notPowerOfTwo b.bytesPerSector ∨ b.bytesPerSector < 512 ∨ b.bytesPerSector > 4096 then
    .err "FAT32: bytes_per_sector not power-of-two in [512..4096]"
  else if notPowerOfTwo b.sectorsPerCluster then .err "FAT32: sectors_per_cluster not power-of-two"
  else if b.reservedSectors = 0 then .err "FAT32: reserved_sectors must be non-zero"
  else if b.numFats = 0 then .err "FAT32: num_fats must be non-zero"
  else if b.fatSize = 0 then .err "FAT32: fat_size_32 zero"
  else do
    let firstDataSector ← b.firstDataSector
    if b.totalSectors = 0 then .err "FAT32: total_sectors zero"
    else if b.totalSectors ≤ firstDataSector then
      .err "FAT32: total_sectors smaller than reserved+FAT region"
    else if b.rootCluster < 2 then .err "FAT32: root_cluster must be ≥ 2"
    else if b.totalClusters firstDataSector < 65525 then
      .err "FAT32: cluster count below 65525 (FAT12/16 layout)"
    else .ok {
      firstDataSector := firstDataSector
      sectorsPerCluster := b.sectorsPerCluster
      bytesPerSector := b.bytesPerSector
      firstFatSector := b.reservedSectors
      rootCluster := b.rootCluster
      sectorsPerFat := b.fatSize
      totalSectors := b.totalSectors
      totalClusters := b.totalClusters firstDataSector
      numFats := b.numFats
      fsInfoSector := b.fsInfo }

end BootSector

/-- `new`. That the FSInfo sector could not be recovered is only logged. -/
def new : Prog σ String Fat32 := do
  let boot ← Drive.readSector 0
  let fs ← Prog.lift (BootSector.ofBytes boot.bytes).volume
  let _ ← (fs.recoverFsinfo).attempt
  pure fs

end

namespace BootSector

/-- The clusters the numbers of the boot sector make room for. -/
def clusterCount (b : BootSector) : Nat :=
  (b.totalSectors - (b.reservedSectors + b.numFats * b.fatSize + b.rootDirSectors))
    / b.sectorsPerCluster

/-- What the checks of `new` establish about the volume they let through. -/
structure Checked (b : BootSector) (fs : Fat32) : Prop where
  sector : fs.bytesPerSector = b.bytesPerSector
  sector_le : 512 ≤ b.bytesPerSector
  spc : fs.sectorsPerCluster = b.sectorsPerCluster
  spc_pos : 0 < b.sectorsPerCluster
  fats : fs.numFats = b.numFats
  fats_pos : 0 < b.numFats
  firstFat : fs.firstFatSector = b.reservedSectors
  reserved_pos : 0 < b.reservedSectors
  fatSize : fs.sectorsPerFat = b.fatSize
  fatSize_pos : 0 < b.fatSize
  firstData : fs.firstDataSector = b.reservedSectors + b.numFats * b.fatSize + b.rootDirSectors
  below : fs.firstDataSector < fs.totalSectors
  total : fs.totalSectors = b.totalSectors
  clusters : fs.totalClusters = b.clusterCount
  enough : 65525 ≤ fs.totalClusters

lemma firstDataSector_ok {b : BootSector} {n : Nat} (h : b.firstDataSector = .ok n) :
    n = b.reservedSectors + b.numFats * b.fatSize + b.rootDirSectors := by
  simp only [firstDataSector, bind_eq_ok, umul_eq_ok, uadd_eq_ok,
    and_assoc, exists_and_left, exists_eq_left'] at h
  exact h.2.2.2.symm

/-- What `new` has checked. -/
lemma checked_of_volume {b : BootSector} {fs : Fat32} (h : b.volume = .ok fs) : Checked b fs := by
  simp only [volume, ite_eq_iff, reduceCtorEq, and_false, false_or, bind_eq_ok] at h
  obtain ⟨-, hbps, hspc, hres, hfats, hsize, firstData, hfirst, -, hbelow, -, henough, h⟩ := h
  cases h
  have hfd := firstDataSector_ok hfirst
  exact {
    sector := rfl
    sector_le := by omega
    spc := rfl
    spc_pos := Nat.pos_of_ne_zero fun h0 => hspc (.inl h0)
    fats := rfl
    fats_pos := Nat.pos_of_ne_zero hfats
    firstFat := rfl
    reserved_pos := Nat.pos_of_ne_zero hres
    fatSize := rfl
    fatSize_pos := Nat.pos_of_ne_zero hsize
    firstData := hfd
    below := Nat.lt_of_not_le hbelow
    total := rfl
    clusters := by rw [clusterCount, ← hfd]; rfl
    enough := Nat.le_of_not_lt henough }

end BootSector

/-- The numbers of a mounted volume, as far as reading needs them. -/
structure Mounted (fs : Fat32) : Prop where
  spc : 0 < fs.sectorsPerCluster
  firstFat : fs.firstFatSector < 2 ^ 16

lemma BootSector.volume_ok {b : BootSector} {fs : Fat32} (h : b.volume = .ok fs)
    (hres : b.reservedSectors < 2 ^ 16) : Mounted fs := by
  have hc := checked_of_volume h
  exact ⟨hc.spc ▸ hc.spc_pos, hc.firstFat ▸ hres⟩

/-- What is known of a volume that has been mounted. -/
lemma new_ok {σ : Type} [Drive σ] {s s' : σ} {fs : Fat32} (h : new s = (.ok fs, s')) :
    Mounted fs := by
  obtain ⟨boot, s₁, -, h⟩ := Prog.bind_eq_ok h
  obtain ⟨fs', s₂, hparse, h⟩ := Prog.bind_eq_ok h
  obtain ⟨r, s₃, -, h⟩ := Prog.bind_eq_ok h
  cases h
  exact BootSector.volume_ok (congrArg Prod.fst hparse) (leAt_lt boot.bytes 14 2)

end RustOs.Fs.Fat32
