import RustOs.Fs.Fat32.ReadSafety

/-!
# What the checks of the boot sector are worth

`Fat32::new` tests the numbers of the boot sector one by one before it mounts.
Later calls turn a cluster number into a sector of the data area or into a FAT
sector and an offset in it, all in `u32`, and read and write the FAT through a
buffer of 512 bytes. `AccessSafe` collects what those calls need: no sum or
product leaves its width, the FAT sector of copy `k` lies in copy `k`, the entry
lies in the buffer, and the data sectors lie on the volume.

The checks say nothing about three things: that a sector has 512 bytes, that
the FAT has an entry for every cluster, and that a cluster number times four
fits. These are exactly what is missing:

> `new_accessSafe_iff`: a mounted volume is safe to access if and only if its
> boot sector is `Addressable`.
-/

namespace RustOs.Fs.Fat32

open Lib Outcome Nat Prog Drivers

/-! ## Where an entry lies -/

/-- The FAT sector and the offset of a cluster's entry in copy `k`, as
`write_fat_entry` computes them; `get_next_cluster` and `find_free_cluster`
compute those of copy 0. -/
def fatPlace (fs : Fat32) (k cluster : Nat) : Outcome String (Nat × Nat) := do
  let fatOffset ← umul 32 cluster 4
  let entryOffset ← urem fatOffset fs.bytesPerSector
  let o ← umul 32 k fs.sectorsPerFat
  let fatBase ← uadd 32 fs.firstFatSector o
  let q ← udiv fatOffset fs.bytesPerSector
  let fatSector ← uadd 32 fatBase q
  pure (fatSector, entryOffset)

/-- What it takes for the place to be computed. -/
lemma fatPlace_eq_ok {fs : Fat32} {k c : Nat} {p : Nat × Nat} :
    fs.fatPlace k c = .ok p ↔
      c * 4 < 2 ^ 32 ∧ fs.bytesPerSector ≠ 0 ∧ k * fs.sectorsPerFat < 2 ^ 32
        ∧ fs.firstFatSector + k * fs.sectorsPerFat + c * 4 / fs.bytesPerSector < 2 ^ 32
        ∧ p = (fs.firstFatSector + k * fs.sectorsPerFat + c * 4 / fs.bytesPerSector,
            c * 4 % fs.bytesPerSector) := by
  simp only [fatPlace, Outcome.bind_eq_ok, umul_eq_ok, urem_eq_ok, uadd_eq_ok, udiv_eq_ok,
    and_assoc, exists_and_left,
    exists_eq_left', pure_eq]
  grind

/-! ## What the calls need -/

/-- Every access to the FAT and to the data area of this volume stays in its
width, in its buffer and on its part of the volume. -/
structure AccessSafe (fs : Fat32) : Prop where
  /-- `cluster_to_sector`, and where the sectors of the cluster lie. -/
  data : ∀ c, fs.InRange c → ∃ s, fs.clusterToSector c = .ok s
    ∧ s + fs.sectorsPerCluster ≤ fs.totalSectors
  /-- The FAT sector of copy `k` lies in copy `k` and the entry in the buffer. -/
  place : ∀ c, fs.InRange c → ∀ k < fs.numFats, ∃ s off, fs.fatPlace k c = .ok (s, off)
    ∧ fs.firstFatSector + k * fs.sectorsPerFat ≤ s
    ∧ s < fs.firstFatSector + (k + 1) * fs.sectorsPerFat ∧ off + 4 ≤ 512
  /-- `get_next_cluster` comes back, whatever the drive holds and answers. -/
  next : ∀ c, fs.InRange c → ∀ d : Image, (fs.getNextCluster c d).1.Returns
  /-- `find_free_cluster` comes back. -/
  find : ∀ d : Image, (fs.findFreeCluster d).1.Returns
  /-- `write_fat_entry` comes back. -/
  write : ∀ c, fs.InRange c → ∀ (x : Nat) (d : Image), (fs.writeFatEntry c x d).1.Returns

section
variable {fs : Fat32} {d : Image}

lemma writeSector_safe (lba : Nat) (s : Sector) {post : Unit → Image → Prop}
    (h : ∀ d', post () d') : (Drive.writeSector lba s : Prog Image String Unit).Safe d post := by
  unfold Prog.Safe
  simp only [Drive.writeSector]
  cases d (lba % 2 ^ 28) with
  | some _ => exact h _
  | none => trivial

/-- An entry in its buffer can be read. -/
lemma readFatEntry_of_place {c s off : Nat} (h : fs.fatPlace 0 c = .ok (s, off))
    (hoff : off + 4 ≤ 512)
    {post : Nat → Image → Prop} (hpost : ∀ e, post e d) :
    (fs.readFatEntry c : Prog Image String Nat).Safe d post := by
  obtain ⟨hmul, hbps, -, hsum, heq⟩ := fatPlace_eq_ok.mp h
  cases heq
  rw [Nat.zero_mul, Nat.add_zero] at hsum
  exact readFatEntry_safe.mpr ⟨hmul, hbps, hsum, fun _ _ => ⟨hoff, hpost _⟩⟩

/-- An entry in its buffer can be written, in every copy from `k` on. -/
lemma writeFatEntryFrom_safe {c : Nat} (x : Nat)
    (hplace : ∀ k < fs.numFats, ∃ s off, fs.fatPlace k c = .ok (s, off) ∧ off + 4 ≤ 512) (n : Nat) :
    ∀ (d : Image) (k : Nat), k + n ≤ fs.numFats →
      (fs.writeFatEntryFrom (c * 4)
        (c * 4 % fs.bytesPerSector) x k n : Prog Image String Unit).Safe d
        fun _ _ => True := by
  induction n with
  | zero => intro d k _; trivial
  | succ n ih =>
    intro d k hk
    obtain ⟨s, off, hp, hoff⟩ := hplace k (by omega)
    obtain ⟨-, hbps, hmul, hsum, heq⟩ := fatPlace_eq_ok.mp hp
    cases heq
    simp only [writeFatEntryFrom, safe_bind, safe_umul, safe_uadd, safe_udiv, readSector_safe,
      le32In, setLe32In,
      if_pos hoff]
    refine ⟨hmul, lt_of_le_of_lt (le_add_right _ _) hsum, hbps, hsum, fun buf _ => ?_⟩
    exact writeSector_safe _ _ fun d' => ih d' (k + 1) (by omega)

lemma findFreeClusterFrom_safe
    (hplace : ∀ c, fs.InRange c → ∃ s off, fs.fatPlace 0 c = .ok (s, off) ∧
      off + 4 ≤ 512) (n : Nat) :
    ∀ c, 2 ≤ c → c + n ≤ fs.totalClusters + 2 →
      (fs.findFreeClusterFrom c n : Prog Image String (Option Nat)).Safe d fun _ _ => True := by
  induction n with
  | zero => intro c _ _; trivial
  | succ n ih =>
    intro c h2 hle
    obtain ⟨s, off, hp, hoff⟩ := hplace c ⟨h2, by omega⟩
    unfold findFreeClusterFrom
    rw [safe_bind]
    refine readFatEntry_of_place hp hoff fun e => ?_
    exact safe_ite.mpr ⟨fun _ => trivial, fun _ => ih (c + 1) (by omega) (by omega)⟩

/-- The places make the calls come back. -/
lemma AccessSafe.of_places
    (hdata : ∀ c, fs.InRange c → ∃ s, fs.clusterToSector c = .ok s
      ∧ s + fs.sectorsPerCluster ≤ fs.totalSectors)
    (hplace : ∀ c, fs.InRange c → ∀ k < fs.numFats, ∃ s off, fs.fatPlace k c = .ok (s, off)
      ∧ fs.firstFatSector + k * fs.sectorsPerFat ≤ s
      ∧ s < fs.firstFatSector + (k + 1) * fs.sectorsPerFat ∧ off + 4 ≤ 512)
    (hfats : 0 < fs.numFats) (hend : fs.totalClusters + 2 < 2 ^ 32) (hbps : fs.bytesPerSector ≠ 0)
    (hmul : ∀ c, fs.InRange c → c * 4 < 2 ^ 32) : AccessSafe fs := by
  have hfirst : ∀ c, fs.InRange c → ∃ s off, fs.fatPlace 0 c = .ok (s, off) ∧ off + 4 ≤ 512 := by
    intro c hc
    obtain ⟨s, off, hp, -, -, hoff⟩ := hplace c hc 0 hfats
    exact ⟨s, off, hp, hoff⟩
  refine ⟨hdata, hplace, ?_, ?_, ?_⟩
  · intro c hc d
    obtain ⟨s, off, hp, hoff⟩ := hfirst c hc
    rw [returns_iff_safe]
    unfold getNextCluster
    rw [safe_bind]
    refine readFatEntry_of_place hp hoff fun e => safe_ite.mpr ⟨fun _ => trivial, fun _ => ?_⟩
    exact safe_ite.mpr ⟨fun _ => trivial, fun _ => trivial⟩
  · intro d
    rw [returns_iff_safe]
    unfold findFreeCluster
    rw [uadd_of_lt hend, lift_ok_bind]
    exact findFreeClusterFrom_safe hfirst _ 2 (by omega) (by omega)
  · intro c hc x d
    rw [returns_iff_safe]
    unfold writeFatEntry
    rw [umul_of_lt (hmul c hc), lift_ok_bind, urem_of_ne hbps, lift_ok_bind]
    refine writeFatEntryFrom_safe _ (fun k hk => ?_) _ d 0 (by omega)
    obtain ⟨s, off, hp, -, -, hoff⟩ := hplace c hc k hk
    exact ⟨s, off, hp, hoff⟩

end

lemma AccessSafe.next_ne_panic {fs : Fat32} (hs : AccessSafe fs) {c : Nat} (hc : fs.InRange c)
    {d : Image} : (fs.getNextCluster c d).1 ≠ .panic := by
  intro hpanic
  have hret := hs.next c hc d
  rw [hpanic] at hret
  exact not_returns_panic hret

/-! ## What the checks leave open -/

namespace BootSector

/-- Sectors of 512 bytes, a FAT with an entry for every cluster, and cluster
numbers that can be multiplied by four. -/
def Addressable (b : BootSector) : Prop :=
  b.bytesPerSector = 512 ∧ b.clusterCount + 2 ≤ b.fatSize * 128 ∧ b.clusterCount + 2 ≤ 2 ^ 30

instance (b : BootSector) : Decidable b.Addressable := inferInstanceAs (Decidable (_ ∧ _ ∧ _))

end BootSector

section
variable {b : BootSector} {fs : Fat32}

/-- The data sectors of a checked volume lie on it. -/
lemma BootSector.Checked.dataSectors (h : b.Checked fs)
    (htotal : fs.totalSectors < 2 ^ 32) {c : Nat}
    (hc : fs.InRange c) :
    ∃ s, fs.clusterToSector c = .ok s ∧ s + fs.sectorsPerCluster ≤ fs.totalSectors := by
  have hbelow := h.below
  have hclusters : fs.totalClusters =
    (fs.totalSectors - fs.firstDataSector) / fs.sectorsPerCluster := by
    rw [h.clusters, clusterCount, h.firstData, h.total, h.spc]
  have hroom : fs.totalClusters * fs.sectorsPerCluster ≤ fs.totalSectors - fs.firstDataSector := by
    rw [hclusters]
    exact div_mul_le_self _ _
  obtain ⟨h2, hlt⟩ := hc
  have hmul := unit_end_le fs.sectorsPerCluster (show c - 2 < fs.totalClusters by omega)
  refine ⟨(c - 2) * fs.sectorsPerCluster + fs.firstDataSector, ?_, by omega⟩
  unfold clusterToSector
  rw [usub_of_le h2, ok_bind, umul_of_lt (by omega), ok_bind, uadd_of_lt (by omega)]

/-- On an addressable volume every entry has its place. -/
lemma BootSector.Checked.accessSafe (h : b.Checked fs) (htotal : fs.totalSectors < 2 ^ 32)
    (ha : b.Addressable) : AccessSafe fs := by
  obtain ⟨hsector, hcovers, hnumbers⟩ := ha
  rw [← h.clusters, ← h.fatSize] at hcovers
  rw [← h.clusters] at hnumbers
  rw [← h.sector] at hsector
  have hbelow := h.below
  have hfirst : fs.firstFatSector + fs.numFats * fs.sectorsPerFat ≤ fs.firstDataSector := by
    rw [h.firstData, h.firstFat, h.fats, h.fatSize]
    omega
  have hfats : 0 < fs.numFats := h.fats ▸ h.fats_pos
  refine AccessSafe.of_places (fun c hc => h.dataSectors htotal hc) ?_ hfats (by omega)
    (by omega) fun c hc => by have := hc.2; omega
  intro c hc k hk
  have hlt := hc.2
  have hmul : (k + 1) * fs.sectorsPerFat ≤ fs.numFats * fs.sectorsPerFat := mul_le_mul_right _ hk
  have hsucc : (k + 1) * fs.sectorsPerFat = k * fs.sectorsPerFat + fs.sectorsPerFat := by
    rw [Nat.add_mul, Nat.one_mul]
  refine ⟨_, _, fatPlace_eq_ok.mpr ⟨by omega, by omega, by omega, ?_, rfl⟩,
    Nat.le_add_right _ _, ?_, ?_⟩
  · rw [hsector]
    omega
  · rw [hsector]
    omega
  · rw [hsector]
    omega

/-- A volume that is safe to access is addressable: cluster 128 is the first
whose entry leaves a larger sector's first 512 bytes, and the last cluster the
first to fall out of a FAT that is too small. -/
lemma BootSector.Checked.addressable (h : b.Checked fs) (hs : AccessSafe fs) : b.Addressable := by
  have henough := h.enough
  have hfats : 0 < fs.numFats := h.fats ▸ h.fats_pos
  have hsector : fs.bytesPerSector = 512 := by
    obtain ⟨s, off, hp, -, -, hoff⟩ := hs.place 128 ⟨by omega, by omega⟩ 0 hfats
    obtain ⟨-, -, -, -, heq⟩ := fatPlace_eq_ok.mp hp
    have hoff' : off = 128 * 4 % fs.bytesPerSector := congrArg Prod.snd heq
    have hle := h.sector_le
    rw [← h.sector] at hle
    rcases lt_or_eq_of_le hle with hlt | heq
    · rw [mod_eq_of_lt (by omega)] at hoff'
      omega
    · exact heq.symm
  obtain ⟨s, off, hp, -, hin, -⟩ := hs.place (fs.totalClusters + 1) ⟨by omega, by omega⟩ 0 hfats
  obtain ⟨hmul, -, -, -, heq⟩ := fatPlace_eq_ok.mp hp
  have hsec : s = fs.firstFatSector + 0 * fs.sectorsPerFat + (fs.totalClusters + 1) * 4
    / fs.bytesPerSector :=
    congrArg Prod.fst heq
  rw [hsector] at hsec
  refine ⟨h.sector ▸ hsector, ?_, ?_⟩
  · rw [← h.clusters, ← h.fatSize]
    omega
  · rw [← h.clusters]
    omega

end

/-- The sector count of a boot sector fits 32 bits. -/
lemma BootSector.totalSectors_lt (boot : List UInt8) :
    (BootSector.ofBytes boot).totalSectors < 2 ^ 32 := by
  have h16 := leAt_lt boot 19 2
  have h32 := leAt_lt boot 32 4
  unfold totalSectors
  split
  · exact lt_of_lt_of_le h16 (by decide)
  · exact h32

/-- What `new` returns comes from the boot sector it read. -/
lemma new_checked {σ : Type} [Drive σ] {s s₁ s' : σ} {boot : Sector} {fs : Fat32}
    (hboot : Drive.readSector 0 s = (.ok boot, s₁)) (h : new s = (.ok fs, s')) :
    (BootSector.ofBytes boot.bytes).Checked fs := by
  unfold new at h
  rw [bind_ok hboot] at h
  obtain ⟨fs', s₂, hparse, h⟩ := bind_eq_ok h
  obtain ⟨r, s₃, -, h⟩ := bind_eq_ok h
  cases h
  exact BootSector.checked_of_volume (congrArg Prod.fst hparse)

/-- A mounted volume is safe to access exactly when its boot sector is
addressable. -/
theorem new_accessSafe_iff {σ : Type} [Drive σ] {s s₁ s' : σ} {boot : Sector} {fs : Fat32}
    (hboot : Drive.readSector 0 s = (.ok boot, s₁)) (h : new s = (.ok fs, s')) :
    AccessSafe fs ↔ (BootSector.ofBytes boot.bytes).Addressable := by
  have hc := new_checked hboot h
  have htotal : fs.totalSectors < 2 ^ 32 := by
    rw [hc.total]
    exact BootSector.totalSectors_lt boot.bytes
  exact ⟨hc.addressable, hc.accessSafe htotal⟩

/-- The small volume is safe to access. -/
theorem smallVolume_accessSafe : (new smallImage).1 = .ok smallVolume ∧ AccessSafe smallVolume := by
  have hboot : Drive.readSector 0 smallImage = (.ok smallBoot, smallImage) := rfl
  have hrun : new smallImage = (.ok smallVolume, (new smallImage).2) := by
    rw [← new_smallImage]
  exact ⟨new_smallImage, (new_accessSafe_iff hboot hrun).mpr (by decide +kernel)⟩

/-- The small volume, with a boot sector that says sectors have 1024 bytes. -/
def wideImage : Image := fun n =>
  some (if n = 0 then Sector.ofBytes (patch smallBoot.bytes 11 (leBytes 2 1024)) else smallDisk n)

def wideVolume : Fat32 := { smallVolume with bytesPerSector := 1024 }

/-- It is mounted, and to follow the chain of cluster 128 panics: the entry is
looked for at byte 512 of the 512-byte buffer. -/
theorem wideVolume_panics :
    (new wideImage).1 = .ok wideVolume ∧ wideVolume.InRange 128
      ∧ wideVolume.fatPlace 0 128 = .ok (32, 512)
      ∧ (wideVolume.getNextCluster 128 (new wideImage).2).1 = .panic
      ∧ ¬AccessSafe wideVolume := by
  have hnew : (new wideImage).1 = .ok wideVolume := by decide +kernel
  have hpanic : (wideVolume.getNextCluster 128 (new wideImage).2).1 = .panic := by decide +kernel
  have hrange : wideVolume.InRange 128 := by decide +kernel
  have hplace : wideVolume.fatPlace 0 128 = .ok (32, 512) := by decide +kernel
  refine ⟨hnew, hrange, hplace, hpanic, ?_⟩
  intro hs
  exact hs.next_ne_panic hrange hpanic

end RustOs.Fs.Fat32
