import RustOs.Fs.Fat32.BootCheck

/-!
# Counting clusters

Two scans of the first FAT count clusters. `count_used_clusters` goes sector by
sector over the whole table and counts the entries from 2 on; the scan of
`recover_fsinfo` goes over the cluster numbers of the data area and counts the
entries that are 0. The first also meets the two reserved entries in front and
the slack behind the last cluster, and both count in `u32`.

> `accounts_iff`: used and free clusters add up to the clusters of the volume
> if and only if the entries outside the data area are below 2 and the
> numbers of the second scan fit 32 bits.

A formatted volume has its media byte in entry 0 and an end mark in entry 1, so
the two counts are off by two there.
-/

namespace RustOs.Fs.Fat32

open Lib Outcome Nat Prog Drivers List

/-- Entry `i` of the first FAT as the drive delivers it. -/
def fatValue (fs : Fat32) (d : Disk) (i : Nat) : Nat :=
  entryIn (d ((fs.firstFatSector + i / 128) % 2 ^ 28)) i % 2 ^ 28

/-- The tally of `recover_fsinfo`: the zero entries of clusters `2..total_clusters + 2`. -/
def scanFree {σ : Type} [Drive σ] (fs : Fat32) : Prog σ String Nat := do
  let _ ← Prog.lift (uadd 32 fs.totalClusters 2)
  fs.countFreeFrom fs.totalClusters 2 (2 ^ 32 - 1) (List.replicate fs.bytesPerSector 0) 0

/-- The two scans come back and what they count adds up. -/
def Accounts (fs : Fat32) (d : Disk) : Prop :=
  ∃ used free, fs.countUsedClusters d = (.ok used, d) ∧ fs.scanFree d = (.ok free, d)
    ∧ used + free = fs.totalClusters

/-! ## The used clusters -/

/-- One sector: the count goes up by the entries from 2 on, or it overflows. -/
lemma countUsedIn_eq (buf : Sector) (n : Nat) :
    ∀ entryIdx used, entryIdx + n ≤ 128 → used < 2 ^ 32 →
      countUsedIn buf entryIdx n used
        = uadd 32 used
          ((range' entryIdx n).countP (fun i => 2 ≤ leAt buf.bytes (i * 4) 4 % 2 ^ 28)) := by
  induction n with
  | zero =>
    intro entryIdx used _ hlt
    exact (uadd_of_lt (show used + 0 < 2 ^ 32 from hlt)).symm
  | succ n ih =>
    intro entryIdx used hle hlt
    unfold countUsedIn
    rw [if_neg (by omega), range'_succ, countP_cons]
    by_cases h2 : 2 ≤ leAt buf.bytes (entryIdx * 4) 4 % 2 ^ 28
    · rw [if_pos h2, if_pos (decide_eq_true h2), add_comm (countP _ _) 1, ← uadd_bind_uadd]
      by_cases hroom : used + 1 < 2 ^ 32
      · rw [uadd_of_lt hroom]
        exact ih (entryIdx + 1) (used + 1) (by omega) hroom
      · have hover : (uadd 32 used 1 : Outcome String Nat) = .panic := if_neg hroom
        rw [hover]
        rfl
    · rw [if_neg h2, decide_eq_false h2, if_neg Bool.false_ne_true, add_zero]
      exact ih (entryIdx + 1) used (by omega) hlt

/-- The entries of one sector, by their number in the FAT. -/
lemma countP_sector (fs : Fat32) (d : Disk) (i : Nat) :
    (range' 0 128).countP
        (fun j => 2 ≤ leAt (d ((fs.firstFatSector + i) % 2 ^ 28)).bytes (j * 4) 4 % 2 ^ 28)
      = (range' (128 * i) 128).countP (fun c => 2 ≤ fs.fatValue d c) := by
  have hshift : range' (128 * i) 128 = (range' 0 128).map (128 * i + ·) := by
    rw [map_add_range', add_zero]
  rw [hshift, countP_map]
  refine countP_congr fun j hj => ?_
  have hj' : j < 128 := by have := (mem_range'_1.mp hj).2; omega
  have hdiv : (128 * i + j) / 128 = i := by omega
  have hmod : (128 * i + j) % 128 = j := by omega
  simp only [Function.comp, fatValue, entryIn, hdiv, hmod]

/-- The loop counts the entries that are used, sector by sector. -/
lemma countUsedFrom_disk {fs : Fat32} (hbps : fs.bytesPerSector = 512)
    (hfat : fs.firstFatSector + fs.sectorsPerFat < 2 ^ 32) (d : Disk) (n : Nat) :
    ∀ i used, i + n ≤ fs.sectorsPerFat → used < 2 ^ 32 →
      fs.countUsedFrom i n used d
        = (uadd 32 used
            ((range' (128 * i) (128 * n)).countP (fun c => 2 ≤ fs.fatValue d c)), d) := by
  induction n with
  | zero =>
    intro i used _ hlt
    exact congrArg (·, d) (uadd_of_lt (show used + 0 < 2 ^ 32 from hlt)).symm
  | succ n ih =>
    intro i used hle hlt
    have hrange : range' (128 * i) (128 * (n + 1))
        = range' (128 * i) 128 ++ range' (128 * (i + 1)) (128 * n) := by
      rw [mul_succ, mul_succ, add_comm (128 * n) 128, range'_append_1]
    have hread : (Drive.readSector (fs.firstFatSector + i) : Prog Disk String Sector) d
        = (.ok (d ((fs.firstFatSector + i) % 2 ^ 28)), d) := rfl
    unfold countUsedFrom
    rw [uadd_of_lt (by omega), lift_ok_bind, bind_ok hread, hbps,
      countUsedIn_eq _ (512 / 4) 0 used (by omega) hlt, hrange, countP_append,
      ← uadd_bind_uadd, ← countP_sector]
    by_cases hroom : used + (range' 0 (512 / 4)).countP
        (fun j => 2 ≤ leAt (d ((fs.firstFatSector + i) % 2 ^ 28)).bytes (j * 4) 4 % 2 ^ 28) < 2 ^ 32
    · rw [uadd_of_lt hroom, lift_ok_bind]
      exact ih (i + 1) _ (by omega) hroom
    · have hover : (uadd 32 used ((range' 0 (512 / 4)).countP
          (fun j => 2 ≤ leAt (d ((fs.firstFatSector + i) % 2 ^ 28)).bytes (j * 4) 4 % 2 ^ 28))
          : Outcome String Nat) = .panic := if_neg hroom
      rw [hover]
      rfl

/-! ## The free clusters -/

lemma readSectors_one (d : Disk) {lba : Nat} (h : lba < 2 ^ 32) :
    readSectors lba 1 512 d = (.ok (d (lba % 2 ^ 28)).bytes, d) := by
  have hread : (Drive.readSector (lba + 0) : Prog Disk String Sector) d
      = (.ok (d (lba % 2 ^ 28)), d) := rfl
  unfold readSectors
  rw [if_neg (by omega)]
  unfold readSectorsFrom
  rw [uadd_of_lt (by omega), lift_ok_bind]
  have hloop : ((do
      let s ← Drive.readSector (lba + 0)
      let rest ← readSectorsFrom lba (0 + 1) 0
      pure (s.bytes ++ rest)) : Prog Disk String (List UInt8)) d
      = (.ok (d (lba % 2 ^ 28)).bytes, d) := by
    rw [bind_ok hread]
    show (ok ((d (lba % 2 ^ 28)).bytes ++ []), d) = _
    rw [append_nil]
  rw [bind_ok hloop]
  exact congrArg (fun b => (ok b, d)) (padTo_of_length (d (lba % 2 ^ 28)).len)

section
variable {fs : Fat32}

section

variable (hbps : fs.bytesPerSector = 512) (d : Disk)
include hbps

/-- One turn of the scan with the entry's sector in the buffer, up to the check
against the end of the FAT. -/
lemma countFreeFrom_turn {n cluster sectorIdx : Nat}
    {buf : List UInt8} {free : Nat} (hmul : cluster * 4 < 2 ^ 32)
    (hneed : fs.firstFatSector + cluster / 128 < 2 ^ 32 - 1)
    (hbuf : sectorIdx = 2 ^ 32 - 1 ∨ buf = (d (sectorIdx % 2 ^ 28)).bytes)
    (hfree : free + 1 < 2 ^ 32) :
    fs.countFreeFrom (n + 1) cluster sectorIdx buf free d = (do
      let covered ← Prog.lift (umul 32 (fs.bytesPerSector / 4) fs.sectorsPerFat)
      let bound ← Prog.lift (uadd 32 2 covered)
      if cluster > bound then pure (free + if fs.fatValue d cluster = 0 then 1 else 0)
      else
        fs.countFreeFrom n (cluster + 1) (fs.firstFatSector + cluster / 128)
          (d ((fs.firstFatSector + cluster / 128) % 2 ^ 28)).bytes
          (free + if fs.fatValue d cluster = 0 then 1 else 0) : Prog Disk String Nat) d := by
  have hq : cluster * 4 / 512 = cluster / 128 := by omega
  have hr : cluster * 4 % 512 = cluster % 128 * 4 := by omega
  have hsector : ((if fs.firstFatSector + cluster / 128 ≠ sectorIdx then
        readSectors (fs.firstFatSector + cluster / 128) 1 512 else pure buf) :
        Prog Disk String (List UInt8)) d
      = (.ok (d ((fs.firstFatSector + cluster / 128) % 2 ^ 28)).bytes, d) := by
    split
    next => exact readSectors_one d (by omega)
    next heq =>
      have heq' := Decidable.of_not_not heq
      rcases hbuf with hmax | hbuf
      · omega
      · rw [hbuf, heq']
        rfl
  have hlen := (d ((fs.firstFatSector + cluster / 128) % 2 ^ 28)).len
  have hentry : leAt (d ((fs.firstFatSector + cluster / 128) % 2 ^ 28)).bytes
    (cluster % 128 * 4) 4 % 2 ^ 28
      = fs.fatValue d cluster := rfl
  conv_lhs => unfold countFreeFrom
  rw [umul_of_lt hmul, lift_ok_bind, hbps, udiv_of_ne (by omega),
    lift_ok_bind, hq, uadd_of_lt (by omega), lift_ok_bind,
    ite_bind_ok hsector]
  dsimp only
  rw [urem_of_ne (by omega), lift_ok_bind, hr, if_neg (by omega), hentry]
  by_cases h0 : fs.fatValue d cluster = 0
  · rw [if_pos h0, if_pos h0, uadd_of_lt hfree, lift_ok_bind]
  · rw [if_neg h0, if_neg h0]
    rfl

/-- The scan counts the zero entries, or overflows at cluster `2 ^ 30`. -/
lemma countFreeFrom_disk (hfat : fs.firstFatSector + fs.sectorsPerFat < 2 ^ 32 - 1)
    (hfits : 128 * fs.sectorsPerFat + 2 < 2 ^ 32) (n : Nat) :
    ∀ cluster sectorIdx buf free, cluster ≤ 2 ^ 30 → cluster + n ≤ 128 * fs.sectorsPerFat →
      (sectorIdx = 2 ^ 32 - 1 ∨ buf = (d (sectorIdx % 2 ^ 28)).bytes) → free + n < 2 ^ 32 →
      fs.countFreeFrom n cluster sectorIdx buf free d
        = (if cluster + n ≤ 2 ^ 30 then
            .ok (free + (range' cluster n).countP (fun c => fs.fatValue d c = 0))
          else .panic, d) := by
  induction n with
  | zero =>
    intro cluster sectorIdx buf free hle _ _ _
    rw [add_zero, if_pos hle]
    rfl
  | succ n ih =>
    intro cluster sectorIdx buf free hle hcov hbuf hfree
    by_cases hmul : cluster * 4 < 2 ^ 32
    · rw [countFreeFrom_turn hbps d hmul (by omega) hbuf (by omega), hbps,
        umul_of_lt (by omega), lift_ok_bind, uadd_of_lt (by omega),
        lift_ok_bind, if_neg (by omega),
        ih (cluster + 1) _ _ _ (by omega) (by omega) (.inr rfl) (by split <;> omega),
        range'_succ, countP_cons]
      have hstep : cluster + 1 + n ≤ 2 ^ 30 ↔ cluster + (n + 1) ≤ 2 ^ 30 := by omega
      simp only [hstep, decide_eq_true_eq]
      have hsum : ∀ a b : Nat, free + a + b = free + (b + a) := fun a b => by omega
      rw [hsum]
    · -- cluster `2 ^ 30`, whose offset does not fit 32 bits
      rw [if_neg (by omega)]
      unfold countFreeFrom umul
      rw [if_neg hmul]
      rfl

/-- The scan of a FAT whose size in entries does not fit 32 bits. -/
lemma countFreeFrom_wide (hfat : fs.firstFatSector + fs.sectorsPerFat < 2 ^ 32 - 1)
    (hwide : 2 ^ 32 ≤ 128 * fs.sectorsPerFat + 2) (n : Nat) (buf : List UInt8) :
    fs.countFreeFrom (n + 1) 2 (2 ^ 32 - 1) buf 0 d = (.panic, d) := by
  rw [countFreeFrom_turn hbps d (by omega) (by omega) (.inl rfl) (by omega), hbps]
  unfold umul uadd
  by_cases hmul : 512 / 4 * fs.sectorsPerFat < 2 ^ 32
  · rw [if_pos hmul, lift_ok_bind, if_neg (by omega)]
    rfl
  · rw [if_neg hmul]
    rfl

end

end

/-! ## The sum -/

lemma countP_add_countP_range' (p q : Nat → Bool) (n : Nat) :
    ∀ c, (∀ i, c ≤ i → i < c + n → (p i = true ↔ q i = false)) →
      (range' c n).countP p + (range' c n).countP q = n := by
  induction n with
  | zero => intro c _; rfl
  | succ n ih =>
    intro c h
    have hrest := ih (c + 1) fun i h₁ h₂ => h i (by omega) (by omega)
    have hc := h c (le_refl c) (by omega)
    rw [range'_succ, countP_cons, countP_cons]
    cases hp : p c with
    | true =>
      have hq : q c = false := hc.mp hp
      simp only [hq, if_true, Bool.false_eq_true, if_false]
      omega
    | false =>
      have hq : q c = true := by
        cases hq : q c with
        | true => rfl
        | false => exact absurd (hc.mpr hq) (by rw [hp]; exact Bool.false_ne_true)
      simp only [hq, if_true, Bool.false_eq_true, if_false]
      omega

/-- The first FAT and the cluster numbers of a mounted volume fit 32 bits. -/
lemma new_bounds {σ : Type} [Drive σ] {s s' : σ} {fs : Fat32} (hnew : new s = (.ok fs, s'))
    (hcovers : fs.totalClusters + 2 ≤ fs.sectorsPerFat * 128) :
    fs.firstFatSector + fs.sectorsPerFat < 2 ^ 32 - 1 ∧ fs.totalClusters + 2 < 2 ^ 32
      ∧ 0 < fs.totalClusters := by
  obtain ⟨boot, s₁, hboot, -⟩ := bind_eq_ok hnew
  have hc := new_checked hboot hnew
  have htotal : fs.totalSectors < 2 ^ 32 := by
    rw [hc.total]
    exact BootSector.totalSectors_lt boot.bytes
  have hone : 1 * fs.sectorsPerFat ≤ fs.numFats * fs.sectorsPerFat :=
    mul_le_mul_right _ (hc.fats ▸ hc.fats_pos)
  have hfat : fs.firstFatSector + fs.sectorsPerFat ≤ fs.firstDataSector := by
    rw [hc.firstData, hc.firstFat, ← hc.fats, ← hc.fatSize]
    omega
  have hle : fs.totalClusters ≤ fs.totalSectors - fs.firstDataSector := by
    rw [hc.clusters, BootSector.clusterCount, ← hc.firstData, ← hc.total]
    exact div_le_self _ _
  have henough := hc.enough
  exact ⟨by omega, by omega, by omega⟩

section
variable {fs : Fat32} (d : Disk)

/-- Nothing is counted in front of the clusters and behind them exactly when
those entries are below 2. -/
lemma countP_outside (hcovers : fs.totalClusters + 2 ≤ fs.sectorsPerFat * 128) :
    (range' 0 2).countP (fun c => 2 ≤ fs.fatValue d c)
      + (range' (2 + fs.totalClusters) (128 * fs.sectorsPerFat - (2 + fs.totalClusters))).countP
        (fun c => 2 ≤ fs.fatValue d c) = 0
    ↔ ∀ i < fs.sectorsPerFat * 128, ¬fs.InRange i → fs.fatValue d i < 2 := by
  simp only [Nat.add_eq_zero_iff, countP_eq_zero, mem_range'_1, decide_eq_true_eq, Nat.not_le]
  constructor
  · intro ⟨hlow, hhigh⟩ i hi hout
    by_cases h2 : i < 2
    · exact hlow i ⟨by omega, by omega⟩
    · refine hhigh i ⟨?_, by omega⟩
      exact Nat.le_of_not_lt fun hlt => hout ⟨by omega, by omega⟩
  · intro h
    refine ⟨fun i hi => h i (by omega) fun hr => ?_, fun i hi => h i (by omega) fun hr => ?_⟩
    · have := hr.1
      omega
    · have := hr.2
      omega

section

variable (hbps : fs.bytesPerSector = 512)
  (hfat : fs.firstFatSector + fs.sectorsPerFat < 2 ^ 32 - 1)
include hbps hfat

/-- What `count_used_clusters` counts, in three parts: the reserved entries and
the slack, and the clusters. -/
lemma countUsedClusters_disk (hcovers : fs.totalClusters + 2 ≤ fs.sectorsPerFat * 128) :
    fs.countUsedClusters d
      = (uadd 32 0 ((range' 0 2).countP (fun c => 2 ≤ fs.fatValue d c)
          + (range' (2 + fs.totalClusters)
              (128 * fs.sectorsPerFat - (2 + fs.totalClusters))).countP
                (fun c => 2 ≤ fs.fatValue d c)
          + (range' 2 fs.totalClusters).countP (fun c => 2 ≤ fs.fatValue d c)), d) := by
  have hsplit : range' 0 (128 * fs.sectorsPerFat)
      = range' 0 2 ++ (range' 2 fs.totalClusters
        ++ range' (2 + fs.totalClusters) (128 * fs.sectorsPerFat - (2 + fs.totalClusters))) := by
    rw [range'_append_1, range'_append_1]
    congr 1
    omega
  have hused := countUsedFrom_disk hbps (by omega) d fs.sectorsPerFat 0 0 (by omega) (by omega)
  rw [Nat.mul_zero, hsplit, countP_append, countP_append,
    Nat.add_comm (countP _ (range' 2 _)), ← Nat.add_assoc] at hused
  exact hused

/-- What the scan of `recover_fsinfo` counts. -/
lemma scanFree_disk (hend : fs.totalClusters + 2 < 2 ^ 32)
    (hpos : 0 < fs.totalClusters) (hcovers : fs.totalClusters + 2 ≤ fs.sectorsPerFat * 128) :
    fs.scanFree d
      = (if fs.totalClusters + 2 ≤ 2 ^ 30 ∧ 128 * fs.sectorsPerFat + 2 < 2 ^ 32 then
          .ok ((range' 2 fs.totalClusters).countP (fun c => fs.fatValue d c = 0))
        else .panic, d) := by
  unfold scanFree
  rw [uadd_of_lt hend, lift_ok_bind]
  by_cases hfits : 128 * fs.sectorsPerFat + 2 < 2 ^ 32
  · rw [countFreeFrom_disk hbps d hfat hfits fs.totalClusters 2 _ _ 0 (by omega) (by omega)
      (.inl rfl) (by omega), zero_add, add_comm 2]
    simp only [hfits, and_true]
  · obtain ⟨n, hn⟩ : ∃ n, fs.totalClusters = n + 1 := ⟨fs.totalClusters - 1, by omega⟩
    rw [if_neg (fun h => hfits h.2), hn]
    exact countFreeFrom_wide hbps d hfat (by omega) n _

end

end

/-- Used and free clusters add up exactly when the entries outside the data
area are below 2, no cluster number times four overflows and the size of the
FAT in entries fits 32 bits. -/
theorem accounts_iff {σ : Type} [Drive σ] {s s' : σ} {fs : Fat32} (hnew : new s = (.ok fs, s'))
    (hbps : fs.bytesPerSector = 512) (hcovers : fs.totalClusters + 2 ≤ fs.sectorsPerFat * 128)
    (d : Disk)
    (hmarks : ∀ c, fs.InRange c → fs.fatValue d c = 0
      ∨ (2 ≤ fs.fatValue d c ∧ fs.fatValue d c ≤ 0x0FFFFFEF) ∨ 0x0FFFFFF8 ≤ fs.fatValue d c) :
    fs.Accounts d ↔
      (∀ i < fs.sectorsPerFat * 128, ¬fs.InRange i → fs.fatValue d i < 2)
        ∧ fs.totalClusters + 2 ≤ 2 ^ 30 ∧ 128 * fs.sectorsPerFat + 2 < 2 ^ 32 := by
  obtain ⟨hfat, hend, hpos⟩ := new_bounds hnew hcovers
  have hused := countUsedClusters_disk d hbps hfat hcovers
  have hfree := scanFree_disk d hbps hfat hend hpos hcovers
  -- without bad and reserved marks a cluster is counted by exactly one scan
  have hboth := countP_add_countP_range' (fun c => 2 ≤ fs.fatValue d c)
    (fun c => fs.fatValue d c = 0) fs.totalClusters 2 (by
      intro i h₁ h₂
      have hm := hmarks i ⟨h₁, by omega⟩
      simp only [decide_eq_true_eq, decide_eq_false_iff_not]
      omega)
  rw [← countP_outside d hcovers]
  constructor
  · intro ⟨used, free, hu, hf, hsum⟩
    rw [hused] at hu
    rw [hfree] at hf
    have hu' := (uadd_eq_ok.mp (congrArg Prod.fst hu)).2.symm
    by_cases hfits : fs.totalClusters + 2 ≤ 2 ^ 30 ∧ 128 * fs.sectorsPerFat + 2 < 2 ^ 32
    · rw [if_pos hfits] at hf
      have hf' := ok.inj (congrArg Prod.fst hf)
      exact ⟨by omega, hfits⟩
    · rw [if_neg hfits] at hf
      exact nomatch congrArg Prod.fst hf
  · intro ⟨hnone, hfits⟩
    rw [hnone, zero_add, uadd_of_lt (by omega)] at hused
    rw [if_pos hfits] at hfree
    exact ⟨_, _, hused, hfree, by omega⟩

/-- A table of zeros: no cluster is used, and all are free. -/
theorem zeroDisk_accounts :
    (new smallImage).1 = .ok smallVolume ∧ smallVolume.Accounts (fun _ => zeroSector) := by
  have hrun : new smallImage = (.ok smallVolume, (new smallImage).2) := by rw [← new_smallImage]
  have hzero : ∀ i, smallVolume.fatValue (fun _ => zeroSector) i = 0 := by
    intro i
    show leAt (replicate 512 0) _ 4 % 2 ^ 28 = 0
    rw [leAt_replicate_zero, zero_mod]
  refine ⟨new_smallImage, (accounts_iff hrun rfl (by decide) _ fun c _ => .inl (hzero c)).mpr
    ⟨fun i _ _ => ?_, by decide, by decide⟩⟩
  rw [hzero i]
  omega

lemma smallDisk_fatValue {c : Nat} (h5 : 5 ≤ c) (hlt : c < 65536) :
    smallVolume.fatValue smallDisk c = 0 := by
  show entryIn (smallDisk ((32 + c / 128) % 2 ^ 28)) c % 2 ^ 28 = 0
  rw [mod_eq_of_lt (a := 32 + c / 128) (by omega)]
  exact smallDisk_entry h5 hlt

/-- The marks of the small volume: three chains of one cluster each. -/
lemma smallDisk_marks {c : Nat} (hc : smallVolume.InRange c) :
    smallVolume.fatValue smallDisk c = 0 ∨ smallVolume.fatValue smallDisk c = 0x0FFFFFFF := by
  have hlt : c < 65527 := hc.2
  by_cases h5 : 5 ≤ c
  · exact .inl (smallDisk_fatValue h5 (by omega))
  · have hall : ∀ c < 5, 2 ≤ c → smallVolume.fatValue smallDisk c = 0x0FFFFFFF := by decide +kernel
    exact .inr (hall c (by omega) hc.1)

/-- On the small volume the media byte and the end mark in entries 0 and 1 are
counted as used clusters. -/
theorem smallDisk_miscounts :
    (new smallImage).1 = .ok smallVolume ∧ smallVolume.totalClusters = 65525
      ∧ (∀ c, smallVolume.InRange c →
          smallVolume.fatValue smallDisk c = 0 ∨ smallVolume.fatValue smallDisk c = 0x0FFFFFFF)
      ∧ (smallVolume.countUsedClusters smallDisk).1 = .ok 5
      ∧ (smallVolume.scanFree smallDisk).1 = .ok 65522
      ∧ ¬smallVolume.Accounts smallDisk := by
  have htotal : smallVolume.totalClusters = 65525 := rfl
  have hsplit : range' 2 65525 = range' 2 3 ++ range' 5 65522 :=
    (range'_append_1 (s := 2) (m := 3) (n := 65522)).symm
  have hfree : ∀ n c, 5 ≤ c → c + n ≤ 65536 →
      (range' c n).countP (fun i => smallVolume.fatValue smallDisk i = 0) = n
        ∧ (range' c n).countP (fun i => 2 ≤ smallVolume.fatValue smallDisk i) = 0 := by
    intro n c h5 hle
    have hzero : ∀ i ∈ range' c n, smallVolume.fatValue smallDisk i = 0 := by
      intro i hi
      have hi' := mem_range'_1.mp hi
      exact smallDisk_fatValue (by omega) (by omega)
    constructor
    · rw [countP_eq_length.mpr fun i hi => decide_eq_true (hzero i hi), length_range']
    · rw [countP_eq_zero]
      intro i hi
      rw [hzero i hi]
      decide
  have hlow : (range' 0 2).countP (fun c => 2 ≤ smallVolume.fatValue smallDisk c) = 2
      ∧ (range' 2 3).countP (fun c => 2 ≤ smallVolume.fatValue smallDisk c) = 3
      ∧ (range' 2 3).countP (fun c => smallVolume.fatValue smallDisk c = 0) = 0 := by decide +kernel
  have hused : smallVolume.countUsedClusters smallDisk = (.ok 5, smallDisk) := by
    rw [countUsedClusters_disk smallDisk rfl (by decide) (by decide), htotal,
      (hfree (128 * smallVolume.sectorsPerFat - (2 + 65525)) (2 + 65525) (by omega) (by decide)).2,
      hsplit, countP_append, hlow.1, hlow.2.1, (hfree 65522 5 (by omega) (by omega)).2]
    rfl
  have hscan : smallVolume.scanFree smallDisk = (.ok 65522, smallDisk) := by
    rw [scanFree_disk smallDisk rfl (by decide) (by decide) (by decide) (by decide),
      if_pos (by decide)]
    rw [htotal, hsplit, countP_append, hlow.2.2, (hfree 65522 5 (by omega) (by omega)).1,
      zero_add]
  refine ⟨new_smallImage, rfl, fun c => smallDisk_marks, by rw [hused], by rw [hscan], ?_⟩
  intro ⟨used, free, hu, hf, hsum⟩
  have hu' : 5 = used := ok.inj (congrArg Prod.fst (hused.symm.trans hu))
  have hf' : 65522 = free := ok.inj (congrArg Prod.fst (hscan.symm.trans hf))
  omega

end RustOs.Fs.Fat32
