import RustOs.Fs.Ext2.Driver

/-!
# Finding the group descriptors

The descriptor table of an ext2 volume starts in the block behind the one that
holds the superblock, and it has one row for every `blocks_per_group` blocks
from `first_data_block` on. `mount` gets both wrong in places:

* with blocks of 2 or 4 KiB the superblock lies in block 0 and
  `first_data_block` is 0, so the table starts in block 1; the driver takes a
  0 there for a 1 and reads the table from block 2;
* the number of groups is rounded up from `blocks_count` and not from
  `blocks_count - first_data_block`, which is one too many when the blocks
  behind the boot block fill their groups exactly;
* both roundings add before they subtract, and the sums are 32 bits wide.

`Locatable` is what is left, and `mount_groups_iff` says that it is exact: on
an image laid out by the specification `mount` returns the descriptor table if
and only if the image is `Locatable`.
-/

namespace RustOs.Fs.Ext2

open Lib Outcome Nat Superblock List

variable {img : Image}

namespace Image

/-- The superblock as it lies at byte 1024. -/
def superblock (img : Image) : Superblock := Superblock.ofBytes (slice img.data 1024 1024)

/-- Row `g` of a descriptor table that starts in block `table`. -/
def descriptor (img : Image) (table g : Nat) : GroupDesc :=
  GroupDesc.parse (slice img.data (table * img.blockSize + g * 32) 32)

/-- The first `n` rows of a descriptor table that starts in block `table`. -/
def descriptors (img : Image) (table n : Nat) : List GroupDesc :=
  (List.range n).map (img.descriptor table)

lemma Holds.mono {b c : Nat} (h : img.Holds c) (hbc : b ≤ c) : img.Holds b := by
  have hmul : b * img.blockSize ≤ c * img.blockSize := mul_le_mul_right _ hbc
  have hc : c * img.blockSize + img.blockSize ≤ img.data.length := h
  show b * img.blockSize + img.blockSize ≤ img.data.length
  omega

/-- The rows of a descriptor table inside one of its blocks. -/
lemma parse_slice_block (hsz : img.Sized) {table i j : Nat}
    (hj : j < img.blockSize / 32) :
    GroupDesc.parse (slice (img.block (table + i)) (j * 32) 32)
      = img.descriptor table (i * (img.blockSize / 32) + j) := by
  have hdvd : img.blockSize / 32 * 32 = img.blockSize := by
    rcases hsz with h | h | h <;> rw [h]
  have hin : j * 32 + 32 ≤ img.blockSize := by omega
  have hoff : (table + i) * img.blockSize + j * 32
      = table * img.blockSize + (i * (img.blockSize / 32) + j) * 32 := by
    rw [Nat.add_mul, Nat.add_mul, Nat.mul_assoc i, hdvd, Nat.add_assoc]
  rw [block, slice_slice hin, hoff, descriptor]

end Image

/-! ## What the steps of `mount` return -/

/-- The superblock is at byte 1024 for every block size. -/
lemma superblockBytes_eq (hsz : img.Sized) :
    superblockBytes img
      = if img.Holds (1024 / img.blockSize) then .ok (slice img.data 1024 1024)
        else .err "read past end" := by
  have hne : img.blockSize ≠ 0 := by have := hsz.pos; omega
  have hsmall : 1024 / img.blockSize < 2 ^ 50 := lt_of_le_of_lt (div_le_self _ _) (by omega)
  rw [superblockBytes, udiv_of_ne hne, ok_bind, urem_of_ne hne, ok_bind,
    Image.readBlock_eq (hsz.offset hsmall) (zeros_length _)]
  by_cases hh : img.Holds (1024 / img.blockSize)
  · rw [if_pos hh, if_pos hh, ok_bind, pure_eq]
    -- the superblock is 1024 bytes of its block, at byte 0 or at byte 1024
    have hfit : 1024 % img.blockSize + 1024 ≤ img.blockSize := by
      rcases hsz with h | h | h <;> simp [h]
    have hmin : min 1024 (img.blockSize - 1024 % img.blockSize) = 1024 := by omega
    have hoff : 1024 / img.blockSize * img.blockSize + 1024 % img.blockSize = 1024 :=
      div_add_mod' 1024 img.blockSize
    rw [hmin, Image.block, slice_slice hfit, hoff]
  · rw [if_neg hh, if_neg hh, err_bind]

lemma superblock_length (hsz : img.Sized)
    (hsb : img.Holds (1024 / img.blockSize)) : (slice img.data 1024 1024).length = 1024 := by
  have hh : 1024 / img.blockSize * img.blockSize + img.blockSize ≤ img.data.length := hsb
  refine slice_length ?_
  rcases hsz with h | h | h <;> rw [h] at hh <;> omega

/-- Without the journal flag there is nothing to replay. -/
lemma maybeReplayJournal_none (hsz : img.Sized)
    (hsb : img.Holds (1024 / img.blockSize))
    (hflag : (leAt img.data (1024 + 92) 4).testBit 2 = false) :
    maybeReplayJournal img = (.ok false, img) := by
  have hlen := superblock_length hsz hsb
  have hj : journalInode img = .ok none := by
    rw [journalInode, superblockBytes_eq hsz, if_pos hsb]
    simp only [ok_bind, hlen, leAt_slice (show 92 + 4 ≤ 1024 by omega), hflag]
    rfl
  have hlift : (Prog.lift (journalInode img) : Prog Image String _) img = (.ok none, img) := by
    rw [Prog.lift_apply, hj]
  rw [maybeReplayJournal, Prog.bind_ok (Prog.get_apply img), Prog.bind_ok hlift]
  rfl

lemma takeWhile_lt_range (n m : Nat) :
    (range n).takeWhile (fun j => decide (j < m)) = range (min n m) := by
  induction n generalizing m with
  | zero => simp
  | succ n ih =>
    cases m with
    | zero => simp [range_succ_eq_map]
    | succ m =>
      rw [range_succ_eq_map, takeWhile_cons, if_pos (by simp), takeWhile_map,
        succ_min_succ, range_succ_eq_map, ← ih m]
      congr 3
      funext j
      simp

/-- One block adds the rows from `i * epb` on, up to the last group. -/
lemma groupsIn_eq (hsz : img.Sized) (table groups i : Nat) :
    groupsIn (img.block (table + i)) (img.blockSize / 32) groups i
      = (range' (i * (img.blockSize / 32))
          (min (img.blockSize / 32) (groups - i * (img.blockSize / 32)))).map
            (img.descriptor table) := by
  have hcond : (fun j => decide (i * (img.blockSize / 32) + j < groups))
      = fun j => decide (j < groups - i * (img.blockSize / 32)) := by
    funext j
    congr 1
    exact propext ⟨by omega, by omega⟩
  rw [groupsIn, hcond, takeWhile_lt_range, range'_eq_map_range, map_map]
  apply map_congr_left
  intro j hj
  have hlt : j < img.blockSize / 32 := by
    have := mem_range.mp hj
    omega
  exact Image.parse_slice_block hsz hlt

/-- Rows of one block followed by the rows of the blocks behind it. -/
lemma range'_block (epb groups i n : Nat) :
    range' (i * epb) (min epb (groups - i * epb))
        ++ range' ((i + 1) * epb) (min (n * epb) (groups - (i + 1) * epb))
      = range' (i * epb) (min ((n + 1) * epb) (groups - i * epb)) := by
  rw [Nat.add_mul i, Nat.add_mul n, Nat.one_mul]
  rcases Nat.le_total (groups - i * epb) epb with h | h
  · -- the groups end inside this block
    rw [Nat.min_eq_right h, Nat.min_eq_right (by omega : groups - i * epb ≤ n * epb + epb),
      show groups - (i * epb + epb) = 0 by omega, Nat.min_zero, range'_zero, append_nil]
  · rw [Nat.min_eq_left h, range'_append_1]
    congr 1
    omega

/-- The table loop: while its blocks lie inside the image, it collects their
rows; the first block outside ends it. -/
lemma readGroups_eq (hsz : img.Sized) {table groups : Nat} (n : Nat) :
    ∀ (i : Nat) (acc : List GroupDesc), table + i + n ≤ 2 ^ 32 →
      (i + n) * (img.blockSize / 32) < 2 ^ 32 →
      readGroups img img.blockSize table (img.blockSize / 32) groups n i acc
        = if n = 0 ∨ img.Holds (table + i + n - 1) then
            .ok (acc ++ (range' (i * (img.blockSize / 32))
              (min (n * (img.blockSize / 32)) (groups - i * (img.blockSize / 32)))).map
                (img.descriptor table))
          else .err "read past end" := by
  induction n with
  | zero =>
    intro i acc _ _
    simp [readGroups]
  | succ n ih =>
    intro i acc hblk hmul
    have hi : i * (img.blockSize / 32) < 2 ^ 32 :=
      lt_of_le_of_lt (mul_le_mul_right _ (by omega)) hmul
    rw [readGroups, uadd_of_lt (by omega), ok_bind,
      Image.readBlock_eq (hsz.offset (by omega)) (zeros_length _)]
    by_cases hh : img.Holds (table + i)
    · rw [if_pos hh, ok_bind, umul_of_lt hi, ok_bind,
        ih (i + 1) _ (by omega) (by rw [show i + 1 + n = i + (n + 1) by omega]; exact hmul),
        groupsIn_eq hsz, append_assoc, ← map_append, range'_block]
      have hiff : (n = 0 ∨ img.Holds (table + (i + 1) + n - 1))
          ↔ (n + 1 = 0 ∨ img.Holds (table + i + (n + 1) - 1)) := by
        rw [show table + (i + 1) + n - 1 = table + i + n by omega,
          show table + i + (n + 1) - 1 = table + i + n by omega]
        constructor
        · rintro (rfl | h)
          · exact .inr hh
          · exact .inr h
        · rintro (h | h)
          · omega
          · exact .inr h
      by_cases hlast : n = 0 ∨ img.Holds (table + (i + 1) + n - 1)
      · rw [if_pos hlast, if_pos (hiff.mp hlast)]
      · rw [if_neg hlast, if_neg (fun h => hlast (hiff.mpr h))]
    · rw [if_neg hh, err_bind, if_neg]
      rintro (h | h)
      · omega
      · exact hh (h.mono (by omega))

/-! ## The specification -/

/-- `⌈n / d⌉`. -/
def ceilDiv (n d : Nat) : Nat := (n + d - 1) / d

namespace Superblock

/-- The number of block groups: they cover the blocks from `first_data_block`
on. -/
def groups (sb : Superblock) : Nat :=
  ceilDiv (sb.blocksCount.toNat - sb.firstDataBlock.toNat) sb.blocksPerGroup.toNat

end Superblock

/-- An image laid out by the ext2 specification, without a journal. -/
structure SpecLayout (img : Image) : Prop where
  sized : img.Sized
  magic : leAt img.data (1024 + 56) 2 = 0xEF53
  log : 1024 * 2 ^ img.superblock.logBlockSize.toNat = img.blockSize
  -- block 0 of a volume with 1 KiB blocks is the boot block
  first : img.superblock.firstDataBlock.toNat = if img.blockSize = 1024 then 1 else 0
  perGroup : 0 < img.superblock.blocksPerGroup.toNat
  some : img.superblock.firstDataBlock.toNat < img.superblock.blocksCount.toNat
  whole : img.superblock.blocksCount.toNat * img.blockSize ≤ img.data.length
  table : img.superblock.firstDataBlock.toNat + 1
    + ceilDiv img.superblock.groups (img.blockSize / 32) ≤ img.superblock.blocksCount.toNat
  plain : (leAt img.data (1024 + 92) 4).testBit 2 = false

/-- The descriptor table as the specification places it. -/
def Image.groupTable (img : Image) : List GroupDesc :=
  img.descriptors (img.superblock.firstDataBlock.toNat + 1) img.superblock.groups

/-- What `mount` needs to find that table. -/
structure Locatable (img : Image) : Prop where
  -- the two sums of the roundings fit 32 bits
  blockSum : img.superblock.blocksCount.toNat + img.superblock.blocksPerGroup.toNat < 2 ^ 32
  groupSum : img.superblock.groups + img.blockSize / 32 < 2 ^ 32
  -- behind a boot block, the last group is not full
  boot : img.blockSize = 1024 →
    ¬ img.superblock.blocksPerGroup.toNat ∣ img.superblock.blocksCount.toNat - 1
  -- without one, the blocks from 2 on happen to hold a copy of the table
  copy : img.blockSize ≠ 1024 →
    img.Holds (1 + ceilDiv img.superblock.groups (img.blockSize / 32)) ∧
      img.descriptors 2 img.superblock.groups = img.descriptors 1 img.superblock.groups

/-! ## Roundings -/

/-- Rounding up notices one more element exactly when the groups were full. -/
lemma ceilDiv_succ_eq_iff {m d : Nat} (hd : 0 < d) :
    ceilDiv (m + 1) d = ceilDiv m d ↔ ¬ d ∣ m := by
  have hup : ceilDiv (m + 1) d = m / d + 1 := by
    rw [ceilDiv, show m + 1 + d - 1 = m + d by omega, add_div_right m hd]
  have hsplit : m + d - 1 = (m % d + d - 1) + d * (m / d) := by
    have := mod_add_div m d
    omega
  have hdown : ceilDiv m d = (m % d + d - 1) / d + m / d := by
    rw [ceilDiv, hsplit, add_mul_div_left _ _ hd]
  rcases Nat.eq_zero_or_pos (m % d) with h0 | h0
  · have hzero : (m % d + d - 1) / d = 0 := div_eq_of_lt (by omega)
    omega
  · have hlt := mod_lt m hd
    have hzero : (m % d - 1) / d = 0 := div_eq_of_lt (by omega)
    have hone : (m % d + d - 1) / d = 1 := by
      rw [show m % d + d - 1 = (m % d - 1) + d by omega, add_div_right _ hd, hzero]
    omega

lemma le_ceilDiv_mul {n d : Nat} (hd : 0 < d) : n ≤ ceilDiv n d * d := by
  have := div_add_mod (n + d - 1) d
  have hlt := mod_lt (n + d - 1) hd
  rw [ceilDiv, mul_comm]
  omega

lemma ceilDiv_mul_le (n d : Nat) : ceilDiv n d * d ≤ n + d - 1 := div_mul_le_self _ _

lemma ceilDiv_pos {n d : Nat} (hn : 0 < n) (hd : 0 < d) : 0 < ceilDiv n d :=
  div_pos (by omega) hd

/-! ## The result -/

/-- The groups as `num_groups` counts them. -/
def Superblock.countedGroups (sb : Superblock) : Nat :=
  ceilDiv sb.blocksCount.toNat sb.blocksPerGroup.toNat

lemma Image.Sized.rows (h : img.Sized) : 0 < img.blockSize / 32 := by
  rcases h with h | h | h <;> rw [h] <;> decide

namespace SpecLayout

section

variable (h : SpecLayout img)
include h

lemma blockSize_eq : img.superblock.blockSize = .ok img.blockSize := by
  have hle := h.sized.le
  have hlog : img.superblock.logBlockSize.toNat < 32 := by
    refine Nat.lt_of_not_le fun hge => ?_
    have hpow : 2 ^ 32 ≤ 2 ^ img.superblock.logBlockSize.toNat :=
      Nat.pow_le_pow_right (by omega) hge
    have := h.log
    omega
  rw [blockSize, if_pos hlog, h.log, mod_eq_of_lt (by omega)]

/-- Block 2 is where the driver looks, whatever the block size. -/
lemma bgdtBlock_eq : img.superblock.bgdtBlock = .ok 2 := by
  rw [bgdtBlock, h.first]
  split <;> rfl

/-- The block of the superblock is in the image. -/
lemma holds_superblock : img.Holds (1024 / img.blockSize) := by
  have hwhole := h.whole
  have hsome := h.some
  have htable := h.table
  have hpos := ceilDiv_pos (ceilDiv_pos (Nat.sub_pos_of_lt hsome) h.perGroup) h.sized.rows
  have hblocks : 2 * img.blockSize ≤ img.superblock.blocksCount.toNat * img.blockSize :=
    mul_le_mul_right _ (by rw [groups] at htable; omega)
  show 1024 / img.blockSize * img.blockSize + img.blockSize ≤ img.data.length
  have hle : 1024 / img.blockSize ≤ 1 :=
    Nat.div_le_of_le_mul (by have := h.sized; rcases this with hs | hs | hs <;> omega)
  have hmul : 1024 / img.blockSize * img.blockSize ≤ 1 * img.blockSize := Nat.mul_le_mul_right _ hle
  omega

lemma countedGroups_pos : 0 < img.superblock.countedGroups :=
  ceilDiv_pos (by have := h.some; omega) h.perGroup

/-- The table loop of `mount`: it collects a whole table from block 2 on. -/
lemma collect (hsum : img.superblock.countedGroups + img.blockSize / 32 < 2 ^ 32) :
    (do
      let bgdt ← readGroups img img.blockSize 2 (img.blockSize / 32) img.superblock.countedGroups
        (ceilDiv img.superblock.countedGroups (img.blockSize / 32)) 0 []
      pure ({ source := img, sb := img.superblock, bgdt := bgdt } : Ext2Fs))
    = if img.Holds (1 + ceilDiv img.superblock.countedGroups (img.blockSize / 32)) then
        .ok { source := img, sb := img.superblock,
              bgdt := img.descriptors 2 img.superblock.countedGroups }
      else .err "read past end" := by
  have hrows := h.sized.rows
  have hpos := ceilDiv_pos h.countedGroups_pos hrows
  have hup := le_ceilDiv_mul (n := img.superblock.countedGroups) hrows
  have hdown := ceilDiv_mul_le img.superblock.countedGroups (img.blockSize / 32)
  generalize ceilDiv img.superblock.countedGroups (img.blockSize / 32) = n at hpos hup hdown ⊢
  have h32 : 32 ≤ img.blockSize / 32 := by
    rcases h.sized with hs | hs | hs <;> rw [hs] <;> decide
  have hn : n * 32 ≤ n * (img.blockSize / 32) := Nat.mul_le_mul_left _ h32
  rw [readGroups_eq h.sized n 0 [] (by omega) (by rw [Nat.zero_add]; omega), Nat.zero_mul,
    Nat.sub_zero, Nat.min_eq_right hup, nil_append, ← range_eq_range']
  rw [show 2 + 0 + n - 1 = 1 + n by omega]
  by_cases hh : img.Holds (1 + n)
  · rw [if_pos (.inr hh), if_pos hh, ok_bind, pure_eq]
    rfl
  · rw [if_neg (by rintro (hz | hz); · omega
                   · exact hh hz), if_neg hh, err_bind]

/-- `mount` on a volume of the specification, step by step. -/
lemma mount_eq :
    mount img =
      if img.superblock.blocksCount.toNat + img.superblock.blocksPerGroup.toNat < 2 ^ 32 ∧
          img.superblock.countedGroups + img.blockSize / 32 < 2 ^ 32 then
        if img.Holds (1 + ceilDiv img.superblock.countedGroups (img.blockSize / 32)) then
          .ok { source := img, sb := img.superblock,
                bgdt := img.descriptors 2 img.superblock.countedGroups }
        else .err "read past end"
      else .panic := by
  have hsb := h.holds_superblock
  have hrows := h.sized.rows
  have hlen := superblock_length h.sized hsb
  have hparse : parse (slice img.data 1024 1024) = .ok img.superblock := by
    rw [parse, if_neg (by omega), leAt_slice (by omega), if_neg (by rw [h.magic]; simp)]
    rfl
  rw [mount, maybeReplayJournal_none h.sized hsb h.plain]
  show mountImage img = _
  rw [mountImage, superblockBytes_eq h.sized, if_pos hsb]
  simp only [ok_bind, hparse, h.blockSize_eq, h.bgdtBlock_eq, ne_eq, not_true_eq_false, if_false]
  rw [numGroups]
  by_cases h1 : img.superblock.blocksCount.toNat + img.superblock.blocksPerGroup.toNat < 2 ^ 32
  · have hper := h.perGroup
    rw [uadd_of_lt h1, ok_bind, usub_of_le (by omega), ok_bind, udiv_of_ne (by omega), ok_bind]
    rw [show (img.superblock.blocksCount.toNat + img.superblock.blocksPerGroup.toNat - 1)
        / img.superblock.blocksPerGroup.toNat = img.superblock.countedGroups from rfl]
    by_cases h2 : img.superblock.countedGroups + img.blockSize / 32 < 2 ^ 32
    · rw [uadd_of_lt h2, ok_bind, usub_of_le (by omega), ok_bind, udiv_of_ne (by omega), ok_bind,
        if_pos ⟨h1, h2⟩]
      exact h.collect h2
    · rw [uadd, if_neg h2, if_neg (fun hc => h2 hc.2)]
      rfl
  · rw [uadd, if_neg h1, if_neg (fun hc => h1 hc.1)]
    rfl

end

end SpecLayout

/-- On a volume of the specification `mount` returns the descriptor table
exactly when the volume is `Locatable`. -/
theorem mount_groups_iff {img : Image} (h : SpecLayout img) :
    (∃ fs, mount img = .ok fs ∧ fs.bgdt = img.groupTable) ↔ Locatable img := by
  have hcount : img.blockSize ≠ 1024 → img.superblock.countedGroups = img.superblock.groups := by
    intro hbs
    rw [countedGroups, groups, h.first, if_neg hbs, Nat.sub_zero]
  have hround : img.blockSize = 1024 →
      (img.superblock.countedGroups = img.superblock.groups ↔
        ¬ img.superblock.blocksPerGroup.toNat ∣ img.superblock.blocksCount.toNat - 1) := by
    intro hbs
    have hsome := h.some
    rw [h.first, if_pos hbs] at hsome
    rw [← ceilDiv_succ_eq_iff h.perGroup, countedGroups, groups, h.first,
      if_pos hbs, Nat.sub_add_cancel (by omega)]
  rw [h.mount_eq]
  constructor
  · rintro ⟨fs, hfs, hb⟩
    split at hfs
    next hsum =>
      split at hfs
      next hholds =>
        cases hfs
        -- the table has as many rows as there are groups
        have hgroups : img.superblock.countedGroups = img.superblock.groups := by
          have := congrArg length hb
          simpa [Image.groupTable, Image.descriptors] using this
        rw [hgroups] at hsum hholds hb
        refine ⟨hsum.1, hsum.2, fun hbs => (hround hbs).mp hgroups, fun hbs => ⟨hholds, ?_⟩⟩
        rw [Image.groupTable, h.first, if_neg hbs] at hb
        exact hb
      next => cases hfs
    next => cases hfs
  · intro hl
    have hgroups : img.superblock.countedGroups = img.superblock.groups := by
      by_cases hbs : img.blockSize = 1024
      · exact (hround hbs).mpr (hl.boot hbs)
      · exact hcount hbs
    have hfirst := h.first
    rw [hgroups, if_pos ⟨hl.blockSum, hl.groupSum⟩]
    by_cases hbs : img.blockSize = 1024
    · rw [if_pos hbs] at hfirst
      have hholds : img.Holds (1 + ceilDiv img.superblock.groups (img.blockSize / 32)) := by
        have htable := h.table
        have hlast : img.Holds (img.superblock.blocksCount.toNat - 1) := by
          show _ * _ + _ ≤ _
          rw [← succ_mul, show (img.superblock.blocksCount.toNat - 1).succ
            = img.superblock.blocksCount.toNat by omega]
          exact h.whole
        exact hlast.mono (by omega)
      refine ⟨_, if_pos hholds, ?_⟩
      rw [Image.groupTable, hfirst]
    · rw [if_neg hbs] at hfirst
      obtain ⟨hholds, hcopy⟩ := hl.copy hbs
      refine ⟨_, if_pos hholds, ?_⟩
      rw [Image.groupTable, hfirst]
      exact hcopy

/-- The bytes of a revision 0 superblock. -/
def bareSuperblock (blocks freeBlocks freeInodes first log perGroup inodes : Nat) : List UInt8 :=
  padTo 1024 ([inodes, blocks, 0, freeBlocks, freeInodes, first, log, log, perGroup, perGroup,
    inodes, 0, 0, 0].flatMap (leBytes 4) ++ leBytes 2 0xEF53)

/-- The bytes of a group descriptor. -/
def bareDescriptor (blockBitmap inodeBitmap inodeTable freeBlocks freeInodes : Nat) : List UInt8 :=
  leBytes 4 blockBitmap ++ leBytes 4 inodeBitmap ++ leBytes 4 inodeTable ++ leBytes 2 freeBlocks
    ++ leBytes 2 freeInodes

/-- Three blocks of 1 KiB in one group that is not full. -/
@[irreducible] def narrowImage : Image where
  blockSize := 1024
  data := zeros 1024 ++ (bareSuperblock 3 0 0 1 0 8192 16 ++ padTo 1024 (bareDescriptor 1 1 1 0 0))

lemma narrowImage_layout : SpecLayout narrowImage := by
  constructor <;> decide +kernel

/-- Blocks of 1 KiB. -/
theorem mount_groups_narrow :
    SpecLayout narrowImage ∧ ∃ fs, mount narrowImage = .ok fs ∧ fs.bgdt = narrowImage.groupTable :=
  ⟨narrowImage_layout, (mount_groups_iff narrowImage_layout).mpr
    ⟨by decide +kernel, by decide +kernel, fun _ => by decide +kernel,
      fun hne => absurd (by decide +kernel : narrowImage.blockSize = 1024) hne⟩⟩

/-- Three blocks of 2 KiB: the superblock lies in block 0 and the descriptor of
the only group at the start of block 1. -/
@[irreducible] def wideImage : Image where
  blockSize := 2048
  data := zeros 1024 ++ (bareSuperblock 3 0 0 0 1 16384 16
    ++ (padTo 2048 (bareDescriptor 2 2 2 0 0) ++ zeros 2048))

lemma wideImage_layout : SpecLayout wideImage := by
  constructor <;> decide +kernel

/-- The driver mounts it with the zeros of block 2 for its group descriptor. -/
theorem mount_wide_misses_table :
    SpecLayout wideImage ∧ ¬ ∃ fs, mount wideImage = .ok fs ∧ fs.bgdt = wideImage.groupTable := by
  refine ⟨wideImage_layout, ?_⟩
  rintro ⟨fs, hfs, hb⟩
  have hrun : (mount wideImage >>= fun fs =>
      if fs.bgdt = wideImage.groupTable then .ok () else .err "") = .err "" := by decide +kernel
  rw [hfs, Outcome.ok_bind, if_pos hb] at hrun
  cases hrun

end RustOs.Fs.Ext2
