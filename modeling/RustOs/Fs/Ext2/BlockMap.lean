import Mathlib.Data.List.GetD
import RustOs.Fs.Ext2.Mount
import RustOs.Lib.IndexTree

/-!
# Reading through the block map

`blockMap` is the block map of ext2: 12 direct pointers, then a tree of depth
1, 2 and 3. `read_inode_data` appends blocks to its output in the order in
which it meets them, and `append_indirect` returns at once when the pointer it
is given is null. A hole of a whole index block is therefore not filled with
zeros: everything behind it moves forward, and a file that ends inside it comes
out short.

* `readInodeData_eq`: what is read is what a plain loop over the visited leaf
  pointers reads.
* `appendEach_bytes`: such a loop puts byte `i` of its output where pointer
  `i / block_size` of the list says.
* `readInodeData_iff`: the read follows the block map exactly when no index
  pointer in front of the end of the file is null, or the blocks that moved
  forward happen to hold the bytes they stand for.
-/

namespace RustOs.Fs.Ext2

open Lib Outcome Nat UInt32 IndexTree List Function

/-! ## The block size of a mounted image -/

/-- What `mount` has checked about the block size. -/
structure Ext2Fs.Framed (fs : Ext2Fs) : Prop where
  blockSize : fs.sb.blockSize = .ok fs.source.blockSize
  power : ∃ k ≤ 21, fs.source.blockSize = 1024 * 2 ^ k

/-- A block size that a superblock can state is a power of two from 1 KiB on,
or the zero left when the shift has moved the bit out. -/
lemma Superblock.blockSize_cases {sb : Superblock} {bs : Nat} (h : sb.blockSize = .ok bs) :
    bs = 0 ∨ ∃ k ≤ 21, bs = 1024 * 2 ^ k := by
  rw [Superblock.blockSize] at h
  split at h
  next hlt =>
    cases h
    rcases lt_or_ge 21 sb.logBlockSize.toNat with hk | hk
    · left
      have hpow : 1024 * 2 ^ sb.logBlockSize.toNat
          = 2 ^ 32 * 2 ^ (sb.logBlockSize.toNat - 22) := by
        rw [show (1024 : Nat) = 2 ^ 10 from rfl, ← pow_add, ← pow_add]
        congr 1
        omega
      rw [hpow, mul_mod_right]
    · right
      refine ⟨_, hk, Nat.mod_eq_of_lt ?_⟩
      have hpow : 2 ^ sb.logBlockSize.toNat ≤ 2 ^ 21 := Nat.pow_le_pow_right (by omega) hk
      omega
  next => cases h

/-- Mounting keeps the image and checks its block size. -/
lemma mountImage_framed {img : Image} {fs : Ext2Fs} (h : mountImage img = .ok fs) :
    fs.source = img ∧ fs.Framed := by
  obtain ⟨sbBytes, hbytes, h⟩ := bind_eq_ok.mp h
  obtain ⟨sb, -, h⟩ := bind_eq_ok.mp h
  obtain ⟨bs, hbs, h⟩ := bind_eq_ok.mp h
  split at h
  next => cases h
  next heq =>
    have heq : bs = img.blockSize := Decidable.not_not.mp heq
    obtain ⟨groups, -, h⟩ := bind_eq_ok.mp h
    obtain ⟨bgdtBlock, -, h⟩ := bind_eq_ok.mp h
    obtain ⟨top, -, h⟩ := bind_eq_ok.mp h
    obtain ⟨top', -, h⟩ := bind_eq_ok.mp h
    obtain ⟨n, -, h⟩ := bind_eq_ok.mp h
    obtain ⟨bgdt, -, h⟩ := bind_eq_ok.mp h
    cases h
    have hne : img.blockSize ≠ 0 := by
      intro h0
      rw [superblockBytes, h0] at hbytes
      cases hbytes
    refine ⟨rfl, by rw [hbs, heq], ?_⟩
    rcases Superblock.blockSize_cases hbs with h0 | hk
    · exact absurd (heq ▸ h0) hne
    · exact heq ▸ hk

lemma mount_framed {img : Image} {fs : Ext2Fs} (h : mount img = .ok fs) : fs.Framed := by
  rw [mount] at h
  split at h
  next => exact (mountImage_framed h).2
  next => exact (mountImage_framed h).2
  next => cases h
  next => cases h

namespace Ext2Fs

variable {fs : Ext2Fs}

variable {total : Nat} {ino : Inode} {f : Nat → List UInt8 → Outcome String (List UInt8)}

lemma Framed.le (h : fs.Framed) : 1024 ≤ fs.source.blockSize := by
  obtain ⟨k, -, hk⟩ := h.power
  have := Nat.two_pow_pos k
  omega

lemma Framed.lt (h : fs.Framed) : fs.source.blockSize < 2 ^ 32 := by
  obtain ⟨k, hle, hk⟩ := h.power
  have hpow : 2 ^ k ≤ 2 ^ 21 := Nat.pow_le_pow_right (by omega) hle
  omega

/-- A pointer of 32 bits reads its block, or fails past the end of the image. -/
lemma Framed.readBlock (h : fs.Framed) {b : Nat} (hb : b < 2 ^ 32) :
    fs.readBlock b fs.source.blockSize
      = if fs.source.Holds b then .ok (fs.source.block b) else .err "read past end" := by
  refine Image.readBlock_eq ?_ (zeros_length _)
  have hlt := h.lt
  have hmul : b * fs.source.blockSize ≤ (2 ^ 32 - 1) * (2 ^ 32 - 1) :=
    Nat.mul_le_mul (by omega) (by omega)
  omega

/-! ## The specification -/

variable (fs : Ext2Fs)

/-- The number of pointers in an index block. -/
def fanout : Nat := fs.source.blockSize / 4

/-- Pointer `i` of the index block `b`. -/
def pointer (b i : Nat) : Nat := leAt (fs.source.block b) (i * 4) 4

/-- The block map of ext2: the block of the image that holds block `j` of the
file, 0 in a hole. -/
def blockMap (ino : Inode) (j : Nat) : Nat :=
  let k := fs.fanout
  if h : j < 12 then (ino.direct j h).toNat
  else if j < 12 + k then IndexTree.resolve fs.pointer k 1 ino.single.toNat (j - 12)
  else if j < 12 + k + k ^ 2 then
    IndexTree.resolve fs.pointer k 2 ino.double.toNat (j - (12 + k))
  else IndexTree.resolve fs.pointer k 3 ino.triple.toNat (j - (12 + k + k ^ 2))

/-- The index pointers on the way to block `j` of the file. -/
def indexPath (ino : Inode) (j : Nat) : List Nat :=
  let k := fs.fanout
  if j < 12 then []
  else if j < 12 + k then IndexTree.path fs.pointer k 1 ino.single.toNat (j - 12)
  else if j < 12 + k + k ^ 2 then
    IndexTree.path fs.pointer k 2 ino.double.toNat (j - (12 + k))
  else IndexTree.path fs.pointer k 3 ino.triple.toNat (j - (12 + k + k ^ 2))

/-- Byte `r` of the block a leaf pointer stands for. -/
def leafByte (b r : Nat) : UInt8 := if b = 0 then 0 else (fs.source.block b).getD r 0

/-- Byte `i` of the file. -/
def fileByte (ino : Inode) (i : Nat) : UInt8 :=
  fs.leafByte (fs.blockMap ino (i / fs.source.blockSize)) (i % fs.source.blockSize)

/-- `out` is the content of the file. -/
def IsContent (ino : Inode) (out : List UInt8) : Prop :=
  out.length = ino.size.toNat ∧ ∀ i < ino.size.toNat, out.getD i 0 = fs.fileByte ino i

/-- No index pointer on the way to a block of the file is null. -/
def Unbroken (ino : Inode) : Prop :=
  ∀ j, j * fs.source.blockSize < ino.size.toNat → 0 ∉ fs.indexPath ino j

/-- The leaf pointers in the order in which the driver meets them. -/
def metPointers (ino : Inode) : List Nat :=
  (ino.block.toList.take 12).map (·.toNat)
    ++ (IndexTree.visited fs.pointer fs.fanout 1 ino.single.toNat
      ++ (IndexTree.visited fs.pointer fs.fanout 2 ino.double.toNat
        ++ IndexTree.visited fs.pointer fs.fanout 3 ino.triple.toNat))

/-- The blocks that moved forward over a hole fill the file, and each holds the
bytes of the block it stands for. -/
def Coincident (ino : Inode) : Prop :=
  ino.size.toNat ≤ (fs.metPointers ino).length * fs.source.blockSize ∧
    ∀ i < ino.size.toNat,
      fs.leafByte ((fs.metPointers ino).getD (i / fs.source.blockSize) 0)
        (i % fs.source.blockSize) = fs.fileByte ino i

variable {fs}

/-! ## A loop over leaf pointers -/

lemma appendEach_full
    {ps : List Nat} {out : List UInt8} (h : total ≤ out.length) :
    appendEach total f ps out = .ok out := by
  cases ps with
  | nil => rfl
  | cons p ps => rw [appendEach, if_pos h]

lemma appendEach_append
    (ps qs : List Nat) (out : List UInt8) :
    appendEach total f (ps ++ qs) out = appendEach total f ps out >>= appendEach total f qs := by
  induction ps generalizing out with
  | nil => rfl
  | cons p ps ih =>
    rw [cons_append, appendEach, appendEach]
    split
    next h => rw [ok_bind, appendEach_full h]
    next h =>
      cases hf : f p out with
      | ok out₁ => rw [ok_bind, ok_bind, ih]
      | _ => rfl

/-- One step of the loop. -/
lemma appendBlock_ok (hf : fs.Framed) {b : Nat} (hb : b < 2 ^ 32) {out out' : List UInt8}
    (h : fs.appendBlock fs.source.blockSize total b out = .ok out') :
    ∃ blk : List UInt8, blk.length = fs.source.blockSize ∧
      (∀ r < fs.source.blockSize, blk.getD r 0 = fs.leafByte b r) ∧
      out.length ≤ total ∧ out' = out ++ blk.take (total - out.length) := by
  obtain ⟨blk, hblk, h⟩ := bind_eq_ok.mp h
  obtain ⟨room, hroom, h⟩ := bind_eq_ok.mp h
  have hread : blk.length = fs.source.blockSize ∧
      ∀ r < fs.source.blockSize, blk.getD r 0 = fs.leafByte b r := by
    by_cases h0 : b = 0
    · rw [if_pos h0] at hblk
      cases hblk
      refine ⟨zeros_length _, fun r hr => ?_⟩
      rw [leafByte, if_pos h0, zeros, getD_eq_getElem?_getD, getElem?_replicate, if_pos hr]
      rfl
    · rw [if_neg h0, hf.readBlock hb] at hblk
      split at hblk
      next hholds =>
        cases hblk
        refine ⟨Image.block_length hholds, fun r _ => ?_⟩
        rw [leafByte, if_neg h0]
      next => cases hblk
  rw [usub] at hroom
  split at hroom
  next hle =>
    cases hroom
    cases h
    refine ⟨blk, hread.1, hread.2, hle, ?_⟩
    rw [← hread.1, ← take_eq_take_min]
  next => cases hroom

/-- The loop puts byte `i` behind its start where pointer `i / block_size` of
the list says. -/
lemma appendEach_bytes (hf : fs.Framed) (ps : List Nat)
    (hps : ∀ p ∈ ps, p < 2 ^ 32) :
    ∀ {out out' : List UInt8}, out.length ≤ total →
      appendEach total (fs.appendBlock fs.source.blockSize total) ps out = .ok out' →
      out'.length = min total (out.length + ps.length * fs.source.blockSize) ∧
      (∀ i < out.length, out'.getD i 0 = out.getD i 0) ∧
      ∀ i, out.length ≤ i → i < out'.length →
        out'.getD i 0 = fs.leafByte (ps.getD ((i - out.length) / fs.source.blockSize) 0)
          ((i - out.length) % fs.source.blockSize) := by
  have hbs := hf.le
  induction ps with
  | nil =>
    intro out out' hle h
    cases h
    refine ⟨by simp; omega, fun i _ => rfl, fun i h1 h2 => absurd h2 (by omega)⟩
  | cons p ps ih =>
    intro out out' hle h
    rw [appendEach] at h
    split at h
    next hfull =>
      cases h
      refine ⟨by omega, fun i _ => rfl, fun i h1 h2 => absurd h2 (by omega)⟩
    next hroom =>
      obtain ⟨out₁, hstep, h⟩ := bind_eq_ok.mp h
      obtain ⟨blk, hblk, hbytes, -, rfl⟩ := appendBlock_ok hf (hps p mem_cons_self) hstep
      have hlen₁ : (out ++ blk.take (total - out.length)).length
          = min total (out.length + fs.source.blockSize) := by
        rw [length_append, length_take, hblk]
        omega
      obtain ⟨hlen, hkeep, hnew⟩ := ih (fun q hq => hps q (mem_cons_of_mem _ hq)) (by omega) h
      rw [hlen₁] at hlen hkeep hnew
      refine ⟨by rw [hlen, length_cons, succ_mul]; omega, fun i hi => ?_, fun i h1 h2 => ?_⟩
      · rw [hkeep i (by omega), getD_append _ _ _ _ hi]
      · rcases lt_or_ge i (min total (out.length + fs.source.blockSize)) with hi | hi
        · -- inside the block just appended
          have hr : i - out.length < fs.source.blockSize := by omega
          rw [hkeep i hi, getD_append_right _ _ _ _ h1, div_eq_of_lt hr,
            mod_eq_of_lt hr, getD_cons_zero, ← hbytes _ hr]
          simp only [getD_eq_getElem?_getD, getElem?_take]
          rw [if_pos (by omega)]
        · -- behind it: the rest of the list, one block on
          have hmin : min total (out.length + fs.source.blockSize)
              = out.length + fs.source.blockSize := by omega
          rw [hmin] at hi hnew
          have hsub : i - out.length
              = (i - (out.length + fs.source.blockSize)) + fs.source.blockSize := by omega
          rw [hnew i hi h2, hsub, add_div_right _ (by omega), add_mod_right, getD_cons_succ]

/-! ## The traversal is such a loop -/

lemma pointer_lt (fs : Ext2Fs) (b i : Nat) : fs.pointer b i < 2 ^ 32 := leAt_lt _ _ _

/-- A loop over subtrees is a loop over their leaves. -/
lemma appendEach_flat {f g : Nat → List UInt8 → Outcome String (List UInt8)}
    {leaves : Nat → List Nat} (ps : List Nat)
    (hstep : ∀ p ∈ ps, ∀ out out', f p out = .ok out' →
      appendEach total g (leaves p) out = .ok out')
    {out out' : List UInt8} (h : appendEach total f ps out = .ok out') :
    appendEach total g (ps.flatMap leaves) out = .ok out' := by
  induction ps generalizing out with
  | nil => exact h
  | cons p ps ih =>
    rw [appendEach] at h
    split at h
    next hfull =>
      cases h
      exact appendEach_full hfull
    next =>
      obtain ⟨out₁, hf, h⟩ := bind_eq_ok.mp h
      rw [flatMap_cons, appendEach_append, hstep p mem_cons_self _ _ hf, ok_bind]
      exact ih (fun q hq => hstep q (mem_cons_of_mem _ hq)) h

/-- `append_indirect` reads the leaves it visits. -/
lemma appendIndirect_flat (hf : fs.Framed) (d : Nat) :
    ∀ {b : Nat} {out out' : List UInt8}, b < 2 ^ 32 →
      fs.appendIndirect fs.source.blockSize total d b out = .ok out' →
      appendEach total (fs.appendBlock fs.source.blockSize total)
        (IndexTree.visited fs.pointer fs.fanout d b) out = .ok out' := by
  induction d with
  | zero =>
    intro b out out' hb h
    rw [appendIndirect] at h
    rw [IndexTree.visited, appendEach]
    split
    next hfull =>
      obtain ⟨blk, -, -, hle, rfl⟩ := appendBlock_ok hf hb h
      rw [Nat.sub_eq_zero_of_le hfull, take_zero, append_nil]
    next => rw [h]; rfl
  | succ d ih =>
    intro b out out' hb h
    rw [appendIndirect] at h
    split at h
    next hstop =>
      cases h
      rcases hstop with h0 | hfull
      · rw [IndexTree.visited, if_pos h0]
        rfl
      · exact appendEach_full hfull
    next hgo =>
      obtain ⟨blk, hblk, h⟩ := bind_eq_ok.mp h
      rw [hf.readBlock hb] at hblk
      split at hblk
      next =>
        cases hblk
        have hbound : ∀ p ∈ (range fs.fanout).map (fs.pointer b), p < 2 ^ 32 := by
          intro p hp
          obtain ⟨i, -, rfl⟩ := mem_map.mp hp
          exact pointer_lt fs b i
        have hflat := appendEach_flat _ (fun p hp _ _ hrun => ih (hbound p hp) hrun) h
        rw [IndexTree.visited, if_neg (fun h0 => hgo (.inl h0))]
        rwa [flatMap_map] at hflat
      next => cases hblk

lemma metPointers_lt (fs : Ext2Fs) (ino : Inode) : ∀ p ∈ fs.metPointers ino, p < 2 ^ 32 := by
  intro p hp
  simp only [metPointers, mem_append, mem_map] at hp
  rcases hp with ⟨w, -, rfl⟩ | hp | hp | hp
  · exact w.toNat_lt
  · exact lt_of_mem_visited (pointer_lt fs) _ _ _ (toNat_lt _) hp
  · exact lt_of_mem_visited (pointer_lt fs) _ _ _ (toNat_lt _) hp
  · exact lt_of_mem_visited (pointer_lt fs) _ _ _ (toNat_lt _) hp

/-- What is read is what a plain loop over the visited leaf pointers reads. -/
lemma readInodeData_eq (hf : fs.Framed) {out : List UInt8}
    (hext : ino.hasExtents = false) (h : fs.readInodeData ino = .ok out) :
    appendEach ino.size.toNat (fs.appendBlock fs.source.blockSize ino.size.toNat)
      (fs.metPointers ino) [] = .ok out := by
  rw [readInodeData, hext, hf.blockSize] at h
  simp only [ok_bind] at h
  obtain ⟨out₀, h₀, h⟩ := bind_eq_ok.mp h
  obtain ⟨out₁, h₁, h⟩ := bind_eq_ok.mp h
  obtain ⟨out₂, h₂, h⟩ := bind_eq_ok.mp h
  obtain ⟨out₃, h₃, h⟩ := bind_eq_ok.mp h
  cases h
  have hall : appendEach ino.size.toNat (fs.appendBlock fs.source.blockSize ino.size.toNat)
      (fs.metPointers ino) [] = .ok out₃ := by
    rw [metPointers, appendEach_append, h₀, ok_bind, appendEach_append,
      appendIndirect_flat hf 1 (toNat_lt _) h₁, ok_bind, appendEach_append,
      appendIndirect_flat hf 2 (toNat_lt _) h₂, ok_bind]
    exact appendIndirect_flat hf 3 (toNat_lt _) h₃
  have hlen := (appendEach_bytes hf _ (metPointers_lt fs ino) (zero_le _) hall).1
  rw [take_of_length_le (by omega)]
  exact hall

/-! ## The block map as a list -/

/-- The block map lists the direct pointers and the places of the three
trees. -/
lemma blockMap_slots (fs : Ext2Fs) (ino : Inode) :
    (range (12 + (fs.fanout + (fs.fanout ^ 2 + fs.fanout ^ 3)))).map (fs.blockMap ino)
      = (ino.block.toList.take 12).map (·.toNat)
        ++ (IndexTree.slots fs.pointer fs.fanout 1 ino.single.toNat
          ++ (IndexTree.slots fs.pointer fs.fanout 2 ino.double.toNat
            ++ IndexTree.slots fs.pointer fs.fanout 3 ino.triple.toNat)) := by
  rw [range_add, range_add, range_add]
  simp only [map_append, map_map, IndexTree.slots, pow_one]
  congr 1
  · refine ext_getElem (by simp) fun j h₁ h₂ => ?_
    have hj : j < 12 := by simpa using h₁
    simp [blockMap, hj]
  congr 1
  · refine map_congr_left fun j hj => ?_
    have hj := mem_range.mp hj
    simp only [Function.comp, blockMap]
    rw [dif_neg (by omega), if_pos (by omega), Nat.add_sub_cancel_left]
  congr 1
  · refine map_congr_left fun j hj => ?_
    have hj := mem_range.mp hj
    simp only [comp, blockMap]
    rw [dif_neg (by omega), if_neg (by omega), if_pos (by omega),
      show 12 + (fs.fanout + j) - (12 + fs.fanout) = j by omega]
  · refine map_congr_left fun j hj => ?_
    simp only [comp, blockMap]
    rw [dif_neg (by omega), if_neg (by omega), if_neg (by omega),
      show 12 + (fs.fanout + (fs.fanout ^ 2 + j)) - (12 + fs.fanout + fs.fanout ^ 2) = j by omega]

/-- Up to the end of an unbroken file the driver meets the pointers of the block
map in their places. -/
lemma take_metPointers (hf : fs.Framed) (hun : fs.Unbroken ino) {n : Nat}
    (hn : ∀ j < n, j * fs.source.blockSize < ino.size.toNat) :
    (fs.metPointers ino).take n
      = ((range (12 + (fs.fanout + (fs.fanout ^ 2 + fs.fanout ^ 3)))).map
          (fs.blockMap ino)).take n := by
  have hk : 0 < fs.fanout := div_pos (by have := hf.le; omega) (by omega)
  rw [blockMap_slots, metPointers]
  refine take_append_congr rfl ?_
  rw [length_map, length_take, Vector.length_toList, show min 12 15 = 12 from rfl]
  refine take_append_congr (take_visited hk 1 _ _ fun j hj hlt => ?_) ?_
  · rw [pow_one] at hlt
    have := hun (12 + j) (hn _ (by omega))
    rwa [indexPath, if_neg (by omega), if_pos (by omega), Nat.add_sub_cancel_left] at this
  rw [slots_length, Nat.pow_one]
  refine take_append_congr (take_visited hk 2 _ _ fun j hj hlt => ?_) ?_
  · have := hun (12 + fs.fanout + j) (hn _ (by omega))
    rwa [indexPath, if_neg (by omega), if_neg (by omega), if_pos (by omega),
      Nat.add_sub_cancel_left] at this
  rw [slots_length]
  refine take_visited hk 3 _ _ fun j hj hlt => ?_
  have := hun (12 + fs.fanout + fs.fanout ^ 2 + j) (hn _ (by omega))
  rwa [indexPath, if_neg (by omega), if_neg (by omega), if_neg (by omega),
    Nat.add_sub_cancel_left] at this

/-- A file of 32 bits of size ends inside the triple indirect range. -/
lemma lt_capacity (hf : fs.Framed) {j : Nat}
    (hj : j * fs.source.blockSize < ino.size.toNat) :
    j < 12 + (fs.fanout + (fs.fanout ^ 2 + fs.fanout ^ 3)) := by
  have hsize : ino.size.toNat < 2 ^ 32 := ino.size.toNat_lt
  have hbs := hf.le
  have hmul : j * 1024 ≤ j * fs.source.blockSize := mul_le_mul_left _ hbs
  have hk : 256 ≤ fs.fanout := by rw [fanout]; omega
  have hcube : 256 ^ 3 ≤ fs.fanout ^ 3 := Nat.pow_le_pow_left hk 3
  omega

/-- Without null index pointers nothing moves. -/
lemma coincident_of_unbroken (hf : fs.Framed) (hun : fs.Unbroken ino) : fs.Coincident ino := by
  have hbs := hf.le
  -- block `j` of the file is pointer `j` of the list the driver meets
  have hmet : ∀ j, j * fs.source.blockSize < ino.size.toNat →
      (fs.metPointers ino)[j]? = some (fs.blockMap ino j) := by
    intro j hj
    have htake := take_metPointers hf hun (n := j + 1) fun i hi =>
      lt_of_le_of_lt (mul_le_mul_right _ (le_of_lt_succ hi)) hj
    have hget := congrArg (·[j]?) htake
    simp only [getElem?_take, if_pos (lt_succ_self j), getElem?_map] at hget
    rw [hget, getElem?_range (lt_capacity hf hj)]
    rfl
  constructor
  · rcases Nat.eq_zero_or_pos ino.size.toNat with h0 | hpos
    · omega
    · have hlast := hmet ((ino.size.toNat - 1) / fs.source.blockSize)
        (lt_of_le_of_lt (div_mul_le_self _ _) (by omega))
      obtain ⟨hlt, -⟩ := List.getElem?_eq_some_iff.mp hlast
      have := (div_lt_iff_lt_mul (by omega)).mp hlt
      omega
  · intro i hi
    have hj := hmet (i / fs.source.blockSize) (lt_of_le_of_lt (div_mul_le_self _ _) hi)
    rw [getD_eq_getElem?_getD, hj]
    rfl

end Ext2Fs

/-- For every mounted image and every inode without extents that is read, the
bytes are those of the block map exactly when no index pointer in front of the
end of the file is null, or what moved over the hole coincides with it. -/
theorem readInodeData_iff {img : Image} {fs : Ext2Fs} (hm : mount img = .ok fs) {ino : Inode}
    (hext : ino.hasExtents = false) {out : List UInt8} (h : fs.readInodeData ino = .ok out) :
    fs.IsContent ino out ↔ fs.Unbroken ino ∨ fs.Coincident ino := by
  have hf := mount_framed hm
  obtain ⟨hlen, -, hbytes⟩ := Ext2Fs.appendEach_bytes hf _ (Ext2Fs.metPointers_lt fs ino)
    (Nat.zero_le _) (Ext2Fs.readInodeData_eq hf hext h)
  simp only [length_nil, Nat.zero_le, Nat.sub_zero, true_implies] at hlen hbytes
  have hcontent : fs.IsContent ino out ↔ fs.Coincident ino := by
    constructor
    · rintro ⟨hsize, hval⟩
      refine ⟨by omega, fun i hi => ?_⟩
      rw [← hbytes i (by omega), hval i hi]
    · rintro ⟨hsize, hval⟩
      refine ⟨by omega, fun i hi => ?_⟩
      rw [hbytes i (by omega), hval i hi]
  rw [hcontent]
  exact ⟨.inr, fun hc => hc.elim (Ext2Fs.coincident_of_unbroken hf) id⟩

/-- `narrowImage` as it is mounted. -/
def narrowFs : Ext2Fs where
  source := narrowImage
  sb := narrowImage.superblock
  bgdt := narrowImage.groupTable

lemma mount_narrowImage : mount narrowImage = .ok narrowFs := by decide +kernel

/-- A regular file of `size` bytes without a single block. -/
def sparseInode (size : UInt32) : Inode where
  mode := 0x81A4
  uid := 0
  size := size
  atime := 0
  ctime := 0
  mtime := 0
  dtime := 0
  gid := 0
  linksCount := 1
  blocks := 0
  flags := 0
  osd1 := 0
  block := Vector.replicate 15 0
  generation := 0

/-- The same with an index block. -/
def indexedInode (size single : UInt32) : Inode :=
  { sparseInode size with block := (Vector.replicate 15 0).setIfInBounds 12 single }

namespace Ext2Fs

variable {fs : Ext2Fs}

/-- Holes append zeros. -/
lemma appendEach_holes {bs total : Nat} (k : Nat) : ∀ {out : List UInt8}, out.length ≤ total →
    appendEach total (fs.appendBlock bs total) (replicate k 0) out
      = .ok (out ++ zeros (min (total - out.length) (k * bs))) := by
  induction k with
  | zero =>
    intro out _
    simp [appendEach, zeros]
  | succ k ih =>
    intro out hle
    rw [replicate_succ, appendEach]
    split
    next hfull =>
      rw [Nat.sub_eq_zero_of_le hfull, Nat.zero_min, zeros, replicate_zero, append_nil]
    next hroom =>
      have hstep : fs.appendBlock bs total 0 out
          = .ok (out ++ zeros (min (total - out.length) bs)) := by
        rw [appendBlock, if_pos rfl, ok_bind, usub_of_le hle, ok_bind, pure_eq, zeros,
          take_replicate, min_assoc, min_self]
        rfl
      have hlen : (out ++ zeros (min (total - out.length) bs)).length
          = out.length + min (total - out.length) bs := by
        rw [length_append, zeros_length]
      rw [hstep, ok_bind, ih (by omega), hlen, append_assoc, zeros, zeros, zeros,
        replicate_append_replicate, succ_mul]
      congr 3
      omega

/-- The read of a file with holes for its direct blocks. -/
lemma readInodeData_indexed (hf : fs.Framed) (size single : UInt32) :
    fs.readInodeData (indexedInode size single) =
      fs.appendIndirect fs.source.blockSize size.toNat 1 single.toNat
        (zeros (min size.toNat (12 * fs.source.blockSize))) >>= fun out =>
          .ok (out.take size.toNat) := by
  have hext : (indexedInode size single).hasExtents = false := by
    show ((0 : UInt32) &&& 0x00080000 != 0) = false
    decide
  have hdirect : ((indexedInode size single).block.toList.take 12).map (·.toNat) = replicate 12 0 :=
    rfl
  rw [readInodeData, hext, hf.blockSize]
  simp only [ok_bind]
  rw [hdirect, appendEach_holes 12 (Nat.zero_le _), ok_bind, nil_append, length_nil, Nat.sub_zero]
  -- the other two index pointers are null, so nothing is appended for them
  rfl

/-- A file without a single block reads as zeros, but no further than its
direct blocks reach. -/
lemma readInodeData_sparse (hf : fs.Framed) (size : UInt32) :
    fs.readInodeData (sparseInode size)
      = .ok (zeros (min size.toNat (12 * fs.source.blockSize))) := by
  refine (readInodeData_indexed hf size 0).trans ?_
  show ok (take size.toNat (zeros (min size.toNat (12 * fs.source.blockSize)))) = _
  rw [take_of_length_le (by rw [zeros_length]; omega)]

end Ext2Fs

/-- Block 2 as an index block: its first pointer leads to the superblock, whose first byte
stands behind the holes. -/
theorem indexed_read_within_blocks :
    mount narrowImage = .ok narrowFs ∧ ∃ out,
      narrowFs.readInodeData (indexedInode 12289 2) = .ok out ∧
        narrowFs.IsContent (indexedInode 12289 2) out := by
  have hbs : narrowFs.source.blockSize = 1024 := by decide +kernel
  have hf := mount_framed mount_narrowImage
  have hindex : narrowFs.readBlock 2 1024 = .ok (narrowFs.source.block 2) := by
    rw [← hbs, hf.readBlock (by decide), if_pos (by decide +kernel)]
  have hleaf : narrowFs.readBlock 1 1024 = .ok (narrowFs.source.block 1) := by
    rw [← hbs, hf.readBlock (by decide), if_pos (by decide +kernel)]
  have hfirst : (Ext2Fs.pointers 1024 (narrowFs.source.block 2)).head? = some 1 := by
    decide +kernel
  have hpath : ∀ j < 13, 0 ∉ narrowFs.indexPath (indexedInode 12289 2) j := by decide +kernel
  have hholes : (zeros 12288).length = 12288 := zeros_length _
  have hfull : 12289 ≤ (zeros 12288 ++
      (narrowFs.source.block 1).take (min (12289 - 12288) 1024)).length := by
    have hlen : (narrowFs.source.block 1).length = 1024 := by decide +kernel
    rw [length_append, hholes, length_take, hlen]
    decide
  have happend : narrowFs.appendIndirect 1024 12289 1 2 (zeros 12288) =
      .ok (zeros 12288 ++ (narrowFs.source.block 1).take (min (12289 - 12288) 1024)) := by
    rw [Ext2Fs.appendIndirect, if_neg (by rw [hholes]; decide), hindex, ok_bind,
      ← cons_head?_tail hfirst, Ext2Fs.appendEach, if_neg (by rw [hholes]; decide),
      Ext2Fs.appendIndirect, Ext2Fs.appendBlock, if_neg (by decide), hleaf, ok_bind, hholes,
      usub_of_le (by decide), ok_bind, pure_eq, ok_bind, Ext2Fs.appendEach_full hfull]
  have hread : ∃ out, narrowFs.readInodeData (indexedInode 12289 2) = .ok out := by
    rw [Ext2Fs.readInodeData_indexed hf, hbs, show (12289 : UInt32).toNat = 12289 from rfl,
      show (2 : UInt32).toNat = 2 from rfl, show min 12289 (12 * 1024) = 12288 from rfl, happend]
    exact ⟨_, rfl⟩
  obtain ⟨out, hread⟩ := hread
  refine ⟨mount_narrowImage, out, hread,
    (readInodeData_iff mount_narrowImage (by decide) hread).mpr (.inl fun j hj => ?_)⟩
  have hsize : (indexedInode 12289 2).size.toNat = 12289 := rfl
  rw [hbs, hsize] at hj
  exact hpath j (by omega)

/-- One byte behind the direct blocks lies in the hole of the single indirect
pointer, and the read stops in front of it. -/
theorem index_hole_truncates :
    mount narrowImage = .ok narrowFs ∧ (sparseInode 12289).hasExtents = false ∧
      ∃ out, narrowFs.readInodeData (sparseInode 12289) = .ok out ∧
        ¬ narrowFs.IsContent (sparseInode 12289) out := by
  have hbs : narrowFs.source.blockSize = 1024 := by decide +kernel
  have hsize : (sparseInode 12289).size.toNat = 12289 := rfl
  refine ⟨mount_narrowImage, by decide, _,
    Ext2Fs.readInodeData_sparse (mount_framed mount_narrowImage) 12289, fun hc => ?_⟩
  have hlen := hc.1
  rw [zeros_length, hbs, hsize] at hlen
  exact absurd hlen (by decide)

end RustOs.Fs.Ext2
