import RustOs.Fs.Ext2.BlockMap
import RustOs.Lib.Walk

/-!
# Walking an extent tree

`walk_extent_node` follows index nodes wherever they point. It keeps no record
of the blocks it has been to and does not compare the depth of a node with that
of its parent, so an index node that points back at itself or at an ancestor is
walked for ever.

The walk is the depth-first walk of `Lib.Walk` over the nodes of
`extentShape`, with an output buffer carried along that decides nothing
(`walkExtentNode_void`). The children of a node are blocks of the image, so the
fuel the driver model takes, the number of blocks and two, is enough
(`walk_stable`), and the read of an inode with extents comes back
exactly when its tree is grounded (`readExtentInode_returns`).
-/

namespace RustOs.Fs.Ext2.Ext2Fs

open Lib Outcome Walk Nat List Image

variable {fs : Ext2Fs}

/-- The blocks of an extent that lie in front of the end of the file lie inside
the image; blocks that were never written are not read. -/
def ExtentHeld (fs : Ext2Fs) (total : Nat) (row : List UInt8) : Prop :=
  leAt row 4 2 ≤ 32768 → ∀ i < leAt row 4 2,
    leAt row 0 4 * fs.source.blockSize + i * fs.source.blockSize < total →
      fs.source.Holds (leAt row 6 2 * 2 ^ 32 + leAt row 8 4 + i)

instance (fs : Ext2Fs) (total : Nat) (row : List UInt8) : Decidable (fs.ExtentHeld total row) :=
  inferInstanceAs (Decidable (_ → _))

/-- What an extent node is: an error, a leaf of extents, or an index. -/
def extentShape (fs : Ext2Fs) (total : Nat) (node : List UInt8) : Shape String (List UInt8) :=
  if node.length < 12 then .leaf (.err "ext4: extent node truncated")
  else if leAt node 0 2 ≠ 0xF30A then .leaf (.err "ext4: bad extent magic")
  else if leAt node 6 2 = 0 then
    .leaf (eachOk (fun row => if fs.ExtentHeld total row then .ok () else .err "read past end")
      (extentRows node))
  else .branch ((extentRows node).map fun row =>
    fs.readBlock (indexBlock row) fs.source.blockSize)

/-! ## One extent -/

lemma leAt_two_lt (b : List UInt8) (off : Nat) : leAt b off 2 < 2 ^ 16 := leAt_lt b off 2

lemma leAt_four_lt (b : List UInt8) (off : Nat) : leAt b off 4 < 2 ^ 32 := leAt_lt b off 4

/-- The block loop of an extent that was written. -/
lemma copyExtent_held (hsz : fs.source.Sized) (total phys fileByte : Nat)
    (hphys : phys < 2 ^ 49) (hfile : fileByte < 2 ^ 45) (n : Nat) :
    ∀ (blk : Nat) (out : List UInt8), blk + n ≤ 2 ^ 16 → out.length = total →
      ((∀ i < n, fileByte + (blk + i) * fs.source.blockSize < total →
          fs.source.Holds (phys + (blk + i))) →
        ∃ out', fs.copyExtent fs.source.blockSize total phys fileByte true n blk out = .ok out' ∧
          out'.length = total) ∧
      ((¬ ∀ i < n, fileByte + (blk + i) * fs.source.blockSize < total →
          fs.source.Holds (phys + (blk + i))) →
        fs.copyExtent fs.source.blockSize total phys fileByte true n blk out
          = .err "read past end") := by
  have hbs := hsz.le
  induction n with
  | zero =>
    intro blk out _ hlen
    exact ⟨fun _ => ⟨out, rfl, hlen⟩, fun hno => absurd nofun hno⟩
  | succ n ih =>
    intro blk out hblk hlen
    have hskip : blk * fs.source.blockSize ≤ 2 ^ 16 * 4096 := Nat.mul_le_mul (by omega) hbs
    rw [copyExtent, umul_of_lt (by omega), ok_bind, uadd_of_lt (by omega), ok_bind]
    by_cases hend : total ≤ fileByte + blk * fs.source.blockSize
    · -- the extent reaches behind the end of the file
      rw [if_pos hend]
      refine ⟨fun _ => ⟨out, rfl, hlen⟩, fun hno => absurd (fun i _ hi => ?_) hno⟩
      have : blk * fs.source.blockSize ≤ (blk + i) * fs.source.blockSize :=
        mul_le_mul_right _ (le_add_right _ _)
      omega
    · rw [if_neg hend, uadd_of_lt (by omega), ok_bind]
      simp only [if_true]
      rw [uadd_of_lt (by omega), ok_bind, Ext2Fs.readBlock,
        readBlock_eq (hsz.offset (by omega)) (zeros_length _)]
      have hsplit : (∀ i < n + 1, fileByte + (blk + i) * fs.source.blockSize < total →
            fs.source.Holds (phys + (blk + i))) ↔
          fs.source.Holds (phys + blk) ∧
            ∀ i < n, fileByte + (blk + 1 + i) * fs.source.blockSize < total →
              fs.source.Holds (phys + (blk + 1 + i)) := by
        constructor
        · intro h
          refine ⟨h 0 (by omega) (by simpa using hend), fun i hi hlt => ?_⟩
          rw [show blk + 1 + i = blk + (i + 1) by omega] at hlt ⊢
          exact h (i + 1) (by omega) hlt
        · rintro ⟨h0, hrest⟩ i hi hlt
          cases i with
          | zero => exact h0
          | succ i =>
            rw [show blk + (i + 1) = blk + 1 + i by omega] at hlt ⊢
            exact hrest i (by omega) hlt
      rw [hsplit]
      by_cases hheld : fs.source.Holds (phys + blk)
      · have hblock : (fs.source.block (phys + blk)).length = fs.source.blockSize :=
          block_length hheld
        rw [if_pos hheld, ok_bind, if_neg (by omega)]
        have hlen' : (patch out (fileByte + blk * fs.source.blockSize)
            ((fs.source.block (phys + blk)).take
              (min (fileByte + blk * fs.source.blockSize + fs.source.blockSize) total
                - (fileByte + blk * fs.source.blockSize)))).length = total := by
          rw [patch_length, hlen]
          rw [length_take, hblock]
          omega
        obtain ⟨hyes, hno⟩ := ih (blk + 1) _ (by omega) hlen'
        exact ⟨fun h => hyes h.2, fun h => hno fun hr => h ⟨hheld, hr⟩⟩
      · rw [if_neg hheld]
        exact ⟨fun h => absurd h.1 hheld, fun _ => rfl⟩

/-- Blocks that were never written are passed over. -/
lemma copyExtent_unwritten (hsz : fs.source.Sized) {total phys fileByte : Nat}
    (hfile : fileByte < 2 ^ 45) (n : Nat) :
    ∀ (blk : Nat) (out : List UInt8), blk + n ≤ 2 ^ 16 →
      fs.copyExtent fs.source.blockSize total phys fileByte false n blk out = .ok out := by
  have hbs := hsz.le
  induction n with
  | zero => exact fun _ _ _ => rfl
  | succ n ih =>
    intro blk out hblk
    have hskip : blk * fs.source.blockSize ≤ 2 ^ 16 * 4096 := Nat.mul_le_mul (by omega) hbs
    rw [copyExtent, umul_of_lt (by omega), ok_bind, uadd_of_lt (by omega), ok_bind]
    split
    next => rfl
    next =>
      rw [uadd_of_lt (by omega), ok_bind]
      exact ih (blk + 1) out (by omega)

/-- What a computation over an output buffer does apart from the buffer. -/
def Traces (total : Nat) (f : List UInt8 → Outcome String (List UInt8)) (r : Outcome String Unit) :
    Prop :=
  ∀ out : List UInt8, out.length = total →
    (f out).void = r ∧ ∀ out', f out = .ok out' → out'.length = total

/-- An extent comes back unless it lies behind the end of the image. -/
lemma readExtent_traces (hsz : fs.source.Sized) (total : Nat) (row : List UInt8) :
    Traces total (fs.readExtent fs.source.blockSize total row)
      (if fs.ExtentHeld total row then .ok () else .err "read past end") := by
  intro out hlen
  have hblock := leAt_four_lt row 0
  have hcount := leAt_two_lt row 4
  have hhi := leAt_two_lt row 6
  have hlo := leAt_four_lt row 8
  have hmul : leAt row 0 4 * fs.source.blockSize ≤ 2 ^ 32 * 4096 := Nat.mul_le_mul (by omega) hsz.le
  rw [readExtent, umul_of_lt (by omega), ok_bind]
  by_cases hwritten : leAt row 4 2 ≤ 32768
  · rw [if_neg (by omega), decide_eq_true hwritten]
    obtain ⟨hyes, hno⟩ := copyExtent_held hsz total (leAt row 6 2 * 2 ^ 32 + leAt row 8 4)
      (leAt row 0 4 * fs.source.blockSize) (by omega) (by omega)
        (leAt row 4 2) 0 out (by omega) hlen
    simp only [zero_add] at hyes hno
    by_cases hheld : fs.ExtentHeld total row
    · obtain ⟨out', hrun, hlen'⟩ := hyes (hheld hwritten)
      rw [if_pos hheld, hrun]
      exact ⟨rfl, fun _ h => by cases h; exact hlen'⟩
    · rw [if_neg hheld, hno fun h => hheld fun _ => h]
      exact ⟨rfl, nofun⟩
  · have hheld : fs.ExtentHeld total row := fun h => absurd h hwritten
    rw [if_pos (by omega), decide_eq_false hwritten,
      copyExtent_unwritten hsz (by omega) _ _ _ (by omega), if_pos hheld]
    exact ⟨rfl, fun _ h => by cases h; exact hlen⟩

/-! ## A whole tree -/

/-- The rows of a node, one after the other. -/
lemma eachRow_traces {total : Nat} {f : List UInt8 → List UInt8 → Outcome String (List UInt8)}
    {g : List UInt8 → Outcome String Unit} {rows : List (List UInt8)}
    (h : ∀ row ∈ rows, Traces total (f row) (g row)) :
    Traces total (eachRow f rows) (eachOk g rows) := by
  induction rows with
  | nil => exact fun out hlen => ⟨rfl, fun _ h => by cases h; exact hlen⟩
  | cons row rows ih =>
    intro out hlen
    obtain ⟨hvoid, hkeep⟩ := h row mem_cons_self out hlen
    rw [eachRow, eachOk, ← hvoid]
    cases hf : f row out with
    | ok out₁ =>
      exact ih (fun r hr => h r (mem_cons_of_mem _ hr)) out₁ (hkeep out₁ hf)
    | _ => exact ⟨rfl, fun _ h => by cases h⟩

/-- The walk of the driver is the walk over the shapes of the nodes. -/
lemma walkExtentNode_traces (hsz : fs.source.Sized) (total n : Nat) : ∀ node : List UInt8,
    Traces total (fs.walkExtentNode fs.source.blockSize total n node)
      (walk (fs.extentShape total) n node) := by
  induction n with
  | zero => exact fun node out _ => ⟨rfl, fun _ h => by cases h⟩
  | succ n ih =>
    intro node out hlen
    rw [walkExtentNode, Walk.walk, extentShape]
    split
    next => exact ⟨rfl, fun _ h => by cases h⟩
    next =>
      split
      next => exact ⟨rfl, fun _ h => by cases h⟩
      next =>
        split
        next => exact eachRow_traces (fun row _ => readExtent_traces hsz total row) out hlen
        next =>
          show _ = eachOk _ (map _ _) ∧ _
          rw [eachOk_map]
          refine eachRow_traces (fun row _ out hlen => ?_) out hlen
          cases hread : fs.readBlock (indexBlock row) fs.source.blockSize with
          | ok buf => exact ih buf out hlen
          | _ => exact ⟨rfl, fun _ h => by cases h⟩

lemma indexBlock_lt (row : List UInt8) : indexBlock row < 2 ^ 50 := by
  have hhi := leAt_two_lt row 8
  have hlo := leAt_four_lt row 4
  rw [indexBlock]
  omega

/-- A child is fetched from a block of the image or not at all. -/
lemma readBlock_indexBlock (hsz : fs.source.Sized) (row : List UInt8) :
    fs.readBlock (indexBlock row) fs.source.blockSize
      = if fs.source.Holds (indexBlock row) then .ok (fs.source.block (indexBlock row))
        else .err "read past end" :=
  readBlock_eq (hsz.offset (indexBlock_lt row)) (zeros_length _)

/-- The nodes below an index node. -/
lemma extentShape_branch {total : Nat} {node : List UInt8}
    {children : List (Outcome String (List UInt8))}
    (h : fs.extentShape total node = .branch children) :
    children = (extentRows node).map fun row =>
      fs.readBlock (indexBlock row) fs.source.blockSize := by
  rw [extentShape] at h
  split at h
  next => cases h
  next =>
    split at h
    next => cases h
    next =>
      split at h
      next => cases h
      next =>
        cases h
        rfl

variable (hsz : fs.source.Sized)
include hsz

/-- Reading a node, or a block of one, comes back. -/
lemma extentShape_tame (total : Nat) : Tame (fs.extentShape total) where
  leaf := by
    intro node result h
    rw [extentShape] at h
    split at h
    next =>
      cases h
      exact trivial
    next =>
      split at h
      next =>
        cases h
        exact trivial
      next =>
        split at h
        next =>
          cases h
          refine eachOk_returns fun row _ => ?_
          split <;> exact trivial
        next => cases h
  fetch := by
    intro node children h c hc
    rw [extentShape_branch h] at hc
    obtain ⟨row, -, rfl⟩ := mem_map.mp hc
    rw [readBlock_indexBlock hsz]
    split <;> exact trivial

/-- The children of a node are among the blocks of the image. -/
lemma extentShape_from (total : Nat) (node : List UInt8)
    (children : List (Outcome String (List UInt8)))
    (h : fs.extentShape total node = .branch children) (y : List UInt8) (hy : .ok y ∈ children) :
    ∃ b < fs.source.data.length / fs.source.blockSize, y = fs.source.block b := by
  rw [extentShape_branch h] at hy
  obtain ⟨row, -, hrow⟩ := mem_map.mp hy
  rw [readBlock_indexBlock hsz] at hrow
  split at hrow
  next hheld =>
    cases hrow
    refine ⟨indexBlock row, (le_div_iff_mul_le hsz.pos).mpr ?_, rfl⟩
    rw [succ_mul]
    exact hheld
  next => cases hrow

/-- The tree of extents of an inode is grounded. -/
def ExtentsGrounded (fs : Ext2Fs) (ino : Inode) : Prop :=
  Grounded (fs.extentShape ino.size.toNat) ino.blockBytes

/-- Reading an inode with extents comes back exactly when its tree is grounded. -/
lemma readExtentInode_returns (hf : fs.Framed) (ino : Inode) :
    (fs.readExtentInode ino).Returns ↔ fs.ExtentsGrounded ino := by
  have ht := extentShape_tame hsz ino.size.toNat
  rw [readExtentInode, hf.blockSize, ok_bind, ← returns_void,
    (walkExtentNode_traces hsz _ _ _ _ (zeros_length _)).1, returns_iff, ExtentsGrounded,
    ht.grounded_iff]
  constructor
  · exact fun h => ⟨_, h.2⟩
  · exact fun h => ⟨ht.walk_ne_panic _ _, walk_stable (extentShape_from hsz _) (le_succ _) h⟩

end RustOs.Fs.Ext2.Ext2Fs
