import RustOs.Lib.Bytes
import RustOs.Lib.Outcome
import RustOs.Lib.Text

/-!
# The ext2 on-disk format

The records of `src/fs/ext2.rs` and the block source it reads them from. An
`Image` is `MemoryImage`: a byte string cut into blocks of a fixed size.
`Superblock`, `GroupDesc` and `Inode` keep the widths of the source's own
fields; the fields that no function of the driver looks at (`inodes_count`,
the mount times and counters, the creator and the reserved owners) are left
out of `Superblock`.

Every parser reads its fields by offset, so the only thing that can go wrong is
a buffer that is too short: `Superblock.parse` answers an error there and
`Inode.parse`, which slices without a test, panics.
-/

namespace RustOs.Fs.Ext2

open Lib Outcome

/-- A 16-bit little-endian field. -/
def le16 (b : List UInt8) (off : Nat) : UInt16 := UInt16.ofNat (leAt b off 2)

/-- A 32-bit little-endian field. -/
def le32 (b : List UInt8) (off : Nat) : UInt32 := UInt32.ofNat (leAt b off 4)

@[simp] lemma le32_toNat (b : List UInt8) (off : Nat) : (le32 b off).toNat = leAt b off 4 :=
  UInt32.toNat_ofNat_of_lt' (leAt_lt b off 4)

/-- `vec![0u8; n]`. -/
def zeros (n : Nat) : List UInt8 := List.replicate n 0

@[simp] lemma zeros_length (n : Nat) : (zeros n).length = n := List.length_replicate

/-! ## The block source -/

/-- `MemoryImage`. -/
structure Image where
  data : List UInt8
  blockSize : Nat
  deriving DecidableEq

/-- The block sizes the driver supports. -/
def Supported (bs : Nat) : Prop := bs = 1024 ∨ bs = 2048 ∨ bs = 4096

namespace Image

variable {img : Image} {b : Nat}

variable (img : Image)

/-- The bytes of block `b`. -/
def block (b : Nat) : List UInt8 := slice img.data (b * img.blockSize) img.blockSize

/-- Block `b` lies inside the image. -/
def Holds (b : Nat) : Prop := b * img.blockSize + img.blockSize ≤ img.data.length

instance (img : Image) (b : Nat) : Decidable (img.Holds b) :=
  inferInstanceAs (Decidable (_ ≤ _))

/-- `read_block`: the block is copied over the front of `buf`. -/
def readBlock (b : Nat) (buf : List UInt8) : Outcome String (List UInt8) := do
  let start ← umul 64 b img.blockSize
  let stop ← uadd 64 start img.blockSize
  if stop > img.data.length then .err "read past end"
  else if buf.length < img.blockSize then .err "buf too small"
  else pure (patch buf 0 (slice img.data start img.blockSize))

/-- `write_block`: the front of `buf` is copied over the block. -/
def writeBlock (b : Nat) (buf : List UInt8) : Outcome String Image := do
  let start ← umul 64 b img.blockSize
  let stop ← uadd 64 start img.blockSize
  if stop > img.data.length then .err "write past end"
  else if buf.length < img.blockSize then .err "buf too small"
  else pure { img with data := patch img.data start (buf.take img.blockSize) }

/-- The image after a whole block was written. -/
def setBlock (b : Nat) (buf : List UInt8) : Image :=
  { img with data := patch img.data (b * img.blockSize) buf }

/-- The image has blocks of a size the driver supports. -/
def Sized : Prop := Supported img.blockSize

variable {img}

instance (img : Image) : Decidable img.Sized := inferInstanceAs (Decidable (_ ∨ _))

lemma Sized.pos (h : img.Sized) : 0 < img.blockSize := by
  rcases h with h | h | h <;> omega

lemma Sized.le (h : img.Sized) : img.blockSize ≤ 4096 := by
  rcases h with h | h | h <;> omega

/-- A block number of at most 50 bits does not overflow the byte offset. -/
lemma Sized.offset (h : img.Sized) (hb : b < 2 ^ 50) :
    b * img.blockSize + img.blockSize < 2 ^ 64 := by
  rcases h with h | h | h <;> rw [h] <;> omega

lemma block_length (h : img.Holds b) : (img.block b).length = img.blockSize := slice_length h

section

variable {buf : List UInt8} (hb : b * img.blockSize + img.blockSize < 2 ^ 64)
    (hbuf : buf.length = img.blockSize)
include hb hbuf

/-- A block of the image and nothing else is what `read_block` can answer. -/
lemma readBlock_eq :
    img.readBlock b buf = if img.Holds b then .ok (img.block b) else .err "read past end" := by
  rw [readBlock, umul_of_lt (by omega), ok_bind, uadd_of_lt hb, ok_bind]
  by_cases h : img.Holds b
  · have hle : b * img.blockSize + img.blockSize ≤ img.data.length := h
    have hpatch : patch buf 0 (slice img.data (b * img.blockSize) img.blockSize) = img.block b := by
      have hlen := block_length h
      simp only [patch, List.take_zero, List.nil_append, Nat.zero_add]
      rw [show slice img.data (b * img.blockSize) img.blockSize = img.block b from rfl, hlen,
        List.drop_of_length_le (Nat.le_of_eq hbuf), List.append_nil]
    rw [if_neg (by omega), if_neg (by omega), if_pos h, hpatch, pure_eq]
  · have hgt : b * img.blockSize + img.blockSize > img.data.length := by
      have : ¬ b * img.blockSize + img.blockSize ≤ img.data.length := h
      omega
    rw [if_pos hgt, if_neg h]

/-- `write_block` replaces one block of the image. -/
lemma writeBlock_eq :
    img.writeBlock b buf
      = if img.Holds b then .ok (img.setBlock b buf) else .err "write past end" := by
  rw [writeBlock, umul_of_lt (by omega), ok_bind, uadd_of_lt hb, ok_bind]
  by_cases h : img.Holds b
  · have hle : b * img.blockSize + img.blockSize ≤ img.data.length := h
    rw [if_neg (by omega), if_neg (by omega), if_pos h, ← hbuf, List.take_length, hbuf, pure_eq,
      setBlock]
  · have hgt : b * img.blockSize + img.blockSize > img.data.length := by
      have : ¬ b * img.blockSize + img.blockSize ≤ img.data.length := h
      omega
    rw [if_pos hgt, if_neg h]

end

end Image

/-! ## The superblock -/

/-- `Superblock`, without the fields the driver never looks at. -/
structure Superblock where
  blocksCount : UInt32
  freeBlocksCount : UInt32
  freeInodesCount : UInt32
  firstDataBlock : UInt32
  logBlockSize : UInt32
  blocksPerGroup : UInt32
  inodesPerGroup : UInt32
  inodeSize : UInt16
  deriving DecidableEq

namespace Superblock

/-- The fields of a superblock, without the tests in front of them. -/
def ofBytes (buf : List UInt8) : Superblock where
  blocksCount := le32 buf 4
  freeBlocksCount := le32 buf 12
  freeInodesCount := le32 buf 16
  firstDataBlock := le32 buf 20
  logBlockSize := le32 buf 24
  blocksPerGroup := le32 buf 32
  inodesPerGroup := le32 buf 40
  -- revision 0 has no size field: its inodes are 128 bytes
  inodeSize := if 1 ≤ leAt buf 76 4 ∧ 90 ≤ buf.length then le16 buf 88 else 128

/-- `Superblock::parse`. -/
def parse (buf : List UInt8) : Outcome String Superblock :=
  if buf.length < 88 then .err "short superblock"
  else if leAt buf 56 2 ≠ 0xEF53 then .err "bad ext2 magic"
  else .ok (ofBytes buf)

/-- `block_size`: `1024u32 << log_block_size`. A shift by the width or more
panics; bits shifted out at the top are lost. -/
def blockSize (sb : Superblock) : Outcome String Nat :=
  if sb.logBlockSize.toNat < 32 then .ok (1024 * 2 ^ sb.logBlockSize.toNat % 2 ^ 32) else .panic

/-- `num_groups`. -/
def numGroups (sb : Superblock) : Outcome String Nat := do
  let top ← uadd 32 sb.blocksCount.toNat sb.blocksPerGroup.toNat
  let top ← usub top 1
  udiv top sb.blocksPerGroup.toNat

/-- The block the driver takes the group descriptors from:
`if first_data_block == 0 { 1 } else { first_data_block } + 1`. -/
def bgdtBlock (sb : Superblock) : Outcome String Nat :=
  uadd 32 (if sb.firstDataBlock.toNat = 0 then 1 else sb.firstDataBlock.toNat) 1

end Superblock

/-! ## Group descriptors -/

/-- `GroupDesc`, one 32-byte row of the descriptor table. -/
structure GroupDesc where
  blockBitmap : UInt32
  inodeBitmap : UInt32
  inodeTable : UInt32
  freeBlocksCount : UInt16
  freeInodesCount : UInt16
  usedDirsCount : UInt16
  deriving DecidableEq

/-- `GroupDesc::parse`. -/
def GroupDesc.parse (buf : List UInt8) : GroupDesc where
  blockBitmap := le32 buf 0
  inodeBitmap := le32 buf 4
  inodeTable := le32 buf 8
  freeBlocksCount := le16 buf 12
  freeInodesCount := le16 buf 14
  usedDirsCount := le16 buf 16

/-! ## Inodes -/

/-- `Inode`, the 128-byte revision 0 layout. -/
structure Inode where
  mode : UInt16
  uid : UInt16
  size : UInt32
  atime : UInt32
  ctime : UInt32
  mtime : UInt32
  dtime : UInt32
  gid : UInt16
  linksCount : UInt16
  blocks : UInt32
  flags : UInt32
  osd1 : UInt32
  block : Vector UInt32 15
  generation : UInt32
  deriving DecidableEq

namespace Inode

/-- The fields of an inode, without the bounds test of the slices. -/
def ofBytes (buf : List UInt8) : Inode where
  mode := le16 buf 0
  uid := le16 buf 2
  size := le32 buf 4
  atime := le32 buf 8
  ctime := le32 buf 12
  mtime := le32 buf 16
  dtime := le32 buf 20
  gid := le16 buf 24
  linksCount := le16 buf 26
  blocks := le32 buf 28
  flags := le32 buf 32
  osd1 := le32 buf 36
  block := Vector.ofFn fun i => le32 buf (40 + i * 4)
  generation := le32 buf 100

/-- `Inode::parse`: the last field ends at byte 104, and the slices are not
tested. -/
def parse (buf : List UInt8) : Outcome String Inode :=
  if buf.length < 104 then .panic else .ok (ofBytes buf)

/-- `is_dir`. -/
def isDir (i : Inode) : Bool := i.mode &&& 0xF000 == 0x4000

/-- `is_reg`. -/
def isReg (i : Inode) : Bool := i.mode &&& 0xF000 == 0x8000

/-- `is_symlink`. -/
def isSymlink (i : Inode) : Bool := i.mode &&& 0xF000 == 0xA000

/-- `EXT4_EXTENTS_FL` is set. -/
def hasExtents (i : Inode) : Bool := i.flags &&& 0x00080000 != 0

/-- The 15 block words as the 60 bytes they are on disk. -/
def blockBytes (i : Inode) : List UInt8 := i.block.toList.flatMap fun w => leBytes 4 w.toNat

end Inode

/-! ## Directory entries -/

/-- `DirEntry`. -/
structure DirEntry where
  inode : UInt32
  name : Str
  fileType : UInt8
  deriving DecidableEq

end RustOs.Fs.Ext2
