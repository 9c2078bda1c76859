import RustOs.Fs.Ext2.Format

/-!
# Mounting and reading an ext2 image

The read side of `src/fs/ext2.rs`: `maybe_replay_journal`, `mount`,
`read_inode`, `read_inode_data` in its two layouts (the block map and the ext4
extent tree), `read_dir`, `lookup` and `read_file`.

The machine operations that are not guarded by a test right in front of them
are the checked ones of `Outcome`: an on-disk number used as a divisor, as a
shift amount or in a 32-bit sum panics exactly where the source does under the
overflow checks of the development profile.

The only loop of the read side without a bound of its own is the recursion of
`walk_extent_node`. It is written with fuel; an image of `n` blocks gets
`n + 2`, and a walk that needs more never ends (`walk_stable` in the
library).
-/

namespace RustOs.Fs.Ext2

open Lib Outcome

/-- The bytes of the superblock inside the block it lies in: 1024 of them, or
as many as the block has. -/
def superblockBytes (img : Image) : Outcome String (List UInt8) := do
  let sbBlock ← udiv 1024 img.blockSize
  let sbOff ← urem 1024 img.blockSize
  let blk ← img.readBlock sbBlock (zeros img.blockSize)
  pure (slice blk sbOff (min 1024 (img.blockSize - sbOff)))

/-- Block and offset of the `index`-th inode of the table that starts at block
`table`. -/
def inodePlace (table bs index size : Nat) : Outcome String (Nat × Nat) := do
  let base ← umul 64 table bs
  let skip ← umul 64 index size
  let at_ ← uadd 64 base skip
  let block ← udiv at_ bs
  let off ← urem at_ bs
  pure (block, off)

/-! ## The journal -/

/-- `JBD2_MAGIC`. -/
def jbd2Magic : Nat := 0xC03B3998

/-- `JBD2_MAGIC.to_be_bytes()`. -/
def jbd2MagicBytes : List UInt8 := [0xC0, 0x3B, 0x39, 0x98]

variable (ino : Inode)

/-- `i_block[j]` of a direct block; `i_block[0]` is also where a log begins. -/
abbrev Inode.direct (j : Nat) (h : j < 12) : UInt32 := ino.block[j]

abbrev Inode.start : UInt32 := ino.block[0]

/-- `i_block[12]`, `i_block[13]` and `i_block[14]`, the roots of the index trees. -/
abbrev Inode.single : UInt32 := ino.block[12]

abbrev Inode.double : UInt32 := ino.block[13]

abbrev Inode.triple : UInt32 := ino.block[14]

/-- The first half of `maybe_replay_journal`: the inode of the journal file, or
nothing where the function returns `Ok(false)`. -/
def journalInode (img : Image) : Outcome String (Option Inode) := do
  let bs := img.blockSize
  let sb ← superblockBytes img
  if sb.length < 232 then pure none
  -- `HAS_JOURNAL`
  else if !(leAt sb 92 4).testBit 2 then pure none
  else if leAt sb 224 4 = 0 then pure none
  else if leAt sb 40 4 = 0 ∨ leAt sb 88 2 = 0 then pure none
  else do
    let group := (leAt sb 224 4 - 1) / leAt sb 40 4
    let index := (leAt sb 224 4 - 1) % leAt sb 40 4
    let bgdtBlock ← (Superblock.ofBytes sb).bgdtBlock
    let block ← uadd 32 bgdtBlock (group / (bs / 32))
    let bg ← img.readBlock block (zeros bs)
    let (inodeBlock, inodeOff) ←
      inodePlace (leAt bg (group % (bs / 32) * 32 + 8) 4) bs index (leAt sb 88 2)
    let blk ← img.readBlock inodeBlock (zeros bs)
    let inode ← Inode.parse (blk.drop inodeOff)
    if inode.start = 0 then pure none else pure (some inode)

variable (inode : Inode)

/-- `log_block`: only the direct blocks of the journal file are reachable. -/
def logBlock (idx : Nat) : Option Nat :=
  if h : idx < 12 then some (inode.direct idx h).toNat else none

/-- Read a block of the source. -/
def load (b bs : Nat) : Prog Image String (List UInt8) := do
  let img ← Prog.get
  Prog.lift (img.readBlock b (zeros bs))

/-- Write a block of the source. -/
def store (b : Nat) (buf : List UInt8) : Prog Image String Unit := do
  let img ← Prog.get
  let img' ← Prog.lift (img.writeBlock b buf)
  Prog.set img'

/-- `(cur + 1) % s_maxlen`. -/
def nextIndex (maxlen cur : Nat) : Outcome String Nat := do
  let n ← uadd 32 cur 1
  urem n maxlen

/-- A data block of the log as it goes to its target: the escape flag says that
its first word is the magic of the journal. -/
def unescape (flags : Nat) (data : List UInt8) : List UInt8 :=
  if flags.testBit 0 then patch data 0 jbd2MagicBytes else data

/-- One tag of a descriptor block: the next data block of the log goes to
`blocknr`. `none` is the `break 'walk` of a log index without a block. -/
def replayTag (maxlen bs blocknr flags cur : Nat) :
    Prog Image String (Option Nat) :=
  if blocknr = 0 then pure (some cur)
  else match logBlock inode cur with
    | none => pure none
    | some phys => do
      let data ← load phys bs
      store blocknr (unescape flags data)
      let cur ← Prog.lift (nextIndex maxlen cur)
      pure (some cur)

/-- The tag loop of a descriptor block. Each tag takes 16 bytes, 32 with a
UUID, so `bs` rounds are more than enough. -/
def replayTags (inode : Inode) (maxlen bs : Nat) (hdr : List UInt8) :
    Nat → Nat → Nat → Prog Image String (Option Nat)
  | 0, _, _ => Prog.lift .diverge
  | fuel + 1, pos, cur =>
    if pos + 16 ≤ bs then do
      let flags := beAt hdr (pos + 8) 4
      match ← replayTag inode maxlen bs (beAt hdr (pos + 4) 4) flags cur with
      | none => pure none
      | some cur =>
        if flags.testBit 3 then pure (some cur)
        else
          replayTags inode maxlen bs hdr fuel (if flags.testBit 1 then pos + 16 else pos + 32) cur
    else pure (some cur)

/-- One round of the replay loop: the next log index and sequence number, or
nothing at the end of the log. -/
def replayBlock (maxlen first bs cur seq : Nat) :
    Prog Image String (Option (Nat × Nat)) :=
  match logBlock inode cur with
  | none => pure none
  | some phys => do
    let hdr ← load phys bs
    if beAt hdr 0 4 ≠ jbd2Magic then pure none
    else if beAt hdr 8 4 ≠ seq ∧ beAt hdr 4 4 ≠ 4 then pure none
    else if beAt hdr 4 4 = 1 then do
      let cur ← Prog.lift (nextIndex maxlen cur)
      match ← replayTags inode maxlen bs hdr bs 12 cur with
      | none => pure none
      | some cur => pure (some (max cur first, seq))
    else if beAt hdr 4 4 = 2 then do
      let cur ← Prog.lift (nextIndex maxlen cur)
      pure (some (max cur first, (seq + 1) % 2 ^ 32))
    else if beAt hdr 4 4 = 5 then do
      -- a revoke block is skipped: the revoked blocks are not tracked
      let cur ← Prog.lift (nextIndex maxlen cur)
      pure (some (max cur first, seq))
    else pure none

/-- The replay loop, with the rounds `max_iters` leaves it. -/
def replayLoop (inode : Inode) (maxlen first bs : Nat) : Nat → Nat → Nat → Prog Image String Unit
  | 0, _, _ => pure ()
  | n + 1, cur, seq => do
    match ← replayBlock inode maxlen first bs cur seq with
    | none => pure ()
    | some (cur, seq) => replayLoop inode maxlen first bs n cur seq

/-- The second half of `maybe_replay_journal`, from the journal superblock on. -/
def replayJournal (bs : Nat) : Prog Image String Bool := do
  let jsb ← load inode.start.toNat bs
  if beAt jsb 0 4 ≠ jbd2Magic then pure true
  else if beAt jsb 12 4 ≠ bs then pure true
  else if beAt jsb 28 4 = 0 then pure true
  else do
    let maxlen := beAt jsb 16 4
    let first := beAt jsb 20 4
    let maxIters ← Prog.lift (umul 32 (maxlen - first) 2)
    replayLoop inode maxlen first bs maxIters (beAt jsb 28 4) (beAt jsb 24 4)
    store inode.start.toNat (patch jsb 28 [0, 0, 0, 0])
    pure true

/-- `maybe_replay_journal`. -/
def maybeReplayJournal : Prog Image String Bool := do
  let img ← Prog.get
  match ← Prog.lift (journalInode img) with
  | none => pure false
  | some inode => replayJournal inode img.blockSize

/-! ## Mounting -/

/-- `Ext2Fs`: the source, the parsed superblock and the group descriptors. -/
structure Ext2Fs where
  source : Image
  sb : Superblock
  bgdt : List GroupDesc
  deriving DecidableEq

/-- The descriptors the `i`-th block of the table adds: the inner loop of
`mount`, which stops at the last group. -/
def groupsIn (blk : List UInt8) (epb groups i : Nat) : List GroupDesc :=
  ((List.range epb).takeWhile fun j => i * epb + j < groups).map fun j =>
    GroupDesc.parse (slice blk (j * 32) 32)

/-- The outer loop of `mount` over the blocks of the descriptor table. -/
def readGroups (img : Image) (bs bgdtBlock epb groups : Nat) :
    Nat → Nat → List GroupDesc → Outcome String (List GroupDesc)
  | 0, _, acc => .ok acc
  | n + 1, i, acc => do
    let b ← uadd 32 bgdtBlock i
    let blk ← img.readBlock b (zeros bs)
    let _ ← umul 32 i epb
    readGroups img bs bgdtBlock epb groups n (i + 1) (acc ++ groupsIn blk epb groups i)

/-- `mount` after the journal. -/
def mountImage (img : Image) : Outcome String Ext2Fs := do
  let bs := img.blockSize
  let sbBytes ← superblockBytes img
  let sb ← Superblock.parse sbBytes
  let sbSize ← sb.blockSize
  if sbSize ≠ bs then .err "block size mismatch"
  else do
    let groups ← sb.numGroups
    let bgdtBlock ← sb.bgdtBlock
    let epb := bs / 32
    let top ← uadd 32 groups epb
    let top ← usub top 1
    let bgdtBlocks ← udiv top epb
    let bgdt ← readGroups img bs bgdtBlock epb groups bgdtBlocks 0 []
    pure { source := img, sb := sb, bgdt := bgdt }

/-- `mount`. The result of the replay is dropped: `let _ = ..`. -/
def mount (img : Image) : Outcome String Ext2Fs :=
  match maybeReplayJournal img with
  | (.ok _, img') => mountImage img'
  | (.err _, img') => mountImage img'
  | (.panic, _) => .panic
  | (.diverge, _) => .diverge

/-! ## Reading an inode -/

namespace Ext2Fs

/-- Read a block into a fresh buffer of `bs` bytes. -/
def readBlock (fs : Ext2Fs) (b bs : Nat) : Outcome String (List UInt8) :=
  fs.source.readBlock b (zeros bs)

variable (fs : Ext2Fs)

/-- Where inode `ino` lies: the computation `read_inode` and `write_inode`
start with. -/
def locate (ino : Nat) : Outcome String (Nat × Nat) :=
  if ino = 0 then .err "invalid inode 0"
  else do
    let bs ← fs.sb.blockSize
    let group ← udiv (ino - 1) fs.sb.inodesPerGroup.toNat
    let index ← urem (ino - 1) fs.sb.inodesPerGroup.toNat
    match fs.bgdt[group]? with
    | none => .err "group out of range"
    | some gd => inodePlace gd.inodeTable.toNat bs index fs.sb.inodeSize.toNat

/-- `read_inode`. -/
def readInode (ino : Nat) : Outcome String Inode := do
  let (block, off) ← fs.locate ino
  let bs ← fs.sb.blockSize
  let blk ← fs.readBlock block bs
  Inode.parse (blk.drop off)

/-! ## The block map -/

/-- `append_block`: a block of the file, zeros for a hole, cut at the end of
the file. -/
def appendBlock (bs total b : Nat) (out : List UInt8) :
    Outcome String (List UInt8) := do
  let blk ← (if b = 0 then .ok (zeros bs) else fs.readBlock b bs)
  let room ← usub total out.length
  pure (out ++ blk.take (min room bs))

/-- A loop over block pointers that stops at the end of the file. -/
def appendEach (total : Nat) (f : Nat → List UInt8 → Outcome String (List UInt8)) :
    List Nat → List UInt8 → Outcome String (List UInt8)
  | [], out => .ok out
  | b :: bs, out =>
    if total ≤ out.length then .ok out
    else do
      let out ← f b out
      appendEach total f bs out

/-- The pointers an indirect block holds. -/
def pointers (bs : Nat) (blk : List UInt8) : List Nat :=
  (List.range (bs / 4)).map fun i => leAt blk (i * 4) 4

/-- `append_indirect`. At depth 0 the pointer is that of a data block, which is
the call of `append_block` the source makes from depth 1. -/
def appendIndirect (fs : Ext2Fs) (bs total : Nat) :
    Nat → Nat → List UInt8 → Outcome String (List UInt8)
  | 0, b, out => fs.appendBlock bs total b out
  | depth + 1, b, out =>
    if b = 0 ∨ total ≤ out.length then .ok out
    else do
      let blk ← fs.readBlock b bs
      appendEach total (appendIndirect fs bs total depth) (pointers bs blk) out

/-! ## The extent tree -/

/-- The 12-byte rows of an extent node that lie inside the node. -/
def extentRows (node : List UInt8) : List (List UInt8) :=
  ((List.range (leAt node 2 2)).takeWhile fun i => 12 + i * 12 + 12 ≤ node.length).map fun i =>
    slice node (12 + i * 12) 12

/-- The block loop of one extent. -/
def copyExtent (fs : Ext2Fs) (bs total phys fileByte : Nat) (initialised : Bool) :
    Nat → Nat → List UInt8 → Outcome String (List UInt8)
  | 0, _, out => .ok out
  | n + 1, blk, out => do
    let skip ← umul 64 blk bs
    let dstStart ← uadd 64 fileByte skip
    if total ≤ dstStart then .ok out
    else do
      let top ← uadd 64 dstStart bs
      let dstEnd := min top total
      if initialised then do
        let b ← uadd 64 phys blk
        let buf ← fs.readBlock b bs
        if out.length < dstEnd then .panic
        else
          let out := patch out dstStart (buf.take (dstEnd - dstStart))
          copyExtent fs bs total phys fileByte initialised n (blk + 1) out
      else copyExtent fs bs total phys fileByte initialised n (blk + 1) out

/-- One row of a leaf: `ee_block`, `ee_len`, `ee_start_hi` and `ee_start_lo`.
A length above 32768 marks blocks that were never written. -/
def readExtent (bs total : Nat) (row out : List UInt8) :
    Outcome String (List UInt8) := do
  let eeLen := leAt row 4 2
  let fileByte ← umul 64 (leAt row 0 4) bs
  fs.copyExtent bs total (leAt row 6 2 * 2 ^ 32 + leAt row 8 4) fileByte (eeLen ≤ 32768)
    (if 32768 < eeLen then eeLen - 32768 else eeLen) 0 out

/-- The block an index row points at: `ei_leaf_hi` and `ei_leaf_lo`. -/
def indexBlock (row : List UInt8) : Nat := leAt row 8 2 * 2 ^ 32 + leAt row 4 4

/-- A loop over the rows of a node. -/
def eachRow (f : List UInt8 → List UInt8 → Outcome String (List UInt8)) :
    List (List UInt8) → List UInt8 → Outcome String (List UInt8)
  | [], out => .ok out
  | row :: rows, out => do
    let out ← f row out
    eachRow f rows out

/-- `walk_extent_node`. -/
def walkExtentNode (fs : Ext2Fs) (bs total : Nat) :
    Nat → List UInt8 → List UInt8 → Outcome String (List UInt8)
  | 0, _, _ => .diverge
  | fuel + 1, node, out =>
    if node.length < 12 then .err "ext4: extent node truncated"
    else if leAt node 0 2 ≠ 0xF30A then .err "ext4: bad extent magic"
    else if leAt node 6 2 = 0 then eachRow (fs.readExtent bs total) (extentRows node) out
    else eachRow (fun row out => do
      let buf ← fs.readBlock (indexBlock row) bs
      walkExtentNode fs bs total fuel buf out) (extentRows node) out

/-- `read_extent_inode`. -/
def readExtentInode (ino : Inode) : Outcome String (List UInt8) := do
  let bs ← fs.sb.blockSize
  fs.walkExtentNode bs ino.size.toNat (fs.source.data.length / bs + 2) ino.blockBytes
    (zeros ino.size.toNat)

/-- `read_inode_data`. -/
def readInodeData (ino : Inode) : Outcome String (List UInt8) :=
  if ino.hasExtents then fs.readExtentInode ino
  else do
    let bs ← fs.sb.blockSize
    let total := ino.size.toNat
    let out ← appendEach total (fs.appendBlock bs total)
      ((ino.block.toList.take 12).map (·.toNat)) []
    let out ← fs.appendIndirect bs total 1 ino.single.toNat out
    let out ← fs.appendIndirect bs total 2 ino.double.toNat out
    let out ← fs.appendIndirect bs total 3 ino.triple.toNat out
    pure (out.take total)

/-! ## Directories and paths -/

/-- The record loop of `read_dir`; a record takes at least one byte, so a round
for every byte is enough. -/
def dirEntries (data : List UInt8) : Nat → Nat → Outcome String (List DirEntry)
  | 0, _ => .diverge
  | fuel + 1, pos =>
    if data.length < pos + 8 then .ok []
    else
      let inode := le32 data pos
      let recLen := leAt data (pos + 4) 2
      let nameLen := (data.getD (pos + 6) 0).toNat
      if recLen = 0 ∨ data.length < pos + recLen then .ok []
      else do
        let rest ← dirEntries data fuel (pos + recLen)
        if inode ≠ 0 ∧ pos + 8 + nameLen ≤ data.length then
          match fromUtf8 (slice data (pos + 8) nameLen) with
          | some name => pure ({ inode, name, fileType := data.getD (pos + 7) 0 } :: rest)
          | none => pure rest
        else pure rest

/-- `read_dir`. -/
def readDir (dir : Inode) : Outcome String (List DirEntry) := do
  let data ← fs.readInodeData dir
  dirEntries data (data.length + 1) 0

/-- The component loop of `lookup`. -/
def lookupFrom (fs : Ext2Fs) : List Str → Nat → Outcome String Nat
  | [], cur => .ok cur
  | c :: cs, cur => do
    let inode ← fs.readInode cur
    if !inode.isDir then .err "not a directory"
    else do
      let entries ← fs.readDir inode
      match entries.find? (·.name == c) with
      | none => .err "path component not found"
      | some e => lookupFrom fs cs e.inode.toNat

/-- `lookup`: the root is always inode 2. -/
def lookup (path : Str) : Outcome String Nat := fs.lookupFrom (components path) 2

/-- `read_file`. -/
def readFile (path : Str) : Outcome String (List UInt8) := do
  let ino ← fs.lookup path
  let inode ← fs.readInode ino
  if inode.isSymlink && inode.size.toNat ≤ 60 then pure (inode.blockBytes.take inode.size.toNat)
  else if !inode.isReg && !inode.isSymlink then .err "not a regular file"
  else fs.readInodeData inode

end Ext2Fs

end RustOs.Fs.Ext2
