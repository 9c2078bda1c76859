import RustOs.Fs.Ext2.Extents
import RustOs.Fs.Ext2.Replay

/-!
# Reading an untrusted image

Which images can `mount` and `read_file` be let loose on? The driver uses
on-disk numbers as divisors (`blocks_per_group`, `inodes_per_group`), as a
shift amount (`log_block_size`) and in 32-bit sums (`first_data_block + 1`,
`blocks_count + blocks_per_group`, the number of groups, the length of the
journal) without a test, parses an inode record from wherever the inode size
puts it, and follows extent index nodes in circles.

`JournalSafe`, `TableSafe` and `PathSafe` say for each of these what has to
hold, each under the conditions under which the driver gets to the place, and
`mount_read_returns_iff` says that they are exact: `mount` and then
`read_file(path)` come back, with a value or an error, if and only if they
hold.
-/

namespace RustOs.Fs.Ext2

open Lib Outcome Nat UInt32 Superblock List

/-! ## The journal -/

namespace Image

variable (img : Image)

/-- A 32-bit field of the superblock. -/
def field (off : Nat) : Nat := leAt (slice img.data 1024 1024) off 4

/-- `s_inode_size`, whatever the revision. -/
def rawInodeSize : Nat := leAt (slice img.data 1024 1024) 88 2

/-- The superblock names a journal inode: the driver goes on to look for it. -/
def NamesJournal : Prop :=
  img.Holds (1024 / img.blockSize) ∧ (img.field 92).testBit 2 = true ∧ img.field 224 ≠ 0 ∧
    img.field 40 ≠ 0 ∧ img.rawInodeSize ≠ 0

instance (img : Image) : Decidable img.NamesJournal := inferInstanceAs (Decidable (_ ∧ _))

/-- The block with the descriptor of the journal inode's group. -/
def journalTable : Nat :=
  (if img.field 20 = 0 then 1 else img.field 20) + 1
    + (img.field 224 - 1) / img.field 40 / (img.blockSize / 32)

/-- The byte offset of the journal inode. -/
def journalPlace : Nat :=
  leAt (img.block img.journalTable)
      ((img.field 224 - 1) / img.field 40 % (img.blockSize / 32) * 32 + 8) 4 * img.blockSize
    + (img.field 224 - 1) % img.field 40 * img.rawInodeSize

end Image

/-- What the replay needs in order to come back. -/
structure JournalSafe (img : Image) : Prop where
  -- the block of the descriptor is a 32-bit number
  table : img.NamesJournal → img.journalTable < 2 ^ 32
  -- the record of the inode does not run over the end of its block
  record : img.NamesJournal → img.Holds img.journalTable →
    img.Holds (img.journalPlace / img.blockSize) →
      img.journalPlace % img.blockSize + 104 ≤ img.blockSize
  -- twice the length of the log is a 32-bit number
  rounds : ∀ inode, journalInode img = .ok (some inode) → img.Holds inode.start.toNat →
    Dirty (img.block inode.start.toNat) img.blockSize →
      (beAt (img.block inode.start.toNat) 16 4 - beAt (img.block inode.start.toNat) 20 4) * 2
        < 2 ^ 32

section

variable {table bs index size : Nat} (ht : table < 2 ^ 32) (hbs : bs ≤ 4096)
include ht hbs

/-- The place of an inode is computed without overflow. -/
lemma inodePlace_eq (hpos : 0 < bs) (hi : index < 2 ^ 32) (hs : size < 2 ^ 16) :
    inodePlace table bs index size
      = .ok ((table * bs + index * size) / bs, (table * bs + index * size) % bs) := by
  have h1 : table * bs ≤ 2 ^ 32 * 4096 := Nat.mul_le_mul (by omega) hbs
  have h2 : index * size ≤ 2 ^ 32 * 2 ^ 16 := Nat.mul_le_mul (by omega) (by omega)
  rw [inodePlace, umul_of_lt (by omega), ok_bind, umul_of_lt (by omega), ok_bind,
    uadd_of_lt (by omega), ok_bind, udiv_of_ne (by omega), ok_bind, urem_of_ne (by omega), ok_bind,
    pure_eq]

/-- The block an inode lies in is far below the overflow of a byte offset. -/
lemma placeBlock_lt (hi : index < 2 ^ 32) (hs : size < 2 ^ 16) :
    (table * bs + index * size) / bs < 2 ^ 50 := by
  have h1 : table * bs ≤ 2 ^ 32 * 4096 := Nat.mul_le_mul (by omega) hbs
  have h2 : index * size ≤ 2 ^ 32 * 2 ^ 16 := Nat.mul_le_mul (by omega) (by omega)
  exact Nat.lt_of_le_of_lt (Nat.div_le_self _ _) (by omega)

end

variable {img : Image}

/-- Parsing an inode behind offset `off` of its block. -/
lemma parse_drop_returns {b off : Nat} (hb : img.Holds b) :
    (Inode.parse ((img.block b).drop off)).Returns ↔ off + 104 ≤ img.blockSize := by
  have hlen : ((img.block b).drop off).length = img.blockSize - off := by
    rw [length_drop, Image.block_length hb]
  rw [Inode.parse, hlen]
  split
  next h => exact ⟨fun hr => absurd hr id, fun hle => by omega⟩
  next h => exact ⟨fun _ => by omega, fun _ => trivial⟩

/-- A block that can be read is there, or the call ends with an error. -/
lemma returns_readBlock_bind (hsz : img.Sized) {b : Nat} (hb : b < 2 ^ 50) {α : Type}
    {f : List UInt8 → Outcome String α} :
    (img.readBlock b (zeros img.blockSize) >>= f).Returns ↔
      (img.Holds b → (f (img.block b)).Returns) := by
  rw [Image.readBlock_eq (hsz.offset hb) (zeros_length _)]
  split <;> simp [*]

/-- The sum in front of the descriptor's block overflows exactly when the block
number does. -/
lemma journalTable_returns (img : Image) {α : Type} (f : Nat → Outcome String α) :
    (do
      let bgdtBlock ← (ofBytes (slice img.data 1024 1024)).bgdtBlock
      let block ← uadd 32 bgdtBlock ((img.field 224 - 1) / img.field 40 / (img.blockSize / 32))
      f block).Returns ↔ img.journalTable < 2 ^ 32 ∧ (f img.journalTable).Returns := by
  have hfirst : (ofBytes (slice img.data 1024 1024)).firstDataBlock.toNat
      = img.field 20 := le32_toNat _ _
  rw [← bind_assoc, bgdtBlock, hfirst, uadd_bind_uadd, returns_uadd_bind, ← add_assoc]
  rfl

/-- When the inode of the journal is found or refused. -/
lemma journalInode_returns (hsz : img.Sized) :
    (journalInode img).Returns ↔
      (img.NamesJournal → img.journalTable < 2 ^ 32) ∧
      (img.NamesJournal → img.Holds img.journalTable →
        img.Holds (img.journalPlace / img.blockSize) →
          img.journalPlace % img.blockSize + 104 ≤ img.blockSize) := by
  have hfield : ∀ off, leAt (slice img.data 1024 1024) off 4 = img.field off := fun _ => rfl
  have hsize : leAt (slice img.data 1024 1024) 88 2 = img.rawInodeSize := rfl
  rw [journalInode, superblockBytes_eq hsz]
  by_cases hsb : img.Holds (1024 / img.blockSize)
  rotate_left
  · rw [if_neg hsb]
    exact iff_of_true trivial ⟨fun h => absurd h.1 hsb, fun h => absurd h.1 hsb⟩
  rw [if_pos hsb]
  simp only [ok_bind, superblock_length hsz hsb, hfield, hsize, returns_ite, journalTable_returns,
    pure_eq, returns_ok, implies_true, true_and]
  by_cases hnames : img.NamesJournal
  rotate_left
  · refine iff_of_true (fun _ hflag hnum hzero => ?_) ⟨fun h => absurd h hnames,
      fun h => absurd h hnames⟩
    exact absurd ⟨hsb, by simpa using hflag, hnum, not_or.mp hzero⟩ hnames
  obtain ⟨-, hflag, hnum, hper, hraw⟩ := id hnames
  have hindex : (img.field 224 - 1) % img.field 40 < 2 ^ 32 :=
    lt_of_lt_of_le (mod_lt _ (by omega)) (le_of_lt (leAt_lt _ 40 4))
  have hentry := leAt_lt (img.block img.journalTable)
    ((img.field 224 - 1) / img.field 40 % (img.blockSize / 32) * 32 + 8) 4
  have hbytes : img.rawInodeSize < 2 ^ 16 := leAt_lt _ 88 2
  simp only [hflag, hnum, hper, hraw, hnames, Bool.not_true, Bool.false_eq_true, or_self,
    not_false_iff, forall_const]
  rw [forall_prop_of_true (by decide)]
  refine and_congr_right fun htable => ?_
  rw [returns_readBlock_bind hsz (by omega)]
  refine imp_congr_right fun _ => ?_
  rw [inodePlace_eq hentry hsz.le hsz.pos hindex hbytes, ok_bind,
    returns_readBlock_bind hsz (placeBlock_lt hentry hsz.le hindex hbytes)]
  refine imp_congr_right fun hheld => ?_
  rw [returns_bind, parse_drop_returns hheld]
  exact and_iff_left fun inode _ => by simp

lemma maybeReplayJournal_eq (img : Image) :
    maybeReplayJournal img = match journalInode img with
      | .ok none => (.ok false, img)
      | .ok (some inode) => replayJournal inode img.blockSize img
      | .err e => (.err e, img)
      | .panic => (.panic, img)
      | .diverge => (.diverge, img) := by
  rw [maybeReplayJournal, Prog.bind_ok (Prog.get_apply img)]
  cases journalInode img with
  | ok found => cases found <;> rfl
  | _ => rfl

/-- The replay comes back exactly on the images of `JournalSafe`, and it leaves
an image of the same shape. -/
lemma maybeReplayJournal_returns (hsz : img.Sized) :
    ((maybeReplayJournal img).1.Returns ↔ JournalSafe img) ∧
      Framed img.blockSize img.data.length (maybeReplayJournal img).2 := by
  have hself : Framed img.blockSize img.data.length img := ⟨rfl, rfl⟩
  have hsafe : JournalSafe img ↔
    (journalInode img).Returns ∧ ∀ inode, journalInode img = .ok (some inode) →
      (replayJournal inode img.blockSize img).1.Returns := by
    rw [journalInode_returns hsz]
    simp only [(replayJournal_returns hsz _ hself).1]
    exact ⟨fun h => ⟨⟨h.table, h.record⟩, h.rounds⟩, fun h => ⟨h.1.1, h.1.2, h.2⟩⟩
  rw [maybeReplayJournal_eq, hsafe]
  cases journalInode img with
  | ok found =>
    cases found with
    | none => exact ⟨by simp, hself⟩
    | some inode => exact ⟨by simp, (replayJournal_returns hsz inode hself).2⟩
  | _ => exact ⟨by simp, hself⟩

/-! ## Superblock and descriptor table -/

namespace Image

/-- The superblock is read and carries the magic of ext2. -/
def Parsed (img : Image) : Prop :=
  img.Holds (1024 / img.blockSize) ∧ leAt (slice img.data 1024 1024) 56 2 = 0xEF53

/-- The superblock states the block size of the image. -/
def Agrees (img : Image) : Prop :=
  img.Parsed ∧ img.superblock.blockSize = .ok img.blockSize

/-- The block the driver takes for the start of the descriptor table. -/
def tableStart (img : Image) : Nat :=
  (if img.superblock.firstDataBlock.toNat = 0 then 1 else img.superblock.firstDataBlock.toNat) + 1

end Image

/-- What `mount` needs behind the journal. -/
structure TableSafe (img : Image) : Prop where
  shift : img.Parsed → img.superblock.logBlockSize.toNat < 32
  divisor : img.Agrees → img.superblock.blocksPerGroup.toNat ≠ 0
  blockSum : img.Agrees →
    img.superblock.blocksCount.toNat + img.superblock.blocksPerGroup.toNat < 2 ^ 32
  first : img.Agrees → img.tableStart < 2 ^ 32
  groupSum : img.Agrees → img.superblock.countedGroups + img.blockSize / 32 < 2 ^ 32
  -- the last block of the table is a 32-bit number, or the image ends before
  table : img.Agrees →
    img.tableStart + ceilDiv img.superblock.countedGroups (img.blockSize / 32) ≤ 2 ^ 32 ∨
      ¬ img.Holds (2 ^ 32 - 1)

/-- Nothing behind the block size is reached on an image that states another. -/
lemma TableSafe.of_not_agrees
    (hshift : img.Parsed → img.superblock.logBlockSize.toNat < 32) (hno : ¬ img.Agrees) :
    TableSafe img where
  shift := hshift
  divisor h := absurd h hno
  blockSum h := absurd h hno
  first h := absurd h hno
  groupSum h := absurd h hno
  table h := absurd h hno

/-- The table loop comes back unless it reaches the end of the 32-bit numbers
inside the image. -/
lemma readGroups_returns (hsz : img.Sized) {table groups : Nat} (n : Nat) :
    ∀ (i : Nat) (acc : List GroupDesc), table + i ≤ 2 ^ 32 →
      (table + i = 2 ^ 32 → img.Holds (2 ^ 32 - 1)) →
      (i + n) * (img.blockSize / 32) < 2 ^ 32 →
      ((readGroups img img.blockSize table (img.blockSize / 32) groups n i acc).Returns ↔
        table + i + n ≤ 2 ^ 32 ∨ ¬ img.Holds (2 ^ 32 - 1)) := by
  induction n with
  | zero => exact fun i acc hi _ _ => ⟨fun _ => .inl hi, fun _ => trivial⟩
  | succ n ih =>
    intro i acc hi hprev hmul
    have himul : i * (img.blockSize / 32) < 2 ^ 32 :=
      lt_of_le_of_lt (mul_le_mul_right _ (by omega)) hmul
    rw [readGroups]
    by_cases hlt : table + i < 2 ^ 32
    · rw [uadd_of_lt hlt, ok_bind, Image.readBlock_eq (hsz.offset (by omega)) (zeros_length _)]
      by_cases hheld : img.Holds (table + i)
      · rw [if_pos hheld, ok_bind, umul_of_lt himul, ok_bind,
          ih (i + 1) _ (by omega)
            (fun h => by rw [show 2 ^ 32 - 1 = table + i by omega]; exact hheld)
            (by rw [show i + 1 + n = i + (n + 1) by omega]; exact hmul),
          show table + (i + 1) + n = table + i + (n + 1) by omega]
      · rw [if_neg hheld]
        exact ⟨fun _ => .inr fun h => hheld (h.mono (by omega)), fun _ => trivial⟩
    · -- the block number overflows, and every block in front of it was there
      rw [uadd, if_neg hlt]
      refine ⟨fun h => absurd h id, fun h => ?_⟩
      rcases h with h | h
      · omega
      · exact absurd (hprev (by omega)) h

/-- The sums and divisions between the superblock and the table loop. -/
lemma tableGeometry_returns (hsz : img.Sized) (sb : Superblock)
    (hsb : sb = img.superblock) :
    (do
      let groups ← sb.numGroups
      let bgdtBlock ← sb.bgdtBlock
      let top ← uadd 32 groups (img.blockSize / 32)
      let top ← usub top 1
      let bgdtBlocks ← udiv top (img.blockSize / 32)
      let bgdt ← readGroups img img.blockSize bgdtBlock (img.blockSize / 32) groups bgdtBlocks 0 []
      pure ({ source := img, sb := sb, bgdt := bgdt } : Ext2Fs)).Returns ↔
    img.superblock.blocksPerGroup.toNat ≠ 0 ∧
      img.superblock.blocksCount.toNat + img.superblock.blocksPerGroup.toNat < 2 ^ 32 ∧
      img.tableStart < 2 ^ 32 ∧ img.superblock.countedGroups + img.blockSize / 32 < 2 ^ 32 ∧
      (img.tableStart + ceilDiv img.superblock.countedGroups (img.blockSize / 32) ≤ 2 ^ 32 ∨
        ¬ img.Holds (2 ^ 32 - 1)) := by
  have hrows := hsz.rows
  have hdown := ceilDiv_mul_le img.superblock.countedGroups (img.blockSize / 32)
  subst hsb
  simp only [numGroups, bgdtBlock, bind_assoc, returns_uadd_bind, returns_usub_bind,
    returns_udiv_bind]
  have hloop (hfirst : img.tableStart < 2 ^ 32)
      (hgroups : img.superblock.countedGroups + img.blockSize / 32 < 2 ^ 32) :=
    @readGroups_returns img hsz img.tableStart img.superblock.countedGroups
      (ceilDiv img.superblock.countedGroups (img.blockSize / 32)) 0 [] (by omega)
        (fun h => by omega)
      (by rw [zero_add]; omega)
  constructor
  · rintro ⟨hsum, -, hper, hfirst, hgroups, -, -, hrest⟩
    exact ⟨hper, hsum, hfirst, hgroups, (hloop hfirst hgroups).mp (returns_bind.mp hrest).1⟩
  · rintro ⟨hper, hsum, hfirst, hgroups, htable⟩
    refine ⟨hsum, by omega, hper, hfirst, hgroups, le_trans hrows (le_add_left _ _), by omega, ?_⟩
    exact returns_bind.mpr ⟨(hloop hfirst hgroups).mpr htable, fun _ _ => trivial⟩

/-- When mounting without a journal comes back. -/
lemma mountImage_returns (hsz : img.Sized) :
    (mountImage img).Returns ↔ TableSafe img := by
  rw [mountImage, superblockBytes_eq hsz]
  by_cases hparsed : img.Parsed
  rotate_left
  · refine iff_of_true ?_ (.of_not_agrees (fun h => absurd h hparsed) fun h => hparsed h.1)
    split
    next hsb =>
      have hmagic : leAt (slice img.data 1024 1024) 56 2 ≠ 0xEF53 := fun h => hparsed ⟨hsb, h⟩
      rw [ok_bind, parse, superblock_length hsz hsb, if_neg (by decide), if_pos hmagic]
      exact trivial
    next => exact trivial
  obtain ⟨hsb, hmagic⟩ := id hparsed
  rw [if_pos hsb, ok_bind, parse, superblock_length hsz hsb, if_neg (by decide),
    if_neg (not_not.mpr hmagic), ok_bind]
  rw [show ofBytes (slice img.data 1024 1024) = img.superblock from rfl]
  by_cases hshift : img.superblock.logBlockSize.toNat < 32
  rotate_left
  · rw [blockSize, if_neg hshift]
    exact iff_of_false id fun h => hshift (h.shift hparsed)
  have hsize : img.superblock.blockSize = _ := if_pos hshift
  rw [hsize, ok_bind]
  split
  next hne =>
    refine iff_of_true trivial (.of_not_agrees (fun _ => hshift) fun h => hne ?_)
    exact Outcome.ok.inj (hsize.symm.trans h.2)
  next heq =>
    have hagrees : img.Agrees := ⟨hparsed, by rw [hsize, not_not.mp heq]⟩
    rw [tableGeometry_returns hsz _ rfl]
    constructor
    · rintro ⟨h₁, h₂, h₃, h₄, h₅⟩
      exact ⟨fun _ => hshift, fun _ => h₁, fun _ => h₂, fun _ => h₃, fun _ => h₄, fun _ => h₅⟩
    · exact fun h =>
        ⟨h.divisor hagrees, h.blockSum hagrees, h.first hagrees, h.groupSum hagrees,
          h.table hagrees⟩

/-! ## Reading a file -/

lemma Inode.not_isSymlink (i : Inode) (h : i.isReg = true) : ¬ i.isSymlink = true := by
  intro hlink
  rw [Inode.isReg, beq_iff_eq] at h
  rw [Inode.isSymlink, h] at hlink
  exact absurd hlink (by decide)

namespace Ext2Fs

variable {fs : Ext2Fs}

/-- The byte offset of inode `ino` in a table. -/
def recordPlace (fs : Ext2Fs) (gd : GroupDesc) (ino : Nat) : Nat :=
  gd.inodeTable.toNat * fs.source.blockSize
    + (ino - 1) % fs.sb.inodesPerGroup.toNat * fs.sb.inodeSize.toNat

/-- The record of inode `ino` does not run over the end of its block, if there
is such a block. -/
def RecordFits (fs : Ext2Fs) (ino : Nat) : Prop :=
  ∀ gd, fs.bgdt[(ino - 1) / fs.sb.inodesPerGroup.toNat]? = some gd →
    fs.source.Holds (fs.recordPlace gd ino / fs.source.blockSize) →
      fs.recordPlace gd ino % fs.source.blockSize + 104 ≤ fs.source.blockSize

/-- The walk of a path: from inode `ino` with the components `cs` still to go,
the inodes it reads and what is left of the path there. -/
inductive Reached (fs : Ext2Fs) : List Str → Nat → List Str → Nat → Prop where
  | here {cs : List Str} {ino : Nat} : Reached fs cs ino cs ino
  | step {c : Str} {cs rest : List Str} {ino i : Nat} {inode : Inode} {entries : List DirEntry}
      {e : DirEntry} (hread : fs.readInode ino = .ok inode) (hdir : inode.isDir = true)
      (hentries : fs.readDir inode = .ok entries)
      (hfind : entries.find? (·.name == c) = some e)
      (hrest : Reached fs cs e.inode.toNat rest i) : Reached fs (c :: cs) ino rest i

/-- The driver reads the data of the inode: a directory on the way, a regular
file or a long symbolic link at the end. -/
def Opens (rest : List Str) (inode : Inode) : Prop :=
  if rest = [] then inode.isReg = true ∨ inode.isSymlink = true ∧ 60 < inode.size.toNat
  else inode.isDir = true

/-- What reading one inode of the walk needs. -/
structure StepSafe (fs : Ext2Fs) (rest : List Str) (ino : Nat) : Prop where
  divisor : ino ≠ 0 → fs.sb.inodesPerGroup.toNat ≠ 0
  record : ino ≠ 0 → fs.RecordFits ino
  extents : ∀ inode, fs.readInode ino = .ok inode → Opens rest inode →
    inode.hasExtents = true → fs.ExtentsGrounded inode

/-- What reading the file at `path` needs: every inode of the walk can be
read. -/
def PathSafe (fs : Ext2Fs) (path : Str) : Prop :=
  ∀ rest ino, fs.Reached (components path) 2 rest ino → fs.StepSafe rest ino

/-- When an inode is read or refused. -/
lemma readInode_returns (hsz : fs.source.Sized) (hf : fs.Framed) {ino : Nat}
    (hino : ino < 2 ^ 32) :
    (fs.readInode ino).Returns ↔
      (ino ≠ 0 → fs.sb.inodesPerGroup.toNat ≠ 0) ∧ (ino ≠ 0 → fs.RecordFits ino) := by
  rw [readInode, locate]
  by_cases h0 : ino = 0
  · rw [if_pos h0]
    exact iff_of_true trivial ⟨fun h => absurd h0 h, fun h => absurd h0 h⟩
  rw [if_neg h0, hf.blockSize, ← imp_and, forall_prop_of_true h0]
  simp only [ok_bind, bind_assoc, returns_udiv_bind, returns_urem_bind]
  by_cases hper : fs.sb.inodesPerGroup.toNat = 0
  · exact iff_of_false (fun h => h.1 hper) fun h => h.1 hper
  refine and_congr_right fun _ => (and_iff_right hper).trans ?_
  unfold RecordFits
  cases hgd : fs.bgdt[(ino - 1) / fs.sb.inodesPerGroup.toNat]? with
  | none => exact iff_of_true trivial fun _ h => by cases h
  | some gd =>
    have hindex : (ino - 1) % fs.sb.inodesPerGroup.toNat < 2 ^ 32 :=
      lt_of_le_of_lt (mod_le _ _) (by omega)
    have htable : gd.inodeTable.toNat < 2 ^ 32 := gd.inodeTable.toNat_lt
    have hsize : fs.sb.inodeSize.toNat < 2 ^ 16 := fs.sb.inodeSize.toNat_lt
    simp only [Option.some.injEq, forall_eq']
    rw [inodePlace_eq htable hsz.le hsz.pos hindex hsize, ok_bind]
    refine (returns_readBlock_bind hsz (placeBlock_lt htable hsz.le hindex hsize)).trans ?_
    exact imp_congr_right fun hheld => parse_drop_returns hheld

/-! ### The block map comes back -/

/-- Appending to an output that is not too long comes back with another. -/
def Appends (total : Nat) (f : List UInt8 → Outcome String (List UInt8)) : Prop :=
  ∀ out : List UInt8, out.length ≤ total →
    (f out).Returns ∧ ∀ out', f out = .ok out' → out'.length ≤ total

/-- A block appends at most what is missing. -/
lemma appendBlock_appends (hf : fs.Framed) (total : Nat) {b : Nat} (hb : b < 2 ^ 32) :
    Appends total (fs.appendBlock fs.source.blockSize total b) := by
  intro out hle
  constructor
  · rw [appendBlock, returns_bind]
    refine ⟨?_, fun blk _ => ?_⟩
    · split
      next => exact trivial
      next =>
        rw [hf.readBlock hb]
        split <;> exact trivial
    · rw [usub_of_le hle]
      exact trivial
  · intro out' h
    obtain ⟨blk, -, -, -, rfl⟩ := appendBlock_ok hf hb h
    rw [length_append, length_take]
    omega

/-- Parts that append, one after the other, append. -/
lemma appendEach_appends (total : Nat) {f : Nat → List UInt8 → Outcome String (List UInt8)}
    (ps : List Nat) (h : ∀ p ∈ ps, Appends total (f p)) :
      Appends total (appendEach total f ps) := by
  induction ps with
  | nil => exact fun out hle => ⟨trivial, fun out' h => by cases h; exact hle⟩
  | cons p ps ih =>
    intro out hle
    obtain ⟨hret, hlen⟩ := h p mem_cons_self out hle
    have hrest := ih fun q hq => h q (mem_cons_of_mem _ hq)
    rw [appendEach]
    split
    next => exact ⟨trivial, fun out' h => by cases h; exact hle⟩
    next =>
      constructor
      · rw [returns_bind]
        exact ⟨hret, fun out₁ h₁ => (hrest out₁ (hlen out₁ h₁)).1⟩
      · intro out' hrun
        obtain ⟨out₁, h₁, hrun⟩ := bind_eq_ok.mp hrun
        exact (hrest out₁ (hlen out₁ h₁)).2 out' hrun

/-- An index tree appends at most what is missing. -/
lemma appendIndirect_appends (hf : fs.Framed) (total d : Nat) : ∀ {b : Nat}, b < 2 ^ 32 →
    Appends total (fs.appendIndirect fs.source.blockSize total d b) := by
  induction d with
  | zero => exact fun hb => appendBlock_appends hf total hb
  | succ d ih =>
    intro b hb out hle
    rw [appendIndirect]
    split
    next => exact ⟨trivial, fun out' h => by cases h; exact hle⟩
    next =>
      rw [hf.readBlock hb]
      split
      next =>
        refine appendEach_appends total _ (fun p hp => ih ?_) out hle
        obtain ⟨i, -, rfl⟩ := mem_map.mp hp
        exact leAt_four_lt _ _
      next => exact ⟨trivial, fun _ h => by cases h⟩

/-- Reading the data of an inode comes back, except from an extent tree with a
cycle. -/
lemma readInodeData_returns (hsz : fs.source.Sized) (hf : fs.Framed) (ino : Inode) :
    (fs.readInodeData ino).Returns ↔ (ino.hasExtents = true → fs.ExtentsGrounded ino) := by
  rw [readInodeData]
  cases hext : ino.hasExtents with
  | true =>
    rw [if_pos rfl, readExtentInode_returns hsz hf]
    exact ⟨fun h _ => h, fun h => h rfl⟩
  | false =>
    refine ⟨fun _ h => (by cases h), fun _ => ?_⟩
    have hdirect := appendEach_appends ino.size.toNat
      ((ino.block.toList.take 12).map (·.toNat)) (fun p hp => by
        obtain ⟨w, -, rfl⟩ := mem_map.mp hp
        exact appendBlock_appends hf ino.size.toNat w.toNat_lt) [] (zero_le _)
    rw [hf.blockSize]
    simp only [Bool.false_eq_true, if_false, ok_bind, returns_bind]
    refine ⟨hdirect.1, fun out₀ h₀ => ?_⟩
    have h1 := appendIndirect_appends hf ino.size.toNat 1 (toNat_lt ino.single) out₀
      (hdirect.2 out₀ h₀)
    refine ⟨h1.1, fun out₁ h₁ => ?_⟩
    have h2 := appendIndirect_appends hf ino.size.toNat 2 (toNat_lt ino.double) out₁
      (h1.2 out₁ h₁)
    refine ⟨h2.1, fun out₂ h₂ => ?_⟩
    have h3 := appendIndirect_appends hf ino.size.toNat 3 (toNat_lt ino.triple) out₂
      (h2.2 out₂ h₂)
    exact ⟨h3.1, fun _ _ => trivial⟩

/-! ### Directories and paths -/

/-- The record loop moves on by at least a byte a round. -/
lemma dirEntries_returns (data : List UInt8) (fuel : Nat) : ∀ pos : Nat,
    data.length < pos + fuel → (dirEntries data fuel pos).Returns ∨ fuel = 0 := by
  induction fuel with
  | zero => exact fun _ _ => .inr rfl
  | succ fuel ih =>
    intro pos hfuel
    refine .inl ?_
    rw [dirEntries]
    split
    next => exact trivial
    next hroom =>
      simp only
      split
      next => exact trivial
      next hrec =>
        rw [returns_bind]
        refine ⟨(ih (pos + leAt data (pos + 4) 2) (by omega)).resolve_right (by omega),
          fun rest _ => ?_⟩
        split
        next => split <;> exact trivial
        next => exact trivial

lemma readDir_returns (hsz : fs.source.Sized) (hf : fs.Framed) (dir : Inode) :
    (fs.readDir dir).Returns ↔ (dir.hasExtents = true → fs.ExtentsGrounded dir) := by
  rw [readDir, returns_bind, readInodeData_returns hsz hf]
  refine ⟨fun h => h.1, fun h => ⟨h, fun data _ => ?_⟩⟩
  exact (dirEntries_returns data (data.length + 1) 0 (by omega)).resolve_right (by omega)

/-- The end of `read_file`, behind the lookup. -/
def readAt (fs : Ext2Fs) (ino : Nat) : Outcome String (List UInt8) := do
  let inode ← fs.readInode ino
  if inode.isSymlink && inode.size.toNat ≤ 60 then pure (inode.blockBytes.take inode.size.toNat)
  else if !inode.isReg && !inode.isSymlink then .err "not a regular file"
  else fs.readInodeData inode

/-- When the file of an inode is read or refused. -/
lemma readAt_returns (hsz : fs.source.Sized) (hf : fs.Framed) {ino : Nat} (hino : ino < 2 ^ 32) :
    (fs.readAt ino).Returns ↔ fs.StepSafe [] ino := by
  rw [readAt, returns_bind, readInode_returns hsz hf hino]
  have hbody (inode : Inode) :
      (if inode.isSymlink && inode.size.toNat ≤ 60 then
          pure (inode.blockBytes.take inode.size.toNat)
        else if !inode.isReg && !inode.isSymlink then .err "not a regular file"
        else fs.readInodeData inode : Outcome String (List UInt8)).Returns ↔
      (Opens [] inode → inode.hasExtents = true → fs.ExtentsGrounded inode) := by
    have hkind := inode.not_isSymlink
    simp only [Opens, returns_ite, readInodeData_returns hsz hf, pure_eq, returns_ok, returns_err]
    grind
  constructor
  · rintro ⟨⟨hdiv, hrec⟩, hrest⟩
    exact ⟨hdiv, hrec, fun inode hread => (hbody inode).mp (hrest inode hread)⟩
  · exact fun h => ⟨⟨h.divisor, h.record⟩, fun inode hread =>
      (hbody inode).mpr (h.extents inode hread)⟩

lemma reached_nil {ino i : Nat} {rest : List Str} :
    fs.Reached [] ino rest i ↔ rest = [] ∧ i = ino := by
  constructor
  · intro h
    cases h
    exact ⟨rfl, rfl⟩
  · rintro ⟨rfl, rfl⟩
    exact .here

/-- One round of the lookup with the rest of the call behind it. -/
def enterDir (fs : Ext2Fs) (c : Str) (next : Nat → Outcome String (List UInt8)) (inode : Inode) :
    Outcome String (List UInt8) :=
  if !inode.isDir then .err "not a directory"
  else do
    let entries ← fs.readDir inode
    match entries.find? (·.name == c) with
    | none => .err "path component not found"
    | some e => next e.inode.toNat

/-- When a component of a path is entered or refused. -/
lemma enterDir_returns (hsz : fs.source.Sized) (hf : fs.Framed) (inode : Inode) (c : Str)
    (next : Nat → Outcome String (List UInt8)) :
    (fs.enterDir c next inode).Returns ↔
      (inode.isDir = true →
        (inode.hasExtents = true → fs.ExtentsGrounded inode) ∧
        ∀ entries, fs.readDir inode = .ok entries →
          ∀ e, entries.find? (·.name == c) = some e → (next e.inode.toNat).Returns) := by
  rw [enterDir]
  cases hdir : inode.isDir with
  | false => exact ⟨fun _ h => (nomatch h), fun _ => trivial⟩
  | true =>
    show (fs.readDir inode >>= _).Returns ↔ _
    rw [returns_bind, readDir_returns hsz hf]
    constructor
    · refine fun ⟨hext, hrest⟩ _ => ⟨hext, fun entries hentries e hfind => ?_⟩
      have h := hrest entries hentries
      rw [hfind] at h
      exact h
    · intro h
      obtain ⟨hext, hrest⟩ := h rfl
      refine ⟨hext, fun entries hentries => ?_⟩
      cases hfind : entries.find? (·.name == c) with
      | none => exact trivial
      | some e => exact hrest entries hentries e hfind

lemma lookupFrom_cons (fs : Ext2Fs) (c : Str) (cs : List Str) (ino : Nat) :
    (fs.lookupFrom (c :: cs) ino >>= fs.readAt)
      = fs.readInode ino >>= fs.enterDir c fun i => fs.lookupFrom cs i >>= fs.readAt := by
  rw [lookupFrom, bind_assoc]
  congr 1
  funext inode
  rw [enterDir]
  cases inode.isDir with
  | false => rfl
  | true =>
    show (fs.readDir inode >>= _) >>= _ = fs.readDir inode >>= _
    rw [bind_assoc]
    congr 1
    funext entries
    cases entries.find? (·.name == c) <;> rfl

/-- The walk and the read at its end come back exactly when every inode of the
walk can be read. -/
lemma walk_returns (hsz : fs.source.Sized) (hf : fs.Framed) (cs : List Str) :
    ∀ {ino : Nat}, ino < 2 ^ 32 →
      ((fs.lookupFrom cs ino >>= fs.readAt).Returns ↔
        ∀ rest i, fs.Reached cs ino rest i → fs.StepSafe rest i) := by
  induction cs with
  | nil =>
    intro ino hino
    rw [lookupFrom, ok_bind, readAt_returns hsz hf hino]
    constructor
    · intro h rest i hr
      obtain ⟨rfl, rfl⟩ := reached_nil.mp hr
      exact h
    · exact fun h => h [] ino .here
  | cons c cs ih =>
    intro ino hino
    have hopens : ∀ inode : Inode, Opens (c :: cs) inode ↔ inode.isDir = true := fun inode => by
      rw [Opens, if_neg (cons_ne_nil c cs)]
    rw [lookupFrom_cons, returns_bind, readInode_returns hsz hf hino]
    constructor
    · rintro ⟨⟨hdiv, hrec⟩, hbody⟩ rest i hr
      cases hr with
      | here =>
        refine ⟨hdiv, hrec, fun inode hread hop => ?_⟩
        exact (((enterDir_returns hsz hf inode c _).mp (hbody inode hread))
          ((hopens inode).mp hop)).1
      | step hread hdir hentries hfind hrest =>
        obtain ⟨-, hnext⟩ := (enterDir_returns hsz hf _ c _).mp (hbody _ hread) hdir
        exact (ih (toNat_lt _)).mp (hnext _ hentries _ hfind) rest i hrest
    · intro h
      have hhere := h (c :: cs) ino .here
      refine ⟨⟨hhere.divisor, hhere.record⟩, fun inode hread => ?_⟩
      refine (enterDir_returns hsz hf inode c _).mpr fun hdir => ⟨?_, ?_⟩
      · exact hhere.extents inode hread ((hopens inode).mpr hdir)
      · intro entries hentries e hfind
        exact (ih (toNat_lt _)).mpr fun rest i hr =>
          h rest i (.step hread hdir hentries hfind hr)

lemma readFile_returns (hsz : fs.source.Sized) (hf : fs.Framed) (path : Str) :
    (fs.readFile path).Returns ↔ fs.PathSafe path := by
  exact walk_returns hsz hf (components path) (by decide)

end Ext2Fs

/-! ## The whole -/

/-- The image as the journal replay leaves it. -/
def Image.replayed (img : Image) : Image := (maybeReplayJournal img).2

/-- `mount` comes back, and so does the read of `path` on what it mounted. -/
def MountRead (img : Image) (path : Str) : Prop :=
  (mount img).Returns ∧ ∀ fs, mount img = .ok fs → (fs.readFile path).Returns

/-- What an image has to satisfy for that. -/
structure ReadSafe (img : Image) (path : Str) : Prop where
  journal : JournalSafe img
  table : TableSafe img.replayed
  path : ∀ fs, mount img = .ok fs → fs.PathSafe path

lemma mount_eq_mountImage (h : (maybeReplayJournal img).1.Returns) :
    mount img = mountImage img.replayed := by
  rw [mount, Image.replayed]
  rcases hrun : maybeReplayJournal img with ⟨o, img'⟩
  rw [hrun] at h
  cases o with
  | ok a => rfl
  | err e => rfl
  | _ => exact absurd h id

/-- When mounting comes back. -/
lemma mount_returns (hsz : img.Sized) :
    (mount img).Returns ↔ JournalSafe img ∧ TableSafe img.replayed := by
  obtain ⟨hreplay, hframe⟩ := maybeReplayJournal_returns hsz
  have hsz' : img.replayed.Sized := hframe.sized hsz
  rw [← hreplay]
  by_cases hret : (maybeReplayJournal img).1.Returns
  · rw [mount_eq_mountImage hret, mountImage_returns hsz']
    exact ⟨fun h => ⟨hret, h⟩, fun h => h.2⟩
  · refine ⟨fun h => absurd h ?_, fun h => absurd h.1 hret⟩
    rw [mount]
    rcases hrun : maybeReplayJournal img with ⟨o, img'⟩
    rw [hrun] at hret
    cases o with
    | panic => exact id
    | diverge => exact id
    | _ => exact absurd trivial hret

lemma mount_sized (hsz : img.Sized) {fs : Ext2Fs} (h : mount img = .ok fs) :
    fs.source.Sized := by
  have hret : (maybeReplayJournal img).1.Returns := by
    refine (maybeReplayJournal_returns hsz).1.mpr ((mount_returns hsz).mp ?_).1
    rw [h]
    exact trivial
  rw [mount_eq_mountImage hret] at h
  rw [(mountImage_framed h).1]
  exact (maybeReplayJournal_returns hsz).2.sized hsz

/-- Mounting an image and reading a path comes back, with a value or an error,
exactly on the images of `ReadSafe`. -/
theorem mount_read_returns_iff {img : Image} (hsz : img.Sized) (path : Str) :
    MountRead img path ↔ ReadSafe img path := by
  rw [MountRead, mount_returns hsz]
  constructor
  · rintro ⟨⟨hj, ht⟩, hread⟩
    refine ⟨hj, ht, fun fs hfs => ?_⟩
    exact (Ext2Fs.readFile_returns (mount_sized hsz hfs) (mount_framed hfs) path).mp (hread fs hfs)
  · intro h
    refine ⟨⟨h.journal, h.table⟩, fun fs hfs => ?_⟩
    exact (Ext2Fs.readFile_returns (mount_sized hsz hfs) (mount_framed hfs) path).mpr
      (h.path fs hfs)

/-- The root of a narrow image. -/
theorem mount_read_narrow :
    narrowImage.Sized ∧ MountRead narrowImage ['/'] ∧ ReadSafe narrowImage ['/'] := by
  have hsz : narrowImage.Sized := narrowImage_layout.sized
  have hrun : MountRead narrowImage ['/'] := by
    rw [MountRead, mount_narrowImage]
    refine ⟨trivial, fun fs hfs => ?_⟩
    cases hfs
    decide +kernel
  exact ⟨hsz, hrun, (mount_read_returns_iff hsz ['/']).mp hrun⟩

/-- Two blocks whose superblock states no blocks per group. -/
@[irreducible] def dividingImage : Image where
  blockSize := 1024
  data := zeros 1024 ++ bareSuperblock 2 0 0 1 0 0 16

/-- `num_groups` divides by it. -/
theorem mount_divides_by_zero :
    dividingImage.Sized ∧ mount dividingImage = .panic ∧ ¬ MountRead dividingImage ['/'] := by
  have hpanic : mount dividingImage = .panic := by decide +kernel
  refine ⟨by decide +kernel, hpanic, fun h => ?_⟩
  have hret := h.1
  rw [hpanic] at hret
  exact hret

end RustOs.Fs.Ext2
