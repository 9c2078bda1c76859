import RustOs.Drivers.Ata
import RustOs.Fs.Types
import RustOs.Fs.Fat32.Entry

/-!
# The FAT32 driver

`src/fs/fat32.rs`, function by function, over any drive. The numbers are `u32`
in the source; every product, sum and difference that could leave its width or
go below zero is checked, and every index into the 512-byte sector buffer is
too, so a run that would panic ends in `panic` here. A read with an underflow,
such as cluster 0 of an empty file or of a `..` entry, is one of those.

Loops over cluster chains carry fuel. `getNextCluster` masks its result to 28
bits, so a walk of more than `chainFuel` steps has met a cluster twice; a walk
that only reads would then go on for ever.
-/

namespace RustOs.Fs

open Lib
open Lib.Outcome (uadd usub umul udiv urem)
open Drivers

/-- A mounted volume: the numbers taken from the boot sector. -/
structure Fat32 where
  firstDataSector : Nat
  sectorsPerCluster : Nat
  bytesPerSector : Nat
  firstFatSector : Nat
  rootCluster : Nat
  sectorsPerFat : Nat
  totalSectors : Nat
  totalClusters : Nat
  numFats : Nat
  fsInfoSector : Nat
  deriving DecidableEq

namespace Fat32

/-- More steps than there are 28-bit cluster numbers, and one for the start. -/
def chainFuel : Nat := 2 ^ 28 + 2

/-- The end-of-chain mark the driver writes. -/
def endOfChain : Nat := 0x0FFFFFFF

/-- Bytes in a cluster. -/
def clusterSize (fs : Fat32) : Nat := fs.sectorsPerCluster * fs.bytesPerSector

/-- `cluster_to_sector`. -/
def clusterToSector (fs : Fat32) (cluster : Nat) : Outcome String Nat := do
  let i ← usub cluster 2
  let s ← umul 32 i fs.sectorsPerCluster
  uadd 32 s fs.firstDataSector

/-- Four bytes of a sector buffer, or a panic past its end. -/
def le32In (s : Sector) (off : Nat) : Outcome String Nat :=
  if off + 4 ≤ 512 then .ok (leAt s.bytes off 4) else .panic

/-- The sector buffer with four bytes replaced, or a panic past its end. -/
def setLe32In (s : Sector) (off v : Nat) : Outcome String Sector :=
  if off + 4 ≤ 512 then .ok (Sector.ofBytes (patch s.bytes off (leBytes 4 v))) else .panic

section
variable {σ : Type} [Drive σ]

variable (fs : Fat32)

variable (cluster : Nat)

/-- `read_cluster`. -/
def readCluster : Prog σ String (List UInt8) := do
  let sector ← Prog.lift (fs.clusterToSector cluster)
  readSectors sector fs.sectorsPerCluster fs.clusterSize

/-- `write_cluster`: pads with zeros to a whole cluster. -/
def writeCluster (data : List UInt8) : Prog σ String Unit := do
  let sector ← Prog.lift (fs.clusterToSector cluster)
  if data.length > fs.clusterSize then Prog.fail "Data exceeds cluster size"
  else writeSectors sector fs.sectorsPerCluster (padTo fs.clusterSize data)

/-- The low 28 bits of a FAT entry of the first copy, as `get_next_cluster`,
`find_free_cluster` and the scans read it. -/
def readFatEntry : Prog σ String Nat := do
  let fatOffset ← Prog.lift (umul 32 cluster 4)
  let q ← Prog.lift (udiv fatOffset fs.bytesPerSector)
  let fatSector ← Prog.lift (uadd 32 fs.firstFatSector q)
  let entryOffset ← Prog.lift (urem fatOffset fs.bytesPerSector)
  let buf ← Drive.readSector fatSector
  let raw ← Prog.lift (le32In buf entryOffset)
  pure (raw % 2 ^ 28)

/-- `get_next_cluster`. -/
def getNextCluster : Prog σ String (Option Nat) := do
  let next ← fs.readFatEntry cluster
  if next ≥ 0x0FFFFFF8 then pure none
  else if next < 2 then Prog.fail "Invalid cluster number in FAT"
  else pure (some next)

/-- The loop of `write_cluster_chain`, on the data still to be written. -/
def writeClusterChainFrom (fs : Fat32) : Nat → Nat → List UInt8 → Prog σ String Unit
  | 0, _, data => if data.isEmpty then pure () else Prog.lift .diverge
  | fuel + 1, current, data =>
    if data.isEmpty then pure ()
    else do
      fs.writeCluster current (data.take fs.clusterSize)
      let rest := data.drop fs.clusterSize
      if rest.isEmpty then pure ()
      else
        match ← fs.getNextCluster current with
        | some next => writeClusterChainFrom fs fuel next rest
        | none => Prog.fail "Cluster chain too short for data"

/-- `write_cluster_chain`: each turn takes a byte at least. -/
def writeClusterChain (start : Nat) (data : List UInt8) : Prog σ String Unit :=
  fs.writeClusterChainFrom data.length start data

/-- The loop of `read_cluster_chain`. -/
def readClusterChainFrom (fs : Fat32) : Nat → Nat → Prog σ String (List UInt8)
  | 0, _ => Prog.lift .diverge
  | fuel + 1, current => do
    let data ← fs.readCluster current
    match ← fs.getNextCluster current with
    | some next => do
      let rest ← readClusterChainFrom fs fuel next
      pure (data ++ rest)
    | none => pure data

/-- `read_cluster_chain`. -/
def readClusterChain (start : Nat) : Prog σ String (List UInt8) :=
  fs.readClusterChainFrom chainFuel start

/-- `read_directory_with_lfn`. -/
def readDirectoryWithLfn :
    Prog σ String (List (DirectoryEntry × Option Str)) := do
  let data ← fs.readClusterChain cluster
  pure (scanSlots (slots data) LfnState.init)

/-- `read_directory`. -/
def readDirectory : Prog σ String (List DirectoryEntry) := do
  let entries ← fs.readDirectoryWithLfn cluster
  pure (entries.map (·.1))

/-- `find_file_in_directory`. -/
def findFileInDirectory (dirCluster : Nat) (filename : Str) :
    Prog σ String (Option DirectoryEntry) := do
  let entries ← fs.readDirectoryWithLfn dirCluster
  pure ((entries.find? (nameMatches filename)).map (·.1))

/-- The component loop of `find_file`. -/
def findFileFrom (fs : Fat32) : Nat → List Str → Prog σ String (Option DirectoryEntry)
  | _, [] => pure none
  | current, [component] => fs.findFileInDirectory current component
  | current, component :: rest => do
    match ← fs.findFileInDirectory current component with
    | some entry =>
      if entry.isDirectory then findFileFrom fs entry.firstCluster rest
      else Prog.fail "Not a directory in path"
    | none => pure none

variable (path : Str)

/-- `find_file`; the root itself has no entry. -/
def findFile : Prog σ String (Option DirectoryEntry) :=
  fs.findFileFrom fs.rootCluster (components (trimStartMatches '/' path))

/-- The component loop of `find_directory_cluster`. -/
def findDirectoryClusterFrom (fs : Fat32) : Nat → List Str → Prog σ String Nat
  | current, [] => pure current
  | current, component :: rest => do
    match ← fs.findFileInDirectory current component with
    | some entry =>
      if entry.isDirectory then findDirectoryClusterFrom fs entry.firstCluster rest
      else Prog.fail "Not a directory"
    | none => Prog.fail "Directory not found"

/-- `find_directory_cluster`. -/
def findDirectoryCluster : Prog σ String Nat :=
  fs.findDirectoryClusterFrom fs.rootCluster (components (trimStartMatches '/' path))

/-- The scan of `find_free_cluster` over the `n` clusters from `cluster` on. -/
def findFreeClusterFrom (fs : Fat32) : Nat → Nat → Prog σ String (Option Nat)
  | _, 0 => pure none
  | cluster, n + 1 => do
    let entry ← fs.readFatEntry cluster
    if entry = 0 then pure (some cluster)
    else findFreeClusterFrom fs (cluster + 1) n

/-- `find_free_cluster`: the first free cluster of `2..total_clusters + 2`. -/
def findFreeCluster : Prog σ String (Option Nat) := do
  let _ ← Prog.lift (uadd 32 fs.totalClusters 2)
  fs.findFreeClusterFrom 2 fs.totalClusters

/-- The loop of `write_fat_entry` over the FAT copies from `fatIdx` on. The top
four bits of the old entry are kept. -/
def writeFatEntryFrom (fs : Fat32) (fatOffset entryOffset masked : Nat) :
    Nat → Nat → Prog σ String Unit
  | _, 0 => pure ()
  | fatIdx, n + 1 => do
    let o ← Prog.lift (umul 32 fatIdx fs.sectorsPerFat)
    let fatBase ← Prog.lift (uadd 32 fs.firstFatSector o)
    let q ← Prog.lift (udiv fatOffset fs.bytesPerSector)
    let fatSector ← Prog.lift (uadd 32 fatBase q)
    let buf ← Drive.readSector fatSector
    let existing ← Prog.lift (le32In buf entryOffset)
    let buf' ← Prog.lift (setLe32In buf entryOffset (existing / 2 ^ 28 * 2 ^ 28 + masked))
    Drive.writeSector fatSector buf'
    writeFatEntryFrom fs fatOffset entryOffset masked (fatIdx + 1) n

/-- `write_fat_entry`: the same entry in every FAT copy. -/
def writeFatEntry (cluster value : Nat) : Prog σ String Unit := do
  let fatOffset ← Prog.lift (umul 32 cluster 4)
  let entryOffset ← Prog.lift (urem fatOffset fs.bytesPerSector)
  fs.writeFatEntryFrom fatOffset entryOffset (value % 2 ^ 28) 0 fs.numFats

/-- `update_fsinfo`: move the free-cluster count by `delta`, saturating, and
record the allocation hint if there is one. -/
def updateFsinfo (delta : Int) (hint : Nat) : Prog σ String Unit :=
  if fs.fsInfoSector = 0 ∨ fs.fsInfoSector = 0xFFFF then pure ()
  else do
    let buf ← Drive.readSector fs.fsInfoSector
    if leAt buf.bytes 0 4 ≠ 0x41615252 then pure ()
    else do
      let curFree := leAt buf.bytes 488 4
      let b1 :=
        if curFree ≠ 0xFFFFFFFF then
          patch buf.bytes 488 (leBytes 4
            (if delta < 0 then curFree - delta.natAbs else min (curFree + delta.toNat) 0xFFFFFFFF))
        else buf.bytes
      let b2 := if hint ≠ 0 then patch b1 492 (leBytes 4 hint) else b1
      Drive.writeSector fs.fsInfoSector (Sector.ofBytes b2)

/-- The roll-back loop of `allocate_clusters`; its errors are dropped. -/
def rollBack (fs : Fat32) : List Nat → Prog σ String Unit
  | [] => pure ()
  | c :: rest => do
    let _ ← (fs.writeFatEntry c 0).attempt
    rollBack fs rest

/-- The linking loop of `allocate_clusters`, with `prev` the last cluster of
`chain`: `n` more clusters are wanted. A read error of the search is returned
as it is; the other failures roll back first. -/
def allocateFrom (fs : Fat32) : Nat → List Nat → Nat → Prog σ String Unit
  | 0, _, _ => pure ()
  | n + 1, chain, prev => do
    match ← fs.findFreeCluster with
    | none => do
      fs.rollBack chain
      Prog.fail "Insufficient space"
    | some next =>
      match ← (fs.writeFatEntry prev next).attempt with
      | .error e => do
        fs.rollBack chain
        Prog.fail e
      | .ok _ =>
        match ← (fs.writeFatEntry next endOfChain).attempt with
        | .error e => do
          fs.rollBack chain
          Prog.fail e
        | .ok _ => allocateFrom fs n (chain ++ [next]) next

/-- `allocate_clusters`. -/
def allocateClusters (numClusters : Nat) : Prog σ String Nat :=
  if numClusters = 0 then Prog.fail "Cannot allocate zero clusters"
  else do
    match ← fs.findFreeCluster with
    | none => Prog.fail "No free space available"
    | some first => do
      fs.writeFatEntry first endOfChain
      fs.allocateFrom (numClusters - 1) [first] first
      pure first

/-- The loop of `free_cluster_chain`; returns how many clusters it freed. -/
def freeClusterChainFrom (fs : Fat32) : Nat → Nat → Prog σ String Nat
  | 0, _ => Prog.lift .diverge
  | fuel + 1, current => do
    let next ← fs.getNextCluster current
    fs.writeFatEntry current 0
    match next with
    | some next => do
      let n ← freeClusterChainFrom fs fuel next
      pure (n + 1)
    | none => pure 1

/-- `free_cluster_chain`; an error of the FSInfo update is dropped. -/
def freeClusterChain (start : Nat) : Prog σ String Unit := do
  let freed ← fs.freeClusterChainFrom chainFuel start
  let _ ← (fs.updateFsinfo freed 0).attempt
  pure ()

/-- The first walk of `truncate_chain`: `n` clusters further along the chain. -/
def skipClusters (fs : Fat32) : Nat → Nat → Prog σ String Nat
  | 0, current => pure current
  | n + 1, current => do
    match ← fs.getNextCluster current with
    | some next => skipClusters fs n next
    | none => Prog.fail "chain shorter than keep_clusters"

/-- `truncate_chain`. The second walk is the loop of `free_cluster_chain`. For
`keep_clusters == 0` the count is not known and `u32::MAX` is returned. -/
def truncateChain (start keepClusters : Nat) : Prog σ String Nat :=
  if keepClusters = 0 then do
    fs.freeClusterChain start
    pure (2 ^ 32 - 1)
  else do
    let current ← fs.skipClusters (keepClusters - 1) start
    let tail ← fs.getNextCluster current
    fs.writeFatEntry current endOfChain
    match tail with
    | some t => do
      let freed ← fs.freeClusterChainFrom chainFuel t
      let _ ← (fs.updateFsinfo freed 0).attempt
      pure freed
    | none => pure 0

/-- The inner loop of `count_used_clusters`: `n` entries of a sector from
`entryIdx` on. It stops at the end of the 512-byte buffer. -/
def countUsedIn (buf : Sector) : Nat → Nat → Nat → Outcome String Nat
  | _, 0, used => .ok used
  | entryIdx, n + 1, used =>
    if entryIdx * 4 + 4 > 512 then .ok used
    else do
      let used ← if 2 ≤ leAt buf.bytes (entryIdx * 4) 4 % 2 ^ 28 then uadd 32 used 1 else .ok used
      countUsedIn buf (entryIdx + 1) n used

/-- The outer loop of `count_used_clusters`, over `n` sectors of the first FAT. -/
def countUsedFrom (fs : Fat32) : Nat → Nat → Nat → Prog σ String Nat
  | _, 0, used => pure used
  | sectorOffset, n + 1, used => do
    let fatSector ← Prog.lift (uadd 32 fs.firstFatSector sectorOffset)
    let buf ← Drive.readSector fatSector
    let used ← Prog.lift (countUsedIn buf 0 (fs.bytesPerSector / 4) used)
    countUsedFrom fs (sectorOffset + 1) n used

/-- `count_used_clusters`. -/
def countUsedClusters : Prog σ String Nat :=
  fs.countUsedFrom 0 fs.sectorsPerFat 0

/-! ## Directory updates

All four work on the root directory and take the name as it is passed to them. -/

/-- `to_short_name` as a fallible step. -/
def shortNameOf (filename : Str) : Outcome String (Vector UInt8 11) :=
  match toShortName filename with
  | .ok n => .ok n
  | .error e => .err e

/-- `write_directory_entry_to_root`: the first free slot takes the entry. -/
def writeDirectoryEntryToRoot (entry : DirectoryEntry) : Prog σ String Unit := do
  let data ← fs.readClusterChain fs.rootCluster
  match (slots data).findIdx? (fun raw => (DirectoryEntry.ofBytes raw).isFree
      || (DirectoryEntry.ofBytes raw).isLast) with
  | some i => fs.writeClusterChain fs.rootCluster (patch data (i * 32) entry.toBytes)
  | none => Prog.fail "No free directory entries"

/-- A slot `update_directory_entry` and `delete_directory_entry` accept. -/
def holdsShortName (name : Vector UInt8 11) (raw : List UInt8) : Bool :=
  !(DirectoryEntry.ofBytes raw).isFree && !(DirectoryEntry.ofBytes raw).isLongName
    && (DirectoryEntry.ofBytes raw).name == name

/-- A fresh entry for a file or a directory. -/
def newEntry (name : Vector UInt8 11) (attributes : UInt8) (firstCluster fileSize : Nat) :
    DirectoryEntry where
  name := name
  attributes := attributes
  ntReserved := 0
  creationTimeTenths := 0
  creationTime := 0
  creationDate := 0
  lastAccessDate := 0
  firstClusterHigh := UInt16.ofNat (firstCluster / 65536)
  writeTime := 0
  writeDate := 0
  firstClusterLow := UInt16.ofNat firstCluster
  fileSize := UInt32.ofNat fileSize

/-- `create_file_entry`, with `ATTR_ARCHIVE`. -/
def createFileEntry (filename : Str) (firstCluster fileSize : Nat) :
    Prog σ String Unit := do
  let name ← Prog.lift (shortNameOf filename)
  fs.writeDirectoryEntryToRoot (newEntry name 0x20 firstCluster fileSize)

/-- `create_dir_entry`, with `ATTR_DIRECTORY`. -/
def createDirEntry (dirname : Str) (firstCluster : Nat) : Prog σ String Unit := do
  let name ← Prog.lift (shortNameOf dirname)
  fs.writeDirectoryEntryToRoot (newEntry name 0x10 firstCluster 0)

/-- `update_directory_entry`. -/
def updateDirectoryEntry (filename : Str) (entry : DirectoryEntry) :
    Prog σ String Unit := do
  let name ← Prog.lift (shortNameOf filename)
  let data ← fs.readClusterChain fs.rootCluster
  match (slots data).findIdx? (holdsShortName name) with
  | some i => fs.writeClusterChain fs.rootCluster (patch data (i * 32) entry.toBytes)
  | none => Prog.fail "File not found in directory"

/-- `delete_directory_entry`: the first byte of the slot becomes `0xE5`. -/
def deleteDirectoryEntry (filename : Str) : Prog σ String Unit := do
  let name ← Prog.lift (shortNameOf filename)
  let data ← fs.readClusterChain fs.rootCluster
  match (slots data).findIdx? (holdsShortName name) with
  | some i => fs.writeClusterChain fs.rootCluster (patch data (i * 32) [0xE5])
  | none => Prog.fail "File not found in directory"

/-! ## The `FileSystem` operations -/

/-- `FileSystem::read`. A size past the end of the chain is a slice panic. -/
def read : Prog σ VfsError (List UInt8) := do
  match ← (fs.findFile path).mapErr (fun _ => .ioError) with
  | some entry =>
    if entry.isDirectory then Prog.fail .permissionDenied
    else do
      let data ← (fs.readClusterChain entry.firstCluster).mapErr (fun _ => .ioError)
      if entry.fileSize.toNat ≤ data.length then pure (data.take entry.fileSize.toNat)
      else Prog.lift .panic
  | none => Prog.fail .fileNotFound

/-- The clusters `write` asks for: at least one, counted in a `u32`. -/
def clustersFor (data : List UInt8) : Nat :=
  max ((data.length + fs.clusterSize - 1) / fs.clusterSize % 2 ^ 32) 1

/-- The conditional `free_cluster_chain` that `write` and `delete` start with. -/
def freeEntry (entry : DirectoryEntry) : Prog σ VfsError Unit :=
  if entry.firstCluster ≠ 0 then
    (fs.freeClusterChain entry.firstCluster).mapErr (fun _ => .ioError)
  else pure ()

/-- The `Some(entry)` arm of `write`: the old chain is freed first. -/
def writeExisting (entry : DirectoryEntry) (data : List UInt8) :
    Prog σ VfsError Unit := do
  fs.freeEntry entry
  let first ← (fs.allocateClusters (fs.clustersFor data)).mapErr (fun _ => .noSpace)
  (fs.writeClusterChain first data).mapErr (fun _ => .ioError)
  (fs.updateDirectoryEntry path
    { entry.setFirstCluster first with fileSize := UInt32.ofNat data.length }).mapErr
      (fun _ => .ioError)

/-- The `None` arm of `write`. -/
def writeNew (data : List UInt8) : Prog σ VfsError Unit := do
  let first ← (fs.allocateClusters (fs.clustersFor data)).mapErr (fun _ => .noSpace)
  (fs.writeClusterChain first data).mapErr (fun _ => .ioError)
  (fs.createFileEntry path first (data.length % 2 ^ 32)).mapErr (fun _ => .ioError)

/-- `FileSystem::write`. -/
def write (data : List UInt8) : Prog σ VfsError Unit := do
  match ← (fs.findFile (trimStartMatches '/' path)).mapErr (fun _ => .ioError) with
  | some entry => fs.writeExisting (trimStartMatches '/' path) entry data
  | none => fs.writeNew (trimStartMatches '/' path) data

/-- What `delete` does to a file it found. -/
def deleteFile (entry : DirectoryEntry) : Prog σ VfsError Unit := do
  fs.freeEntry entry
  (fs.deleteDirectoryEntry path).mapErr (fun _ => .ioError)

/-- `FileSystem::delete`. -/
def delete : Prog σ VfsError Unit := do
  match ← (fs.findFile (trimStartMatches '/' path)).mapErr (fun _ => .ioError) with
  | some entry =>
    if entry.isDirectory then Prog.fail .permissionDenied
    else fs.deleteFile (trimStartMatches '/' path) entry
  | none => Prog.fail .fileNotFound

/-- `FileSystem::exists`. -/
def exists_ : Prog σ VfsError Bool := do
  match ← (fs.findFile path).attempt with
  | .ok (some _) => pure true
  | .ok none => pure false
  | .error _ => pure false

/-- `split_path`. -/
def splitPath : Str × Str :=
  match rfindSplit '/' (trimStartMatches '/' path) with
  | some (parent, name) => (parent, name)
  | none => ([], trimStartMatches '/' path)

/-- The name of a `.` entry. -/
def dotName : Vector UInt8 11 :=
  ⟨#[0x2E, 0x20, 0x20, 0x20, 0x20, 0x20, 0x20, 0x20, 0x20, 0x20, 0x20], rfl⟩

/-- The name of a `..` entry. -/
def dotdotName : Vector UInt8 11 :=
  ⟨#[0x2E, 0x2E, 0x20, 0x20, 0x20, 0x20, 0x20, 0x20, 0x20, 0x20, 0x20], rfl⟩

/-- The bytes of a new directory: `.`, `..` and empty slots. -/
def newDirectory (cluster parent : Nat) : List UInt8 :=
  padTo fs.clusterSize ((newEntry dotName 0x10 cluster 0).toBytes
    ++ (newEntry dotdotName 0x10 parent 0).toBytes)

/-- The `..` cluster `mkdir` stores: 0 below the root, the root when the parent
cannot be found. -/
def parentCluster : Prog σ VfsError Nat :=
  if trimStartMatches '/' (splitPath path).1 = [] then pure 0
  else do
    match ← (fs.findDirectoryCluster (splitPath path).1).attempt with
    | .ok c => pure c
    | .error _ => pure fs.rootCluster

/-- What `mkdir` does with a path it did not find. -/
def makeDirectory : Prog σ VfsError Unit := do
  let cluster ← (fs.allocateClusters 1).mapErr (fun _ => .noSpace)
  let parent ← fs.parentCluster path
  (fs.writeClusterChain cluster (fs.newDirectory cluster parent)).mapErr (fun _ => .ioError)
  (fs.createDirEntry path cluster).mapErr (fun _ => .ioError)

/-- `FileSystem::mkdir`. A failed lookup counts as "does not exist". -/
def mkdir : Prog σ VfsError Unit :=
  if trimStartMatches '/' path = [] then Prog.fail .fileExists
  else do
    match ← (fs.findFile (trimStartMatches '/' path)).attempt with
    | .ok (some _) => Prog.fail .fileExists
    | .ok none => fs.makeDirectory (trimStartMatches '/' path)
    | .error _ => fs.makeDirectory (trimStartMatches '/' path)

/-- An entry `rmdir` and the listings skip. -/
def isDot (e : DirectoryEntry) : Bool := e.getName == ['.'] || e.getName == ['.', '.']

/-- What `rmdir` does to an empty directory it found. -/
def removeDirectory (entry : DirectoryEntry) : Prog σ VfsError Unit := do
  (fs.freeClusterChain entry.firstCluster).mapErr (fun _ => .ioError)
  (fs.deleteDirectoryEntry path).mapErr (fun _ => .ioError)

/-- `FileSystem::rmdir`. -/
def rmdir : Prog σ VfsError Unit :=
  if trimStartMatches '/' path = [] then Prog.fail .permissionDenied
  else do
    match ← (fs.findFile (trimStartMatches '/' path)).mapErr (fun _ => .ioError) with
    | some entry =>
      if !entry.isDirectory then Prog.fail .notADirectory
      else do
        let entries ← (fs.readDirectory entry.firstCluster).mapErr (fun _ => .ioError)
        if (entries.filter (fun e => !isDot e)).length > 0 then Prog.fail .directoryNotEmpty
        else fs.removeDirectory (trimStartMatches '/' path) entry
    | none => Prog.fail .fileNotFound

/-- `FileSystem::rename`: not supported. -/
def rename (_fs : Fat32) (_oldPath _newPath : Str) : Prog σ VfsError Unit :=
  Prog.fail .permissionDenied

end

end Fat32

end RustOs.Fs
