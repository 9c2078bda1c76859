import Mathlib.Data.List.Sort
import Mathlib.Data.Vector.Defs
import RustOs.Lib.Bytes
import RustOs.Lib.Uppercase

/-!
# FAT32 directory entries

A directory is a sequence of 32-byte slots. A slot is free, a piece of a long
file name, a volume label, or a short-name entry; `DirectoryEntry` is the
packed struct of `src/fs/fat32.rs` and `scanSlots` is the loop of
`read_directory_with_lfn` that pairs each short-name entry with the long name
collected in front of it.

The struct is written back byte for byte (`toBytes`), so what a later scan
reads is what was written: `ofBytes_toBytes`.
-/

namespace RustOs.Fs.Fat32

open Lib
open List hiding Vector

/-- A packed 32-byte directory entry. -/
structure DirectoryEntry where
  name : Vector UInt8 11
  attributes : UInt8
  ntReserved : UInt8
  creationTimeTenths : UInt8
  creationTime : UInt16
  creationDate : UInt16
  lastAccessDate : UInt16
  firstClusterHigh : UInt16
  writeTime : UInt16
  writeDate : UInt16
  firstClusterLow : UInt16
  fileSize : UInt32
  deriving DecidableEq

/-- The first byte of a name also marks the slot. -/
abbrev mark (name : Vector UInt8 11) : UInt8 := name[0]

namespace DirectoryEntry

/-- The struct laid over 32 raw bytes. -/
def ofBytes (raw : List UInt8) : DirectoryEntry where
  name := Vector.ofFn fun i => raw.getD i 0
  attributes := raw.getD 11 0
  ntReserved := raw.getD 12 0
  creationTimeTenths := raw.getD 13 0
  creationTime := UInt16.ofNat (leAt raw 14 2)
  creationDate := UInt16.ofNat (leAt raw 16 2)
  lastAccessDate := UInt16.ofNat (leAt raw 18 2)
  firstClusterHigh := UInt16.ofNat (leAt raw 20 2)
  writeTime := UInt16.ofNat (leAt raw 22 2)
  writeDate := UInt16.ofNat (leAt raw 24 2)
  firstClusterLow := UInt16.ofNat (leAt raw 26 2)
  fileSize := UInt32.ofNat (leAt raw 28 4)

variable (e : DirectoryEntry)

/-- The 32 bytes of the struct. -/
def toBytes : List UInt8 :=
  e.name.toList ++ [e.attributes, e.ntReserved, e.creationTimeTenths]
    ++ [e.creationTime, e.creationDate, e.lastAccessDate, e.firstClusterHigh, e.writeTime,
        e.writeDate, e.firstClusterLow].flatMap (fun w => leBytes 2 w.toNat)
    ++ leBytes 4 e.fileSize.toNat

/-- `first_cluster`. -/
def firstCluster : Nat :=
  e.firstClusterHigh.toNat * 65536 + e.firstClusterLow.toNat

/-- The entry pointed at another chain: the low and high words of the cluster. -/
def setFirstCluster (c : Nat) : DirectoryEntry :=
  { e with firstClusterLow := UInt16.ofNat c, firstClusterHigh := UInt16.ofNat (c / 65536) }

/-- `is_directory`: `ATTR_DIRECTORY` is set. -/
def isDirectory : Bool := e.attributes &&& 0x10 != 0

/-- `is_volume_label`: `ATTR_VOLUME_ID` is set. -/
def isVolumeLabel : Bool := e.attributes &&& 0x08 != 0

/-- `is_long_name`: all four bits of `ATTR_LONG_NAME` are set. -/
def isLongName : Bool := e.attributes &&& 0x0F == 0x0F

/-- `is_last`: no entry was ever stored here or behind. -/
def isLast : Bool := mark e.name == 0x00

/-- `is_free`: deleted, or never used. -/
def isFree : Bool := mark e.name == 0xE5 || mark e.name == 0x00

/-- A byte pushed as a `char`. -/
def byteChar (b : UInt8) : Char := Char.ofNat b.toNat

/-- The name an 8.3 field spells: the base up to the first space, then a dot and
the extension if there is one. -/
def spell (name : Vector UInt8 11) : Str :=
  ((name.toList.take 8).takeWhile (· != 0x20)).map byteChar
    ++ (if name[8] != 0x20 then
          '.' :: ((name.toList.drop 8).takeWhile (· != 0x20)).map byteChar
        else [])

/-- `get_name`. -/
def getName : Str := spell e.name

end DirectoryEntry

/-- `sfn_checksum`: rotate right, add, for each byte of the short name. -/
def sfnChecksum (name : Vector UInt8 11) : UInt8 :=
  name.toList.foldl (fun sum b => (sum >>> 1 ||| sum <<< 7) + b) 0

/-- The ASCII upper case of a byte. -/
def asciiUpper (b : UInt8) : UInt8 := if 0x61 ≤ b ∧ b ≤ 0x7A then b - 0x20 else b

/-- The 11 bytes of an upper-cased name and extension, padded with spaces. -/
def shortName (name ext : List UInt8) : Vector UInt8 11 :=
  Vector.ofFn fun i =>
    if i.val < 8 then ((name.map asciiUpper).getD i.val 0x20)
    else ((ext.map asciiUpper).getD (i.val - 8) 0x20)

/-- `to_short_name`: 8.3 from the last dot, or no extension. -/
def toShortName (filename : Str) : Except String (Vector UInt8 11) :=
  match rfindSplit '.' filename with
  | some (name, ext) =>
    if (utf8 name).length > 8 ∨ (utf8 ext).length > 3 then
      .error "Filename too long for 8.3 format"
    else .ok (shortName (utf8 name) (utf8 ext))
  | none =>
    if (utf8 filename).length > 8 then .error "Filename too long for 8.3 format"
    else .ok (shortName (utf8 filename) [])

/-! ## Scanning a directory -/

/-- The long-name accumulator: the parts with their positions, and the
checksum of the last part seen. -/
structure LfnState where
  parts : List (UInt8 × List Nat)
  checksum : UInt8

/-- No parts collected. -/
def LfnState.clear (st : LfnState) : LfnState := { st with parts := [] }

/-- The 13 UTF-16 units of a long-name slot. -/
def lfnChars (raw : List UInt8) : List Nat :=
  (List.range 5).map (fun j => leAt raw (1 + j * 2) 2)
    ++ (List.range 6).map (fun j => leAt raw (14 + j * 2) 2)
    ++ (List.range 2).map (fun j => leAt raw (28 + j * 2) 2)

/-- Add a long-name slot: position `(ord & 0x1F) - 1`, saturating. -/
def LfnState.push (st : LfnState) (raw : List UInt8) : LfnState where
  parts := st.parts ++ [((raw.getD 0 0 &&& 0x1F) - (if raw.getD 0 0 &&& 0x1F = 0 then 0 else 1),
    lfnChars raw)]
  checksum := raw.getD 13 0

/-- The characters of one part: up to a terminator, without surrogates. -/
def lfnDecode (units : List Nat) : Str :=
  (units.takeWhile (fun ch => ch != 0 && ch != 0xFFFF)).filterMap fun ch =>
    if ch.isValidChar then some (Char.ofNat ch) else none

/-- The long name the collected parts give to an entry with this short name. -/
def LfnState.nameFor (st : LfnState) (name : Vector UInt8 11) : Option Str :=
  if st.parts.isEmpty then none
  else if sfnChecksum name = st.checksum then
    let s := (st.parts.insertionSort (fun a b => a.1 ≤ b.1)).flatMap (fun p => lfnDecode p.2)
    if s.isEmpty then none else some s
  else none

/-- The loop of `read_directory_with_lfn` over the raw slots. -/
def scanSlots : List (List UInt8) → LfnState → List (DirectoryEntry × Option Str)
  | [], _ => []
  | raw :: rest, st =>
    if (DirectoryEntry.ofBytes raw).isLast then []
    else if (DirectoryEntry.ofBytes raw).isFree then scanSlots rest st.clear
    else if (DirectoryEntry.ofBytes raw).isLongName then scanSlots rest (st.push raw)
    else if (DirectoryEntry.ofBytes raw).isVolumeLabel then scanSlots rest st.clear
    else (DirectoryEntry.ofBytes raw, st.nameFor (DirectoryEntry.ofBytes raw).name)
      :: scanSlots rest st.clear

/-- The `data.len() / 32` slots of a directory's bytes. -/
def slots (data : List UInt8) : List (List UInt8) :=
  (List.range (data.length / 32)).map fun i => slice data (i * 32) 32

/-- The state before the first slot. -/
def LfnState.init : LfnState := ⟨[], 0⟩

/-- What the lookup loop of `find_file_in_directory` accepts: the long name,
exactly or up to upper case, or the short name up to upper case. -/
def nameMatches (filename : Str) (e : DirectoryEntry × Option Str) : Bool :=
  (match e.2 with
    | some name => name == filename || toUppercase name == toUppercase filename
    | none => false)
  || toUppercase e.1.getName == toUppercase filename

/-! ## The struct reads back -/

namespace DirectoryEntry

variable (e : DirectoryEntry)

@[simp] lemma toBytes_length : e.toBytes.length = 32 := by
  simp [toBytes]

/-- Field `k` of a run of 16-bit fields. -/
lemma leAt_words (ws : List UInt16) (pre post : List UInt8) (k : Nat) (hk : k < ws.length) :
    leAt (pre ++ (ws.flatMap (fun w => leBytes 2 w.toNat) ++ post)) (pre.length + 2 * k) 2
      = (ws.getD k 0).toNat := by
  induction ws generalizing pre k with
  | nil => simp at hk
  | cons w ws ih =>
    simp only [flatMap_cons, append_assoc]
    cases k with
    | zero =>
      rw [Nat.mul_zero, Nat.add_zero, leAt_append_leBytes,
        Nat.mod_eq_of_lt (by have := w.toNat_lt; omega)]
      rfl
    | succ k =>
      have h := ih (pre ++ leBytes 2 w.toNat) k (by simpa using hk)
      simp only [length_append, leBytes_length, append_assoc] at h
      rw [show pre.length + 2 * (k + 1) = pre.length + 2 + 2 * k by omega, h]
      rfl

/-- What was written is what a later scan reads. -/
lemma ofBytes_toBytes : ofBytes e.toBytes = e := by
  have hname : (Vector.ofFn fun i : Fin 11 => e.toBytes.getD i 0) = e.name := by
    apply Vector.ext
    intro i hi
    have hlen : i < e.name.toList.length := by simpa using hi
    simp only [Vector.getElem_ofFn, toBytes, append_assoc, getD_eq_getElem?_getD]
    rw [getElem?_append_left hlen, List.getElem?_eq_getElem hlen]
    simp
  have hbyte : ∀ k, k < 3 → e.toBytes.getD (11 + k) 0
      = [e.attributes, e.ntReserved, e.creationTimeTenths].getD k 0 := by
    intro k hk
    simp only [toBytes, append_assoc, getD_eq_getElem?_getD]
    rw [getElem?_append_right (by simp), getElem?_append_left (by simp; omega)]
    simp
  have hword : ∀ k, k < 7 → leAt e.toBytes (14 + 2 * k) 2
      = ([e.creationTime, e.creationDate, e.lastAccessDate, e.firstClusterHigh, e.writeTime,
          e.writeDate, e.firstClusterLow].getD k 0).toNat := by
    intro k hk
    have h := leAt_words [e.creationTime, e.creationDate, e.lastAccessDate, e.firstClusterHigh,
      e.writeTime, e.writeDate, e.firstClusterLow]
      (e.name.toList ++ [e.attributes, e.ntReserved, e.creationTimeTenths])
      (leBytes 4 e.fileSize.toNat) k hk
    have hpre : (e.name.toList ++ [e.attributes, e.ntReserved, e.creationTimeTenths]).length
        = 14 := by simp
    rw [hpre] at h
    rw [← h]
    simp only [toBytes, append_assoc]
  have hsize : leAt e.toBytes 28 4 = e.fileSize.toNat := by
    have h := leAt_append_leBytes 4 e.fileSize.toNat
      (e.name.toList ++ [e.attributes, e.ntReserved, e.creationTimeTenths]
        ++ [e.creationTime, e.creationDate, e.lastAccessDate, e.firstClusterHigh, e.writeTime,
            e.writeDate, e.firstClusterLow].flatMap (fun w => leBytes 2 w.toNat)) []
    rw [Nat.mod_eq_of_lt (by have := e.fileSize.toNat_lt; omega), append_nil] at h
    rw [← h]
    simp [toBytes]
  have h11 := hbyte 0 (by omega)
  have h12 := hbyte 1 (by omega)
  have h13 := hbyte 2 (by omega)
  have h14 := hword 0 (by omega)
  have h16 := hword 1 (by omega)
  have h18 := hword 2 (by omega)
  have h20 := hword 3 (by omega)
  have h22 := hword 4 (by omega)
  have h24 := hword 5 (by omega)
  have h26 := hword 6 (by omega)
  simp only [getD_cons_zero, getD_cons_succ] at h11 h12 h13 h14 h16 h18 h20 h22 h24 h26
  unfold ofBytes
  rw [hname, h11, h12, h13, h14, h16, h18, h20, h22, h24, h26, hsize]
  simp only [UInt16.ofNat_toNat, UInt32.ofNat_toNat]

/-- The two words hold any 32-bit cluster number. -/
lemma setFirstCluster_firstCluster {c : Nat} (h : c < 2 ^ 32) :
    (e.setFirstCluster c).firstCluster = c := by
  simp only [setFirstCluster, firstCluster, UInt16.toNat_ofNat']
  omega

end DirectoryEntry

end RustOs.Fs.Fat32
