import RustOs.Lib.Bytes
import RustOs.Lib.Refine

/-!
# The ATA drive

`src/drivers/ata.rs` moves 512-byte sectors by port I/O. What the file systems
above it see is two calls, one sector in and one sector out, each of which may
fail; `Drive σ` is that interface over a state `σ` of the hardware. The
multi-sector calls are loops over the single-sector ones and are modelled here.

`Disk` is the drive that never fails, and `Image` one that answers for some
sectors with an error, as a drive does past its end. The command registers carry
28 bits of the block address (four bits in the drive register, three bytes in the
address registers), so the sector addressed is `lba % 2 ^ 28`.
-/

namespace RustOs.Drivers

open Lib Prog Outcome
open Lib.Outcome (uadd)

/-- A `[u8; SECTOR_SIZE]`. -/
structure Sector where
  bytes : List UInt8
  len : bytes.length = 512

/-- The first 512 bytes of `b`. -/
def Sector.ofBytes (b : List UInt8) : Sector :=
  ⟨padTo 512 (b.take 512), padTo_length (List.length_take_le 512 b)⟩

@[simp] lemma Sector.ofBytes_bytes {b : List UInt8} (h : b.length = 512) :
    (Sector.ofBytes b).bytes = b := by
  simp only [Sector.ofBytes]
  rw [List.take_of_length_le (by omega), padTo_of_length h]

/-- The drive as its callers see it. -/
class Drive (σ : Type) where
  readSector : Nat → Prog σ String Sector
  writeSector : Nat → Sector → Prog σ String Unit

/-- A drive that a read leaves as it is. -/
class PassiveDrive (σ : Type) [Drive σ] : Prop where
  readOnly : ∀ lba, ReadOnly (Drive.readSector lba : Prog σ String Sector)

/-- The contents of a drive that never fails, by 28-bit block address. -/
def Disk : Type := Nat → Sector

namespace Disk

/-- The disk with one sector replaced. -/
def update (d : Disk) (lba : Nat) (s : Sector) : Disk := fun n => if n = lba then s else d n

@[simp] lemma update_same (d : Disk) (lba : Nat) (s : Sector) : d.update lba s lba = s :=
  if_pos rfl

lemma update_ne {d : Disk} {lba n : Nat} {s : Sector} (h : n ≠ lba) : d.update lba s n = d n :=
  if_neg h

end Disk

instance : Drive Disk where
  readSector lba := fun d => (.ok (d (lba % 2 ^ 28)), d)
  writeSector lba s := fun d => (.ok (), d.update (lba % 2 ^ 28) s)

instance : PassiveDrive Disk := ⟨fun _ _ => rfl⟩

/-- The contents of a drive, by 28-bit block address; for a sector that is not there
it reports an error. -/
def Image : Type := Nat → Option Sector

/-- The image with one sector replaced. -/
def Image.update (d : Image) (lba : Nat) (s : Sector) : Image :=
  fun n => if n = lba then some s else d n

/-- What the drive says of a sector. -/
def Image.sector (d : Image) (lba : Nat) : Outcome String Sector :=
  match d (lba % 2 ^ 28) with
  | some s => .ok s
  | none => .err "ATA error"

instance : Drive Image where
  readSector lba := fun d => (d.sector lba, d)
  writeSector lba s := fun d =>
    match d (lba % 2 ^ 28) with
    | some _ => (.ok (), d.update (lba % 2 ^ 28) s)
    | none => (.err "ATA error", d)

instance : PassiveDrive Image := ⟨fun _ _ => rfl⟩

section
variable {σ : Type} [Drive σ]

/-- The loop of `read_sectors`: sectors `lba + i` for the `n` values of `i`
from here on. -/
def readSectorsFrom (lba : Nat) : Nat → Nat → Prog σ String (List UInt8)
  | _, 0 => pure []
  | i, n + 1 => do
    let at_ ← Prog.lift (uadd 32 lba i)
    let s ← Drive.readSector at_
    let rest ← readSectorsFrom lba (i + 1) n
    pure (s.bytes ++ rest)

/-- `read_sectors` into a zeroed buffer of `len` bytes. -/
def readSectors (lba count len : Nat) : Prog σ String (List UInt8) :=
  if len < count * 512 then
    Prog.fail "Buffer too small for requested sectors"
  else do
    let b ← readSectorsFrom lba 0 count
    pure (padTo len b)

/-- The loop of `write_sectors`. -/
def writeSectorsFrom (lba : Nat) (buf : List UInt8) : Nat → Nat → Prog σ String Unit
  | _, 0 => pure ()
  | i, n + 1 => do
    let at_ ← Prog.lift (uadd 32 lba i)
    Drive.writeSector at_ (Sector.ofBytes (slice buf (i * 512) 512))
    writeSectorsFrom lba buf (i + 1) n

/-- `write_sectors`. -/
def writeSectors (lba count : Nat) (buf : List UInt8) : Prog σ String Unit :=
  if buf.length < count * 512 then
    Prog.fail "Buffer too small for requested sectors"
  else
    writeSectorsFrom lba buf 0 count

end

/-! ## The loops on the drive that never fails -/

namespace Disk

/-- The disk after `n` turns of the loop of `write_sectors`, from turn `i` on. -/
def overlay (d : Disk) (lba i n : Nat) (buf : List UInt8) : Disk := fun m =>
  if lba + i ≤ m ∧ m < lba + i + n then Sector.ofBytes (slice buf ((m - lba) * 512) 512) else d m

lemma overlay_of_not_mem {d : Disk} {lba i n m : Nat} {buf : List UInt8}
    (h : m < lba + i ∨ lba + i + n ≤ m) : d.overlay lba i n buf m = d m :=
  if_neg (by omega)

end Disk

/-- Reading addressable sectors gives their bytes in order. -/
lemma readSectorsFrom_disk (d : Disk) (lba i n : Nat) (h : lba + i + n ≤ 2 ^ 28) :
    readSectorsFrom lba i n d
      = (.ok ((List.range' i n).flatMap fun j => (d (lba + j)).bytes), d) := by
  induction n generalizing i with
  | zero => rfl
  | succ n ih =>
    have hadd : (uadd 32 lba i : Outcome String Nat) = .ok (lba + i) :=
      uadd_of_lt (by omega)
    have hsec : (Drive.readSector (lba + i) : Prog Disk String Sector) d =
      (.ok (d (lba + i)), d) := by
      show (ok (d ((lba + i) % 2 ^ 28)), d) = _
      rw [Nat.mod_eq_of_lt (by omega)]
    unfold readSectorsFrom
    rw [hadd, bind_ok (lift_apply _ _), bind_ok hsec,
      bind_ok (ih (i + 1) (by omega))]
    rfl

/-- Writing addressable sectors lays the buffer over them. -/
lemma writeSectorsFrom_disk (d : Disk) (lba i n : Nat) (buf : List UInt8)
    (h : lba + i + n ≤ 2 ^ 28) :
    writeSectorsFrom lba buf i n d = (.ok (), d.overlay lba i n buf) := by
  induction n generalizing d i with
  | zero =>
    have hsame : d.overlay lba i 0 buf = d := by
      funext m
      exact Disk.overlay_of_not_mem (by omega)
    rw [hsame]
    rfl
  | succ n ih =>
    have hadd : (uadd 32 lba i : Outcome String Nat) = .ok (lba + i) :=
      uadd_of_lt (by omega)
    have hsec : (Drive.writeSector (lba + i) (Sector.ofBytes (slice buf (i * 512) 512))
        : Prog Disk String Unit) d
        = (.ok (), d.update (lba + i) (Sector.ofBytes (slice buf (i * 512) 512))) := by
      show (ok (), d.update ((lba + i) % 2 ^ 28) _) = _
      rw [Nat.mod_eq_of_lt (by omega)]
    unfold writeSectorsFrom
    rw [hadd, bind_ok (lift_apply _ _), bind_ok hsec, ih _ (i + 1) (by omega)]
    congr 1
    funext m
    -- sector `lba + i` was written in this turn, the later ones by the rest of the loop
    by_cases hm : m = lba + i
    · rw [Disk.overlay_of_not_mem (by omega), hm, Disk.update_same, Disk.overlay,
        if_pos (by omega), Nat.add_sub_cancel_left]
    · unfold Disk.overlay
      rw [Disk.update_ne hm]
      by_cases hin : lba + i ≤ m ∧ m < lba + i + (n + 1)
      · rw [if_pos hin, if_pos (by omega)]
      · rw [if_neg hin, if_neg (by omega)]

end RustOs.Drivers
