import RustOs.Drivers.Ata

/-!
# A drive that fails

Any access to a drive may fail. Which ones do is a schedule `fails`, asked with
the number of accesses made so far: whatever a drive does, the failures it shows
along one run are such a schedule. A failed access changes no sector.

A caller that reads and writes one sector after the other stops at the first
access that fails. `reach` is how many of the pairs go through, `spent` the number
of accesses made by then.
-/

namespace RustOs.Drivers

open Lib Nat

/-- A drive with its contents, the number of accesses so far and the accesses
that fail. -/
structure Faulty where
  disk : Disk
  clock : Nat
  fails : Nat → Bool

namespace Faulty

variable {fails : Nat → Bool}

/-- One access more. -/
def tick (s : Faulty) : Faulty := { s with clock := s.clock + 1 }

instance : Drive Faulty where
  readSector lba := fun s =>
    if s.fails s.clock then (.err "ATA error", s.tick) else (.ok (s.disk (lba % 2 ^ 28)), s.tick)
  writeSector lba b := fun s =>
    if s.fails s.clock then (.err "ATA error", s.tick)
    else (.ok (), { s.tick with disk := s.disk.update (lba % 2 ^ 28) b })

/-- None of the `n` accesses from `t` on fails. -/
def Quiet (fails : Nat → Bool) (t n : Nat) : Prop := ∀ i < n, fails (t + i) = false

instance (fails : Nat → Bool) (t n : Nat) : Decidable (Quiet fails t n) :=
  inferInstanceAs (Decidable (∀ i < n, _))

lemma quiet_succ {t n : Nat} :
    Quiet fails t (n + 1) ↔ fails t = false ∧ Quiet fails (t + 1) n := by
  constructor
  · intro h
    refine ⟨h 0 (succ_pos n), fun i hi => ?_⟩
    rw [add_assoc, add_comm 1 i]
    exact h (i + 1) (succ_lt_succ hi)
  · intro ⟨h0, h⟩ i hi
    cases i with
    | zero => exact h0
    | succ i =>
      rw [add_comm i 1, ← add_assoc]
      exact h i (lt_of_succ_lt_succ hi)

lemma quiet_one {t : Nat} : Quiet fails t 1 ↔ fails t = false := by
  rw [quiet_succ]
  exact and_iff_left fun i hi => nomatch hi

/-- Of `n` pairs of accesses from `t` on, how many go through before one fails. -/
def reach (fails : Nat → Bool) : Nat → Nat → Nat
  | _, 0 => 0
  | t, n + 1 => if fails t || fails (t + 1) then 0 else reach fails (t + 2) n + 1

/-- The number of accesses made when the pairs are through or one has failed. -/
def spent (fails : Nat → Bool) : Nat → Nat → Nat
  | t, 0 => t
  | t, n + 1 => if fails t then t + 1 else if fails (t + 1) then t + 2 else spent fails (t + 2) n

/-- If all go through, two accesses were made for each. -/
lemma spent_of_reach (n : Nat) : ∀ t, reach fails t n = n → spent fails t n = t + 2 * n := by
  induction n with
  | zero => exact fun t _ => rfl
  | succ n ih =>
    intro t h
    rw [reach] at h
    split at h
    next => cases h
    next hf =>
      rw [Bool.not_eq_true, Bool.or_eq_false_iff] at hf
      rw [spent, hf.1, hf.2, if_neg Bool.false_ne_true, if_neg Bool.false_ne_true,
        ih (t + 2) (succ.inj h)]
      omega

end Faulty

end RustOs.Drivers
