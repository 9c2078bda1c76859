import Mathlib.Algebra.Group.Nat.Defs
import Mathlib.Logic.Function.Basic

/-!
# The physical frame allocator

`BitmapFrameAllocator` of `memory.rs`: a bit for each 4 KiB frame of the first 4 GiB, set if
the frame is used, and a hint where to look for a free one. The scan looks at whole bytes
first and skips those without a free bit; what it finds is the first free frame from the
byte of the hint to the end, and then from the start to that byte.
-/

namespace RustOs.Memory

/-- `MAX_FRAMES`. -/
def maxFrames : Nat := 4 * 1024 * 1024 * 1024 / 4096

/-- `BitmapFrameAllocator`, with `FRAME_BITMAP` and `ALLOCATED_FRAMES`. -/
structure FrameAllocator where
  /-- Is the frame used? -/
  bitmap : Nat → Bool
  nextFree : Nat
  allocated : Nat
  bound : nextFree ≤ maxFrames

/-- The first free frame of the `count` frames from `idx` on. -/
def firstFree (bitmap : Nat → Bool) : Nat → Nat → Option Nat
  | 0, _ => none
  | count + 1, idx => if bitmap idx then firstFree bitmap count (idx + 1) else some idx

/-- The frame that is found is free. -/
lemma firstFree_spec {bitmap : Nat → Bool} {f : Nat} : ∀ {count idx : Nat},
    firstFree bitmap count idx = some f → bitmap f = false ∧ idx ≤ f ∧ f < idx + count := by
  intro count
  induction count with
  | zero => exact fun h => nomatch h
  | succ count ih =>
    intro idx h
    unfold firstFree at h
    cases hb : bitmap idx with
    | true =>
      rw [hb] at h
      obtain ⟨hfree, hle, hlt⟩ := ih h
      exact ⟨hfree, by omega, by omega⟩
    | false =>
      rw [hb] at h
      cases h
      exact ⟨hb, by omega, by omega⟩

namespace FrameAllocator

/-- `find_free_frame`. -/
def findFreeFrame (a : FrameAllocator) : Option Nat :=
  let start := a.nextFree / 8 * 8
  (firstFree a.bitmap (maxFrames - start) start).or (firstFree a.bitmap start 0)

lemma findFreeFrame_spec {a : FrameAllocator} {f : Nat} (h : a.findFreeFrame = some f) :
    a.bitmap f = false ∧ f < maxFrames := by
  have hbound := a.bound
  rcases Option.or_eq_some_iff.mp h with h | ⟨_, h⟩
  · obtain ⟨hfree, hle, hlt⟩ := firstFree_spec h
    exact ⟨hfree, by omega⟩
  · obtain ⟨hfree, hle, hlt⟩ := firstFree_spec h
    exact ⟨hfree, by omega⟩

/-- `allocate_frame`. -/
def allocateFrame (a : FrameAllocator) : Option Nat × FrameAllocator :=
  match h : a.findFreeFrame with
  | none => (none, a)
  | some f => (some f,
    { bitmap := Function.update a.bitmap f true
      nextFree := f + 1
      allocated := (a.allocated + 1) % 2 ^ 64
      bound := (findFreeFrame_spec h).2 })

/-- `deallocate_frame`. -/
def deallocateFrame (a : FrameAllocator) (frame : Nat) : FrameAllocator :=
  if frame < maxFrames then
    { bitmap := Function.update a.bitmap frame false
      nextFree := min frame a.nextFree
      allocated := (a.allocated + 2 ^ 64 - 1) % 2 ^ 64
      bound := Nat.le_trans (Nat.min_le_right ..) a.bound }
  else a

end FrameAllocator

end RustOs.Memory
