import Mathlib.Algebra.Group.Nat.Defs

/-!
# Trees of pointers

A large object is found through index nodes: a node holds `k` pointers, a tree
of depth `d` has `k ^ d` leaves, and a null pointer stands for a subtree that
was never written. `resolve` walks from the root to one leaf, `slots` lists all
leaves with a null leaf for every place of an absent subtree, and `visited`
lists the leaves a traversal meets that passes over null index pointers.

The traversal keeps the places of the leaves as long as it meets no null index
pointer (`take_visited`); the first one moves everything behind it forward.
-/

namespace RustOs.Lib.IndexTree

open List Nat

variable (ptr : Nat → Nat → Nat) (k : Nat)

/-- The leaf at place `j` of the tree of depth `d` under `b`; null below a null
pointer. -/
def resolve : Nat → Nat → Nat → Nat
  | 0, b, _ => b
  | d + 1, b, j => if b = 0 then 0 else resolve d (ptr b (j / k ^ d)) (j % k ^ d)

/-- The index pointers on the way to place `j`, up to the first null one. -/
def path : Nat → Nat → Nat → List Nat
  | 0, _, _ => []
  | d + 1, b, j => b :: if b = 0 then [] else path d (ptr b (j / k ^ d)) (j % k ^ d)

/-- The leaves met by a traversal that passes over null index pointers. -/
def visited : Nat → Nat → List Nat
  | 0, b => [b]
  | d + 1, b => if b = 0 then [] else (List.range k).flatMap fun i => visited d (ptr b i)

/-- The leaves by their places. -/
def slots (d b : Nat) : List Nat := (List.range (k ^ d)).map (resolve ptr k d b)

@[simp] lemma slots_length (d b : Nat) : (slots ptr k d b).length = k ^ d := by
  simp [slots]

lemma range_mul (m : Nat) :
    range (k * m) = (range k).flatMap fun i => (range m).map (i * m + ·) := by
  induction k with
  | zero => simp
  | succ k ih =>
    rw [succ_mul, range_add, ih, range_succ, flatMap_append]
    simp

variable {ptr k}

/-- The places of a tree are the places of its subtrees, one after the other. -/
lemma slots_succ {d b : Nat} (hb : b ≠ 0) :
    slots ptr k (d + 1) b = (range k).flatMap fun i => slots ptr k d (ptr b i) := by
  rw [slots, pow_succ', range_mul, map_flatMap, flatMap_def, flatMap_def]
  refine congrArg flatten (map_congr_left fun i _ => ?_)
  rw [map_map, slots]
  refine map_congr_left fun j hj => ?_
  have hj : j < k ^ d := mem_range.mp hj
  have hpos : 0 < k ^ d := by omega
  show resolve ptr k (d + 1) b (i * k ^ d + j) = _
  rw [resolve, if_neg hb, mul_comm i, mul_add_div hpos, div_eq_of_lt hj, add_zero,
    mul_add_mod, mod_eq_of_lt hj]

/-- Two lists agree on their first `n` places if their fronts do and, behind
the places of the first front, their rests do. -/
lemma take_append_congr {α : Type} {a a' b b' : List α} {n : Nat} (ha : a.take n = a'.take n)
    (hb : b.take (n - a'.length) = b'.take (n - a'.length)) :
    (a ++ b).take n = (a' ++ b').take n := by
  rcases Nat.lt_or_ge a'.length n with h | h
  · -- the front ends before `n`: the two fronts are equal
    have hlen := congrArg length ha
    rw [length_take, length_take] at hlen
    have hfront : a = a' := by
      rw [take_of_length_le (by omega), take_of_length_le (by omega)] at ha
      exact ha
    rw [hfront, take_append, take_append, hb]
  · have hlen := congrArg length ha
    rw [length_take, length_take] at hlen
    rw [take_append_of_le_length (by omega), take_append_of_le_length h, ha]

lemma take_flatMap_congr {α β : Type} {f g : α → List β} {m : Nat} (hg : ∀ x, (g x).length = m) :
    ∀ (xs : List α) (n : Nat),
      (∀ i x, xs[i]? = some x → (f x).take (n - i * m) = (g x).take (n - i * m)) →
      (xs.flatMap f).take n = (xs.flatMap g).take n
  | [], _, _ => rfl
  | x :: xs, n, h => by
    rw [flatMap_cons, flatMap_cons]
    refine take_append_congr (by simpa using h 0 x rfl) ?_
    rw [hg]
    refine take_flatMap_congr hg xs (n - m) fun i y hy => ?_
    have := h (i + 1) y (by simpa using hy)
    rwa [Nat.succ_mul, Nat.add_comm, ← Nat.sub_sub] at this

/-- The way to place `j` of subtree `i` starts at the root. -/
lemma path_succ {d b i j : Nat} (hb : b ≠ 0) (hj : j < k ^ d) :
    path ptr k (d + 1) b (i * k ^ d + j) = b :: path ptr k d (ptr b i) j := by
  have hpos : 0 < k ^ d := by omega
  rw [path, if_neg hb, mul_comm i, mul_add_div hpos, div_eq_of_lt hj, add_zero,
    mul_add_mod, mod_eq_of_lt hj]

/-- The traversal keeps the first `n` places if no index pointer on the way to
one of them is null. -/
lemma take_visited (hk : 0 < k) (d : Nat) :
    ∀ (b n : Nat), (∀ j < n, j < k ^ d → 0 ∉ path ptr k d b j) →
    (visited ptr k d b).take n = (slots ptr k d b).take n := by
  induction d with
  | zero =>
    intro b n _
    simp [visited, slots, resolve]
  | succ d ih =>
    intro b n hpath
    rcases Nat.eq_zero_or_pos n with rfl | hpos
    · simp
    · have hb : b ≠ 0 := fun hz => hpath 0 hpos (Nat.pow_pos hk) (by simp [path, hz])
      rw [visited, if_neg hb, slots_succ hb]
      refine take_flatMap_congr (fun i => slots_length ptr k d (ptr b i)) _ n fun i x hx => ?_
      obtain ⟨hik, hix⟩ := List.getElem?_eq_some_iff.mp hx
      rw [length_range] at hik
      rw [getElem_range] at hix
      subst hix
      refine ih (ptr b i) (n - i * k ^ d) fun j hj hlt hmem => ?_
      have hin : i * k ^ d + j < k ^ (d + 1) := by
        have : (i + 1) * k ^ d ≤ k * k ^ d := Nat.mul_le_mul_right _ hik
        rw [Nat.pow_succ', Nat.succ_mul] at *
        omega
      refine hpath (i * k ^ d + j) (by omega) hin ?_
      rw [path_succ hb hlt]
      exact mem_cons_of_mem _ hmem

/-- A bound on all pointers bounds the leaves. -/
lemma lt_of_mem_visited {c : Nat} (hptr : ∀ b i, ptr b i < c) (d : Nat) :
    ∀ (b p : Nat), b < c → p ∈ visited ptr k d b → p < c := by
  induction d with
  | zero =>
    intro b p hb hp
    rw [visited, mem_singleton] at hp
    exact hp ▸ hb
  | succ d ih =>
    intro b p hb hp
    rw [visited] at hp
    split at hp
    next => exact absurd hp not_mem_nil
    next =>
      obtain ⟨i, -, hi⟩ := mem_flatMap.mp hp
      exact ih _ p (hptr b i) hi

end RustOs.Lib.IndexTree
