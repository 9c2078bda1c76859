import Mathlib.Data.List.Basic

/-!
# Tables of slots

A table whose handles are indices: a list of slots, each empty or holding an entry.
A new entry takes the first empty slot, or a new one at the end, and a lookup by
content answers with the first slot that matches. The lemmas say what a lookup finds
after an entry was replaced (`first_set`) or added (`first_alloc`, `first_alloc_new`).
-/

namespace RustOs.Lib.Slots

open List Option

variable {α : Type} {l : List (Option α)} {p : Option α → Bool} {a b : α} {i j : Nat}

/-- The entry with this handle. -/
def get (l : List (Option α)) (i : Nat) : Option α := l[i]?.join

/-- Add an entry. -/
def alloc (l : List (Option α)) (a : α) : Nat × List (Option α) :=
  match l.findIdx? Option.isNone with
  | some i => (i, l.set i (some a))
  | none => (l.length, l ++ [some a])

lemma get_eq_some : get l i = some a ↔ l[i]? = some (some a) := by
  unfold get
  cases l[i]? with
  | none => exact ⟨nofun, nofun⟩
  | some s => exact ⟨fun h => congrArg some h, fun h => some.inj h⟩

/-! ## Replacing an entry -/

lemma get_set_self (h : get l i = some a) : get (l.set i (some b)) i = some b := by
  have hi : i < l.length := (List.getElem?_eq_some_iff.mp (get_eq_some.mp h)).1
  rw [get_eq_some, getElem?_set_self hi]

lemma get_set_ne (s : Option α) (h : j ≠ i) : get (l.set i s) j = get l j := by
  unfold get
  rw [getElem?_set_ne h.symm]

/-- A lookup sees of a slot only whether it matches. -/
lemma findIdx?_set {s : Option α} (hi : i < l.length) (hp : p s = p l[i]) :
    (l.set i s).findIdx? p = l.findIdx? p := by
  have hmap : (l.set i s).map p = l.map p := by
    refine ext_getElem? fun k => ?_
    rw [getElem?_map, getElem?_map]
    by_cases hk : k = i
    · rw [hk, getElem?_set_self hi, getElem?_eq_getElem hi]
      exact congrArg some hp
    · rw [getElem?_set_ne (Ne.symm hk)]
  have hfind (m : List (Option α)) : m.findIdx? p = (m.map p).findIdx? id := by
    rw [findIdx?_map]
    rfl
  rw [hfind, hmap, ← hfind]

/-- A lookup that does not tell the two entries apart finds what it found. -/
lemma first_set (h : get l i = some a) (hp : p (some b) = p (some a)) :
    (l.set i (some b)).findIdx? p = l.findIdx? p := by
  obtain ⟨hi, hget⟩ := List.getElem?_eq_some_iff.mp (get_eq_some.mp h)
  exact findIdx?_set hi (by rw [hp, hget])

/-- What a lookup finds matches. -/
lemma first_get (hnone : p none = false) (h : l.findIdx? p = some i) :
    ∃ a, get l i = some a ∧ p (some a) = true := by
  obtain ⟨hi, hp, -⟩ := findIdx?_eq_some_iff_getElem.mp h
  cases hs : l[i] with
  | none =>
    rw [hs, hnone] at hp
    cases hp
  | some a =>
    rw [hs] at hp
    exact ⟨a, get_eq_some.mpr (List.getElem?_eq_some_iff.mpr ⟨hi, hs⟩), hp⟩

/-- What a lookup finds is the first match. -/
lemma first_least (h : l.findIdx? p = some i) :
    p (get l i) = true ∧ ∀ j < i, p (get l j) = false := by
  obtain ⟨hi, hp, hbefore⟩ := findIdx?_eq_some_iff_getElem.mp h
  have hget (k : Nat) (hk : k < l.length) : get l k = l[k] := by
    unfold get
    rw [getElem?_eq_getElem hk]
    rfl
  rw [hget i hi]
  refine ⟨hp, fun j hj => ?_⟩
  rw [hget j (Nat.lt_trans hj hi)]
  exact Bool.not_eq_true _ ▸ hbefore j hj

/-- What matches is found, or something before it. -/
lemma first_of_get (h : get l i = some a) (hp : p (some a) = true) :
    ∃ j, l.findIdx? p = some j := by
  cases hfind : l.findIdx? p with
  | some j => exact ⟨j, rfl⟩
  | none =>
    have hmem : some a ∈ l := mem_of_getElem? (get_eq_some.mp h)
    exact absurd hp (by rw [findIdx?_eq_none_iff.mp hfind _ hmem]; decide)

/-! ## Adding an entry -/

lemma get_alloc_self (l : List (Option α)) (a : α) : get (alloc l a).2 (alloc l a).1 = some a := by
  unfold alloc
  rw [get_eq_some]
  split
  next i hi =>
    exact getElem?_set_self (findIdx?_eq_some_iff_getElem.mp hi).1
  next => exact getElem?_concat_length ..

/-- The slot was empty before. -/
lemma get_alloc_fst (l : List (Option α)) (a : α) : get l (alloc l a).1 = none := by
  unfold alloc get
  split
  next i hi =>
    obtain ⟨hlt, hnone, -⟩ := findIdx?_eq_some_iff_getElem.mp hi
    rw [getElem?_eq_getElem hlt, isNone_iff_eq_none.mp hnone]
    rfl
  next =>
    rw [getElem?_eq_none (Nat.le_refl _)]
    rfl

/-- The other slots are as they were. -/
lemma get_alloc_ne (l : List (Option α)) (a : α) (h : j ≠ (alloc l a).1) :
    get (alloc l a).2 j = get l j := by
  revert h
  unfold alloc
  split
  next i hi => exact fun h => get_set_ne _ h
  next =>
    intro h
    unfold get
    rcases Nat.lt_or_gt_of_ne h with hlt | hgt
    · rw [getElem?_append_left hlt]
    · have hlen : (l ++ [some a]).length ≤ j := by
        rw [length_append]
        exact hgt
      rw [getElem?_eq_none hlen, getElem?_eq_none (Nat.le_of_lt hgt)]

lemma get_alloc_of_some (a : α) (h : get l j = some b) :
    j ≠ (alloc l a).1 ∧ get (alloc l a).2 j = some b := by
  have hne : j ≠ (alloc l a).1 := by
    rintro rfl
    rw [get_alloc_fst] at h
    cases h
  exact ⟨hne, (get_alloc_ne l a hne).trans h⟩

/-- A lookup that the new entry does not match finds what it found. -/
lemma first_alloc (hnone : p none = false) (hp : p (some a) = false) :
    (alloc l a).2.findIdx? p = l.findIdx? p := by
  unfold alloc
  split
  next i hi =>
    obtain ⟨hlt, hempty, -⟩ := findIdx?_eq_some_iff_getElem.mp hi
    exact findIdx?_set hlt (by rw [hp, isNone_iff_eq_none.mp hempty, hnone])
  next =>
    rw [findIdx?_append, findIdx?_singleton, hp]
    exact or_none

/-- A lookup that found nothing finds the new entry, if it matches. -/
lemma first_alloc_new (hfirst : l.findIdx? p = none) (hp : p (some a) = true) :
    (alloc l a).2.findIdx? p = some (alloc l a).1 := by
  have hnot : ∀ s ∈ l, p s = false := findIdx?_eq_none_iff.mp hfirst
  unfold alloc
  split
  next i hi =>
    obtain ⟨hlt, -, -⟩ := findIdx?_eq_some_iff_getElem.mp hi
    refine findIdx?_eq_some_iff_getElem.mpr ⟨by rwa [length_set], ?_, ?_⟩
    · rw [getElem_set_self]
      exact hp
    · intro k hk
      rw [getElem_set_ne (Nat.ne_of_gt hk), hnot _ (getElem_mem _)]
      decide
  next =>
    rw [findIdx?_append, hfirst, findIdx?_singleton, hp]
    simp only [if_true, map_some, none_or, Nat.zero_add]

/-! ## Tables without empty slots -/

/-- Every slot holds an entry. -/
def Full (l : List (Option α)) : Prop := ∀ s ∈ l, s ≠ none

lemma Full.set (h : Full l) (i : Nat) (a : α) : Full (l.set i (some a)) := by
  intro s hs
  rcases mem_or_eq_of_mem_set hs with hmem | rfl
  · exact h s hmem
  · exact nofun

/-- A new entry goes to the end. -/
lemma Full.alloc_eq (h : Full l) (a : α) : alloc l a = (l.length, l ++ [some a]) := by
  have hnone : l.findIdx? isNone = none := by
    rw [findIdx?_eq_none_iff]
    intro s hs
    cases s with
    | none => exact absurd rfl (h none hs)
    | some b => rfl
  unfold alloc
  rw [hnone]

lemma Full.alloc (h : Full l) (a : α) : Full (alloc l a).2 := by
  rw [h.alloc_eq a]
  intro s hs
  rcases mem_append.mp hs with hmem | hnew
  · exact h s hmem
  · rw [mem_singleton.mp hnew]
    exact nofun

/-- What a lookup found it finds still: the new entry comes after it. -/
lemma Full.first_alloc (h : Full l) (a : α) (hfirst : l.findIdx? p = some i) :
    (Slots.alloc l a).2.findIdx? p = some i := by
  rw [h.alloc_eq a, findIdx?_append, hfirst]
  rfl

end RustOs.Lib.Slots
