import Mathlib.Data.List.Nodup
import Mathlib.Data.List.Perm.Basic

/-!
# Rows searched from the front

A table kept as a list and searched from the front: the first row that
satisfies a test is found, changed in place (`updateFirst`) or taken out
(`List.eraseP`). Each operation is described by splitting the list at the row it
meets, and keys that were distinct stay distinct.
-/

namespace RustOs.Lib

open List

variable {α κ : Type}

variable {p : α → Bool} {l : List α} {f : α → α} {a : α} {A B : List α}

/-- Change the first row that satisfies the test. -/
def updateFirst (p : α → Bool) (f : α → α) : List α → List α
  | [] => []
  | a :: l => if p a then f a :: l else a :: updateFirst p f l

/-- The first row that satisfies a test, with the rows around it. -/
lemma find?_split (h : l.find? p = some a) :
    ∃ A B, l = A ++ a :: B ∧ p a = true ∧ ∀ b ∈ A, p b = false := by
  obtain ⟨ha, A, B, rfl, hA⟩ := find?_eq_some_iff_append.mp h
  exact ⟨A, B, rfl, ha, fun b hb => by simpa using hA b hb⟩

/-- A row in the middle, and the others. -/
lemma mem_middle {b : α} : b ∈ A ++ a :: B ↔ b = a ∨ b ∈ A ++ B := by
  rw [mem_append, mem_cons, or_left_comm, ← mem_append]

lemma updateFirst_split (f : α → α) (ha : p a = true)
    (hA : ∀ b ∈ A, p b = false) : updateFirst p f (A ++ a :: B) = A ++ f a :: B := by
  induction A with
  | nil => simp [updateFirst, ha]
  | cons b A ih =>
    have hb := hA b mem_cons_self
    simp only [cons_append, updateFirst, hb, Bool.false_eq_true, if_false]
    rw [ih fun c hc => hA c (mem_cons_of_mem _ hc)]

lemma eraseP_split (ha : p a = true)
    (hA : ∀ b ∈ A, p b = false) : (A ++ a :: B).eraseP p = A ++ B := by
  rw [eraseP_append_right _ fun b hb => by simp [hA b hb], eraseP_cons_of_pos ha]

/-- No row, no change. -/
lemma updateFirst_of_none (f : α → α) (h : l.find? p = none) : updateFirst p f l = l := by
  induction l with
  | nil => rfl
  | cons a l ih =>
    rw [find?_cons] at h
    split at h
    next => cases h
    next ha =>
      simp only [updateFirst, ha, Bool.false_eq_true, if_false]
      rw [ih h]

lemma updateFirst_id (p : α → Bool) (l : List α) : updateFirst p (fun a => a) l = l := by
  induction l with
  | nil => rfl
  | cons a l ih => rw [updateFirst, ih, ite_self]

/-- Two changes of one row are one. -/
lemma updateFirst_updateFirst {g : α → α} (hf : ∀ a, p a = true → p (f a) = true) (l : List α) :
    updateFirst p g (updateFirst p f l) = updateFirst p (fun a => g (f a)) l := by
  induction l with
  | nil => rfl
  | cons a l ih => by_cases ha : p a = true <;> simp [updateFirst, ha, hf, ih]

/-- A search that the changed row answers after the change is answered by it. -/
lemma find?_updateFirst_self (hf : ∀ a, p a = true → p (f a) = true)
    (h : l.find? p = some a) :
    (updateFirst p f l).find? p = some (f a) := by
  obtain ⟨A, B, rfl, ha, hA⟩ := find?_split h
  rw [updateFirst_split f ha hA, find?_append, find?_eq_none.mpr fun b hb => by simp [hA b hb],
    find?_cons, hf a ha]
  rfl

/-- A search that the changed row does not answer, before or after, is answered
as before. -/
lemma find?_updateFirst_other {q : α → Bool}
    (hf : ∀ a, p a = true → q a = false ∧ q (f a) = false) (l : List α) :
    (updateFirst p f l).find? q = l.find? q := by
  induction l with
  | nil => rfl
  | cons a l ih =>
    unfold updateFirst
    split
    next ha => rw [find?_cons, find?_cons, (hf a ha).1, (hf a ha).2]
    next => rw [find?_cons, find?_cons, ih]

/-- A change does not show where it does not matter. -/
lemma map_updateFirst {β : Type} {g : α → β}
    (hg : ∀ a, p a = true → g (f a) = g a) (l : List α) : (updateFirst p f l).map g = l.map g := by
  induction l with
  | nil => rfl
  | cons a l ih =>
    unfold updateFirst
    split
    next ha => rw [map_cons, map_cons, hg a ha]
    next => rw [map_cons, map_cons, ih]

lemma length_updateFirst (p : α → Bool) (f : α → α) (l : List α) :
    (updateFirst p f l).length = l.length := by
  induction l with
  | nil => rfl
  | cons a l ih =>
    unfold updateFirst
    split
    · rfl
    · rw [length_cons, length_cons, ih]

/-- A changed row is an old one or the image of one. -/
lemma mem_updateFirst {b : α}
    (h : b ∈ updateFirst p f l) : b ∈ l ∨ ∃ a ∈ l, p a = true ∧ b = f a := by
  cases hfind : l.find? p with
  | none =>
    rw [updateFirst_of_none f hfind] at h
    exact .inl h
  | some a =>
    obtain ⟨A, B, rfl, ha, hA⟩ := find?_split hfind
    rw [updateFirst_split f ha hA] at h
    rcases mem_middle.mp h with rfl | h
    · exact .inr ⟨a, mem_middle.mpr (.inl rfl), ha, rfl⟩
    · exact .inl (mem_middle.mpr (.inr h))

/-! ## Distinct keys -/

section
variable (key : α → κ)

/-- A row added under a new key. -/
lemma nodup_push (h : (l.map key).Nodup) (ha : ∀ b ∈ l, key b ≠ key a) :
    ((l ++ [a]).map key).Nodup := by
  rw [map_append, nodup_append]
  refine ⟨h, nodup_singleton _, fun k hk k' hk' => ?_⟩
  obtain ⟨b, hb, rfl⟩ := mem_map.mp hk
  obtain ⟨c, hc, rfl⟩ := mem_map.mp hk'
  rw [mem_singleton.mp hc]
  exact ha b hb

lemma nodup_eraseP (h : (l.map key).Nodup) (p : α → Bool) : ((l.eraseP p).map key).Nodup :=
  h.sublist (eraseP_sublist.map key)

/-- A row changed under its old key, or moved to a new one. -/
lemma nodup_updateFirst (h : (l.map key).Nodup)
    (hf : ∀ a ∈ l, p a = true → key (f a) = key a ∨ ∀ b ∈ l, key b ≠ key (f a)) :
    ((updateFirst p f l).map key).Nodup := by
  cases hfind : l.find? p with
  | none =>
    rw [updateFirst_of_none f hfind]
    exact h
  | some a =>
    obtain ⟨A, B, rfl, ha, hA⟩ := find?_split hfind
    rw [updateFirst_split f ha hA]
    rcases hf a (mem_append_right A mem_cons_self) ha with hsame | hnew
    · rwa [map_append, map_cons, hsame, ← map_cons, ← map_append]
    · -- the row goes to a key that no other has
      have hrest : ((A ++ B).map key).Nodup :=
        h.sublist (((Sublist.refl A).append (sublist_cons_self a B)).map key)
      refine (perm_middle.map key).nodup_iff.mpr (nodup_cons.mpr ⟨fun hmem => ?_, hrest⟩)
      obtain ⟨b, hb, hk⟩ := mem_map.mp hmem
      exact hnew b (mem_middle.mpr (.inr hb)) hk

/-- With distinct keys the row split off is the only one with its key. -/
lemma key_ne_of_split (h : ((A ++ a :: B).map key).Nodup) :
    ∀ b ∈ A ++ B, key b ≠ key a := by
  have hp : ((a :: (A ++ B)).map key).Nodup := ((@perm_middle α a A B).map key).nodup_iff.mp h
  rw [map_cons, nodup_cons] at hp
  intro b hb heq
  exact hp.1 (mem_map.mpr ⟨b, hb, heq⟩)

end

end RustOs.Lib
