import Mathlib.Data.List.DropRight

/-!
# Trimming

A list without elements of a kind at its ends, and the two orders in which they can
be taken off: the front first or the back first. Either way nothing of the kind is
left at the ends, and a list that has none stays as it is. Taking them off the front
takes all of them exactly if they all stand there (`dropWhile_eq_filter_iff`).
-/

namespace RustOs.Lib

open List

variable {α : Type} {p : α → Bool}

variable {s : List α} {c : α}

/-- Neither the first nor the last element is of the kind. -/
structure Bare (p : α → Bool) (s : List α) : Prop where
  head : ∀ c ∈ s.head?, p c = false
  last : ∀ c ∈ s.getLast?, p c = false

lemma Bare.dropWhile (h : Bare p s) : s.dropWhile p = s := by
  cases s with
  | nil => rfl
  | cons c s => rw [dropWhile_cons_of_neg (by simp [h.head c rfl])]

lemma Bare.rdropWhile (h : Bare p s) : s.rdropWhile p = s := by
  rw [rdropWhile_eq_self_iff]
  intro hne
  rw [h.last _ (getLast?_eq_getLast_of_ne_nil hne)]
  exact Bool.false_ne_true

lemma head_dropWhile (h : c ∈ (s.dropWhile p).head?) : p c = false := by
  induction s with
  | nil => cases h
  | cons a s ih =>
    rw [dropWhile_cons] at h
    split at h
    next => exact ih h
    next ha =>
      cases h
      exact Bool.eq_false_iff.mpr ha

lemma last_rdropWhile (h : c ∈ (s.rdropWhile p).getLast?) : p c = false := by
  refine head_dropWhile (s := s.reverse) ?_
  rw [List.rdropWhile, getLast?_reverse] at h
  exact h

/-- What stands at the end of a tail stands at the end of the list. -/
lemma last_of_suffix {t : List α} (h : s <:+ t) (hc : c ∈ s.getLast?) : c ∈ t.getLast? := by
  obtain ⟨front, rfl⟩ := h
  rw [getLast?_append, Option.mem_def.mp hc]
  rfl

lemma head_of_isPrefix {t : List α} (h : s <+: t) (hc : c ∈ s.head?) : c ∈ t.head? := by
  obtain ⟨rest, rfl⟩ := h
  rw [head?_append, Option.mem_def.mp hc]
  rfl

/-- The back first. -/
lemma bare_dropWhile_rdropWhile (s : List α) : Bare p ((s.rdropWhile p).dropWhile p) where
  head := fun _ h => head_dropWhile h
  last := fun _ h => last_rdropWhile (last_of_suffix (dropWhile_suffix p) h)

/-- The front first. -/
lemma bare_rdropWhile_dropWhile (s : List α) : Bare p ((s.dropWhile p).rdropWhile p) where
  head := fun _ h => head_dropWhile (head_of_isPrefix ( rdropWhile_prefix p _) h)
  last := fun _ h => last_rdropWhile h

/-- What stops the trimming at the front is kept, whatever is behind it. -/
lemma rdropWhile_cons_of_neg {a : α} (ha : p a = false) (s : List α) :
    (a :: s).rdropWhile p = a :: s.rdropWhile p := by
  induction s using List.reverseRecOn with
  | nil => simp [ha]
  | append_singleton s c ih =>
    by_cases hc : p c = true
    · rw [rdropWhile_concat_pos p s c hc, ← cons_append, rdropWhile_concat_pos p (a :: s) c hc, ih]
    · rw [rdropWhile_concat_neg p s c hc, ← cons_append,
        rdropWhile_concat_neg p (a :: s) c hc, cons_append]

/-- What is taken off the end of two lists: off the second, and if nothing is left of that, off
the first. -/
lemma rdropWhile_append (s t : List α) :
    (s ++ t).rdropWhile p = if t.rdropWhile p = [] then s.rdropWhile p else s
      ++ t.rdropWhile p := by
  induction t using List.reverseRecOn with
  | nil => simp
  | append_singleton t c ih =>
    by_cases hc : p c = true
    · rw [← append_assoc, rdropWhile_concat_pos p _ c hc, rdropWhile_concat_pos p _ c hc, ih]
    · rw [← append_assoc, rdropWhile_concat_neg p _ c hc, rdropWhile_concat_neg p _ c hc,
        if_neg (by simp), append_assoc]

/-- Those at the front are all there are exactly if none stands behind another kind. -/
lemma dropWhile_eq_filter_iff (s : List α) :
    s.dropWhile p = s.filter (fun a => !p a) ↔ s.Pairwise fun a b => p b = true → p a = true := by
  induction s with
  | nil => simp
  | cons a s ih =>
    rw [pairwise_cons]
    by_cases ha : p a = true
    · simp [ha, ih]
    · have hnone : (∀ b ∈ s, p b = true → p a = true) ↔ ∀ b ∈ s, p b = false := by simp [ha]
      rw [dropWhile_cons_of_neg ha, filter_cons_of_pos (by simp [ha]), hnone]
      constructor
      · intro h
        have hall := filter_eq_self.mp (List.cons.inj h).2.symm
        have hno : ∀ b ∈ s, p b = false := fun b hb => by simpa using hall b hb
        refine ⟨hno, pairwise_of_forall_mem_list fun b _ c hc hp => ?_⟩
        exact nomatch (hno c hc).symm.trans hp
      · intro ⟨hno, _⟩
        rw [filter_eq_self.mpr fun b hb => by simp [hno b hb]]

/-- Then those taken off are the ones of the kind. -/
lemma takeWhile_eq_filter (h : s.Pairwise fun a b => p b = true → p a = true) :
    s.takeWhile p = s.filter p := by
  have hsplit := takeWhile_append_dropWhile (p := p) (l := s)
  rw [(dropWhile_eq_filter_iff s).mpr h] at hsplit
  have hall := congrArg (List.filter p) hsplit
  have htake : (s.takeWhile p).filter p = s.takeWhile p :=
    filter_eq_self.mpr fun a ha => mem_takeWhile_imp ha
  rw [filter_append, htake, filter_filter] at hall
  simpa using hall

end RustOs.Lib
