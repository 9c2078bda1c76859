import Mathlib.Data.List.Nodup

/-!
# Chains of a link function

A table that says where each node leads: to another node, nowhere, or to
something that is not a node. `Chain link a l` is the walk from `a` that ends
properly, with `l` the nodes it passes. Since the table decides every step, a
node has at most one chain (`Chain.unique`), and since a chain ends, it passes
no node twice (`Chain.nodup`): a repeated node would start both the whole chain
and a proper part of it.

`walk` computes the chain with fuel, and a change of the table outside a chain
leaves it a chain (`Chain.congr`).
-/

namespace RustOs.Lib

open List

/-- Where a node leads. -/
inductive Link (α : Type) where
  | next (a : α)
  | stop
  | bad
  deriving DecidableEq

/-- The walk from a node to a proper end, and the nodes on it. -/
inductive Chain {α : Type} (link : α → Link α) : α → List α → Prop where
  | last {a : α} (h : link a = .stop) : Chain link a [a]
  | cons {a b : α} {l : List α} (h : link a = .next b) (t : Chain link b l) : Chain link a (a :: l)

/-- Follow the links for at most `n` nodes. -/
def walk {α : Type} (link : α → Link α) : Nat → α → List α
  | 0, _ => []
  | n + 1, a =>
    match link a with
    | .next b => a :: walk link n b
    | .stop => [a]
    | .bad => []

namespace Chain

variable {α : Type} {link link' : α → Link α} {a b : α} {l l' : List α}

section

variable (h : Chain link a l)
include h

lemma mem_head : a ∈ l := by
  cases h <;> exact mem_cons_self

lemma ne_nil : l ≠ [] := ne_nil_of_mem h.mem_head

lemma head_eq : l.head? = some a := by
  cases h <;> rfl

/-- A node leads along one chain only. -/
lemma unique (h' : Chain link a l') : l = l' := by
  induction h generalizing l' with
  | last hs =>
    cases h' with
    | last _ => rfl
    | cons hn _ => rw [hs] at hn; contradiction
  | cons hn _ ih =>
    cases h' with
    | last hs => rw [hn] at hs; contradiction
    | cons hn' t' =>
      rw [hn] at hn'
      injection hn' with hb
      subst hb
      rw [ih t']

/-- A node on a chain starts the rest of it. -/
lemma suffix_of_mem (hb : b ∈ l) : ∃ l₁ l₂, l = l₁ ++ l₂ ∧ Chain link b l₂ := by
  induction h with
  | last hs =>
    rw [mem_singleton] at hb
    subst hb
    exact ⟨[], _, rfl, .last hs⟩
  | cons hn t ih =>
    rcases mem_cons.mp hb with rfl | hb
    · exact ⟨[], _, rfl, .cons hn t⟩
    · obtain ⟨l₁, l₂, rfl, hc⟩ := ih hb
      exact ⟨_ :: l₁, l₂, rfl, hc⟩

/-- A chain that ends passes no node twice. -/
lemma nodup : l.Nodup := by
  induction h with
  | last _ => exact nodup_singleton _
  | @cons a b l hn t ih =>
    rw [nodup_cons]
    refine ⟨fun ha => ?_, ih⟩
    obtain ⟨l₁, l₂, rfl, hc⟩ := t.suffix_of_mem ha
    have hlen := congrArg List.length (hc.unique (.cons hn t))
    simp only [length_cons, length_append] at hlen
    omega

end

/-- The rest of a chain from a node on it, computed. -/
lemma dropWhile_of_mem [DecidableEq α] (h : Chain link a l) (hb : b ∈ l) :
    Chain link b (l.dropWhile fun c => c ≠ b) := by
  induction h with
  | last hs =>
    rw [mem_singleton] at hb
    subst hb
    rw [dropWhile_cons_of_neg (by simp)]
    exact .last hs
  | @cons a c l hn t ih =>
    by_cases hab : a = b
    · subst hab
      rw [dropWhile_cons_of_neg (by simp)]
      exact .cons hn t
    · rw [dropWhile_cons_of_pos (by simp [hab])]
      exact ih ((mem_cons.mp hb).resolve_left fun hba => hab hba.symm)

/-- Every node on a chain leads somewhere. -/
lemma not_bad (h : Chain link a l) (hb : b ∈ l) : link b ≠ .bad := by
  obtain ⟨_, _, _, hc⟩ := h.suffix_of_mem hb
  cases hc with
  | last hs => rw [hs]; exact fun h => nomatch h
  | cons hn _ => rw [hn]; exact fun h => nomatch h

/-- A chain is a chain of every table that agrees on its nodes. -/
lemma congr (h : Chain link a l) (heq : ∀ b ∈ l, link' b = link b) : Chain link' a l := by
  induction h with
  | last hs => exact .last (by rw [heq _ mem_cons_self, hs])
  | cons hn _ ih =>
    refine .cons (by rw [heq _ mem_cons_self, hn]) (ih fun b hb => ?_)
    exact heq b (mem_cons_of_mem _ hb)

/-- Node `n` of a chain starts the rest of it. -/
lemma drop {n : Nat} (h : Chain link a l) (hn : l[n]? = some b) : Chain link b (l.drop n) := by
  induction n generalizing a l with
  | zero =>
    rw [← head?_eq_getElem?, h.head_eq] at hn
    rw [← Option.some.inj hn]
    exact h
  | succ n ih =>
    cases h with
    | last _ => simp at hn
    | cons _ t => exact ih t hn

/-- A table that ends the chain at node `n` and agrees with the old one before. -/
lemma take {n : Nat} (h : Chain link a l) (hn : l[n]? = some b) (hstop : link' b = .stop)
    (heq : ∀ c ∈ l.take n, link' c = link c) : Chain link' a (l.take (n + 1)) := by
  induction n generalizing a l with
  | zero =>
    rw [← head?_eq_getElem?, h.head_eq] at hn
    obtain rfl := Option.some.inj hn
    cases h <;> exact .last hstop
  | succ n ih =>
    cases h with
    | last _ => simp at hn
    | cons hnext t =>
      refine .cons ?_ (ih t hn fun c hc => heq c (mem_cons_of_mem _ hc))
      rw [heq _ mem_cons_self, hnext]

/-- The walk finds the chain when it may go as far as the chain does. -/
lemma walk_eq {n : Nat} (h : Chain link a l) (hn : l.length ≤ n) : walk link n a = l := by
  induction h generalizing n with
  | last hs =>
    cases n with
    | zero => simp at hn
    | succ n => simp only [walk, hs]
  | cons hs _ ih =>
    cases n with
    | zero => simp at hn
    | succ n =>
      have hle := Nat.le_of_succ_le_succ hn
      simp only [walk, hs, ih hle]

end Chain

end RustOs.Lib
