import Mathlib.Data.Finset.Card
import RustOs.Lib.Outcome

/-!
# Reading along links

A walk that reads a node, finds in it where to go next, and goes on until a node says that it is
the last. What a node holds comes from outside, so a step may fail or panic and the links may run
in a circle.

`follow` is the loop with fuel. `Follows` says without fuel that it comes back: every step on the
way does, and there are finitely many. The two agree as soon as the fuel exceeds the number of
nodes that a link can name (`follow_returns_iff`): a walk that comes back passes no node twice,
since the way on from a node depends on nothing else.
-/

namespace RustOs.Lib

open Outcome

section

variable {ε ν α : Type} (step : ν → Outcome ε (α × Option ν))

variable {x : ν}

/-- Read a node and go where it says, with a bound on the number of nodes. -/
def follow : Nat → ν → Outcome ε (List α)
  | 0, _ => .diverge
  | n + 1, x => do
    let r ← step x
    match r.2 with
    | none => .ok [r.1]
    | some y => do
      let rest ← follow n y
      .ok (r.1 :: rest)

/-- The walk from the node comes back. -/
inductive Follows : ν → Prop where
  | intro {x : ν} (here : (step x).Returns)
      (on : ∀ a y, step x = .ok (a, some y) → Follows y) : Follows x

/-- The walk from the node ends properly, with what it has read. -/
inductive Collects : ν → List α → Prop where
  | last {x : ν} {a : α} (h : step x = .ok (a, none)) : Collects x [a]
  | cons {x y : ν} {a : α} {l : List α} (h : step x = .ok (a, some y)) (t : Collects y l) :
      Collects x (a :: l)

/-- A node leads to another. -/
def LeadsTo (y x : ν) : Prop := ∃ a, step x = .ok (a, some y)

variable {step}

lemma follow_last {a : α} (h : step x = .ok (a, none)) (n : Nat) :
    follow step (n + 1) x = .ok [a] := by
  unfold follow
  rw [h]
  rfl

lemma follow_next {y : ν} {a : α} (h : step x = .ok (a, some y)) (n : Nat) :
    follow step (n + 1) x = (follow step n y >>= fun rest => .ok (a :: rest)) := by
  conv_lhs => unfold follow
  rw [h]
  rfl

variable (step) in
/-- The cases of a step. -/
lemma step_cases (x : ν) : (∃ a y, step x = .ok (a, some y)) ∨ (∃ a, step x = .ok (a, none)) ∨
    ((∀ r, step x ≠ .ok r) ∧ ∀ n, follow step (n + 1) x = ((step x) >>= fun _ => .ok [])) := by
  have hfail (h : ∀ r, step x ≠ .ok r) (n : Nat) :
      follow step (n + 1) x = ((step x) >>= fun _ => .ok []) := by
    unfold follow
    cases hx : step x with
    | ok r => exact absurd hx (h r)
    | _ => rfl
  by_cases hok : ∃ r, step x = .ok r
  · obtain ⟨⟨a, next⟩, hx⟩ := hok
    cases next with
    | none => exact .inr (.inl ⟨a, hx⟩)
    | some y => exact .inl ⟨a, y, hx⟩
  · have hno : ∀ r, step x ≠ .ok r := fun r hr => hok ⟨r, hr⟩
    exact .inr (.inr ⟨hno, hfail hno⟩)

/-- More fuel than is needed does not matter. -/
lemma follow_of_le {n m : Nat} (hle : n ≤ m) :
    ∀ {x : ν}, follow step n x ≠ .diverge → follow step m x = follow step n x := by
  induction n generalizing m with
  | zero =>
    intro x h
    exact absurd rfl h
  | succ n ih =>
    intro x h
    obtain ⟨m, rfl⟩ : ∃ k, m = k + 1 := ⟨m - 1, by omega⟩
    rcases step_cases step x with ⟨a, y, hx⟩ | ⟨a, hx⟩ | ⟨hno, hx⟩
    · have hy : follow step n y ≠ .diverge := by
        intro hd
        apply h
        rw [follow_next hx, hd]
        rfl
      rw [follow_next hx, follow_next hx, ih (by omega) hy]
    · rw [follow_last hx, follow_last hx]
    · rw [hx, hx]

/-- A walk that comes back follows finitely many links. -/
lemma follows_of_returns {n : Nat} : ∀ {x : ν}, (follow step n x).Returns → Follows step x := by
  induction n with
  | zero =>
    intro x h
    exact absurd h not_returns_diverge
  | succ n ih =>
    intro x h
    refine .intro ?_ fun a y hx => ?_
    · exact (returns_bind.mp h).1
    · rw [follow_next hx] at h
      exact ih (returns_bind.mp h).1

lemma Follows.acc (h : Follows step x) : Acc (LeadsTo step) x := by
  induction h with
  | intro _ _ ih => exact ⟨_, fun y ⟨a, hy⟩ => ih a y hy⟩

/-- A walk that comes back does not come to a node again. -/
lemma Follows.not_again (h : Follows step x) : ¬ Relation.TransGen (LeadsTo step) x x := by
  have hacc := h.acc.transGen
  clear h
  intro hxx
  induction hacc with
  | intro x _ ih => exact ih x hxx hxx

/-- If the links name nodes of a finite set only, the walk needs no more fuel than one for each
of them and one for the start. -/
lemma Follows.returns [DecidableEq ν] (h : Follows step x) :
    ∀ {S : Finset ν}, (∀ y, Relation.TransGen (LeadsTo step) y x → y ∈ S) → ∀ {n : Nat},
      S.card < n → (follow step n x).Returns := by
  induction h with
  | @intro x here on ih =>
    intro S hS n hn
    obtain ⟨n, rfl⟩ : ∃ k, n = k + 1 := ⟨n - 1, by omega⟩
    rcases step_cases step x with ⟨a, y, hx⟩ | ⟨a, hx⟩ | ⟨hno, hx⟩
    · -- what comes after `y` is in the set without `y`
      have hyx : LeadsTo step y x := ⟨a, hx⟩
      have hy : y ∈ S := hS y (.single hyx)
      have hrest : ∀ z, Relation.TransGen (LeadsTo step) z y → z ∈ S.erase y := by
        intro z hz
        refine Finset.mem_erase.mpr ⟨?_, hS z (hz.tail hyx)⟩
        rintro rfl
        exact (on a z hx).not_again hz
      have hcard : (S.erase y).card < n := by
        have := Finset.card_erase_lt_of_mem hy
        omega
      rw [follow_next hx]
      exact returns_bind.mpr ⟨ih a y hx hrest hcard, fun _ _ => trivial⟩
    · rw [follow_last hx]
      trivial
    · rw [hx]
      exact returns_bind.mpr ⟨here, fun _ _ => trivial⟩

/-- With fuel for every node that a link can name, the loop tells whether the walk comes back. -/
lemma follow_returns_iff [DecidableEq ν] {S : Finset ν}
    (hS : ∀ x a y, step x = .ok (a, some y) → y ∈ S) {n : Nat} (hn : S.card < n) :
    (follow step n x).Returns ↔ Follows step x := by
  refine ⟨follows_of_returns, fun h => h.returns (fun y hy => ?_) hn⟩
  rcases Relation.TransGen.head'_iff.mp hy with ⟨z, ⟨a, hz⟩, -⟩
  exact hS z a y hz

/-- What a walk collects, it collects with every fuel that is enough. -/
lemma follow_eq_ok_iff {n : Nat} (h : (follow step n x).Returns) {l : List α} :
    follow step n x = .ok l ↔ Collects step x l := by
  have hne : follow step n x ≠ .diverge := (returns_iff.mp h).2
  constructor
  · clear h hne
    induction n generalizing x l with
    | zero => exact fun h => nomatch h
    | succ n ih =>
      intro h
      rcases step_cases step x with ⟨a, y, hx⟩ | ⟨a, hx⟩ | ⟨hno, hx⟩
      · rw [follow_next hx] at h
        obtain ⟨rest, hrest, heq⟩ := bind_eq_ok.mp h
        cases heq
        exact .cons hx (ih hrest)
      · rw [follow_last hx] at h
        cases h
        exact .last hx
      · obtain ⟨r, hr, -⟩ := bind_eq_ok.mp h
        exact absurd hr (hno r)
  · intro hc
    have hlen : ∀ {x : ν} {l : List α}, Collects step x l → follow step l.length x = .ok l := by
      intro x l hc
      induction hc with
      | last hx => exact follow_last hx 0
      | cons hx _ ih =>
        rw [List.length_cons, follow_next hx, ih]
        rfl
    have h₁ := follow_of_le (Nat.le_max_left n l.length) hne
    have h₂ : follow step (max n l.length) x = follow step l.length x :=
      follow_of_le (Nat.le_max_right n l.length) (by rw [hlen hc]; exact fun h => nomatch h)
    rw [← h₁, h₂, hlen hc]

end

end RustOs.Lib
