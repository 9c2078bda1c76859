import RustOs.Lib.Refine

/-!
# Programs that keep an invariant and come back

`Keeps I x Q` is a total-correctness triple with one invariant for the state:
from every state of `I` the program `x` returns, with a value or with an error,
leaves a state of `I`, and a value it returns satisfies `Q`. The rules follow
the constructs of `Prog`.

`Within R x` is the partial counterpart for a relation between the state before and
the state after: if `x` comes back at all, the two are related by `R`. The rules
need `R` to be reflexive and transitive. `Preserves I x` is the case of a
property of states that holds after if it held before.
-/

namespace RustOs.Lib

open Prog

variable {σ ε α β : Type} {x : Prog σ ε α} {f : α → Prog σ ε β}

/-- From every state of `I`, `x` comes back to a state of `I`, and what it
returns satisfies `Q`. -/
def Keeps (I : σ → Prop) (x : Prog σ ε α) (Q : α → Prop) : Prop :=
  ∀ s, I s → (x s).1.Returns ∧ I (x s).2 ∧ ∀ a, (x s).1 = .ok a → Q a

namespace Keeps

variable {I : σ → Prop} {Q : α → Prop} {R : β → Prop}

/-- A computation that does not touch the state. -/
lemma lift {x : Outcome ε α} (hx : x.Returns) (hq : ∀ a, x = .ok a → Q a) :
    Keeps I (lift x : Prog σ ε α) Q :=
  fun _ hs => ⟨hx, hs, hq⟩

lemma pure {a : α} (hq : Q a) : Keeps I (pure a : Prog σ ε α) Q := lift trivial fun _ h => by
    cases h
    exact hq

lemma bind (hx : Keeps I x Q)
    (hf : ∀ a, Q a → Keeps I (f a) R) : Keeps I (x >>= f) R := by
  intro s hs
  obtain ⟨hret, hinv, hq⟩ := hx s hs
  rcases hrun : x s with ⟨o, s'⟩
  rw [hrun] at hret hinv hq
  cases o with
  | ok a =>
    rw [bind_ok hrun]
    exact hf a (hq a rfl) s' hinv
  | err e =>
    rw [bind_err hrun]
    exact ⟨trivial, hinv, nofun⟩
  | _ => exact absurd hret id

end Keeps

/-- If `x` comes back, it leaves a state that `R` relates to the one it began
in. -/
def Within (R : σ → σ → Prop) (x : Prog σ ε α) : Prop := ∀ s, (x s).1.Returns → R s (x s).2

namespace Within

variable {ε' : Type} {R : σ → σ → Prop}

lemma lift (hrefl : ∀ s, R s s) (x : Outcome ε α) : Within R (lift x : Prog σ ε α) :=
  fun s _ => hrefl s

lemma bind (htrans : ∀ s t u, R s t → R t u → R s u)
    (hx : Within R x) (hf : ∀ a, Within R (f a)) : Within R (x >>= f) := by
  intro s hret
  have hs := hx s
  rcases bind_cases hret with ⟨a, t, hrun, heq⟩ | ⟨e, t, hrun, heq⟩ <;> rw [hrun] at hs
  · rw [heq] at hret ⊢
    exact htrans s t _ (hs trivial) (hf a t hret)
  · rw [heq]
    exact hs trivial

lemma attempt (hx : Within R x) : Within R (x.attempt : Prog σ ε' _) := by
  intro s
  have hs := hx s
  rcases hrun : x s with ⟨o, t⟩
  rw [hrun] at hs
  cases o with
  | ok a =>
    rw [attempt_ok hrun]
    exact fun _ => hs trivial
  | err e =>
    rw [attempt_err hrun]
    exact fun _ => hs trivial
  | panic =>
    rw [attempt_panic hrun]
    exact fun hret => absurd hret id
  | diverge =>
    rw [attempt_diverge hrun]
    exact fun hret => absurd hret id

lemma mapErr (hx : Within R x) (f : ε → ε') : Within R (x.mapErr f) := by
  intro s hret
  rw [mapErr_apply] at hret
  exact hx s (Outcome.returns_mapErr.mp hret)

end Within

/-- If `x` comes back, a state of `I` is followed by a state of `I`. -/
def Preserves (I : σ → Prop) (x : Prog σ ε α) : Prop := Within (fun s t => I s → I t) x

namespace Preserves

variable {ε' : Type} {I : σ → Prop}

lemma of_readOnly (hx : ReadOnly x) : Preserves I x := by
  intro s _ hs
  rw [hx s]
  exact hs

lemma lift (x : Outcome ε α) : Preserves I (lift x : Prog σ ε α) :=
  of_readOnly (.lift x)

lemma bind (hx : Preserves I x)
    (hf : ∀ a, Preserves I (f a)) : Preserves I (x >>= f) :=
  Within.bind (fun _ _ _ h₁ h₂ hs => h₂ (h₁ hs)) hx hf

lemma mapErr (hx : Preserves I x) (f : ε → ε') : Preserves I (x.mapErr f) :=
  Within.mapErr hx f

end Preserves

end RustOs.Lib
