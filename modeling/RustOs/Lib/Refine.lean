import RustOs.Lib.Outcome

/-!
# Programs against an abstract state

A driver moves bytes; what it is for is said about something simpler. `R`
relates the bytes to that simpler state, and `Runs R x t o t'` says that `x`,
started in any state that stands for `t`, ends with `o` in a state that stands
for `t'`. The rules below follow the constructs of `Prog`, so the run of a
function is put together from the runs of the functions it calls, and no proof
above this file looks at a concrete state again.
-/

namespace RustOs.Lib

open Prog Outcome

variable {σ τ ε ε' α β : Type} {s : σ}

/-- From every state related to `t`, `x` ends with `o` in a state related to `t'`. -/
def Runs (R : σ → τ → Prop) (x : Prog σ ε α) (t : τ) (o : Outcome ε α) (t' : τ) : Prop :=
  ∀ s, R s t → ∃ s', x s = (o, s') ∧ R s' t'

namespace Runs

variable {R : σ → τ → Prop} {t t₁ t₂ : τ}

variable {x : Prog σ ε α} {f : α → Prog σ ε β} {o : Outcome ε α} {a : α}

/-- The outcome, read off at one related state. -/
lemma outcome (h : Runs R x t o t₁) (hs : R s t) : (x s).1 = o := by
  obtain ⟨s', hx, _⟩ := h s hs
  rw [hx]

/-- A run that fails returns no value. -/
lemma ne_ok {e : ε} (h : Runs R x t (.err e) t₁) (hs : R s t) :
    (x s).1 ≠ .ok a := by
  rw [h.outcome hs]
  exact nofun

/-- The state left behind, read off at one related state. -/
lemma state (h : Runs R x t o t₁) (hs : R s t) : R (x s).2 t₁ := by
  obtain ⟨s', hx, hr⟩ := h s hs
  rw [hx]
  exact hr

/-- A program that only looks at the state. -/
lemma of_eq (h : ∀ s, R s t → x s = (o, s)) : Runs R x t o t := fun s hs => ⟨s, h s hs, hs⟩

lemma lift (o : Outcome ε α) : Runs R (lift o : Prog σ ε α) t o t := of_eq fun _ _ => rfl

lemma pure (a : α) : Runs R (pure a : Prog σ ε α) t (.ok a) t := lift _

lemma fail (e : ε) : Runs R (fail e : Prog σ ε α) t (.err e) t := lift _

/-- `?` on a step that gives a value. -/
lemma bind {o : Outcome ε β}
    (hx : Runs R x t (.ok a) t₁) (hf : Runs R (f a) t₁ o t₂) : Runs R (x >>= f) t o t₂ := by
  intro s hs
  obtain ⟨s₁, h₁, hs₁⟩ := hx s hs
  obtain ⟨s₂, h₂, hs₂⟩ := hf s₁ hs₁
  exact ⟨s₂, by rw [bind_ok h₁, h₂], hs₂⟩

/-- `?` on a step that gives an error. -/
lemma bind_err {e : ε}
    (hx : Runs R x t (.err e) t₁) : Runs R (x >>= f) t (.err e) t₁ := by
  intro s hs
  obtain ⟨s₁, h₁, hs₁⟩ := hx s hs
  exact ⟨s₁, Prog.bind_err h₁, hs₁⟩

/-- A panicking step ends the program. -/
lemma bind_panic
    (hx : Runs R x t .panic t₁) : Runs R (x >>= f) t .panic t₁ := by
  intro s hs
  obtain ⟨s₁, h₁, hs₁⟩ := hx s hs
  exact ⟨s₁, Prog.bind_panic h₁, hs₁⟩

/-- A checked computation that gives a value. -/
lemma lift_bind {x : Outcome ε α} {o : Outcome ε β}
    (hx : x = .ok a) (hf : Runs R (f a) t o t₁) : Runs R (Prog.lift x >>= f) t o t₁ := by
  rw [hx]
  exact bind (lift _) hf

lemma mapErr (f : ε → ε') (hx : Runs R x t o t₁) : Runs R (x.mapErr f) t (o.mapErr f) t₁ := by
  intro s hs
  obtain ⟨s₁, h₁, hs₁⟩ := hx s hs
  exact ⟨s₁, by rw [mapErr_apply, h₁], hs₁⟩

/-- `if let Err(e) = …` on a call that succeeds. -/
lemma attempt_ok (hx : Runs R x t (.ok a) t₁) :
    Runs R (x.attempt : Prog σ ε' _) t (.ok (.ok a)) t₁ := by
  intro s hs
  obtain ⟨s₁, h₁, hs₁⟩ := hx s hs
  exact ⟨s₁, Prog.attempt_ok h₁, hs₁⟩

/-- `if let Err(e) = …` on a call that fails. -/
lemma attempt_err {e : ε} (hx : Runs R x t (.err e) t₁) :
    Runs R (x.attempt : Prog σ ε' _) t (.ok (.error e)) t₁ := by
  intro s hs
  obtain ⟨s₁, h₁, hs₁⟩ := hx s hs
  exact ⟨s₁, Prog.attempt_err h₁, hs₁⟩

end Runs

/-! ## Programs that only read -/

/-- The program leaves every state as it is. -/
def ReadOnly (x : Prog σ ε α) : Prop := ∀ s, (x s).2 = s

namespace ReadOnly

variable {x : Prog σ ε α} {f : α → Prog σ ε β}

lemma lift (o : Outcome ε α) : ReadOnly (lift o : Prog σ ε α) := fun _ => rfl

lemma pure (a : α) : ReadOnly (pure a : Prog σ ε α) := fun _ => rfl

lemma fail (e : ε) : ReadOnly (fail e : Prog σ ε α) := fun _ => rfl

lemma bind (hx : ReadOnly x) (hf : ∀ a, ReadOnly (f a)) :
    ReadOnly (x >>= f) := by
  intro s
  have hs := hx s
  show (Prog.bind x f s).2 = s
  unfold Prog.bind
  rcases h : x s with ⟨o, s'⟩
  rw [h] at hs
  cases o with
  | ok a => exact (hf a s').trans hs
  | _ => exact hs

lemma mapErr (f : ε → ε') (hx : ReadOnly x) : ReadOnly (x.mapErr f) := fun s => hx s

variable (hx : ReadOnly x)
include hx

lemma attempt : ReadOnly (x.attempt : Prog σ ε' _) := by
  intro s
  have hs := hx s
  unfold Prog.attempt
  rcases h : x s with ⟨o, s'⟩
  rw [h] at hs
  cases o <;> exact hs

/-- The run of a program that only reads, from its outcome. -/
lemma run {o : Outcome ε α} (h : (x s).1 = o) : x s = (o, s) :=
  Prod.ext h (hx s)

/-- The outcome of two steps, the first of which only reads, is that of their outcomes. -/
lemma bind_fst (f : α → Prog σ ε β) (s : σ) :
    ((x >>= f) s).1 = ((x s).1 >>= fun a => (f a s).1) := by
  cases ho : (x s).1 with
  | ok a => rw [bind_ok (hx.run ho), ok_bind]
  | err e => rw [bind_err (hx.run ho), err_bind]
  | panic => rw [bind_panic (hx.run ho), panic_bind]
  | diverge => rw [bind_diverge (hx.run ho), diverge_bind]

/-- Two steps that return, the first of which only reads. -/
lemma bind_cases (h : ((x >>= f) s).1.Returns) :
    (∃ a, (x s).1 = .ok a ∧ (x >>= f) s = f a s)
      ∨ ∃ e, (x s).1 = .err e ∧ (x >>= f) s = (.err e, s) := by
  have hs := hx s
  rcases Prog.bind_cases h with ⟨a, s', hrun, heq⟩ | ⟨e, s', hrun, heq⟩ <;> rw [hrun] at hs ⊢
  · exact .inl ⟨a, rfl, heq.trans (congrArg (f a) hs)⟩
  · exact .inr ⟨e, rfl, heq.trans (congrArg _ hs)⟩

/-- The same where the second step looks at the failure. -/
lemma attempt_cases {f : Except ε α → Prog σ ε' β}
    (h : ((x.attempt >>= f) s).1.Returns) :
    (∃ a, (x s).1 = .ok a ∧ (x.attempt >>= f) s = f (.ok a) s)
      ∨ ∃ e, (x s).1 = .err e ∧ (x.attempt >>= f) s = f (.error e) s := by
  rcases ho : (x s).1 with a | e | _ | _
  · exact .inl ⟨a, rfl, bind_ok (attempt_ok (hx.run ho))⟩
  · exact .inr ⟨e, rfl, bind_ok (attempt_err (hx.run ho))⟩
  · rw [bind_panic (attempt_panic (hx.run ho))] at h
    exact absurd h id
  · rw [bind_diverge (attempt_diverge (hx.run ho))] at h
    exact absurd h id

lemma mapErr_run (f : ε → ε') {o : Outcome ε α}
    (h : (x s).1 = o) : x.mapErr f s = (o.mapErr f, s) := by
  rw [mapErr_apply, hx.run h]

/-- The same where the failure is reported as another one. -/
lemma mapErr_cases {g : ε → ε'} {f : α → Prog σ ε' β}
    (h : ((x.mapErr g >>= f) s).1.Returns) :
    (∃ a, (x s).1 = .ok a ∧ (x.mapErr g >>= f) s = f a s)
      ∨ ∃ e, (x s).1 = .err e ∧ (x.mapErr g >>= f) s = (.err (g e), s) := by
  rcases (hx.mapErr g).bind_cases h with ⟨a, ha, heq⟩ | ⟨e, he, heq⟩
  · exact .inl ⟨a, mapErr_eq_ok.mp ha, heq⟩
  · obtain ⟨e, ho, rfl⟩ := mapErr_eq_err.mp he
    exact .inr ⟨e, ho, heq⟩

end ReadOnly

end RustOs.Lib
