import RustOs.Lib.Outcome
import Mathlib.Data.List.Infix

/-!
# Sequences of calls

A system takes call after call; a call that does not return ends the sequence.
`trace` is the state a sequence leads to, `Always` says that a property holds
after each of its calls, and `Along` that each call is made in a state that suits
it. The two are connected by what a single call does: if a call keeps the
property exactly when it suits, then the property holds throughout exactly when
every call suits (`always_iff_along`).
-/

namespace RustOs.Lib

open List

variable {σ ε α ι : Type} {x : Prog σ ε α} {s s' : σ}

/-- The state a call leaves behind, if it returns. -/
def Prog.after (x : Prog σ ε α) (s : σ) : Option σ :=
  if (x s).1.Returns then some (x s).2 else none

lemma Prog.after_eq_some :
    x.after s = some s' ↔ (x s).1.Returns ∧ (x s).2 = s' := by simp [Prog.after]

lemma Prog.after_eq (h : x.after s = some s') : (x s).2 = s' :=
  (Prog.after_eq_some.mp h).2

lemma Prog.after_returns (h : x.after s = some s') : (x s).1.Returns :=
  (Prog.after_eq_some.mp h).1

lemma Prog.after_bind {β : Type} {f : α → Prog σ ε β}
    (h : (x >>= f).after s = some s') :
    (∃ a s₁, x s = (.ok a, s₁) ∧ (f a).after s₁ = some s') ∨ ∃ e, x s = (.err e, s') := by
  obtain ⟨hret, hs⟩ := after_eq_some.mp h
  rcases bind_cases hret with ⟨a, s₁, hx, heq⟩ | ⟨e, s₁, hx, heq⟩
  · rw [heq] at hret hs
    exact .inl ⟨a, s₁, hx, after_eq_some.mpr ⟨hret, hs⟩⟩
  · rw [heq] at hs
    exact .inr ⟨e, hs ▸ hx⟩

section

variable (step : ι → σ → Option σ)

/-- The state after a sequence of calls that all return. -/
def trace : List ι → σ → Option σ
  | [], s => some s
  | a :: as, s => (step a s).bind (trace as)

/-- Each call that is reached and returns is made in a state that satisfies `P`
for it. -/
def Along (P : ι → σ → Prop) : List ι → σ → Prop
  | [], _ => True
  | a :: as, s => ∀ s', step a s = some s' → P a s ∧ Along P as s'

/-- The property holds at the start and after each call. -/
def Always (I : σ → Prop) (as : List ι) (s : σ) : Prop :=
  ∀ as' t, as' <+: as → trace step as' s = some t → I t

end

variable {step : ι → σ → Option σ} {I W : σ → Prop} {P : ι → σ → Prop}

variable {Q : ι → σ → Prop} {as : List ι} {s : σ} {D : ι → σ → Prop}

lemma always_nil (hs : I s) : Always step I [] s := by
  intro as' t hpre ht
  rw [prefix_nil.mp hpre] at ht
  cases ht
  exact hs

lemma always_cons {a : ι} :
    Always step I (a :: as) s ↔ I s ∧ ∀ s', step a s = some s' → Always step I as s' := by
  constructor
  · intro h
    refine ⟨h [] s nil_prefix rfl, fun s' hs as' t hpre ht => ?_⟩
    refine h (a :: as') t (cons_prefix_cons.mpr ⟨rfl, hpre⟩) ?_
    rw [trace, hs]
    exact ht
  · intro ⟨hs, hrest⟩ as' t hpre ht
    cases as' with
    | nil =>
      cases ht
      exact hs
    | cons b as' =>
      obtain ⟨rfl, htail⟩ := cons_prefix_cons.mp hpre
      obtain ⟨s', hstep, ht⟩ := Option.bind_eq_some_iff.mp ht
      exact hrest s' hstep as' t htail ht

/-- A property that calls keep in the states that suit them holds throughout a
sequence of such calls. -/
lemma always_of_along (hstep : ∀ a s s', I s → step a s = some s' → P a s → I s')
    (hs : I s) (h : Along step P as s) : Always step I as s := by
  induction as generalizing s with
  | nil => exact always_nil hs
  | cons a as ih =>
    refine always_cons.mpr ⟨hs, fun s' hs' => ?_⟩
    obtain ⟨hP, hrest⟩ := h s' hs'
    exact ih (hstep a s s' hs hs' hP) hrest

/-- A property that calls of the kind `Q` keep only in the states that suit them
holds throughout a sequence of those only if every call suits. -/
lemma along_of_always
    (hstep : ∀ a s s', I s → step a s = some s' → Q a s → I s' → P a s) : ∀ (as : List ι) (s : σ),
    Along step Q as s → Always step I as s → Along step P as s := by
  intro as
  induction as with
  | nil => exact fun _ _ _ => trivial
  | cons a as ih =>
    intro s hQ h s' hs'
    obtain ⟨hs, hrest⟩ := always_cons.mp h
    obtain ⟨hq, hqs⟩ := hQ s' hs'
    have hs'' := hrest s' hs' [] s' nil_prefix rfl
    exact ⟨hstep a s s' hs hs' hq hs'', ih s' hqs (hrest s' hs')⟩

/-- The property at the end of a sequence of calls that suit. -/
lemma trace_of_along (hstep : ∀ a s s', I s → step a s = some s' → P a s → I s')
    {t : σ} (hs : I s) (h : Along step P as s) (ht : trace step as s = some t) : I t :=
  always_of_along hstep hs h as t prefix_rfl ht

/-- A sequence of suitable calls is one before and after each of its states. -/
lemma along_append {bs : List ι} {t : σ} (h : Along step P (as ++ bs) s)
    (ht : trace step as s = some t) : Along step P as s ∧ Along step P bs t := by
  induction as generalizing s with
  | nil =>
    cases ht
    exact ⟨trivial, h⟩
  | cons a as ih =>
    obtain ⟨s', hstep, ht⟩ := Option.bind_eq_some_iff.mp ht
    obtain ⟨hP, hrest⟩ := h s' hstep
    obtain ⟨has, hbs⟩ := ih hrest ht
    refine ⟨fun s'' hs'' => ?_, hbs⟩
    rw [hstep] at hs''
    cases hs''
    exact ⟨hP, has⟩

/-- Calls that suit in one way suit in another, if they do in each state in which they
return. -/
lemma Along.mono (h : ∀ a s s', step a s = some s' → P a s → Q a s) :
    ∀ {as : List ι} {s : σ}, Along step P as s → Along step Q as s := by
  intro as
  induction as with
  | nil => exact fun _ => trivial
  | cons a as ih => exact fun hP s' hs' => ⟨h a _ s' hs' (hP s' hs').1, ih (hP s' hs').2⟩

instance Along.decidable [∀ a s, Decidable (P a s)] :
    (as : List ι) → (s : σ) → Decidable (Along step P as s)
  | [], _ => isTrue trivial
  | a :: as, s =>
    match h : step a s with
    | none => isTrue fun _ hs' => nomatch h.symm.trans hs'
    | some t =>
      have : Decidable (Along step P as t) := Along.decidable as t
      decidable_of_iff (P a s ∧ Along step P as t)
        ⟨fun hPt _ hs' => Option.some.inj (h.symm.trans hs') ▸ hPt, fun hall => hall t h⟩

lemma along_true (as : List ι) : ∀ s, Along step (fun _ _ => True) as s := by
  induction as with
  | nil => exact fun _ => trivial
  | cons a as ih => exact fun s s' _ => ⟨trivial, ih s'⟩

/-- Suppose that calls of the kind `Q` keep the property and do what is asked of them, `D`,
exactly in the states that suit them. Then a sequence of those does so throughout exactly
if every call suits. What else is needed of the states, `W`, has to be kept as long as the
property holds. -/
lemma always_and_along_within
    (hW : ∀ a s s', W s → I s → step a s = some s' → Q a s → I s' → W s')
    (hstep : ∀ a s s', W s → I s → step a s = some s' → Q a s → (I s' ∧ D a s ↔ P a s)) :
    ∀ (as : List ι) (s : σ), W s → I s → Along step Q as s →
      (Always step I as s ∧ Along step D as s ↔ Along step P as s) := by
  intro as
  induction as with
  | nil => exact fun s _ hs _ => iff_of_true ⟨always_nil hs, trivial⟩ trivial
  | cons a as ih =>
    intro s hw hs hQ
    rw [always_cons]
    constructor
    · intro ⟨⟨_, hrest⟩, hD⟩ s' hs'
      have hs'' := hrest s' hs' [] s' nil_prefix rfl
      obtain ⟨hd, hds⟩ := hD s' hs'
      obtain ⟨hq, hqs⟩ := hQ s' hs'
      exact ⟨(hstep a s s' hw hs hs' hq).mp ⟨hs'', hd⟩,
        (ih s' (hW a s s' hw hs hs' hq hs'') hs'' hqs).mp ⟨hrest s' hs', hds⟩⟩
    · intro h
      have hnext (s' : σ) (hs' : step a s = some s') :
          Always step I as s' ∧ D a s ∧ Along step D as s' := by
        obtain ⟨hP, hrest⟩ := h s' hs'
        obtain ⟨hq, hqs⟩ := hQ s' hs'
        obtain ⟨hs'', hd⟩ := (hstep a s s' hw hs hs' hq).mpr hP
        obtain ⟨hI, hds⟩ := (ih s' (hW a s s' hw hs hs' hq hs'') hs'' hqs).mpr hrest
        exact ⟨hI, hd, hds⟩
      exact ⟨⟨hs, fun s' hs' => (hnext s' hs').1⟩, fun s' hs' => (hnext s' hs').2⟩

/-- If calls of the kind `Q` keep the property exactly in the states that suit
them, then it holds throughout a sequence of those exactly if every call suits. -/
lemma always_iff_along_within
    (hstep : ∀ a s s', I s → step a s = some s' → Q a s → (I s' ↔ P a s)) (as : List ι) (s : σ)
    (hs : I s) (hQ : Along step Q as s) : Always step I as s ↔ Along step P as s := by
  rw [← always_and_along_within (W := fun _ => True) (D := fun _ _ => True)
    (fun _ _ _ _ _ _ _ _ => trivial)
    (fun a s s' _ hs hs' hq => (and_iff_left trivial).trans (hstep a s s' hs hs' hq))
    as s trivial hs hQ]
  exact (and_iff_left (along_true as s)).symm

/-- The same for calls of any kind, where `W` is kept as long as the property holds. -/
lemma always_iff_along_while
    (hW : ∀ a s s', W s → I s → step a s = some s' → I s' → W s')
    (hstep : ∀ a s s', W s → I s → step a s = some s' → (I s' ↔ P a s)) (as : List ι)
    (hw : W s) (hs : I s) : Always step I as s ↔ Along step P as s := by
  rw [← always_and_along_within (D := fun _ _ => True)
    (fun a s s' hw hs hs' _ => hW a s s' hw hs hs')
    (fun a s s' hw hs hs' _ => (and_iff_left trivial).trans (hstep a s s' hw hs hs')) as s hw hs
    (along_true as s)]
  exact (and_iff_left (along_true as s)).symm

/-- The same, where `W` is kept by every call. -/
lemma always_iff_along (hW : ∀ a s s', W s → step a s = some s' → W s')
    (hstep : ∀ a s s', W s → I s → step a s = some s' → (I s' ↔ P a s)) (as : List ι)
    (hw : W s) (hs : I s) : Always step I as s ↔ Along step P as s :=
  always_iff_along_while (fun a s s' hws _ hs' _ => hW a s s' hws hs') hstep as hw hs

/-- The same with `D` for calls of any kind, where nothing else is needed of the states. -/
lemma always_and_along_iff
    (hstep : ∀ a s s', I s → step a s = some s' → (I s' ∧ D a s ↔ P a s)) (as : List ι) (s : σ)
    (hs : I s) : Always step I as s ∧ Along step D as s ↔ Along step P as s :=
  always_and_along_within (W := fun _ => True) (fun _ _ _ _ _ _ _ _ => trivial)
    (fun a s s' _ hs hs' _ => hstep a s s' hs hs') as s trivial hs (along_true as s)

end RustOs.Lib
