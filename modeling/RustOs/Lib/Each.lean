import RustOs.Lib.Refine

/-!
# Loops over a list

`Prog.each l f` is a `for` loop whose body gives no value. A loop over a list of
lists is the loop over all their elements (`each_flatten`), and a loop whose body
leaves the abstract state alone does so too (`Runs.each`).
-/

namespace RustOs.Lib

open List

variable {σ τ ε α β : Type}

namespace Prog

/-- `for a in l { f(a) }`. -/
def each : List α → (α → Prog σ ε Unit) → Prog σ ε Unit
  | [], _ => pure ()
  | a :: l, f => f a >>= fun _ => each l f

lemma bind_assoc {γ : Type} (x : Prog σ ε α) (f : α → Prog σ ε β) (g : β → Prog σ ε γ) :
    x >>= f >>= g = x >>= fun a => f a >>= g := by
  funext s
  rcases hx : x s with ⟨o, s'⟩
  cases o with
  | ok a =>
    have hl : (x >>= f >>= g) s = (f a >>= g) s' := by
      show Prog.bind (Prog.bind x f) g s = Prog.bind (f a) g s'
      simp only [Prog.bind, hx]
    rw [hl, bind_ok hx]
  | err e => rw [bind_err hx, bind_err (bind_err hx)]
  | panic => rw [bind_panic hx, bind_panic (bind_panic hx)]
  | diverge => rw [bind_diverge hx, bind_diverge (bind_diverge hx)]

lemma each_append (f : α → Prog σ ε Unit) : ∀ (l₁ l₂ : List α),
    each (l₁ ++ l₂) f = each l₁ f >>= fun _ => each l₂ f := by
  intro l₁
  induction l₁ with
  | nil => exact fun _ => rfl
  | cons a l₁ ih =>
    intro l₂
    rw [cons_append, each, each, bind_assoc]
    congr 1
    funext _
    exact ih l₂

lemma each_flatten (f : α → Prog σ ε Unit) : ∀ (ls : List (List α)),
    each ls.flatten f = each ls fun l => each l f := by
  intro ls
  induction ls with
  | nil => rfl
  | cons l ls ih =>
    rw [flatten_cons, each_append, each, ih]

lemma each_map (g : β → α) (f : α → Prog σ ε Unit) : ∀ (l : List β),
    each (l.map g) f = each l fun b => f (g b) := by
  intro l
  induction l with
  | nil => rfl
  | cons b l ih => rw [map_cons, each, each, ih]

end Prog

/-- A loop whose body leaves the abstract state as it is. -/
lemma Runs.each {R : σ → τ → Prop} {t : τ} {f : α → Prog σ ε Unit} : ∀ {l : List α},
    (∀ a ∈ l, Runs R (f a) t (.ok ()) t) → Runs R (Prog.each l f) t (.ok ()) t := by
  intro l
  induction l with
  | nil => exact fun _ => .pure _
  | cons a l ih =>
    intro h
    exact .bind (h a mem_cons_self) (ih fun b hb => h b (mem_cons_of_mem _ hb))

end RustOs.Lib
