import Mathlib.Algebra.Group.Nat.Defs

/-!
# Calls that may fail, panic or not return

A Rust call ends in one of four ways: it returns `Ok`, it returns `Err`, it
panics (an index out of bounds, a division by zero, an arithmetic overflow
under the overflow checks of the development profile), or it does not return
at all. `Outcome` is that type, and it is a monad whose bind is the `?`
operator: anything but a value cuts the computation short.

`Prog σ ε` adds a state. The state survives an `Err`: a driver that fails half
way leaves behind whatever it wrote before, which is exactly what an atomicity
statement has to look at, so the state is returned beside the outcome and not
inside it.

Unbounded loops are written with fuel and answer `diverge` when it runs out;
each caller picks a bound past which the loop is known to repeat itself.
-/

namespace RustOs.Lib

/-- How a call ends. -/
inductive Outcome (ε α : Type) where
  | ok (a : α)
  | err (e : ε)
  | panic
  | diverge
  deriving DecidableEq, Repr

namespace Outcome

variable {ε ε' α β : Type}

variable {x : Outcome ε α} {f : α → Outcome ε β}

/-- The `?` operator. -/
protected def bind (x : Outcome ε α) (f : α → Outcome ε β) : Outcome ε β :=
  match x with
  | ok a => f a
  | err e => err e
  | panic => panic
  | diverge => diverge

instance : Monad (Outcome ε) where
  pure := ok
  bind := Outcome.bind

@[simp] lemma pure_eq (a : α) : (pure a : Outcome ε α) = ok a := rfl
@[simp] lemma ok_bind (a : α) (f : α → Outcome ε β) : (ok a >>= f) = f a := rfl
@[simp] lemma err_bind (e : ε) (f : α → Outcome ε β) : (err e >>= f) = err e := rfl
@[simp] lemma panic_bind (f : α → Outcome ε β) : (panic >>= f) = panic := rfl
@[simp] lemma diverge_bind (f : α → Outcome ε β) : (diverge >>= f) = diverge := rfl

lemma bind_assoc {γ : Type} (x : Outcome ε α) (f : α → Outcome ε β) (g : β → Outcome ε γ) :
    x >>= f >>= g = x >>= fun a => f a >>= g := by
  cases x <;> rfl

/-- A computation in two steps returns a value exactly when both steps do. -/
lemma bind_eq_ok {b : β} :
    (x >>= f) = ok b ↔ ∃ a, x = ok a ∧ f a = ok b := by
  cases x <;> simp

/-- `map_err`. -/
def mapErr (f : ε → ε') : Outcome ε α → Outcome ε' α
  | ok a => ok a
  | err e => err (f e)
  | panic => panic
  | diverge => diverge

@[simp] lemma mapErr_eq_ok {f : ε → ε'} {a : α} : mapErr f x = ok a ↔ x = ok a := by
  cases x <;> simp [mapErr]

lemma mapErr_eq_err {f : ε → ε'} {e : ε'} : mapErr f x = err e ↔ ∃ e', x = err e' ∧ f e' = e := by
  cases x <;> simp [mapErr]

/-- The call comes back to its caller, with a value or with an error. -/
def Returns : Outcome ε α → Prop
  | ok _ => True
  | err _ => True
  | panic => False
  | diverge => False

instance : (x : Outcome ε α) → Decidable x.Returns
  | ok _ => .isTrue trivial
  | err _ => .isTrue trivial
  | panic => .isFalse id
  | diverge => .isFalse id

@[simp] lemma returns_ok (a : α) : (ok a : Outcome ε α).Returns := trivial
@[simp] lemma returns_err (e : ε) : (err e : Outcome ε α).Returns := trivial
@[simp] lemma not_returns_panic : ¬(panic : Outcome ε α).Returns := id
@[simp] lemma not_returns_diverge : ¬(diverge : Outcome ε α).Returns := id

/-- A computation in two steps comes back exactly when the first does and, if
that gave a value, the second does too. -/
lemma returns_bind :
    (x >>= f).Returns ↔ x.Returns ∧ ∀ a, x = ok a → (f a).Returns := by
  cases x <;> simp

/-- A branch comes back exactly if the one that is taken does. -/
@[simp] lemma returns_ite {c : Prop} [Decidable c] {y : Outcome ε α} :
    (if c then x else y).Returns ↔ (c → x.Returns) ∧ (¬c → y.Returns) := by
  by_cases h : c <;> simp [h]

@[simp] lemma returns_mapErr {f : ε → ε'} : (x.mapErr f).Returns ↔ x.Returns := by
  cases x <;> exact .rfl

/-- How the call ended, without its value. -/
def void (x : Outcome ε α) : Outcome ε Unit := x >>= fun _ => ok ()

@[simp] lemma void_ok (a : α) : (ok a : Outcome ε α).void = ok () := rfl
@[simp] lemma void_err (e : ε) : (err e : Outcome ε α).void = err e := rfl
@[simp] lemma void_panic : (panic : Outcome ε α).void = panic := rfl
@[simp] lemma void_diverge : (diverge : Outcome ε α).void = diverge := rfl

lemma returns_void : x.void.Returns ↔ x.Returns := by
  cases x <;> simp

/-- A call that went through has passed its first check. -/
lemma passed {σ : Type} {c : Prop} [Decidable c] {e : ε} {s : σ} {y : Outcome ε α × σ} {a : α}
    (h : (if c then (err e, s) else y).1 = ok a) : ¬c ∧ y.1 = ok a := by
  split at h
  next => cases h
  next hc => exact ⟨hc, h⟩

lemma returns_iff : x.Returns ↔ x ≠ panic ∧ x ≠ diverge := by
  cases x <;> simp

/-! ## Machine arithmetic

Unsigned integers are natural numbers; an operation whose result does not fit
its width panics. -/

/-- Addition of `w`-bit unsigned integers. -/
def uadd (w a b : Nat) : Outcome ε Nat := if a + b < 2 ^ w then ok (a + b) else panic

/-- Subtraction of unsigned integers. -/
def usub (a b : Nat) : Outcome ε Nat := if b ≤ a then ok (a - b) else panic

/-- Multiplication of `w`-bit unsigned integers. -/
def umul (w a b : Nat) : Outcome ε Nat := if a * b < 2 ^ w then ok (a * b) else panic

/-- Division of unsigned integers. -/
def udiv (a b : Nat) : Outcome ε Nat := if b = 0 then panic else ok (a / b)

/-- Remainder of unsigned integers. -/
def urem (a b : Nat) : Outcome ε Nat := if b = 0 then panic else ok (a % b)

lemma uadd_of_lt {w a b : Nat} (h : a + b < 2 ^ w) : (uadd w a b : Outcome ε Nat) = ok (a + b) :=
  if_pos h

/-- Two additions in a row overflow exactly when their sum does. -/
lemma uadd_bind_uadd (w a b c : Nat) :
    (uadd w a b >>= fun n => uadd w n c : Outcome ε Nat) = uadd w a (b + c) := by
  unfold uadd
  by_cases h : a + b < 2 ^ w
  · rw [if_pos h, ok_bind, Nat.add_assoc]
  · rw [if_neg h, panic_bind, if_neg (by omega)]

lemma usub_of_le {a b : Nat} (h : b ≤ a) : (usub a b : Outcome ε Nat) = ok (a - b) := if_pos h

lemma umul_of_lt {w a b : Nat} (h : a * b < 2 ^ w) : (umul w a b : Outcome ε Nat) = ok (a * b) :=
  if_pos h

lemma udiv_of_ne {a b : Nat} (h : b ≠ 0) : (udiv a b : Outcome ε Nat) = ok (a / b) := if_neg h

lemma urem_of_ne {a b : Nat} (h : b ≠ 0) : (urem a b : Outcome ε Nat) = ok (a % b) := if_neg h

/-! A checked operation gives its result exactly if that fits, and comes back exactly then. -/

section

variable {w a b : Nat} {f : Nat → Outcome ε α} {c : Nat}

lemma uadd_eq_ok : (uadd w a b : Outcome ε Nat) = ok c ↔ a + b < 2 ^ w ∧ a + b = c := by
  unfold uadd
  split <;> simp [*]

lemma umul_eq_ok : (umul w a b : Outcome ε Nat) = ok c ↔ a * b < 2 ^ w ∧ a * b = c := by
  unfold umul
  split <;> simp [*]

lemma udiv_eq_ok : (udiv a b : Outcome ε Nat) = ok c ↔ b ≠ 0 ∧ a / b = c := by
  unfold udiv
  split <;> simp [*]

lemma urem_eq_ok : (urem a b : Outcome ε Nat) = ok c ↔ b ≠ 0 ∧ a % b = c := by
  unfold urem
  split <;> simp [*]

@[simp] lemma returns_uadd_bind :
    (uadd w a b >>= f).Returns ↔ a + b < 2 ^ w ∧ (f (a + b)).Returns := by
  unfold uadd
  split <;> simp [*]

@[simp] lemma returns_umul_bind :
    (umul w a b >>= f).Returns ↔ a * b < 2 ^ w ∧ (f (a * b)).Returns := by
  unfold umul
  split <;> simp [*]

@[simp] lemma returns_usub_bind : (usub a b >>= f).Returns ↔ b ≤ a ∧ (f (a - b)).Returns := by
  unfold usub
  split <;> simp [*]

@[simp] lemma returns_udiv_bind : (udiv a b >>= f).Returns ↔ b ≠ 0 ∧ (f (a / b)).Returns := by
  unfold udiv
  split <;> simp [*]

@[simp] lemma returns_urem_bind : (urem a b >>= f).Returns ↔ b ≠ 0 ∧ (f (a % b)).Returns := by
  unfold urem
  split <;> simp [*]

end

end Outcome

/-! ## Programs with a state -/

/-- A program over the state `σ`: the outcome, and the state it leaves. -/
def Prog (σ ε α : Type) : Type := σ → Outcome ε α × σ

namespace Prog

variable {σ ε ε' α β : Type}

variable {x : Prog σ ε α} {s s' : σ} {f : α → Prog σ ε β}

/-- A computation that does not touch the state. -/
def lift (x : Outcome ε α) : Prog σ ε α := fun s => (x, s)

/-- The `?` operator; an error keeps the state reached so far. -/
protected def bind (x : Prog σ ε α) (f : α → Prog σ ε β) : Prog σ ε β := fun s =>
  match x s with
  | (.ok a, s') => f a s'
  | (.err e, s') => (.err e, s')
  | (.panic, s') => (.panic, s')
  | (.diverge, s') => (.diverge, s')

instance : Monad (Prog σ ε) where
  pure a := lift (.ok a)
  bind := Prog.bind

/-- Return `Err(e)`. -/
def fail (e : ε) : Prog σ ε α := lift (.err e)

/-- The current state. -/
def get : Prog σ ε σ := fun s => (.ok s, s)

/-- Replace the state. -/
def set (s : σ) : Prog σ ε Unit := fun _ => (.ok (), s)

/-- `map_err`. -/
def mapErr (f : ε → ε') (x : Prog σ ε α) : Prog σ ε' α := fun s => ((x s).1.mapErr f, (x s).2)

/-- Run a call and look at its result instead of propagating an error. -/
def attempt (x : Prog σ ε α) : Prog σ ε' (Except ε α) := fun s =>
  match x s with
  | (.ok a, s') => (.ok (.ok a), s')
  | (.err e, s') => (.ok (.error e), s')
  | (.panic, s') => (.panic, s')
  | (.diverge, s') => (.diverge, s')

@[simp] lemma pure_apply (a : α) (s : σ) : (pure a : Prog σ ε α) s = (.ok a, s) := rfl
@[simp] lemma lift_apply (x : Outcome ε α) (s : σ) : (lift x : Prog σ ε α) s = (x, s) := rfl
@[simp] lemma get_apply (s : σ) : (get : Prog σ ε σ) s = (.ok s, s) := rfl
@[simp] lemma set_apply (s t : σ) : (set t : Prog σ ε Unit) s = (.ok (), t) := rfl
@[simp] lemma mapErr_apply (f : ε → ε') (x : Prog σ ε α) (s : σ) :
    mapErr f x s = ((x s).1.mapErr f, (x s).2) := rfl

/-- A step that returns a value hands it, with the state it left, to the rest. -/
lemma bind_ok {a : α}
    (h : x s = (.ok a, s')) : (x >>= f) s = f a s' := by
  show Prog.bind x f s = _
  simp [Prog.bind, h]

/-- A branch that returns a value either way hands it to the rest. -/
lemma ite_bind_ok {c : Prop} [Decidable c] {y : Prog σ ε α}
    {a : α} (h : (if c then x else y) s = (.ok a, s')) :
    (if c then x >>= f else y >>= f) s = f a s' := by
  by_cases hc : c
  · rw [if_pos hc] at h ⊢
    exact bind_ok h
  · rw [if_neg hc] at h ⊢
    exact bind_ok h

/-- A step that returns an error ends the program in the state it left. -/
lemma bind_err {e : ε}
    (h : x s = (.err e, s')) : (x >>= f) s = (.err e, s') := by
  show Prog.bind x f s = _
  simp [Prog.bind, h]

lemma lift_ok_bind (a : α) (f : α → Prog σ ε β) : (lift (.ok a) >>= f) = f a := rfl

lemma bind_panic
    (h : x s = (.panic, s')) : (x >>= f) s = (.panic, s') := by
  show Prog.bind x f s = _
  simp [Prog.bind, h]

lemma bind_diverge
    (h : x s = (.diverge, s')) : (x >>= f) s = (.diverge, s') := by
  show Prog.bind x f s = _
  simp [Prog.bind, h]

/-- A two-step program that returns. -/
lemma bind_cases (h : ((x >>= f) s).1.Returns) :
    (∃ a s', x s = (.ok a, s') ∧ (x >>= f) s = f a s')
      ∨ ∃ e s', x s = (.err e, s') ∧ (x >>= f) s = (.err e, s') := by
  rcases hx : x s with ⟨a | e | _ | _, s'⟩
  · exact .inl ⟨a, s', rfl, bind_ok hx⟩
  · exact .inr ⟨e, s', rfl, bind_err hx⟩
  · rw [bind_panic hx] at h
    exact absurd h id
  · rw [bind_diverge hx] at h
    exact absurd h id

/-- What a two-step program that returned a value did. -/
lemma bind_eq_ok {b : β}
    (h : (x >>= f) s = (.ok b, s')) :
    ∃ a s₁, x s = (.ok a, s₁) ∧ f a s₁ = (.ok b, s') := by
  rcases bind_cases (h ▸ trivial : ((x >>= f) s).1.Returns) with ⟨a, s₁, hx, heq⟩ | ⟨e, s₁, _, heq⟩
  · exact ⟨a, s₁, hx, heq.symm.trans h⟩
  · exact nomatch heq.symm.trans h

lemma attempt_ok {a : α} (h : x s = (.ok a, s')) :
    (attempt x : Prog σ ε' _) s = (.ok (.ok a), s') := by simp [attempt, h]

lemma attempt_err {e : ε} (h : x s = (.err e, s')) :
    (attempt x : Prog σ ε' _) s = (.ok (.error e), s') := by simp [attempt, h]

lemma attempt_panic (h : x s = (.panic, s')) : (attempt x : Prog σ ε' _) s = (.panic, s') := by
  simp [attempt, h]

lemma attempt_diverge (h : x s = (.diverge, s')) :
    (attempt x : Prog σ ε' _) s = (.diverge, s') := by simp [attempt, h]

end Prog

end RustOs.Lib
