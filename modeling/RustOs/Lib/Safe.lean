import RustOs.Lib.Refine

/-!
# Safe runs

`x.Safe s post`: from the state `s` the program `x` comes back, and where it comes back with a
value, `post` holds of the value and of the state it leaves. An error is a way to come back. This
is a weakest precondition, so the rules are equivalences, one for each way to build a program; the
rule for sequences is `safe_bind`.
-/

namespace RustOs.Lib.Prog

variable {σ ε ε' α β : Type}

/-- `x` comes back from `s`, with `post` if it comes back with a value. -/
def Safe (x : Prog σ ε α) (s : σ) (post : α → σ → Prop) : Prop :=
  match x s with
  | (.ok a, s') => post a s'
  | (.err _, _) => True
  | (.panic, _) => False
  | (.diverge, _) => False

variable {x : Prog σ ε α} {s : σ} {post : α → σ → Prop} {o : Outcome ε α}

lemma safe_iff : x.Safe s post ↔ (x s).1.Returns ∧ ∀ a s', x s = (.ok a, s') → post a s' := by
  unfold Safe
  split
  next h => simp [h]
  next h => simp [h]
  next h => simp [h]
  next h => simp [h]

/-- Coming back is safety with nothing to say of the end. -/
lemma returns_iff_safe : (x s).1.Returns ↔ x.Safe s fun _ _ => True := by
  rw [safe_iff]
  exact ⟨fun h => ⟨h, fun _ _ _ => trivial⟩, fun h => h.1⟩

lemma safe_congr {post' : α → σ → Prop} (h : ∀ a s', post a s' ↔ post' a s') :
    x.Safe s post ↔ x.Safe s post' := by
  unfold Safe
  split
  next => exact h _ _
  next => exact .rfl
  next => exact .rfl
  next => exact .rfl

lemma safe_bind {f : α → Prog σ ε β} {post : β → σ → Prop} :
    (x >>= f).Safe s post ↔ x.Safe s fun a s' => (f a).Safe s' post := by
  unfold Safe
  rcases hx : x s with ⟨o, s'⟩
  cases o with
  | ok a => rw [bind_ok hx]
  | err e => rw [bind_err hx]
  | panic => rw [bind_panic hx]
  | diverge => rw [bind_diverge hx]

/-- A branch: the one that is taken. -/
lemma safe_ite {c : Prop} [Decidable c] {y : Prog σ ε α} :
    (if c then x else y).Safe s post ↔ (c → x.Safe s post) ∧ (¬c → y.Safe s post) := by
  by_cases h : c <;> simp [h]

lemma safe_pure {a : α} : (pure a : Prog σ ε α).Safe s post ↔ post a s := Iff.rfl

lemma safe_get {post : σ → σ → Prop} : (get : Prog σ ε σ).Safe s post ↔ post s s := Iff.rfl

lemma safe_lift :
    (lift o).Safe s post ↔ o.Returns ∧ ∀ a, o = .ok a → post a s := by
  cases o <;> simp [Safe]

lemma safe_fail {e : ε} : (fail e : Prog σ ε α).Safe s post ↔ True := Iff.rfl

lemma safe_mapErr {f : ε → ε'} : (x.mapErr f).Safe s post ↔ x.Safe s post := by
  rcases hx : x s with ⟨o, s'⟩
  cases o <;> simp [Safe, hx, Outcome.mapErr]

/-- A call from a state that it leaves alone. -/
lemma safe_lift_bind {f : α → Outcome ε β} {post : β → σ → Prop} :
    (lift (o >>= f)).Safe s post ↔ (lift o).Safe s fun a s' => (lift (f a)).Safe s' post := by
  cases o <;> exact .rfl

/-- A value is what a call that comes back does not avoid. -/
lemma eq_ok_iff_safe {a : α} :
    o = .ok a ↔ o.Returns ∧ ¬ (lift o).Safe s fun b _ => b ≠ a := by
  cases o <;> simp [Safe]

/-- The outcome of a program that leaves the state alone says all about it. -/
lemma safe_lift_fst (hx : ReadOnly x) : (lift (x s).1).Safe s post ↔ x.Safe s post := by
  unfold Safe
  rw [lift_apply, ← hx.run rfl]

/-! A checked operation: its result fits, and what follows goes on with it. -/

section

variable {w a b : Nat} {post : Nat → σ → Prop}

lemma safe_uadd :
    (lift (Outcome.uadd w a b) : Prog σ ε Nat).Safe s post ↔ a + b < 2 ^ w ∧ post (a + b) s := by
  unfold Outcome.uadd
  split <;> simp [Safe, *]

lemma safe_umul :
    (lift (Outcome.umul w a b) : Prog σ ε Nat).Safe s post ↔ a * b < 2 ^ w ∧ post (a * b) s := by
  unfold Outcome.umul
  split <;> simp [Safe, *]

lemma safe_usub :
    (lift (Outcome.usub a b) : Prog σ ε Nat).Safe s post ↔ b ≤ a ∧ post (a - b) s := by
  unfold Outcome.usub
  split <;> simp [Safe, *]

lemma safe_udiv :
    (lift (Outcome.udiv a b) : Prog σ ε Nat).Safe s post ↔ b ≠ 0 ∧ post (a / b) s := by
  unfold Outcome.udiv
  split <;> simp [Safe, *]

lemma safe_urem :
    (lift (Outcome.urem a b) : Prog σ ε Nat).Safe s post ↔ b ≠ 0 ∧ post (a % b) s := by
  unfold Outcome.urem
  split <;> simp [Safe, *]

end

/-- A call whose error is a value here: it comes back if the call does. -/
lemma attempt_returns : ((x.attempt : Prog σ ε' _) s).1.Returns ↔ (x s).1.Returns := by
  rcases hx : x s with ⟨o, s'⟩
  cases o with
  | ok a => rw [attempt_ok hx]; exact .rfl
  | err e => rw [attempt_err hx]; exact .rfl
  | panic => rw [attempt_panic hx]; exact .rfl
  | diverge => rw [attempt_diverge hx]; exact .rfl

end RustOs.Lib.Prog
