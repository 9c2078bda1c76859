import Mathlib.Data.List.Infix
import RustOs.Console.Writer

/-!
# Escape sequences

`Phase` is the escape machine without the screen: plain text, just behind an ESC,
or inside a control sequence with the bytes it has had so far. A text is inside a
sequence only behind its `ESC [` (`after_eq_csi`).

`handle_csi` reads the numbers of a sequence with `u32` arithmetic. `Numbers` says
that every run of bytes without a semicolon spells a `u32`, whatever stands
between its digits; the loop ends exactly then, and panics otherwise
(`parseParams_spec`).
-/

namespace RustOs.Console

open Lib Outcome List

/-! ## The escape machine -/

/-- Where in an escape sequence the text stands. -/
inductive Phase where
  | plain
  | esc
  | csi (body : List UInt8)

namespace Phase

/-- The phase behind a byte. -/
def next : Phase → UInt8 → Phase
  | .plain, b => if b = 0x1B then .esc else .plain
  | .esc, b => if b = 0x5B then .csi [] else if b = 0x1B then .esc else .plain
  | .csi body, b => if Writer.isFinal b then .plain else .csi (body ++ [b])

/-- The phase behind a text. -/
def after (s : List UInt8) : Phase := s.foldl next .plain

lemma after_concat (s : List UInt8) (b : UInt8) : after (s ++ [b]) = (after s).next b := by
  unfold after
  rw [foldl_append]
  rfl

lemma next_eq_esc {ph : Phase} {b : UInt8} (h : ph.next b = .esc) : b = 0x1B := by
  cases ph with
  | plain =>
    rw [next] at h
    split at h
    next hb => exact hb
    next => cases h
  | esc =>
    rw [next] at h
    split at h
    next => cases h
    next =>
      split at h
      next hb => exact hb
      next => cases h
  | csi body =>
    rw [next] at h
    split at h <;> exact nomatch h

/-- A text that ends just behind an ESC ends with it. -/
lemma after_eq_esc {s : List UInt8} (h : after s = .esc) : ∃ p, s = p ++ [0x1B] := by
  rcases eq_nil_or_concat s with rfl | ⟨p, b, rfl⟩
  · cases h
  · rw [concat_eq_append, after_concat] at h
    rw [next_eq_esc h, concat_eq_append]
    exact ⟨p, rfl⟩

/-- A text ends inside a sequence only behind the `ESC [` of that sequence. -/
lemma after_eq_csi : ∀ (s body : List UInt8), after s = .csi body →
    ∃ p, s = p ++ 0x1B :: 0x5B :: body ∧ ∀ b ∈ body, Writer.isFinal b = false := by
  intro s
  induction s using List.reverseRecOn with
  | nil => exact fun body h => nomatch h
  | append_singleton s b ih =>
    intro body h
    rw [after_concat] at h
    rcases hs : after s with _ | _ | body'
    · rw [hs, next] at h
      split at h <;> exact nomatch h
    · -- just behind an ESC: the byte is the bracket
      rw [hs, next] at h
      split at h
      next hb =>
        injection h with h
        obtain ⟨p, rfl⟩ := after_eq_esc hs
        rw [hb, ← h]
        exact ⟨p, by simp, fun x hx => nomatch hx⟩
      next =>
        split at h <;> exact nomatch h
    · rw [hs, next] at h
      split at h
      next => cases h
      next hb =>
        injection h with h
        obtain ⟨p, rfl, hbody⟩ := ih body' hs
        refine ⟨p, by rw [← h]; simp, fun x hx => ?_⟩
        rw [← h] at hx
        rcases mem_append.mp hx with hx | hx
        · exact hbody x hx
        · rw [mem_singleton.mp hx]
          exact Bool.eq_false_iff.mpr hb

/-- Behind an ESC that is not inside a sequence, `[` and parameter bytes are a
sequence. -/
lemma after_sequence {p : List UInt8} (hp : ∀ body, after p ≠ .csi body) :
    ∀ body : List UInt8, (∀ b ∈ body, Writer.isFinal b = false) →
      after (p ++ 0x1B :: 0x5B :: body) = .csi body := by
  intro body
  induction body using List.reverseRecOn with
  | nil =>
    intro _
    have hesc : after (p ++ [0x1B]) = .esc := by
      rw [after_concat]
      rcases h : after p with _ | _ | body
      · rfl
      · rfl
      · exact absurd h (hp body)
    rw [show p ++ [0x1B, 0x5B] = (p ++ [0x1B]) ++ [0x5B] from append_cons p 0x1B [0x5B],
      after_concat, hesc]
    rfl
  | append_singleton body b ih =>
    intro hbody
    have hb : ¬Writer.isFinal b = true := by
      rw [hbody b (mem_append_right _ mem_cons_self)]
      exact Bool.false_ne_true
    rw [show p ++ 0x1B :: 0x5B :: (body ++ [b]) = (p ++ 0x1B :: 0x5B :: body) ++ [b] by simp,
      after_concat, ih fun x hx => hbody x (mem_append_left _ hx), next, if_neg hb]

end Phase

variable {bytes : List UInt8} {b : UInt8} {cur : Nat}

/-! ## Numbers in a sequence -/

/-- The number the digits spell, behind what was read before; other bytes are
passed over. -/
def decimalFrom (n : Nat) (s : List UInt8) : Nat :=
  s.foldl (fun n b => if Writer.isDigit b then n * 10 + (b.toNat - 0x30) else n) n

/-- Every number between semicolons is a `u32`. -/
def Numbers (bytes : List UInt8) : Prop :=
  ∀ s, s <:+: bytes → (0x3B : UInt8) ∉ s → decimalFrom 0 s < 2 ^ 32

lemma decimalFrom_digit (hb : Writer.isDigit b = true) (n : Nat) (s : List UInt8) :
    decimalFrom n (b :: s) = decimalFrom (n * 10 + (b.toNat - 0x30)) s := by
  show decimalFrom (if _ then _ else _) s = _
  rw [if_pos hb]

lemma decimalFrom_other (hb : Writer.isDigit b = false) (n : Nat) (s : List UInt8) :
    decimalFrom n (b :: s) = decimalFrom n s := by
  show decimalFrom (if _ then _ else _) s = _
  rw [if_neg (Bool.eq_false_iff.mp hb)]

lemma decimalFrom_mono (s : List UInt8) : ∀ {m n : Nat}, m ≤ n →
    decimalFrom m s ≤ decimalFrom n s := by
  induction s with
  | nil => exact fun h => h
  | cons b s ih =>
    intro m n h
    cases hb : Writer.isDigit b with
    | true =>
      rw [decimalFrom_digit hb, decimalFrom_digit hb]
      exact ih (by omega)
    | false =>
      rw [decimalFrom_other hb, decimalFrom_other hb]
      exact ih h

/-- A loop that has read `cur` finds no number too large in what follows: neither
the one it is at nor a later one. -/
def ReadsOn (cur : Nat) (bytes : List UInt8) : Prop :=
  (∀ s, s <+: bytes → (0x3B : UInt8) ∉ s → decimalFrom cur s < 2 ^ 32) ∧ Numbers bytes

lemma readsOn_zero : ReadsOn 0 bytes ↔ Numbers bytes :=
  ⟨fun h => h.2, fun h => ⟨fun s hs => h s hs.isInfix, h⟩⟩

lemma numbers_cons :
    Numbers (b :: bytes)
      ↔ (∀ s, s <+: b :: bytes → (0x3B : UInt8) ∉ s → decimalFrom 0 s < 2 ^ 32) ∧
        Numbers bytes := by
  constructor
  · exact fun h => ⟨fun s hs => h s hs.isInfix, fun s hs => h s (infix_cons hs)⟩
  · intro ⟨hpre, hrest⟩ s hs
    rcases infix_cons_iff.mp hs with hs | hs
    · exact hpre s hs
    · exact hrest s hs

lemma prefix_cons_forall {P : List UInt8 → Prop} :
    (∀ s, s <+: b :: bytes → P s) ↔ P [] ∧ ∀ s, s <+: bytes → P (b :: s) := by
  constructor
  · exact fun h => ⟨h [] nil_prefix, fun s hs => h _ (cons_prefix_cons.mpr ⟨rfl, hs⟩)⟩
  · intro ⟨hnil, hcons⟩ s hs
    rcases prefix_cons_iff.mp hs with rfl | ⟨t, rfl, ht⟩
    · exact hnil
    · exact hcons t ht

lemma readsOn_nil : ReadsOn cur [] ↔ cur < 2 ^ 32 := by
  constructor
  · exact fun h => h.1 [] nil_prefix (not_mem_nil)
  · intro h
    refine ⟨fun s hs _ => ?_, fun s hs _ => ?_⟩
    · rw [prefix_nil.mp hs]
      exact h
    · rw [infix_nil.mp hs]
      exact Nat.two_pow_pos 32

/-- The number being read bounds the one that starts later in the same run of
digits, so only the former has to be looked at. -/
lemma readsOn_cons :
    ReadsOn cur (b :: bytes)
      ↔ (∀ s, s <+: b :: bytes → (0x3B : UInt8) ∉ s → decimalFrom cur s < 2 ^ 32)
        ∧ Numbers bytes := by
  unfold ReadsOn
  rw [numbers_cons]
  refine ⟨fun h => ⟨h.1, h.2.2⟩, fun h => ⟨h.1, fun s hs hsemi => ?_, h.2⟩⟩
  exact Nat.lt_of_le_of_lt (decimalFrom_mono s (Nat.zero_le cur)) (h.1 s hs hsemi)

lemma semi_notMem_cons {s : List UInt8} (hb : b ≠ 0x3B) :
    (0x3B : UInt8) ∉ b :: s ↔ (0x3B : UInt8) ∉ s := by
  rw [mem_cons, not_or]
  exact and_iff_right hb.symm

lemma readsOn_digit
    (hb : Writer.isDigit b = true) (hsemi : b ≠ 0x3B) :
    ReadsOn cur (b :: bytes) ↔ cur < 2 ^ 32 ∧ ReadsOn (cur * 10 + (b.toNat - 0x30)) bytes := by
  rw [readsOn_cons, prefix_cons_forall]
  simp only [decimalFrom_digit hb, semi_notMem_cons hsemi, not_mem_nil,
    not_false_eq_true, forall_const, and_assoc]
  exact .rfl

lemma readsOn_other
    (hb : Writer.isDigit b = false) (hsemi : b ≠ 0x3B) :
    ReadsOn cur (b :: bytes) ↔ cur < 2 ^ 32 ∧ ReadsOn cur bytes := by
  rw [readsOn_cons, prefix_cons_forall]
  simp only [decimalFrom_other hb, semi_notMem_cons hsemi, not_mem_nil,
    not_false_eq_true, forall_const, and_assoc]
  exact .rfl

lemma readsOn_semicolon : ReadsOn cur (0x3B :: bytes) ↔ cur < 2 ^ 32 ∧ ReadsOn 0 bytes := by
  rw [readsOn_cons, prefix_cons_forall, readsOn_zero]
  simp only [mem_cons, true_or, not_true_eq_false, false_implies, implies_true, and_true,
    not_mem_nil, not_false_eq_true, forall_const]
  exact .rfl

namespace Writer

/-- The numbers read so far are `u32`s. -/
def Params.Ok (st : Params) : Prop := st.cur < 2 ^ 32 ∧ ∀ p ∈ st.params, p < 2 ^ 32

lemma Params.Ok.push {st : Params} (h : st.Ok) : ∀ p ∈ st.push, p < 2 ^ 32 := by
  unfold Params.push
  split
  next =>
    intro p hp
    rcases mem_append.mp hp with hp | hp
    · exact h.2 p hp
    · rw [mem_singleton.mp hp]
      exact h.1
  next => exact h.2

lemma step_digit (st : Params) (hb : isDigit b = true) :
    st.step b = if st.cur * 10 + (b.toNat - 0x30) < 2 ^ 32 then
      .ok { st with cur := st.cur * 10 + (b.toNat - 0x30), haveDigit := true } else .panic := by
  unfold Params.step
  rw [if_pos hb]
  unfold umul
  by_cases hmul : st.cur * 10 < 2 ^ 32
  · rw [if_pos hmul, ok_bind]
    unfold uadd
    by_cases hadd : st.cur * 10 + (b.toNat - 0x30) < 2 ^ 32
    · rw [if_pos hadd, if_pos hadd]
      rfl
    · rw [if_neg hadd, if_neg hadd]
      rfl
  · rw [if_neg hmul, if_neg (by omega)]
    rfl

/-- The loop over the parameter bytes ends if the numbers fit, and panics if not. -/
lemma parseParams_spec (bytes : List UInt8) : ∀ st : Params, st.Ok →
    (ReadsOn st.cur bytes → ∃ st', parseParams bytes st = .ok st' ∧ st'.Ok)
      ∧ (¬ReadsOn st.cur bytes → parseParams bytes st = .panic) := by
  induction bytes with
  | nil =>
    intro st hst
    exact ⟨fun _ => ⟨st, rfl, hst⟩, fun h => absurd (readsOn_nil.mpr hst.1) h⟩
  | cons b bytes ih =>
    intro st hst
    -- a turn that ends in `st'`, with the rest to be read from there
    have hturn : ∀ st' : Params, st.step b = .ok st' → st'.Ok →
        (ReadsOn st.cur (b :: bytes) ↔ ReadsOn st'.cur bytes) →
        (ReadsOn st.cur (b :: bytes) → ∃ st', parseParams (b :: bytes) st = .ok st' ∧ st'.Ok)
          ∧ (¬ReadsOn st.cur (b :: bytes) → parseParams (b :: bytes) st = .panic) := by
      intro st' hstep hst' hiff
      rw [hiff, parseParams, hstep, ok_bind]
      exact ih st' hst'
    cases hdigit : isDigit b with
    | true =>
      have hsemi : b ≠ 0x3B := by
        intro h
        rw [h] at hdigit
        exact absurd hdigit (by decide)
      have hiff : ReadsOn st.cur (b :: bytes) ↔ _ :=
        (readsOn_digit hdigit hsemi).trans (and_iff_right hst.1)
      have hstep := step_digit st hdigit
      by_cases hfit : st.cur * 10 + (b.toNat - 0x30) < 2 ^ 32
      · rw [if_pos hfit] at hstep
        exact hturn _ hstep ⟨hfit, hst.2⟩ hiff
      · rw [if_neg hfit] at hstep
        have hnot : ¬ReadsOn st.cur (b :: bytes) := by
          rw [hiff]
          exact fun h => hfit (h.1 [] nil_prefix not_mem_nil)
        refine ⟨fun h => absurd h hnot, fun _ => ?_⟩
        rw [parseParams, hstep]
        rfl
    | false =>
      have hstep : st.step b = if b = 0x3B then .ok ⟨st.push, 0, false⟩ else .ok st := by
        unfold Params.step
        rw [if_neg (Bool.eq_false_iff.mp hdigit)]
        rfl
      by_cases hsemi : b = 0x3B
      · subst hsemi
        exact hturn _ hstep ⟨Nat.two_pow_pos 32, hst.push⟩
          (readsOn_semicolon.trans (and_iff_right hst.1))
      · rw [if_neg hsemi] at hstep
        exact hturn _ hstep hst ((readsOn_other hdigit hsemi).trans (and_iff_right hst.1))

end Writer

end RustOs.Console
