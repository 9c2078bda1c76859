import RustOs.Lib.Outcome
import Mathlib.Algebra.Order.Ring.Nat

/-!
# Page tables

Page tables as the processor walks them, and a library that changes them. What the library
does is a parameter, `Mapper`; what its documentation says of it is `Documented`: a page that
is mapped stays where it is, only the page that is asked for becomes mapped, and the entries
on the way to it may get its flags, also if the call then fails.

`fourLevel` is such a library. It makes the tables that are missing, adds the flags to each
entry on its way and stops at a large page (`fourLevel_documented`).
-/

namespace RustOs.Lib.Paging

open Nat Option

/-- An entry that is present. -/
structure Entry where
  frame : Nat
  writable : Bool
  user : Bool
  /-- Bit 7: above the lowest tables, the entry maps a large page. -/
  huge : Bool
  deriving DecidableEq, Repr

/-- The entries of all tables. The entry `k` of height `n` is on the way to the pages `p` with
`p / 512 ^ n = k`; those of height 0 map the pages. An entry that is not present is `none`. -/
def Tables := Nat → Nat → Option Entry

/-- Where a page is mapped: at height 0 by itself, at height 1 or 2 as part of a large page. -/
structure Leaf where
  height : Nat
  entry : Entry
  deriving DecidableEq, Repr

/-- The leaf is at the same height, with the same frame. -/
def Leaf.Kept (l l' : Leaf) : Prop := l'.height = l.height ∧ l'.entry.frame = l.entry.frame

lemma Leaf.Kept.refl (l : Leaf) : l.Kept l := ⟨rfl, rfl⟩

lemma Leaf.Kept.trans {l l' l'' : Leaf} (h : l.Kept l') (h' : l'.Kept l'') : l.Kept l'' :=
  ⟨h'.1.trans h.1, h'.2.trans h.2⟩

namespace Tables

variable (t t' : Tables) (page : Nat)

/-- The walk to a page from height `n` down. The highest table has no large pages. -/
def walkFrom : Nat → Option Leaf
  | 0 => (t 0 page).map (Leaf.mk 0)
  | n + 1 => (t (n + 1) (page / 512 ^ (n + 1))).bind fun e =>
    if e.huge then if n < 2 then some ⟨n + 1, e⟩ else none else walkFrom n

/-- The walk of the processor. -/
def walk : Option Leaf := t.walkFrom page 3

/-- User code gets past an entry. -/
def User (n k : Nat) : Prop := ∃ e, t n k = some e ∧ e.user = true

/-- User code may read the page: each entry of its walk lets it through. -/
def Accessible : Prop :=
  ∃ l, t.walk page = some l ∧ ∀ n, l.height ≤ n → n ≤ 3 → t.User n (page / 512 ^ n)

/-- The tables with another entry. -/
def set (n k : Nat) (e : Option Entry) : Tables := fun m j => if m = n ∧ j = k then e else t m j

/-- The tables with nothing below an entry. -/
def wipe (n k : Nat) : Tables := fun m j => if m < n ∧ j / 512 ^ (n - m) = k then none else t m j

end Tables

/-- A library for page tables, with an allocator of frames in a state of type `α`. A function
that panics has no value. -/
structure Mapper (α : Type) where
  /-- The page of an address. -/
  containing : Nat → Option Nat
  /-- A page some pages further on. -/
  plus : Nat → Nat → Option Nat
  /-- Maps a page; the answer says whether it could. -/
  mapTo : (α → Option Nat × α) → Nat → Entry → Tables → α → Bool × Tables × α
  /-- Takes a page out, and says which frame it had. -/
  unmap : Nat → Tables → Option Nat × Tables

/-- What mapping `page` does to the tables, seen from height `n`. -/
structure Maps (page n : Nat) (t t' : Tables) : Prop where
  /-- What is mapped stays where it is. -/
  kept : ∀ q l, t.walkFrom q n = some l → ∃ l', t'.walkFrom q n = some l' ∧ l.Kept l'
  /-- Only the page becomes mapped. -/
  only : ∀ q, q ≠ page → t.walkFrom q n = none → t'.walkFrom q n = none
  /-- Only entries on its way are opened, and that of the page itself only if it was free. -/
  user : ∀ m k, t'.User m k →
    t.User m k ∨ k = page / 512 ^ m ∧ (m = 0 → t.walkFrom page n = none)

/-- What the documentation says. -/
structure Mapper.Documented {α : Type} (M : Mapper α) : Prop where
  /-- Addresses have 48 bits, and pages 12 bits less. -/
  containing : ∀ addr page, M.containing addr = some page → page = addr / 4096 % 2 ^ 36
  plus : ∀ page i q, M.plus page i = some q → q = (page + i) % 2 ^ 36
  mapTo : ∀ alloc page e t a, Maps page 3 t (M.mapTo alloc page e t a).2.1
  /-- A page is taken out if it has an entry of its own, and nothing else changes. -/
  unmap : ∀ page t frame t', M.unmap page t = (some frame, t') →
    (∃ l, t.walk page = some l ∧ l.height = 0 ∧ l.entry.huge = false ∧ l.entry.frame = frame) ∧
    (∀ q, t'.walk q = if q = page then none else t.walk q) ∧ ∀ m k, t'.User m k → t.User m k
  unmap_none : ∀ page t t', M.unmap page t = (none, t') → t' = t

/-! ## A library -/

section

variable {α : Type} (alloc : α → Option Nat × α) (page : Nat) (e : Entry)

/-- The entry with the flags of a page below it. -/
def Entry.grant (p e : Entry) : Entry :=
  { p with writable := p.writable || e.writable, user := p.user || e.user }

/-- Maps a page, from height `n` down. An entry gets the flags before it is looked at. -/
def mapFrom : Nat → Tables → α → Bool × Tables × α
  | 0, t, a =>
    match t 0 page with
    | none => (true, t.set 0 page (some e), a)
    | some _ => (false, t, a)
  | n + 1, t, a =>
    let k := page / 512 ^ (n + 1)
    match t (n + 1) k with
    | none =>
      match alloc a with
      | (none, a) => (false, t, a)
      | (some frame, a) =>
        let p : Entry := ⟨frame, e.writable, e.user, false⟩
        mapFrom n ((t.wipe (n + 1) k).set (n + 1) k (some p)) a
    | some p =>
      let t := t.set (n + 1) k (some (p.grant e))
      if p.huge then (false, t, a) else mapFrom n t a

end

/-- The four levels of tables. -/
def fourLevel {α : Type} : Mapper α where
  containing addr :=
    -- bit 47 is copied to the bits above it, which have to be zero or to be right already
    if addr / 2 ^ 47 ≤ 1 ∨ addr / 2 ^ 47 = 2 ^ 17 - 1 then some (addr / 4096 % 2 ^ 36) else none
  plus page i :=
    -- the sum of the addresses must not overflow
    if page + i < 2 ^ 36 then some (page + i) else none
  mapTo alloc page e t a := mapFrom alloc page e 3 t a
  unmap page t :=
    match t.walk page with
    | some ⟨0, e⟩ => if e.huge then (none, t) else (some e.frame, t.set 0 page none)
    | _ => (none, t)

section

variable {t t' : Tables} {page q n m k : Nat} {o : Option Entry}

lemma Tables.set_self : t.set n k o n k = o := if_pos ⟨rfl, rfl⟩

lemma Tables.set_of_ne (h : ¬ (m = n ∧ q = k)) : t.set n k o m q = t m q := if_neg h

/-- The walk looks at the entries of the page only. -/
lemma walkFrom_congr (h : ∀ m ≤ n, t' m (q / 512 ^ m) = t m (q / 512 ^ m)) :
    t'.walkFrom q n = t.walkFrom q n := by
  induction n with
  | zero =>
    have h₀ := h 0 (Nat.le_refl 0)
    rw [pow_zero, Nat.div_one] at h₀
    unfold Tables.walkFrom
    rw [h₀]
  | succ n ih =>
    unfold Tables.walkFrom
    rw [h (n + 1) (Nat.le_refl _), ih fun m hm => h m (by omega)]

/-- The walk through an entry that is there and maps no large page. -/
lemma walkFrom_next {p : Entry} (h : t (n + 1) (q / 512 ^ (n + 1)) = some p) (hp : p.huge = false) :
    t.walkFrom q (n + 1) = t.walkFrom q n := by
  rw [Tables.walkFrom, h, Option.bind_some, hp]
  rfl

lemma walkFrom_absent (h : t (n + 1) (q / 512 ^ (n + 1)) = none) : t.walkFrom q (n + 1) = none := by
  rw [Tables.walkFrom, h]
  rfl

/-- A page below an entry is below the entries further up. -/
lemma div_div_pow (hm : m ≤ n) : q / 512 ^ m / 512 ^ (n - m) = q / 512 ^ n := by
  rw [Nat.div_div_eq_div_mul, ← Nat.pow_add, Nat.add_sub_cancel' hm]

variable {α : Type} {alloc : α → Option Nat × α} {e : Entry}

/-- Entries above the height are left alone. -/
lemma mapFrom_above : ∀ (n : Nat) (t : Tables) (a : α), ∀ m > n,
    (mapFrom alloc page e n t a).2.1 m = t m := by
  have hset (t : Tables) (n k : Nat) (o : Option Entry) (m : Nat) (hm : m > n) :
    t.set n k o m = t m :=
    funext fun j => Tables.set_of_ne fun h => by omega
  intro n
  induction n with
  | zero =>
    intro t a m hm
    unfold mapFrom
    split
    next => exact hset _ _ _ _ _ hm
    next => rfl
  | succ n ih =>
    intro t a m hm
    unfold mapFrom
    dsimp only
    split
    next =>
      split
      next => rfl
      next =>
        rw [ih _ _ m (by omega), hset _ _ _ _ _ hm]
        exact funext fun j => if_neg fun h => by omega
    next =>
      split
      next => exact hset _ _ _ _ _ hm
      next => rw [ih _ _ m (by omega), hset _ _ _ _ _ hm]

/-- From height to height: what is mapped below an entry is seen through it. `t₁` is the
table after the entry has been made or has got the flags. -/
lemma Maps.succ {t₁ : Tables} {p : Entry} (h : Maps page n t₁ t')
    (habove : t' (n + 1) = t₁ (n + 1))
    (hp : t₁ (n + 1) (page / 512 ^ (n + 1)) = some p) (hhuge : p.huge = false)
    (hother : ∀ q, q / 512 ^ (n + 1) ≠ page / 512 ^ (n + 1) → ∀ m ≤ n + 1,
      t₁ m (q / 512 ^ m) = t m (q / 512 ^ m))
    (hsame : ∀ q, q / 512 ^ (n + 1) = page / 512 ^ (n + 1) →
      t₁.walkFrom q n = t.walkFrom q (n + 1))
    (huser : ∀ m k, t₁.User m k → t.User m k ∨ k = page / 512 ^ m ∧ m ≠ 0) :
    Maps page (n + 1) t t' := by
  have hnext (q : Nat) (hq : q / 512 ^ (n + 1) = page / 512 ^ (n + 1)) :
      t'.walkFrom q (n + 1) = t'.walkFrom q n :=
    walkFrom_next (by rw [habove, hq, hp]) hhuge
  -- a page elsewhere has the entry it had
  have hentry (q : Nat) (hq : q / 512 ^ (n + 1) ≠ page / 512 ^ (n + 1)) :
      t' (n + 1) (q / 512 ^ (n + 1)) = t (n + 1) (q / 512 ^ (n + 1)) ∧
        t₁.walkFrom q n = t.walkFrom q n :=
    ⟨by rw [habove, hother q hq _ (Nat.le_refl _)],
      walkFrom_congr fun m hm => hother q hq m (by omega)⟩
  refine ⟨fun q l hl => ?_, fun q hne hq => ?_, fun m k hk => ?_⟩
  · by_cases hq : q / 512 ^ (n + 1) = page / 512 ^ (n + 1)
    · rw [hnext q hq]
      exact h.kept q l ((hsame q hq).trans hl)
    · obtain ⟨he, hw⟩ := hentry q hq
      unfold Tables.walkFrom at hl ⊢
      rw [he]
      obtain ⟨e, ht, hl⟩ := Option.bind_eq_some_iff.mp hl
      rw [ht, Option.bind_some]
      split at hl
      next hh =>
        rw [if_pos hh]
        exact ⟨l, hl, Leaf.Kept.refl l⟩
      next hh =>
        rw [if_neg hh]
        exact h.kept q l (hw.trans hl)
  · by_cases hpre : q / 512 ^ (n + 1) = page / 512 ^ (n + 1)
    · rw [hnext q hpre]
      exact h.only q hne ((hsame q hpre).trans hq)
    · obtain ⟨he, hw⟩ := hentry q hpre
      unfold Tables.walkFrom at hq ⊢
      rw [he]
      cases ht : t (n + 1) (q / 512 ^ (n + 1)) with
      | none => rfl
      | some e =>
        rw [ht, Option.bind_some] at hq
        rw [Option.bind_some]
        split at hq
        next hh => rw [if_pos hh, hq]
        next hh =>
          rw [if_neg hh]
          exact h.only q hne (hw.trans hq)
  · rcases h.user m k hk with hk | ⟨hk, hfree⟩
    · exact (huser m k hk).imp_right fun hk => ⟨hk.1, fun hm => absurd hm hk.2⟩
    · exact .inr ⟨hk, fun hm => (hsame page rfl).symm.trans (hfree hm)⟩

/-- Entries that are set on the way open nothing else. -/
lemma user_set {p : Entry} (h : (t.set n (page / 512 ^ n) (some p)).User m k) (hn : n ≠ 0) :
    t.User m k ∨ k = page / 512 ^ m ∧ m ≠ 0 := by
  by_cases hmk : m = n ∧ k = page / 512 ^ n
  · obtain ⟨rfl, hk⟩ := hmk
    exact .inr ⟨hk, hn⟩
  · obtain ⟨e, he, hu⟩ := h
    rw [Tables.set_of_ne hmk] at he
    exact .inl ⟨e, he, hu⟩

lemma Maps.refl (page n : Nat) (t : Tables) : Maps page n t t :=
  ⟨fun _ l hl => ⟨l, hl, Leaf.Kept.refl l⟩, fun _ _ hq => hq, fun _ _ hk => .inl hk⟩

/-- A free page gets its entry. -/
lemma Maps.entry (hfree : t 0 page = none) : Maps page 0 t (t.set 0 page (some e)) := by
  have hfree' : t.walkFrom page 0 = none := by rw [Tables.walkFrom, hfree]; rfl
  have hother (q : Nat) (hq : q ≠ page) :
      (t.set 0 page (some e)).walkFrom q 0 = t.walkFrom q 0 := by
    unfold Tables.walkFrom
    rw [Tables.set_of_ne fun h => hq h.2]
  refine ⟨fun q l hl => ⟨l, ?_, Leaf.Kept.refl l⟩, fun q hne hq => ?_, fun m k hk => ?_⟩
  · rw [hother q fun h => by rw [h, hfree'] at hl; cases hl]
    exact hl
  · exact (hother q hne).trans hq
  · by_cases hmk : m = 0 ∧ k = page
    · obtain ⟨rfl, rfl⟩ := hmk
      exact .inr ⟨(Nat.div_one _).symm, fun _ => hfree'⟩
    · obtain ⟨p, hp, hu⟩ := hk
      exact .inl ⟨p, (Tables.set_of_ne hmk).symm.trans hp, hu⟩

/-- Nothing is mapped below an entry where all entries are absent. -/
lemma walkFrom_empty (h : ∀ m ≤ n, t m (q / 512 ^ m) = none) : t.walkFrom q n = none := by
  cases n with
  | zero =>
    have h₀ := h 0 (Nat.le_refl 0)
    rw [pow_zero, Nat.div_one] at h₀
    unfold Tables.walkFrom
    rw [h₀]
    rfl
  | succ n => exact walkFrom_absent (h (n + 1) (Nat.le_refl _))

/-- An entry for a new table, which has nothing in it. -/
lemma Maps.newTable {t₁ : Tables} {p : Entry} (hfree : t (n + 1) (page / 512 ^ (n + 1)) = none)
    (hp : p.huge = false)
    (ht₁ : (t.wipe (n + 1) (page / 512 ^ (n + 1))).set (n + 1) (page / 512 ^ (n + 1)) (some p) = t₁)
    (h : Maps page n t₁ t') (habove : t' (n + 1) = t₁ (n + 1)) : Maps page (n + 1) t t' := by
  subst ht₁
  refine h.succ habove Tables.set_self hp (fun q hq m hm => ?_) (fun q hq => ?_) fun m k hk => ?_
  · rw [Tables.set_of_ne fun h => ?_]
    · exact if_neg fun h => hq ((div_div_pow hm).symm.trans h.2)
    · obtain ⟨rfl, h⟩ := h
      exact hq h
  · rw [walkFrom_absent (by rw [hq]; exact hfree)]
    refine walkFrom_empty fun m hm => ?_
    rw [Tables.set_of_ne fun h => by omega]
    exact if_pos ⟨by omega, (div_div_pow (by omega)).trans hq⟩
  · refine (user_set hk (by omega)).imp_left fun ⟨p, hp, hu⟩ => ?_
    unfold Tables.wipe at hp
    split at hp
    next => cases hp
    next => exact ⟨p, hp, hu⟩

/-- Setting an entry changes nothing for a page that does not pass through it. -/
lemma set_elsewhere (hq : q / 512 ^ n ≠ page / 512 ^ n) :
    t.set n (page / 512 ^ n) o m (q / 512 ^ m) = t m (q / 512 ^ m) := by
  refine Tables.set_of_ne fun h => ?_
  obtain ⟨rfl, h⟩ := h
  exact hq h

/-- An entry with a table behind it gets the flags. -/
lemma Maps.table {t₁ : Tables} {p : Entry} (hp : t (n + 1) (page / 512 ^ (n + 1)) = some p)
    (hhuge : p.huge = false) (ht₁ : t.set (n + 1) (page / 512 ^ (n + 1)) (some (p.grant e)) = t₁)
    (h : Maps page n t₁ t') (habove : t' (n + 1) = t₁ (n + 1)) : Maps page (n + 1) t t' := by
  subst ht₁
  refine h.succ habove Tables.set_self hhuge (fun q hq m _ => set_elsewhere hq) (fun q hq => ?_)
    fun m k hk => user_set hk (by omega)
  rw [walkFrom_next (by rw [hq]; exact hp) hhuge]
  exact walkFrom_congr fun m hm => Tables.set_of_ne fun h => by omega

/-- A large page gets the flags, and stays where it is. -/
lemma Maps.largePage {p : Entry} (hp : t (n + 1) (page / 512 ^ (n + 1)) = some p)
    (hhuge : p.huge = true) :
    Maps page (n + 1) t (t.set (n + 1) (page / 512 ^ (n + 1)) (some (p.grant e))) := by
  have hsame (q : Nat) (hq : q / 512 ^ (n + 1) = page / 512 ^ (n + 1)) :
      t.walkFrom q (n + 1) = (if n < 2 then some ⟨n + 1, p⟩ else none) ∧
      (t.set (n + 1) (page / 512 ^ (n + 1)) (some (p.grant e))).walkFrom q (n + 1) =
        if n < 2 then some ⟨n + 1, p.grant e⟩ else none := by
    unfold Tables.walkFrom
    rw [hq, hp, Tables.set_self, Option.bind_some, Option.bind_some, if_pos hhuge]
    exact ⟨rfl, if_pos hhuge⟩
  have hother (q : Nat) (hq : q / 512 ^ (n + 1) ≠ page / 512 ^ (n + 1)) :
      (t.set (n + 1) (page / 512 ^ (n + 1)) (some (p.grant e))).walkFrom q (n + 1) =
        t.walkFrom q (n + 1) := walkFrom_congr fun m _ => set_elsewhere hq
  refine ⟨fun q l hl => ?_, fun q _ hnone => ?_, fun m k hk =>
    (user_set hk (by omega)).imp_right fun hk => ⟨hk.1, fun hm => absurd hm hk.2⟩⟩
  · by_cases hq : q / 512 ^ (n + 1) = page / 512 ^ (n + 1)
    · obtain ⟨h₁, h₂⟩ := hsame q hq
      rw [h₁] at hl
      rw [h₂]
      split at hl
      next hn =>
        cases hl
        exact ⟨_, if_pos hn, rfl, rfl⟩
      next => cases hl
    · exact ⟨l, (hother q hq).trans hl, Leaf.Kept.refl l⟩
  · by_cases hq : q / 512 ^ (n + 1) = page / 512 ^ (n + 1)
    · obtain ⟨h₁, h₂⟩ := hsame q hq
      rw [h₁] at hnone
      rw [h₂]
      split at hnone
      next => cases hnone
      next hn => exact if_neg hn
    · exact (hother q hq).trans hnone

/-- A page that is mapped from height `n` down is mapped as documented. -/
lemma mapFrom_maps : ∀ (n : Nat) (t : Tables) (a : α),
    Maps page n t (mapFrom alloc page e n t a).2.1 := by
  intro n
  induction n with
  | zero =>
    intro t a
    unfold mapFrom
    split
    next hfree => exact .entry hfree
    next => exact .refl page 0 t
  | succ n ih =>
    intro t a
    unfold mapFrom
    dsimp only
    split
    next hfree =>
      split
      next => exact .refl page _ t
      next => exact .newTable hfree rfl rfl (ih _ _) (mapFrom_above n _ _ _ (by omega))
    next p hp =>
      split
      next hhuge => exact .largePage hp hhuge
      next hhuge =>
        exact .table hp (Bool.eq_false_iff.mpr hhuge) rfl (ih _ _)
          (mapFrom_above n _ _ _ (by omega))

/-- A page with an entry of its own is not mapped any more once that is gone. -/
lemma walkFrom_taken : ∀ n, t.walkFrom page n = some ⟨0, e⟩ →
    (t.set 0 page none).walkFrom page n = none := by
  intro n
  induction n with
  | zero =>
    intro _
    rw [Tables.walkFrom, Tables.set_self]
    rfl
  | succ n ih =>
    intro h
    obtain ⟨p, hp, h⟩ := Option.bind_eq_some_iff.mp h
    rw [Tables.walkFrom, Tables.set_of_ne fun h => by omega, hp, Option.bind_some]
    split at h
    next => split at h <;> cases h
    next hhuge =>
      rw [if_neg hhuge]
      exact ih h

end

/-- The four levels of tables do what is documented. -/
lemma fourLevel_documented {α : Type} : (fourLevel (α := α)).Documented where
  containing addr page h := by
    unfold fourLevel at h
    dsimp only at h
    split at h
    next => exact (some.inj h).symm
    next => cases h
  plus page i q h := by
    unfold fourLevel at h
    dsimp only at h
    split at h
    next hlt => rw [← some.inj h, Nat.mod_eq_of_lt hlt]
    next => cases h
  mapTo alloc page e t a := mapFrom_maps 3 t a
  unmap page t frame t' h := by
    unfold fourLevel at h
    dsimp only at h
    split at h
    next e hw =>
      split at h
      next => cases h
      next hhuge =>
        cases h
        refine ⟨⟨_, hw, rfl, Bool.eq_false_iff.mpr hhuge, rfl⟩, fun q => ?_, fun m k hk => ?_⟩
        · split
          next hq =>
            rw [hq]
            exact walkFrom_taken 3 hw
          next hq =>
            refine walkFrom_congr fun m _ => Tables.set_of_ne fun h => hq ?_
            rw [h.1, pow_zero, Nat.div_one] at h
            exact h.2
        · obtain ⟨p, hp, hu⟩ := hk
          by_cases hmk : m = 0 ∧ k = page
          · obtain ⟨rfl, rfl⟩ := hmk
            cases Tables.set_self.symm.trans hp
          · exact ⟨p, (Tables.set_of_ne hmk).symm.trans hp, hu⟩
    next => cases h
  unmap_none page t t' h := by
    unfold fourLevel at h
    dsimp only at h
    split at h
    next =>
      split at h
      next => exact (Prod.mk.inj h).2.symm
      next => cases h
    next => exact (Prod.mk.inj h).2.symm

end RustOs.Lib.Paging
