import Mathlib.Data.Finset.Card
import RustOs.Lib.Outcome

/-!
# Depth-first walks that may not end

A walk over a graph of nodes that are read from somewhere: a node is a leaf,
with a result of its own, or a branch whose children are fetched and walked in
order, each fetch failing or yielding a node. The first failure ends the walk.
Nothing marks the nodes already seen, so a walk over a cycle does not end.

`walk` is the recursion with fuel. `Grounded` says without fuel when it ends:
no chain of children, each behind siblings that were walked to their end, goes
on for ever (`grounded_iff`). When all children come from `n` nodes, fuel
`n + 1` already tells (`walk_stable`): the nodes on which the walk runs out
shrink with every unit of fuel until they stay the same, and then they stay the
same for good.
-/

namespace RustOs.Lib

namespace Walk

open Outcome Nat List

variable {ε ν ρ : Type}

variable {g : ρ → Outcome ε Unit} {rs : List ρ} {x : ν}

/-- Run `g` on every element, up to the first that does not return a value. -/
def eachOk (g : ρ → Outcome ε Unit) : List ρ → Outcome ε Unit
  | [] => .ok ()
  | r :: rs => do
    g r
    eachOk g rs

/-- What a node is: a result, or children that are still to be fetched. -/
inductive Shape (ε ν : Type) where
  | leaf (result : Outcome ε Unit)
  | branch (children : List (Outcome ε ν))

variable (shape : ν → Shape ε ν)

/-- The walk with a bound on its depth. -/
def walk : Nat → ν → Outcome ε Unit
  | 0, _ => .diverge
  | n + 1, x =>
    match shape x with
    | .leaf result => result
    | .branch children => eachOk (fun c => c >>= walk n) children

/-- The walk of the node ends with a value. -/
inductive Walked : ν → Prop where
  | leaf {x : ν} (h : shape x = .leaf (.ok ())) : Walked x
  | branch {x : ν} {children : List (Outcome ε ν)} (h : shape x = .branch children)
      (fetched : ∀ c ∈ children, ∃ y, c = .ok y)
      (walked : ∀ c ∈ children, ∀ y, c = .ok y → Walked y) : Walked x

/-- Every chain of children that the walk enters is finite. -/
inductive Grounded : ν → Prop where
  | intro {x : ν}
      (h : ∀ pre y post, shape x = .branch (pre ++ .ok y :: post) →
        (∀ c ∈ pre, ∃ z, c = .ok z ∧ Walked shape z) → Grounded y) : Grounded x

/-- Leaves and fetches come back: what may not end is the walk alone. -/
structure Tame : Prop where
  leaf : ∀ x result, shape x = .leaf result → result.Returns
  fetch : ∀ x children, shape x = .branch children → ∀ c ∈ children, c.Returns

/-! ## Sequences of calls -/

lemma eachOk_eq_ok : eachOk g rs = .ok () ↔ ∀ r ∈ rs, g r = .ok () := by
  induction rs with
  | nil => simp [eachOk]
  | cons r rs ih =>
    rw [eachOk, bind_eq_ok, forall_mem_cons, ih]
    exact ⟨fun ⟨_, h⟩ => h, fun h => ⟨(), h⟩⟩

lemma eachOk_map {α : Type} (f : α → ρ) (g : ρ → Outcome ε Unit) (rs : List α) :
    eachOk g (rs.map f) = eachOk (fun r => g (f r)) rs := by
  induction rs with
  | nil => rfl
  | cons r rs ih => rw [map_cons, eachOk, eachOk, ih]

/-- Calls that all answered keep their answer. -/
lemma eachOk_mono {g' : ρ → Outcome ε Unit}
    (h : ∀ r ∈ rs, g r ≠ .diverge → g' r = g r) (hne : eachOk g rs ≠ .diverge) :
    eachOk g' rs = eachOk g rs := by
  induction rs with
  | nil => rfl
  | cons r rs ih =>
    rw [eachOk] at hne ⊢
    rw [eachOk]
    have hr : g r ≠ .diverge := fun hd => hne (by rw [hd]; rfl)
    rw [h r mem_cons_self hr]
    cases hg : g r with
    | ok a =>
      rw [hg, ok_bind] at hne
      rw [ok_bind, ok_bind, ih (fun q hq => h q (mem_cons_of_mem _ hq)) hne]
    | _ => rfl

lemma eachOk_congr {g' : ρ → Outcome ε Unit} (h : ∀ r ∈ rs, g' r = g r) :
    eachOk g' rs = eachOk g rs := by
  induction rs with
  | nil => rfl
  | cons r rs ih =>
    rw [eachOk, eachOk, h r mem_cons_self, ih fun q hq => h q (mem_cons_of_mem _ hq)]

lemma eachOk_ne_panic (h : ∀ r ∈ rs, g r ≠ .panic) : eachOk g rs ≠ .panic := by
  induction rs with
  | nil => exact nofun
  | cons r rs ih =>
    rw [eachOk]
    cases hg : g r with
    | ok a => exact ih fun q hq => h q (mem_cons_of_mem _ hq)
    | panic => exact absurd hg (h r mem_cons_self)
    | _ => exact nofun

lemma eachOk_returns (h : ∀ r ∈ rs, (g r).Returns) : (eachOk g rs).Returns := by
  induction rs with
  | nil => exact trivial
  | cons r rs ih =>
    rw [eachOk, returns_bind]
    exact ⟨h r mem_cons_self, fun _ _ => ih fun q hq => h q (mem_cons_of_mem _ hq)⟩

/-- Behind calls that answer `Ok` or run for ever, a sequence that comes back
has come back from its next call as well. -/
lemma ne_diverge_of_eachOk {pre post : List ρ} {r : ρ}
    (hpre : ∀ q ∈ pre, g q = .ok () ∨ g q = .diverge)
    (hne : eachOk g (pre ++ r :: post) ≠ .diverge) : g r ≠ .diverge := by
  induction pre with
  | nil =>
    intro hd
    rw [nil_append, eachOk, hd] at hne
    exact hne rfl
  | cons q pre ih =>
    rw [cons_append, eachOk] at hne
    rcases hpre q mem_cons_self with hq | hq
    · rw [hq, ok_bind] at hne
      exact ih (fun p hp => hpre p (mem_cons_of_mem _ hp)) hne
    · rw [hq] at hne
      exact absurd rfl hne

/-! ## More fuel -/

variable {shape}

lemma walk_succ_eq (n : Nat) (x : ν) (h : walk shape n x ≠ .diverge) :
    walk shape (n + 1) x = walk shape n x := by
  induction n generalizing x with
  | zero => exact absurd rfl h
  | succ n ih =>
    rw [walk] at h ⊢
    rw [walk]
    cases hs : shape x with
    | leaf r => rfl
    | branch cs =>
      rw [hs] at h
      refine eachOk_mono (fun c _ hc => ?_) h
      cases c with
      | ok y => exact ih y hc
      | _ => rfl

lemma walk_mono {n m : Nat} (hnm : n ≤ m) (h : walk shape n x ≠ .diverge) :
    walk shape m x = walk shape n x := by
  induction m, hnm using le_induction with
  | base => rfl
  | succ m _ ih => rw [walk_succ_eq m x (by rw [ih]; exact h), ih]

/-- Two amounts of fuel that both suffice give the same result. -/
lemma walk_unique {n m : Nat} (hn : walk shape n x ≠ .diverge)
    (hm : walk shape m x ≠ .diverge) : walk shape n x = walk shape m x := by
  rw [← walk_mono (le_max_left n m) hn, walk_mono (le_max_right n m) hm]

/-- A walk over a tame shape never panics. -/
lemma Tame.walk_ne_panic (ht : Tame shape) (n : Nat) (x : ν) : walk shape n x ≠ .panic := by
  induction n generalizing x with
  | zero => exact nofun
  | succ n ih =>
    rw [walk]
    cases hs : shape x with
    | leaf r =>
      have hret := ht.leaf x r hs
      rintro rfl
      exact hret
    | branch cs =>
      refine eachOk_ne_panic fun c hc => ?_
      have hret := ht.fetch x cs hs c hc
      cases c with
      | ok y => exact ih y
      | panic => exact absurd hret id
      | _ => exact nofun

/-! ## Ending without fuel -/

lemma walked_of_walk {n : Nat} (h : walk shape n x = .ok ()) : Walked shape x := by
  induction n generalizing x with
  | zero => cases h
  | succ n ih =>
    rw [walk] at h
    cases hs : shape x with
    | leaf r =>
      rw [hs] at h
      exact .leaf (by rw [hs]; exact congrArg Shape.leaf h)
    | branch cs =>
      rw [hs] at h
      have hall := eachOk_eq_ok.mp h
      refine .branch hs (fun c hc => ?_) fun c hc y hy => ?_
      · obtain ⟨y, hy, -⟩ := bind_eq_ok.mp (hall c hc)
        exact ⟨y, hy⟩
      · have := hall c hc
        rw [hy, ok_bind] at this
        exact ih this

lemma walk_of_walked (h : Walked shape x) : ∃ n, walk shape n x = .ok () := by
  induction h with
  | leaf h => exact ⟨1, by rw [walk, h]⟩
  | @branch x cs h fetched _ ih =>
    -- one amount of fuel for all children
    have hall : ∀ ds : List (Outcome ε ν), (∀ c ∈ ds, c ∈ cs) →
        ∃ n, ∀ c ∈ ds, (c >>= walk shape n) = .ok () := by
      intro ds
      induction ds with
      | nil => exact fun _ => ⟨0, nofun⟩
      | cons d ds ihds =>
        intro hsub
        obtain ⟨n, hn⟩ := ihds fun c hc => hsub c (mem_cons_of_mem _ hc)
        obtain ⟨y, rfl⟩ := fetched d (hsub d mem_cons_self)
        obtain ⟨m, hm⟩ := ih _ (hsub _ mem_cons_self) y rfl
        refine ⟨max n m, forall_mem_cons.mpr ⟨?_, fun c hc => ?_⟩⟩
        · rw [ok_bind, walk_mono (le_max_right n m) (by rw [hm]; exact nofun), hm]
        · obtain ⟨z, rfl, hz⟩ := bind_eq_ok.mp (hn c hc)
          rw [ok_bind, walk_mono (le_max_left n m) (by rw [hz]; exact nofun), hz]
    obtain ⟨n, hn⟩ := hall cs fun c hc => hc
    exact ⟨n + 1, by rw [walk, h]; exact eachOk_eq_ok.mpr hn⟩

lemma grounded_of_walk {n : Nat} (h : walk shape n x ≠ .diverge) : Grounded shape x := by
  induction n generalizing x with
  | zero => exact absurd rfl h
  | succ n ih =>
    refine .intro fun pre y post hs hpre => ?_
    rw [walk, hs] at h
    have hnext : (ok y >>= walk shape n : Outcome ε Unit) ≠ .diverge := by
      refine ne_diverge_of_eachOk (g := fun c => c >>= walk shape n) (fun c hc => ?_) h
      obtain ⟨z, rfl, hz⟩ := hpre c hc
      obtain ⟨m, hm⟩ := walk_of_walked hz
      by_cases hd : walk shape n z = .diverge
      · exact .inr hd
      · exact .inl ((walk_unique hd (by rw [hm]; exact nofun)).trans hm)
    exact ih hnext

/-- A walk from a grounded node ends. -/
lemma Tame.walk_of_grounded (ht : Tame shape) (h : Grounded shape x) :
    ∃ n, walk shape n x ≠ .diverge := by
  induction h with
  | @intro x _ ih =>
    cases hs : shape x with
    | leaf r =>
      refine ⟨1, ?_⟩
      have hret := ht.leaf x r hs
      rw [walk, hs]
      rintro rfl
      exact hret
    | branch cs =>
      -- by induction on what is left, behind children that were walked to their end
      have hrest : ∀ post pre : List (Outcome ε ν), cs = pre ++ post →
          (∀ c ∈ pre, ∃ z, c = .ok z ∧ Walked shape z) →
          ∃ n, eachOk (fun c => c >>= walk shape n) post ≠ .diverge := by
        intro post
        induction post with
        | nil => exact fun _ _ _ => ⟨0, nofun⟩
        | cons c post ihpost =>
          intro pre hcs hpre
          have hret := ht.fetch x cs hs c (by rw [hcs]; simp)
          cases c with
          | err e => exact ⟨0, nofun⟩
          | ok y =>
            obtain ⟨n, hn⟩ := ih pre y post (by rw [hs, hcs]) hpre
            cases hw : walk shape n y with
            | diverge => exact absurd hw hn
            | ok a =>
              obtain ⟨m, hm⟩ := ihpost (pre ++ [.ok y]) (by rw [hcs]; simp) (by
                intro c hc
                rcases mem_append.mp hc with hc | hc
                · exact hpre c hc
                · exact ⟨y, mem_singleton.mp hc, walked_of_walk hw⟩)
              refine ⟨max n m, ?_⟩
              have hmono : eachOk (fun c => c >>= walk shape (max n m)) post
                  = eachOk (fun c => c >>= walk shape m) post := by
                refine eachOk_mono (fun c _ hc => ?_) hm
                cases c with
                | ok z => exact walk_mono (le_max_right n m) hc
                | _ => rfl
              rw [eachOk, ok_bind, walk_mono (le_max_left n m) hn, hw, ok_bind, hmono]
              exact hm
            | _ => exact ⟨n, by rw [eachOk, ok_bind, hw]; exact nofun⟩
          | _ => exact absurd hret id
      obtain ⟨n, hn⟩ := hrest cs [] rfl nofun
      exact ⟨n + 1, by rw [walk, hs]; exact hn⟩

/-- The walk ends for some amount of fuel exactly on grounded nodes. -/
lemma Tame.grounded_iff (ht : Tame shape) : Grounded shape x ↔ ∃ n, walk shape n x ≠ .diverge :=
  ⟨ht.walk_of_grounded, fun ⟨_, h⟩ => grounded_of_walk h⟩

/-! ## Enough fuel -/

/-- A decreasing sequence of finite sets stops shrinking within as many steps
as the first has elements. -/
lemma exists_stationary {α : Type} [DecidableEq α] {s : Nat → Finset α}
    (hs : ∀ n, s (n + 1) ⊆ s n) : ∃ n ≤ (s 0).card, s (n + 1) = s n := by
  by_contra hno
  have hlt : ∀ n ≤ (s 0).card, (s (n + 1)).card < (s n).card := fun n hn =>
    Finset.card_lt_card ((hs n).ssubset_of_ne fun heq => hno ⟨n, hn, heq⟩)
  have hdown : ∀ n, n ≤ (s 0).card + 1 → (s n).card + n ≤ (s 0).card := by
    intro n
    induction n with
    | zero => exact fun _ => le_refl _
    | succ n ih =>
      intro hn
      have h₁ := hlt n (by omega)
      omega
  have := hdown ((s 0).card + 1) (le_refl _)
  omega

section Finite

variable {count : Nat} {node : Nat → ν}

/-- Children that all answer the same with one more unit of fuel. -/
lemma walk_succ_succ {n : Nat} (hfrom : ∀ x cs, shape x = .branch cs → ∀ y, .ok y ∈ cs →
      ∃ b < count, y = node b)
    (heq : ∀ b < count, walk shape (n + 1) (node b) = walk shape n (node b)) (x : ν) :
    walk shape (n + 2) x = walk shape (n + 1) x := by
  rw [walk, walk]
  cases hs : shape x with
  | leaf r => rfl
  | branch cs =>
    refine eachOk_congr fun c hc => ?_
    cases c with
    | ok y =>
      obtain ⟨b, hb, rfl⟩ := hfrom x cs hs y hc
      exact heq b hb
    | _ => rfl

/-- When all children come from `count` nodes, a walk that has not ended with
fuel `count + 1` never ends. -/
lemma walk_stable (hfrom : ∀ x cs, shape x = .branch cs → ∀ y, .ok y ∈ cs →
      ∃ b < count, y = node b) {n : Nat} (hn : count + 1 ≤ n)
    (h : ∃ m, walk shape m x ≠ .diverge) : walk shape n x ≠ .diverge := by
  classical
  -- the nodes on which the walk runs out of fuel
  let out : Nat → Finset Nat := fun k =>
    (Finset.range count).filter fun b => walk shape k (node b) = .diverge
  have hdec : ∀ k, out (k + 1) ⊆ out k := by
    intro k b hb
    simp only [out, Finset.mem_filter] at hb ⊢
    refine ⟨hb.1, Classical.byContradiction fun hne => ?_⟩
    rw [walk_succ_eq k _ hne] at hb
    exact hne hb.2
  obtain ⟨k, hk, hstat⟩ := exists_stationary hdec
  have hcard : (out 0).card ≤ count :=
    (Finset.card_filter_le _ _).trans (le_of_eq (Finset.card_range count))
  -- from the stationary point on nothing changes any more
  have heq : ∀ b < count, walk shape (k + 1) (node b) = walk shape k (node b) := by
    intro b hb
    by_cases hd : walk shape k (node b) = .diverge
    · have hmem : b ∈ out (k + 1) := by
        rw [hstat]
        exact Finset.mem_filter.mpr ⟨Finset.mem_range.mpr hb, hd⟩
      rw [hd, (Finset.mem_filter.mp hmem).2]
    · exact walk_succ_eq k _ hd
  have hstep : ∀ j x, walk shape (k + 1 + j + 1) x = walk shape (k + 1 + j) x := by
    intro j
    induction j with
    | zero => exact walk_succ_succ hfrom heq
    | succ j ih => exact walk_succ_succ hfrom fun b _ => ih (node b)
  have hconst : ∀ m, k + 1 ≤ m → walk shape m x = walk shape (k + 1) x := by
    intro m hm
    induction m, hm using le_induction with
    | base => rfl
    | succ m hm ih =>
      have := hstep (m - (k + 1)) x
      rw [Nat.add_sub_cancel' hm] at this
      rw [this, ih]
  obtain ⟨m, hm⟩ := h
  intro hd
  refine hm ?_
  rw [← walk_mono (le_max_left m (k + 1)) hm, hconst _ (le_max_right m (k + 1)),
    ← hconst n (by omega), hd]

end Finite

end Walk

end RustOs.Lib
