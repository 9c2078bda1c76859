import RustOs.Fs.Fat32.Faults

/-!
# Allocation on a drive that fails

`allocate_clusters` is meant to be all or nothing: it returns a chain of clusters
that were free, or an error with every FAT copy as it was. It rolls back when it
runs out of clusters and when a link or a later mark cannot be written, but

* a read that fails in a later search returns at once, with the chain so far in
  the FAT (`search_fails`);
* the first mark is not rolled back if it fails in the second copy or later, and
  a later mark is not rolled back in the copies it reached, since the cluster is
  not in the list yet;
* the roll-back itself reads, and gives an entry up when that fails; and it
  clears entries that another copy may have had in use.

`Spared` follows the schedule of failures along the free clusters and says that
none of this happens. The result, for every table, every drive and every number of
clusters, is

  `allocateClusters_allOrNothing : AllOrNothing … ↔ AllocSpared …`.
-/

namespace RustOs.Fs.Fat32

open Lib Nat Drivers
open Drivers.Faulty (Quiet reach spent)
open List

variable {fs : Fat32} {c : Nat} {l : List Nat}

/-! ## The marks of a chain -/

/-- What the entry of a cluster in a chain holds. -/
def nextOf : List Nat → Nat → Nat
  | a :: b :: l, c => if c = a then b else nextOf (b :: l) c
  | [_], _ => endOfChain
  | [], _ => endOfChain

/-- The marks of a chain that is linked up in `N` copies. -/
def chainMarks (N : Nat) (l : List Nat) : Marks := fun k c =>
  if c ∈ l ∧ k < N then some (nextOf l c) else none

lemma chainMarks_of_not_mem {N : Nat} (k : Nat) (h : c ∉ l) :
    chainMarks N l k c = none :=
  if_neg fun h' => h h'.1

lemma nextOf_mem : ∀ (l : List Nat) (c : Nat), nextOf l c ∈ l ∨ nextOf l c = endOfChain := by
  intro l
  induction l with
  | nil => exact fun c => .inr rfl
  | cons a l ih =>
    intro c
    cases l with
    | nil => exact .inr rfl
    | cons b l =>
      rw [nextOf]
      split
      next => exact .inl (mem_cons_of_mem _ mem_cons_self)
      next =>
        rcases ih c with h | h
        · exact .inl (mem_cons_of_mem _ h)
        · exact .inr h

/-- The entries of a chain that gets one cluster longer. -/
lemma nextOf_concat : ∀ (l : List Nat) (prev c x : Nat), l.Nodup → l.getLast? = some prev →
    nextOf (l ++ [c]) x = if x = prev then c else if x ∈ l then nextOf l x else endOfChain := by
  intro l
  induction l with
  | nil => exact fun prev c x _ h => nomatch h
  | cons a l ih =>
    intro prev c x hnd hlast
    cases l with
    | nil =>
      obtain rfl : a = prev := Option.some.inj hlast
      show (if x = a then c else endOfChain) = _
      by_cases hx : x = a
      · rw [if_pos hx, if_pos hx]
      · rw [if_neg hx, if_neg hx, if_neg (by rw [mem_singleton]; exact hx)]
    | cons b l =>
      rw [nodup_cons] at hnd
      have hprev : prev ∈ b :: l := mem_of_getLast? hlast
      show (if x = a then b else nextOf (b :: l ++ [c]) x) = _
      by_cases hx : x = a
      · have hne : x ≠ prev := fun h => hnd.1 (hx ▸ h ▸ hprev)
        rw [if_pos hx, if_neg hne, if_pos (hx ▸ mem_cons_self), nextOf, if_pos hx]
      · have hmem : (x ∈ a :: b :: l) = (x ∈ b :: l) := propext (by simp [hx])
        rw [if_neg hx, ih prev c x hnd.2 hlast, nextOf, if_neg hx]
        simp only [hmem]

lemma nextOf_last {prev : Nat} (hnd : l.Nodup) (h : l.getLast? = some prev) :
    nextOf l prev = endOfChain := by
  induction l with
  | nil => cases h
  | cons a l ih =>
    cases l with
    | nil => rfl
    | cons b l =>
      rw [nodup_cons] at hnd
      have hne : prev ≠ a := fun heq => hnd.1 (heq ▸ mem_of_getLast? h)
      rw [nextOf, if_neg hne]
      exact ih hnd.2 h

/-- Linking the last cluster to a new one and ending it there. -/
lemma chainMarks_concat (N : Nat) {prev c : Nat} (hnd : l.Nodup)
    (hlast : l.getLast? = some prev) (hc : c ∉ l) :
    ((chainMarks N l).put 0 N prev c).put 0 N c endOfChain = chainMarks N (l ++ [c]) := by
  have hprev := mem_of_getLast? hlast
  funext k x
  unfold Marks.put chainMarks
  rw [nextOf_concat l prev c x hnd hlast]
  by_cases hk : k < N
  · by_cases hxc : x = c
    · have hne : c ≠ prev := fun h => hc (h ▸ hprev)
      simp [hxc, hne, hc]
    · by_cases hxp : x = prev
      · simp [hxp, hk, hprev, show prev ≠ c from fun h => hxc (hxp.trans h)]
      · by_cases hxl : x ∈ l <;> simp [hxc, hxp, hxl]
  · simp [hk]

section
variable {f : Copies} {chain F : List Nat}

/-- The chain so far and the clusters still free are the free clusters of the
table. -/
def Splits (fs : Fat32) (f : Copies) (chain F : List Nat) : Prop :=
  f.freeIn 2 fs.totalClusters = chain ++ F

lemma Splits.nodup (h : Splits fs f chain F) : (chain ++ F).Nodup := by
  rw [← h]
  exact List.Nodup.filter _ nodup_range'

lemma Splits.free (h : Splits fs f chain F) (hc : c ∈ chain ++ F) :
    fs.InRange c ∧ f.value c = 0 := by
  rw [← h, Copies.mem_freeIn] at hc
  exact ⟨⟨hc.1.1, by have := hc.1.2; omega⟩, hc.2⟩

lemma Splits.taken (h : Splits fs f chain F) (hc : c ∈ chain) :
    fs.InRange c ∧ f.value c = 0 :=
  h.free (mem_append_left F hc)

lemma Splits.step (h : Splits fs f chain (c :: F)) : Splits fs f (chain ++ [c]) F := by
  unfold Splits at h ⊢
  rw [h, append_assoc]
  rfl

lemma Splits.next (h : Splits fs f chain (c :: F)) :
    fs.InRange c ∧ f.value c = 0 ∧ c ∉ chain := by
  have hc := h.free (mem_append_right chain mem_cons_self)
  refine ⟨hc.1, hc.2, fun hin => ?_⟩
  exact (nodup_append.mp h.nodup).2.2 c hin c mem_cons_self rfl

/-- An entry of the chain is a cluster number or the end mark. -/
lemma Splits.nextOf_bounds (g : Geometry fs) (h : Splits fs f chain F) (c : Nat) :
    2 ≤ nextOf chain c ∧ nextOf chain c < 2 ^ 28 := by
  rcases nextOf_mem chain c with hm | he
  · have hr := (h.taken hm).1
    have := g.numbers
    exact ⟨hr.1, by have := hr.2; omega⟩
  · rw [he]
    decide

/-- What a cluster of the chain holds now. -/
lemma Splits.value_overlay (g : Geometry fs) (h : Splits fs f chain F) (hc : c ∈ chain) :
    ((chainMarks fs.numFats chain).overlay f).value c = nextOf chain c := by
  have hb := h.nextOf_bounds g c
  unfold Copies.value Marks.overlay chainMarks
  rw [if_pos ⟨hc, g.fats_pos⟩]
  dsimp only
  omega

lemma value_overlay_of_not_mem {c N : Nat} (hc : c ∉ chain) :
    ((chainMarks N chain).overlay f).value c = f.value c := by
  unfold Copies.value Marks.overlay chainMarks
  rw [if_neg fun h => hc h.1]

/-- The next search finds what is left. -/
lemma Splits.freeIn (g : Geometry fs) (h : Splits fs f chain F) :
    ((chainMarks fs.numFats chain).overlay f).freeIn 2 fs.totalClusters = F := by
  have hfilter : ((chainMarks fs.numFats chain).overlay f).freeIn 2 fs.totalClusters
      = (f.freeIn 2 fs.totalClusters).filter fun c => c ∉ chain := by
    unfold Copies.freeIn
    rw [filter_filter]
    refine filter_congr fun c _ => ?_
    by_cases hc : c ∈ chain
    · have hb := h.nextOf_bounds g c
      rw [h.value_overlay g hc]
      simp only [hc, not_true_eq_false, decide_false, Bool.false_and, decide_eq_false_iff_not]
      omega
    · rw [value_overlay_of_not_mem hc]
      simp [hc]
  rw [hfilter, h, filter_append]
  have hnil : chain.filter (fun c => c ∉ chain) = [] := by
    rw [filter_eq_nil_iff]
    intro c hc
    simp [hc]
  have hall : F.filter (fun c => c ∉ chain) = F := by
    rw [filter_eq_self]
    intro c hc
    have := (nodup_append.mp h.nodup).2.2
    exact decide_eq_true fun hin => this c hin c hc rfl
  rw [hnil, hall]
  rfl

end

/-! ## When a roll-back restores the table -/

/-- The roll-back of `l` from time `t` on restores the table `f`, with `m` what was
written: in the copies that the write of zero reaches, the entry was zero before,
and in the others it is what it was. -/
def Undone (N : Nat) (f : Copies) (fails : Nat → Bool) (m : Marks) : List Nat → Nat → Prop
  | [], _ => True
  | c :: l, t =>
    (∀ k < N, ∀ x, (if k < reach fails t N then some 0 else m k c) = some x → f k c % 2 ^ 28 = x)
      ∧ Undone N f fails m l (spent fails t N)

section
variable {f : Copies} {fails : Nat → Bool} {m : Marks}

lemma undone_congr {N : Nat} {m' : Marks} : ∀ (l : List Nat) (t : Nat),
    (∀ k, ∀ c ∈ l, m' k c = m k c) → (Undone N f fails m' l t ↔ Undone N f fails m l t) := by
  intro l
  induction l with
  | nil => exact fun t _ => .rfl
  | cons c l ih =>
    intro t h
    refine and_congr ?_ (ih _ fun k b hb => h k b (mem_cons_of_mem _ hb))
    refine forall_congr' fun k => imp_congr_right fun _ => ?_
    rw [h k c mem_cons_self]

/-- After the roll-back the table is the old one exactly if that is so for the
clusters rolled back and for the marks elsewhere. -/
lemma harmless_rolled_iff : ∀ (l : List Nat) (m : Marks) (t : Nat), l.Nodup →
    (∀ c ∈ l, c < fs.sectorsPerFat * 128) →
    ((Marks.rolled fs.numFats fails l (m, t)).1.Harmless fs f
      ↔ (∀ k < fs.numFats, ∀ c < fs.sectorsPerFat * 128, c ∉ l → ∀ x, m k c = some x →
          f k c % 2 ^ 28 = x)
        ∧ Undone fs.numFats f fails m l t) := by
  intro l
  induction l with
  | nil =>
    intro m t _ _
    constructor
    · exact fun h => ⟨fun k hk c hc _ => h k hk c hc, trivial⟩
    · exact fun h k hk c hc => h.1 k hk c hc not_mem_nil
  | cons c l ih =>
    intro m t hnd hlt
    rw [nodup_cons] at hnd
    have hput : ∀ k b, b ≠ c → m.put 0 (reach fails t fs.numFats) c 0 k b = m k b :=
      fun k b hb => Marks.put_of_ne m k hb
    have hself : ∀ k, m.put 0 (reach fails t fs.numFats) c 0 k c
        = if k < reach fails t fs.numFats then some 0 else m k c := by
      intro k
      unfold Marks.put
      by_cases hk : k < reach fails t fs.numFats
      · rw [if_pos ⟨rfl, zero_le k, by omega⟩, if_pos hk]
      · rw [if_neg (by omega), if_neg hk]
    -- the first cluster does not occur again, so the rest of the roll-back leaves its marks
    rw [Marks.rolled, ih _ _ hnd.2 fun b hb => hlt b (mem_cons_of_mem _ hb),
      undone_congr l _ fun k b hb => hput k b fun h => hnd.1 (h ▸ hb), Undone, ← and_assoc]
    refine and_congr_left fun _ => ?_
    constructor
    · intro h
      constructor
      · intro k hk b hb hmem x hx
        rw [mem_cons, not_or] at hmem
        exact h k hk b hb hmem.2 x ((hput k b hmem.1).trans hx)
      · intro k hk x hx
        exact h k hk c (hlt c mem_cons_self) hnd.1 x ((hself k).trans hx)
    · intro ⟨h₁, h₂⟩ k hk b hb hmem x hx
      by_cases hbc : b = c
      · subst hbc
        exact h₂ k hk x ((hself k).symm.trans hx)
      · exact h₁ k hk b hb (fun h => (mem_cons.mp h).elim hbc hmem) x
          ((hput k b hbc).symm.trans hx)

end

/-! ## The condition -/

/-- The failures spare the loop of `allocate_clusters`, with `n` clusters still
wanted, the chain so far, its last cluster, the clusters still free and the number
of accesses made: no search fails, a link that fails or a lack of clusters is
undone, and a mark that fails does so in the first copy and all is undone. -/
def Spared (fs : Fat32) (f : Copies) (fails : Nat → Bool) :
    Nat → List Nat → Nat → List Nat → Nat → Prop
  | 0, _, _, _, _ => True
  | _ + 1, chain, _, [], t =>
    Quiet fails t fs.totalClusters
      ∧ Undone fs.numFats f fails (chainMarks fs.numFats chain) chain (t + fs.totalClusters)
  | n + 1, chain, prev, c :: F, t =>
    Quiet fails t (c - 1) ∧
      if reach fails (t + (c - 1)) fs.numFats ≠ fs.numFats then
        Undone fs.numFats f fails
          ((chainMarks fs.numFats chain).put 0 (reach fails (t + (c - 1)) fs.numFats) prev c) chain
          (spent fails (t + (c - 1)) fs.numFats)
      else if reach fails (t + (c - 1) + 2 * fs.numFats) fs.numFats ≠ fs.numFats then
        reach fails (t + (c - 1) + 2 * fs.numFats) fs.numFats = 0
          ∧ Undone fs.numFats f fails ((chainMarks fs.numFats chain).put 0 fs.numFats prev c) chain
              (spent fails (t + (c - 1) + 2 * fs.numFats) fs.numFats)
      else Spared fs f fails n (chain ++ [c]) c F (t + (c - 1) + 2 * fs.numFats + 2 * fs.numFats)

/-- The failures spare `allocate_clusters`: there is nothing free, the first search
or the first copy of the first mark fails, or the mark is made and the loop is
spared. -/
def AllocSpared (fs : Fat32) (f : Copies) (fails : Nat → Bool) (n t : Nat) : Prop :=
  match f.freeIn 2 fs.totalClusters with
  | [] => True
  | c :: F =>
    ¬Quiet fails t (c - 1) ∨ reach fails (t + (c - 1)) fs.numFats = 0
      ∨ reach fails (t + (c - 1)) fs.numFats = fs.numFats
        ∧ Spared fs f fails (n - 1) [c] c F (t + (c - 1) + 2 * fs.numFats)

/-! ## The loop -/

section
variable {f : Copies} {fails : Nat → Bool}

variable (g : Geometry fs)
include g

/-- An end mark in the first copy of a free cluster is no harmless mark. -/
lemma not_harmless_of_mark {m : Marks} (hc : fs.InRange c)
    (hv : f.value c = 0) (hm : m 0 c = some endOfChain) : ¬m.Harmless fs f := by
  intro h
  have hx := h 0 g.fats_pos c (inRange_lt g hc) endOfChain hm
  have hv' : f 0 c % 2 ^ 28 = 0 := hv
  rw [hv'] at hx
  exact absurd hx (by decide)

/-- Rolling back from marks that are inside the chain. -/
lemma rollBack_harmless_iff {chain F : List Nat} (h : Splits fs f chain F)
    {m : Marks} (hm : ∀ k c, c ∉ chain → m k c = none) (t : Nat) :
    (Marks.rolled fs.numFats fails chain (m, t)).1.Harmless fs f
      ↔ Undone fs.numFats f fails m chain t := by
  rw [harmless_rolled_iff chain m t (nodup_append.mp h.nodup).1
    fun c hc => inRange_lt g (h.taken hc).1]
  refine and_iff_right fun k _ c _ hc x hx => ?_
  rw [hm k c hc] at hx
  cases hx

/-- A mark of a new cluster that fails, rolled back without it. -/
lemma markFails_iff {chain F : List Nat}
    (hs : Splits fs f chain (c :: F)) {m : Marks} (hm : ∀ k b, b ∉ chain → m k b = none)
    (r t : Nat) :
    (Marks.rolled fs.numFats fails chain (m.put 0 r c endOfChain, t)).1.Harmless fs f
      ↔ r = 0 ∧ Undone fs.numFats f fails m chain t := by
  obtain ⟨hc, hv, hout⟩ := hs.next
  by_cases hr : r = 0
  · subst hr
    rw [Marks.put_zero, rollBack_harmless_iff g hs hm, and_iff_right rfl]
  · refine iff_of_false (fun h => ?_) fun h => hr h.1
    -- the first copy of the new cluster keeps its mark
    rw [harmless_rolled_iff chain _ t (nodup_append.mp hs.nodup).1
      fun b hb => inRange_lt g (hs.taken hb).1] at h
    have hmark : m.put 0 r c endOfChain 0 c = some endOfChain := if_pos ⟨rfl, le_refl 0, by omega⟩
    have hx := h.1 0 g.fats_pos c (inRange_lt g hc) hout endOfChain hmark
    have hv' : f 0 c % 2 ^ 28 = 0 := hv
    rw [hv'] at hx
    exact absurd hx (by decide)

/-- The loop comes to an end: it has linked up the clusters asked for, or it fails
and the table is the old one exactly if the failures spared it. -/
def LoopEnds (fs : Fat32) (f : Copies) (fails : Nat → Bool) (n : Nat)
    (chain : List Nat) (prev : Nat)
    (F : List Nat) (t : Nat) : Prop :=
  (∃ t', Runs (Marked fs f fails) (fs.allocateFrom n chain prev) (chainMarks fs.numFats chain, t)
      (.ok ()) (chainMarks fs.numFats (chain ++ F.take n), t')
    ∧ n ≤ F.length ∧ Spared fs f fails n chain prev F t)
  ∨ ∃ e a, Runs (Marked fs f fails) (fs.allocateFrom n chain prev) (chainMarks fs.numFats chain, t)
      (.err e) a
    ∧ (a.1.Harmless fs f ↔ Spared fs f fails n chain prev F t)

/-- The loop, with a chain that has grown so far and the clusters left. -/
lemma allocateFrom_marked (n : Nat) :
    ∀ (chain : List Nat) (prev : Nat) (F : List Nat) (t : Nat), Splits fs f chain F →
      chain.getLast? = some prev → LoopEnds fs f fails n chain prev F t := by
  induction n with
  | zero =>
    intro chain prev F t _ _
    refine .inl ⟨t, ?_, zero_le _, trivial⟩
    rw [take_zero, append_nil]
    exact .pure _
  | succ n ih =>
    intro chain prev F t hs hlast
    have hprev := mem_of_getLast? hlast
    have hnd := (nodup_append.mp hs.nodup).1
    obtain ⟨hfound, hlost⟩ := @findFreeCluster_marked fs f fails g (chainMarks fs.numFats chain) t F
      (hs.freeIn g)
    -- the way out through the roll-back
    have hback : ∀ a e, Runs (Marked fs f fails) (fs.rollBack chain >>= fun _ => Prog.fail e) a
        (.err e : Outcome String Unit) (Marks.rolled fs.numFats fails chain a) := fun a e =>
      Runs.bind (rollBack_marked g chain a fun c hc => (hs.taken hc).1) (.fail e)
    by_cases hq : Quiet fails t (searchReads 2 fs.totalClusters F)
    · have hfind := hfound hq
      cases F with
      | nil =>
        refine .inr ⟨_, _, .bind hfind (hback _ _), ?_⟩
        rw [rollBack_harmless_iff g hs fun k c hc => chainMarks_of_not_mem k hc, Spared]
        exact (and_iff_right hq).symm
      | cons c F =>
        obtain ⟨hc, hv, hout⟩ := hs.next
        have hlt : c < 2 ^ 28 := by
          have hnum := g.numbers
          have := hc.2
          omega
        have hlink := @writeFatEntry_marked fs f fails g prev c (hs.taken hprev).1 hlt
          (chainMarks fs.numFats chain) (t + (c - 1))
        have hinside : ∀ r k b, b ∉ chain →
            (chainMarks fs.numFats chain).put 0 r prev c k b = none := by
          intro r k b hb
          rw [Marks.put_of_ne _ k fun h : b = prev => hb (h ▸ hprev)]
          exact chainMarks_of_not_mem k hb
        by_cases hr : reach fails (t + (c - 1)) fs.numFats = fs.numFats
        · -- the link is made; the new cluster is to be marked
          rw [if_pos hr, hr, Faulty.spent_of_reach _ _ hr] at hlink
          have hmark := @writeFatEntry_marked fs f fails g c endOfChain hc (by decide)
            ((chainMarks fs.numFats chain).put 0 fs.numFats prev c) (t + (c - 1) + 2 * fs.numFats)
          by_cases hr' : reach fails (t + (c - 1) + 2 * fs.numFats) fs.numFats = fs.numFats
          · rw [if_pos hr', hr', Faulty.spent_of_reach _ _ hr',
              chainMarks_concat fs.numFats hnd hlast hout] at hmark
            have hspared : Spared fs f fails (n + 1) chain prev (c :: F) t ↔ _ :=
              (and_iff_right hq).trans (by rw [if_neg (not_not_intro hr),
                if_neg (not_not_intro hr')])
            rcases ih (chain ++ [c]) c F _ hs.step getLast?_concat with
              ⟨t', hrec, hle, hsp⟩ | ⟨e, a, hrec, hiff⟩
            · refine .inl ⟨t', ?_, succ_le_succ hle, hspared.mpr hsp⟩
              rw [append_assoc] at hrec
              exact .bind hfind (.bind (.attempt_ok hlink)
                (.bind (.attempt_ok hmark) hrec))
            · exact .inr ⟨e, a, .bind hfind (.bind (.attempt_ok hlink)
                (.bind (.attempt_ok hmark) hrec)), hiff.trans hspared.symm⟩
          · rw [if_neg hr'] at hmark
            refine .inr ⟨_, _, .bind hfind (.bind (.attempt_ok hlink)
              (.bind (.attempt_err hmark) (hback _ _))), ?_⟩
            rw [Spared, if_neg (not_not_intro hr), if_pos hr']
            exact (markFails_iff g hs (hinside _) _ _).trans (and_iff_right hq).symm
        · -- the link fails
          rw [if_neg hr] at hlink
          refine .inr ⟨_, _, .bind hfind (.bind (.attempt_err hlink) (hback _ _)), ?_⟩
          rw [rollBack_harmless_iff g hs (hinside _), Spared, if_pos hr]
          exact (and_iff_right hq).symm
    · obtain ⟨t', hrun⟩ := hlost hq
      refine .inr ⟨_, _, .bind_err hrun, ?_⟩
      -- the chain so far stays in the table
      have hmark : chainMarks fs.numFats chain 0 prev = some endOfChain := by
        unfold chainMarks
        rw [if_pos ⟨hprev, g.fats_pos⟩, nextOf_last hnd hlast]
      refine iff_of_false (not_harmless_of_mark g (hs.taken hprev).1 (hs.taken hprev).2 hmark) ?_
      cases F <;> exact fun h => hq h.1

omit g

/-- The mark of the first cluster is a chain of one. -/
lemma put_first (N c : Nat) : Marks.none.put 0 N c endOfChain = chainMarks N [c] := by
  funext k b
  unfold Marks.put chainMarks
  simp only [mem_singleton, zero_le, true_and, zero_add]
  rfl

/-- `allocate_clusters` comes to an end: it has linked up as many free clusters as
asked for, or it fails and the table is the old one exactly if the failures spared
it. -/
lemma allocateClusters_marked (g : Geometry fs) {n : Nat} (hn : 1 ≤ n) (t : Nat) :
    (∃ first l F t', Runs (Marked fs f fails) (fs.allocateClusters n) (Marks.none, t) (.ok first)
        (chainMarks fs.numFats l, t')
      ∧ Splits fs f l F ∧ l.length = n ∧ l.head? = some first ∧ AllocSpared fs f fails n t)
    ∨ ∃ e a, Runs (Marked fs f fails) (fs.allocateClusters n) (Marks.none, t) (.err e) a
      ∧ (a.1.Harmless fs f ↔ AllocSpared fs f fails n t) := by
  obtain ⟨n, rfl⟩ : ∃ m, n = m + 1 := ⟨n - 1, by omega⟩
  have hnone : Marks.none.Harmless fs f := fun _ _ _ _ _ h => nomatch h
  obtain ⟨hfound, hlost⟩ := @findFreeCluster_marked fs f fails g Marks.none t _ rfl
  rw [show Marks.none.overlay f = f from rfl] at hfound hlost
  unfold AllocSpared allocateClusters
  rcases hF : f.freeIn 2 fs.totalClusters with _ | ⟨c, F⟩
  · -- nothing is free, or the search fails before that is known
    rw [hF] at hfound hlost
    by_cases hq : Quiet fails t (searchReads 2 fs.totalClusters [])
    · exact .inr ⟨_, _, .bind (hfound hq) (.fail _), iff_of_true hnone trivial⟩
    · obtain ⟨t', hrun⟩ := hlost hq
      exact .inr ⟨_, _, .bind_err hrun, iff_of_true hnone trivial⟩
  · rw [hF] at hfound hlost
    have hs : Splits fs f [c] F := hF
    have hc := hs.taken mem_cons_self
    by_cases hq : Quiet fails t (searchReads 2 fs.totalClusters (c :: F))
    · have hfind := hfound hq
      have hmark := @writeFatEntry_marked fs f fails g c endOfChain hc.1 (by decide) Marks.none
        (t + (c - 1))
      by_cases hr : reach fails (t + (c - 1)) fs.numFats = fs.numFats
      · -- the first cluster is marked, the loop does the rest
        rw [if_pos hr, hr, Faulty.spent_of_reach _ _ hr, put_first] at hmark
        have hpos : ¬reach fails (t + (c - 1)) fs.numFats = 0 := by
          have := g.fats_pos
          omega
        have hspared : _ ↔ Spared fs f fails n [c] c F (t + (c - 1) + 2 * fs.numFats) :=
          (or_iff_right (not_not_intro hq)).trans
            ((or_iff_right hpos).trans (and_iff_right hr))
        rcases @allocateFrom_marked fs f fails g n [c] c F
          (t + (c - 1) + 2 * fs.numFats) hs rfl with
          ⟨t', hrec, hle, hsp⟩ | ⟨e, a, hrec, hiff⟩
        · refine .inl ⟨c, [c] ++ F.take n, F.drop n, t', ?_, ?_, ?_, rfl, hspared.mpr hsp⟩
          · exact .bind hfind (.bind hmark (.bind hrec (.pure _)))
          · unfold Splits at hs ⊢
            rw [hs, append_assoc, take_append_drop]
          · rw [length_append, length_singleton, length_take_of_le hle, add_comm]
        · exact .inr ⟨e, a, .bind hfind (.bind hmark (.bind_err hrec)),
            hiff.trans hspared.symm⟩
      · rw [if_neg hr] at hmark
        refine .inr ⟨_, _, .bind hfind (.bind_err hmark), ?_⟩
        refine .trans ?_ (or_iff_right (not_not_intro hq)).symm
        rw [or_iff_left fun h => hr h.1]
        by_cases hr0 : reach fails (t + (c - 1)) fs.numFats = 0
        · rw [hr0, Marks.put_zero]
          exact iff_of_true hnone rfl
        · refine iff_of_false (not_harmless_of_mark g hc.1 hc.2 ?_) hr0
          exact if_pos ⟨rfl, le_refl 0, by omega⟩
    · obtain ⟨t', hrun⟩ := hlost hq
      exact .inr ⟨_, _, .bind_err hrun, iff_of_true hnone (.inl hq)⟩

end

/-! ## All or nothing -/

/-- What `allocate_clusters(n)` promises, by its outcome and the disk before and
after: a chain of `n` clusters that were free, the same in every copy, with every
other entry as it was; or every entry of every copy as it was. -/
def AllOrNothing (fs : Fat32) (n : Nat) (d d' : Disk) : Outcome String Nat → Prop
  | .ok first =>
    ∃ l, Chain ((fs.rawEntry d').link fs) first l ∧ l.length = n ∧ l.Nodup
      ∧ (∀ c ∈ l, (fs.rawEntry d).value c = 0)
      ∧ (∀ k < fs.numFats, ∀ c ∈ l, fs.rawEntry d' k c % 2 ^ 28 = (fs.rawEntry d').value c)
      ∧ ∀ k < fs.numFats, ∀ c < fs.sectorsPerFat * 128, c ∉ l →
          fs.rawEntry d' k c = fs.rawEntry d k c
  | .err _ =>
    ∀ k < fs.numFats, ∀ c < fs.sectorsPerFat * 128, fs.rawEntry d' k c = fs.rawEntry d k c
  | .panic => False
  | .diverge => False

section
variable {f : Copies}

/-- Entries that lead from one cluster of a list to the next are a chain. -/
lemma chain_of_nextOf {link : Nat → Link Nat} : ∀ (l : List Nat) (first : Nat), l.Nodup →
    l.head? = some first →
    (∀ c ∈ l, link c = if nextOf l c = endOfChain then .stop else .next (nextOf l c)) →
    (∀ c ∈ l, c ≠ endOfChain) → Chain link first l := by
  intro l
  induction l with
  | nil => exact fun first _ h => nomatch h
  | cons a l ih =>
    intro first hnd hhead hlink hne
    obtain rfl : a = first := Option.some.inj hhead
    have ha := hlink a mem_cons_self
    cases l with
    | nil =>
      exact .last ha
    | cons b l =>
      have hb : b ≠ endOfChain := hne b (mem_cons_of_mem _ mem_cons_self)
      rw [nextOf, if_pos rfl, if_neg hb] at ha
      rw [nodup_cons] at hnd
      refine .cons ha (ih b hnd.2 rfl (fun c hc => ?_) fun c hc => hne c (mem_cons_of_mem _ hc))
      have hca : c ≠ a := fun h => hnd.1 (h ▸ hc)
      have h := hlink c (mem_cons_of_mem _ hc)
      rwa [nextOf, if_neg hca] at h

/-- A table under the marks of a chain, on the disk. -/
lemma allOrNothing_of_chain (g : Geometry fs) {d d' : Disk} {l F : List Nat} {first : Nat}
    (hs : Splits fs (fs.rawEntry d) l F) (hfirst : l.head? = some first)
    (hd' : fs.Holds d' ((chainMarks fs.numFats l).overlay (fs.rawEntry d))) :
    AllOrNothing fs l.length d d' (.ok first) := by
  have hnd := (nodup_append.mp hs.nodup).1
  have hlt : ∀ c ∈ l, c < fs.sectorsPerFat * 128 := fun c hc => inRange_lt g (hs.taken hc).1
  -- the entry of a cluster of the chain, in any copy
  have hentry : ∀ k < fs.numFats, ∀ c ∈ l, fs.rawEntry d' k c % 2 ^ 28 = nextOf l c := by
    intro k hk c hc
    have hb := hs.nextOf_bounds g c
    rw [hd' k hk c (hlt c hc)]
    unfold Marks.overlay chainMarks
    rw [if_pos ⟨hc, hk⟩]
    dsimp only
    omega
  have hvalue : ∀ c ∈ l, (fs.rawEntry d').value c = nextOf l c :=
    fun c hc => hentry 0 g.fats_pos c hc
  have hnum := g.numbers
  have hne : ∀ c ∈ l, c ≠ endOfChain := by
    intro c hc
    have := (hs.taken hc).1.2
    unfold endOfChain
    omega
  refine ⟨l, chain_of_nextOf l first hnd hfirst (fun c hc => ?_) hne, rfl, hnd,
    fun c hc => (hs.taken hc).2, fun k hk c hc => ?_, fun k hk c hc hout => ?_⟩
  · have hb := hs.nextOf_bounds g c
    unfold Copies.link
    rw [hvalue c hc, if_neg (not_not_intro (hs.taken hc).1)]
    rcases nextOf_mem l c with hm | he
    · have hr := (hs.taken hm).1
      have := hr.2
      rw [if_neg (by omega), if_neg (by omega), if_neg (hne _ hm)]
    · rw [he]
      rfl
  · rw [hentry k hk c hc, hvalue c hc]
  · rw [hd' k hk c hc]
    unfold Marks.overlay
    rw [chainMarks_of_not_mem k hout]

/-- After an error the promise is that the marks are harmless. -/
lemma allOrNothing_err {s s' : Faulty} {a : Marks × Nat} (n : Nat) (e : String)
    (hs' : Marked fs (fs.rawEntry s.disk) s.fails s' a) :
    AllOrNothing fs n s.disk s'.disk (.err e) ↔ a.1.Harmless fs (fs.rawEntry s.disk) := by
  rw [Marks.harmless_iff]
  refine forall_congr' fun k => forall_congr' fun hk => forall_congr' fun c =>
    forall_congr' fun hc => ?_
  rw [hs'.holds k hk c hc]

end

/-- `allocate_clusters` is all or nothing exactly if the failures of the drive
spare it. -/
theorem allocateClusters_allOrNothing (g : Geometry fs) (s : Faulty) {n : Nat} (hn : 1 ≤ n) :
    AllOrNothing fs n s.disk (fs.allocateClusters n s).2.disk (fs.allocateClusters n s).1
      ↔ AllocSpared fs (fs.rawEntry s.disk) s.fails n s.clock := by
  have hstart : Marked fs (fs.rawEntry s.disk) s.fails s (Marks.none, s.clock) :=
    ⟨fun _ _ _ _ => rfl, rfl, rfl, Marks.small_none⟩
  rcases allocateClusters_marked g hn s.clock with
    ⟨first, l, F, t', hrun, hs, rfl, hfirst, hspared⟩ | ⟨e, a, hrun, hiff⟩
  · obtain ⟨s', hs', hmarked⟩ := hrun s hstart
    rw [hs']
    exact iff_of_true (allOrNothing_of_chain g hs hfirst hmarked.holds) hspared
  · obtain ⟨s', hs', hmarked⟩ := hrun s hstart
    rw [hs', ← hiff]
    exact allOrNothing_err n e hmarked

/-- The small volume on a drive whose ninth access fails: the first read of the
second search. -/
def unsteadyDrive : Faulty := ⟨smallDisk, 0, fun t => t == 8⟩

/-- One cluster is found and marked before that read. -/
theorem smallDisk_allocates :
    AllOrNothing smallFs 1 smallDisk (smallFs.allocateClusters 1 unsteadyDrive).2.disk
      (smallFs.allocateClusters 1 unsteadyDrive).1 := by
  refine (allocateClusters_allOrNothing smallGeometry unsteadyDrive (le_refl 1)).mpr ?_
  -- clusters 2, 3 and 4 are taken, so four reads find cluster 5
  unfold AllocSpared
  have hmarked : reach unsteadyDrive.fails 4 2 = 2 := by decide
  exact .inr (.inr ⟨hmarked, trivial⟩)

/-- Asked for two clusters, `allocate_clusters` fails and leaves the first one
marked. -/
theorem search_fails :
    (smallFs.allocateClusters 2 unsteadyDrive).1 = .err "ATA error"
      ∧ ¬AllOrNothing smallFs 2 smallDisk (smallFs.allocateClusters 2 unsteadyDrive).2.disk
          (smallFs.allocateClusters 2 unsteadyDrive).1 := by
  have herr : (smallFs.allocateClusters 2 unsteadyDrive).1 = .err "ATA error" := by decide +kernel
  refine ⟨herr, ?_⟩
  intro h
  have hmark : smallFs.rawEntry (smallFs.allocateClusters 2 unsteadyDrive).2.disk 0 5
      ≠ smallFs.rawEntry smallDisk 0 5 := by decide +kernel
  exact hmark (h 0 (by decide) 5 (by decide))

end RustOs.Fs.Fat32
