import Mathlib.Data.List.Pairwise
import RustOs.Fs.Fat32.Operations

/-!
# Which cluster belongs to whom

A volume is well formed when every live directory entry heads a chain of its
own: `WellFormed` says that the chains of all entries of all directories that
can be reached from the root end properly and do not meet each other or the
root directory, and `NoLeak` that nothing else is allocated. The `.` and `..`
entries of a subdirectory own nothing.

Every operation of the driver that goes through changes one entry of the root
directory and the chain it heads. `Replaces` is that change in general, an
entry exchanged for another that takes free clusters or those of the old one,
and `WellFormed.replace` is the single preservation theorem behind all of them.
-/

namespace RustOs.Fs.Fat32

open Lib DirectoryEntry Drivers List

variable {fs : Fat32}

namespace Volume

variable {e : DirectoryEntry} {c : Nat} {v w : Volume fs}

/-- The entries of the directory at `c` that own the chain they name: all of
them in the root, all but `.` and `..` in a subdirectory. -/
def owned (v : Volume fs) (c : Nat) : List DirectoryEntry :=
  ((v.listing c).map (·.1)).filter fun e => c == fs.rootCluster || !isDot e

/-- The first clusters of the directories of the volume. -/
inductive DirAt (v : Volume fs) : Nat → Prop where
  | root : DirAt v fs.rootCluster
  | sub {c : Nat} {e : DirectoryEntry} (hc : DirAt v c) (he : e ∈ v.owned c)
      (hd : e.isDirectory = true) : DirAt v e.firstCluster

/-- Two entries share no cluster. -/
def Apart (v : Volume fs) (e e' : DirectoryEntry) : Prop :=
  (v.entryChain e).Disjoint (v.entryChain e')

/-- Every live entry heads a chain of its own, apart from the root directory. -/
structure WellFormed (v : Volume fs) : Prop where
  root : v.Chained fs.rootCluster
  chained : ∀ c, v.DirAt c → ∀ e ∈ v.owned c, v.EntryOk e
  dirs : ∀ c, v.DirAt c → ∀ e ∈ v.owned c, e.isDirectory = true → e.firstCluster ≠ 0
  inDir : ∀ c, v.DirAt c → (v.owned c).Pairwise v.Apart
  across : ∀ c c', v.DirAt c → v.DirAt c' → c ≠ c' →
    ∀ e ∈ v.owned c, ∀ e' ∈ v.owned c', v.Apart e e'
  apart : ∀ c, v.DirAt c → ∀ e ∈ v.owned c, (v.chainOf fs.rootCluster).Disjoint (v.entryChain e)

/-- Every allocated cluster belongs to the root directory or to a live entry. -/
def NoLeak (v : Volume fs) : Prop :=
  ∀ c, fs.InRange c → v.fat c ≠ 0 → c ∈ v.chainOf fs.rootCluster
    ∨ ∃ d, v.DirAt d ∧ ∃ e ∈ v.owned d, c ∈ v.entryChain e

lemma apart_symm {e' : DirectoryEntry} (h : v.Apart e e') : v.Apart e' e :=
  fun _ h₁ h₂ => h h₂ h₁

instance (v : Volume fs) : Std.Symm v.Apart := ⟨fun _ _ => apart_symm⟩

lemma owned_root (v : Volume fs) :
    v.owned fs.rootCluster = (v.listing fs.rootCluster).map (·.1) := by
  unfold owned
  rw [filter_eq_self.mpr]
  intro e _
  simp

lemma entryChain_of_ne (h : e.firstCluster ≠ 0) :
    v.entryChain e = v.chainOf e.firstCluster :=
  if_neg h

lemma entryChain_allocated (he : v.EntryOk e)
    (hc : c ∈ v.entryChain e) : fs.InRange c ∧ v.fat c ≠ 0 := by
  unfold entryChain at hc
  split at hc
  next => simp at hc
  next h0 => exact ⟨chain_inRange (he h0) hc, chain_allocated (he h0) hc⟩

/-- The head of its chain is in the chain of an entry. -/
lemma firstCluster_mem (he : v.EntryOk e)
    (h0 : e.firstCluster ≠ 0) : e.firstCluster ∈ v.entryChain e := by
  rw [entryChain_of_ne h0]
  exact (he h0).mem_head

/-! ## What stays when the volume changes elsewhere -/

/-- The two volumes agree on these clusters. -/
def Agree (v w : Volume fs) (l : List Nat) : Prop :=
    ∀ c ∈ l, w.fat c = v.fat c ∧ w.data c = v.data c

section

variable (h : v.Chained c)
include h

lemma chained_frame (hfat : ∀ b ∈ v.chainOf c, w.fat b = v.fat b) :
    w.Chained c ∧ w.chainOf c = v.chainOf c := by
  have hw := chain_congr h hfat
  exact ⟨chained_of_chain hw, chainOf_eq hw⟩

lemma chainData_frame (ha : Agree v w (v.chainOf c)) : w.chainData c = v.chainData c := by
  have hchain := (chained_frame h fun b hb => (ha b hb).1).2
  unfold chainData
  rw [hchain]
  exact flatMap_congr fun b hb => (ha b hb).2

lemma listing_frame (ha : Agree v w (v.chainOf c)) : w.listing c = v.listing c := by
  unfold listing
  rw [chainData_frame h ha]

lemma owned_frame (ha : Agree v w (v.chainOf c)) : w.owned c = v.owned c := by
  unfold owned
  rw [listing_frame h ha]

end

lemma entryOk_frame {v w : Volume fs} (h : v.EntryOk e)
    (hfat : ∀ b ∈ v.entryChain e, w.fat b = v.fat b) :
    w.EntryOk e ∧ w.entryChain e = v.entryChain e := by
  by_cases h0 : e.firstCluster = 0
  · refine ⟨fun hne => absurd h0 hne, ?_⟩
    unfold entryChain
    rw [if_pos h0, if_pos h0]
  · rw [entryChain_of_ne h0] at hfat
    obtain ⟨hc, heq⟩ := chained_frame (h h0) hfat
    exact ⟨fun _ => hc, by rw [entryChain_of_ne h0, entryChain_of_ne h0, heq]⟩

namespace WellFormed

section

variable (h : v.WellFormed) (hc : v.DirAt c)
include h hc

lemma dirAt_chained : v.Chained c := by
  cases hc with
  | root => exact h.root
  | sub hc he hd => exact h.chained _ hc _ he (h.dirs _ hc _ he hd)

/-- A directory below the root is the chain of an entry that owns it. -/
lemma dirAt_owner (hne : c ≠ fs.rootCluster) :
    ∃ d e, v.DirAt d ∧ e ∈ v.owned d ∧ e.isDirectory = true ∧ e.firstCluster = c
      ∧ v.entryChain e = v.chainOf c := by
  cases hc with
  | root => exact absurd rfl hne
  | @sub d e hd he hdir =>
    exact ⟨d, e, hd, he, hdir, rfl, entryChain_of_ne (h.dirs _ hd _ he hdir)⟩

/-- The root directory is apart from every other directory. -/
lemma dirAt_apart (hne : c ≠ fs.rootCluster) :
    (v.chainOf fs.rootCluster).Disjoint (v.chainOf c) := by
  obtain ⟨d, e, hd, he, _, _, heq⟩ := h.dirAt_owner hc hne
  rw [← heq]
  exact h.apart d hd e he

/-- No entry points back at the root directory. -/
lemma owned_ne_root
    (he : e ∈ v.owned c) (h0 : e.firstCluster ≠ 0) : e.firstCluster ≠ fs.rootCluster := by
  intro heq
  have hfc := firstCluster_mem (h.chained c hc e he) h0
  rw [heq] at hfc
  exact h.apart c hc e he h.root.mem_head hfc

end

/-- The chains of distinct entries of the volume are apart. -/
lemma apart_of_ne (h : v.WellFormed) {c' : Nat} {e' : DirectoryEntry} (hc : v.DirAt c)
    (hc' : v.DirAt c') (he : e ∈ v.owned c) (he' : e' ∈ v.owned c') (hne : e ≠ e') :
    v.Apart e e' := by
  by_cases hcc : c = c'
  · subst hcc
    exact (h.inDir c hc).forall he he' hne
  · exact h.across c c' hc hc' hcc e he e' he'

end WellFormed

/-! ## Exchanging one entry of the root directory -/

/-- From `v` to `w` the root entries `X` were exchanged for `X'` (each at most
one entry without anything below it); the others, `R`, and all they own are as
they were. The new entry takes clusters that were free or in the old chain. -/
structure Replaces (v w : Volume fs) (X X' R : List DirectoryEntry) : Prop where
  before : (v.owned fs.rootCluster).Perm (X ++ R)
  after : (w.owned fs.rootCluster).Perm (X' ++ R)
  one : X'.Pairwise w.Apart
  leaf : ∀ e ∈ X, e.isDirectory = true → v.owned e.firstCluster = []
  leaf' : ∀ e ∈ X', e.isDirectory = true → w.owned e.firstCluster = [] ∧ e.firstCluster ≠ 0
  chained' : ∀ e ∈ X', w.EntryOk e
  taken : ∀ e ∈ X', ∀ c ∈ w.entryChain e, v.fat c = 0 ∨ ∃ x ∈ X, c ∈ v.entryChain x
  same : ∀ c, v.fat c ≠ 0 → (∀ x ∈ X, c ∉ v.entryChain x) → w.fat c = v.fat c
    ∧ (c ∉ v.chainOf fs.rootCluster → w.data c = v.data c)

/-- An entry whose chain the exchange does not touch. -/
def Kept (v : Volume fs) (X : List DirectoryEntry) (e : DirectoryEntry) : Prop :=
  v.EntryOk e ∧ (∀ x ∈ X, v.Apart x e) ∧ (v.chainOf fs.rootCluster).Disjoint (v.entryChain e)

section
variable {X X' R : List DirectoryEntry}

section

variable (r : Replaces v w X X' R)
include r

lemma Replaces.agree (k : Kept v X e) : Agree v w (v.entryChain e) := by
  intro c hc
  have hs := r.same c (entryChain_allocated k.1 hc).2 fun x hx hcx => k.2.1 x hx hcx hc
  exact ⟨hs.1, hs.2 fun hroot => k.2.2 hroot hc⟩

lemma Replaces.kept_frame (k : Kept v X e) : w.EntryOk e ∧ w.entryChain e = v.entryChain e :=
  entryOk_frame k.1 fun b hb => (r.agree k b hb).1

/-- What a new entry takes is apart from everything kept. -/
lemma Replaces.new_apart {x' : DirectoryEntry} (hx' : x' ∈ X')
    (k : Kept v X e) : w.Apart x' e := by
  intro c hc hce
  rw [(r.kept_frame k).2] at hce
  rcases r.taken x' hx' c hc with hfree | ⟨x, hx, hcx⟩
  · exact (entryChain_allocated k.1 hce).2 hfree
  · exact k.2.1 x hx hcx hce

lemma Replaces.mem_before (he : e ∈ X ∨ e ∈ R) : e ∈ v.owned fs.rootCluster :=
  r.before.mem_iff.mpr (mem_append.mpr he)

end

variable (h : v.WellFormed) (r : Replaces v w X X' R)

include h r

lemma Replaces.root_frame :
    w.Chained fs.rootCluster ∧ w.chainOf fs.rootCluster = v.chainOf fs.rootCluster := by
  refine chained_frame h.root fun b hb => (r.same b (chain_allocated h.root hb) ?_).1
  intro x hx hbx
  exact h.apart _ .root x (r.mem_before (.inl hx)) hb hbx

lemma Replaces.kept_rest (he : e ∈ R) : Kept v X e := by
  have hmem := r.mem_before (.inr he)
  refine ⟨h.chained _ .root e hmem, ?_, h.apart _ .root e hmem⟩
  intro x hx
  have hpair := (r.before.pairwise_iff (fun hab => apart_symm hab)).mp (h.inDir _ .root)
  exact (pairwise_append.mp hpair).2.2 x hx e he

lemma Replaces.kept_below (hc : v.DirAt c)
    (hne : c ≠ fs.rootCluster) (he : e ∈ v.owned c) : Kept v X e := by
  refine ⟨h.chained _ hc e he, ?_, h.apart _ hc e he⟩
  intro x hx
  exact h.across _ _ .root hc (Ne.symm hne) x (r.mem_before (.inl hx)) e he

/-- A directory that is not the old entry is listed as before. -/
lemma Replaces.owned_below (hc : v.DirAt c) (hne : c ≠ fs.rootCluster)
    (hX : ∀ x ∈ X, x.isDirectory = true → x.firstCluster ≠ c) :
    w.owned c = v.owned c ∧ w.chainData c = v.chainData c := by
  obtain ⟨d, e, hd, he, hdir, hfc, hchain⟩ := h.dirAt_owner hc hne
  have hk : Kept v X e := by
    by_cases hdr : d = fs.rootCluster
    · subst hdr
      rcases mem_append.mp (r.before.mem_iff.mp he) with heX | heR
      · exact absurd hfc (hX e heX hdir)
      · exact r.kept_rest h heR
    · exact r.kept_below h hd hdr he
  have ha := r.agree hk
  rw [hchain] at ha
  have hch := h.dirAt_chained hc
  exact ⟨owned_frame hch ha, chainData_frame hch ha⟩

/-- An entry with a kept chain is not the old directory. -/
lemma Replaces.kept_ne (k : Kept v X e) (h0 : e.firstCluster ≠ 0) :
    ∀ x ∈ X, x.isDirectory = true → x.firstCluster ≠ e.firstCluster := by
  intro x hx hdir heq
  have hmem := r.mem_before (.inl hx)
  have hx0 := h.dirs _ .root x hmem hdir
  have hcx := firstCluster_mem (h.chained _ .root x hmem) hx0
  rw [heq] at hcx
  exact k.2.1 x hx hcx (firstCluster_mem k.1 h0)

/-- The directories of `w`: those of `v` but the old entry, and the new one. -/
lemma Replaces.dirAt_after (hc : w.DirAt c) :
    (v.DirAt c ∧ ∀ x ∈ X, x.isDirectory = true → x.firstCluster ≠ c)
      ∨ ∃ x' ∈ X', x'.isDirectory = true ∧ x'.firstCluster = c := by
  induction hc with
  | root =>
    refine .inl ⟨.root, ?_⟩
    intro x hx hdir heq
    have hmem := r.mem_before (.inl hx)
    have hcx := firstCluster_mem (h.chained _ .root x hmem) (h.dirs _ .root x hmem hdir)
    rw [heq] at hcx
    exact h.apart _ .root x hmem h.root.mem_head hcx
  | @sub c e hc he hdir ih =>
    rcases ih with ⟨hcv, hX⟩ | ⟨x', hx', hx'dir, rfl⟩
    · by_cases hcr : c = fs.rootCluster
      · subst hcr
        rcases mem_append.mp (r.after.mem_iff.mp he) with heX | heR
        · exact .inr ⟨e, heX, hdir, rfl⟩
        · have hmem := r.mem_before (.inr heR)
          exact .inl ⟨.sub .root hmem hdir,
            r.kept_ne h (r.kept_rest h heR) (h.dirs _ .root e hmem hdir)⟩
      · rw [(r.owned_below h hcv hcr hX).1] at he
        exact .inl ⟨.sub hcv he hdir,
          r.kept_ne h (r.kept_below h hcv hcr he) (h.dirs _ hcv e he hdir)⟩
    · rw [(r.leaf' x' hx' hx'dir).1] at he
      cases he

/-- The directories of `v` are still there, but for the old entry. -/
lemma Replaces.dirAt_before (hc : v.DirAt c) :
    (∃ x ∈ X, x.isDirectory = true ∧ x.firstCluster = c) ∨ w.DirAt c := by
  induction hc with
  | root => exact .inr .root
  | @sub c e hc he hdir ih =>
    by_cases hold : ∃ x ∈ X, x.isDirectory = true ∧ x.firstCluster = c
    · obtain ⟨x, hx, hxdir, rfl⟩ := hold
      rw [r.leaf x hx hxdir] at he
      cases he
    · have hw := ih.resolve_left hold
      by_cases hcr : c = fs.rootCluster
      · subst hcr
        rcases mem_append.mp (r.before.mem_iff.mp he) with heX | heR
        · exact .inl ⟨e, heX, hdir, rfl⟩
        · exact .inr (.sub .root (r.after.mem_iff.mpr (mem_append_right _ heR)) hdir)
      · have hX : ∀ x ∈ X, x.isDirectory = true → x.firstCluster ≠ c :=
          fun x hx hxdir heq => hold ⟨x, hx, hxdir, heq⟩
        rw [← (r.owned_below h hc hcr hX).1] at he
        exact .inr (.sub hw he hdir)

/-- The three kinds of directory after the exchange. -/
lemma Replaces.owned_after (hc : w.DirAt c) :
    c = fs.rootCluster
      ∨ (c ≠ fs.rootCluster ∧ v.DirAt c ∧ w.owned c = v.owned c ∧ w.chainData c = v.chainData c
          ∧ ∀ e ∈ v.owned c, Kept v X e)
      ∨ w.owned c = [] := by
  by_cases hcr : c = fs.rootCluster
  · exact .inl hcr
  · rcases r.dirAt_after h hc with ⟨hcv, hX⟩ | ⟨x', hx', hdir, rfl⟩
    · obtain ⟨ho, hd⟩ := r.owned_below h hcv hcr hX
      exact .inr (.inl ⟨hcr, hcv, ho, hd, fun e he => r.kept_below h hcv hcr he⟩)
    · exact .inr (.inr (r.leaf' x' hx' hdir).1)

/-- An entry of `w` is new or kept. -/
lemma Replaces.new_or_kept (hc : w.DirAt c) (he : e ∈ w.owned c) :
    (c = fs.rootCluster ∧ e ∈ X') ∨ (Kept v X e ∧ ∃ d, v.DirAt d ∧ e ∈ v.owned d
      ∧ (c = fs.rootCluster ∧ d = c ∧ e ∈ R ∨ c ≠ fs.rootCluster ∧ d = c)) := by
  rcases r.owned_after h hc with rfl | ⟨hcr, hcv, ho, _, hk⟩ | ho
  · rcases mem_append.mp (r.after.mem_iff.mp he) with heX | heR
    · exact .inl ⟨rfl, heX⟩
    · exact .inr ⟨r.kept_rest h heR, _, .root, r.mem_before (.inr heR), .inl ⟨rfl, rfl, heR⟩⟩
  · rw [ho] at he
    exact .inr ⟨hk e he, c, hcv, he, .inr ⟨hcr, rfl⟩⟩
  · rw [ho] at he
    cases he

/-- Exchanging a root entry keeps the volume well formed. -/
lemma WellFormed.replace : w.WellFormed := by
  obtain ⟨hroot, hrootChain⟩ := r.root_frame h
  -- an entry of the new volume is the exchanged one or was there before (`new_or_kept`)
  refine ⟨hroot, ?_, ?_, ?_, ?_, ?_⟩
  · intro c hc e he
    rcases r.new_or_kept h hc he with ⟨_, heX⟩ | ⟨hk, _⟩
    · exact r.chained' e heX
    · exact (r.kept_frame hk).1
  · intro c hc e he hdir
    rcases r.new_or_kept h hc he with ⟨_, heX⟩ | ⟨_, d, hd, hed, _⟩
    · exact (r.leaf' e heX hdir).2
    · exact h.dirs d hd e hed hdir
  · intro c hc
    rcases r.owned_after h hc with rfl | ⟨_, hcv, ho, _, hk⟩ | ho
    · -- in the root itself: the rest of the entries kept their clusters, the new one is apart
      refine (r.after.pairwise_iff (fun hab => apart_symm hab)).mpr ?_
      have hpair := (r.before.pairwise_iff (fun hab => apart_symm hab)).mp (h.inDir _ .root)
      refine pairwise_append.mpr ⟨r.one, ?_, ?_⟩
      · refine (pairwise_append.mp hpair).2.1.imp_of_mem fun ha hb hab => ?_
        unfold Apart
        rw [(r.kept_frame (r.kept_rest h ha)).2, (r.kept_frame (r.kept_rest h hb)).2]
        exact hab
      · intro x' hx' e he
        exact r.new_apart hx' (r.kept_rest h he)
    · rw [ho]
      refine (h.inDir c hcv).imp_of_mem fun ha hb hab => ?_
      unfold Apart
      rw [(r.kept_frame (hk _ ha)).2, (r.kept_frame (hk _ hb)).2]
      exact hab
    · rw [ho]
      exact List.Pairwise.nil
  · intro c c' hc hc' hne e he e' he'
    rcases r.new_or_kept h hc he with ⟨rfl, heX⟩ | ⟨hk, d, hd, hed, hdc⟩
    · rcases r.new_or_kept h hc' he' with ⟨rfl, _⟩ | ⟨hk', _⟩
      · exact absurd rfl hne
      · exact r.new_apart heX hk'
    · rcases r.new_or_kept h hc' he' with ⟨_, heX'⟩ | ⟨hk', d', hd', hed', hdc'⟩
      · exact apart_symm (r.new_apart heX' hk)
      · have hdd : d ≠ d' := by
          rcases hdc with ⟨_, rfl, _⟩ | ⟨_, rfl⟩ <;> rcases hdc' with ⟨_, rfl, _⟩ | ⟨_, rfl⟩ <;>
            exact hne
        unfold Apart
        rw [(r.kept_frame hk).2, (r.kept_frame hk').2]
        exact h.across d d' hd hd' hdd e hed e' hed'
  · intro c hc e he
    rw [hrootChain]
    rcases r.new_or_kept h hc he with ⟨_, heX⟩ | ⟨hk, _⟩
    · intro b hb hbe
      rcases r.taken e heX b hbe with hfree | ⟨x, hx, hbx⟩
      · exact chain_allocated h.root hb hfree
      · exact h.apart _ .root x (r.mem_before (.inl hx)) hb hbx
    · rw [(r.kept_frame hk).2]
      exact hk.2.2

/-- If the clusters allocated after the exchange are those of the new entry and
the kept ones, nothing leaks. -/
lemma NoLeak.replace (hl : v.NoLeak)
    (hnew : ∀ c, fs.InRange c → w.fat c ≠ 0 → (∃ x' ∈ X', c ∈ w.entryChain x')
      ∨ (v.fat c ≠ 0 ∧ ∀ x ∈ X, c ∉ v.entryChain x)) : w.NoLeak := by
  intro c hr ha
  rcases hnew c hr ha with ⟨x', hx', hc⟩ | ⟨hav, hX⟩
  · exact .inr ⟨_, .root, x', r.after.mem_iff.mpr (mem_append_left _ hx'), hc⟩
  · rcases hl c hr hav with hroot | ⟨d, hd, e, he, hce⟩
    · rw [(r.root_frame h).2]
      exact .inl hroot
    · by_cases hdr : d = fs.rootCluster
      · subst hdr
        rcases mem_append.mp (r.before.mem_iff.mp he) with heX | heR
        · exact absurd hce (hX e heX)
        · refine .inr ⟨_, .root, e, r.after.mem_iff.mpr (mem_append_right _ heR), ?_⟩
          rw [(r.kept_frame (r.kept_rest h heR)).2]
          exact hce
      · have hold : ∀ x ∈ X, x.isDirectory = true → x.firstCluster ≠ d := by
          rintro x hx hdir rfl
          rw [r.leaf x hx hdir] at he
          cases he
        have hw : w.DirAt d := by
          rcases r.dirAt_before h hd with ⟨x, hx, hdir, heq⟩ | hw
          · exact absurd heq (hold x hx hdir)
          · exact hw
        refine .inr ⟨d, hw, e, ?_, ?_⟩
        · rw [(r.owned_below h hd hdr hold).1]
          exact he
        · rw [(r.kept_frame (r.kept_below h hd hdr he)).2]
          exact hce

end

end Volume

end RustOs.Fs.Fat32
