import RustOs.Fs.Fat32.Operations

/-!
# Chains that may be broken

`Chained` is a chain that ends. What the driver meets on a disk may also run into
an entry that is no cluster, turn back into itself or leave the data area.
`Inside` excludes only the last. The loop that frees a chain then clears one
cluster after the other and comes to an end, since a cluster it has cleared
leads nowhere any more; `Freed` says which clusters it clears and whether it
finds an end mark, and `freeClusterChainFrom_freed` that the driver does so.
-/

namespace RustOs.Fs.Fat32

open Lib Drivers List

variable {fs : Fat32} {r : Bool}

namespace Volume

variable {v w : Volume fs} {c b : Nat} {l : List Nat}

/-- One link of the FAT. -/
def Leads (v : Volume fs) (a b : Nat) : Prop := v.link a = .next b

/-- The links from `c` on do not leave the data area. -/
def Inside (v : Volume fs) (c : Nat) : Prop :=
  ∀ b, Relation.ReflTransGen v.Leads c b → fs.InRange b

lemma Inside.here (h : v.Inside c) : fs.InRange c := h c .refl

lemma Inside.next (h : v.Inside c) (hn : v.link c = .next b) : v.Inside b :=
  fun x hx => h x (.head hn hx)

/-- With fewer links one gets nowhere else. -/
lemma Inside.mono (h : v.Inside c) (hsub : ∀ a b, w.Leads a b → v.Leads a b) : w.Inside c :=
  fun b hb => h b (Relation.ReflTransGen.mono hsub _ _ hb)

lemma Inside.congr (h : v.Inside c) (hfat : w.fat = v.fat) : w.Inside c := by
  refine h.mono fun a b hab => ?_
  unfold Leads link at hab ⊢
  rwa [hfat] at hab

/-- A chain is all that its head leads to. -/
lemma mem_of_leads (h : Chain v.link c l) (hb : Relation.ReflTransGen v.Leads c b) : b ∈ l := by
  induction h with
  | last hs =>
    rcases hb.cases_head with rfl | ⟨x, hx, _⟩
    · exact mem_cons_self
    · exact nomatch hs.symm.trans hx
  | cons hn t ih =>
    rcases hb.cases_head with rfl | ⟨x, hx, hxb⟩
    · exact mem_cons_self
    · injection hn.symm.trans hx with hbx
      subst hbx
      exact mem_cons_of_mem _ (ih hxb)

lemma inside_of_chain (h : Chain v.link c l) : v.Inside c :=
  fun _ hb => chain_inRange h (mem_of_leads h hb)

/-- A cluster whose entry is no link leads nowhere. -/
lemma leads_setFat {x a : Nat} (hx : x < 2 ∨ 0x0FFFFFF8 ≤ x) (h : (v.setFat c x).Leads a b) :
    v.Leads a b := by
  by_cases hac : a = c
  · obtain ⟨hfat, h2, hlt⟩ := link_eq_next h
    rw [setFat_fat, if_pos hac] at hfat
    omega
  · unfold Leads link at h ⊢
    rwa [setFat_fat, if_neg hac] at h

lemma leads_clear {a : Nat} (h : (v.clear l).Leads a b) : v.Leads a b := by
  by_cases hal : a ∈ l
  · obtain ⟨hfat, h2, -⟩ := link_eq_next h
    rw [clear_fat, if_pos hal] at hfat
    omega
  · unfold Leads link at h ⊢
    rwa [clear_fat, if_neg hal] at h

/-- What the loop of `free_cluster_chain` does from `c` on: it clears the
clusters `l` one after the other, up to an end mark (`true`) or up to a cluster
whose entry is no cluster (`false`), which may be one it has cleared itself. -/
inductive Freed : Volume fs → Nat → List Nat → Bool → Prop where
  | bad {v : Volume fs} {c : Nat} (hc : fs.InRange c) (h : v.link c = .bad) : Freed v c [] false
  | last {v : Volume fs} {c : Nat} (h : v.link c = .stop) : Freed v c [c] true
  | next {v : Volume fs} {c b : Nat} {l : List Nat} {r : Bool} (h : v.link c = .next b)
      (t : Freed (v.setFat c 0) b l r) : Freed v c (c :: l) r

/-- There is one way to free a chain. -/
lemma Freed.unique {l' : List Nat} {r r' : Bool} (h : Freed v c l r) (h' : Freed v c l' r') :
    l = l' ∧ r = r' := by
  induction h generalizing l' with
  | bad hc hb =>
    cases h' with
    | bad _ _ => exact ⟨rfl, rfl⟩
    | last hs => exact nomatch hb.symm.trans hs
    | next hn _ => exact nomatch hb.symm.trans hn
  | last hs =>
    cases h' with
    | bad _ hb => exact nomatch hs.symm.trans hb
    | last _ => exact ⟨rfl, rfl⟩
    | next hn _ => exact nomatch hs.symm.trans hn
  | next hn _ ih =>
    cases h' with
    | bad _ hb => exact nomatch hn.symm.trans hb
    | last hs => exact nomatch hn.symm.trans hs
    | next hn' t' =>
      injection hn.symm.trans hn' with hb
      subst hb
      obtain ⟨rfl, rfl⟩ := ih t'
      exact ⟨rfl, rfl⟩

/-- The clusters that are cleared were in use, and each is cleared once. -/
lemma Freed.allocated (h : Freed v c l r) :
    l.Nodup ∧ ∀ b ∈ l, fs.InRange b ∧ v.fat b ≠ 0 := by
  induction h with
  | bad _ _ => exact ⟨nodup_nil, fun b hb => nomatch hb⟩
  | @last v c hs =>
    have hne : v.link c ≠ .bad := by rw [hs]; exact fun h => nomatch h
    refine ⟨nodup_singleton _, fun b hb => ?_⟩
    rw [mem_singleton.mp hb]
    exact ⟨inRange_of_link hne, fat_ne_zero_of_link hne⟩
  | @next v c b l r hn t ih =>
    have hne : v.link c ≠ .bad := by rw [hn]; exact fun h => nomatch h
    have hrest : ∀ x ∈ l, x ≠ c ∧ fs.InRange x ∧ v.fat x ≠ 0 := by
      intro x hx
      obtain ⟨hr, h0⟩ := ih.2 x hx
      rw [setFat_fat] at h0
      by_cases hxc : x = c
      · rw [if_pos hxc] at h0
        exact absurd rfl h0
      · rw [if_neg hxc] at h0
        exact ⟨hxc, hr, h0⟩
    refine ⟨nodup_cons.mpr ⟨fun hc => (hrest c hc).1 rfl, ih.1⟩, fun x hx => ?_⟩
    rcases mem_cons.mp hx with rfl | hx
    · exact ⟨inRange_of_link hne, fat_ne_zero_of_link hne⟩
    · exact (hrest x hx).2

/-- A chain that ends is freed whole. -/
lemma freed_of_chain : ∀ {l : List Nat} {v : Volume fs} {c : Nat}, Chain v.link c l →
    Freed v c l true := by
  intro l
  induction l with
  | nil => exact fun h => absurd rfl h.ne_nil
  | cons x l ih =>
    intro v c h
    have hnd := h.nodup
    cases h with
    | last hs => exact .last hs
    | @cons _ b _ hn t =>
      rw [nodup_cons] at hnd
      refine .next hn (ih (chain_congr t fun y hy => ?_))
      have hne : y ≠ x := fun h => hnd.1 (h ▸ hy)
      rw [setFat_fat, if_neg hne]

lemma Freed.chain (h : Freed v c l r) (hr : r = true) : Chain v.link c l := by
  induction h with
  | bad _ _ => cases hr
  | last hs => exact .last hs
  | @next v c b l r hn t ih =>
    refine .cons hn (chain_congr (ih hr) fun y hy => ?_)
    have h0 := (t.allocated.2 y hy).2
    rw [setFat_fat] at h0 ⊢
    split at h0
    next => exact absurd rfl h0
    next hne => rw [if_neg hne]

/-- The entry of the cluster is no cluster and no end mark. -/
def Broken (v : Volume fs) (c : Nat) : Prop := fs.InRange c ∧ v.link c = .bad

/-- Freeing from `c` on clears a whole chain, or nothing. -/
def Freeable (v : Volume fs) (c : Nat) : Prop := v.Chained c ∨ v.Broken c

lemma Freed.freeable_iff (h : Freed v c l r) : v.Freeable c ↔ r = true ∨ l = [] := by
  constructor
  · intro hf
    rcases hf with hchain | ⟨hc, hbad⟩
    · exact .inl (h.unique (freed_of_chain hchain)).2
    · exact .inr (h.unique (.bad hc hbad)).1
  · intro hr
    rcases hr with hr | hl
    · exact .inl (chained_of_chain (h.chain hr))
    · subst hl
      cases h with
      | bad hc hb => exact .inr ⟨hc, hb⟩

lemma Freeable.freed (h : v.Freeable c) : ∃ l r, Freed v c l r := by
  rcases h with hchain | ⟨hc, hbad⟩
  · exact ⟨_, true, freed_of_chain hchain⟩
  · exact ⟨[], false, .bad hc hbad⟩

lemma freeList_length_le (v : Volume fs) : v.freeList.length ≤ fs.totalClusters := by
  have h := length_filter_le (fun c => decide (v.fat c = 0)) (List.range' 2 fs.totalClusters)
  rwa [length_range'] at h

/-- Clearing clusters in use makes that many more free. -/
lemma freeList_length_clear (hnd : l.Nodup) (h : ∀ b ∈ l, fs.InRange b ∧ v.fat b ≠ 0) :
    (v.clear l).freeList.length = v.freeList.length + l.length := by
  rw [(freeList_clear_perm v hnd (fun b hb => (h b hb).1) fun b hb => (h b hb).2).length_eq,
    length_append]

/-- The loop has fuel for what it clears. -/
lemma Freed.length_lt_fuel (g : Geometry fs) (h : Freed v c l r) :
    l.length < chainFuel := by
  have hlen := freeList_length_clear h.allocated.1 h.allocated.2
  have hle := freeList_length_le (v.clear l)
  have hnum := g.numbers
  unfold chainFuel
  omega

/-- The loop comes to an end as long as it stays inside: each turn makes one more
cluster free. -/
lemma Inside.freed : ∀ (n : Nat) {v : Volume fs} {c : Nat}, v.Inside c →
    fs.totalClusters < v.freeList.length + n → ∃ l r, Freed v c l r := by
  intro n
  induction n with
  | zero =>
    intro v c _ hlt
    have := freeList_length_le v
    omega
  | succ n ih =>
    intro v c h hlt
    rcases hlink : v.link c with b | _ | _
    · have hne : v.link c ≠ .bad := by rw [hlink]; exact fun h => nomatch h
      have hclear : (v.setFat c 0).freeList.length = v.freeList.length + 1 := by
        rw [← clear_singleton]
        refine freeList_length_clear (nodup_singleton c) fun b hb => ?_
        rw [mem_singleton.mp hb]
        exact ⟨h.here, fat_ne_zero_of_link hne⟩
      have hin : (v.setFat c 0).Inside b :=
        (h.next hlink).mono fun x y => leads_setFat (.inl (by omega))
      obtain ⟨l, r, hl⟩ := ih hin (by omega)
      exact ⟨c :: l, r, .next hlink hl⟩
    · exact ⟨[c], true, .last hlink⟩
    · exact ⟨[], false, .bad h.here hlink⟩

end Volume

variable {R : Disk → Volume fs → Prop} (g : Geometry fs) {v : Volume fs} {l : List Nat}

/-- Freeing stops where the chain breaks. -/
lemma freeClusterChainFrom_freed [Table g R] {c : Nat}
    (h : Volume.Freed v c l r) : ∀ fuel, l.length < fuel →
      Runs R (fs.freeClusterChainFrom fuel c) v
        (if r then .ok l.length else .err "Invalid cluster number in FAT") (v.clear l) := by
  induction h with
  | @bad v c hc hb =>
    intro fuel hf
    obtain ⟨fuel, rfl⟩ : ∃ k, fuel = k + 1 := ⟨fuel - 1, by omega⟩
    have hnext := getNextCluster_runs (R := R) g v hc
    rw [hb] at hnext
    exact .bind_err hnext
  | @last v c hs =>
    intro fuel hf
    obtain ⟨fuel, rfl⟩ : ∃ k, fuel = k + 1 := ⟨fuel - 1, by omega⟩
    exact freeClusterChainFrom_runs g (fuel + 1) v c [c] (.last hs)
      (Nat.succ_le_succ (Nat.zero_le _))
  | @next v c b l r hn t ih =>
    intro fuel hf
    obtain ⟨fuel, rfl⟩ : ∃ k, fuel = k + 1 := ⟨fuel - 1, by omega⟩
    have hc : fs.InRange c := Volume.inRange_of_link (by rw [hn]; exact fun h => nomatch h)
    have hnext := getNextCluster_runs (R := R) g v hc
    rw [hn] at hnext
    have hrec := ih fuel (by rw [length_cons] at hf; omega)
    rw [Volume.setFat_clear] at hrec
    refine .bind hnext (.bind (Table.writeFatEntry g v 0 hc) ?_)
    cases r with
    | true => exact .bind hrec (.pure _)
    | false => exact .bind_err hrec

/-! ## Freeing what an entry names -/

namespace Volume

variable {v : Volume fs} {e : DirectoryEntry} {l : List Nat}

/-- What `write` and `delete` free of an entry: nothing if its cluster is 0. -/
def EntryFreed (v : Volume fs) (e : DirectoryEntry) (l : List Nat) (r : Bool) : Prop :=
  if e.firstCluster = 0 then l = [] ∧ r = true else Freed v e.firstCluster l r

lemma EntryFreed.allocated (h : v.EntryFreed e l r) :
    l.Nodup ∧ ∀ b ∈ l, fs.InRange b ∧ v.fat b ≠ 0 := by
  unfold EntryFreed at h
  split at h
  next =>
    rw [h.1]
    exact ⟨nodup_nil, fun b hb => nomatch hb⟩
  next => exact h.allocated

lemma EntryFreed.unique {l' : List Nat} {r' : Bool} (h : v.EntryFreed e l r)
    (h' : v.EntryFreed e l' r') : l = l' ∧ r = r' := by
  unfold EntryFreed at h h'
  split at h
  next h0 =>
    rw [if_pos h0] at h'
    exact ⟨h.1.trans h'.1.symm, h.2.trans h'.2.symm⟩
  next h0 =>
    rw [if_neg h0] at h'
    exact Freed.unique h h'

lemma entryFreed_of_entryOk (h : v.EntryOk e) : v.EntryFreed e (v.entryChain e) true := by
  unfold EntryFreed entryChain
  split
  next => exact ⟨rfl, rfl⟩
  next h0 => exact freed_of_chain (h h0)

lemma entryFreed_of_broken (h : v.Broken e.firstCluster) : v.EntryFreed e [] false := by
  have h0 : e.firstCluster ≠ 0 := by
    have := h.1.1
    omega
  unfold EntryFreed
  rw [if_neg h0]
  exact .bad h.1 h.2

/-- An entry that is freed to the end names a chain, or nothing. -/
lemma EntryFreed.entryOk (h : v.EntryFreed e l true) : v.EntryOk e ∧ v.entryChain e = l := by
  unfold EntryFreed at h
  unfold EntryOk entryChain
  split at h
  next h0 =>
    rw [if_pos h0]
    exact ⟨fun hne => absurd h0 hne, h.1.symm⟩
  next h0 =>
    rw [if_neg h0]
    have hchain := h.chain rfl
    exact ⟨fun _ => chained_of_chain hchain, chainOf_eq hchain⟩

lemma EntryFreed.broken (h : v.EntryFreed e [] false) : v.Broken e.firstCluster := by
  unfold EntryFreed at h
  split at h
  next => exact nomatch h.2
  next =>
    cases h with
    | bad hc hb => exact ⟨hc, hb⟩

lemma exists_entryFreed (h : e.firstCluster ≠ 0 → v.Inside e.firstCluster) :
    ∃ l r, v.EntryFreed e l r := by
  unfold EntryFreed
  by_cases h0 : e.firstCluster = 0
  · exact ⟨[], true, by rw [if_pos h0]; exact ⟨rfl, rfl⟩⟩
  · obtain ⟨l, r, hl⟩ := (h h0).freed (fs.totalClusters + 1) (by omega)
    exact ⟨l, r, by rw [if_neg h0]; exact hl⟩

end Volume

lemma freeClusterChain_freed [Medium g R] {c : Nat}
    (h : Volume.Freed v c l r) :
    Runs R (fs.freeClusterChain c) v
      (if r then .ok () else .err "Invalid cluster number in FAT") (v.clear l) := by
  have hrun := freeClusterChainFrom_freed (R := R) g h chainFuel (h.length_lt_fuel g)
  cases r with
  | true =>
    refine .bind hrun ?_
    exact .bind (.attempt_ok (Medium.updateFsinfo g _ _ 0)) (.pure _)
  | false => exact .bind_err hrun

/-- `freeEntry` on an entry whose chain may be broken. -/
lemma freeEntry_freed [Medium g R] {e : DirectoryEntry}
    (h : v.EntryFreed e l r) :
    Runs R (fs.freeEntry e) v (if r then .ok () else .err .ioError) (v.clear l) := by
  unfold Volume.EntryFreed at h
  unfold freeEntry
  split at h
  next h0 =>
    obtain ⟨rfl, rfl⟩ := h
    rw [if_neg (not_not_intro h0), Volume.clear_nil]
    exact .pure _
  next h0 =>
    rw [if_pos h0]
    have hrun := (freeClusterChain_freed (R := R) g h).mapErr fun _ => VfsError.ioError
    cases r <;> exact hrun

end RustOs.Fs.Fat32
