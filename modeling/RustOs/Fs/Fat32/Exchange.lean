import RustOs.Fs.Fat32.Tree

/-!
# One root slot exchanged

The driver's directory writers replace one slot of the root directory. Here the
slot is split off (`A ++ raw :: B`), and the listing before and after is the
same but for what that slot reports. Each operation that goes through is then a
`Replaces`: `overwrite_replaces`, `create_replaces` and `remove_replaces`.
-/

namespace RustOs.Fs.Fat32

open Lib DirectoryEntry LfnState Drivers
open DirectoryEntry (ofBytes)
open List

variable {fs : Fat32} {raw : List UInt8}

/-- What a slot adds to a listing. -/
def liveOf (raw : List UInt8) : List DirectoryEntry :=
  if isLive raw then [DirectoryEntry.ofBytes raw] else []

lemma liveOf_live {raw : List UInt8} (h : isLive raw = true) : liveOf raw = [ofBytes raw] :=
  if_pos h

lemma liveOf_free {raw : List UInt8} (h : (ofBytes raw).isFree = true) : liveOf raw = [] := by
  refine if_neg ?_
  unfold isLive live
  rw [h]
  exact Bool.false_ne_true

lemma isFree_of_isLive (h : isLive raw = true) :
    (ofBytes raw).isFree = false := by
  unfold isLive live at h
  simp only [Bool.and_eq_true, Bool.not_eq_true'] at h
  exact h.1.1

/-- A live slot is no end mark. -/
lemma isLast_of_isLive (h : isLive raw = true) : (ofBytes raw).isLast = false :=
  isLast_of_not_isFree (isFree_of_isLive h)

/-- If the slot is the end mark, the slots behind it report nothing either, up to the next
end mark. -/
def NoStale (raw : List UInt8) (B : List (List UInt8)) : Prop :=
  (DirectoryEntry.ofBytes raw).isLast = true → scanSlots B LfnState.init = []

lemma noStale_of_not_last (h : (ofBytes raw).isLast = false) (B : List (List UInt8)) :
    NoStale raw B := by
  intro hlast
  rw [h] at hlast
  cases hlast

/-- The listing of a directory around a slot that is live or free. -/
lemma scanSlots_around {A B : List (List UInt8)} (hB : NoStale raw B) (hA : NoEnd A)
    (hraw : isLive raw = true ∨ (ofBytes raw).isFree = true) :
    scanSlots (A ++ raw :: B) init
      = scanSlots A init
        ++ (liveOf raw).map (fun e => (e, (lfnAfter A).nameFor e.name))
        ++ scanSlots B init := by
  rcases hraw with hlive | hfree
  · rw [scanSlots_at hA hlive, liveOf_live hlive]
    simp
  · rw [liveOf_free hfree, map_nil, append_nil]
    cases hlast : (ofBytes raw).isLast with
    | false => exact scanSlots_delete hA hfree hlast
    | true => rw [scanSlots_at_end hA hlast, hB hlast, append_nil]

/-- The entries of a directory apart from one slot. -/
def others (A B : List (List UInt8)) : List DirectoryEntry :=
  (scanSlots A LfnState.init ++ scanSlots B LfnState.init).map (·.1)

namespace Volume

/-- The entries of the root: that of the slot, and the others. -/
lemma owned_root_perm {v : Volume fs} {A B : List (List UInt8)}
    (hS : v.rootSlots = A ++ raw :: B) (hB : NoStale raw B) (hA : NoEnd A)
    (hraw : isLive raw = true ∨ (ofBytes raw).isFree = true) :
    (v.owned fs.rootCluster).Perm (liveOf raw ++ others A B) := by
  have hlist : v.listing fs.rootCluster = scanSlots v.rootSlots init := rfl
  rw [hS] at hlist
  rw [owned_root, hlist, scanSlots_around hB hA hraw, others, map_append, map_append,
    map_append, map_map]
  have hid : (liveOf raw).map ((fun x : DirectoryEntry × Option Str => x.1)
      ∘ fun e => (e, (lfnAfter A).nameFor e.name)) = liveOf raw := by simp [Function.comp_def]
  rw [hid, append_assoc]
  exact perm_append_comm_assoc _ _ _

/-- Clusters given back and free ones filled: what is allocated elsewhere stays. -/
lemma refill_same (v : Volume fs) (l : List Nat) (n : Nat) (data : List UInt8) {c : Nat}
    (ha : v.fat c ≠ 0) (hl : c ∉ l) :
    ((v.clear l).fill n data).fat c = v.fat c ∧ ((v.clear l).fill n data).data c = v.data c := by
  have hclear : (v.clear l).fat c = v.fat c := if_neg hl
  have hnot : c ∉ (v.clear l).freeList.take n := by
    intro hc
    have hzero := (mem_freeList.mp (mem_of_mem_take hc)).2
    rw [hclear] at hzero
    exact ha hzero
  rw [fill_fat n data hnot, fill_data n data hnot, hclear]
  exact ⟨rfl, rfl⟩

/-- The volume agrees with `v` on the root directory, so its slots are the same. -/
lemma rootSlots_frame {v w : Volume fs} (hroot : v.Chained fs.rootCluster)
    (ha : Agree v w (v.chainOf fs.rootCluster)) :
    w.Chained fs.rootCluster ∧ w.chainOf fs.rootCluster = v.chainOf fs.rootCluster
      ∧ w.rootSlots = v.rootSlots := by
  obtain ⟨hc, heq⟩ := chained_frame hroot fun b hb => (ha b hb).1
  refine ⟨hc, heq, ?_⟩
  unfold rootSlots
  rw [chainData_frame hroot ha]

variable {A B : List (List UInt8)}

/-- One slot of the root directory overwritten. -/
lemma setSlot_exchange {W : Volume fs} (hroot : W.Chained fs.rootCluster)
    {raw bs : List UInt8} (hS : W.rootSlots = A ++ raw :: B) (hbs : bs.length = 32) :
    (W.setSlot A.length bs).rootSlots = A ++ bs :: B := by
  have hidx : A.length < W.rootSlots.length := by
    rw [hS, length_append, length_cons]
    omega
  rw [setSlot_rootSlots hroot hidx hbs, hS]
  simp

/-- A slot of the root directory exchanged after the clusters were moved: the
general form of the three `_replaces` theorems. -/
lemma replaces_of_slot {v W w : Volume fs}
    {raw raw' : List UInt8} (hS : v.rootSlots = A ++ raw :: B) (hB : NoStale raw B) (hA : NoEnd A)
    (hraw : isLive raw = true ∨ (ofBytes raw).isFree = true)
    (hraw' : isLive raw' = true ∨ (ofBytes raw').isFree = true)
    (hlast' : (ofBytes raw').isLast = false)
    (hW : ∀ c, v.fat c ≠ 0 → (∀ x ∈ liveOf raw, c ∉ v.entryChain x) →
      W.fat c = v.fat c ∧ W.data c = v.data c)
    (hfat : w.fat = W.fat) (hdata : ∀ c, c ∉ v.chainOf fs.rootCluster → w.data c = W.data c)
    (hslots : w.rootSlots = A ++ raw' :: B)
    (leaf : ∀ e ∈ liveOf raw, e.isDirectory = true → v.owned e.firstCluster = [])
    (leaf' : ∀ e ∈ liveOf raw', e.isDirectory = true →
      w.owned e.firstCluster = [] ∧ e.firstCluster ≠ 0)
    (chained' : ∀ e ∈ liveOf raw', w.EntryOk e)
    (taken : ∀ e ∈ liveOf raw', ∀ c ∈ w.entryChain e,
      v.fat c = 0 ∨ ∃ x ∈ liveOf raw, c ∈ v.entryChain x) :
    Replaces v w (liveOf raw) (liveOf raw') (others A B) := by
  refine ⟨owned_root_perm hS hB hA hraw,
    owned_root_perm hslots (noStale_of_not_last hlast' B) hA hraw',
    ?_, leaf, leaf', chained', taken, ?_⟩
  · unfold liveOf
    split
    · exact pairwise_singleton _ _
    · exact List.Pairwise.nil
  · intro c ha hX
    obtain ⟨h₁, h₂⟩ := hW c ha hX
    rw [hfat]
    refine ⟨h₁, fun hroot => ?_⟩
    rw [hdata c hroot, h₂]

/-- The root directory is apart from what an overwrite or a removal moves. -/
lemma root_agree {v W : Volume fs} (h : v.WellFormed) {X : List DirectoryEntry}
    (hX : ∀ x ∈ X, x ∈ v.owned fs.rootCluster)
    (hW : ∀ c, v.fat c ≠ 0 → (∀ x ∈ X, c ∉ v.entryChain x) →
      W.fat c = v.fat c ∧ W.data c = v.data c) :
    Agree v W (v.chainOf fs.rootCluster) := by
  intro c hc
  refine hW c (chain_allocated h.root hc) fun x hx hcx => ?_
  exact h.apart _ .root x (hX x hx) hc hcx

/-- A live slot of the root directory is one of its entries. -/
lemma mem_owned_root {v : Volume fs}
    (hS : v.rootSlots = A ++ raw :: B) (hA : NoEnd A) (hlive : isLive raw = true) :
    ofBytes raw ∈ v.owned fs.rootCluster := by
  have hp := owned_root_perm hS (noStale_of_not_last (isLast_of_isLive hlive) B) hA (.inl hlive)
  rw [liveOf_live hlive] at hp
  exact hp.mem_iff.mpr mem_cons_self

/-- The root directory is apart from the clusters given back and the free ones. -/
lemma refill_agree {v : Volume fs} (hroot : v.Chained fs.rootCluster) {l : List Nat}
    (hl : (v.chainOf fs.rootCluster).Disjoint l) (n : Nat) (data : List UInt8) :
    Agree v ((v.clear l).fill n data) (v.chainOf fs.rootCluster) :=
  fun _ hc => refill_same v l n data (chain_allocated hroot hc) fun hcl => hl hc hcl

/-! ## The exchanges the driver makes -/

section
variable {v : Volume fs} {A B : List (List UInt8)} {raw : List UInt8} {l : List Nat}

/-- `l` holds the clusters of what the slot reports. -/
def ClustersOf (v : Volume fs) (raw : List UInt8) (l : List Nat) : Prop :=
  ∀ c, c ∈ l ↔ ∃ x ∈ liveOf raw, c ∈ v.entryChain x

lemma clustersOf_live (hlive : isLive raw = true) :
    ClustersOf v raw (v.entryChain (ofBytes raw)) := by
  intro c
  rw [liveOf_live hlive]
  simp

lemma clustersOf_free (hfree : (ofBytes raw).isFree = true) : ClustersOf v raw [] := by
  intro c
  rw [liveOf_free hfree]
  simp

lemma ClustersOf.not_mem (hl : ClustersOf v raw l) {c : Nat}
    (h : ∀ x ∈ liveOf raw, c ∉ v.entryChain x) : c ∉ l := by
  intro hc
  obtain ⟨x, hx, hcx⟩ := (hl c).mp hc
  exact h x hx hcx

/-- After clusters were given back and others filled, the allocated ones are the
new ones and those that were allocated elsewhere. -/
lemma fill_allocated (hl : ClustersOf v raw l) {n : Nat} {data bs : List UInt8} {i c : Nat}
    (ha : (((v.clear l).fill n data).setSlot i bs).fat c ≠ 0) :
    c ∈ (v.clear l).freeList.take n ∨ (v.fat c ≠ 0 ∧ ∀ x ∈ liveOf raw, c ∉ v.entryChain x) := by
  by_cases hc : c ∈ (v.clear l).freeList.take n
  · exact .inl hc
  · rw [setSlot_fat, fill_fat n data hc, clear_fat] at ha
    split at ha
    next => exact absurd rfl ha
    next hcl => exact .inr ⟨ha, fun x hx hcx => hcl ((hl c).mpr ⟨x, hx, hcx⟩)⟩

variable (h : v.WellFormed) (hS : v.rootSlots = A ++ raw :: B) (hA : NoEnd A)
  (hraw : isLive raw = true ∨ (DirectoryEntry.ofBytes raw).isFree = true)

include hS hA in
lemma liveOf_owned : ∀ x ∈ liveOf raw, x ∈ v.owned fs.rootCluster := by
  intro x hx
  unfold liveOf at hx
  split at hx
  next hlive => exact mem_singleton.mp hx ▸ mem_owned_root hS hA hlive
  next => exact absurd hx not_mem_nil

variable (hl : ClustersOf v raw l)

include h hS hA hl

/-- The root directory after the clusters were given back and others filled. -/
lemma refill_root (n : Nat) (data : List UInt8) :
    ((v.clear l).fill n data).Chained fs.rootCluster
      ∧ ((v.clear l).fill n data).chainOf fs.rootCluster = v.chainOf fs.rootCluster
      ∧ ((v.clear l).fill n data).rootSlots = v.rootSlots :=
  rootSlots_frame h.root (root_agree h (liveOf_owned hS hA) fun _ ha hX =>
    refill_same v l n data ha (hl.not_mem hX))

lemma clear_root :
    (v.clear l).Chained fs.rootCluster
      ∧ (v.clear l).chainOf fs.rootCluster = v.chainOf fs.rootCluster
      ∧ (v.clear l).rootSlots = v.rootSlots :=
  rootSlots_frame h.root (root_agree h (liveOf_owned hS hA) fun _ _ hX =>
    ⟨if_neg (hl.not_mem hX), rfl⟩)

/-- The clusters the allocator took are apart from the root directory. -/
lemma refill_disjoint (n : Nat) :
    (v.chainOf fs.rootCluster).Disjoint ((v.clear l).freeList.take n) := by
  intro c hroot hc
  have hfree := (mem_freeList.mp (mem_of_mem_take hc)).2
  rw [clear_fat] at hfree
  split at hfree
  next hcl =>
    obtain ⟨x, hx, hcx⟩ := (hl c).mp hcl
    exact h.apart _ .root x (liveOf_owned hS hA x hx) hroot hcx
  next => exact chain_allocated h.root hroot hfree

/-- The bytes of the chain just filled, after the root directory was written. -/
lemma refill_chainData (g : Geometry fs) {n : Nat} (hn : 0 < n)
    (hle : n ≤ (v.clear l).freeList.length) {data : List UInt8}
    (hfit : data.length ≤ n * fs.clusterSize) (i : Nat) (bs : List UInt8) :
    ((((v.clear l).fill n data).setSlot i bs).chainData (v.clear l).firstFree).take
      data.length = data
      ∧ ((((v.clear l).fill n data).setSlot i bs).chainData (v.clear l).firstFree).length
          = n * fs.clusterSize := by
  rw [setSlot_chainData_of_disjoint]
  · exact fill_chainData g hn hle hfit
  · rw [(refill_root h hS hA hl n data).2.1, chainOf_eq (chain_fill g hn hle data).2]
    exact refill_disjoint h hS hA hl n

variable (hB : NoStale raw B)
include hraw hB

/-- An entry that heads the clusters just filled takes the slot. -/
lemma fill_replaces (g : Geometry fs) {n : Nat} (hn : 0 < n)
    (hle : n ≤ (v.clear l).freeList.length) (data : List UInt8) {f : DirectoryEntry}
    (hlivf : isLive f.toBytes = true) (hfc : f.firstCluster = (v.clear l).firstFree)
    (leaf : ∀ e ∈ liveOf raw, e.isDirectory = true → v.owned e.firstCluster = [])
    (leaf' : f.isDirectory = true →
      (((v.clear l).fill n data).setSlot A.length f.toBytes).owned f.firstCluster = []) :
    Replaces v (((v.clear l).fill n data).setSlot A.length f.toBytes) (liveOf raw) [f] (others A B)
      ∧ (((v.clear l).fill n data).setSlot A.length f.toBytes).rootSlots = A ++ f.toBytes :: B
      ∧ (((v.clear l).fill n data).setSlot A.length f.toBytes).entryChain f
          = (v.clear l).freeList.take n := by
  obtain ⟨hroot, hchain, hslots⟩ := refill_root h hS hA hl n data
  generalize hW : (v.clear l).fill n data = W at *
  have hslots' : (W.setSlot A.length f.toBytes).rootSlots = A ++ f.toBytes :: B :=
    setSlot_exchange hroot (hslots.trans hS) f.toBytes_length
  have hne : (v.clear l).firstFree ≠ 0 := by
    obtain ⟨F, hF⟩ := take_freeList hn hle
    have hmem : (v.clear l).firstFree ∈ (v.clear l).freeList := mem_of_mem_take (hF ▸ mem_cons_self)
    have := (mem_freeList.mp hmem).1.1
    omega
  -- the new entry heads the clusters the allocator took
  have hfill : Chain W.link (v.clear l).firstFree ((v.clear l).freeList.take n) := by
    rw [← hW]
    exact (chain_fill g hn hle data).2
  have hwchain : Chain (W.setSlot A.length f.toBytes).link f.firstCluster
      ((v.clear l).freeList.take n) := by
    rw [hfc]
    exact chain_congr hfill fun b _ => by rw [setSlot_fat]
  have hentry : (W.setSlot A.length f.toBytes).entryChain f = (v.clear l).freeList.take n := by
    rw [entryChain_of_ne (by rw [hfc]; exact hne), chainOf_eq hwchain]
  have hof : ofBytes f.toBytes = f := f.ofBytes_toBytes
  have hlive : liveOf f.toBytes = [f] := by rw [liveOf_live hlivf, hof]
  have hrep : Replaces v (W.setSlot A.length f.toBytes) (liveOf raw) (liveOf f.toBytes)
      (others A B) := by
    refine replaces_of_slot (W := W) hS hB hA hraw (.inl hlivf)
      (isLast_of_isLive hlivf) ?_ (setSlot_fat W _ _) ?_ hslots'
      leaf ?_ ?_ ?_
    · intro c ha hX
      rw [← hW]
      exact refill_same v l n data ha (hl.not_mem hX)
    · intro c hc
      exact setSlot_data W _ _ (by rw [hchain]; exact hc)
    · rw [hlive]
      intro e he hdir
      rw [mem_singleton.mp he] at hdir ⊢
      exact ⟨leaf' hdir, by rw [hfc]; exact hne⟩
    · rw [hlive]
      intro e he _
      rw [mem_singleton.mp he]
      exact chained_of_chain hwchain
    · rw [hlive]
      intro e he c hc
      rw [mem_singleton.mp he, hentry] at hc
      have hfree := (mem_freeList.mp (mem_of_mem_take hc)).2
      rw [clear_fat] at hfree
      split at hfree
      next hcl => exact .inr ((hl c).mp hcl)
      next => exact .inl hfree
  rw [hlive] at hrep
  exact ⟨hrep, hslots', hentry⟩

/-- A slot marked deleted after its chain was given back. -/
lemma remove_replaces
    (leaf : ∀ e ∈ liveOf raw, e.isDirectory = true → v.owned e.firstCluster = []) :
    Replaces v ((v.clear l).setSlot A.length [0xE5]) (liveOf raw) [] (others A B) := by
  obtain ⟨hroot, hchain, hslots⟩ := clear_root h hS hA hl
  have hslots' := setSlot_head_rootSlots hroot (hslots.trans hS) 0xE5
  have hname := ofBytes_cons_name 0xE5 raw.tail
  have hfree : (ofBytes (0xE5 :: raw.tail)).isFree = true := by
    unfold isFree
    rw [hname]
    decide
  have hlast : (ofBytes (0xE5 :: raw.tail)).isLast = false := by
    unfold isLast
    rw [hname]
    decide
  have hnone : liveOf (0xE5 :: raw.tail) = [] := liveOf_free hfree
  have hrep : Replaces v ((v.clear l).setSlot A.length [0xE5]) (liveOf raw)
      (liveOf (0xE5 :: raw.tail)) (others A B) := by
    refine replaces_of_slot (W := v.clear l) hS hB hA hraw (.inr hfree) hlast ?_ (setSlot_fat _ _ _)
      ?_ hslots' leaf ?_ ?_ ?_
    · intro c _ hX
      exact ⟨if_neg (hl.not_mem hX), rfl⟩
    · intro c hc
      exact setSlot_data _ _ _ (by rw [hchain]; exact hc)
    · rw [hnone]
      exact fun e he => nomatch he
    · rw [hnone]
      exact fun e he => nomatch he
    · rw [hnone]
      exact fun e he => nomatch he
  exact hrep

end

end Volume

end RustOs.Fs.Fat32
