import RustOs.Fs.Fat32.Volume

/-!
# Cluster chains

Reading, writing, freeing and allocating a chain, each as one theorem about the
volume. A chain that ends passes no cluster twice and stays in the data area,
so the loops of the driver stop long before their fuel does.

The allocator always takes the lowest free clusters: `allocateClusters n`
links the first `n` of `freeList` (`allocateClusters_runs`), and if there are
fewer it leaves the volume as it found it (`allocateClusters_full`).
-/

namespace RustOs.Fs.Fat32

open Lib Nat Volume Drivers List

variable {fs : Fat32} {F : List Nat}

namespace Volume

variable {v : Volume fs} {l : List Nat} {c : Nat}

/-- The clusters of the chain that starts at `c`. -/
def chainOf (v : Volume fs) (c : Nat) : List Nat := walk v.link fs.totalClusters c

/-- `c` starts a chain that ends properly inside the data area. -/
def Chained (v : Volume fs) (c : Nat) : Prop := Chain v.link c (v.chainOf c)

/-- The bytes along the chain that starts at `c`. -/
def chainData (v : Volume fs) (c : Nat) : List UInt8 := (v.chainOf c).flatMap v.data

lemma inRange_of_link (h : v.link c ≠ .bad) : fs.InRange c := by
  unfold link at h
  split at h
  next => exact absurd rfl h
  next hc => exact Decidable.of_not_not hc

lemma link_eq_next {n : Nat} (h : v.link c = .next n) : v.fat c = n ∧ 2 ≤ n ∧ n < 0x0FFFFFF8 := by
  unfold link at h
  split at h
  next => contradiction
  next =>
    split at h
    next => contradiction
    next =>
      split at h
      next => contradiction
      next h₁ h₂ =>
        injection h with h
        omega

lemma fat_ne_zero_of_link (h : v.link c ≠ .bad) : v.fat c ≠ 0 := by
  intro h0
  apply h
  unfold link
  rw [h0]
  split <;> rfl

lemma chain_inRange {b : Nat} (h : Chain v.link c l) (hb : b ∈ l) : fs.InRange b :=
  inRange_of_link (h.not_bad hb)

lemma chain_allocated {b : Nat} (h : Chain v.link c l) (hb : b ∈ l) : v.fat b ≠ 0 :=
  fat_ne_zero_of_link (h.not_bad hb)

/-- There are at most as many clusters as the data area has. -/
lemma length_le_of_inRange (hl : l.Nodup) (h : ∀ b ∈ l, fs.InRange b) :
    l.length ≤ fs.totalClusters := by
  have hsub : l ⊆ List.range' 2 fs.totalClusters := by
    intro b hb
    exact mem_range'_1.mpr ⟨(h b hb).1, by have := (h b hb).2; omega⟩
  have hle := (subperm_of_subset hl hsub).length_le
  rwa [length_range'] at hle

lemma chain_length_le (h : Chain v.link c l) : l.length ≤ fs.totalClusters :=
  length_le_of_inRange h.nodup fun _ => chain_inRange h

lemma chainOf_eq (h : Chain v.link c l) : v.chainOf c = l := h.walk_eq (chain_length_le h)

lemma chained_of_chain (h : Chain v.link c l) : v.Chained c := by
  unfold Chained
  rw [chainOf_eq h]
  exact h

/-- Two volumes with the same entries along a chain have that chain in common. -/
lemma chain_congr {w : Volume fs} (h : Chain v.link c l)
    (heq : ∀ b ∈ l, w.fat b = v.fat b) : Chain w.link c l := by
  refine h.congr fun b hb => ?_
  unfold link
  rw [heq b hb]

variable (v : Volume fs)

/-- The FAT with the entries of these clusters set to 0. -/
def clear (l : List Nat) : Volume fs :=
  { v with fat := fun c => if c ∈ l then 0 else v.fat c }

@[simp] lemma clear_fat (l : List Nat) (c : Nat) :
    (v.clear l).fat c = if c ∈ l then 0 else v.fat c := rfl

lemma clear_nil : v.clear [] = v := Volume.ext (fun c => by simp) fun _ => rfl

lemma clear_singleton (c : Nat) : v.clear [c] = v.setFat c 0 :=
  Volume.ext (fun b => by simp) fun _ => rfl

lemma setFat_clear (c : Nat) (l : List Nat) :
    (v.setFat c 0).clear l = v.clear (c :: l) := by
  refine Volume.ext (fun x => ?_) fun _ => rfl
  by_cases hx : x = c <;> by_cases hl : x ∈ l <;> simp [hx, hl]

/-- The clusters of `l` overwritten by the blocks of `data`, as far as it goes. -/
def store (v : Volume fs) : List Nat → List UInt8 → Volume fs
  | [], _ => v
  | c :: rest, data =>
    if data.isEmpty then v else store (v.setData c data) rest (data.drop fs.clusterSize)

lemma store_nil_data (l : List Nat) : v.store l [] = v := by
  cases l <;> rfl

lemma store_fat (l : List Nat) (data : List UInt8) :
    (v.store l data).fat = v.fat := by
  induction l generalizing v data with
  | nil => rfl
  | cons c rest ih =>
    unfold store
    split
    next => rfl
    next => rw [ih]; rfl

lemma store_data_of_not_mem (data : List UInt8)
    (h : c ∉ l) : (v.store l data).data c = v.data c := by
  induction l generalizing v data with
  | nil => rfl
  | cons c' rest ih =>
    rw [mem_cons, not_or] at h
    unfold store
    split
    next => rfl
    next => rw [ih _ _ h.2, setData_data, if_neg h.1]

/-- Data that fits its chain is what the chain then starts with. -/
lemma store_take (hnd : l.Nodup) {data : List UInt8}
    (hlen : data.length ≤ l.length * fs.clusterSize) :
    (l.flatMap (v.store l data).data).take data.length = data := by
  induction l generalizing v data with
  | nil =>
    rw [length_nil, Nat.zero_mul] at hlen
    rw [eq_nil_of_length_eq_zero (Nat.le_zero.mp hlen)]
    rfl
  | cons c rest ih =>
    rw [nodup_cons] at hnd
    by_cases he : data = []
    · rw [he, length_nil, take_zero]
    · have hstore : v.store (c :: rest) data
          = (v.setData c data).store rest (data.drop fs.clusterSize) := by
        rw [store, if_neg (by simpa using he)]
      have hc : ((v.setData c data).store rest (data.drop fs.clusterSize)).data c
          = padTo fs.clusterSize (data.take fs.clusterSize) := by
        rw [store_data_of_not_mem _ _ hnd.1, setData_data, if_pos rfl]
      rw [hstore, flatMap_cons, hc]
      rw [length_cons, succ_mul] at hlen
      by_cases hle : data.length ≤ fs.clusterSize
      · -- the last block: the padding is cut off again
        rw [take_of_length_le hle, padTo, append_assoc, take_left]
      · have hblock : (data.take fs.clusterSize).length = fs.clusterSize := by
          rw [length_take]
          omega
        have hfit : (data.drop fs.clusterSize).length ≤ rest.length * fs.clusterSize := by
          rw [length_drop]
          omega
        have hrest := ih (v.setData c data) hnd.2 hfit
        rw [length_drop] at hrest
        rw [padTo_of_length hblock, take_append, hblock, hrest,
          take_of_length_le (by omega), take_append_drop]

/-- Each cluster of `l` linked to the one behind it, the last one ended. -/
def linkUp (v : Volume fs) : List Nat → Volume fs
  | [] => v
  | [c] => v.setFat c endOfChain
  | c :: c' :: rest => linkUp (v.setFat c c') (c' :: rest)

@[simp] lemma linkUp_data (l : List Nat) : (v.linkUp l).data = v.data := by
  induction l generalizing v with
  | nil => rfl
  | cons c rest ih =>
    cases rest with
    | nil => rfl
    | cons c' rest => exact ih (v.setFat c c')

lemma linkUp_fat_of_not_mem (h : c ∉ l) : (v.linkUp l).fat c = v.fat c := by
  induction l generalizing v with
  | nil => rfl
  | cons a rest ih =>
    rw [mem_cons, not_or] at h
    cases rest with
    | nil => exact if_neg h.1
    | cons b rest =>
      rw [linkUp, ih _ h.2, setFat_fat, if_neg h.1]

/-- The first cluster of the list is overwritten, whatever it held. -/
lemma linkUp_setFat (c x : Nat) (rest : List Nat) :
    (v.setFat c x).linkUp (c :: rest) = v.linkUp (c :: rest) := by
  cases rest with
  | nil => exact setFat_setFat v c x _
  | cons b rest => rw [linkUp, linkUp, setFat_setFat]

variable {v}

/-- Linked clusters are a chain. -/
lemma chain_linkUp (g : Geometry fs) (v : Volume fs) {rest : List Nat}
    (hnd : (c :: rest).Nodup) (hr : ∀ b ∈ c :: rest, fs.InRange b) :
    Chain (v.linkUp (c :: rest)).link c (c :: rest) := by
  have hnum := g.numbers
  induction rest generalizing v c with
  | nil =>
    refine .last ?_
    unfold link
    rw [if_neg (not_not_intro (hr c mem_cons_self)), if_pos]
    simp [linkUp, endOfChain]
  | cons b rest ih =>
    have hb := hr b (by simp)
    rw [nodup_cons] at hnd
    refine .cons ?_ (ih (v.setFat c b) hnd.2 fun x hx => hr x (mem_cons_of_mem _ hx))
    have hfat : (v.linkUp (c :: b :: rest)).fat c = b := by
      rw [linkUp, linkUp_fat_of_not_mem _ hnd.1, setFat_fat, if_pos rfl]
    have hb₁ := hb.1
    have hb₂ := hb.2
    unfold link
    rw [hfat, if_neg (not_not_intro (hr c mem_cons_self)), if_neg (by omega), if_neg (by omega)]

/-! ## The free list -/

lemma mem_freeList : c ∈ v.freeList ↔ fs.InRange c ∧ v.fat c = 0 := by
  unfold freeList InRange
  rw [mem_filter, mem_range'_1, add_comm 2]
  simp

lemma freeList_nodup (v : Volume fs) : v.freeList.Nodup := List.Nodup.filter _ nodup_range'

/-- An allocated cluster leaves the free list, the others stay in place. -/
lemma freeList_setFat (v : Volume fs) (c : Nat) {x : Nat} (hx : x ≠ 0) :
    (v.setFat c x).freeList = v.freeList.filter (fun b => b ≠ c) := by
  unfold freeList
  rw [filter_filter]
  refine filter_congr fun b _ => ?_
  rw [setFat_fat]
  split
  next h => simp [h, hx]
  next h => simp [h]

/-- Taking the lowest free cluster leaves the rest of the free list. -/
lemma freeList_setFat_head {first x : Nat}
    (hF : v.freeList = first :: F) (hx : x ≠ 0) : (v.setFat first x).freeList = F := by
  have hnd := freeList_nodup v
  rw [hF, nodup_cons] at hnd
  rw [freeList_setFat _ _ hx, hF, filter_cons_of_neg (by simp), filter_eq_self.mpr]
  intro b hb
  exact decide_eq_true fun h => hnd.1 (h ▸ hb)

lemma freeList_congr {w : Volume fs} (h : ∀ c, fs.InRange c → (w.fat c = 0 ↔ v.fat c = 0)) :
    w.freeList = v.freeList := by
  refine filter_congr fun c hc => ?_
  have hr := mem_range'_1.mp hc
  rw [decide_eq_decide]
  exact h c ⟨hr.1, by omega⟩

/-- Freeing clusters adds them to the free list. -/
lemma freeList_clear_perm (v : Volume fs) (hnd : l.Nodup)
    (hr : ∀ c ∈ l, fs.InRange c) (ha : ∀ c ∈ l, v.fat c ≠ 0) :
    (v.clear l).freeList.Perm (v.freeList ++ l) := by
  have hdis : v.freeList.Disjoint l := by
    intro c hc hl
    exact ha c hl (mem_freeList.mp hc).2
  refine (perm_ext_iff_of_nodup (freeList_nodup _)
    ((freeList_nodup v).append hnd hdis)).mpr fun c => ?_
  rw [mem_append, mem_freeList, mem_freeList, clear_fat]
  by_cases hc : c ∈ l
  · simp [hc, hr c hc]
  · simp [hc]

end Volume

variable {l : List Nat} {v : Volume fs} {c : Nat}

/-! ## The driver's loops -/

variable {R : Disk → Volume fs → Prop}

lemma chain_length_le_fuel (g : Geometry fs) (h : Chain v.link c l) : l.length ≤ chainFuel := by
  have hle := chain_length_le h
  have hnum := g.numbers
  unfold chainFuel
  omega

/-- A chain is read, cluster by cluster. -/
lemma readClusterChainFrom_runs (g : Geometry fs) [Table g R] (v : Volume fs)
    (h : Chain v.link c l) : ∀ fuel, l.length ≤ fuel →
      Runs R (fs.readClusterChainFrom fuel c) v (.ok (l.flatMap v.data)) v := by
  induction h with
  | @last c hs =>
    rintro (_ | fuel) hf
    · simp at hf
    · have hc : fs.InRange c := inRange_of_link (by rw [hs]; simp)
      have hnext := getNextCluster_runs (R := R) g v hc
      rw [hs] at hnext
      refine .bind (Table.readCluster g v hc) (.bind hnext ?_)
      rw [flatMap_cons, flatMap_nil, append_nil]
      exact .pure _
  | @cons c b l hn t ih =>
    rintro (_ | fuel) hf
    · simp at hf
    · have hc : fs.InRange c := inRange_of_link (by rw [hn]; simp)
      have hnext := getNextCluster_runs (R := R) g v hc
      rw [hn] at hnext
      refine .bind (Table.readCluster g v hc) (.bind hnext ?_)
      exact .bind (ih fuel (le_of_succ_le_succ hf)) (.pure _)

/-- `read_cluster_chain` reads the chain. -/
lemma readClusterChain_runs (g : Geometry fs) [Table g R] (v : Volume fs) (h : v.Chained c) :
    Runs R (fs.readClusterChain c) v (.ok (v.chainData c)) v :=
  readClusterChainFrom_runs g v h _ (chain_length_le_fuel g h)

/-- The end of a `write_cluster_chain`. -/
def storeOutcome (fs : Fat32) (l : List Nat) (data : List UInt8) : Outcome String Unit :=
  if data.length ≤ l.length * fs.clusterSize then .ok ()
  else .err "Cluster chain too short for data"

@[simp] lemma storeOutcome_nil (l : List Nat) : fs.storeOutcome l [] = .ok () :=
  if_pos (zero_le _)

/-- Data goes into the clusters of a chain, as far as they reach. -/
lemma writeClusterChainFrom_runs (g : Geometry fs) [Table g R] (fuel : Nat) :
    ∀ (v : Volume fs) (c : Nat) (l : List Nat) (data : List UInt8), Chain v.link c l →
      data.length ≤ fuel →
      Runs R (fs.writeClusterChainFrom fuel c data) v (fs.storeOutcome l data)
        (v.store l data) := by
  have hpos := clusterSize_pos g
  induction fuel with
  | zero =>
    intro v c l data _ hlen
    have hd : data = [] := eq_nil_of_length_eq_zero (le_zero.mp hlen)
    subst hd
    rw [store_nil_data, storeOutcome_nil]
    exact .pure _
  | succ fuel ih =>
    intro v c l data h hlen
    unfold writeClusterChainFrom
    split
    next hd =>
      rw [isEmpty_iff.mp hd, store_nil_data, storeOutcome_nil]
      exact .pure _
    next hd =>
      have hc : fs.InRange c := chain_inRange h h.mem_head
      have hwrite : Runs R (fs.writeCluster c (data.take fs.clusterSize)) v (.ok ())
          (v.setData c data) := by
        have hw : Runs R (fs.writeCluster c (data.take fs.clusterSize)) v (.ok ())
            (v.setData c (data.take fs.clusterSize)) := Table.writeCluster g v hc (by simp)
        have hset : v.setData c (data.take fs.clusterSize) = v.setData c data := by
          simp only [setData, take_take, min_self]
        rwa [hset] at hw
      refine .bind hwrite ?_
      have hnext := getNextCluster_runs (R := R) g (v.setData c data) hc
      cases h with
      | last hs =>
        have hs' : (v.setData c data).link c = .stop := hs
        rw [hs'] at hnext
        rw [store, if_neg hd, store, storeOutcome, length_singleton, one_mul]
        by_cases hle : data.length ≤ fs.clusterSize
        · rw [if_pos (by simpa using hle), if_pos hle]
          exact .pure _
        · rw [if_neg (by simpa using hle), if_neg hle]
          exact .bind hnext (.fail _)
      | @cons _ b l hn t =>
        have hn' : (v.setData c data).link c = .next b := hn
        rw [hn'] at hnext
        have hout : fs.storeOutcome (c :: l) data
            = fs.storeOutcome l (data.drop fs.clusterSize) := by
          unfold storeOutcome
          rw [length_cons, succ_mul, length_drop]
          congr 1
          rw [eq_iff_iff]
          omega
        rw [store, if_neg hd, hout]
        by_cases hle : data.length ≤ fs.clusterSize
        · -- the data ends here, the rest of the chain is not looked at
          have hdrop : data.drop fs.clusterSize = [] := drop_eq_nil_of_le hle
          rw [hdrop, if_pos isEmpty_nil, store_nil_data, storeOutcome_nil]
          exact .pure _
        · rw [if_neg (by simpa using hle)]
          exact .bind hnext (ih _ b l _ t (by rw [length_drop]; omega))

/-- `write_cluster_chain` stores the data along the chain and fails if it does
not fit, with every cluster of the chain written. -/
lemma writeClusterChain_runs (g : Geometry fs) [Table g R] (v : Volume fs)
    (h : Chain v.link c l) (data : List UInt8) :
    Runs R (fs.writeClusterChain c data) v (fs.storeOutcome l data) (v.store l data) :=
  writeClusterChainFrom_runs g _ v c l data h (le_refl _)

/-- A chain is cleared, and its clusters counted. -/
lemma freeClusterChainFrom_runs (g : Geometry fs) [Table g R] (fuel : Nat) :
    ∀ (v : Volume fs) (c : Nat) (l : List Nat), Chain v.link c l → l.length ≤ fuel →
      Runs R (fs.freeClusterChainFrom fuel c) v (.ok l.length) (v.clear l) := by
  induction fuel with
  | zero =>
    intro v c l h hf
    exact absurd (eq_nil_of_length_eq_zero (le_zero.mp hf)) h.ne_nil
  | succ fuel ih =>
    intro v c l h hf
    have hc : fs.InRange c := chain_inRange h h.mem_head
    have hnext := getNextCluster_runs (R := R) g v hc
    have hnd := h.nodup
    cases h with
    | last hs =>
      rw [hs] at hnext
      refine .bind hnext (.bind (Table.writeFatEntry g v 0 hc) ?_)
      rw [clear_singleton]
      exact .pure _
    | @cons _ b l hn t =>
      rw [hn] at hnext
      rw [nodup_cons] at hnd
      refine .bind hnext (.bind (Table.writeFatEntry g v 0 hc) ?_)
      -- the rest of the chain does not meet the entry just cleared
      have ht : Chain (v.setFat c 0).link b l := by
        refine chain_congr t fun x hx => ?_
        have hne : x ≠ c := fun h => hnd.1 (h ▸ hx)
        rw [setFat_fat, if_neg hne]
      have hrec := ih _ b l ht (le_of_succ_le_succ hf)
      rw [setFat_clear] at hrec
      exact .bind hrec (.pure _)

/-- `free_cluster_chain` clears the chain. -/
lemma freeClusterChain_runs (g : Geometry fs) [Medium g R] (v : Volume fs) (h : v.Chained c) :
    Runs R (fs.freeClusterChain c) v (.ok ()) (v.clear (v.chainOf c)) := by
  refine .bind (freeClusterChainFrom_runs g _ v c _ h (chain_length_le_fuel g h)) ?_
  exact .bind (.attempt_ok (Medium.updateFsinfo g _ _ 0)) (.pure _)

/-! ## Allocation -/

lemma endOfChain_mod : endOfChain % 2 ^ 28 = endOfChain := rfl

/-- One turn of the allocation loop: the last cluster is linked to the lowest
free one, which is ended. -/
def grow (v : Volume fs) (prev next : Nat) : Volume fs :=
    (v.setFat prev next).setFat next endOfChain

/-- The cluster is not free any more. -/
lemma freeList_grow {prev next : Nat}
    (hF : v.freeList = next :: F) (hprev : v.fat prev ≠ 0) : (grow v prev next).freeList = F := by
  have hnext := mem_freeList.mp (hF ▸ mem_cons_self : next ∈ v.freeList)
  have hne : next ≠ 0 := by
    have := hnext.1.1
    omega
  have hstay : (v.setFat prev next).freeList = next :: F := by
    rw [freeList_setFat _ _ hne, filter_eq_self.mpr, hF]
    intro b hb
    exact decide_eq_true fun h => hprev (h ▸ (mem_freeList.mp hb).2)
  exact freeList_setFat_head hstay (by decide)

section

variable (g : Geometry fs) [Table g R]
include g

/-- A chain grows by one cluster. -/
lemma grow_runs {prev next : Nat} (hp : fs.InRange prev)
    (hn : fs.InRange next) :
    Runs R (fs.writeFatEntry prev next) v (.ok ()) (v.setFat prev next)
      ∧ Runs R (fs.writeFatEntry next endOfChain) (v.setFat prev next) (.ok ())
          (grow v prev next) := by
  have hnum := g.numbers
  have hn₂ := hn.2
  have h₁ := Table.writeFatEntry (R := R) g v next hp
  have h₂ := Table.writeFatEntry (R := R) g (v.setFat prev next) endOfChain hn
  rw [mod_eq_of_lt (by omega)] at h₁
  exact ⟨h₁, h₂⟩

/-- The chain grows by the first free clusters. -/
lemma allocateFrom_runs (n : Nat) :
    ∀ (v : Volume fs) (chain : List Nat) (prev : Nat), fs.InRange prev →
      v.fat prev = endOfChain → n ≤ v.freeList.length →
      Runs R (fs.allocateFrom n chain prev) v (.ok ()) (v.linkUp (prev :: v.freeList.take n)) := by
  induction n with
  | zero =>
    intro v chain prev _ hprev _
    rw [take_zero, linkUp, setFat_self hprev]
    exact .pure _
  | succ n ih =>
    intro v chain prev hp hprev hlen
    rcases hF : v.freeList with _ | ⟨next, F⟩
    · rw [hF] at hlen
      simp at hlen
    · have hn := (mem_freeList.mp (hF ▸ mem_cons_self : next ∈ v.freeList)).1
      have hfind := findFreeCluster_runs (R := R) g v
      rw [hF] at hfind
      obtain ⟨hw₁, hw₂⟩ := grow_runs (R := R) g (v := v) hp hn
      have hgrow : (grow v prev next).freeList = F := freeList_grow hF (by rw [hprev]; decide)
      have hrec := ih (grow v prev next) (chain ++ [next]) next hn (by simp [grow])
        (by rw [hgrow]; rw [hF] at hlen; exact le_of_succ_le_succ hlen)
      rw [hgrow] at hrec
      have hlink : (grow v prev next).linkUp (next :: F.take n)
          = v.linkUp (prev :: next :: F.take n) := by
        rw [grow, linkUp_setFat]
        rfl
      rw [hlink] at hrec
      exact .bind hfind (.bind (.attempt_ok hw₁) (.bind (.attempt_ok hw₂) hrec))

lemma rollBack_runs (v : Volume fs)
    (hr : ∀ c ∈ l, fs.InRange c) : Runs R (fs.rollBack l) v (.ok ()) (v.clear l) := by
  induction l generalizing v with
  | nil =>
    exact .pure _
  | cons c rest ih =>
    have hrec := ih (v.setFat c 0) fun x hx => hr x (mem_cons_of_mem _ hx)
    rw [setFat_clear] at hrec
    exact .bind (.attempt_ok (Table.writeFatEntry g v 0 (hr c mem_cons_self))) hrec

/-- Running out of free clusters rolls back everything the loop had linked. -/
lemma allocateFrom_full (n : Nat) :
    ∀ (v : Volume fs) (chain : List Nat) (prev : Nat), prev ∈ chain → (∀ c ∈ chain, fs.InRange c) →
      v.fat prev ≠ 0 → v.freeList.length < n →
      Runs R (fs.allocateFrom n chain prev) v (.err "Insufficient space") (v.clear chain) := by
  induction n with
  | zero =>
    intro v chain prev _ _ _ hlen
    exact absurd hlen (not_lt_zero _)
  | succ n ih =>
    intro v chain prev hmem hr hprev hlen
    have hfind := findFreeCluster_runs (R := R) g v
    rcases hF : v.freeList with _ | ⟨next, F⟩
    · rw [hF] at hfind
      exact .bind hfind (.bind (rollBack_runs g v hr) (.fail _))
    · rw [hF] at hfind
      obtain ⟨hn, hfree⟩ := mem_freeList.mp (hF ▸ mem_cons_self : next ∈ v.freeList)
      obtain ⟨hw₁, hw₂⟩ := grow_runs (R := R) g (v := v) (hr prev hmem) hn
      have hgrow := freeList_grow hF hprev
      have hrec := ih (grow v prev next) (chain ++ [next]) next (by simp)
        (by
          intro c hc
          rcases mem_append.mp hc with hc | hc
          · exact hr c hc
          · rw [mem_singleton.mp hc]; exact hn)
        (by simp [grow, endOfChain]) (by rw [hgrow]; rw [hF] at hlen; exact lt_of_succ_lt_succ hlen)
      have hclear : (grow v prev next).clear (chain ++ [next]) = v.clear chain := by
        refine Volume.ext (fun c => ?_) fun _ => rfl
        simp only [grow]
        by_cases hc : c ∈ chain
        · simp [hc]
        · have hcp : c ≠ prev := fun h => hc (h ▸ hmem)
          by_cases hcn : c = next
          · simp [hcn, hfree]
          · simp [hcn, hcp]
      rw [hclear] at hrec
      exact .bind hfind (.bind (.attempt_ok hw₁) (.bind (.attempt_ok hw₂) hrec))

/-- `allocate_clusters` links the lowest free clusters. -/
lemma allocateClusters_runs (v : Volume fs) {n first : Nat}
    (hF : v.freeList = first :: F) (hn : 0 < n) (hle : n ≤ v.freeList.length) :
    Runs R (fs.allocateClusters n) v (.ok first) (v.linkUp (first :: F.take (n - 1))) := by
  have hfirst := (mem_freeList.mp (hF ▸ mem_cons_self : first ∈ v.freeList)).1
  have hfind := findFreeCluster_runs (R := R) g v
  rw [hF] at hfind
  have hw := Table.writeFatEntry (R := R) g v endOfChain hfirst
  have hfree := freeList_setFat_head hF (x := endOfChain) (by decide)
  have hrec := allocateFrom_runs (R := R) g (n - 1) (v.setFat first endOfChain)
    [first] first hfirst (by simp)
    (by rw [hfree]; rw [hF, length_cons] at hle; omega)
  rw [hfree, linkUp_setFat] at hrec
  unfold allocateClusters
  rw [if_neg (by omega)]
  exact .bind hfind (.bind hw (.bind hrec (.pure _)))

/-- With too few free clusters `allocate_clusters` fails and changes nothing. -/
lemma allocateClusters_full (v : Volume fs) {n : Nat}
    (hlt : v.freeList.length < n) :
    ∃ e, Runs R (fs.allocateClusters n) v (.err e) v := by
  have hfind := findFreeCluster_runs (R := R) g v
  unfold allocateClusters
  rw [if_neg (by omega)]
  rcases hF : v.freeList with _ | ⟨first, F⟩
  · rw [hF] at hfind
    exact ⟨_, .bind hfind (.fail _)⟩
  · rw [hF] at hfind
    obtain ⟨hfirst, hzero⟩ := mem_freeList.mp (hF ▸ mem_cons_self : first ∈ v.freeList)
    have hw := Table.writeFatEntry (R := R) g v endOfChain hfirst
    have hfree := freeList_setFat_head hF (x := endOfChain) (by decide)
    have hrec := allocateFrom_full (R := R) g (n - 1) (v.setFat first endOfChain)
      [first] first (by simp)
      (by intro c hc; rw [mem_singleton.mp hc]; exact hfirst) (by simp [endOfChain])
      (by rw [hfree]; rw [hF, length_cons] at hlt; omega)
    have hclear : (v.setFat first endOfChain).clear [first] = v := by
      refine Volume.ext (fun c => ?_) fun _ => rfl
      simp only [clear_fat, setFat_fat, mem_singleton]
      split
      next hc => rw [hc, hzero]
      next => rfl
    rw [hclear] at hrec
    exact ⟨_, .bind hfind (.bind hw (.bind_err hrec))⟩

end

end RustOs.Fs.Fat32
