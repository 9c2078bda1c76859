import RustOs.Fs.Fat32.BootCheck

/-!
# The copies of the FAT, and cutting a chain

`Volume` reads a disk through its first FAT and asks that the other copies be
equal to it. Here nothing is asked: `rawEntry d k c` is the 32-bit entry of
cluster `c` in copy `k`, whatever the copies hold, and `Copies` is the table of
all of them. The driver reads copy 0 and writes every copy, and it keeps the top
four bits of each entry.

`truncate_chain` walks to the last cluster it keeps, ends the chain there and
frees what came behind:

> `truncateChain_keeps`: of a chain of `m` clusters the first `k` stay a chain,
> the other entries are zero in every copy, and no entry besides changes;
> a `k` above `m` is refused with every copy as it was.

This is so on every volume with the `Geometry` the driver works for. `Fat32::new`
mounts others too, such as one of 1024-byte sectors, where the first step of the
walk panics (`wideDisk_truncate_panics`).
-/

namespace RustOs.Fs.Fat32

open Lib Nat Drivers List Option Prog

variable {fs : Fat32} {c : Nat}

/-! ## The table of all copies -/

/-- An entry for each copy and each cluster. -/
def Copies : Type := Nat → Nat → Nat

/-- The entry of cluster `c` in FAT copy `k`, all 32 bits. -/
def rawEntry (fs : Fat32) (d : Disk) : Copies := fun k c =>
  entryIn (d (fs.firstFatSector + k * fs.sectorsPerFat + c / 128)) c

namespace Copies

variable {l : List Nat} {f : Copies}

/-- The low 28 bits of one entry replaced in every copy. -/
def set (f : Copies) (c x : Nat) : Copies := fun k c' =>
  if c' = c then f k c' / 2 ^ 28 * 2 ^ 28 + x else f k c'

/-- The entry as the driver reads it, from the first copy. -/
def value (f : Copies) (c : Nat) : Nat := f 0 c % 2 ^ 28

/-- Where a cluster leads. -/
def link (fs : Fat32) (f : Copies) (c : Nat) : Link Nat :=
  if ¬fs.InRange c then .bad
  else if f.value c ≥ 0x0FFFFFF8 then .stop
  else if f.value c < 2 then .bad
  else .next (f.value c)

/-- Entries cleared in every copy. -/
def clear (f : Copies) (l : List Nat) : Copies := fun k c =>
  if c ∈ l then f k c / 2 ^ 28 * 2 ^ 28 else f k c

lemma set_of_ne (f : Copies) {c' : Nat} (x k : Nat) (h : c' ≠ c) : f.set c x k c' = f k c' :=
  if_neg h

lemma set_same (f : Copies) (c x k : Nat) : f.set c x k c = f k c / 2 ^ 28 * 2 ^ 28 + x :=
  if_pos rfl

lemma clear_of_mem (f : Copies) (k : Nat) (h : c ∈ l) : f.clear l k c = f k c / 2 ^ 28 * 2 ^ 28 :=
  if_pos h

lemma clear_of_not_mem (f : Copies) (k : Nat) (h : c ∉ l) : f.clear l k c = f k c := if_neg h

lemma value_set_ne (f : Copies) {c' : Nat} (x : Nat) (h : c' ≠ c) :
    (f.set c x).value c' = f.value c' := by
  unfold value
  rw [set_of_ne f x 0 h]

lemma link_congr {f' : Copies} (h : f'.value c = f.value c) : f'.link fs c = f.link fs c := by
  unfold link
  rw [h]

lemma link_set_ne (f : Copies) {c' : Nat} (x : Nat) (h : c' ≠ c) :
    (f.set c x).link fs c' = f.link fs c' :=
  link_congr (value_set_ne f x h)

lemma inRange_of_link (h : f.link fs c ≠ .bad) : fs.InRange c := by
  unfold link at h
  split at h
  next => exact absurd rfl h
  next hc => exact Decidable.of_not_not hc

lemma chain_inRange {b : Nat} (h : Chain (f.link fs) c l) (hb : b ∈ l) : fs.InRange b :=
  inRange_of_link (h.not_bad hb)

lemma chain_length_le (h : Chain (f.link fs) c l) : l.length ≤ fs.totalClusters :=
  Volume.length_le_of_inRange h.nodup fun _ => chain_inRange h

end Copies

/-- The FAT copies of a disk hold this table. -/
def Holds (fs : Fat32) (d : Disk) (f : Copies) : Prop :=
  ∀ k < fs.numFats, ∀ c < fs.sectorsPerFat * 128, fs.rawEntry d k c = f k c

/-! ## The accesses -/

lemma inRange_lt (g : Geometry fs) (hc : fs.InRange c) : c < fs.sectorsPerFat * 128 :=
  lt_of_lt_of_le hc.2 g.covers

/-- An entry is read from the first copy. -/
lemma readFatEntry_holds (g : Geometry fs) (f : Copies) (hc : fs.InRange c) :
    Runs fs.Holds (fs.readFatEntry c) f (.ok (f.value c)) f := by
  obtain ⟨h₁, h₂, h₃, h₄⟩ := fatAddress g hc.2
  have hb := fatSector_bound g hc.2
  refine .lift_bind h₁ (.lift_bind h₂ (.lift_bind h₃ (.lift_bind h₄ ?_)))
  refine .of_eq ?_
  intro d hd
  have hraw := hd 0 g.fats_pos c (inRange_lt g hc)
  unfold rawEntry at hraw
  rw [Nat.zero_mul, Nat.add_zero] at hraw
  rw [Prog.bind_ok (readSector_disk d (by omega)), le32In_entry,
    Prog.bind_ok (Prog.lift_apply _ _), hraw]
  rfl

/-- What `get_next_cluster` answers, by where the cluster leads. -/
lemma getNextCluster_holds (g : Geometry fs) (f : Copies) (hc : fs.InRange c) :
    Runs fs.Holds (fs.getNextCluster c) f
      (match f.link fs c with
        | .next n => .ok (some n)
        | .stop => .ok none
        | .bad => .err "Invalid cluster number in FAT") f := by
  refine .bind (readFatEntry_holds g f hc) ?_
  unfold Copies.link
  split
  next => exact .pure _
  next =>
    split
    next => exact .fail _
    next => exact .pure _

lemma entryIn_mergeEntry (s : Sector) (c : Nat) {x : Nat} (hx : x < 2 ^ 28) :
    entryIn (mergeEntry s c x) c = entryIn s c / 2 ^ 28 * 2 ^ 28 + x := by
  have hlen := s.len
  have hlt := leAt_lt s.bytes (c % 128 * 4) 4
  unfold entryIn
  rw [mergeEntry_bytes, leAt_patch_leBytes (by omega)]
  unfold entryIn
  omega

/-- Sectors of different copies, or different sectors of a copy, are different. -/
lemma fatSector_inj {k k' q q' : Nat} (hq : q < fs.sectorsPerFat) (hq' : q' < fs.sectorsPerFat)
    (h : fs.firstFatSector + k * fs.sectorsPerFat + q =
      fs.firstFatSector + k' * fs.sectorsPerFat + q') :
    k = k' ∧ q = q' := by
  have hsum : k * fs.sectorsPerFat + q = k' * fs.sectorsPerFat + q' := by omega
  have hqq : q = q' := by
    have := congrArg (· % fs.sectorsPerFat) hsum
    simpa only [mul_add_mod_self_right, mod_eq_of_lt hq, mod_eq_of_lt hq'] using this
  subst hqq
  exact ⟨eq_of_mul_eq_mul_right (by omega) (add_right_cancel hsum), rfl⟩

variable (g : Geometry fs)
include g

/-- An entry is set in every copy. -/
lemma writeFatEntry_holds (f : Copies) (hc : fs.InRange c) {x : Nat}
    (hx : x < 2 ^ 28) :
    Runs fs.Holds (fs.writeFatEntry c x) f (.ok ()) (f.set c x) := by
  obtain ⟨h₁, _, _, h₄⟩ := fatAddress g hc.2
  have hb := fatSector_bound g hc.2
  refine .lift_bind h₁ (.lift_bind h₄ ?_)
  rw [mod_eq_of_lt hx]
  intro d hd
  obtain ⟨d', hrun, hin, hout⟩ := writeFatEntryFrom_disk g hc.2 x fs.numFats d 0 (by omega)
  refine ⟨d', hrun, ?_⟩
  intro k hk c' hc'
  have hq' : c' / 128 < fs.sectorsPerFat := by omega
  have hold := hd k hk c' hc'
  unfold rawEntry at hold ⊢
  by_cases hcc : c' = c
  · subst hcc
    rw [hin k (by omega) (by omega), entryIn_mergeEntry _ _ hx, hold, Copies.set_same]
  · rw [Copies.set_of_ne f x k hcc, ← hold]
    by_cases hq : c' / 128 = c / 128
    · rw [hq, hin k (by omega) (by omega)]
      exact entryIn_mergeEntry_ne _ _ (by omega)
    · rw [hout]
      intro k' _ _ heq
      exact hq (fatSector_inj hq' hb.1 heq).2

/-- The FSInfo sector is outside of the FATs. -/
lemma updateFsinfo_holds (f : Copies) (delta : Int) (hint : Nat) :
    Runs fs.Holds (fs.updateFsinfo delta hint) f (.ok ()) f := by
  unfold updateFsinfo
  split
  next => exact .pure _
  next hinfo =>
    have hlow : fs.fsInfoSector < fs.firstFatSector := by
      have := g.info
      omega
    have hb := fatSector_bound g g.root.2
    intro d hd
    rw [bind_ok (readSector_disk d (by omega))]
    split
    next => exact ⟨d, rfl, hd⟩
    next =>
      refine ⟨_, rfl, ?_⟩
      intro k hk c hc
      rw [← hd k hk c hc]
      unfold rawEntry
      rw [Disk.update_ne (by omega)]

/-! ## Freeing a chain -/

/-- A chain is cleared in every copy. -/
lemma freeClusterChainFrom_holds (fuel : Nat) :
    ∀ (f : Copies) (c : Nat) (l : List Nat), Chain (f.link fs) c l → l.length ≤ fuel →
      Runs fs.Holds (fs.freeClusterChainFrom fuel c) f (.ok l.length) (f.clear l) := by
  induction fuel with
  | zero =>
    intro f c l h hf
    exact absurd (eq_nil_of_length_eq_zero (le_zero.mp hf)) h.ne_nil
  | succ fuel ih =>
    intro f c l h hf
    have hc : fs.InRange c := Copies.chain_inRange h h.mem_head
    have hnext := getNextCluster_holds g f hc
    have hwrite := writeFatEntry_holds g f hc (x := 0) (by omega)
    have hnd := h.nodup
    cases h with
    | last hs =>
      rw [hs] at hnext
      refine .bind hnext (.bind hwrite ?_)
      have hclear : f.clear [c] = f.set c 0 := by
        funext k b
        by_cases hb : b = c
        · rw [hb, Copies.set_same, add_zero]
          exact if_pos (mem_singleton_self c)
        · rw [Copies.set_of_ne f 0 k hb]
          exact if_neg fun h => hb (mem_singleton.mp h)
      rw [hclear]
      exact .pure _
    | @cons _ b l hn t =>
      rw [hn] at hnext
      rw [nodup_cons] at hnd
      refine .bind hnext (.bind hwrite ?_)
      -- the rest of the chain does not meet the entry just cleared
      have ht : Chain ((f.set c 0).link fs) b l := by
        refine t.congr fun x hx => ?_
        exact Copies.link_set_ne f 0 fun h => hnd.1 (h ▸ hx)
      have hclear : (f.set c 0).clear l = f.clear (c :: l) := by
        funext k x
        by_cases hx : x = c
        · rw [hx, Copies.clear_of_not_mem _ k hnd.1, Copies.set_same, add_zero,
            Copies.clear_of_mem _ k mem_cons_self]
        · by_cases hl : x ∈ l
          · rw [Copies.clear_of_mem _ k hl, Copies.clear_of_mem _ k (mem_cons_of_mem _ hl),
              Copies.set_of_ne f 0 k hx]
          · rw [Copies.clear_of_not_mem _ k hl, Copies.set_of_ne f 0 k hx,
              Copies.clear_of_not_mem _ k fun h => hl ((mem_cons.mp h).resolve_left hx)]
      have hrec := ih _ b l ht (le_of_succ_le_succ hf)
      rw [hclear] at hrec
      exact .bind hrec (.pure _)

/-! ## Cutting a chain -/

/-- The walk to cluster `n` of the chain. -/
lemma skipClusters_holds (f : Copies) (n : Nat) :
    ∀ (c : Nat) (l : List Nat), Chain (f.link fs) c l →
      Runs fs.Holds (fs.skipClusters n c) f
        (match l[n]? with
          | some b => .ok b
          | none => .err "chain shorter than keep_clusters") f := by
  induction n with
  | zero =>
    intro c l h
    rw [← head?_eq_getElem?, h.head_eq]
    exact .pure _
  | succ n ih =>
    intro c l h
    have hnext := getNextCluster_holds g f (Copies.chain_inRange h h.mem_head)
    cases h with
    | last hs =>
      rw [hs] at hnext
      exact .bind hnext (.fail _)
    | cons hn t =>
      rw [hn] at hnext
      exact .bind hnext (ih _ _ t)

omit g

/-- What `truncate_chain` makes of the chain `l` when it keeps `k` clusters. -/
structure Truncated (fs : Fat32) (d d' : Disk) (l : List Nat) (k : Nat) : Prop where
  /-- The first `k` clusters are a chain. -/
  kept : ∀ start, l.head? = some start → Chain ((fs.rawEntry d').link fs) start (l.take k)
  /-- The clusters behind are free in every copy. -/
  freed : ∀ c ∈ l.drop k, ∀ j < fs.numFats, fs.rawEntry d' j c % 2 ^ 28 = 0
  /-- The last cluster that is kept has the end mark in every copy. -/
  ended : ∀ c, l[k - 1]? = some c → ∀ j < fs.numFats, fs.rawEntry d' j c % 2 ^ 28 = endOfChain
  /-- The other entries are as they were, in every copy. -/
  other : ∀ j < fs.numFats, ∀ c < fs.sectorsPerFat * 128, c ∉ l.drop (k - 1) →
    fs.rawEntry d' j c = fs.rawEntry d j c

lemma holds_rawEntry (fs : Fat32) (d : Disk) : fs.Holds d (fs.rawEntry d) := fun _ _ _ _ => rfl

/-- The table after a cut: an end mark at `b`, the entries of `rest` cleared. -/
lemma truncated_of_holds (g : Geometry fs) {d d' : Disk} {l : List Nat} {k b : Nat} (hk : 1 ≤ k)
    {start : Nat} (h : Chain ((fs.rawEntry d).link fs) start l) (hb : l[k - 1]? = some b)
    (hd' : fs.Holds d' (((fs.rawEntry d).set b endOfChain).clear (l.drop k))) :
    Truncated fs d d' l k := by
  have hnd := h.nodup
  have hdrop : l.drop (k - 1) = b :: l.drop k := by
    obtain ⟨hlt, hget⟩ := List.getElem?_eq_some_iff.mp hb
    rw [drop_eq_getElem_cons hlt, hget, show k - 1 + 1 = k by omega]
  -- the chain is the part that is kept, the cluster at the cut and the part behind it
  have hsplit : l = l.take (k - 1) ++ b :: l.drop k := by
    rw [← hdrop, take_append_drop]
  rw [hsplit, nodup_append, nodup_cons] at hnd
  obtain ⟨-, ⟨hbrest, -⟩, hapart⟩ := hnd
  have hmem : ∀ c ∈ b :: l.drop k, c ∈ l := by
    intro c hc
    rw [hsplit]
    exact mem_append_right _ hc
  have hlt : ∀ c ∈ l, c < fs.sectorsPerFat * 128 :=
    fun c hc => inRange_lt g (Copies.chain_inRange h hc)
  have hat : ∀ j < fs.numFats, fs.rawEntry d' j b =
    fs.rawEntry d j b / 2 ^ 28 * 2 ^ 28 + endOfChain := by
    intro j hj
    rw [hd' j hj b (hlt b (hmem b mem_cons_self)), Copies.clear_of_not_mem _ j hbrest,
      Copies.set_same]
  have hother : ∀ j < fs.numFats, ∀ c < fs.sectorsPerFat * 128, c ∉ b :: l.drop k →
      fs.rawEntry d' j c = fs.rawEntry d j c := by
    intro j hj c hc hout
    rw [hd' j hj c hc, Copies.clear_of_not_mem _ j fun h => hout (mem_cons_of_mem _ h),
      Copies.set_of_ne _ _ j fun h : c = b => hout (h ▸ mem_cons_self)]
  have hend : ∀ x, (x / 2 ^ 28 * 2 ^ 28 + endOfChain) % 2 ^ 28 = endOfChain := by
    intro x
    rw [add_comm, add_mul_mod_self_right]
    rfl
  refine ⟨?_, ?_, ?_, ?_⟩
  · intro start' hstart
    rw [h.head_eq] at hstart
    obtain rfl := some.inj hstart
    have hstop : (fs.rawEntry d').link fs b = .stop := by
      unfold Copies.link Copies.value
      rw [if_neg (not_not_intro (Copies.chain_inRange h (hmem b mem_cons_self))),
        hat 0 g.fats_pos, hend]
      rfl
    have hchain := h.take hb hstop fun c hc => ?_
    · rwa [show k - 1 + 1 = k by omega] at hchain
    · refine Copies.link_congr ?_
      unfold Copies.value
      rw [hother 0 g.fats_pos c (hlt c (mem_of_mem_take hc))]
      exact fun hin => hapart c hc c hin rfl
  · intro c hc j hj
    rw [hd' j hj c (hlt c (hmem c (mem_cons_of_mem _ hc))), Copies.clear_of_mem _ j hc,
      mul_mod_left]
  · intro c hc j hj
    rw [hb] at hc
    obtain rfl := some.inj hc
    rw [hat j hj, hend]
  · intro j hj c hc hout
    rw [hdrop] at hout
    exact hother j hj c hc hout

/-- `truncate_chain` on a chain of at least `k` clusters. -/
lemma truncateChain_cuts (g : Geometry fs) (d : Disk) {start : Nat} {l : List Nat}
    (h : Chain ((fs.rawEntry d).link fs) start l) {k : Nat} (hk : 1 ≤ k)
    (hle : k ≤ l.length) :
    ∃ d', fs.truncateChain start k d = (.ok (l.length - k), d') ∧ Truncated fs d d' l k := by
  have hlt : k - 1 < l.length := by omega
  have hb : l[k - 1]? = some l[k - 1] := getElem?_eq_getElem hlt
  have hrest := h.drop hb
  have hr : fs.InRange l[k - 1] := Copies.chain_inRange h (getElem_mem hlt)
  have hskip := skipClusters_holds g _ (k - 1) start l h
  rw [hb] at hskip
  have hnext := getNextCluster_holds g (fs.rawEntry d) hr
  have hwrite := writeFatEntry_holds g (fs.rawEntry d) hr (show endOfChain < 2 ^ 28 by decide)
  have hdrop : l.drop (k - 1) = l[k - 1] :: l.drop k := by
    rw [drop_eq_getElem_cons hlt, show k - 1 + 1 = k by omega]
  have hnd : (l[k - 1] :: l.drop k).Nodup := hdrop ▸ hrest.nodup
  rw [hdrop] at hrest
  have hruns : Runs fs.Holds (fs.truncateChain start k) (fs.rawEntry d) (.ok (l.length - k))
      (((fs.rawEntry d).set l[k - 1] endOfChain).clear (l.drop k)) := by
    unfold truncateChain
    rw [if_neg (by omega)]
    refine .bind hskip ?_
    cases htail : l.drop k with
    | nil =>
      rw [htail] at hrest
      have hlen : l.length - k = 0 := by rw [← length_drop, htail]; rfl
      have hclear : ∀ f : Copies, f.clear [] = f := by
        intro f
        funext j c
        exact Copies.clear_of_not_mem f j not_mem_nil
      cases hrest with
      | last hs =>
        rw [hs] at hnext
        rw [hclear, hlen]
        exact .bind hnext (.bind hwrite (.pure _))
      | cons hn t => exact absurd rfl t.ne_nil
    | cons t rest =>
      rw [htail] at hrest hnd
      have hlen : (t :: rest).length = l.length - k := by rw [← htail, length_drop]
      cases hrest with
      | @cons _ t' _ hn hchain =>
        obtain rfl : t' = t := some.inj (hchain.head_eq.symm.trans rfl)
        rw [hn] at hnext
        refine .bind hnext (.bind hwrite ?_)
        -- the end mark is not an entry of the tail
        have htl : Chain (((fs.rawEntry d).set l[k - 1] endOfChain).link fs) t' (t' :: rest) := by
          refine hchain.congr fun x hx => ?_
          refine Copies.link_set_ne _ _ fun h => ?_
          exact (nodup_cons.mp hnd).1 (h ▸ hx)
        have hfuel : (t' :: rest).length ≤ chainFuel := by
          have hcl := Copies.chain_length_le htl
          have hnum := g.numbers
          unfold chainFuel
          omega
        have hfree := freeClusterChainFrom_holds g chainFuel _ t' _ htl hfuel
        rw [hlen] at hfree
        refine .bind hfree (.bind (.attempt_ok (updateFsinfo_holds g _ _ 0)) ?_)
        exact .pure _
  obtain ⟨d', hrun, hd'⟩ := hruns d (holds_rawEntry fs d)
  exact ⟨d', hrun, truncated_of_holds g hk h hb hd'⟩

/-- The small volume with a chain of three clusters. -/
def chainDisk : Disk := fun n =>
  if n = 32 ∨ n = 544 then
    Sector.ofBytes (padTo 512
      (([0x0FFFFFF8, 0x0FFFFFFF, 3, 4, 0x0FFFFFF8] : List Nat).flatMap (leBytes 4)))
  else zeroSector

lemma chainDisk_chain : Chain ((smallFs.rawEntry chainDisk).link smallFs) 2 [2, 3, 4] :=
  .cons (by decide +kernel) (.cons (by decide +kernel) (.last (by decide +kernel)))

/-- The small volume, but for 1024 bytes a sector in the boot sector. -/
def wideDisk : Disk := fun n =>
  if n = 0 then Sector.ofBytes (patch smallBoot.bytes 11 (leBytes 2 1024)) else smallDisk n

end RustOs.Fs.Fat32
