import RustOs.Drivers.Faulty
import RustOs.Fs.Fat32.Truncate

/-!
# The FAT on a drive that fails

What a call has done to the FAT copies is a set of marks: for a copy and a cluster,
the 28 bits written over the entry, or none (`Marks`). On a drive that fails, a
write of one entry leaves its mark in the copies it reached, a search leaves none.
`Marked fs f fails s (m, t)` says that the drive `s` has made `t` accesses and
holds the table `f` under the marks `m`; the theorems `f_marked` give each function
its outcome, marks and time for every schedule of failures.
-/

namespace RustOs.Fs.Fat32

open Lib Nat Prog Outcome List Drivers
open Drivers.Faulty (Quiet reach spent)

variable {fs : Fat32}

/-! ## Marks -/

/-- What was written over the entry of a cluster in a copy. -/
def Marks : Type := Nat → Nat → Option Nat

namespace Marks

/-- No entry was written. -/
def none : Marks := fun _ _ => .none

variable (m : Marks)

/-- The entry of cluster `c` written in the `r` copies from `i` on. -/
def put (i r c x : Nat) : Marks := fun k c' =>
  if c' = c ∧ i ≤ k ∧ k < i + r then some x else m k c'

/-- A table with the marks on it; the top four bits of an entry stay. -/
def overlay (f : Copies) : Copies := fun k c =>
  match m k c with
  | some x => f k c / 2 ^ 28 * 2 ^ 28 + x
  | .none => f k c

/-- All marks are entries. -/
def Small : Prop := ∀ k c x, m k c = some x → x < 2 ^ 28

lemma put_of_ne {i r c x c' : Nat} (k : Nat) (h : c' ≠ c) :
    m.put i r c x k c' = m k c' :=
  if_neg fun h' => h h'.1

lemma put_zero (i c x : Nat) : m.put i 0 c x = m := by
  funext k c'
  exact if_neg (by omega)

/-- One copy, and then those behind it. -/
lemma put_put (i r c x : Nat) :
    (m.put i 1 c x).put (i + 1) r c x = m.put i (r + 1) c x := by
  funext k c'
  unfold put
  by_cases hc : c' = c
  · by_cases h₁ : i + 1 ≤ k ∧ k < i + 1 + r
    · rw [if_pos ⟨hc, h₁⟩, if_pos ⟨hc, by omega⟩]
    · by_cases h₂ : i ≤ k ∧ k < i + 1
      · rw [if_neg (fun h => h₁ h.2), if_pos ⟨hc, h₂⟩, if_pos ⟨hc, by omega⟩]
      · rw [if_neg (fun h => h₁ h.2), if_neg (fun h => h₂ h.2), if_neg (by omega)]
  · rw [if_neg (fun h => hc h.1), if_neg (fun h => hc h.1), if_neg (fun h => hc h.1)]

lemma small_none : Small none := fun _ _ _ h => nomatch h

lemma Small.put {m : Marks} (h : m.Small) {i r c x : Nat} (hx : x < 2 ^ 28) :
    (m.put i r c x).Small := by
  intro k c' y hy
  unfold Marks.put at hy
  split at hy
  next =>
    injection hy with hy
    omega
  next => exact h k c' y hy

lemma overlay_high {m : Marks} (h : m.Small) (f : Copies) (k c : Nat) :
    m.overlay f k c / 2 ^ 28 * 2 ^ 28 = f k c / 2 ^ 28 * 2 ^ 28 := by
  unfold overlay
  rcases hm : m k c with _ | x
  · rfl
  · have := h k c x hm
    dsimp only
    omega

/-- The marks agree with what was there. -/
def Harmless (fs : Fat32) (f : Copies) (m : Marks) : Prop :=
  ∀ k < fs.numFats, ∀ c < fs.sectorsPerFat * 128, ∀ x, m k c = some x → f k c % 2 ^ 28 = x

/-- Such marks leave the table as it was. -/
lemma harmless_iff {f : Copies} {m : Marks} :
    m.Harmless fs f ↔ ∀ k < fs.numFats, ∀ c < fs.sectorsPerFat * 128, m.overlay f k c = f k c := by
  refine forall_congr' fun k => imp_congr_right fun _ => forall_congr' fun c =>
    imp_congr_right fun _ => ?_
  unfold overlay
  rcases hm : m k c with _ | x
  · exact iff_of_true (fun x hx => nomatch hx) rfl
  · dsimp only
    constructor
    · intro h'
      have := h' x rfl
      omega
    · intro heq y hy
      injection hy with hy
      omega

end Marks

/-- The drive has made `t` accesses and holds the table under the marks. -/
structure Marked (fs : Fat32) (f : Copies) (fails : Nat → Bool) (s : Faulty) (a : Marks × Nat) :
    Prop where
  holds : fs.Holds s.disk (a.1.overlay f)
  clock : s.clock = a.2
  fails : s.fails = fails
  small : a.1.Small

section
variable {f : Copies} {fails : Nat → Bool} {m : Marks} {t : Nat}

/-! ## Accesses -/

lemma readSector_fails (ht : fails t = true) (lba : Nat) :
    Runs (Marked fs f fails) (Drive.readSector lba : Prog Faulty String Sector) (m, t)
      (.err "ATA error") (m, t + 1) := by
  intro s hs
  have hfail : s.fails s.clock = true := by rw [hs.fails, hs.clock]; exact ht
  refine ⟨s.tick, if_pos hfail, hs.holds, ?_, hs.fails, hs.small⟩
  show s.clock + 1 = t + 1
  rw [hs.clock]

lemma readSector_marked (ht : fails t = false) {s : Faulty} (hs : Marked fs f fails s (m, t))
    {lba : Nat} (hlba : lba < 2 ^ 28) :
    (Drive.readSector lba : Prog Faulty String Sector) s = (.ok (s.disk lba), s.tick)
      ∧ Marked fs f fails s.tick (m, t + 1) := by
  have hfail : ¬s.fails s.clock = true := by
    rw [hs.fails, hs.clock, ht]
    exact Bool.false_ne_true
  refine ⟨?_, hs.holds, ?_, hs.fails, hs.small⟩
  · show (if s.fails s.clock = true then _ else _) = _
    rw [if_neg hfail, mod_eq_of_lt hlba]
  · show s.clock + 1 = t + 1
    rw [hs.clock]

lemma readFatEntry_fails (g : Geometry fs) {c : Nat} (hc : fs.InRange c) (ht : fails t = true) :
    Runs (Marked fs f fails) (fs.readFatEntry c) (m, t) (.err "ATA error") (m, t + 1) := by
  obtain ⟨h₁, h₂, h₃, h₄⟩ := fatAddress g hc.2
  refine .lift_bind h₁ (.lift_bind h₂ (.lift_bind h₃ (.lift_bind h₄ ?_)))
  exact .bind_err (readSector_fails ht _)

/-- An entry is read under the marks. -/
lemma readFatEntry_marked (g : Geometry fs) {c : Nat} (hc : fs.InRange c)
    (ht : fails t = false) :
    Runs (Marked fs f fails) (fs.readFatEntry c) (m, t) (.ok ((m.overlay f).value c))
      (m, t + 1) := by
  obtain ⟨h₁, h₂, h₃, h₄⟩ := fatAddress g hc.2
  have hb := fatSector_bound g hc.2
  refine .lift_bind h₁ (.lift_bind h₂ (.lift_bind h₃ (.lift_bind h₄ ?_)))
  intro s hs
  obtain ⟨hread, hs'⟩ := readSector_marked ht hs
    (show fs.firstFatSector + c / 128 < 2 ^ 28 by omega)
  have hraw := hs.holds 0 g.fats_pos c (inRange_lt g hc)
  unfold rawEntry at hraw
  rw [Nat.zero_mul, Nat.add_zero] at hraw
  refine ⟨_, ?_, hs'⟩
  rw [bind_ok hread, le32In_entry, bind_ok (lift_apply _ _), hraw]
  rfl

/-- The sector of cluster `c` in copy `k`. -/
def fatSector (fs : Fat32) (k c : Nat) : Nat :=
  fs.firstFatSector + k * fs.sectorsPerFat + c / 128

section

variable (g : Geometry fs)
include g

lemma fatSector_lt {k c : Nat} (hk : k < fs.numFats)
    (hc : c < fs.totalClusters + 2) : fs.fatSector k c < 2 ^ 28 := by
  have hb := fatSector_bound g hc
  have hap := g.apart
  have hmul := unit_end_le fs.sectorsPerFat hk
  unfold fatSector
  omega

/-- The entry of one copy is merged. -/
lemma holds_merge {d : Disk} (hd : fs.Holds d (m.overlay f)) (hm : m.Small)
    {i c x : Nat} (hc : c < fs.totalClusters + 2) (hx : x < 2 ^ 28) :
    fs.Holds (d.update (fs.fatSector i c) (mergeEntry (d (fs.fatSector i c)) c x))
      ((m.put i 1 c x).overlay f) := by
  have hb := fatSector_bound g hc
  intro k hk c' hc'
  have hq' : c' / 128 < fs.sectorsPerFat := by omega
  have hold := hd k hk c' hc'
  unfold rawEntry at hold ⊢
  by_cases hsec : fs.firstFatSector + k * fs.sectorsPerFat + c' / 128 = fs.fatSector i c
  · obtain ⟨rfl, hq⟩ := fatSector_inj hq' hb.1 hsec
    rw [hsec] at hold ⊢
    rw [Disk.update_same]
    by_cases hcc : c' = c
    · subst hcc
      rw [entryIn_mergeEntry _ _ hx, hold, Marks.overlay_high hm]
      unfold Marks.overlay Marks.put
      rw [if_pos ⟨rfl, by omega, by omega⟩]
    · rw [entryIn_mergeEntry_ne _ _ (by omega), hold]
      unfold Marks.overlay
      rw [Marks.put_of_ne m k hcc]
  · have hout : ¬(c' = c ∧ i ≤ k ∧ k < i + 1) := by
      rintro ⟨rfl, h₁, h₂⟩
      obtain rfl : k = i := by omega
      exact hsec rfl
    rw [Disk.update_ne hsec, hold]
    unfold Marks.overlay Marks.put
    rw [if_neg hout]

/-- One copy of an entry: read, merged and written. -/
lemma copyEntry_marked {i c x : Nat} (hi : i < fs.numFats)
    (hc : c < fs.totalClusters + 2) (hx : x < 2 ^ 28) {s : Faulty}
    (hs : Marked fs f fails s (m, t)) (h₂ : fails (t + 1) = false) :
    ∃ s', (Drive.writeSector (fs.fatSector i c) (mergeEntry (s.disk (fs.fatSector i c)) c x)
        : Prog Faulty String Unit) s.tick = (.ok (), s')
      ∧ Marked fs f fails s' (m.put i 1 c x, t + 2) := by
  have hclock : s.tick.clock = t + 1 := by
    show s.clock + 1 = t + 1
    rw [hs.clock]
  have hfail : ¬s.tick.fails s.tick.clock = true := by
    rw [hclock]
    show ¬s.fails (t + 1) = true
    rw [hs.fails, h₂]
    exact Bool.false_ne_true
  have hnew := holds_merge (i := i) g hs.holds hs.small hc hx
  generalize hd : s.disk.update (fs.fatSector i c)
    (mergeEntry (s.disk (fs.fatSector i c)) c x) = d at hnew
  refine ⟨{ s.tick.tick with disk := d }, ?_, hnew, ?_, hs.fails, hs.small.put hx⟩
  · show (if s.tick.fails s.tick.clock = true then _ else _) = _
    rw [if_neg hfail, mod_eq_of_lt (fatSector_lt g hi hc), ← hd]
    rfl
  · show s.tick.clock + 1 = t + 2
    rw [hclock]

/-- `write_fat_entry` marks the copies it reaches. -/
lemma writeFatEntryFrom_marked {c x : Nat} (hc : c < fs.totalClusters + 2)
    (hx : x < 2 ^ 28) (n : Nat) : ∀ (i : Nat) (m : Marks) (t : Nat), i + n ≤ fs.numFats →
      Runs (Marked fs f fails) (fs.writeFatEntryFrom (c * 4) (c % 128 * 4) x i n) (m, t)
        (if reach fails t n = n then .ok () else .err "ATA error")
        (m.put i (reach fails t n) c x, spent fails t n) := by
  obtain ⟨_, hdiv, _, _⟩ := fatAddress g hc
  have hb := fatSector_bound g hc
  have hap := g.apart
  -- each copy takes a read and a write, and either may fail
  induction n with
  | zero =>
    intro i m t _
    rw [reach, if_pos rfl, Marks.put_zero]
    exact .pure _
  | succ n ih =>
    intro i m t hi
    have hmul := unit_end_le fs.sectorsPerFat (show i < fs.numFats by omega)
    refine .lift_bind (umul_of_lt (by omega))
      (.lift_bind (uadd_of_lt (by omega)) (.lift_bind hdiv
        (.lift_bind (uadd_of_lt (by omega)) ?_)))
    show Runs _ (Drive.readSector (fs.fatSector i c) >>= _) _ _ _
    cases h₁ : fails t with
    | true =>
      rw [reach, spent, h₁, Bool.true_or, if_pos rfl, if_neg (succ_ne_zero n).symm, if_pos rfl,
        Marks.put_zero]
      exact .bind_err (readSector_fails h₁ _)
    | false =>
      intro s hs
      obtain ⟨hread, hs₁⟩ :=
        readSector_marked h₁ hs (fatSector_lt g (show i < fs.numFats by omega) hc)
      have hset : ∀ y, setLe32In (s.disk (fs.fatSector i c)) (c % 128 * 4) y
          = .ok (Sector.ofBytes (patch (s.disk (fs.fatSector i c)).bytes (c % 128 * 4)
              (leBytes 4 y))) :=
        fun y => if_pos (by omega)
      rw [bind_ok hread, le32In_entry, bind_ok (lift_apply _ _), hset,
        bind_ok (lift_apply _ _)]
      show ∃ s', (Drive.writeSector (fs.fatSector i c)
        (mergeEntry (s.disk (fs.fatSector i c)) c x) >>= _ : Prog Faulty String Unit) s.tick = _ ∧ _
      cases h₂ : fails (t + 1) with
      | true =>
        have hfail : s.tick.fails s.tick.clock = true := by
          rw [hs₁.clock, hs₁.fails]
          exact h₂
        rw [reach, spent, h₁, h₂, Bool.or_true, if_pos rfl, if_neg (succ_ne_zero n).symm,
          if_neg Bool.false_ne_true, if_pos rfl, Marks.put_zero]
        refine ⟨s.tick.tick, bind_err (if_pos hfail), hs₁.holds, ?_, hs₁.fails, hs₁.small⟩
        show s.tick.clock + 1 = t + 2
        rw [hs₁.clock]
      | false =>
        obtain ⟨s₂, hwrite, hs₂⟩ := copyEntry_marked g (show i < fs.numFats by omega) hc hx hs h₂
        rw [bind_ok hwrite, reach, spent, h₁, h₂, Bool.or_false, if_neg Bool.false_ne_true,
          if_neg Bool.false_ne_true, if_neg Bool.false_ne_true, ← Marks.put_put]
        have hrec := ih (i + 1) (m.put i 1 c x) (t + 2) (by omega) s₂ hs₂
        simpa only [add_right_cancel_iff] using hrec

/-- An entry is marked in the copies that are reached. -/
lemma writeFatEntry_marked {c x : Nat} (hc : fs.InRange c) (hx : x < 2 ^ 28)
    (m : Marks) (t : Nat) :
    Runs (Marked fs f fails) (fs.writeFatEntry c x) (m, t)
      (if reach fails t fs.numFats = fs.numFats then .ok () else .err "ATA error")
      (m.put 0 (reach fails t fs.numFats) c x, spent fails t fs.numFats) := by
  obtain ⟨h₁, _, _, h₄⟩ := fatAddress g hc.2
  refine .lift_bind h₁ (.lift_bind h₄ ?_)
  rw [mod_eq_of_lt hx]
  exact writeFatEntryFrom_marked g hc.2 hx fs.numFats 0 m t (by omega)

end

/-! ## Searching -/

/-- The free clusters among the `n` from `c` on. -/
def Copies.freeIn (f : Copies) (c n : Nat) : List Nat :=
  (List.range' c n).filter fun b => f.value b = 0

/-- The clusters a search from `c` on looks at: up to the first free one. -/
def searchReads (c n : Nat) : List Nat → Nat
  | [] => n
  | x :: _ => x + 1 - c

lemma Copies.freeIn_succ_free {c : Nat} (n : Nat) (h : f.value c = 0) :
    f.freeIn c (n + 1) = c :: f.freeIn (c + 1) n := by
  unfold freeIn
  rw [range'_succ, filter_cons_of_pos (by rw [decide_eq_true_eq]; exact h)]

lemma Copies.freeIn_succ_taken {c : Nat} (n : Nat) (h : f.value c ≠ 0) :
    f.freeIn c (n + 1) = f.freeIn (c + 1) n := by
  unfold freeIn
  rw [range'_succ, filter_cons_of_neg (by rw [decide_eq_true_eq]; exact h)]

lemma Copies.mem_freeIn {b c n : Nat} :
    b ∈ f.freeIn c n ↔ (c ≤ b ∧ b < c + n) ∧ f.value b = 0 := by
  unfold freeIn
  rw [mem_filter, mem_range'_1, decide_eq_true_eq]

/-- A taken cluster costs one access more. -/
lemma searchReads_succ (f : Copies) (c n : Nat) :
    searchReads c (n + 1) (f.freeIn (c + 1) n) =
      searchReads (c + 1) n (f.freeIn (c + 1) n) + 1 := by
  rcases hF : f.freeIn (c + 1) n with _ | ⟨x, F⟩
  · rfl
  · have hx := (Copies.mem_freeIn.mp (hF ▸ mem_cons_self : x ∈ f.freeIn (c + 1) n)).1
    show x + 1 - c = x + 1 - (c + 1) + 1
    omega

/-- A search finds the first free cluster, if none of its reads fails. -/
lemma findFreeClusterFrom_marked (g : Geometry fs) (n : Nat) : ∀ (c t : Nat), 2 ≤ c →
    c + n ≤ fs.totalClusters + 2 →
    (Quiet fails t (searchReads c n ((m.overlay f).freeIn c n)) →
      Runs (Marked fs f fails) (fs.findFreeClusterFrom c n) (m, t)
        (.ok ((m.overlay f).freeIn c n).head?) (m, t + searchReads c n ((m.overlay f).freeIn c n)))
    ∧ (¬Quiet fails t (searchReads c n ((m.overlay f).freeIn c n)) →
      ∃ t', Runs (Marked fs f fails) (fs.findFreeClusterFrom c n) (m, t) (.err "ATA error")
        (m, t')) := by
  induction n with
  | zero =>
    intro c t _ _
    exact ⟨fun _ => .pure _, fun h => absurd (fun i hi => by cases hi) h⟩
  | succ n ih =>
    intro c t h2 hle
    have hc : fs.InRange c := ⟨h2, by omega⟩
    by_cases hfree : (m.overlay f).value c = 0
    · -- the cluster looked at is free: this is the only read
      rw [Copies.freeIn_succ_free n hfree]
      have hreads : searchReads c (n + 1) (c :: (m.overlay f).freeIn (c + 1) n) = 1 := by
        show c + 1 - c = 1
        omega
      rw [hreads, Faulty.quiet_one]
      cases ht : fails t with
      | false =>
        refine ⟨fun _ => .bind (readFatEntry_marked g hc ht) ?_, fun h => absurd rfl h⟩
        rw [if_pos hfree]
        exact .pure _
      | true =>
        exact ⟨fun h => (by cases h), fun _ => ⟨t + 1, .bind_err (readFatEntry_fails g hc ht)⟩⟩
    · rw [Copies.freeIn_succ_taken n hfree, searchReads_succ, Faulty.quiet_succ]
      obtain ⟨hok, herr⟩ := ih (c + 1) (t + 1) (by omega) (by omega)
      cases ht : fails t with
      | false =>
        have hread := readFatEntry_marked (m := m) (f := f) g hc ht
        constructor
        · intro hq
          refine .bind hread ?_
          rw [if_neg hfree, ← Nat.add_assoc, Nat.add_right_comm]
          exact hok hq.2
        · intro hq
          obtain ⟨t', hrun⟩ := herr fun h => hq ⟨rfl, h⟩
          refine ⟨t', .bind hread ?_⟩
          rw [if_neg hfree]
          exact hrun
      | true =>
        exact ⟨fun h => (by cases h.1), fun _ => ⟨t + 1, .bind_err (readFatEntry_fails g hc ht)⟩⟩

/-- The search reads entry after entry, up to one that fails. -/
lemma findFreeCluster_marked (g : Geometry fs) (m : Marks) (t : Nat) {F : List Nat}
    (hF : (m.overlay f).freeIn 2 fs.totalClusters = F) :
    (Quiet fails t (searchReads 2 fs.totalClusters F) →
      Runs (Marked fs f fails) fs.findFreeCluster (m, t) (.ok F.head?)
        (m, t + searchReads 2 fs.totalClusters F))
    ∧ (¬Quiet fails t (searchReads 2 fs.totalClusters F) →
      ∃ t', Runs (Marked fs f fails) fs.findFreeCluster (m, t) (.err "ATA error") (m, t')) := by
  have hnum := g.numbers
  have hadd : (uadd 32 fs.totalClusters 2 : Outcome String Nat)
      = .ok (fs.totalClusters + 2) := uadd_of_lt (by omega)
  obtain ⟨hok, herr⟩ := @findFreeClusterFrom_marked fs f fails m g fs.totalClusters 2 t
    (le_refl 2) (by omega)
  rw [hF] at hok herr
  constructor
  · exact fun hq => .lift_bind hadd (hok hq)
  · intro hq
    obtain ⟨t', hrun⟩ := herr hq
    exact ⟨t', .lift_bind hadd hrun⟩

/-! ## Rolling back -/

/-- The marks after the roll-back of some clusters, and the time. -/
def Marks.rolled (N : Nat) (fails : Nat → Bool) : List Nat → Marks × Nat → Marks × Nat
  | [], a => a
  | c :: l, (m, t) => rolled N fails l (m.put 0 (reach fails t N) c 0, spent fails t N)

/-- The roll-back drops its errors and goes on. -/
lemma rollBack_marked (g : Geometry fs) : ∀ (l : List Nat) (a : Marks × Nat),
    (∀ c ∈ l, fs.InRange c) →
    Runs (Marked fs f fails) (fs.rollBack l) a (.ok ()) (Marks.rolled fs.numFats fails l a) := by
  intro l
  induction l with
  | nil => exact fun a _ => .pure _
  | cons c l ih =>
    intro ⟨m, t⟩ hr
    have hwrite := @writeFatEntry_marked fs f fails g c 0 (hr c mem_cons_self)
      (Nat.two_pow_pos 28) m t
    have hrec := ih (m.put 0 (reach fails t fs.numFats) c 0, spent fails t fs.numFats)
      fun b hb => hr b (mem_cons_of_mem _ hb)
    split at hwrite
    next => exact .bind (.attempt_ok hwrite) hrec
    next => exact .bind (.attempt_err hwrite) hrec

end

end RustOs.Fs.Fat32
