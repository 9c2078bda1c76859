import RustOs.Lib.Trace
import RustOs.Fs.Fat32.FreeCount
import RustOs.Fs.Fat32.Mount

/-!
# The free count along runs

A step of a run is a `write`, `delete`, `mkdir`, `rmdir` or `truncate_chain`.
`StepKeeps` says of a step what it has to find so that the recorded count stays
right: it takes no cluster, and what it frees is a whole chain, or nothing.

> `tracks_run`: the count stays right along every run whose steps meet
> `StepKeeps`, and for runs that follow no link out of the data area it stays
> right along no other.

`mkdir_uncounted` is the shortest run along which it does not.
-/

namespace RustOs.Fs.Fat32

open Lib Prog Volume Drivers
open List hiding Vector

variable {fs : Fat32} {path : Str}

/-! ## Cutting a chain -/

/-- `truncate_chain` from the last cluster it keeps on: the end mark, and what is
freed behind it. -/
def cutAt (fs : Fat32) (current : Nat) : Prog Disk String Nat := do
  let tail ← fs.getNextCluster current
  fs.writeFatEntry current endOfChain
  match tail with
  | some t => do
    let freed ← fs.freeClusterChainFrom chainFuel t
    let _ ← (fs.updateFsinfo freed 0).attempt
    pure freed
  | none => pure 0

lemma skipClusters_readOnly (fs : Fat32) (n : Nat) :
    ∀ c, ReadOnly (fs.skipClusters n c : Prog Disk String Nat) := by
  induction n with
  | zero => exact fun c => .pure _
  | succ n ih =>
    intro c
    refine (getNextCluster_readOnly fs c).bind fun next => ?_
    cases next with
    | none => exact .fail _
    | some next => exact ih next

section
variable {g : Geometry fs} {d : Disk}

/-- The walk of `truncate_chain` follows links. -/
lemma skipClusters_inside (n : Nat) : ∀ (c : Nat) {b : Nat}, (view g d).Inside c →
    (fs.skipClusters n c d).1 = .ok b → (view g d).Inside b := by
  induction n with
  | zero =>
    intro c b hin h
    obtain rfl : c = b := Outcome.ok.inj h
    exact hin
  | succ n ih =>
    intro c b hin h
    have hnext := getNextCluster_runs (R := Views g) g (view g d) hin.here
    unfold skipClusters at h
    rw [(getNextCluster_readOnly fs c).bind_fst, hnext.outcome rfl] at h
    rcases hlink : (view g d).link c with x | _ | _
    · rw [hlink] at h
      exact ih x (hin.next hlink) h
    · rw [hlink] at h
      cases h
    · rw [hlink] at h
      cases h

variable {v : Volume fs} {c : Nat}

/-- An entry in use that stays in use is no change for the free clusters. -/
lemma freeList_setFat_used (v : Volume fs) {x : Nat} (hc : v.fat c ≠ 0) (hx : x ≠ 0) :
    (v.setFat c x).freeList = v.freeList := by
  refine freeList_congr fun b _ => ?_
  rw [setFat_fat]
  by_cases hb : b = c
  · rw [if_pos hb, hb]
    exact iff_of_false hx hc
  · rw [if_neg hb]

/-- Only what is freed behind the end mark can make the count wrong. -/
lemma cutAt_tracks (hi : HasInfo fs) (h : Books g v.freeList.length d v) (hc : fs.InRange c) :
    ((∀ t, v.link c = .next t → (v.setFat c endOfChain).Freeable t) → Tracks g (fs.cutAt c d).2)
    ∧ (v.Inside c →
      Tracks g (fs.cutAt c d).2 →
      ∀ t, v.link c = .next t → (v.setFat c endOfChain).Freeable t) := by
  have := books_table g hi v.freeList.length
  have hnext := getNextCluster_runs (R := Books g v.freeList.length) g v hc
  have hwrite := Table.writeFatEntry (R := Books g v.freeList.length) g v endOfChain hc
  rw [endOfChain_mod] at hwrite
  have hkept (hlive : v.link c ≠ .bad) : (v.setFat c endOfChain).freeList = v.freeList :=
    freeList_setFat_used v (fat_ne_zero_of_link hlive) (by decide)
  rcases hlink : v.link c with t | _ | _ <;> rw [hlink] at hnext hkept
    <;> obtain ⟨d₁, hrun₁, hd₁⟩ := hnext d h
  · obtain ⟨d₂, hrun₂, hd₂⟩ := hwrite d₁ hd₁
    rw [← hkept nofun] at hd₂
    have hfreed : ∀ l r, Volume.Freed (v.setFat c endOfChain) t l r →
        (Tracks g (fs.cutAt c d).2 ↔ (v.setFat c endOfChain).Freeable t) := by
      intro l r hf
      obtain ⟨d₃, hrun₃, hd₃⟩ := freeThenCount_books hi hd₂ hf id
      have hcut : fs.cutAt c d = _ := (bind_ok hrun₁).trans ((bind_ok hrun₂).trans hrun₃)
      rw [hcut, hd₃.tracks_iff, freedCount_eq_iff hf.allocated.1 hf.allocated.2, hf.freeable_iff]
    constructor
    · intro hfree
      obtain ⟨l, r, hf⟩ := (hfree t rfl).freed
      exact (hfreed l r hf).mpr (hfree t rfl)
    · intro hin ht t' htt'
      injection htt' with htt'
      subst htt'
      have hin' : (v.setFat c endOfChain).Inside t :=
        (hin.next hlink).mono fun a b => leads_setFat (.inr (by decide))
      obtain ⟨l, r, hf⟩ := hin'.freed (fs.totalClusters + 1) (by omega)
      exact (hfreed l r hf).mp ht
  · obtain ⟨d₂, hrun₂, hd₂⟩ := hwrite d₁ hd₁
    unfold cutAt
    rw [bind_ok hrun₁, bind_ok hrun₂]
    refine ⟨fun _ => hd₂.tracks_iff.mpr ?_, fun _ _ t ht => nomatch ht⟩
    rw [hkept nofun]
  · unfold cutAt
    rw [bind_err hrun₁]
    exact ⟨fun _ => hd₁.tracks_iff.mpr rfl, fun _ _ t ht => nomatch ht⟩

end

/-! ## Steps and runs -/

/-- The calls of a run. -/
inductive SpaceCall where
  | call (c : Call)
  | truncateChain (start keepClusters : Nat)

/-- The disk after a call that returns. -/
def SpaceCall.step (fs : Fat32) : SpaceCall → Disk → Option Disk
  | .call c => (c.run fs).after
  | .truncateChain start keepClusters => (fs.truncateChain start keepClusters).after

variable (g : Geometry fs)

/-- A `write` that keeps the count right takes nothing: there are too few
clusters, even with those of the old chain, or the old chain cannot be freed. -/
def WriteKeeps (d : Disk) (path : Str) (data : List UInt8) : Prop :=
  match (fs.findFile (trimStartMatches '/' path) d).1 with
  | .ok (some e) =>
    (view g d).EntryOk e
        ∧ (view g d).freeList.length + ((view g d).entryChain e).length < fs.clustersFor data
      ∨ (view g d).Broken e.firstCluster
  | .ok none => (view g d).freeList.length < fs.clustersFor data
  | _ => True

/-- A `mkdir` that keeps the count right takes nothing. -/
def MkdirKeeps (d : Disk) (path : Str) : Prop :=
  match (fs.findFile (trimStartMatches '/' path) d).1 with
  | .ok (some _) => True
  | _ => trimStartMatches '/' path = [] ∨ (view g d).freeList = []

/-- A `delete` frees a whole chain, or nothing, and then rewrites a directory
that lies in the data area. -/
def DeleteKeeps (d : Disk) (path : Str) : Prop :=
  match (fs.findFile (trimStartMatches '/' path) d).1 with
  | .ok (some e) =>
    e.isDirectory = true ∨ (view g d).Broken e.firstCluster
      ∨ (view g d).EntryOk e ∧ (view g d).Inside fs.rootCluster
  | _ => True

/-- So does an `rmdir`. -/
def RmdirKeeps (d : Disk) (path : Str) : Prop :=
  match (fs.findFile (trimStartMatches '/' path) d).1 with
  | .ok (some e) =>
    e.isDirectory = false ∨ ¬fs.FoundEmpty d e ∨ (view g d).Broken e.firstCluster
      ∨ (view g d).Chained e.firstCluster ∧ (view g d).Inside fs.rootCluster
  | _ => True

/-- What `truncate_chain` frees is a whole chain, or nothing, once the end mark
is set. -/
def TruncateKeeps (d : Disk) (start keepClusters : Nat) : Prop :=
  if keepClusters = 0 then (view g d).Freeable start
  else
    match (fs.skipClusters (keepClusters - 1) start d).1 with
    | .ok c =>
      fs.InRange c ∧ ∀ t, (view g d).link c = .next t → ((view g d).setFat c endOfChain).Freeable t
    | _ => True

/-- What a call must find for the count to stay right. -/
def StepKeeps (d : Disk) : SpaceCall → Prop
  | .call (.write path data) => WriteKeeps g d path data
  | .call (.delete path) => DeleteKeeps g d path
  | .call (.mkdir path) => MkdirKeeps g d path
  | .call (.rmdir path) => RmdirKeeps g d path
  | .truncateChain start keepClusters => TruncateKeeps g d start keepClusters

/-- The root directory and what the path leads to stay in the data area. -/
def FollowsInside (d : Disk) (path : Str) : Prop :=
  (view g d).Inside fs.rootCluster
    ∧ ∀ e, (fs.findFile (trimStartMatches '/' path) d).1 = .ok (some e) → e.firstCluster ≠ 0 →
      (view g d).Inside e.firstCluster

/-- No chain the call follows leaves the data area. -/
def StepInside (d : Disk) : SpaceCall → Prop
  | .call (.write path _) => FollowsInside g d path
  | .call (.delete path) => FollowsInside g d path
  | .call (.mkdir path) => FollowsInside g d path
  | .call (.rmdir path) => FollowsInside g d path
  | .truncateChain start _ => (view g d).Inside start

variable {g}

section
variable {g : Geometry fs} {d : Disk}

section

variable (hi : HasInfo fs) (ht : Tracks g d)
include hi ht

/-- When `truncate_chain` keeps the count. -/
lemma truncateChain_tracks {start keepClusters : Nat}
    (hret : (fs.truncateChain start keepClusters d).1.Returns) :
    (TruncateKeeps g d start keepClusters → Tracks g (fs.truncateChain start keepClusters d).2)
    ∧ ((view g d).Inside start → Tracks g (fs.truncateChain start keepClusters d).2 →
      TruncateKeeps g d start keepClusters) := by
  unfold TruncateKeeps
  unfold truncateChain at hret ⊢
  by_cases hk : keepClusters = 0
  · rw [if_pos hk, if_pos hk]
    have hfreed : ∀ l r, Volume.Freed (view g d) start l r →
        (Tracks g ((fs.freeClusterChain start >>= fun _ => pure (2 ^ 32 - 1)
            : Prog Disk String Nat) d).2 ↔ (view g d).Freeable start) := by
      intro l r hf
      obtain ⟨d', hrun, hd'⟩ := freeClusterChain_books hi ht.books hf
      have hstate : ((fs.freeClusterChain start >>= fun _ => pure (2 ^ 32 - 1)
          : Prog Disk String Nat) d).2 = d' := by
        cases r with
        | true => rw [bind_ok hrun]; rfl
        | false => rw [bind_err hrun]
      rw [hstate, hd'.tracks_iff, freedCount_eq_iff hf.allocated.1 hf.allocated.2, hf.freeable_iff]
    constructor
    · intro hf
      obtain ⟨l, r, hl⟩ := hf.freed
      exact (hfreed l r hl).mpr hf
    · intro hin ht'
      obtain ⟨l, r, hl⟩ := hin.freed (fs.totalClusters + 1) (by omega)
      exact (hfreed l r hl).mp ht'
  · rw [if_neg hk] at hret ⊢
    rw [if_neg hk]
    rcases (skipClusters_readOnly fs (keepClusters - 1) start).bind_cases hret with
      ⟨c, hskip, hrun⟩ | ⟨m, hskip, hrun⟩ <;> rw [hrun, hskip]
    · constructor
      · intro ⟨hc, hfree⟩
        exact (cutAt_tracks hi ht.books hc).1 hfree
      · intro hin ht'
        have hin' := skipClusters_inside _ start hin hskip
        exact ⟨hin'.here, (cutAt_tracks hi ht.books hin'.here).2 hin' ht'⟩
    · exact ⟨fun _ => ht, fun _ _ => trivial⟩

/-- When `write` keeps the count. -/
lemma write_tracks {data : List UInt8}
    (hret : (fs.write path data d).1.Returns) :
    (WriteKeeps g d path data → Tracks g (fs.write path data d).2)
    ∧ (FollowsInside g d path → Tracks g (fs.write path data d).2 → WriteKeeps g d path data) := by
  unfold WriteKeeps FollowsInside
  unfold write at hret ⊢
  rcases (findFile_readOnly fs _).mapErr_cases hret with ⟨found, hf, hrun⟩ | ⟨m, hf, hsame⟩
  · rw [hrun] at hret ⊢
    rw [hf]
    cases found with
    | some e =>
      constructor
      · intro hk
        rcases hk with ⟨hok, hlt⟩ | hbroken
        · have hfreed := entryFreed_of_entryOk hok
          refine (writeExisting_tracks hi ht.books hfreed _ data).1 (.inl ⟨rfl, ?_⟩)
          rw [freeList_length_clear hfreed.allocated.1 hfreed.allocated.2]
          exact hlt
        · exact (writeExisting_tracks hi ht.books (entryFreed_of_broken hbroken) _ data).1
            (.inr ⟨rfl, rfl⟩)
      · intro ⟨hroot, hin⟩ ht'
        obtain ⟨l, r, hfreed⟩ := exists_entryFreed (hin e rfl)
        rcases (writeExisting_tracks hi ht.books hfreed _ data).2 hroot hret ht' with
          ⟨rfl, hlt⟩ | ⟨rfl, rfl⟩
        · obtain ⟨hok, hchain⟩ := hfreed.entryOk
          rw [freeList_length_clear hfreed.allocated.1 hfreed.allocated.2] at hlt
          rw [← hchain] at hlt
          exact .inl ⟨hok, hlt⟩
        · exact .inr hfreed.broken
    | none =>
      obtain ⟨hkeep, hneed⟩ := writeNew_tracks hi ht.books (trimStartMatches '/' path) data
      exact ⟨hkeep, fun hin => hneed hin.1 hret⟩
  · rw [hsame, hf]
    exact ⟨fun _ => ht, fun _ _ => trivial⟩

/-- When `delete` keeps the count. -/
lemma delete_tracks
    (hret : (fs.delete path d).1.Returns) :
    (DeleteKeeps g d path → Tracks g (fs.delete path d).2)
    ∧ (FollowsInside g d path → Tracks g (fs.delete path d).2 → DeleteKeeps g d path) := by
  unfold DeleteKeeps FollowsInside
  unfold delete at hret ⊢
  rcases (findFile_readOnly fs _).mapErr_cases hret with ⟨found, hf, hrun⟩ | ⟨m, hf, hsame⟩
  · rw [hrun] at hret ⊢
    rw [hf]
    cases found with
    | none => exact ⟨fun _ => ht, fun _ _ => trivial⟩
    | some e =>
      cases hdir : e.isDirectory with
      | true =>
        simp only [hdir]
        exact ⟨fun _ => ht, fun _ _ => .inl trivial⟩
      | false =>
        simp only [hdir, Bool.false_eq_true, false_or] at hret ⊢
        have hfreed : ∀ l r, (view g d).EntryFreed e l r →
            (r = true → (view g d).Inside fs.rootCluster) →
            (Tracks g (fs.deleteFile (trimStartMatches '/' path) e d).2 ↔ r = true ∨ l = []) := by
          intro l r hl hroot
          obtain ⟨d', hrun', hd'⟩ := freeEntry_books hi ht.books hl
          exact freeThenDelete_tracks hi hrun' hd' hl.allocated.1 hl.allocated.2 _ hret hroot
        constructor
        · intro hk
          rcases hk with hbroken | ⟨hok, hroot⟩
          · exact (hfreed [] false (entryFreed_of_broken hbroken)
              (fun h => by cases h)).mpr (.inr rfl)
          · exact (hfreed _ true (entryFreed_of_entryOk hok) fun _ => hroot).mpr (.inl rfl)
        · rintro ⟨hroot, hin⟩ ht'
          obtain ⟨l, r, hl⟩ := exists_entryFreed (hin e rfl)
          rcases (hfreed l r hl fun _ => hroot).mp ht' with rfl | rfl
          · exact .inr ⟨hl.entryOk.1, hroot⟩
          · cases r with
            | true => exact .inr ⟨hl.entryOk.1, hroot⟩
            | false => exact .inl hl.broken
  · rw [hsame, hf]
    exact ⟨fun _ => ht, fun _ _ => trivial⟩

/-- When `mkdir` keeps the count. -/
lemma mkdir_tracks
    (hret : (fs.mkdir path d).1.Returns) :
    (MkdirKeeps g d path → Tracks g (fs.mkdir path d).2)
    ∧ (FollowsInside g d path → Tracks g (fs.mkdir path d).2 → MkdirKeeps g d path) := by
  obtain ⟨hkeep, hneed⟩ := makeDirectory_tracks hi ht.books (trimStartMatches '/' path)
  unfold MkdirKeeps FollowsInside
  unfold mkdir at hret ⊢
  by_cases h0 : trimStartMatches '/' path = []
  · rw [if_pos h0]
    refine ⟨fun _ => ht, fun _ _ => ?_⟩
    split
    next => trivial
    next => exact .inl h0
  · rw [if_neg h0] at hret ⊢
    rcases (findFile_readOnly fs _).attempt_cases hret with ⟨found, hf, hrun⟩ | ⟨m, hf, hrun⟩ <;>
      rw [hrun] at hret ⊢ <;> rw [hf]
    · cases found with
      | some e => exact ⟨fun _ => ht, fun _ _ => trivial⟩
      | none => exact ⟨fun hk => hkeep (hk.resolve_left h0),
          fun hin ht' => .inr (hneed hin.1 hret ht')⟩
    · exact ⟨fun hk => hkeep (hk.resolve_left h0), fun hin ht' => .inr (hneed hin.1 hret ht')⟩

/-- When `rmdir` keeps the count. -/
lemma rmdir_tracks
    (hret : (fs.rmdir path d).1.Returns) :
    (RmdirKeeps g d path → Tracks g (fs.rmdir path d).2)
    ∧ (FollowsInside g d path → Tracks g (fs.rmdir path d).2 → RmdirKeeps g d path) := by
  unfold RmdirKeeps FollowsInside
  unfold rmdir at hret ⊢
  -- follow the source to the place where the chain is freed; before it nothing is written
  by_cases h0 : trimStartMatches '/' path = []
  · have hnone : (fs.findFile (trimStartMatches '/' path) d).1 = .ok none := by
      rw [h0]
      rfl
    rw [if_pos h0, hnone]
    exact ⟨fun _ => ht, fun _ _ => trivial⟩
  · rw [if_neg h0] at hret ⊢
    rcases (findFile_readOnly fs _).mapErr_cases hret with ⟨found, hf, hrun⟩ | ⟨m, hf, hsame⟩
    · rw [hrun] at hret ⊢
      rw [hf]
      cases found with
      | none => exact ⟨fun _ => ht, fun _ _ => trivial⟩
      | some e =>
        cases hdir : e.isDirectory with
        | false =>
          simp only [hdir]
          exact ⟨fun _ => ht, fun _ _ => .inl trivial⟩
        | true =>
          simp only [hdir, Bool.not_true, Bool.false_eq_true, if_false, Bool.true_eq_false,
            false_or] at hret ⊢
          rcases (readDirectory_readOnly fs e.firstCluster).mapErr_cases hret with
            ⟨entries, hl, hread⟩ | ⟨m, hl, hread⟩ <;> rw [hread] at hret ⊢
          · by_cases hempty : (entries.filter (fun e => !isDot e)).length > 0
            · rw [if_pos hempty]
              refine ⟨fun _ => ht, fun _ _ => .inl ?_⟩
              rintro ⟨l, hl', hall⟩
              obtain rfl := Outcome.ok.inj (hl.symm.trans hl')
              exact all_isDot_iff.mp hall hempty
            · rw [if_neg hempty] at hret ⊢
              have hfound : fs.FoundEmpty d e := ⟨entries, hl, all_isDot_iff.mpr hempty⟩
              -- what is freed decides: the whole chain, or nothing of it
              have hfreed : ∀ l r, Volume.Freed (view g d) e.firstCluster l r →
                  (r = true → (view g d).Inside fs.rootCluster) →
                  (Tracks g (fs.removeDirectory (trimStartMatches '/' path) e d).2
                    ↔ r = true ∨ l = []) := by
                intro l r hl hroot
                obtain ⟨d', hrun', hd'⟩ := freeClusterChain_books hi ht.books hl
                refine freeThenDelete_tracks hi ?_ hd' hl.allocated.1 hl.allocated.2 _ hret hroot
                rw [mapErr_apply, hrun']
                cases r <;> rfl
              constructor
              · intro hk
                rcases hk.resolve_left (not_not_intro hfound) with hbroken | ⟨hchain, hroot⟩
                · exact (hfreed [] false (.bad hbroken.1 hbroken.2)
                    (fun h => by cases h)).mpr (.inr rfl)
                · exact (hfreed _ true (freed_of_chain hchain) fun _ => hroot).mpr (.inl rfl)
              · rintro ⟨hroot, hin⟩ ht'
                have hne : e.firstCluster ≠ 0 := by
                  intro hzero
                  rw [hzero] at hl
                  cases hl
                obtain ⟨l, r, hl⟩ := (hin e rfl hne).freed (fs.totalClusters + 1) (by omega)
                have hfree := hl.freeable_iff.mpr ((hfreed l r hl fun _ => hroot).mp ht')
                rcases hfree with hchain | hbroken
                · exact .inr (.inr ⟨hchain, hroot⟩)
                · exact .inr (.inl hbroken)
          · refine ⟨fun _ => ht, fun _ _ => .inl ?_⟩
            rintro ⟨l, hl', _⟩
            cases hl.symm.trans hl'
    · rw [hsame, hf]
      exact ⟨fun _ => ht, fun _ _ => trivial⟩

/-- A call keeps the count right if it meets its condition, and only then if it
stays in the data area. -/
lemma step_tracks (c : SpaceCall) {d' : Disk}
    (hstep : c.step fs d = some d') :
    (StepKeeps g d c → Tracks g d') ∧ (StepInside g d c → Tracks g d' → StepKeeps g d c) := by
  cases c with
  | call c =>
    have hret := after_returns hstep
    rw [← after_eq hstep]
    cases c with
    | write path data => exact write_tracks hi ht hret
    | delete path => exact delete_tracks hi ht hret
    | mkdir path => exact mkdir_tracks hi ht hret
    | rmdir path => exact rmdir_tracks hi ht hret
  | truncateChain start keepClusters =>
    have hret := after_returns hstep
    rw [← after_eq hstep]
    exact truncateChain_tracks hi ht hret

end

end

/-- The recorded count is right throughout a run whose calls meet their
condition; throughout a run that stays in the data area it is right only then. -/
theorem tracks_run (g : Geometry fs) (hi : HasInfo fs) {d : Disk} (ht : Tracks g d)
    (calls : List SpaceCall) :
    (Along (SpaceCall.step fs) (fun c d => StepKeeps g d c) calls d →
      Always (SpaceCall.step fs) (Tracks g) calls d)
    ∧ (Along (SpaceCall.step fs) (fun c d => StepInside g d c) calls d →
      Always (SpaceCall.step fs) (Tracks g) calls d →
      Along (SpaceCall.step fs) (fun c d => StepKeeps g d c) calls d) := by
  constructor
  · refine always_of_along (fun c d d' ht hstep hk => ?_) ht
    exact (step_tracks hi ht c hstep).1 hk
  · refine along_of_always (fun c d d' ht hstep hin ht' => ?_) calls d
    exact (step_tracks hi ht c hstep).2 hin ht'

/-! ## A small volume -/

/-- The small volume with the right count in its FSInfo sector. -/
def countedDisk : Disk := fun n =>
  if n = 1 then Sector.ofBytes (smallFs.freshFsinfo 65522) else smallDisk n

lemma countedDisk_view : view smallGeometry countedDisk = view smallGeometry smallDisk := by
  refine view_congr smallGeometry (fun j _ => ?_) fun m hm => ?_
  · have hne : 32 + j ≠ 1 := by omega
    exact if_neg hne
  · have hge : 1056 ≤ m := hm
    exact if_neg (by omega)

lemma countedDisk_tracks : Tracks smallGeometry countedDisk := by
  have hsplit : range' 2 65525 = range' 2 3 ++ range' 5 65522 :=
    (range'_append_1 (s := 2) (m := 3) (n := 65522)).symm
  have hused : (range' 2 3).filter (fun c => (view smallGeometry smallDisk).fat c = 0) = [] := by
    decide +kernel
  have hfree : (range' 5 65522).filter (fun c => (view smallGeometry smallDisk).fat c = 0)
      = range' 5 65522 := by
    rw [filter_eq_self]
    intro c hc
    exact decide_eq_true (smallDisk_free (mem_range'_1.mp hc).1)
  have htotal : smallFs.totalClusters = 65525 := rfl
  refine ⟨by constructor <;> decide +kernel, ?_⟩
  have hrec : recorded smallFs countedDisk = 65522 := by decide +kernel
  rw [hrec, countedDisk_view]
  unfold Volume.freeList
  rw [htotal, hsplit, filter_append, hused, hfree, nil_append, length_range']

/-- The chain of the file is freed, and counted. -/
theorem countedDisk_run :
    Along (SpaceCall.step smallFs) (fun c d => StepKeeps smallGeometry d c) [.truncateChain 4 0]
        countedDisk
      ∧ Always (SpaceCall.step smallFs) (Tracks smallGeometry)
        [.truncateChain 4 0] countedDisk := by
  have hi : HasInfo smallFs := ⟨by decide, by decide⟩
  have hchain : (view smallGeometry countedDisk).Chained 4 := by
    exact chained_of_chain (.last (by decide +kernel))
  have halong : Along (SpaceCall.step smallFs) (fun c d => StepKeeps smallGeometry d c)
      [.truncateChain 4 0] countedDisk :=
    fun d' _ => ⟨.inl hchain, trivial⟩
  exact ⟨halong, (tracks_run smallGeometry hi countedDisk_tracks _).1 halong⟩

/-- A directory that is made without a word to the FSInfo sector. -/
lemma mkdir_not_tracks {g : Geometry fs} {d d' : Disk} (hi : HasInfo fs) (ht : Tracks g d)
    (hrun : fs.mkdir path d = (.ok (), d')) (hpath : trimStartMatches '/' path ≠ [])
    (hfind : (fs.findFile (trimStartMatches '/' path) d).1 = .ok none)
    (hroot : (view g d).Inside fs.rootCluster) {c : Nat} (hc : c ∈ (view g d).freeList) :
    ¬Tracks g d' := by
  intro ht'
  have hret : (fs.mkdir path d).1.Returns := by
    rw [hrun]
    trivial
  have hinside : FollowsInside g d path := ⟨hroot, fun e he => nomatch hfind.symm.trans he⟩
  have hkeeps := (mkdir_tracks hi ht hret).2 hinside (by rw [hrun]; exact ht')
  unfold MkdirKeeps at hkeeps
  rw [hfind] at hkeeps
  rw [hkeeps.resolve_left hpath] at hc
  cases hc

/-- After `mkdir E` the count is what it was, and a cluster less is free. -/
theorem mkdir_uncounted :
    HasInfo smallFs ∧ Tracks smallGeometry countedDisk
      ∧ ∃ d', smallFs.mkdir ['E'] countedDisk = (.ok (), d') ∧ recorded smallFs d' = 65522
        ∧ ¬Tracks smallGeometry d' := by
  have hi : HasInfo smallFs := ⟨by decide, by decide⟩
  have hresult : (smallFs.mkdir ['E'] countedDisk).1 = .ok ()
      ∧ recorded smallFs (smallFs.mkdir ['E'] countedDisk).2 = 65522 := by decide +kernel
  have hfind : (smallFs.findFile (trimStartMatches '/' ['E']) countedDisk).1 = .ok none := by
    decide +kernel
  have hroot : (view smallGeometry countedDisk).Inside 2 := by
    exact inside_of_chain (.last (by decide +kernel))
  have hmem : 5 ∈ (view smallGeometry countedDisk).freeList := by
    exact mem_freeList.mpr ⟨by decide, smallDisk_free (Nat.le_refl 5)⟩
  rcases hrun : smallFs.mkdir ['E'] countedDisk with ⟨o, d'⟩
  rw [hrun] at hresult
  obtain ⟨rfl, hrec⟩ := hresult
  exact ⟨hi, countedDisk_tracks, d', rfl, hrec,
    mkdir_not_tracks hi countedDisk_tracks hrun (by decide) hfind hroot hmem⟩

end RustOs.Fs.Fat32
