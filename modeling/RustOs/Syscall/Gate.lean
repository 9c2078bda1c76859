import RustOs.Syscall.ClassicBpf
import RustOs.Lib.Trace

/-!
# Filters and forks

`syscall_dispatcher` asks the filter of the calling process before it calls the handler. `fork`
and `clone` make a process without one: `check` lets all its syscalls pass. So a filter
confines later descendants only if there cannot be any, or if there are filters for the pids to
come (`confined_iff`).
-/

namespace RustOs.Seccomp

open Lib

/-- A syscall of a process. -/
structure Call where
  pid : Nat
  nr : UInt64
  args : Vector UInt64 6

/-- The numbers `SyscallNumber::from_usize` knows. -/
def syscallNumbers : List UInt64 :=
  [0, 1, 2, 3, 4, 5, 7, 8, 9, 11, 12, 13, 16, 22, 23, 32, 33, 35, 39, 48, 56, 57, 59, 60, 61, 62,
    79, 80, 82, 83, 84, 87, 90, 92, 97, 102, 104, 107, 108, 109, 112, 121, 124, 158, 160, 202, 213,
    217, 228, 232, 233]

/-- `syscall_dispatcher` calls the handler. -/
def Call.Dispatched (t : FilterTable) (c : Call) : Prop :=
  (check t c.pid c.nr c.args = .ok .allow ∨ check t c.pid c.nr c.args = .ok .log) ∧
    c.nr ∈ syscallNumbers

instance (t : FilterTable) (c : Call) : Decidable (c.Dispatched t) :=
  inferInstanceAs (Decidable ((_ ∨ _) ∧ _))

/-- The processes that have come into being, and `next_pid`. -/
structure Family where
  descendants : List Nat
  nextPid : Nat
  deriving DecidableEq

/-- A syscall of one of the processes `ps` or of a later descendant. `Fork` and `Clone` make a
process; none touches the filters. -/
def Call.step (t : FilterTable) (ps : List Nat) (c : Call) (f : Family) : Option Family :=
  if c.pid ∉ ps ∧ c.pid ∉ f.descendants then none
  else if c.Dispatched t ∧ (c.nr = 57 ∨ c.nr = 56) then
    some ⟨f.nextPid :: f.descendants, f.nextPid + 1⟩
  else some f

/-- It is not the syscall `n` of a descendant that is dispatched. -/
def Call.Confined (t : FilterTable) (n : UInt64) (c : Call) (f : Family) : Prop :=
  c.pid ∈ f.descendants → c.nr = n → ¬ c.Dispatched t

variable {t : FilterTable} {ps : List Nat} {n : UInt64} {c : Call}

/-- A process that may fork gets all the next pids for its descendants. -/
lemma trace_forks (hpid : c.pid ∈ ps) (hc : c.Dispatched t ∧ (c.nr = 57 ∨ c.nr = 56)) (k : Nat) :
    ∀ f : Family, ∃ f', trace (Call.step t ps) (List.replicate k c) f = some f' ∧
      ∀ q, q ∈ f.descendants ∨ f.nextPid ≤ q ∧ q < f.nextPid + k → q ∈ f'.descendants := by
  induction k with
  | zero => exact fun f => ⟨f, rfl, by grind⟩
  | succ k ih =>
    intro f
    obtain ⟨f', htrace, hmem⟩ := ih ⟨f.nextPid :: f.descendants, f.nextPid + 1⟩
    have hstep : c.step t ps f = some ⟨f.nextPid :: f.descendants, f.nextPid + 1⟩ := by
      rw [Call.step, if_neg fun h => h.1 hpid, if_pos hc]
    refine ⟨f', ?_, by grind⟩
    rw [List.replicate_succ, trace, hstep]
    exact htrace

/-- Later descendants of a process are kept from a syscall exactly if neither it nor those it
has can fork, or if all pids to come are kept from it. -/
theorem confined_iff (t : FilterTable) (ps : List Nat) (n : UInt64) (nextPid : Nat) :
    (∀ calls, Along (Call.step t ps) (Call.Confined t n) calls ⟨[], nextPid⟩) ↔
      (∀ c : Call, c.pid ∈ ps → c.nr = 57 ∨ c.nr = 56 → ¬ c.Dispatched t) ∨
      ∀ c : Call, nextPid ≤ c.pid → c.nr = n → ¬ c.Dispatched t := by
  constructor
  · intro h
    by_contra hno
    obtain ⟨⟨c, hpid, hnr, hc⟩, c', hnext, hn, hc'⟩ :
        (∃ c : Call, c.pid ∈ ps ∧ (c.nr = 57 ∨ c.nr = 56) ∧ c.Dispatched t) ∧
        ∃ c : Call, nextPid ≤ c.pid ∧ c.nr = n ∧ c.Dispatched t := by grind
    obtain ⟨f', htrace, hmem⟩ := trace_forks hpid ⟨hc, hnr⟩ (c'.pid - nextPid + 1) ⟨[], nextPid⟩
    have hin : c'.pid ∈ f'.descendants := hmem _ (.inr ⟨hnext, by dsimp only; omega⟩)
    have hlast := (along_append (h (List.replicate _ c ++ [c'])) htrace).2
    obtain ⟨f'', hstep⟩ : ∃ f'', c'.step t ps f' = some f'' := by
      grind [Call.step]
    exact (hlast f'' hstep).1 hin hn hc'
  · intro h calls
    -- there are no descendants, or they have pids from `nextPid` on
    have hrun : ∀ f : Family,
        ((∀ c : Call, c.pid ∈ ps → c.nr = 57 ∨ c.nr = 56 → ¬ c.Dispatched t) ∧ f.descendants = [] ∨
        nextPid ≤ f.nextPid ∧ (∀ q ∈ f.descendants, nextPid ≤ q) ∧
        ∀ c : Call, nextPid ≤ c.pid → c.nr = n → ¬ c.Dispatched t) →
        Along (Call.step t ps) (Call.Confined t n) calls f := by
      induction calls with
      | nil => exact fun _ _ => trivial
      | cons c calls ih =>
        intro f hf f' hstep
        unfold Call.step at hstep
        exact ⟨by grind [Call.Confined], ih f' (by grind)⟩
    exact hrun _ (h.imp (⟨·, rfl⟩) (⟨Nat.le_refl _, nofun, ·⟩))

/-- The filter of process 2 lets it fork, and nothing else. -/
def forkOnly : FilterTable :=
  (FilterTable.new.install 2 (buildAllowlist [57] Action.retErrno)).2

/-- A child has no filter, so it may write. -/
theorem write_dispatched_after_fork :
    (∀ args, ¬ (⟨2, 1, args⟩ : Call).Dispatched forkOnly) ∧
    ¬ ∀ calls, Along (Call.step forkOnly [2]) (Call.Confined forkOnly 1) calls ⟨[], 3⟩ := by
  constructor
  · intro args h
    obtain ⟨e, hloop, hvalue⟩ := loop_buildAllowlist (show [57].length ≤ 4094 by decide)
      Action.retErrno (syscallData 1 args)
    have hnot := hvalue.trans (if_neg (show (1 : UInt64).toUInt32 ∉ [57] by decide))
    have hfilter : forkOnly.forPid 2 = some ⟨buildAllowlist [57] Action.retErrno, 2⟩ := by decide
    have hcheck : check forkOnly 2 1 args = .ok (.errno 0) := by
      simp only [check, hfilter, run_of_loop hloop, hnot]
      decide
    simp [Call.Dispatched, hcheck] at h
  · intro h
    have hrun := h [⟨2, 57, noArgs⟩, ⟨3, 1, noArgs⟩]
    have hwrite := ((hrun ⟨[3], 4⟩ (by decide +kernel)).2 ⟨[3], 4⟩ (by decide +kernel)).1
    exact hwrite List.mem_cons_self rfl (by decide +kernel)

end RustOs.Seccomp
