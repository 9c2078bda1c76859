import RustOs.Proc.Scheduler
import RustOs.Lib.RunQueue

/-!
# The ready queue and the process states

The state of a process is kept in the process table, its place in the ready queue
in the scheduler, and the running process is named a third time in
`current_pid`. `Consistent` says that the three agree.

`Op` has the calls that change them. Some keep them in agreement in every state;
the others do so exactly in the states of `Op.Keeps`: a fork or a parent woken by
an exit is made ready and not queued, `schedule` leaves the old process running,
a signal that kills or stops takes effect in the table alone. `Op.step_consistent`
says this of one call, and `Op.consistent_iff` of every sequence of calls from the
empty system.
-/

namespace RustOs.Proc

open Lib Option Outcome Kernel ProcessManager List Nat Function

namespace Kernel

/-- The ready queue has each ready process once and nothing else, and the current
process is the one that runs. -/
structure Consistent (k : Kernel) : Prop where
  nodup : k.sched.readyQueue.Nodup
  ready : ∀ pid, pid ∈ k.sched.readyQueue ↔ k.pm.stateOf pid = some .ready
  running : ∀ pid, k.pm.stateOf pid = some .running ↔ k.pm.currentPid = some pid
  single : ∀ pid pid', k.pm.stateOf pid = some .running → k.pm.stateOf pid' = some .running →
    pid = pid'

/-- Where a state stands with the scheduler. -/
def standingOf : Option ProcessState → Standing
  | some .ready => .queued
  | some .running => .running
  | _ => .away

/-- Where the pids stand with the scheduler. -/
def standing (k : Kernel) (pid : Pid) : Standing := standingOf (k.pm.stateOf pid)

lemma standingOf_queued {s : Option ProcessState} : standingOf s = .queued ↔ s = some .ready := by
  rcases s with _ | s
  · simp [standingOf]
  · cases s <;> simp [standingOf]

lemma standingOf_running {s : Option ProcessState} :
    standingOf s = .running ↔ s = some .running := by
  rcases s with _ | s
  · simp [standingOf]
  · cases s <;> simp [standingOf]

/-- The agreement is that of a run queue. -/
lemma consistent_iff_coherent (k : Kernel) :
    k.Consistent ↔ Coherent k.standing k.pm.currentPid k.sched.readyQueue := by
  constructor
  · intro h
    exact ⟨h.nodup, fun pid => (h.ready pid).trans standingOf_queued.symm,
      fun pid => standingOf_running.trans (h.running pid)⟩
  · intro h
    refine ⟨h.nodup, fun pid => (h.queued pid).trans standingOf_queued,
      fun pid => standingOf_running.symm.trans (h.running pid), fun pid pid' hp hp' => ?_⟩
    have hcur := (h.running pid).mp (standingOf_running.mpr hp)
    have hcur' := (h.running pid').mp (standingOf_running.mpr hp')
    rw [hcur] at hcur'
    exact some.inj hcur'

/-- A process that is put into another state, as seen by the scheduler. -/
lemma standing_update {k k' : Kernel} {pid : Pid} {s : Option ProcessState}
    (h : ∀ q, k'.pm.stateOf q = if q = pid then s else k.pm.stateOf q) :
    k'.standing = update k.standing pid (standingOf s) := by
  funext q
  unfold standing
  rw [h]
  by_cases hq : q = pid
  · rw [if_pos hq, hq, update_self]
  · rw [if_neg hq, update_of_ne hq]

/-- The new state of a process that exists. -/
lemma stateOf_setState_of_isSome {pm : ProcessManager} {s : ProcessState} {pid q : Pid}
    (h : (pm.stateOf pid).isSome) :
    (pm.setState pid s).stateOf q = if q = pid then some s else pm.stateOf q := by
  rw [stateOf_setState, h]
  simp

namespace Consistent

variable {k k' : Kernel} {pid : Pid} {s : ProcessState}

section

variable (h : k.Consistent)
include h

/-- What the agreement is about. -/
lemma congr (hstate : ∀ q, k'.pm.stateOf q = k.pm.stateOf q)
    (hcur : k'.pm.currentPid = k.pm.currentPid)
    (hqueue : k'.sched.readyQueue = k.sched.readyQueue) : k'.Consistent := by
  have hst : k'.pm.stateOf = k.pm.stateOf := funext hstate
  exact ⟨hqueue ▸ h.nodup, hqueue ▸ hst ▸ h.ready, hcur ▸ hst ▸ h.running, hst ▸ h.single⟩

/-- A process that is neither ready nor running changes between such states. -/
lemma keep (haway : k.standing pid = .away)
    {s : Option ProcessState} (hs : standingOf s = .away)
    (hstate : ∀ q, k'.pm.stateOf q = if q = pid then s else k.pm.stateOf q)
    (hcur : k'.pm.currentPid = k.pm.currentPid)
    (hqueue : k'.sched.readyQueue = k.sched.readyQueue) : k'.Consistent := by
  rw [consistent_iff_coherent] at h ⊢
  rw [standing_update hstate, hcur, hqueue, hs, ← haway, update_eq_self]
  exact h

/-- A process that is neither ready nor running becomes ready and is queued. -/
lemma enter (haway : k.standing pid = .away)
    (hstate : ∀ q, k'.pm.stateOf q = if q = pid then some .ready else k.pm.stateOf q)
    (hcur : k'.pm.currentPid = k.pm.currentPid)
    (hqueue : k'.sched.readyQueue = k.sched.readyQueue ++ [pid]) : k'.Consistent := by
  rw [consistent_iff_coherent] at h ⊢
  rw [standing_update hstate, hcur, hqueue]
  exact h.enter haway

/-- The current process leaves the processor. -/
lemma retire (hpid : k.pm.currentPid = some pid)
    (hs : standingOf (some s) = .away)
    (hstate : ∀ q, k'.pm.stateOf q = if q = pid then some s else k.pm.stateOf q)
    (hcur : k'.pm.currentPid = none) (hqueue : k'.sched.readyQueue = k.sched.readyQueue) :
    k'.Consistent := by
  rw [consistent_iff_coherent] at h ⊢
  rw [standing_update hstate, hcur, hqueue, hs]
  rw [hpid] at h
  exact h.retire

/-- The current process is put back into the queue. -/
lemma preempt (hpid : k.pm.currentPid = some pid)
    (hstate : ∀ q, k'.pm.stateOf q = if q = pid then some .ready else k.pm.stateOf q)
    (hcur : k'.pm.currentPid = none)
    (hqueue : k'.sched.readyQueue = k.sched.readyQueue ++ [pid]) : k'.Consistent := by
  rw [consistent_iff_coherent] at h ⊢
  rw [standing_update hstate, hcur, hqueue]
  rw [hpid] at h
  exact h.preempt

/-- A ready process gets the free processor. -/
lemma dispatch (hfree : k.pm.currentPid = none) {A B : List Pid}
    (hsplit : k.sched.readyQueue = A ++ pid :: B)
    (hstate : ∀ q, k'.pm.stateOf q = (k.pm.setState pid .running).stateOf q)
    (hcur : k'.pm.currentPid = some pid) (hqueue : k'.sched.readyQueue = A ++ B) :
    k'.Consistent := by
  have hready := (h.ready pid).mp (hsplit ▸ mem_append_right A mem_cons_self)
  have hnew (q : Pid) := (hstate q).trans (stateOf_setState_of_isSome (by simp [hready]))
  rw [consistent_iff_coherent] at h ⊢
  rw [standing_update hnew, hcur, hqueue]
  rw [hfree, hsplit] at h
  exact h.dispatch

lemma current_running (hpid : k.pm.currentPid = some pid) : k.pm.stateOf pid = some .running :=
  (h.running pid).mpr hpid

lemma current_not_mem (hpid : k.pm.currentPid = some pid) : pid ∉ k.sched.readyQueue := by
  intro hmem
  have hready := (h.ready pid).mp hmem
  rw [h.current_running hpid] at hready
  cases hready

end

end Consistent

/-! ## Calls that keep the agreement in every state -/

section

variable {k : Kernel} {pid q : Pid}

lemma enqueue_of_not_mem (h : pid ∉ k.sched.readyQueue) :
    (k.enqueue pid).sched.readyQueue = k.sched.readyQueue ++ [pid] := by
  rw [enqueue_readyQueue, if_neg h]

variable (h : k.Consistent)
include h

/-- `schedule` on a free processor. -/
lemma schedule_consistent (hfree : k.pm.currentPid = none) :
    k.schedule.Consistent := by
  by_cases hq : k.sched.readyQueue = []
  · rw [schedule_nil hq]
    exact h.congr (fun _ => rfl) rfl rfl
  · obtain ⟨pid, A, B, v, hsplit, heq⟩ := schedule_spec hq
    rw [heq, hfree, if_neg nofun]
    exact h.dispatch hfree hsplit (fun _ => rfl) rfl rfl

lemma scheduleUser_consistent (hfree : k.pm.currentPid = none) :
    k.scheduleUser.Consistent := by
  unfold scheduleUser
  by_cases hq : k.sched.readyQueue = []
  · rw [nextProcess_nil hq]
    exact h
  · obtain ⟨pid, A, B, v, hsplit, heq⟩ := nextProcess_spec hq
    rw [heq]
    exact h.dispatch hfree hsplit (fun _ => rfl) rfl rfl

lemma wake_consistent : (k.wake pid).Consistent := by
  unfold wake
  split
  next hblocked =>
    have hmem : pid ∉ k.sched.readyQueue := by
      intro hq
      rw [(h.ready pid).mp hq] at hblocked
      cases hblocked
    have haway : k.standing pid = .away := by
      rw [standing, hblocked]
      rfl
    refine h.enter haway (fun q => ?_) ?_ ?_
    · rw [enqueue_stateOf]
      exact stateOf_setState_of_isSome (by simp [hblocked])
    · rw [enqueue_currentPid]
      rfl
    · exact enqueue_of_not_mem hmem
  next => exact h

lemma unblock_consistent : (k.unblock pid).Consistent := by
  have hlocked : k.lockPm.Consistent := h.congr (fun _ => rfl) rfl rfl
  exact (wake_consistent hlocked).congr (fun _ => rfl) rfl rfl

omit h

lemma wakeLoop_consistent (now fuel i : Nat) (h : k.Consistent) :
    (wakeLoop now fuel i k).Consistent := by
  induction fuel generalizing i k with
  | zero => exact h
  | succ fuel ih =>
    unfold wakeLoop
    split
    next => exact h
    next entry _ =>
      split
      next =>
        refine ih i ?_
        have htaken : (k.takeSleeper i).lockPm.Consistent := h.congr (fun _ => rfl) rfl rfl
        exact (wake_consistent htaken).congr (fun _ => rfl) rfl rfl
      next => exact ih (i + 1) h

lemma yieldCpu_consistent (h : k.Consistent) : k.yieldCpu.Consistent := by
  unfold yieldCpu
  simp only [lockPm_pm]
  cases hcur : k.pm.currentPid with
  | none => exact schedule_consistent (h.congr (fun _ => rfl) rfl rfl) hcur
  | some pid =>
    have hrun := h.current_running hcur
    have hmem := h.current_not_mem hcur
    have hsome : (k.pm.stateOf pid).isSome := by simp [hrun]
    simp only [hsome, if_true]
    refine schedule_consistent (h.preempt hcur (fun q => ?_) rfl ?_) rfl
    · rw [unlockPm_pm, setCurrent_stateOf, enqueue_stateOf]
      exact stateOf_setState_of_isSome hsome
    · exact enqueue_of_not_mem hmem

lemma block_consistent (h : k.Consistent) : k.block.Consistent := by
  unfold block
  simp only [lockPm_pm]
  cases hcur : k.pm.currentPid with
  | none => exact schedule_consistent (h.congr (fun _ => rfl) rfl rfl) hcur
  | some pid =>
    have hsome : (k.pm.stateOf pid).isSome := by simp [h.current_running hcur]
    refine schedule_consistent (h.retire (s := .blocked) hcur rfl (fun q => ?_) rfl rfl) rfl
    exact stateOf_setState_of_isSome hsome

end

/-! ## A tick -/

section

variable {k k' : Kernel} {pid q : Pid} {α : Type} {g : Process → α}

/-- What waking a process does not touch. -/
lemma wake_frame (k : Kernel) (pid q : Pid) (hstate : ∀ p v, g { p with state := v } = g p)
    (hv : ∀ p v, g { p with vruntime := v } = g p) :
    (k.wake pid).pm.currentPid = k.pm.currentPid ∧
      (k.wake pid).sched.quantum = k.sched.quantum ∧
      (k.wake pid).sched.quantumCounter = k.sched.quantumCounter ∧
      ((k.wake pid).pm.getProcess q).map g = (k.pm.getProcess q).map g := by
  unfold wake
  split
  next =>
    refine ⟨enqueue_currentPid, ?_, ?_, (enqueue_getProcess g hv).trans ?_⟩
    · unfold enqueue
      split <;> rfl
    · unfold enqueue
      split <;> rfl
    · exact getProcess_update_map (fun _ => rfl) fun p => hstate p _
  next => exact ⟨rfl, rfl, rfl, rfl⟩

/-- What waking the sleepers does not touch. -/
lemma wakeLoop_frame (hstate : ∀ p v, g { p with state := v } = g p)
    (hv : ∀ p v, g { p with vruntime := v } = g p) (now fuel i : Nat) :
    (wakeLoop now fuel i k).pm.currentPid = k.pm.currentPid ∧
      (wakeLoop now fuel i k).sched.quantum = k.sched.quantum ∧
      (wakeLoop now fuel i k).sched.quantumCounter = k.sched.quantumCounter ∧
      ((wakeLoop now fuel i k).pm.getProcess q).map g = (k.pm.getProcess q).map g := by
  induction fuel generalizing i k with
  | zero => exact ⟨rfl, rfl, rfl, rfl⟩
  | succ fuel ih =>
    unfold wakeLoop
    split
    next => exact ⟨rfl, rfl, rfl, rfl⟩
    next entry _ =>
      split
      next =>
        obtain ⟨h₁, h₂, h₃, h₄⟩ := ih (k := ((k.takeSleeper i).lockPm.wake entry.pid).unlockPm) i
        obtain ⟨h₁', h₂', h₃', h₄'⟩ := wake_frame (k.takeSleeper i).lockPm entry.pid q hstate hv
        exact ⟨h₁.trans h₁', h₂.trans h₂', h₃.trans h₃', h₄.trans h₄'⟩
      next => exact ih (i + 1)

lemma preempt_currentPid : k.preempt.pm.currentPid = none := by
  unfold preempt
  simp only [lockPm_pm]
  cases hcur : k.pm.currentPid with
  | none => exact hcur
  | some pid => rfl

lemma preempt_consistent (h : k.Consistent) : k.preempt.Consistent := by
  unfold preempt
  simp only [lockPm_pm]
  cases hcur : k.pm.currentPid with
  | none => exact h.congr (fun _ => rfl) rfl rfl
  | some pid =>
    have hrun := h.current_running hcur
    simp only [hrun, if_true]
    refine h.preempt hcur (fun q => ?_) rfl ?_
    · rw [unlockPm_pm, setCurrent_stateOf, enqueue_stateOf]
      exact stateOf_setState_of_isSome (by simp [hrun])
    · exact enqueue_of_not_mem (h.current_not_mem hcur)

/-- A current process that does not run just leaves. -/
lemma preempt_of_not_running (hcur : k.pm.currentPid = some pid)
    (hrun : k.pm.stateOf pid ≠ some .running) :
    (∀ q, k.preempt.pm.stateOf q = k.pm.stateOf q) ∧
      k.preempt.sched.readyQueue = k.sched.readyQueue := by
  unfold preempt
  simp only [lockPm_pm, hcur, hrun]
  exact ⟨fun _ => rfl, rfl⟩

/-- Delivery of signals to a running process: it goes, it is stopped where it is,
or nothing changes. -/
lemma deliverSignals_consistent (h : k.Consistent) (hcur : k.pm.currentPid = some pid)
    (hcases : k.pm.due pid .stop = true → k.pm.due pid .terminate = true) :
    k.deliverSignals.Consistent := by
  have hrun := h.current_running hcur
  have hmem := h.current_not_mem hcur
  cases hterm : k.pm.due pid .terminate with
  | true =>
    refine h.retire (s := .terminated) hcur rfl (fun q => ?_) ?_ ?_
    · rw [deliverSignals_stateOf hcur, hrun, map_some, stateAfter_running, hterm]
      rfl
    · rw [deliverSignals_currentPid, doomed, hcur]
      simp [hterm]
    · rw [deliverSignals_sched, queueAfterSignals, hcur]
      simp only [hterm]
      exact filter_eq_self.mpr fun p hp => bne_iff_ne.mpr fun heq => hmem (heq ▸ hp)
  | false =>
    have hstop : k.pm.due pid .stop = false := by
      rw [hterm] at hcases
      simpa using hcases
    refine h.congr (fun q => ?_) ?_ ?_
    · rw [deliverSignals_stateOf hcur, hrun, map_some, stateAfter_running, hterm, hstop]
      split
      next heq => rw [heq, hrun]; rfl
      next => rfl
    · rw [deliverSignals_currentPid, doomed, hcur]
      simp [hterm]
    · rw [deliverSignals_sched, queueAfterSignals, hcur]
      simp [hterm]

/-- A running process that is stopped, and stays current. -/
lemma deliverSignals_stopped (h : k.Consistent) (hcur : k.pm.currentPid = some pid)
    (hstop : k.pm.due pid .stop = true) (hterm : k.pm.due pid .terminate = false) :
    (∀ q, k.deliverSignals.pm.stateOf q = if q = pid then some .blocked else k.pm.stateOf q) ∧
      k.deliverSignals.pm.currentPid = some pid ∧
      k.deliverSignals.sched.readyQueue = k.sched.readyQueue := by
  refine ⟨fun q => ?_, ?_, ?_⟩
  · rw [deliverSignals_stateOf hcur, h.current_running hcur, map_some,
      stateAfter_running, hterm, hstop]
    rfl
  · rw [deliverSignals_currentPid, doomed, hcur]
    simp [hterm]
  · rw [deliverSignals_sched, queueAfterSignals, hcur]
    simp [hterm]

/-- The tick is counted without overflow, and the slice is over or it is not. -/
lemma countTick_after (h : countTick.after k = some k') :
    k' = if k.sched.quantum ≤ k.sched.quantumCounter + 1 then
        ({ k with sched := { k.sched with quantumCounter := 0 } } : Kernel).preempt.scheduleUser
      else { k with sched := { k.sched with quantumCounter := k.sched.quantumCounter + 1 } } := by
  unfold Prog.after countTick at h
  by_cases hlt : k.sched.quantumCounter + 1 < 2 ^ 64
  · rw [uadd_of_lt hlt] at h
    dsimp only at h
    split at h
    next hover =>
      rw [if_pos hover]
      exact (some.inj h).symm
    next hover =>
      rw [if_neg hover]
      exact (some.inj h).symm
  · have hpanic : (uadd 64 k.sched.quantumCounter 1 : Outcome String Nat) = .panic :=
      if_neg hlt
    rw [hpanic] at h
    cases h

lemma countTick_consistent (hk' : countTick.after k = some k') (h : k.Consistent) :
    k'.Consistent := by
  rw [countTick_after hk']
  split
  next =>
    refine scheduleUser_consistent (preempt_consistent ?_) preempt_currentPid
    exact h.congr (fun _ => rfl) rfl rfl
  next => exact h.congr (fun _ => rfl) rfl rfl

/-- The second half of a tick, from a state in which the places agree. -/
lemma deliver_countTick_consistent (h : k.Consistent)
    (hk' : countTick.after k.deliverSignals = some k') :
    k'.Consistent ↔ ∀ pid, k.pm.currentPid = some pid → k.pm.due pid .stop = true →
      k.pm.due pid .terminate = true ∨ k.sched.quantum ≤ k.sched.quantumCounter + 1 := by
  cases hcur : k.pm.currentPid with
  | none =>
    have hsame : k.deliverSignals.Consistent := by
      rw [deliverSignals_eq, hcur]
      exact h.congr (fun _ => rfl) rfl rfl
    exact iff_of_true (countTick_consistent hk' hsame) fun _ hpid => nomatch hpid
  | some pid =>
    by_cases hfine : k.pm.due pid .stop = true → k.pm.due pid .terminate = true
    · refine iff_of_true (countTick_consistent hk' (deliverSignals_consistent h hcur hfine)) ?_
      intro pid' hpid hstop
      cases hpid
      exact .inl (hfine hstop)
    · -- the process is stopped: only the end of its slice takes it off the processor
      obtain ⟨hstop, hterm⟩ := Classical.not_imp.mp hfine
      obtain ⟨hstate, hcur', hqueue⟩ :=
        deliverSignals_stopped h hcur hstop (Bool.eq_false_iff.mpr hterm)
      have hquantum : k.deliverSignals.sched.quantum = k.sched.quantum := by
        rw [deliverSignals_sched]
      have hcounter : k.deliverSignals.sched.quantumCounter = k.sched.quantumCounter := by
        rw [deliverSignals_sched]
      have hblocked : k.deliverSignals.pm.stateOf pid = some .blocked := by
        rw [hstate, if_pos rfl]
      rw [countTick_after hk', hquantum, hcounter]
      split
      next hover =>
        refine iff_of_true ?_ fun _ _ _ => .inr hover
        generalize hk₀ : ({ k.deliverSignals with sched := { k.deliverSignals.sched with
          quantumCounter := 0 } } : Kernel) = k₀
        have hcur₀ : k₀.pm.currentPid = some pid := hk₀ ▸ hcur'
        have hblocked₀ : k₀.pm.stateOf pid = some .blocked := hk₀ ▸ hblocked
        obtain ⟨hst, hq⟩ := preempt_of_not_running hcur₀ (by rw [hblocked₀]; exact nofun)
        refine scheduleUser_consistent ?_ preempt_currentPid
        refine h.retire (s := .blocked) hcur rfl (fun q => ?_) preempt_currentPid ?_
        · rw [hst, ← hk₀]
          exact hstate q
        · rw [hq, ← hk₀]
          exact hqueue
      next hover =>
        refine iff_of_false (fun hcons => ?_) fun hall => ?_
        · have hrun := hcons.current_running hcur'
          exact nomatch hblocked.symm.trans hrun
        · rcases hall pid rfl hstop with hdue | hlt
          · exact hterm hdue
          · exact hover hlt

/-- What charging and waking leave alone. -/
lemma wakeSleepers_charge (k : Kernel) (now : Nat) :
    (k.chargeRunningVruntime.wakeSleepers now).pm.currentPid = k.pm.currentPid ∧
      (k.chargeRunningVruntime.wakeSleepers now).sched.quantum = k.sched.quantum ∧
      (k.chargeRunningVruntime.wakeSleepers now).sched.quantumCounter = k.sched.quantumCounter ∧
      ∀ pid action, (k.chargeRunningVruntime.wakeSleepers now).pm.due pid action =
        k.pm.due pid action := by
  obtain ⟨hsched, -, hcur⟩ := chargeRunningVruntime_frame (k := k)
  have hwake := fun pid => wakeLoop_frame (k := k.chargeRunningVruntime) (q := pid)
    (g := signalsOf) (fun _ _ => rfl) (fun _ _ => rfl) now
    k.chargeRunningVruntime.sched.sleepQueue.length 0
  obtain ⟨hcur', hquantum, hcounter, -⟩ := hwake 0
  exact ⟨hcur'.trans hcur, hquantum.trans (congrArg Scheduler.quantum hsched),
    hcounter.trans (congrArg Scheduler.quantumCounter hsched),
    fun pid => due_congr ((hwake pid).2.2.2.trans
      (chargeRunningVruntime_getProcess fun _ _ => rfl))⟩

/-- A tick keeps the agreement unless it stops the current process in the middle
of its slice. -/
lemma tick_consistent {now : Nat} (h : k.Consistent)
    (hk' : (tick now).after k = some k') :
    k'.Consistent ↔ ∀ pid, k.pm.currentPid = some pid → k.pm.due pid .stop = true →
      k.pm.due pid .terminate = true ∨ k.sched.quantum ≤ k.sched.quantumCounter + 1 := by
  have hcharge : k.chargeRunningVruntime.Consistent :=
    h.congr (fun _ => chargeRunningVruntime_stateOf) chargeRunningVruntime_frame.2.2
      (congrArg Scheduler.readyQueue chargeRunningVruntime_frame.1)
  have hwake : (k.chargeRunningVruntime.wakeSleepers now).Consistent :=
    wakeLoop_consistent now _ 0 hcharge
  obtain ⟨hcur, hquantum, hcounter, hdue⟩ := wakeSleepers_charge k now
  have hiff := deliver_countTick_consistent hwake hk'
  rwa [hcur, hquantum, hcounter, funext fun pid => funext (hdue pid)] at hiff

end

/-! ## Calls that keep the agreement in some states -/

section

variable {k k' : Kernel} {pid : Pid}

lemma Consistent.away_of_ne (h : k.Consistent) (hready : k.pm.stateOf pid ≠ some .ready)
    (hrun : k.pm.stateOf pid ≠ some .running) :
    k.standing pid = .away ∧ k.pm.currentPid ≠ some pid := by
  refine ⟨?_, fun hcur => hrun (h.current_running hcur)⟩
  unfold standing
  cases hs : standingOf (k.pm.stateOf pid) with
  | queued => exact absurd (standingOf_queued.mp hs) hready
  | running => exact absurd (standingOf_running.mp hs) hrun
  | away => rfl

/-- A process that is put away in the table alone must have been away. -/
lemma Consistent.park_iff (h : k.Consistent) {s : Option ProcessState} (hs : standingOf s = .away)
    (hstate : ∀ q, k'.pm.stateOf q = if q = pid then s else k.pm.stateOf q)
    (hcur : k'.pm.currentPid = k.pm.currentPid)
    (hqueue : k'.sched.readyQueue = k.sched.readyQueue) :
    k'.Consistent ↔ k.pm.stateOf pid ≠ some .ready ∧ k.pm.stateOf pid ≠ some .running := by
  have hnow : k'.pm.stateOf pid = s := (hstate pid).trans (if_pos rfl)
  refine ⟨fun hcons => ⟨fun hready => ?_, fun hrun => ?_⟩, fun ⟨hready, hrun⟩ => ?_⟩
  · have hstill := (hcons.ready pid).mp (hqueue ▸ (h.ready pid).mpr hready)
    rw [← hnow, hstill] at hs
    cases hs
  · have hstill := hcons.current_running (hcur.trans ((h.running pid).mp hrun))
    rw [← hnow, hstill] at hs
    cases hs
  · exact h.keep (h.away_of_ne hready hrun).1 hs hstate hcur hqueue

/-- `schedule` leaves the old current process in the state it has. -/
lemma schedule_consistent_iff (h : k.Consistent) :
    k.schedule.Consistent ↔ k.sched.readyQueue = [] ∨ k.pm.currentPid = none := by
  by_cases hq : k.sched.readyQueue = []
  · refine iff_of_true ?_ (.inl hq)
    rw [schedule_nil hq]
    exact h.congr (fun _ => rfl) rfl rfl
  · cases hcur : k.pm.currentPid with
    | none => exact iff_of_true (schedule_consistent h hcur) (.inr rfl)
    | some old =>
      refine iff_of_false (fun hcons => ?_) fun hor => hor.elim hq nofun
      obtain ⟨pid, A, B, v, hsplit, heq⟩ := schedule_spec hq
      have hne : old ≠ pid := fun heq =>
        h.current_not_mem hcur (hsplit ▸ heq ▸ mem_append_right A mem_cons_self)
      rw [hcur, if_neg fun hpid => hne (some.inj hpid).symm] at heq
      rw [heq] at hcons
      -- two processes run
      have hrun := (hcons.running old).mp (by
        rw [unlockPm_pm, dispatch_stateOf, if_neg fun hc => hne hc.1]
        exact h.current_running hcur)
      exact hne (some.inj hrun).symm

/-- A ready process that is not queued is not queued by `schedule`. -/
lemma schedule_not_consistent (hcur : k.pm.currentPid = none)
    (hready : k.pm.stateOf pid = some .ready) (hmem : pid ∉ k.sched.readyQueue) :
    ¬ k.schedule.Consistent := by
  intro hcons
  by_cases hq : k.sched.readyQueue = []
  · rw [schedule_nil hq] at hcons
    exact hmem ((hcons.ready pid).mpr hready)
  · obtain ⟨next, A, B, v, hsplit, heq⟩ := schedule_spec hq
    rw [heq, hcur, if_neg nofun] at hcons
    have hne : pid ≠ next := fun heq =>
      hmem (hsplit ▸ heq ▸ mem_append_right A mem_cons_self)
    have hin := (hcons.ready pid).mpr (by
      rw [unlockPm_pm, dispatch_stateOf, if_neg fun hc => hne hc.1]
      exact hready)
    rw [hsplit] at hmem
    rcases mem_append.mp hin with hA | hB
    · exact hmem (mem_append_left _ hA)
    · exact hmem (mem_append_right _ (mem_cons_of_mem _ hB))

section

variable (h : k.Consistent)
include h

/-- A new process is queued. -/
lemma insert_enqueue_consistent {p : Process}
    (hfresh : k.pm.stateOf p.pid = none) (hready : p.state = .ready)
    (hpm : k'.pm.processes = k.pm.processes ++ [p]) (hcur : k'.pm.currentPid = k.pm.currentPid)
    (hq : k'.sched.readyQueue = k.sched.readyQueue) : (k'.enqueue p.pid).Consistent := by
  have hstate : ∀ q, k'.pm.stateOf q = (k.pm.insertProcess p).stateOf q := by
    intro q
    unfold stateOf getProcess
    rw [hpm]
    rfl
  have haway : k.standing p.pid = .away := by
    rw [standing, hfresh]
    rfl
  refine h.enter haway (fun q => ?_) ?_ ?_
  · rw [enqueue_stateOf, hstate, stateOf_insertProcess hfresh, hready]
  · rw [enqueue_currentPid, hcur]
  · rw [enqueue_of_not_mem, hq]
    rw [hq]
    intro hmem
    rw [(h.ready _).mp hmem] at hfresh
    cases hfresh

lemma spawn_consistent (hw : k.pm.WellNumbered)
    (hk' : spawn.after k = some k') : k'.Consistent := by
  rw [spawn_after hk']
  exact insert_enqueue_consistent (p := .new k.pm.nextPid) h (hw.fresh (le_refl _)) rfl rfl rfl
    rfl

lemma spawnUser_consistent (hw : k.pm.WellNumbered) {stack : Option Nat}
    (hk' : (spawnUser stack).after k = some k') : k'.Consistent := by
  obtain ⟨slot, heq⟩ := spawnUser_after hk'
  rw [heq]
  exact insert_enqueue_consistent (p := .newUser k.pm.nextPid none slot) h
    (hw.fresh (le_refl _)) rfl rfl rfl rfl

/-- The child of a fork is ready and not queued. -/
lemma sysFork_consistent_iff (hw : k.pm.WellNumbered) {stack : Option Nat}
    (hk' : (sysFork stack).after k = some k') :
    k'.Consistent ↔ k.pm.currentPid = none := by
  rcases sysFork_after hk' with ⟨hcur, heq⟩ | ⟨parentPid, hcur, heq⟩
  · rw [heq]
    exact iff_of_true (h.congr (fun _ => rfl) rfl rfl) hcur
  · obtain ⟨p, hp, -⟩ := map_eq_some_iff.mp (h.current_running hcur)
    simp only [hp] at heq
    refine iff_of_false (fun hcons => ?_) (by simp [hcur])
    have hfresh := hw.fresh (le_refl _)
    have hready : k'.pm.stateOf k.pm.nextPid = some .ready := by
      rw [heq]
      exact (stateOf_insertProcess (p := p.clone k.pm.nextPid stack) hfresh).trans
        (if_pos rfl)
    have hqueue : k'.sched.readyQueue = k.sched.readyQueue := heq ▸ rfl
    have hmem := (hcons.ready k.pm.nextPid).mpr hready
    rw [hqueue, h.ready, hfresh] at hmem
    cases hmem

/-- `sleep` keeps queue and states in step. -/
lemma sleep_consistent {now ticks : Nat}
    (hk' : (sleep now ticks).after k = some k') : k'.Consistent := by
  unfold Prog.after sleep sleepTicks at hk'
  cases hcur : k.pm.currentPid with
  | none =>
    simp only [lockPm_pm, hcur] at hk'
    cases hk'
    exact schedule_consistent (h.congr (fun _ => rfl) rfl rfl) hcur
  | some pid =>
    have hsome : (k.pm.stateOf pid).isSome := by simp [h.current_running hcur]
    have hnone : (k.pm.stateOf pid).isNone = false := by simp [h.current_running hcur]
    simp only [lockPm_pm, hcur, hnone] at hk'
    by_cases hlt : now + ticks < 2 ^ 64
    · rw [uadd_of_lt hlt] at hk'
      cases hk'
      refine schedule_consistent (h.retire (s := .blocked) hcur rfl (fun q => ?_) rfl rfl) rfl
      exact stateOf_setState_of_isSome hsome
    · have hpanic : (uadd 64 now ticks : Outcome String Nat) = .panic := if_neg hlt
      rw [hpanic] at hk'
      cases hk'

/-- A signal that acts on a process takes effect in the table alone. -/
lemma sendSignal_consistent_iff {sig : Nat}
    (hk' : (withPm (sendSignal pid sig)).after k = some k') :
    k'.Consistent ↔ (sig = Signal.sigkill → k.pm.stateOf pid ≠ some .ready) ∧
      (sig = Signal.sigstop →
        k.pm.stateOf pid ≠ some .ready ∧ k.pm.stateOf pid ≠ some .running) := by
  rw [withPm_after hk']
  rcases k.pm.sendSignal_cases pid sig with ⟨s, hs, -, rfl, hstate, hcur⟩ |
    ⟨s, hs, -, rfl, hstate, hcur⟩ | ⟨hno, hstate, hcur⟩
  · -- killed: the queue does not know
    have hne : Signal.sigkill ≠ Signal.sigstop := by decide
    by_cases hready : k.pm.stateOf pid = some .ready
    · refine iff_of_false (fun hcons => ?_) fun hall => hall.1 rfl hready
      have hstill := (hcons.ready pid).mp ((h.ready pid).mpr hready)
      exact nomatch ((hstate pid).trans (if_pos rfl)).symm.trans hstill
    · refine iff_of_true ?_ ⟨fun _ => hready, fun heq => absurd heq hne⟩
      by_cases hrun : k.pm.currentPid = some pid
      · exact h.retire hrun rfl hstate (hcur.trans (if_pos hrun)) rfl
      · obtain ⟨haway, -⟩ := h.away_of_ne hready fun hr => hrun ((h.running pid).mp hr)
        exact h.keep haway rfl hstate (hcur.trans (if_neg hrun)) rfl
  · -- stopped: neither the queue nor `current_pid` knows
    refine .trans (h.park_iff rfl hstate hcur rfl) ?_
    exact ⟨fun hboth => ⟨fun heq => absurd heq (by decide), fun _ => hboth⟩, fun hall => hall.2 rfl⟩
  · refine iff_of_true (h.congr hstate hcur rfl) ⟨fun hs => ?_, fun hs => ?_⟩
    · rcases hno (.inl hs) with hn | hn <;> simp [hn]
    · rcases hno (.inr hs) with hn | hn <;> simp [hn]

/-- The process that exits leaves the processor; a parent that waits for it
becomes ready, and is not queued. -/
lemma sysExit_consistent_iff (exitCode : Int) :
    (k.sysExit exitCode).Consistent ↔ ∀ pid p parent, k.pm.currentPid = some pid →
      k.pm.getProcess pid = some p → p.parentPid = some parent →
      k.pm.stateOf parent ≠ some .waiting := by
  cases hcur : k.pm.currentPid with
  | none =>
    refine iff_of_true ?_ fun _ _ _ hpid => nomatch hpid
    have hsame : k.lockPm.unlockPm.Consistent := h.congr (fun _ => rfl) rfl rfl
    rw [sysExit_of_none hcur]
    split
    next => exact hsame
    next => exact schedule_consistent hsame hcur
  | some pid =>
    obtain ⟨p, hp, -⟩ := map_eq_some_iff.mp (h.current_running hcur)
    have hmem := h.current_not_mem hcur
    rw [sysExit_of_some hcur]
    generalize hk₁ : ((k.lockPm.setPm (k.pm.exit pid exitCode)).setCurrent
      none).unlockPm.dequeue pid
      = k₁
    have hstate₁ : ∀ q, k₁.pm.stateOf q = if q = pid then some .zombie
        else if p.parentPid = some q ∧ k.pm.stateOf q = some .waiting then some .ready
        else k.pm.stateOf q := fun q => hk₁ ▸ stateOf_exit hp exitCode
    have hcur₁ : k₁.pm.currentPid = none := hk₁ ▸ rfl
    have hqueue₁ : k₁.sched.readyQueue = k.sched.readyQueue := by
      rw [← hk₁]
      exact filter_eq_self.mpr fun q hq => bne_iff_ne.mpr fun heq => hmem (heq ▸ hq)
    -- a waiting parent is made ready and nobody queues it
    by_cases hwait : ∃ parent, p.parentPid = some parent ∧ k.pm.stateOf parent = some .waiting
    · obtain ⟨parent, hparent, hwaits⟩ := hwait
      refine iff_of_false ?_ fun hall => hall pid p parent rfl hp hparent hwaits
      have hne : parent ≠ pid := by
        intro heq
        rw [heq, h.current_running hcur] at hwaits
        cases hwaits
      have hready : k₁.pm.stateOf parent = some .ready := by
        rw [hstate₁, if_neg hne, if_pos ⟨hparent, hwaits⟩]
      have hnot : parent ∉ k₁.sched.readyQueue := by
        rw [hqueue₁, h.ready, hwaits]
        exact nofun
      split
      next => exact fun hcons => hnot ((hcons.ready parent).mpr hready)
      next => exact schedule_not_consistent hcur₁ hready hnot
    · have hnone : ∀ q, ¬ (p.parentPid = some q ∧ k.pm.stateOf q = some .waiting) :=
        fun q hq => hwait ⟨q, hq⟩
      have hcons : k₁.Consistent :=
        h.retire (s := .zombie) hcur rfl (fun q => by rw [hstate₁, if_neg (hnone q)]) hcur₁ hqueue₁
      refine iff_of_true ?_ fun pid' p' parent hpid hp' hparent hwaits => ?_
      · split
        next => exact hcons
        next => exact schedule_consistent hcons hcur₁
      · cases hpid
        rw [hp] at hp'
        cases hp'
        exact hwait ⟨parent, hparent, hwaits⟩

/-- A parent that waits leaves the queue and the processor in name only. -/
lemma wait_consistent_iff (hw : k.pm.WellNumbered) :
    (k.wait pid).Consistent ↔ (k.pm.zombieChild pid = none → k.pm.hasChildren pid = true →
      k.pm.stateOf pid ≠ some .ready ∧ k.pm.stateOf pid ≠ some .running) := by
  unfold wait ProcessManager.wait
  simp only [lockPm_pm]
  cases hz : k.pm.zombieChild pid with
  | some child =>
    refine iff_of_true ?_ fun h => by cases h
    have hchild := find?_some hz
    have hstate : k.pm.stateOf child.pid = some .zombie := by
      rw [stateOf, hw.getProcess_of_mem (mem_of_find?_eq_some hz)]
      simp only [Bool.and_eq_true, beq_iff_eq] at hchild
      rw [map_some, hchild.2]
    have haway : k.standing child.pid = .away := by
      rw [standing, hstate]
      rfl
    exact h.keep haway (s := none) rfl (fun q => stateOf_filter) rfl rfl
  | none =>
    by_cases hc : k.pm.hasChildren pid = true
    swap
    · simp only [hc]
      refine iff_of_true (h.congr (fun _ => rfl) rfl rfl) fun _ hc' => absurd hc' (by simp)
    simp only [hc]
    have hstate (q : Pid) : (k.pm.setState pid .waiting).stateOf q =
        if q = pid then (k.pm.stateOf pid).map fun _ => .waiting else k.pm.stateOf q := by
      rw [stateOf_setState]
      by_cases hq : q = pid
      · cases hs : k.pm.stateOf pid <;> simp [hq, hs]
      · simp [hq]
    have haway : standingOf ((k.pm.stateOf pid).map fun _ => .waiting) = .away := by
      cases k.pm.stateOf pid <;> rfl
    refine .trans (h.park_iff haway hstate rfl rfl) ?_
    exact ⟨fun hboth _ _ => hboth, fun hall => hall trivial trivial⟩

end

end

end Kernel

/-! ## Every sequence of calls -/

namespace Op

/-- The states in which a call keeps the agreement. -/
def Keeps (op : Op) (k : Kernel) : Prop :=
  match op with
  | .sysFork _ => k.pm.currentPid = none
  | .tick _ => ∀ pid, k.pm.currentPid = some pid → k.pm.due pid .stop = true →
      k.pm.due pid .terminate = true ∨ k.sched.quantum ≤ k.sched.quantumCounter + 1
  | .schedule => k.sched.readyQueue = [] ∨ k.pm.currentPid = none
  | .sendSignal pid sig => (sig = Signal.sigkill → k.pm.stateOf pid ≠ some .ready) ∧
      (sig = Signal.sigstop →
        k.pm.stateOf pid ≠ some .ready ∧ k.pm.stateOf pid ≠ some .running)
  | .sysExit _ => ∀ pid p parent, k.pm.currentPid = some pid → k.pm.getProcess pid = some p →
      p.parentPid = some parent → k.pm.stateOf parent ≠ some .waiting
  | .wait pid => k.pm.zombieChild pid = none → k.pm.hasChildren pid = true →
      k.pm.stateOf pid ≠ some .ready ∧ k.pm.stateOf pid ≠ some .running
  | _ => True

/-- A call keeps the agreement exactly in the states of `Keeps`. -/
lemma step_consistent {op : Op} {k k' : Kernel} (hw : k.pm.WellNumbered) (h : k.Consistent)
    (hk' : op.step k = some k') : k'.Consistent ↔ op.Keeps k := by
  cases op with
  | spawn => exact iff_of_true (spawn_consistent h hw hk') trivial
  | spawnUser stack => exact iff_of_true (spawnUser_consistent h hw hk') trivial
  | sysFork stack => exact sysFork_consistent_iff h hw hk'
  | tick now => exact tick_consistent h hk'
  | schedule =>
    cases hk'
    exact schedule_consistent_iff h
  | yieldCpu =>
    cases hk'
    exact iff_of_true (yieldCpu_consistent h) trivial
  | block =>
    cases hk'
    exact iff_of_true (block_consistent h) trivial
  | unblock pid =>
    cases hk'
    exact iff_of_true (unblock_consistent h) trivial
  | sleep now ticks => exact iff_of_true (sleep_consistent h hk') trivial
  | sendSignal pid sig => exact sendSignal_consistent_iff h hk'
  | sysExit exitCode =>
    cases hk'
    exact sysExit_consistent_iff h exitCode
  | wait pid =>
    cases hk'
    exact wait_consistent_iff h hw

/-- **Run-queue consistency.** From the empty system, with or without preemption,
the ready queue, the states and `current_pid` agree after every call of a
sequence exactly if each call is made in a state of `Keeps`. -/
theorem consistent_iff (ops : List Op) (preemptive : Bool) :
    Always step Kernel.Consistent ops { Kernel.new with preemptiveMode := preemptive } ↔
      Along step Keeps ops { Kernel.new with preemptiveMode := preemptive } := by
  refine always_iff_along (W := fun k => k.pm.WellNumbered)
    (fun op k k' hw hk' => (step_later hw hk').wellNumbered)
    (fun op k k' hw h hk' => step_consistent hw h hk') ops ?_ ?_
  · exact ⟨nodup_nil, fun pid hpid => nomatch hpid⟩
  · exact ⟨nodup_nil, fun pid => ⟨nofun, nofun⟩, fun pid => ⟨nofun, nofun⟩, nofun⟩

/-- A process that runs forks: the child is ready, and no queue has it. -/
theorem fork_not_queued :
    ∃ k, trace step [.spawn, .schedule, .sysFork (some 1)] Kernel.new = some k ∧
    k.pm.stateOf 2 = some .ready ∧ 2 ∉ k.sched.readyQueue ∧ ¬ k.Consistent := by
  have hmem : 2 ∉ ([] : List Pid) := by simp
  exact ⟨_, rfl, rfl, hmem, fun hcons => hmem ((hcons.ready 2).mpr rfl)⟩

end Op

end RustOs.Proc
