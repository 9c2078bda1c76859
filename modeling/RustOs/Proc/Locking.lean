import RustOs.Proc.Scheduler

/-!
# Which calls stop on their own lock

`PROCESS_MANAGER` is a spin lock: who takes it while holding it waits for
itself. `enqueue` and `next_process` take it, and several callers of theirs hold
it already. A call that is started with the lock free is safe exactly if the
state does not lead it into one of those places (`Call.Safe`), which is what
`Call.run_lock_iff` says: `schedule` wants an empty ready queue, the wake-up of
a sleeper or an `unblock` wants a process that is not blocked or one that is
queued already, the end of a slice wants a running process that is queued
already, and the timer interrupt in the kernel wants a process it can enter.

Each function is described by what it does to the lock. The wake-up loop is the
only one where this takes an induction: an entry that is woken changes what the
later entries meet, but only entries of its own pid.
-/

namespace RustOs.Proc

open Lib ProcessManager List

namespace Kernel

section

variable {k : Kernel} {pid q : Pid} {now i : Nat}

/-! ## The lock after each function -/

@[simp] lemma lockPm_held : k.lockPm.lock.held = k.lock.held + 1 := rfl
@[simp] lemma unlockPm_held : k.unlockPm.lock.held = k.lock.held - 1 := rfl
@[simp] lemma unlockPm_relocked : k.unlockPm.lock.relocked = k.lock.relocked := rfl

@[simp] lemma lockPm_relocked :
    k.lockPm.lock.relocked = true ↔ k.lock.relocked = true ∨ 0 < k.lock.held := by simp [lockPm]

@[simp] lemma enqueue_held : (k.enqueue pid).lock.held = k.lock.held := by
  unfold enqueue
  split <;> rfl

@[simp] lemma enqueue_relocked : (k.enqueue pid).lock.relocked = true ↔
    k.lock.relocked = true ∨ 0 < k.lock.held ∧ pid ∉ k.sched.readyQueue := by
  unfold enqueue
  split
  next h => simp [h]
  next h => exact lockPm_relocked.trans (by simp [h])

@[simp] lemma wake_held : (k.wake pid).lock.held = k.lock.held := by
  unfold wake
  split
  next => rw [enqueue_held, setPm_lock]
  next => rfl

@[simp] lemma wake_relocked : (k.wake pid).lock.relocked = true ↔ k.lock.relocked = true ∨
    0 < k.lock.held ∧ k.pm.stateOf pid = some .blocked ∧ pid ∉ k.sched.readyQueue := by
  unfold wake
  split
  next h => rw [enqueue_relocked, setPm_lock, setPm_sched]; simp [h]
  next h => simp [h]

/-! ## Waking sleepers -/

/-- A sleeper whose wake-up takes the lock twice. -/
def Stuck (now : Nat) (k : Kernel) (e : SleepEntry) : Prop :=
  e.wakeTick ≤ now ∧ k.pm.stateOf e.pid = some .blocked ∧ e.pid ∉ k.sched.readyQueue

lemma wake_stateOf : (k.wake pid).pm.stateOf q =
    if q = pid ∧ k.pm.stateOf pid = some .blocked then some .ready else k.pm.stateOf q := by
  unfold wake
  split
  next h =>
    rw [enqueue_stateOf, setPm_pm, stateOf_setState, h]
    simp
  next h => rw [if_neg fun hq => h hq.2]

lemma mem_wake : q ∈ (k.wake pid).sched.readyQueue ↔
    q ∈ k.sched.readyQueue ∨ q = pid ∧ k.pm.stateOf pid = some .blocked := by
  unfold wake
  split
  next h => rw [mem_enqueue, setPm_sched]; simp [h]
  next h => simp [h]

lemma wake_sleepQueue : (k.wake pid).sched.sleepQueue = k.sched.sleepQueue := by
  unfold wake enqueue
  split
  next => split <;> rfl
  next => rfl

/-- What `swap_remove` leaves from its index on is what stood behind it. -/
lemma mem_drop_swapRemove {l : List SleepEntry} (hi : i < l.length) (e : SleepEntry) :
    e ∈ (swapRemove l i).drop i ↔ e ∈ l.drop (i + 1) := by
  obtain ⟨A, x, B, rfl, rfl⟩ : ∃ A x B, l = A ++ x :: B ∧ i = A.length :=
    ⟨l.take i, l[i], l.drop (i + 1),
      by rw [← drop_eq_getElem_cons hi, take_append_drop],
      by rw [length_take, Nat.min_eq_left (Nat.le_of_lt hi)]⟩
  have hdrop : (A ++ x :: B).drop (A.length + 1) = B := by
    rw [← drop_drop, drop_left]
    rfl
  rcases eq_nil_or_concat B with rfl | ⟨B, last, rfl⟩
  · simp [swapRemove]
  · have hset : (A ++ x :: (B ++ [last])).set A.length last = (A ++ last :: B) ++ [last] := by simp
    have hlast : (A ++ x :: (B ++ [last])).getLast? = some last := by
      rw [← cons_append, ← append_assoc, getLast?_concat]
    rw [concat_eq_append] at hdrop ⊢
    rw [hdrop, swapRemove, hlast]
    show e ∈ List.drop A.length ((A ++ x :: (B ++ [last])).set A.length last).dropLast ↔ _
    rw [hset, dropLast_concat, drop_left]
    simp [or_comm]

lemma length_swapRemove {l : List SleepEntry} (hi : i < l.length) :
    (swapRemove l i).length = l.length - 1 := by
  unfold swapRemove
  cases hl : l.getLast? with
  | none =>
    rw [getLast?_eq_none_iff.mp hl] at hi
    exact absurd hi (Nat.not_lt_zero _)
  | some last => simp

/-- One entry is woken, and what the other entries meet is as before except for
its own pid. -/
lemma stuck_wake {e : SleepEntry} (hne : e.pid ≠ pid) :
    Stuck now (k.wake pid) e ↔ Stuck now k e := by
  unfold Stuck
  rw [wake_stateOf, mem_wake, if_neg fun h => hne h.1, not_or]
  simp [hne]

/-- A woken entry is not in the way of another entry of its pid. -/
lemma stuck_wake_self {e : SleepEntry} (he : Stuck now (k.wake e.pid) e) : Stuck now k e := by
  obtain ⟨hdue, hstate, hmem⟩ := he
  rw [wake_stateOf] at hstate
  split at hstate
  next => cases hstate
  next => exact ⟨hdue, hstate, fun h => hmem (mem_wake.mpr (.inl h))⟩

/-- The state after the entry at `i` has been taken out and woken. -/
def wakeEntry (k : Kernel) (i : Nat) (pid : Pid) : Kernel :=
  ((k.takeSleeper i).lockPm.wake pid).unlockPm

lemma wakeEntry_sleepQueue :
    (k.wakeEntry i pid).sched.sleepQueue = swapRemove k.sched.sleepQueue i := by
  unfold wakeEntry
  rw [unlockPm_sched, wake_sleepQueue]
  rfl

/-- The entry at `i` or one that is left after it has been woken is stuck,
exactly if an entry from `i` on was. -/
lemma stuck_wakeEntry {entry : SleepEntry} (hentry : k.sched.sleepQueue[i]? = some entry)
    (hdue : entry.wakeTick ≤ now) :
    (Stuck now k entry ∨ ∃ e ∈ (k.wakeEntry i entry.pid).sched.sleepQueue.drop i,
      Stuck now (k.wakeEntry i entry.pid) e) ↔
      ∃ e ∈ k.sched.sleepQueue.drop i, Stuck now k e := by
  obtain ⟨hi, hget⟩ := List.getElem?_eq_some_iff.mp hentry
  have hstuck : ∀ e, Stuck now (k.wakeEntry i entry.pid) e ↔ Stuck now (k.wake entry.pid) e := by
    intro e
    unfold Stuck wakeEntry
    rw [wake_stateOf, unlockPm_pm, unlockPm_sched, wake_stateOf, mem_wake, mem_wake]
    rfl
  rw [drop_eq_getElem_cons hi, hget, wakeEntry_sleepQueue, exists_mem_cons_iff]
  constructor
  · refine .imp_right fun ⟨e, he, hst⟩ => ⟨e, (mem_drop_swapRemove hi e).mp he, ?_⟩
    rw [hstuck] at hst
    by_cases hpid : e.pid = entry.pid
    · exact stuck_wake_self (hpid ▸ hst)
    · exact (stuck_wake hpid).mp hst
  · intro h
    rcases h with h | ⟨e, he, hst⟩
    · exact .inl h
    · by_cases hpid : e.pid = entry.pid
      · exact .inl ⟨hdue, hpid ▸ hst.2.1, hpid ▸ hst.2.2⟩
      · exact .inr ⟨e, (mem_drop_swapRemove hi e).mpr he,
          (hstuck e).mpr ((stuck_wake hpid).mpr hst)⟩

/-- The wake-up loop takes the lock twice exactly if it has a stuck entry before
it. -/
lemma wakeLoop_lock (now : Nat) {fuel i : Nat} (h : k.lock.held = 0)
    (hfuel : k.sched.sleepQueue.length ≤ fuel + i) :
    (wakeLoop now fuel i k).lock.held = 0 ∧ ((wakeLoop now fuel i k).lock.relocked = true ↔
      k.lock.relocked = true ∨ ∃ e ∈ k.sched.sleepQueue.drop i, Stuck now k e) := by
  induction fuel generalizing i k with
  | zero =>
    have hdrop : k.sched.sleepQueue.drop i = [] := drop_eq_nil_of_le (by omega)
    rw [hdrop]
    simp [wakeLoop, h]
  | succ fuel ih =>
    unfold wakeLoop
    split
    next hnone =>
      have hdrop : k.sched.sleepQueue.drop i = [] :=
        drop_eq_nil_of_le (List.getElem?_eq_none_iff.mp hnone)
      rw [hdrop]
      simp [h]
    next entry hentry =>
      obtain ⟨hi, hget⟩ := List.getElem?_eq_some_iff.mp hentry
      split
      next hdue =>
        -- the entry is taken out and woken under the lock
        have hheld : (k.wakeEntry i entry.pid).lock.held = 0 := by
          unfold wakeEntry
          rw [unlockPm_held, wake_held, lockPm_held, Nat.add_sub_cancel]
          exact h
        have hrel : (k.wakeEntry i entry.pid).lock.relocked = true ↔
            k.lock.relocked = true ∨ Stuck now k entry := by
          unfold wakeEntry
          rw [unlockPm_relocked, wake_relocked, lockPm_relocked]
          simp [Stuck, h, hdue, takeSleeper]
        have hlen : (k.wakeEntry i entry.pid).sched.sleepQueue.length ≤ fuel + i := by
          rw [wakeEntry_sleepQueue, length_swapRemove hi]
          omega
        obtain ⟨hheld', hrel'⟩ := ih hheld hlen
        refine ⟨hheld', hrel'.trans ?_⟩
        rw [hrel, or_assoc, stuck_wakeEntry hentry hdue]
      next hdue =>
        obtain ⟨hheld, hrel⟩ := ih (i := i + 1) h (by omega)
        refine ⟨hheld, hrel.trans ?_⟩
        rw [drop_eq_getElem_cons hi, hget]
        simp [Stuck, hdue]

/-! ## What a safe wake-up leaves alone -/

/-- From `k` to `k'` at most some blocked processes became ready: the queue, the
slice, the current process and the running processes are the same, and so is
whatever `g` reads of a process. -/
structure Settled {α : Type} (g : Process → α) (k k' : Kernel) : Prop where
  readyQueue : k'.sched.readyQueue = k.sched.readyQueue
  quantum : k'.sched.quantum = k.sched.quantum
  quantumCounter : k'.sched.quantumCounter = k.sched.quantumCounter
  preemptiveMode : k'.preemptiveMode = k.preemptiveMode
  currentPid : k'.pm.currentPid = k.pm.currentPid
  running : ∀ q, k'.pm.stateOf q = some .running ↔ k.pm.stateOf q = some .running
  rest : ∀ q, (k'.pm.getProcess q).map g = (k.pm.getProcess q).map g

variable {α : Type} {g : Process → α} {k₁ k₂ k₃ : Kernel}

lemma Settled.refl : Settled g k k := ⟨rfl, rfl, rfl, rfl, rfl, fun _ => .rfl, fun _ => rfl⟩

lemma Settled.trans (h : Settled g k₁ k₂) (h' : Settled g k₂ k₃) : Settled g k₁ k₃ :=
  ⟨h'.readyQueue.trans h.readyQueue, h'.quantum.trans h.quantum,
    h'.quantumCounter.trans h.quantumCounter, h'.preemptiveMode.trans h.preemptiveMode,
    h'.currentPid.trans h.currentPid, fun q => (h'.running q).trans (h.running q),
    fun q => (h'.rest q).trans (h.rest q)⟩

/-- A process that is queued, or not blocked, is woken without touching the
queue. -/
lemma wake_settled (hg : ∀ p v, g { p with state := v } = g p)
    (h : k.pm.stateOf pid = some .blocked → pid ∈ k.sched.readyQueue) :
      Settled g k (k.wake pid) := by
  unfold wake
  split
  next hblocked =>
    have hno : (k.setPm (k.pm.setState pid .ready)).enqueue pid =
      k.setPm (k.pm.setState pid .ready) :=
      if_pos (h hblocked)
    rw [hno]
    refine ⟨rfl, rfl, rfl, rfl, rfl, fun q => ?_,
      fun q => getProcess_update_map (fun _ => rfl) fun p => hg p _⟩
    rw [setPm_pm, stateOf_setState]
    split
    next hq => rw [hq.1, hblocked]; simp
    next => exact .rfl
  next => exact Settled.refl

/-- Waking leaves the kernel settled if no sleeper is stuck. -/
lemma wakeLoop_settled (hg : ∀ p v, g { p with state := v } = g p) {fuel i : Nat}
    (h : ∀ e ∈ k.sched.sleepQueue.drop i, ¬ Stuck now k e) :
    Settled g k (wakeLoop now fuel i k) := by
  induction fuel generalizing i k with
  | zero => exact Settled.refl
  | succ fuel ih =>
    unfold wakeLoop
    split
    next => exact Settled.refl
    next entry hentry =>
      obtain ⟨hi, hget⟩ := List.getElem?_eq_some_iff.mp hentry
      have hdrop : k.sched.sleepQueue.drop i = entry :: k.sched.sleepQueue.drop (i + 1) := by
        rw [drop_eq_getElem_cons hi, hget]
      split
      next hdue =>
        have hno := fun h' => (stuck_wakeEntry hentry hdue).mp h'
        have hwake : Settled g (k.takeSleeper i).lockPm
          ((k.takeSleeper i).lockPm.wake entry.pid) := by
          refine wake_settled hg fun hblocked => Classical.byContradiction fun hmem => ?_
          obtain ⟨e, he, hst⟩ := hno (.inl ⟨hdue, hblocked, hmem⟩)
          exact h e he hst
        have hstep : Settled g k (k.wakeEntry i entry.pid) :=
          ⟨hwake.readyQueue, hwake.quantum, hwake.quantumCounter, hwake.preemptiveMode,
            hwake.currentPid, hwake.running, hwake.rest⟩
        refine hstep.trans (ih fun e he hst => ?_)
        obtain ⟨e', he', hst'⟩ := hno (.inr ⟨e, he, hst⟩)
        exact h e' he' hst'
      next => exact ih fun e he => h e (hdrop ▸ mem_cons_of_mem _ he)

/-! ## The parts of a tick -/

/-- No sleeper is woken under a lock that `enqueue` would have to take. -/
def WakeSafe (now : Nat) (k : Kernel) : Prop := ∀ e ∈ k.sched.sleepQueue, ¬ Stuck now k e

lemma wakeSleepers_lock (now : Nat) (h : k.lock.held = 0) : (k.wakeSleepers now).lock.held = 0 ∧
    ((k.wakeSleepers now).lock.relocked = true ↔ k.lock.relocked = true ∨ ¬ WakeSafe now k) := by
  obtain ⟨hheld, hrel⟩ := wakeLoop_lock now (i := 0) h (Nat.le_add_right _ _)
  refine ⟨hheld, hrel.trans (or_congr_right ?_)⟩
  simp [WakeSafe]

lemma wakeSleepers_settled (hg : ∀ p v, g { p with state := v } = g p) (h : WakeSafe now k) :
    Settled g k (k.wakeSleepers now) :=
  wakeLoop_settled hg h

lemma deliverSignals_held : k.deliverSignals.lock.held = k.lock.held := by
  rw [deliverSignals_eq]
  split <;> rfl

lemma deliverSignals_relocked (h : k.lock.held = 0) :
    k.deliverSignals.lock.relocked = k.lock.relocked := by
  have hlock : k.lockPm.lock.relocked = k.lock.relocked := by simp [lockPm, h]
  rw [deliverSignals_eq]
  split
  all_goals exact hlock

/-- Of the processes only the current one changes its state. -/
lemma deliverSignals_running (hcur : k.pm.currentPid = some pid) :
    k.deliverSignals.pm.stateOf pid = some .running ↔ k.pm.stateOf pid = some .running ∧
      k.pm.due pid .terminate = false ∧ k.pm.due pid .stop = false := by
  rw [deliverSignals_stateOf hcur, if_pos rfl]
  unfold stateAfter due
  cases k.pm.stateOf pid with
  | none => simp
  | some s =>
    cases dueIn (k.pm.deliverable pid) signals .terminate
    · cases dueIn (k.pm.deliverable pid) signals .stop
      · by_cases hs : s = .blocked
        · subst hs
          cases dueIn (k.pm.deliverable pid) signals .continue <;> simp
        · simp [hs]
      · simp
    · simp

lemma deliverSignals_map (hsig : ∀ p v, g { p with pendingSignals := v } = g p)
    (hstate : ∀ p v, g { p with state := v } = g p) (hdie : ∀ p v c, g (p.die v c) = g p) :
    (k.deliverSignals.pm.getProcess q).map g = (k.pm.getProcess q).map g := by
  rw [deliverSignals_eq]
  split
  next => rfl
  next => exact deliverPendingSignals_map hsig hstate hdie _ _ _

/-! ## The end of a slice -/

lemma preempt_held : k.preempt.lock.held = k.lock.held := by
  unfold preempt
  simp only [lockPm_pm]
  cases k.pm.currentPid with
  | none => rfl
  | some pid =>
    by_cases hrun : k.pm.stateOf pid = some .running
    · simp [hrun]
    · simp [hrun]

lemma preempt_relocked (h : k.lock.held = 0) : k.preempt.lock.relocked = true ↔
    k.lock.relocked = true ∨ ∃ pid, k.pm.currentPid = some pid ∧
      k.pm.stateOf pid = some .running ∧ pid ∉ k.sched.readyQueue := by
  unfold preempt
  simp only [lockPm_pm]
  cases k.pm.currentPid with
  | none => simp [h]
  | some pid =>
    by_cases hrun : k.pm.stateOf pid = some .running
    · simp [hrun, h]
    · simp [hrun, h]

lemma scheduleUser_held : k.scheduleUser.lock.held = k.lock.held := by
  unfold scheduleUser
  by_cases hq : k.sched.readyQueue = []
  · rw [nextProcess_nil hq]
  · obtain ⟨pid, A, B, v, -, heq⟩ := nextProcess_spec hq
    rw [heq]
    rfl

lemma scheduleUser_relocked (h : k.lock.held = 0) :
    k.scheduleUser.lock.relocked = k.lock.relocked := by
  unfold scheduleUser
  by_cases hq : k.sched.readyQueue = []
  · rw [nextProcess_nil hq]
  · obtain ⟨pid, A, B, v, -, heq⟩ := nextProcess_spec hq
    rw [heq]
    simp [lockPm, h]

/-- The slice of a running process does not end while it is away from the
queue. A signal that terminates or stops it comes first. -/
def SliceSafe (k : Kernel) : Prop :=
  ∀ pid, k.pm.currentPid = some pid → k.pm.stateOf pid = some .running →
    k.pm.due pid .terminate = false → k.pm.due pid .stop = false →
    k.sched.quantum ≤ k.sched.quantumCounter + 1 → k.sched.quantumCounter + 1 < 2 ^ 64 →
    pid ∈ k.sched.readyQueue

/-- A lock that is taken while it is free, and dropped. -/
lemma lock_unlock (h : k.lock.held = 0) : k.lockPm.unlockPm.lock = k.lock := by
  cases hk : k.lock with
  | mk held relocked =>
    rw [hk] at h
    subst h
    simp [lockPm, unlockPm, hk]

lemma chargeRunningVruntime_lock (h : k.lock.held = 0) :
    k.chargeRunningVruntime.lock = k.lock := by
  unfold chargeRunningVruntime
  simp only [lockPm_pm]
  split
  all_goals exact lock_unlock h

/-- Charging the running process changes virtual runtimes only. -/
lemma chargeRunningVruntime_settled (hg : ∀ p v, g { p with vruntime := v } = g p) :
    Settled g k k.chargeRunningVruntime ∧
      k.chargeRunningVruntime.sched = k.sched ∧
      ∀ q, k.chargeRunningVruntime.pm.stateOf q = k.pm.stateOf q := by
  obtain ⟨hsched, hmode, hcur⟩ := chargeRunningVruntime_frame (k := k)
  refine ⟨⟨by rw [hsched], by rw [hsched], by rw [hsched], hmode, hcur, fun q => ?_,
    fun q => chargeRunningVruntime_getProcess hg⟩, hsched, fun q => chargeRunningVruntime_stateOf⟩
  rw [chargeRunningVruntime_stateOf]

lemma Settled.due (h : Settled signalsOf k₁ k₂) (pid : Pid)
    (action : Signal.DefaultAction) : k₂.pm.due pid action = k₁.pm.due pid action :=
  due_congr (h.rest pid) action

/-- The process whose slice may end, before and after a safe wake-up and the
delivery of signals. -/
lemma Settled.slice (h : Settled signalsOf k₁ k₂) :
    (∃ pid, k₂.deliverSignals.pm.currentPid = some pid ∧
      k₂.deliverSignals.pm.stateOf pid = some .running ∧
      pid ∉ k₂.deliverSignals.sched.readyQueue) ↔
    ∃ pid, k₁.pm.currentPid = some pid ∧ k₁.pm.stateOf pid = some .running ∧
      k₁.pm.due pid .terminate = false ∧ k₁.pm.due pid .stop = false ∧
      pid ∉ k₁.sched.readyQueue := by
  rw [deliverSignals_currentPid, deliverSignals_sched]
  unfold doomed queueAfterSignals
  rw [h.currentPid, h.readyQueue]
  cases hcur : k₁.pm.currentPid with
  | none => simp
  | some pid =>
    have hrun := deliverSignals_running (h.currentPid.trans hcur)
    simp only [h.due] at hrun ⊢
    rw [h.running] at hrun
    cases hterm : k₁.pm.due pid .terminate with
    | false => simp [hrun, hterm, and_assoc]
    | true => simp [hterm]

/-- The end of a slice takes the lock twice if the process is queued again. -/
lemma countTick_relocked (h : k.lock.held = 0) : (countTick k).2.lock.relocked = true ↔
    k.lock.relocked = true ∨ (k.sched.quantumCounter + 1 < 2 ^ 64 ∧
      k.sched.quantum ≤ k.sched.quantumCounter + 1 ∧
      ∃ pid, k.pm.currentPid = some pid ∧ k.pm.stateOf pid = some .running ∧
        pid ∉ k.sched.readyQueue) := by
  unfold countTick
  by_cases hw : k.sched.quantumCounter + 1 < 2 ^ 64
  · rw [Outcome.uadd_of_lt hw]
    dsimp only
    split
    next hover =>
      have hpre := preempt_relocked
        (k := { k with sched := { k.sched with quantumCounter := 0 } }) h
      have hheld := preempt_held (k := { k with sched := { k.sched with quantumCounter := 0 } })
      rw [scheduleUser_relocked (hheld.trans h), hpre]
      exact or_congr_right ⟨fun hp => ⟨hw, hover, hp⟩, fun hp => hp.2.2⟩
    next hover => simp [hover]
  · have hpanic : (Outcome.uadd 64 k.sched.quantumCounter 1 : Outcome String Nat) = .panic :=
      if_neg hw
    rw [hpanic]
    exact ⟨.inl, fun hr => hr.resolve_right fun hp => hw hp.1⟩

/-- A tick takes the lock twice exactly if a sleeper is stuck, or the slice of a
running process ends. -/
lemma tick_relocked (now : Nat) (h : k.lock.held = 0) : (tick now k).2.lock.relocked = true ↔
    k.lock.relocked = true ∨ ¬ (WakeSafe now k ∧ SliceSafe k) := by
  obtain ⟨hcharge, hsched, hstate⟩ :=
    chargeRunningVruntime_settled (k := k) (g := signalsOf) fun _ _ => rfl
  have hlock := chargeRunningVruntime_lock h
  have hsafe : WakeSafe now k.chargeRunningVruntime ↔ WakeSafe now k := by
    unfold WakeSafe Stuck
    simp only [hsched, hstate]
  obtain ⟨hheld, hrel⟩ := wakeSleepers_lock now (hlock ▸ h)
  have hset : WakeSafe now k →
      Settled signalsOf k (k.chargeRunningVruntime.wakeSleepers now) := fun hw =>
     hcharge.trans (wakeSleepers_settled (fun _ _ => rfl) (hsafe.mpr hw))
  rw [hlock, hsafe] at hrel
  unfold tick
  rw [countTick_relocked (deliverSignals_held.trans hheld), deliverSignals_relocked hheld, hrel,
    or_assoc, deliverSignals_sched]
  refine or_congr_right ?_
  by_cases hw : WakeSafe now k
  · have hs := hset hw
    have hslice := hs.slice
    rw [deliverSignals_sched] at hslice
    simp only [hw, not_true, false_or, true_and]
    rw [hslice, hs.quantum, hs.quantumCounter]
    simp only [SliceSafe, not_forall]
    constructor
    · rintro ⟨hlt, hover, pid, hcur, hrun, hterm, hstop, hmem⟩
      exact ⟨pid, hcur, hrun, hterm, hstop, hover, hlt, hmem⟩
    · rintro ⟨pid, hcur, hrun, hterm, hstop, hover, hlt, hmem⟩
      exact ⟨hlt, hover, pid, hcur, hrun, hterm, hstop, hmem⟩
  · simp [hw]

/-! ## The calls -/

lemma tickKernelOnly_lock (now : Nat) (h : k.lock.held = 0) : (k.tickKernelOnly now).lock.held = 0 ∧
    ((k.tickKernelOnly now).lock.relocked = true ↔ k.lock.relocked = true ∨ ¬ WakeSafe now k) := by
  obtain ⟨hheld, hrel⟩ := wakeSleepers_lock now h
  unfold tickKernelOnly
  exact ⟨deliverSignals_held.trans hheld, by rw [deliverSignals_relocked hheld, hrel]⟩

/-- `schedule` looks for the next process with the lock in its hand. -/
lemma schedule_relocked (h : k.lock.held = 0) : k.schedule.lock.relocked = true ↔
    k.lock.relocked = true ∨ k.sched.readyQueue ≠ [] := by
  by_cases hq : k.sched.readyQueue = []
  · rw [schedule_nil hq, unlockPm_relocked, lockPm_relocked]
    simp [h, hq]
  · obtain ⟨pid, A, B, v, -, heq⟩ := schedule_spec hq
    rw [heq]
    split
    all_goals simp [hq]

/-- `yield_cpu` deadlocks unless there is nothing to do. -/
lemma yieldCpu_relocked (h : k.lock.held = 0) : k.yieldCpu.lock.relocked = true ↔
    k.lock.relocked = true ∨ ¬ (k.sched.readyQueue = [] ∧
      ∀ pid, k.pm.currentPid = some pid → k.pm.stateOf pid = none) := by
  unfold yieldCpu
  simp only [lockPm_pm]
  cases hcur : k.pm.currentPid with
  | none =>
    rw [schedule_relocked (by simp [h])]
    simp [h]
  | some pid =>
    by_cases hsome : (k.pm.stateOf pid).isSome
    · have hne : k.pm.stateOf pid ≠ none := Option.isSome_iff_ne_none.mp hsome
      simp only [hsome, if_true]
      rw [schedule_relocked (by simp [h])]
      -- the process that yields is queued, so `schedule` finds it
      have hq : ((((k.lockPm.setPm (k.pm.setState pid .ready)).enqueue pid).setCurrent
        none).unlockPm
          ).sched.readyQueue ≠ [] := by
        intro hnil
        have hmem : pid ∈ ((k.lockPm.setPm (k.pm.setState pid .ready)).enqueue
          pid).sched.readyQueue :=
          mem_enqueue.mpr (.inr rfl)
        rw [unlockPm_sched, setCurrent_sched] at hnil
        rw [hnil] at hmem
        exact not_mem_nil hmem
      simp only [ne_eq, hq, not_false_eq_true, or_true, true_iff]
      exact .inr fun hsafe => hne (hsafe.2 pid rfl)
    · have hnone : k.pm.stateOf pid = none := by simpa using hsome
      simp only [hsome]
      rw [schedule_relocked (by simp [h])]
      simp [h, hnone]

lemma block_relocked (h : k.lock.held = 0) : k.block.lock.relocked = true ↔
    k.lock.relocked = true ∨ k.sched.readyQueue ≠ [] := by
  unfold block
  simp only [lockPm_pm]
  cases k.pm.currentPid <;> (rw [schedule_relocked (by simp [h])]; simp [h])

/-- The process that the timer interrupt picks from a queue can be entered, or is
queued once more. -/
def PickSafe (pm : ProcessManager) (queue : List Pid) : Prop :=
  ∀ pid, queue[(bestOf (vruntimeOf pm) queue).1]? = some pid →
    enterable pm pid = true ∨ pid ∈ queue.eraseIdx (bestOf (vruntimeOf pm) queue).1

/-- In kernel mode no process is put back into the queue under the lock: there is
no preemption, a process is current, or the one that is picked is fine. -/
def DispatchSafe (k : Kernel) : Prop :=
  k.preemptiveMode = true → (k.pm.currentPid = none ∨ k.doomed = true) →
    PickSafe k.pm k.queueAfterSignals

/-- Dispatching deadlocks if a pick needs the table. -/
lemma dispatchFromKernel_relocked (hheld : 0 < k.lock.held) :
    k.dispatchFromKernel.2.lock.relocked = true ↔
      k.lock.relocked = true ∨ ¬ PickSafe k.pm k.sched.readyQueue := by
  unfold dispatchFromKernel
  by_cases hq : k.sched.readyQueue = []
  · have hnone : k.dequeueNextWithPm = (none, k) := if_pos hq
    rw [hnone]
    simp [PickSafe, hq]
  · have hlt := bestOf_lt (vruntimeOf k.pm) hq
    obtain ⟨v, heq⟩ : ∃ v, k.dequeueNextWithPm =
        (k.sched.readyQueue[(bestOf (vruntimeOf k.pm) k.sched.readyQueue).1]?,
          k.picked v (k.sched.readyQueue.eraseIdx
            (bestOf (vruntimeOf k.pm) k.sched.readyQueue).1)) :=
      ⟨_, if_neg hq⟩
    rw [heq]
    unfold PickSafe
    rw [List.getElem?_eq_getElem hlt]
    dsimp only
    split
    next hent => simp_all
    next hent => simp_all

/-- What the timer interrupt looks at when it picks a process. -/
def entryOf (p : Process) : Nat × Bool := (p.vruntime, p.isUser && p.hasTrapFrame)

/-- What a tick in the kernel leaves for the dispatch. -/
lemma tickKernelOnly_spec (hw : WakeSafe now k) :
    (k.tickKernelOnly now).preemptiveMode = k.preemptiveMode ∧
    (k.tickKernelOnly now).sched.readyQueue = k.queueAfterSignals ∧
    ((k.tickKernelOnly now).pm.currentPid = none ↔ k.pm.currentPid = none ∨ k.doomed = true) ∧
    (PickSafe (k.tickKernelOnly now).pm k.queueAfterSignals ↔
      PickSafe k.pm k.queueAfterSignals) := by
  have hsig : Settled signalsOf k (k.wakeSleepers now) := wakeSleepers_settled (fun _ _ => rfl) hw
  have hentry : Settled entryOf k (k.wakeSleepers now) := wakeSleepers_settled (fun _ _ => rfl) hw
  have hdoomed : (k.wakeSleepers now).doomed = k.doomed := by
    unfold doomed
    rw [hsig.currentPid]
    simp only [hsig.due]
  have hqueue : (k.wakeSleepers now).queueAfterSignals = k.queueAfterSignals := by
    unfold queueAfterSignals
    rw [hsig.currentPid, hsig.readyQueue]
    simp only [hsig.due]
  have hread : ∀ q, ((k.tickKernelOnly now).pm.getProcess q).map entryOf =
      (k.pm.getProcess q).map entryOf := fun q =>
    (deliverSignals_map (fun _ _ => rfl) (fun _ _ => rfl) fun _ _ _ => rfl).trans (hentry.rest q)
  have hpick : ∀ q, vruntimeOf (k.tickKernelOnly now).pm q = vruntimeOf k.pm q ∧
      enterable (k.tickKernelOnly now).pm q = enterable k.pm q := by
    intro q
    have hfst := congrArg (Option.map Prod.fst) (hread q)
    have hsnd := congrArg (Option.map Prod.snd) (hread q)
    rw [Option.map_map, Option.map_map] at hfst hsnd
    exact ⟨congrArg (Option.getD · u64Max) hfst, congrArg (Option.getD · false) hsnd⟩
  refine ⟨deliverSignals_preemptiveMode.trans hsig.preemptiveMode, ?_, ?_, ?_⟩
  · unfold tickKernelOnly
    rw [deliverSignals_sched, hqueue]
  · unfold tickKernelOnly
    rw [deliverSignals_currentPid, hdoomed, hsig.currentPid]
    cases k.doomed <;> simp
  · have hv : vruntimeOf (k.tickKernelOnly now).pm = vruntimeOf k.pm := funext fun q => (hpick q).1
    have he : enterable (k.tickKernelOnly now).pm = enterable k.pm := funext fun q => (hpick q).2
    unfold PickSafe
    rw [hv, he]

/-- The timer in kernel mode takes the lock twice exactly if waking or dispatching does. -/
lemma timerInKernel_relocked (h : k.lock.held = 0) :
    (k.timerInKernel now).2.lock.relocked = true ↔
      k.lock.relocked = true ∨ ¬ (WakeSafe now k ∧ DispatchSafe k) := by
  obtain ⟨hheld, hrel⟩ := tickKernelOnly_lock now h
  -- the part after the tick, from any state in which the lock is free
  have hrest : (k.timerInKernel now).2.lock.relocked = true ↔
      (k.tickKernelOnly now).lock.relocked = true ∨ ((k.tickKernelOnly now).preemptiveMode = true ∧
        (k.tickKernelOnly now).pm.currentPid = none ∧
        ¬ PickSafe (k.tickKernelOnly now).pm (k.tickKernelOnly now).sched.readyQueue) := by
    unfold timerInKernel
    generalize k.tickKernelOnly now = k' at hheld
    dsimp only
    split
    next hmode =>
      split
      next hcur =>
        rw [lockPm_pm] at hcur
        split
        next hq =>
          rw [lockPm_sched] at hq
          have hpick : PickSafe k'.pm k'.sched.readyQueue := by
            rw [hq]
            exact fun pid hpid => nomatch hpid
          simp [hpick, hheld]
        next =>
          rw [dispatchFromKernel_relocked (by simp), lockPm_relocked, lockPm_pm, lockPm_sched]
          simp [hheld, hmode, hcur]
      next hcur =>
        rw [lockPm_pm] at hcur
        simp [hheld, hcur]
    next hmode => simp [hmode]
  rw [hrest, hrel, or_assoc]
  refine or_congr_right ?_
  by_cases hw : WakeSafe now k
  · obtain ⟨hmode, hqueue, hcur, hpick⟩ := tickKernelOnly_spec hw
    rw [hmode, hqueue, hcur, hpick]
    simp [hw, DispatchSafe]
  · simp [hw]

/-- Saving the trap frame leaves the lock, the queues, the states and the signals
alone. -/
lemma saveFrame_spec (h : k.lock.held = 0) : k.saveFrame.lock = k.lock ∧
    k.saveFrame.sched = k.sched ∧ k.saveFrame.pm.currentPid = k.pm.currentPid ∧
    (∀ q, k.saveFrame.pm.stateOf q = k.pm.stateOf q) ∧
    ∀ q action, k.saveFrame.pm.due q action = k.pm.due q action := by
  unfold saveFrame
  simp only [lockPm_pm]
  split
  next => exact ⟨lock_unlock h, rfl, rfl, fun _ => rfl, fun _ _ => rfl⟩
  next pid hcur =>
    refine ⟨lock_unlock h, rfl, rfl,
      fun q => stateOf_update_same (fun _ => rfl) fun _ => rfl,
      fun q => due_congr ?_⟩
    exact getProcess_update_map (fun _ => rfl) fun _ => rfl

/-- A tick gives the lock back. -/
lemma tick_held (now : Nat) (h : k.lock.held = 0) : (tick now k).2.lock.held = 0 := by
  have hlock := chargeRunningVruntime_lock h
  obtain ⟨hheld, -⟩ := wakeSleepers_lock now (hlock ▸ h)
  have hheld' := deliverSignals_held.trans hheld
  unfold tick countTick
  generalize (k.chargeRunningVruntime.wakeSleepers now).deliverSignals = k' at hheld'
  split
  next =>
    split
    next => exact scheduleUser_held.trans (preempt_held.trans hheld')
    next => exact hheld'
  next => exact hheld'

/-- In user mode waking or the end of a slice does. -/
lemma timerInUser_relocked (h : k.lock.held = 0) :
    (timerInUser now k).2.lock.relocked = true ↔
      k.lock.relocked = true ∨ ¬ (WakeSafe now k ∧ SliceSafe k) := by
  obtain ⟨hlock, hsched, hcur, hstate, hdue⟩ := saveFrame_spec h
  have hsafe : (WakeSafe now k.saveFrame ∧ SliceSafe k.saveFrame) ↔
    WakeSafe now k ∧ SliceSafe k := by
    unfold WakeSafe Stuck SliceSafe
    simp only [hsched, hcur, hstate, hdue]
  have hrel := tick_relocked now (hlock ▸ h)
  have hheld := tick_held now (hlock ▸ h)
  rw [hlock, hsafe] at hrel
  rw [← hrel]
  unfold timerInUser
  generalize tick now k.saveFrame = r at hheld ⊢
  rcases r with ⟨_ | _ | _ | _, k'⟩
  · dsimp only at hheld ⊢
    split
    next => simp [hheld]
    next =>
      split
      all_goals simp [hheld]
  all_goals rfl

end

end Kernel

/-! ## The calls and when they are safe -/

/-- The calls of the scheduler and the timer interrupt. -/
inductive Call where
  | tick (now : Nat)
  | tickKernelOnly (now : Nat)
  | schedule
  | yieldCpu
  | block
  | unblock (pid : Pid)
  | enqueue (pid : Pid)
  | dequeue (pid : Pid)
  | timerPreemptHandler (fromUser : Bool) (now : Nat)
  deriving DecidableEq, Repr

namespace Call

/-- The state a call leaves, with what its lock remembers. -/
def run : Call → Kernel → Kernel
  | tick now, k => (Kernel.tick now k).2
  | tickKernelOnly now, k => k.tickKernelOnly now
  | schedule, k => k.schedule
  | yieldCpu, k => k.yieldCpu
  | block, k => k.block
  | unblock pid, k => k.unblock pid
  | enqueue pid, k => k.enqueue pid
  | dequeue pid, k => k.dequeue pid
  | timerPreemptHandler fromUser now, k => (Kernel.timerPreemptHandler fromUser now k).2

/-- The states from which a call does not come to take the lock twice. -/
def Safe : Call → Kernel → Prop
  | tick now, k => k.WakeSafe now ∧ k.SliceSafe
  | tickKernelOnly now, k => k.WakeSafe now
  | schedule, k => k.sched.readyQueue = []
  | yieldCpu, k =>
    k.sched.readyQueue = [] ∧ ∀ pid, k.pm.currentPid = some pid → k.pm.stateOf pid = none
  | block, k => k.sched.readyQueue = []
  | unblock pid, k => k.pm.stateOf pid = some .blocked → pid ∈ k.sched.readyQueue
  | enqueue _, _ => True
  | dequeue _, _ => True
  | timerPreemptHandler true now, k => k.WakeSafe now ∧ k.SliceSafe
  | timerPreemptHandler false now, k => k.WakeSafe now ∧ k.DispatchSafe

/-- A call that finds the lock of the process table free never takes it twice,
exactly if the state is safe for it. -/
theorem run_lock_iff (c : Call) (pm : ProcessManager) (sched : Scheduler) (mode : Bool) :
    (c.run ⟨pm, sched, .free, mode⟩).lock.relocked = false ↔ c.Safe ⟨pm, sched, .free, mode⟩ := by
  generalize hk : (⟨pm, sched, .free, mode⟩ : Kernel) = k
  have hheld : k.lock.held = 0 := hk ▸ rfl
  have hfree : k.lock.relocked = false := hk ▸ rfl
  -- most calls have a lemma that says when they take the lock twice
  rw [← Bool.not_eq_true, not_iff_comm]
  cases c with
  | tick now =>
    show ¬ (k.WakeSafe now ∧ k.SliceSafe) ↔ (Kernel.tick now k).2.lock.relocked = true
    rw [Kernel.tick_relocked now hheld]
    simp [hfree]
  | tickKernelOnly now =>
    show ¬ k.WakeSafe now ↔ (k.tickKernelOnly now).lock.relocked = true
    rw [(Kernel.tickKernelOnly_lock now hheld).2]
    simp [hfree]
  | schedule =>
    show ¬ k.sched.readyQueue = [] ↔ k.schedule.lock.relocked = true
    rw [Kernel.schedule_relocked hheld]
    simp [hfree]
  | yieldCpu =>
    show ¬ (k.sched.readyQueue = [] ∧ ∀ pid, k.pm.currentPid = some pid → k.pm.stateOf pid = none) ↔
      k.yieldCpu.lock.relocked = true
    rw [Kernel.yieldCpu_relocked hheld]
    simp [hfree]
  | block =>
    show ¬ k.sched.readyQueue = [] ↔ k.block.lock.relocked = true
    rw [Kernel.block_relocked hheld]
    simp [hfree]
  | unblock pid =>
    show ¬ (k.pm.stateOf pid = some .blocked → pid ∈ k.sched.readyQueue) ↔
      (k.unblock pid).lock.relocked = true
    unfold Kernel.unblock
    simp [hfree, hheld]
  | enqueue pid =>
    show ¬ True ↔ (k.enqueue pid).lock.relocked = true
    simp [hfree, hheld]
  | dequeue pid =>
    show ¬ True ↔ (k.dequeue pid).lock.relocked = true
    simp [hfree]
  | timerPreemptHandler fromUser now =>
    cases fromUser with
    | true =>
      show ¬ (k.WakeSafe now ∧ k.SliceSafe) ↔ (Kernel.timerInUser now k).2.lock.relocked = true
      rw [Kernel.timerInUser_relocked hheld]
      simp [hfree]
    | false =>
      show ¬ (k.WakeSafe now ∧ k.DispatchSafe) ↔ (k.timerInKernel now).2.lock.relocked = true
      rw [Kernel.timerInKernel_relocked hheld]
      simp [hfree]

/-- One process has been spawned, and nothing else has happened: `schedule` takes
the lock and then, in `next_process`, takes it again. -/
theorem schedule_relocks :
    (Kernel.spawn .new).1 = .ok 1 ∧ (Kernel.spawn .new).2.lock = .free ∧
      (schedule.run (Kernel.spawn .new).2).lock.relocked = true := by decide

end Call

end RustOs.Proc
