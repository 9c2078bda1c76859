import RustOs.Proc.Consistency

/-!
# Dead processes

A process that is `Terminated` or `Zombie` has given its kernel stack slot back.
It must not run again: no call may bring it back to `Ready`, `Running` or
`Blocked`, and it may not be `current_pid`.

The states are guarded in two ways only: `unblock` and the sleep queue wake blocked
processes alone, and every death clears `current_pid`. Nothing guards the ready
queue. A process killed while it is queued stays there, and whoever dispatches it
makes it running again. Nor do `send_signal(SIGSTOP)`, `deliver_pending_signals`
and `exec` look whether the process is dead.

`Event` has every call of the scheduler and the process manager. `Event.Spares`
says in which states a call leaves the dead alone: those that dispatch need a
ready queue of live processes. `Quiet` is what the pieces of the scheduler do
then, and `Event.never_again` what follows for every sequence of calls.
-/

namespace RustOs.Proc

open Lib Option Kernel ProcessManager List Nat Bool Prog

namespace Kernel

/-- The pid names a process that can still run. -/
def alive (k : Kernel) (pid : Pid) : Bool := liveState (k.pm.stateOf pid)

/-- The current process can still run. -/
def CurrentAlive (k : Kernel) : Prop := ∀ pid ∈ k.pm.currentPid, k.alive pid = true

/-- The processes in the ready queue can still run. -/
def QueueAlive (k : Kernel) : Prop := ∀ pid ∈ k.sched.readyQueue, k.alive pid = true

instance (k : Kernel) : Decidable k.QueueAlive :=
  inferInstanceAs (Decidable (∀ pid ∈ k.sched.readyQueue, k.alive pid = true))

/-- No pid comes to life, and no dead process becomes the current one. -/
structure Rests (k k' : Kernel) : Prop where
  rests : ∀ pid, k.alive pid = false → k'.alive pid = false
  current : k.CurrentAlive → k'.CurrentAlive

/-- The same, and no dead process stays in the ready queue. -/
structure Quiet (k k' : Kernel) : Prop extends Rests k k' where
  queue : k.CurrentAlive → k.QueueAlive → k'.QueueAlive

variable {s : ProcessState}

section

variable {k k₁ k' : Kernel} {pid : Pid}

lemma Quiet.trans (h : Quiet k k₁) (h' : Quiet k₁ k') : Quiet k k' where
  rests pid hpid := h'.rests pid (h.rests pid hpid)
  current hc := h'.current (h.current hc)
  queue hc hq := h'.queue (h.current hc) (h.queue hc hq)

/-- Nobody dies. -/
lemma Quiet.of_alive (halive : ∀ q, k'.alive q = k.alive q)
    (hcur : ∀ q ∈ k'.pm.currentPid, q ∈ k.pm.currentPid ∨ k.alive q = true)
    (hqueue : ∀ q ∈ k'.sched.readyQueue, q ∈ k.sched.readyQueue ∨ k.alive q = true) :
    Quiet k k' where
  rests pid hpid := (halive pid).trans hpid
  current hc q hq := (halive q).trans ((hcur q hq).elim (hc q) id)
  queue _ hready q hq := (halive q).trans ((hqueue q hq).elim (hready q) id)

/-- Neither states nor places change. -/
lemma Quiet.same (hstate : ∀ q, k'.pm.stateOf q = k.pm.stateOf q)
    (hcur : k'.pm.currentPid = k.pm.currentPid)
    (hqueue : k'.sched.readyQueue = k.sched.readyQueue) : Quiet k k' :=
  .of_alive (fun q => congrArg liveState (hstate q)) (fun _ hq => .inl (hcur ▸ hq))
    fun _ hq => .inl (hqueue ▸ hq)

lemma alive_update {s : Option ProcessState}
    (hstate : ∀ q, k'.pm.stateOf q = if q = pid then s else k.pm.stateOf q) (q : Pid) :
    k'.alive q = if q = pid then liveState s else k.alive q := by
  unfold alive
  rw [hstate]
  exact apply_ite liveState _ _ _

/-- A live process goes from one state to another. -/
lemma alive_of_move (hpid : k.alive pid = true) (hs : s.live = true)
    (hstate : ∀ q, k'.pm.stateOf q = if q = pid then some s else k.pm.stateOf q) (q : Pid) :
    k'.alive q = k.alive q := by
  rw [alive_update hstate]
  split
  next heq => rw [heq, hpid]; exact hs
  next => rfl

lemma isSome_of_alive (h : k.alive pid = true) : (k.pm.stateOf pid).isSome := by
  unfold alive at h
  cases hs : k.pm.stateOf pid with
  | none =>
    rw [hs] at h
    cases h
  | some s => rfl

lemma alive_of_stateOf (h : k.pm.stateOf pid = some s) (hs : s.live = true) :
    k.alive pid = true := by
  unfold alive
  rw [h]
  exact hs

/-- A live process is given another live state. -/
lemma alive_setState (hpid : k.alive pid = true) (hs : s.live = true)
    (hpm : ∀ q, k'.pm.stateOf q = (k.pm.setState pid s).stateOf q) (q : Pid) :
    k'.alive q = k.alive q :=
  alive_of_move hpid hs
    (fun q => (hpm q).trans (stateOf_setState_of_isSome (isSome_of_alive hpid))) q

lemma alive_of_death {s : Option ProcessState} (hs : liveState s = false)
    (hstate : ∀ q, k'.pm.stateOf q = if q = pid then s else k.pm.stateOf q) (q : Pid) :
    k'.alive q = if q = pid then false else k.alive q := by
  rw [alive_update hstate, hs]

section

variable (halive : ∀ q, k'.alive q = if q = pid then false else k.alive q)
  (hcur : ∀ q ∈ k'.pm.currentPid, q ≠ pid ∧ q ∈ k.pm.currentPid)
include halive hcur

/-- A process dies: whoever had it as the current one has none. -/
lemma Rests.of_death : Rests k k' where
  rests q hq := by
    rw [halive, hq]
    exact ite_self _
  current hc q hq := by
    obtain ⟨hne, hold⟩ := hcur q hq
    rw [halive, if_neg hne]
    exact hc q hold

/-- A process dies and leaves the ready queue. -/
lemma Quiet.of_death
    (hqueue : ∀ q ∈ k'.sched.readyQueue, q ≠ pid ∧ q ∈ k.sched.readyQueue) : Quiet k k' where
  toRests := .of_death halive hcur
  queue _ hq q hmem := by
    obtain ⟨hne, hold⟩ := hqueue q hmem
    rw [halive, if_neg hne]
    exact hq q hold

end

lemma mem_leave (pid : Pid) {c : Option Pid} {q : Pid} (h : q ∈ if c = some pid then none else c) :
    q ≠ pid ∧ q ∈ c := by
  split at h
  next => cases h
  next hne => exact ⟨fun heq => hne (heq ▸ h), h⟩

end

/-! ## The pieces of the scheduler -/

section

variable {k k' : Kernel} {pid : Pid}

lemma lockPm_quiet : Quiet k k.lockPm := .same (fun _ => rfl) rfl rfl

lemma unlockPm_quiet : Quiet k k.unlockPm := .same (fun _ => rfl) rfl rfl

/-- A live process is made ready and queued. -/
lemma setReady_enqueue_quiet (h : k.alive pid = true) :
    Quiet k ((k.setPm (k.pm.setState pid .ready)).enqueue pid) := by
  refine .of_alive (alive_setState h rfl fun q => enqueue_stateOf) (fun q hq => ?_) fun q hq => ?_
  · rw [enqueue_currentPid] at hq
    exact .inl hq
  · rcases mem_enqueue.mp hq with hold | heq
    · exact .inl hold
    · exact .inr (heq ▸ h)

lemma setCurrent_none_quiet : Quiet k (k.setCurrent none) :=
  .of_alive (fun _ => rfl) (fun _ hq => nomatch hq) fun _ hq => .inl hq

lemma wake_quiet : Quiet k (k.wake pid) := by
  unfold wake
  split
  next hblocked => exact setReady_enqueue_quiet (alive_of_stateOf hblocked rfl)
  next => exact .same (fun _ => rfl) rfl rfl

lemma unblock_quiet : Quiet k (k.unblock pid) :=
  lockPm_quiet.trans (wake_quiet.trans unlockPm_quiet)

/-- Waking brings sleepers back only. -/
lemma wakeLoop_quiet (now fuel i : Nat) : Quiet k (wakeLoop now fuel i k) := by
  induction fuel generalizing i k with
  | zero => exact .same (fun _ => rfl) rfl rfl
  | succ fuel ih =>
    unfold wakeLoop
    split
    next => exact .same (fun _ => rfl) rfl rfl
    next entry _ =>
      split
      next =>
        have htaken : Quiet k (k.takeSleeper i).lockPm := .same (fun _ => rfl) rfl rfl
        exact htaken.trans (wake_quiet.trans (unlockPm_quiet.trans (ih i)))
      next => exact ih (i + 1)

lemma chargeRunningVruntime_quiet : Quiet k k.chargeRunningVruntime := by
  obtain ⟨hsched, -, hcur⟩ := chargeRunningVruntime_frame (k := k)
  exact .same (fun _ => chargeRunningVruntime_stateOf) hcur (congrArg Scheduler.readyQueue hsched)

/-- Who can run after signals: nobody whom they terminate, and else who could run or is
stopped. -/
lemma live_signals (pm : ProcessManager) (pid : Pid) (s : Option ProcessState) :
    liveState (s.map (stateAfter (pm.deliverable pid) signals)) =
      (!pm.due pid .terminate && (liveState s || s.isSome && pm.due pid .stop)) := by
  unfold stateAfter due
  cases s with
  | none => simp [liveState]
  | some s =>
    cases dueIn (pm.deliverable pid) signals .terminate <;>
      cases dueIn (pm.deliverable pid) signals .stop <;>
      cases dueIn (pm.deliverable pid) signals .continue <;>
      cases s <;> rfl

/-- Signals may kill the current process, which then leaves the queue. -/
lemma deliverSignals_quiet (h : k.CurrentAlive) : Quiet k k.deliverSignals := by
  cases hcur : k.pm.currentPid with
  | none =>
    rw [deliverSignals_eq, hcur]
    exact lockPm_quiet.trans unlockPm_quiet
  | some pid =>
    have halive : liveState (k.pm.stateOf pid) = true := h pid hcur
    have hnew := alive_update fun q => deliverSignals_stateOf (q := q) hcur
    have hcur' := deliverSignals_currentPid (k := k)
    have hqueue : k.deliverSignals.sched.readyQueue = k.queueAfterSignals := by
      rw [deliverSignals_sched]
    unfold doomed at hcur'
    unfold queueAfterSignals at hqueue
    simp only [hcur, map_some, getD_some, live_signals, halive] at hnew hcur' hqueue
    cases hterm : k.pm.due pid .terminate with
    | true =>
      rw [hterm, if_pos rfl] at hcur' hqueue
      rw [hterm] at hnew
      refine .of_death hnew (fun q hq => ?_) fun q hq => ?_
      · rw [hcur'] at hq
        cases hq
      · rw [hqueue] at hq
        obtain ⟨hold, hne⟩ := mem_filter.mp hq
        exact ⟨bne_iff_ne.mp hne, hold⟩
    | false =>
      rw [hterm, if_neg nofun] at hcur' hqueue
      refine .of_alive (fun q => ?_) (fun q hq => ?_) fun q hq => .inl (hqueue ▸ hq)
      · rw [hnew, hterm]
        split
        next heq => exact heq ▸ halive.symm
        next => rfl
      · rw [hcur'] at hq
        exact .inl (hcur.symm ▸ hq)

lemma tickKernelOnly_quiet (h : k.CurrentAlive) (now : Nat) : Quiet k (k.tickKernelOnly now) := by
  have hwake : Quiet k (k.wakeSleepers now) := wakeLoop_quiet now _ 0
  exact hwake.trans (deliverSignals_quiet (hwake.current h))

/-- A live process gives up the processor and waits for it again. -/
lemma leave_ready_quiet (hpid : k.alive pid = true) : Quiet k
    (((k.lockPm.setPm (k.pm.setState pid .ready)).enqueue pid).setCurrent none).unlockPm :=
  lockPm_quiet.trans ((setReady_enqueue_quiet (k := k.lockPm) hpid).trans
    (setCurrent_none_quiet.trans unlockPm_quiet))

lemma preempt_quiet : Quiet k k.preempt := by
  unfold preempt
  simp only [lockPm_pm]
  cases k.pm.currentPid with
  | none => exact lockPm_quiet.trans unlockPm_quiet
  | some pid =>
    by_cases hrun : k.pm.stateOf pid = some .running
    · simp only [hrun]
      exact leave_ready_quiet (alive_of_stateOf hrun rfl)
    · simp only [hrun]
      exact lockPm_quiet.trans (setCurrent_none_quiet.trans unlockPm_quiet)

/-- A process of the queue is made the running one. -/
lemma dispatch_quiet {A B : List Pid} (hq : k.QueueAlive)
    (hsplit : k.sched.readyQueue = A ++ pid :: B)
    (hstate : ∀ q, k'.pm.stateOf q = (k.pm.setState pid .running).stateOf q)
    (hcur : k'.pm.currentPid = some pid) (hqueue : k'.sched.readyQueue = A ++ B) :
    Quiet k k' := by
  have hpid : k.alive pid = true := hq pid (hsplit ▸ mem_append_right A mem_cons_self)
  refine .of_alive (alive_setState hpid rfl hstate) (fun q hmem => ?_) fun q hmem => .inl ?_
  · rw [hcur] at hmem
    exact .inr (some.inj hmem ▸ hpid)
  · rw [hqueue] at hmem
    rw [hsplit]
    exact mem_append.mpr ((mem_append.mp hmem).imp_right (mem_cons_of_mem _))

/-- A process of the queue is picked and put back. -/
lemma putBack_quiet (k' : Kernel) {A B : List Pid}
    (hsplit : k.sched.readyQueue = A ++ pid :: B) (hpm : k'.pm = k.pm)
    (hqueue : k'.sched.readyQueue = A ++ B) : Quiet k (k'.enqueue pid) := by
  have hpid : pid ∈ k.sched.readyQueue := hsplit ▸ mem_append_right A mem_cons_self
  refine .of_alive (fun q => congrArg liveState ?_) (fun q hmem => .inl ?_) fun q hmem => .inl ?_
  · rw [enqueue_stateOf, hpm]
  · rwa [enqueue_currentPid, hpm] at hmem
  · rcases mem_enqueue.mp hmem with hold | heq
    · rw [hqueue] at hold
      rw [hsplit]
      exact mem_append.mpr ((mem_append.mp hold).imp_right (mem_cons_of_mem _))
    · exact heq ▸ hpid

lemma scheduleUser_quiet (hq : k.QueueAlive) : Quiet k k.scheduleUser := by
  unfold scheduleUser
  by_cases hnil : k.sched.readyQueue = []
  · rw [nextProcess_nil hnil]
    exact .same (fun _ => rfl) rfl rfl
  · obtain ⟨pid, A, B, v, hsplit, heq⟩ := nextProcess_spec hnil
    rw [heq]
    exact dispatch_quiet hq hsplit (fun _ => rfl) rfl rfl

lemma schedule_quiet (hq : k.QueueAlive) : Quiet k k.schedule := by
  by_cases hnil : k.sched.readyQueue = []
  · rw [schedule_nil hnil]
    exact lockPm_quiet.trans unlockPm_quiet
  · obtain ⟨pid, A, B, v, hsplit, heq⟩ := schedule_spec hnil
    rw [heq]
    split
    next =>
      exact (putBack_quiet (k.lockPm.lockPm.picked v (A ++ B)).unlockPm hsplit rfl rfl).trans
        unlockPm_quiet
    next => exact dispatch_quiet hq hsplit (fun _ => rfl) rfl rfl

/-! ## The calls of the scheduler -/

/-- First something quiet, then `schedule`. -/
lemma Quiet.schedule (h : Quiet k k') (hc : k.CurrentAlive) (hq : k.QueueAlive) :
    Quiet k k'.schedule :=
  h.trans (schedule_quiet (h.queue hc hq))

lemma yieldCpu_quiet (hc : k.CurrentAlive) (hq : k.QueueAlive) : Quiet k k.yieldCpu := by
  unfold yieldCpu
  simp only [lockPm_pm]
  cases hcur : k.pm.currentPid with
  | none => exact (lockPm_quiet.trans unlockPm_quiet).schedule hc hq
  | some pid =>
    have hpid : k.alive pid = true := hc pid hcur
    simp only [isSome_of_alive hpid]
    exact (leave_ready_quiet hpid).schedule hc hq

/-- The current process is blocked and gives up the processor. -/
lemma leave_blocked_quiet (hpid : k.alive pid = true) :
    Quiet k ((k.lockPm.setPm (k.pm.setState pid .blocked)).setCurrent none).unlockPm :=
  .of_alive (alive_setState hpid rfl fun _ => rfl) (fun _ hq => nomatch hq) fun _ hq => .inl hq

lemma block_quiet (hc : k.CurrentAlive) (hq : k.QueueAlive) : Quiet k k.block := by
  unfold block
  simp only [lockPm_pm]
  cases hcur : k.pm.currentPid with
  | none => exact (lockPm_quiet.trans unlockPm_quiet).schedule hc hq
  | some pid => exact (leave_blocked_quiet (hc pid hcur)).schedule hc hq

/-- `sleep` brings nobody back. -/
lemma sleep_quiet {now ticks : Nat} (hc : k.CurrentAlive) (hq : k.QueueAlive)
    (hk' : (sleep now ticks).after k = some k') : Quiet k k' := by
  have hticks : Quiet k (sleepTicks now ticks k).2 := by
    unfold sleepTicks
    simp only [lockPm_pm]
    cases hcur : k.pm.currentPid with
    | none => exact lockPm_quiet.trans unlockPm_quiet
    | some pid =>
      have hpid : k.alive pid = true := hc pid hcur
      have hnone : (k.pm.stateOf pid).isNone = false := by
        rw [← not_isSome, isSome_of_alive hpid]
        rfl
      simp only [hnone, false_eq_true, if_false]
      split
      next => exact (leave_blocked_quiet hpid).trans (.same (fun _ => rfl) rfl rfl)
      next => exact leave_blocked_quiet hpid
  rw [← after_eq hk']
  unfold sleep
  generalize sleepTicks now ticks k = r at hticks ⊢
  split
  next => exact hticks.schedule hc hq
  next => exact hticks

/-- The end of a slice brings nobody back. -/
lemma countTick_quiet (hk' : countTick.after k = some k')
    (hq : k.sched.quantum ≤ k.sched.quantumCounter + 1 → k.CurrentAlive ∧ k.QueueAlive) :
    Quiet k k' := by
  rw [countTick_after hk']
  split
  next hover =>
    have hreset : Quiet k { k with sched := { k.sched with quantumCounter := 0 } } :=
      .same (fun _ => rfl) rfl rfl
    have hpre := hreset.trans preempt_quiet
    exact hpre.trans (scheduleUser_quiet (hpre.queue (hq hover).1 (hq hover).2))
  next => exact .same (fun _ => rfl) rfl rfl

lemma tick_quiet {now : Nat} (hc : k.CurrentAlive)
    (hq : k.sched.quantum ≤ k.sched.quantumCounter + 1 → k.QueueAlive)
    (hk' : (tick now).after k = some k') : Quiet k k' := by
  have hwake : Quiet k (k.chargeRunningVruntime.wakeSleepers now) :=
    chargeRunningVruntime_quiet.trans (wakeLoop_quiet now _ 0)
  have hdeliver := hwake.trans (deliverSignals_quiet (hwake.current hc))
  obtain ⟨-, hquantum, hcounter, -⟩ := wakeSleepers_charge k now
  refine hdeliver.trans (countTick_quiet hk' ?_)
  rw [deliverSignals_sched]
  rw [hquantum, hcounter]
  intro hover
  exact ⟨hdeliver.current hc, hdeliver.queue hc (hq hover)⟩

/-- `exit` of the process table, for a process that may not exist. -/
lemma alive_exit (exitCode : Int)
    (hpm : ∀ q, k'.pm.stateOf q = (k.pm.exit pid exitCode).stateOf q) (q : Pid) :
    k'.alive q = if q = pid then false else k.alive q := by
  unfold alive
  rw [hpm]
  cases hp : k.pm.getProcess pid with
  | none =>
    have hupdate : k.pm.exit pid exitCode = k.pm.leave pid := by
      unfold ProcessManager.exit
      rw [hp]
      exact congrArg (leave · pid)
        (congrArg (fun l => ({ k.pm with processes := l } : ProcessManager))
          (updateFirst_of_none _ hp))
    rw [hupdate, stateOf_leave]
    split
    next heq =>
      rw [heq, stateOf, hp]
      rfl
    next => rfl
  | some p =>
    rw [stateOf_exit hp]
    split
    next => rfl
    next =>
      split
      next hwait =>
        rw [hwait.2]
        rfl
      next => rfl

/-- `terminate` of the process table, for a process that may not exist. -/
lemma alive_terminate
    (hpm : ∀ q, k'.pm.stateOf q = (k.pm.terminate pid).stateOf q) (q : Pid) :
    k'.alive q = if q = pid then false else k.alive q := by
  unfold alive
  rw [hpm, ProcessManager.terminate, stateOf_leave, stateOf_die .terminated (·.exitCode)]
  by_cases heq : q = pid
  · rw [if_pos heq, heq]
    cases k.pm.stateOf pid <;> simp [liveState, ProcessState.live]
  · rw [if_neg heq, if_neg fun h => heq h.1]

lemma terminate_quiet : Quiet k (k.terminate pid) := by
  refine .of_death (alive_terminate fun _ => rfl) (fun q hq => mem_leave pid ?_) fun q hq => ?_
  · have hq' : q ∈ (k.pm.terminate pid).currentPid := hq
    rwa [ProcessManager.terminate, currentPid_leave] at hq'
  · obtain ⟨hold, hne⟩ := mem_filter.mp hq
    exact ⟨bne_iff_ne.mp hne, hold⟩

lemma exit_quiet (hc : k.CurrentAlive) (hq : k.pm.currentPid ≠ none → k.QueueAlive) :
    Quiet k k.exit := by
  unfold exit
  simp only [lockPm_pm]
  cases hcur : k.pm.currentPid with
  | none => exact lockPm_quiet.trans unlockPm_quiet
  | some pid =>
    have hterm : Quiet k (k.lockPm.unlockPm.terminate pid) :=
      (lockPm_quiet.trans unlockPm_quiet).trans terminate_quiet
    exact hterm.schedule hc (hq (by simp [hcur]))

/-- `sys_exit` brings nobody back. -/
lemma sysExit_quiet (hc : k.CurrentAlive) (hq : k.preemptiveMode = false → k.QueueAlive)
    (exitCode : Int) : Quiet k (k.sysExit exitCode) := by
  cases hcur : k.pm.currentPid with
  | none =>
    rw [sysExit_of_none hcur]
    split
    next => exact lockPm_quiet.trans unlockPm_quiet
    next hmode => exact (lockPm_quiet.trans unlockPm_quiet).schedule hc (hq (by simpa using hmode))
  | some pid =>
    have hexit : Quiet k (((k.lockPm.setPm (k.pm.exit pid exitCode)).setCurrent
        none).unlockPm.dequeue pid) := by
      refine .of_death (alive_exit exitCode fun _ => rfl) (fun q hq => nomatch hq) fun q hq => ?_
      obtain ⟨hold, hne⟩ := mem_filter.mp hq
      exact ⟨bne_iff_ne.mp hne, hold⟩
    rw [sysExit_of_some hcur]
    split
    next => exact hexit
    next hmode => exact hexit.schedule hc (hq (by simpa using hmode))

/-- Dispatching picks from the queue. -/
lemma dispatchFromKernel_quiet (hq : k.QueueAlive) : Quiet k k.dispatchFromKernel.2 := by
  unfold dispatchFromKernel
  by_cases hnil : k.sched.readyQueue = []
  · have hnone : k.dequeueNextWithPm = (none, k) := if_pos hnil
    rw [hnone]
    exact unlockPm_quiet
  · obtain ⟨pid, A, B, v, hsplit, heq⟩ := dequeueNextWithPm_spec hnil
    rw [heq]
    dsimp only
    split
    next => exact dispatch_quiet hq hsplit (fun _ => rfl) rfl rfl
    next => exact (putBack_quiet (k.picked v (A ++ B)) hsplit rfl rfl).trans unlockPm_quiet

lemma wakeLoop_preemptiveMode (now fuel i : Nat) :
    (wakeLoop now fuel i k).preemptiveMode = k.preemptiveMode := by
  induction fuel generalizing i k with
  | zero => rfl
  | succ fuel ih =>
    unfold wakeLoop
    split
    next => rfl
    next =>
      split
      next =>
        refine (ih i).trans ?_
        unfold wake enqueue
        split
        next => split <;> rfl
        next => rfl
      next => exact ih (i + 1)

lemma timerInKernel_quiet (hc : k.CurrentAlive) (hq : k.preemptiveMode = true → k.QueueAlive)
    (now : Nat) : Quiet k (k.timerInKernel now).2 := by
  have htick := tickKernelOnly_quiet hc now
  have hmode : (k.tickKernelOnly now).preemptiveMode = k.preemptiveMode := by
    unfold tickKernelOnly
    rw [deliverSignals_preemptiveMode, wakeSleepers, wakeLoop_preemptiveMode]
  unfold timerInKernel
  dsimp only
  split
  next hpre =>
    have hqueue := htick.queue hc (hq (hmode ▸ hpre))
    split
    next =>
      split
      next => exact htick.trans (.same (fun _ => rfl) rfl rfl)
      next =>
        have hlocked : (k.tickKernelOnly now).lockPm.QueueAlive := hqueue
        exact htick.trans (lockPm_quiet.trans (dispatchFromKernel_quiet hlocked))
    next => exact htick.trans (lockPm_quiet.trans unlockPm_quiet)
  next => exact htick

lemma saveFrame_quiet : Quiet k k.saveFrame := by
  unfold saveFrame
  simp only [lockPm_pm]
  cases hcur : k.pm.currentPid with
  | none => exact lockPm_quiet.trans unlockPm_quiet
  | some pid =>
    refine .same (fun q => ?_) rfl rfl
    exact stateOf_update_same (fun _ => rfl) fun _ => rfl

/-- In user mode the handler does nothing to the table but save a frame and
tick. -/
lemma timerInUser_after {now : Nat} (hk' : (timerInUser now).after k = some k') :
    ∃ k₁, (tick now).after k.saveFrame = some k₁ ∧ Quiet k₁ k' := by
  obtain ⟨hret, rfl⟩ := after_eq_some.mp hk'
  refine ⟨(tick now k.saveFrame).2, after_eq_some.mpr ⟨?_, rfl⟩, ?_⟩
  · unfold timerInUser at hret
    generalize tick now k.saveFrame = r at hret ⊢
    obtain ⟨_ | _ | _ | _, k₁⟩ := r
    · trivial
    all_goals exact hret
  · unfold timerInUser
    generalize tick now k.saveFrame = r
    obtain ⟨_ | _ | _ | _, k₁⟩ := r
    · dsimp only
      split
      next => exact lockPm_quiet.trans unlockPm_quiet
      next => split <;> exact lockPm_quiet.trans unlockPm_quiet
    all_goals exact .same (fun _ => rfl) rfl rfl

lemma timerInUser_quiet {now : Nat} (hc : k.CurrentAlive)
    (hq : k.sched.quantum ≤ k.sched.quantumCounter + 1 → k.QueueAlive)
    (hk' : (timerInUser now).after k = some k') : Quiet k k' := by
  have hsave := saveFrame_quiet (k := k)
  have hsched : k.saveFrame.sched = k.sched := by
    unfold saveFrame
    simp only [lockPm_pm]
    cases k.pm.currentPid <;> rfl
  obtain ⟨k₁, htick, hdone⟩ := timerInUser_after hk'
  refine hsave.trans ((tick_quiet (hsave.current hc) ?_ htick).trans hdone)
  rw [hsched]
  exact fun hover => hsave.queue hc (hq hover)

end

/-! ## Calls of the process manager -/

section

variable {k k' : Kernel} {pid : Pid}

/-- A kill clears `current_pid`; a stop brings a zombie back. -/
lemma sendSignal_rests {sig : Nat}
    (hzombie : sig = Signal.sigstop → k.pm.stateOf pid ≠ some .zombie)
    (hk' : (withPm (sendSignal pid sig)).after k = some k') : Rests k k' := by
  have hpm : (sendSignal pid sig k.pm).2 = k'.pm := by rw [withPm_after hk']; rfl
  have hqueue : k'.sched.readyQueue = k.sched.readyQueue := by rw [withPm_after hk']; rfl
  have hcases := k.pm.sendSignal_cases pid sig
  rw [hpm] at hcases
  rcases hcases with ⟨s, -, -, -, hstate, hcur⟩ | ⟨s, hs, hterm, hstop, hstate, hcur⟩ |
    ⟨-, hstate, hcur⟩
  · exact .of_death (alive_of_death rfl hstate) fun q hq => mem_leave pid (hcur ▸ hq)
  · have hpid : k.alive pid = true := by
      have hne : s ≠ .zombie := fun heq => hzombie hstop (heq ▸ hs)
      refine alive_of_stateOf hs ?_
      cases s <;> first | rfl | exact absurd rfl hterm | exact absurd rfl hne
    exact (Quiet.of_alive (alive_of_move hpid rfl hstate) (fun q hq => Or.inl (hcur ▸ hq))
      fun q hq => .inl (hqueue ▸ hq)).toRests
  · exact (Quiet.same hstate hcur hqueue).toRests

/-- Signals are delivered to a process that need not be the current one. -/
lemma deliverPendingSignals_rests
    (hdead : k.alive pid = false → k.pm.due pid .stop = true → k.pm.due pid .terminate = true)
    (hpm : k'.pm = (k.pm.deliverPendingSignals pid).2) : Rests k k' := by
  obtain ⟨-, -, hcur, hstate⟩ := k.pm.deliverPendingSignals_spec pid
  rw [← hpm] at hcur hstate
  have hnew := alive_update hstate
  simp only [live_signals] at hnew
  refine ⟨fun q hq => ?_, fun hc q hq => ?_⟩
  · rw [hnew]
    split
    next heq =>
      -- nothing is due that would bring it back
      subst heq
      have hgone : liveState (k.pm.stateOf q) = false := hq
      cases hstop : k.pm.due q .stop with
      | true => rw [hdead hq hstop]; rfl
      | false => rw [hgone, Bool.and_false, Bool.or_false, Bool.and_false]
    next => exact hq
  · rw [hcur] at hq
    split at hq
    next => cases hq
    next hleft =>
      rw [hnew]
      split
      next heq =>
        subst heq
        have halive : liveState (k.pm.stateOf q) = true := hc q hq
        have hterm : k.pm.due q .terminate = false :=
          eq_false_iff.mpr fun hterm => hleft ⟨hterm, hq⟩
        rw [hterm, halive]
        rfl
      next => exact hc q hq

lemma exit_rests (exitCode : Int) (hpm : k'.pm = k.pm.exit pid exitCode) : Rests k k' := by
  refine .of_death (alive_exit exitCode fun q => by rw [hpm]) fun q hq => mem_leave pid ?_
  rwa [hpm, currentPid_exit] at hq

lemma terminate_rests (hpm : k'.pm = k.pm.terminate pid) : Rests k k' := by
  refine .of_death (alive_terminate fun q => by rw [hpm]) fun q hq => mem_leave pid ?_
  rwa [hpm, ProcessManager.terminate, currentPid_leave] at hq

/-- A live process is put into a live state. -/
lemma setState_rests (hpid : (k.pm.stateOf pid).isSome → k.alive pid = true)
    (hs : s.live = true) (hpm : k'.pm = k.pm.setState pid s)
    (hqueue : k'.sched.readyQueue = k.sched.readyQueue) : Rests k k' := by
  refine (Quiet.of_alive (fun q => ?_) (fun q hq => Or.inl ?_) fun q hq =>
    Or.inl (hqueue ▸ hq)).toRests
  · by_cases hsome : (k.pm.stateOf pid).isSome
    · exact alive_setState (hpid hsome) hs (fun q => by rw [hpm]) q
    · unfold alive
      rw [hpm, stateOf_setState, if_neg fun h => hsome h.2]
  · rwa [hpm] at hq

lemma exec_rests (hdead : (k.pm.stateOf pid).isSome → k.alive pid = true)
    (hpm : k'.pm = (exec pid k.pm).2)
    (hqueue : k'.sched.readyQueue = k.sched.readyQueue) : Rests k k' := by
  unfold exec at hpm
  split at hpm
  next => exact (Quiet.same (fun q => by rw [hpm]) (by rw [hpm]) hqueue).toRests
  next => exact setState_rests hdead (s := .ready) rfl hpm hqueue

/-- `wait` is at rest if whoever waits is alive. -/
lemma wait_rests (hw : k.pm.WellNumbered)
    (hdead : k.pm.zombieChild pid = none → k.pm.hasChildren pid = true →
      (k.pm.stateOf pid).isSome → k.alive pid = true) : Rests k (k.wait pid) := by
  unfold wait ProcessManager.wait
  simp only [lockPm_pm]
  cases hz : k.pm.zombieChild pid with
  | some child =>
    have hstate : ∀ q, (k.lockPm.setPm { k.pm with
        processes := k.pm.processes.filter fun p => p.pid != child.pid }).unlockPm.pm.stateOf q =
        if q = child.pid then none else k.pm.stateOf q := fun q => stateOf_filter
    have hgone := alive_of_death rfl hstate
    refine ⟨fun q hq => ?_, fun hc q hq => ?_⟩
    · rw [hgone, hq]
      exact ite_self _
    · have halive := hc q hq
      rw [hgone]
      split
      next heq =>
        -- the current process is no zombie
        have hchild := find?_some hz
        simp only [and_eq_true, beq_iff_eq] at hchild
        unfold alive at halive
        rw [heq, stateOf, hw.getProcess_of_mem (mem_of_find?_eq_some hz),
          map_some, hchild.2] at halive
        cases halive
      next => exact halive
  | none =>
    by_cases hc : k.pm.hasChildren pid = true
    · simp only [hc]
      exact setState_rests (hdead hz hc) (s := .waiting) rfl rfl rfl
    · simp only [hc]
      exact (lockPm_quiet.trans unlockPm_quiet).toRests

end

end Kernel

/-! ## Every sequence of calls -/

/-- The calls of the scheduler and of the process manager. -/
inductive Event where
  | op (o : Op)
  | deliverPendingSignals (pid : Pid)
  /-- `exit` of the scheduler. -/
  | exit
  /-- `exit` of the process manager. -/
  | exitProcess (pid : Pid) (exitCode : Int)
  /-- `terminate` of the scheduler. -/
  | terminate (pid : Pid)
  /-- `terminate` of the process manager. -/
  | terminateProcess (pid : Pid)
  | exec (pid : Pid)
  | tickKernelOnly (now : Nat)
  | timerPreemptHandler (fromUser : Bool) (now : Nat)
  deriving DecidableEq, Repr

namespace Event

/-- A call of the process manager that always returns. -/
def under (call : ProcessManager → ProcessManager) (k : Kernel) : Kernel :=
  (k.lockPm.setPm (call k.pm)).unlockPm

/-- The state after a call, if it returns. -/
def step : Event → Kernel → Option Kernel
  | .op o => o.step
  | .deliverPendingSignals pid => fun k =>
      some (under (fun pm => (pm.deliverPendingSignals pid).2) k)
  | .exit => fun k => some k.exit
  | .exitProcess pid exitCode => fun k => some (under (·.exit pid exitCode) k)
  | .terminate pid => fun k => some (k.terminate pid)
  | .terminateProcess pid => fun k => some (under (·.terminate pid) k)
  | .exec pid => (Kernel.withPm (ProcessManager.exec pid)).after
  | .tickKernelOnly now => fun k => some (k.tickKernelOnly now)
  | .timerPreemptHandler fromUser now => (Kernel.timerPreemptHandler fromUser now).after

/-- The states in which a call leaves the dead alone. -/
def Spares (e : Event) (k : Kernel) : Prop :=
  match e with
  | .op (.tick _) | .timerPreemptHandler true _ =>
    k.sched.quantum ≤ k.sched.quantumCounter + 1 → k.QueueAlive
  | .op .schedule | .op .yieldCpu | .op .block | .op (.sleep _ _) => k.QueueAlive
  | .op (.sysExit _) => k.preemptiveMode = false → k.QueueAlive
  | .timerPreemptHandler false _ => k.preemptiveMode = true → k.QueueAlive
  | .exit => k.pm.currentPid ≠ none → k.QueueAlive
  | .op (.sendSignal pid sig) => sig = Signal.sigstop → k.pm.stateOf pid ≠ some .zombie
  | .op (.wait pid) => k.pm.zombieChild pid = none → k.pm.hasChildren pid = true →
      (k.pm.stateOf pid).isSome → k.alive pid = true
  | .deliverPendingSignals pid =>
    k.alive pid = false → k.pm.due pid .stop = true → k.pm.due pid .terminate = true
  | .exec pid => (k.pm.stateOf pid).isSome → k.alive pid = true
  | _ => True

/-- No call brings back a pid that was handed out. -/
lemma step_later {e : Event} {k k' : Kernel} (hw : k.pm.WellNumbered)
    (hk' : e.step k = some k') : k.pm.Later k'.pm := by
  cases e with
  | op o => exact o.step_later hw hk'
  | deliverPendingSignals pid =>
    exact hw.later_same (some.inj hk' ▸ numbering_deliverPendingSignals)
  | exit => exact hw.later_same (some.inj hk' ▸ exit_numbering)
  | exitProcess pid exitCode =>
    exact hw.later_same (some.inj hk' ▸ numbering_exit exitCode)
  | terminate pid => exact hw.later_same (some.inj hk' ▸ numbering_terminate)
  | terminateProcess pid =>
    exact hw.later_same (some.inj hk' ▸ numbering_terminate)
  | exec pid =>
    rw [withPm_after hk']
    exact hw.later_same numbering_exec
  | tickKernelOnly now => exact hw.later_same (some.inj hk' ▸ tickKernelOnly_numbering now)
  | timerPreemptHandler fromUser now =>
    exact hw.later_same (after_eq hk' ▸ timerPreemptHandler_numbering fromUser now)

/-- A new process does not disturb the dead. -/
lemma insert_rests {k k' : Kernel} {p : Process} (hw : k.pm.WellNumbered) (hc : k.CurrentAlive)
    (hp : p.pid = k.pm.nextPid)
    (hstate : ∀ q, k'.pm.stateOf q = (k.pm.insertProcess p).stateOf q)
    (hcur : k'.pm.currentPid = k.pm.currentPid) :
    k'.CurrentAlive ∧ ∀ pid < k.pm.nextPid, k.alive pid = false → k'.alive pid = false := by
  have hfresh : k.pm.stateOf p.pid = none := hw.fresh (le_of_eq hp.symm)
  have hother : ∀ q, q ≠ p.pid → k'.alive q = k.alive q := by
    intro q hq
    unfold alive
    rw [hstate, stateOf_insertProcess hfresh, if_neg hq]
  refine ⟨fun q hq => ?_, fun pid hpid hdead => ?_⟩
  · rw [hcur] at hq
    have halive := hc q hq
    rw [hother q fun heq => ?_]
    · exact halive
    · unfold alive at halive
      rw [heq, hfresh] at halive
      cases halive
  · rw [hother pid (hp ▸ Nat.ne_of_lt hpid)]
    exact hdead

/-- A call in a state that suits it leaves the dead alone. -/
lemma step_rests {e : Event} {k k' : Kernel} (hw : k.pm.WellNumbered) (hc : k.CurrentAlive)
    (hk' : e.step k = some k') (hs : e.Spares k) :
    k'.CurrentAlive ∧ ∀ pid < k.pm.nextPid, k.alive pid = false → k'.alive pid = false := by
  -- only the calls that insert a process need more than `Rests`: their pid is a new one
  have done : Kernel.Rests k k' →
      k'.CurrentAlive ∧ ∀ pid < k.pm.nextPid, k.alive pid = false → k'.alive pid = false :=
    fun h => ⟨h.current hc, fun pid _ => h.rests pid⟩
  cases e with
  | op o =>
    cases o with
    | spawn =>
      rw [spawn_after hk']
      exact insert_rests (p := .new k.pm.nextPid) hw hc rfl (fun q => enqueue_stateOf)
        enqueue_currentPid
    | spawnUser stack =>
      obtain ⟨slot, heq⟩ := spawnUser_after hk'
      rw [heq]
      exact insert_rests (p := .newUser k.pm.nextPid none slot) hw hc rfl
        (fun q => enqueue_stateOf) enqueue_currentPid
    | sysFork stack =>
      rcases sysFork_after hk' with ⟨-, heq⟩ | ⟨parentPid, -, heq⟩
      · rw [heq] at hk' done ⊢
        exact done (lockPm_quiet.trans unlockPm_quiet).toRests
      · split at heq
        next =>
          rw [heq]
          exact ⟨hc, fun pid _ hdead => hdead⟩
        next parent _ =>
          rw [heq]
          exact insert_rests (p := parent.clone k.pm.nextPid stack) hw hc rfl (fun q => rfl) rfl
    | tick now => exact done (tick_quiet hc hs hk').toRests
    | schedule => exact done (some.inj hk' ▸ (schedule_quiet hs).toRests)
    | yieldCpu => exact done (some.inj hk' ▸ (yieldCpu_quiet hc hs).toRests)
    | block => exact done (some.inj hk' ▸ (block_quiet hc hs).toRests)
    | unblock pid => exact done (some.inj hk' ▸ unblock_quiet.toRests)
    | sleep now ticks => exact done (sleep_quiet hc hs hk').toRests
    | sendSignal pid sig => exact done (sendSignal_rests hs hk')
    | sysExit exitCode => exact done (some.inj hk' ▸ (sysExit_quiet hc hs exitCode).toRests)
    | wait pid => exact done (some.inj hk' ▸ wait_rests hw hs)
  | deliverPendingSignals pid =>
    cases hk'
    exact done (deliverPendingSignals_rests hs rfl)
  | exit => exact done (some.inj hk' ▸ (exit_quiet hc hs).toRests)
  | exitProcess pid exitCode =>
    cases hk'
    exact done (exit_rests exitCode rfl)
  | terminate pid => exact done (some.inj hk' ▸ terminate_quiet.toRests)
  | terminateProcess pid =>
    cases hk'
    exact done (terminate_rests rfl)
  | exec pid =>
    have heq := withPm_after hk'
    refine done (exec_rests hs (heq ▸ rfl) (heq ▸ rfl))
  | tickKernelOnly now => exact done (some.inj hk' ▸ (tickKernelOnly_quiet hc now).toRests)
  | timerPreemptHandler fromUser now =>
    cases fromUser with
    | true => exact done (timerInUser_quiet hc hs hk').toRests
    | false => exact done (some.inj hk' ▸ (timerInKernel_quiet hc hs now).toRests)

/-- **A dead process never runs again.** From the empty system, in a sequence of
calls each of which is made in a state of `Spares`: once a process is terminated
or a zombie, it is never again ready, running or blocked, nor the current
process. -/
theorem never_again (preemptive : Bool) {es₁ es₂ : List Event} {k₁ k₂ : Kernel} {pid : Pid}
    (hspares : Along step Spares (es₁ ++ es₂) { Kernel.new with preemptiveMode := preemptive })
    (h₁ : trace step es₁ { Kernel.new with preemptiveMode := preemptive } = some k₁)
    (hdead : k₁.pm.stateOf pid = some .terminated ∨ k₁.pm.stateOf pid = some .zombie)
    (h₂ : trace step es₂ k₁ = some k₂) :
    k₂.pm.stateOf pid ≠ some .ready ∧ k₂.pm.stateOf pid ≠ some .running ∧
      k₂.pm.stateOf pid ≠ some .blocked ∧ k₂.pm.currentPid ≠ some pid := by
  obtain ⟨hbefore, hafter⟩ := along_append hspares h₁
  -- before the death: pids are handed out once, and the current process is alive
  obtain ⟨hw₁, hc₁⟩ : k₁.pm.WellNumbered ∧ k₁.CurrentAlive := by
    refine trace_of_along (I := fun k => k.pm.WellNumbered ∧ k.CurrentAlive) ?_ ?_ hbefore h₁
    · exact fun e k k' ⟨hw, hc⟩ hk' hs => ⟨(step_later hw hk').wellNumbered,
        (step_rests hw hc hk' hs).1⟩
    · exact ⟨⟨nodup_nil, nofun⟩, nofun⟩
  have hgone : k₁.alive pid = false := by
    unfold alive
    rcases hdead with h | h <;> rw [h] <;> rfl
  have hold : pid < k₁.pm.nextPid := by
    refine Nat.lt_of_not_le fun hle => ?_
    rw [hw₁.fresh hle] at hdead
    rcases hdead with h | h <;> exact nomatch h
  -- after it: the same, and the pid names nobody who can run
  obtain ⟨-, hc₂, -, hgone₂⟩ : k₂.pm.WellNumbered ∧ k₂.CurrentAlive ∧ pid < k₂.pm.nextPid ∧
      k₂.alive pid = false := by
    refine trace_of_along (I := fun k => k.pm.WellNumbered ∧ k.CurrentAlive ∧ pid < k.pm.nextPid ∧
      k.alive pid = false) ?_ ⟨hw₁, hc₁, hold, hgone⟩ hafter h₂
    intro e k k' ⟨hw, hc, hlt, hg⟩ hk' hs
    obtain ⟨hc', hrests⟩ := step_rests hw hc hk' hs
    have hlater := step_later hw hk'
    exact ⟨hlater.wellNumbered, hc', lt_of_lt_of_le hlt hlater.next, hrests pid hlt hg⟩
  have hstate : ∀ s : ProcessState, s.live = true → k₂.pm.stateOf pid ≠ some s := by
    intro s hs heq
    rw [alive_of_stateOf heq hs] at hgone₂
    cases hgone₂
  refine ⟨hstate _ rfl, hstate _ rfl, hstate _ rfl, fun hcur => ?_⟩
  rw [hc₂ pid hcur] at hgone₂
  cases hgone₂

instance (e : Event) (k : Kernel) : Decidable (e.Spares k) := by
  unfold Spares
  split <;> infer_instance

/-- Two processes; the first runs, exits, and is passed over from then on. -/
theorem never_again_exit : ∃ k₁ k₂,
    trace step [.op .spawn, .op .spawn, .op .schedule, .op (.sysExit 0)] Kernel.new = some k₁ ∧
    k₁.pm.stateOf 1 = some .zombie ∧ trace step [.op .yieldCpu, .op (.tick 5)] k₁ = some k₂ ∧
    k₂.pm.stateOf 1 ≠ some .ready ∧ k₂.pm.stateOf 1 ≠ some .running ∧
      k₂.pm.stateOf 1 ≠ some .blocked ∧ k₂.pm.currentPid ≠ some 1 := by
  have hspares : Along step Spares ([.op .spawn, .op .spawn, .op .schedule, .op (.sysExit 0)] ++
      [.op .yieldCpu, .op (.tick 5)]) { Kernel.new with preemptiveMode :=
        false } := by decide +kernel
  exact ⟨_, _, rfl, rfl, rfl, never_again false hspares rfl (.inr rfl) rfl⟩

/-- **A pid is handed out once.** In every run from the empty system and every continuation of it,
pids are distinct, and one whose process is gone never names a process again. -/
theorem pids_never_reused (preemptive : Bool) (before after : List Event) :
    Always step (fun k => Always step (fun k' => k.pm.Later k'.pm) after k) before
      { Kernel.new with preemptiveMode := preemptive } := by
  intro es k _ hk
  have hw : k.pm.WellNumbered := trace_of_along (I := fun k => k.pm.WellNumbered)
    (fun _ _ _ hw hs _ => (step_later hw hs).wellNumbered)
    ⟨nodup_nil, fun _ h => absurd h not_mem_nil⟩ (along_true es _) hk
  refine always_of_along (fun e k₁ k₂ h hs _ => ?_) (hw.later_same rfl) (along_true after _)
  have hnext := step_later h.wellNumbered hs
  exact ⟨hnext.wellNumbered, Nat.le_trans h.next hnext.next,
    fun pid hlt hmem => h.old pid hlt (hnext.old pid (lt_of_lt_of_le hlt h.next) hmem)⟩

/-- A process that is killed while it is queued is dispatched by the next
`schedule`. -/
theorem killed_runs_again : ∃ k₁ k₂,
    trace step [.op .spawn, .op (.sendSignal 1 Signal.sigkill)] Kernel.new = some k₁ ∧
    k₁.pm.stateOf 1 = some .terminated ∧ trace step [.op .schedule] k₁ = some k₂ ∧
    k₂.pm.stateOf 1 = some .running ∧ k₂.pm.currentPid = some 1 := by
  exact ⟨_, _, rfl, rfl, rfl, rfl, rfl⟩

end Event

end RustOs.Proc
