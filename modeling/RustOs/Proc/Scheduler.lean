import RustOs.Proc.Manager
import RustOs.Syscall.Basic
import RustOs.Lib.Trace

/-!
# The scheduler

The run queue, the sleep queue and the operations of `process/scheduler.rs` and
`interrupts.rs` on them, with the process table they share.

The process table stands behind a spin lock, `PROCESS_MANAGER`. Every place that
takes or drops the lock is `lockPm` or `unlockPm` here. The lock is a counter
that never stops anybody, and it remembers in `relocked` whether it was taken
while it was held: on the real lock that is where the kernel stops for good. So
the same definitions serve for the question whether that can happen, and for the
questions that take the lock for granted.

The time is read from the timer and is an argument of the calls that read it.
The mirror of the queue in the per-CPU slots is left out: nothing here reads it.
-/

namespace RustOs.Proc

open Lib Option Outcome List ProcessManager

/-! ## Weights -/

/-- `NICE_WEIGHTS`. -/
def niceWeights : List Nat :=
  [88761, 71755, 56483, 46273, 36291, 29154, 23254, 18705, 14949, 11916,
    9548, 7620, 6100, 4904, 3906, 3121, 2501, 1991, 1586, 1277,
    1024, 820, 655, 526, 423, 335, 272, 215, 172, 137,
    110, 87, 70, 56, 45, 36, 29, 23, 18, 15]

/-- `weight_for_nice`. -/
def weightForNice (nice : Int) : Nat := niceWeights.getD (min (max (nice + 20) 0) 39).toNat 0

/-- `vtick_for_nice`. -/
def vtickForNice (nice : Int) : Nat := 1024 * 1024 / weightForNice nice

/-- `slice_for`. -/
def sliceFor (runnable : Nat) : Nat := max (16 / max runnable 1) 2

/-- `u64::MAX`. -/
def u64Max : Nat := 2 ^ 64 - 1

/-! ## State -/

/-- `SleepEntry`. -/
structure SleepEntry where
  pid : Pid
  wakeTick : Nat
  deriving DecidableEq, Repr

/-- `Scheduler`. -/
structure Scheduler where
  readyQueue : List Pid
  quantum : Nat
  quantumCounter : Nat
  sleepQueue : List SleepEntry
  minVruntime : Nat
  deriving DecidableEq, Repr

/-- `Scheduler::new`. -/
def Scheduler.new : Scheduler := ⟨[], 16, 0, [], 0⟩

/-- The lock of the process table: how often it is held, and whether it was ever
taken while held. -/
structure Lock where
  held : Nat
  relocked : Bool
  deriving DecidableEq, Repr

/-- The lock at rest. -/
def Lock.free : Lock := ⟨0, false⟩

/-- What the scheduler, the process table and the timer interrupt share. -/
structure Kernel where
  pm : ProcessManager
  sched : Scheduler
  lock : Lock
  /-- `PREEMPTIVE_MODE`. -/
  preemptiveMode : Bool
  deriving DecidableEq, Repr

/-- The system before the first process. -/
def Kernel.new : Kernel := ⟨.new, .new, .free, false⟩

namespace Kernel

variable (k : Kernel)

/-- `PROCESS_MANAGER.lock()`. -/
def lockPm : Kernel :=
  { k with lock := ⟨k.lock.held + 1, k.lock.relocked || decide (0 < k.lock.held)⟩ }

/-- The guard is dropped. -/
def unlockPm : Kernel := { k with lock := ⟨k.lock.held - 1, k.lock.relocked⟩ }

/-- Put another process table in place. -/
def setPm (pm : ProcessManager) : Kernel := { k with pm := pm }

/-- Put another ready queue in place. -/
def setReady (queue : List Pid) : Kernel :=
  { k with sched := { k.sched with readyQueue := queue } }

/-- `self.current_pid = pid`. -/
def setCurrent (pid : Option Pid) : Kernel :=
  k.setPm { k.pm with currentPid := pid }

/-! ## The ready queue -/

/-- `enqueue`. A process that has been away starts at the current minimum. -/
def enqueue (pid : Pid) : Kernel :=
  if pid ∈ k.sched.readyQueue then k
  else
    let k := k.lockPm
    let k := k.setPm (k.pm.update pid fun p =>
      if p.vruntime < k.sched.minVruntime then { p with vruntime := k.sched.minVruntime } else p)
    let k := k.unlockPm
    k.setReady (k.sched.readyQueue ++ [pid])

/-- `dequeue`. -/
def dequeue (pid : Pid) : Kernel :=
  k.setReady (k.sched.readyQueue.filter fun p => p != pid)

/-- The scan for the smallest virtual runtime: index and value of the best so
far. -/
def bestLoop (vruntime : Pid → Nat) : List Pid → Nat → Nat × Nat → Nat × Nat
  | [], _, best => best
  | pid :: queue, i, best =>
    bestLoop vruntime queue (i + 1) (if vruntime pid < best.2 then (i, vruntime pid) else best)

/-- Index and virtual runtime of the process to run next; index 0 if all have the
largest possible one. -/
def bestOf (vruntime : Pid → Nat) (queue : List Pid) : Nat × Nat :=
  bestLoop vruntime queue 0 (0, u64Max)

/-- The virtual runtime a queued pid is compared by. -/
def vruntimeOf (pm : ProcessManager) (pid : Pid) : Nat :=
  ((pm.getProcess pid).map (·.vruntime)).getD u64Max

/-- `dequeue_next_with_pm`: the process with the smallest virtual runtime leaves
the queue. -/
def dequeueNextWithPm : Option Pid × Kernel :=
  if k.sched.readyQueue = [] then (none, k)
  else
    let best := bestOf (vruntimeOf k.pm) k.sched.readyQueue
    let minVruntime :=
      if best.2 ≠ u64Max ∧ best.2 > k.sched.minVruntime then best.2 else k.sched.minVruntime
    (k.sched.readyQueue[best.1]?,
      { k with sched := { k.sched with
          minVruntime := minVruntime
          readyQueue := k.sched.readyQueue.eraseIdx best.1 } })

/-- `next_process`: the same, under a lock of its own. -/
def nextProcess : Option Pid × Kernel :=
  if k.sched.readyQueue = [] then (none, k)
  else
    let r := k.lockPm.dequeueNextWithPm
    (r.1, r.2.unlockPm)

/-! ## Time -/

/-- `charge_running_vruntime`. -/
def chargeRunningVruntime : Kernel :=
  let k := k.lockPm
  let k := match k.pm.currentPid with
    | none => k
    | some pid => k.setPm (k.pm.update pid fun p =>
        { p with vruntime := min (p.vruntime + vtickForNice p.nice) u64Max })
  k.unlockPm

/-- `Vec::swap_remove`. -/
def swapRemove (entries : List SleepEntry) (i : Nat) : List SleepEntry :=
  match entries.getLast? with
  | none => entries
  | some last => (entries.set i last).dropLast

/-- `self.sleep_queue.swap_remove(i)`. -/
def takeSleeper (i : Nat) : Kernel :=
  { k with sched := { k.sched with sleepQueue := swapRemove k.sched.sleepQueue i } }

/-- Make a blocked process ready and queue it, with the lock of the process table
held by the caller. -/
def wake (pid : Pid) : Kernel :=
  if k.pm.stateOf pid = some .blocked then (k.setPm (k.pm.setState pid .ready)).enqueue pid else k

/-- The loop of `wake_sleepers` from index `i` on; each round takes an entry out
or moves on to the next. -/
def wakeLoop (now : Nat) : Nat → Nat → Kernel → Kernel
  | 0, _, k => k
  | fuel + 1, i, k =>
    match k.sched.sleepQueue[i]? with
    | none => k
    | some entry =>
      if entry.wakeTick ≤ now then
        wakeLoop now fuel i (((k.takeSleeper i).lockPm.wake entry.pid).unlockPm)
      else wakeLoop now fuel (i + 1) k

/-- `wake_sleepers`. -/
def wakeSleepers (now : Nat) (k : Kernel) : Kernel :=
  wakeLoop now k.sched.sleepQueue.length 0 k

/-- `deliver_signals`. -/
def deliverSignals : Kernel :=
  let k := k.lockPm
  let k := match k.pm.currentPid with
    | none => k
    | some pid =>
      let r := k.pm.deliverPendingSignals pid
      if r.1 then (k.setPm r.2).dequeue pid else k.setPm r.2
  k.unlockPm

/-- `tick_kernel_only`. -/
def tickKernelOnly (now : Nat) (k : Kernel) : Kernel := (k.wakeSleepers now).deliverSignals

/-- `preempt`. -/
def preempt : Kernel :=
  let k := k.lockPm
  let k := match k.pm.currentPid with
    | none => k
    | some pid =>
      (if k.pm.stateOf pid = some ProcessState.running then (k.setPm
        (k.pm.setState pid .ready)).enqueue pid
        else k).setCurrent none
  k.unlockPm

/-- Make a process the running one, and give it its slice. -/
def dispatch (pid : Pid) : Kernel :=
  let k := (k.setPm (k.pm.setState pid .running)).setCurrent (some pid)
  { k with sched := { k.sched with
      quantumCounter := 0
      quantum := sliceFor (k.sched.readyQueue.length + 1) } }

/-- `schedule_user`. -/
def scheduleUser : Kernel :=
  match k.nextProcess with
  | (none, k) => k
  | (some pid, k) => (k.lockPm.dispatch pid).unlockPm

/-- The end of `tick`: the slice is counted, and when it is used up another
process gets its turn. -/
def countTick : Prog Kernel String Unit := fun k =>
  match (Outcome.uadd 64 k.sched.quantumCounter 1 : Outcome String Nat) with
  | .ok counter =>
    if counter ≥ k.sched.quantum then
      (.ok (), ({ k with sched :=
        { k.sched with quantumCounter := 0 } } : Kernel).preempt.scheduleUser)
    else (.ok (), { k with sched := { k.sched with quantumCounter := counter } })
  | _ => (.panic, k)

/-- `tick`. -/
def tick (now : Nat) : Prog Kernel String Unit := fun k =>
  countTick ((k.chargeRunningVruntime).wakeSleepers now).deliverSignals

/-! ## Switching by request -/

/-- `schedule`. The context switch itself is not a matter of this state; the lock
is dropped before it. -/
def schedule : Kernel :=
  let k := k.lockPm
  let current := k.pm.currentPid
  match k.nextProcess with
  | (none, k) => k.unlockPm
  | (some pid, k) =>
    if some pid = current then (k.enqueue pid).unlockPm else (k.dispatch pid).unlockPm

/-- `yield_cpu`. -/
def yieldCpu : Kernel :=
  let k := k.lockPm
  let k := match k.pm.currentPid with
    | none => k
    | some pid =>
      (if (k.pm.stateOf pid).isSome then (k.setPm (k.pm.setState pid .ready)).enqueue pid
        else k).setCurrent none
  k.unlockPm.schedule

/-- `block`. -/
def block : Kernel :=
  let k := k.lockPm
  let k := match k.pm.currentPid with
    | none => k
    | some pid => (k.setPm (k.pm.setState pid .blocked)).setCurrent none
  k.unlockPm.schedule

/-- `unblock`. -/
def unblock (pid : Pid) : Kernel := (k.lockPm.wake pid).unlockPm

/-- `sleep_ticks`. The process is blocked before the wake-up time is computed. -/
def sleepTicks (now ticks : Nat) : Prog Kernel String Unit := fun k =>
  let k := k.lockPm
  match k.pm.currentPid with
  | none => (.ok (), k.unlockPm)
  | some pid =>
    if (k.pm.stateOf pid).isNone then (.ok (), k.unlockPm)
    else
      let k := ((k.setPm (k.pm.setState pid .blocked)).setCurrent none).unlockPm
      match (Outcome.uadd 64 now ticks : Outcome String Nat) with
      | .ok wakeTick =>
        (.ok (), { k with sched := { k.sched with
          sleepQueue := k.sched.sleepQueue ++ [⟨pid, wakeTick⟩] } })
      | _ => (.panic, k)

/-- `sleep`: go to sleep, then let another process run. -/
def sleep (now ticks : Nat) : Prog Kernel String Unit := fun k =>
  match sleepTicks now ticks k with
  | (.ok (), k) => (.ok (), k.schedule)
  | r => r

/-! ## Calls under the lock -/

/-- A call of the process manager under its lock. -/
def withPm {α : Type} (call : Prog ProcessManager String α) : Prog Kernel String α := fun k =>
  let k := k.lockPm
  ((call k.pm).1, (k.setPm (call k.pm).2).unlockPm)

/-- `spawn`. -/
def spawn : Prog Kernel String Pid := fun k =>
  match withPm ProcessManager.createProcess k with
  | (.ok pid, k) => (.ok pid, k.enqueue pid)
  | r => r

/-- `spawn_user`. The kernel stack is allocated between the two locks, and there
has to be one. -/
def spawnUser (stack : Option Nat) : Prog Kernel String Pid := fun k =>
  match withPm ProcessManager.takePid k with
  | (.ok pid, k) =>
    match stack with
    | none => (.panic, k)
    | some slot =>
      let k := k.lockPm
      let k := (k.setPm (k.pm.insertProcess (Process.newUser pid none slot))).unlockPm
      (.ok pid, k.enqueue pid)
  | r => r

/-- `terminate`. -/
def terminate (k : Kernel) (pid : Pid) : Kernel :=
  let k := (k.dequeue pid).lockPm
  (k.setPm (k.pm.terminate pid)).unlockPm

/-- `exit`, of the scheduler. -/
def exit (k : Kernel) : Kernel :=
  let k := k.lockPm
  let current := k.pm.currentPid
  let k := k.unlockPm
  match current with
  | none => k
  | some pid => (k.terminate pid).schedule

/-- `sys_fork`. The child is not queued. -/
def sysFork (stack : Option Nat) : Prog Kernel SyscallError Pid := fun k =>
  match k.pm.currentPid with
  | none => (.err .invalidArgument, k.lockPm.unlockPm)
  | some parentPid =>
    (withPm (ProcessManager.fork parentPid stack)).mapErr (fun _ => .outOfMemory) k

/-- `sys_exit`. Without preemption it goes on to the next process by itself. -/
def sysExit (exitCode : Int) (k : Kernel) : Kernel :=
  let k := k.lockPm
  let k := match k.pm.currentPid with
    | none => k.unlockPm
    | some pid =>
      ((k.setPm (k.pm.exit pid exitCode)).setCurrent none).unlockPm.dequeue pid
  if k.preemptiveMode then k else k.schedule

/-- `ProcessManager::wait`, as `sys_wait4` calls it. -/
def wait (k : Kernel) (parentPid : Pid) : Kernel :=
  let k := k.lockPm
  (k.setPm (k.pm.wait parentPid).2).unlockPm

/-! ## The timer interrupt -/

/-- What the interrupt handler returns to. -/
inductive Resume where
  /-- The interrupted code. -/
  | interrupted
  /-- The trap frame of a process. -/
  | process (pid : Pid)
  /-- The frame the kernel left behind when it dispatched the first process. -/
  | kernelReturn
  deriving DecidableEq, Repr

/-- May the process be entered through its trap frame? -/
def enterable (pm : ProcessManager) (pid : Pid) : Bool :=
  ((pm.getProcess pid).map fun p => p.isUser && p.hasTrapFrame).getD false

/-- The dispatch of a user process from kernel mode, under the lock. -/
def dispatchFromKernel (k : Kernel) : Resume × Kernel :=
  match k.dequeueNextWithPm with
  | (none, k) => (.interrupted, k.unlockPm)
  | (some pid, k) =>
    if enterable k.pm pid then
      (.process pid, ((k.setPm (k.pm.setState pid .running)).setCurrent (some pid)).unlockPm)
    else (.interrupted, (k.enqueue pid).unlockPm)

/-- `timer_preempt_handler`, when it interrupted the kernel. -/
def timerInKernel (now : Nat) (k : Kernel) : Resume × Kernel :=
  let k := k.tickKernelOnly now
  if k.preemptiveMode then
    let k := k.lockPm
    if k.pm.currentPid = none then
      if k.sched.readyQueue = [] then (.kernelReturn, { k.unlockPm with preemptiveMode := false })
      else k.dispatchFromKernel
    else (.interrupted, k.unlockPm)
  else (.interrupted, k)

/-- The trap frame of the interrupted process is saved. -/
def saveFrame (k : Kernel) : Kernel :=
  let k := k.lockPm
  let k := match k.pm.currentPid with
    | none => k
    | some pid => k.setPm (k.pm.update pid fun p => { p with hasTrapFrame := true })
  k.unlockPm

/-- `timer_preempt_handler`, when it interrupted a user process. -/
def timerInUser (now : Nat) : Prog Kernel String Resume := fun k =>
  match tick now k.saveFrame with
  | (.ok (), k) =>
    let k := k.lockPm
    match k.pm.currentPid with
    | none => (.ok .interrupted, k.unlockPm)
    | some pid =>
      if enterable k.pm pid then (.ok (.process pid), k.unlockPm)
      else (.ok .interrupted, k.unlockPm)
  | (.panic, k) => (.panic, k)
  | (.err e, k) => (.err e, k)
  | (.diverge, k) => (.diverge, k)

/-- `timer_preempt_handler`. -/
def timerPreemptHandler (fromUser : Bool) (now : Nat) : Prog Kernel String Resume := fun k =>
  if fromUser then timerInUser now k
  else (.ok (k.timerInKernel now).1, (k.timerInKernel now).2)

/-! ## What the pieces do to the state -/

section

variable {k} {k' : Kernel} {pid q : Pid} (c : Option Pid) (pm : ProcessManager)

@[simp] lemma lockPm_pm : k.lockPm.pm = k.pm := rfl
@[simp] lemma lockPm_sched : k.lockPm.sched = k.sched := rfl
@[simp] lemma unlockPm_pm : k.unlockPm.pm = k.pm := rfl
@[simp] lemma unlockPm_sched : k.unlockPm.sched = k.sched := rfl
@[simp] lemma setPm_pm : (k.setPm pm).pm = pm := rfl
@[simp] lemma setPm_sched : (k.setPm pm).sched = k.sched := rfl
@[simp] lemma setPm_lock : (k.setPm pm).lock = k.lock := rfl
@[simp] lemma setCurrent_sched : (k.setCurrent c).sched = k.sched := rfl
@[simp] lemma setCurrent_lock : (k.setCurrent c).lock = k.lock := rfl
@[simp] lemma setCurrent_stateOf :
    (k.setCurrent c).pm.stateOf q = k.pm.stateOf q := rfl
@[simp] lemma dequeue_pm : (k.dequeue pid).pm = k.pm := rfl
@[simp] lemma dequeue_lock : (k.dequeue pid).lock = k.lock := rfl

/-- `enqueue` changes virtual runtimes only, and the queue. -/
lemma enqueue_getProcess {α : Type} (g : Process → α)
    (hg : ∀ p v, g { p with vruntime := v } = g p) :
    ((k.enqueue pid).pm.getProcess q).map g = (k.pm.getProcess q).map g := by
  unfold enqueue
  split
  next => rfl
  next =>
    refine getProcess_update_map ?_ ?_
    · intro p
      split <;> rfl
    · intro p
      split
      · exact hg p _
      · rfl

@[simp] lemma enqueue_stateOf : (k.enqueue pid).pm.stateOf q = k.pm.stateOf q :=
  enqueue_getProcess (·.state) fun _ _ => rfl

@[simp] lemma enqueue_currentPid : (k.enqueue pid).pm.currentPid = k.pm.currentPid := by
  unfold enqueue
  split <;> rfl

lemma enqueue_readyQueue : (k.enqueue pid).sched.readyQueue =
    if pid ∈ k.sched.readyQueue then k.sched.readyQueue else k.sched.readyQueue ++ [pid] := by
  unfold enqueue
  split <;> rfl

lemma mem_enqueue : q ∈ (k.enqueue pid).sched.readyQueue ↔ q ∈ k.sched.readyQueue ∨ q = pid := by
  rw [enqueue_readyQueue]
  split
  next h => exact ⟨.inl, fun hq => hq.elim id fun heq => heq ▸ h⟩
  next => rw [mem_append, mem_singleton]

/-- The index of the best process lies in the part that was scanned, unless it is
the one the scan began with. -/
lemma bestLoop_index (v : Pid → Nat) (queue : List Pid) (i : Nat) (best : Nat × Nat) :
    (bestLoop v queue i best).1 = best.1 ∨
      i ≤ (bestLoop v queue i best).1 ∧ (bestLoop v queue i best).1 < i + queue.length := by
  induction queue generalizing i best with
  | nil => exact .inl rfl
  | cons pid queue ih =>
    rw [bestLoop, length_cons]
    rcases ih (i + 1) (if v pid < best.2 then (i, v pid) else best) with h | h
    · rw [h]
      split
      · exact .inr ⟨Nat.le_refl i, by omega⟩
      · exact .inl rfl
    · exact .inr ⟨by omega, by omega⟩

lemma bestOf_lt (v : Pid → Nat) {queue : List Pid} (h : queue ≠ []) :
    (bestOf v queue).1 < queue.length := by
  have hpos := length_pos_iff.mpr h
  unfold bestOf
  rcases bestLoop_index v queue 0 (0, u64Max) with hi | hi
  · rw [hi]
    exact hpos
  · omega

/-- The state after a process has been picked: what is left of the queue, and the
new minimum. -/
def picked (k : Kernel) (minVruntime : Nat) (queue : List Pid) : Kernel :=
  { k with sched := { k.sched with minVruntime := minVruntime, readyQueue := queue } }

@[simp] lemma picked_pm (v : Nat) (l : List Pid) : (k.picked v l).pm = k.pm := rfl
@[simp] lemma picked_lock (v : Nat) (l : List Pid) : (k.picked v l).lock = k.lock := rfl
@[simp] lemma picked_readyQueue (v : Nat) (l : List Pid) :
    (k.picked v l).sched.readyQueue = l := rfl

/-- `dequeue_next_with_pm` takes one process out of a queue that is not empty and
leaves the process table alone. -/
lemma dequeueNextWithPm_spec (h : k.sched.readyQueue ≠ []) :
    ∃ pid A B v, k.sched.readyQueue = A ++ pid :: B ∧
      k.dequeueNextWithPm = (some pid, k.picked v (A ++ B)) := by
  have hlen := bestOf_lt (vruntimeOf k.pm) h
  unfold dequeueNextWithPm
  rw [if_neg h]
  dsimp only
  rw [getElem?_eq_getElem hlen]
  refine ⟨_, k.sched.readyQueue.take _, k.sched.readyQueue.drop _, _, ?_,
    congrArg _ (congrArg (Kernel.mk _ · _ _) (congrArg (Scheduler.mk · _ _ _ _)
      (eraseIdx_eq_take_drop_succ _ _)))⟩
  rw [← drop_eq_getElem_cons hlen, take_append_drop]

/-- `next_process`, for a queue that is not empty. -/
lemma nextProcess_spec (h : k.sched.readyQueue ≠ []) :
    ∃ pid A B v, k.sched.readyQueue = A ++ pid :: B ∧
      k.nextProcess = (some pid, (k.lockPm.picked v (A ++ B)).unlockPm) := by
  obtain ⟨pid, A, B, v, hq, heq⟩ := dequeueNextWithPm_spec (k := k.lockPm) h
  refine ⟨pid, A, B, v, hq, ?_⟩
  unfold nextProcess
  rw [if_neg h, heq]

lemma nextProcess_nil (h : k.sched.readyQueue = []) : k.nextProcess = (none, k) := if_pos h

@[simp] lemma dispatch_stateOf : (k.dispatch pid).pm.stateOf q =
    if q = pid ∧ (k.pm.stateOf pid).isSome then some .running else k.pm.stateOf q :=
  stateOf_setState .running

@[simp] lemma dispatch_lock : (k.dispatch pid).lock = k.lock := rfl

/-- The end of the current process: a signal that terminates it is deliverable. -/
def doomed (k : Kernel) : Bool :=
  (k.pm.currentPid.map fun pid => k.pm.due pid .terminate).getD false

/-- The ready queue once signals have been delivered. -/
def queueAfterSignals (k : Kernel) : List Pid :=
  match k.pm.currentPid with
  | none => k.sched.readyQueue
  | some pid =>
    if k.pm.due pid .terminate then k.sched.readyQueue.filter fun p => p != pid
    else k.sched.readyQueue

/-- `deliver_signals` in one piece. -/
lemma deliverSignals_eq : k.deliverSignals = (match k.pm.currentPid with
    | none => k.lockPm
    | some pid =>
      (k.lockPm.setPm (k.pm.deliverPendingSignals pid).2).setReady
        k.queueAfterSignals).unlockPm := by
  unfold deliverSignals queueAfterSignals
  cases hcur : k.pm.currentPid with
  | none => simp only [lockPm_pm, hcur]
  | some pid =>
    have hterm : (k.pm.deliverPendingSignals pid).1 = k.pm.due pid .terminate :=
      (k.pm.deliverPendingSignals_spec pid).terminated
    rcases hr : k.pm.deliverPendingSignals pid with ⟨b, pm'⟩
    simp only [lockPm_pm, hcur, hr, ← hterm]
    cases b <;> rfl

lemma deliverSignals_sched :
    k.deliverSignals.sched = { k.sched with readyQueue := k.queueAfterSignals } := by
  rw [deliverSignals_eq]
  unfold queueAfterSignals
  split <;> rfl

lemma deliverSignals_preemptiveMode : k.deliverSignals.preemptiveMode = k.preemptiveMode := by
  rw [deliverSignals_eq]
  split <;> rfl

lemma deliverSignals_currentPid :
    k.deliverSignals.pm.currentPid = if k.doomed then none else k.pm.currentPid := by
  rw [deliverSignals_eq]
  unfold doomed
  split
  next hcur => rw [hcur]; exact hcur
  next pid hcur =>
    have hspec := (k.pm.deliverPendingSignals_spec pid).currentPid
    rw [hcur] at hspec ⊢
    exact hspec.trans (if_congr (and_iff_left rfl) rfl rfl)

/-- The state of the current process after its signals have been delivered. -/
lemma deliverSignals_stateOf (hcur : k.pm.currentPid = some pid) :
    k.deliverSignals.pm.stateOf q = if q = pid then
        (k.pm.stateOf pid).map (stateAfter (k.pm.deliverable pid) signals)
      else k.pm.stateOf q := by
  rw [deliverSignals_eq, hcur]
  exact (k.pm.deliverPendingSignals_spec pid).stateOf q

lemma schedule_nil (h : k.sched.readyQueue = []) : k.schedule = k.lockPm.unlockPm := by
  unfold schedule
  dsimp only
  rw [nextProcess_nil (k := k.lockPm) h]

/-- `schedule`, for a queue that is not empty. -/
lemma schedule_spec (h : k.sched.readyQueue ≠ []) :
    ∃ pid A B v, k.sched.readyQueue = A ++ pid :: B ∧ k.schedule =
      if some pid = k.pm.currentPid then
        ((k.lockPm.lockPm.picked v (A ++ B)).unlockPm.enqueue pid).unlockPm
      else ((k.lockPm.lockPm.picked v (A ++ B)).unlockPm.dispatch pid).unlockPm := by
  obtain ⟨pid, A, B, v, hq, heq⟩ := nextProcess_spec (k := k.lockPm) h
  refine ⟨pid, A, B, v, hq, ?_⟩
  unfold schedule
  dsimp only
  rw [heq]
  rfl

/-! ## Pids

No call of the scheduler hands out a pid or takes one back, except `spawn` and
its kind. -/

@[simp] lemma enqueue_numbering : (k.enqueue pid).pm.numbering = k.pm.numbering := by
  unfold enqueue
  split
  next => rfl
  next =>
    refine numbering_update fun p => ?_
    split <;> rfl

@[simp] lemma setCurrent_numbering :
    (k.setCurrent c).pm.numbering = k.pm.numbering := rfl

@[simp] lemma dispatch_numbering : (k.dispatch pid).pm.numbering = k.pm.numbering :=
  numbering_setState _

@[simp] lemma wake_numbering : (k.wake pid).pm.numbering = k.pm.numbering := by
  unfold wake
  split <;> simp

@[simp] lemma wakeLoop_numbering (now fuel i : Nat) :
    (wakeLoop now fuel i k).pm.numbering = k.pm.numbering := by
  induction fuel generalizing i k with
  | zero => rfl
  | succ fuel ih =>
    unfold wakeLoop
    split
    next => rfl
    next => split <;> simp [ih, takeSleeper]

@[simp] lemma schedule_numbering : k.schedule.pm.numbering = k.pm.numbering := by
  by_cases hq : k.sched.readyQueue = []
  · rw [schedule_nil hq]
    rfl
  · obtain ⟨pid, A, B, v, -, heq⟩ := schedule_spec hq
    rw [heq]
    split <;> simp

@[simp] lemma scheduleUser_numbering : k.scheduleUser.pm.numbering = k.pm.numbering := by
  unfold scheduleUser
  by_cases hq : k.sched.readyQueue = []
  · rw [nextProcess_nil hq]
  · obtain ⟨pid, A, B, v, -, heq⟩ := nextProcess_spec hq
    rw [heq]
    simp

@[simp] lemma deliverSignals_numbering : k.deliverSignals.pm.numbering = k.pm.numbering := by
  rw [deliverSignals_eq]
  split <;> simp [setReady]

lemma chargeRunningVruntime_frame : k.chargeRunningVruntime.sched = k.sched ∧
    k.chargeRunningVruntime.preemptiveMode = k.preemptiveMode ∧
    k.chargeRunningVruntime.pm.currentPid = k.pm.currentPid := by
  unfold chargeRunningVruntime
  dsimp only
  split <;> exact ⟨rfl, rfl, rfl⟩

lemma chargeRunningVruntime_getProcess {α : Type} {g : Process → α}
    (hv : ∀ p v, g { p with vruntime := v } = g p) :
    (k.chargeRunningVruntime.pm.getProcess q).map g = (k.pm.getProcess q).map g := by
  unfold chargeRunningVruntime
  dsimp only
  split
  next => rfl
  next => exact getProcess_update_map (fun _ => rfl) fun p => hv p _

lemma chargeRunningVruntime_stateOf :
    k.chargeRunningVruntime.pm.stateOf q = k.pm.stateOf q :=
  chargeRunningVruntime_getProcess fun _ _ => rfl

@[simp] lemma chargeRunningVruntime_numbering :
    k.chargeRunningVruntime.pm.numbering = k.pm.numbering := by
  unfold chargeRunningVruntime
  dsimp only
  split
  next => rfl
  next => exact numbering_update fun _ => rfl

@[simp] lemma preempt_numbering : k.preempt.pm.numbering = k.pm.numbering := by
  unfold preempt
  dsimp only
  split
  next => rfl
  next => rw [unlockPm_pm, setCurrent_numbering]; split <;> simp

@[simp] lemma tick_numbering (now : Nat) : (tick now k).2.pm.numbering = k.pm.numbering := by
  have hbefore : (k.chargeRunningVruntime.wakeSleepers now).deliverSignals.pm.numbering =
      k.pm.numbering := by simp [wakeSleepers]
  unfold tick countTick
  split
  next => split <;> simp [hbefore]
  next => exact hbefore

lemma yieldCpu_numbering : k.yieldCpu.pm.numbering = k.pm.numbering := by
  unfold yieldCpu
  rw [schedule_numbering, unlockPm_pm]
  split
  next => rfl
  next => rw [setCurrent_numbering]; split <;> simp

lemma block_numbering : k.block.pm.numbering = k.pm.numbering := by
  unfold block
  rw [schedule_numbering, unlockPm_pm]
  split <;> simp

lemma sleep_numbering (now ticks : Nat) : (sleep now ticks k).2.pm.numbering = k.pm.numbering := by
  have hticks : (sleepTicks now ticks k).2.pm.numbering = k.pm.numbering := by
    unfold sleepTicks
    dsimp only
    split
    next => rfl
    next =>
      split
      next => rfl
      next => split <;> simp
  unfold sleep
  split
  next heq => simpa [heq] using hticks
  next => exact hticks

lemma sysExit_of_none (hcur : k.pm.currentPid = none) (exitCode : Int) :
    k.sysExit exitCode =
      if k.preemptiveMode then k.lockPm.unlockPm else k.lockPm.unlockPm.schedule := by
  unfold sysExit
  simp only [lockPm_pm, hcur]
  rfl

lemma sysExit_of_some (hcur : k.pm.currentPid = some pid) (exitCode : Int) :
    k.sysExit exitCode = if k.preemptiveMode
      then ((k.lockPm.setPm (k.pm.exit pid exitCode)).setCurrent none).unlockPm.dequeue pid
      else (((k.lockPm.setPm (k.pm.exit pid exitCode)).setCurrent none).unlockPm.dequeue
        pid).schedule := by
  unfold sysExit
  simp only [lockPm_pm, hcur]
  rfl

lemma sysExit_numbering (exitCode : Int) :
    (k.sysExit exitCode).pm.numbering = k.pm.numbering := by
  cases hcur : k.pm.currentPid with
  | none =>
    rw [sysExit_of_none hcur]
    split <;> simp
  | some pid =>
    rw [sysExit_of_some hcur]
    split <;> simp

lemma exit_numbering : k.exit.pm.numbering = k.pm.numbering := by
  unfold exit
  dsimp only
  split <;> simp [terminate]

@[simp] lemma tickKernelOnly_numbering (now : Nat) :
    (k.tickKernelOnly now).pm.numbering = k.pm.numbering := by simp [tickKernelOnly, wakeSleepers]

/-- The timer starts no process. -/
lemma timerPreemptHandler_numbering (fromUser : Bool) (now : Nat) :
    (timerPreemptHandler fromUser now k).2.pm.numbering = k.pm.numbering := by
  unfold timerPreemptHandler
  split
  next =>
    have hsave : k.saveFrame.pm.numbering = k.pm.numbering := by
      unfold saveFrame
      dsimp only
      split
      next => rfl
      next => exact numbering_update fun _ => rfl
    have htick := (tick_numbering (k := k.saveFrame) now).trans hsave
    unfold timerInUser
    split
    next heq =>
      rw [heq] at htick
      dsimp only
      split
      next => exact htick
      next => split <;> exact htick
    all_goals
      next heq =>
        rw [heq] at htick
        exact htick
  next =>
    have htick := tickKernelOnly_numbering (k := k) now
    unfold timerInKernel dispatchFromKernel
    dsimp only
    split
    next =>
      split
      next =>
        split
        next => exact htick
        next hne =>
          obtain ⟨pid, A, B, v, -, heq⟩ := dequeueNextWithPm_spec hne
          rw [heq]
          dsimp only
          split <;> simp
      next => exact htick
    next => exact htick

/-- Calls of the manager that return, with or without an error. -/
lemma withPm_after {α : Type} {call : Prog ProcessManager String α}
    (hk' : (withPm call).after k = some k') :
    k' = (k.lockPm.setPm (call k.pm).2).unlockPm := by
  unfold Prog.after withPm at hk'
  split at hk'
  · exact (some.inj hk').symm
  · cases hk'

/-- A new process gets the next pid and is queued. -/
lemma spawn_after (hk' : spawn.after k = some k') :
    k' = ((k.lockPm.setPm (({ k.pm with nextPid := k.pm.nextPid + 1 } :
      ProcessManager).insertProcess (.new k.pm.nextPid))).unlockPm).enqueue k.pm.nextPid := by
  unfold Prog.after spawn withPm at hk'
  simp only [lockPm_pm, createProcess_eq] at hk'
  by_cases hlt : k.pm.nextPid + 1 < 2 ^ 64
  · simp only [hlt] at hk'
    cases hk'
    rfl
  · simp only [hlt] at hk'
    cases hk'

/-- `spawn_user`: a new process at the end of the queue. -/
lemma spawnUser_after {stack : Option Nat}
    (hk' : (spawnUser stack).after k = some k') : ∃ slot,
    k' = ((((k.lockPm.setPm { k.pm with nextPid := k.pm.nextPid + 1 }).unlockPm).lockPm.setPm
      (({ k.pm with nextPid := k.pm.nextPid + 1 } : ProcessManager).insertProcess
        (.newUser k.pm.nextPid none slot))).unlockPm).enqueue k.pm.nextPid := by
  unfold Prog.after spawnUser withPm at hk'
  simp only [lockPm_pm, takePid_eq] at hk'
  by_cases hlt : k.pm.nextPid + 1 < 2 ^ 64
  · simp only [hlt] at hk'
    cases stack with
    | none => cases hk'
    | some slot =>
      cases hk'
      exact ⟨slot, rfl⟩
  · simp only [hlt] at hk'
    cases hk'

/-- A fork needs a current process; its child gets the next pid and is not
queued. -/
lemma sysFork_after {stack : Option Nat}
    (hk' : (sysFork stack).after k = some k') :
    (k.pm.currentPid = none ∧ k' = k.lockPm.unlockPm) ∨
    ∃ parentPid, k.pm.currentPid = some parentPid ∧
      match k.pm.getProcess parentPid with
      | none => k' = (k.lockPm.setPm { k.pm with nextPid := k.pm.nextPid + 1 }).unlockPm
      | some parent => k' = (k.lockPm.setPm (({ k.pm with nextPid := k.pm.nextPid + 1 } :
          ProcessManager).insertProcess (parent.clone k.pm.nextPid stack))).unlockPm := by
  unfold Prog.after sysFork at hk'
  cases hcur : k.pm.currentPid with
  | none =>
    simp only [hcur] at hk'
    cases hk'
    exact .inl ⟨rfl, rfl⟩
  | some parentPid =>
    refine .inr ⟨parentPid, rfl, ?_⟩
    simp only [hcur] at hk'
    simp only [Prog.mapErr_apply, withPm, lockPm_pm, fork_eq] at hk'
    by_cases hlt : k.pm.nextPid + 1 < 2 ^ 64
    · simp only [hlt] at hk'
      cases hp : k.pm.getProcess parentPid with
      | none =>
        simp only [hp] at hk'
        cases hk'
        rfl
      | some parent =>
        simp only [hp] at hk'
        cases hk'
        rfl
    · simp only [hlt] at hk'
      cases hk'

end

end Kernel

/-! ## Sequences of calls -/

/-- The calls that move processes about, with what they take from outside: the
time, and the answer of the kernel stack pool. -/
inductive Op where
  | spawn
  | spawnUser (stack : Option Nat)
  | sysFork (stack : Option Nat)
  | tick (now : Nat)
  | schedule
  | yieldCpu
  | block
  | unblock (pid : Pid)
  /-- `sleep_ticks`, then `schedule`. -/
  | sleep (now ticks : Nat)
  | sendSignal (pid : Pid) (sig : Nat)
  | sysExit (exitCode : Int)
  | wait (pid : Pid)
  deriving DecidableEq, Repr

/-- The state after a call, if it returns. -/
def Op.step : Op → Kernel → Option Kernel
  | .spawn => Kernel.spawn.after
  | .spawnUser stack => (Kernel.spawnUser stack).after
  | .sysFork stack => (Kernel.sysFork stack).after
  | .tick now => (Kernel.tick now).after
  | .schedule => fun k => some k.schedule
  | .yieldCpu => fun k => some k.yieldCpu
  | .block => fun k => some k.block
  | .unblock pid => fun k => some (k.unblock pid)
  | .sleep now ticks => (Kernel.sleep now ticks).after
  | .sendSignal pid sig => (Kernel.withPm (ProcessManager.sendSignal pid sig)).after
  | .sysExit exitCode => fun k => some (k.sysExit exitCode)
  | .wait pid => fun k => some (k.wait pid)

/-- No call brings back a pid that was handed out. -/
lemma Op.step_later {op : Op} {k k' : Kernel} (hw : k.pm.WellNumbered)
    (hk' : op.step k = some k') : k.pm.Later k'.pm := by
  cases op with
  | spawn =>
    rw [Kernel.spawn_after hk']
    exact (hw.later_insert (p := .new k.pm.nextPid) rfl).congr Kernel.enqueue_numbering
  | spawnUser stack =>
    obtain ⟨slot, hslot⟩ := Kernel.spawnUser_after hk'
    rw [hslot]
    exact (hw.later_insert (p := .newUser k.pm.nextPid none slot) rfl).congr
      Kernel.enqueue_numbering
  | sysFork stack =>
    rcases Kernel.sysFork_after hk' with ⟨-, heq⟩ | ⟨parentPid, -, heq⟩
    · rw [heq]
      exact hw.later_same rfl
    · split at heq
      next =>
        rw [heq]
        exact hw.later_next
      next parent _ =>
        rw [heq]
        exact hw.later_insert (p := parent.clone k.pm.nextPid stack) rfl
  | tick now => exact hw.later_same (Prog.after_eq hk' ▸ Kernel.tick_numbering now)
  | schedule => exact hw.later_same (some.inj hk' ▸ Kernel.schedule_numbering)
  | yieldCpu => exact hw.later_same (some.inj hk' ▸ Kernel.yieldCpu_numbering)
  | block => exact hw.later_same (some.inj hk' ▸ Kernel.block_numbering)
  | unblock pid => exact hw.later_same (some.inj hk' ▸ Kernel.wake_numbering)
  | sleep now ticks => exact hw.later_same (Prog.after_eq hk' ▸ Kernel.sleep_numbering now ticks)
  | sendSignal pid sig =>
    rw [Kernel.withPm_after hk']
    exact hw.later_same (numbering_sendSignal sig)
  | sysExit exitCode => exact hw.later_same (some.inj hk' ▸ Kernel.sysExit_numbering exitCode)
  | wait pid => exact some.inj hk' ▸ hw.later_wait

/-! ## `nanosleep` -/

/-- The ticks that `sys_nanosleep` computes for a request that it accepts. -/
def nanosleepTicks (seconds nsec : Nat) : Outcome String Nat := do
  let sum ← .uadd 64 (min (min (seconds * 1000000000) (2 ^ 64 - 1) + nsec) (2 ^ 64 - 1)) 54944000
  return sum / 54945055

/-- The ticks are computed and last for the nanoseconds asked for, and nobody is put to sleep
until a time before now. -/
def SleepsEnough (k : Kernel) (now seconds nsec : Nat) : Prop :=
  ∃ ticks, nanosleepTicks seconds nsec = .ok ticks ∧
    (seconds * 1000000000 + nsec < 2 ^ 64 → seconds * 1000000000 + nsec ≤ ticks * 54945055) ∧
    ∃ k', Kernel.sleepTicks now ticks k = (.ok (), k') ∧
      ∀ s ∈ k'.sched.sleepQueue, s ∈ k.sched.sleepQueue ∨ now ≤ s.wakeTick

/-- The ticks of a sleep, rounded up. -/
lemma nanosleepTicks_eq_ok {seconds nsec ticks : Nat} :
    nanosleepTicks seconds nsec = .ok ticks ↔
      seconds * 1000000000 + nsec + 54944000 < 2 ^ 64 ∧
        (seconds * 1000000000 + nsec + 54944000) / 54945055 = ticks := by
  unfold nanosleepTicks
  generalize seconds * 1000000000 = total
  simp only [bind_eq_ok, uadd_eq_ok]
  -- A sum that saturates overflows in the addition that follows.
  constructor
  · rintro ⟨sum, ⟨hlt, rfl⟩, hticks⟩
    have hsat : min (min total (2 ^ 64 - 1) + nsec) (2 ^ 64 - 1) = total + nsec := by omega
    rw [hsat] at hlt hticks
    exact ⟨hlt, ok.inj hticks⟩
  · rintro ⟨hlt, rfl⟩
    have hsat : min (min total (2 ^ 64 - 1) + nsec) (2 ^ 64 - 1) = total + nsec := by omega
    rw [hsat]
    exact ⟨_, ⟨hlt, rfl⟩, rfl⟩

/-- `sleep_ticks` fails only where there is a process to put to sleep and its wake-up time
overflows. -/
lemma sleepTicks_wakes_iff (k : Kernel) (now ticks : Nat) :
    (∃ k', Kernel.sleepTicks now ticks k = (.ok (), k') ∧
      ∀ s ∈ k'.sched.sleepQueue, s ∈ k.sched.sleepQueue ∨ now ≤ s.wakeTick) ↔
      ∀ pid, k.pm.currentPid = some pid → (k.pm.stateOf pid).isSome → now + ticks < 2 ^ 64 := by
  simp only [Kernel.sleepTicks, Kernel.lockPm_pm]
  cases hcur : k.pm.currentPid with
  | none => exact iff_of_true ⟨_, rfl, fun s hs => .inl hs⟩ (by simp)
  | some pid =>
    by_cases hlive : (k.pm.stateOf pid).isNone
    · simp only [hlive, if_true]
      refine iff_of_true ⟨_, rfl, fun s hs => .inl hs⟩ ?_
      rintro _ ⟨⟩ hsome
      rw [isNone_iff_eq_none.mp hlive] at hsome
      cases hsome
    · simp only [hlive, Bool.false_eq_true, if_false]
      constructor
      · rintro ⟨k', hrun, -⟩ - - -
        by_contra h
        rw [uadd, if_neg h] at hrun
        cases hrun
      · intro h
        rw [uadd_of_lt (h pid rfl (by simpa [isSome_iff_ne_none] using hlive))]
        refine ⟨_, rfl, fun s hs => ?_⟩
        obtain hs | hs := mem_append.mp hs
        · exact .inl hs
        · rw [mem_singleton.mp hs]
          exact .inr (Nat.le_add_right ..)

/-- The sleep is long enough exactly if no sum overflows and the remainder is not lost: the
constant that is added to round up is 1054 too small. -/
theorem sleepsEnough_iff (k : Kernel) (now seconds nsec : Nat) :
    SleepsEnough k now seconds nsec ↔
      seconds * 1000000000 + nsec + 54944000 < 2 ^ 64 ∧
      ((seconds * 1000000000 + nsec) % 54945055 = 0 ∨
        1055 ≤ (seconds * 1000000000 + nsec) % 54945055) ∧
      ∀ pid, k.pm.currentPid = some pid → (k.pm.stateOf pid).isSome →
        now + (seconds * 1000000000 + nsec + 54944000) / 54945055 < 2 ^ 64 := by
  constructor
  · rintro ⟨ticks, hticks, hlong, hwakes⟩
    obtain ⟨hlt, rfl⟩ := nanosleepTicks_eq_ok.mp hticks
    exact ⟨hlt, by omega, (sleepTicks_wakes_iff k now _).mp hwakes⟩
  · rintro ⟨hlt, hlong, hnow⟩
    exact ⟨_, nanosleepTicks_eq_ok.mpr ⟨hlt, rfl⟩, fun _ => by omega,
      (sleepTicks_wakes_iff k now _).mpr hnow⟩

/-- A nanosecond is no tick, and the longest request overflows. -/
theorem nanosecond_not_slept : nanosleepTicks 0 1 = .ok 0 ∧
    ¬ SleepsEnough Kernel.new 0 0 1 ∧ nanosleepTicks (2 ^ 63 - 1) 999999999 = .panic := by
  refine ⟨by decide, ?_, by decide⟩
  rintro ⟨ticks, hticks, hlong, -⟩
  obtain rfl : 0 = ticks := ok.inj hticks
  exact absurd (hlong (by decide)) (by decide)

end RustOs.Proc
