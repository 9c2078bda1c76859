import RustOs.Proc.Consistency
import RustOs.Proc.Locking

/-!
# Whose registers the timer resumes

The timer interrupt with trap frames: `timer_preempt_handler` of `interrupts.rs`, taken
while user code runs, saves the interrupted registers into `current_pid`, lets the
scheduler tick, and returns the frame to go on with. `Machine` is the kernel with the
trap frame of each process and the frame on the processor. A frame carries the process
whose registers it holds, which the code cannot see, and `saved` has the frame with
which each process was last interrupted.

`Sound` says what the processor may be doing in user mode: it runs `current_pid`, that
process is `Running`, and it goes on from where it was interrupted. The handler breaks
this when the tick leaves no process that can be entered: it then returns the frame it
was called with, also if the tick has killed or stopped the process of that frame. So an
interrupt is fine exactly if (`Suits`) no signal kills or stops the process in the middle of
its slice and, at the end of a slice, the process that is next can be entered.
`sound_iff` says this of every run of interrupts.
-/

namespace RustOs.Proc

open Lib Function ProcessManager Option

/-- `TrapFrame`: the code segment, and the other registers. -/
structure TrapFrame where
  cs : Nat
  registers : List Nat
  deriving DecidableEq, Repr

/-- `trap.cs & 3 == 3`. -/
def TrapFrame.fromUser (t : TrapFrame) : Bool := t.cs % 4 == 3

/-- A trap frame, with the process whose registers it holds. -/
structure Frame where
  owner : Pid
  trap : TrapFrame
  deriving DecidableEq, Repr

/-- The kernel, the trap frames of the processes and the processor. -/
structure Machine where
  k : Kernel
  /-- `trap_frame` of the process a pid names. -/
  frames : Pid → Frame
  /-- The frame with which a process was last interrupted, or its first one. -/
  saved : Pid → Frame
  /-- The frame the processor went on with. -/
  cpu : Frame
  /-- `KERNEL_RETURN_FRAME`. -/
  kernelReturn : Frame

/-- A timer interrupt: the time, and the registers it finds. -/
structure Interrupt where
  now : Nat
  trap : TrapFrame
  deriving DecidableEq, Repr

namespace Machine

/-- The frame is copied into the process that is current, if there is one. -/
def saveInto (m : Machine) (frame : Frame) : Pid → Frame :=
  match m.k.pm.currentPid with
  | none => m.frames
  | some pid =>
    if (m.k.pm.getProcess pid).isSome then Function.update m.frames pid frame else m.frames

/-- What the handler returns, called with `frame`. -/
def returned (m : Machine) (frame : Frame) : Kernel.Resume → Frame
  | .interrupted => frame
  | .process pid => m.saveInto frame pid
  | .kernelReturn => m.kernelReturn

/-- A timer interrupt that is taken in user mode, and what is resumed after it. -/
def step (i : Interrupt) (m : Machine) : Option Machine :=
  if m.cpu.trap.fromUser && i.trap.fromUser then
    let frame : Frame := ⟨m.cpu.owner, i.trap⟩
    match Kernel.timerPreemptHandler true i.now m.k with
    | (.ok resume, k) => some
        { m with
          k := k
          frames := m.saveInto frame
          saved := Function.update m.saved frame.owner frame
          cpu := m.returned frame resume }
    | _ => none
  else none

/-- In user mode the processor runs the current process, from where it was. -/
def Sound (m : Machine) : Prop :=
  m.cpu.trap.fromUser = true → ∃ p, m.k.pm.currentPid = some p ∧
    m.k.pm.stateOf p = some .running ∧ m.cpu = m.saved p

/-- The scheduler at the end of a slice, before it looks for the next process. -/
def lineUp (now : Nat) (k : Kernel) : Kernel :=
  let k := (k.saveFrame.chargeRunningVruntime.wakeSleepers now).deliverSignals
  ({ k with sched := { k.sched with quantumCounter := 0 } } : Kernel).preempt

/-- The process that is next in line can be entered. -/
def NextEnterable (k : Kernel) : Prop := ∃ pid ∈ k.nextProcess.1, Kernel.enterable k.pm pid = true

instance (k : Kernel) : Decidable (NextEnterable k) :=
  match h : k.nextProcess.1 with
  | none => isFalse fun ⟨_, hmem, _⟩ => nomatch h.symm.trans hmem
  | some pid =>
    decidable_of_iff (Kernel.enterable k.pm pid = true)
      ⟨fun he => ⟨pid, h, he⟩, fun ⟨_, hmem, he⟩ => Option.some.inj (h.symm.trans hmem) ▸ he⟩

/-- The interrupt leaves the right process on the processor. -/
def Suits (i : Interrupt) (m : Machine) : Prop :=
  if m.k.sched.quantum ≤ m.k.sched.quantumCounter + 1 then NextEnterable (lineUp i.now m.k)
  else ∀ p ∈ m.k.pm.currentPid, m.k.pm.due p .terminate = false ∧ m.k.pm.due p .stop = false

instance (i : Interrupt) (m : Machine) : Decidable (Suits i m) := by
  unfold Suits
  infer_instance

end Machine

/-! ## What a tick leaves alone -/

namespace Kernel

section

variable {k k' : Kernel} {pid q : Pid} {α : Type} {g : Process → α}

/-- What it takes to enter a process. -/
def entry (p : Process) : Bool × Bool := (p.isUser, p.hasTrapFrame)

lemma enterable_congr {pm pm' : ProcessManager}
    (h : (pm'.getProcess pid).map entry = (pm.getProcess pid).map entry) :
    enterable pm' pid = enterable pm pid := by
  have hentry (pm : ProcessManager) : enterable pm pid =
      (((pm.getProcess pid).map entry).map fun e => e.1 && e.2).getD false := by
    unfold enterable
    rw [map_map]
    rfl
  rw [hentry, hentry, h]

/-- Saving the trap frame touches nothing else. -/
lemma saveFrame_frame (hg : ∀ p v, g { p with hasTrapFrame := v } = g p) :
    k.saveFrame.sched = k.sched ∧ k.saveFrame.pm.currentPid = k.pm.currentPid ∧
      (k.saveFrame.pm.getProcess q).map g = (k.pm.getProcess q).map g := by
  unfold saveFrame
  simp only [lockPm_pm]
  cases hcur : k.pm.currentPid with
  | none => exact ⟨rfl, hcur, rfl⟩
  | some pid => exact ⟨rfl, hcur, getProcess_update_map (fun _ => rfl) fun p => hg p _⟩

/-- The current process gets its frame. -/
lemma saveFrame_entry (hcur : k.pm.currentPid = some pid)
    (huser : (k.pm.getProcess pid).map (·.isUser) = some true) :
    (k.saveFrame.pm.getProcess pid).map entry = some (true, true) := by
  obtain ⟨p, hp, hpuser⟩ := map_eq_some_iff.mp huser
  unfold saveFrame
  simp only [lockPm_pm, hcur]
  show ((k.pm.update pid fun p => { p with hasTrapFrame := true }).getProcess pid).map entry = _
  rw [getProcess_update (f := fun p => { p with hasTrapFrame := true }) fun _ => rfl,
    if_pos rfl, hp]
  show some (p.isUser, true) = some (true, true)
  rw [hpuser]

/-- A process that runs is not woken. -/
lemma wakeLoop_running (now fuel : Nat) : ∀ (k : Kernel) (i : Nat),
    k.pm.stateOf q = some .running → (wakeLoop now fuel i k).pm.stateOf q = some .running := by
  induction fuel with
  | zero => exact fun k i h => h
  | succ fuel ih =>
    intro k i h
    unfold wakeLoop
    split
    next => exact h
    next entry _ =>
      split
      next =>
        refine ih _ i ?_
        show ((k.takeSleeper i).lockPm.wake entry.pid).pm.stateOf q = _
        rw [wake_stateOf, if_neg]
        · exact h
        · intro ⟨heq, hblocked⟩
          rw [← heq] at hblocked
          exact nomatch h.symm.trans hblocked
      next => exact ih k (i + 1) h

/-- Preemption changes the state and the virtual runtime only. -/
lemma preempt_frame (hstate : ∀ p v, g { p with state := v } = g p)
    (hv : ∀ p v, g { p with vruntime := v } = g p) :
    (k.preempt.pm.getProcess q).map g = (k.pm.getProcess q).map g := by
  unfold preempt
  simp only [lockPm_pm]
  split
  next => rfl
  next pid hcur =>
    show ((if k.pm.stateOf pid = some ProcessState.running then
      ((k.lockPm.setPm (k.pm.setState pid .ready)).enqueue pid)
      else k.lockPm).pm.getProcess q).map g = _
    split
    next =>
      refine (enqueue_getProcess g hv).trans ?_
      exact getProcess_update_map (fun _ => rfl) fun p => hstate p _
    next => rfl

/-- The end of a slice: whoever is next runs, and becomes the current process. -/
lemma scheduleUser_cases (k : Kernel) :
    (k.nextProcess.1 = none ∧ k.scheduleUser.pm = k.pm) ∨
    ∃ pid, k.nextProcess.1 = some pid ∧
      k.scheduleUser.pm = { k.pm.setState pid .running with currentPid := some pid } := by
  unfold scheduleUser
  by_cases hq : k.sched.readyQueue = []
  · rw [nextProcess_nil hq]
    exact .inl ⟨rfl, rfl⟩
  · obtain ⟨pid, A, B, v, -, heq⟩ := nextProcess_spec hq
    rw [heq]
    exact .inr ⟨pid, rfl, rfl⟩

/-- What the handler goes on with, by the process table after the tick. -/
def resumeAt (pm : ProcessManager) : Resume :=
  match pm.currentPid with
  | none => .interrupted
  | some pid => if enterable pm pid then .process pid else .interrupted

/-- The handler in user mode: it saves the frame, ticks, and looks who is current. -/
lemma timerInUser_ok {now : Nat} {resume : Resume} (h : timerInUser now k = (.ok resume, k')) :
    ∃ k₁,
      countTick.after (k.saveFrame.chargeRunningVruntime.wakeSleepers now).deliverSignals
        = some k₁ ∧
      k'.pm = k₁.pm ∧ resume = resumeAt k₁.pm := by
  unfold timerInUser at h
  rcases hr : tick now k.saveFrame with ⟨r, k₁⟩
  rw [hr] at h
  cases r with
  | ok u =>
    refine ⟨k₁, ?_, ?_⟩
    · have htick : countTick (k.saveFrame.chargeRunningVruntime.wakeSleepers now).deliverSignals =
          (.ok u, k₁) := hr
      unfold Prog.after
      rw [htick]
      exact if_pos trivial
    · unfold resumeAt
      dsimp only [lockPm_pm] at h
      cases hcur : k₁.pm.currentPid with
      | none =>
        rw [hcur] at h
        cases h
        exact ⟨rfl, rfl⟩
      | some pid =>
        rw [hcur] at h
        have h : (if enterable k₁.pm pid = true then
            ((.ok (.process pid) : Outcome String Resume), k₁.lockPm.unlockPm)
          else (.ok .interrupted, k₁.lockPm.unlockPm)) = (.ok resume, k') := h
        dsimp only
        by_cases hent : enterable k₁.pm pid = true
        · rw [if_pos hent] at h ⊢
          cases h
          exact ⟨rfl, rfl⟩
        · rw [if_neg hent] at h ⊢
          cases h
          exact ⟨rfl, rfl⟩
  | _ => cases h

end

end Kernel

/-! ## Runs of interrupts -/

namespace Machine

open Kernel

/-- What the frames have to do with the processes, as long as the processor is sound. -/
structure Tidy (m : Machine) : Prop where
  /-- What is saved for a process is its own. -/
  own : ∀ q, (m.saved q).owner = q
  /-- The kernel has saved what is to be saved. -/
  kept : ∀ q, (m.k.pm.getProcess q).isSome → m.frames q = m.saved q
  /-- Who is current in user mode is a user process. -/
  user : ∀ p, m.cpu.trap.fromUser = true → m.k.pm.currentPid = some p →
    (m.k.pm.getProcess p).map (·.isUser) = some true

section Step

variable {m : Machine} {i : Interrupt} {p : Pid} {k₁ : Kernel} {pm : ProcessManager} {q : Pid}

/-- The kernel after the signals have been delivered, in a tick of the current process. -/
structure Delivery (k k₂ : Kernel) (p : Pid) : Prop where
  quantum : k₂.sched.quantum = k.sched.quantum
  counter : k₂.sched.quantumCounter = k.sched.quantumCounter
  current : k₂.pm.currentPid = if k.pm.due p .terminate then none else some p
  state : k₂.pm.stateOf p = some
    (if k.pm.due p .terminate then .terminated else if k.pm.due p .stop then .blocked else .running)
  entry : ∀ q, (k₂.pm.getProcess q).map Kernel.entry =
    (k.saveFrame.pm.getProcess q).map Kernel.entry

/-- What waking and signals leave of the current process. -/
lemma delivery (k : Kernel) (now : Nat) (hcur : k.pm.currentPid = some p)
    (hrun : k.pm.stateOf p = some .running) :
    Delivery k (k.saveFrame.chargeRunningVruntime.wakeSleepers now).deliverSignals p := by
  have hsave (q : Pid) := saveFrame_frame (k := k) (q := q) (g := signalsOf) fun _ _ => rfl
  obtain ⟨hsched, hscur, -⟩ := hsave 0
  obtain ⟨hwcur, hquantum, hcounter, hdue⟩ := wakeSleepers_charge k.saveFrame now
  have hcur₁ : (k.saveFrame.chargeRunningVruntime.wakeSleepers now).pm.currentPid = some p :=
    hwcur.trans (hscur.trans hcur)
  have hdue₁ (action : Signal.DefaultAction) :
      (k.saveFrame.chargeRunningVruntime.wakeSleepers now).pm.due p action = k.pm.due p action :=
    (hdue p action).trans (due_congr (hsave p).2.2 action)
  have hrun₁ : (k.saveFrame.chargeRunningVruntime.wakeSleepers now).pm.stateOf p =
    some .running := by
    refine wakeLoop_running now _ _ 0 ?_
    refine chargeRunningVruntime_stateOf.trans ?_
    exact (saveFrame_frame (g := (·.state)) fun _ _ => rfl).2.2.trans hrun
  refine ⟨?_, ?_, ?_, ?_, fun q => ?_⟩
  · rw [deliverSignals_sched]
    exact hquantum.trans (congrArg Scheduler.quantum hsched)
  · rw [deliverSignals_sched]
    exact hcounter.trans (congrArg Scheduler.quantumCounter hsched)
  · rw [deliverSignals_currentPid, doomed, hcur₁]
    show (if due _ p .terminate then none else some p) = _
    rw [hdue₁]
  · rw [deliverSignals_stateOf hcur₁, if_pos rfl, hrun₁, map_some, stateAfter_running, hdue₁, hdue₁]
  · refine (deliverSignals_map (fun _ _ => rfl) (fun _ _ => rfl) fun _ _ _ => rfl).trans ?_
    refine (wakeLoop_frame (fun _ _ => rfl) (fun _ _ => rfl) now _ 0).2.2.2.trans ?_
    exact chargeRunningVruntime_getProcess fun _ _ => rfl

/-- The process that is resumed is current and can be entered. -/
structure Enters (pm : ProcessManager) (q : Pid) : Prop where
  current : pm.currentPid = some q
  enterable : Kernel.enterable pm q = true

lemma resumeAt_of_enters (h : Enters pm q) :
    resumeAt pm = .process q := by
  unfold resumeAt
  rw [h.current]
  exact if_pos h.enterable

lemma enters_of_resumeAt (h : resumeAt pm = .process q) :
    Enters pm q := by
  unfold resumeAt at h
  cases hcur : pm.currentPid with
  | none =>
    rw [hcur] at h
    cases h
  | some pid =>
    rw [hcur] at h
    dsimp only at h
    split at h
    next hent =>
      cases h
      exact ⟨hcur, hent⟩
    next => cases h

lemma isUser_of_enterable (h : enterable pm q = true) :
    (pm.getProcess q).map (·.isUser) = some true := by
  unfold enterable at h
  cases hp : pm.getProcess q with
  | none =>
    rw [hp] at h
    cases h
  | some p =>
    rw [hp] at h
    exact congrArg some (Bool.and_eq_true_iff.mp h).1

/-- Who can be entered after a slice could be entered before it was scheduled. -/
lemma scheduleUser_entry {k : Kernel} :
    (k.scheduleUser.pm.getProcess q).map entry = (k.pm.getProcess q).map entry := by
  rcases scheduleUser_cases k with ⟨_, hpm⟩ | ⟨pid, _, hpm⟩
  · rw [hpm]
  · rw [hpm]
    exact getProcess_update_map (fun _ => rfl) fun _ => rfl

section Tick

variable (hcur : m.k.pm.currentPid = some p) (hrun : m.k.pm.stateOf p = some .running)
  (hk₁ : countTick.after
    (m.k.saveFrame.chargeRunningVruntime.wakeSleepers i.now).deliverSignals = some k₁)

include hcur hrun hk₁

/-- The kernel after the tick: the slice goes on, or the next one begins. -/
lemma after_tick :
    (m.k.sched.quantum ≤ m.k.sched.quantumCounter + 1 ∧ k₁ = (lineUp i.now m.k).scheduleUser) ∨
    (¬ m.k.sched.quantum ≤ m.k.sched.quantumCounter + 1 ∧
      k₁.pm = (m.k.saveFrame.chargeRunningVruntime.wakeSleepers i.now).deliverSignals.pm) := by
  have hd := delivery m.k i.now hcur hrun
  have heq := countTick_after hk₁
  rw [hd.quantum, hd.counter] at heq
  by_cases hover : m.k.sched.quantum ≤ m.k.sched.quantumCounter + 1
  · rw [if_pos hover] at heq
    exact .inl ⟨hover, heq⟩
  · rw [if_neg hover] at heq
    refine .inr ⟨hover, ?_⟩
    rw [heq]

/-- The tick does not decide who can be entered. -/
lemma after_tick_entry (q : Pid) :
    (k₁.pm.getProcess q).map entry = (m.k.saveFrame.pm.getProcess q).map entry := by
  have hd := delivery m.k i.now hcur hrun
  rcases after_tick hcur hrun hk₁ with ⟨_, heq⟩ | ⟨_, hpm⟩
  · rw [heq]
    refine scheduleUser_entry.trans ?_
    exact (preempt_frame (fun _ _ => rfl) fun _ _ => rfl).trans (hd.entry q)
  · rw [hpm]
    exact hd.entry q

/-- The interrupted process has its frame, and could be entered again. -/
lemma interrupted_enterable (huser : (m.k.pm.getProcess p).map (·.isUser) = some true) :
    enterable k₁.pm p = true := by
  have hentry := (after_tick_entry hcur hrun hk₁ p).trans (saveFrame_entry hcur huser)
  obtain ⟨x, hx, hxe⟩ := map_eq_some_iff.mp hentry
  unfold enterable
  rw [hx]
  obtain ⟨h1, h2⟩ := Prod.mk.inj hxe
  exact Bool.and_eq_true_iff.mpr ⟨h1, h2⟩

/-- At the end of a slice the process that is entered runs. -/
lemma running_of_enters (hover : m.k.sched.quantum ≤ m.k.sched.quantumCounter + 1)
    (hq : Enters k₁.pm q) :
    (lineUp i.now m.k).nextProcess.1 = some q ∧ k₁.pm.stateOf q = some .running := by
  rcases after_tick hcur hrun hk₁ with ⟨_, rfl⟩ | ⟨hnot, _⟩
  · rcases scheduleUser_cases (lineUp i.now m.k) with ⟨_, hpm⟩ | ⟨pid, hnext, hpm⟩
    · have hnone : (lineUp i.now m.k).pm.currentPid = none := preempt_currentPid
      have hsome := hq.current
      rw [hpm, hnone] at hsome
      cases hsome
    · have hpid : some pid = some q := by
        have hsome := hq.current
        rw [hpm] at hsome
        exact hsome
      cases hpid
      refine ⟨hnext, ?_⟩
      -- a process that can be entered is in the table, so it has been put to run
      have hent : enterable (lineUp i.now m.k).pm q = true :=
        (enterable_congr scheduleUser_entry).symm.trans hq.enterable
      obtain ⟨x, hx, -⟩ := map_eq_some_iff.mp (isUser_of_enterable hent)
      have hsome : ((lineUp i.now m.k).pm.stateOf q).isSome := by
        unfold stateOf
        rw [hx]
        rfl
      rw [hpm]
      show ((lineUp i.now m.k).pm.setState q .running).stateOf q = some .running
      rw [stateOf_setState, if_pos ⟨rfl, hsome⟩]
  · exact absurd hover hnot

/-- In the middle of a slice nobody but the interrupted process is entered, and it is
entered and runs exactly if no signal ends or stops it. -/
lemma enters_in_slice (hin : ¬ m.k.sched.quantum ≤ m.k.sched.quantumCounter + 1)
    (huser : (m.k.pm.getProcess p).map (·.isUser) = some true) :
    (∀ q, Enters k₁.pm q → q = p) ∧
    ((Enters k₁.pm p ∧ k₁.pm.stateOf p = some .running) ↔
      m.k.pm.due p .terminate = false ∧ m.k.pm.due p .stop = false) := by
  have hent := interrupted_enterable hcur hrun hk₁ huser
  rcases after_tick hcur hrun hk₁ with ⟨hover, _⟩ | ⟨_, hpm⟩
  · exact absurd hover hin
  · have hd := delivery m.k i.now hcur hrun
    have hcur₁ := hd.current
    have hstate := hd.state
    rw [← hpm] at hcur₁ hstate
    cases hterm : m.k.pm.due p .terminate with
    | true =>
      rw [hterm] at hcur₁
      have hno (q : Pid) : ¬ Enters k₁.pm q := fun hq => nomatch hcur₁.symm.trans hq.current
      exact ⟨fun q hq => absurd hq (hno q), iff_of_false (fun h => hno p h.1) fun h => nomatch h.1⟩
    | false =>
      rw [hterm] at hcur₁ hstate
      refine ⟨fun q hq => (some.inj (hcur₁.symm.trans hq.current)).symm, ?_⟩
      cases hstop : m.k.pm.due p .stop with
      | true =>
        rw [hstop] at hstate
        exact iff_of_false (fun h => nomatch hstate.symm.trans h.2) fun h => nomatch h.2
      | false =>
        rw [hstop] at hstate
        exact iff_of_true ⟨⟨hcur₁, hent⟩, hstate⟩ ⟨rfl, rfl⟩

/-- The tick leaves a process that is entered and runs, exactly if the interrupt suits. -/
lemma enters_iff_suits (huser : (m.k.pm.getProcess p).map (·.isUser) = some true) :
    (∃ q, Enters k₁.pm q ∧ k₁.pm.stateOf q = some .running) ↔ Suits i m := by
  unfold Suits
  by_cases hover : m.k.sched.quantum ≤ m.k.sched.quantumCounter + 1
  · rw [if_pos hover]
    constructor
    · intro ⟨q, hq, _⟩
      refine ⟨q, (running_of_enters hcur hrun hk₁ hover hq).1, ?_⟩
      rcases after_tick hcur hrun hk₁ with ⟨_, rfl⟩ | ⟨hnot, _⟩
      · exact (enterable_congr scheduleUser_entry).symm.trans hq.enterable
      · exact absurd hover hnot
    · intro ⟨q, hnext, hent⟩
      have hq : Enters k₁.pm q := by
        rcases after_tick hcur hrun hk₁ with ⟨_, rfl⟩ | ⟨hnot, _⟩
        · refine ⟨?_, (enterable_congr scheduleUser_entry).trans hent⟩
          rcases scheduleUser_cases (lineUp i.now m.k) with ⟨hnone, _⟩ | ⟨pid, hpid, hpm⟩
          · exact nomatch hnone.symm.trans hnext
          · rw [hpm]
            exact hpid.symm.trans hnext
        · exact absurd hover hnot
      exact ⟨q, hq, (running_of_enters hcur hrun hk₁ hover hq).2⟩
  · rw [if_neg hover, hcur]
    obtain ⟨hself, hiff⟩ := enters_in_slice hcur hrun hk₁ hover huser
    constructor
    · intro ⟨q, hq, hqrun⟩ p' hp'
      cases hp'
      cases hself q hq
      exact hiff.mp ⟨hq, hqrun⟩
    · intro h
      exact ⟨p, hiff.mpr (h p rfl)⟩

end Tick

/-- A sound interrupt in user mode: the process it interrupts is the current one. -/
lemma step_cases {m' : Machine} (h : step i m = some m') :
    m.cpu.trap.fromUser = true ∧ i.trap.fromUser = true ∧ ∃ k₁ k',
      countTick.after
        (m.k.saveFrame.chargeRunningVruntime.wakeSleepers i.now).deliverSignals = some k₁ ∧
      k'.pm = k₁.pm ∧ m' = { m with
        k := k'
        frames := m.saveInto ⟨m.cpu.owner, i.trap⟩
        saved := update m.saved m.cpu.owner ⟨m.cpu.owner, i.trap⟩
        cpu := m.returned ⟨m.cpu.owner, i.trap⟩ (resumeAt k₁.pm) } := by
  unfold step at h
  split at h
  next hmode =>
    obtain ⟨hcpu, htrap⟩ := Bool.and_eq_true_iff.mp hmode
    refine ⟨hcpu, htrap, ?_⟩
    rcases hr : timerPreemptHandler true i.now m.k with ⟨r, k'⟩
    rw [hr] at h
    cases r with
    | ok resume =>
      obtain ⟨k₁, hk₁, hpm, rfl⟩ := timerInUser_ok hr
      exact ⟨k₁, k', hk₁, hpm, (some.inj h).symm⟩
    | _ => cases h
  next => cases h

/-- A sound machine in user mode runs its current process, and that process is the owner
of the frame. -/
lemma Sound.running (hs : Sound m) (hw : Tidy m) (huser : m.cpu.trap.fromUser = true) :
    m.k.pm.currentPid = some m.cpu.owner ∧ m.k.pm.stateOf m.cpu.owner = some .running ∧
      (m.k.pm.getProcess m.cpu.owner).map (·.isUser) = some true := by
  obtain ⟨p, hcur, hrun, hcpu⟩ := hs huser
  have howner : m.cpu.owner = p := by
    rw [hcpu]
    exact hw.own p
  rw [howner]
  exact ⟨hcur, hrun, hw.user p huser hcur⟩

lemma isSome_of_isUser
    (h : (pm.getProcess q).map (·.isUser) = some true) : (pm.getProcess q).isSome := by
  obtain ⟨x, hx, -⟩ := map_eq_some_iff.mp h
  exact isSome_iff_exists.mpr ⟨x, hx⟩

/-- The interrupted registers go to their owner, in the kernel and in fact. -/
lemma saved_after (hw : Tidy m) (hcur : m.k.pm.currentPid = some p)
    (huser : (m.k.pm.getProcess p).map (·.isUser) = some true) (t : TrapFrame) :
    (∀ q, (update m.saved p ⟨p, t⟩ q).owner = q) ∧
    ∀ q, (m.k.pm.getProcess q).isSome → m.saveInto ⟨p, t⟩ q = update m.saved p ⟨p, t⟩ q := by
  have hinto : m.saveInto ⟨p, t⟩ = update m.frames p ⟨p, t⟩ := by
    unfold saveInto
    rw [hcur]
    exact if_pos (isSome_of_isUser huser)
  constructor
  · intro q
    by_cases hq : q = p
    · rw [hq, update_self]
    · rw [update_of_ne hq]
      exact hw.own q
  · intro q hsome
    rw [hinto]
    by_cases hq : q = p
    · rw [hq, update_self, update_self]
    · rw [update_of_ne hq, update_of_ne hq]
      exact hw.kept q hsome

/-- One interrupt: the machine stays tidy while it is sound, and is sound exactly if the
interrupt suits. -/
lemma step_spec {m' : Machine} (hw : Tidy m) (hs : Sound m) (h : step i m = some m') :
    (Sound m' → Tidy m') ∧ (Sound m' ↔ Suits i m) := by
  obtain ⟨hmode, htrap, k₁, k', hk₁, hpm, rfl⟩ := step_cases h
  obtain ⟨hcur, hrun, huser⟩ := hs.running hw hmode
  obtain ⟨hown, hkept⟩ := saved_after hw hcur huser i.trap
  have htable (q : Pid) : (k₁.pm.getProcess q).isSome = (m.k.pm.getProcess q).isSome := by
    have hentry := congrArg isSome (after_tick_entry hcur hrun hk₁ q)
    rw [isSome_map, isSome_map] at hentry
    have hsave := congrArg isSome
      (saveFrame_frame (k := m.k) (q := q) (g := Process.pid) fun _ _ => rfl).2.2
    rw [isSome_map, isSome_map] at hsave
    exact hentry.trans hsave
  have hent := interrupted_enterable hcur hrun hk₁ huser
  have hiff := enters_iff_suits hcur hrun hk₁ huser
  -- the frame that is resumed, when a process is entered
  have hresumed {q : Pid} (hq : Enters k₁.pm q) :
      m.returned ⟨m.cpu.owner, i.trap⟩ (resumeAt k₁.pm) =
        update m.saved m.cpu.owner ⟨m.cpu.owner, i.trap⟩ q := by
    rw [resumeAt_of_enters hq]
    refine hkept q ?_
    rw [← htable]
    exact isSome_of_isUser (isUser_of_enterable hq.enterable)
  have hsound : Sound { m with
      k := k'
      frames := m.saveInto ⟨m.cpu.owner, i.trap⟩
      saved := update m.saved m.cpu.owner ⟨m.cpu.owner, i.trap⟩
      cpu := m.returned ⟨m.cpu.owner, i.trap⟩ (resumeAt k₁.pm) } ↔
      ∃ q, Enters k₁.pm q ∧ k₁.pm.stateOf q = some .running := by
    unfold Sound
    dsimp only
    rw [hpm]
    constructor
    · intro hsound
      cases hres : resumeAt k₁.pm with
      | process q =>
        have hq := enters_of_resumeAt hres
        refine ⟨q, hq, ?_⟩
        by_cases hover : m.k.sched.quantum ≤ m.k.sched.quantumCounter + 1
        · exact (running_of_enters hcur hrun hk₁ hover hq).2
        · -- in its slice the process goes on from the frame of the interrupt
          cases (enters_in_slice hcur hrun hk₁ hover huser).1 q hq
          rw [hresumed hq, update_self] at hsound
          obtain ⟨p, hp, hprun, _⟩ := hsound htrap
          cases hq.current.symm.trans hp
          exact hprun
      | interrupted =>
        rw [hres] at hsound
        obtain ⟨p, hp, _, hcpu⟩ := hsound htrap
        have howner : m.cpu.owner = p := (congrArg Frame.owner hcpu).trans (hown p)
        cases howner
        rw [resumeAt_of_enters ⟨hp, hent⟩] at hres
        cases hres
      | kernelReturn =>
        unfold resumeAt at hres
        split at hres
        next => cases hres
        next => split at hres <;> exact nomatch hres
    · intro ⟨q, hq, hqrun⟩ _
      exact ⟨q, hq.current, hqrun, hresumed hq⟩
  refine ⟨fun hs' => ?_, hsound.trans hiff⟩
  obtain ⟨q, hq, _⟩ := hsound.mp hs'
  refine ⟨hown, fun r hr => ?_, fun r _ hr => ?_⟩
  · refine hkept r ?_
    rw [← htable, ← hpm]
    exact hr
  · have hr : k'.pm.currentPid = some r := hr
    rw [hpm] at hr
    cases hq.current.symm.trans hr
    rw [hpm]
    exact isUser_of_enterable hq.enterable

end Step

/-- The processor runs the user code of `p`, with the frames the processes have. -/
def start (k : Kernel) (traps : Pid → TrapFrame) (kernelReturn : Frame) (p : Pid) : Machine where
  k := k
  frames q := ⟨q, traps q⟩
  saved q := ⟨q, traps q⟩
  cpu := ⟨p, traps p⟩
  kernelReturn := kernelReturn

/-- Every run of interrupts, from any process table and any queues: the processor runs
what `current_pid` names throughout exactly if every interrupt suits. -/
theorem sound_iff (k : Kernel) (traps : Pid → TrapFrame) (kernelReturn : Frame) (p : Pid)
    (hcur : k.pm.currentPid = some p) (hrun : k.pm.stateOf p = some .running)
    (huser : (k.pm.getProcess p).map (·.isUser) = some true) (is : List Interrupt) :
    Always step Sound is (start k traps kernelReturn p) ↔
      Along step Suits is (start k traps kernelReturn p) := by
  have hw : Tidy (start k traps kernelReturn p) := by
    refine ⟨fun q => rfl, fun q _ => rfl, fun q _ hq => ?_⟩
    cases hcur.symm.trans hq
    exact huser
  have hs : Sound (start k traps kernelReturn p) := fun _ => ⟨p, hcur, hrun, rfl⟩
  refine always_iff_along_while (W := Tidy) ?_ ?_ is hw hs
  · exact fun i m m' hw hs h hs' => (step_spec hw hs h).1 hs'
  · exact fun i m m' hw hs h => (step_spec hw hs h).2

/-- A user process that runs alone, with the signals it has been sent. -/
def aloneWith (pendingSignals : BitVec 64) : Kernel :=
  { Kernel.new with
    pm := ⟨[{ Process.newUser 1 none 0 with state := .running, pendingSignals }], some 1, 2⟩
    sched := { Scheduler.new with quantumCounter := 14 } }

/-- User code at some address. -/
def userTrap (rip : Nat) : TrapFrame := ⟨0x33, [rip]⟩

/-- Two interrupts of a process without signals, the second at the end of its slice. -/
theorem alone_sound : Always step Sound [⟨1, userTrap 4⟩, ⟨2, userTrap 8⟩]
    (start (aloneWith 0) userTrap ⟨0, ⟨8, []⟩⟩ 1) :=
  (sound_iff (aloneWith 0) userTrap ⟨0, ⟨8, []⟩⟩ 1 rfl rfl rfl _).mpr (by decide +kernel)

/-- The machine after an interrupt that finds SIGTERM pending. -/
def terminated : Machine :=
  (trace step [⟨1, userTrap 4⟩] (start (aloneWith (Signal.bit 15)) userTrap ⟨0, ⟨8, []⟩⟩ 1)).get rfl

/-- The process has been killed, nobody is current, and its code goes on in user mode. -/
theorem terminated_goes_on :
    trace step [⟨1, userTrap 4⟩]
        (start (aloneWith (Signal.bit 15)) userTrap ⟨0, ⟨8, []⟩⟩ 1) = some terminated ∧
      terminated.k.pm.stateOf 1 = some .terminated ∧ terminated.k.pm.currentPid = none ∧
      terminated.cpu = ⟨1, userTrap 4⟩ ∧ ¬ Sound terminated := by
  have hnone : terminated.k.pm.currentPid = none := by decide +kernel
  have hcpu : terminated.cpu = ⟨1, userTrap 4⟩ := by decide +kernel
  refine ⟨(some_get _).symm, by decide +kernel, hnone, hcpu, fun hs => ?_⟩
  obtain ⟨p, hp, -⟩ := hs (by rw [hcpu]; rfl)
  exact nomatch hnone.symm.trans hp

end Machine

end RustOs.Proc
