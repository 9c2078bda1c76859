import RustOs.Lib.Outcome
import RustOs.Lib.FirstMatch

/-!
# The process table

The process manager of `process/mod.rs`: a list of processes searched by pid
from the front, the pid that is current, and the next pid to hand out.
Everything else in the kernel changes processes through `get_process_mut`, which
is `update` here: the first process of a pid is changed in place.

Of a process the model has what the scheduler and the manager read: the state,
the parent, signals, the nice value and the virtual runtime, whether there is a
user trap frame, and the slot of the kernel stack. A slot is handed out by the
stack pool, whose answer is a parameter of the calls that ask for one; a slot
that has been freed is `none`.

What later modules need of the table is one function, `stateOf`: the state a pid
is in, if it names a process. The lemmas at the end say what each call does to
it.
-/

namespace RustOs.Proc

open Lib List

/-- Process ids. -/
abbrev Pid := Nat

/-- `ProcessState`. -/
inductive ProcessState where
  | ready
  | running
  | blocked
  /-- Waiting for a child. -/
  | waiting
  /-- Exited, and not yet collected by its parent. -/
  | zombie
  | terminated
  deriving DecidableEq, Repr

/-- A process in this state can still run. -/
def ProcessState.live : ProcessState → Bool
  | .terminated | .zombie => false
  | _ => true

/-- There is such a process, and it can still run. -/
def liveState (s : Option ProcessState) : Bool := (s.map ProcessState.live).getD false

/-- The process control block. -/
structure Process where
  pid : Pid
  parentPid : Option Pid
  state : ProcessState
  exitCode : Option Int
  nice : Int
  pendingSignals : BitVec 64
  signalBlocked : BitVec 64
  hasTrapFrame : Bool
  isUser : Bool
  kernelStackSlot : Option Nat
  vruntime : Nat
  deriving DecidableEq, Repr

namespace Process

/-- `Process::new`: a kernel process. -/
def new (pid : Pid) : Process where
  pid := pid
  parentPid := none
  state := .ready
  exitCode := none
  nice := 0
  pendingSignals := 0
  signalBlocked := 0
  hasTrapFrame := false
  isUser := false
  kernelStackSlot := none
  vruntime := 0

/-- `Process::new_user`, on a kernel stack that has been allocated. -/
def newUser (pid : Pid) (parentPid : Option Pid) (kernelStackSlot : Nat) : Process where
  pid := pid
  parentPid := parentPid
  state := .ready
  exitCode := none
  nice := 0
  pendingSignals := 0
  signalBlocked := 0
  hasTrapFrame := true
  isUser := true
  kernelStackSlot := some kernelStackSlot
  vruntime := 0

/-- `Process::clone`. A user process whose kernel stack cannot be allocated is
made without one. -/
def clone (p : Process) (newPid : Pid) (stack : Option Nat) : Process :=
  { p with
    pid := newPid
    parentPid := some p.pid
    state := .ready
    exitCode := none
    pendingSignals := 0
    kernelStackSlot := if p.isUser then stack else none }

/-- A process that ends: its state says how, and its kernel stack is freed. -/
def die (p : Process) (state : ProcessState) (exitCode : Option Int) : Process :=
  { p with state := state, exitCode := exitCode, kernelStackSlot := none }

end Process

/-! ## Signals -/

namespace Signal

def sigkill : Nat := 9
def sigchld : Nat := 17
def sigcont : Nat := 18
def sigstop : Nat := 19
def sigtstp : Nat := 20

/-- `is_valid`. -/
def isValid (sig : Nat) : Bool := decide (1 ≤ sig) && decide (sig ≤ 31)

/-- `DefaultAction`. -/
inductive DefaultAction where
  | terminate
  | ignore
  | stop
  | continue
  deriving DecidableEq, Repr

/-- `default_action`. -/
def defaultAction (sig : Nat) : DefaultAction :=
  if sig = sigchld then .ignore
  else if sig = sigcont then .continue
  else if sig = sigstop ∨ sig = sigtstp then .stop
  else .terminate

/-- The bit of a signal in a signal mask. -/
def bit (sig : Nat) : BitVec 64 := 1#64 <<< sig

end Signal

open Signal

/-! ## The manager -/

/-- `ProcessManager`. -/
structure ProcessManager where
  processes : List Process
  currentPid : Option Pid
  nextPid : Pid
  deriving DecidableEq, Repr

namespace ProcessManager

/-- `ProcessManager::new`: pid 0 is never handed out. -/
def new : ProcessManager := ⟨[], none, 1⟩

variable (pm : ProcessManager)

/-- `get_process`. -/
def getProcess (pid : Pid) : Option Process :=
  pm.processes.find? fun p => p.pid == pid

/-- What is done with `get_process_mut`: change the process, if there is one. -/
def update (pid : Pid) (f : Process → Process) : ProcessManager :=
  { pm with processes := updateFirst (fun p => p.pid == pid) f pm.processes }

/-- Put a process into a state. -/
def setState (pid : Pid) (state : ProcessState) : ProcessManager :=
  pm.update pid fun p => { p with state := state }

/-- `if self.current_pid == Some(pid) { self.current_pid = None; }` -/
def leave (pid : Pid) : ProcessManager :=
  if pm.currentPid = some pid then { pm with currentPid := none } else pm

/-- `insert_process`. -/
def insertProcess (p : Process) : ProcessManager :=
  { pm with processes := pm.processes ++ [p] }

/-- Hand out the next pid. -/
def takePid : Prog ProcessManager String Pid := fun pm =>
  match (Outcome.uadd 64 pm.nextPid 1 : Outcome String Nat) with
  | .ok next => (.ok pm.nextPid, { pm with nextPid := next })
  | _ => (.panic, pm)

/-- `create_process`. -/
def createProcess : Prog ProcessManager String Pid := do
  let pid ← takePid
  let pm ← Prog.get
  Prog.set (pm.insertProcess (Process.new pid))
  return pid

/-- `terminate`. -/
def terminate (pm : ProcessManager) (pid : Pid) : ProcessManager :=
  (pm.update pid fun p => p.die .terminated p.exitCode).leave pid

/-- `send_signal`. Only `SIGKILL` and `SIGSTOP` act at once. -/
def sendSignal (pid : Pid) (sig : Nat) : Prog ProcessManager String Unit := fun pm =>
  if !isValid sig then (.err "invalid signal number", pm)
  else
    match pm.getProcess pid with
    | none => (.err "process not found", pm)
    | some p =>
      if p.state = .terminated then (.err "process already terminated", pm)
      else if sig = sigkill then
        (.ok (), (pm.update pid fun p => p.die .terminated (some (128 + sig))).leave pid)
      else if sig = sigstop then (.ok (), pm.setState pid .blocked)
      else
        (.ok (), pm.update pid fun p => { p with pendingSignals := p.pendingSignals ||| bit sig })

/-- The loop of `deliver_pending_signals` over the signals that are left. It ends
early, with `true`, at the first that terminates the process. -/
def deliverLoop (pid : Pid) (deliverable : BitVec 64) :
    List Nat → ProcessManager → Bool × ProcessManager
  | [], pm => (false, pm)
  | sig :: sigs, pm =>
    if deliverable &&& bit sig = 0 then deliverLoop pid deliverable sigs pm
    else
      let pm := pm.update pid fun p => { p with pendingSignals := p.pendingSignals &&& ~~~bit sig }
      match defaultAction sig with
      | .terminate =>
        (true, (pm.update pid fun p => p.die .terminated (some (128 + sig))).leave pid)
      | .stop => deliverLoop pid deliverable sigs (pm.setState pid .blocked)
      | .continue =>
        deliverLoop pid deliverable sigs
          (pm.update pid fun p => if p.state = .blocked then { p with state := .ready } else p)
      | .ignore => deliverLoop pid deliverable sigs pm

/-- The signals `1..=31`. -/
def signals : List Nat := (List.range 31).map (· + 1)

/-- `deliver_pending_signals`. -/
def deliverPendingSignals (pid : Pid) (pm : ProcessManager) : Bool × ProcessManager :=
  match pm.getProcess pid with
  | none => (false, pm)
  | some p =>
    if p.pendingSignals &&& ~~~p.signalBlocked = 0 then (false, pm)
    else deliverLoop pid (p.pendingSignals &&& ~~~p.signalBlocked) signals pm

/-- `fork`. The pid is taken before the parent is looked up. -/
def fork (parentPid : Pid) (stack : Option Nat) : Prog ProcessManager String Pid := do
  let childPid ← takePid
  let pm ← Prog.get
  match pm.getProcess parentPid with
  | none => Prog.fail "Parent process not found"
  | some parent =>
    Prog.set (pm.insertProcess (parent.clone childPid stack))
    return childPid

/-- `exec`, as far as the process table goes. -/
def exec (pid : Pid) : Prog ProcessManager String Unit := fun pm =>
  match pm.getProcess pid with
  | none => (.err "Process not found", pm)
  | some _ => (.ok (), pm.setState pid .ready)

/-- Wake a parent that waits for a child. -/
def wakeParent : Option Pid → ProcessManager
  | none => pm
  | some parentPid =>
    pm.update parentPid fun p => if p.state = .waiting then { p with state := .ready } else p

/-- `exit`. -/
def exit (pid : Pid) (exitCode : Int) : ProcessManager :=
  let parentPid := (pm.getProcess pid).bind (·.parentPid)
  ((pm.update pid fun p => p.die .zombie (some exitCode)).wakeParent parentPid).leave pid

/-- A child that has exited and can be collected. -/
def zombieChild (parentPid : Pid) : Option Process :=
  pm.processes.find? fun p => p.parentPid == some parentPid && p.state == .zombie

/-- A child that may still exit. -/
def hasChildren (parentPid : Pid) : Bool :=
  pm.processes.any fun p => p.parentPid == some parentPid && p.state != .terminated

/-- `wait`. -/
def wait (parentPid : Pid) (pm : ProcessManager) : Option (Pid × Int) × ProcessManager :=
  match pm.zombieChild parentPid with
  | some child =>
    (some (child.pid, child.exitCode.getD (-1)),
      { pm with processes := pm.processes.filter fun p => p.pid != child.pid })
  | none =>
    if pm.hasChildren parentPid then (none, pm.setState parentPid .waiting) else (none, pm)

/-! ## The state a pid is in -/

/-- The state of the process of a pid. -/
def stateOf (pid : Pid) : Option ProcessState :=
  (pm.getProcess pid).map (·.state)

variable {p : Process} (s : ProcessState)

section

variable {pm} {pid q : Pid} {f : Process → Process}

lemma getProcess_pid (h : pm.getProcess pid = some p) : p.pid = pid := by
  have hp := find?_some h
  exact beq_iff_eq.mp hp

/-- A process that is changed without changing its pid is found as before, and is
the only one that changes. -/
lemma getProcess_update (hf : ∀ p, (f p).pid = p.pid) :
    (pm.update pid f).getProcess q =
      if q = pid then (pm.getProcess pid).map f else pm.getProcess q := by
  split
  next heq =>
    subst heq
    cases h : pm.getProcess q with
    | none => exact congrArg (List.find? _) (updateFirst_of_none f h) |>.trans h
    | some p => exact find?_updateFirst_self (fun a ha => by rw [hf]; exact ha) h
  next hne =>
    refine find?_updateFirst_other (fun a ha => ?_) _
    rw [hf, beq_eq_false_iff_ne.mpr (beq_iff_eq.mp ha ▸ Ne.symm hne)]
    exact ⟨rfl, rfl⟩

@[simp] lemma currentPid_update : (pm.update pid f).currentPid = pm.currentPid := rfl

/-- A change that is a function of the state. -/
lemma stateOf_update {t : ProcessState → ProcessState} (hf : ∀ p, (f p).pid = p.pid)
    (hs : ∀ p, (f p).state = t p.state) :
    (pm.update pid f).stateOf q = if q = pid then (pm.stateOf pid).map t else pm.stateOf q := by
  unfold stateOf
  rw [getProcess_update hf]
  split
  next =>
    rw [Option.map_map, Option.map_map]
    exact congrArg (fun g => (pm.getProcess pid).map g) (funext hs)
  next => rfl

/-- A change leaves alone whatever it does not look at. -/
lemma getProcess_update_map {α : Type} {g : Process → α} (hf : ∀ p, (f p).pid = p.pid)
    (hg : ∀ p, g (f p) = g p) :
    ((pm.update pid f).getProcess q).map g = (pm.getProcess q).map g := by
  rw [getProcess_update hf]
  split
  next heq =>
    rw [heq, Option.map_map]
    exact congrArg (fun h => (pm.getProcess pid).map h) (funext hg)
  next => rfl

/-- A change that leaves the states alone. -/
lemma stateOf_update_same (hf : ∀ p, (f p).pid = p.pid) (hs : ∀ p, (f p).state = p.state) :
    (pm.update pid f).stateOf q = pm.stateOf q :=
  getProcess_update_map hf hs

/-- The state a changed process is put into. -/
lemma stateOf_update_const {s : ProcessState} (hf : ∀ p, (f p).pid = p.pid)
    (hs : ∀ p, (f p).state = s) :
    (pm.update pid f).stateOf q =
      if q = pid ∧ (pm.stateOf pid).isSome then some s else pm.stateOf q := by
  rw [stateOf_update (t := fun _ => s) hf hs]
  by_cases hq : q = pid
  · rw [if_pos hq, hq]
    cases pm.stateOf pid <;> simp
  · rw [if_neg hq, if_neg fun h => hq h.1]

lemma stateOf_setState :
    (pm.setState pid s).stateOf q =
      if q = pid ∧ (pm.stateOf pid).isSome then some s else pm.stateOf q :=
  stateOf_update_const (fun _ => rfl) fun _ => rfl

lemma stateOf_die (c : Process → Option Int) :
    (pm.update pid fun p => p.die s (c p)).stateOf q =
      if q = pid ∧ (pm.stateOf pid).isSome then some s else pm.stateOf q :=
  stateOf_update_const (fun _ => rfl) fun _ => rfl

lemma getProcess_leave : (pm.leave pid).getProcess q = pm.getProcess q := by
  unfold leave
  split <;> rfl

@[simp] lemma stateOf_leave : (pm.leave pid).stateOf q = pm.stateOf q :=
  congrArg (Option.map _) getProcess_leave

lemma currentPid_leave :
    (pm.leave pid).currentPid = if pm.currentPid = some pid then none else pm.currentPid := by
  unfold leave
  split <;> rfl

/-- A new process is found under its pid if no other has it. -/
lemma getProcess_insertProcess (h : pm.getProcess p.pid = none) :
    (pm.insertProcess p).getProcess q = if q = p.pid then some p else pm.getProcess q := by
  unfold getProcess insertProcess at *
  rw [find?_append]
  split
  next heq =>
    subst heq
    rw [h]
    simp
  next hne =>
    have hp : (p.pid == q) = false := beq_eq_false_iff_ne.mpr (Ne.symm hne)
    simp [hp]

lemma stateOf_insertProcess (h : pm.stateOf p.pid = none) :
    (pm.insertProcess p).stateOf q = if q = p.pid then some p.state else pm.stateOf q := by
  unfold stateOf at *
  rw [getProcess_insertProcess (Option.map_eq_none_iff.mp h)]
  split <;> rfl

/-- Collecting a child takes its pid out of the table. -/
lemma getProcess_filter :
    getProcess { pm with processes := pm.processes.filter fun p => p.pid != pid } q =
      if q = pid then none else pm.getProcess q := by
  unfold getProcess
  rw [find?_filter]
  split
  next heq =>
    subst heq
    exact find?_eq_none.mpr fun p _ => by simp +contextual
  next hne =>
    refine congrArg (List.find? · _) (funext fun p => ?_)
    by_cases hp : p.pid = q
    · simp [hp, hne]
    · simp [hp]

lemma stateOf_filter :
    stateOf { pm with processes := pm.processes.filter fun p => p.pid != pid } q =
      if q = pid then none else pm.stateOf q := by
  unfold stateOf
  rw [getProcess_filter]
  split <;> rfl

end

/-- What `exit` does to the states: the process becomes a zombie, and a parent
that waits becomes ready. -/
lemma stateOf_exit {pm : ProcessManager} {pid q : Pid}
    (hp : pm.getProcess pid = some p) (exitCode : Int) :
    (pm.exit pid exitCode).stateOf q =
      if q = pid then some .zombie
      else if p.parentPid = some q ∧ pm.stateOf q = some .waiting then some .ready
      else pm.stateOf q := by
  have hdie : ∀ q, (pm.update pid fun p => p.die .zombie (some exitCode)).stateOf q =
      if q = pid then some .zombie else pm.stateOf q := by
    intro q
    rw [stateOf_die .zombie fun _ => some exitCode, stateOf, hp]
    simp
  unfold exit
  simp only [stateOf_leave, hp, Option.bind_some]
  cases hparent : p.parentPid with
  | none => simp [wakeParent, hdie]
  | some parentPid =>
    have hwake : ∀ pm : ProcessManager, (pm.wakeParent (some parentPid)).stateOf q =
        if q = parentPid then (pm.stateOf parentPid).map fun s => if s = .waiting then .ready else s
        else pm.stateOf q := by
      intro pm
      refine stateOf_update (fun p => ?_) fun p => ?_
      · split <;> rfl
      · split <;> rfl
    rw [hwake, hdie, hdie]
    by_cases hq : q = parentPid
    · subst hq
      by_cases hpid : q = pid
      · simp [hpid]
      · cases hs : pm.stateOf q with
        | none => simp
        | some s =>
          by_cases hwait : s = .waiting
          · simp [hpid, hwait]
          · simp [hpid, hwait]
    · simp [hq, Ne.symm hq]

lemma currentPid_exit {pm : ProcessManager} {pid : Pid} (exitCode : Int) :
    (pm.exit pid exitCode).currentPid =
      if pm.currentPid = some pid then none else pm.currentPid := by
  unfold exit
  rw [currentPid_leave]
  cases (pm.getProcess pid).bind (·.parentPid) <;> rfl

variable (d : BitVec 64) (pid : Pid) (sig : Nat)

/-- What `send_signal` does to the table: it kills or stops a process that is not terminated,
or at most notes the signal. -/
lemma sendSignal_inv :
    (∃ p, pm.getProcess pid = some p ∧ p.state ≠ .terminated ∧
      (sig = sigkill ∧ (sendSignal pid sig pm).2 =
          (pm.update pid fun p => p.die .terminated (some (128 + sig))).leave pid ∨
        sig = sigstop ∧ (sendSignal pid sig pm).2 = pm.setState pid .blocked)) ∨
    ((sig = sigkill ∨ sig = sigstop → ∀ p, pm.getProcess pid = some p → p.state = .terminated) ∧
      ((sendSignal pid sig pm).2 = pm ∨ (sendSignal pid sig pm).2 =
        pm.update pid fun p => { p with pendingSignals := p.pendingSignals ||| bit sig })) := by
  have hkill : isValid sigkill = true := rfl
  have hstop : isValid sigstop = true := rfl
  unfold sendSignal
  grind

/-- The same, for the states and the current process. -/
lemma sendSignal_cases :
    (∃ s, pm.stateOf pid = some s ∧ s ≠ .terminated ∧ sig = sigkill ∧
      (∀ q, (sendSignal pid sig pm).2.stateOf q =
        if q = pid then some .terminated else pm.stateOf q) ∧
      (sendSignal pid sig pm).2.currentPid =
        if pm.currentPid = some pid then none else pm.currentPid) ∨
    (∃ s, pm.stateOf pid = some s ∧ s ≠ .terminated ∧ sig = sigstop ∧
      (∀ q, (sendSignal pid sig pm).2.stateOf q =
        if q = pid then some .blocked else pm.stateOf q) ∧
      (sendSignal pid sig pm).2.currentPid = pm.currentPid) ∨
    ((sig = sigkill ∨ sig = sigstop → pm.stateOf pid = none ∨ pm.stateOf pid = some .terminated) ∧
      (∀ q, (sendSignal pid sig pm).2.stateOf q = pm.stateOf q) ∧
      (sendSignal pid sig pm).2.currentPid = pm.currentPid) := by
  rcases sendSignal_inv pm pid sig with ⟨p, hp, hdead, ⟨hsig, heq⟩ | ⟨hsig, heq⟩⟩ | ⟨hno, heq⟩
  · have hstate : pm.stateOf pid = some p.state := congrArg (Option.map _) hp
    refine .inl ⟨p.state, hstate, hdead, hsig, fun q => ?_, heq ▸ currentPid_leave⟩
    rw [heq, stateOf_leave, stateOf_die .terminated fun _ => some (128 + sig), hstate]
    simp
  · have hstate : pm.stateOf pid = some p.state := congrArg (Option.map _) hp
    refine .inr (.inl ⟨p.state, hstate, hdead, hsig, fun q => ?_, heq ▸ rfl⟩)
    rw [heq, stateOf_setState, hstate]
    simp
  · refine .inr (.inr ⟨fun hs => ?_, ?_⟩)
    · unfold stateOf
      cases hp : pm.getProcess pid with
      | none => exact .inl rfl
      | some p => exact .inr (congrArg some (hno hs p hp))
    · rcases heq with heq | heq <;> rw [heq]
      · exact ⟨fun _ => rfl, rfl⟩
      · exact ⟨fun _ => stateOf_update_same (fun _ => rfl) fun _ => rfl, rfl⟩

/-! ## Delivery of signals -/

/-- The signals of a process that are pending and not blocked. -/
def signalsOf (p : Process) : BitVec 64 := p.pendingSignals &&& ~~~p.signalBlocked

/-- The signals that can be delivered to a process. -/
def deliverable (pm : ProcessManager) (pid : Pid) : BitVec 64 :=
  ((pm.getProcess pid).map signalsOf).getD 0

/-- Among the given signals one is deliverable and has the given effect. -/
def dueIn (deliverable : BitVec 64) (sigs : List Nat) (action : DefaultAction) : Bool :=
  sigs.any fun sig => deliverable &&& bit sig != 0 && defaultAction sig == action

/-- A signal of the given effect is deliverable to the process. -/
def due (pm : ProcessManager) (pid : Pid) (action : DefaultAction) : Bool :=
  dueIn (pm.deliverable pid) signals action

/-- What is due depends on the signals of the process alone. -/
lemma due_congr {pm pm' : ProcessManager} {pid : Pid}
    (h : (pm'.getProcess pid).map signalsOf = (pm.getProcess pid).map signalsOf)
    (action : DefaultAction) : pm'.due pid action = pm.due pid action := by
  unfold due deliverable
  rw [h]

/-- The state a process is in after the given signals have been delivered. -/
def stateAfter (deliverable : BitVec 64) (sigs : List Nat) (s : ProcessState) : ProcessState :=
  if dueIn deliverable sigs .terminate then .terminated
  else if dueIn deliverable sigs .stop then .blocked
  else if dueIn deliverable sigs .continue ∧ s = .blocked then .ready
  else s

/-- What happens to a process that runs. -/
lemma stateAfter_running :
    stateAfter (pm.deliverable pid) signals .running =
      if pm.due pid .terminate then .terminated
      else if pm.due pid .stop then .blocked else .running := by
  unfold stateAfter due
  split
  next => rfl
  next =>
    split
    next => rfl
    next => exact if_neg fun h => nomatch h.2

/-- Continuing comes before stopping. -/
def Ordered (sigs : List Nat) : Prop :=
  sigs.Pairwise fun a b => defaultAction a = .stop → defaultAction b ≠ .continue

lemma signals_ordered : Ordered signals := by
  unfold Ordered
  decide

/-- What a delivery leaves behind, for the process and for everybody else. -/
structure Delivered (pm : ProcessManager) (pid : Pid) (d : BitVec 64) (sigs : List Nat)
    (r : Bool × ProcessManager) : Prop where
  terminated : r.1 = dueIn d sigs .terminate
  nextPid : r.2.nextPid = pm.nextPid
  currentPid : r.2.currentPid =
    if dueIn d sigs .terminate ∧ pm.currentPid = some pid then none else pm.currentPid
  stateOf : ∀ q, r.2.stateOf q =
    if q = pid then (pm.stateOf pid).map (stateAfter d sigs) else pm.stateOf q

lemma dueIn_cons (sigs : List Nat) (action : DefaultAction) :
    dueIn d (sig :: sigs) action =
      (d &&& bit sig != 0 && defaultAction sig == action || dueIn d sigs action) := rfl

/-- A signal that is not deliverable has no effect. -/
lemma stateAfter_skip {d : BitVec 64} {sig : Nat} (h : d &&& bit sig = 0) (sigs : List Nat) :
    stateAfter d (sig :: sigs) = stateAfter d sigs ∧
      dueIn d (sig :: sigs) .terminate = dueIn d sigs .terminate := by
  have hcons : ∀ action, dueIn d (sig :: sigs) action = dueIn d sigs action := by
    intro action
    rw [dueIn_cons, h]
    rfl
  refine ⟨funext fun s => ?_, hcons _⟩
  unfold stateAfter
  rw [hcons, hcons, hcons]

/-- What one delivered signal does to the process. -/
def receive (sig : Nat) (p : Process) : Process :=
  let p := { p with pendingSignals := p.pendingSignals &&& ~~~bit sig }
  match defaultAction sig with
  | .terminate => p.die .terminated (some (128 + sig))
  | .stop => { p with state := .blocked }
  | .continue => if p.state = .blocked then { p with state := .ready } else p
  | .ignore => p

/-- What the loop does to the process. -/
def receiveAll (d : BitVec 64) : List Nat → Process → Process
  | [], p => p
  | sig :: sigs, p =>
    if d &&& bit sig = 0 then receiveAll d sigs p
    else if defaultAction sig = .terminate then receive sig p
    else receiveAll d sigs (receive sig p)

/-- Signals touch the pending ones, the state, the exit code and the stack only. -/
lemma receiveAll_map {α : Type} {g : Process → α}
    (hsig : ∀ p v, g { p with pendingSignals := v } = g p)
    (hstate : ∀ p v, g { p with state := v } = g p)
    (hdie : ∀ p v c, g (p.die v c) = g p) (d : BitVec 64) (sigs : List Nat) :
    ∀ p, g (receiveAll d sigs p) = g p := by
  have hone (sig : Nat) (p : Process) : g (receive sig p) = g p := by
    have hclear := hsig p (p.pendingSignals &&& ~~~bit sig)
    have hset (s : ProcessState) :=
      hstate { p with pendingSignals := p.pendingSignals &&& ~~~bit sig } s
    unfold receive
    cases defaultAction sig with
    | terminate => exact (hdie ..).trans hclear
    | stop => exact (hset _).trans hclear
    | ignore => exact hclear
    | «continue» =>
      dsimp only
      split
      next => exact (hset _).trans hclear
      next => exact hclear
  induction sigs with
  | nil => exact fun p => rfl
  | cons sig sigs ih =>
    intro p
    unfold receiveAll
    split
    next => exact ih p
    next =>
      split
      next => exact hone sig p
      next => exact (ih _).trans (hone sig p)

lemma receiveAll_pid (sigs : List Nat) (p : Process) :
    (receiveAll d sigs p).pid = p.pid :=
  receiveAll_map (fun _ _ => rfl) (fun _ _ => rfl) (fun _ _ _ => rfl) d sigs p

/-- One delivered signal that does not terminate, and then the rest. -/
lemma stateAfter_cons {d : BitVec 64} {sig : Nat} {sigs : List Nat} (h : d &&& bit sig ≠ 0)
    (hord : Ordered (sig :: sigs)) (hact : defaultAction sig ≠ .terminate) (p : Process) :
    stateAfter d (sig :: sigs) p.state = stateAfter d sigs (receive sig p).state := by
  have hne : (d &&& bit sig != 0) = true := bne_iff_ne.mpr h
  -- after a signal that stops, none continues
  have hnone : defaultAction sig = .stop → dueIn d sigs .continue = false := by
    intro hstop
    refine any_eq_false.mpr fun b hb => ?_
    have hb' := (pairwise_cons.mp hord).1 b hb hstop
    simp [hb']
  unfold stateAfter receive
  rw [dueIn_cons, dueIn_cons, dueIn_cons, hne]
  cases hsig : defaultAction sig with
  | terminate => exact absurd hsig hact
  | ignore => simp
  | stop => simp [hnone hsig]
  | «continue» =>
    cases dueIn d sigs .terminate <;> cases dueIn d sigs .stop <;> simp
    by_cases hs : p.state = .blocked <;> simp [hs]

/-- The state after all signals. -/
lemma receiveAll_state {sigs : List Nat} (hord : Ordered sigs) :
    ∀ p, (receiveAll d sigs p).state = stateAfter d sigs p.state := by
  induction sigs with
  | nil =>
    intro p
    simp [receiveAll, stateAfter, dueIn]
  | cons sig sigs ih =>
    intro p
    have ih := ih (pairwise_cons.mp hord).2
    unfold receiveAll
    split
    next hskip => rw [ih, (stateAfter_skip hskip sigs).1]
    next hdue =>
      split
      next hact =>
        have hterm : dueIn d (sig :: sigs) .terminate = true := by
          rw [dueIn_cons, hact, bne_iff_ne.mpr hdue]
          rfl
        rw [stateAfter, if_pos hterm, receive, hact]
        rfl
      next hact => rw [ih, stateAfter_cons hdue hord hact]

/-- The loop changes the process, and leaves it if it is terminated. -/
lemma deliverLoop_eq (d : BitVec 64) (sigs : List Nat) : ∀ pm : ProcessManager,
    deliverLoop pid d sigs pm = (dueIn d sigs .terminate,
      if dueIn d sigs .terminate then (pm.update pid fun p => receiveAll d sigs p).leave pid
      else pm.update pid fun p => receiveAll d sigs p) := by
  induction sigs with
  | nil =>
    intro pm
    show (false, pm) = (false, { pm with processes := updateFirst _ (fun p => p) pm.processes })
    rw [updateFirst_id]
  | cons sig sigs ih =>
    intro pm
    have htwice (f g : Process → Process) (hf : ∀ p, (f p).pid = p.pid) :
        (pm.update pid f).update pid g = pm.update pid fun p => g (f p) :=
      congrArg (ProcessManager.mk · _ _)
        (updateFirst_updateFirst (fun p hp => by rw [hf]; exact hp) _)
    have hrest (f : Process → Process) (hf : ∀ p, (f p).pid = p.pid) :
        deliverLoop pid d sigs (pm.update pid f) = (dueIn d sigs .terminate,
          if dueIn d sigs .terminate then (pm.update pid fun p => receiveAll d sigs (f p)).leave pid
          else pm.update pid fun p => receiveAll d sigs (f p)) := by
      rw [ih, htwice f _ hf]
    rw [dueIn_cons]
    unfold deliverLoop receiveAll receive
    by_cases hskip : d &&& bit sig = 0
    · simp only [hskip]
      exact ih pm
    · have hdue : (d &&& bit sig != 0) = true := bne_iff_ne.mpr hskip
      simp only [hskip, hdue]
      cases defaultAction sig with
      | terminate => exact congrArg (true, leave · pid) (htwice _ _ fun _ => rfl)
      | stop =>
        dsimp only
        rw [setState, htwice]
        · exact hrest _ fun _ => rfl
        · exact fun _ => rfl
      | ignore => exact hrest _ fun _ => rfl
      | «continue» =>
        dsimp only
        rw [htwice]
        · refine hrest _ fun p => ?_
          split <;> rfl
        · exact fun _ => rfl

lemma deliverLoop_zero (sigs : List Nat) (pm : ProcessManager) :
    deliverLoop pid 0 sigs pm = (false, pm) := by
  induction sigs with
  | nil => rfl
  | cons sig sigs ih =>
    rw [deliverLoop, if_pos, ih]
    exact BitVec.zero_and

lemma deliverPendingSignals_eq :
    pm.deliverPendingSignals pid = deliverLoop pid (pm.deliverable pid) signals pm := by
  unfold deliverPendingSignals deliverable
  cases pm.getProcess pid with
  | none => exact (deliverLoop_zero pid signals pm).symm
  | some p =>
    show (if signalsOf p = 0 then _ else _) = deliverLoop pid (signalsOf p) signals pm
    split
    next h => rw [h, deliverLoop_zero]
    next => rfl

/-- What `deliver_pending_signals` does. -/
lemma deliverPendingSignals_spec :
    Delivered pm pid (pm.deliverable pid) signals (pm.deliverPendingSignals pid) := by
  rw [deliverPendingSignals_eq, deliverLoop_eq]
  have hstate (q : Pid) : (pm.update pid (receiveAll (pm.deliverable pid) signals)).stateOf q = _ :=
    stateOf_update (receiveAll_pid _ _) (receiveAll_state _ signals_ordered)
  cases hterm : dueIn (pm.deliverable pid) signals .terminate with
  | true =>
    refine ⟨hterm.symm, ?_, ?_, fun q => stateOf_leave.trans (hstate q)⟩
    · rw [if_pos rfl, leave]
      split <;> rfl
    · rw [if_pos rfl, currentPid_leave, hterm, currentPid_update]
      simp
  | false => exact ⟨hterm.symm, rfl, by rw [hterm]; simp, hstate⟩

/-- Delivery leaves alone what the signals do not touch. -/
lemma deliverPendingSignals_map {α : Type} {g : Process → α}
    (hsig : ∀ p v, g { p with pendingSignals := v } = g p)
    (hstate : ∀ p v, g { p with state := v } = g p)
    (hdie : ∀ p v c, g (p.die v c) = g p) (pm : ProcessManager) (pid q : Pid) :
    ((pm.deliverPendingSignals pid).2.getProcess q).map g = (pm.getProcess q).map g := by
  rw [deliverPendingSignals_eq, deliverLoop_eq]
  have hmap : ((pm.update pid (receiveAll (pm.deliverable pid) signals)).getProcess q).map g = _ :=
    getProcess_update_map (receiveAll_pid _ _) (receiveAll_map hsig hstate hdie _ _)
  split
  next =>
    rw [getProcess_leave]
    exact hmap
  next => exact hmap

/-! ## Pids -/

/-- The pids in the table, and the next one. -/
def numbering (pm : ProcessManager) : List Pid × Pid := (pm.processes.map (·.pid), pm.nextPid)

/-- Each process has a pid of its own, and all of them have been handed out. -/
structure WellNumbered (pm : ProcessManager) : Prop where
  nodup : pm.numbering.1.Nodup
  bound : ∀ pid ∈ pm.numbering.1, pid < pm.numbering.2

lemma WellNumbered.congr {pm pm' : ProcessManager} (h : pm.WellNumbered)
    (heq : pm'.numbering = pm.numbering) : pm'.WellNumbered :=
  ⟨heq ▸ h.nodup, heq ▸ h.bound⟩

section

variable {pm} {pid}

lemma numbering_update {f : Process → Process} (hf : ∀ p, (f p).pid = p.pid) :
    (pm.update pid f).numbering = pm.numbering :=
  congrArg (·, pm.nextPid) (map_updateFirst (fun p _ => hf p) _)

@[simp] lemma numbering_setState :
    (pm.setState pid s).numbering = pm.numbering :=
  numbering_update fun _ => rfl

@[simp] lemma numbering_leave : (pm.leave pid).numbering = pm.numbering := by
  unfold leave
  split <;> rfl

@[simp] lemma numbering_deliverPendingSignals :
    (pm.deliverPendingSignals pid).2.numbering = pm.numbering := by
  rw [deliverPendingSignals_eq, deliverLoop_eq]
  have hnum : (pm.update pid (receiveAll (pm.deliverable pid) signals)).numbering = pm.numbering :=
    numbering_update (receiveAll_pid _ _)
  split
  next => exact numbering_leave.trans hnum
  next => exact hnum

@[simp] lemma numbering_sendSignal :
    (sendSignal pid sig pm).2.numbering = pm.numbering := by
  rcases sendSignal_inv pm pid sig with ⟨_, _, _, ⟨_, heq⟩ | ⟨_, heq⟩⟩ | ⟨_, heq | heq⟩ <;> rw [heq]
  · exact numbering_leave.trans (numbering_update fun _ => rfl)
  · exact numbering_setState _
  · exact numbering_update fun _ => rfl

/-- A pid that has not been handed out names nobody. -/
lemma WellNumbered.fresh (h : pm.WellNumbered) (hpid : pm.nextPid ≤ pid) :
    pm.stateOf pid = none := by
  unfold stateOf getProcess
  rw [find?_eq_none.mpr fun p hp heq => ?_]
  · rfl
  · have hlt : p.pid < pm.nextPid := h.bound p.pid (mem_map_of_mem hp)
    rw [beq_iff_eq.mp heq] at hlt
    exact Nat.not_lt.mpr hpid hlt

/-- A process is the one its pid names. -/
lemma WellNumbered.getProcess_of_mem (h : pm.WellNumbered) (hp : p ∈ pm.processes) :
    pm.getProcess p.pid = some p := by
  obtain ⟨A, B, hsplit⟩ := append_of_mem hp
  have hnodup := h.nodup
  unfold numbering at hnodup
  rw [hsplit, map_append, map_cons, nodup_middle, nodup_cons] at hnodup
  refine find?_eq_some_iff_append.mpr ⟨beq_self_eq_true _, A, B, hsplit, fun a ha => ?_⟩
  -- nobody in front of `p` has its pid
  rw [Bool.not_eq_true', beq_eq_false_iff_ne]
  intro heq
  refine hnodup.1 (heq ▸ mem_append_left _ (mem_map_of_mem ha))

/-- How the pids of a table change over time: none that was handed out comes back. -/
structure Later (pm pm' : ProcessManager) : Prop where
  wellNumbered : pm'.WellNumbered
  next : pm.nextPid ≤ pm'.nextPid
  old : ∀ pid < pm.nextPid, pid ∈ pm'.numbering.1 → pid ∈ pm.numbering.1

lemma WellNumbered.later_same (h : pm.WellNumbered) {pm' : ProcessManager}
    (heq : pm'.numbering = pm.numbering) : pm.Later pm' :=
  ⟨h.congr heq, Nat.le_of_eq (congrArg Prod.snd heq).symm, fun _ _ hpid => heq ▸ hpid⟩

lemma Later.congr {pm' pm'' : ProcessManager} (h : pm.Later pm')
    (heq : pm''.numbering = pm'.numbering) : pm.Later pm'' :=
  ⟨h.wellNumbered.congr heq, Nat.le_trans h.next (Nat.le_of_eq (congrArg Prod.snd heq).symm),
    fun pid hpid hmem => h.old pid hpid (heq ▸ hmem)⟩

/-- A pid is handed out to nobody. -/
lemma WellNumbered.later_next (h : pm.WellNumbered) :
    pm.Later { pm with nextPid := pm.nextPid + 1 } :=
  ⟨⟨h.nodup, fun pid hpid => Nat.lt_succ_of_lt (h.bound pid hpid)⟩, Nat.le_succ _,
    fun _ _ hpid => hpid⟩

/-- The next pid is handed out to a new process. -/
lemma WellNumbered.later_insert (h : pm.WellNumbered) (hp : p.pid = pm.nextPid) :
    pm.Later (({ pm with nextPid := pm.nextPid + 1 } : ProcessManager).insertProcess p) := by
  have hb : ∀ pid ∈ pm.processes.map (·.pid), pid < pm.nextPid := h.bound
  have hmem : ∀ pid ∈ (pm.processes ++ [p]).map (·.pid),
      pid ∈ pm.processes.map (·.pid) ∨ pid = pm.nextPid := by
    intro pid hpid
    rwa [map_append, mem_append, map_singleton, mem_singleton, hp] at hpid
  refine ⟨⟨?_, fun pid hpid => ?_⟩, Nat.le_succ _, fun pid hlt hpid => ?_⟩
  · show ((pm.processes ++ [p]).map (·.pid)).Nodup
    rw [map_append, map_singleton, hp]
    refine nodup_append.mpr ⟨h.nodup, nodup_singleton _, fun a ha b hb' heq => ?_⟩
    rw [mem_singleton] at hb'
    exact Nat.lt_irrefl _ (hb' ▸ heq ▸ hb a ha)
  · rcases hmem pid hpid with hold | heq
    · exact Nat.lt_succ_of_lt (hb pid hold)
    · exact heq ▸ Nat.lt_succ_self _
  · rcases hmem pid hpid with hold | heq
    · exact hold
    · exact absurd heq (Nat.ne_of_lt hlt)

/-- Processes are taken out of the table. -/
lemma WellNumbered.later_filter (h : pm.WellNumbered) (f : Process → Bool) :
    pm.Later { pm with processes := pm.processes.filter f } := by
  have hsub : ((pm.processes.filter f).map (·.pid)).Sublist (pm.processes.map (·.pid)) :=
    filter_sublist.map _
  exact ⟨⟨h.nodup.sublist hsub, fun pid hpid => h.bound pid (hsub.subset hpid)⟩, Nat.le_refl _,
    fun _ _ hpid => hsub.subset hpid⟩

/-- A pid that was handed out and names nobody never names anybody again. -/
lemma Later.stateOf_none {pm' : ProcessManager} (h : pm.Later pm') (hpid : pid < pm.nextPid)
    (hnone : pm.stateOf pid = none) : pm'.stateOf pid = none := by
  cases hp : pm'.getProcess pid with
  | none => rw [stateOf, hp]; rfl
  | some p =>
    have hfound := find?_some hp
    have heq : p.pid = pid := beq_iff_eq.mp hfound
    have hold : pid ∈ pm.numbering.1 :=
      h.old pid hpid (heq ▸ mem_map_of_mem (mem_of_find?_eq_some hp))
    obtain ⟨p', hp', heq'⟩ := mem_map.mp hold
    have hno := find?_eq_none.mp (Option.map_eq_none_iff.mp hnone) p' hp'
    exact absurd (beq_iff_eq.mpr heq') hno

@[simp] lemma numbering_exit (exitCode : Int) :
    (pm.exit pid exitCode).numbering = pm.numbering := by
  have hdie : (pm.update pid fun p => p.die .zombie (some exitCode)).numbering = pm.numbering :=
    numbering_update fun _ => rfl
  refine numbering_leave.trans (Eq.trans ?_ hdie)
  unfold wakeParent
  split
  next => rfl
  next =>
    refine numbering_update fun p => ?_
    split <;> rfl

@[simp] lemma numbering_terminate : (pm.terminate pid).numbering = pm.numbering :=
  numbering_leave.trans (numbering_update fun _ => rfl)

@[simp] lemma numbering_exec : (exec pid pm).2.numbering = pm.numbering := by
  unfold exec
  split
  next => rfl
  next => exact numbering_setState _

/-- `wait` collects a child or puts the parent to sleep. -/
lemma WellNumbered.later_wait (h : pm.WellNumbered) : pm.Later (pm.wait pid).2 := by
  unfold wait
  split
  next => exact h.later_filter _
  next =>
    split
    next => exact h.later_same (numbering_setState _)
    next => exact h.later_same rfl

end

/-- The next pid is handed out, unless there is none left. -/
lemma takePid_eq : takePid pm =
    if pm.nextPid + 1 < 2 ^ 64 then (.ok pm.nextPid, { pm with nextPid := pm.nextPid + 1 })
    else (.panic, pm) := by
  unfold takePid Outcome.uadd
  by_cases h : pm.nextPid + 1 < 2 ^ 64
  · rw [if_pos h, if_pos h]
  · rw [if_neg h, if_neg h]

lemma createProcess_eq : createProcess pm =
    if pm.nextPid + 1 < 2 ^ 64 then
      (.ok pm.nextPid,
        ({ pm with nextPid := pm.nextPid + 1 } : ProcessManager).insertProcess (.new pm.nextPid))
    else (.panic, pm) := by
  unfold createProcess
  by_cases h : pm.nextPid + 1 < 2 ^ 64
  · have htake := takePid_eq pm
    rw [if_pos h] at htake
    rw [Prog.bind_ok htake, if_pos h]
    rfl
  · have htake := takePid_eq pm
    rw [if_neg h] at htake
    rw [Prog.bind_panic htake, if_neg h]

lemma fork_eq (parentPid : Pid) (stack : Option Nat) :
    fork parentPid stack pm =
      if pm.nextPid + 1 < 2 ^ 64 then
        match pm.getProcess parentPid with
        | none => (.err "Parent process not found", { pm with nextPid := pm.nextPid + 1 })
        | some parent => (.ok pm.nextPid, ({ pm with nextPid := pm.nextPid + 1 } :
            ProcessManager).insertProcess (parent.clone pm.nextPid stack))
      else (.panic, pm) := by
  unfold fork
  by_cases h : pm.nextPid + 1 < 2 ^ 64
  · have htake := takePid_eq pm
    rw [if_pos h] at htake
    rw [Prog.bind_ok htake, if_pos h]
    show (match pm.getProcess parentPid with
      | none => Prog.fail "Parent process not found"
      | some parent => _) _ = _
    cases pm.getProcess parentPid <;> rfl
  · have htake := takePid_eq pm
    rw [if_neg h] at htake
    rw [Prog.bind_panic htake, if_neg h]

end ProcessManager

end RustOs.Proc
