import RustOs.Proc.Manager
import RustOs.Lib.Trace

/-!
# Waiting for children

`sys_wait4` over histories of `fork`, `exit`, `send_signal` and
`deliver_pending_signals`. A death of a process that has a parent is a notice for
that parent: the child and the status word. A history keeps two lists of them, those
that have come about and those that a `sys_wait4` has reported. They are in
balance (`Balanced`) if no child is reported twice, every report is a notice
that came about, and every notice that is still open would be reported by later
calls of `sys_wait4(-1, WNOHANG)`.

A call without `WNOHANG` makes up to 200000 turns, with whatever others do
between them, and a call with it makes one. So a turn is the step here.

What matters of a process is its `Fate`: its parent and, if it is dead, how it died
and with which status. One lemma for each call says what it does to the fates.
`balanced_iff` then says when a history stays in balance: nobody kills a child or
stops a dead one, nobody exits a second time with another code, and a `sys_wait4`
for one child is not made while another one would be found first.
-/

namespace RustOs.Proc

open Lib Proc.Signal List Option

/-! ## The call -/

/-- The status word for an exit code, as `sys_wait4` writes it. -/
def statusWord (exitCode : Int) : BitVec 32 := BitVec.ofInt 32 exitCode <<< 8

/-- `(-1isize) as usize`: any child will do. -/
def anyChild : Nat := 2 ^ 64 - 1

/-- What is told of a child to its parent. -/
structure Notice where
  child : Pid
  parent : Pid
  status : BitVec 32
  deriving DecidableEq, Repr

namespace ProcessManager

/-- One turn of the loop of `sys_wait4`, with the pid it was asked for. -/
def sysWait4Turn (pid : Nat) (pm : ProcessManager) : Option (Pid × Int) × ProcessManager :=
  match pm.currentPid with
  | none => (none, pm)
  | some parentPid =>
    let (result, pm) := pm.wait parentPid
    if pid = anyChild then (result, pm) else (result.filter (·.1 == pid), pm)

/-- The same, made by `caller`: what it is told, if anything. -/
def wait4 (caller : Pid) (pid : Nat) (pm : ProcessManager) : Option Notice × ProcessManager :=
  let (result, pm) := sysWait4Turn pid { pm with currentPid := some caller }
  (result.map fun r => ⟨r.1, caller, statusWord r.2⟩, pm)

/-- What `caller` is told by calls of `sys_wait4(-1, WNOHANG)`, `n` at most, up to the
first that finds nobody. -/
def answers (caller : Pid) : Nat → ProcessManager → List Notice
  | 0, _ => []
  | n + 1, pm =>
    match pm.wait4 caller anyChild with
    | (some notice, pm) => notice :: answers caller n pm
    | (none, _) => []

/-- The parent would be given the notice by later calls. -/
def Reportable (pm : ProcessManager) (d : Notice) : Prop := ∃ n, d ∈ pm.answers d.parent n

end ProcessManager

/-! ## Fates -/

/-- What a parent can learn of a process: whose child it is and, if it is dead, how
it died and with which status. -/
@[ext] structure Fate where
  parent : Option Pid
  death : Option (ProcessState × BitVec 32)
  deriving DecidableEq, Repr

/-- How it died. -/
def Fate.ended (x : Fate) : Option ProcessState := x.death.map (·.1)

/-- The same process, with another death or none. -/
def Fate.withDeath (death : Option (ProcessState × BitVec 32)) (x : Fate) : Fate :=
  { x with death := death }

/-- The fate of a process. -/
def Process.fate (p : Process) : Fate :=
  ⟨p.parentPid, if p.state.live then none else some (p.state, statusWord (p.exitCode.getD (-1)))⟩

variable {s : ProcessState}

lemma Process.fate_die (p : Process) (hs : s.live = false) (exitCode : Int) :
    (p.die s (some exitCode)).fate = p.fate.withDeath (some (s, statusWord exitCode)) := by
  unfold fate die Fate.withDeath
  rw [if_neg (by rw [hs]; exact Bool.false_ne_true)]
  rfl

/-- Any change between states a process can run in is no change of its fate. -/
lemma Process.fate_congr {p p' : Process} (hparent : p'.parentPid = p.parentPid)
    (hstate : p'.state = p.state ∨ p.state.live = true ∧ p'.state.live = true)
    (hcode : p'.exitCode = p.exitCode) : p'.fate = p.fate := by
  unfold fate
  rw [hparent, hcode]
  rcases hstate with heq | ⟨hlive, hlive'⟩
  · rw [heq]
  · rw [hlive, hlive']
    rfl

variable {child : Process}

namespace ProcessManager

/-- The fate of the process of a pid. -/
def fateOf (pm : ProcessManager) (pid : Pid) : Option Fate := (pm.getProcess pid).map Process.fate

/-- The process of `pid` gets another fate, and it is the only one. -/
def Alters (pm pm' : ProcessManager) (pid : Pid) (g : Fate → Fate) : Prop :=
  ∀ q, pm'.fateOf q = if q = pid then (pm.fateOf pid).map g else pm.fateOf q

section Fates

variable {pm pm₁ pm' : ProcessManager} {pid : Pid} {g g₁ : Fate → Fate} {f : Process → Process}

lemma alters_id : Alters pm pm' pid id ↔ ∀ q, pm'.fateOf q = pm.fateOf q := by
  refine forall_congr' fun q => ?_
  rw [Option.map_id]
  split
  next heq => rw [heq]; rfl
  next => rfl

lemma alters_update (hf : ∀ p, (f p).pid = p.pid)
    (hg : ∀ p, (f p).fate = g p.fate) : Alters pm (pm.update pid f) pid g := by
  intro q
  unfold fateOf
  rw [getProcess_update hf]
  split
  next =>
    rw [Option.map_map, Option.map_map]
    exact congrArg (fun h => (pm.getProcess pid).map h) (funext hg)
  next => rfl

lemma fateOf_leave (q : Pid) : (pm.leave pid).fateOf q = pm.fateOf q :=
  congrArg (Option.map _) getProcess_leave

/-- A change that does not show in the fates. -/
lemma fateOf_update_same (hf : ∀ p, (f p).pid = p.pid)
    (hg : ∀ p, (f p).fate = p.fate) (q : Pid) : (pm.update pid f).fateOf q = pm.fateOf q :=
  getProcess_update_map hf hg

/-- A process that is put into a state it can run in is not dead. -/
lemma alters_setState (hs : s.live = true) :
    Alters pm (pm.setState pid s) pid (.withDeath none) := by
  refine alters_update (fun p => rfl) fun p => ?_
  unfold Process.fate Fate.withDeath
  rw [if_pos hs]

/-- A process dies. -/
lemma alters_die (hs : s.live = false) (exitCode : Int) :
    Alters pm ((pm.update pid fun p => p.die s (some exitCode)).leave pid) pid
      (.withDeath (some (s, statusWord exitCode))) := by
  intro q
  rw [fateOf_leave]
  exact alters_update (f := fun p => p.die s (some exitCode)) (fun p => rfl)
    (fun p => p.fate_die hs exitCode) q

/-- `exit` makes a zombie with the exit code. -/
lemma exit_alters (exitCode : Int) : Alters pm (pm.exit pid exitCode) pid
    (.withDeath (some (.zombie, statusWord exitCode))) := by
  have hwake (pm : ProcessManager) (parent : Option Pid) (q : Pid) :
      (pm.wakeParent parent).fateOf q = pm.fateOf q := by
    cases parent with
    | none => rfl
    | some parentPid =>
      refine fateOf_update_same (fun p => ?_) (fun p => ?_) q
      · split <;> rfl
      · -- a process that waits and one that is ready can both run
        split
        next hwait => exact Process.fate_congr rfl (.inr ⟨by rw [hwait]; rfl, rfl⟩) rfl
        next => rfl
  intro q
  unfold exit
  rw [fateOf_leave, hwake]
  exact alters_update (f := fun p => p.die .zombie (some exitCode)) (fun p => rfl)
    (fun p => p.fate_die rfl exitCode) q

/-- What `send_signal` does: `SIGKILL` and `SIGSTOP` act on whoever is not terminated, and
the others on nobody's fate. -/
lemma sendSignal_alters (pid : Pid) (sig : Nat) (pm : ProcessManager) :
    (sig = sigkill ∧ (∀ x, pm.fateOf pid = some x → x.ended ≠ some .terminated) ∧
      Alters pm (sendSignal pid sig pm).2 pid
        (.withDeath (some (.terminated, statusWord 137)))) ∨
    (sig = sigstop ∧ (∀ x, pm.fateOf pid = some x → x.ended ≠ some .terminated) ∧
      Alters pm (sendSignal pid sig pm).2 pid (.withDeath none)) ∨
    ((sig = sigkill ∨ sig = sigstop → ∀ x, pm.fateOf pid = some x → x.ended = some .terminated) ∧
      Alters pm (sendSignal pid sig pm).2 pid id) := by
  have hended {p : Process} (hp : pm.getProcess pid = some p) {x : Fate}
    (hx : pm.fateOf pid = some x) :
      x.ended = some .terminated ↔ p.state = .terminated := by
    cases (congrArg (Option.map Process.fate) hp).symm.trans hx
    unfold Process.fate Fate.ended
    cases p.state <;> simp [ProcessState.live]
  rcases sendSignal_inv pm pid sig with ⟨p, hp, hterm, ⟨rfl, heq⟩ | ⟨rfl, heq⟩⟩ | ⟨hno, heq⟩
  · refine .inl ⟨rfl, fun x hx h => hterm ((hended hp hx).mp h), ?_⟩
    rw [heq]
    exact alters_die rfl 137
  · refine .inr (.inl ⟨rfl, fun x hx h => hterm ((hended hp hx).mp h), ?_⟩)
    rw [heq]
    exact alters_setState rfl
  · refine .inr (.inr ⟨fun hsig x hx => ?_, ?_⟩)
    · obtain ⟨p, hp, -⟩ := map_eq_some_iff.mp hx
      exact (hended hp hx).mpr (hno hsig p hp)
    · rcases heq with heq | heq <;> rw [heq]
      · exact alters_id.mpr fun q => rfl
      · exact alters_update (fun p => rfl) fun p => rfl

/-- What delivered signals do to a fate: one that terminates prevails over one that stops. -/
def dealt (w : BitVec 32) : (terminate stop : Bool) → Fate → Fate
  | true, _ => .withDeath (some (.terminated, w))
  | false, true => .withDeath none
  | false, false => id

/-- All signals together act as one that terminates or stops. -/
lemma receiveAll_dealt (d : BitVec 64) (sigs : List Nat) :
    ∃ w, ∀ p, (receiveAll d sigs p).fate =
      dealt w (dueIn d sigs .terminate) (dueIn d sigs .stop) p.fate := by
  induction sigs with
  | nil => exact ⟨0, fun p => rfl⟩
  | cons sig sigs ih =>
    obtain ⟨w, hw⟩ := ih
    by_cases hno : d &&& bit sig = 0
    · simp only [dueIn_cons, receiveAll, hno]
      exact ⟨w, hw⟩
    · simp only [dueIn_cons, bne_iff_ne.mpr hno, Bool.true_and, receiveAll, if_neg hno]
      unfold receive
      cases hact : defaultAction sig with
      | terminate => exact ⟨_, fun p => Process.fate_die _ rfl _⟩
      | stop =>
        refine ⟨w, fun p => (hw _).trans ?_⟩
        cases dueIn d sigs .terminate
        · cases dueIn d sigs .stop <;> rfl
        · rfl
      | ignore => exact ⟨w, fun p => hw _⟩
      | «continue» =>
        refine ⟨w, fun p => (hw _).trans (congrArg _ ?_)⟩
        dsimp only
        split
        next hblocked => exact Process.fate_congr rfl (.inr ⟨by rw [hblocked]; rfl, rfl⟩) rfl
        next => rfl

/-- Delivery alters the fate of its process only. -/
lemma deliverPendingSignals_alters (pid : Pid) (pm : ProcessManager) :
    ∃ w, Alters pm (pm.deliverPendingSignals pid).2 pid
      (dealt w (pm.due pid .terminate) (pm.due pid .stop)) := by
  obtain ⟨w, hw⟩ := receiveAll_dealt (pm.deliverable pid) signals
  have halt : Alters pm (pm.update pid _) pid _ := alters_update (receiveAll_pid _ _) hw
  refine ⟨w, ?_⟩
  rw [deliverPendingSignals_eq, deliverLoop_eq]
  split
  next => exact fun q => (fateOf_leave q).trans (halt q)
  next => exact halt

lemma fateOf_none : pm.fateOf pid = none ↔ pm.stateOf pid = none := by
  unfold fateOf stateOf
  rw [map_eq_none_iff, map_eq_none_iff]

/-- A new process, under a pid of its own. -/
lemma fateOf_insertProcess {p : Process} (h : pm.fateOf p.pid = none) (q : Pid) :
    (pm.insertProcess p).fateOf q = if q = p.pid then some p.fate else pm.fateOf q := by
  unfold fateOf at *
  rw [getProcess_insertProcess (map_eq_none_iff.mp h)]
  split <;> rfl

/-- `fork` adds a child that runs, or nothing. -/
lemma fork_fates {parent : Pid} {stack : Option Nat} (hnum : pm.WellNumbered)
    (h : (fork parent stack).after pm = some pm') :
    pm.Later pm' ∧ ∀ q, pm'.fateOf q = pm.fateOf q ∨
      pm.fateOf q = none ∧ pm.nextPid ≤ q ∧ ∃ a, pm'.fateOf q = some ⟨a, none⟩ := by
  have hfresh : pm.fateOf pm.nextPid = none := fateOf_none.mpr (hnum.fresh (Nat.le_refl _))
  have heq := Prog.after_eq h
  have hfork := fork_eq pm parent stack
  unfold Prog.after at h
  rw [hfork] at h heq
  by_cases hroom : pm.nextPid + 1 < 2 ^ 64
  · rw [if_pos hroom] at heq
    cases hp : pm.getProcess parent with
    | none =>
      rw [hp] at heq
      subst heq
      exact ⟨hnum.later_next, fun q => .inl rfl⟩
    | some p =>
      rw [hp] at heq
      subst heq
      refine ⟨hnum.later_insert rfl, fun q => ?_⟩
      have hins := fateOf_insertProcess (p := p.clone pm.nextPid stack)
        (show fateOf { pm with nextPid := pm.nextPid + 1 } _ = none from hfresh) q
      rw [hins]
      split
      next hq =>
        have hq : q = pm.nextPid := hq
        exact .inr ⟨hq ▸ hfresh, hq ▸ Nat.le_refl _, some p.pid, rfl⟩
      next => exact .inl rfl
  · rw [if_neg hroom] at h
    cases h

end Fates

/-! ## What a parent is told -/

/-- The children of a process that can be collected, in the order of the table. -/
def zombies (pm : ProcessManager) (parent : Pid) : List Process :=
  pm.processes.filter fun p => p.parentPid == some parent && p.state == .zombie

/-- The notice for the death of a process. -/
def noticeOf (parent : Pid) (p : Process) : Notice :=
    ⟨p.pid, parent, statusWord (p.exitCode.getD (-1))⟩

section Answers

variable {pm : ProcessManager} {caller : Pid}

/-- The table after `caller` has collected a child. -/
def collected (pm : ProcessManager) (caller : Pid) (child : Process) : ProcessManager :=
  { pm with
    currentPid := some caller
    processes := pm.processes.filter fun p => p.pid != child.pid }

lemma zombieChild_eq : pm.zombieChild caller = (pm.zombies caller).head? := head?_filter.symm

/-- A turn collects the first child that can be collected, and tells it if it was asked for. -/
lemma wait4_some {pid : Nat} (h : pm.zombieChild caller = some child) :
    pm.wait4 caller pid =
      (if pid = anyChild ∨ child.pid = pid then some (noticeOf caller child) else none,
        pm.collected caller child) := by
  have hwait : wait caller { pm with currentPid := some caller } =
      (some (child.pid, child.exitCode.getD (-1)), pm.collected caller child) := by
    unfold wait
    have hchild : zombieChild { pm with currentPid := some caller } caller = some child := h
    rw [hchild]
    rfl
  unfold wait4 sysWait4Turn
  dsimp only
  rw [hwait]
  by_cases hany : pid = anyChild
  · rw [if_pos hany, if_pos (.inl hany)]
    rfl
  · rw [if_neg hany]
    by_cases heq : child.pid = pid
    · subst heq
      simp [noticeOf]
    · rw [if_neg (not_or.mpr ⟨hany, heq⟩)]
      simp [heq]

/-- A turn that finds nobody tells nothing. -/
lemma wait4_none (pid : Nat) (h : pm.zombieChild caller = none) :
    (pm.wait4 caller pid).1 = none ∧
      ((pm.wait4 caller pid).2 = { pm with currentPid := some caller } ∨
        (pm.wait4 caller pid).2 =
          ({ pm with currentPid := some caller } : ProcessManager).setState caller .waiting) := by
  have hchild : zombieChild { pm with currentPid := some caller } caller = none := h
  have hwait : (wait caller { pm with currentPid := some caller }).1 = none ∧
      ((wait caller { pm with currentPid := some caller }).2 =
        { pm with currentPid := some caller } ∨
        (wait caller { pm with currentPid := some caller }).2 =
          ({ pm with currentPid := some caller } : ProcessManager).setState caller .waiting) := by
    unfold wait
    rw [hchild]
    dsimp only
    split
    next => exact ⟨rfl, .inr rfl⟩
    next => exact ⟨rfl, .inl rfl⟩
  obtain ⟨hnone, hpm⟩ := hwait
  unfold wait4 sysWait4Turn
  dsimp only
  rw [hnone]
  split
  next => exact ⟨rfl, hpm⟩
  next => exact ⟨rfl, hpm⟩

/-- Without the first child that can be collected, the others are still there. -/
lemma zombies_tail (hnum : pm.WellNumbered) {rest : List Process}
    (h : pm.zombies caller = child :: rest) :
      (pm.collected caller child).zombies caller = rest := by
  have hnodup : ((pm.zombies caller).map (·.pid)).Nodup := hnum.nodup.sublist (filter_sublist.map _)
  rw [h, map_cons, nodup_cons] at hnodup
  unfold zombies collected
  rw [filter_comm]
  show (pm.zombies caller).filter _ = rest
  rw [h, filter_cons_of_neg (by simp), filter_eq_self]
  intro p hp
  refine bne_iff_ne.mpr fun heq => hnodup.1 ?_
  rw [← heq]
  exact mem_map_of_mem hp

/-- The calls tell the notices in the order of the table. -/
lemma answers_eq (caller : Pid) (n : Nat) : ∀ {pm : ProcessManager}, pm.WellNumbered →
    pm.answers caller n = ((pm.zombies caller).map (noticeOf caller)).take n := by
  induction n with
  | zero =>
    intro pm _
    rfl
  | succ n ih =>
    intro pm hnum
    unfold answers
    cases hz : pm.zombies caller with
    | nil =>
      have hnone : pm.zombieChild caller = none := by
        rw [zombieChild_eq, hz]
        rfl
      obtain ⟨hansw, -⟩ := wait4_none anyChild hnone
      rcases hpair : pm.wait4 caller anyChild with ⟨answer, pm'⟩
      rw [hpair] at hansw
      cases hansw
      rfl
    | cons child rest =>
      have hsome : pm.zombieChild caller = some child := by
        rw [zombieChild_eq, hz]
        rfl
      rw [wait4_some hsome, if_pos (.inl rfl)]
      dsimp only
      have hnum' : (pm.collected caller child).WellNumbered :=
        (hnum.later_filter fun p => p.pid != child.pid).wellNumbered.congr rfl
      rw [ih hnum', zombies_tail hnum hz]
      rfl

/-- The child is dead, and can be collected with that status. -/
def Kept (pm : ProcessManager) (d : Notice) : Prop :=
  pm.fateOf d.child = some ⟨some d.parent, some (.zombie, d.status)⟩

instance (pm : ProcessManager) (d : Notice) : Decidable (pm.Kept d) :=
  inferInstanceAs (Decidable (_ = _))

/-- A notice is given to the parent by later calls exactly if its child can be collected. -/
lemma reportable_iff (hnum : pm.WellNumbered) (d : Notice) : pm.Reportable d ↔ pm.Kept d := by
  have hfate (p : Process) : p.fate = ⟨some d.parent, some (.zombie, d.status)⟩ ↔
      (p.parentPid = some d.parent ∧ p.state = .zombie) ∧
        statusWord (p.exitCode.getD (-1)) = d.status := by
    unfold Process.fate
    cases p.state <;> simp [ProcessState.live]
  constructor
  · intro ⟨n, hmem⟩
    rw [answers_eq d.parent n hnum] at hmem
    obtain ⟨p, hp, hnotice⟩ := mem_map.mp (mem_of_mem_take hmem)
    obtain ⟨hin, hzombie⟩ := mem_filter.mp hp
    rw [Bool.and_eq_true, beq_iff_eq, beq_iff_eq] at hzombie
    unfold Kept fateOf
    have hchild : d.child = p.pid := by rw [← hnotice]; rfl
    have hstatus : statusWord (p.exitCode.getD (-1)) = d.status := by rw [← hnotice]; rfl
    rw [hchild, hnum.getProcess_of_mem hin]
    exact congrArg some ((hfate p).mpr ⟨hzombie, hstatus⟩)
  · intro hkept
    obtain ⟨p, hp, hpfate⟩ := map_eq_some_iff.mp hkept
    obtain ⟨hzombie, hstatus⟩ := (hfate p).mp hpfate
    have hmem : p ∈ pm.zombies d.parent := by
      refine mem_filter.mpr ⟨mem_of_find?_eq_some hp, ?_⟩
      rw [Bool.and_eq_true, beq_iff_eq, beq_iff_eq]
      exact hzombie
    refine ⟨(pm.zombies d.parent).length, ?_⟩
    rw [answers_eq d.parent _ hnum, take_of_length_le (by rw [length_map])]
    refine mem_map.mpr ⟨p, hmem, ?_⟩
    unfold noticeOf
    rw [hstatus, getProcess_pid hp]

end Answers

end ProcessManager

/-! ## Histories -/

open ProcessManager

/-- The calls of a history. -/
inductive Ledger.Call where
  | fork (parent : Pid) (stack : Option Nat)
  | exit (pid : Pid) (exitCode : Int)
  | sendSignal (pid : Pid) (sig : Nat)
  | deliverPendingSignals (pid : Pid)
  /-- A turn of `sys_wait4`, made by a process that can run. -/
  | wait4 (caller : Pid) (pid : Nat)
  deriving DecidableEq, Repr

/-- What a call answers to a parent, and the table it leaves. -/
def Ledger.Call.run : Ledger.Call → ProcessManager → Option (Option Notice × ProcessManager)
  | .fork parent stack, pm => ((ProcessManager.fork parent stack).after pm).map (none, ·)
  | .exit pid exitCode, pm => some (none, pm.exit pid exitCode)
  | .sendSignal pid sig, pm => some (none, (ProcessManager.sendSignal pid sig pm).2)
  | .deliverPendingSignals pid, pm => some (none, (pm.deliverPendingSignals pid).2)
  | .wait4 caller pid, pm =>
    if liveState (pm.stateOf caller) then some (pm.wait4 caller pid) else none

/-- The notices that come about when a table changes: for those who could run, are dead
now and have a parent. -/
def newDeaths (pm pm' : ProcessManager) : List Notice :=
  pm'.processes.filterMap fun p =>
    match pm.fateOf p.pid, p.fate with
    | some ⟨_, none⟩, ⟨some parent, some (_, status)⟩ => some ⟨p.pid, parent, status⟩
    | _, _ => none

/-- The table, the notices that have come about and those that have been reported. -/
structure Ledger where
  pm : ProcessManager
  deaths : List Notice
  reported : List Notice

namespace Ledger

/-- A history that begins with this table. -/
def start (pm : ProcessManager) : Ledger := ⟨pm, [], []⟩

/-- The ledger after a call. -/
def step (c : Call) (s : Ledger) : Option Ledger :=
  (c.run s.pm).map fun r => ⟨r.2, s.deaths ++ newDeaths s.pm r.2, s.reported ++ r.1.toList⟩

/-- Nobody has been reported for this child. -/
def Open (s : Ledger) (d : Notice) : Prop := ∀ r ∈ s.reported, r.child ≠ d.child

instance (s : Ledger) (d : Notice) : Decidable (s.Open d) :=
  inferInstanceAs (Decidable (∀ r ∈ s.reported, r.child ≠ d.child))

/-- Every death is reported at most once, as it came about, and until then it can be. -/
structure Balanced (s : Ledger) : Prop where
  once : (s.reported.map (·.child)).Nodup
  own : ∀ r ∈ s.reported, r ∈ s.deaths
  kept : ∀ d ∈ s.deaths, s.Open d → s.pm.Reportable d

/-- The call leaves the ledger in balance. -/
def Suits (c : Call) (s : Ledger) : Prop :=
  match c with
  | .fork _ _ => True
  | .exit pid exitCode => ∀ x ∈ s.pm.fateOf pid, x.parent.isSome →
      ∀ w ∈ x.death, w.1 = .zombie → w.2 = statusWord exitCode
  | .sendSignal pid sig => ∀ x ∈ s.pm.fateOf pid, x.parent.isSome →
      (sig = sigkill → x.ended = some .terminated) ∧ (sig = sigstop → x.ended ≠ some .zombie)
  | .deliverPendingSignals pid => ∀ x ∈ s.pm.fateOf pid, x.parent.isSome →
      (s.pm.due pid .terminate → x.ended = some .terminated) ∧
      (s.pm.due pid .stop → x.ended ≠ some .zombie)
  | .wait4 caller pid => ∀ child ∈ s.pm.zombieChild caller, pid = anyChild ∨ child.pid = pid

instance (c : Call) (s : Ledger) : Decidable (Suits c s) := by
  unfold Suits
  cases c <;> infer_instance

/-- What holds of every ledger: the dead have been noted, and those who have been reported
are gone for good. -/
structure Sane (s : Ledger) : Prop where
  numbered : s.pm.WellNumbered
  noted : ∀ pid parent w, s.pm.fateOf pid = some ⟨some parent, some w⟩ →
    ∃ d ∈ s.deaths, d.child = pid
  gone : ∀ r ∈ s.reported, s.pm.fateOf r.child = none ∧ r.child < s.pm.nextPid

/-- A new death is that of a process that was alive. -/
lemma mem_newDeaths {pm pm' : ProcessManager} (hnum : pm'.WellNumbered) (d : Notice) :
    d ∈ newDeaths pm pm' ↔ (∃ a, pm.fateOf d.child = some ⟨a, none⟩) ∧
      ∃ s, pm'.fateOf d.child = some ⟨some d.parent, some (s, d.status)⟩ := by
  unfold newDeaths
  rw [mem_filterMap]
  constructor
  · intro ⟨p, hp, hd⟩
    have hp' : pm'.fateOf p.pid = some p.fate := congrArg (Option.map _) (hnum.getProcess_of_mem hp)
    split at hd
    next a parent s status hold hnew =>
      cases hd
      exact ⟨⟨a, hold⟩, s, hp'.trans (congrArg some hnew)⟩
    next => cases hd
  · intro ⟨⟨a, hold⟩, s, hnew⟩
    obtain ⟨p, hp, hfate⟩ := map_eq_some_iff.mp hnew
    refine ⟨p, mem_of_find?_eq_some hp, ?_⟩
    rw [getProcess_pid hp, hold, hfate]

section Step

/-- The ledger after a call that answers so and leaves this table. -/
def next (s : Ledger) (answer : Option Notice) (pm' : ProcessManager) : Ledger :=
  ⟨pm', s.deaths ++ newDeaths s.pm pm', s.reported ++ answer.toList⟩

/-- The ledger still makes sense, and is in balance exactly if `P`. -/
def Turns (s s' : Ledger) (P : Prop) : Prop := s'.Sane ∧ (s.Balanced → (s'.Balanced ↔ P))

variable {s : Ledger} {pm' : ProcessManager} {g : Fate → Fate} {pid caller : Pid} {x : Fate}

/-- A process that is in the table has not been reported. -/
lemma Sane.open_of_fate (hs : s.Sane) {d : Notice} (hx : s.pm.fateOf d.child = some x) :
    s.Open d := by
  intro r hr heq
  have hgone := (hs.gone r hr).1
  rw [heq, hx] at hgone
  cases hgone

/-- In balance, an open notice is the fate of its child. -/
lemma Balanced.kept_fate (hb : s.Balanced) (hs : s.Sane) {d : Notice} (hd : d ∈ s.deaths)
    (hopen : s.Open d) : s.pm.Kept d :=
  (reportable_iff hs.numbered d).mp (hb.kept d hd hopen)

/-- In balance, a dead child is the one its notice is about. -/
lemma Balanced.noted (hb : s.Balanced) (hs : s.Sane) {pid parent : Pid}
    {w : ProcessState × BitVec 32}
    (h : s.pm.fateOf pid = some ⟨some parent, some w⟩) :
    w.1 = .zombie ∧ ⟨pid, parent, w.2⟩ ∈ s.deaths := by
  obtain ⟨d, hd, rfl⟩ := hs.noted pid parent w h
  have hkept := hb.kept_fate hs hd (hs.open_of_fate h)
  unfold Kept at hkept
  rw [h] at hkept
  cases hkept
  exact ⟨rfl, hd⟩

/-- A call that reports nobody: the notices that are open and the new ones must be kept. -/
lemma balanced_next (hs : s.Sane) (hb : s.Balanced) (hnum : pm'.WellNumbered) :
    (s.next none pm').Balanced ↔
      ∀ d, d ∈ s.deaths ∧ s.Open d ∨ d ∈ newDeaths s.pm pm' → pm'.Kept d := by
  rw [next, toList_none, append_nil]
  constructor
  · rintro hb' d (⟨hd, hopen⟩ | hnew)
    · exact (reportable_iff hnum d).mp (hb'.kept d (mem_append_left _ hd) hopen)
    · obtain ⟨⟨a, hlive⟩, -⟩ := (mem_newDeaths hnum d).mp hnew
      exact (reportable_iff hnum d).mp
        (hb'.kept d (mem_append_right _ hnew) (hs.open_of_fate hlive))
  · intro h
    refine ⟨hb.once, fun r hr => mem_append_left _ (hb.own r hr), fun d hd hopen => ?_⟩
    exact (reportable_iff hnum d).mpr (h d ((mem_append.mp hd).imp_left fun hold => ⟨hold, hopen⟩))

/-- A call that reports nobody and changes the fate of one process. -/
lemma balanced_alters (hs : s.Sane) (hb : s.Balanced) (hnum : pm'.WellNumbered)
    (halt : Alters s.pm pm' pid g) (hparent : ∀ x, (g x).parent = x.parent) :
    (s.next none pm').Balanced ↔
      ∀ x ∈ s.pm.fateOf pid, x.parent.isSome →
        (x.ended = none → (g x).ended = none ∨ (g x).ended = some .zombie) ∧
        (x.ended = some .zombie → (g x).death = x.death) := by
  have hpid : pm'.fateOf pid = (s.pm.fateOf pid).map g := by
    rw [halt pid, if_pos rfl]
  rw [balanced_next hs hb hnum]
  constructor
  · rintro h ⟨parent, death⟩ hx hsome
    have hx : s.pm.fateOf pid = some ⟨parent, death⟩ := hx
    rw [hx] at hpid
    obtain ⟨parent, rfl⟩ := isSome_iff_exists.mp hsome
    have hgx : g ⟨some parent, death⟩ = ⟨some parent, (g ⟨some parent, death⟩).death⟩ :=
      Fate.ext (hparent _) rfl
    refine ⟨fun hlive => ?_, fun hzombie => ?_⟩
    · cases map_eq_none_iff.mp hlive
      cases hdeath : (g ⟨some parent, none⟩).death with
      | none => exact .inl (congrArg (Option.map _) hdeath)
      | some w =>
        -- the process has just died, so its notice is new
        rw [hdeath] at hgx
        have hnew : (⟨pid, parent, w.2⟩ : Notice) ∈ newDeaths s.pm pm' :=
          (mem_newDeaths hnum _).mpr ⟨⟨some parent, hx⟩, w.1, hpid.trans (congrArg some hgx)⟩
        have hkept := hpid.symm.trans (h _ (.inr hnew))
        exact .inr (congrArg Fate.ended (some.inj hkept))
    · obtain ⟨w, hw, hwz⟩ := map_eq_some_iff.mp hzombie
      cases hw
      obtain ⟨-, hd⟩ := hb.noted hs hx
      have hkept := hpid.symm.trans (h _ (.inl ⟨hd, hs.open_of_fate hx⟩))
      rw [some.inj hkept, ← hwz]
  · rintro h d (⟨hold, hopen⟩ | hnew)
    · have hkept := hb.kept_fate hs hold hopen
      unfold Kept at hkept ⊢
      rw [halt d.child]
      split
      next heq =>
        rw [heq] at hkept
        have hdeath := (h _ hkept rfl).2 rfl
        rw [hkept, map_some]
        exact congrArg some (Fate.ext (hparent _) hdeath)
      next => exact hkept
    · obtain ⟨⟨a, hlive⟩, st, hdead⟩ := (mem_newDeaths hnum d).mp hnew
      have hchild : d.child = pid := by
        by_contra hne
        rw [halt d.child, if_neg hne, hlive] at hdead
        cases hdead
      unfold Kept
      rw [hchild] at hlive hdead ⊢
      rw [hpid, hlive, map_some] at hdead ⊢
      have hgx := some.inj hdead
      have ha : a = some d.parent := (hparent ⟨a, none⟩).symm.trans (congrArg Fate.parent hgx)
      rw [hgx]
      rcases (h _ hlive (by rw [ha]; rfl)).1 rfl with hno | hzombie
      · rw [hgx] at hno
        cases hno
      · rw [hgx] at hzombie
        cases hzombie
        rfl

/-- A table in which the dead have died before or have just died. -/
lemma Sane.next (hs : s.Sane) (answer : Option Notice) (hlater : s.pm.Later pm')
    (hdead : ∀ pid parent w, pm'.fateOf pid = some ⟨some parent, some w⟩ →
      (∃ a, s.pm.fateOf pid = some ⟨a, none⟩) ∨ ∃ w', s.pm.fateOf pid = some ⟨some parent, some w'⟩)
    (hanswer : ∀ r ∈ answer, pm'.fateOf r.child = none ∧ r.child < pm'.nextPid) :
    (s.next answer pm').Sane where
  numbered := hlater.wellNumbered
  noted := by
    intro pid parent w hfate
    rcases hdead pid parent w hfate with hlive | ⟨w', hold⟩
    · exact ⟨⟨pid, parent, w.2⟩,
        mem_append_right _ ((mem_newDeaths hlater.wellNumbered _).mpr ⟨hlive, w.1, hfate⟩), rfl⟩
    · obtain ⟨d, hd, hchild⟩ := hs.noted pid parent w' hold
      exact ⟨d, mem_append_left _ hd, hchild⟩
  gone := by
    intro r hr
    rcases mem_append.mp hr with hold | hnew
    · obtain ⟨hnone, hlt⟩ := hs.gone r hold
      exact ⟨fateOf_none.mpr (hlater.stateOf_none hlt (fateOf_none.mp hnone)),
        Nat.lt_of_lt_of_le hlt hlater.next⟩
    · exact hanswer r (mem_toList.mp hnew)

/-- A history stays sane if parents stay. -/
lemma Sane.next_alters (hs : s.Sane) (hlater : s.pm.Later pm')
    (halt : Alters s.pm pm' pid g) (hparent : ∀ x, (g x).parent = x.parent) :
    (s.next none pm').Sane := by
  refine hs.next none hlater (fun q parent w hfate => ?_) nofun
  rw [halt q] at hfate
  split at hfate
  next heq =>
    obtain ⟨x, hx, hgx⟩ := map_eq_some_iff.mp hfate
    have hpar : x.parent = some parent := (hparent x).symm.trans (congrArg Fate.parent hgx)
    rw [heq, hx]
    cases hdeath : x.death with
    | none => exact .inl ⟨x.parent, congrArg some (Fate.ext rfl hdeath)⟩
    | some w' => exact .inr ⟨w', congrArg some (Fate.ext hpar hdeath)⟩
  next => exact .inr ⟨w, hfate⟩

/-! ### The calls that report nobody -/

/-- `fork`, in a history. -/
lemma step_fork {parent : Pid} {stack : Option Nat} (hs : s.Sane)
    (h : (fork parent stack).after s.pm = some pm') :
    Turns s (s.next none pm') True := by
  obtain ⟨hlater, hfates⟩ := fork_fates hs.numbered h
  refine ⟨hs.next none hlater (fun pid p w hfate => ?_) nofun, fun hb => ?_⟩
  · rcases hfates pid with hsame | ⟨_, _, a, hnew⟩
    · exact .inr ⟨w, hsame ▸ hfate⟩
    · exact nomatch hnew.symm.trans hfate
  · refine iff_true_intro ((balanced_next hs hb hlater.wellNumbered).mpr ?_)
    rintro d (⟨hold, hopen⟩ | hnew)
    · have hkept := hb.kept_fate hs hold hopen
      rcases hfates d.child with hsame | ⟨hnone, _⟩
      · exact hsame.trans hkept
      · exact nomatch hnone.symm.trans hkept
    · obtain ⟨⟨a, hlive⟩, st, hdead⟩ := (mem_newDeaths hlater.wellNumbered d).mp hnew
      rcases hfates d.child with hsame | ⟨hnone, _⟩
      · exact nomatch hlive.symm.trans (hsame.symm.trans hdead)
      · exact nomatch hnone.symm.trans hlive

/-- A call that changes the fate of one process stays in balance exactly if it is safe for it. -/
lemma step_alters (hs : s.Sane) {P : Prop}
    (hnumbering : pm'.numbering = s.pm.numbering) (halt : Alters s.pm pm' pid g)
    (hparent : ∀ x, (g x).parent = x.parent)
    (hP : P ↔ ∀ x ∈ s.pm.fateOf pid, x.parent.isSome →
      (x.ended = none → (g x).ended = none ∨ (g x).ended = some .zombie) ∧
      (x.ended = some .zombie → (g x).death = x.death)) :
    Turns s (s.next none pm') P := by
  have hlater := hs.numbered.later_same hnumbering
  refine ⟨hs.next_alters hlater halt hparent, fun hb => ?_⟩
  rw [hP]
  exact balanced_alters hs hb hlater.wellNumbered halt hparent

/-- `exit`, in a history. -/
lemma step_exit (hs : s.Sane) (pid : Pid) (exitCode : Int) :
    Turns s (s.next none (s.pm.exit pid exitCode)) (Suits (.exit pid exitCode) s) := by
  refine step_alters hs (numbering_exit _) (exit_alters exitCode) (fun x => rfl) ?_
  refine forall₃_congr fun x _ _ => ?_
  constructor
  · intro h
    refine ⟨fun _ => .inr rfl, fun hzombie => ?_⟩
    obtain ⟨w, hw, hwz⟩ := map_eq_some_iff.mp hzombie
    have hstatus := h w hw hwz
    show some (.zombie, statusWord exitCode) = x.death
    rw [hw, ← hstatus, ← hwz]
  · intro ⟨_, h⟩ w hw hwz
    have hw : x.death = some w := hw
    have hdeath := h (by unfold Fate.ended; rw [hw, ← hwz]; rfl)
    have heq := some.inj (hw.symm.trans hdeath.symm)
    exact congrArg Prod.snd heq

/-- Whoever is made to die by a signal must be dead by one already. -/
lemma killed_iff {w : BitVec 32} :
    (x.ended = none → (x.withDeath (some (.terminated, w))).ended = none ∨
      (x.withDeath (some (.terminated, w))).ended = some .zombie) ∧
    (x.ended = some .zombie → (x.withDeath (some (.terminated, w))).death = x.death) ↔
      x.ended ≠ none ∧ x.ended ≠ some .zombie := by
  constructor
  · intro ⟨hlive, hzombie⟩
    refine ⟨fun hnone => ?_, fun hz => ?_⟩
    · rcases hlive hnone with hno | hno
      · cases hno
      · cases hno
    · have hdeath := congrArg (Option.map Prod.fst) (hzombie hz)
      have hz : x.death.map Prod.fst = some .zombie := hz
      rw [hz] at hdeath
      cases hdeath
  · intro ⟨hlive, hzombie⟩
    exact ⟨fun hnone => absurd hnone hlive, fun hz => absurd hz hzombie⟩

/-- Whoever is stopped must not be dead and open. -/
lemma stopped_iff :
    (x.ended = none → (x.withDeath none).ended = none ∨ (x.withDeath none).ended = some .zombie) ∧
    (x.ended = some .zombie → (x.withDeath none).death = x.death) ↔ x.ended ≠ some .zombie := by
  constructor
  · intro ⟨_, hzombie⟩ hz
    have hdeath : none = x.death := hzombie hz
    unfold Fate.ended at hz
    rw [← hdeath] at hz
    cases hz
  · intro hzombie
    exact ⟨fun _ => .inl rfl, fun hz => absurd hz hzombie⟩

/-- A fate in the table ends as a zombie or as terminated, or not yet. -/
lemma terminated_iff {pm : ProcessManager} (hx : x ∈ pm.fateOf pid) :
    x.ended = some .terminated ↔ x.ended ≠ none ∧ x.ended ≠ some .zombie := by
  obtain ⟨p, -, rfl⟩ := map_eq_some_iff.mp hx
  unfold Process.fate Fate.ended
  cases p.state <;> simp [ProcessState.live]

/-- `send_signal`, in a history. -/
lemma step_sendSignal (hs : s.Sane) (pid : Pid) (sig : Nat)
    (hpm : (sendSignal pid sig s.pm).2 = pm') :
    Turns s (s.next none pm') (Suits (.sendSignal pid sig) s) := by
  have hnumbering : pm'.numbering = s.pm.numbering := hpm ▸ numbering_sendSignal sig
  have halters := sendSignal_alters pid sig s.pm
  rw [hpm] at halters
  rcases halters with ⟨hsig, -, halt⟩ | ⟨hsig, -, halt⟩ | ⟨hsig, halt⟩
  · refine step_alters hs hnumbering halt (fun x => rfl) ?_
    refine forall₃_congr fun x hx _ => ?_
    rw [killed_iff, ← terminated_iff hx]
    refine ⟨fun h => h.1 hsig, fun h => ⟨fun _ => h, fun hstop => ?_⟩⟩
    exact nomatch hsig.symm.trans hstop
  · refine step_alters hs hnumbering halt (fun x => rfl) ?_
    refine forall₃_congr fun x hx _ => ?_
    rw [stopped_iff]
    refine ⟨fun h => h.2 hsig, fun h => ⟨fun hkill => ?_, fun _ => h⟩⟩
    exact nomatch hsig.symm.trans hkill
  · refine step_alters hs hnumbering halt (fun x => rfl) ?_
    refine iff_of_true (fun x hx _ => ⟨fun hkill => hsig (.inl hkill) x hx, fun hstop => ?_⟩)
      fun x _ _ => ⟨fun hnone => .inl hnone, fun _ => rfl⟩
    rw [hsig (.inr hstop) x hx]
    exact nofun

/-- Delivery, in a history. -/
lemma step_deliverPendingSignals (hs : s.Sane) (pid : Pid)
    (hpm : pm' = (s.pm.deliverPendingSignals pid).2) :
    Turns s (s.next none pm') (Suits (.deliverPendingSignals pid) s) := by
  have hnumbering : pm'.numbering = s.pm.numbering := hpm ▸ numbering_deliverPendingSignals
  obtain ⟨w, halt⟩ := deliverPendingSignals_alters pid s.pm
  rw [← hpm] at halt
  simp only [Suits]
  cases hterm : s.pm.due pid .terminate with
  | true =>
    rw [hterm] at halt
    refine step_alters hs hnumbering halt (fun x => rfl) (forall₃_congr fun x hx _ => ?_)
    rw [dealt, killed_iff, ← terminated_iff hx]
    refine ⟨fun h => h.1 rfl, fun h => ⟨fun _ => h, fun _ => ?_⟩⟩
    rw [h]
    exact nofun
  | false =>
    cases hstop : s.pm.due pid .stop with
    | true =>
      rw [hterm, hstop] at halt
      refine step_alters hs hnumbering halt (fun x => rfl) (forall₃_congr fun x hx _ => ?_)
      rw [dealt, stopped_iff]
      exact ⟨fun h => h.2 rfl, fun h => ⟨nofun, fun _ => h⟩⟩
    | false =>
      rw [hterm, hstop] at halt
      refine step_alters hs hnumbering halt (fun x => rfl) ?_
      exact iff_of_true (fun x _ _ => ⟨nofun, nofun⟩) fun x _ _ =>
        ⟨fun hnone => .inl hnone, fun _ => rfl⟩

/-! ### Waiting -/

lemma fateOf_collected (pm : ProcessManager) (caller : Pid) (child : Process) (q : Pid) :
    (pm.collected caller child).fateOf q = if q = child.pid then none else pm.fateOf q := by
  refine (congrArg (Option.map _) getProcess_filter).trans ?_
  split <;> rfl

/-- A child that can be collected is dead, and nobody's but the caller's. -/
lemma fateOf_zombieChild {pm : ProcessManager} (hnum : pm.WellNumbered)
    (h : pm.zombieChild caller = some child) :
    pm.fateOf child.pid = some ⟨some caller, some (.zombie, (noticeOf caller child).status)⟩ := by
  have hzombie := find?_some h
  rw [Bool.and_eq_true, beq_iff_eq, beq_iff_eq] at hzombie
  unfold fateOf
  rw [hnum.getProcess_of_mem (mem_of_find?_eq_some h), map_some]
  refine congrArg some (Fate.ext hzombie.1 ?_)
  unfold Process.fate noticeOf
  rw [hzombie.2]
  rfl

/-- A turn of `sys_wait4` that collects a child: it is reported, if it was asked for. -/
lemma step_collect (hs : s.Sane) {pid : Nat}
    (h : s.pm.zombieChild caller = some child) :
    Turns s
      (s.next (if pid = anyChild ∨ child.pid = pid then some (noticeOf caller child) else none)
        (s.pm.collected caller child))
      (pid = anyChild ∨ child.pid = pid) := by
  have hfates := fateOf_collected s.pm caller child
  have hchild := fateOf_zombieChild hs.numbered h
  have hlater : s.pm.Later (s.pm.collected caller child) :=
    (hs.numbered.later_filter fun p => p.pid != child.pid).congr rfl
  have hlow : child.pid < s.pm.nextPid :=
    hs.numbered.bound _ (mem_map_of_mem (mem_of_find?_eq_some h))
  -- nobody dies by being collected
  have hnew : ∀ d ∈ newDeaths s.pm (s.pm.collected caller child), False := by
    intro d hd
    obtain ⟨⟨a, hlive⟩, st, hdead⟩ := (mem_newDeaths hlater.wellNumbered d).mp hd
    rw [hfates] at hdead
    split at hdead
    next => cases hdead
    next => exact nomatch hlive.symm.trans hdead
  refine ⟨hs.next _ hlater (fun q parent w hfate => ?_) fun r hr => ?_, fun hb => ?_⟩
  · rw [hfates] at hfate
    split at hfate
    next => cases hfate
    next => exact .inr ⟨w, hfate⟩
  · split at hr
    next =>
      cases hr
      exact ⟨(hfates child.pid).trans (if_pos rfl), Nat.lt_of_lt_of_le hlow hlater.next⟩
    next => cases hr
  · have hnoted : noticeOf caller child ∈ s.deaths := (hb.noted hs hchild).2
    have hopen : s.Open (noticeOf caller child) := hs.open_of_fate hchild
    by_cases hasked : pid = anyChild ∨ child.pid = pid
    · rw [if_pos hasked]
      refine iff_of_true ⟨?_, fun r hr => ?_, fun d hd hopen' => ?_⟩ hasked
      · show ((s.reported ++ [noticeOf caller child]).map (·.child)).Nodup
        rw [map_append, nodup_append]
        refine ⟨hb.once, nodup_singleton _, fun a ha b hbmem => ?_⟩
        obtain ⟨r, hr, rfl⟩ := mem_map.mp ha
        rw [mem_singleton.mp hbmem]
        exact hopen r hr
      · rcases mem_append.mp hr with hold | hlast
        · exact mem_append_left _ (hb.own r hold)
        · rw [mem_singleton.mp hlast]
          exact mem_append_left _ hnoted
      · rcases mem_append.mp hd with hold | hfresh
        · refine (reportable_iff hlater.wellNumbered d).mpr ?_
          have hne : d.child ≠ child.pid := Ne.symm
            (hopen' (noticeOf caller child) (mem_append_right _ mem_cons_self))
          have hkept := hb.kept_fate hs hold fun r hr => hopen' r (mem_append_left _ hr)
          unfold Kept at hkept ⊢
          rw [hfates, if_neg hne]
          exact hkept
        · exact absurd hfresh (hnew d)
    · rw [if_neg hasked]
      refine iff_of_false (fun hb' => ?_) hasked
      have hkept := (balanced_next hs hb hlater.wellNumbered).mp hb' _ (.inl ⟨hnoted, hopen⟩)
      exact nomatch ((hfates child.pid).trans (if_pos rfl)).symm.trans hkept

/-- A turn of `sys_wait4`. -/
lemma step_wait4 (hs : s.Sane) {pid : Nat} (hlive : liveState (s.pm.stateOf caller))
    {answer : Option Notice} (h : s.pm.wait4 caller pid = (answer, pm')) :
    Turns s (s.next answer pm') (Suits (.wait4 caller pid) s) := by
  cases hz : s.pm.zombieChild caller with
  | some child =>
    rw [wait4_some hz] at h
    cases h
    have hsuits : Suits (.wait4 caller pid) s ↔ (pid = anyChild ∨ child.pid = pid) := by
      show (∀ c ∈ s.pm.zombieChild caller, pid = anyChild ∨ c.pid = pid) ↔ _
      rw [hz]
      exact ⟨fun h => h child rfl, fun h c hc => some.inj hc ▸ h⟩
    rw [hsuits]
    exact step_collect hs hz
  | none =>
    obtain ⟨hanswer, hpm⟩ := wait4_none pid hz
    rw [h] at hanswer hpm
    cases hanswer
    have hsuits : Suits (.wait4 caller pid) s := by
      show ∀ c ∈ s.pm.zombieChild caller, pid = anyChild ∨ c.pid = pid
      rw [hz]
      exact nofun
    -- the caller can run, before and after
    have halt : Alters s.pm pm' caller id := by
      rcases hpm with rfl | rfl
      · exact alters_id.mpr fun q => rfl
      · refine alters_id.mpr fun q => ?_
        have hset : (({ s.pm with currentPid := some caller } : ProcessManager).setState caller
            .waiting).fateOf q = if q = caller then (s.pm.fateOf caller).map (.withDeath none)
            else s.pm.fateOf q := alters_setState rfl q
        rw [hset]
        split
        next heq =>
          subst heq
          unfold fateOf
          cases hp : s.pm.getProcess q with
          | none => rfl
          | some p =>
            have hrun : p.state.live = true := by
              unfold stateOf at hlive
              rw [hp] at hlive
              exact hlive
            refine congrArg some (Fate.ext rfl ?_)
            unfold Process.fate
            rw [hrun]
            rfl
        next => rfl
    have hnumbering : pm'.numbering = s.pm.numbering := by
      rcases hpm with rfl | rfl
      · rfl
      · exact numbering_setState _
    refine step_alters hs hnumbering halt (fun x => rfl) ?_
    exact iff_of_true hsuits fun x _ _ => ⟨fun hnone => .inl hnone, fun _ => rfl⟩

end Step

/-- What one call does: it leaves a ledger that makes sense, in balance exactly if it suits. -/
lemma step_spec (c : Call) {s s' : Ledger} (hs : s.Sane) (h : step c s = some s') :
    Turns s s' (Suits c s) := by
  obtain ⟨⟨answer, pm'⟩, hrun, rfl⟩ := map_eq_some_iff.mp h
  cases c with
  | fork parent stack =>
    obtain ⟨pm₁, hafter, heq⟩ := map_eq_some_iff.mp hrun
    cases heq
    exact step_fork hs hafter
  | exit pid exitCode =>
    cases hrun
    exact step_exit hs pid exitCode
  | sendSignal pid sig =>
    cases hrun
    exact step_sendSignal hs pid sig rfl
  | deliverPendingSignals pid =>
    cases hrun
    exact step_deliverPendingSignals hs pid rfl
  | wait4 caller pid =>
    have hrun : (if liveState (s.pm.stateOf caller) then some (s.pm.wait4 caller pid) else none) =
      some (answer, pm') := hrun
    split at hrun
    next hlive => exact step_wait4 hs hlive (some.inj hrun)
    next => cases hrun

/-- A table to begin with: nobody's child is dead. -/
structure Fresh (pm : ProcessManager) : Prop where
  numbered : pm.WellNumbered
  alive : ∀ pid parent w, pm.fateOf pid ≠ some ⟨some parent, some w⟩

/-- Every dead child is reported exactly once or can still be, throughout a history, exactly if
each of its calls suits the state it is made in. -/
theorem balanced_iff {pm : ProcessManager} (h : Fresh pm) (calls : List Call) :
    Always step Balanced calls (start pm) ↔ Along step Suits calls (start pm) := by
  have hsane : (start pm).Sane :=
    ⟨h.numbered, fun pid parent w hfate => absurd hfate (h.alive pid parent w), nofun⟩
  have hbalanced : (start pm).Balanced := ⟨nodup_nil, nofun, nofun⟩
  refine always_iff_along (W := Sane) (fun c s s' hs hstep => ?_) (fun c s s' hs hb hstep => ?_)
    calls hsane hbalanced
  · exact (step_spec c hs hstep).1
  · exact (step_spec c hs hstep).2 hb

/-- A table with one process, which has no parent. -/
def alone : ProcessManager := ⟨[.new 1], none, 2⟩

lemma alone_fresh : Fresh alone where
  numbered := ⟨by decide, by decide⟩
  alive pid parent w h := by
    obtain ⟨p, hp, hfate⟩ := map_eq_some_iff.mp h
    rw [mem_singleton.mp (mem_of_find?_eq_some hp)] at hfate
    cases hfate

/-- A child exits and is waited for. -/
theorem balanced_one_child :
    Always step Balanced [.fork 1 none, .exit 2 7, .wait4 1 anyChild] (start alone) :=
  (balanced_iff alone_fresh _).mpr (by decide)

/-- In every history no pid is used twice, every child that died has been noted, and one that was
reported is gone for good. -/
theorem sane_run {pm : ProcessManager} (h : Fresh pm) (calls : List Call) :
    Always step Sane calls (start pm) :=
  always_of_along (fun c _ _ hs hstep _ => (step_spec c hs hstep).1)
    ⟨h.numbered, fun pid parent w hfate => absurd hfate (h.alive pid parent w),
      fun _ hr => absurd hr not_mem_nil⟩ (along_true calls _)

/-- Two children; the first exits, and the parent waits for the second. -/
def waitForOther : List Call := [.fork 1 none, .fork 1 none, .exit 2 7, .wait4 1 3]

/-- The ledger stays sane all the same. -/
theorem sane_run_lost : Always step Sane waitForOther (start alone) := sane_run alone_fresh _

/-- The ledger they lead to. -/
def otherLost : Ledger := (trace step waitForOther (start alone)).get rfl

/-- The first child has been taken out of the table, and nobody has been told. -/
theorem wait_for_other_loses : ¬ Always step Balanced waitForOther (start alone) := by
  intro h
  have hb : otherLost.Balanced := h waitForOther _ prefix_rfl (some_get _).symm
  have hnum : otherLost.pm.WellNumbered := ⟨by decide, by decide⟩
  have hkept := (reportable_iff hnum _).mp (hb.kept ⟨2, 1, statusWord 7⟩ (by decide) (by decide))
  exact absurd hkept (by decide)

end Ledger

end RustOs.Proc
