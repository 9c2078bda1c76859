import RustOs.Syscall.PipeEnds
import RustOs.Lib.Trace

/-!
# Pipes over whole sequences of calls

`History` adds to the kernel what cannot be seen in it: which pipe a descriptor was opened for,
and what went into each pipe and came out. `Sound` is the property that ends are open as long as
they have descriptors, together with what follows from it: a slot is not given to a new pipe
while a descriptor stands for the old one, a reader is told of the end of a pipe only when there
is no writer, and what is read from a pipe is what was written to that pipe.

`step_live_iff` is the step lemma: a call keeps the ends in order exactly if it suits. `Inv.step`
carries the byte streams along, and `pipes_sound_iff` says which sequences of calls keep it all.
-/

namespace RustOs.Syscall

open Lib Nat Option Kernel
open Proc (Pid)
open Kernel (setAt)
open Function

/-! ## Histories -/

/-- The kernel and its past. Pipes are numbered in the order in which they were opened. -/
structure History where
  kernel : Kernel
  nextPid : Pid
  /-- How many pipes there have been. -/
  opened : Nat
  /-- The number of the pipe in a slot. -/
  inSlot : Nat → Nat
  /-- The number of the pipe a descriptor was opened for. -/
  openedFor : Option Pid → Nat → Nat
  written : Nat → List UInt8
  taken : Nat → List UInt8
  /-- A reader was told of the end of a pipe that had a writer. -/
  early : Prop

/-- The calls. Each is made by a process, or by the kernel. -/
inductive Move where
  | pipe (cur : Option Pid) (pipefd : Nat)
  | dup (cur : Option Pid) (oldFd : Nat)
  | dup2 (cur : Option Pid) (oldFd newFd : Nat)
  | close (cur : Option Pid) (fd : Nat)
  | spawn
  | fork (parentPid : Pid)
  | exit (pid : Pid)
  | read (cur : Option Pid) (fd bufPtr count : Nat)
  | write (cur : Option Pid) (fd bufPtr : Nat) (data : List UInt8)

namespace History

/-- The kernel, with a process running. -/
def as (h : History) (cur : Option Pid) : Kernel := { h.kernel with current := cur }

/-- The history of a kernel that has just started. -/
def boot (vfs : Fs.Vfs) (keys : List UInt8) : History where
  kernel := ⟨vfs, .new, .init, none, keys⟩
  nextPid := 1
  opened := 0
  inSlot _ := 0
  openedFor _ _ := 0
  written _ := []
  taken _ := []
  early := False

/-- One call; none if it does not come back. -/
def step : Move → History → Option History
  | .pipe cur pipefd, h =>
    let r := Kernel.sysPipe pipefd (h.as cur)
    match r.2.1, h.kernel.pipes.create with
    | some (readFd, writeFd), some (id, _) => some { h with
        kernel := r.2.2
        opened := h.opened + 1
        inSlot := Function.update h.inSlot id h.opened
        openedFor := setAt (setAt h.openedFor (h.as cur).owner readFd h.opened)
          (h.as cur).owner writeFd h.opened }
    | _, _ => some { h with kernel := r.2.2 }
  | .dup cur oldFd, h =>
    let r := Kernel.sysDup oldFd (h.as cur)
    some { h with
      kernel := r.2
      openedFor := if r.1 < 0 then h.openedFor else
        setAt h.openedFor (h.as cur).owner r.1.toNat (h.openedFor (h.as cur).owner oldFd) }
  | .dup2 cur oldFd newFd, h =>
    let r := Kernel.sysDup2 oldFd newFd (h.as cur)
    some { h with
      kernel := r.2
      openedFor := if r.1 < 0 then h.openedFor else
        setAt h.openedFor (h.as cur).owner newFd (h.openedFor (h.as cur).owner oldFd) }
  | .close cur fd, h => some { h with kernel := (Kernel.sysClose fd (h.as cur)).2 }
  | .spawn, h => some { h with
      kernel := { h.kernel with fds := h.kernel.fds.registerProcess h.nextPid .withStdio }
      nextPid := h.nextPid + 1 }
  | .fork parentPid, h => some { h with
      kernel := { h.kernel with fds := h.kernel.fds.cloneProcessFds parentPid h.nextPid }
      nextPid := h.nextPid + 1
      openedFor := fun o fd =>
        if o = some h.nextPid then h.openedFor (some parentPid) fd else h.openedFor o fd }
  | .exit pid, h => some { h with
      kernel := { h.kernel with fds := h.kernel.fds.unregisterProcess pid } }
  | .read cur fd bufPtr count, h =>
    match Kernel.sysRead fd bufPtr count (h.as cur) with
    | (.ok (rax, bytes), k) =>
      match (h.as cur).readsPipe fd bufPtr count with
      | none => some { h with kernel := k }
      | some id =>
        let n := h.openedFor (h.as cur).owner fd
        some { h with
          kernel := k
          taken := Function.update h.taken n (h.taken n ++ bytes)
          early := h.early ∨ (rax = 0 ∧ Held h.kernel.fds.kindAt .write id) }
    | _ => none
  | .write cur fd bufPtr data, h =>
    match Kernel.sysWrite fd bufPtr data (h.as cur) with
    | (.ok rax, k) =>
      match (h.as cur).writesPipe fd bufPtr data with
      | none => some { h with kernel := k }
      | some _ =>
        let n := h.openedFor (h.as cur).owner fd
        some { h with
          kernel := k
          written := Function.update h.written n (h.written n ++ data.take rax.toNat) }
    | _ => none

/-- Ends are open as the descriptors say, a descriptor's pipe is still in its slot, readers are
told the truth, and what comes out of a pipe went into it. -/
structure Sound (h : History) : Prop where
  live : Live h.kernel
  slots : ∀ o fd (e : End) id, h.kernel.fds.kindAt o fd = some (e.kind id) →
    h.openedFor o fd = h.inSlot id
  early : ¬ h.early
  streams : ∀ n, h.taken n <+: h.written n

/-- The calls that do no harm. -/
def Suits : Move → History → Prop
  | .close cur fd, h => CloseSuits (h.as cur) fd
  | .dup2 cur oldFd newFd, h => Dup2Suits (h.as cur) oldFd newFd
  | .exit pid, h => ExitSuits h.kernel pid
  | .read cur fd bufPtr count, h => ReadSuits (h.as cur) fd bufPtr count
  | _, _ => True

/-- Pids that have not been handed out have no table. -/
def Numbered (h : History) : Prop := ∀ pid, h.nextPid ≤ pid → h.kernel.fds.get (some pid) = none

/-! ## One call -/

section Step

variable {h h' : History} {cur : Option Pid}

lemma Numbered.kindAt (hn : Numbered h) {pid : Pid} (hpid : h.nextPid ≤ pid) (fd : Nat) :
    h.kernel.fds.kindAt (some pid) fd = none := by
  unfold FdTables.kindAt
  rw [hn pid hpid]
  rfl

/-- The two ways a read can go. -/
lemma step_read {fd bufPtr count : Nat}
    (hs : step (.read cur fd bufPtr count) h = some h') :
    ((h.as cur).readsPipe fd bufPtr count = none ∧
      h' = { h with kernel := (Kernel.sysRead fd bufPtr count (h.as cur)).2 } ∧
      h'.kernel.fds.kindAt = h.kernel.fds.kindAt ∧ h'.kernel.pipes = h.kernel.pipes) ∨
    ∃ id rax bytes k, (h.as cur).readsPipe fd bufPtr count = some id ∧
      Kernel.readPipe id count (h.as cur) = (.ok (rax, bytes), k) ∧ h' = { h with
        kernel := k
        taken := update h.taken (h.openedFor (h.as cur).owner fd)
          (h.taken (h.openedFor (h.as cur).owner fd) ++ bytes)
        early := h.early ∨ (rax = 0 ∧ Held h.kernel.fds.kindAt .write id) } := by
  dsimp only [step] at hs
  split at hs
  next rax bytes k hr =>
    cases hpipe : (h.as cur).readsPipe fd bufPtr count with
    | none =>
      obtain ⟨hkinds, hpipes⟩ := sysRead_other hpipe
      rw [hpipe] at hs
      rw [hr] at hkinds hpipes ⊢
      cases hs
      exact .inl ⟨rfl, rfl, hkinds, hpipes⟩
    | some id =>
      rw [hpipe] at hs
      cases hs
      exact .inr ⟨id, rax, bytes, k, rfl, (sysRead_pipe hpipe).2.2.symm.trans hr, rfl⟩
  next => cases hs

lemma step_write {fd bufPtr : Nat} {data : List UInt8}
    (hs : step (.write cur fd bufPtr data) h = some h') :
    ((h.as cur).writesPipe fd bufPtr data = none ∧
      h' = { h with kernel := (Kernel.sysWrite fd bufPtr data (h.as cur)).2 } ∧
      h'.kernel.fds = h.kernel.fds ∧ h'.kernel.pipes = h.kernel.pipes) ∨
    ∃ id rax k, (h.as cur).writesPipe fd bufPtr data = some id ∧
      Kernel.writePipe id data (h.as cur) = (.ok rax, k) ∧ h' = { h with
        kernel := k
        written := update h.written (h.openedFor (h.as cur).owner fd)
          (h.written (h.openedFor (h.as cur).owner fd) ++ data.take rax.toNat) } := by
  dsimp only [step] at hs
  split at hs
  next rax k hr =>
    cases hpipe : (h.as cur).writesPipe fd bufPtr data with
    | none =>
      obtain ⟨hkinds, hpipes⟩ := sysWrite_other hpipe
      rw [hpipe] at hs
      rw [hr] at hkinds hpipes ⊢
      cases hs
      exact .inl ⟨rfl, rfl, hkinds, hpipes⟩
    | some id =>
      rw [hpipe] at hs
      cases hs
      exact .inr ⟨id, rax, k, rfl, (sysWrite_pipe hpipe).2.symm.trans hr, rfl⟩
  next => cases hs

/-- `sys_pipe` fails, or opens a pipe that gets the next number. -/
lemma step_pipe {pipefd : Nat} (hs : step (.pipe cur pipefd) h = some h') :
    ∃ k, (Kernel.PipeFails (h.as cur) k ∧ h' = { h with kernel := k }) ∨
      ∃ id readFd writeFd, Kernel.PipeOpens (h.as cur) k id readFd writeFd ∧ h' = { h with
        kernel := k
        opened := h.opened + 1
        inSlot := update h.inSlot id h.opened
        openedFor := setAt (setAt h.openedFor (h.as cur).owner readFd h.opened)
          (h.as cur).owner writeFd h.opened } := by
  dsimp only [step] at hs
  rcases sysPipe_cases pipefd (h.as cur) with ⟨hans, hfails⟩ | ⟨id, readFd, writeFd, hans, hopens⟩
  · rw [hans] at hs
    cases hs
    exact ⟨_, .inl ⟨hfails, rfl⟩⟩
  · obtain ⟨⟨id', pipes⟩, hcreate, hid⟩ := map_eq_some_iff.mp hopens.created
    cases hid
    have hcreate' : h.kernel.pipes.create = some (id', pipes) := hcreate
    rw [hans, hcreate'] at hs
    cases hs
    exact ⟨_, .inr ⟨_, readFd, writeFd, hopens, rfl⟩⟩

/-- No call makes a table for a pid that was not handed out. -/
lemma Numbered.step {m : Move} (hn : Numbered h) (hs : step m h = some h') : Numbered h' := by
  -- a new table is put at the next pid, so those above stay empty
  have hother {pid : Pid} (hpid : h.nextPid + 1 ≤ pid) (t : FileDescriptorTable) :
      (h.kernel.fds.registerProcess h.nextPid t).get (some pid) = none := by
    refine (FdTables.get_put ..).trans ((if_neg ?_).trans (hn pid (le_of_succ_le hpid)))
    intro heq
    exact ne_of_gt hpid (some.inj heq)
  intro pid hpid
  cases m with
  | pipe cur pipefd =>
    dsimp only [History.step] at hs
    split at hs <;>
    · cases hs
      exact sysPipe_get_none pipefd (hn pid hpid)
  | dup cur oldFd =>
    cases hs
    exact sysDup_get_none oldFd (hn pid hpid)
  | dup2 cur oldFd newFd =>
    cases hs
    exact sysDup2_get_none oldFd newFd (hn pid hpid)
  | close cur fd =>
    cases hs
    exact get_setTable_none (hn pid hpid)
  | spawn =>
    cases hs
    exact hother hpid _
  | fork parentPid =>
    cases hs
    show (h.kernel.fds.cloneProcessFds parentPid h.nextPid).get (some pid) = none
    unfold FdTables.cloneProcessFds
    split
    next => exact hn pid (le_of_succ_le hpid)
    next => exact hother hpid _
  | exit pid' =>
    cases hs
    show (h.kernel.fds.unregisterProcess pid').get (some pid) = none
    rw [FdTables.get_unregisterProcess, hn pid hpid]
    split <;> rfl
  | read cur fd bufPtr count =>
    have hread := sysRead_get_none (k := h.as cur) fd bufPtr count (hn pid (by
      rcases step_read hs with ⟨-, heq, -⟩ | ⟨_, _, _, _, -, -, heq⟩ <;>
        · rw [heq] at hpid; exact hpid))
    rcases step_read hs with ⟨-, heq, -⟩ | ⟨id, rax, bytes, k, hpipe, hr, heq⟩
    · rw [heq]
      exact hread
    · rw [(sysRead_pipe hpipe).2.2, hr] at hread
      rw [heq]
      exact hread
  | write cur fd bufPtr data =>
    rcases step_write hs with ⟨-, heq, hfds, -⟩ | ⟨id, rax, k, -, hr, heq⟩
    · rw [heq] at hpid
      rw [hfds]
      exact hn pid hpid
    · rw [heq] at hpid ⊢
      have hfds : k.fds = h.kernel.fds := by
        have hk := congrArg (fun r => r.2.fds) hr
        unfold Kernel.writePipe at hk
        split at hk <;> exact hk.symm
      show k.fds.get (some pid) = none
      rw [hfds]
      exact hn pid hpid

/-- A call keeps ends and readers right exactly if it suits. -/
lemma step_live_iff {m : Move} (hn : Numbered h) (hi : Live h.kernel ∧ ¬ h.early)
    (hs : step m h = some h') : (Live h'.kernel ∧ ¬ h'.early) ↔ Suits m h := by
  obtain ⟨hl, he⟩ := hi
  have hnew := hn.kindAt (le_refl _)
  cases m with
  | pipe cur pipefd =>
    refine iff_of_true ?_ trivial
    have hlive := live_pipe (k := h.as cur) hl pipefd
    dsimp only [step] at hs
    split at hs <;>
    · cases hs
      exact ⟨hlive, he⟩
  | dup cur oldFd =>
    cases hs
    exact iff_of_true ⟨live_dup (k := h.as cur) hl oldFd, he⟩ trivial
  | dup2 cur oldFd newFd =>
    cases hs
    exact (and_iff_left he).trans (live_dup2 (k := h.as cur) hl oldFd newFd)
  | close cur fd =>
    cases hs
    exact (and_iff_left he).trans (live_close (k := h.as cur) hl fd)
  | spawn =>
    cases hs
    exact iff_of_true ⟨live_spawn hl hnew, he⟩ trivial
  | fork parentPid =>
    cases hs
    exact iff_of_true ⟨live_fork hl hnew parentPid, he⟩ trivial
  | exit pid =>
    cases hs
    exact (and_iff_left he).trans (live_exit hl pid)
  | read cur fd bufPtr count =>
    -- only a read can find an end too early: it answers 0 while a writer is left
    rcases step_read hs with ⟨hpipe, heq, hkinds, hpipes⟩ | ⟨id, rax, bytes, k, hpipe, hr, heq⟩
    · refine iff_of_true ⟨hl.congr hkinds fun e i => by rw [hpipes], ?_⟩ fun id hid => ?_
      · rw [heq]
        exact he
      · exact nomatch hpipe.symm.trans hid
    · obtain ⟨hcount, hkind, -⟩ := sysRead_pipe hpipe
      have hpasses := (readPipe_spec (h.as cur) id count).1
      rw [hr] at hpasses
      have hsome : ((h.as cur).pipes.get id).isSome :=
        Live.isSome (k := h.as cur) (e := .read) hl hkind
      have hzero := readPipe_zero hsome hcount hr
      rw [heq]
      constructor
      · rintro ⟨-, hearly⟩ id' hid hempty hheld
        cases hpipe.symm.trans hid
        exact hearly (.inr ⟨hzero.mpr hempty, hheld⟩)
      · intro hsuits
        refine ⟨hpasses.live hl, ?_⟩
        rintro (hearly | ⟨hrax, hheld⟩)
        · exact he hearly
        · exact hsuits id hpipe (hzero.mp hrax) hheld
  | write cur fd bufPtr data =>
    refine iff_of_true ?_ trivial
    rcases step_write hs with ⟨-, heq, hfds, hpipes⟩ | ⟨id, rax, k, hpipe, hr, heq⟩
    · refine ⟨hl.congr (by rw [hfds]) fun e i => by rw [hpipes], ?_⟩
      rw [heq]
      exact he
    · have hpasses := (writePipe_spec (h.as cur) id data).1
      rw [hr] at hpasses
      rw [heq]
      exact ⟨hpasses.live hl, he⟩

end Step

/-! ## What goes through a pipe -/

/-- Descriptors stand for the pipe they were opened for, and what was taken from a pipe and what
is still in it is what was written to it. -/
structure Inv (h : History) : Prop where
  numbered : Numbered h
  live : Live h.kernel
  early : ¬ h.early
  descriptor : ∀ o fd (e : End) id, h.kernel.fds.kindAt o fd = some (e.kind id) →
    h.openedFor o fd = h.inSlot id
  slot : ∀ id, (h.kernel.pipes.get id).isSome → h.inSlot id < h.opened
  distinct : ∀ id id', (h.kernel.pipes.get id).isSome → (h.kernel.pipes.get id').isSome →
    h.inSlot id = h.inSlot id' → id = id'
  bytes : ∀ id, (h.kernel.pipes.get id).isSome →
    h.taken (h.inSlot id) ++ h.kernel.pipes.buffered id = h.written (h.inSlot id)
  streams : ∀ n, h.taken n <+: h.written n
  unused : ∀ n, h.opened ≤ n → h.written n = []

lemma Inv.sound {h : History} (hinv : Inv h) : Sound h :=
  ⟨hinv.live, hinv.descriptor, hinv.early, hinv.streams⟩

/-- At the start there is no pipe. -/
lemma inv_boot (vfs : Fs.Vfs) (keys : List UInt8) : Inv (boot vfs keys) := by
  have hnone (o : Option Pid) (fd : Nat) (e : End) (id : Nat) :
      (boot vfs keys).kernel.fds.kindAt o fd ≠ some (e.kind id) := by
    cases o with
    | none => exact withStdio_kind
    | some pid => exact nofun
  have hfree (id : Nat) : ¬ ((boot vfs keys).kernel.pipes.get id).isSome := nofun
  refine ⟨fun _ _ => rfl, fun e id => iff_of_false nofun ?_, id, ?_, ?_, ?_, ?_,
    fun _ => List.prefix_rfl,
    fun _ _ => rfl⟩
  · rintro ⟨o, fd, hk⟩
    exact hnone o fd e id hk
  · exact fun o fd e id hk => absurd hk (hnone o fd e id)
  · exact fun id hsome => absurd hsome (hfree id)
  · exact fun id _ hsome => absurd hsome (hfree id)
  · exact fun id hsome => absurd hsome (hfree id)

section Keep

variable {h h' : History} {k : Kernel} {cur : Option Pid} {openedFor : Option Pid → Nat → Nat}

lemma closePipe_keeps (pipes : PipeTable) (kind : FileKind) {i : Nat}
    (hsome : ((FileDescriptorTable.closePipe pipes kind).get i).isSome) : (pipes.get i).isSome ∧
      (FileDescriptorTable.closePipe pipes kind).buffered i = pipes.buffered i := by
  cases kind with
  | regular => exact ⟨hsome, rfl⟩
  | pipeRead id => exact PipeTable.closeEnd_keeps .read hsome
  | pipeWrite id => exact PipeTable.closeEnd_keeps .write hsome

variable (hinv : Inv h)

include hinv

/-- Calls that move no bytes. -/
lemma Inv.of_ends {nextPid : Pid}
    (hn : Numbered { h with kernel := k, nextPid := nextPid, openedFor := openedFor }) (hl : Live k)
    (hpipes : ∀ id, (k.pipes.get id).isSome → (h.kernel.pipes.get id).isSome ∧
      k.pipes.buffered id = h.kernel.pipes.buffered id)
    (hdesc : ∀ o fd (e : End) id, k.fds.kindAt o fd = some (e.kind id) →
      openedFor o fd = h.inSlot id) :
    Inv { h with kernel := k, nextPid := nextPid, openedFor := openedFor } where
  numbered := hn
  live := hl
  early := hinv.early
  descriptor := hdesc
  slot id hsome := hinv.slot id (hpipes id hsome).1
  distinct id id' hsome hsome' := hinv.distinct id id' (hpipes id hsome).1 (hpipes id' hsome').1
  bytes id hsome := by
    obtain ⟨hold, hbuffered⟩ := hpipes id hsome
    exact (congrArg (_ ++ ·) hbuffered).trans (hinv.bytes id hold)
  streams := hinv.streams
  unused := hinv.unused

/-- Calls that change neither a descriptor nor a pipe. -/
lemma Inv.same (hn : Numbered { h with kernel := k }) (hl : Live k)
    (hkinds : k.fds.kindAt = h.kernel.fds.kindAt)
    (hpipes : ∀ id, k.pipes.get id = h.kernel.pipes.get id) : Inv { h with kernel := k } := by
  refine hinv.of_ends hn hl (fun id hsome => ?_) fun o fd e id hk => ?_
  · unfold PipeTable.buffered
    rw [hpipes] at hsome ⊢
    exact ⟨hsome, rfl⟩
  · rw [hkinds] at hk
    exact hinv.descriptor o fd e id hk

/-- A pipe is opened. -/
lemma Inv.opens {id readFd writeFd : Nat}
    (hopens : Kernel.PipeOpens (h.as cur) k id readFd writeFd) (hghost : h' = { h with
      kernel := k
      opened := h.opened + 1
      inSlot := update h.inSlot id h.opened
      openedFor := setAt (setAt h.openedFor (h.as cur).owner readFd h.opened)
        (h.as cur).owner writeFd h.opened }) (hn : Numbered h') (hl : Live h'.kernel) : Inv h' := by
  subst hghost
  have hself : update h.inSlot id h.opened id = h.opened := update_self ..
  have hne {i : Nat} (hi : i ≠ id) : update h.inSlot id h.opened i = h.inSlot i :=
    update_of_ne hi ..
  -- the other slots are as they were
  have hother {i : Nat} (hi : i ≠ id) : k.pipes.get i = h.kernel.pipes.get i :=
    (hopens.pipes i).trans (if_neg hi)
  refine ⟨hn, hl, hinv.early, ?_, ?_, ?_, ?_, hinv.streams, ?_⟩
  · intro o fd e i hk
    dsimp only at hk ⊢
    rw [hopens.kinds] at hk
    unfold setAt at hk ⊢
    split at hk
    next hat =>
      have hkind : End.write.kind id = e.kind i := some.inj hk
      rw [if_pos hat, ← (End.kind_inj.mp hkind).2, hself]
    next hw =>
      rw [if_neg hw]
      split at hk
      next hat =>
        have hkind : End.read.kind id = e.kind i := some.inj hk
        rw [if_pos hat, ← (End.kind_inj.mp hkind).2, hself]
      next hr =>
        rw [if_neg hr]
        -- no descriptor stood for the free slot
        have hi : i ≠ id := by
          rintro rfl
          have hsome := Live.isSome (k := h.as cur) hinv.live hk
          rw [hopens.free] at hsome
          cases hsome
        rw [hne hi]
        exact hinv.descriptor o fd e i hk
  · intro i hsome
    dsimp only at hsome ⊢
    by_cases hi : i = id
    · rw [hi, hself]
      exact lt_succ_self _
    · rw [hother hi] at hsome
      rw [hne hi]
      exact lt_succ_of_lt (hinv.slot i hsome)
  · intro i j hsi hsj hij
    dsimp only at hsi hsj hij
    by_cases hi : i = id
    · by_cases hj : j = id
      · rw [hi, hj]
      · rw [hi, hself, hne hj] at hij
        rw [hother hj] at hsj
        exact absurd hij.symm (Nat.ne_of_lt (hinv.slot j hsj))
    · rw [hother hi] at hsi
      by_cases hj : j = id
      · rw [hj, hself, hne hi] at hij
        exact absurd hij (Nat.ne_of_lt (hinv.slot i hsi))
      · rw [hother hj] at hsj
        rw [hne hi, hne hj] at hij
        exact hinv.distinct i j hsi hsj hij
  · intro i hsome
    dsimp only [PipeTable.buffered] at hsome ⊢
    by_cases hi : i = id
    · have hnone : h.written h.opened = [] := hinv.unused _ (le_refl _)
      have htook : h.taken h.opened = [] := List.prefix_nil.mp (hnone ▸ hinv.streams h.opened)
      rw [hi, hself, hnone, htook, hopens.pipes, if_pos rfl]
      rfl
    · rw [hother hi] at hsome ⊢
      rw [hne hi]
      exact hinv.bytes i hsome
  · exact fun n hle => hinv.unused n (le_of_succ_le hle)

/-- Bytes go through a pipe: one number's accounts change, and one slot. -/
lemma Inv.passes {id n : Nat} {early : Prop} (taken written : List UInt8)
    (hghost : h' = { h with
      kernel := k
      taken := update h.taken n taken
      written := update h.written n written
      early := early })
    (hn : Numbered h') (hl : Live h'.kernel) (hearly : ¬ h'.early)
    (hpass : Passes h.kernel k id) (hsome : (h.kernel.pipes.get id).isSome) (hid : n = h.inSlot id)
    (hbytes : taken ++ k.pipes.buffered id = written) : Inv h' := by
  subst hghost
  refine ⟨hn, hl, hearly, ?_, ?_, ?_, ?_, ?_, ?_⟩
  · rw [hpass.kinds]
    exact hinv.descriptor
  · exact fun i hi => hinv.slot i ((hpass.pipes.isSome i).symm ▸ hi)
  · intro i j hi hj
    rw [hpass.pipes.isSome] at hi hj
    exact hinv.distinct i j hi hj
  · intro i hi
    dsimp only at hi ⊢
    rw [hpass.pipes.isSome] at hi
    by_cases heq : i = id
    · rw [heq, ← hid, update_self, update_self]
      exact hbytes
    · have hne : h.inSlot i ≠ n := fun hsame => heq (hinv.distinct i id hi hsome (hsame.trans hid))
      rw [update_of_ne hne, update_of_ne hne, hpass.pipes.others i heq]
      exact hinv.bytes i hi
  · intro j
    dsimp only
    by_cases hj : j = n
    · rw [hj, update_self, update_self, ← hbytes]
      exact List.prefix_append ..
    · rw [update_of_ne hj, update_of_ne hj]
      exact hinv.streams j
  · intro j hle
    have hj : j ≠ n := by
      rintro rfl
      exact not_le.mpr (hid ▸ hinv.slot id hsome) hle
    exact (update_of_ne hj ..).trans (hinv.unused j hle)

/-- A descriptor becomes a copy of another one. -/
lemma Inv.copies {o o' : Option Pid} {oldFd newFd fd id : Nat} {e : End}
    {kind : FileKind} (hold : h.kernel.fds.kindAt o oldFd = some kind)
    (hk : setAt h.kernel.fds.kindAt o newFd (some kind) o' fd = some (e.kind id)) :
    setAt h.openedFor o newFd (h.openedFor o oldFd) o' fd = h.inSlot id := by
  unfold setAt at hk ⊢
  split at hk
  next hat =>
    rw [if_pos hat]
    exact hinv.descriptor o oldFd e id (hold.trans hk)
  next hat =>
    rw [if_neg hat]
    exact hinv.descriptor o' fd e id hk

lemma Inv.dup {oldFd : Nat} (hn : Numbered h')
    (hl : Live h'.kernel) (hs : step (.dup cur oldFd) h = some h') : Inv h' := by
  dsimp only [step] at hs
  obtain ⟨hpipes, ⟨hneg, hkinds⟩ | ⟨newFd, kind, hans, hold, -, hkinds⟩⟩ :=
    sysDup_cases oldFd (h.as cur)
  · rw [if_pos hneg] at hs
    cases hs
    exact hinv.same hn hl hkinds fun id => by rw [hpipes]; rfl
  · have hret : (Kernel.sysDup oldFd (h.as cur)).1 = newFd := congrArg Prod.fst hans
    rw [hret, if_neg (Int.not_lt.mpr (Int.natCast_nonneg newFd)), Int.toNat_natCast] at hs
    cases hs
    refine hinv.of_ends hn hl (fun id => ?_) fun o fd e id hk => hinv.copies hold (hkinds ▸ hk)
    rw [hpipes]
    exact fun hsome => ⟨hsome, rfl⟩

lemma Inv.dup2 {oldFd newFd : Nat} (hn : Numbered h')
    (hl : Live h'.kernel) (hs : step (.dup2 cur oldFd newFd) h = some h') : Inv h' := by
  dsimp only [step] at hs
  rcases sysDup2_cases oldFd newFd (h.as cur) with
    ⟨-, hret, hkinds, hpipes⟩ | ⟨kind, -, hret, hold, hkinds, hpipes⟩
  · have hfor : (if (Kernel.sysDup2 oldFd newFd (h.as cur)).1 < 0 then h.openedFor else
        setAt h.openedFor (h.as cur).owner newFd (h.openedFor (h.as cur).owner oldFd)) =
        h.openedFor := by
      split
      next => rfl
      next hpos =>
        rw [hret.resolve_left hpos]
        exact setAt_self ..
    rw [hfor] at hs
    cases hs
    exact hinv.same hn hl hkinds fun id => by rw [hpipes]; rfl
  · rw [hret, if_neg (Int.not_lt.mpr (Int.natCast_nonneg newFd))] at hs
    cases hs
    refine hinv.of_ends hn hl (fun id => ?_) fun o fd e id hk => hinv.copies hold (hkinds ▸ hk)
    rw [hpipes]
    cases (h.as cur).fds.kindAt (h.as cur).owner newFd with
    | none => exact fun hsome => ⟨hsome, rfl⟩
    | some kind' => exact closePipe_keeps h.kernel.pipes kind'

lemma Inv.close {fd : Nat} (hn : Numbered h')
    (hl : Live h'.kernel) (hs : step (.close cur fd) h = some h') : Inv h' := by
  cases hs
  rcases sysClose_cases fd (h.as cur) with
    ⟨-, hkinds, hpipes⟩ | ⟨kind, -, -, hkinds, hpipes⟩
  · exact hinv.same hn hl hkinds fun id => by rw [hpipes]; rfl
  · refine hinv.of_ends hn hl (fun id => ?_) fun o fd' e id hk => ?_
    · rw [hpipes]
      exact closePipe_keeps h.kernel.pipes kind
    · rw [hkinds] at hk
      unfold setAt at hk
      split at hk
      next => cases hk
      next => exact hinv.descriptor o fd' e id hk

/-- A process gets a table, or loses it. -/
lemma Inv.row {pid nextPid : Pid} {row : Nat → Option FileKind}
    (hn : Numbered { h with kernel := k, nextPid := nextPid, openedFor := openedFor })
    (hl : Live k) (hpipes : k.pipes = h.kernel.pipes)
    (hkinds : k.fds.kindAt = setRow h.kernel.fds.kindAt pid row)
    (hrow : ∀ fd (e : End) id, row fd = some (e.kind id) → openedFor (some pid) fd = h.inSlot id)
    (hfor : ∀ o fd, o ≠ some pid → openedFor o fd = h.openedFor o fd) :
    Inv { h with kernel := k, nextPid := nextPid, openedFor := openedFor } := by
  refine hinv.of_ends hn hl (fun id => ?_) fun o fd e id hk => ?_
  · rw [hpipes]
    exact fun hsome => ⟨hsome, rfl⟩
  · rw [hkinds] at hk
    by_cases ho : o = some pid
    · rw [ho, setRow_self] at hk
      rw [ho]
      exact hrow fd e id hk
    · rw [setRow_ne row ho] at hk
      rw [hfor o fd ho]
      exact hinv.descriptor o fd e id hk

lemma Inv.fork {parentPid : Pid} (hn : Numbered h') (hl : Live h'.kernel)
    (hs : step (.fork parentPid) h = some h') : Inv h' := by
  cases hs
  rcases kindAt_cloneProcessFds h.kernel.fds parentPid h.nextPid with hkinds | hkinds
  · refine hinv.of_ends hn hl (fun id hsome => ⟨hsome, rfl⟩) fun o fd e id hk => ?_
    rw [hkinds] at hk
    have ho : o ≠ some h.nextPid := by
      rintro rfl
      exact nomatch (hinv.numbered.kindAt (le_refl _) fd).symm.trans hk
    rw [if_neg ho]
    exact hinv.descriptor o fd e id hk
  · refine hinv.row hn hl rfl hkinds (fun fd e id hk => ?_) fun o fd ho => if_neg ho
    rw [if_pos rfl]
    exact hinv.descriptor (some parentPid) fd e id hk

lemma Inv.read {fd bufPtr count : Nat} (hn : Numbered h')
    (hi : Live h'.kernel ∧ ¬ h'.early) (hs : step (.read cur fd bufPtr count) h = some h') :
    Inv h' := by
  rcases step_read hs with ⟨-, rfl, hkinds, hpipes⟩ | ⟨id, rax, bytes, k, hpipe, hr, heq⟩
  · exact hinv.same hn hi.1 hkinds fun id => by rw [hpipes]
  · obtain ⟨-, hkind, -⟩ := sysRead_pipe hpipe
    obtain ⟨hpass, rax', bytes', hok, hbytes⟩ := readPipe_spec (h.as cur) id count
    rw [hr] at hpass hok hbytes
    cases hok
    have hsome : (h.kernel.pipes.get id).isSome := Live.isSome (e := .read) hinv.live hkind
    have hnum := hinv.descriptor _ fd .read id hkind
    rw [hnum, ← update_eq_self (h.inSlot id) h.written] at heq
    refine hinv.passes _ _ heq hn hi.1 hi.2 ⟨hpass.kinds, hpass.pipes⟩ hsome rfl ?_
    rw [List.append_assoc, hbytes]
    exact hinv.bytes id hsome

lemma Inv.write {fd bufPtr : Nat} {data : List UInt8}
    (hn : Numbered h') (hi : Live h'.kernel ∧ ¬ h'.early)
    (hs : step (.write cur fd bufPtr data) h = some h') : Inv h' := by
  rcases step_write hs with ⟨-, rfl, hfds, hpipes⟩ | ⟨id, rax, k, hpipe, hr, heq⟩
  · exact hinv.same hn hi.1 (by rw [hfds]) fun id => by rw [hpipes]
  · obtain ⟨hkind, -⟩ := sysWrite_pipe hpipe
    obtain ⟨hpass, rax', hok, hbytes⟩ := writePipe_spec (h.as cur) id data
    rw [hr] at hpass hok hbytes
    cases hok
    have hsome : (h.kernel.pipes.get id).isSome := Live.isSome (e := .write) hinv.live hkind
    have hnum := hinv.descriptor _ fd .write id hkind
    rw [hnum, ← update_eq_self (h.inSlot id) h.taken] at heq
    refine hinv.passes _ _ heq hn hi.1 hi.2 ⟨hpass.kinds, hpass.pipes⟩ hsome rfl ?_
    rw [hbytes hsome, ← List.append_assoc]
    exact congrArg (· ++ _) (hinv.bytes id hsome)

/-- A call that suits keeps the invariant. -/
lemma Inv.step {m : Move} (hs : History.step m h = some h') (hsuits : Suits m h) :
    Inv h' := by
  have hn := hinv.numbered.step hs
  have hi := (step_live_iff hinv.numbered ⟨hinv.live, hinv.early⟩ hs).mpr hsuits
  cases m with
  | pipe cur pipefd =>
    obtain ⟨k, ⟨hfails, rfl⟩ | ⟨id, readFd, writeFd, hopens, hghost⟩⟩ := step_pipe hs
    · exact hinv.same hn hi.1 hfails.kinds hfails.pipes
    · exact hinv.opens hopens hghost hn hi.1
  | dup cur oldFd => exact hinv.dup hn hi.1 hs
  | dup2 cur oldFd newFd => exact hinv.dup2 hn hi.1 hs
  | close cur fd => exact hinv.close hn hi.1 hs
  | spawn =>
    cases hs
    refine hinv.row hn hi.1 rfl (kindAt_registerProcess ..) (fun fd e id hk => ?_) fun _ _ _ => rfl
    exact (withStdio_kind hk).elim
  | fork parentPid => exact hinv.fork hn hi.1 hs
  | exit pid =>
    cases hs
    exact hinv.row hn hi.1 rfl (kindAt_unregisterProcess ..) (fun _ _ _ hk => nomatch hk)
      fun _ _ _ => rfl
  | read cur fd bufPtr count => exact hinv.read hn hi hs
  | write cur fd bufPtr data => exact hinv.write hn hi hs

end Keep

/-! ## Sequences of calls -/

/-- Pipes are sound throughout a sequence of calls exactly if every call suits. -/
theorem pipes_sound_iff (vfs : Fs.Vfs) (keys : List UInt8) (moves : List Move) :
    Always step Sound moves (boot vfs keys) ↔ Along step Suits moves (boot vfs keys) := by
  have hboot := inv_boot vfs keys
  constructor
  · intro h
    have hlive : Always step (fun h => Live h.kernel ∧ ¬ h.early) moves (boot vfs keys) :=
      fun moves' t hpre ht => ⟨(h moves' t hpre ht).live, (h moves' t hpre ht).early⟩
    exact (always_iff_along (W := Numbered) (fun _ _ _ hn hs => hn.step hs)
      (fun _ _ _ hn hi hs => step_live_iff hn hi hs) moves hboot.numbered
      ⟨hboot.live, hboot.early⟩).mp hlive
  · intro h
    have hinv : Always step Inv moves (boot vfs keys) :=
      always_of_along (fun _ _ _ hI hs hP => hI.step hs hP) hboot h
    exact fun moves' t hpre ht => (hinv moves' t hpre ht).sound

/-- The read end of a pipe is duplicated and one of the two descriptors closed: the end is closed
although the other descriptor is there. -/
theorem dup_close_breaks_pipe : ¬ Always step Sound
    [.pipe none 1, .dup none 3, .close none 3] (boot Fs.Vfs.empty []) := by
  intro h
  have hsome := some_get (show (trace step [.pipe none 1, .dup none 3, .close none 3]
    (boot Fs.Vfs.empty [])).isSome from rfl)
  have hlive := (h _ _ List.prefix_rfl hsome.symm).live
  have hopen := (hlive .read 0).mpr ⟨none, 5, rfl⟩
  cases hopen

end History

end RustOs.Syscall
