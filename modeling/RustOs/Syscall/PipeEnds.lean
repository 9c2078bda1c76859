import RustOs.Syscall.Handler

/-!
# Pipe ends and their descriptors

A pipe end should be open as long as some descriptor stands for it (`Matches`). The code keeps
one flag for an end and no count, so opening and duplicating descriptors is harmless, and what
breaks the property is giving one up: closing a descriptor, or replacing it with `dup2`,
closes the end even if there are copies (`matches_setAt`), and a process that is reaped takes
its descriptors with it and closes nothing (`matches_exit`).

The lemmas `live_pipe`, `live_dup`, … say this of the calls themselves: `sys_pipe`, `dup` and
`fork` always keep the property (`Live`), and `live_close`, `live_dup2` and `live_exit` give the
exact condition under which the others do. The byte streams and whole sequences of calls are in
the next module.
-/

namespace RustOs.Syscall

open Lib Kernel Option FileDescriptorTable List FdTables PipeTable
open Proc (Pid)
open Kernel (setAt)

/-! ## Descriptors and open ends -/

/-- What the descriptors of all tables stand for. -/
abbrev Kinds := Option Pid → Nat → Option FileKind

/-- Some descriptor stands for the end. -/
def Held (kinds : Kinds) (e : End) (id : Nat) : Prop := ∃ o fd, kinds o fd = some (e.kind id)

/-- Some other descriptor stands for the end. -/
def HeldElsewhere (kinds : Kinds) (o : Option Pid) (fd : Nat) (e : End) (id : Nat) : Prop :=
  ∃ o' fd', ¬ (o' = o ∧ fd' = fd) ∧ kinds o' fd' = some (e.kind id)

/-- An end is open exactly if some descriptor stands for it. -/
def Matches (kinds : Kinds) (isOpen : End → Nat → Bool) : Prop :=
  ∀ e id, isOpen e id = true ↔ Held kinds e id

section

variable {kinds : Kinds} {isOpen : End → Nat → Bool} {o : Option Pid} {fd : Nat}
    {e : End} {id : Nat}

lemma held_iff (o : Option Pid) (fd : Nat) :
    Held kinds e id ↔ kinds o fd = some (e.kind id) ∨ HeldElsewhere kinds o fd e id := by
  constructor
  · rintro ⟨o', fd', h⟩
    by_cases hat : o' = o ∧ fd' = fd
    · rw [hat.1, hat.2] at h
      exact .inl h
    · exact .inr ⟨o', fd', hat, h⟩
  · rintro (h | ⟨o', fd', -, h⟩)
    · exact ⟨o, fd, h⟩
    · exact ⟨o', fd', h⟩

/-- Who holds an end after one descriptor has changed. -/
lemma held_setAt (kind : Option FileKind) : Held (setAt kinds o fd kind) e id ↔
    kind = some (e.kind id) ∨ HeldElsewhere kinds o fd e id := by
  rw [held_iff o fd]
  have hself : setAt kinds o fd kind o fd = kind := if_pos ⟨rfl, rfl⟩
  have hother : HeldElsewhere (setAt kinds o fd kind) o fd e id ↔
    HeldElsewhere kinds o fd e id := by
    have hne {o' : Option Pid} {fd' : Nat} (hat : ¬ (o' = o ∧ fd' = fd)) :
        setAt kinds o fd kind o' fd' = kinds o' fd' := if_neg hat
    constructor
    · rintro ⟨o', fd', hat, h⟩
      exact ⟨o', fd', hat, hne hat ▸ h⟩
    · rintro ⟨o', fd', hat, h⟩
      exact ⟨o', fd', hat, (hne hat).trans h⟩
  rw [hself, hother]

/-- A descriptor comes to stand for something else, of which there is another descriptor, and
the end it stood for is closed. -/
lemma matches_setAt (h : Matches kinds isOpen) {kind : Option FileKind} {isOpen' : End → Nat → Bool}
    (hkind : ∀ e id, kind = some (e.kind id) → HeldElsewhere kinds o fd e id)
    (hopen : ∀ e id, isOpen' e id =
      if kinds o fd = some (e.kind id) then false else isOpen e id) :
    Matches (setAt kinds o fd kind) isOpen' ↔
      ∀ e id, kinds o fd = some (e.kind id) → ¬ HeldElsewhere kinds o fd e id := by
  have hheld (e : End) (id : Nat) :
      Held (setAt kinds o fd kind) e id ↔ HeldElsewhere kinds o fd e id := by
    rw [held_setAt]
    exact ⟨fun h => h.elim (hkind e id) fun h => h, .inr⟩
  constructor
  · intro hmatch e id hat helse
    have hyes := (hmatch e id).mpr ((hheld e id).mpr helse)
    rw [hopen, if_pos hat] at hyes
    cases hyes
  · intro hsole e id
    rw [hheld, hopen]
    by_cases hat : kinds o fd = some (e.kind id)
    · rw [if_pos hat]
      exact iff_of_false nofun (hsole e id hat)
    · rw [if_neg hat, h e id, held_iff o fd]
      exact ⟨fun hh => hh.resolve_left hat, .inr⟩

/-- The table of a process changes, or goes. -/
def setRow (kinds : Kinds) (pid : Pid) (row : Nat → Option FileKind) : Kinds :=
  fun o fd => if o = some pid then row fd else kinds o fd

lemma setRow_self (kinds : Kinds) (pid : Pid) (row : Nat → Option FileKind) (fd : Nat) :
    setRow kinds pid row (some pid) fd = row fd := if_pos rfl

lemma setRow_ne {pid : Pid} (row : Nat → Option FileKind) (ho : o ≠ some pid) :
    setRow kinds pid row o fd = kinds o fd := if_neg ho

/-- Who holds it after a whole table has. -/
lemma held_setRow (pid : Pid) (row : Nat → Option FileKind) : Held (setRow kinds pid row) e id ↔
    (∃ fd, row fd = some (e.kind id)) ∨ ∃ o fd, o ≠ some pid ∧ kinds o fd = some (e.kind id) := by
  constructor
  · rintro ⟨o, fd, hk⟩
    by_cases ho : o = some pid
    · rw [ho, setRow_self] at hk
      exact .inl ⟨fd, hk⟩
    · rw [setRow_ne row ho] at hk
      exact .inr ⟨o, fd, ho, hk⟩
  · rintro (⟨fd, hk⟩ | ⟨o, fd, ho, hk⟩)
    · exact ⟨some pid, fd, (setRow_self ..).trans hk⟩
    · exact ⟨o, fd, (setRow_ne row ho).trans hk⟩

variable (h : Matches kinds isOpen)
include h

/-- A table is dropped, and nothing is closed. -/
lemma matches_exit (pid : Pid) :
    Matches (setRow kinds pid fun _ => none) isOpen ↔
      ∀ (e : End) (id fd : Nat), kinds (some pid) fd = some (e.kind id) →
        ∃ o fd', o ≠ some pid ∧ kinds o fd' = some (e.kind id) := by
  have hheld (e : End) (id : Nat) : Held (setRow kinds pid fun _ => none) e id ↔
      ∃ o fd', o ≠ some pid ∧ kinds o fd' = some (e.kind id) := by
    rw [held_setRow]
    exact ⟨fun h => h.resolve_left fun ⟨_, hno⟩ => (nomatch hno), .inr⟩
  constructor
  · intro hmatch e id fd hk
    exact (hheld e id).mp ((hmatch e id).mp ((h e id).mpr ⟨some pid, fd, hk⟩))
  · intro hothers e id
    rw [h e id, hheld e id]
    constructor
    · rintro ⟨o, fd, hk⟩
      by_cases ho : o = some pid
      · exact hothers e id fd (ho ▸ hk)
      · exact ⟨o, fd, ho, hk⟩
    · rintro ⟨o, fd, -, hk⟩
      exact ⟨o, fd, hk⟩

/-- A new table holds copies of descriptors there are. -/
lemma matches_copy {child : Pid} {copies : Nat → Option FileKind}
    (hnew : ∀ fd, kinds (some child) fd = none)
    (hcopies : ∀ (fd : Nat) (e : End) (id : Nat), copies fd = some (e.kind id) → Held kinds e id) :
    Matches (setRow kinds child copies) isOpen := by
  intro e id
  rw [h e id, held_setRow]
  constructor
  · rintro ⟨o, fd, hk⟩
    refine .inr ⟨o, fd, ?_, hk⟩
    rintro rfl
    exact nomatch (hnew fd).symm.trans hk
  · rintro (⟨fd, hk⟩ | ⟨o, fd, -, hk⟩)
    · exact hcopies fd e id hk
    · exact ⟨o, fd, hk⟩

/-- A pipe is opened in a free slot, with a descriptor for each end. -/
lemma matches_pipe {readFd writeFd : Nat}
    {isOpen' : End → Nat → Bool} (hread : kinds o readFd = none) (hwrite : kinds o writeFd = none)
    (hne : readFd ≠ writeFd) (hopen : ∀ e i, isOpen' e i = if i = id then true else isOpen e i) :
    Matches (setAt (setAt kinds o readFd (some (.pipeRead id))) o writeFd (some (.pipeWrite id)))
      isOpen' := by
  have hset {o' : Option Pid} {fd' : Nat} (hr : ¬ (o' = o ∧ fd' = readFd))
      (hw : ¬ (o' = o ∧ fd' = writeFd)) :
      setAt (setAt kinds o readFd (some (.pipeRead id))) o writeFd (some (.pipeWrite id)) o' fd' =
        kinds o' fd' := (if_neg hw).trans (if_neg hr)
  have hwriteFd : setAt (setAt kinds o readFd (some (.pipeRead id))) o writeFd
      (some (.pipeWrite id)) o writeFd = some (.pipeWrite id) := if_pos ⟨rfl, rfl⟩
  have hreadFd : setAt (setAt kinds o readFd (some (.pipeRead id))) o writeFd
      (some (.pipeWrite id)) o readFd = some (.pipeRead id) :=
    (if_neg fun h => hne h.2).trans (if_pos ⟨rfl, rfl⟩)
  intro e i
  rw [hopen]
  by_cases hi : i = id
  · rw [if_pos hi, hi]
    refine iff_of_true rfl ?_
    cases e with
    | read => exact ⟨o, readFd, hreadFd⟩
    | write => exact ⟨o, writeFd, hwriteFd⟩
  · rw [if_neg hi, h e i]
    constructor
    · rintro ⟨o', fd', hk⟩
      refine ⟨o', fd', (hset ?_ ?_).trans hk⟩
      · rintro ⟨rfl, rfl⟩
        exact nomatch hread.symm.trans hk
      · rintro ⟨rfl, rfl⟩
        exact nomatch hwrite.symm.trans hk
    · rintro ⟨o', fd', hk⟩
      by_cases hw : o' = o ∧ fd' = writeFd
      · rw [hw.1, hw.2, hwriteFd] at hk
        have hkind : End.write.kind id = e.kind i := some.inj hk
        exact absurd (End.kind_inj.mp hkind).2.symm hi
      · by_cases hr : o' = o ∧ fd' = readFd
        · rw [hr.1, hr.2, hreadFd] at hk
          have hkind : End.read.kind id = e.kind i := some.inj hk
          exact absurd (End.kind_inj.mp hkind).2.symm hi
        · exact ⟨o', fd', (hset hr hw).symm.trans hk⟩

end

/-- The ends of pipes are open as their descriptors say. -/
def Live (k : Kernel) : Prop := Matches k.fds.kindAt k.pipes.isOpen

/-- Closing an end closes that end. -/
lemma isOpen_closePipe (pipes : PipeTable) (kind : FileKind) (e : End) (id : Nat) :
    (closePipe pipes kind).isOpen e id =
      if kind = e.kind id then false else pipes.isOpen e id := by
  have hend (e' : End) (id' : Nat) : (pipes.closeEnd e' id').isOpen e id =
      if e'.kind id' = e.kind id then false else pipes.isOpen e id := by
    rw [isOpen_closeEnd]
    refine if_congr ?_ rfl rfl
    rw [End.kind_inj]
    exact ⟨fun h => ⟨h.2.symm, h.1.symm⟩, fun h => ⟨h.2.symm, h.1.symm⟩⟩
  cases kind with
  | regular => exact (if_neg fun h => e.kind_ne_regular id h.symm).symm
  | pipeRead id' => exact hend .read id'
  | pipeWrite id' => exact hend .write id'

/-- A pipe that a descriptor stands for is there. -/
lemma Live.isSome {k : Kernel} (hl : Live k) {o : Option Pid} {fd id : Nat} {e : End}
    (hk : k.fds.kindAt o fd = some (e.kind id)) : (k.pipes.get id).isSome := by
  have hopen := (hl e id).mpr ⟨o, fd, hk⟩
  unfold isOpen at hopen
  cases hget : k.pipes.get id with
  | none =>
    rw [hget] at hopen
    cases hopen
  | some p => rfl

/-- What leaves descriptors and ends as they are. -/
lemma Live.congr {k k' : Kernel} (hl : Live k) (hkinds : k'.fds.kindAt = k.fds.kindAt)
    (hopen : ∀ e i, k'.pipes.isOpen e i = k.pipes.isOpen e i) : Live k' := by
  intro e id
  rw [hopen, hkinds]
  exact hl e id

/-! ## The handlers -/

section

variable {k : Kernel}

/-- `pipe` opens both ends. -/
lemma live_pipe (hl : Live k) (pipefd : Nat) : Live (sysPipe pipefd k).2.2 := by
  rcases sysPipe_cases pipefd k with ⟨-, hfails⟩ | ⟨id, readFd, writeFd, -, hopens⟩
  · refine hl.congr hfails.kinds fun e i => ?_
    unfold isOpen
    rw [hfails.pipes]
  · unfold Live
    rw [hopens.kinds]
    refine matches_pipe hl hopens.readFree hopens.writeFree hopens.ne fun e i => ?_
    unfold isOpen
    rw [hopens.pipes]
    by_cases hi : i = id
    · rw [if_pos hi, if_pos hi]
      cases e <;> rfl
    · rw [if_neg hi, if_neg hi]

/-- `dup` closes nothing. -/
lemma live_dup (hl : Live k) (oldFd : Nat) : Live (sysDup oldFd k).2 := by
  obtain ⟨hpipes, ⟨-, hkinds⟩ | ⟨newFd, kind, -, hold, hnew, hkinds⟩⟩ := sysDup_cases oldFd k
  · exact hl.congr hkinds fun e i => by rw [hpipes]
  · unfold Live
    rw [hkinds, hpipes]
    refine (matches_setAt hl ?_ fun e id => ?_).mpr ?_
    · rintro e id ⟨⟩
      refine ⟨_, oldFd, ?_, hold⟩
      rintro ⟨-, rfl⟩
      exact nomatch hold.symm.trans hnew
    · rw [hnew, if_neg nofun]
    · intro e id hk
      exact nomatch hnew.symm.trans hk

/-- No other descriptor stands for what `dup2` closes. -/
def Dup2Suits (k : Kernel) (oldFd newFd : Nat) : Prop := Kernel.Dup2Acts k oldFd newFd →
  ∀ e id, k.fds.kindAt k.owner newFd = some (End.kind e id) →
    ¬ HeldElsewhere k.fds.kindAt k.owner newFd e id

/-- `dup2` keeps the held ends open exactly if it suits. -/
lemma live_dup2 (hl : Live k) (oldFd newFd : Nat) :
    Live (sysDup2 oldFd newFd k).2 ↔ Dup2Suits k oldFd newFd := by
  rcases sysDup2_cases oldFd newFd k with
    ⟨hacts, -, hkinds, hpipes⟩ | ⟨kind, hacts, -, hold, hkinds, hpipes⟩
  · refine iff_of_true (hl.congr hkinds fun e i => by rw [hpipes]) fun hyes => absurd hyes hacts
  · unfold Live
    rw [hkinds, hpipes]
    refine (matches_setAt hl ?_ fun e id => ?_).trans ⟨fun h _ => h, fun h => h hacts⟩
    · rintro e id ⟨⟩
      exact ⟨_, oldFd, fun h => hacts.2.2 h.2, hold⟩
    · cases k.fds.kindAt k.owner newFd with
      | none => exact (if_neg nofun).symm
      | some kind' =>
        rw [map_some, getD_some, isOpen_closePipe]
        exact if_congr ⟨congrArg some, some.inj⟩ rfl rfl

/-- No other descriptor stands for what `close` closes. -/
def CloseSuits (k : Kernel) (fd : Nat) : Prop := 3 ≤ fd →
  ∀ e id, k.fds.kindAt k.owner fd = some (End.kind e id) →
    ¬ HeldElsewhere k.fds.kindAt k.owner fd e id

/-- `close` keeps the held ends open exactly if it suits. -/
lemma live_close (hl : Live k) (fd : Nat) : Live (sysClose fd k).2 ↔ CloseSuits k fd := by
  rcases sysClose_cases fd k with
    ⟨hnone, hkinds, hpipes⟩ | ⟨kind, h3, hfd, hkinds, hpipes⟩
  · refine iff_of_true (hl.congr hkinds fun e i => by rw [hpipes]) fun h3 e id hk => ?_
    exact nomatch (hnone h3).symm.trans hk
  · unfold Live
    rw [hkinds, hpipes]
    refine (matches_setAt hl (by rintro _ _ ⟨⟩) fun e id => ?_).trans ⟨fun h _ => h, fun h => h h3⟩
    rw [isOpen_closePipe, hfd]
    exact if_congr ⟨congrArg some, some.inj⟩ rfl rfl

/-- The kinds of the descriptors of a new table. -/
lemma kindAt_registerProcess (fds : FdTables) (pid : Pid) (t : FileDescriptorTable) :
    (fds.registerProcess pid t).kindAt =
      setRow fds.kindAt pid fun fd => (t.get fd).map (·.kind) := by
  funext o fd
  exact kindAt_put fds t (some pid) o fd

lemma kindAt_unregisterProcess (fds : FdTables) (pid : Pid) :
    (fds.unregisterProcess pid).kindAt = setRow fds.kindAt pid fun _ => none := by
  funext o fd
  exact FdTables.kindAt_unregisterProcess fds pid o fd

/-- The standard streams are no pipes. -/
lemma withStdio_kind {fd : Nat} {e : End} {id : Nat}
    (hk : (withStdio.get fd).map (·.kind) = some (e.kind id)) : False := by
  obtain ⟨file, hfile, hkind⟩ := map_eq_some_iff.mp hk
  have hmem : some file ∈ withStdio.files :=
    mem_of_getElem? (Slots.get_eq_some.mp hfile)
  have hregular : file.kind = .regular := by
    rcases mem_cons.mp hmem with heq | hmem
    · cases heq
      rfl
    · rcases mem_cons.mp hmem with heq | hmem
      · cases heq
        rfl
      · rcases mem_cons.mp hmem with heq | hmem
        · cases heq
          rfl
        · exact nomatch eq_of_mem_replicate hmem
  exact e.kind_ne_regular id (hkind.symm.trans hregular)

lemma live_spawn (hl : Live k) {pid : Pid} (hnew : ∀ fd, k.fds.kindAt (some pid) fd = none) :
    Live { k with fds := k.fds.registerProcess pid .withStdio } := by
  unfold Live
  rw [kindAt_registerProcess]
  refine matches_copy hl hnew fun fd e id hk => ?_
  exact (withStdio_kind hk).elim

lemma kindAt_cloneProcessFds (fds : FdTables) (parentPid childPid : Pid) :
    (fds.cloneProcessFds parentPid childPid).kindAt = fds.kindAt ∨
      (fds.cloneProcessFds parentPid childPid).kindAt =
        setRow fds.kindAt childPid (fds.kindAt (some parentPid)) := by
  unfold cloneProcessFds
  cases ht : fds.processes.lookup parentPid with
  | none => exact .inl rfl
  | some t =>
    refine .inr ((kindAt_registerProcess fds childPid t).trans ?_)
    have hget : fds.get (some parentPid) = some t := ht
    refine congrArg (setRow fds.kindAt childPid) (funext fun fd => ?_)
    unfold kindAt
    rw [hget]
    rfl

lemma live_fork (hl : Live k) {childPid : Pid} (hnew : ∀ fd, k.fds.kindAt (some childPid) fd = none)
    (parentPid : Pid) : Live { k with fds := k.fds.cloneProcessFds parentPid childPid } := by
  unfold Live
  rcases kindAt_cloneProcessFds k.fds parentPid childPid with hkinds | hkinds
  · rw [hkinds]
    exact hl
  · rw [hkinds]
    exact matches_copy hl hnew fun fd e id hk => ⟨some parentPid, fd, hk⟩

/-- What the process holds is held by others too. -/
def ExitSuits (k : Kernel) (pid : Pid) : Prop :=
  ∀ (e : End) (id fd : Nat), k.fds.kindAt (some pid) fd = some (e.kind id) →
    ∃ o fd', o ≠ some pid ∧ k.fds.kindAt o fd' = some (e.kind id)

lemma live_exit (hl : Live k) (pid : Pid) :
    Live { k with fds := k.fds.unregisterProcess pid } ↔ ExitSuits k pid := by
  unfold Live
  rw [kindAt_unregisterProcess]
  exact matches_exit hl pid

/-- What a read or a write does to the kernel, as far as pipes go. -/
structure Passes (k k' : Kernel) (id : Nat) : Prop where
  kinds : k'.fds.kindAt = k.fds.kindAt
  pipes : PipeTable.Moves k.pipes k'.pipes id

/-- A read takes them off the front. -/
lemma readPipe_spec (k : Kernel) (id count : Nat) :
    Passes k (readPipe id count k).2 id ∧ ∃ rax bytes,
      (readPipe id count k).1 = .ok (rax, bytes) ∧
      bytes ++ (readPipe id count k).2.pipes.buffered id = k.pipes.buffered id := by
  obtain ⟨hmoves, hbytes⟩ := k.pipes.pipeRead_spec id count
  unfold readPipe
  rcases hr : k.pipes.pipeRead id count with ⟨out, pipes⟩
  rw [hr] at hmoves hbytes
  cases out with
  | err e => cases e <;> exact ⟨⟨rfl, hmoves⟩, _, _, rfl, hbytes⟩
  | _ => exact ⟨⟨rfl, hmoves⟩, _, _, rfl, hbytes⟩

/-- A write puts bytes behind the others. -/
lemma writePipe_spec (k : Kernel) (id : Nat) (data : List UInt8) :
    Passes k (writePipe id data k).2 id ∧ ∃ rax, (writePipe id data k).1 = .ok rax ∧
      ((k.pipes.get id).isSome → (writePipe id data k).2.pipes.buffered id =
        k.pipes.buffered id ++ data.take rax.toNat) := by
  obtain ⟨hmoves, hbytes⟩ := k.pipes.pipeWrite_spec id data
  unfold writePipe
  rcases hr : k.pipes.pipeWrite id data with ⟨out, pipes⟩
  rw [hr] at hmoves hbytes
  cases out with
  | err e => cases e <;> exact ⟨⟨rfl, hmoves⟩, _, rfl, hbytes⟩
  | _ => exact ⟨⟨rfl, hmoves⟩, _, rfl, hbytes⟩

lemma Passes.live {k' : Kernel} {id : Nat} (h : Passes k k' id) (hl : Live k) : Live k' :=
  hl.congr h.kinds h.pipes.isOpen

/-- What is read from a pipe that is there is nothing only if it is empty. -/
lemma readPipe_zero {k' : Kernel} {id count : Nat} {rax : Int} {bytes : List UInt8}
    (hpipe : (k.pipes.get id).isSome) (hcount : count ≠ 0)
    (hr : readPipe id count k = (.ok (rax, bytes), k')) :
    rax = 0 ↔ k.pipes.buffered id = [] := by
  obtain ⟨p, hp⟩ := isSome_iff_exists.mp hpipe
  unfold readPipe at hr
  rcases pipeRead_some hp hcount with ⟨hempty, hread⟩ | ⟨hfull, hbytes, hread⟩
  · rw [hread] at hr
    refine iff_of_true ?_ hempty
    cases hw : p.writeOpen with
    | true =>
      rw [hw] at hr
      cases hr
      rfl
    | false =>
      rw [hw] at hr
      cases hr
      rfl
  · rw [hread] at hr
    cases hr
    refine iff_of_false ?_ hfull
    intro hzero
    exact hbytes (eq_nil_of_length_eq_zero (Int.ofNat_eq_zero.mp hzero))

/-- A pipe that is read while there is a writer is not empty. -/
def ReadSuits (k : Kernel) (fd bufPtr count : Nat) : Prop :=
  ∀ id, k.readsPipe fd bufPtr count = some id → k.pipes.buffered id = [] →
    ¬ Held k.fds.kindAt .write id

end

end RustOs.Syscall
