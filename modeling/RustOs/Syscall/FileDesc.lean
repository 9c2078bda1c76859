import Mathlib.Algebra.Group.Int.Defs
import Mathlib.Data.List.AList
import RustOs.Lib.Text
import RustOs.Proc.Manager
import RustOs.Syscall.Pipe

/-!
# File descriptors

`syscall/filedesc.rs`: a table of 256 descriptors for each process, and one for the kernel,
which is also the table of a process that has none. A descriptor that stands for the end of
a pipe names the pipe by its slot; a duplicate is a copy that names the same slot, and
closing any of the copies closes the end.

`FdTables.kindAt` says what a descriptor stands for, and the lemmas beside each operation
say how it changes.
-/

namespace RustOs.Syscall

open Lib Option
open Proc (Pid)

/-- `MAX_OPEN_FILES`. -/
def maxOpenFiles : Nat := 256

namespace OpenFlags

def rdonly : Nat := 0x0000
def wronly : Nat := 0x0001
def creat : Nat := 0x0040
def append : Nat := 0x0400

end OpenFlags

/-- `FileKind`. -/
inductive FileKind where
  | regular
  | pipeRead (pipeId : Nat)
  | pipeWrite (pipeId : Nat)
  deriving DecidableEq, Repr

/-- The kind of a descriptor for an end of a pipe. -/
def End.kind : End → Nat → FileKind
  | .read => .pipeRead
  | .write => .pipeWrite

lemma End.kind_inj {e e' : End} {id id' : Nat} : e.kind id = e'.kind id' ↔ e = e' ∧ id = id' := by
  cases e <;> cases e' <;> simp [End.kind]

lemma End.kind_ne_regular (e : End) (id : Nat) : e.kind id ≠ .regular := by
  cases e <;> exact nofun

/-- `OpenFile`. -/
structure OpenFile where
  path : Str
  flags : Nat
  offset : Nat
  isOpen : Bool
  kind : FileKind
  deriving DecidableEq, Repr

namespace OpenFile

/-- `OpenFile::new`. -/
def new (path : Str) (flags : Nat) : OpenFile := ⟨path, flags, 0, true, .regular⟩

/-- The path of a descriptor for a pipe. -/
def pipePath : Str := ['[', 'p', 'i', 'p', 'e', ']']

/-- `new_pipe_read`. -/
def newPipeRead (pipeId : Nat) : OpenFile := ⟨pipePath, OpenFlags.rdonly, 0, true, .pipeRead pipeId⟩

/-- `new_pipe_write`. -/
def newPipeWrite (pipeId : Nat) : OpenFile :=
    ⟨pipePath, OpenFlags.wronly, 0, true, .pipeWrite pipeId⟩

/-- The copy that `dup` and `dup2` make. -/
def copy (f : OpenFile) : OpenFile := { f with isOpen := true }

end OpenFile

/-! ## One table -/

/-- `FileDescriptorTable`, once it is initialised. -/
structure FileDescriptorTable where
  files : List (Option OpenFile)
  size : files.length = maxOpenFiles
  deriving DecidableEq

namespace FileDescriptorTable

/-- `with_stdio`. -/
def withStdio : FileDescriptorTable where
  files := some (.new ("/dev/stdin".toList) OpenFlags.rdonly) ::
    some (.new ("/dev/stdout".toList) OpenFlags.wronly) ::
    some (.new ("/dev/stderr".toList) OpenFlags.wronly) :: List.replicate 253 none
  size := by
    rw [List.length_cons, List.length_cons, List.length_cons, List.length_replicate]
    rfl

/-- `get`. -/
def get (t : FileDescriptorTable) (fd : Nat) : Option OpenFile := Slots.get t.files fd

/-- Put something in the slot of a descriptor. -/
def set (t : FileDescriptorTable) (fd : Nat) (slot : Option OpenFile) : FileDescriptorTable :=
  ⟨t.files.set fd slot, List.length_set.trans t.size⟩

variable (t : FileDescriptorTable)

/-- The search of `open`: the first free descriptor after the standard streams. -/
def firstFree : Option Nat :=
  (List.range' 3 253).find? fun fd => (t.get fd).isNone

/-- Open a descriptor for a file. -/
def openFile (file : OpenFile) : Option (Nat × FileDescriptorTable) :=
  t.firstFree.map fun fd => (fd, t.set fd (some file))

/-- `open`. -/
def open_ (path : Str) (flags : Nat) : Option (Nat × FileDescriptorTable) :=
  t.openFile (.new path flags)

/-- `open_pipe_read`. -/
def openPipeRead (pipeId : Nat) : Option (Nat × FileDescriptorTable) :=
  t.openFile (.newPipeRead pipeId)

/-- `open_pipe_write`. -/
def openPipeWrite (pipeId : Nat) : Option (Nat × FileDescriptorTable) :=
  t.openFile (.newPipeWrite pipeId)

/-- What closing a descriptor of this kind does to the pipes. -/
def closePipe (pipes : PipeTable) : FileKind → PipeTable
  | .regular => pipes
  | .pipeRead id => pipes.pipeCloseRead id
  | .pipeWrite id => pipes.pipeCloseWrite id

/-- `close_with_pipe_cleanup`. -/
def closeWithPipeCleanup (fd : Nat) (pipes : PipeTable) :
    FileDescriptorTable × PipeTable :=
  match t.get fd with
  | none => (t, pipes)
  | some file => (t.set fd none, closePipe pipes file.kind)

/-- `close`. The standard streams stay open. -/
def close (fd : Nat) (pipes : PipeTable) :
    Bool × FileDescriptorTable × PipeTable :=
  if fd < 3 ∨ fd ≥ maxOpenFiles then (false, t, pipes)
  else if (t.get fd).isSome then (true, t.closeWithPipeCleanup fd pipes)
  else (false, t, pipes)

/-- `dup`. -/
def dup (oldFd : Nat) : Option (Nat × FileDescriptorTable) :=
  match (t.get oldFd).filter (·.isOpen) with
  | none => none
  | some file => t.openFile file.copy

/-- `dup2`. -/
def dup2 (oldFd newFd : Nat) (pipes : PipeTable) :
    Option (FileDescriptorTable × PipeTable) :=
  match (t.get oldFd).filter (·.isOpen) with
  | none => none
  | some file =>
    if newFd ≥ maxOpenFiles then none
    else if oldFd = newFd then some (t, pipes)
    else
      let r := t.closeWithPipeCleanup newFd pipes
      some (r.1.set newFd (some file.copy), r.2)

/-- A signed offset from a base; the least 64-bit offset has no negation. -/
def seekFrom (base : Nat) (offset : Int) : Outcome Empty (Option Nat) :=
  if offset < 0 then
    if offset = -2 ^ 63 then .panic
    else if offset.natAbs ≤ base then .ok (some (base - offset.natAbs))
    else .ok none
  else some <$> Outcome.uadd 64 base offset.toNat

/-- `lseek`. -/
def lseek (fd : Nat) (offset : Int) (whence fileSize : Nat) :
    Outcome Empty (Option (Nat × FileDescriptorTable)) :=
  match t.get fd with
  | none => .ok none
  | some file => do
    let newOffset ← match whence with
      | 0 => if offset < 0 then .ok none else .ok (some offset.toNat)
      | 1 => seekFrom file.offset offset
      | 2 => seekFrom fileSize offset
      | _ => .ok none
    return newOffset.map fun o => (o, t.set fd (some { file with offset := o }))

section

variable {t : FileDescriptorTable} {fd : Nat}

lemma set_set (s s' : Option OpenFile) : (t.set fd s).set fd s' = t.set fd s' := by
  unfold set
  simp only [List.set_set]

lemma get_set (s : Option OpenFile) (fd' : Nat) (hfd : fd < maxOpenFiles) :
    (t.set fd s).get fd' = if fd' = fd then s else t.get fd' := by
  have hlt : fd < t.files.length := t.size ▸ hfd
  by_cases h : fd' = fd
  · rw [if_pos h, h]
    show (t.files.set fd s)[fd]?.join = s
    rw [List.getElem?_set_self hlt]
    rfl
  · rw [if_neg h]
    exact Slots.get_set_ne s h

/-- A descriptor that is in use has a slot. -/
lemma lt_of_get {file : OpenFile} (h : t.get fd = some file) : fd < maxOpenFiles := by
  rw [← t.size]
  exact (List.getElem?_eq_some_iff.mp (Slots.get_eq_some.mp h)).1

/-- The descriptor that is found is free and has a slot. -/
lemma firstFree_eq_some (h : t.firstFree = some fd) :
    3 ≤ fd ∧ fd < maxOpenFiles ∧ t.get fd = none := by
  have hfree := List.find?_some h
  have hmem := List.mem_range'_1.mp (List.mem_of_find?_eq_some h)
  exact ⟨hmem.1, hmem.2, isNone_iff_eq_none.mp hfree⟩

lemma openFile_eq_some {file : OpenFile} {t' : FileDescriptorTable}
    (h : t.openFile file = some (fd, t')) :
    3 ≤ fd ∧ fd < maxOpenFiles ∧ t.get fd = none ∧ t' = t.set fd (some file) := by
  obtain ⟨fd', hfree, heq⟩ := map_eq_some_iff.mp h
  cases heq
  obtain ⟨hlow, hhigh, hnone⟩ := firstFree_eq_some hfree
  exact ⟨hlow, hhigh, hnone, rfl⟩

/-- `close` closes a descriptor, or does nothing. -/
lemma close_cases (t : FileDescriptorTable) (fd : Nat) (pipes : PipeTable) :
    ((3 ≤ fd → t.get fd = none) ∧ t.close fd pipes = (false, t, pipes)) ∨
    ∃ file, 3 ≤ fd ∧ t.get fd = some file ∧
      t.close fd pipes = (true, t.set fd none, closePipe pipes file.kind) := by
  unfold close closeWithPipeCleanup
  by_cases hstd : fd < 3 ∨ fd ≥ maxOpenFiles
  · refine .inl ⟨fun h3 => ?_, if_pos hstd⟩
    cases hget : t.get fd with
    | none => rfl
    | some file =>
      have hlt := lt_of_get hget
      omega
  · rw [if_neg hstd]
    cases hget : t.get fd with
    | none => exact .inl ⟨fun _ => rfl, rfl⟩
    | some file => exact .inr ⟨file, by omega, rfl, rfl⟩

end

end FileDescriptorTable

/-! ## All tables -/

/-- `KERNEL_FD_TABLE` and `PROCESS_FD_TABLES`. -/
structure FdTables where
  kernel : FileDescriptorTable
  processes : AList fun _ : Pid => FileDescriptorTable

namespace FdTables

/-- The tables when the kernel starts. -/
def init : FdTables := ⟨.withStdio, ∅⟩

variable (fds : FdTables)

/-- A table: that of the kernel, or that of a process. -/
def get : Option Pid → Option FileDescriptorTable
  | none => some fds.kernel
  | some pid => fds.processes.lookup pid

/-- Replace a table. -/
def put (t : FileDescriptorTable) : Option Pid → FdTables
  | none => { fds with kernel := t }
  | some pid => { fds with processes := fds.processes.insert pid t }

/-- `get_fd_table`: whose table is used. -/
def owner (current : Option Pid) : Option Pid :=
  current.filter fun pid => (fds.processes.lookup pid).isSome

/-- `register_process`. -/
def registerProcess (pid : Pid) (t : FileDescriptorTable) : FdTables :=
  fds.put t (some pid)

/-- `unregister_process`. -/
def unregisterProcess (pid : Pid) : FdTables :=
  { fds with processes := fds.processes.erase pid }

/-- `clone_process_fds`. The copy of a table is the table. -/
def cloneProcessFds (parentPid childPid : Pid) : FdTables :=
  match fds.processes.lookup parentPid with
  | none => fds
  | some t => fds.registerProcess childPid t

/-- What a descriptor stands for. -/
def kindAt (o : Option Pid) (fd : Nat) : Option FileKind :=
  ((fds.get o).bind (·.get fd)).map (·.kind)

section

variable {fds : FdTables} {o : Option Pid} {fd : Nat} {t : FileDescriptorTable}

section

variable (fds : FdTables)

/-- There is always a table to use. -/
lemma get_owner (current : Option Pid) : ∃ t, fds.get (fds.owner current) = some t := by
  cases current with
  | none => exact ⟨_, rfl⟩
  | some pid =>
    unfold owner
    rw [filter_some]
    cases h : fds.processes.lookup pid with
    | none => exact ⟨_, rfl⟩
    | some t => exact ⟨t, h⟩

lemma get_put (t : FileDescriptorTable) (o o' : Option Pid) :
    (fds.put t o).get o' = if o' = o then some t else fds.get o' := by
  cases o with
  | none =>
    cases o' with
    | none => rfl
    | some pid => rw [if_neg (by simp)]; rfl
  | some pid =>
    cases o' with
    | none => rw [if_neg (by simp)]; rfl
    | some pid' =>
      by_cases h : pid' = pid
      · rw [if_pos (congrArg some h), h]
        exact AList.lookup_insert _
      · rw [if_neg fun heq => h (some.inj heq)]
        exact AList.lookup_insert_ne h

lemma get_unregisterProcess (pid : Pid) (o : Option Pid) :
    (fds.unregisterProcess pid).get o = if o = some pid then none else fds.get o := by
  cases o with
  | none => rw [if_neg (by simp)]; rfl
  | some pid' =>
    by_cases h : pid' = pid
    · rw [if_pos (congrArg some h), h]
      exact AList.lookup_erase _ _
    · rw [if_neg fun heq => h (some.inj heq)]
      exact AList.lookup_erase_ne h

/-- A table is replaced. -/
lemma kindAt_put (t : FileDescriptorTable) (o o' : Option Pid) (fd : Nat) :
    (fds.put t o).kindAt o' fd = if o' = o then (t.get fd).map (·.kind) else fds.kindAt o' fd := by
  unfold kindAt
  rw [get_put]
  by_cases ho : o' = o
  · rw [if_pos ho, if_pos ho, bind_some]
  · rw [if_neg ho, if_neg ho]

lemma kindAt_unregisterProcess (pid : Pid) (o : Option Pid) (fd : Nat) :
    (fds.unregisterProcess pid).kindAt o fd =
    if o = some pid then none else fds.kindAt o fd := by
  unfold kindAt
  rw [get_unregisterProcess]
  by_cases ho : o = some pid
  · rw [if_pos ho, if_pos ho]
    rfl
  · rw [if_neg ho, if_neg ho]

end

end

end FdTables

end RustOs.Syscall
