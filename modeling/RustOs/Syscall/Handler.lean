import RustOs.Fs.Vfs
import RustOs.Syscall.Basic
import RustOs.Syscall.FileDesc

/-!
# The handlers for files and pipes

`syscall/handler.rs`, as far as descriptors go: `read`, `write`, `open`, `close`, `lseek`,
`dup`, `dup2` and `pipe`. A handler answers with the value of `rax`; what `read` copies to
the user and what `pipe` stores there are part of its answer. The bytes of a user buffer, and
the path that `read_user_string` finds, are arguments.

A regular file is read as a whole from the FAT32 volume if one is mounted, and otherwise from
the RAM disk. It is written as a whole, to the RAM disk: neither the offset of the descriptor
nor its `O_APPEND` flag is looked at.

Reading and writing go by the kind of the descriptor, except that descriptor 0 is the keyboard
and descriptors 1 and 2 are the console, whatever they stand for.
-/

namespace RustOs.Syscall

open Lib Option Fs FdTables PipeTable
open Proc (Pid)
open FileDescriptorTable

/-- What the handlers work on. -/
structure Kernel where
  vfs : Vfs
  pipes : PipeTable
  fds : FdTables
  current : Option Pid
  /-- The scancodes that wait. -/
  keys : List UInt8

namespace Kernel

/-- The descriptor table in use. -/
def table (k : Kernel) : FileDescriptorTable :=
    (k.fds.get (k.fds.owner k.current)).getD k.fds.kernel

/-- Replace the descriptor table in use. -/
def setTable (k : Kernel) (t : FileDescriptorTable) : Kernel :=
  { k with fds := k.fds.put t (k.fds.owner k.current) }

/-- The file of a descriptor that is valid. -/
def file (k : Kernel) (fd : Nat) : Option OpenFile := (k.table.get fd).filter (·.isOpen)

/-- A call on the file systems. -/
def onVfs {ε α : Type} (m : Prog Vfs ε α) : Prog Kernel ε α := fun k =>
  ((m k.vfs).1, { k with vfs := (m k.vfs).2 })

/-- Read a file from the volume, or from the RAM disk if none is mounted. -/
def readPath (path : Str) : Prog Vfs VfsError (List UInt8) := fun st =>
  match st.fat32 with
  | some fs => Vfs.onFat (fs.read path) st
  | none => (st.ram.readFile path, st)

/-- Does the file exist there? -/
def existsPath (path : Str) : Prog Vfs VfsError Bool := fun st =>
  match st.fat32 with
  | some fs => Vfs.onFat (fs.exists_ path) st
  | none => (.ok (st.ram.fileExists path), st)

/-- Write a file to the RAM disk. -/
def writePath (path : Str) (data : List UInt8) : Prog Vfs VfsError Unit := fun st =>
  Vfs.onRam (RamDisk.writeFile st.now path data) st

/-- An error, with nothing copied. -/
def fails (e : SyscallError) : Outcome Empty (Int × List UInt8) := .ok (e.asIsize, [])

/-- `sys_read` from a pipe. -/
def readPipe (id count : Nat) : Prog Kernel Empty (Int × List UInt8) := fun k =>
  match k.pipes.pipeRead id count with
  | (.ok bytes, pipes) => (.ok (bytes.length, bytes), { k with pipes })
  | (.err .wouldBlock, pipes) => (.ok (0, []), { k with pipes })
  | (_, pipes) => (fails .invalidArgument, { k with pipes })

/-- `sys_read` from a file. The offset moves on behind what was read. -/
def readRegular (fd : Nat) (file : OpenFile) (count : Nat) : Prog Kernel Empty (Int × List UInt8) :=
  fun k =>
    match onVfs (readPath file.path) k with
    | (.ok data, k) =>
      let toRead := min count (data.length - file.offset)
      if toRead = 0 then (.ok (0, []), k)
      else
        (.ok (toRead, slice data file.offset toRead),
          k.setTable (k.table.set fd (some { file with offset := file.offset + toRead })))
    | (.err _, k) => (fails .fileNotFound, k)
    | (.panic, k) => (.panic, k)
    | (.diverge, k) => (.diverge, k)

/-- `sys_read`. -/
def sysRead (fd bufPtr count : Nat) : Prog Kernel Empty (Int × List UInt8) := fun k =>
  if bufPtr = 0 ∨ count = 0 then (fails .invalidArgument, k)
  else
    match k.file fd with
    | none => (fails .badFileDescriptor, k)
    | some file =>
      if fd = 0 then
        (.ok ((k.keys.take count).length, k.keys.take count), { k with keys := k.keys.drop count })
      else
        match file.kind with
        | .pipeRead id => readPipe id count k
        | .pipeWrite _ => (fails .badFileDescriptor, k)
        | .regular => readRegular fd file count k

/-- `sys_write` to a pipe. -/
def writePipe (id : Nat) (data : List UInt8) : Prog Kernel Empty Int := fun k =>
  match k.pipes.pipeWrite id data with
  | (.ok n, pipes) => (.ok n, { k with pipes })
  | (.err .wouldBlock, pipes) => (.ok 0, { k with pipes })
  | (_, pipes) => (.ok SyscallError.invalidArgument.asIsize, { k with pipes })

/-- `sys_write` to a file. -/
def writeRegular (path : Str) (data : List UInt8) : Prog Kernel Empty Int := fun k =>
  match onVfs (writePath path data) k with
  | (.ok _, k) => (.ok data.length, k)
  | (.err _, k) => (.ok SyscallError.permissionDenied.asIsize, k)
  | (.panic, k) => (.panic, k)
  | (.diverge, k) => (.diverge, k)

/-- `sys_write`; the data is what the buffer holds. -/
def sysWrite (fd bufPtr : Nat) (data : List UInt8) : Prog Kernel Empty Int := fun k =>
  if bufPtr = 0 ∨ data.length = 0 then (.ok SyscallError.invalidArgument.asIsize, k)
  else
    match k.file fd with
    | none => (.ok SyscallError.badFileDescriptor.asIsize, k)
    | some file =>
      if fd = 1 ∨ fd = 2 then (.ok data.length, k)
      else
        match file.kind with
        | .pipeWrite id => writePipe id data k
        | .pipeRead _ => (.ok SyscallError.badFileDescriptor.asIsize, k)
        | .regular => writeRegular file.path data k

/-- Open a descriptor; there may be none left. -/
def openFd (path : Str) (flags : Nat) (k : Kernel) : Int × Kernel :=
  match k.table.open_ path flags with
  | some (fd, t) => (fd, k.setTable t)
  | none => (SyscallError.outOfMemory.asIsize, k)

/-- `sys_open`. Whether a file could be created is not looked at. -/
def sysOpen (path : Option Str) (flags : Nat) : Prog Kernel Empty Int := fun k =>
  match path with
  | none => (.ok SyscallError.invalidArgument.asIsize, k)
  | some path =>
    match onVfs (existsPath path) k with
    | (.ok found, k) =>
      if found = false ∧ flags &&& OpenFlags.creat = 0 then
        (.ok SyscallError.fileNotFound.asIsize, k)
      else
        let k := if found = false then (onVfs (writePath path []) k).2 else k
        (.ok (openFd path flags k).1, (openFd path flags k).2)
    | (.err _, k) | (.panic, k) => (.panic, k)
    | (.diverge, k) => (.diverge, k)

/-- `sys_close`. -/
def sysClose (fd : Nat) (k : Kernel) : Int × Kernel :=
  let r := k.table.close fd k.pipes
  (if r.1 then 0 else SyscallError.badFileDescriptor.asIsize,
    { k.setTable r.2.1 with pipes := r.2.2 })

/-- `sys_lseek`. -/
def sysLseek (fd : Nat) (offset : Int) (whence : Nat) : Prog Kernel Empty Int := fun k =>
  if fd < 3 then (.ok SyscallError.invalidArgument.asIsize, k)
  else
    match k.file fd with
    | none => (.ok SyscallError.badFileDescriptor.asIsize, k)
    | some file =>
      match onVfs (readPath file.path) k with
      | (.panic, k) => (.panic, k)
      | (.diverge, k) => (.diverge, k)
      | (data, k) =>
        let fileSize := match data with
          | .ok data => data.length
          | _ => 0
        match k.table.lseek fd offset whence fileSize with
        | .ok (some (newOffset, t)) => (.ok newOffset, k.setTable t)
        | .ok none => (.ok SyscallError.invalidArgument.asIsize, k)
        | .err _ | .panic => (.panic, k)
        | .diverge => (.diverge, k)

/-- `sys_dup`. -/
def sysDup (oldFd : Nat) (k : Kernel) : Int × Kernel :=
  match k.table.dup oldFd with
  | some (newFd, t) => (newFd, k.setTable t)
  | none => (SyscallError.badFileDescriptor.asIsize, k)

/-- `sys_dup2`. -/
def sysDup2 (oldFd newFd : Nat) (k : Kernel) : Int × Kernel :=
  match k.table.dup2 oldFd newFd k.pipes with
  | some (t, pipes) => (newFd, { k.setTable t with pipes })
  | none => (SyscallError.badFileDescriptor.asIsize, k)

/-- `sys_pipe`. The two descriptors are what it stores for the user. -/
def sysPipe (pipefd : Nat) (k : Kernel) : Int × Option (Nat × Nat) × Kernel :=
  if pipefd = 0 then (SyscallError.invalidArgument.asIsize, none, k)
  else
    match k.pipes.create with
    | none => (SyscallError.outOfMemory.asIsize, none, k)
    | some (id, pipes) =>
      match k.table.openPipeRead id with
      | none =>
        (SyscallError.outOfMemory.asIsize, none,
          { k with pipes := (pipes.pipeCloseRead id).pipeCloseWrite id })
      | some (readFd, t) =>
        match t.openPipeWrite id with
        | none =>
          let r := t.close readFd pipes
          (SyscallError.outOfMemory.asIsize, none,
            { k.setTable r.2.1 with pipes := r.2.2.pipeCloseWrite id })
        | some (writeFd, t) => (0, some (readFd, writeFd), { k.setTable t with pipes })

/-! ## What the handlers do to descriptors -/

/-- Whose table is in use. -/
def owner (k : Kernel) : Option Pid := k.fds.owner k.current

/-- A function of descriptors that changes at one of them. -/
def setAt {α : Type} (f : Option Pid → Nat → α) (o : Option Pid) (fd : Nat) (a : α) :
    Option Pid → Nat → α :=
  fun o' fd' => if o' = o ∧ fd' = fd then a else f o' fd'

section

variable {k : Kernel} {fd : Nat} {file : OpenFile}

variable {o : Option Pid}

lemma get_table (k : Kernel) : k.fds.get k.owner = some k.table := by
  obtain ⟨t, ht⟩ := k.fds.get_owner k.current
  unfold table owner
  rw [ht]
  rfl

lemma kindAt_owner (k : Kernel) (fd : Nat) :
    k.fds.kindAt k.owner fd = (k.table.get fd).map (·.kind) := by
  unfold kindAt
  rw [get_table]
  rfl

/-- The table in use is replaced by one in which a descriptor is set. -/
lemma kindAt_setTable {t : FileDescriptorTable} {kind : Option FileKind}
    (h : ∀ fd', (t.get fd').map (·.kind) =
      if fd' = fd then kind else (k.table.get fd').map (·.kind)) :
    (k.setTable t).fds.kindAt = setAt k.fds.kindAt k.owner fd kind := by
  funext o' fd'
  show (k.fds.put t k.owner).kindAt o' fd' = _
  rw [kindAt_put]
  unfold setAt
  by_cases ho : o' = k.owner
  · rw [if_pos ho, h, ho, kindAt_owner]
    by_cases hfd : fd' = fd
    · rw [if_pos hfd, if_pos ⟨rfl, hfd⟩]
    · rw [if_neg hfd, if_neg fun h => hfd h.2]
  · rw [if_neg ho, if_neg fun h => ho h.1]

lemma kindAt_setTable_set (hfd : fd < maxOpenFiles) (slot : Option OpenFile) :
    (k.setTable (k.table.set fd slot)).fds.kindAt =
      setAt k.fds.kindAt k.owner fd (slot.map (·.kind)) := by
  refine kindAt_setTable fun fd' => ?_
  rw [get_set slot fd' hfd]
  by_cases h : fd' = fd
  · rw [if_pos h, if_pos h]
  · rw [if_neg h, if_neg h]

lemma setAt_self {α : Type} (f : Option Pid → Nat → α) (o : Option Pid) (fd : Nat) :
    setAt f o fd (f o fd) = f := by
  funext o' fd'
  unfold setAt
  split
  next h => rw [h.1, h.2]
  next => rfl

lemma setTable_self (k : Kernel) : (k.setTable k.table).fds.kindAt = k.fds.kindAt := by
  have hset : (k.setTable k.table).fds.kindAt =
      setAt k.fds.kindAt k.owner 0 (k.fds.kindAt k.owner 0) := by
    refine kindAt_setTable fun fd' => ?_
    rw [kindAt_owner]
    split
    next h => rw [h]
    next => rfl
  rw [hset, setAt_self]

lemma get_of_file (h : k.file fd = some file) : k.table.get fd = some file := by
  obtain ⟨hget, -⟩ := filter_eq_some_iff.mp h
  exact hget

/-- `sys_close` closes a descriptor, or does nothing. -/
lemma sysClose_cases (fd : Nat) (k : Kernel) :
    ((3 ≤ fd → k.fds.kindAt k.owner fd = none) ∧
      (sysClose fd k).2.fds.kindAt = k.fds.kindAt ∧ (sysClose fd k).2.pipes = k.pipes) ∨
    ∃ kind, 3 ≤ fd ∧ k.fds.kindAt k.owner fd = some kind ∧
      (sysClose fd k).2.fds.kindAt = setAt k.fds.kindAt k.owner fd none ∧
      (sysClose fd k).2.pipes = closePipe k.pipes kind := by
  have hkind := kindAt_owner k fd
  unfold sysClose
  rcases close_cases k.table fd k.pipes with
    ⟨hnone, hclose⟩ | ⟨file, h3, hget, hclose⟩
  · rw [hclose]
    refine .inl ⟨fun h3 => ?_, setTable_self k, rfl⟩
    rw [hkind, hnone h3]
    rfl
  · rw [hclose]
    rw [hget] at hkind
    exact .inr ⟨file.kind, h3, hkind, kindAt_setTable_set (lt_of_get hget) none, rfl⟩

/-- `sys_dup` makes a copy, or does nothing. -/
lemma sysDup_cases (oldFd : Nat) (k : Kernel) :
    (sysDup oldFd k).2.pipes = k.pipes ∧
      ((sysDup oldFd k).1 < 0 ∧ (sysDup oldFd k).2.fds.kindAt = k.fds.kindAt ∨
      ∃ (newFd : Nat) (kind : FileKind), sysDup oldFd k = ((newFd : Int), (sysDup oldFd k).2) ∧
        k.fds.kindAt k.owner oldFd = some kind ∧ k.fds.kindAt k.owner newFd = none ∧
        (sysDup oldFd k).2.fds.kindAt = setAt k.fds.kindAt k.owner newFd (some kind)) := by
  have hold := kindAt_owner k oldFd
  unfold sysDup dup
  cases hfile : (k.table.get oldFd).filter (·.isOpen) with
  | none => exact ⟨rfl, .inl ⟨SyscallError.asIsize_neg .badFileDescriptor, rfl⟩⟩
  | some file =>
    dsimp only
    rw [get_of_file hfile] at hold
    cases hopen : k.table.openFile file.copy with
    | none => exact ⟨rfl, .inl ⟨SyscallError.asIsize_neg .badFileDescriptor, rfl⟩⟩
    | some r =>
      obtain ⟨newFd, t⟩ := r
      obtain ⟨-, hlt, hfree, rfl⟩ := openFile_eq_some hopen
      refine ⟨rfl, .inr ⟨newFd, file.kind, rfl, hold, ?_, kindAt_setTable_set hlt _⟩⟩
      rw [kindAt_owner, hfree]
      rfl

/-- Does `sys_dup2` replace a descriptor? -/
def Dup2Acts (k : Kernel) (oldFd newFd : Nat) : Prop :=
  (k.file oldFd).isSome ∧ newFd < maxOpenFiles ∧ oldFd ≠ newFd

/-- `sys_dup2` closes a descriptor and makes it a copy, or does nothing. -/
lemma sysDup2_cases (oldFd newFd : Nat) (k : Kernel) :
    (¬ Dup2Acts k oldFd newFd ∧ ((sysDup2 oldFd newFd k).1 < 0 ∨ oldFd = newFd) ∧
      (sysDup2 oldFd newFd k).2.fds.kindAt = k.fds.kindAt ∧
      (sysDup2 oldFd newFd k).2.pipes = k.pipes) ∨
    ∃ kind, Dup2Acts k oldFd newFd ∧ (sysDup2 oldFd newFd k).1 = newFd ∧
      k.fds.kindAt k.owner oldFd = some kind ∧
      (sysDup2 oldFd newFd k).2.fds.kindAt = setAt k.fds.kindAt k.owner newFd (some kind) ∧
      (sysDup2 oldFd newFd k).2.pipes = ((k.fds.kindAt k.owner newFd).map
        (closePipe k.pipes)).getD k.pipes := by
  have hold := kindAt_owner k oldFd
  have hnew := kindAt_owner k newFd
  unfold sysDup2 dup2 Dup2Acts file
  cases hfile : (k.table.get oldFd).filter (·.isOpen) with
  | none => exact .inl ⟨fun h => (nomatch h.1),
      .inl (SyscallError.asIsize_neg .badFileDescriptor), rfl, rfl⟩
  | some file =>
    dsimp only
    rw [get_of_file hfile] at hold
    by_cases hhigh : newFd ≥ maxOpenFiles
    · rw [if_pos hhigh]
      exact .inl ⟨fun h => Nat.not_lt.mpr hhigh h.2.1,
        .inl (SyscallError.asIsize_neg .badFileDescriptor), rfl, rfl⟩
    · rw [if_neg hhigh]
      by_cases hsame : oldFd = newFd
      · rw [if_pos hsame]
        exact .inl ⟨fun h => h.2.2 hsame, .inr hsame, setTable_self k, rfl⟩
      · rw [if_neg hsame]
        have hlt : newFd < maxOpenFiles := Nat.lt_of_not_le hhigh
        refine .inr ⟨file.kind, ⟨rfl, hlt, hsame⟩, rfl, hold, kindAt_setTable fun fd' => ?_, ?_⟩
        · rw [get_set _ fd' hlt]
          by_cases hfd : fd' = newFd
          · rw [if_pos hfd, if_pos hfd]
            rfl
          · rw [if_neg hfd, if_neg hfd]
            unfold closeWithPipeCleanup
            cases k.table.get newFd with
            | none => rfl
            | some _ => exact congrArg (Option.map _) ((get_set none fd' hlt).trans (if_neg hfd))
        · rw [hnew]
          unfold closeWithPipeCleanup
          cases k.table.get newFd <;> rfl

/-- What `sys_pipe` does when it fails: nothing that shows. -/
structure PipeFails (k k' : Kernel) : Prop where
  kinds : k'.fds.kindAt = k.fds.kindAt
  pipes : ∀ i, k'.pipes.get i = k.pipes.get i

/-- What `sys_pipe` does when it succeeds: a free slot holds a new pipe, and two free
descriptors stand for its ends. -/
structure PipeOpens (k k' : Kernel) (id readFd writeFd : Nat) : Prop where
  created : k.pipes.create.map Prod.fst = some id
  free : k.pipes.get id = none
  pipes : ∀ i, k'.pipes.get i = if i = id then some .new else k.pipes.get i
  readFree : k.fds.kindAt k.owner readFd = none
  writeFree : k.fds.kindAt k.owner writeFd = none
  ne : readFd ≠ writeFd
  kinds : k'.fds.kindAt = setAt (setAt k.fds.kindAt k.owner readFd (some (.pipeRead id)))
    k.owner writeFd (some (.pipeWrite id))

/-- `sys_pipe` fails and leaves nothing behind, or opens both ends. -/
lemma sysPipe_cases (pipefd : Nat) (k : Kernel) :
    ((sysPipe pipefd k).2.1 = none ∧ PipeFails k (sysPipe pipefd k).2.2) ∨
    ∃ id readFd writeFd, (sysPipe pipefd k).2.1 = some (readFd, writeFd) ∧
      PipeOpens k (sysPipe pipefd k).2.2 id readFd writeFd := by
  unfold sysPipe
  by_cases hnull : pipefd = 0
  · rw [if_pos hnull]
    exact .inl ⟨rfl, rfl, fun _ => rfl⟩
  · rw [if_neg hnull]
    cases hcreate : k.pipes.create with
    | none => exact .inl ⟨rfl, rfl, fun _ => rfl⟩
    | some r =>
      obtain ⟨id, pipes⟩ := r
      dsimp only
      have hclose := get_create_close hcreate
      obtain ⟨hfree, hpipes⟩ := create_eq_some hcreate
      cases hread : k.table.openPipeRead id with
      | none => exact .inl ⟨rfl, rfl, hclose⟩
      | some r =>
        obtain ⟨readFd, t⟩ := r
        obtain ⟨hr3, hrlt, hrfree, rfl⟩ := openFile_eq_some hread
        have hrget : (k.table.set readFd (some (.newPipeRead id))).get readFd =
            some (.newPipeRead id) :=
          (get_set _ readFd hrlt).trans (if_pos rfl)
        have hrkind : k.fds.kindAt k.owner readFd = none := by
          rw [kindAt_owner, hrfree]
          rfl
        dsimp only
        cases hwrite : (k.table.set readFd (some (.newPipeRead id))).openPipeWrite id with
        | none =>
          -- the descriptor for the read end is given back
          have hback : (k.table.set readFd (some (.newPipeRead id))).close readFd pipes =
              (true, (k.table.set readFd (some (.newPipeRead id))).set readFd none,
                pipes.pipeCloseRead id) := by
            rcases close_cases (k.table.set readFd (some (.newPipeRead id)))
              readFd pipes with ⟨hnone, -⟩ | ⟨file, -, hget, hclose⟩
            · exact nomatch hrget.symm.trans (hnone hr3)
            · cases hrget.symm.trans hget
              exact hclose
          have hset := kindAt_setTable_set (k := k) hrlt none
          rw [← set_set (some (.newPipeRead id)), map_none, ← hrkind, setAt_self] at hset
          rw [hback]
          exact .inl ⟨rfl, hset, hclose⟩
        | some r =>
          obtain ⟨writeFd, t⟩ := r
          obtain ⟨-, hwlt, hwfree, rfl⟩ := openFile_eq_some hwrite
          have hne : readFd ≠ writeFd := by
            rintro rfl
            exact nomatch hrget.symm.trans hwfree
          have hwfree' : k.table.get writeFd = none :=
            ((get_set _ writeFd hrlt).trans (if_neg hne.symm)).symm.trans hwfree
          refine .inr ⟨id, readFd, writeFd, rfl, by rw [hcreate]; rfl, hfree, hpipes,
            hrkind, ?_, hne, ?_⟩
          · rw [kindAt_owner, hwfree']
            rfl
          · funext o' fd'
            show (k.fds.put _ k.owner).kindAt o' fd' = _
            rw [kindAt_put]
            unfold setAt
            by_cases ho : o' = k.owner
            · rw [if_pos ho, get_set _ fd' hwlt, get_set _ fd' hrlt, ho, kindAt_owner]
              simp only [true_and]
              split
              next => rfl
              next => split <;> rfl
            · rw [if_neg ho, if_neg fun h => ho h.1, if_neg fun h => ho h.1]

/-! ## No handler makes a table -/

lemma get_setTable_none {t : FileDescriptorTable} (h : k.fds.get o = none) :
    (k.setTable t).fds.get o = none := by
  show (k.fds.put t k.owner).get o = none
  rw [get_put, if_neg ?_, h]
  rintro rfl
  exact nomatch h.symm.trans (get_table k)

lemma sysDup_get_none (oldFd : Nat) (h : k.fds.get o = none) :
    (sysDup oldFd k).2.fds.get o = none := by
  unfold sysDup
  split
  next => exact get_setTable_none h
  next => exact h

lemma sysDup2_get_none (oldFd newFd : Nat) (h : k.fds.get o = none) :
    (sysDup2 oldFd newFd k).2.fds.get o = none := by
  unfold sysDup2
  split
  next => exact get_setTable_none h
  next => exact h

lemma sysPipe_get_none (pipefd : Nat) (h : k.fds.get o = none) :
    (sysPipe pipefd k).2.2.fds.get o = none := by
  unfold sysPipe
  split
  next => exact h
  next =>
    split
    next => exact h
    next =>
      split
      next => exact h
      next =>
        split
        next => exact get_setTable_none h
        next => exact get_setTable_none h

/-- No table appears for a process. -/
lemma sysRead_get_none (fd bufPtr count : Nat) (h : k.fds.get o = none) :
    (sysRead fd bufPtr count k).2.fds.get o = none := by
  unfold sysRead
  split
  next => exact h
  next =>
    split
    next => exact h
    next file _ =>
      split
      next => exact h
      next =>
        split
        next =>
          unfold readPipe
          split <;> exact h
        next => exact h
        next =>
          unfold readRegular onVfs
          cases (readPath file.path k.vfs).1 with
          | ok data =>
            dsimp only
            split
            next => exact h
            next => exact get_setTable_none (k := { k with vfs := _ }) h
          | _ => exact h

/-! ## Which pipe is read or written -/

/-- The pipe a `read` is from. -/
def readsPipe (k : Kernel) (fd bufPtr count : Nat) : Option Nat :=
  if bufPtr = 0 ∨ count = 0 ∨ fd = 0 then none
  else
    match (k.file fd).map OpenFile.kind with
    | some (.pipeRead id) => some id
    | _ => none

/-- The pipe a `write` is to. -/
def writesPipe (k : Kernel) (fd bufPtr : Nat) (data : List UInt8) : Option Nat :=
  if bufPtr = 0 ∨ data.length = 0 ∨ fd = 1 ∨ fd = 2 then none
  else
    match (k.file fd).map OpenFile.kind with
    | some (.pipeWrite id) => some id
    | _ => none

/-- The kind of a valid descriptor. -/
lemma kindAt_of_file {kind : FileKind} (h : (k.file fd).map (·.kind) = some kind) :
    k.fds.kindAt k.owner fd = some kind := by
  obtain ⟨file, hfile, hkind⟩ := map_eq_some_iff.mp h
  rw [kindAt_owner, get_of_file hfile]
  exact congrArg some hkind

lemma sysRead_pipe {bufPtr count id : Nat} (h : k.readsPipe fd bufPtr count = some id) :
    count ≠ 0 ∧ k.fds.kindAt k.owner fd = some (.pipeRead id) ∧
      sysRead fd bufPtr count k = readPipe id count k := by
  unfold readsPipe at h
  split at h
  next => cases h
  next harg =>
    split at h
    next id' hkind =>
      cases h
      refine ⟨fun h => harg (.inr (.inl h)), kindAt_of_file hkind, ?_⟩
      obtain ⟨file, hfile, hkind⟩ := map_eq_some_iff.mp hkind
      unfold sysRead
      rw [if_neg fun h => harg (h.imp_right .inl), hfile]
      dsimp only
      rw [if_neg fun h => harg (.inr (.inr h)), hkind]
    next => cases h

/-- A read from elsewhere leaves the pipes and the kinds of descriptors alone. -/
lemma sysRead_other {bufPtr count : Nat} (h : k.readsPipe fd bufPtr count = none) :
    (sysRead fd bufPtr count k).2.fds.kindAt = k.fds.kindAt ∧
      (sysRead fd bufPtr count k).2.pipes = k.pipes := by
  unfold readsPipe at h
  unfold sysRead
  split
  next => exact ⟨rfl, rfl⟩
  next harg =>
    cases hfile : k.file fd with
    | none => exact ⟨rfl, rfl⟩
    | some file =>
      rw [hfile] at h
      dsimp only
      by_cases hkeys : fd = 0
      · rw [if_pos hkeys]
        exact ⟨rfl, rfl⟩
      · rw [if_neg hkeys]
        rw [if_neg fun h => harg (h.imp id (·.resolve_right hkeys))] at h
        cases hkind : file.kind with
        | pipeRead id =>
          rw [map_some, hkind] at h
          cases h
        | pipeWrite id => exact ⟨rfl, rfl⟩
        | regular =>
          have hget := get_of_file hfile
          unfold readRegular onVfs
          cases (readPath file.path k.vfs).1 with
          | ok data =>
            dsimp only
            split
            next => exact ⟨rfl, rfl⟩
            next =>
              refine ⟨?_, rfl⟩
              have hlt := lt_of_get hget
              refine (kindAt_setTable_set (k := { k with vfs := _ }) hlt _).trans ?_
              have hsame : k.fds.kindAt k.owner fd = some file.kind := by
                rw [kindAt_owner, hget]
                rfl
              have hself := setAt_self k.fds.kindAt k.owner fd
              rw [hsame] at hself
              exact hself
          | _ => exact ⟨rfl, rfl⟩

lemma sysWrite_pipe {bufPtr id : Nat} {data : List UInt8}
    (h : k.writesPipe fd bufPtr data = some id) :
    k.fds.kindAt k.owner fd = some (.pipeWrite id) ∧
      sysWrite fd bufPtr data k = writePipe id data k := by
  unfold writesPipe at h
  split at h
  next => cases h
  next harg =>
    split at h
    next id' hkind =>
      cases h
      refine ⟨kindAt_of_file hkind, ?_⟩
      obtain ⟨file, hfile, hkind⟩ := map_eq_some_iff.mp hkind
      unfold sysWrite
      rw [if_neg fun h => harg (h.imp_right .inl), hfile]
      dsimp only
      rw [if_neg fun h => harg (.inr (.inr h)), hkind]
    next => cases h

/-- A write that is for no pipe leaves the pipes alone. -/
lemma sysWrite_other {bufPtr : Nat} {data : List UInt8}
    (h : k.writesPipe fd bufPtr data = none) :
    (sysWrite fd bufPtr data k).2.fds = k.fds ∧ (sysWrite fd bufPtr data k).2.pipes = k.pipes := by
  unfold writesPipe at h
  unfold sysWrite
  split
  next => exact ⟨rfl, rfl⟩
  next harg =>
    cases hfile : k.file fd with
    | none => exact ⟨rfl, rfl⟩
    | some file =>
      rw [hfile] at h
      dsimp only
      by_cases hconsole : fd = 1 ∨ fd = 2
      · rw [if_pos hconsole]
        exact ⟨rfl, rfl⟩
      · rw [if_neg hconsole]
        rw [if_neg fun h => harg (h.imp id (·.resolve_right hconsole))] at h
        cases hkind : file.kind with
        | pipeWrite id =>
          rw [map_some, hkind] at h
          cases h
        | pipeRead id => exact ⟨rfl, rfl⟩
        | regular =>
          unfold writeRegular onVfs
          cases (writePath file.path data k.vfs).1 <;> exact ⟨rfl, rfl⟩

end

end Kernel

end RustOs.Syscall
