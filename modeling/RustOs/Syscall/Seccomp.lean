import Mathlib.Data.List.Basic
import RustOs.Lib.Bytes
import RustOs.Lib.Outcome
import RustOs.Syscall.Basic

/-!
# Syscall filters

`seccomp.rs`: a filter is a program of classic BPF instructions that is run over the number
and the arguments of a syscall, and `check` turns the value it returns into a decision.

The meaning classic BPF gives to a program, and where the interpreter departs from it, is in
`Syscall/ClassicBpf`; which filters fail closed is in `Syscall/FailClosed`.
-/

namespace RustOs.Seccomp

open Lib Outcome

/-! ## Instructions -/

/-- `BpfInsn`. -/
structure BpfInsn where
  code : UInt16
  jt : UInt8
  jf : UInt8
  k : UInt32
  deriving DecidableEq, Repr

namespace Bpf

def ld : UInt16 := 0x00
def ldx : UInt16 := 0x01
def st : UInt16 := 0x02
def stx : UInt16 := 0x03
def alu : UInt16 := 0x04
def jmp : UInt16 := 0x05
def ret : UInt16 := 0x06
def misc : UInt16 := 0x07

def w : UInt16 := 0x00

def imm : UInt16 := 0x00
def abs : UInt16 := 0x20
def mem : UInt16 := 0x60
def len : UInt16 := 0x80

def add : UInt16 := 0x00
def sub : UInt16 := 0x10
def mul : UInt16 := 0x20
def div : UInt16 := 0x30
def or : UInt16 := 0x40
def and : UInt16 := 0x50
def lsh : UInt16 := 0x60
def rsh : UInt16 := 0x70
def neg : UInt16 := 0x80
def mod : UInt16 := 0x90
def xor : UInt16 := 0xa0

def ja : UInt16 := 0x00
def jeq : UInt16 := 0x10
def jgt : UInt16 := 0x20
def jge : UInt16 := 0x30
def jset : UInt16 := 0x40

def x : UInt16 := 0x08

end Bpf

namespace BpfInsn

variable (ins : BpfInsn)

/-- `class`. -/
def cls : UInt16 := ins.code &&& 0x07

/-- `size`. -/
def size : UInt16 := ins.code &&& 0x18

/-- `mode`. -/
def mode : UInt16 := ins.code &&& 0xe0

/-- `op`. -/
def op : UInt16 := ins.code &&& 0xf0

/-- `src`. -/
def src : UInt16 := ins.code &&& 0x08

end BpfInsn

/-! ## The data -/

/-- `SeccompData`. -/
structure SeccompData where
  nr : UInt32
  arch : UInt32
  instructionPointer : UInt64
  args : Vector UInt64 6
  deriving DecidableEq, Repr

namespace SeccompData

/-- The bytes of the struct, as `repr(C)` lays it out. -/
def bytes (d : SeccompData) : List UInt8 :=
  leBytes 4 d.nr.toNat ++ leBytes 4 d.arch.toNat ++ leBytes 8 d.instructionPointer.toNat ++
    d.args.toList.flatMap fun arg => leBytes 8 arg.toNat

/-- The word at an offset. -/
def word (d : SeccompData) (off : UInt32) : UInt32 := UInt32.ofNat (leAt d.bytes off.toNat 4)

/-- The word at an offset, 0 where the data has no word. -/
def wordOrZero (d : SeccompData) (off : UInt32) : UInt32 :=
  if off.toNat + 4 ≤ 64 then d.word off else 0

/-- `load_word`. The end of the word is computed in 32 bits. -/
def loadWord {ε : Type} (d : SeccompData) (off : UInt32) : Outcome ε (Option UInt32) := do
  let stop ← Outcome.uadd 32 off.toNat 4
  if stop > 64 then return none else return some (d.word off)

end SeccompData

/-! ## The machine -/

/-- The registers and the scratch memory of `Vm`. -/
structure Vm where
  a : UInt32
  x : UInt32
  mem : Vector UInt32 16
  deriving DecidableEq, Repr

namespace Vm

/-- `Vm::new`. -/
def new : Vm := ⟨0, 0, Vector.replicate 16 0⟩

/-- A scratch word. -/
def cell (vm : Vm) (k : UInt32) : UInt32 := vm.mem.get ⟨k.toNat % 16, Nat.mod_lt _ (by decide)⟩

/-- Write a scratch word. -/
def setCell (vm : Vm) (k v : UInt32) : Vm :=
  { vm with mem := vm.mem.set (k.toNat % 16) v (Nat.mod_lt _ (by decide)) }

/-- The operand of an ALU or jump instruction. -/
def rhs (vm : Vm) (ins : BpfInsn) : UInt32 := if ins.src = Bpf.x then vm.x else ins.k

end Vm

/-- The ALU; none for a division by zero and for an unknown operation. -/
def alu (op : UInt16) (a rhs : UInt32) : Option UInt32 :=
  if op = Bpf.add then some (a + rhs)
  else if op = Bpf.sub then some (a - rhs)
  else if op = Bpf.mul then some (a * rhs)
  else if op = Bpf.div then if rhs = 0 then none else some (a / rhs)
  else if op = Bpf.mod then if rhs = 0 then none else some (a % rhs)
  else if op = Bpf.or then some (a ||| rhs)
  else if op = Bpf.and then some (a &&& rhs)
  else if op = Bpf.xor then some (a ^^^ rhs)
  else if op = Bpf.lsh then some (a <<< rhs)
  else if op = Bpf.rsh then some (a >>> rhs)
  else if op = Bpf.neg then some (0 - a)
  else none

/-- Is a conditional jump taken? None for an unknown condition. -/
def take (op : UInt16) (a rhs : UInt32) : Option Bool :=
  if op = Bpf.jeq then some (a = rhs)
  else if op = Bpf.jgt then some (a > rhs)
  else if op = Bpf.jge then some (a ≥ rhs)
  else if op = Bpf.jset then some (a &&& rhs ≠ 0)
  else none

/-- The target of a jump, in 64-bit arithmetic. -/
def target (pc : Nat) (off : Nat) : Nat := (pc + 1 + off) % 2 ^ 64

/-- What an instruction leads to. -/
inductive Flow where
  | go (pc : Nat) (vm : Vm)
  | ret
  | stop
  deriving DecidableEq, Repr

/-- How a program ends: at a `RET`, or in some other way (an instruction that cannot be
executed, the end of the program, or the limit on steps). -/
inductive Ending where
  | ret (ins : BpfInsn) (vm : Vm)
  | stop
  deriving DecidableEq, Repr

section Run

variable {m : Type → Type} [Monad m] (load : UInt32 → m UInt32)

/-- The body of the loop of `run`. -/
def execute (ins : BpfInsn) (pc : Nat) (vm : Vm) : m Flow :=
  if ins.cls = Bpf.ld then
    if ins.size = Bpf.w ∧ ins.mode = Bpf.abs then do
      let a ← load ins.k
      return .go (pc + 1) { vm with a }
    else if ins.size = Bpf.w ∧ ins.mode = Bpf.imm then return .go (pc + 1) { vm with a := ins.k }
    else if ins.size = Bpf.w ∧ ins.mode = Bpf.len then return .go (pc + 1) { vm with a := 64 }
    else if ins.size = Bpf.w ∧ ins.mode = Bpf.mem then
      return .go (pc + 1) { vm with a := vm.cell ins.k }
    else return .stop
  else if ins.cls = Bpf.ldx then
    if ins.size = Bpf.w ∧ ins.mode = Bpf.imm then return .go (pc + 1) { vm with x := ins.k }
    else if ins.size = Bpf.w ∧ ins.mode = Bpf.mem then
      return .go (pc + 1) { vm with x := vm.cell ins.k }
    else if ins.size = Bpf.w ∧ ins.mode = Bpf.len then return .go (pc + 1) { vm with x := 64 }
    else return .stop
  else if ins.cls = Bpf.st then return .go (pc + 1) (vm.setCell ins.k vm.a)
  else if ins.cls = Bpf.stx then return .go (pc + 1) (vm.setCell ins.k vm.x)
  else if ins.cls = Bpf.alu then
    match alu ins.op vm.a (vm.rhs ins) with
    | some a => return .go (pc + 1) { vm with a }
    | none => return .stop
  else if ins.cls = Bpf.jmp then
    if ins.op = Bpf.ja then return .go (target pc ins.k.toNat) vm
    else
      match take ins.op vm.a (vm.rhs ins) with
      | some taken => return .go (target pc (if taken then ins.jt else ins.jf).toNat) vm
      | none => return .stop
  else if ins.cls = Bpf.ret then return .ret
  else if ins.code = 0x07 then return .go (pc + 1) { vm with x := vm.a }
  else if ins.code = 0x87 then return .go (pc + 1) { vm with a := vm.x }
  else return .stop

/-- The loop of `run`, with a number of steps left. -/
def loop (program : List BpfInsn) : Nat → Nat → Vm → m Ending
  | 0, _, _ => return .stop
  | n + 1, pc, vm =>
    match program[pc]? with
    | none => return .stop
    | some ins => do
      match ← execute load ins pc vm with
      | .go pc vm => loop program n pc vm
      | .ret => return .ret ins vm
      | .stop => return .stop

end Run

/-! ## The code -/

namespace Action

def retKillProcess : UInt32 := 0x80000000
def retTrap : UInt32 := 0x00030000
def retErrno : UInt32 := 0x00050000
def retLog : UInt32 := 0x7ffc0000
def retAllow : UInt32 := 0x7fff0000

/-- The action bits of a value. -/
def ofValue (v : UInt32) : UInt32 := v &&& 0xffff0000

end Action

/-- The value of a `RET`. -/
def retValue (ins : BpfInsn) (vm : Vm) : UInt32 :=
  if ins.src = Bpf.x then vm.x else if ins.mode = 0x10 then vm.a else ins.k

/-- The limit on steps. -/
def maxSteps : Nat := 4096

/-- `Vm::run`. -/
def run (program : List BpfInsn) (data : SeccompData) : Outcome Empty UInt32 := do
  match ← loop (fun off => (·.getD 0) <$> data.loadWord off) program maxSteps 0 .new with
  | .ret ins vm => return retValue ins vm
  | .stop => return Action.retKillProcess

/-- `Filter`. -/
structure Filter where
  program : List BpfInsn
  pid : Nat
  deriving DecidableEq, Repr

/-- `FilterTable`. -/
structure FilterTable where
  slots : List (Option Filter)
  size : slots.length = 16
  deriving DecidableEq

namespace FilterTable

/-- `FilterTable::new`. -/
def new : FilterTable := ⟨List.replicate 16 none, List.length_replicate⟩

/-- Put a filter in a slot. -/
def put (t : FilterTable) (i : Nat) (filter : Filter) : FilterTable :=
  ⟨t.slots.set i (some filter), List.length_set.trans t.size⟩

/-- Does the slot hold the filter of the process? -/
def isFor (pid : Nat) (slot : Option Filter) : Bool := slot.any (·.pid == pid)

/-- `install`: in the place of the process's filter, or in the first free slot. -/
def install (t : FilterTable) (pid : Nat) (program : List BpfInsn) : Bool × FilterTable :=
  match t.slots.findIdx? (isFor pid) with
  | some i => (true, t.put i ⟨program, pid⟩)
  | none =>
    match t.slots.findIdx? Option.isNone with
    | some i => (true, t.put i ⟨program, pid⟩)
    | none => (false, t)

/-- `for_pid`. -/
def forPid (t : FilterTable) (pid : Nat) : Option Filter :=
  (t.slots.filterMap id).find? (·.pid == pid)

/-- A filter is found in a slot if no slot before holds one for the process. -/
lemma find?_set {pid : Nat} {program : List BpfInsn} {l : List (Option Filter)}
    {i : Nat} (hi : i < l.length) (hbefore : ∀ j (hj : j < i), isFor pid l[j] = false) :
    ((l.set i (some ⟨program, pid⟩)).filterMap id).find? (·.pid == pid) = some ⟨program, pid⟩ := by
  have hnone : ((l.take i).filterMap id).find? (·.pid == pid) = none := by
    refine List.find?_eq_none.mpr fun f hf => Bool.eq_false_iff.mp ?_
    obtain ⟨slot, hslot, rfl : slot = some f⟩ := List.mem_filterMap.mp hf
    obtain ⟨j, hj, hget⟩ := List.mem_take_iff_getElem.mp hslot
    exact (congrArg (isFor pid) hget).symm.trans (hbefore j (by omega))
  rw [List.set_eq_take_append_cons_drop, if_pos hi, List.filterMap_append, List.find?_append, hnone,
    List.filterMap_cons_some (f := id) rfl, Option.none_or]
  exact List.find?_cons_of_pos (p := fun f : Filter => f.pid == pid) (beq_self_eq_true pid)

/-- A program that is installed is the one that is found. -/
lemma forPid_install {t : FilterTable} {pid : Nat} {program : List BpfInsn}
    (h : (t.install pid program).1 = true) :
    (t.install pid program).2.forPid pid = some ⟨program, pid⟩ := by
  revert h
  unfold install
  split
  next i hfind =>
    intro _
    obtain ⟨hi, -, hbefore⟩ := List.findIdx?_eq_some_iff_getElem.mp hfind
    exact find?_set hi fun j hj => Bool.eq_false_iff.mpr (hbefore j hj)
  next hnot =>
    split
    next i hfree =>
      intro _
      obtain ⟨hi, -, -⟩ := List.findIdx?_eq_some_iff_getElem.mp hfree
      exact find?_set hi fun j _ => List.findIdx?_eq_none_iff.mp hnot _ (List.getElem_mem _)
    next => exact fun h => nomatch h

end FilterTable

/-- `Decision`. -/
inductive Decision where
  | allow
  | errno (e : UInt16)
  | log
  | kill
  | trap
  deriving DecidableEq, Repr

/-- What `check` makes of the value a filter returns. -/
def Decision.ofValue (v : UInt32) : Decision :=
  if Action.ofValue v = Action.retAllow then .allow
  else if Action.ofValue v = Action.retLog then .log
  else if Action.ofValue v = Action.retTrap then .trap
  else if Action.ofValue v = Action.retErrno then .errno (v &&& 0x0000ffff).toUInt16
  else if Action.ofValue v = Action.retKillProcess then .kill
  else .allow

/-- The data a filter is run over. -/
def syscallData (syscallNum : UInt64) (args : Vector UInt64 6) : SeccompData :=
  ⟨syscallNum.toUInt32, 0xc000003e, 0, args⟩

/-- `check`. -/
def check (t : FilterTable) (pid : Nat) (syscallNum : UInt64) (args : Vector UInt64 6) :
    Outcome Empty Decision :=
  match t.forPid pid with
  | none => return .allow
  | some filter => do
    let ret ← run filter.program (syscallData syscallNum args)
    return .ofValue ret

/-! ## Loading and returning -/

/-- The code's way to load a word. -/
abbrev codeLoad (data : SeccompData) (off : UInt32) : Outcome Empty UInt32 :=
  (·.getD 0) <$> data.loadWord off

/-- A load behind the data is zero; one whose end overflows panics. -/
lemma codeLoad_eq (data : SeccompData) (off : UInt32) : codeLoad data off =
    if 2 ^ 32 ≤ off.toNat + 4 then .panic else .ok (data.wordOrZero off) := by
  unfold codeLoad SeccompData.loadWord SeccompData.wordOrZero
  by_cases hover : 2 ^ 32 ≤ off.toNat + 4
  · rw [if_pos hover, uadd, if_neg (Nat.not_lt.mpr hover)]
    rfl
  · rw [if_neg hover, uadd_of_lt (Nat.lt_of_not_le hover), ok_bind]
    by_cases hin : off.toNat + 4 ≤ 64
    · rw [if_neg (Nat.not_lt.mpr hin), if_pos hin]
      rfl
    · rw [if_pos (Nat.lt_of_not_le hin), if_neg hin]
      rfl

/-- The bit that marks `RET|A` is not among the bits of the mode. -/
lemma mode_ne (ins : BpfInsn) : ins.mode ≠ 0x10 := by
  intro h
  have hbit : (ins.code &&& 0xe0) &&& 0x10 = 0x10 := by
    show ins.mode &&& 0x10 = 0x10
    rw [h]
    rfl
  rw [UInt16.and_assoc] at hbit
  have hzero : ins.code &&& (0xe0 &&& 0x10) = 0 := UInt16.and_zero
  exact absurd (hzero.symm.trans hbit) (by decide)

/-- No arguments. -/
def noArgs : Vector UInt64 6 := Vector.replicate 6 0

end RustOs.Seccomp
