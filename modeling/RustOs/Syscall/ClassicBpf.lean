import RustOs.Syscall.Seccomp

/-!
# Classic BPF

The meaning of a classic BPF program, and the interpreter of `seccomp.rs` against it. An
instruction has an operation, from which its code follows, and a program that the checker
accepts goes forward only. So its meaning is a recursion on what is left of it (`eval`), with
neither a counter nor a limit on steps.

`run_eq_eval`: on accepted programs the interpreter does as it should in all but one thing,
`RET|A`, which it takes for `RET|K`; the limit on steps is never in the way. The program of
`build_allowlist` can be longer than what the checker accepts, but it takes few enough steps
(`run_buildAllowlist`).
-/

namespace RustOs.Seccomp

open Lib Outcome List Nat

/-! ## Instructions -/

/-- Where the second operand comes from. -/
inductive Source where
  | k
  | x

/-- The operations of the ALU. -/
inductive AluOp where
  | add | sub | mul | div | mod | or | and | xor | lsh | rsh
  deriving DecidableEq

/-- The conditions of a jump. -/
inductive Cond where
  | jeq | jgt | jge | jset

/-- The operations. -/
inductive Op where
  | ldAbs | ldImm | ldLen | ldMem
  | ldxImm | ldxLen | ldxMem
  | st | stx
  | alu (op : AluOp) (src : Source)
  | neg
  | ja
  | jump (cond : Cond) (src : Source)
  | retK | retA
  | tax | txa

def Source.code : Source → UInt16
  | k => 0x00
  | x => 0x08

def AluOp.code : AluOp → UInt16
  | add => 0x00 | sub => 0x10 | mul => 0x20 | div => 0x30 | or => 0x40 | and => 0x50
  | lsh => 0x60 | rsh => 0x70 | mod => 0x90 | xor => 0xa0

def Cond.code : Cond → UInt16
  | jeq => 0x10 | jgt => 0x20 | jge => 0x30 | jset => 0x40

def Op.code : Op → UInt16
  | ldAbs => 0x20 | ldImm => 0x00 | ldLen => 0x80 | ldMem => 0x60
  | ldxImm => 0x01 | ldxLen => 0x81 | ldxMem => 0x61
  | st => 0x02 | stx => 0x03
  | alu op src => 0x04 ||| op.code ||| src.code
  | neg => 0x84
  | ja => 0x05
  | jump cond src => 0x05 ||| cond.code ||| src.code
  | retK => 0x06 | retA => 0x16
  | tax => 0x07 | txa => 0x87

/-- An instruction whose code is that of an operation. -/
structure Instr where
  op : Op
  ins : BpfInsn
  code : ins.code = op.code

/-! ## The meaning -/

/-- The result of an operation; a division by zero has none. -/
def AluOp.result (a b : UInt32) : AluOp → Option UInt32
  | add => some (a + b)
  | sub => some (a - b)
  | mul => some (a * b)
  | div => if b = 0 then none else some (a / b)
  | mod => if b = 0 then none else some (a % b)
  | or => some (a ||| b)
  | and => some (a &&& b)
  | xor => some (a ^^^ b)
  | lsh => some (a <<< b)
  | rsh => some (a >>> b)

def Cond.Holds (a b : UInt32) : Cond → Bool
  | jeq => a = b
  | jgt => a > b
  | jge => a ≥ b
  | jset => a &&& b ≠ 0

/-- How a program ends: with `RET|K`, with `RET|A`, where `k` means nothing, or by a division by
zero, which kills. -/
inductive Verdict where
  | ret (k : UInt32)
  | acc (a k : UInt32)
  | kill
  deriving DecidableEq

/-- The value that is returned. -/
def Verdict.value : Verdict → UInt32
  | ret k => k
  | acc a _ => a
  | kill => Action.retKillProcess

/-- What an instruction does. -/
inductive Effect where
  | next (vm : Vm)
  | jump (off : Nat)
  | done (v : Verdict)

def Source.value (vm : Vm) (k : UInt32) : Source → UInt32
  | .k => k
  | .x => vm.x

def Instr.effect (data : SeccompData) (i : Instr) (vm : Vm) : Effect :=
  match i.op with
  | .ldAbs => .next { vm with a := data.wordOrZero i.ins.k }
  | .ldImm => .next { vm with a := i.ins.k }
  | .ldLen => .next { vm with a := 64 }
  | .ldMem => .next { vm with a := vm.cell i.ins.k }
  | .ldxImm => .next { vm with x := i.ins.k }
  | .ldxLen => .next { vm with x := 64 }
  | .ldxMem => .next { vm with x := vm.cell i.ins.k }
  | .st => .next (vm.setCell i.ins.k vm.a)
  | .stx => .next (vm.setCell i.ins.k vm.x)
  | .alu op src =>
    match op.result vm.a (src.value vm i.ins.k) with
    | some a => .next { vm with a }
    | none => .done .kill
  | .neg => .next { vm with a := 0 - vm.a }
  | .ja => .jump i.ins.k.toNat
  | .jump cond src =>
    .jump (if cond.Holds vm.a (src.value vm i.ins.k) then i.ins.jt else i.ins.jf).toNat
  | .retK => .done (.ret i.ins.k)
  | .retA => .done (.acc vm.a i.ins.k)
  | .tax => .next { vm with x := vm.a }
  | .txa => .next { vm with a := vm.x }

/-- What is left of a program is run. -/
def eval (data : SeccompData) : List Instr → Vm → Verdict
  | [], _ => .kill
  | i :: rest, vm =>
    match i.effect data vm with
    | .next vm => eval data rest vm
    | .jump off => eval data (rest.drop off) vm
    | .done v => v
termination_by program => program.length
decreasing_by
  · exact Nat.lt_succ_self _
  · rw [List.length_drop]
    exact Nat.lt_succ_of_le (Nat.sub_le _ _)

/-- What the checker asks of an instruction with that many behind it. -/
def Instr.Valid (i : Instr) (rest : Nat) : Prop :=
  match i.op with
  | .ldAbs => i.ins.k.toNat % 4 = 0 ∧ i.ins.k.toNat < 64
  | .ldMem | .ldxMem | .st | .stx => i.ins.k.toNat < 16
  | .alu op .k =>
    (op = .div ∨ op = .mod → i.ins.k ≠ 0) ∧ (op = .lsh ∨ op = .rsh → i.ins.k.toNat < 32)
  | .ja => i.ins.k.toNat < rest
  | .jump _ _ => i.ins.jt.toNat < rest ∧ i.ins.jf.toNat < rest
  | _ => True

/-- The instructions are valid, and the last one is a `RET`. -/
def Valid : List Instr → Prop
  | [] => False
  | i :: rest =>
    i.Valid rest.length ∧ (rest = [] ∧ (i.op = .retK ∨ i.op = .retA) ∨ Valid rest)

/-- The checker accepts the program. -/
structure Accepted (program : List Instr) : Prop where
  valid : Valid program
  short : program.length ≤ 4096

/-! ## The interpreter -/

/-- What the interpreter makes of an ending: it returns `k` in any case. -/
def Verdict.taken : Verdict → UInt32
  | ret k => k
  | acc _ k => k
  | kill => Action.retKillProcess

/-- The value of an ending of the loop. -/
def Ending.value : Ending → UInt32
  | ret ins vm => retValue ins vm
  | stop => Action.retKillProcess

variable {data : SeccompData}

/-- What the interpreter goes on with after an instruction. -/
def Effect.flow (pc : Nat) (vm : Vm) : Effect → Flow
  | next vm => .go (pc + 1) vm
  | jump off => .go (target pc off) vm
  | done .kill => .stop
  | done _ => .ret

section

variable {program : List BpfInsn} {ins : BpfInsn} {n pc pc' : Nat} {vm vm' : Vm}

lemma loop_go (hat : program[pc]? = some ins)
    (h : execute (codeLoad data) ins pc vm = .ok (.go pc' vm')) :
    loop (codeLoad data) program (n + 1) pc vm = loop (codeLoad data) program n pc' vm' := by
  rw [loop, hat]
  dsimp only
  rw [h, ok_bind]

lemma loop_ret (hat : program[pc]? = some ins)
    (h : execute (codeLoad data) ins pc vm = .ok .ret) :
    loop (codeLoad data) program (n + 1) pc vm = .ok (.ret ins vm) := by
  rw [loop, hat]
  dsimp only
  rw [h, ok_bind]
  rfl

end

lemma alu_code (op : AluOp) (a b : UInt32) : alu op.code a b = op.result a b := by
  cases op <;> simp +decide only [alu, AluOp.result, ↓reduceIte]

lemma take_code (cond : Cond) (a b : UInt32) : take cond.code a b = some (cond.Holds a b) := by
  cases cond <;> simp +decide only [take, Cond.Holds, ↓reduceIte]

lemma rhs_code {code : UInt16} {src : Source} (h : code &&& 0x08 = src.code) (jt jf : UInt8)
    (k : UInt32) (vm : Vm) : vm.rhs ⟨code, jt, jf, k⟩ = src.value vm k := by
  unfold Vm.rhs BpfInsn.src
  rw [h]
  cases src with
  | k => exact if_neg (by decide)
  | x => exact if_pos (by decide)

/-- The end of the word that the instruction loads fits 32 bits. -/
def Instr.LoadFits (i : Instr) : Prop := i.op = .ldAbs → i.ins.k.toNat + 4 < 2 ^ 32

lemma Instr.Valid.loadFits {i : Instr} {rest : Nat} (h : i.Valid rest) : i.LoadFits := by
  intro hop
  unfold Instr.Valid at h
  rw [hop] at h
  omega

/-- The interpreter decodes an instruction as what it is. -/
lemma execute_instr (i : Instr) (hload : i.LoadFits) (pc : Nat) (vm : Vm) :
    execute (codeLoad data) i.ins pc vm = .ok ((i.effect data vm).flow pc vm) := by
  obtain ⟨op, ⟨code, jt, jf, k⟩, hcode⟩ := i
  obtain rfl : code = op.code := hcode
  cases op with
  | ldAbs =>
    have hload : codeLoad data k = .ok (data.wordOrZero k) := by
      rw [codeLoad_eq, if_neg (Nat.not_le.mpr (hload rfl))]
    simp +decide only [execute, BpfInsn.cls, BpfInsn.size, BpfInsn.mode, ↓reduceIte, hload]
    rfl
  | alu op src =>
    have hcls : (Op.alu op src).code &&& 0x07 = Bpf.alu := by
      cases op <;> cases src <;> decide
    have hop : (Op.alu op src).code &&& 0xf0 = op.code := by
      cases op <;> cases src <;> decide
    have hsrc : (Op.alu op src).code &&& 0x08 = src.code := by
      cases op <;> cases src <;> decide
    simp +decide only [execute, BpfInsn.cls, BpfInsn.op, hcls, hop, rhs_code hsrc, alu_code,
      ↓reduceIte, Instr.effect]
    cases op.result vm.a (src.value vm k) <;> rfl
  | jump cond src =>
    have hcls : (Op.jump cond src).code &&& 0x07 = Bpf.jmp := by
      cases cond <;> cases src <;> decide
    have hop : (Op.jump cond src).code &&& 0xf0 = cond.code := by
      cases cond <;> cases src <;> decide
    have hsrc : (Op.jump cond src).code &&& 0x08 = src.code := by
      cases cond <;> cases src <;> decide
    have hja : cond.code ≠ Bpf.ja := by
      cases cond <;> decide
    simp +decide only [execute, BpfInsn.cls, BpfInsn.op, hcls, hop, hja, rhs_code hsrc, take_code,
      ↓reduceIte]
    rfl
  | _ =>
    simp +decide only [execute, BpfInsn.cls, BpfInsn.size, BpfInsn.mode, BpfInsn.op, alu,
      ↓reduceIte]
    rfl

lemma Instr.Valid.effect_jump {i : Instr} {rest off : Nat} {vm : Vm} (hvalid : i.Valid rest)
    (h : i.effect data vm = .jump off) : off < rest := by
  obtain ⟨op, ins, hcode⟩ := i
  cases op <;> simp only [Instr.effect, Instr.Valid] at h hvalid <;> grind

/-- The interpreter asks the field of the mode for a bit that it does not have. -/
lemma retValue_of_src_ne (code : UInt16) (h : code &&& 0x08 ≠ Bpf.x) {jt jf : UInt8}
    {k : UInt32} {vm : Vm} : retValue ⟨code, jt, jf, k⟩ vm = k := by
  unfold retValue BpfInsn.src
  rw [if_neg h, if_neg (mode_ne _)]

/-- What is returned for a verdict. -/
lemma Instr.retValue_effect {i : Instr} {v : Verdict} {vm : Vm} (h : i.effect data vm = .done v)
    (hkill : v ≠ .kill) : retValue i.ins vm = v.taken := by
  obtain ⟨op, ⟨code, jt, jf, k⟩, hcode⟩ := i
  obtain rfl : code = op.code := hcode
  cases op with
  | retK =>
    obtain rfl : Verdict.ret k = v := Effect.done.inj h
    exact retValue_of_src_ne 0x06 (by decide)
  | retA =>
    obtain rfl : Verdict.acc vm.a k = v := Effect.done.inj h
    exact retValue_of_src_ne 0x16 (by decide)
  | _ =>
    simp only [Instr.effect] at h
    grind

lemma Valid.drop {rest : List Instr} {off : Nat} (hvalid : Valid rest)
    (hoff : off < rest.length) : Valid (rest.drop off) := by
  induction off generalizing rest with
  | zero => exact hvalid
  | succ off ih =>
    cases rest with
    | nil => exact hvalid
    | cons i rest =>
      obtain ⟨-, ⟨rfl, -⟩ | hrest⟩ := hvalid
      · exact absurd hoff (by simp)
      · exact ih hrest (lt_of_succ_lt_succ hoff)

/-- The interpreter at the beginning of what is left of a program: it does not take more steps
than there are instructions left. -/
lemma loop_eq_eval {n : Nat} (before : List Instr) {rest : List Instr} (hvalid : Valid rest)
    (hle : rest.length ≤ n) (hshort : before.length + rest.length < 2 ^ 64) (vm : Vm) :
    ∃ e, loop (codeLoad data) ((before ++ rest).map (·.ins)) n before.length vm = .ok e ∧
      e.value = (eval data rest vm).taken := by
  -- the program is cut at the program counter: both branches move the cut forward
  induction n generalizing before rest vm with
  | zero =>
    obtain rfl : rest = [] := length_eq_zero_iff.mp (le_zero.mp hle)
    exact hvalid.elim
  | succ n ih =>
    cases rest with
    | nil => exact hvalid.elim
    | cons i rest =>
      have hat : ((before ++ i :: rest).map (·.ins))[before.length]? = some i.ins := by simp
      rw [length_cons] at hle hshort
      unfold loop eval
      rw [hat]
      dsimp only
      rw [execute_instr i hvalid.1.loadFits, ok_bind]
      cases heffect : i.effect data vm with
      | next vm' =>
        have hrest : Valid rest := by
          obtain ⟨-, ⟨-, hret⟩ | hrest⟩ := hvalid
          · unfold Instr.effect at heffect
            grind
          · exact hrest
        have hnext := ih (before ++ [i]) hrest (by omega) (by simp; omega) vm'
        rwa [append_assoc, length_append] at hnext
      | jump off =>
        have hoff := hvalid.1.effect_jump heffect
        have hrest : Valid rest := by
          obtain ⟨-, ⟨rfl, -⟩ | hrest⟩ := hvalid
          · exact absurd hoff (not_lt_zero _)
          · exact hrest
        have htarget : target before.length off = (before ++ i :: rest.take off).length := by
          unfold target
          simp
          omega
        have hnext := ih (before ++ i :: rest.take off) (hrest.drop hoff)
          (by rw [length_drop]; omega) (by simp; omega) vm
        rw [← htarget, append_assoc, cons_append, take_append_drop] at hnext
        exact hnext
      | done v =>
        cases hv : v with
        | kill => exact ⟨.stop, rfl, rfl⟩
        | _ => exact ⟨.ret i.ins vm, rfl, hv ▸ i.retValue_effect heffect (by simp [hv])⟩

lemma run_of_loop {program : List BpfInsn} {e : Ending}
    (h : loop (codeLoad data) program maxSteps 0 .new = .ok e) :
    run program data = .ok e.value := by
  unfold run
  rw [h]
  cases e <;> rfl

/-- The interpreter on an accepted program. -/
lemma run_eq_eval {program : List Instr} (h : Accepted program) (data : SeccompData) :
    run (program.map (·.ins)) data = .ok (eval data program .new).taken := by
  obtain ⟨e, hloop, hvalue⟩ := loop_eq_eval [] h.valid h.short
    (Nat.lt_of_le_of_lt (Nat.add_le_add_left h.short _) (by decide)) .new
  rw [← hvalue]
  exact run_of_loop hloop

/-- The value is the one of classic BPF, unless the program ends at a `RET|A` with another
accumulator than its `k`. -/
theorem run_classic_iff {program : List Instr} (h : Accepted program) (data : SeccompData) :
    run (program.map (·.ins)) data = .ok (eval data program .new).value ↔
      ∀ a k, eval data program .new = .acc a k → a = k := by
  rw [run_eq_eval h]
  cases eval data program .new with
  | acc a k =>
    constructor
    · rintro hok _ _ ⟨⟩
      exact (ok.inj hok).symm
    · intro hall
      rw [hall a k rfl]
      rfl
  | _ => exact ⟨fun _ _ _ h => (nomatch h), fun _ => rfl⟩

/-- The accumulator says `Errno`, `k` says `Allow`. -/
def returnsAccumulator : List Instr :=
  [⟨.ldImm, ⟨0x00, 0, 0, Action.retErrno⟩, rfl⟩, ⟨.retA, ⟨0x16, 0, 0, Action.retAllow⟩, rfl⟩]

def writeData : SeccompData := syscallData 1 noArgs

lemma accepted_returnsAccumulator : Accepted returnsAccumulator :=
  ⟨⟨trivial, .inr ⟨trivial, .inl ⟨rfl, .inr rfl⟩⟩⟩, by decide⟩

/-- A filter that returns the accumulator. -/
theorem run_classic_iff_returnsAccumulator : Accepted returnsAccumulator ∧
    (run (returnsAccumulator.map (·.ins)) writeData =
        .ok (eval writeData returnsAccumulator .new).value ↔
      ∀ a k, eval writeData returnsAccumulator .new = .acc a k → a = k) :=
  ⟨accepted_returnsAccumulator, run_classic_iff accepted_returnsAccumulator _⟩

/-- It is run as one that returns its constant. -/
theorem run_retA_returns_k : Accepted returnsAccumulator ∧
    run (returnsAccumulator.map (·.ins)) writeData ≠
      .ok (eval writeData returnsAccumulator .new).value := by
  refine ⟨accepted_returnsAccumulator, ?_⟩
  rw [run_eq_eval accepted_returnsAccumulator]
  decide +kernel

/-! ## Lists of syscalls -/

def Bpf.k : UInt16 := 0x00

/-- The instructions of `build_allowlist` for a syscall. -/
def allowTest (nr : UInt32) : List BpfInsn :=
  [⟨Bpf.jmp ||| Bpf.jeq ||| Bpf.k, 0, 1, nr⟩, ⟨Bpf.ret ||| Bpf.k, 0, 0, Action.retAllow⟩]

/-- `build_allowlist`. -/
def buildAllowlist (allowed : List UInt32) (default : UInt32) : List BpfInsn :=
  ⟨Bpf.ld ||| Bpf.w ||| Bpf.abs, 0, 0, 0⟩ ::
    (allowed.flatMap allowTest ++ [⟨Bpf.ret ||| Bpf.k, 0, 0, default⟩])

lemma execute_allowTest (data : SeccompData) (nr : UInt32) (pc : Nat) (vm : Vm) :
    execute (codeLoad data) ⟨Bpf.jmp ||| Bpf.jeq ||| Bpf.k, 0, 1, nr⟩ pc vm =
      .ok (.go (target pc (if vm.a = nr then 0 else 1)) vm) := by
  refine (execute_instr ⟨.jump .jeq .k, ⟨_, 0, 1, nr⟩, rfl⟩ (fun h => nomatch h) pc vm).trans ?_
  by_cases hnr : vm.a = nr <;> simp [Instr.effect, Cond.Holds, Source.value, Effect.flow, hnr]

lemma execute_retK (k : UInt32) (pc : Nat) (vm : Vm) :
    execute (codeLoad data) ⟨Bpf.ret ||| Bpf.k, 0, 0, k⟩ pc vm = .ok .ret :=
  execute_instr ⟨.retK, ⟨_, 0, 0, k⟩, rfl⟩ (fun h => nomatch h) pc vm

/-- The interpreter at the beginning of the tests that are left: they take a step each. -/
lemma loop_allowTests {allowed : List UInt32} (last : UInt32) (before : List BpfInsn) {n : Nat}
    (hn : allowed.length < n) (hshort : before.length + 2 * allowed.length < 2 ^ 63) (vm : Vm) :
    ∃ e, loop (codeLoad data)
        (before ++ (allowed.flatMap allowTest ++ [⟨Bpf.ret ||| Bpf.k, 0, 0, last⟩])) n
        before.length vm = .ok e ∧
      e.value = if vm.a ∈ allowed then Action.retAllow else last := by
  induction allowed generalizing before n with
  | nil =>
    obtain ⟨n, rfl⟩ := Nat.exists_eq_succ_of_ne_zero (Nat.ne_zero_of_lt hn)
    exact ⟨_, loop_ret getElem?_concat_length (execute_retK ..), retValue_of_src_ne _ (by decide)⟩
  | cons nr allowed ih =>
    rw [length_cons] at hn hshort
    -- the test and the `RET` behind it
    obtain ⟨n, rfl⟩ : ∃ n', n = n' + 2 := ⟨n - 2, by omega⟩
    have htest := execute_allowTest data nr before.length vm
    rw [target, mod_eq_of_lt (by split <;> omega)] at htest
    rw [loop_go (by simp [allowTest]) htest]
    by_cases hnr : vm.a = nr
    · rw [if_pos hnr, if_pos (hnr ▸ mem_cons_self)]
      exact ⟨_, loop_ret (by simp [allowTest]) (execute_retK ..), retValue_of_src_ne _ (by decide)⟩
    · have hnext := ih (before ++ allowTest nr) (n := n + 1) (by omega) (by simp [allowTest]; omega)
      rw [append_assoc, length_append] at hnext
      rw [if_neg hnr, flatMap_cons, append_assoc]
      simp only [mem_cons, hnr, false_or]
      exact hnext

/-- `nr` is the first word of the data. -/
lemma SeccompData.word_zero (data : SeccompData) : data.word 0 = data.nr := by
  have h := leAt_append_leBytes 4 data.nr.toNat []
  unfold word bytes
  rw [append_assoc, append_assoc]
  exact (congrArg UInt32.ofNat (h _)).trans (by simp)

/-- The run of the list, from the first test on. -/
lemma loop_buildAllowlist {allowed : List UInt32} (h : allowed.length ≤ 4094) (default : UInt32)
    (data : SeccompData) :
    ∃ e, loop (codeLoad data) (buildAllowlist allowed default) maxSteps 0 .new = .ok e ∧
      e.value = if data.nr ∈ allowed then Action.retAllow else default := by
  have hload : execute (codeLoad data) ⟨Bpf.ld ||| Bpf.w ||| Bpf.abs, 0, 0, 0⟩ 0 .new =
      .ok (.go 1 { Vm.new with a := data.nr }) := by
    rw [← data.word_zero]
    exact execute_instr ⟨.ldAbs, ⟨_, 0, 0, 0⟩, rfl⟩ (fun _ => by decide) 0 .new
  obtain ⟨e, hloop, hvalue⟩ := loop_allowTests default (n := 4095)
    [⟨Bpf.ld ||| Bpf.w ||| Bpf.abs, 0, 0, 0⟩] (lt_succ_of_le h)
    (by simp; omega) { Vm.new with a := data.nr }
  refine ⟨e, ?_, hvalue⟩
  rw [← hloop]
  exact loop_go rfl hload

/-- A filter of `build_allowlist` allows the syscalls of the list and no other. -/
theorem run_buildAllowlist {allowed : List UInt32} (h : allowed.length ≤ 4094) (default : UInt32)
    (data : SeccompData) : run (buildAllowlist allowed default) data =
      .ok (if data.nr ∈ allowed then Action.retAllow else default) := by
  obtain ⟨e, hloop, hvalue⟩ := loop_buildAllowlist h default data
  rw [run_of_loop hloop, hvalue]

/-- Write is on the list. -/
theorem run_buildAllowlist_write : [0, 1, 1].length ≤ 4094 ∧
    run (buildAllowlist [0, 1, 1] Action.retErrno) writeData = .ok Action.retAllow :=
  ⟨by decide, (run_buildAllowlist (by decide) _ _).trans (by decide)⟩

end RustOs.Seccomp
