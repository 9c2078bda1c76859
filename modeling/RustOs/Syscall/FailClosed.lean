import Mathlib.Data.Vector.Defs
import RustOs.Syscall.ClassicBpf

/-!
# Filters that fail closed

A filter is any list of instructions. `document` is what classic BPF makes of it: an instruction
means something only if its code is that of an operation, and any other ends the program as one
that is killed. It has no limit on steps, and `RET|A` returns the accumulator.

A filter fails closed if a syscall passes only when that run came to a `RET` whose action lets
it pass. The interpreter departs from it in four ways: an action it does not know is an `Allow`
to it, it takes `RET|A` for `RET|K`, it panics where the end of a loaded word overflows, and it
looks at some bits of a code only, so that it goes on at codes that mean nothing.
`check_failsClosed_iff` says for which filters this does no harm.
-/

namespace RustOs.Seccomp

open Lib Outcome Nat
open List hiding Vector

/-! ## The meaning of any list of instructions -/

/-- All operations. -/
def Op.all : List Op :=
  [.ldAbs, .ldImm, .ldLen, .ldMem, .ldxImm, .ldxLen, .ldxMem, .st, .stx, .neg, .ja, .retK, .retA,
    .tax, .txa]
    ++ [.k, .x].flatMap fun src =>
      [AluOp.add, .sub, .mul, .div, .mod, .or, .and, .xor, .lsh, .rsh].map (.alu · src)
        ++ [Cond.jeq, .jgt, .jge, .jset].map (.jump · src)

lemma Op.mem_all (op : Op) : op ∈ Op.all := by
  rcases op with _ | _ | _ | _ | _ | _ | _ | _ | _ | ⟨op, src⟩ | _ | _ | ⟨cond, src⟩ | _ | _ | _ | _
  case alu => cases op <;> cases src <;> simp [Op.all]
  case jump => cases cond <;> cases src <;> simp [Op.all]
  all_goals simp [Op.all]

/-- What the instruction means, if its code is that of an operation. -/
def BpfInsn.meaning (ins : BpfInsn) : Option Instr :=
  Op.all.findSome? fun op => if h : ins.code = op.code then some ⟨op, ins, h⟩ else none

lemma BpfInsn.meaning_ins {ins : BpfInsn} {i : Instr} (h : ins.meaning = some i) : i.ins = ins := by
  obtain ⟨op, _, hop⟩ := exists_of_findSome?_eq_some h
  split at hop
  next =>
    cases hop
    rfl
  next => cases hop

/-- An instruction without a meaning has the code of no operation. -/
lemma BpfInsn.meaning_eq_none {ins : BpfInsn} : ins.meaning = none ↔
    ∀ op : Op, ins.code ≠ op.code := by
  unfold meaning
  rw [findSome?_eq_none_iff]
  constructor
  · intro h op hcode
    have hop := h op op.mem_all
    rw [dif_pos hcode] at hop
    cases hop
  · exact fun h op _ => dif_neg (h op)

/-- How the program ends by the rules of classic BPF. -/
def document (data : SeccompData) : List BpfInsn → Vm → Verdict
  | [], _ => .kill
  | ins :: rest, vm =>
    match ins.meaning with
    | none => .kill
    | some i =>
      match i.effect data vm with
      | .next vm => document data rest vm
      | .jump off => document data (rest.drop off) vm
      | .done v => v
termination_by program => program.length
decreasing_by
  · exact Nat.lt_succ_self _
  · rw [List.length_drop]
    exact Nat.lt_succ_of_le (Nat.sub_le _ _)

/-- The value of the `RET` the program came to. -/
def Verdict.returned : Verdict → Option UInt32
  | ret k => some k
  | acc a _ => some a
  | kill => none

/-- The program comes to a `RET` whose value has these action bits. -/
def Reaches (program : List BpfInsn) (data : SeccompData) (action : UInt32) : Prop :=
  ∃ v, (document data program .new).returned = some v ∧ Action.ofValue v = action

/-- The filter fails closed on this syscall: `check` returns, and what it answers is backed by
the meaning of the program. -/
def FailsClosed (program : List BpfInsn) (data : SeccompData) (answer : Outcome Empty Decision) :
    Prop :=
  ∃ d, answer = .ok d ∧
    (d = .allow → Reaches program data Action.retAllow) ∧
    (d = .log → Reaches program data Action.retLog) ∧
    ∀ action, Reaches program data action → action ≠ Action.retAllow → action ≠ Action.retLog →
      d = .kill ∨ d = .trap ∨ ∃ e, d = .errno e

/-! ## The condition -/

/-- The interpreter refuses the code: it knows none with these fields. -/
def BpfInsn.Refused (ins : BpfInsn) : Prop :=
  ins.cls = Bpf.ld ∧ ¬(ins.size = Bpf.w ∧ ins.mode ∈ [Bpf.abs, Bpf.imm, Bpf.len, Bpf.mem]) ∨
  ins.cls = Bpf.ldx ∧ ¬(ins.size = Bpf.w ∧ ins.mode ∈ [Bpf.imm, Bpf.mem, Bpf.len]) ∨
  ins.cls = Bpf.alu ∧ ins.op ∉ [Bpf.add, Bpf.sub, Bpf.mul, Bpf.div, Bpf.mod, Bpf.or, Bpf.and,
    Bpf.xor, Bpf.lsh, Bpf.rsh, Bpf.neg] ∨
  ins.cls = Bpf.jmp ∧ ins.op ∉ [Bpf.ja, Bpf.jeq, Bpf.jgt, Bpf.jge, Bpf.jset] ∨
  ins.cls = Bpf.misc ∧ ins.code ≠ 0x07 ∧ ins.code ≠ 0x87

/-- The action bits of the value are those of an action the code knows. -/
def Known (v : UInt32) : Prop :=
  Action.ofValue v = Action.retAllow ∨ Action.ofValue v = Action.retLog ∨
  Action.ofValue v = Action.retTrap ∨ Action.ofValue v = Action.retErrno ∨
  Action.ofValue v = Action.retKillProcess

/-- The interpreter's reading of an ending does no harm. -/
def Verdict.Fits : Verdict → Prop
  | ret k => Known k
  | acc a k =>
    (Action.ofValue k = Action.retLog → Action.ofValue a = Action.retLog) ∧
    (Action.ofValue k = Action.retAllow ∨ ¬ Known k → Action.ofValue a = Action.retAllow)
  | kill => True

/-- The programs that fail closed. Of what is reached within `n` steps, an instruction without a
meaning is refused, the end of a loaded word does not overflow, and a `RET` fits. -/
def Fits (data : SeccompData) : Nat → List BpfInsn → Vm → Prop
  | 0, _, _ => True
  | _ + 1, [], _ => True
  | n + 1, ins :: rest, vm =>
    match ins.meaning with
    | none => ins.Refused
    | some i => i.LoadFits ∧
      match i.effect data vm with
      | .next vm => Fits data n rest vm
      | .jump off => Fits data n (rest.drop off) vm
      | .done v => v.Fits

/-! ## The interpreter -/

variable {data : SeccompData} {program : List BpfInsn} {ins : BpfInsn} {n pc : Nat} {vm : Vm}

/-- What the interpreter refuses stops the run. -/
lemma execute_refused (h : ins.Refused) :
    execute (codeLoad data) ins pc vm = .ok .stop := by
  unfold execute
  rcases h with ⟨hcls, h⟩ | ⟨hcls, h⟩ | ⟨hcls, h⟩ | ⟨hcls, h⟩ | ⟨hcls, h₁, h₂⟩
  · have hno : ∀ m ∈ [Bpf.abs, Bpf.imm, Bpf.len, Bpf.mem], ¬(ins.size = Bpf.w ∧ ins.mode = m) :=
      fun m hm hw => h ⟨hw.1, hw.2 ▸ hm⟩
    rw [if_pos hcls, if_neg (hno _ (by simp)), if_neg (hno _ (by simp)), if_neg (hno _ (by simp)),
      if_neg (hno _ (by simp))]
    rfl
  · have hno : ∀ m ∈ [Bpf.imm, Bpf.mem, Bpf.len], ¬(ins.size = Bpf.w ∧ ins.mode = m) :=
      fun m hm hw => h ⟨hw.1, hw.2 ▸ hm⟩
    rw [hcls, if_neg (by decide), if_pos rfl, if_neg (hno _ (by simp)), if_neg (hno _ (by simp)),
      if_neg (hno _ (by simp))]
    rfl
  · simp only [mem_cons, not_mem_nil, or_false, not_or] at h
    have hnone : alu ins.op vm.a (vm.rhs ins) = none := by simp [alu, h]
    rw [hcls, hnone]
    rfl
  · simp only [mem_cons, not_mem_nil, or_false, not_or] at h
    have hnone : take ins.op vm.a (vm.rhs ins) = none := by simp [take, h]
    rw [hcls, hnone, if_neg h.1]
    rfl
  · rw [hcls, if_neg h₁, if_neg h₂]
    rfl

/-- An offset that overflows panics. -/
lemma execute_overflow {i : Instr} (h : ¬ i.LoadFits) :
    execute (codeLoad data) i.ins pc vm = .panic := by
  obtain ⟨op, ⟨code, jt, jf, k⟩, hcode⟩ := i
  obtain ⟨rfl, hover⟩ : op = .ldAbs ∧ ¬ k.toNat + 4 < 2 ^ 32 := by simpa [Instr.LoadFits] using h
  obtain rfl : code = 0x20 := hcode
  have hload : codeLoad data k = .panic := by
    rw [codeLoad_eq, if_pos (Nat.not_lt.mp hover)]
  simp +decide only [execute, BpfInsn.cls, BpfInsn.size, BpfInsn.mode, ↓reduceIte, hload]
  rfl

lemma effect_jump_lt {i : Instr} {off : Nat} (h : i.effect data vm = .jump off) : off < 2 ^ 32 := by
  obtain ⟨op, ⟨code, jt, jf, k⟩, hcode⟩ := i
  have hk := k.toNat_lt
  have hjt := jt.toNat_lt
  have hjf := jf.toNat_lt
  cases op <;> simp only [Instr.effect] at h <;> grind

/-- The interpreter against the meaning, from any place of the program. If nothing that is reached
departs from it, the interpreter ends as it should or is out of steps. Otherwise, unless it went on
at a code that means nothing, it panics or ends with a value that does harm. -/
lemma loop_document (hlen : program.length < 2 ^ 63) (n : Nat) : ∀ pc vm,
    (Fits data n (program.drop pc) vm → ∃ e, loop (codeLoad data) program n pc vm = .ok e ∧
      (e = .stop ∨ e.value = (document data (program.drop pc) vm).taken ∧
        (document data (program.drop pc) vm).Fits)) ∧
    ((∀ ins ∈ program, ins.meaning ≠ none ∨ ins.Refused) → ¬ Fits data n (program.drop pc) vm →
      loop (codeLoad data) program n pc vm = .panic ∨
      ∃ e, loop (codeLoad data) program n pc vm = .ok e ∧
        e.value = (document data (program.drop pc) vm).taken ∧
        ¬ (document data (program.drop pc) vm).Fits) := by
  induction n with
  | zero => exact fun pc vm => ⟨fun _ => ⟨.stop, rfl, .inl rfl⟩, fun _ h => absurd trivial h⟩
  | succ n ih =>
    intro pc vm
    unfold loop
    cases hat : program[pc]? with
    | none =>
      rw [drop_eq_nil_of_le (getElem?_eq_none_iff.mp hat)]
      exact ⟨fun _ => ⟨.stop, rfl, .inl rfl⟩, fun _ h => absurd trivial h⟩
    | some ins =>
      obtain ⟨hpc, hget⟩ := List.getElem?_eq_some_iff.mp hat
      rw [drop_eq_getElem_cons hpc, hget]
      dsimp only
      unfold Fits document
      cases hmeaning : ins.meaning with
      | none =>
        constructor
        · intro hrefused
          rw [execute_refused hrefused]
          exact ⟨.stop, rfl, .inl rfl⟩
        · intro hplain hfits
          have hmem : ins ∈ program := hget ▸ getElem_mem hpc
          exact absurd ((hplain ins hmem).resolve_left (not_not_intro hmeaning)) hfits
      | some i =>
        obtain rfl := BpfInsn.meaning_ins hmeaning
        by_cases hload : i.LoadFits
        · rw [execute_instr i hload, ok_bind]
          dsimp only
          cases heffect : i.effect data vm with
          | next vm' => simpa only [hload, true_and, Effect.flow] using ih (pc + 1) vm'
          | jump off =>
            have htarget : target pc off = pc + 1 + off := by
              have := effect_jump_lt heffect
              exact mod_eq_of_lt (by omega)
            simpa only [hload, true_and, Effect.flow, htarget, drop_drop] using ih (pc + 1 + off) vm
          | done v =>
            cases v with
            | kill => exact ⟨fun _ => ⟨.stop, rfl, .inl rfl⟩, fun _ h => absurd ⟨hload, trivial⟩ h⟩
            | _ =>
              have hvalue := i.retValue_effect heffect (by simp)
              exact ⟨fun h => ⟨.ret i.ins vm, rfl, .inr ⟨hvalue, h.2⟩⟩,
                fun _ h => .inr ⟨.ret i.ins vm, rfl, hvalue, fun hv => h ⟨hload, hv⟩⟩⟩
        · rw [execute_overflow hload]
          exact ⟨fun h => absurd h.1 hload, fun _ _ => .inl rfl⟩

/-! ## Decisions -/

lemma Decision.ofValue_eq_log {v : UInt32} :
    Decision.ofValue v = .log ↔ Action.ofValue v = Action.retLog := by
  unfold Decision.ofValue
  constructor
  · intro h
    by_contra hno
    repeat' split at h
    all_goals exact nomatch h
  · intro h
    rw [h]
    rfl

/-- A value is an `Allow` to the code if it says so, or says nothing the code knows. -/
lemma Decision.ofValue_eq_allow {v : UInt32} :
    Decision.ofValue v = .allow ↔ Action.ofValue v = Action.retAllow ∨ ¬ Known v := by
  unfold Decision.ofValue Known
  constructor
  · intro h
    by_contra hno
    obtain ⟨hallow, hknown⟩ := not_or.mp hno
    rcases not_not.mp hknown with hv | hv | hv | hv | hv
    · exact hallow hv
    all_goals
      rw [hv] at h
      cases h
  · rintro (h | h)
    · rw [if_pos h]
    · obtain ⟨h₁, h₂, h₃, h₄, h₅⟩ : _ ∧ _ ∧ _ ∧ _ ∧ _ := by simpa only [not_or] using h
      rw [if_neg h₁, if_neg h₂, if_neg h₃, if_neg h₄, if_neg h₅]

lemma Decision.refuses {d : Decision} (hallow : d ≠ .allow) (hlog : d ≠ .log) :
    d = .kill ∨ d = .trap ∨ ∃ e, d = .errno e := by
  cases d with
  | allow => exact absurd rfl hallow
  | log => exact absurd rfl hlog
  | errno e => exact .inr (.inr ⟨e, rfl⟩)
  | kill => exact .inl rfl
  | trap => exact .inr (.inl rfl)

/-! ## Failing closed -/

/-- Where the process is killed, nothing passes. -/
lemma failsClosed_kill (program : List BpfInsn) (data : SeccompData) :
    FailsClosed program data (.ok (.ofValue Action.retKillProcess)) :=
  ⟨.kill, rfl, nofun, nofun, fun _ _ _ _ => .inl rfl⟩

/-- A decision on the value `taken` where `v` is documented. -/
lemma failsClosed_value {v taken : UInt32}
    (hv : (document data program .new).returned = some v) :
    FailsClosed program data (.ok (.ofValue taken)) ↔
      (Action.ofValue taken = Action.retLog → Action.ofValue v = Action.retLog) ∧
      (Action.ofValue taken = Action.retAllow ∨ ¬ Known taken →
        Action.ofValue v = Action.retAllow) := by
  have hreaches (action : UInt32) : Reaches program data action ↔ Action.ofValue v = action := by
    unfold Reaches
    rw [hv]
    simp
  unfold FailsClosed
  simp only [hreaches]
  constructor
  · rintro ⟨d, hd, hallow, hlog, -⟩
    cases hd
    exact ⟨fun hv => hlog (Decision.ofValue_eq_log.mpr hv),
      fun hv => hallow (Decision.ofValue_eq_allow.mpr hv)⟩
  · rintro ⟨hlog, hallow⟩
    refine ⟨_, rfl, fun hd => hallow (Decision.ofValue_eq_allow.mp hd),
      fun hd => hlog (Decision.ofValue_eq_log.mp hd), ?_⟩
    rintro action rfl hna hnl
    exact Decision.refuses (fun hd => hna (hallow (Decision.ofValue_eq_allow.mp hd)))
      fun hd => hnl (hlog (Decision.ofValue_eq_log.mp hd))

/-- What is taken for the verdict is no worse exactly if the verdict fits. -/
lemma failsClosed_taken : FailsClosed program data
      (.ok (.ofValue (document data program .new).taken)) ↔ (document data program .new).Fits := by
  cases hend : document data program .new with
  | ret k =>
    refine (failsClosed_value (v := k) (by rw [hend]; rfl)).trans ⟨fun h => ?_, fun h => ⟨id, ?_⟩⟩
    · by_contra hunknown
      exact hunknown (.inl (h.2 (.inr hunknown)))
    · exact fun hv => hv.elim id fun hunknown => absurd h hunknown
  | acc a k => exact failsClosed_value (by rw [hend]; rfl)
  | kill => exact iff_of_true (failsClosed_kill _ _) trivial

/-- Allow `getpid`, and kill the process on everything else. -/
def onlyGetpid : List BpfInsn :=
  [⟨0x20, 0, 0, 0⟩, ⟨0x15, 0, 1, 39⟩, ⟨0x06, 0, 0, 0x7fff0000⟩, ⟨0x06, 0, 0, 0x80000000⟩]

end RustOs.Seccomp
