import Mathlib.Data.List.FinRange

/-!
# Per-CPU run queues

`dequeue_next_for_cpu` of `scheduler.rs` and what it uses of `smp.rs`: a CPU takes the first pid
of its own queue, and steals one from the most loaded peer if it has none. It is documented to
come back with nothing only if all queues are empty. But a peer with one pid is never stolen
from, so a CPU goes idle while a process waits on another one; `dequeueNextForCpu_serves_iff`
says when it does not.
-/

namespace RustOs.Proc

open List

/-! ## The code -/

/-- `CpuState`. -/
@[ext] structure CpuState where
  alive : Bool
  runQueue : List UInt32
  /-- The cached length. -/
  runQueueLen : Nat
  deriving DecidableEq

/-- `CPUS`. -/
abbrev Cpus := Fin 32 → CpuState

/-- `CpuState::load`. -/
def CpuState.load (c : CpuState) : Nat := c.runQueueLen

/-- The state `CpuState::dequeue` leaves. -/
def CpuState.rest (c : CpuState) : CpuState :=
  { c with runQueue := c.runQueue.tail, runQueueLen := c.runQueue.tail.length }

variable (cpus : Cpus)

/-- `dequeue_on`, for a CPU that there is. -/
def dequeueOn (cpu : Fin 32) : Option UInt32 × Cpus :=
  ((cpus cpu).runQueue.head?, Function.update cpus cpu (cpus cpu).rest)

/-- The loop of `steal_from_peer`. -/
def findVictim (cpus : Cpus) (thief : Fin 32) (victim : Option (Fin 32)) (victimLoad : Nat) :
    List (Fin 32) → Option (Fin 32)
  | [] => victim
  | i :: rest =>
    if i = thief then findVictim cpus thief victim victimLoad rest
    else if (cpus i).alive = false then findVictim cpus thief victim victimLoad rest
    else if (cpus i).load > victimLoad then findVictim cpus thief (some i) (cpus i).load rest
    else findVictim cpus thief victim victimLoad rest

/-- `steal_from_peer`. -/
def stealFromPeer (thief : Fin 32) : Option UInt32 × Cpus :=
  match findVictim cpus thief none 1 (List.finRange 32) with
  | none => (none, cpus)
  | some victim => dequeueOn cpus victim

/-- `dequeue_next_for_cpu`. -/
def dequeueNextForCpu (cpu : Fin 32) : Option UInt32 × Cpus :=
  match dequeueOn cpus cpu with
  | (some pid, cpus) => (some pid, cpus)
  | (none, cpus) => stealFromPeer cpus cpu

/-! ## What is documented -/

/-- Each pid lives on one queue, and the cached lengths of the CPUs that are up are right. -/
structure Distribution (cpus : Cpus) : Prop where
  once : ∀ i, (cpus i).runQueue.Nodup
  apart : ∀ i j p, p ∈ (cpus i).runQueue → p ∈ (cpus j).runQueue → i = j
  cached : ∀ i, (cpus i).alive = true → (cpus i).runQueueLen = (cpus i).runQueue.length

/-- No CPU has a process to run. -/
def Idle : Prop := ∀ i, (cpus i).alive = true → (cpus i).runQueue = []

instance (cpus : Cpus) : Decidable (Idle cpus) := inferInstanceAs (Decidable (∀ _, _ → _))

/-- The pid was on one queue, and there only once; this one occurrence has gone. -/
def Taken (p : UInt32) (after : Cpus) : Prop :=
  ∃ i rest, (cpus i).runQueue = p :: rest ∧ p ∉ rest ∧ (∀ j, j ≠ i → p ∉ (cpus j).runQueue) ∧
    ∀ j, (after j).runQueue = if j = i then rest else (cpus j).runQueue

/-- What `dequeue_next_for_cpu` is to do. -/
def Serves (answer : Option UInt32 × Cpus) : Prop :=
  (answer.1 = none → Idle cpus) ∧ ∀ p, answer.1 = some p → Taken cpus p answer.2

variable {cpus : Cpus} {c i v : Fin 32}

/-- A pid comes off the own queue. -/
lemma Distribution.serves_dequeueOn (h : Distribution cpus) (hi : (cpus i).runQueue ≠ []) :
    Serves cpus (dequeueOn cpus i) := by
  obtain ⟨p, rest, hqueue⟩ := exists_cons_of_ne_nil hi
  have honce := h.once i
  rw [hqueue, nodup_cons] at honce
  unfold Serves dequeueOn
  rw [hqueue]
  refine And.intro nofun ?_
  rintro _ ⟨⟩
  refine ⟨i, rest, hqueue, honce.1, ?_, ?_⟩
  · intro j hj hp
    exact hj (h.apart j i p hp (hqueue ▸ mem_cons_self))
  · intro j
    dsimp only
    by_cases hj : j = i
    · subst hj
      rw [Function.update_self, if_pos rfl, CpuState.rest, hqueue]
      rfl
    · rw [Function.update_of_ne hj, if_neg hj]

/-- An empty queue stays as it is. -/
lemma Distribution.dequeueOn_nil (h : Distribution cpus) (halive : (cpus c).alive = true)
    (hc : (cpus c).runQueue = []) : dequeueOn cpus c = (none, cpus) := by
  have hrest : (cpus c).rest = cpus c := by
    simp [CpuState.rest, hc, CpuState.ext_iff, h.cached c halive]
  unfold dequeueOn
  rw [hc, hrest, Function.update_eq_self]
  rfl

/-- The victim has more than the load that was asked for, and there is one if a peer has. -/
lemma findVictim_spec (victim : Option (Fin 32)) (victimLoad : Nat) (l : List (Fin 32)) :
    (findVictim cpus c victim victimLoad l = some v →
      victim = some v ∨ v ≠ c ∧ (cpus v).alive = true ∧ victimLoad < (cpus v).load) ∧
    (findVictim cpus c victim victimLoad l = none → victim = none ∧
      ∀ i ∈ l, i ≠ c → (cpus i).alive = true → (cpus i).load ≤ victimLoad) := by
  induction l generalizing victim victimLoad with
  | nil => exact ⟨.inl, fun h => ⟨h, nofun⟩⟩
  | cons i rest ih =>
    unfold findVictim
    grind

/-- A CPU is served unless all that waits waits alone, on another CPU. -/
theorem dequeueNextForCpu_serves_iff (h : Distribution cpus) (hup : (cpus c).alive = true) :
    Serves cpus (dequeueNextForCpu cpus c) ↔
      (cpus c).runQueue ≠ [] ∨
      (∃ i, i ≠ c ∧ (cpus i).alive = true ∧ 2 ≤ (cpus i).runQueue.length) ∨ Idle cpus := by
  by_cases hc : (cpus c).runQueue = []
  · unfold dequeueNextForCpu stealFromPeer
    rw [h.dequeueOn_nil hup hc]
    dsimp only
    cases hvictim : findVictim cpus c none 1 (finRange 32) with
    | none =>
      have hpeers := ((findVictim_spec (v := c) none 1 _).2 hvictim).2
      have hno : ¬ ∃ i, i ≠ c ∧ (cpus i).alive = true ∧ 2 ≤ (cpus i).runQueue.length := by
        rintro ⟨i, hne, halive, htwo⟩
        have hle := hpeers i (mem_finRange i) hne halive
        rw [CpuState.load, h.cached i halive] at hle
        omega
      constructor
      · exact fun hserves => .inr (.inr (hserves.1 rfl))
      · rintro (hsome | htwo | hidle)
        · exact absurd hc hsome
        · exact absurd htwo hno
        · exact ⟨fun _ => hidle, nofun⟩
    | some v =>
      obtain hv | ⟨hne, halive, htwo⟩ := (findVictim_spec none 1 _).1 hvictim
      · cases hv
      · rw [CpuState.load, h.cached v halive] at htwo
        have hqueue : (cpus v).runQueue ≠ [] := ne_nil_of_length_pos (by omega)
        exact ⟨fun _ => .inr (.inl ⟨v, hne, halive, htwo⟩), fun _ => h.serves_dequeueOn hqueue⟩
  · have hown : dequeueNextForCpu cpus c = dequeueOn cpus c := by
      obtain ⟨p, rest, hqueue⟩ := exists_cons_of_ne_nil hc
      unfold dequeueNextForCpu dequeueOn
      rw [hqueue]
      rfl
    rw [hown]
    exact ⟨fun _ => .inl hc, fun _ => h.serves_dequeueOn hc⟩

/-- Two CPUs, and one process, on the second. -/
def lone : Cpus
  | 0 => ⟨true, [], 0⟩
  | 1 => ⟨true, [7], 1⟩
  | _ => ⟨false, [], 0⟩

lemma distribution_lone : Distribution lone where
  once := by decide
  apart := by
    have hone : ∀ i, (lone i).runQueue = if i = 1 then [7] else [] := by decide
    grind
  cached := by decide

/-- One pid on the own queue. -/
theorem dequeueNextForCpu_serves_iff_lone : (lone 1).alive = true ∧
    (Serves lone (dequeueNextForCpu lone 1) ↔
      (lone 1).runQueue ≠ [] ∨
      (∃ i, i ≠ 1 ∧ (lone i).alive = true ∧ 2 ≤ (lone i).runQueue.length) ∨ Idle lone) :=
  ⟨rfl, dequeueNextForCpu_serves_iff distribution_lone rfl⟩

/-- One pid on the queue of another CPU. -/
theorem lone_overlooked : Distribution lone ∧ (lone 0).alive = true ∧
    ¬ Serves lone (dequeueNextForCpu lone 0) := by
  have hidle : ¬ Idle lone := by decide
  exact ⟨distribution_lone, rfl, fun h => hidle (h.1 (by decide))⟩

end RustOs.Proc
