import Mathlib.Data.List.Nodup

/-!
# A run queue

Something is queued, running, or neither; one place names the one that runs and
a list names those that are queued. `Coherent` says that the places agree. The
moves of a scheduler keep them in agreement: one that was away is queued, the
running one is put back into the queue or goes away, the next one is taken out of
the queue and runs.
-/

namespace RustOs.Lib

open List Function

/-- Where something stands with a scheduler. -/
inductive Standing where
  | queued
  | running
  | away
  deriving DecidableEq, Repr

variable {ι : Type} [DecidableEq ι]

/-- The queue names exactly those that are queued, each once, and the current one
is the one that runs. -/
structure Coherent (standing : ι → Standing) (current : Option ι) (queue : List ι) : Prop where
  nodup : queue.Nodup
  queued : ∀ i, i ∈ queue ↔ standing i = .queued
  running : ∀ i, standing i = .running ↔ current = some i

namespace Coherent

variable {standing : ι → Standing} {current : Option ι} {queue A B : List ι} {i : ι}

/-- One that was away is queued. -/
lemma enter (h : Coherent standing current queue) (hi : standing i = .away) :
    Coherent (update standing i .queued) current (queue ++ [i]) := by
  have hmem : i ∉ queue := fun hq => by rw [(h.queued i).mp hq] at hi; cases hi
  refine ⟨nodup_append.mpr ⟨h.nodup, nodup_singleton i, ?_⟩, fun j => ?_, fun j => ?_⟩
  · intro a ha b hb heq
    rw [mem_singleton] at hb
    exact hmem (hb ▸ heq ▸ ha)
  all_goals by_cases hj : j = i
  · subst hj
    simp
  · simp [hj, h.queued]
  · subst hj
    have hno : current ≠ some j := fun hc => by rw [(h.running j).mpr hc] at hi; cases hi
    simp [hno]
  · rw [update_of_ne hj, h.running]

/-- The running one goes away. -/
lemma retire (h : Coherent standing (some i) queue) :
    Coherent (update standing i .away) none queue := by
  have hrun := (h.running i).mpr rfl
  refine ⟨h.nodup, fun j => ?_, fun j => ?_⟩
  all_goals by_cases hj : j = i
  · subst hj
    rw [h.queued, hrun]
    simp
  · rw [update_of_ne hj, h.queued]
  · subst hj
    simp
  · rw [update_of_ne hj, h.running]
    simp [Ne.symm hj]

/-- The running one is put back into the queue. -/
lemma preempt (h : Coherent standing (some i) queue) :
    Coherent (update standing i .queued) none (queue ++ [i]) := by
  have hback := h.retire.enter (update_self i .away standing)
  rwa [update_idem] at hback

/-- One is taken out of the queue and runs. -/
lemma dispatch (h : Coherent standing none (A ++ i :: B)) :
    Coherent (update standing i .running) (some i) (A ++ B) := by
  have hnodup := nodup_cons.mp (nodup_middle.mp h.nodup)
  refine ⟨hnodup.2, fun j => ?_, fun j => ?_⟩
  all_goals by_cases hj : j = i
  · subst hj
    simp only [update_self]
    exact iff_of_false hnodup.1 nofun
  · rw [update_of_ne hj, ← h.queued, mem_append, mem_append, mem_cons]
    simp [hj]
  · subst hj
    simp
  · rw [update_of_ne hj, h.running]
    simp [Ne.symm hj]

end Coherent

end RustOs.Lib
