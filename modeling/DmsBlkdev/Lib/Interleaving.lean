import Mathlib.Algebra.BigOperators.Group.List.Basic
import Mathlib.Algebra.GroupWithZero.Nat
import Mathlib.Data.List.Basic
import Mathlib.Data.Nat.Init
import Mathlib.Logic.Relation
import Mathlib.Order.Basic

/-!
# Threads that interleave over a shared state

`next` is one atomic step of one thread on the shared state, or nothing when
the thread has finished.  A configuration holds the shared state and the
threads; any thread may take the next step.  Invariants of all reachable
configurations follow from one thread step, and a measure that every step of a
thread decreases bounds the length of every run.
-/

namespace Lib.Interleaving

/-- A property that every step preserves holds wherever the steps lead. -/
theorem invariant_of_reachable {State : Type*} {step : State → State → Prop}
    {property : State → Prop} {first last : State}
    (preserved : ∀ before after, property before → step before after → property after)
    (base : property first) (reached : Relation.ReflTransGen step first last) :
    property last := by
  induction reached with
  | refl => exact base
  | tail _ step inductionHypothesis => exact preserved _ _ inductionHypothesis step

variable {Shared Thread : Type*}

/-- A shared state together with the threads that work on it. -/
structure Config (Shared Thread : Type*) where
  shared : Shared
  threads : List Thread

/-- Some thread takes one atomic step. -/
inductive Step (next : Shared → Thread → Option (Shared × Thread)) :
    Config Shared Thread → Config Shared Thread → Prop where
  | thread {shared shared' : Shared} {thread thread' : Thread} {before after : List Thread} :
      next shared thread = some (shared', thread') →
      Step next ⟨shared, before ++ thread :: after⟩ ⟨shared', before ++ thread' :: after⟩

variable {next : Shared → Thread → Option (Shared × Thread)}

abbrev Reaches (next : Shared → Thread → Option (Shared × Thread)) :
    Config Shared Thread → Config Shared Thread → Prop :=
  Relation.ReflTransGen (Step next)

/-- One thread takes steps, `fuel` of them at most, while the others wait. -/
def runThread (next : Shared → Thread → Option (Shared × Thread)) :
    Nat → Shared → Thread → Shared × Thread
  | 0, shared, thread => (shared, thread)
  | fuel + 1, shared, thread =>
      match next shared thread with
      | none => (shared, thread)
      | some (shared', thread') => runThread next fuel shared' thread'

/-- What one thread does alone is one of the interleavings. -/
theorem reaches_runThread (fuel : Nat) (shared : Shared) (thread : Thread)
    (before after : List Thread) :
    Reaches next ⟨shared, before ++ thread :: after⟩
      ⟨(runThread next fuel shared thread).1,
        before ++ (runThread next fuel shared thread).2 :: after⟩ := by
  induction fuel generalizing shared thread with
  | zero => exact .refl
  | succ fuel inductionHypothesis =>
      unfold runThread
      cases taken : next shared thread with
      | none => exact .refl
      | some result => exact .head (.thread taken) (inductionHypothesis result.1 result.2)

theorem stuck_iff (config : Config Shared Thread) :
    (¬ ∃ after, Step next config after) ↔
      ∀ thread ∈ config.threads, next config.shared thread = none := by
  constructor
  · intro stuck thread member
    obtain ⟨before, after, split⟩ := List.append_of_mem member
    cases taken : next config.shared thread with
    | none => rfl
    | some result =>
        refine absurd ⟨⟨result.1, before ++ result.2 :: after⟩, ?_⟩ stuck
        obtain ⟨shared, threads⟩ := config
        simp only at split taken
        subst split
        exact .thread taken
  · rintro finished ⟨_, step⟩
    cases step with
    | @thread shared _ thread _ before rest taken =>
        have ended : next shared thread = none :=
          finished thread (List.mem_append_right _ List.mem_cons_self)
        simp [ended] at taken

def total (measure : Thread → Nat) (config : Config Shared Thread) : Nat :=
  (config.threads.map measure).sum

/-- When every step of a thread decreases its measure, the total decreases. -/
theorem Step.total_lt {measure : Thread → Nat}
    (decreases : ∀ shared thread shared' thread',
      next shared thread = some (shared', thread') → measure thread' < measure thread)
    {first last : Config Shared Thread} (step : Step next first last) :
    total measure last < total measure first := by
  cases step with
  | thread taken =>
      have smaller := decreases _ _ _ _ taken
      simp only [total, List.map_append, List.map_cons, List.sum_append, List.sum_cons]
      omega

/-- Every run can be continued until no thread has a step left. -/
theorem exists_reaches_stuck {measure : Thread → Nat}
    (decreases : ∀ shared thread shared' thread',
      next shared thread = some (shared', thread') → measure thread' < measure thread)
    (config : Config Shared Thread) :
    ∃ last, Reaches next config last ∧
      ∀ thread ∈ last.threads, next last.shared thread = none := by
  generalize bound : total measure config = size
  induction size using Nat.strongRecOn generalizing config with
  | ind size inductionHypothesis =>
      by_cases stuck : ∃ after, Step next config after
      · obtain ⟨after, step⟩ := stuck
        obtain ⟨last, reached, finished⟩ :=
          inductionHypothesis _ (bound ▸ step.total_lt decreases) after rfl
        exact ⟨last, .head step reached, finished⟩
      · exact ⟨config, .refl, (stuck_iff config).mp stuck⟩

end Lib.Interleaving
