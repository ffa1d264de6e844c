import Mathlib.Data.List.Basic

/-!
# Calls and their replies

A component takes calls one after the other; each has a reply and leaves a
state.  Where a relation between the states of two components is kept by every
call, and the replies agree, they answer every list of calls alike.
-/

namespace Lib.Replies

variable {State Other Call Reply Answer : Type*}

/-- The replies to the calls of a list, and the state behind them. -/
def runCalls (call : State → Call → Reply × State) : State → List Call → List Reply × State
  | state, [] => ([], state)
  | state, first :: rest =>
      ((call state first).1 :: (runCalls call (call state first).2 rest).1,
        (runCalls call (call state first).2 rest).2)

variable {call : State → Call → Reply × State}

theorem runCalls_append (state : State) (first second : List Call) :
    runCalls call state (first ++ second) =
      ((runCalls call state first).1 ++ (runCalls call (runCalls call state first).2 second).1,
        (runCalls call (runCalls call state first).2 second).2) := by
  induction first generalizing state with
  | nil => rfl
  | cons one rest inductionHypothesis =>
      rw [List.cons_append, runCalls, inductionHypothesis]
      rfl

/-- A relation that every call keeps, with agreeing replies, is kept by every list of calls. -/
theorem runCalls_refines {spec : Other → Call → Answer × Other} {reply : Answer → Reply}
    {represents : State → Other → Prop}
    (kept : ∀ state other one, represents state other →
      (call state one).1 = reply (spec other one).1 ∧
        represents (call state one).2 (spec other one).2)
    {state : State} {other : Other} (start : represents state other) (calls : List Call) :
    (runCalls call state calls).1 = (runCalls spec other calls).1.map reply ∧
      represents (runCalls call state calls).2 (runCalls spec other calls).2 := by
  induction calls generalizing state other with
  | nil => exact ⟨rfl, start⟩
  | cons one rest inductionHypothesis =>
      obtain ⟨agrees, represented⟩ := kept state other one start
      obtain ⟨replies, final⟩ := inductionHypothesis represented
      refine ⟨?_, final⟩
      rw [runCalls, runCalls, List.map_cons, agrees, replies]

end Lib.Replies
