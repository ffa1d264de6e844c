import DmsBlkdev.Node.Connection

/-!
# Refused connects

The server of a node refuses one connect after the other.  Each run of the
handler queues the next one, until the retry limit.
-/

namespace DmsBlkdev

open Lib Lib.Run

namespace NodeState

def refused (attempts : Nat) : NodeState where
  dnc := { NodeContainer.init with
    status := .building
    retryCount := attempts + 1
    bcWork := .delayed (.nodeConnectionHandler attempts)
    failed := (List.range attempts).reverse }
  calls := .empty

def handling (attempts : Nat) (phase : NodePhase) : NodeState where
  dnc := { (refused attempts).dnc with bcWork := .idle }
  calls := OrderedMap.empty.insert 0 ⟨true, phase⟩

def rescheduling (attempts : Nat) (phase : NodePhase) : NodeState where
  dnc := { (refused attempts).dnc with
    bcWork := .idle
    failed := attempts :: (List.range attempts).reverse }
  calls := OrderedMap.empty.insert 0 ⟨true, phase⟩

def takeSteps (who count : Nat) : List NodeEvent :=
  List.replicate count (.advance who true .failed)

/-- `Build_Connection` queues the first attempt. -/
def firstAttempt : List NodeEvent := .build 0 :: takeSteps 0 5

def beginAttempt : List NodeEvent := [.expire, .work 0] ++ takeSteps 0 3

def refusedConnect : List NodeEvent := beginAttempt ++ takeSteps 0 2

def refusedAttempts : Nat → List NodeEvent
  | 0 => firstAttempt
  | attempts + 1 => refusedAttempts attempts ++ (refusedConnect ++ takeSteps 0 2)

theorem run_beginAttempt (attempts : Nat) : run step (refused attempts) beginAttempt =
    some (handling attempts (.handlerConnect attempts)) := by
  have begun : run step (refused attempts) [.expire, .work 0] =
      some (handling attempts (.handlerSock attempts)) := rfl
  rw [beginAttempt, run_append, begun]
  rfl

theorem run_refusedConnect (attempts : Nat) : run step (refused attempts) refusedConnect =
    some (rescheduling attempts (.schedule .handler)) := by
  rw [refusedConnect, run_append, run_beginAttempt]
  rfl

theorem run_refusedAttempts {attempts : Nat} (bound : attempts ≤ connectionRetryMaxTry) :
    run step init (refusedAttempts attempts) = some (refused attempts) := by
  induction attempts with
  | zero => rfl
  | succ attempts inductionHypothesis =>
      have scheduled : run step (rescheduling attempts (.schedule .handler)) (takeSteps 0 2) =
          some (refused (attempts + 1)) := by
        rw [takeSteps, List.replicate_succ, run, step_advance true .failed rfl rfl,
          NodePhase.advance_schedule_queued rfl bound, refused, List.range_succ,
          List.reverse_append]
        rfl
      rw [refusedAttempts, run_append, inductionHypothesis (Nat.le_of_succ_le bound),
        Option.bind_some, run_append, run_refusedConnect, Option.bind_some]
      exact scheduled

end NodeState

end DmsBlkdev
