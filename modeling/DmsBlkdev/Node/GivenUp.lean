import DmsBlkdev.Node.Refused

/-!
# When a node is given up

The retry count numbers the attempts over the life of a container; nothing
sets it back when the node is connected.  Each attempt that was queued is at
one place: still queued, with a handler before its connect, failed, or come to
anything else.  So a container is given up after a day of failures exactly
when none of its attempts ever came to anything else.
-/

namespace DmsBlkdev

open Lib Lib.Run

/-- The last attempts that were scheduled, as many as the limit allows, all failed, and they were
all scheduled since the node was last connected. -/
def GivenUp.Uninterrupted (givenUp : GivenUp) : Prop :=
  connectionRetryMaxTry + 1 ≤ givenUp.retryCount - givenUp.connectedAt ∧
    ∀ attempt < givenUp.retryCount, givenUp.retryCount ≤ attempt + (connectionRetryMaxTry + 1) →
      attempt ∈ givenUp.failed

def NodePhase.attempts : NodePhase → List Nat
  | handlerSock attempt => [attempt]
  | handlerLegal attempt => [attempt]
  | handlerStatus attempt => [attempt]
  | handlerConnect attempt => [attempt]
  | _ => []

def NodeContainer.tally (dnc : NodeContainer) (attempt : Nat) : Nat :=
  dnc.failed.count attempt + dnc.notFailed.count attempt + dnc.bcWork.attempts.count attempt

theorem DelayedWork.attempts_of_idle {work : DelayedWork} (idle : work.pending = false) :
    work.attempts = [] := by
  cases work with
  | idle => rfl
  | delayed work => cases idle
  | queued work => cases idle

@[simp]
theorem ScheduleCaller.attempts_scheduled (caller : ScheduleCaller) :
    caller.scheduled.elim [] NodePhase.attempts = [] := by
  cases caller <;> rfl

@[simp]
theorem ScheduleCaller.attempts_refused (caller : ScheduleCaller) :
    caller.refused.elim [] NodePhase.attempts = [] := by
  cases caller <;> rfl

@[simp]
theorem DestroyCaller.attempts_destroyed (caller : DestroyCaller) :
    caller.destroyed.elim [] NodePhase.attempts = [] := by
  cases caller with
  | retryLimit caller => exact caller.attempts_refused
  | formatError => rfl
  | outside => rfl

namespace NodePhase

variable {created : Bool} {connect : ConnectResult} {dnc : NodeContainer} {phase next : NodePhase}

/-- A step moves its attempt, or adds the next one. -/
theorem tally_after (attempt : Nat) :
    (phase.advance created connect dnc).1.tally attempt +
        ((phase.advance created connect dnc).2.elim [] attempts).count attempt +
        (List.range dnc.retryCount).count attempt =
      dnc.tally attempt + phase.attempts.count attempt +
        (List.range (phase.advance created connect dnc).1.retryCount).count attempt := by
  unfold NodeContainer.tally
  fun_cases phase.advance created connect dnc <;>
    simp [attempts, List.count_cons, List.range_succ, -List.count_range] <;> omega

@[simp]
theorem touched_failed : (phase.touched dnc).failed = dnc.failed := by
  unfold touched; split <;> rfl

@[simp]
theorem touched_notFailed : (phase.touched dnc).notFailed = dnc.notFailed := by
  unfold touched; split <;> rfl

@[simp]
theorem touched_connectedAt : (phase.touched dnc).connectedAt = dnc.connectedAt := by
  unfold touched; split <;> rfl

theorem tally_touched (attempt : Nat) : (phase.touched dnc).tally attempt = dnc.tally attempt := by
  unfold touched; split <;> rfl

theorem givenUp_touched : (phase.touched dnc).givenUp = dnc.givenUp := by
  unfold touched; split <;> rfl

theorem retryCount_after (bound : dnc.retryCount ≤ connectionRetryMaxTry + 1) :
    (phase.advance created connect dnc).1.retryCount ≤ connectionRetryMaxTry + 1 := by
  fun_cases phase.advance created connect dnc <;> simp_all

theorem connectedAt_after (connected : dnc.notFailed = [] → dnc.connectedAt = 0)
    (failed : (phase.advance created connect dnc).1.notFailed = []) :
    (phase.advance created connect dnc).1.connectedAt = 0 := by
  revert failed
  fun_cases phase.advance created connect dnc <;> simp_all

theorem givenUp_after : (phase.advance created connect dnc).1.givenUp = dnc.givenUp ∨
    (∃ caller, phase = .schedule caller) ∧ dnc.bcWork.pending = false ∧
      connectionRetryMaxTry < dnc.retryCount ∧
      (phase.advance created connect dnc).1.givenUp =
        ⟨dnc.retryCount, dnc.connectedAt, dnc.failed⟩ :: dnc.givenUp := by
  fun_cases phase.advance created connect dnc <;> simp_all

end NodePhase

namespace NodeState

/-- Each container given up had a day of uninterrupted failures. -/
def GivenUpAfterFailures (state : NodeState) : Prop :=
  ∀ givenUp ∈ state.dnc.givenUp, givenUp.Uninterrupted

/-- A section that finds the retry limit passed comes to a container none of whose attempts came to
anything but a failed connect. -/
def OnlyFailed (state : NodeState) : NodeEvent → Prop
  | .advance who _ _ => ∀ entry ∈ state.calls.entries, entry.1 = who →
      match entry.2.phase with
      | .schedule _ => state.dnc.bcWork.pending = false →
          connectionRetryMaxTry < state.dnc.retryCount →
          state.dnc.notFailed = [] ∧ ∀ other ∈ state.calls.entries, other.2.phase.attempts = []
      | _ => True
  | _ => True

def underWay (calls : OrderedMap Nat NodeCall) (attempt : Nat) : Nat :=
  calls.total fun call => call.phase.attempts.count attempt

structure Accounted (state : NodeState) : Prop where
  once : ∀ attempt, state.dnc.tally attempt + underWay state.calls attempt =
    (List.range state.dnc.retryCount).count attempt
  bound : state.dnc.retryCount ≤ connectionRetryMaxTry + 1
  connected : state.dnc.notFailed = [] → state.dnc.connectedAt = 0

variable {state after : NodeState} {event : NodeEvent}

theorem accounted_init : init.Accounted where
  once _ := rfl
  bound := Nat.zero_le _
  connected _ := rfl

theorem underWay_insert {calls : OrderedMap Nat NodeCall} {who : Nat} {call : NodeCall}
    (absent : calls.lookup who = none) (attempt : Nat) :
    underWay (calls.insert who call) attempt =
      call.phase.attempts.count attempt + underWay calls attempt := by
  rw [underWay, OrderedMap.total_insert,
    OrderedMap.erase_of_absent (OrderedMap.lookup_eq_none.mp absent), underWay]

theorem underWay_goOn {calls : OrderedMap Nat NodeCall} {who : Nat} {onQueue : Bool}
    {next : Option NodePhase} (attempt : Nat) :
    underWay (goOn calls who onQueue next) attempt =
      (next.elim [] NodePhase.attempts).count attempt + underWay (calls.erase who) attempt := by
  rw [underWay, goOn, OrderedMap.total_assign]
  cases next <;> rfl

/-- Where every attempt is accounted for, a container given up had only failures exactly when no
attempt came to anything else. -/
theorem Accounted.uninterrupted_iff (accounted : state.Accounted)
    (idle : state.dnc.bcWork.pending = false)
    (limit : connectionRetryMaxTry < state.dnc.retryCount) :
    GivenUp.Uninterrupted ⟨state.dnc.retryCount, state.dnc.connectedAt, state.dnc.failed⟩ ↔
      state.dnc.notFailed = [] ∧ ∀ other ∈ state.calls.entries, other.2.phase.attempts = [] := by
  have bound := accounted.bound
  have once (attempt : Nat) : state.dnc.failed.count attempt + state.dnc.notFailed.count attempt +
      underWay state.calls attempt = (List.range state.dnc.retryCount).count attempt := by
    have total := accounted.once attempt
    rw [NodeContainer.tally, DelayedWork.attempts_of_idle idle, List.count_nil, Nat.add_zero] at total
    exact total
  have single (attempt : Nat) : (List.range state.dnc.retryCount).count attempt ≤ 1 :=
    List.nodup_iff_count_le_one.mp List.nodup_range attempt
  constructor
  · rintro ⟨-, failed⟩
    have others (attempt : Nat) :
        state.dnc.notFailed.count attempt = 0 ∧ underWay state.calls attempt = 0 := by
      have total := once attempt
      by_cases below : attempt < state.dnc.retryCount
      · have here := List.count_pos_iff.mpr (failed attempt below (by
          show state.dnc.retryCount ≤ _
          omega))
        have most := single attempt
        simp only at here
        omega
      · have unused : (List.range state.dnc.retryCount).count attempt = 0 :=
          List.count_eq_zero_of_not_mem (by simpa using below)
        omega
    constructor
    · apply List.eq_nil_iff_forall_not_mem.mpr
      exact fun attempt member => List.count_eq_zero.mp (others attempt).1 member
    · intro other member
      apply List.eq_nil_iff_forall_not_mem.mpr
      intro attempt there
      exact List.count_eq_zero.mp (OrderedMap.total_eq_zero.mp (others attempt).2 other member) there
  · rintro ⟨none, clear⟩
    refine ⟨?_, fun attempt below _ => ?_⟩
    · show _ ≤ state.dnc.retryCount - state.dnc.connectedAt
      rw [accounted.connected none]
      exact limit
    · have total := once attempt
      have inside : underWay state.calls attempt = 0 := by
        apply OrderedMap.total_eq_zero.mpr
        intro entry member
        rw [clear entry member]
        rfl
      have queued := List.count_pos_iff.mpr (List.mem_range.mpr below)
      rw [none, List.count_nil, inside] at total
      apply List.count_pos_iff.mp
      exact Nat.lt_of_lt_of_eq queued total.symm

theorem Accounted.replaced (accounted : state.Accounted) :
    Accounted ⟨state.dnc.touch.queueWork .rebuildConnection, state.calls⟩ where
  once attempt := by
    have once := accounted.once attempt
    simp only [NodeContainer.tally, NodeContainer.queueWork, NodeContainer.touch,
      DelayedWork.attempts_delayed, BuilderWork.attempts_rebuild, List.count_append,
      List.count_nil] at once ⊢
    omega
  bound := accounted.bound
  connected replaced := accounted.connected (List.append_eq_nil_iff.mp replaced).2

theorem Accounted.step (accounted : state.Accounted) (run : state.step event = some after) :
    after.Accounted := by
  cases taken_of_step run with
  | build absent =>
      refine ⟨fun attempt => ?_, accounted.bound, accounted.connected⟩
      rw [underWay_insert absent]
      exact (Nat.add_left_comm _ 0 _).trans ((Nat.zero_add _).trans (accounted.once attempt))
  | destroy absent =>
      refine ⟨fun attempt => ?_, accounted.bound, accounted.connected⟩
      rw [underWay_insert absent]
      exact (Nat.add_left_comm _ 0 _).trans ((Nat.zero_add _).trans (accounted.once attempt))
  | expire delayed =>
      refine ⟨fun attempt => ?_, accounted.bound, accounted.connected⟩
      have once := accounted.once attempt
      rw [NodeContainer.tally, delayed] at once
      exact once
  | @work who work queued absent =>
      refine ⟨fun attempt => ?_, accounted.bound, accounted.connected⟩
      have once := accounted.once attempt
      rw [underWay_insert absent]
      rw [NodeContainer.tally, queued, DelayedWork.attempts_queued] at once
      have started : work.start.attempts = work.attempts := by cases work <;> rfl
      rw [started, NodeContainer.tally]
      simp only [DelayedWork.attempts_idle, List.count_nil]
      omega
  | @stateChange skState hooked =>
      cases skState <;> first
        | exact ⟨accounted.once, accounted.bound, accounted.connected⟩
        | exact accounted.replaced
  | @advance who created connect call here waited =>
      have same (attempt : Nat) := @NodePhase.tally_touched state.dnc call.phase attempt
      refine ⟨fun attempt => ?_, ?_, ?_⟩
      · have once := accounted.once attempt
        have moved := @NodePhase.tally_after created connect (call.phase.touched state.dnc)
          call.phase attempt
        rw [underWay, OrderedMap.total_of_mem here] at once
        rw [same, NodePhase.touched_retryCount] at moved
        rw [underWay_goOn, underWay]
        dsimp only
        omega
      · exact NodePhase.retryCount_after (by simpa using accounted.bound)
      · apply NodePhase.connectedAt_after
        simpa using accounted.connected

structure Kept (state : NodeState) : Prop where
  accounted : state.Accounted
  givenUp : state.GivenUpAfterFailures

theorem Kept.step (kept : state.Kept) (only : state.OnlyFailed event)
    (run : state.step event = some after) : after.Kept := by
  refine ⟨kept.accounted.step run, ?_⟩
  cases taken_of_step run with
  | build absent => exact kept.givenUp
  | destroy absent => exact kept.givenUp
  | expire delayed => exact kept.givenUp
  | work queued absent => exact kept.givenUp
  | @stateChange skState hooked => cases skState <;> exact kept.givenUp
  | @advance who created connect call here waited =>
      rcases @NodePhase.givenUp_after created connect (call.phase.touched state.dnc) call.phase with
        same | ⟨⟨caller, isSchedule⟩, idle, limit, givenUp⟩
      · intro givenUp member
        rw [same, NodePhase.givenUp_touched] at member
        exact kept.givenUp givenUp member
      · intro other member
        rw [givenUp, NodePhase.givenUp_touched] at member
        rcases List.mem_cons.mp member with rfl | member
        · have met := only _ here rfl
          rw [isSchedule] at met
          rw [NodePhase.touched_bcWork] at idle
          rw [NodePhase.touched_retryCount] at limit
          have uninterrupted := (kept.accounted.uninterrupted_iff idle limit).mpr (met idle limit)
          simpa using uninterrupted
        · exact kept.givenUp other member

/-- A section that finds the limit passed after anything but failures gives the node up. -/
theorem Kept.broken (kept : state.Kept) (mixed : ¬ state.OnlyFailed event) :
    ∃ after, state.step event = some after ∧ ¬ after.GivenUpAfterFailures := by
  cases event with
  | advance who created connect =>
      simp only [OnlyFailed, not_forall] at mixed
      obtain ⟨⟨key, call⟩, here, rfl, mixed⟩ := mixed
      split at mixed
      · rename_i caller isSchedule
        simp only [not_forall] at mixed
        obtain ⟨idle, limit, mixed⟩ := mixed
        have waits : call.phase.waits = false := by
          rw [isSchedule]
          rfl
        refine ⟨_, step_advance created connect (OrderedMap.lookup_eq_some.mpr here) waits, ?_⟩
        rw [isSchedule, NodePhase.advance_schedule_givenUp (by simpa using idle)
          (by simpa using limit)]
        intro givenUp
        exact mixed ((kept.accounted.uninterrupted_iff idle limit).mp
          (givenUp _ List.mem_cons_self))
      · exact absurd trivial mixed
  | build who => exact absurd trivial mixed
  | destroy who => exact absurd trivial mixed
  | expire => exact absurd trivial mixed
  | work who => exact absurd trivial mixed
  | stateChange skState => exact absurd trivial mixed

theorem kept_init : init.Kept := ⟨accounted_init, fun _ member => absurd member List.not_mem_nil⟩

/-- The containers given up in a run all had a day of uninterrupted failures exactly when each
section of the run that finds the limit passed comes to one whose attempts only failed. -/
theorem givenUpAfterFailures_always_iff (events : List NodeEvent) :
    Always GivenUpAfterFailures step init events ↔ Guarded OnlyFailed step init events :=
  always_iff_guarded_of_broken (fun _ _ _ kept only run => kept.step only run)
    (fun _ _ kept mixed => kept.broken mixed) (fun _ kept => kept.givenUp) kept_init

def connectedAfter (attempts : Nat) : NodeState where
  dnc := { (refused attempts).dnc with
    status := .connected
    hooked := true
    bcWork := .idle
    notFailed := [attempts]
    connectedAt := attempts + 1 }
  calls := .empty

def rebuilding (attempts : Nat) (status : DNodeStatus) (phase : NodePhase) : NodeState where
  dnc := { (connectedAfter attempts).dnc with status }
  calls := OrderedMap.empty.insert 0 ⟨true, phase⟩

def loseConnection : List NodeEvent := [.stateChange .close, .expire, .work 0]

/-- The next attempt connects the node, the connection is lost, and the section that queues an
attempt for the new socket finds the count of all attempts. -/
def connectAndLose : List NodeEvent :=
  (beginAttempt ++ [.advance 0 true (.ok .established)]) ++
    (loseConnection ++ (takeSteps 0 4 ++ takeSteps 0 4))

theorem run_connect (attempts : Nat) :
    run step (refused attempts) (beginAttempt ++ [.advance 0 true (.ok .established)]) =
      some (connectedAfter attempts) := by
  rw [run_append, run_beginAttempt]
  rfl

theorem run_loseConnection (attempts : Nat) :
    run step (connectedAfter attempts) (loseConnection ++ takeSteps 0 4) =
      some (rebuilding attempts .init .buildSock) := by
  have lost : run step (connectedAfter attempts) loseConnection =
      some (rebuilding attempts .connected .rebuildDisconnect) := rfl
  rw [run_append, lost]
  rfl

/-- The count is not set back by a connection. -/
theorem run_connectAndLose {attempts : Nat} (limit : connectionRetryMaxTry < attempts + 1) :
    ∃ last, run step (refused attempts) connectAndLose = some last ∧ last.dnc.givenUp =
      [⟨attempts + 1, attempts + 1, (List.range attempts).reverse⟩] := by
  have built : run step (rebuilding attempts .init .buildSock) (takeSteps 0 3) =
      some (rebuilding attempts .init (.schedule .build)) := rfl
  have givenUp := @step_advance (rebuilding attempts .init (.schedule .build)) 0 _ true .failed rfl rfl
  rw [NodePhase.advance_schedule_givenUp rfl limit] at givenUp
  refine ⟨⟨(rebuilding attempts .init .buildSock).dnc.giveUp,
    (rebuilding attempts .init (.destroyClean (.retryLimit .build))).calls⟩, ?_, rfl⟩
  rw [connectAndLose, run_append, run_connect, Option.bind_some, ← List.append_assoc, run_append,
    run_loseConnection, Option.bind_some,
    show takeSteps 0 4 = takeSteps 0 3 ++ [.advance 0 true .failed] from rfl, run_append, built,
    Option.bind_some, run, givenUp]
  rfl

/-- The node is connected at the last attempt of the day, and given up when that is lost. -/
theorem connected_given_up : ¬ ∀ events, Always GivenUpAfterFailures step init events := by
  intro always
  obtain ⟨last, ran, givenUp⟩ := run_connectAndLose (Nat.lt_succ_self connectionRetryMaxTry)
  have reached : run step init (refusedAttempts connectionRetryMaxTry ++ connectAndLose) =
      some last := by
    rw [run_append, run_refusedAttempts le_rfl, Option.bind_some]
    exact ran
  have failures := always _ _ [] last (List.append_nil _).symm reached
  rw [GivenUpAfterFailures, givenUp] at failures
  have day := (failures _ List.mem_cons_self).1
  rw [Nat.sub_self] at day
  exact absurd day (Nat.not_succ_le_zero _)

end NodeState

end DmsBlkdev
