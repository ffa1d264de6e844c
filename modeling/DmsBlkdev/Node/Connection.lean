import DmsBlkdev.Lib.OrderedMap
import DmsBlkdev.Lib.Run

/-!
# The connection of a node container

One node container with the threads that are inside its connection code:
callers of `Build_Connection` and of `Destroy_DMS_Node_Container`, and the
runs of its work item on the node builder queue.  A thread takes one step from
one access of the container to the next, where a section under `dnc->lock` is
one step.  Socket callbacks come at any time once a connect has set them.
-/

namespace DmsBlkdev

open Lib Lib.Run

/-- `ONE_DAY_SECS / CONNECTION_RETRY_INTERVAL_MAX`. -/
def connectionRetryMaxTry : Nat := 60 * 60 * 24 / 20

inductive DNodeStatus where
  | init
  | building
  | connected
  | disconnected
  deriving DecidableEq, Repr

/-- `sk->sk_state`. -/
inductive TCPState where
  | established
  | synSent
  | synRecv
  | finWait1
  | finWait2
  | timeWait
  | close
  | closeWait
  | lastAck
  | listen
  | closing
  deriving DecidableEq, Repr

/-- What `sock->ops->connect` returns, with the state of the socket after a success. -/
inductive ConnectResult where
  | ok (skState : TCPState)
  | formatError
  | isConn
  | already
  | failed
  deriving DecidableEq, Repr

/-- The function of the work item.  An attempt to connect carries its number, which the source
does not have. -/
inductive BuilderWork where
  | nodeConnectionHandler (attempt : Nat)
  | rebuildConnection
  deriving DecidableEq, Repr

/-- `bc_work`: not pending, waiting for its delay to pass, or on the queue. -/
inductive DelayedWork where
  | idle
  | delayed (work : BuilderWork)
  | queued (work : BuilderWork)
  deriving DecidableEq, Repr

def BuilderWork.attempts : BuilderWork → List Nat
  | nodeConnectionHandler attempt => [attempt]
  | rebuildConnection => []

/-- `delayed_work_pending`. -/
def DelayedWork.pending : DelayedWork → Bool
  | idle => false
  | _ => true

def DelayedWork.onQueue : DelayedWork → Bool
  | queued _ => true
  | _ => false

def DelayedWork.attempts : DelayedWork → List Nat
  | idle => []
  | delayed work => work.attempts
  | queued work => work.attempts

@[simp]
theorem BuilderWork.attempts_handler (attempt : Nat) :
    (nodeConnectionHandler attempt).attempts = [attempt] := rfl

@[simp]
theorem BuilderWork.attempts_rebuild : rebuildConnection.attempts = [] := rfl

@[simp]
theorem DelayedWork.attempts_idle : idle.attempts = [] := rfl

@[simp]
theorem DelayedWork.attempts_delayed (work : BuilderWork) :
    (delayed work).attempts = work.attempts := rfl

@[simp]
theorem DelayedWork.attempts_queued (work : BuilderWork) :
    (queued work).attempts = work.attempts := rfl

structure GivenUp where
  retryCount : Nat
  connectedAt : Nat
  failed : List Nat
  deriving DecidableEq, Repr

/-- The container, and from `reinitialised` on what the run records and no step looks at: whether
`bc_work` was initialised while it was pending, whether the container was used after its release,
the attempts that failed to connect and those that came to anything else, the retry count when the
node was last connected, and the containers given up. -/
structure NodeContainer where
  status : DNodeStatus
  sock : Bool
  hooked : Bool
  retryCount : Nat
  bcWork : DelayedWork
  inTable : Bool
  freed : Bool
  reinitialised : Bool
  usedAfterFree : Bool
  failed : List Nat
  notFailed : List Nat
  connectedAt : Nat
  givenUp : List GivenUp
  deriving DecidableEq, Repr

inductive ScheduleCaller where
  | build
  | handler
  deriving DecidableEq, Repr

/-- Who destroys the container: the retry limit, an address that connect does not take, or a
thread outside of its connection code. -/
inductive DestroyCaller where
  | retryLimit (caller : ScheduleCaller)
  | formatError
  | outside
  deriving DecidableEq, Repr

inductive NodePhase where
  | buildSock
  | buildStatus
  | scheduleSock (caller : ScheduleCaller)
  | schedule (caller : ScheduleCaller)
  | setBuilding
  | rebuildDisconnect
  | rebuildRelease
  | rebuildCreate
  | rebuildInit
  | handlerSock (attempt : Nat)
  | handlerLegal (attempt : Nat)
  | handlerStatus (attempt : Nat)
  | handlerConnect (attempt : Nat)
  | handlerRelock
  | destroyClean (caller : DestroyCaller)
  | destroyStatus (caller : DestroyCaller)
  | cancelSock (caller : DestroyCaller)
  | cancel (caller : DestroyCaller)
  | flush (caller : DestroyCaller)
  | destroyDisconnect (caller : DestroyCaller)
  | destroyRelease (caller : DestroyCaller)
  | destroyFree (caller : DestroyCaller)
  deriving DecidableEq, Repr

namespace NodeContainer

/-- What `Init_DMS_Node_Container` leaves, once the container has its place in the table. -/
def init : NodeContainer where
  status := .init
  sock := true
  hooked := false
  retryCount := 0
  bcWork := .idle
  inTable := true
  freed := false
  reinitialised := false
  usedAfterFree := false
  failed := []
  notFailed := []
  connectedAt := 0
  givenUp := []

/-- `INIT_WORK` and `queue_delayed_work`. -/
def queueWork (dnc : NodeContainer) (work : BuilderWork) : NodeContainer :=
  { dnc with
    bcWork := .delayed work
    reinitialised := dnc.reinitialised || dnc.bcWork.pending
    notFailed := dnc.bcWork.attempts ++ dnc.notFailed }

/-- `__DNC_Create_Socket`, which fails where a socket is there already. -/
def dncCreateSocket (created : Bool) (dnc : NodeContainer) : Bool × NodeContainer :=
  if dnc.sock then (false, dnc) else (created, { dnc with sock := created })

def dropAttempt (dnc : NodeContainer) (attempt : Nat) : NodeContainer :=
  { dnc with notFailed := attempt :: dnc.notFailed }

def failAttempt (dnc : NodeContainer) (attempt : Nat) : NodeContainer :=
  { dnc with failed := attempt :: dnc.failed }

def setStatus (dnc : NodeContainer) (status : DNodeStatus) : NodeContainer := { dnc with status }

def releaseSocket (dnc : NodeContainer) : NodeContainer := { dnc with sock := false }

/-- A success sets the callbacks of the socket; the node is connected if the socket still is. -/
def connected (dnc : NodeContainer) (attempt : Nat) (skState : TCPState) : NodeContainer :=
  { dnc.dropAttempt attempt with
    hooked := true
    status := if skState = .established then .connected else dnc.status
    connectedAt := if skState = .established then dnc.retryCount else dnc.connectedAt }

def clearWork (dnc : NodeContainer) : NodeContainer :=
  { dnc with bcWork := .idle, notFailed := dnc.bcWork.attempts ++ dnc.notFailed }

def giveUp (dnc : NodeContainer) : NodeContainer :=
  { dnc with givenUp := ⟨dnc.retryCount, dnc.connectedAt, dnc.failed⟩ :: dnc.givenUp }

def takeOut (dnc : NodeContainer) : NodeContainer := { dnc with inTable := false }

def free (dnc : NodeContainer) : NodeContainer := { dnc with freed := true }

def touch (dnc : NodeContainer) : NodeContainer :=
  { dnc with usedAfterFree := dnc.usedAfterFree || dnc.freed }

attribute [simp, grind =] queueWork dropAttempt failAttempt setStatus releaseSocket connected clearWork giveUp
  takeOut free touch

@[simp, grind =]
theorem dncCreateSocket_fst (created : Bool) (dnc : NodeContainer) :
    (dnc.dncCreateSocket created).1 = (!dnc.sock && created) := by
  unfold dncCreateSocket
  split <;> simp_all

@[simp, grind =]
theorem dncCreateSocket_snd (created : Bool) (dnc : NodeContainer) :
    (dnc.dncCreateSocket created).2 = { dnc with sock := dnc.sock || created } := by
  unfold dncCreateSocket
  split
  · next here => rw [here, Bool.true_or, ← here]
  · next absent => rw [Bool.eq_false_of_not_eq_true absent, Bool.false_or]

/-- `DNC_Socket_State_Change`. -/
def socketStateChange (dnc : NodeContainer) : TCPState → NodeContainer
  | .synSent => dnc.touch
  | .synRecv => dnc.touch
  | .established => dnc.touch
  | _ => dnc.touch.queueWork .rebuildConnection

end NodeContainer

/-- Where `__Schedule_to_Node_Builder_Workq` returns a code from 0 on. -/
def ScheduleCaller.scheduled : ScheduleCaller → Option NodePhase
  | build => some .setBuilding
  | handler => some .handlerRelock

def ScheduleCaller.refused : ScheduleCaller → Option NodePhase
  | build => none
  | handler => some .handlerRelock

/-- Where `Destroy_DMS_Node_Container` returns. -/
def DestroyCaller.destroyed : DestroyCaller → Option NodePhase
  | retryLimit caller => caller.refused
  | _ => none

@[simp, grind =]
theorem ScheduleCaller.scheduled_eq_some {caller : ScheduleCaller} {next : NodePhase} :
    caller.scheduled = some next ↔
      (caller = .build ∧ .setBuilding = next) ∨ (caller = .handler ∧ .handlerRelock = next) := by
  cases caller <;> simp [scheduled]

@[simp, grind =]
theorem ScheduleCaller.refused_eq_some {caller : ScheduleCaller} {next : NodePhase} :
    caller.refused = some next ↔ caller = .handler ∧ .handlerRelock = next := by
  cases caller <;> simp [refused]

@[simp, grind =]
theorem DestroyCaller.destroyed_eq_some {caller : DestroyCaller} {next : NodePhase} :
    caller.destroyed = some next ↔ caller = .retryLimit .handler ∧ .handlerRelock = next := by
  cases caller <;> simp [destroyed]

@[grind =]
theorem DestroyCaller.destroyed_eq_none {caller : DestroyCaller} :
    caller.destroyed = none ↔ caller ≠ .retryLimit .handler := by
  rw [Option.eq_none_iff_forall_ne_some]
  simp

namespace NodePhase

/-- Every step touches the container, except a destruction that comes with the index alone. -/
def touched (dnc : NodeContainer) : NodePhase → NodeContainer
  | destroyClean .outside => dnc
  | _ => dnc.touch

def waits : NodePhase → Bool
  | flush _ => true
  | _ => false

def cleaned : NodePhase → Bool
  | destroyStatus _ => true
  | cancelSock _ => true
  | cancel _ => true
  | flush _ => true
  | destroyDisconnect _ => true
  | destroyRelease _ => true
  | destroyFree _ => true
  | _ => false

/-- One step of a thread, with what comes of a new socket and of a connect there: the container
after it, and the next step, if the thread goes on. -/
def advance (created : Bool) (connect : ConnectResult) (dnc : NodeContainer) :
    NodePhase → NodeContainer × Option NodePhase
  -- Build_Connection
  | buildSock => if dnc.sock then (dnc, some buildStatus) else (dnc, none)
  | buildStatus =>
      if dnc.status = .init then (dnc, some (scheduleSock .build)) else (dnc, none)
  | setBuilding => (dnc.setStatus .building, none)
  -- __Schedule_to_Node_Builder_Workq
  | scheduleSock caller =>
      if dnc.sock then (dnc, some (schedule caller)) else (dnc, caller.refused)
  | schedule caller =>
      if dnc.bcWork.pending then (dnc, caller.scheduled)
      else if dnc.retryCount ≤ connectionRetryMaxTry then
        ({ dnc with retryCount := dnc.retryCount + 1 }.queueWork
          (.nodeConnectionHandler dnc.retryCount), caller.scheduled)
      else (dnc.giveUp, some (destroyClean (.retryLimit caller)))
  -- __Rebuild_Connection
  | rebuildDisconnect => (dnc.setStatus .disconnected, some rebuildRelease)
  | rebuildRelease => (dnc.releaseSocket, some rebuildCreate)
  | rebuildCreate =>
      if (dnc.dncCreateSocket created).1 then ((dnc.dncCreateSocket created).2, some rebuildInit)
      else ((dnc.dncCreateSocket created).2, some buildSock)
  | rebuildInit => (dnc.setStatus .init, some buildSock)
  -- Node_Connection_Handler
  | handlerSock attempt => ((dnc.dncCreateSocket created).2, some (handlerLegal attempt))
  | handlerLegal attempt =>
      if dnc.sock then (dnc, some (handlerStatus attempt)) else (dnc.dropAttempt attempt, none)
  | handlerStatus attempt =>
      if dnc.status = .building then (dnc, some (handlerConnect attempt))
      else (dnc.dropAttempt attempt, none)
  | handlerConnect attempt =>
      -- the connect fails where the socket is gone by now
      if dnc.sock then
        match connect with
        | .ok skState => (dnc.connected attempt skState, none)
        | .formatError => (dnc.dropAttempt attempt, some (destroyClean .formatError))
        | .isConn => (dnc.dropAttempt attempt, none)
        | .already => (dnc.dropAttempt attempt, none)
        | .failed => (dnc.failAttempt attempt, some (scheduleSock .handler))
      else (dnc.failAttempt attempt, some (scheduleSock .handler))
  | handlerRelock => (dnc, none)
  -- Destroy_DMS_Node_Container
  | destroyClean caller =>
      if dnc.inTable then (dnc.takeOut, some (destroyStatus caller)) else (dnc, caller.destroyed)
  | destroyStatus caller =>
      match dnc.status with
      | .building => (dnc, some (cancelSock caller))
      | .init => (dnc, some (destroyDisconnect caller))
      | .connected => (dnc, some (destroyDisconnect caller))
      | .disconnected => (dnc, some (destroyFree caller))
  | destroyDisconnect caller => (dnc.setStatus .disconnected, some (destroyRelease caller))
  | destroyRelease caller => (dnc.releaseSocket, some (destroyFree caller))
  | destroyFree caller => (dnc.free, caller.destroyed)
  -- __Cancel_from_Node_Builder_Workq
  | cancelSock caller =>
      if dnc.sock then (dnc, some (cancel caller)) else (dnc, some (destroyDisconnect caller))
  | cancel caller =>
      match dnc.bcWork with
      | .idle => (dnc, some (destroyDisconnect caller))
      | .delayed _ => (dnc.clearWork, some (destroyDisconnect caller))
      | .queued _ => (dnc, some (flush caller))
  | flush caller => (dnc, some (destroyDisconnect caller))

attribute [simp] cleaned

section Frame

variable {created : Bool} {connect : ConnectResult} {dnc : NodeContainer} {phase next : NodePhase}

@[simp]
theorem touched_status : (phase.touched dnc).status = dnc.status := by
  unfold touched; split <;> rfl

@[simp]
theorem touched_sock : (phase.touched dnc).sock = dnc.sock := by
  unfold touched; split <;> rfl

@[simp]
theorem touched_bcWork : (phase.touched dnc).bcWork = dnc.bcWork := by
  unfold touched; split <;> rfl

@[simp]
theorem touched_retryCount : (phase.touched dnc).retryCount = dnc.retryCount := by
  unfold touched; split <;> rfl

@[simp]
theorem touched_freed : (phase.touched dnc).freed = dnc.freed := by
  unfold touched; split <;> rfl

@[simp]
theorem touched_inTable : (phase.touched dnc).inTable = dnc.inTable := by
  unfold touched; split <;> rfl

theorem advance_schedule_queued {caller : ScheduleCaller} (idle : dnc.bcWork.pending = false)
    (below : dnc.retryCount ≤ connectionRetryMaxTry) :
    (schedule caller).advance created connect dnc =
      ({ dnc with retryCount := dnc.retryCount + 1 }.queueWork
        (.nodeConnectionHandler dnc.retryCount), caller.scheduled) := by
  rw [advance, idle, if_neg Bool.false_ne_true, if_pos below]

theorem advance_schedule_givenUp {caller : ScheduleCaller} (idle : dnc.bcWork.pending = false)
    (limit : connectionRetryMaxTry < dnc.retryCount) :
    (schedule caller).advance created connect dnc =
      (dnc.giveUp, some (destroyClean (.retryLimit caller))) := by
  rw [advance, idle, if_neg Bool.false_ne_true, if_neg (Nat.not_le_of_lt limit)]

/-- A container that has left the table does not come back. -/
theorem advance_inTable (inTable : (phase.advance created connect dnc).1.inTable = true) :
    dnc.inTable = true := by
  revert inTable
  fun_cases phase.advance created connect dnc <;> simp_all

theorem advance_cleaned
    (goesOn : (phase.advance created connect dnc).2 = some next) (cleaned : next.cleaned = true) :
    phase.cleaned = true ∨ (phase.advance created connect dnc).1.inTable = false := by
  revert goesOn cleaned
  fun_cases phase.advance created connect dnc <;> grind [NodePhase.cleaned, NodeContainer.takeOut]

end Frame

end NodePhase

/-- A thread in the connection code; those that run the work item are waited for in a flush. -/
structure NodeCall where
  onQueue : Bool
  phase : NodePhase
  deriving DecidableEq, Repr

structure NodeState where
  dnc : NodeContainer
  calls : OrderedMap Nat NodeCall

inductive NodeEvent where
  | build (who : Nat)
  | destroy (who : Nat)
  | expire
  | work (who : Nat)
  | stateChange (skState : TCPState)
  | advance (who : Nat) (created : Bool) (connect : ConnectResult)
  deriving DecidableEq, Repr

def BuilderWork.start : BuilderWork → NodePhase
  | nodeConnectionHandler attempt => .handlerSock attempt
  | rebuildConnection => .rebuildDisconnect

namespace NodeState

def init : NodeState := ⟨.init, .empty⟩

def flushed (state : NodeState) (who : Nat) : Bool :=
  !state.dnc.bcWork.onQueue &&
    state.calls.entries.all fun entry => entry.1 = who || !entry.2.onQueue

def enter (state : NodeState) (who : Nat) (call : NodeCall) : Option NodeState :=
  match state.calls.lookup who with
  | some _ => none
  | none => some { state with calls := state.calls.insert who call }

def goOn (calls : OrderedMap Nat NodeCall) (who : Nat) (onQueue : Bool) (next : Option NodePhase) :
    OrderedMap Nat NodeCall :=
  calls.assign who (next.map (⟨onQueue, ·⟩))

def step (state : NodeState) : NodeEvent → Option NodeState
  | .build who => state.enter who ⟨false, .buildSock⟩
  | .destroy who => state.enter who ⟨false, .destroyClean .outside⟩
  | .expire =>
      match state.dnc.bcWork with
      | .delayed work => some { state with dnc := { state.dnc with bcWork := .queued work } }
      | _ => none
  | .work who =>
      match state.dnc.bcWork with
      | .queued work =>
          { state with dnc := { state.dnc with bcWork := .idle } }.enter who ⟨true, work.start⟩
      | _ => none
  | .stateChange skState =>
      if state.dnc.hooked then some { state with dnc := state.dnc.socketStateChange skState }
      else none
  | .advance who created connect =>
      match state.calls.lookup who with
      | none => none
      | some call =>
          if call.phase.waits && !state.flushed who then none
          else
            let (dnc, next) := call.phase.advance created connect (call.phase.touched state.dnc)
            some ⟨dnc, goOn state.calls who call.onQueue next⟩

inductive Taken (state : NodeState) : NodeEvent → NodeState → Prop where
  | build {who : Nat} (absent : state.calls.lookup who = none) :
      Taken state (.build who) ⟨state.dnc, state.calls.insert who ⟨false, .buildSock⟩⟩
  | destroy {who : Nat} (absent : state.calls.lookup who = none) :
      Taken state (.destroy who)
        ⟨state.dnc, state.calls.insert who ⟨false, .destroyClean .outside⟩⟩
  | expire {work : BuilderWork} (delayed : state.dnc.bcWork = .delayed work) :
      Taken state .expire ⟨{ state.dnc with bcWork := .queued work }, state.calls⟩
  | work {who : Nat} {work : BuilderWork} (queued : state.dnc.bcWork = .queued work)
      (absent : state.calls.lookup who = none) :
      Taken state (.work who)
        ⟨{ state.dnc with bcWork := .idle }, state.calls.insert who ⟨true, work.start⟩⟩
  | stateChange {skState : TCPState} (hooked : state.dnc.hooked = true) :
      Taken state (.stateChange skState) ⟨state.dnc.socketStateChange skState, state.calls⟩
  | advance {who : Nat} {created : Bool} {connect : ConnectResult} {call : NodeCall}
      (here : (who, call) ∈ state.calls.entries)
      (waited : call.phase.waits = true → state.flushed who = true) :
      Taken state (.advance who created connect)
        ⟨(call.phase.advance created connect (call.phase.touched state.dnc)).1,
          goOn state.calls who call.onQueue
            (call.phase.advance created connect (call.phase.touched state.dnc)).2⟩

theorem enter_eq_some {state next : NodeState} {who : Nat} {call : NodeCall} :
    state.enter who call = some next ↔
      state.calls.lookup who = none ∧ next = ⟨state.dnc, state.calls.insert who call⟩ := by
  rw [enter]
  split
  · next found => simp [found]
  · next absent => simp [absent, eq_comm]

theorem taken_of_step {state next : NodeState} {event : NodeEvent}
    (run : state.step event = some next) : Taken state event next := by
  cases event with
  | build who =>
      obtain ⟨absent, rfl⟩ := enter_eq_some.mp run
      exact .build absent
  | destroy who =>
      obtain ⟨absent, rfl⟩ := enter_eq_some.mp run
      exact .destroy absent
  | expire =>
      simp only [step] at run
      split at run
      · rename_i work delayed
        obtain rfl := Option.some.inj run
        exact .expire delayed
      · cases run
  | work who =>
      simp only [step] at run
      split at run
      · rename_i work queued
        obtain ⟨absent, rfl⟩ := enter_eq_some.mp run
        exact .work queued absent
      · cases run
  | stateChange skState =>
      simp only [step] at run
      split at run
      · rename_i hooked
        obtain rfl := Option.some.inj run
        exact .stateChange hooked
      · cases run
  | advance who created connect =>
      simp only [step] at run
      split at run
      · cases run
      · rename_i call here
        split at run
        · cases run
        · rename_i waited
          obtain rfl := Option.some.inj run
          refine .advance (OrderedMap.lookup_eq_some.mp here) fun waits => ?_
          simpa [waits] using waited

theorem step_advance {state : NodeState} {who : Nat} {call : NodeCall} (created : Bool)
    (connect : ConnectResult) (here : state.calls.lookup who = some call)
    (goes : call.phase.waits = false) :
    state.step (.advance who created connect) =
      some ⟨(call.phase.advance created connect (call.phase.touched state.dnc)).1,
        goOn state.calls who call.onQueue
          (call.phase.advance created connect (call.phase.touched state.dnc)).2⟩ := by
  simp only [step, here, goes, Bool.false_and, Bool.false_eq_true, if_false]

theorem mem_goOn {calls : OrderedMap Nat NodeCall} {who : Nat} {onQueue : Bool}
    {next : Option NodePhase} {entry : Nat × NodeCall} :
    entry ∈ (goOn calls who onQueue next).entries ↔
      (∃ phase, next = some phase ∧ entry = (who, ⟨onQueue, phase⟩)) ∨
        entry ∈ calls.entries ∧ entry.1 ≠ who := by
  rw [goOn, OrderedMap.mem_assign]
  simp

end NodeState

end DmsBlkdev
