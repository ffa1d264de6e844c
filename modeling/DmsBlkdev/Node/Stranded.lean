import DmsBlkdev.Node.Connection

/-!
# Whether a connection under construction is stranded

A container in `DNODE_BUILDING` with no thread inside is to have its work item
pending.  Build_Connection queues the item before it sets the status, and a
connect that finds an earlier one, or a socket that is not established, queues
nothing.  Where neither happens, every thread that is inside and has the item
not queued either comes to queue it or leaves the status another one.
-/

namespace DmsBlkdev

open Lib Lib.Run

/-- The steps from which a thread queues the item or changes the status, as long as the socket
stays. -/
def NodePhase.attends (sock : Bool) : NodePhase → Bool
  | rebuildDisconnect => true
  | rebuildRelease => true
  | rebuildCreate => !sock
  | rebuildInit => true
  | handlerSock _ => true
  | handlerLegal _ => sock
  | handlerStatus _ => sock
  | handlerConnect _ => sock
  | scheduleSock .handler => sock
  | schedule .handler => sock
  | destroyClean _ => true
  | _ => false

/-- What the connect and the creation of a socket come to at a step, so that its thread does not
leave without the item queued. -/
def NodePhase.answered (sock created : Bool) (connect : ConnectResult) : NodePhase → Bool
  | rebuildCreate => sock || created
  | handlerSock _ => sock || created
  | handlerConnect _ => !sock || connect = .ok .established || connect = .formatError ||
      connect = .failed
  | _ => true

namespace NodePhase

variable {created : Bool} {connect : ConnectResult} {dnc : NodeContainer} {phase next : NodePhase}

theorem building_before (building : (phase.advance created connect dnc).1.status = .building) :
    dnc.status = .building ∨ phase = .setBuilding := by
  revert building
  fun_cases phase.advance created connect dnc <;> grind

theorem pending_after (pending : dnc.bcWork.pending = true) (inside : phase.cleaned = false) :
    (phase.advance created connect dnc).1.bcWork.pending = true := by
  fun_cases phase.advance created connect dnc <;> simp_all [DelayedWork.pending]

theorem pending_setBuilding (goesOn : (phase.advance created connect dnc).2 = some .setBuilding) :
    (phase.advance created connect dnc).1.bcWork.pending = true := by
  revert goesOn
  fun_cases phase.advance created connect dnc <;> simp_all [DelayedWork.pending]

theorem attends_other {other : NodePhase} (attends : other.attends dnc.sock = true)
    (inside : phase.cleaned = false) :
    other.attends (phase.advance created connect dnc).1.sock = true ∨
      ∃ next, (phase.advance created connect dnc).2 = some next ∧
        next.attends (phase.advance created connect dnc).1.sock = true := by
  fun_cases phase.advance created connect dnc <;> grind [NodePhase.attends, NodePhase.cleaned]

/-- A thread that leaves the status as it is has the item queued, or goes on attending. -/
theorem attends_after (attends : phase.attends dnc.sock = true)
    (answered : phase.answered dnc.sock created connect = true)
    (inTable : (phase.advance created connect dnc).1.inTable = true)
    (building : (phase.advance created connect dnc).1.status = .building) :
    (phase.advance created connect dnc).1.bcWork.pending = true ∨
      ∃ next, (phase.advance created connect dnc).2 = some next ∧
        next.attends (phase.advance created connect dnc).1.sock = true := by
  revert answered inTable building
  fun_cases phase.advance created connect dnc <;>
    grind [NodePhase.attends, NodePhase.answered, DelayedWork.pending]

end NodePhase

namespace NodeState

/-- In `DNODE_BUILDING` with no thread inside, the item is pending, until the container is
destroyed. -/
def NotStranded (state : NodeState) : Prop :=
  state.dnc.inTable = true → state.dnc.status = .building → state.calls.entries = [] →
    state.dnc.bcWork.pending = true

/-- A run of the item begins with no thread between the queueing and the status, and while nothing
is pending no thread of a container in `DNODE_BUILDING` misses a socket or finds an earlier
connect or a socket that is not established. -/
def LeavesQueued (state : NodeState) (event : NodeEvent) : Prop :=
  state.dnc.inTable = true →
    match event with
    | .work _ => ∀ entry ∈ state.calls.entries, entry.2.phase ≠ .setBuilding
    | .advance who created connect =>
        state.dnc.status = .building → state.dnc.bcWork.pending = false →
          ∀ entry ∈ state.calls.entries, entry.1 = who →
            entry.2.phase.answered state.dnc.sock created connect = true
    | _ => True

instance (state : NodeState) : DecidablePred state.LeavesQueued
  | .build _ => inferInstanceAs (Decidable (_ → True))
  | .destroy _ => inferInstanceAs (Decidable (_ → True))
  | .expire => inferInstanceAs (Decidable (_ → True))
  | .work _ => inferInstanceAs (Decidable (_ → ∀ entry ∈ _, _ ≠ _))
  | .stateChange _ => inferInstanceAs (Decidable (_ → True))
  | .advance .. => inferInstanceAs (Decidable (_ → _ → _ → ∀ entry ∈ _, _ → _))

structure Attended (state : NodeState) : Prop where
  queued : state.dnc.inTable = true → ∀ entry ∈ state.calls.entries,
    entry.2.phase = .setBuilding → state.dnc.bcWork.pending = true
  building : state.dnc.inTable = true → state.dnc.status = .building →
    state.dnc.bcWork.pending = true ∨
      ∃ entry ∈ state.calls.entries, entry.2.phase.attends state.dnc.sock = true
  cleaned : ∀ entry ∈ state.calls.entries, entry.2.phase.cleaned = true →
    state.dnc.inTable = false

variable {state after : NodeState} {event : NodeEvent}

theorem Attended.notStranded (attended : state.Attended) : state.NotStranded := by
  intro inTable building alone
  rcases attended.building inTable building with pending | ⟨entry, member, -⟩
  · exact pending
  · rw [alone] at member
    cases member

theorem attended_init : init.Attended where
  queued _ _ member := absurd member List.not_mem_nil
  building _ building := by cases building
  cleaned _ member := absurd member List.not_mem_nil

theorem Attended.enter {who : Nat} {call : NodeCall} (attended : state.Attended)
    (absent : state.calls.lookup who = none) (first : call.phase ≠ .setBuilding)
    (inside : call.phase.cleaned = false) :
    Attended ⟨state.dnc, state.calls.insert who call⟩ where
  queued inTable entry member set := by
    rcases OrderedMap.mem_insert.mp member with rfl | ⟨member, -⟩
    · exact absurd set first
    · exact attended.queued inTable entry member set
  building inTable building := by
    refine (attended.building inTable building).imp_right ?_
    rintro ⟨entry, member, attends⟩
    exact ⟨entry, OrderedMap.mem_insert_of_absent absent member, attends⟩
  cleaned entry member cleaned := by
    rcases OrderedMap.mem_insert.mp member with rfl | ⟨member, -⟩
    · rw [inside] at cleaned
      cases cleaned
    · exact attended.cleaned entry member cleaned

theorem Attended.work {who : Nat} {work : BuilderWork} (attended : state.Attended)
    (between : state.dnc.inTable = true → ∀ entry ∈ state.calls.entries,
      entry.2.phase ≠ .setBuilding) :
    Attended ⟨{ state.dnc with bcWork := .idle }, state.calls.insert who ⟨true, work.start⟩⟩ where
  queued inTable entry member set := by
    rcases OrderedMap.mem_insert.mp member with rfl | ⟨member, -⟩
    · cases work <;> cases set
    · exact absurd set (between inTable entry member)
  building _ _ := by
    refine .inr ⟨_, OrderedMap.mem_insert.mpr (.inl rfl), ?_⟩
    cases work <;> rfl
  cleaned entry member cleaned := by
    rcases OrderedMap.mem_insert.mp member with rfl | ⟨member, -⟩
    · cases work <;> cases cleaned
    · exact attended.cleaned entry member cleaned

/-- A callback leaves what is pending, and the status. -/
theorem Attended.stateChange (attended : state.Attended) (skState : TCPState) :
    Attended ⟨state.dnc.socketStateChange skState, state.calls⟩ := by
  have frame : (state.dnc.socketStateChange skState).status = state.dnc.status ∧
      (state.dnc.socketStateChange skState).sock = state.dnc.sock ∧
      (state.dnc.socketStateChange skState).inTable = state.dnc.inTable ∧
      (state.dnc.bcWork.pending = true →
        (state.dnc.socketStateChange skState).bcWork.pending = true) := by
    cases skState <;> simp [NodeContainer.socketStateChange, DelayedWork.pending]
  obtain ⟨status, sock, table, pending⟩ := frame
  constructor
  · intro inTable entry member set
    exact pending (attended.queued (table.symm.trans inTable) entry member set)
  · intro inTable building
    have before := attended.building (table.symm.trans inTable) (status.symm.trans building)
    rw [sock]
    exact before.imp_left pending
  · intro entry member cleaned
    exact table.trans (attended.cleaned entry member cleaned)

section Advance

variable {who : Nat} {created : Bool} {connect : ConnectResult} {call : NodeCall}

theorem Attended.advance (attended : state.Attended) (here : (who, call) ∈ state.calls.entries)
    (answered : state.LeavesQueued (.advance who created connect)) :
    Attended ⟨(call.phase.advance created connect (call.phase.touched state.dnc)).1,
      goOn state.calls who call.onQueue
        (call.phase.advance created connect (call.phase.touched state.dnc)).2⟩ := by
  have table (inTable : (call.phase.advance created connect
      (call.phase.touched state.dnc)).1.inTable = true) : state.dnc.inTable = true := by
    simpa using NodePhase.advance_inTable inTable
  have inside (inTable : state.dnc.inTable = true) : call.phase.cleaned = false := by
    apply Bool.eq_false_of_not_eq_true
    intro cleaned
    rw [attended.cleaned _ here cleaned] at inTable
    cases inTable
  constructor
  · intro inTable entry member set
    rcases mem_goOn.mp member with ⟨next, goesOn, rfl⟩ | ⟨member, -⟩
    · exact NodePhase.pending_setBuilding (goesOn.trans (congrArg some set))
    · have pending := attended.queued (table inTable) entry member set
      exact NodePhase.pending_after (by simpa using pending) (inside (table inTable))
  · intro inTable building
    cases pending : state.dnc.bcWork.pending with
    | true => exact .inl (NodePhase.pending_after (by simpa using pending) (inside (table inTable)))
    | false =>
        have goesOn (next : NodePhase) (goesOn : (call.phase.advance created connect
            (call.phase.touched state.dnc)).2 = some next) :
            (who, ⟨call.onQueue, next⟩) ∈ (goOn state.calls who call.onQueue
              (call.phase.advance created connect (call.phase.touched state.dnc)).2).entries :=
          mem_goOn.mpr (.inl ⟨next, goesOn, rfl⟩)
        rcases NodePhase.building_before building with before | set
        · rw [NodePhase.touched_status] at before
          rcases attended.building (table inTable) before with there | ⟨entry, member, attends⟩
          · rw [pending] at there
            cases there
          · by_cases own : entry.1 = who
            · obtain ⟨key, other⟩ := entry
              obtain rfl : key = who := own
              obtain rfl := OrderedMap.entry_unique member here
              have met := answered (table inTable) before pending _ here rfl
              refine (NodePhase.attends_after (by simpa using attends) (by simpa using met) inTable
                building).imp_right ?_
              rintro ⟨next, isNext, attends⟩
              exact ⟨_, goesOn next isNext, attends⟩
            · refine .inr ?_
              rcases @NodePhase.attends_other created connect (call.phase.touched state.dnc) _ _
                  (by simpa using attends) (inside (table inTable)) with attends | ⟨next, isNext, attends⟩
              · exact ⟨entry, mem_goOn.mpr (.inr ⟨member, own⟩), attends⟩
              · exact ⟨_, goesOn next isNext, attends⟩
        · rw [attended.queued (table inTable) _ here set] at pending
          cases pending
  · intro entry member cleaned
    rcases mem_goOn.mp member with ⟨next, goesOn, rfl⟩ | ⟨member, -⟩
    · rcases NodePhase.advance_cleaned goesOn cleaned with before | takenOut
      · apply Bool.eq_false_of_not_eq_true
        intro inTable
        rw [inside (table inTable)] at before
        cases before
      · exact takenOut
    · apply Bool.eq_false_of_not_eq_true
      intro inTable
      have outside := attended.cleaned entry member cleaned
      rw [table inTable] at outside
      cases outside

end Advance

theorem Attended.step (attended : state.Attended) (leaves : state.LeavesQueued event)
    (run : state.step event = some after) : after.Attended := by
  cases taken_of_step run with
  | build absent => exact attended.enter absent NodePhase.noConfusion rfl
  | destroy absent => exact attended.enter absent NodePhase.noConfusion rfl
  | expire delayed =>
      refine ⟨fun _ _ _ _ => rfl, fun _ _ => .inl rfl, attended.cleaned⟩
  | work queued absent => exact attended.work leaves
  | stateChange hooked => exact attended.stateChange _
  | advance here waited => exact attended.advance here leaves

/-- Where every step of a run leaves the item queued, no connection is stranded in it. -/
theorem notStranded_always (events : List NodeEvent)
    (guarded : Guarded LeavesQueued step init events) : Always NotStranded step init events :=
  (always_of_preserved (fun _ _ _ attended leaves run => attended.step leaves run) attended_init
    guarded).imp fun _ attended => attended.notStranded

def connectedAtSecond : List NodeEvent :=
  [.build 0, .advance 0 true .failed, .advance 0 true .failed, .advance 0 true .failed,
    .advance 0 true .failed, .advance 0 true .failed, .expire, .work 1, .advance 1 true .failed,
    .advance 1 true .failed, .advance 1 true .failed, .advance 1 true .failed,
    .advance 1 true .failed, .advance 1 true .failed, .advance 1 true .failed, .expire, .work 1,
    .advance 1 true .failed, .advance 1 true .failed, .advance 1 true .failed,
    .advance 1 true (.ok .established)]

theorem notStranded_connected : Always NotStranded step init connectedAtSecond :=
  notStranded_always connectedAtSecond (by decide)

/-- The item runs between its queueing and the status, and finds `DNODE_INIT`. -/
def runsBeforeStatus : List NodeEvent :=
  [.build 0, .advance 0 true .failed, .advance 0 true .failed, .advance 0 true .failed,
    .advance 0 true .failed, .expire, .work 1, .advance 1 true .failed, .advance 1 true .failed,
    .advance 1 true .failed, .advance 0 true .failed]

theorem stranded_after_early_run : ¬ ∀ events, Always NotStranded step init events := by
  intro always
  have last := always runsBeforeStatus runsBeforeStatus [] _ (List.append_nil _).symm rfl
  exact absurd (last rfl rfl rfl) (by decide)

end NodeState

end DmsBlkdev
