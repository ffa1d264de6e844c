import DmsBlkdev.Node.Refused

/-!
# Whether a node container is used after it is freed

The retry limit destroys the container deep inside of the handler, which takes
its lock again afterwards; and a destruction from elsewhere does not wait for
the threads that are inside.  Where the limit is not reached by a handler, and
a destruction finds nobody inside and nothing pending that it does not cancel
or wait for, the container is free only when nobody comes back to it.
-/

namespace DmsBlkdev

open Lib Lib.Run

def NodePhase.destroyCaller? : NodePhase → Option DestroyCaller
  | destroyClean caller => some caller
  | destroyStatus caller => some caller
  | cancelSock caller => some caller
  | cancel caller => some caller
  | flush caller => some caller
  | destroyDisconnect caller => some caller
  | destroyRelease caller => some caller
  | destroyFree caller => some caller
  | _ => none

/-- What a destruction relies on at each of its steps, where `alone` says that no other thread
touches the container and `served` that all that do run its item. -/
def NodePhase.Retiring (alone served : Prop) (dnc : NodeContainer) : NodePhase → Prop
  | destroyStatus _ =>
      alone ∧ (dnc.bcWork.pending = true → dnc.status = .building ∧ dnc.sock = true)
  | cancelSock _ => alone ∧ (dnc.bcWork.pending = true → dnc.sock = true)
  | cancel _ => alone
  | flush _ => served ∧ (dnc.bcWork.pending = true → dnc.bcWork.onQueue = true)
  | destroyDisconnect _ => alone ∧ dnc.bcWork.pending = false
  | destroyRelease _ => alone ∧ dnc.bcWork.pending = false
  | destroyFree _ => alone ∧ dnc.bcWork.pending = false
  | _ => True

/-- A step does not queue the item of a container that has left the table, a handler does not reach
the retry limit, and the container leaves the table when no other thread is inside and what is
pending will be cancelled or waited for. -/
def NodePhase.Unshared (alone : Prop) (dnc : NodeContainer) : NodePhase → Prop
  | schedule caller => dnc.bcWork.pending = false →
      dnc.inTable = true ∧ (caller = .handler → dnc.retryCount ≤ connectionRetryMaxTry)
  | destroyClean _ => dnc.inTable = true →
      alone ∧ (dnc.bcWork.pending = true → dnc.status = .building ∧ dnc.sock = true)
  | _ => True

namespace NodePhase

variable {created : Bool} {connect : ConnectResult} {dnc : NodeContainer} {phase next : NodePhase}
  {alone served : Prop}

attribute [local grind] destroyCaller? cleaned waits Retiring Unshared DelayedWork.pending
  DelayedWork.onQueue

theorem cleaned_before (goesOn : (phase.advance created connect dnc).2 = some next)
    (cleaned : next.cleaned = true) :
    phase.cleaned = true ∨ (∃ caller, phase = .destroyClean caller) ∧ dnc.inTable = true := by
  revert goesOn cleaned
  fun_cases phase.advance created connect dnc <;> grind

theorem destroyCaller_after (unshared : phase.Unshared alone dnc)
    (unlimited : phase.destroyCaller? ≠ some (.retryLimit .handler))
    (goesOn : (phase.advance created connect dnc).2 = some next) :
    next.destroyCaller? ≠ some (.retryLimit .handler) := by
  revert goesOn
  fun_cases phase.advance created connect dnc <;> grind

/-- A destruction finds what it relies on at its next step. -/
theorem retiring_after (retiring : phase.Retiring alone served dnc) (cleaned : phase.cleaned = true)
    (serves : alone → served)
    (flushed : phase.waits = true → served → alone ∧ dnc.bcWork.onQueue = false)
    (goesOn : (phase.advance created connect dnc).2 = some next) :
    next.Retiring alone served (phase.advance created connect dnc).1 := by
  revert goesOn
  fun_cases phase.advance created connect dnc <;> grind

theorem retiring_begins (unshared : phase.Unshared alone dnc) (outside : phase.cleaned = false)
    (goesOn : (phase.advance created connect dnc).2 = some next) :
    next.Retiring alone served (phase.advance created connect dnc).1 := by
  revert goesOn
  fun_cases phase.advance created connect dnc <;> grind

theorem freed_after (freed : (phase.advance created connect dnc).1.freed = true)
    (unlimited : phase.destroyCaller? ≠ some (.retryLimit .handler))
    (retiring : phase.Retiring alone served dnc) :
    dnc.freed = true ∨ phase.cleaned = true ∧ alone ∧
      (phase.advance created connect dnc).1.bcWork.pending = false ∧
      (phase.advance created connect dnc).2 = none := by
  revert freed
  fun_cases phase.advance created connect dnc <;> grind

theorem bcWork_after (unshared : phase.Unshared alone dnc) (outside : dnc.inTable = false)
    (cleaned : phase.cleaned = false) :
    (phase.advance created connect dnc).1.bcWork = dnc.bcWork := by
  fun_cases phase.advance created connect dnc <;> grind

theorem usedAfterFree_after :
    (phase.advance created connect dnc).1.usedAfterFree = dnc.usedAfterFree := by
  fun_cases phase.advance created connect dnc <;> grind

theorem advance_outside (outside : dnc.inTable = false) :
    (destroyClean .outside).advance created connect dnc = (dnc, none) := by
  rw [advance, outside]
  rfl

theorem retiring_of_not_cleaned (inside : phase.cleaned = false) :
    phase.Retiring alone served dnc := by
  cases phase <;> simp_all [Retiring]

theorem Retiring.mono {alone' served' : Prop} (retiring : phase.Retiring alone served dnc)
    (aside : alone → alone') (serves : served → served') : phase.Retiring alone' served' dnc := by
  cases phase <;> simp_all [Retiring]

/-- Only a destruction that waits for the queue goes on with others inside. -/
theorem Retiring.waits (retiring : phase.Retiring alone served dnc)
    (cleaned : phase.cleaned = true) (shared : ¬ alone) : phase.waits = true := by
  cases phase <;> simp_all [Retiring, NodePhase.waits]

theorem Retiring.of_waits (retiring : phase.Retiring alone served dnc) (waits : phase.waits = true) :
    served ∧ (dnc.bcWork.pending = true → dnc.bcWork.onQueue = true) := by
  cases phase <;> simp_all [Retiring, NodePhase.waits]

theorem retiring_of_waits {served' : Prop} {after : NodeContainer} (waits : phase.waits = true)
    (serves : served') (queued : after.bcWork.pending = true → after.bcWork.onQueue = true) :
    phase.Retiring alone served' after := by
  cases phase <;> simp_all [Retiring, NodePhase.waits]

theorem Retiring.idle (retiring : phase.Retiring alone served dnc) :
    phase.Retiring alone served { dnc with bcWork := .idle } := by
  cases phase <;> simp_all [Retiring, DelayedWork.pending]

theorem Retiring.expire {work : BuilderWork} (retiring : phase.Retiring alone served dnc)
    (delayed : dnc.bcWork = .delayed work) :
    phase.Retiring alone served { dnc with bcWork := .queued work } := by
  cases phase <;> simp_all [Retiring, DelayedWork.pending, DelayedWork.onQueue]

/-- What a step says of the container does not change with whether it was used after its release. -/
theorem retiring_touched {other : NodePhase} :
    other.Retiring alone served (phase.touched dnc) ↔ other.Retiring alone served dnc := by
  cases other <;> simp [Retiring]

theorem unshared_touched {other : NodePhase} :
    other.Unshared alone (phase.touched dnc) ↔ other.Unshared alone dnc := by
  cases other <;> simp [Unshared]

end NodePhase

namespace NodeState

def Alone (state : NodeState) (who : Nat) : Prop :=
  ∀ entry ∈ state.calls.entries, entry.1 ≠ who → entry.2.phase = .destroyClean .outside

def Served (state : NodeState) (who : Nat) : Prop :=
  ∀ entry ∈ state.calls.entries, entry.1 ≠ who →
    entry.2.onQueue = true ∨ entry.2.phase = .destroyClean .outside

/-- The container is not used after it is freed, and its item is not pending then. -/
def NotUsedAfterFree (state : NodeState) : Prop :=
  state.dnc.usedAfterFree = false ∧ (state.dnc.freed = true → state.dnc.bcWork.pending = false)

/-- Threads come in, and callbacks, while the container is in the table; the item starts to run
there too, or while a destruction waits for the queue. -/
def Unshared (state : NodeState) : NodeEvent → Prop
  | .build _ => state.dnc.inTable = true
  | .stateChange _ => state.dnc.inTable = true
  | .work _ => ∀ entry ∈ state.calls.entries, entry.2.phase.cleaned = true →
      entry.2.phase.waits = true
  | .advance who _ _ => ∀ entry ∈ state.calls.entries, entry.1 = who →
      entry.2.phase.Unshared (state.Alone who) state.dnc
  | _ => True

instance (state : NodeState) (who : Nat) : Decidable (state.Alone who) :=
  inferInstanceAs (Decidable (∀ entry ∈ _, _ ≠ _ → _))

instance (phase : NodePhase) (alone : Prop) [Decidable alone] (dnc : NodeContainer) :
    Decidable (phase.Unshared alone dnc) :=
  match phase with
  | .schedule _ => inferInstanceAs (Decidable (_ → _ ∧ (_ → _)))
  | .destroyClean _ => inferInstanceAs (Decidable (_ → _ ∧ (_ → _)))
  | .buildSock | .buildStatus | .scheduleSock _ | .setBuilding | .rebuildDisconnect
  | .rebuildRelease | .rebuildCreate | .rebuildInit | .handlerSock _ | .handlerLegal _
  | .handlerStatus _ | .handlerConnect _ | .handlerRelock | .destroyStatus _ | .cancelSock _
  | .cancel _ | .flush _ | .destroyDisconnect _ | .destroyRelease _ | .destroyFree _ =>
      .isTrue trivial

instance (state : NodeState) : DecidablePred state.Unshared
  | .build _ => inferInstanceAs (Decidable (_ = true))
  | .destroy _ => .isTrue trivial
  | .expire => .isTrue trivial
  | .work _ => inferInstanceAs (Decidable (∀ entry ∈ _, _ → _))
  | .stateChange _ => inferInstanceAs (Decidable (_ = true))
  | .advance .. => inferInstanceAs (Decidable (∀ entry ∈ _, _ → _))

structure Retiring (state : NodeState) : Prop where
  unused : state.dnc.usedAfterFree = false
  unlimited : ∀ entry ∈ state.calls.entries,
    entry.2.phase.destroyCaller? ≠ some (.retryLimit .handler)
  freed : state.dnc.freed = true → state.dnc.inTable = false ∧ state.dnc.bcWork.pending = false ∧
    ∀ entry ∈ state.calls.entries, entry.2.phase = .destroyClean .outside
  outside : ∀ entry ∈ state.calls.entries, entry.2.phase.cleaned = true →
    state.dnc.inTable = false
  single : ∀ entry ∈ state.calls.entries, ∀ other ∈ state.calls.entries,
    entry.2.phase.cleaned = true → other.2.phase.cleaned = true → entry.1 = other.1
  retiring : ∀ entry ∈ state.calls.entries,
    entry.2.phase.Retiring (state.Alone entry.1) (state.Served entry.1) state.dnc

variable {state after : NodeState} {event : NodeEvent}

theorem Retiring.notUsedAfterFree (retiring : state.Retiring) : state.NotUsedAfterFree :=
  ⟨retiring.unused, fun freed => (retiring.freed freed).2.1⟩

theorem retiring_init : init.Retiring where
  unused := rfl
  unlimited _ member := absurd member List.not_mem_nil
  freed freed := by cases freed
  outside _ member := absurd member List.not_mem_nil
  single _ member := absurd member List.not_mem_nil
  retiring _ member := absurd member List.not_mem_nil

theorem Alone.served {who : Nat} (alone : state.Alone who) : state.Served who :=
  fun entry member other => .inr (alone entry member other)

theorem Retiring.enter {who : Nat} {call : NodeCall} (retiring : state.Retiring)
    (inside : call.phase.cleaned = false)
    (unlimited : call.phase.destroyCaller? ≠ some (.retryLimit .handler))
    (held : state.dnc.freed = true → call.phase = .destroyClean .outside)
    (joins : ∀ entry ∈ state.calls.entries, entry.2.phase.cleaned = true →
      call.phase = .destroyClean .outside ∨ entry.2.phase.waits = true ∧ call.onQueue = true) :
    Retiring ⟨state.dnc, state.calls.insert who call⟩ where
  unused := retiring.unused
  unlimited entry member := by
    rcases OrderedMap.mem_insert.mp member with rfl | ⟨member, -⟩
    · exact unlimited
    · exact retiring.unlimited entry member
  freed freed := by
    obtain ⟨outside, idle, all⟩ := retiring.freed freed
    refine ⟨outside, idle, fun entry member => ?_⟩
    rcases OrderedMap.mem_insert.mp member with rfl | ⟨member, -⟩
    · exact held freed
    · exact all entry member
  outside entry member cleaned := by
    rcases OrderedMap.mem_insert.mp member with rfl | ⟨member, -⟩
    · rw [inside] at cleaned
      cases cleaned
    · exact retiring.outside entry member cleaned
  single first one second other cleaned cleaned' := by
    rcases OrderedMap.mem_insert.mp one with rfl | ⟨one, -⟩
    · rw [inside] at cleaned
      cases cleaned
    · rcases OrderedMap.mem_insert.mp other with rfl | ⟨other, -⟩
      · rw [inside] at cleaned'
        cases cleaned'
      · exact retiring.single first one second other cleaned cleaned'
  retiring entry member := by
    rcases OrderedMap.mem_insert.mp member with rfl | ⟨member, -⟩
    · exact NodePhase.retiring_of_not_cleaned inside
    · cases cleaned : entry.2.phase.cleaned with
      | false => exact NodePhase.retiring_of_not_cleaned cleaned
      | true =>
          have before := retiring.retiring entry member
          rcases joins entry member cleaned with outside | ⟨waits, onQueue⟩
          · refine before.mono ?_ ?_
            · intro alone other there elsewhere
              rcases OrderedMap.mem_insert.mp there with rfl | ⟨there, -⟩
              · exact outside
              · exact alone other there elsewhere
            · intro served other there elsewhere
              rcases OrderedMap.mem_insert.mp there with rfl | ⟨there, -⟩
              · exact .inr outside
              · exact served other there elsewhere
          · obtain ⟨served, queued⟩ := before.of_waits waits
            refine NodePhase.retiring_of_waits waits ?_ queued
            intro other there elsewhere
            rcases OrderedMap.mem_insert.mp there with rfl | ⟨there, -⟩
            · exact .inl onQueue
            · exact served other there elsewhere

theorem Retiring.withWork {bcWork : DelayedWork} (retiring : state.Retiring)
    (idle : state.dnc.freed = true → bcWork.pending = false)
    (relies : ∀ entry ∈ state.calls.entries, entry.2.phase.Retiring (state.Alone entry.1)
      (state.Served entry.1) { state.dnc with bcWork }) :
    Retiring ⟨{ state.dnc with bcWork }, state.calls⟩ where
  unused := retiring.unused
  unlimited := retiring.unlimited
  freed freed :=
    ⟨(retiring.freed freed).1, idle freed, (retiring.freed freed).2.2⟩
  outside := retiring.outside
  single := retiring.single
  retiring := relies

theorem Retiring.stateChange (retiring : state.Retiring) (inTable : state.dnc.inTable = true)
    (skState : TCPState) : Retiring ⟨state.dnc.socketStateChange skState, state.calls⟩ := by
  have held : state.dnc.freed = false := by
    apply Bool.eq_false_of_not_eq_true
    intro freed
    rw [(retiring.freed freed).1] at inTable
    cases inTable
  have frame : (state.dnc.socketStateChange skState).usedAfterFree = state.dnc.usedAfterFree ∧
      (state.dnc.socketStateChange skState).freed = state.dnc.freed ∧
      (state.dnc.socketStateChange skState).inTable = state.dnc.inTable := by
    cases skState <;> simp [NodeContainer.socketStateChange, held]
  obtain ⟨used, freed, table⟩ := frame
  have inside : ∀ entry ∈ state.calls.entries, entry.2.phase.cleaned = false := by
    intro entry member
    apply Bool.eq_false_of_not_eq_true
    intro cleaned
    rw [retiring.outside entry member cleaned] at inTable
    cases inTable
  constructor
  · exact used.trans retiring.unused
  · exact retiring.unlimited
  · intro isFreed
    rw [freed, held] at isFreed
    cases isFreed
  · intro entry member cleaned
    rw [inside entry member] at cleaned
    cases cleaned
  · exact retiring.single
  · exact fun entry member => NodePhase.retiring_of_not_cleaned (inside entry member)

section Advance

variable {who : Nat} {created : Bool} {connect : ConnectResult} {call : NodeCall}

theorem alone_goOn {dnc : NodeContainer} {next : Option NodePhase} :
    Alone ⟨dnc, goOn state.calls who call.onQueue next⟩ who ↔ state.Alone who := by
  constructor
  · exact fun alone entry member other => alone entry (mem_goOn.mpr (.inr ⟨member, other⟩)) other
  · intro alone entry member other
    rcases mem_goOn.mp member with ⟨phase, -, rfl⟩ | ⟨member, -⟩
    · exact absurd rfl other
    · exact alone entry member other

theorem served_goOn {dnc : NodeContainer} {next : Option NodePhase} :
    Served ⟨dnc, goOn state.calls who call.onQueue next⟩ who ↔ state.Served who := by
  constructor
  · exact fun served entry member other => served entry (mem_goOn.mpr (.inr ⟨member, other⟩)) other
  · intro served entry member other
    rcases mem_goOn.mp member with ⟨phase, -, rfl⟩ | ⟨member, -⟩
    · exact absurd rfl other
    · exact served entry member other

/-- A flush that ends leaves nobody to run the item, and the item not on the queue. -/
theorem alone_of_flushed (flushed : state.flushed who = true) (served : state.Served who) :
    state.Alone who ∧ state.dnc.bcWork.onQueue = false := by
  rw [NodeState.flushed, Bool.and_eq_true, Bool.not_eq_true', List.all_eq_true] at flushed
  refine ⟨fun entry member other => ?_, flushed.1⟩
  have offQueue := flushed.2 entry member
  rw [decide_eq_false other, Bool.false_or, Bool.not_eq_true'] at offQueue
  refine (served entry member other).resolve_left ?_
  rw [offQueue]
  exact Bool.false_ne_true

theorem Retiring.leave (retiring : state.Retiring) :
    Retiring ⟨state.dnc, state.calls.erase who⟩ where
  unused := retiring.unused
  unlimited entry member := retiring.unlimited entry (OrderedMap.mem_erase.mp member).1
  freed freed := by
    obtain ⟨outside, idle, all⟩ := retiring.freed freed
    exact ⟨outside, idle, fun entry member => all entry (OrderedMap.mem_erase.mp member).1⟩
  outside entry member := retiring.outside entry (OrderedMap.mem_erase.mp member).1
  single first one second other :=
    retiring.single first (OrderedMap.mem_erase.mp one).1 second (OrderedMap.mem_erase.mp other).1
  retiring entry member := by
    refine (retiring.retiring entry (OrderedMap.mem_erase.mp member).1).mono ?_ ?_
    · exact fun alone other there => alone other (OrderedMap.mem_erase.mp there).1
    · exact fun served other there => served other (OrderedMap.mem_erase.mp there).1

/-- The step of a destruction leaves it alone, or in the flush. -/
theorem Retiring.own {next : NodePhase} (retiring : state.Retiring)
    (here : (who, call) ∈ state.calls.entries)
    (waited : call.phase.waits = true → state.flushed who = true)
    (unshared : call.phase.Unshared (state.Alone who) state.dnc)
    (goesOn : (call.phase.advance created connect (call.phase.touched state.dnc)).2 = some next) :
    next.Retiring (state.Alone who) (state.Served who)
      (call.phase.advance created connect (call.phase.touched state.dnc)).1 := by
  have before : call.phase.Retiring (state.Alone who) (state.Served who)
      (call.phase.touched state.dnc) := NodePhase.retiring_touched.mpr (retiring.retiring _ here)
  cases cleaned : call.phase.cleaned with
  | true =>
      refine NodePhase.retiring_after before cleaned Alone.served ?_ goesOn
      intro waits served
      rw [NodePhase.touched_bcWork]
      exact alone_of_flushed (waited waits) served
  | false =>
      exact NodePhase.retiring_begins (NodePhase.unshared_touched.mpr unshared) cleaned goesOn

/-- A destruction that another thread steps beside is in the flush, and the step leaves the item
to it. -/
theorem Retiring.others {entry : Nat × NodeCall} (retiring : state.Retiring)
    (here : (who, call) ∈ state.calls.entries)
    (unshared : call.phase.Unshared (state.Alone who) state.dnc)
    (touches : call.phase = .destroyClean .outside → state.dnc.inTable = true)
    (member : entry ∈ state.calls.entries) (other : entry.1 ≠ who) {next : Option NodePhase} :
    entry.2.phase.Retiring
      (Alone ⟨(call.phase.advance created connect (call.phase.touched state.dnc)).1,
        goOn state.calls who call.onQueue next⟩ entry.1)
      (Served ⟨(call.phase.advance created connect (call.phase.touched state.dnc)).1,
        goOn state.calls who call.onQueue next⟩ entry.1)
      (call.phase.advance created connect (call.phase.touched state.dnc)).1 := by
  cases cleaned : entry.2.phase.cleaned with
  | false => exact NodePhase.retiring_of_not_cleaned cleaned
  | true =>
      have outside := retiring.outside entry member cleaned
      have relies := retiring.retiring entry member
      have shared : ¬ state.Alone entry.1 := by
        intro alone
        have aside := alone _ here (Ne.symm other)
        rw [touches aside] at outside
        cases outside
      have waits := relies.waits cleaned shared
      obtain ⟨served, queued⟩ := relies.of_waits waits
      have inside : call.phase.cleaned = false := by
        apply Bool.eq_false_of_not_eq_true
        intro was
        exact other (retiring.single entry member _ here cleaned was)
      refine NodePhase.retiring_of_waits waits ?_ ?_
      · intro third there elsewhere
        rcases mem_goOn.mp there with ⟨next, -, rfl⟩ | ⟨there, -⟩
        · refine .inl ((served _ here (Ne.symm other)).resolve_right ?_)
          intro aside
          rw [touches aside] at outside
          cases outside
        · exact served third there elsewhere
      · rw [NodePhase.bcWork_after (NodePhase.unshared_touched.mpr unshared)
            (by simpa using outside) inside, NodePhase.touched_bcWork]
        exact queued

theorem Retiring.advance (retiring : state.Retiring) (here : (who, call) ∈ state.calls.entries)
    (waited : call.phase.waits = true → state.flushed who = true)
    (unshared : call.phase.Unshared (state.Alone who) state.dnc)
    (touches : call.phase = .destroyClean .outside → state.dnc.inTable = true) :
    Retiring ⟨(call.phase.advance created connect (call.phase.touched state.dnc)).1,
      goOn state.calls who call.onQueue
        (call.phase.advance created connect (call.phase.touched state.dnc)).2⟩ := by
  have held : state.dnc.freed = false := by
    apply Bool.eq_false_of_not_eq_true
    intro freed
    obtain ⟨outside, -, all⟩ := retiring.freed freed
    rw [touches (all _ here)] at outside
    cases outside
  have table (inTable : (call.phase.advance created connect
      (call.phase.touched state.dnc)).1.inTable = true) : state.dnc.inTable = true := by
    simpa using NodePhase.advance_inTable inTable
  have leftTable (outside : state.dnc.inTable = false) : (call.phase.advance created connect
      (call.phase.touched state.dnc)).1.inTable = false := by
    apply Bool.eq_false_of_not_eq_true
    intro inTable
    rw [table inTable] at outside
    cases outside
  have before : call.phase.Retiring (state.Alone who) (state.Served who)
      (call.phase.touched state.dnc) := NodePhase.retiring_touched.mpr (retiring.retiring _ here)
  have unsharedTouched : call.phase.Unshared (state.Alone who) (call.phase.touched state.dnc) :=
    NodePhase.unshared_touched.mpr unshared
  constructor
  · rw [NodePhase.usedAfterFree_after]
    have unused := retiring.unused
    unfold NodePhase.touched
    split
    · exact unused
    · rw [NodeContainer.touch, unused, held]
      rfl
  · intro entry member
    rcases mem_goOn.mp member with ⟨next, goesOn, rfl⟩ | ⟨member, -⟩
    · exact NodePhase.destroyCaller_after unsharedTouched (retiring.unlimited _ here) goesOn
    · exact retiring.unlimited entry member
  · intro freed
    rcases NodePhase.freed_after freed (retiring.unlimited _ here) before with
      isFreed | ⟨cleaned, alone, idle, leaves⟩
    · rw [NodePhase.touched_freed, held] at isFreed
      cases isFreed
    · refine ⟨leftTable (retiring.outside _ here cleaned), idle, fun entry member => ?_⟩
      rcases mem_goOn.mp member with ⟨next, goesOn, rfl⟩ | ⟨member, other⟩
      · rw [leaves] at goesOn
        cases goesOn
      · exact alone entry member other
  · intro entry member cleaned
    rcases mem_goOn.mp member with ⟨next, goesOn, rfl⟩ | ⟨member, -⟩
    · rcases NodePhase.advance_cleaned goesOn cleaned with was | takenOut
      · exact leftTable (retiring.outside _ here was)
      · exact takenOut
    · exact leftTable (retiring.outside entry member cleaned)
  · -- a destruction begins at the table, where no other is under way
    have unique (next : NodePhase) (goesOn : (call.phase.advance created connect
        (call.phase.touched state.dnc)).2 = some next) (cleaned : next.cleaned = true)
        (entry : Nat × NodeCall) (member : entry ∈ state.calls.entries)
        (cleaned' : entry.2.phase.cleaned = true) : who = entry.1 := by
      rcases NodePhase.cleaned_before goesOn cleaned with was | ⟨-, inTable⟩
      · exact retiring.single _ here entry member was cleaned'
      · rw [NodePhase.touched_inTable, retiring.outside entry member cleaned'] at inTable
        cases inTable
    intro first one second other cleaned cleaned'
    rcases mem_goOn.mp one with ⟨next, goesOn, rfl⟩ | ⟨one, -⟩
    · rcases mem_goOn.mp other with ⟨next', -, rfl⟩ | ⟨other, -⟩
      · rfl
      · exact unique next goesOn cleaned second other cleaned'
    · rcases mem_goOn.mp other with ⟨next, goesOn, rfl⟩ | ⟨other, -⟩
      · exact (unique next goesOn cleaned' first one cleaned).symm
      · exact retiring.single first one second other cleaned cleaned'
  · intro entry member
    rcases mem_goOn.mp member with ⟨next, goesOn, rfl⟩ | ⟨member, other⟩
    · exact (retiring.own here waited unshared goesOn).mono alone_goOn.mpr served_goOn.mpr
    · exact retiring.others here unshared touches member other

end Advance

theorem Retiring.step (retiring : state.Retiring) (unshared : state.Unshared event)
    (run : state.step event = some after) : after.Retiring := by
  cases taken_of_step run with
  | build absent =>
      refine retiring.enter rfl (by simp [NodePhase.destroyCaller?]) ?_ ?_
      · intro freed
        have inTable : state.dnc.inTable = true := unshared
        rw [(retiring.freed freed).1] at inTable
        cases inTable
      · intro entry member cleaned
        have inTable : state.dnc.inTable = true := unshared
        rw [retiring.outside entry member cleaned] at inTable
        cases inTable
  | destroy absent =>
      exact retiring.enter rfl (by simp [NodePhase.destroyCaller?]) (fun _ => rfl)
        fun _ _ _ => .inl rfl
  | expire delayed =>
      refine retiring.withWork ?_ fun entry member => (retiring.retiring entry member).expire delayed
      intro freed
      have idle := (retiring.freed freed).2.1
      rw [delayed] at idle
      cases idle
  | @work who work queued absent =>
      have taken := retiring.withWork (fun _ => rfl)
        fun entry member => (retiring.retiring entry member).idle
      refine taken.enter ?_ ?_ ?_ fun entry member cleaned => .inr ⟨unshared entry member cleaned, rfl⟩
      · cases work <;> rfl
      · cases work <;> simp [BuilderWork.start, NodePhase.destroyCaller?]
      · intro freed
        have idle := (retiring.freed freed).2.1
        rw [queued] at idle
        cases idle
  | stateChange hooked => exact retiring.stateChange unshared _
  | @advance who created connect call here waited =>
      by_cases harmless : call.phase = .destroyClean .outside ∧ state.dnc.inTable = false
      · obtain ⟨isClean, outside⟩ := harmless
        have left := @Retiring.leave _ who retiring
        rw [isClean, NodePhase.touched, NodePhase.advance_outside outside]
        exact left
      · have met := unshared _ here rfl
        refine retiring.advance here waited met fun isClean => ?_
        apply Bool.eq_true_of_not_eq_false
        exact fun outside => harmless ⟨isClean, outside⟩

/-- Where no step of a run shares the container with its destruction, it is not used after it is
freed. -/
theorem notUsedAfterFree_always (events : List NodeEvent)
    (guarded : Guarded Unshared step init events) : Always NotUsedAfterFree step init events :=
  (always_of_preserved (fun _ _ _ retiring unshared run => retiring.step unshared run) retiring_init
    guarded).imp fun _ retiring => retiring.notUsedAfterFree

def destroyedConnected : List NodeEvent :=
  firstAttempt ++ beginAttempt ++ .advance 0 true (.ok .established) :: .destroy 0 :: takeSteps 0 5

theorem notUsedAfterFree_destroyed : Always NotUsedAfterFree step init destroyedConnected :=
  notUsedAfterFree_always destroyedConnected (by decide)

/-- The retry limit is reached in the handler, which takes its lock again behind the destruction. -/
theorem run_limit {attempts : Nat} (limit : connectionRetryMaxTry < attempts + 1) :
    run step (rescheduling attempts (.schedule .handler)) (takeSteps 0 9) =
      some ⟨{ (rescheduling attempts .handlerRelock).dnc.giveUp.takeOut with
        status := .disconnected, sock := false, freed := true, usedAfterFree := true }, .empty⟩ := by
  have givenUp : run step (rescheduling attempts (.schedule .handler)) (takeSteps 0 1) = some
      ⟨(rescheduling attempts (.schedule .handler)).dnc.giveUp,
        (rescheduling attempts (.destroyClean (.retryLimit .handler))).calls⟩ := by
    rw [takeSteps, List.replicate_one, run, step_advance true .failed rfl rfl,
      NodePhase.advance_schedule_givenUp rfl limit]
    rfl
  have cancelled : run step ⟨(rescheduling attempts (.schedule .handler)).dnc.giveUp,
        (rescheduling attempts (.destroyClean (.retryLimit .handler))).calls⟩ (takeSteps 0 4) = some
      ⟨(rescheduling attempts (.schedule .handler)).dnc.giveUp.takeOut,
        (rescheduling attempts (.destroyDisconnect (.retryLimit .handler))).calls⟩ := rfl
  rw [show takeSteps 0 9 = takeSteps 0 1 ++ (takeSteps 0 4 ++ takeSteps 0 4) from rfl, run_append,
    givenUp, Option.bind_some, run_append, cancelled]
  rfl

theorem used_after_limit : ¬ ∀ events, Always NotUsedAfterFree step init events := by
  intro always
  obtain ⟨last, ran, used⟩ : ∃ last, run step (rescheduling connectionRetryMaxTry
      (.schedule .handler)) (takeSteps 0 9) = some last ∧ last.dnc.usedAfterFree = true :=
    ⟨_, run_limit (Nat.lt_succ_self connectionRetryMaxTry), rfl⟩
  have reached : run step init (refusedAttempts connectionRetryMaxTry ++
      (refusedConnect ++ takeSteps 0 9)) = some last := by
    rw [run_append, run_refusedAttempts le_rfl, Option.bind_some, run_append, run_refusedConnect]
    exact ran
  have unused := (always _ _ [] last (List.append_nil _).symm reached).1
  rw [used] at unused
  cases unused

end NodeState

end DmsBlkdev
