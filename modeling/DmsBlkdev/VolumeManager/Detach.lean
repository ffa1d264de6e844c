import DmsBlkdev.VolumeManager.Table
import DmsBlkdev.Lib.OrderedMap
import DmsBlkdev.Lib.Run

/-!
# Opens, closes and detaches of one volume

Any number of callers open, close and detach an attached volume at once.  A
detach tests the open counter, and then marks the volume, takes it out of its
slot and releases it; an open reads the slot, tests the mark and then counts
itself.  Nothing holds these steps together.
-/

namespace DmsBlkdev

open Lib Lib.Run

inductive VolumePhase where
  | openRead
  | openTest
  | openRefused
  | openIncrement
  | closeRead
  | closeDecrement
  | detachFind
  | detachTest
  | detachSetDetaching
  | detachClearAttached
  | detachClearDetaching
  | detachClearSlot
  | detachRelease
  deriving DecidableEq, Repr

namespace VolumePhase

def holds : VolumePhase → Bool
  | openTest => true
  | openRefused => true
  | openIncrement => true
  | closeDecrement => true
  | _ => false

def detaching : VolumePhase → Bool
  | detachSetDetaching => true
  | detachClearAttached => true
  | detachClearDetaching => true
  | detachClearSlot => true
  | detachRelease => true
  | _ => false

end VolumePhase

/-- The volume, whether its slot has it and whether it is released; and what the run records: the
opens that returned 0 and were not closed since, the closes that came without such an open, whether
the volume was released while an open was not closed, and whether an open or a close touched it
after its release. -/
structure SharedVolume where
  volume : DMSVolume
  inSlot : Bool
  released : Bool
  unclosed : Nat
  stray : Nat
  releasedOpen : Bool
  usedAfterRelease : Bool
  deriving DecidableEq, Repr

namespace SharedVolume

def attached (volumeID : BitVec 64) (minorIndex : Int) : SharedVolume where
  volume := ⟨volumeID, minorIndex, attachedBit, 0⟩
  inSlot := true
  released := false
  unclosed := 0
  stray := 0
  releasedOpen := false
  usedAfterRelease := false

def touch (shared : SharedVolume) : SharedVolume :=
  { shared with usedAfterRelease := shared.usedAfterRelease || shared.released }

def countOpen (shared : SharedVolume) : SharedVolume :=
  { shared with
    volume := { shared.volume with openCounter := shared.volume.openCounter + 1 }
    unclosed := shared.unclosed + 1 }

/-- The counter goes down whether or not there is an open to close. -/
def countClose (shared : SharedVolume) : SharedVolume :=
  { shared with
    volume := { shared.volume with openCounter := shared.volume.openCounter - 1 }
    unclosed := shared.unclosed - 1
    stray := if shared.unclosed = 0 then shared.stray + 1 else shared.stray }

def setState (shared : SharedVolume) (volumeState : BitVec 32) : SharedVolume :=
  { shared with volume := { shared.volume with volumeState } }

def clearSlot (shared : SharedVolume) : SharedVolume := { shared with inSlot := false }

def release (shared : SharedVolume) : SharedVolume :=
  { shared with
    released := true
    releasedOpen := shared.releasedOpen || decide (0 < shared.unclosed) }

end SharedVolume

/-- One atomic step: the volume after it, and the next step, if the caller goes on. -/
def VolumePhase.advance (shared : SharedVolume) : VolumePhase → SharedVolume × Option VolumePhase
  -- Open_DMS_Volume and __Open_Volume
  | openRead => if shared.inSlot then (shared, some openTest) else (shared, none)
  | openTest =>
      if shared.volume.volumeState.getLsbD 1 = false then (shared.touch, some openIncrement)
      else (shared.touch, some openRefused)
  | openRefused => (shared.touch, none)
  | openIncrement => (shared.touch.countOpen, none)
  -- Close_DMS_Volume and __Close_Volume
  | closeRead => if shared.inSlot then (shared, some closeDecrement) else (shared, none)
  | closeDecrement => (shared.touch.countClose, none)
  -- DMS_Detach_Volume
  | detachFind => if shared.inSlot then (shared, some detachTest) else (shared, none)
  | detachTest =>
      if isOpenCounterEmptyInVol shared.volume then (shared, some detachSetDetaching)
      else (shared, none)
  -- __Detach_Volume
  | detachSetDetaching =>
      (shared.setState (shared.volume.volumeState ||| detachingBit), some detachClearAttached)
  | detachClearAttached =>
      (shared.setState (shared.volume.volumeState &&& ~~~attachedBit), some detachClearDetaching)
  | detachClearDetaching =>
      (shared.setState (shared.volume.volumeState &&& ~~~detachingBit), some detachClearSlot)
  -- Remove_and_Release_DMS_Volume
  | detachClearSlot => (shared.clearSlot, some detachRelease)
  | detachRelease => (shared.release, none)

structure VolumeState where
  shared : SharedVolume
  calls : OrderedMap Nat VolumePhase

inductive VolumeEvent where
  | openVolume (who : Nat)
  | closeVolume (who : Nat)
  | detachVolume (who : Nat)
  | advance (who : Nat)
  deriving DecidableEq, Repr

namespace VolumeState

def init (volumeID : BitVec 64) (minorIndex : Int) : VolumeState :=
  ⟨.attached volumeID minorIndex, .empty⟩

def enter (state : VolumeState) (who : Nat) (phase : VolumePhase) : Option VolumeState :=
  match state.calls.lookup who with
  | some _ => none
  | none => some { state with calls := state.calls.insert who phase }

def step (state : VolumeState) : VolumeEvent → Option VolumeState
  | .openVolume who => state.enter who .openRead
  | .closeVolume who => state.enter who .closeRead
  | .detachVolume who => state.enter who .detachFind
  | .advance who => (state.calls.lookup who).map fun phase =>
      ⟨(phase.advance state.shared).1, state.calls.assign who (phase.advance state.shared).2⟩

section Alone

variable {state : VolumeState} {who : Nat}

theorem step_enter {phase : VolumePhase} (absent : state.calls.lookup who = none) :
    state.enter who phase = some ⟨state.shared, state.calls.assign who (some phase)⟩ := by
  rw [enter, absent]
  rfl

/-- The steps of one caller that no other comes between. -/
theorem run_advance {shared shared' : SharedVolume} {calls : OrderedMap Nat VolumePhase}
    {phase : VolumePhase} {next : Option VolumePhase} (count : Nat)
    (goesOn : phase.advance shared = (shared', next)) :
    run step ⟨shared, calls.assign who (some phase)⟩ (List.replicate (count + 1) (.advance who)) =
      run step ⟨shared', (calls.assign who (some phase)).assign who next⟩
        (List.replicate count (.advance who)) := by
  rw [List.replicate_succ, run, step, OrderedMap.lookup_assign]
  simp only [Option.map_some, goesOn, Option.bind_some]

/-- An open that nobody interrupts is `__Open_Volume`, and counts where that returns 0. -/
theorem run_openVolume (absent : state.calls.lookup who = none)
    (inSlot : state.shared.inSlot = true) :
    ∃ after, run step state (.openVolume who :: List.replicate 3 (.advance who)) = some after ∧
      after.calls.lookup who = none ∧
      after.shared.volume = (DmsBlkdev.openVolume state.shared.volume).2 ∧
      (after.shared.unclosed = state.shared.unclosed + 1 ↔
        (DmsBlkdev.openVolume state.shared.volume).1 = 0) := by
  have read : VolumePhase.openRead.advance state.shared = (state.shared, some .openTest) :=
    if_pos inSlot
  rw [run, step, step_enter absent, Option.bind_some, run_advance 2 read]
  by_cases clear : state.shared.volume.volumeState.getLsbD 1 = false
  · have test : VolumePhase.openTest.advance state.shared =
        (state.shared.touch, some .openIncrement) := if_pos clear
    rw [run_advance 1 test, run_advance 0 rfl, DmsBlkdev.openVolume, if_pos clear]
    exact ⟨_, rfl, OrderedMap.lookup_assign none, rfl, iff_of_true rfl rfl⟩
  · have test : VolumePhase.openTest.advance state.shared =
        (state.shared.touch, some .openRefused) := if_neg clear
    rw [run_advance 1 test, run_advance 0 rfl, DmsBlkdev.openVolume, if_neg clear]
    refine ⟨_, rfl, OrderedMap.lookup_assign none, rfl, iff_of_false ?_ ?_⟩
    · exact Nat.ne_of_lt (Nat.lt_succ_self state.shared.unclosed)
    · show badAddress ≠ 0
      decide

theorem run_closeVolume (absent : state.calls.lookup who = none)
    (inSlot : state.shared.inSlot = true) :
    ∃ after, run step state (.closeVolume who :: List.replicate 2 (.advance who)) = some after ∧
      after.calls.lookup who = none ∧
      after.shared.volume = (DmsBlkdev.closeVolume state.shared.volume).2 ∧
      after.shared.unclosed = state.shared.unclosed - 1 := by
  have read : VolumePhase.closeRead.advance state.shared = (state.shared, some .closeDecrement) :=
    if_pos inSlot
  rw [run, step, step_enter absent, Option.bind_some, run_advance 1 read, run_advance 0 rfl]
  exact ⟨_, rfl, OrderedMap.lookup_assign none, rfl, rfl⟩

end Alone

/-- The volume is not released while an open that returned 0 has not been closed, and no open or
close touches it after its release. -/
def OpenNotReleased (state : VolumeState) : Prop :=
  state.shared.releasedOpen = false ∧ state.shared.usedAfterRelease = false

/-- An open counts itself while no detach is behind its test of the counter; a detach tests the
counter while no open is left unclosed, or the unclosed opens and the stray closes do not cancel out
in the counter; and a detach releases the volume while no open or close has its pointer. -/
def KeptApart (state : VolumeState) : VolumeEvent → Prop
  | .advance who => ∀ entry ∈ state.calls.entries, entry.1 = who →
      match entry.2 with
      | .openIncrement => ∀ other ∈ state.calls.entries, other.2.detaching = false
      | .detachTest => state.shared.unclosed = 0 ∨
          ¬ state.shared.unclosed ≡ state.shared.stray [MOD 2 ^ 32]
      | .detachRelease => ∀ other ∈ state.calls.entries, other.2.holds = false
      | _ => True
  | _ => True

/-- Where the steps are kept apart, the counter is the balance of the unclosed opens and the stray
closes, no open is left behind the test of a detach, and the slot is empty before the release. -/
structure Balanced (state : VolumeState) : Prop where
  counter : state.shared.volume.openCounter =
    openCounterOf ((state.shared.unclosed : Int) - state.shared.stray)
  idle : ∀ entry ∈ state.calls.entries, entry.2.detaching = true → state.shared.unclosed = 0
  cleared : ∀ entry ∈ state.calls.entries, entry.2 = .detachRelease → state.shared.inSlot = false
  released : state.shared.released = true → state.shared.inSlot = false ∧
    ∀ entry ∈ state.calls.entries, entry.2.holds = false
  sound : state.OpenNotReleased

variable {state after : VolumeState} {event : VolumeEvent}

theorem balanced_init (volumeID : BitVec 64) (minorIndex : Int) :
    (init volumeID minorIndex).Balanced where
  counter := rfl
  idle _ member := absurd member List.not_mem_nil
  cleared _ member := absurd member List.not_mem_nil
  released released := by cases released
  sound := ⟨rfl, rfl⟩

theorem enter_eq_some {next : VolumeState} {who : Nat} {phase : VolumePhase} :
    state.enter who phase = some next ↔
      state.calls.lookup who = none ∧ next = ⟨state.shared, state.calls.insert who phase⟩ := by
  rw [enter]
  split
  · next found => simp [found]
  · next absent => simp [absent, eq_comm]

theorem Balanced.enter {who : Nat} {phase : VolumePhase} (balanced : state.Balanced)
    (holds : phase.holds = false) (detaching : phase.detaching = false)
    (run : state.enter who phase = some after) : after.Balanced := by
  obtain ⟨-, rfl⟩ := enter_eq_some.mp run
  constructor
  · exact balanced.counter
  · intro entry member isDetaching
    rcases OrderedMap.mem_insert.mp member with rfl | ⟨member, -⟩
    · rw [detaching] at isDetaching
      cases isDetaching
    · exact balanced.idle entry member isDetaching
  · intro entry member releases
    rcases OrderedMap.mem_insert.mp member with rfl | ⟨member, -⟩
    · subst releases
      cases detaching
    · exact balanced.cleared entry member releases
  · intro released
    obtain ⟨empty, left⟩ := balanced.released released
    refine ⟨empty, fun entry member => ?_⟩
    rcases OrderedMap.mem_insert.mp member with rfl | ⟨member, -⟩
    · exact holds
    · exact left entry member
  · exact balanced.sound

section Advance

variable {who : Nat} {phase : VolumePhase}

/-- A step that leaves the volume as it is, and after which its caller has no more than before. -/
theorem Balanced.goOn {next : Option VolumePhase} (balanced : state.Balanced)
    (holds : ∀ phase, next = some phase → phase.holds = true → state.shared.released = false)
    (idle : ∀ phase, next = some phase → phase.detaching = true → state.shared.unclosed = 0)
    (cleared : next = some .detachRelease → state.shared.inSlot = false) :
    Balanced ⟨state.shared, state.calls.assign who next⟩ where
  counter := balanced.counter
  idle entry member detaching := by
    rcases OrderedMap.mem_assign.mp member with ⟨phase, isNext, rfl⟩ | ⟨member, -⟩
    · exact idle phase isNext detaching
    · exact balanced.idle entry member detaching
  cleared entry member releases := by
    rcases OrderedMap.mem_assign.mp member with ⟨phase, isNext, rfl⟩ | ⟨member, -⟩
    · exact cleared (isNext.trans (congrArg some releases))
    · exact balanced.cleared entry member releases
  released released := by
    obtain ⟨empty, left⟩ := balanced.released released
    refine ⟨empty, fun entry member => ?_⟩
    rcases OrderedMap.mem_assign.mp member with ⟨phase, isNext, rfl⟩ | ⟨member, -⟩
    · apply Bool.eq_false_of_not_eq_true
      intro held
      rw [holds phase isNext held] at released
      cases released
    · exact left entry member
  sound := balanced.sound

theorem Balanced.next {next : VolumePhase} (balanced : state.Balanced)
    (holds : next.holds = true → state.shared.released = false)
    (idle : next.detaching = true → state.shared.unclosed = 0)
    (cleared : next = .detachRelease → state.shared.inSlot = false) :
    Balanced ⟨state.shared, state.calls.assign who (some next)⟩ := by
  refine balanced.goOn ?_ ?_ ?_
  · rintro _ ⟨⟩
    exact holds
  · rintro _ ⟨⟩
    exact idle
  · intro isNext
    exact cleared (Option.some.inj isNext)

theorem Balanced.leave (balanced : state.Balanced) :
    Balanced ⟨state.shared, state.calls.assign who none⟩ := by
  refine balanced.goOn ?_ ?_ ?_
  · intro next isNext
    cases isNext
  · intro next isNext
    cases isNext
  · intro isNext
    cases isNext

theorem Balanced.setState (balanced : state.Balanced) (volumeState : BitVec 32) :
    Balanced ⟨state.shared.setState volumeState, state.calls⟩ :=
  ⟨balanced.counter, balanced.idle, balanced.cleared, balanced.released, balanced.sound⟩

theorem Balanced.touch (balanced : state.Balanced) (here : (who, phase) ∈ state.calls.entries)
    (holds : phase.holds = true) : state.shared.touch = state.shared ∧
      state.shared.released = false := by
  have there : state.shared.released = false := by
    apply Bool.eq_false_of_not_eq_true
    intro released
    have left := (balanced.released released).2 _ here
    rw [holds] at left
    cases left
  have unused : state.shared.usedAfterRelease = false := balanced.sound.2
  refine ⟨?_, there⟩
  rw [SharedVolume.touch, there, Bool.or_false, ← there]

theorem Balanced.countOpen (balanced : state.Balanced)
    (apart : ∀ other ∈ state.calls.entries, other.2.detaching = false) :
    Balanced ⟨state.shared.countOpen, state.calls⟩ where
  counter := by
    show state.shared.volume.openCounter + 1 = _
    rw [balanced.counter, openCounterOf_opened]
    congr 1
    show _ = ((state.shared.unclosed + 1 : Nat) : Int) - state.shared.stray
    omega
  idle entry member detaching := by
    rw [apart entry member] at detaching
    cases detaching
  cleared := balanced.cleared
  released := balanced.released
  sound := balanced.sound

theorem Balanced.countClose (balanced : state.Balanced) :
    Balanced ⟨state.shared.countClose, state.calls⟩ where
  counter := by
    show state.shared.volume.openCounter - 1 = _
    rw [balanced.counter, openCounterOf_closed]
    congr 1
    show _ = ((state.shared.unclosed - 1 : Nat) : Int) -
      (if state.shared.unclosed = 0 then state.shared.stray + 1 else state.shared.stray : Nat)
    split <;> omega
  idle entry member detaching := by
    show state.shared.unclosed - 1 = 0
    rw [balanced.idle entry member detaching]
  cleared := balanced.cleared
  released := balanced.released
  sound := balanced.sound

theorem Balanced.clearSlot (balanced : state.Balanced) :
    Balanced ⟨state.shared.clearSlot, state.calls⟩ where
  counter := balanced.counter
  idle := balanced.idle
  cleared _ _ _ := rfl
  released released := ⟨rfl, (balanced.released released).2⟩
  sound := balanced.sound

theorem Balanced.release (balanced : state.Balanced)
    (here : (who, .detachRelease) ∈ state.calls.entries)
    (left : ∀ other ∈ state.calls.entries, other.2.holds = false) :
    Balanced ⟨state.shared.release, state.calls⟩ where
  counter := balanced.counter
  idle := balanced.idle
  cleared := balanced.cleared
  released _ := ⟨balanced.cleared _ here rfl, left⟩
  sound := by
    refine ⟨Bool.or_eq_false_iff.mpr ⟨balanced.sound.1, ?_⟩, balanced.sound.2⟩
    apply decide_eq_false
    rw [balanced.idle _ here rfl]
    exact Nat.lt_irrefl 0

/-- The counter reads zero when every open is closed, or the unclosed ones and the stray closes
cancel out. -/
theorem Balanced.empty_iff (balanced : state.Balanced) :
    isOpenCounterEmptyInVol state.shared.volume = true ↔
      state.shared.unclosed ≡ state.shared.stray [MOD 2 ^ 32] := by
  have zero : isOpenCounterEmptyInVol state.shared.volume = true ↔
      state.shared.volume.openCounter = 0 := decide_eq_true_iff
  rw [zero, balanced.counter, openCounterOf_eq_zero, Nat.ModEq]
  omega

/-- The slot has the volume only before its release. -/
theorem Balanced.not_released (balanced : state.Balanced) (inSlot : state.shared.inSlot = true) :
    state.shared.released = false := by
  apply Bool.eq_false_of_not_eq_true
  intro released
  rw [(balanced.released released).1] at inSlot
  cases inSlot

theorem Balanced.advance (balanced : state.Balanced) (here : (who, phase) ∈ state.calls.entries)
    (apart : state.KeptApart (.advance who)) :
    Balanced ⟨(phase.advance state.shared).1,
      state.calls.assign who (phase.advance state.shared).2⟩ := by
  have met := apart _ here rfl
  cases phase with
  | openRead =>
      rw [VolumePhase.advance]
      split
      · next inSlot =>
          exact balanced.next (fun _ => balanced.not_released inSlot) Bool.noConfusion nofun
      · exact balanced.leave
  | openTest =>
      obtain ⟨same, there⟩ := balanced.touch here rfl
      rw [VolumePhase.advance, same]
      split
      · exact balanced.next (fun _ => there) Bool.noConfusion nofun
      · exact balanced.next (fun _ => there) Bool.noConfusion nofun
  | openRefused =>
      obtain ⟨same, -⟩ := balanced.touch here rfl
      rw [VolumePhase.advance, same]
      exact balanced.leave
  | openIncrement =>
      obtain ⟨same, -⟩ := balanced.touch here rfl
      rw [VolumePhase.advance, same]
      exact (balanced.countOpen met).leave
  | closeRead =>
      rw [VolumePhase.advance]
      split
      · next inSlot =>
          exact balanced.next (fun _ => balanced.not_released inSlot) Bool.noConfusion nofun
      · exact balanced.leave
  | closeDecrement =>
      obtain ⟨same, -⟩ := balanced.touch here rfl
      rw [VolumePhase.advance, same]
      exact balanced.countClose.leave
  | detachFind =>
      rw [VolumePhase.advance]
      split
      · exact balanced.next Bool.noConfusion Bool.noConfusion nofun
      · exact balanced.leave
  | detachTest =>
      rw [VolumePhase.advance]
      split
      · next empty =>
          have closed := met.resolve_right (not_not.mpr (balanced.empty_iff.mp empty))
          exact balanced.next Bool.noConfusion (fun _ => closed) nofun
      · exact balanced.leave
  | detachSetDetaching =>
      exact (balanced.setState _).next Bool.noConfusion (fun _ => balanced.idle _ here rfl) nofun
  | detachClearAttached =>
      exact (balanced.setState _).next Bool.noConfusion (fun _ => balanced.idle _ here rfl) nofun
  | detachClearDetaching =>
      exact (balanced.setState _).next Bool.noConfusion (fun _ => balanced.idle _ here rfl) nofun
  | detachClearSlot =>
      exact balanced.clearSlot.next Bool.noConfusion (fun _ => balanced.idle _ here rfl)
        fun _ => rfl
  | detachRelease => exact (balanced.release here met).leave

end Advance

theorem Balanced.step (balanced : state.Balanced) (apart : state.KeptApart event)
    (run : state.step event = some after) : after.Balanced := by
  cases event with
  | openVolume who => exact balanced.enter rfl rfl run
  | closeVolume who => exact balanced.enter rfl rfl run
  | detachVolume who => exact balanced.enter rfl rfl run
  | advance who =>
      obtain ⟨phase, here, rfl⟩ := Option.map_eq_some_iff.mp run
      exact balanced.advance (OrderedMap.lookup_eq_some.mp here) apart

/-- Where the steps of a run are kept apart, an open volume is not released in it. -/
theorem openNotReleased_always {volumeID : BitVec 64} {minorIndex : Int} {events : List VolumeEvent}
    (guarded : Guarded KeptApart step (init volumeID minorIndex) events) :
    Always OpenNotReleased step (init volumeID minorIndex) events :=
  (always_of_preserved (fun _ _ _ balanced apart run => balanced.step apart run)
    (balanced_init volumeID minorIndex) guarded).imp fun _ balanced => balanced.sound

instance (state : VolumeState) (phase : VolumePhase) : Decidable (match phase with
    | .openIncrement => ∀ other ∈ state.calls.entries, other.2.detaching = false
    | .detachTest => state.shared.unclosed = 0 ∨
        ¬ state.shared.unclosed ≡ state.shared.stray [MOD 2 ^ 32]
    | .detachRelease => ∀ other ∈ state.calls.entries, other.2.holds = false
    | _ => True) := by
  cases phase <;> infer_instance

instance (state : VolumeState) : DecidablePred state.KeptApart
  | .openVolume _ => .isTrue trivial
  | .closeVolume _ => .isTrue trivial
  | .detachVolume _ => .isTrue trivial
  | .advance _ => inferInstanceAs (Decidable (∀ entry ∈ _, _ → _))

def openCloseDetach : List VolumeEvent :=
  .openVolume 0 :: List.replicate 3 (.advance 0) ++ .closeVolume 0 ::
    List.replicate 2 (.advance 0) ++ .detachVolume 0 :: List.replicate 7 (.advance 0)

theorem openNotReleased_openCloseDetach :
    Always OpenNotReleased step (init 5 1) openCloseDetach :=
  openNotReleased_always (by decide)

/-- An open tests the mark before a detach sets it, and counts itself behind the detach's test of
the counter. -/
def opensBehindTest : List VolumeEvent :=
  [.openVolume 0, .advance 0, .advance 0, .detachVolume 1, .advance 1, .advance 1, .advance 0] ++
    List.replicate 5 (.advance 1)

theorem released_while_open :
    ¬ ∀ events, Always OpenNotReleased step (init 5 1) events := by
  intro always
  have last := always opensBehindTest opensBehindTest [] _ (List.append_nil _).symm rfl
  cases last.1

end VolumeState

end DmsBlkdev
