import Mathlib.Data.List.Basic
import Mathlib.Data.Option.Basic

/-!
# Runs of an event machine

`step` is what one event makes of a state, or nothing when the event cannot
happen there.  A run takes the events of a list one after the other.  An
invariant of a run follows from one step, where each step may rely on a
condition on the state before it.
-/

namespace Lib.Run

variable {State Event : Type*}

def run (step : State → Event → Option State) : State → List Event → Option State
  | state, [] => some state
  | state, event :: rest => (step state event).bind fun state => run step state rest

/-- Every event of the list meets the condition in the state that it is taken in. -/
def Guarded (condition : State → Event → Prop) (step : State → Event → Option State) :
    State → List Event → Prop
  | _, [] => True
  | state, event :: rest =>
      condition state event ∧ ∀ next, step state event = some next →
        Guarded condition step next rest

/-- The property holds in every state of the run. -/
def Always (property : State → Prop) (step : State → Event → Option State) (first : State)
    (events : List Event) : Prop :=
  ∀ earlier later state, events = earlier ++ later → run step first earlier = some state →
    property state

section Rules

variable {step : State → Event → Option State} {condition : State → Event → Prop}
  {property : State → Prop}

theorem run_append (state : State) (first second : List Event) :
    run step state (first ++ second) =
      (run step state first).bind fun between => run step between second := by
  induction first generalizing state with
  | nil => rfl
  | cons event rest inductionHypothesis =>
      simp only [List.cons_append, run, Option.bind_assoc, inductionHypothesis]

theorem run_append_some {first last : State} {earlier later : List Event}
    (ran : run step first (earlier ++ later) = some last) :
    ∃ between, run step first earlier = some between ∧ run step between later = some last := by
  rw [run_append] at ran
  exact Option.bind_eq_some_iff.mp ran

theorem Guarded.left {state : State} {first second : List Event}
    (guarded : Guarded condition step state (first ++ second)) :
    Guarded condition step state first := by
  induction first generalizing state with
  | nil => trivial
  | cons event rest inductionHypothesis =>
      exact ⟨guarded.1, fun next taken => inductionHypothesis (guarded.2 next taken)⟩

theorem Guarded.right {state between : State} {first second : List Event}
    (guarded : Guarded condition step state (first ++ second))
    (ran : run step state first = some between) : Guarded condition step between second := by
  induction first generalizing state with
  | nil => exact Option.some.inj ran ▸ guarded
  | cons event rest inductionHypothesis =>
      obtain ⟨next, taken, ranRest⟩ := Option.bind_eq_some_iff.mp ran
      exact inductionHypothesis (guarded.2 next taken) ranRest

theorem Guarded.and {other : State → Event → Prop} {state : State} {events : List Event}
    (guarded : Guarded condition step state events)
    (guardedOther : Guarded other step state events) :
    Guarded (fun state event => condition state event ∧ other state event) step state events := by
  induction events generalizing state with
  | nil => trivial
  | cons event rest inductionHypothesis =>
      refine ⟨⟨guarded.1, guardedOther.1⟩, fun next taken => ?_⟩
      exact inductionHypothesis (guarded.2 next taken) (guardedOther.2 next taken)

theorem guarded_cons {state next : State} {event : Event} {rest : List Event}
    (taken : step state event = some next) :
    Guarded condition step state (event :: rest) ↔
      condition state event ∧ Guarded condition step next rest := by
  simp [Guarded, taken]

theorem guarded_stuck {state : State} {event : Event} {rest : List Event}
    (stuck : step state event = none) :
    Guarded condition step state (event :: rest) ↔ condition state event := by
  simp [Guarded, stuck]

instance decidableGuarded [∀ state, DecidablePred (condition state)] :
    ∀ (state : State) (events : List Event), Decidable (Guarded condition step state events)
  | _, [] => .isTrue trivial
  | state, event :: rest =>
      match taken : step state event with
      | none => decidable_of_iff _ (guarded_stuck taken).symm
      | some next =>
          have := decidableGuarded next rest
          decidable_of_iff _ (guarded_cons taken).symm

theorem guarded_of_forall {condition : Event → Prop} {events : List Event}
    (all : ∀ event ∈ events, condition event) (state : State) :
    Guarded (fun _ event => condition event) step state events := by
  induction events generalizing state with
  | nil => trivial
  | cons event rest inductionHypothesis =>
      refine ⟨all event List.mem_cons_self, fun next _ => inductionHypothesis ?_ next⟩
      exact fun other member => all other (List.mem_cons_of_mem _ member)

theorem Always.imp {other : State → Prop} {first : State} {events : List Event}
    (always : Always property step first events) (implies : ∀ state, property state → other state) :
    Always other step first events :=
  fun earlier later state split ran => implies state (always earlier later state split ran)

theorem run_invariant
    (preserved : ∀ before event after, property before → condition before event →
      step before event = some after → property after)
    {first last : State} {events : List Event} (base : property first)
    (guarded : Guarded condition step first events) (ran : run step first events = some last) :
    property last := by
  induction events generalizing first with
  | nil => exact Option.some.inj ran ▸ base
  | cons event rest inductionHypothesis =>
      obtain ⟨next, taken, ranRest⟩ := Option.bind_eq_some_iff.mp ran
      have held := preserved first event next base guarded.1 taken
      exact inductionHypothesis held (guarded.2 next taken) ranRest

/-- A condition that the guarded steps meet where an invariant holds guards the run too. -/
theorem Guarded.of_invariant {other : State → Event → Prop} {first : State} {events : List Event}
    (guarded : Guarded condition step first events)
    (preserved : ∀ before event after, property before → condition before event →
      step before event = some after → property after)
    (implies : ∀ before event, property before → condition before event → other before event)
    (base : property first) : Guarded other step first events := by
  induction events generalizing first with
  | nil => trivial
  | cons event rest inductionHypothesis =>
      refine ⟨implies first event base guarded.1, fun next taken => ?_⟩
      exact inductionHypothesis (guarded.2 next taken)
        (preserved first event next base guarded.1 taken)

theorem guarded_run
    (preserved : ∀ before event, property before → condition before event →
      ∃ after, step before event = some after ∧ property after)
    {first : State} {events : List Event} (base : property first)
    (guarded : Guarded condition step first events) :
    ∃ last, run step first events = some last ∧ property last := by
  induction events generalizing first with
  | nil => exact ⟨first, rfl, base⟩
  | cons event rest inductionHypothesis =>
      obtain ⟨next, taken, held⟩ := preserved first event base guarded.1
      obtain ⟨last, ranRest, property⟩ := inductionHypothesis held (guarded.2 next taken)
      refine ⟨last, ?_, property⟩
      rw [run, taken, Option.bind_some]
      exact ranRest

theorem guarded_always
    (preserved : ∀ before event, property before → condition before event →
      ∃ after, step before event = some after ∧ property after)
    {first : State} {events : List Event} (base : property first)
    (guarded : Guarded condition step first events) :
    (∃ last, run step first events = some last) ∧ Always property step first events := by
  constructor
  · obtain ⟨last, ran, -⟩ := guarded_run preserved base guarded
    exact ⟨last, ran⟩
  · rintro earlier later state rfl ran
    obtain ⟨between, reached, held⟩ := guarded_run preserved base guarded.left
    obtain rfl := Option.some.inj (reached.symm.trans ran)
    exact held

/-- What every guarded step preserves holds all along a guarded run. -/
theorem always_of_preserved
    (preserved : ∀ before event after, property before → condition before event →
      step before event = some after → property after)
    {first : State} {events : List Event} (base : property first)
    (guarded : Guarded condition step first events) : Always property step first events := by
  intro earlier later state split ran
  subst split
  exact run_invariant preserved base guarded.left ran

/-- If a step keeps the property exactly when it meets the condition, a run does. -/
theorem run_iff_guarded {invariant : State → Prop}
    (kept : ∀ before event after, invariant before → step before event = some after →
      invariant after)
    (exact_step : ∀ before event after, invariant before → step before event = some after →
      (property after ↔ property before ∧ condition before event))
    {first last : State} {events : List Event} (base : invariant first)
    (ran : run step first events = some last) :
    property last ↔ property first ∧ Guarded condition step first events := by
  induction events generalizing first with
  | nil =>
      obtain rfl := Option.some.inj ran
      exact (and_iff_left trivial).symm
  | cons event rest inductionHypothesis =>
      obtain ⟨next, taken, ranRest⟩ := Option.bind_eq_some_iff.mp ran
      rw [inductionHypothesis (kept first event next base taken) ranRest,
        exact_step first event next base taken, guarded_cons taken, and_assoc]

theorem always_iff_guarded {invariant : State → Prop}
    (kept : ∀ before event after, invariant before → step before event = some after →
      invariant after)
    (exact_step : ∀ before event after, invariant before → step before event = some after →
      (property after ↔ property before ∧ condition before event))
    {first last : State} {events : List Event} (base : invariant first) (holds : property first)
    (ran : run step first events = some last) :
    Always property step first events ↔ Guarded condition step first events := by
  constructor
  · intro always
    have final := always events [] last (List.append_nil events).symm ran
    exact ((run_iff_guarded kept exact_step base ran).mp final).2
  · rintro guarded earlier later state rfl early
    exact (run_iff_guarded kept exact_step base early).mpr ⟨holds, guarded.left⟩

/-- If the property follows from an invariant that the guarded steps keep, and any other step leads
to a state without the property, it holds all along the run exactly when the run is guarded. -/
theorem always_iff_guarded_of_broken {invariant : State → Prop}
    (kept : ∀ before event after, invariant before → condition before event →
      step before event = some after → invariant after)
    (broken : ∀ before event, invariant before → ¬ condition before event →
      ∃ after, step before event = some after ∧ ¬ property after)
    (holds : ∀ state, invariant state → property state)
    {first : State} {events : List Event} (base : invariant first) :
    Always property step first events ↔ Guarded condition step first events := by
  constructor
  · intro always
    induction events generalizing first with
    | nil => trivial
    | cons event rest inductionHypothesis =>
        have met : condition first event := by
          apply not_not.mp
          intro unmet
          obtain ⟨after, taken, fails⟩ := broken first event base unmet
          refine fails (always [event] rest after rfl ?_)
          rw [run, taken]
          rfl
        refine ⟨met, fun next taken => inductionHypothesis (kept _ _ _ base met taken) ?_⟩
        intro earlier later state split ran
        refine always (event :: earlier) later state (congrArg (event :: ·) split) ?_
        rw [run, taken]
        exact ran
  · intro guarded
    exact (always_of_preserved kept base guarded).imp holds

end Rules

end Lib.Run
