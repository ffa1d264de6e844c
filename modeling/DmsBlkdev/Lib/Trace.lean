import Mathlib.Logic.Basic

/-!
# Machines that answer and may fail

`step` is what one event makes of a state, with the answer to it, or nothing
where the machine fails.  A specification says which answers it allows and
what they make of its own states.  Where every step that does not fail is
allowed, and leaves related states again, so is every list of events none of
which fails.
-/

namespace Lib.Trace

variable {State Other Event Answer : Type*}

/-- The answers to a list of events, and the state behind them. -/
def trace (step : State → Event → Option (Answer × State)) :
    State → List Event → Option (List Answer × State)
  | state, [] => some ([], state)
  | state, event :: rest =>
      (step state event).bind fun taken =>
        (trace step taken.2 rest).map fun ended => (taken.1 :: ended.1, ended.2)

def Safe (fails : State → Event → Prop) (step : State → Event → Option (Answer × State)) :
    State → List Event → Prop
  | _, [] => True
  | state, event :: rest =>
      ¬ fails state event ∧ ∀ taken, step state event = some taken → Safe fails step taken.2 rest

inductive Allowed (spec : Other → Event → Answer → Other → Prop) :
    Other → List Event → List Answer → Other → Prop where
  | nil (state : Other) : Allowed spec state [] [] state
  | cons {state next last : Other} {event : Event} {answer : Answer} {events : List Event}
      {answers : List Answer} (first : spec state event answer next)
      (rest : Allowed spec next events answers last) :
      Allowed spec state (event :: events) (answer :: answers) last

/-- Every step, unless a condition excludes it, is one that the specification allows. -/
structure Follows (step : State → Event → Option (Answer × State))
    (fails : State → Event → Prop) (spec : Other → Event → Answer → Other → Prop)
    (related : State → Other → Prop) : Prop where
  taken : ∀ state other event, related state other → ¬ fails state event →
    ∃ answer next otherNext, step state event = some (answer, next) ∧
      spec other event answer otherNext ∧ related next otherNext

/-- Every step either fails, on that condition, or is one that the specification allows. -/
structure Simulates (step : State → Event → Option (Answer × State))
    (fails : State → Event → Prop) (spec : Other → Event → Answer → Other → Prop)
    (related : State → Other → Prop) : Prop extends Follows step fails spec related where
  failing : ∀ state other event, related state other → fails state event →
    step state event = none

section Rules

variable {step : State → Event → Option (Answer × State)} {fails : State → Event → Prop}
  {spec : Other → Event → Answer → Other → Prop} {related : State → Other → Prop}

theorem safe_cons {state : State} {event : Event} {rest : List Event} {taken : Answer × State}
    (ran : step state event = some taken) :
    Safe fails step state (event :: rest) ↔ ¬ fails state event ∧ Safe fails step taken.2 rest := by
  simp [Safe, ran]

instance decidableSafe [∀ state, DecidablePred (fails state)] :
    ∀ (state : State) (events : List Event), Decidable (Safe fails step state events)
  | _, [] => .isTrue trivial
  | state, event :: rest =>
      match ran : step state event with
      | none => decidable_of_iff (¬ fails state event) (by simp [Safe, ran])
      | some taken =>
          have := decidableSafe taken.2 rest
          decidable_of_iff _ (safe_cons ran).symm

theorem Safe.mono {state : State} {events : List Event} (safe : Safe fails step state events)
    {others : State → Event → Prop} (fewer : ∀ state event, others state event → fails state event) :
    Safe others step state events := by
  induction events generalizing state with
  | nil => trivial
  | cons event rest inductionHypothesis =>
      exact ⟨fun other => safe.1 (fewer state event other), fun taken ran =>
        inductionHypothesis (safe.2 taken ran)⟩

/-- A condition on the events alone may be checked beforehand. -/
theorem Safe.or {state : State} {events : List Event} {excluded : Event → Prop}
    (safe : Safe fails step state events) (none : ∀ event ∈ events, ¬ excluded event) :
    Safe (fun state event => fails state event ∨ excluded event) step state events := by
  induction events generalizing state with
  | nil => trivial
  | cons event rest inductionHypothesis =>
      refine ⟨not_or.mpr ⟨safe.1, none event List.mem_cons_self⟩, fun taken ran => ?_⟩
      exact inductionHypothesis (safe.2 taken ran) fun later member =>
        none later (List.mem_cons_of_mem _ member)

theorem trace_invariant {property : State → Prop}
    (preserved : ∀ before event answer after, property before →
      step before event = some (answer, after) → property after)
    {first last : State} {events : List Event} {answers : List Answer} (base : property first)
    (ran : trace step first events = some (answers, last)) : property last := by
  induction events generalizing first answers with
  | nil =>
      cases ran
      exact base
  | cons event rest inductionHypothesis =>
      rw [trace] at ran
      obtain ⟨⟨answer, next⟩, stepped, ranRest⟩ := Option.bind_eq_some_iff.mp ran
      obtain ⟨⟨later, final⟩, ended, same⟩ := Option.map_eq_some_iff.mp ranRest
      cases same
      exact inductionHypothesis (preserved first event answer next base stepped) ended

theorem Allowed.length {first last : Other} {events : List Event} {answers : List Answer}
    (allowed : Allowed spec first events answers last) : answers.length = events.length := by
  induction allowed with
  | nil state => rfl
  | cons first rest inductionHypothesis => exact congrArg Nat.succ inductionHypothesis

/-- A list of events of which none fails has answers that the specification allows. -/
theorem Follows.trace (follows : Follows step fails spec related) {state : State}
    {other : Other} (start : related state other) {events : List Event}
    (safe : Safe fails step state events) :
    ∃ answers last otherLast, trace step state events = some (answers, last) ∧
      Allowed spec other events answers otherLast ∧ related last otherLast := by
  induction events generalizing state other with
  | nil => exact ⟨[], state, other, rfl, .nil other, start⟩
  | cons event rest inductionHypothesis =>
      obtain ⟨answer, next, otherNext, ran, allowed, still⟩ :=
        follows.taken state other event start safe.1
      obtain ⟨answers, last, otherLast, ended, allowedRest, final⟩ :=
        inductionHypothesis still (safe.2 _ ran)
      refine ⟨answer :: answers, last, otherLast, ?_, .cons allowed allowedRest, final⟩
      rw [Lib.Trace.trace, ran, Option.bind_some, ended]
      rfl

theorem Simulates.trace_isSome_iff (simulates : Simulates step fails spec related) {state : State}
    {other : Other} (start : related state other) (events : List Event) :
    (Lib.Trace.trace step state events).isSome ↔ Safe fails step state events := by
  induction events generalizing state other with
  | nil => exact iff_of_true rfl trivial
  | cons event rest inductionHypothesis =>
      rw [Lib.Trace.trace]
      by_cases failed : fails state event
      · rw [simulates.failing state other event start failed]
        exact iff_of_false Bool.false_ne_true fun safe => safe.1 failed
      · obtain ⟨answer, next, otherNext, ran, -, still⟩ :=
          simulates.taken state other event start failed
        rw [safe_cons ran, and_iff_right failed, ran, Option.bind_some, Option.isSome_map]
        exact inductionHypothesis still

theorem trace_append (step : State → Event → Option (Answer × State)) (state : State)
    (before after : List Event) :
    trace step state (before ++ after) = (trace step state before).bind fun ended =>
      (trace step ended.2 after).map fun rest => (ended.1 ++ rest.1, rest.2) := by
  induction before generalizing state with
  | nil => simp [trace]
  | cons event before inductionHypothesis =>
      simp only [List.cons_append, trace]
      cases ran : step state event with
      | none => rfl
      | some taken =>
          simp only [Option.bind_some, inductionHypothesis]
          cases trace step taken.2 before <;> simp [Function.comp_def]

/-- What holds of the states that are related holds behind every list of events that does not
fail. -/
theorem Simulates.of_trace (simulates : Simulates step fails spec related) {state last : State}
    {other : Other} (start : related state other) {events : List Event} {answers : List Answer}
    (ran : Lib.Trace.trace step state events = some (answers, last)) :
    ∃ otherLast, Allowed spec other events answers otherLast ∧ related last otherLast := by
  have safe := (simulates.trace_isSome_iff start events).mp (ran ▸ rfl)
  obtain ⟨_, _, otherLast, ran', allowed, final⟩ := simulates.trace start safe
  obtain ⟨rfl, rfl⟩ := Prod.mk.inj (Option.some.inj (ran.symm.trans ran'))
  exact ⟨otherLast, allowed, final⟩

/-- Where it fails, it has come to an event that does. -/
theorem Simulates.trace_eq_none_iff (simulates : Simulates step fails spec related) {state : State}
    {other : Other} (start : related state other) (events : List Event) :
    Lib.Trace.trace step state events = none ↔ ∃ before event after answers mid,
      events = before ++ event :: after ∧
        Lib.Trace.trace step state before = some (answers, mid) ∧ fails mid event := by
  constructor
  · intro stuck
    induction events generalizing state other with
    | nil => cases stuck
    | cons event rest inductionHypothesis =>
        by_cases failed : fails state event
        · exact ⟨[], event, rest, [], state, rfl, rfl, failed⟩
        · obtain ⟨answer, next, otherNext, ran, -, still⟩ :=
            simulates.taken state other event start failed
          rw [Lib.Trace.trace, ran, Option.bind_some, Option.map_eq_none_iff] at stuck
          obtain ⟨before, last, after, answers, mid, rfl, led, failing⟩ :=
            inductionHypothesis still stuck
          refine ⟨event :: before, last, after, answer :: answers, mid, rfl, ?_, failing⟩
          rw [Lib.Trace.trace, ran, Option.bind_some, led]
          rfl
  · rintro ⟨before, event, after, answers, mid, rfl, led, failing⟩
    obtain ⟨otherMid, -, still⟩ := simulates.of_trace start led
    rw [trace_append, led, Option.bind_some, Lib.Trace.trace,
      simulates.failing mid otherMid event still failing]
    rfl

end Rules

end Lib.Trace
