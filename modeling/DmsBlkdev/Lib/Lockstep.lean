import Mathlib.Data.Option.Basic

/-!
# Computations in lockstep

Two computations are in step if they fail together, and otherwise come to
results that are related.
-/

namespace Lib.Lockstep

variable {First Second Third Fourth : Type*} {related : First → Second → Prop}
  {relatedAfter : Third → Fourth → Prop} {first : Option First} {second : Option Second}

theorem rel_bind {next : First → Option Third} {nextOther : Second → Option Fourth}
    (rel : Option.Rel related first second)
    (rest : ∀ one two, related one two → Option.Rel relatedAfter (next one) (nextOther two)) :
    Option.Rel relatedAfter (first.bind next) (second.bind nextOther) := by
  cases rel with
  | some here => exact rest _ _ here
  | none => exact .none

theorem rel_map {next : First → Third} {nextOther : Second → Fourth}
    (rel : Option.Rel related first second)
    (rest : ∀ one two, related one two → relatedAfter (next one) (nextOther two)) :
    Option.Rel relatedAfter (first.map next) (second.map nextOther) := by
  cases rel with
  | some here => exact .some (rest _ _ here)
  | none => exact .none

theorem rel_map_left {other : Third → Second → Prop} {next : First → Third}
    (rel : Option.Rel related first second)
    (rest : ∀ one two, related one two → other (next one) two) :
    Option.Rel other (first.map next) second := by
  cases rel with
  | some here => exact .some (rest _ _ here)
  | none => exact .none

theorem rel_imp {other : First → Second → Prop} (rel : Option.Rel related first second)
    (weaker : ∀ one two, related one two → other one two) : Option.Rel other first second := by
  cases rel with
  | some here => exact .some (weaker _ _ here)
  | none => exact .none

theorem rel_attach (rel : Option.Rel related first second) :
    Option.Rel (fun one two => related one two ∧ first = some one ∧ second = some two) first
      second := by
  cases rel with
  | some here => exact .some ⟨here, rfl, rfl⟩
  | none => exact .none

end Lib.Lockstep
