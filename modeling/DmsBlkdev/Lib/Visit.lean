import Mathlib.Data.List.Basic
import Mathlib.Data.List.Nodup

/-!
# Visiting a list while elements are removed

An iterator is asked for one element after the other while elements leave the
list.  What it answers, and what is removed meanwhile, is a history.  The
elements whose turn is still to come are a function of the history, and an
iterator that always answers with the first of them visits every element that
is still there exactly once and in order.
-/

namespace Lib.Visit

variable {Element : Type*}

inductive Answer (Element : Type*) where
  | returned (element : Option Element)
  | removed (element : Element)
  deriving DecidableEq, Repr

def returnedElements : List (Answer Element) → List Element
  | [] => []
  | .returned answer :: rest => answer.toList ++ returnedElements rest
  | .removed _ :: rest => returnedElements rest

section Returned

variable {early late history : List (Answer Element)} {element : Element}

theorem returnedElements_append :
    returnedElements (early ++ late) = returnedElements early ++ returnedElements late := by
  induction early with
  | nil => rfl
  | cons event rest inductionHypothesis =>
      cases event <;> simp [returnedElements, inductionHypothesis]

theorem mem_returnedElements :
    element ∈ returnedElements history ↔ .returned (some element) ∈ history := by
  induction history with
  | nil => simp [returnedElements]
  | cons event rest inductionHypothesis =>
      cases event with
      | returned answer => simp [returnedElements, inductionHypothesis, eq_comm]
      | removed other => simp [returnedElements, inductionHypothesis]

end Returned

section Turns

variable [DecidableEq Element]

def turns : List Element → List (Answer Element) → List Element
  | left, [] => left
  | left, .returned _ :: rest => turns left.tail rest
  | left, .removed element :: rest => turns (left.filter (· ≠ element)) rest

def Expected : List Element → List (Answer Element) → Prop
  | _, [] => True
  | left, .returned answer :: rest => answer = left.head? ∧ Expected left.tail rest
  | left, .removed element :: rest => Expected (left.filter (· ≠ element)) rest

/-- What the answers of an iterator come to that visits every remaining element once. -/
structure VisitsOnce (order : List Element) (history : List (Answer Element)) : Prop where
  inOrder : (returnedElements history).Sublist order
  neverRemoved : ∀ early late element, history = early ++ .returned (some element) :: late →
    .removed element ∉ early
  complete : ∀ early late answer, history = early ++ .returned answer :: late →
    ∀ element ∈ order.takeWhile fun element => some element ≠ answer,
      .returned (some element) ∈ early ∨ .removed element ∈ early
  ended : ∀ early late element, history = early ++ .returned none :: late →
    .returned (some element) ∉ late

variable {left order : List Element} {early late history : List (Answer Element)}
  {element first : Element} {answer : Option Element}

theorem turns_append : turns left (early ++ late) = turns (turns left early) late := by
  induction early generalizing left with
  | nil => rfl
  | cons event rest inductionHypothesis =>
      cases event <;> exact inductionHypothesis

theorem expected_append :
    Expected left (early ++ late) ↔ Expected left early ∧ Expected (turns left early) late := by
  induction early generalizing left with
  | nil => exact (and_iff_right trivial).symm
  | cons event rest inductionHypothesis =>
      cases event with
      | returned answer =>
          simp only [List.cons_append, Expected, turns, inductionHypothesis, and_assoc]
      | removed element => exact inductionHypothesis

theorem turns_sublist : (turns left history).Sublist left := by
  induction history generalizing left with
  | nil => exact List.Sublist.refl _
  | cons event rest inductionHypothesis =>
      cases event with
      | returned answer => exact inductionHypothesis.trans (List.tail_sublist left)
      | removed element => exact inductionHypothesis.trans List.filter_sublist

theorem removed_not_mem_turns (removed : .removed element ∈ history) :
    element ∉ turns left history := by
  induction history generalizing left with
  | nil => cases removed
  | cons event rest inductionHypothesis =>
      rcases List.mem_cons.mp removed with rfl | later
      · intro member
        have kept := List.mem_filter.mp (turns_sublist.subset member)
        exact of_decide_eq_true kept.2 rfl
      · cases event <;> exact inductionHypothesis later

/-- An element of the list has had its turn, has been removed, or is still to come. -/
theorem Expected.mem_turns (expected : Expected left history) (member : element ∈ left) :
    element ∈ turns left history ∨ .returned (some element) ∈ history ∨
      .removed element ∈ history := by
  induction history generalizing left with
  | nil => exact .inl member
  | cons event rest inductionHypothesis =>
      cases event with
      | returned answer =>
          obtain ⟨rfl, onward⟩ := expected
          cases left with
          | nil => cases member
          | cons head tail =>
              rcases List.mem_cons.mp member with rfl | inTail
              · exact .inr (.inl List.mem_cons_self)
              · have later := inductionHypothesis onward inTail
                simp only [List.mem_cons, turns, List.tail_cons]
                tauto
      | removed other =>
          by_cases same : element = other
          · rw [same]
            exact .inr (.inr List.mem_cons_self)
          · have later := inductionHypothesis expected
              (List.mem_filter.mpr ⟨member, decide_eq_true same⟩)
            simp only [List.mem_cons, turns]
            tauto

theorem Expected.sublist (expected : Expected left history) :
    (returnedElements history).Sublist left := by
  induction history generalizing left with
  | nil => exact List.nil_sublist left
  | cons event rest inductionHypothesis =>
      cases event with
      | returned answer =>
          obtain ⟨rfl, onward⟩ := expected
          cases left with
          | nil => exact inductionHypothesis onward
          | cons head tail => exact (inductionHypothesis onward).cons_cons head
      | removed other => exact (inductionHypothesis expected).trans List.filter_sublist

theorem not_mem_takeWhile {rest : List Element} (sublist : (first :: rest).Sublist order)
    (distinct : order.Nodup) (member : element ∈ rest) :
    element ∉ order.takeWhile fun other => some other ≠ some first := by
  induction order with
  | nil => cases sublist
  | cons head tail inductionHypothesis =>
      obtain ⟨apart, distinctTail⟩ := List.nodup_cons.mp distinct
      by_cases here : head = first
      · simp [here]
      · have inTail : (first :: rest).Sublist tail := by
          cases sublist with
          | cons _ inTail => exact inTail
          | cons_cons _ _ => exact absurd rfl here
        have behind : element ∈ tail := inTail.subset (List.mem_cons_of_mem _ member)
        have passes : (decide (some head ≠ some first)) = true := by simpa using here
        rw [List.takeWhile_cons, if_pos passes, List.mem_cons, not_or]
        exact ⟨fun same => apart (same ▸ behind), inductionHypothesis inTail distinctTail⟩

theorem Expected.visitsOnce (expected : Expected order history) (distinct : order.Nodup) :
    VisitsOnce order history where
  inOrder := expected.sublist
  neverRemoved := by
    rintro early late element rfl removed
    have answered := (expected_append.mp expected).2.1
    exact removed_not_mem_turns removed (List.mem_of_head? answered.symm)
  complete := by
    rintro early late answer rfl element member
    obtain ⟨before, answered, -⟩ := expected_append.mp expected
    have inOrder := List.takeWhile_subset _ member
    refine (before.mem_turns inOrder).resolve_left fun toCome => ?_
    have sublist : (turns order early).Sublist order := turns_sublist
    cases still : turns order early with
    | nil =>
        rw [still] at toCome
        cases toCome
    | cons first rest =>
        rw [still] at toCome sublist answered
        obtain rfl : answer = some first := answered
        have different : element ≠ first := by
          simpa using List.all_eq_true.mp List.all_takeWhile element member
        exact not_mem_takeWhile sublist distinct (List.mem_of_ne_of_mem different toCome) member
  ended := by
    rintro early late element rfl member
    obtain ⟨-, answered, onward⟩ := expected_append.mp expected
    have none : turns order early = [] := List.head?_eq_none_iff.mp answered.symm
    rw [none] at onward
    have returned := onward.sublist.subset (mem_returnedElements.mpr member)
    cases returned

theorem VisitsOnce.not_again (visits : VisitsOnce order (history ++ [.returned (some element)]))
    (distinct : order.Nodup) : .returned (some element) ∉ history := by
  intro already
  have once := distinct.sublist visits.inOrder
  rw [returnedElements_append, List.nodup_append] at once
  exact once.2.2 element (mem_returnedElements.mpr already) element (by simp [returnedElements]) rfl

end Turns

end Lib.Visit
