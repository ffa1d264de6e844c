import DmsBlkdev.DList.Ring
import DmsBlkdev.Lib.Visit

/-!
# Iterating over a list while user data is removed

After a reset the iterator is asked for one user data after the other, and
user data is removed in between.  The history since the reset records what was
returned and what was removed.  `Remove_from_DList_by_User_Data` looks at the
iterator once more behind its loop; when the loop has come to the head without
a match, an iterator on the head starts again.
-/

namespace DmsBlkdev

open Lib Lib.Run Lib.Visit

variable {Data : Type*} [DecidableEq Data]

namespace DListHeap.Stands

variable {heap : DListHeap Data} {passed ahead nodes : List (Nat × Data)}

theorem filter_absent {datas : List Data} {found : Option Data}
    (absent : ∀ data ∈ datas, some data ≠ found) : datas.filter (some · ≠ found) = datas :=
  List.filter_eq_self.mpr fun data member => decide_eq_true (absent data member)

theorem eraseP_userData {check : Data → Bool} {node : Nat × Data}
    (distinct : (nodes.map Prod.snd).Nodup)
    (located : (nodes.find? fun node => check node.2) = some node) :
    (nodes.eraseP fun node => check node.2).map Prod.snd =
      (nodes.map Prod.snd).filter (some · ≠ some node.2) := by
  obtain ⟨-, before, after, rfl, erased⟩ := DList.eraseP_of_find? located
  rw [erased, List.map_append, List.map_append, List.map_cons]
  rw [List.map_append, List.map_cons] at distinct
  obtain ⟨absent, -⟩ := List.nodup_cons.mp (List.nodup_middle.mp distinct)
  have others : ∀ data ∈ before.map Prod.snd ++ after.map Prod.snd,
      some data ≠ some node.2 := by
    intro data member same
    exact absent (Option.some.inj same ▸ member)
  rw [List.filter_append, List.filter_cons_of_neg (by simp), ← List.filter_append,
    filter_absent others]

theorem removed_userData (distinct : ((passed ++ ahead).map Prod.snd).Nodup)
    (check : Data → Bool) {found : Option Data}
    (is_found : ((passed ++ ahead).find? fun node => check node.2).map Prod.snd = found) :
    (passed.eraseP fun node => check node.2).map Prod.snd =
        (passed.map Prod.snd).filter (some · ≠ found) ∧
      (if passed.any fun node => check node.2 then ahead
          else ahead.eraseP fun node => check node.2).map Prod.snd =
        (ahead.map Prod.snd).filter (some · ≠ found) := by
  rw [List.map_append, List.nodup_append] at distinct
  obtain ⟨distinctPassed, distinctAhead, apart⟩ := distinct
  rw [List.find?_append] at is_found
  cases inPassed : passed.find? fun node => check node.2 with
  | some node =>
      obtain rfl : some node.2 = found := by simpa [inPassed] using is_found
      have here := List.mem_of_find?_eq_some inPassed
      have any : (passed.any fun node => check node.2) = true :=
        List.any_eq_true.mpr ⟨node, here, (DList.eraseP_of_find? inPassed).1⟩
      refine ⟨eraseP_userData distinctPassed inPassed, ?_⟩
      rw [if_pos any, filter_absent]
      intro data member same
      exact apart node.2 (List.mem_map_of_mem here) data member (Option.some.inj same).symm
  | none =>
      have absent := List.find?_eq_none.mp inPassed
      have any : ¬ (passed.any fun node => check node.2) = true := by
        simpa [List.any_eq_true] using absent
      rw [if_neg any, List.eraseP_of_forall_not absent]
      cases inAhead : ahead.find? fun node => check node.2 with
      | some node =>
          obtain rfl : some node.2 = found := by simpa [inPassed, inAhead] using is_found
          have there := List.mem_of_find?_eq_some inAhead
          refine ⟨(filter_absent fun data member same => ?_).symm,
            eraseP_userData distinctAhead inAhead⟩
          exact apart data member node.2 (List.mem_map_of_mem there) (Option.some.inj same)
      | none =>
          obtain rfl : none = found := by simpa [inPassed, inAhead] using is_found
          rw [List.eraseP_of_forall_not (List.find?_eq_none.mp inAhead)]
          exact ⟨(filter_absent fun _ _ => Option.some_ne_none _).symm,
            (filter_absent fun _ _ => Option.some_ne_none _).symm⟩

end DListHeap.Stands

/-- A list that is iterated over, with the user data in the order it had at the last reset and what
has been returned and removed since. -/
structure Iteration (Data : Type*) where
  heap : DListHeap Data
  order : List Data
  history : List (Answer Data)

inductive IterationEvent (Data : Type*) where
  | resetIterator
  | getNext
  | removeByUserData (data : Data)
  | removeByCheckFunc (check : Data → Bool)
  | removeHead

namespace Iteration

def afterReset (heap : DListHeap Data) (order : List Data) : Iteration Data :=
  ⟨heap.resetDListIterator, order, []⟩

def present (iteration : Iteration Data) : List Data :=
  iteration.order.filter fun data => .removed data ∉ iteration.history

def remove (iteration : Iteration Data) (result : Option Data × DListHeap Data) : Iteration Data :=
  { iteration with
    heap := result.2
    history := iteration.history ++ (result.1.map .removed).toList }

def step (iteration : Iteration Data) : IterationEvent Data → Option (Iteration Data)
  | .resetIterator => some (afterReset iteration.heap iteration.present)
  | .getNext => iteration.heap.getNextUserData.map fun result =>
      { iteration with
        heap := result.2
        history := iteration.history ++ [.returned result.1] }
  | .removeByUserData data => (iteration.heap.removeFromDListByUserData data).map iteration.remove
  | .removeByCheckFunc check =>
      (iteration.heap.removeFromDListByCheckFunc check).map iteration.remove
  | .removeHead => iteration.heap.removeFromDListHead.map iteration.remove

/-- What has been returned since the reset, and what would be returned now, visits every remaining
user data once. -/
def VisitsInTurn (iteration : Iteration Data) : Prop :=
  ∃ answer heap, iteration.heap.getNextUserData = some (answer, heap) ∧
    VisitsOnce iteration.order (iteration.history ++ [.returned answer])

/-- While the iterator is on the head of a list with user data, no user data that is not there is
removed by its pointer. -/
def RemovesPresent (iteration : Iteration Data) : IterationEvent Data → Prop
  | .removeByUserData data => iteration.heap.nextNode = iteration.heap.head →
      data ∈ iteration.present ∨ iteration.present = []
  | _ => True

instance (iteration : Iteration Data) : DecidablePred iteration.RemovesPresent
  | .removeByUserData data => inferInstanceAs (Decidable
      (iteration.heap.nextNode = iteration.heap.head →
        data ∈ iteration.present ∨ iteration.present = []))
  | .resetIterator | .getNext | .removeByCheckFunc _ | .removeHead => .isTrue trivial

structure InTurn (iteration : Iteration Data) : Prop where
  distinct : iteration.order.Nodup
  expected : Expected iteration.order iteration.history
  stands : ∃ passed ahead, iteration.heap.Stands passed ahead ∧
    ahead.map Prod.snd = turns iteration.order iteration.history ∧
    (passed ++ ahead).map Prod.snd = iteration.present ∧
    ∀ node ∈ passed, .returned (some node.2) ∈ iteration.history

variable {iteration : Iteration Data} {heap : DListHeap Data} {found : Option Data}
  {passed ahead : List (Nat × Data)}

theorem inTurn_afterReset (stands : heap.Stands passed ahead)
    (distinct : ((passed ++ ahead).map Prod.snd).Nodup) :
    (afterReset heap ((passed ++ ahead).map Prod.snd)).InTurn where
  distinct := distinct
  expected := trivial
  stands := by
    refine ⟨[], passed ++ ahead, stands.resetDListIterator, rfl, ?_, fun _ member => ?_⟩
    · exact (List.filter_eq_self.mpr fun _ _ => rfl).symm
    · exact absurd member List.not_mem_nil

theorem turns_removed (left : List Data) (history : List (Answer Data)) :
    turns left (history ++ (found.map .removed).toList) =
      (turns left history).filter (some · ≠ found) := by
  rw [turns_append]
  cases found with
  | none => exact (List.filter_eq_self.mpr fun _ _ => rfl).symm
  | some data => simp [turns]

theorem present_removed (iteration : Iteration Data) (heap : DListHeap Data) :
    (iteration.remove (found, heap)).present = iteration.present.filter (some · ≠ found) := by
  rw [present, present, List.filter_filter]
  apply List.filter_congr
  intro data _
  cases found <;> simp [remove, and_comm]

theorem expected_removed {left : List Data} {history : List (Answer Data)} :
    Expected left (history ++ (found.map .removed).toList) ↔ Expected left history := by
  rw [expected_append]
  cases found <;> exact and_iff_left trivial

theorem InTurn.getNext (inTurn : iteration.InTurn) :
    ∃ answer heap, iteration.heap.getNextUserData = some (answer, heap) ∧
      InTurn { iteration with
        heap, history := iteration.history ++ [.returned answer] } := by
  obtain ⟨passed, ahead, stands, toCome, present, returned⟩ := inTurn.stands
  have stillPresent (answer : Option Data) (heap : DListHeap Data) :
      Iteration.present { iteration with
        heap, history := iteration.history ++ [.returned answer] } = iteration.present := by
    simp [Iteration.present]
  cases ahead with
  | nil =>
      refine ⟨none, iteration.heap, stands.getNextUserData_head, inTurn.distinct, ?_, ?_⟩
      · refine expected_append.mpr ⟨inTurn.expected, ?_, trivial⟩
        rw [← toCome]
        rfl
      · refine ⟨passed, [], stands, ?_, ?_, fun node member => ?_⟩
        · rw [turns_append, ← toCome]
          rfl
        · rw [stillPresent]
          exact present
        · exact List.mem_append_left _ (returned node member)
  | cons node rest =>
      obtain ⟨heap, moved, stands'⟩ := stands.getNextUserData_node
      refine ⟨some node.2, heap, moved, inTurn.distinct, ?_, ?_⟩
      · refine expected_append.mpr ⟨inTurn.expected, ?_, trivial⟩
        rw [← toCome]
        rfl
      · refine ⟨passed ++ [node], rest, stands', ?_, ?_, fun other member => ?_⟩
        · rw [turns_append, ← toCome]
          rfl
        · rw [stillPresent, ← present, List.append_assoc]
          rfl
        · rcases List.mem_append.mp member with early | new
          · exact List.mem_append_left _ (returned other early)
          · rw [List.mem_singleton.mp new]
            exact List.mem_append_right _ List.mem_cons_self

theorem InTurn.visitsInTurn (inTurn : iteration.InTurn) : iteration.VisitsInTurn := by
  obtain ⟨answer, heap, moved, next⟩ := inTurn.getNext
  exact ⟨answer, heap, moved, next.expected.visitsOnce inTurn.distinct⟩

/-- What a removal by a check leaves in turn. -/
theorem InTurn.removed (inTurn : iteration.InTurn) (check : Data → Bool)
    (toCome : ahead.map Prod.snd = turns iteration.order iteration.history)
    (present : (passed ++ ahead).map Prod.snd = iteration.present)
    (returned : ∀ node ∈ passed, .returned (some node.2) ∈ iteration.history)
    (stands' : heap.Stands (passed.eraseP fun node => check node.2)
      (if passed.any fun node => check node.2 then ahead
        else ahead.eraseP fun node => check node.2)) :
    (iteration.remove
      (((passed ++ ahead).find? fun node => check node.2).map Prod.snd, heap)).InTurn := by
  have distinct : ((passed ++ ahead).map Prod.snd).Nodup := by
    rw [present]
    exact inTurn.distinct.filter _
  obtain ⟨behind, before⟩ :=
    DListHeap.Stands.removed_userData distinct check rfl
  refine ⟨inTurn.distinct, expected_removed.mpr inTurn.expected, ?_⟩
  refine ⟨_, _, stands', ?_, ?_, fun node member => ?_⟩
  · rw [before, toCome]
    exact (turns_removed _ _).symm
  · rw [List.map_append, behind, before, present_removed, ← present, List.map_append,
      List.filter_append]
  · exact List.mem_append_left _ (returned node (List.eraseP_subset member))

theorem InTurn.step {event : IterationEvent Data} (inTurn : iteration.InTurn)
    (met : iteration.RemovesPresent event) :
    ∃ after, iteration.step event = some after ∧ after.InTurn := by
  obtain ⟨passed, ahead, stands, toCome, present, returned⟩ := inTurn.stands
  cases event with
  | resetIterator =>
      refine ⟨_, rfl, ?_⟩
      rw [← present]
      refine inTurn_afterReset stands ?_
      rw [present]
      exact inTurn.distinct.filter _
  | getNext =>
      obtain ⟨answer, heap, moved, next⟩ := inTurn.getNext
      refine ⟨_, ?_, next⟩
      rw [Iteration.step, moved]
      rfl
  | removeByCheckFunc check =>
      obtain ⟨heap, removed, stands'⟩ := stands.removeFromDListByCheckFunc check
      refine ⟨_, ?_, inTurn.removed check toCome present returned stands'⟩
      rw [Iteration.step, removed]
      rfl
  | removeHead =>
      obtain ⟨heap, removed, stands'⟩ := stands.removeFromDListByCheckFunc fun _ => true
      refine ⟨_, ?_, inTurn.removed (fun _ => true) toCome present returned stands'⟩
      rw [Iteration.step, DListHeap.removeFromDListHead, removed]
      rfl
  | removeByUserData data =>
      obtain ⟨heap, removed, stands'⟩ := stands.removeFromDListByUserData data
      refine ⟨_, congrArg (Option.map iteration.remove) removed, ?_⟩
      refine inTurn.removed (· = data) toCome present returned ?_
      split at stands'
      · next atHead =>
          -- an iterator on the head starts again, on a list without user data
          obtain ⟨rfl, absent⟩ := atHead
          rw [List.append_nil] at present
          rcases met stands.iterator with here | none
          · rw [← present] at here
            obtain ⟨node, linked, rfl⟩ := List.mem_map.mp here
            exact absurd rfl (absent node linked)
          · obtain rfl := List.map_eq_nil_iff.mp (present.trans none)
            exact stands'
      · exact stands'

/-- The user data that was returned first comes a second time. -/
theorem InTurn.twice {event : IterationEvent Data} (inTurn : iteration.InTurn)
    (unmet : ¬ iteration.RemovesPresent event) :
    ∃ after, iteration.step event = some after ∧ ¬ after.VisitsInTurn := by
  obtain ⟨passed, ahead, stands, -, present, returned⟩ := inTurn.stands
  cases event with
  | removeByUserData data =>
      simp only [RemovesPresent, not_forall, not_or] at unmet
      obtain ⟨atHead, absent, some_present⟩ := unmet
      cases ahead with
      | cons node rest =>
          have apart := stands.ne_head (List.mem_append_right passed List.mem_cons_self)
          exact absurd (stands.iterator.symm.trans atHead) apart
      | nil =>
          obtain ⟨heap, removed, stands'⟩ := stands.removeFromDListByUserData data
          rw [List.append_nil] at present removed
          have missing : ∀ node ∈ passed, node.2 ≠ data := by
            rintro node linked rfl
            exact absent (present ▸ List.mem_map_of_mem linked)
          have none : (passed.find? fun node => node.2 = data) = none := by
            simpa [List.find?_eq_none] using missing
          rw [if_pos ⟨rfl, missing⟩] at stands'
          rw [none] at removed
          refine ⟨_, congrArg (Option.map iteration.remove) removed, ?_⟩
          rintro ⟨answer, heap', moved, visits⟩
          cases passed with
          | nil => exact some_present present.symm
          | cons first rest =>
              obtain ⟨next, again, -⟩ := stands'.getNextUserData_node
              obtain ⟨rfl, -⟩ := Prod.mk.inj (Option.some.inj (again.symm.trans moved))
              have already := returned first List.mem_cons_self
              exact visits.not_again inTurn.distinct (List.mem_append_left _ already)
  | _ => exact absurd trivial unmet

/-- Every remaining user data is visited once exactly when, while the iterator is on the head, no
absent user data is removed by its pointer. -/
theorem visitsInTurn_always_iff (stands : heap.Stands passed ahead)
    (distinct : ((passed ++ ahead).map Prod.snd).Nodup) (events : List (IterationEvent Data)) :
    Always VisitsInTurn step (afterReset heap ((passed ++ ahead).map Prod.snd)) events ↔
      Guarded RemovesPresent step (afterReset heap ((passed ++ ahead).map Prod.snd)) events := by
  refine always_iff_guarded_of_broken ?_ ?_ ?_ (inTurn_afterReset stands distinct)
  · intro before event after inTurn met taken
    obtain ⟨after', taken', inTurn'⟩ := inTurn.step met
    obtain rfl := Option.some.inj (taken'.symm.trans taken)
    exact inTurn'
  · exact fun before event inTurn unmet => inTurn.twice unmet
  · exact fun state inTurn => inTurn.visitsInTurn

def single : DListHeap Nat :=
  ((DListHeap.init 0 fun _ => ⟨0, 0⟩).createDLNode 1 7).addDLNode 1 .tail

theorem single_stands : single.Stands [(1, 7)] [] := by
  have created := (DListHeap.stands_init 0 fun _ => ⟨0, 0⟩).createDLNode 7 rfl Nat.one_ne_zero
  have linked := created.addDLNode_tail DListHeap.Stands.createDLNode_userData
  exact linked (by decide)

def three : DListHeap Nat :=
  (((single.createDLNode 2 8).addDLNode 2 .tail).createDLNode 3 9).addDLNode 3 .tail

theorem three_stands : three.Stands [(1, 7), (2, 8), (3, 9)] [] := by
  have created : (single.createDLNode 2 8).Stands [(1, 7)] [] :=
    single_stands.createDLNode 8 rfl (by decide)
  have second := created.addDLNode_tail DListHeap.Stands.createDLNode_userData (by decide)
  have created : (DListHeap.createDLNode _ 3 9).Stands [(1, 7), (2, 8)] [] :=
    second.createDLNode 9 rfl (by decide)
  exact created.addDLNode_tail DListHeap.Stands.createDLNode_userData (by decide)

/-- The user data that the iterator stands on is removed, and so is other user data before the
iteration is over; then it starts again. -/
theorem visitsInTurn_three :
    Always VisitsInTurn step (afterReset three [7, 8, 9])
      [.getNext, .removeByUserData 8, .removeByUserData 5, .getNext, .removeHead, .getNext,
        .resetIterator, .getNext, .removeByCheckFunc (· = 9), .getNext] :=
  (visitsInTurn_always_iff three_stands (by decide) _).mpr (by decide)

/-- The only user data has been returned, and comes again after a removal of other user data. -/
theorem returned_twice :
    ¬ ∀ (heap : DListHeap Nat) (passed ahead : List (Nat × Nat)), heap.Stands passed ahead →
      ((passed ++ ahead).map Prod.snd).Nodup → ∀ events,
        Always VisitsInTurn step (afterReset heap ((passed ++ ahead).map Prod.snd)) events := by
  intro always
  have visits := always single [(1, 7)] [] single_stands (List.nodup_singleton 7)
    [.getNext, .removeByUserData 8] _ [] _ (List.append_nil _).symm rfl
  obtain ⟨answer, heap, moved, visits⟩ := visits
  obtain rfl : some 7 = answer := congrArg Prod.fst (Option.some.inj moved)
  exact absurd visits.inOrder (by decide)

end Iteration

end DmsBlkdev
