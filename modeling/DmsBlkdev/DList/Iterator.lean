import DmsBlkdev.DList.Ring

/-!
# Whether the iterator of a list dangles

A list is initialised and its operations are called in any order.  All of them
keep the iterator on the head or on a linked node, except that
`Release_All_User_Data` releases every node and leaves the iterator where it
stands.
-/

namespace DmsBlkdev

open Lib Lib.Run

/-- A call of an operation.  An insertion names the address that the allocator hands out, and says
whether the build searches for duplicates. -/
inductive ListEvent (Data : Type*) where
  | insert (dlistDbg : Bool) (node : Nat) (data : Data) (headOrTail : DLAdd)
  | resetIterator
  | getNext
  | removeByUserData (data : Data)
  | removeByCheckFunc (check : Data → Bool)
  | removeHead
  | releaseAll (udRelease : Bool)

namespace DListHeap

variable {Data : Type*} [DecidableEq Data]

/-- Nothing comes of a call that reads a released node, or of an address in use. -/
def step (heap : DListHeap Data) : ListEvent Data → Option (DListHeap Data)
  | .insert dlistDbg node data headOrTail =>
      if (heap.userData node).isNone ∧ node ≠ heap.head then
        (heap.insertUserDataToDList dlistDbg node data headOrTail).map Prod.snd
      else none
  | .resetIterator => some heap.resetDListIterator
  | .getNext => heap.getNextUserData.map Prod.snd
  | .removeByUserData data => (heap.removeFromDListByUserData data).map Prod.snd
  | .removeByCheckFunc check => (heap.removeFromDListByCheckFunc check).map Prod.snd
  | .removeHead => heap.removeFromDListHead.map Prod.snd
  | .releaseAll udRelease => heap.releaseAllUserData udRelease

/-- The ring is in order in both directions, the iterator is on the head or on a linked node, and
the next user data can be read. -/
def IteratorLinked (heap : DListHeap Data) : Prop :=
  (∃ nodes, Ring heap.links heap.head nodes ∧
    (heap.nextNode = heap.head ∨ heap.nextNode ∈ nodes) ∧
    ∀ node ∈ nodes, (heap.userData node).isSome) ∧
  heap.getNextUserData.isSome

/-- The user data is released when the iterator is on the head. -/
def ReleasedFromHead (heap : DListHeap Data) : ListEvent Data → Prop
  | .releaseAll true => heap.nextNode = heap.head
  | _ => True

def InOrder (heap : DListHeap Data) : Prop := ∃ passed ahead, heap.Stands passed ahead

variable {heap after : DListHeap Data} {event : ListEvent Data}

omit [DecidableEq Data] in
theorem InOrder.iteratorLinked (inOrder : heap.InOrder) : heap.IteratorLinked := by
  obtain ⟨passed, ahead, stands⟩ := inOrder
  constructor
  · refine ⟨_, stands.ring, ?_, ?_⟩
    · rw [stands.iterator]
      cases ahead with
      | nil => exact .inl rfl
      | cons node rest =>
          refine .inr (List.mem_map_of_mem ?_)
          exact List.mem_append_right passed List.mem_cons_self
    · intro addr member
      obtain ⟨node, linked, rfl⟩ := List.mem_map.mp member
      rw [stands.userData node linked]
      rfl
  · obtain ⟨data, heap', -, -, moved, -⟩ := stands.getNextUserData
    rw [moved]
    rfl

def Allocates (heap : DListHeap Data) : ListEvent Data → Prop
  | .insert _ node _ _ => (heap.userData node).isNone ∧ node ≠ heap.head
  | _ => True

theorem allocates_of_step (taken : heap.step event = some after) : heap.Allocates event := by
  cases event with
  | insert dlistDbg node data headOrTail =>
      by_contra used
      have stuck : heap.step (.insert dlistDbg node data headOrTail) = none := if_neg used
      rw [stuck] at taken
      cases taken
  | _ => trivial

/-- Every operation gets through and leaves the list in order, if user data is not released from
under the iterator. -/
theorem InOrder.step (inOrder : heap.InOrder) (allocates : heap.Allocates event)
    (atHead : heap.ReleasedFromHead event) :
    ∃ after, heap.step event = some after ∧ after.InOrder := by
  obtain ⟨passed, ahead, stands⟩ := inOrder
  cases event with
  | insert dlistDbg node data headOrTail =>
      obtain ⟨free, apart⟩ := allocates
      have free' := Option.isNone_iff_eq_none.mp free
      obtain ⟨retcode, heap', inserted, inOrder⟩ :=
        stands.insertUserDataToDList dlistDbg free' apart data headOrTail
      refine ⟨heap', ?_, inOrder⟩
      rw [DListHeap.step, if_pos ⟨free, apart⟩, inserted]
      rfl
  | resetIterator => exact ⟨_, rfl, _, _, stands.resetDListIterator⟩
  | getNext =>
      obtain ⟨data, heap', passed', ahead', moved, stands'⟩ := stands.getNextUserData
      exact ⟨heap', congrArg (Option.map Prod.snd) moved, passed', ahead', stands'⟩
  | removeByUserData data =>
      obtain ⟨heap', removed, stands'⟩ := stands.removeFromDListByUserData data
      refine ⟨heap', congrArg (Option.map Prod.snd) removed, ?_⟩
      split at stands'
      · exact ⟨_, _, stands'⟩
      · exact ⟨_, _, stands'⟩
  | removeByCheckFunc check =>
      obtain ⟨heap', removed, stands'⟩ := stands.removeFromDListByCheckFunc check
      exact ⟨heap', congrArg (Option.map Prod.snd) removed, _, _, stands'⟩
  | removeHead =>
      obtain ⟨heap', removed, stands'⟩ := stands.removeFromDListHead
      exact ⟨heap', congrArg (Option.map Prod.snd) removed, _, _, stands'⟩
  | releaseAll udRelease =>
      cases udRelease with
      | false => exact ⟨heap, rfl, passed, ahead, stands⟩
      | true =>
          cases ahead with
          | nil =>
              obtain ⟨heap', released, stands'⟩ := stands.releaseAllUserData
              exact ⟨heap', released, [], [], stands'⟩
          | cons node rest =>
              have apart := stands.ne_head (List.mem_append_right passed List.mem_cons_self)
              exact absurd (stands.iterator.symm.trans atHead) apart

/-- A release from under the iterator leaves it on a released node. -/
theorem InOrder.dangling (inOrder : heap.InOrder) (elsewhere : ¬ heap.ReleasedFromHead event) :
    ∃ after, heap.step event = some after ∧ ¬ after.IteratorLinked := by
  obtain ⟨passed, ahead, stands⟩ := inOrder
  cases event with
  | releaseAll udRelease =>
      cases udRelease with
      | false => exact absurd trivial elsewhere
      | true =>
          cases ahead with
          | nil => exact absurd stands.iterator elsewhere
          | cons node rest =>
              obtain ⟨heap', released, dangling⟩ := stands.releaseAllUserData_dangling
              refine ⟨heap', released, fun linked => ?_⟩
              have readable := linked.2
              rw [dangling] at readable
              cases readable
  | _ => exact absurd trivial elsewhere

omit [DecidableEq Data] in
theorem inOrder_init (head : Nat) (links : Links Nat) : (init head links : DListHeap Data).InOrder :=
  ⟨[], [], stands_init head links⟩

theorem run_inOrder (head : Nat) (links : Links Nat) {events : List (ListEvent Data)}
    (allocated : Guarded Allocates step (init head links) events)
    (atHead : Guarded ReleasedFromHead step (init head links) events) :
    ∃ last, run step (init head links) events = some last ∧ last.InOrder :=
  guarded_run (fun _ _ inOrder met => inOrder.step met.1 met.2) (inOrder_init head links)
    (allocated.and atHead)

/-- The iterator never dangles exactly when user data is only ever released while the iterator is
on the head. -/
theorem iteratorLinked_always_iff (head : Nat) (links : Links Nat)
    (events : List (ListEvent Data)) :
    Always IteratorLinked step (init head links) events ↔
      Guarded ReleasedFromHead step (init head links) events := by
  refine always_iff_guarded_of_broken ?_ ?_ ?_ (inOrder_init head links)
  · intro before event after inOrder atHead taken
    obtain ⟨after', taken', inOrder'⟩ := inOrder.step (allocates_of_step taken) atHead
    obtain rfl := Option.some.inj (taken'.symm.trans taken)
    exact inOrder'
  · exact fun before event inOrder elsewhere => inOrder.dangling elsewhere
  · exact fun state inOrder => inOrder.iteratorLinked

/-- One node is linked, the iterator stands on it, and all user data is released. -/
theorem dangling_after_release :
    ¬ ∀ events : List (ListEvent Nat),
      Always IteratorLinked step (init 0 fun _ => ⟨0, 0⟩) events := by
  intro always
  have linked := always [.insert false 1 7 .tail, .resetIterator, .releaseAll true] _ [] _
    (List.append_nil _).symm rfl
  cases linked.2

end DListHeap

end DmsBlkdev
