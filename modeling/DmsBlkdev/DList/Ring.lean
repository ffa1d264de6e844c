import DmsBlkdev.Common
import DmsBlkdev.DList
import DmsBlkdev.Lib.Ring
import DmsBlkdev.Lib.Run
import Mathlib.Data.List.Find

/-!
# The pointers of a list

The nodes of a `DList` are a ring of `struct list_head`, with the head in the
list itself, and the iterator is a pointer into that ring.  The functions
below work on the pointers; a node is allocated as long as it has user data,
and reading a node that has been released makes a function fail.
-/

namespace DmsBlkdev

open Lib Lib.Run

/-- `struct DList` and its nodes.  The loops end within `bound` rounds: as many as nodes have been
linked so far, and one more for the head. -/
structure DListHeap (Data : Type*) where
  head : Nat
  links : Links Nat
  userData : Nat → Option Data
  nextNode : Nat
  bound : Nat

/-- `DL_ADD_HEAD` and `DL_ADD_TAIL`. -/
inductive DLAdd where
  | head
  | tail
  deriving DecidableEq, Repr

namespace DListHeap

variable {Data : Type*}

/-- `__Init_DList`. -/
def init (head : Nat) (links : Links Nat) : DListHeap Data :=
  { head, links := links.loop head, userData := fun _ => none,
    nextNode := (links.loop head head).next, bound := 0 }

/-- `Reset_DList_Iterator`. -/
def resetDListIterator (heap : DListHeap Data) : DListHeap Data :=
  { heap with nextNode := (heap.links heap.head).next }

/-- `Get_Next_User_Data`. -/
def getNextUserData (heap : DListHeap Data) : Option (Option Data × DListHeap Data) :=
  if heap.nextNode = heap.head then some (none, heap)
  else (heap.userData heap.nextNode).map fun data =>
    (some data, { heap with nextNode := (heap.links heap.nextNode).next })

/-- `__Create_DLNode`, when the allocator hands out that address. -/
def createDLNode (heap : DListHeap Data) (node : Nat) (data : Data) : DListHeap Data :=
  { heap with
    links := heap.links.loop node
    userData := Function.update heap.userData node (some data) }

/-- `__Release_DLNode`. -/
def releaseDLNode (heap : DListHeap Data) (node : Nat) : DListHeap Data :=
  { heap with userData := Function.update heap.userData node none }

/-- `__Remove_DLNode_from_DList`. -/
def removeDLNodeFromDList (heap : DListHeap Data) (node : Nat) : DListHeap Data :=
  { heap with links := (heap.links.unlink node).loop node }.releaseDLNode node

/-- `list_add` or `list_add_tail` of a new node. -/
def addDLNode (heap : DListHeap Data) (node : Nat) (headOrTail : DLAdd) : DListHeap Data :=
  { heap with
    links := match headOrTail with
      | .head => heap.links.insertBehind node heap.head
      | .tail => heap.links.insertBefore node heap.head
    bound := heap.bound + 1 }

/-- The removals move the iterator off the node that they take out. -/
def takeOut (heap : DListHeap Data) (cur next : Nat) : DListHeap Data :=
  { heap with nextNode := if heap.nextNode = cur then next else heap.nextNode
    }.removeDLNodeFromDList cur

/-- `list_for_each_entry_safe`, up to a node that passes the check. -/
def forEachEntrySafe (heap : DListHeap Data) (check : Data → Bool) : Option (Nat × Nat) :=
  let first := (heap.links heap.head).next
  walkSafe heap.links heap.head (fun node => (heap.userData node).map check) (heap.bound + 1) first
    (heap.links first).next

/-- `Remove_from_DList_by_Check_Func`. -/
def removeFromDListByCheckFunc (heap : DListHeap Data) (check : Data → Bool) :
    Option (Option Data × DListHeap Data) :=
  (heap.forEachEntrySafe check).map fun (cur, next) =>
    if cur = heap.head then (none, heap) else (heap.userData cur, heap.takeOut cur next)

/-- `Remove_from_DList_Head`. -/
def removeFromDListHead (heap : DListHeap Data) : Option (Option Data × DListHeap Data) :=
  heap.removeFromDListByCheckFunc fun _ => true

/-- `Release_All_User_Data`, which does nothing without a release function. -/
def releaseAllLoop : Nat → DListHeap Data → Nat → Nat → Option (DListHeap Data)
  | 0, _, _, _ => none
  | fuel + 1, heap, cur, next =>
      if cur = heap.head then some heap
      else (heap.userData cur).bind fun _ =>
        let heap := heap.removeDLNodeFromDList cur
        releaseAllLoop fuel heap next (heap.links next).next

def releaseAllUserData (heap : DListHeap Data) (udRelease : Bool) : Option (DListHeap Data) :=
  if udRelease then
    let first := (heap.links heap.head).next
    releaseAllLoop (heap.bound + 1) heap first (heap.links first).next
  else some heap

section Equality

variable [DecidableEq Data]

/-- `__Insert_User_Data_to_DList`: the return code and the list.  The search for a duplicate is
there in debug builds. -/
def insertUserDataToDList (heap : DListHeap Data) (dlistDbg : Bool) (node : Nat) (data : Data)
    (headOrTail : DLAdd) : Option (Int × DListHeap Data) :=
  let created := heap.createDLNode node data
  if dlistDbg then
    (walk created.links heap.head (fun other => (created.userData other).map (· = data))
      (heap.bound + 1) (created.links heap.head).next).map fun found =>
        if found = heap.head then (dmsOK, created.addDLNode node headOrTail)
        else (dmsFail, created.releaseDLNode node)
  else some (dmsOK, created.addDLNode node headOrTail)

/-- `Remove_from_DList_by_User_Data`, which looks at the iterator again behind its loop. -/
def removeFromDListByUserData (heap : DListHeap Data) (data : Data) :
    Option (Option Data × DListHeap Data) :=
  (heap.forEachEntrySafe (· = data)).map fun (cur, next) =>
    let (found, heap) :=
      if cur = heap.head then (none, heap) else (heap.userData cur, heap.takeOut cur next)
    (found, { heap with nextNode := if heap.nextNode = cur then next else heap.nextNode })

end Equality

/-- The ring of the list has these nodes, each with its user data. -/
structure Holds (heap : DListHeap Data) (nodes : List (Nat × Data)) : Prop where
  ring : Ring heap.links heap.head (nodes.map Prod.fst)
  userData : ∀ node ∈ nodes, heap.userData node.1 = some node.2

/-- The iterator has passed some nodes of the ring and stands on the first of those ahead of it,
or on the head. -/
structure Stands (heap : DListHeap Data) (passed ahead : List (Nat × Data)) : Prop
    extends Holds heap (passed ++ ahead) where
  iterator : heap.nextNode = (ahead.map Prod.fst).headD heap.head
  bounded : (passed ++ ahead).length ≤ heap.bound

variable {heap : DListHeap Data} {passed ahead early rest : List (Nat × Data)} {node : Nat × Data}

theorem stands_init (head : Nat) (links : Links Nat) :
    (init head links : DListHeap Data).Stands [] [] where
  ring := Ring.loop links head
  userData _ member := absurd member List.not_mem_nil
  iterator := Links.loop_next links head
  bounded := Nat.le_refl _

namespace Holds

variable {nodes before after : List (Nat × Data)}

theorem ne_head (holds : heap.Holds nodes) (member : node ∈ nodes) : node.1 ≠ heap.head := by
  intro same
  exact (List.nodup_cons.mp holds.ring.distinct).1 (same ▸ List.mem_map_of_mem member)

theorem next_eq_head_iff (holds : heap.Holds nodes) :
    (heap.links heap.head).next = heap.head ↔ nodes = [] := by
  rw [holds.ring.next_head]
  cases nodes with
  | nil => exact iff_of_true rfl rfl
  | cons node rest =>
      exact iff_of_false (holds.ne_head List.mem_cons_self) (List.cons_ne_nil _ _)

/-- The pointers determine the user data on the list. -/
theorem userData_unique {nodes' : List (Nat × Data)} (holds : heap.Holds nodes)
    (holds' : heap.Holds nodes') : nodes.map Prod.snd = nodes'.map Prod.snd := by
  have same := holds.ring.unique holds'.ring
  have read {nodes : List (Nat × Data)} (holds : heap.Holds nodes) :
      (nodes.map Prod.snd).map some = (nodes.map Prod.fst).map heap.userData := by
    rw [List.map_map, List.map_map]
    exact List.map_congr_left fun node linked => (holds.userData node linked).symm
  apply List.map_injective_iff.mpr (Option.some_injective Data)
  rw [read holds, read holds', same]

/-- A node leaves the ring, wherever the iterator stands then. -/
theorem remove (holds : heap.Holds (before ++ node :: after)) :
    (heap.removeDLNodeFromDList node.1).Holds (before ++ after) := by
  have ring := holds.ring
  have apart := holds.ne_head (List.mem_append_right before List.mem_cons_self)
  rw [List.map_append, List.map_cons] at ring
  have others : ∀ other ∈ before ++ after, other.1 ≠ node.1 := by
    intro other member same
    have distinct := List.nodup_middle.mp (List.nodup_cons.mp ring.distinct).2
    rw [← List.map_append] at distinct
    exact (List.nodup_cons.mp distinct).1 (same ▸ List.mem_map_of_mem member)
  constructor
  · rw [List.map_append]
    refine ring.unlink.congr fun other member => Links.loop_of_ne _ _ _ ?_
    rw [← List.map_append] at member
    rcases List.mem_cons.mp member with rfl | member
    · exact apart.symm
    · obtain ⟨entry, linked, rfl⟩ := List.mem_map.mp member
      exact others entry linked
  · intro other member
    have linked : other ∈ before ++ node :: after := by
      simp only [List.mem_append, List.mem_cons] at member ⊢
      tauto
    rw [← holds.userData other linked]
    exact Function.update_of_ne (others other member) _ _

/-- The loop of `Release_All_User_Data` takes out all nodes and never looks at the iterator. -/
theorem releaseAllLoop (holds : heap.Holds nodes) {fuel : Nat} (enough : nodes.length < fuel) :
    ∃ heap', releaseAllLoop fuel heap ((nodes.map Prod.fst).headD heap.head)
        (heap.links ((nodes.map Prod.fst).headD heap.head)).next = some heap' ∧
      heap'.Holds [] ∧ heap'.head = heap.head ∧ heap'.nextNode = heap.nextNode ∧
      (∀ addr, heap.userData addr = none → heap'.userData addr = none) ∧
      ∀ node ∈ nodes, heap'.userData node.1 = none := by
  induction nodes generalizing heap fuel with
  | nil =>
      obtain ⟨fuel, rfl⟩ := Nat.exists_eq_add_one.mpr enough
      refine ⟨heap, ?_, holds, rfl, rfl, fun _ free => free, fun _ member => ?_⟩
      · simp [DListHeap.releaseAllLoop]
      · exact absurd member List.not_mem_nil
  | cons node rest inductionHypothesis =>
      obtain ⟨fuel, rfl⟩ := Nat.exists_eq_add_one.mpr (Nat.zero_lt_of_lt enough)
      have apart := holds.ne_head List.mem_cons_self
      have live := holds.userData node List.mem_cons_self
      have split : heap.Holds ([] ++ node :: rest) := holds
      have removed := split.remove
      have next : (heap.links node.1).next = (rest.map Prod.fst).headD heap.head := by
        have ring : Ring heap.links heap.head ([] ++ node.1 :: rest.map Prod.fst) := holds.ring
        exact ring.next_node
      obtain ⟨heap', released, empty, sameHead, sameNext, stillFree, freed⟩ :=
        inductionHypothesis removed (Nat.lt_of_succ_lt_succ enough)
      have free : (heap.removeDLNodeFromDList node.1).userData node.1 = none :=
        Function.update_self ..
      refine ⟨heap', ?_, empty, sameHead, sameNext, fun addr already => ?_, fun other member => ?_⟩
      · rw [List.map_cons, List.headD_cons, DListHeap.releaseAllLoop, if_neg apart, live, next]
        exact released
      · apply stillFree
        by_cases same : addr = node.1
        · rw [same]
          exact free
        · exact (Function.update_of_ne same _ _).trans already
      · rcases List.mem_cons.mp member with rfl | later
        · exact stillFree _ free
        · exact freed other later

end Holds

namespace Stands

theorem resetDListIterator (stands : heap.Stands passed ahead) :
    heap.resetDListIterator.Stands [] (passed ++ ahead) where
  ring := stands.ring
  userData := stands.userData
  iterator := stands.ring.next_head
  bounded := stands.bounded

theorem getNextUserData_head (stands : heap.Stands passed []) :
    heap.getNextUserData = some (none, heap) := by
  have atHead : heap.nextNode = heap.head := stands.iterator
  rw [DListHeap.getNextUserData, if_pos atHead]

theorem getNextUserData_node (stands : heap.Stands passed (node :: rest)) :
    ∃ heap', heap.getNextUserData = some (some node.2, heap') ∧
      heap'.Stands (passed ++ [node]) rest := by
  have here : heap.nextNode = node.1 := stands.iterator
  have member : node ∈ passed ++ node :: rest := by simp
  have apart := stands.ne_head member
  refine ⟨{ heap with nextNode := (heap.links heap.nextNode).next }, ?_, ?_⟩
  · rw [DListHeap.getNextUserData, here, if_neg apart, stands.userData node member]
    rfl
  · have onward : passed ++ [node] ++ rest = passed ++ node :: rest := by simp
    have ring := stands.ring
    rw [List.map_append, List.map_cons] at ring
    refine ⟨?_, ?_, ?_⟩
    · rw [onward]
      exact ⟨stands.ring, stands.userData⟩
    · rw [here]
      exact ring.next_node
    · rw [onward]
      exact stands.bounded

theorem getNextUserData (stands : heap.Stands passed ahead) :
    ∃ data heap' passed' ahead', heap.getNextUserData = some (data, heap') ∧
      heap'.Stands passed' ahead' := by
  cases ahead with
  | nil => exact ⟨none, heap, passed, [], stands.getNextUserData_head, stands⟩
  | cons node rest =>
      obtain ⟨heap', moved, stands'⟩ := stands.getNextUserData_node
      exact ⟨some node.2, heap', passed ++ [node], rest, moved, stands'⟩

theorem ne_nextNode (stands : heap.Stands (early ++ node :: rest) ahead) :
    heap.nextNode ≠ node.1 := by
  have linked : node ∈ early ++ node :: rest ++ ahead := by simp
  have apart := stands.ne_head linked
  rw [stands.iterator]
  cases ahead with
  | nil => exact apart.symm
  | cons first later =>
      have distinct := (List.nodup_cons.mp stands.ring.distinct).2
      rw [List.map_append, List.nodup_append] at distinct
      refine (distinct.2.2 node.1 ?_ first.1 ?_).symm
      · exact List.mem_map_of_mem (by simp)
      · exact List.mem_map_of_mem List.mem_cons_self

theorem takeOut_passed (stands : heap.Stands (early ++ node :: rest) ahead) (next : Nat) :
    (heap.takeOut node.1 next).Stands (early ++ rest) ahead := by
  have holds : heap.Holds (early ++ node :: (rest ++ ahead)) := by simpa using stands.toHolds
  have removed := holds.remove
  rw [← List.append_assoc] at removed
  refine ⟨⟨removed.ring, removed.userData⟩, ?_, ?_⟩
  · have elsewhere := stands.ne_nextNode
    exact (if_neg elsewhere).trans stands.iterator
  · have bounded := stands.bounded
    simp only [List.length_append, List.length_cons] at bounded ⊢
    exact Nat.le_trans (by omega) bounded

theorem takeOut_ahead (stands : heap.Stands passed (early ++ node :: rest)) :
    (heap.takeOut node.1 (heap.links node.1).next).Stands passed (early ++ rest) := by
  have holds : heap.Holds (passed ++ early ++ node :: rest) := by simpa using stands.toHolds
  have removed := holds.remove
  rw [List.append_assoc] at removed
  refine ⟨⟨removed.ring, removed.userData⟩, ?_, ?_⟩
  · cases early with
    | nil =>
        have here : heap.nextNode = node.1 := stands.iterator
        have behind := stands.ring
        rw [List.nil_append, List.map_append, List.map_cons] at behind
        exact (if_pos here).trans behind.next_node
    | cons first early =>
        have here : heap.nextNode = first.1 := stands.iterator
        have distinct := (List.nodup_cons.mp stands.ring.distinct).2
        rw [List.map_append, List.nodup_append, List.cons_append, List.map_cons] at distinct
        have elsewhere : heap.nextNode ≠ node.1 := by
          intro same
          apply (List.nodup_cons.mp distinct.2.1).1
          rw [← here, same]
          exact List.mem_map_of_mem (by simp)
        exact (if_neg elsewhere).trans here
  · have bounded := stands.bounded
    simp only [List.length_append, List.length_cons] at bounded ⊢
    exact Nat.le_trans (by omega) bounded

theorem checked (stands : heap.Stands passed ahead) (check : Data → Bool) :
    ∀ addr ∈ (passed ++ ahead).map Prod.fst,
      (heap.userData addr).map check = some ((heap.userData addr).any check) := by
  intro addr member
  obtain ⟨node, linked, rfl⟩ := List.mem_map.mp member
  rw [stands.userData node linked]
  rfl

theorem enough (stands : heap.Stands passed ahead) :
    ((passed ++ ahead).map Prod.fst).length < heap.bound + 1 := by
  rw [List.length_map]
  exact Nat.lt_succ_of_le stands.bounded

theorem forEachEntry (stands : heap.Stands passed ahead) (check : Data → Bool) :
    ∃ found, walk heap.links heap.head (fun addr => (heap.userData addr).map check)
      (heap.bound + 1) (heap.links heap.head).next = some found := by
  have ring : Ring heap.links heap.head ([] ++ (passed ++ ahead).map Prod.fst) := stands.ring
  have walked := ring.walk (stands.checked check) stands.enough
  rw [← stands.ring.next_head] at walked
  exact ⟨_, walked⟩

theorem forEachEntry_absent (stands : heap.Stands passed ahead) {check : Data → Bool}
    (absent : ∀ node ∈ passed ++ ahead, ¬check node.2 = true) :
    walk heap.links heap.head (fun addr => (heap.userData addr).map check)
      (heap.bound + 1) (heap.links heap.head).next = some heap.head := by
  have ring : Ring heap.links heap.head ([] ++ (passed ++ ahead).map Prod.fst) := stands.ring
  have walked := ring.walk (stands.checked check) stands.enough
  have none : ((passed ++ ahead).map Prod.fst).find?
      (fun addr => (heap.userData addr).any check) = none := by
    refine List.find?_eq_none.mpr fun addr member passes => ?_
    obtain ⟨node, linked, rfl⟩ := List.mem_map.mp member
    rw [stands.userData node linked] at passes
    exact absent node linked passes
  rw [← stands.ring.next_head, none] at walked
  exact walked

theorem forEachEntrySafe (stands : heap.Stands passed ahead) (check : Data → Bool) :
    heap.forEachEntrySafe check =
      let cur := (((passed ++ ahead).find? fun node => check node.2).map Prod.fst).getD heap.head
      some (cur, (heap.links cur).next) := by
  have same : (passed ++ ahead).find? ((fun addr => (heap.userData addr).any check) ∘ Prod.fst) =
      (passed ++ ahead).find? fun node => check node.2 := by
    apply List.find?_congr
    intro node linked
    simp [stands.userData node linked]
  have ring : Ring heap.links heap.head ([] ++ (passed ++ ahead).map Prod.fst) := stands.ring
  have walked := ring.walkSafe (stands.checked check) stands.enough
  rw [← stands.ring.next_head, List.find?_map, same] at walked
  exact walked

theorem search (stands : heap.Stands passed ahead) (check : Data → Bool) :
    (∃ node next, heap.forEachEntrySafe check = some (node.1, next) ∧
      ((passed ++ ahead).find? fun node => check node.2) = some node ∧
      (heap.takeOut node.1 next).Stands (passed.eraseP fun node => check node.2)
        (if passed.any fun node => check node.2 then ahead
          else ahead.eraseP fun node => check node.2)) ∨
    heap.forEachEntrySafe check = some (heap.head, (heap.links heap.head).next) ∧
      ((passed ++ ahead).find? fun node => check node.2) = none ∧
      heap.Stands (passed.eraseP fun node => check node.2)
        (if passed.any fun node => check node.2 then ahead
          else ahead.eraseP fun node => check node.2) := by
  have walked := stands.forEachEntrySafe check
  cases located : (passed ++ ahead).find? fun node => check node.2 with
  | none =>
      rw [located] at walked
      have absent := List.find?_eq_none.mp located
      have inPassed (node) (member : node ∈ passed) := absent node (List.mem_append_left _ member)
      have inAhead (node) (member : node ∈ ahead) := absent node (List.mem_append_right _ member)
      refine .inr ⟨walked, rfl, ?_⟩
      rw [List.eraseP_of_forall_not inPassed, List.eraseP_of_forall_not inAhead, ite_self]
      exact stands
  | some node =>
      rw [located] at walked
      refine .inl ⟨node, (heap.links node.1).next, walked, rfl, ?_⟩
      rw [List.find?_append] at located
      cases inPassed : passed.find? fun node => check node.2 with
      | some first =>
          obtain rfl : first = node := by simpa [inPassed] using located
          obtain ⟨matching, before, after, split, erased⟩ := DList.eraseP_of_find? inPassed
          have any : (passed.any fun node => check node.2) = true := by
            rw [List.any_eq_true]
            exact ⟨first, List.mem_of_find?_eq_some inPassed, matching⟩
          rw [erased, if_pos any]
          subst split
          exact stands.takeOut_passed _
      | none =>
          have inAhead : (ahead.find? fun node => check node.2) = some node := by
            simpa [inPassed] using located
          obtain ⟨-, before, after, split, erased⟩ := DList.eraseP_of_find? inAhead
          have absent := List.find?_eq_none.mp inPassed
          have any : ¬ (passed.any fun node => check node.2) = true := by
            simpa [List.any_eq_true] using absent
          rw [List.eraseP_of_forall_not absent, if_neg any, erased]
          subst split
          exact stands.takeOut_ahead

/-- A removal takes the first matching node out, and the iterator stays in front of the same
remaining nodes. -/
theorem removeFromDListByCheckFunc (stands : heap.Stands passed ahead) (check : Data → Bool) :
    ∃ heap', heap.removeFromDListByCheckFunc check =
        some (((passed ++ ahead).find? fun node => check node.2).map Prod.snd, heap') ∧
      heap'.Stands (passed.eraseP fun node => check node.2)
        (if passed.any fun node => check node.2 then ahead
          else ahead.eraseP fun node => check node.2) := by
  rw [DListHeap.removeFromDListByCheckFunc]
  rcases stands.search check with ⟨node, next, walked, located, stands'⟩ | ⟨walked, absent, same⟩
  · have linked := List.mem_of_find?_eq_some located
    refine ⟨heap.takeOut node.1 next, ?_, stands'⟩
    rw [walked, located]
    simp [stands.ne_head linked, stands.userData node linked]
  · refine ⟨heap, ?_, same⟩
    rw [walked, absent]
    simp

theorem removeFromDListHead (stands : heap.Stands passed ahead) :
    ∃ heap', heap.removeFromDListHead = some ((passed ++ ahead).head?.map Prod.snd, heap') ∧
      heap'.Stands passed.tail (if passed = [] then ahead.tail else ahead) := by
  obtain ⟨heap', removed, stands'⟩ := stands.removeFromDListByCheckFunc fun _ => true
  refine ⟨heap', ?_, ?_⟩
  · rw [DListHeap.removeFromDListHead, removed]
    cases passed <;> cases ahead <;> rfl
  · cases passed <;> cases ahead <;> exact stands'

/-- A removal by user data does the same, except that an iterator on the head starts again when
the user data is not on the list. -/
theorem removeFromDListByUserData [DecidableEq Data] (stands : heap.Stands passed ahead)
    (data : Data) :
    ∃ heap', heap.removeFromDListByUserData data =
        some (((passed ++ ahead).find? fun node => node.2 = data).map Prod.snd, heap') ∧
      if ahead = [] ∧ ∀ node ∈ passed, node.2 ≠ data then heap'.Stands [] passed
      else heap'.Stands (passed.eraseP fun node => node.2 = data)
        (if passed.any fun node => node.2 = data then ahead
          else ahead.eraseP fun node => node.2 = data) := by
  rw [DListHeap.removeFromDListByUserData]
  rcases stands.search fun other => other = data with
    ⟨node, next, walked, located, stands'⟩ | ⟨walked, absent, same⟩
  · have linked := List.mem_of_find?_eq_some located
    -- the second look at the iterator finds it moved already
    have moved : (if (heap.takeOut node.1 next).nextNode = node.1 then next
        else (heap.takeOut node.1 next).nextNode) = (heap.takeOut node.1 next).nextNode := by
      have first : (heap.takeOut node.1 next).nextNode =
          if heap.nextNode = node.1 then next else heap.nextNode := rfl
      rw [first]
      by_cases here : heap.nextNode = node.1 <;> simp [here]
    refine ⟨heap.takeOut node.1 next, ?_, ?_⟩
    · rw [walked, located]
      simp [stands.ne_head linked, stands.userData node linked, moved]
    · have holds : node.2 = data := by simpa using List.find?_some located
      rw [if_neg]
      · exact stands'
      · rintro ⟨rfl, absent⟩
        rw [List.append_nil] at linked
        exact absent node linked holds
  · rw [walked, absent]
    cases ahead with
    | nil =>
        have atHead : heap.nextNode = heap.head := stands.iterator
        refine ⟨heap.resetDListIterator, ?_, ?_⟩
        · simp [atHead, DListHeap.resetDListIterator]
        · have missing : ∀ node ∈ passed, node.2 ≠ data := by
            simpa [List.find?_eq_none] using absent
          rw [if_pos ⟨rfl, missing⟩, ← List.append_nil passed]
          exact stands.resetDListIterator
    | cons first later =>
        have elsewhere : heap.nextNode ≠ heap.head := by
          rw [stands.iterator]
          exact stands.ne_head (List.mem_append_right passed List.mem_cons_self)
        refine ⟨heap, ?_, ?_⟩
        · simp [elsewhere]
        · rw [if_neg fun both => List.cons_ne_nil _ _ both.1]
          exact same

section Insert

variable {addr : Nat} {data : Data}

theorem unlinked (stands : heap.Stands passed ahead) (free : heap.userData addr = none)
    (apart : addr ≠ heap.head) : addr ∉ heap.head :: (passed ++ ahead).map Prod.fst := by
  intro member
  rcases List.mem_cons.mp member with same | member
  · exact apart same
  · obtain ⟨node, linked, rfl⟩ := List.mem_map.mp member
    rw [stands.userData node linked] at free
    cases free

theorem createDLNode (stands : heap.Stands passed ahead) (data : Data)
    (free : heap.userData addr = none) (apart : addr ≠ heap.head) :
    (heap.createDLNode addr data).Stands passed ahead := by
  have unlinked := stands.unlinked free apart
  have others {other : Nat} (member : other ∈ heap.head :: (passed ++ ahead).map Prod.fst) :
      other ≠ addr := fun same => unlinked (same ▸ member)
  refine ⟨⟨?_, ?_⟩, stands.iterator, stands.bounded⟩
  · exact stands.ring.congr fun other member => Links.loop_of_ne _ _ _ (others member)
  · intro node linked
    rw [← stands.userData node linked]
    exact Function.update_of_ne (others (List.mem_cons_of_mem _ (List.mem_map_of_mem linked))) _ _

theorem releaseDLNode (stands : heap.Stands passed ahead)
    (unlinked : addr ∉ heap.head :: (passed ++ ahead).map Prod.fst) :
    (heap.releaseDLNode addr).Stands passed ahead := by
  refine ⟨⟨stands.ring, fun node linked => ?_⟩, stands.iterator, stands.bounded⟩
  rw [← stands.userData node linked]
  refine Function.update_of_ne ?_ _ _
  rintro rfl
  exact unlinked (List.mem_cons_of_mem _ (List.mem_map_of_mem linked))

theorem createDLNode_userData : (heap.createDLNode addr data).userData addr = some data :=
  Function.update_self ..

theorem addDLNode_head (stands : heap.Stands passed ahead)
    (allocated : heap.userData addr = some data)
    (unlinked : addr ∉ heap.head :: (passed ++ ahead).map Prod.fst) :
    (heap.addDLNode addr .head).Stands ((addr, data) :: passed) ahead where
  ring := stands.ring.insertBehind_head unlinked
  userData := by
    intro node linked
    rcases List.mem_cons.mp linked with rfl | linked
    · exact allocated
    · exact stands.userData node linked
  iterator := stands.iterator
  bounded := Nat.succ_le_succ stands.bounded

/-- A node put at the tail comes ahead of the iterator, unless that is on the head. -/
theorem addDLNode_tail (stands : heap.Stands passed ahead)
    (allocated : heap.userData addr = some data)
    (unlinked : addr ∉ heap.head :: (passed ++ ahead).map Prod.fst) :
    (heap.addDLNode addr .tail).Stands (if ahead = [] then passed ++ [(addr, data)] else passed)
      (if ahead = [] then [] else ahead ++ [(addr, data)]) := by
  have ring := stands.ring.insertBefore_head unlinked
  have userData : ∀ node ∈ passed ++ ahead ++ [(addr, data)],
      heap.userData node.1 = some node.2 := by
    intro node linked
    rcases List.mem_append.mp linked with linked | new
    · exact stands.userData node linked
    · rw [List.mem_singleton.mp new]
      exact allocated
  have bounded : (passed ++ ahead ++ [(addr, data)]).length ≤ heap.bound + 1 := by
    rw [List.length_append]
    exact Nat.succ_le_succ stands.bounded
  cases ahead with
  | nil =>
      rw [if_pos rfl, if_pos rfl]
      simp only [List.append_nil] at ring userData bounded
      refine ⟨⟨?_, ?_⟩, stands.iterator, ?_⟩
      · rw [List.append_nil, List.map_append]
        exact ring
      · rwa [List.append_nil]
      · rwa [List.append_nil]
  | cons first later =>
      rw [if_neg (List.cons_ne_nil _ _), if_neg (List.cons_ne_nil _ _)]
      rw [List.append_assoc] at userData bounded
      refine ⟨⟨?_, userData⟩, stands.iterator, bounded⟩
      rw [← List.append_assoc, List.map_append]
      exact ring

theorem addDLNode (stands : heap.Stands passed ahead) (allocated : heap.userData addr = some data)
    (unlinked : addr ∉ heap.head :: (passed ++ ahead).map Prod.fst) (headOrTail : DLAdd) :
    ∃ passed' ahead', (heap.addDLNode addr headOrTail).Stands passed' ahead' :=
  match headOrTail with
  | .head => ⟨_, _, stands.addDLNode_head allocated unlinked⟩
  | .tail => ⟨_, _, stands.addDLNode_tail allocated unlinked⟩

theorem insertUserDataToDList [DecidableEq Data] (stands : heap.Stands passed ahead)
    (dlistDbg : Bool) (free : heap.userData addr = none) (apart : addr ≠ heap.head) (data : Data)
    (headOrTail : DLAdd) :
    ∃ retcode heap', heap.insertUserDataToDList dlistDbg addr data headOrTail =
      some (retcode, heap') ∧ ∃ passed' ahead', heap'.Stands passed' ahead' := by
  have unlinked := stands.unlinked free apart
  have created := stands.createDLNode data free apart
  have added := created.addDLNode createDLNode_userData unlinked headOrTail
  rw [DListHeap.insertUserDataToDList]
  cases dlistDbg with
  | false => exact ⟨dmsOK, _, rfl, added⟩
  | true =>
      obtain ⟨found, walked⟩ := created.forEachEntry (· = data)
      rw [if_pos rfl]
      by_cases atHead : found = heap.head
      · exact ⟨dmsOK, _, Option.map_eq_some_iff.mpr ⟨found, walked, if_pos atHead⟩, added⟩
      · have released := created.releaseDLNode unlinked
        exact ⟨dmsFail, _, Option.map_eq_some_iff.mpr ⟨found, walked, if_neg atHead⟩, _, _, released⟩

theorem insertUserDataToDList_tail [DecidableEq Data] (stands : heap.Stands passed ahead)
    (dlistDbg : Bool) (free : heap.userData addr = none) (apart : addr ≠ heap.head)
    (absent : data ∉ (passed ++ ahead).map Prod.snd) :
    ∃ heap', heap.insertUserDataToDList dlistDbg addr data .tail = some (dmsOK, heap') ∧
      ∃ passed' ahead', heap'.Stands passed' ahead' ∧
        passed' ++ ahead' = passed ++ ahead ++ [(addr, data)] := by
  have unlinked := stands.unlinked free apart
  have created := stands.createDLNode data free apart
  have added := created.addDLNode_tail createDLNode_userData unlinked
  have order : (if ahead = [] then passed ++ [(addr, data)] else passed) ++
      (if ahead = [] then [] else ahead ++ [(addr, data)]) = passed ++ ahead ++ [(addr, data)] := by
    cases ahead <;> simp
  refine ⟨_, ?_, _, _, added, order⟩
  rw [DListHeap.insertUserDataToDList]
  cases dlistDbg with
  | false => rfl
  | true =>
      rw [if_pos rfl, Option.map_eq_some_iff]
      refine ⟨heap.head, created.forEachEntry_absent fun node linked same => ?_, if_pos rfl⟩
      exact absent (of_decide_eq_true same ▸ List.mem_map_of_mem linked)

end Insert

theorem released (stands : heap.Stands passed ahead) :
    ∃ heap', heap.releaseAllUserData true = some heap' ∧ heap'.Holds [] ∧
      heap'.head = heap.head ∧ heap'.nextNode = heap.nextNode ∧
      ∀ node ∈ passed ++ ahead, heap'.userData node.1 = none := by
  obtain ⟨heap', released, empty, sameHead, sameNext, -, freed⟩ :=
    stands.toHolds.releaseAllLoop (Nat.lt_succ_of_le stands.bounded)
  refine ⟨heap', ?_, empty, sameHead, sameNext, freed⟩
  rw [← stands.ring.next_head] at released
  exact released

theorem releaseAllUserData (stands : heap.Stands passed []) :
    ∃ heap', heap.releaseAllUserData true = some heap' ∧ heap'.Stands [] [] := by
  obtain ⟨heap', released, empty, sameHead, sameNext, -⟩ := stands.released
  refine ⟨heap', released, ⟨empty.ring, empty.userData⟩, ?_, Nat.zero_le _⟩
  rw [sameNext, sameHead]
  exact stands.iterator

/-- An iterator ahead of which there are nodes is left on one that has been released. -/
theorem releaseAllUserData_dangling (stands : heap.Stands passed (node :: rest)) :
    ∃ heap', heap.releaseAllUserData true = some heap' ∧ heap'.getNextUserData = none := by
  obtain ⟨heap', released, -, sameHead, sameNext, freed⟩ := stands.released
  refine ⟨heap', released, ?_⟩
  have linked : node ∈ passed ++ node :: rest := by simp
  have here : heap'.nextNode = node.1 := sameNext.trans stands.iterator
  have apart := stands.ne_head linked
  rw [← sameHead] at apart
  rw [DListHeap.getNextUserData, here, if_neg apart, freed node linked]
  rfl

end Stands

end DListHeap

end DmsBlkdev
