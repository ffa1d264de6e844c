import Mathlib.Data.List.Basic
import Mathlib.Data.List.Nodup

/-!
# Lists with a shared iterator

A `DList` links nodes that point to user data.  Its iterator is part of the
list: it names the node that `Get_Next_User_Data` returns next, so removals
have to move it off the node they take out.
-/

namespace DmsBlkdev

/-- `struct DList`: the linked nodes in ring order, each with its address and its user data.
`nextNode` is the node the iterator stands on, or none for the head of the list. -/
structure DList (Data : Type*) where
  nodes : List (Nat × Data)
  nextNode : Option Nat
  fresh : Nat
  deriving DecidableEq, Repr

namespace DList

variable {Data : Type*}

/-- `__Init_DList`. -/
def init : DList Data := ⟨[], none, 0⟩

def userData (dlist : DList Data) : List Data := dlist.nodes.map Prod.snd

/-- The node behind the node at `addr`. -/
def successor (addr : Nat) : List (Nat × Data) → Option Nat
  | [] => none
  | node :: rest => if node.1 = addr then rest.head?.map Prod.fst else successor addr rest

/-- `Reset_DList_Iterator`. -/
def resetIterator (dlist : DList Data) : DList Data :=
  { dlist with nextNode := dlist.nodes.head?.map Prod.fst }

/-- `Get_Next_User_Data`; nothing comes of it when the iterator stands on a node that has been
released. -/
def getNextUserData (dlist : DList Data) : Option (Option Data × DList Data) :=
  match dlist.nextNode with
  | none => some (none, dlist)
  | some addr =>
      (dlist.nodes.find? fun node => node.1 = addr).map fun node =>
        (some node.2, { dlist with nextNode := successor addr dlist.nodes })

/-- `Insert_User_Data_to_DList_Tail`, once its node has been allocated. -/
def insertTail (dlist : DList Data) (data : Data) : DList Data :=
  { dlist with nodes := dlist.nodes ++ [(dlist.fresh, data)], fresh := dlist.fresh + 1 }

/-- `Remove_from_DList_by_Check_Func`. -/
def removeByCheckFunc (dlist : DList Data) (check : Data → Bool) : Option Data × DList Data :=
  match dlist.nodes.find? fun node => check node.2 with
  | none => (none, dlist)
  | some node =>
      (some node.2, { dlist with
        nodes := dlist.nodes.eraseP fun other => check other.2
        nextNode := if dlist.nextNode = some node.1 then successor node.1 dlist.nodes
          else dlist.nextNode })

def modifyUserData (dlist : DList Data) (change : Data → Data) : DList Data :=
  { dlist with nodes := dlist.nodes.map fun node => (node.1, change node.2) }

@[simp] theorem init_userData : (init : DList Data).userData = [] := rfl

@[simp] theorem insertTail_userData (dlist : DList Data) (data : Data) :
    (dlist.insertTail data).userData = dlist.userData ++ [data] := by
  simp [insertTail, userData]

@[simp] theorem resetIterator_userData (dlist : DList Data) :
    dlist.resetIterator.userData = dlist.userData := rfl

@[simp] theorem modifyUserData_userData (dlist : DList Data) (change : Data → Data) :
    (dlist.modifyUserData change).userData = dlist.userData.map change := by
  simp [modifyUserData, userData, Function.comp_def]

theorem getNextUserData_userData {dlist dlist' : DList Data} {data : Option Data}
    (moved : dlist.getNextUserData = some (data, dlist')) :
    dlist'.userData = dlist.userData := by
  unfold getNextUserData at moved
  split at moved
  · cases moved
    rfl
  · obtain ⟨node, -, result⟩ := Option.map_eq_some_iff.mp moved
    cases result
    rfl

theorem getNextUserData_mem {dlist dlist' : DList Data} {data : Data}
    (moved : dlist.getNextUserData = some (some data, dlist')) : data ∈ dlist.userData := by
  unfold getNextUserData at moved
  split at moved
  · cases moved
  · obtain ⟨node, located, result⟩ := Option.map_eq_some_iff.mp moved
    cases result
    exact List.mem_map_of_mem (List.mem_of_find?_eq_some located)

theorem removeByCheckFunc_atHead {dlist : DList Data} {check : Data → Bool}
    (atHead : dlist.nextNode = none) : (dlist.removeByCheckFunc check).2.nextNode = none := by
  unfold removeByCheckFunc
  split
  · exact atHead
  · simp [atHead]

theorem eraseP_of_find? {nodes : List (Nat × Data)} {check : Data → Bool} {node : Nat × Data}
    (located : (nodes.find? fun node => check node.2) = some node) :
    check node.2 = true ∧ ∃ before after, nodes = before ++ node :: after ∧
      (nodes.eraseP fun node => check node.2) = before ++ after := by
  obtain ⟨matches_, before, after, split, none⟩ := List.find?_eq_some_iff_append.mp located
  refine ⟨matches_, before, after, split, ?_⟩
  have passed : ∀ other ∈ before, ¬ (check other.2 = true) := by simpa using none
  simp [split, List.eraseP_append_right _ passed, matches_]

/-- A removal takes the first matching user data out and leaves the rest in order. -/
theorem removeByCheckFunc_some {dlist : DList Data} {check : Data → Bool} {data : Data}
    (found : (dlist.removeByCheckFunc check).1 = some data) :
    check data = true ∧ ∃ before after, dlist.userData = before ++ data :: after ∧
      (dlist.removeByCheckFunc check).2.userData = before ++ after := by
  unfold removeByCheckFunc at found ⊢
  split at found
  · cases found
  · next node located =>
      cases found
      obtain ⟨matches_, before, after, split, erased⟩ := eraseP_of_find? located
      refine ⟨matches_, before.map Prod.snd, after.map Prod.snd, ?_, ?_⟩
      · simp [userData, split]
      · simp [userData, erased]

section Linked

/-- Nodes have addresses of their own, and the iterator stands on one of them or on the head. -/
structure Linked (dlist : DList Data) : Prop where
  distinct : (dlist.nodes.map Prod.fst).Nodup
  below : ∀ addr ∈ dlist.nodes.map Prod.fst, addr < dlist.fresh
  iterator : ∀ addr, dlist.nextNode = some addr → addr ∈ dlist.nodes.map Prod.fst

theorem successor_mem {addr next : Nat} {nodes : List (Nat × Data)}
    (found : successor addr nodes = some next) : next ∈ nodes.map Prod.fst := by
  induction nodes with
  | nil => cases found
  | cons node rest inductionHypothesis =>
      rw [successor] at found
      split at found
      · obtain ⟨behind, head, rfl⟩ := Option.map_eq_some_iff.mp found
        exact List.mem_cons_of_mem _ (List.mem_map_of_mem (List.mem_of_head? head))
      · exact List.mem_cons_of_mem _ (inductionHypothesis found)

theorem successor_ne {addr next : Nat} {nodes : List (Nat × Data)}
    (distinct : (nodes.map Prod.fst).Nodup) (found : successor addr nodes = some next) :
    next ≠ addr := by
  induction nodes with
  | nil => cases found
  | cons node rest inductionHypothesis =>
      obtain ⟨apart, distinctRest⟩ := List.nodup_cons.mp distinct
      rw [successor] at found
      split at found
      · next here =>
          obtain ⟨behind, head, rfl⟩ := Option.map_eq_some_iff.mp found
          rintro rfl
          exact apart (here ▸ List.mem_map_of_mem (List.mem_of_head? head))
      · exact inductionHypothesis distinctRest found

variable {dlist : DList Data}

theorem linked_init : (init : DList Data).Linked := by
  constructor <;> simp [init]

theorem Linked.resetIterator (linked : dlist.Linked) : dlist.resetIterator.Linked where
  distinct := linked.distinct
  below := linked.below
  iterator addr stands := by
    obtain ⟨node, head, rfl⟩ := Option.map_eq_some_iff.mp stands
    exact List.mem_map_of_mem (List.mem_of_head? head)

theorem Linked.modifyUserData (linked : dlist.Linked) (change : Data → Data) :
    (dlist.modifyUserData change).Linked := by
  have same : (dlist.modifyUserData change).nodes.map Prod.fst = dlist.nodes.map Prod.fst := by
    simp [DList.modifyUserData, Function.comp_def]
  exact ⟨same ▸ linked.distinct, same ▸ linked.below, same ▸ linked.iterator⟩

theorem Linked.insertTail (linked : dlist.Linked) (data : Data) :
    (dlist.insertTail data).Linked := by
  have grown : (dlist.insertTail data).nodes.map Prod.fst =
      dlist.nodes.map Prod.fst ++ [dlist.fresh] := by
    simp [DList.insertTail]
  constructor
  · rw [grown, List.nodup_append]
    refine ⟨linked.distinct, List.nodup_singleton _, ?_⟩
    rintro addr member other inNew rfl
    rw [List.mem_singleton] at inNew
    exact absurd (linked.below addr member) (by omega)
  · intro addr member
    rw [grown] at member
    rcases List.mem_append.mp member with early | new
    · exact Nat.lt_succ_of_lt (linked.below addr early)
    · rw [List.mem_singleton.mp new]
      exact Nat.lt_succ_self _
  · intro addr stands
    rw [grown]
    exact List.mem_append_left _ (linked.iterator addr stands)

theorem Linked.removeByCheckFunc (linked : dlist.Linked) (check : Data → Bool) :
    (dlist.removeByCheckFunc check).2.Linked := by
  unfold DList.removeByCheckFunc
  split
  · exact linked
  · next node located =>
      obtain ⟨-, before, after, split, erased⟩ := eraseP_of_find? located
      have shorter : (before ++ after).Sublist dlist.nodes := by
        rw [split]
        exact (List.sublist_cons_self ..).append_left before
      have others : ∀ addr ∈ dlist.nodes.map Prod.fst, addr ≠ node.1 →
          addr ∈ (before ++ after).map Prod.fst := by
        intro addr member different
        rw [split] at member
        simp only [List.map_append, List.map_cons, List.mem_append, List.mem_cons] at member ⊢
        tauto
      dsimp only
      rw [erased]
      refine ⟨linked.distinct.sublist (shorter.map _), fun addr member =>
        linked.below addr ((shorter.map _).subset member), fun addr stands => ?_⟩
      dsimp only at stands ⊢
      split at stands
      · exact others addr (successor_mem stands) (successor_ne linked.distinct stands)
      · next elsewhere =>
          apply others addr (linked.iterator addr stands)
          rintro rfl
          exact elsewhere stands

/-- The iterator of a list never dangles. -/
theorem Linked.getNextUserData (linked : dlist.Linked) :
    ∃ data dlist', dlist.getNextUserData = some (data, dlist') ∧ dlist'.Linked := by
  cases stands : dlist.nextNode with
  | none => exact ⟨none, dlist, by simp [DList.getNextUserData, stands], linked⟩
  | some addr =>
      obtain ⟨node, member, here⟩ := List.mem_map.mp (linked.iterator addr stands)
      have located : (dlist.nodes.find? fun node => node.1 = addr).isSome := by
        rw [List.find?_isSome]
        exact ⟨node, member, by simpa using here⟩
      obtain ⟨found, located⟩ := Option.isSome_iff_exists.mp located
      refine ⟨some found.2, { dlist with nextNode := successor addr dlist.nodes }, ?_, ?_⟩
      · simp [DList.getNextUserData, stands, located]
      · exact ⟨linked.distinct, linked.below, fun next moved => successor_mem moved⟩

end Linked

section Ahead

/-- The user data from the node at `addr` on. -/
def userDataFrom (addr : Nat) : List (Nat × Data) → List Data
  | [] => []
  | node :: rest =>
      if node.1 = addr then node.2 :: rest.map Prod.snd else userDataFrom addr rest

def ahead (dlist : DList Data) : List Data :=
  match dlist.nextNode with
  | none => []
  | some addr => userDataFrom addr dlist.nodes

theorem userDataFrom_successor {addr : Nat} {nodes : List (Nat × Data)}
    (distinct : (nodes.map Prod.fst).Nodup) {node : Nat × Data}
    (located : (nodes.find? fun node => node.1 = addr) = some node) :
    userDataFrom addr nodes = node.2 ::
      ((successor addr nodes).map fun next => userDataFrom next nodes).getD [] := by
  induction nodes with
  | nil => cases located
  | cons first rest inductionHypothesis =>
      obtain ⟨apart, distinctRest⟩ := List.nodup_cons.mp distinct
      have elsewhere : ∀ next ∈ rest.map Prod.fst,
          userDataFrom next (first :: rest) = userDataFrom next rest := by
        intro next member
        have different : ¬ first.1 = next := fun same => apart (same ▸ member)
        rw [userDataFrom, if_neg different]
      by_cases here : first.1 = addr
      · obtain rfl : first = node := by simpa [here] using located
        cases rest with
        | nil => simp [userDataFrom, successor, here]
        | cons second rest =>
            have onward := elsewhere second.1 (by simp)
            simp only [userDataFrom, successor, here, if_true, List.head?_cons, Option.map_some,
              Option.getD_some, List.map_cons] at onward ⊢
            rw [onward]
      · have inRest : (rest.find? fun node => node.1 = addr) = some node := by
          simpa [here] using located
        rw [userDataFrom, successor, if_neg here, if_neg here, inductionHypothesis distinctRest inRest]
        cases found : successor addr rest with
        | none => rfl
        | some next =>
            simp only [Option.map_some, Option.getD_some, elsewhere next (successor_mem found)]

theorem userDataFrom_sublist {addr : Nat} {shorter nodes : List (Nat × Data)}
    (sublist : shorter.Sublist nodes) : userDataFrom addr shorter ⊆ userDataFrom addr nodes := by
  have all : ∀ nodes : List (Nat × Data), userDataFrom addr nodes ⊆ nodes.map Prod.snd := by
    intro nodes
    induction nodes with
    | nil => exact List.Subset.refl _
    | cons node rest inductionHypothesis =>
        rw [userDataFrom]
        split
        · exact List.Subset.refl _
        · exact List.subset_cons_of_subset _ inductionHypothesis
  induction sublist with
  | slnil => exact List.Subset.refl _
  | cons node sublist inductionHypothesis =>
      rw [userDataFrom]
      split
      · exact List.subset_cons_of_subset _
          (List.Subset.trans (all _) (sublist.map Prod.snd).subset)
      · exact inductionHypothesis
  | cons_cons node sublist inductionHypothesis =>
      rw [userDataFrom, userDataFrom]
      split
      · exact List.cons_subset_cons _ (sublist.map Prod.snd).subset
      · exact inductionHypothesis

theorem userDataFrom_append {addr : Nat} {nodes : List (Nat × Data)}
    (member : addr ∈ nodes.map Prod.fst) (node : Nat × Data) :
    userDataFrom addr (nodes ++ [node]) = userDataFrom addr nodes ++ [node.2] := by
  induction nodes with
  | nil => cases member
  | cons first rest inductionHypothesis =>
      rw [List.cons_append, userDataFrom, userDataFrom]
      split
      · simp
      · next elsewhere =>
          rcases List.mem_cons.mp member with here | inRest
          · exact absurd here.symm elsewhere
          · exact inductionHypothesis inRest

variable {dlist dlist' : DList Data}

theorem Linked.getNextUserData_ahead (linked : dlist.Linked) {data : Data}
    (moved : dlist.getNextUserData = some (some data, dlist')) :
    dlist.ahead = data :: dlist'.ahead := by
  unfold DList.getNextUserData at moved
  unfold ahead
  split at moved
  · cases moved
  · next addr stands =>
      obtain ⟨node, located, result⟩ := Option.map_eq_some_iff.mp moved
      cases result
      dsimp only
      rw [userDataFrom_successor linked.distinct located]
      cases successor addr dlist.nodes <;> rfl

theorem Linked.insertTail_ahead (linked : dlist.Linked) (data : Data) :
    (dlist.insertTail data).ahead =
      dlist.ahead ++ if dlist.nextNode = none then [] else [data] := by
  unfold ahead DList.insertTail
  cases stands : dlist.nextNode with
  | none => simp
  | some addr => simp [userDataFrom_append (linked.iterator addr stands)]

theorem Linked.removeByCheckFunc_ahead (linked : dlist.Linked) (check : Data → Bool) :
    (dlist.removeByCheckFunc check).2.ahead ⊆ dlist.ahead := by
  unfold DList.removeByCheckFunc
  split
  · exact List.Subset.refl _
  · next node located =>
      have shorter : (dlist.nodes.eraseP fun other => check other.2).Sublist dlist.nodes :=
        List.eraseP_sublist
      unfold ahead
      dsimp only
      split
      · exact List.nil_subset _
      · next next stands =>
          split at stands
          · next here =>
              rw [here]
              refine List.Subset.trans (userDataFrom_sublist shorter) ?_
              have found : (dlist.nodes.find? fun other => other.1 = node.1).isSome := by
                rw [List.find?_isSome]
                exact ⟨node, List.mem_of_find?_eq_some located, by simp⟩
              obtain ⟨first, found⟩ := Option.isSome_iff_exists.mp found
              dsimp only
              rw [userDataFrom_successor linked.distinct found, stands]
              exact List.subset_cons_self _ _
          · rw [stands]
            exact userDataFrom_sublist shorter

theorem modifyUserData_ahead (dlist : DList Data) (change : Data → Data) :
    (dlist.modifyUserData change).ahead = dlist.ahead.map change := by
  unfold ahead modifyUserData
  dsimp only
  split
  · rfl
  · next addr _ =>
      induction dlist.nodes with
      | nil => rfl
      | cons node rest inductionHypothesis =>
          simp only [List.map_cons, userDataFrom]
          split
          · simp
          · exact inductionHypothesis

end Ahead

end DList

end DmsBlkdev
