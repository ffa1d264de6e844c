import DmsBlkdev.Common
import Mathlib.Data.List.Pairwise
import Mathlib.Data.List.Perm.Basic
import Mathlib.Data.List.TakeWhile
import Mathlib.Order.Basic

/-!
# Logical block lists

A logical block list holds the blocks of one request in ascending order of
their ids: `Add_to_LogicalBlock_List_by_Insertion_Sort` keeps it sorted and
refuses duplicates, `__Move_Sub_List` cuts a prefix off, and
`Commit_LB_List_by_Range` removes the blocks of one committed range.
-/

namespace DmsBlkdev

/-- `struct LogicalBlock_MetaData`, with the address it was allocated at. -/
structure LBMD where
  addr : Nat
  LBID : Nat
  bio : Nat
  vecIdx : Nat
  deriving DecidableEq, Repr

/-- `struct LogicalBlock_List`. -/
structure LBList where
  addr : Nat
  blocks : List LBMD
  deriving DecidableEq, Repr

namespace LBList

def lbids (list : LBList) : List Nat := list.blocks.map LBMD.LBID

end LBList

section InsertionSort

/-- The walk from the tail of the list, on the reversed list; a duplicate id ends it without an
insertion. -/
def insertFromTail (lbmd : LBMD) : List LBMD → Option (List LBMD)
  | [] => some [lbmd]
  | cur :: rest =>
      if cur.LBID = lbmd.LBID then none
      else if cur.LBID < lbmd.LBID then some (lbmd :: cur :: rest)
      else (insertFromTail lbmd rest).map (cur :: ·)

/-- `Add_to_LogicalBlock_List_by_Insertion_Sort`; nothing when it fails. -/
def addToLogicalBlockListByInsertionSort (blocks : List LBMD) (lbmd : LBMD) :
    Option (List LBMD) :=
  (insertFromTail lbmd blocks.reverse).map List.reverse

def Ascending (blocks : List LBMD) : Prop := (blocks.map LBMD.LBID).Pairwise (· < ·)

instance (blocks : List LBMD) : Decidable (Ascending blocks) :=
  inferInstanceAs (Decidable (List.Pairwise _ _))

@[simp] theorem Ascending.nil : Ascending [] := List.Pairwise.nil

theorem insertFromTail_none {lbmd : LBMD} {blocks : List LBMD}
    (refused : insertFromTail lbmd blocks = none) : lbmd.LBID ∈ blocks.map LBMD.LBID := by
  induction blocks with
  | nil => simp [insertFromTail] at refused
  | cons cur rest inductionHypothesis =>
      rw [insertFromTail] at refused
      split at refused
      case isTrue equality => simp [equality]
      case isFalse =>
        split at refused
        case isTrue => simp at refused
        case isFalse =>
          have inRest := inductionHypothesis (Option.map_eq_none_iff.mp refused)
          simp only [List.map_cons, List.mem_cons]
          exact .inr inRest

theorem insertFromTail_perm {lbmd : LBMD} {blocks inserted : List LBMD}
    (done : insertFromTail lbmd blocks = some inserted) : inserted.Perm (lbmd :: blocks) := by
  induction blocks generalizing inserted with
  | nil =>
      cases done
      exact .refl _
  | cons cur rest inductionHypothesis =>
      rw [insertFromTail] at done
      split at done
      case isTrue => simp at done
      case isFalse =>
        split at done
        case isTrue =>
          cases done
          exact .refl _
        case isFalse =>
          obtain ⟨tail, inserted, rfl⟩ := Option.map_eq_some_iff.mp done
          exact ((inductionHypothesis inserted).cons cur).trans (.swap lbmd cur rest)

theorem insertFromTail_descending {lbmd : LBMD} {blocks inserted : List LBMD}
    (descending : (blocks.map LBMD.LBID).Pairwise (· > ·))
    (done : insertFromTail lbmd blocks = some inserted) :
    (inserted.map LBMD.LBID).Pairwise (· > ·) := by
  induction blocks generalizing inserted with
  | nil =>
      cases done
      simp
  | cons cur rest inductionHypothesis =>
      obtain ⟨below, restDescending⟩ := List.pairwise_cons.mp descending
      rw [insertFromTail] at done
      split at done
      case isTrue => simp at done
      case isFalse different =>
        split at done
        case isTrue less =>
          cases done
          simp only [List.map_cons, List.pairwise_cons]
          refine ⟨?_, below, restDescending⟩
          intro lbid member
          rcases List.mem_cons.mp member with equality | inRest
          · exact equality ▸ less
          · exact Nat.lt_trans (below lbid inRest) less
        case isFalse notLess =>
          obtain ⟨tail, inserted, rfl⟩ := Option.map_eq_some_iff.mp done
          simp only [List.map_cons, List.pairwise_cons]
          refine ⟨?_, inductionHypothesis restDescending inserted⟩
          intro lbid member
          have among := ((insertFromTail_perm inserted).map LBMD.LBID).mem_iff.mp member
          rcases List.mem_cons.mp among with equality | inRest
          · rw [equality]
            omega
          · exact below lbid inRest

theorem insertFromTail_append {lbmd : LBMD} {early : List LBMD} (rest : List LBMD)
    (above : ∀ cur ∈ early, lbmd.LBID < cur.LBID) :
    insertFromTail lbmd (early ++ rest) = (insertFromTail lbmd rest).map (early ++ ·) := by
  induction early with
  | nil => simp
  | cons cur early inductionHypothesis =>
      have higher := above cur List.mem_cons_self
      have later := inductionHypothesis fun other member =>
        above other (List.mem_cons_of_mem _ member)
      rw [List.cons_append, insertFromTail, if_neg (Nat.ne_of_gt higher),
        if_neg (Nat.lt_asymm higher), later, Option.map_map]
      rfl

theorem addByInsertionSort_above {blocks : List LBMD} {lbmd : LBMD}
    (above : ∀ cur ∈ blocks, lbmd.LBID < cur.LBID) :
    addToLogicalBlockListByInsertionSort blocks lbmd = some (lbmd :: blocks) := by
  have sorted := insertFromTail_append [] fun cur member => above cur (List.mem_reverse.mp member)
  rw [List.append_nil, insertFromTail, Option.map_some] at sorted
  rw [addToLogicalBlockListByInsertionSort, sorted, Option.map_some, List.reverse_concat,
    List.reverse_reverse]

theorem addByInsertionSort_behind {before behind : List LBMD} {cur lbmd : LBMD}
    (stops : cur.LBID = lbmd.LBID ∨ cur.LBID < lbmd.LBID)
    (above : ∀ other ∈ behind, lbmd.LBID < other.LBID) :
    addToLogicalBlockListByInsertionSort (before ++ [cur] ++ behind) lbmd =
      if cur.LBID = lbmd.LBID then none else some (before ++ [cur] ++ lbmd :: behind) := by
  have sorted := insertFromTail_append (cur :: before.reverse) fun other member =>
    above other (List.mem_reverse.mp member)
  have reversed : (before ++ [cur] ++ behind).reverse = behind.reverse ++ cur :: before.reverse := by
    simp
  rw [addToLogicalBlockListByInsertionSort, reversed, sorted, insertFromTail]
  by_cases duplicate : cur.LBID = lbmd.LBID
  · rw [if_pos duplicate, if_pos duplicate]
    rfl
  · rw [if_neg duplicate, if_neg duplicate, if_pos (stops.resolve_left duplicate)]
    simp

/-- A successful insertion keeps the order and adds the one block. -/
theorem addByInsertionSort_some {blocks inserted : List LBMD} {lbmd : LBMD}
    (ascending : Ascending blocks)
    (done : addToLogicalBlockListByInsertionSort blocks lbmd = some inserted) :
    Ascending inserted ∧ inserted.Perm (lbmd :: blocks) := by
  obtain ⟨reversed, walked, rfl⟩ := Option.map_eq_some_iff.mp done
  have descending : (blocks.reverse.map LBMD.LBID).Pairwise (· > ·) := by
    rw [List.map_reverse, List.pairwise_reverse]
    exact ascending
  constructor
  · have sorted := insertFromTail_descending descending walked
    rw [Ascending, List.map_reverse, List.pairwise_reverse]
    exact sorted
  · have perm := insertFromTail_perm walked
    exact (List.reverse_perm _).trans (perm.trans ((List.reverse_perm _).cons _))

/-- A refused insertion met a block of the same id. -/
theorem addByInsertionSort_none {blocks : List LBMD} {lbmd : LBMD}
    (refused : addToLogicalBlockListByInsertionSort blocks lbmd = none) :
    lbmd.LBID ∈ blocks.map LBMD.LBID := by
  have met := insertFromTail_none (Option.map_eq_none_iff.mp refused)
  simpa using met

end InsertionSort

section MoveSubList

/-- The walk of `__Move_Sub_List`: where the count of nodes passed meets the length, the list is
cut behind the node. -/
def moveSubListWalk (length : Int) : Nat → List LBMD → Option (List LBMD × List LBMD)
  | _, [] => none
  | count, cur :: rest =>
      if (count + 1 : Int) = length then some ([cur], rest)
      else (moveSubListWalk length (count + 1) rest).map fun cut => (cur :: cut.1, cut.2)

/-- `__Move_Sub_List`: the number of nodes passed, the moved list and the remaining list. -/
def moveSubList (orig : List LBMD) (length : Int) : Int × List LBMD × List LBMD :=
  match moveSubListWalk length 0 orig with
  | some (moved, rest) => (length, moved, rest)
  | none => (orig.length, [], orig)

theorem moveSubListWalk_eq (length count : Nat) (blocks : List LBMD) :
    moveSubListWalk (count + (length + 1) : Nat) count blocks =
      if length < blocks.length then some (blocks.take (length + 1), blocks.drop (length + 1))
      else none := by
  induction blocks generalizing length count with
  | nil => simp [moveSubListWalk]
  | cons cur rest inductionHypothesis =>
      rw [moveSubListWalk]
      cases length with
      | zero => simp
      | succ length =>
          have later : ¬ (count + 1 : Int) = (count + (length + 1 + 1) : Nat) := by omega
          have shifted : count + (length + 1 + 1) = count + 1 + (length + 1) := by omega
          rw [if_neg later, shifted, inductionHypothesis]
          simp only [List.length_cons, Nat.add_lt_add_iff_right]
          split <;> simp

theorem moveSubList_pos {orig : List LBMD} {length : Nat} (positive : 0 < length) :
    moveSubList orig length =
      if length ≤ orig.length then ((length : Int), orig.take length, orig.drop length)
      else ((orig.length : Int), [], orig) := by
  obtain ⟨length, rfl⟩ := Nat.exists_eq_add_one.mpr positive
  have walk := moveSubListWalk_eq length 0 orig
  rw [Nat.zero_add] at walk
  rw [moveSubList, walk]
  by_cases enough : length < orig.length
  · rw [if_pos enough, if_pos (Nat.succ_le_of_lt enough)]
  · rw [if_neg enough, if_neg (fun long => enough (Nat.lt_of_succ_le long))]

theorem moveSubList_zero (orig : List LBMD) :
    moveSubList orig 0 = ((orig.length : Int), [], orig) := by
  have walk : ∀ (count : Nat) (blocks : List LBMD), moveSubListWalk 0 count blocks = none := by
    intro count blocks
    induction blocks generalizing count with
    | nil => rfl
    | cons cur rest inductionHypothesis =>
        have positive : ¬ (count + 1 : Int) = 0 := by omega
        rw [moveSubListWalk, if_neg positive, inductionHypothesis, Option.map_none]
  rw [moveSubList, walk]

theorem moveSubList_append (orig : List LBMD) (length : Int) :
    (moveSubList orig length).2.1 ++ (moveSubList orig length).2.2 = orig := by
  have walk : ∀ (count : Nat) (blocks : List LBMD), ∀ cut ∈ moveSubListWalk length count blocks,
      cut.1 ++ cut.2 = blocks := by
    intro count blocks
    induction blocks generalizing count with
    | nil => simp [moveSubListWalk]
    | cons cur rest inductionHypothesis =>
        intro cut member
        rw [moveSubListWalk] at member
        split at member
        · cases member
          rfl
        · obtain ⟨later, found, rfl⟩ := Option.map_eq_some_iff.mp member
          exact congrArg (cur :: ·) (inductionHypothesis (count + 1) later found)
  rw [moveSubList]
  cases found : moveSubListWalk length 0 orig with
  | none => rfl
  | some cut => exact walk 0 orig cut found

end MoveSubList

section CommitRange

/-- The walk of `Commit_LB_List_by_Range` with its index `i`: the blocks that stay and the blocks
that are released.  The walk ends early only where `i` meets `nr_lbids`. -/
def commitWalk (slbid : Nat) (nrLBIDs : Int) : Nat → List LBMD → List LBMD × List LBMD
  | _, [] => ([], [])
  | i, cur :: rest =>
      if cur.LBID = (slbid + i) % 2 ^ 64 then
        if (i + 1 : Int) = nrLBIDs then (rest, [cur])
        else
          let later := commitWalk slbid nrLBIDs (i + 1) rest
          (later.1, cur :: later.2)
      else
        let later := commitWalk slbid nrLBIDs i rest
        (cur :: later.1, later.2)

/-- `Commit_LB_List_by_Range` on a list: what stays and what is released. -/
def commitLBListByRange (blocks : List LBMD) (slbid : Nat) (nrLBIDs : Int) :
    List LBMD × List LBMD :=
  commitWalk slbid nrLBIDs 0 blocks

theorem commitWalk_perm (slbid : Nat) (nrLBIDs : Int) (i : Nat) (blocks : List LBMD) :
    ((commitWalk slbid nrLBIDs i blocks).2 ++ (commitWalk slbid nrLBIDs i blocks).1).Perm
      blocks := by
  induction blocks generalizing i with
  | nil => exact .refl _
  | cons cur rest inductionHypothesis =>
      rw [commitWalk]
      split
      · split
        · exact .refl _
        · exact (inductionHypothesis (i + 1)).cons cur
      · exact List.perm_middle.trans ((inductionHypothesis i).cons cur)

/-- Every block is either released or stays. -/
theorem commitLBListByRange_perm (blocks : List LBMD) (slbid : Nat) (nrLBIDs : Int) :
    ((commitLBListByRange blocks slbid nrLBIDs).2 ++
      (commitLBListByRange blocks slbid nrLBIDs).1).Perm blocks :=
  commitWalk_perm slbid nrLBIDs 0 blocks

theorem commitWalk_sublist (slbid : Nat) (nrLBIDs : Int) (i : Nat) (blocks : List LBMD) :
    (commitWalk slbid nrLBIDs i blocks).1.Sublist blocks := by
  induction blocks generalizing i with
  | nil => exact .refl _
  | cons cur rest inductionHypothesis =>
      rw [commitWalk]
      split
      · split
        · exact List.sublist_cons_self cur rest
        · exact (inductionHypothesis (i + 1)).cons cur
      · exact (inductionHypothesis i).cons_cons cur

theorem commitLBListByRange_sublist (blocks : List LBMD) (slbid : Nat) (nrLBIDs : Int) :
    (commitLBListByRange blocks slbid nrLBIDs).1.Sublist blocks :=
  commitWalk_sublist slbid nrLBIDs 0 blocks

/-- On an ascending list that still holds the whole range, exactly the range is removed. -/
theorem commitWalk_kept {slbid nr : Nat} (small : slbid + nr ≤ 2 ^ 64) {i : Nat}
    (within : i < nr) {blocks : List LBMD} (ascending : Ascending blocks)
    (held : ∀ lbid, slbid + i ≤ lbid → lbid < slbid + nr → lbid ∈ blocks.map LBMD.LBID)
    (passed : ∀ cur ∈ blocks, cur.LBID < slbid ∨ slbid + i ≤ cur.LBID) :
    (commitWalk slbid nr i blocks).1 =
      blocks.filter fun cur => decide (cur.LBID < slbid ∨ slbid + nr ≤ cur.LBID) := by
  have noWrap : (slbid + i) % 2 ^ 64 = slbid + i := by
    apply Nat.mod_eq_of_lt
    omega
  induction blocks generalizing i with
  | nil =>
      have wanted := held (slbid + i) (Nat.le_refl _) (by omega)
      simp at wanted
  | cons cur rest inductionHypothesis =>
      obtain ⟨below, restAscending⟩ := List.pairwise_cons.mp ascending
      have later : ∀ block ∈ rest, cur.LBID < block.LBID :=
        fun block member => below _ (List.mem_map_of_mem member)
      rw [commitWalk, noWrap]
      by_cases here : cur.LBID = slbid + i
      · have dropped : decide (cur.LBID < slbid ∨ slbid + nr ≤ cur.LBID) = false :=
          decide_eq_false (by omega)
        rw [if_pos here, List.filter_cons_of_neg (by simp [dropped])]
        by_cases last : i + 1 = nr
        · rw [if_pos (by exact_mod_cast last)]
          symm
          apply List.filter_eq_self.mpr
          intro block member
          have beyond := later block member
          exact decide_eq_true (.inr (by omega))
        · rw [if_neg (by exact_mod_cast last)]
          apply inductionHypothesis (by omega) restAscending
          · intro lbid lower upper
            rcases List.mem_cons.mp (held lbid (by omega) upper) with head | inRest
            · omega
            · exact inRest
          · intro block member
            have beyond := later block member
            exact .inr (by omega)
          · exact Nat.mod_eq_of_lt (by omega)
      · have first : cur.LBID < slbid := by
          rcases List.mem_cons.mp (held (slbid + i) (Nat.le_refl _) (by omega)) with head | inRest
          · exact absurd head.symm here
          · have less := below _ inRest
            rcases passed cur List.mem_cons_self with before | notBefore
            · exact before
            · omega
        rw [if_neg here, List.filter_cons_of_pos (by simp [first])]
        refine congrArg (cur :: ·) (inductionHypothesis within restAscending ?_ ?_ noWrap)
        · intro lbid lower upper
          rcases List.mem_cons.mp (held lbid lower upper) with head | inRest
          · omega
          · exact inRest
        · exact fun block member => passed block (List.mem_cons_of_mem _ member)

theorem commitLBListByRange_kept {slbid nr : Nat} (small : slbid + nr ≤ 2 ^ 64)
    (nonempty : 0 < nr) {blocks : List LBMD} (ascending : Ascending blocks)
    (held : ∀ lbid, slbid ≤ lbid → lbid < slbid + nr → lbid ∈ blocks.map LBMD.LBID) :
    (commitLBListByRange blocks slbid nr).1 =
      blocks.filter fun cur => decide (cur.LBID < slbid ∨ slbid + nr ≤ cur.LBID) :=
  commitWalk_kept small nonempty ascending held fun _ _ => Nat.lt_or_ge _ _

end CommitRange

/-- `Get_LBMD_from_Node_by_LBID`; nothing comes of a walk from a block that has been released. -/
def getLBMDFromNodeByLBID (blocks : List LBMD) (cur : Option Nat) (lbid : Nat) :
    Option (Option LBMD) :=
  match cur with
  | none => some (blocks.find? fun lbmd => lbmd.LBID = lbid)
  | some addr =>
      match blocks.dropWhile fun lbmd => lbmd.addr ≠ addr with
      | [] => none
      | walk => some (walk.find? fun lbmd => lbmd.LBID = lbid)

/-- A walk from a block on the list ends at a block on the list, or nowhere. -/
theorem getLBMDFromNodeByLBID_some {blocks : List LBMD} {cur : Option Nat} {lbid : Nat}
    {found : Option LBMD} (walked : getLBMDFromNodeByLBID blocks cur lbid = some found) :
    ∀ addr ∈ (found.map LBMD.addr).toList, addr ∈ blocks.map LBMD.addr := by
  have within : ∀ lbmd, found = some lbmd → lbmd ∈ blocks := by
    rintro lbmd rfl
    unfold getLBMDFromNodeByLBID at walked
    split at walked
    · exact List.mem_of_find?_eq_some (Option.some.inj walked)
    · split at walked
      · cases walked
      · exact (List.dropWhile_sublist _).subset
          (List.mem_of_find?_eq_some (Option.some.inj walked))
  cases found with
  | none => simp
  | some lbmd => simpa using ⟨lbmd, within lbmd rfl, rfl⟩

theorem getLBMDFromNodeByLBID_of_mem {blocks : List LBMD} {cur : Option Nat} {lbid : Nat}
    (linked : ∀ addr ∈ cur.toList, addr ∈ blocks.map LBMD.addr) :
    ∃ found, getLBMDFromNodeByLBID blocks cur lbid = some found := by
  cases cur with
  | none => exact ⟨_, rfl⟩
  | some addr =>
      obtain ⟨lbmd, member, same⟩ := List.mem_map.mp (linked addr (by simp))
      rw [getLBMDFromNodeByLBID]
      cases walk : blocks.dropWhile fun lbmd => lbmd.addr ≠ addr with
      | nil =>
          have passed := List.dropWhile_eq_nil_iff.mp walk lbmd member
          exact absurd same (of_decide_eq_true passed)
      | cons first rest => exact ⟨_, rfl⟩

end DmsBlkdev
