import DmsBlkdev.LogicalBlock.Parts

/-!
# Searches on a block list

A block is looked for from the head of its list, or from a block that an
earlier search has reached.  On an ascending list the second search passes over
nothing that the first would find, as long as it starts at a block whose id is
not above the one it looks for.
-/

namespace DmsBlkdev

open Lib

/-- The cursor is NULL or a block of the list whose id is not above the one that is looked for. -/
def CursorUpTo (blocks : List LBMD) (cur : Option Nat) (lbid : Nat) : Prop :=
  ∀ addr ∈ cur, ∃ lbmd ∈ blocks, lbmd.addr = addr ∧ lbmd.LBID ≤ lbid

theorem find?_behind {before behind : List LBMD} {cur : LBMD} {lbid : Nat}
    (ascending : Ascending (before ++ cur :: behind)) (reached : cur.LBID ≤ lbid) :
    (before ++ cur :: behind).find? (fun lbmd => lbmd.LBID = lbid) =
      (cur :: behind).find? fun lbmd => lbmd.LBID = lbid := by
  have passed : before.find? (fun lbmd => decide (lbmd.LBID = lbid)) = none := by
    rw [List.find?_eq_none]
    intro lbmd member same
    rw [Ascending, List.map_append, List.map_cons] at ascending
    have below := (List.pairwise_append.mp ascending).2.2 lbmd.LBID (List.mem_map_of_mem member)
      cur.LBID List.mem_cons_self
    rw [of_decide_eq_true same] at below
    exact Nat.not_lt.mpr reached below
  rw [List.find?_append, passed, Option.none_or]

namespace LBHeap

/-- `Get_LogicalBlock_By_LBID`: the address of the block, or NULL. -/
def getLogicalBlockByLBID (heap : LBHeap) (head lbid : Nat) : Option (Option Nat) :=
  (heap.forEachEntry head fun tmp => tmp.LBID = lbid).map fun tmp =>
    if tmp = head then none else some tmp

/-- `Get_LBMD_from_Node_by_LBID`.  A cursor that is NULL goes back to the first entry, which is the
head itself when the list is empty. -/
def getLBMDFromNodeByLBID (heap : LBHeap) (head : Nat) (cur : Option Nat) (lbid : Nat) :
    Option (Option Nat) :=
  let cur := cur.getD (heap.links head).next
  (walkSafe heap.links head (fun node => (heap.lbmds node).map fun lbmd => lbmd.LBID = lbid)
    (heap.bound + 1) cur (heap.links cur).next).map fun ended =>
      if ended.1 = head then none else some ended.1

variable {heap : LBHeap} {head lbid : Nat} {blocks before behind : List LBMD} {cur : Option Nat}

namespace Holds

theorem ended (holds : heap.Holds head blocks) {found : Option LBMD}
    (among : ∀ lbmd ∈ found, lbmd ∈ blocks) :
    (if (found.map LBMD.addr).getD head = head then none
      else some ((found.map LBMD.addr).getD head)) = found.map LBMD.addr := by
  cases found with
  | none => exact if_pos rfl
  | some lbmd => exact if_neg (holds.ne_head (among lbmd rfl))

theorem getLogicalBlockByLBID (holds : heap.Holds head blocks) (lbid : Nat) :
    heap.getLogicalBlockByLBID head lbid =
      some ((blocks.find? fun lbmd => lbmd.LBID = lbid).map LBMD.addr) := by
  rw [LBHeap.getLogicalBlockByLBID, holds.forEachEntry, Option.map_some,
    holds.ended fun lbmd found => List.mem_of_find?_eq_some found]

theorem walkFrom (holds : heap.Holds head (before ++ behind)) (lbid : Nat) :
    (walkSafe heap.links head (fun node => (heap.lbmds node).map fun lbmd => lbmd.LBID = lbid)
      (heap.bound + 1) ((behind.map LBMD.addr).headD head)
      (heap.links ((behind.map LBMD.addr).headD head)).next).map (fun ended =>
        if ended.1 = head then none else some ended.1) =
      some ((behind.find? fun lbmd => lbmd.LBID = lbid).map LBMD.addr) := by
  have among : behind ⊆ before ++ behind := List.subset_append_right before behind
  have ring := holds.ring
  rw [List.map_append] at ring
  have checked : ∀ addr ∈ behind.map LBMD.addr,
      (heap.lbmds addr).map (fun lbmd => decide (lbmd.LBID = lbid)) =
        some ((heap.lbmds addr).any fun lbmd => decide (lbmd.LBID = lbid)) :=
    fun addr member => holds.checked _ addr (List.map_subset _ among member)
  have enough : (behind.map LBMD.addr).length < heap.bound + 1 := by
    have bounded := holds.bounded
    rw [List.length_append] at bounded
    rw [List.length_map]
    exact Nat.lt_succ_of_le (Nat.le_trans (Nat.le_add_left _ _) bounded)
  rw [ring.walkSafe checked enough, holds.find_addr _ among, Option.map_some,
    holds.ended fun lbmd found => among (List.mem_of_find?_eq_some found)]

/-- A search that gets through on the list of blocks gets through on the ring, to the same block. -/
theorem getLBMDFromNodeByLBID (holds : heap.Holds head blocks) {found : Option LBMD}
    (walked : DmsBlkdev.getLBMDFromNodeByLBID blocks cur lbid = some found) :
    heap.getLBMDFromNodeByLBID head cur lbid = some (found.map LBMD.addr) := by
  cases cur with
  | none =>
      have whole : heap.Holds head ([] ++ blocks) := holds
      rw [DmsBlkdev.getLBMDFromNodeByLBID, Option.some.injEq] at walked
      rw [LBHeap.getLBMDFromNodeByLBID, Option.getD_none, holds.ring.next_head, whole.walkFrom,
        walked]
  | some addr =>
      rw [DmsBlkdev.getLBMDFromNodeByLBID] at walked
      have apart := List.takeWhile_append_dropWhile (p := fun lbmd => decide (lbmd.addr ≠ addr))
        (l := blocks)
      cases rest : blocks.dropWhile fun lbmd => lbmd.addr ≠ addr with
      | nil =>
          rw [rest] at walked
          cases walked
      | cons lbmd behind =>
          simp only [rest, Option.some.injEq] at walked
          have stops := List.head_dropWhile_not (fun lbmd : LBMD => decide (lbmd.addr ≠ addr))
            (l := blocks) (by rw [rest]; exact List.cons_ne_nil _ _)
          simp only [rest, List.head_cons, decide_eq_false_iff_not, not_not] at stops
          rw [rest] at apart
          rw [← apart] at holds
          have through := holds.walkFrom lbid
          rw [List.map_cons, List.headD_cons, stops, walked] at through
          exact through

theorem getLBMDFromNodeByLBID_cursor (holds : heap.Holds head blocks)
    (ascending : Ascending blocks) (cursor : CursorUpTo blocks cur lbid) :
    DmsBlkdev.getLBMDFromNodeByLBID blocks cur lbid =
      some (blocks.find? fun lbmd => lbmd.LBID = lbid) := by
  cases cur with
  | none => rfl
  | some addr =>
      obtain ⟨lbmd, member, rfl, reached⟩ := cursor addr rfl
      obtain ⟨before, behind, rfl⟩ := List.append_of_mem member
      have others : ∀ other ∈ before, decide (other.addr ≠ lbmd.addr) = true := by
        intro other among
        exact decide_eq_true (holds.ne_middle other (List.mem_append_left behind among))
      rw [DmsBlkdev.getLBMDFromNodeByLBID, List.dropWhile_append_of_pos others,
        List.dropWhile_cons_of_neg (by simp), find?_behind ascending reached]

end Holds

/-- The search from a cursor ends at the block at which the search from the head ends, or both find
none. -/
theorem getLBMDFromNodeByLBID_agrees (holds : heap.Holds head blocks) (ascending : Ascending blocks)
    (cursor : CursorUpTo blocks cur lbid) :
    ∃ found, heap.getLBMDFromNodeByLBID head cur lbid = some found ∧
      heap.getLogicalBlockByLBID head lbid = some found := by
  have walked := holds.getLBMDFromNodeByLBID_cursor ascending cursor
  exact ⟨_, holds.getLBMDFromNodeByLBID walked, holds.getLogicalBlockByLBID lbid⟩

/-- From the block 5 on, the block 6 is found. -/
theorem getLBMDFromNodeByLBID_agrees_example :
    ∃ found, twoBlocksHeap.getLBMDFromNodeByLBID 0 (some 1) 6 = some found ∧
      twoBlocksHeap.getLogicalBlockByLBID 0 6 = some found := by
  refine getLBMDFromNodeByLBID_agrees twoBlocksHeap_holds (by decide) ?_
  rintro addr ⟨⟩
  exact ⟨⟨1, 5, 0, 0⟩, by decide, rfl, by decide⟩

end LBHeap

end DmsBlkdev
