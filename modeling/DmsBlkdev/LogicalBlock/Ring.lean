import DmsBlkdev.LogicalBlock
import DmsBlkdev.Lib.Ring
import Mathlib.Data.List.Find

/-!
# The pointers of logical block lists

The blocks of an LB list are a ring of `struct list_head` with the head in the
list itself.  The functions below work on the pointers.  Reading a block that
has been released makes a function fail; what a function comes to on a ring is
what the functions on lists of blocks compute.
-/

namespace DmsBlkdev

open Lib

/-- The LB lists, by the address of their heads, and the blocks that are allocated.  `poison` is what
`list_del` leaves in a node.  Loops end within `bound` rounds: as many as blocks have been linked so
far, and one more for the head. -/
structure LBHeap where
  heads : List Nat
  links : Links Nat
  lbmds : Nat → Option LBMD
  poison : Link Nat
  bound : Nat

namespace LBHeap

/-- `Create_LogicalBlock_List`, when the allocator hands out that address. -/
def createLogicalBlockList (heap : LBHeap) (head : Nat) : LBHeap :=
  { heap with heads := head :: heap.heads, links := heap.links.loop head }

/-- `Create_LogicalBlock_MetaData`, with the fields that its caller sets. -/
def createLogicalBlockMetaData (heap : LBHeap) (lbmd : LBMD) : LBHeap :=
  { heap with
    links := heap.links.loop lbmd.addr
    lbmds := Function.update heap.lbmds lbmd.addr (some lbmd) }

/-- `Release_LogicalBlock_MetaData`. -/
def releaseLogicalBlockMetaData (heap : LBHeap) (addr : Nat) : LBHeap :=
  { heap with lbmds := Function.update heap.lbmds addr none }

/-- `list_del`. -/
def listDel (heap : LBHeap) (node : Nat) : LBHeap :=
  { heap with links := Function.update (heap.links.unlink node) node heap.poison }

/-- `list_empty`. -/
def listEmpty (heap : LBHeap) (head : Nat) : Bool := (heap.links head).next = head

/-- `list_for_each_entry`, up to a block that passes the check. -/
def forEachEntry (heap : LBHeap) (head : Nat) (check : LBMD → Bool) : Option Nat :=
  walk heap.links head (fun node => (heap.lbmds node).map check) (heap.bound + 1)
    (heap.links head).next

/-- `list_for_each_prev`, up to a block that passes the check. -/
def forEachPrev (heap : LBHeap) (head : Nat) (check : LBMD → Bool) : Option Nat :=
  walk heap.links.mirror head (fun node => (heap.lbmds node).map check) (heap.bound + 1)
    (heap.links head).prev

/-- `Add_to_LogicalBlock_List_by_Insertion_Sort`: the return code and the lists. -/
def addToLogicalBlockListByInsertionSort (heap : LBHeap) (head addr : Nat) :
    Option (Int × LBHeap) :=
  (heap.lbmds addr).bind fun lbmd =>
    (heap.forEachPrev head fun cur =>
      decide (cur.LBID = lbmd.LBID) || decide (cur.LBID < lbmd.LBID)).map fun pos =>
        if pos ≠ head ∧ (heap.lbmds pos).any (·.LBID = lbmd.LBID) then (dmsFail, heap)
        else (dmsOK, { heap with
          links := heap.links.insertBehind addr pos
          bound := heap.bound + 1 })

/-- The first block that passes the check is unlinked: its address, and whether the list is empty
then. -/
def removeFromLogicalBlockList (heap : LBHeap) (head : Nat) (check : LBMD → Bool) :
    Option (Option (Nat × Bool) × LBHeap) :=
  (heap.forEachEntry head check).map fun tmp =>
    if tmp = head then (none, heap)
    else (some (tmp, (heap.listDel tmp).listEmpty head), heap.listDel tmp)

/-- `Remove_from_LogicalBlock_List_by_LBMD`. -/
def removeFromLogicalBlockListByLBMD (heap : LBHeap) (head addr : Nat) :
    Option (Option (Nat × Bool) × LBHeap) :=
  heap.removeFromLogicalBlockList head fun tmp => tmp.addr = addr

/-- `Remove_from_LogicalBlock_List_by_LBID`. -/
def removeFromLogicalBlockListByLBID (heap : LBHeap) (head lbid : Nat) :
    Option (Option (Nat × Bool) × LBHeap) :=
  heap.removeFromLogicalBlockList head fun tmp => tmp.LBID = lbid

/-- The loop of `Commit_LB_List_by_Range`, with its index `i`. -/
def commitLoop (head slbid : Nat) (nrLBIDs : Int) : Nat → LBHeap → Nat → Nat → Nat →
    Option (Nat × LBHeap)
  | 0, _, _, _, _ => none
  | fuel + 1, heap, i, cur, next =>
      if cur = head then some (i, heap)
      else (heap.lbmds cur).bind fun lbmd =>
        if lbmd.LBID = (slbid + i) % 2 ^ 64 then
          let heap := (heap.listDel cur).releaseLogicalBlockMetaData cur
          if (i + 1 : Int) = nrLBIDs then some (i + 1, heap)
          else commitLoop head slbid nrLBIDs fuel heap (i + 1) next (heap.links next).next
        else commitLoop head slbid nrLBIDs fuel heap i next (heap.links next).next

/-- `Commit_LB_List_by_Range`: whether the list is empty then. -/
def commitLBListByRange (heap : LBHeap) (head slbid : Nat) (nrLBIDs : Int) :
    Option (Bool × LBHeap) :=
  let first := (heap.links head).next
  (commitLoop head slbid nrLBIDs (heap.bound + 1) heap 0 first (heap.links first).next).map
    fun result => (result.2.listEmpty head, result.2)

/-- The loop of `__Move_Sub_List`: the number of nodes passed. -/
def moveSubListLoop (heap : LBHeap) (head : Nat) (length : Int) (newHead : Nat) : Nat → Nat → Nat →
    Option (Int × LBHeap)
  | 0, _, _ => none
  | fuel + 1, count, cur =>
      if cur = head then some (count, heap)
      else (heap.lbmds cur).bind fun _ =>
        if (count + 1 : Int) = length then
          some (length, { heap with links := heap.links.cut head cur newHead })
        else moveSubListLoop heap head length newHead fuel (count + 1) (heap.links cur).next

/-- `__Move_Sub_List`. -/
def moveSubList (heap : LBHeap) (head : Nat) (length : Int) (newHead : Nat) :
    Option (Int × LBHeap) :=
  moveSubListLoop heap head length newHead (heap.bound + 1) 0 (heap.links head).next

/-- The loop of `Release_LogicalBlock_List`, which releases the blocks where they are linked. -/
def releaseLoop (head : Nat) : Nat → LBHeap → Nat → Nat → Option LBHeap
  | 0, _, _, _ => none
  | fuel + 1, heap, cur, next =>
      if cur = head then some heap
      else (heap.lbmds cur).bind fun _ =>
        let heap := heap.releaseLogicalBlockMetaData cur
        releaseLoop head fuel heap next (heap.links next).next

/-- `Release_LogicalBlock_List`. -/
def releaseLogicalBlockList (heap : LBHeap) (head : Nat) : Option LBHeap :=
  let first := (heap.links head).next
  (releaseLoop head (heap.bound + 1) heap first (heap.links first).next).map fun heap =>
    { heap with heads := heap.heads.erase head }

/-- `Get_Next_DIO_Request_LB_List`, given what `Create_LogicalBlock_List` comes to: the new list,
unless there are not enough blocks. -/
def getNextDIORequestLBList (heap : LBHeap) (head : Nat) (length : Int) (created : Option Nat) :
    Option (Option Nat × LBHeap) :=
  match created with
  | none => some (none, heap)
  | some subList =>
      ((heap.createLogicalBlockList subList).moveSubList head length subList).bind fun moved =>
        if moved.1 ≠ length then
          (moved.2.releaseLogicalBlockList subList).map fun heap => (none, heap)
        else some (some subList, moved.2)

/-- The list at that head has these blocks. -/
structure Holds (heap : LBHeap) (head : Nat) (blocks : List LBMD) : Prop where
  ring : Ring heap.links head (blocks.map LBMD.addr)
  lbmds : ∀ lbmd ∈ blocks, heap.lbmds lbmd.addr = some lbmd
  bounded : blocks.length ≤ heap.bound

/-- Nothing is written outside the region, and nothing is allocated. -/
structure Keeps (heap after : LBHeap) (region : List Nat) : Prop where
  heads : after.heads = heap.heads
  links : ∀ addr ∉ region, after.links addr = heap.links addr
  lbmds : ∀ addr ∉ region, after.lbmds addr = heap.lbmds addr
  allocated : ∀ addr lbmd, after.lbmds addr = some lbmd → heap.lbmds addr = some lbmd
  bound : heap.bound ≤ after.bound

variable {heap after : LBHeap} {head addr : Nat} {region : List Nat} {lbmd : LBMD}
  {blocks before behind : List LBMD}

theorem releaseLogicalBlockMetaData_some {other : Nat}
    (found : (heap.releaseLogicalBlockMetaData addr).lbmds other = some lbmd) :
    heap.lbmds other = some lbmd := by
  by_cases same : other = addr
  · have released : (heap.releaseLogicalBlockMetaData addr).lbmds other = none := by
      rw [same]
      exact Function.update_self ..
    rw [released] at found
    cases found
  · exact (Function.update_of_ne same _ _).symm.trans found

theorem Keeps.refl (heap : LBHeap) (region : List Nat) : heap.Keeps heap region :=
  ⟨rfl, fun _ _ => rfl, fun _ _ => rfl, fun _ _ found => found, Nat.le_refl _⟩

theorem Keeps.trans {last : LBHeap} (first : heap.Keeps after region)
    (second : after.Keeps last region) : heap.Keeps last region where
  heads := second.heads.trans first.heads
  links addr elsewhere := (second.links addr elsewhere).trans (first.links addr elsewhere)
  lbmds addr elsewhere := (second.lbmds addr elsewhere).trans (first.lbmds addr elsewhere)
  allocated addr lbmd found := first.allocated addr lbmd (second.allocated addr lbmd found)
  bound := Nat.le_trans first.bound second.bound

theorem Keeps.mono {larger : List Nat} (keeps : heap.Keeps after region)
    (subset : region ⊆ larger) : heap.Keeps after larger where
  heads := keeps.heads
  links addr elsewhere := keeps.links addr fun member => elsewhere (subset member)
  lbmds addr elsewhere := keeps.lbmds addr fun member => elsewhere (subset member)
  allocated := keeps.allocated
  bound := keeps.bound

namespace Holds

theorem congr (holds : heap.Holds head blocks) (keeps : heap.Keeps after region)
    (apart : ∀ addr ∈ head :: blocks.map LBMD.addr, addr ∉ region) :
    after.Holds head blocks where
  ring := holds.ring.congr fun addr member => keeps.links addr (apart addr member)
  lbmds lbmd member := by
    rw [← holds.lbmds lbmd member]
    exact keeps.lbmds lbmd.addr (apart _ (List.mem_cons_of_mem _ (List.mem_map_of_mem member)))
  bounded := Nat.le_trans holds.bounded keeps.bound

theorem createLogicalBlockMetaData (holds : heap.Holds head blocks)
    (fresh : lbmd.addr ∉ head :: blocks.map LBMD.addr) :
    (heap.createLogicalBlockMetaData lbmd).Holds head blocks where
  ring := holds.ring.congr fun _ member =>
    Links.loop_of_ne _ _ _ (ne_of_mem_of_not_mem member fresh)
  lbmds other member := by
    have among := List.mem_cons_of_mem head (List.mem_map_of_mem (f := LBMD.addr) member)
    rw [← holds.lbmds other member]
    exact Function.update_of_ne (ne_of_mem_of_not_mem among fresh) _ _
  bounded := holds.bounded

theorem ne_head (holds : heap.Holds head blocks) (member : lbmd ∈ blocks) : lbmd.addr ≠ head := by
  intro same
  exact (List.nodup_cons.mp holds.ring.distinct).1 (same ▸ List.mem_map_of_mem member)

theorem checked (holds : heap.Holds head blocks) (check : LBMD → Bool) :
    ∀ addr ∈ blocks.map LBMD.addr,
      (heap.lbmds addr).map check = some ((heap.lbmds addr).any check) := by
  intro addr member
  obtain ⟨lbmd, linked, rfl⟩ := List.mem_map.mp member
  rw [holds.lbmds lbmd linked]
  rfl

theorem enough (holds : heap.Holds head blocks) :
    (blocks.map LBMD.addr).length < heap.bound + 1 := by
  rw [List.length_map]
  exact Nat.lt_succ_of_le holds.bounded

theorem find_addr (holds : heap.Holds head blocks) (check : LBMD → Bool) {some_blocks : List LBMD}
    (among : some_blocks ⊆ blocks) :
    (some_blocks.map LBMD.addr).find? (fun addr => (heap.lbmds addr).any check) =
      (some_blocks.find? check).map LBMD.addr := by
  rw [List.find?_map]
  refine congrArg (Option.map LBMD.addr) (List.find?_congr fun lbmd member => ?_)
  rw [Function.comp_apply, holds.lbmds lbmd (among member)]
  rfl

theorem forEachEntry (holds : heap.Holds head blocks) (check : LBMD → Bool) :
    heap.forEachEntry head check = some (((blocks.find? check).map LBMD.addr).getD head) := by
  have ring : Ring heap.links head ([] ++ blocks.map LBMD.addr) := holds.ring
  have walked := ring.walk (holds.checked check) holds.enough
  rw [← holds.ring.next_head, holds.find_addr check (List.Subset.refl _)] at walked
  exact walked

theorem forEachPrev (holds : heap.Holds head blocks) (check : LBMD → Bool) :
    heap.forEachPrev head check =
      some (((blocks.reverse.find? check).map LBMD.addr).getD head) := by
  have mirrored := holds.ring.mirror
  rw [← List.map_reverse] at mirrored
  have ring : Ring heap.links.mirror head ([] ++ blocks.reverse.map LBMD.addr) := mirrored
  have checked : ∀ addr ∈ blocks.reverse.map LBMD.addr,
      (heap.lbmds addr).map check = some ((heap.lbmds addr).any check) := by
    intro addr member
    exact holds.checked check addr (by simpa using member)
  have enough : (blocks.reverse.map LBMD.addr).length < heap.bound + 1 := by
    rw [List.length_map, List.length_reverse]
    exact Nat.lt_succ_of_le holds.bounded
  have walked := ring.walk checked enough
  have among : blocks.reverse ⊆ blocks := fun lbmd member => List.mem_reverse.mp member
  rw [← mirrored.next_head, holds.find_addr check among] at walked
  exact walked

theorem insertBehind (holds : heap.Holds head (before ++ behind))
    (allocated : heap.lbmds lbmd.addr = some lbmd)
    (unlinked : lbmd.addr ∉ head :: (before ++ behind).map LBMD.addr) :
    let pos := (before.map LBMD.addr).getLastD head
    let after := { heap with
      links := heap.links.insertBehind lbmd.addr pos
      bound := heap.bound + 1 }
    after.Holds head (before ++ lbmd :: behind) ∧
      heap.Keeps after (lbmd.addr :: head :: (before ++ behind).map LBMD.addr) := by
  have ring := holds.ring
  rw [List.map_append] at ring unlinked
  have inserted := ring.insertBehind unlinked
  have place : (before.map LBMD.addr).getLastD head ∈
      head :: (before.map LBMD.addr ++ behind.map LBMD.addr) := by
    rcases List.eq_nil_or_concat' before with rfl | ⟨early, last, rfl⟩ <;> simp
  refine ⟨⟨?_, ?_, ?_⟩, ⟨rfl, ?_, fun _ _ => rfl, fun _ _ found => found, Nat.le_succ _⟩⟩
  · rw [List.map_append, List.map_cons]
    exact inserted
  · intro other member
    have among : other = lbmd ∨ other ∈ before ++ behind := by
      simp only [List.mem_append, List.mem_cons] at member ⊢
      tauto
    rcases among with rfl | linked
    · exact allocated
    · exact holds.lbmds other linked
  · have bounded := holds.bounded
    simp only [List.length_append, List.length_cons] at bounded ⊢
    omega
  · intro addr elsewhere
    rw [List.map_append] at elsewhere
    obtain ⟨apart, elsewhere⟩ := not_or.mp (List.mem_cons.not.mp elsewhere)
    exact ring.insertBehind_of_not_mem place elsewhere apart

/-- An insertion does on the ring what it does on the list of blocks. -/
theorem addToLogicalBlockListByInsertionSort (holds : heap.Holds head blocks)
    (allocated : heap.lbmds lbmd.addr = some lbmd)
    (unlinked : lbmd.addr ∉ head :: blocks.map LBMD.addr) :
    ∃ retcode after,
      heap.addToLogicalBlockListByInsertionSort head lbmd.addr = some (retcode, after) ∧
      (DmsBlkdev.addToLogicalBlockListByInsertionSort blocks lbmd = none ∧ retcode = dmsFail ∧
          after = heap ∨
        ∃ before behind, blocks = before ++ behind ∧
          DmsBlkdev.addToLogicalBlockListByInsertionSort blocks lbmd =
            some (before ++ lbmd :: behind) ∧
          retcode = dmsOK ∧ after.Holds head (before ++ lbmd :: behind) ∧
          heap.Keeps after (lbmd.addr :: head :: blocks.map LBMD.addr)) := by
  have walked := holds.forEachPrev fun cur =>
    decide (cur.LBID = lbmd.LBID) || decide (cur.LBID < lbmd.LBID)
  rw [LBHeap.addToLogicalBlockListByInsertionSort, allocated, Option.bind_some, walked,
    Option.map_some]
  cases located : blocks.reverse.find? fun cur =>
      decide (cur.LBID = lbmd.LBID) || decide (cur.LBID < lbmd.LBID) with
  | none =>
      -- all blocks come behind: the walk ends at the head
      have above : ∀ cur ∈ blocks, lbmd.LBID < cur.LBID := by
        intro cur member
        have failed := List.find?_eq_none.mp located cur (List.mem_reverse.mpr member)
        simp only [Bool.or_eq_true, decide_eq_true_eq] at failed
        omega
      have holds' : heap.Holds head ([] ++ blocks) := holds
      have placed := holds'.insertBehind allocated unlinked
      exact ⟨dmsOK, _, by simp, .inr ⟨[], blocks, rfl, addByInsertionSort_above above, rfl, placed⟩⟩
  | some cur =>
      obtain ⟨passed, early, late, split, failed⟩ := List.find?_eq_some_iff_append.mp located
      have above : ∀ other ∈ early.reverse, lbmd.LBID < other.LBID := by
        intro other member
        have failed := failed other (List.mem_reverse.mp member)
        simp only [Bool.not_eq_true', Bool.or_eq_false_iff, decide_eq_false_iff_not] at failed
        omega
      have stops : cur.LBID = lbmd.LBID ∨ cur.LBID < lbmd.LBID := by simpa using passed
      obtain rfl : blocks = late.reverse ++ [cur] ++ early.reverse := by
        rw [← List.reverse_reverse blocks, split]
        simp
      have result := @addByInsertionSort_behind late.reverse early.reverse cur lbmd stops above
      have linked : cur ∈ late.reverse ++ [cur] ++ early.reverse := by simp
      have apart := holds.ne_head linked
      have same := holds.lbmds cur linked
      by_cases duplicate : cur.LBID = lbmd.LBID
      · rw [if_pos duplicate] at result
        exact ⟨dmsFail, heap, by simp [apart, same, duplicate], .inl ⟨result, rfl, rfl⟩⟩
      · rw [if_neg duplicate] at result
        have placed := holds.insertBehind allocated unlinked
        rw [List.map_append, List.map_singleton, List.getLastD_concat] at placed
        exact ⟨dmsOK, _, by simp [apart, same, duplicate], .inr ⟨_, _, rfl, result, rfl, placed⟩⟩

theorem listEmpty (holds : heap.Holds head blocks) : heap.listEmpty head = blocks.isEmpty := by
  rw [LBHeap.listEmpty, holds.ring.next_head]
  cases blocks with
  | nil => simp
  | cons first rest =>
      have apart := holds.ne_head List.mem_cons_self
      simp [apart]

theorem ne_middle (holds : heap.Holds head (before ++ lbmd :: behind)) :
    ∀ other ∈ before ++ behind, other.addr ≠ lbmd.addr := by
  intro other member same
  have distinct := (List.nodup_cons.mp holds.ring.distinct).2
  rw [List.map_append, List.map_cons] at distinct
  obtain ⟨absent, -⟩ := List.nodup_cons.mp (List.nodup_middle.mp distinct)
  rw [← List.map_append] at absent
  exact absent (same ▸ List.mem_map_of_mem member)

theorem listDel (holds : heap.Holds head (before ++ lbmd :: behind)) :
    (heap.listDel lbmd.addr).Holds head (before ++ behind) ∧
      heap.Keeps (heap.listDel lbmd.addr) (head :: (before ++ lbmd :: behind).map LBMD.addr) := by
  have linked : lbmd ∈ before ++ lbmd :: behind := by simp
  have member := List.mem_cons_of_mem head (List.mem_map_of_mem (f := LBMD.addr) linked)
  have ring := holds.ring
  rw [List.map_append, List.map_cons] at ring
  have apart : ∀ addr ∈ head :: (before ++ behind).map LBMD.addr, addr ≠ lbmd.addr := by
    intro addr among
    rcases List.mem_cons.mp among with rfl | among
    · exact (holds.ne_head linked).symm
    · obtain ⟨other, linked, rfl⟩ := List.mem_map.mp among
      exact holds.ne_middle other linked
  refine ⟨⟨?_, fun other among => ?_, ?_⟩,
    ⟨rfl, fun addr elsewhere => ?_, fun _ _ => rfl, fun _ _ found => found, Nat.le_refl _⟩⟩
  · rw [List.map_append]
    refine ring.unlink.congr fun addr among => Function.update_of_ne (apart addr ?_) _ _
    rwa [List.map_append]
  · apply holds.lbmds
    simp only [List.mem_append, List.mem_cons] at among ⊢
    tauto
  · have bounded := holds.bounded
    simp only [List.length_append, List.length_cons] at bounded ⊢
    exact Nat.le_trans (by omega) bounded
  · have other : addr ≠ lbmd.addr := (ne_of_mem_of_not_mem member elsewhere).symm
    exact (Function.update_of_ne other _ _).trans (holds.ring.unlink_of_not_mem member elsewhere)

/-- A removal unlinks the first block that passes the check. -/
theorem removeFromLogicalBlockList (holds : heap.Holds head blocks) (check : LBMD → Bool) :
    ∃ after, heap.removeFromLogicalBlockList head check =
        some ((blocks.find? check).map fun lbmd => (lbmd.addr, (blocks.eraseP check).isEmpty),
          after) ∧
      after.Holds head (blocks.eraseP check) ∧
      heap.Keeps after (head :: blocks.map LBMD.addr) := by
  rw [LBHeap.removeFromLogicalBlockList, holds.forEachEntry check, Option.map_some]
  cases located : blocks.find? check with
  | none =>
      rw [List.eraseP_of_forall_not (List.find?_eq_none.mp located)]
      exact ⟨heap, by simp, holds, .refl heap _⟩
  | some lbmd =>
      obtain ⟨passed, before, behind, rfl, failed⟩ := List.find?_eq_some_iff_append.mp located
      have failed' : ∀ other ∈ before, ¬ check other = true := by simpa using failed
      rw [List.eraseP_append_right _ failed', List.eraseP_cons_of_pos passed]
      obtain ⟨deleted, keeps⟩ := holds.listDel
      have apart := holds.ne_head (List.mem_append_right before List.mem_cons_self)
      refine ⟨heap.listDel lbmd.addr, ?_, deleted, keeps⟩
      simp [apart, deleted.listEmpty]

theorem commit (holds : heap.Holds head (before ++ lbmd :: behind)) :
    ((heap.listDel lbmd.addr).releaseLogicalBlockMetaData lbmd.addr).Holds head
        (before ++ behind) ∧
      heap.Keeps ((heap.listDel lbmd.addr).releaseLogicalBlockMetaData lbmd.addr)
        (head :: (before ++ lbmd :: behind).map LBMD.addr) := by
  obtain ⟨deleted, keeps⟩ := holds.listDel
  refine ⟨⟨deleted.ring, fun other member => ?_, deleted.bounded⟩,
    ⟨keeps.heads, keeps.links, fun addr elsewhere => ?_, fun addr found linked => ?_, keeps.bound⟩⟩
  · rw [← deleted.lbmds other member]
    exact Function.update_of_ne (holds.ne_middle other member) _ _
  · refine (Function.update_of_ne ?_ _ _).trans (keeps.lbmds addr elsewhere)
    rintro rfl
    apply elsewhere
    simp
  · exact keeps.allocated addr found (releaseLogicalBlockMetaData_some linked)

theorem next_behind {cur : LBMD} (holds : heap.Holds head (before ++ cur :: behind)) :
    (heap.links cur.addr).next = (behind.map LBMD.addr).headD head := by
  have ring := holds.ring
  rw [List.map_append, List.map_cons] at ring
  exact ring.next_node

/-- A range commit does on the ring what it does on the list of blocks. -/
theorem commitLoop (slbid : Nat) (nrLBIDs : Int) (i : Nat) {fuel : Nat}
    (holds : heap.Holds head (before ++ behind)) (enough : behind.length < fuel) :
    ∃ i' after, commitLoop head slbid nrLBIDs fuel heap i ((behind.map LBMD.addr).headD head)
        (heap.links ((behind.map LBMD.addr).headD head)).next = some (i', after) ∧
      after.Holds head (before ++ (commitWalk slbid nrLBIDs i behind).1) ∧
      heap.Keeps after (head :: (before ++ behind).map LBMD.addr) ∧
      ∀ lbmd ∈ (commitWalk slbid nrLBIDs i behind).2, after.lbmds lbmd.addr = none := by
  induction behind generalizing heap i before fuel with
  | nil =>
      obtain ⟨fuel, rfl⟩ := Nat.exists_eq_add_one.mpr enough
      refine ⟨i, heap, ?_, holds, .refl heap _, fun _ member => ?_⟩
      · simp [LBHeap.commitLoop]
      · exact absurd member List.not_mem_nil
  | cons cur rest inductionHypothesis =>
      obtain ⟨fuel, rfl⟩ := Nat.exists_eq_add_one.mpr (Nat.zero_lt_of_lt enough)
      have enough' : rest.length < fuel := Nat.lt_of_succ_lt_succ enough
      have linked : cur ∈ before ++ cur :: rest := by simp
      rw [List.map_cons, List.headD_cons, LBHeap.commitLoop, if_neg (holds.ne_head linked),
        holds.lbmds cur linked, Option.bind_some, holds.next_behind, commitWalk]
      by_cases here : cur.LBID = (slbid + i) % 2 ^ 64
      · obtain ⟨committed, keeps⟩ := holds.commit
        have released : ((heap.listDel cur.addr).releaseLogicalBlockMetaData cur.addr).lbmds
            cur.addr = none := Function.update_self ..
        rw [if_pos here, if_pos here]
        by_cases last : (i + 1 : Int) = nrLBIDs
        · rw [if_pos last, if_pos last]
          refine ⟨i + 1, _, rfl, committed, keeps, fun lbmd member => ?_⟩
          rw [List.mem_singleton.mp member]
          exact released
        · rw [if_neg last, if_neg last]
          obtain ⟨i', after, walked, holds', keeps', freed⟩ :=
            inductionHypothesis (i + 1) committed enough'
          refine ⟨i', after, walked, holds', keeps.trans (keeps'.mono ?_), fun lbmd member => ?_⟩
          · exact List.cons_subset_cons head (List.map_subset _ (by simp))
          · rcases List.mem_cons.mp member with rfl | later
            · -- its address is in the rest of the list no more
              rw [keeps'.lbmds, released]
              intro among
              rcases List.mem_cons.mp among with same | among
              · exact holds.ne_head linked same
              · obtain ⟨other, linked', same⟩ := List.mem_map.mp among
                exact holds.ne_middle other linked' same
            · exact freed lbmd later
      · rw [if_neg here, if_neg here]
        have onward : heap.Holds head (before ++ [cur] ++ rest) := by simpa using holds
        obtain ⟨i', after, walked, holds', keeps, freed⟩ :=
          inductionHypothesis i onward enough'
        refine ⟨i', after, walked, by simpa using holds', ?_, freed⟩
        simpa using keeps

theorem commitLBListByRange (holds : heap.Holds head blocks) (slbid : Nat) (nrLBIDs : Int) :
    ∃ after, heap.commitLBListByRange head slbid nrLBIDs =
        some ((DmsBlkdev.commitLBListByRange blocks slbid nrLBIDs).1.isEmpty, after) ∧
      after.Holds head (DmsBlkdev.commitLBListByRange blocks slbid nrLBIDs).1 ∧
      heap.Keeps after (head :: blocks.map LBMD.addr) ∧
      ∀ lbmd ∈ (DmsBlkdev.commitLBListByRange blocks slbid nrLBIDs).2,
        after.lbmds lbmd.addr = none := by
  have whole : heap.Holds head ([] ++ blocks) := holds
  obtain ⟨i, after, walked, holds', keeps, freed⟩ :=
    whole.commitLoop slbid nrLBIDs 0 (Nat.lt_succ_of_le holds.bounded)
  rw [← holds.ring.next_head] at walked
  refine ⟨after, ?_, holds', keeps, freed⟩
  rw [LBHeap.commitLBListByRange, walked, Option.map_some, holds'.listEmpty]
  rfl

/-- The cut of `__Move_Sub_List`, where the walk ends. -/
theorem cut {newHead : Nat} (holds : heap.Holds head (before ++ lbmd :: behind))
    (fresh : newHead ∉ head :: (before ++ lbmd :: behind).map LBMD.addr) :
    let after := { heap with links := heap.links.cut head lbmd.addr newHead }
    after.Holds newHead (before ++ [lbmd]) ∧ after.Holds head behind ∧
      heap.Keeps after (newHead :: head :: (before ++ lbmd :: behind).map LBMD.addr) := by
  have linked : lbmd.addr ∈ (before ++ lbmd :: behind).map LBMD.addr :=
    List.mem_map_of_mem (by simp)
  have bounded := holds.bounded
  have ring := holds.ring
  have kept (addr : Nat) (outside : addr ∉ head :: (before ++ lbmd :: behind).map LBMD.addr)
      (apart : addr ≠ newHead) := holds.ring.cut_of_not_mem linked fresh outside apart
  rw [List.map_append, List.map_cons] at ring fresh
  obtain ⟨moved, rest⟩ := ring.cut fresh
  refine ⟨⟨?_, fun other member => ?_, ?_⟩, ⟨rest, fun other member => ?_, ?_⟩,
    ⟨rfl, fun addr outside => ?_, fun _ _ => rfl, fun _ _ found => found, Nat.le_refl _⟩⟩
  · rw [List.map_append]
    exact moved
  · apply holds.lbmds
    simp only [List.mem_append, List.mem_cons, List.not_mem_nil, or_false] at member ⊢
    tauto
  · simp only [List.length_append, List.length_cons, List.length_nil] at bounded ⊢
    exact Nat.le_trans (by omega) bounded
  · exact holds.lbmds other (by simp [member])
  · simp only [List.length_append, List.length_cons] at bounded
    exact Nat.le_trans (by omega) bounded
  · obtain ⟨apart, outside⟩ := not_or.mp (List.mem_cons.not.mp outside)
    exact kept addr outside apart

theorem moveSubListLoop (length : Int) {newHead fuel : Nat} (count : Nat)
    (holds : heap.Holds head (before ++ behind))
    (fresh : newHead ∉ head :: (before ++ behind).map LBMD.addr) (enough : behind.length < fuel) :
    ∃ retcode after,
      heap.moveSubListLoop head length newHead fuel count ((behind.map LBMD.addr).headD head) =
        some (retcode, after) ∧
      match moveSubListWalk length count behind with
      | some (moved, rest) => retcode = length ∧ after.Holds newHead (before ++ moved) ∧
          after.Holds head rest ∧
          heap.Keeps after (newHead :: head :: (before ++ behind).map LBMD.addr)
      | none => retcode = count + behind.length ∧ after = heap := by
  induction behind generalizing before fuel count with
  | nil =>
      obtain ⟨fuel, rfl⟩ := Nat.exists_eq_add_one.mpr enough
      exact ⟨count, heap, by simp [LBHeap.moveSubListLoop], by simp [moveSubListWalk]⟩
  | cons cur rest inductionHypothesis =>
      obtain ⟨fuel, rfl⟩ := Nat.exists_eq_add_one.mpr (Nat.zero_lt_of_lt enough)
      have linked : cur ∈ before ++ cur :: rest := by simp
      rw [List.map_cons, List.headD_cons, LBHeap.moveSubListLoop, if_neg (holds.ne_head linked),
        holds.lbmds cur linked, Option.bind_some, holds.next_behind, moveSubListWalk]
      by_cases here : (count + 1 : Int) = length
      · rw [if_pos here, if_pos here]
        obtain ⟨moved, remain, keeps⟩ := holds.cut fresh
        exact ⟨length, _, rfl, rfl, moved, remain, keeps⟩
      · rw [if_neg here, if_neg here]
        have onward : heap.Holds head (before ++ [cur] ++ rest) := by simpa using holds
        obtain ⟨retcode, after, walked, result⟩ := inductionHypothesis (count + 1) onward
          (by simpa using fresh) (Nat.lt_of_succ_lt_succ enough)
        refine ⟨retcode, after, walked, ?_⟩
        cases walk : moveSubListWalk length (count + 1) rest with
        | none =>
            rw [walk] at result
            refine ⟨result.1.trans ?_, result.2⟩
            rw [List.length_cons]
            omega
        | some moved =>
            rw [walk] at result
            simpa using result

theorem moveSubList {newHead : Nat} (holds : heap.Holds head blocks) (length : Int)
    (fresh : newHead ∉ head :: blocks.map LBMD.addr) :
    ∃ after, heap.moveSubList head length newHead =
        some ((DmsBlkdev.moveSubList blocks length).1, after) ∧
      match moveSubListWalk length 0 blocks with
      | some (moved, rest) => after.Holds newHead moved ∧ after.Holds head rest ∧
          heap.Keeps after (newHead :: head :: blocks.map LBMD.addr)
      | none => after = heap := by
  have whole : heap.Holds head ([] ++ blocks) := holds
  obtain ⟨retcode, after, walked, result⟩ :=
    whole.moveSubListLoop length 0 fresh (Nat.lt_succ_of_le holds.bounded)
  rw [← holds.ring.next_head] at walked
  rw [LBHeap.moveSubList, walked, DmsBlkdev.moveSubList]
  cases walk : moveSubListWalk length 0 blocks with
  | none =>
      rw [walk] at result
      exact ⟨after, by simp [result.1], result.2⟩
  | some moved =>
      rw [walk] at result
      obtain ⟨rfl, held, remain, keeps⟩ := result
      exact ⟨after, rfl, held, remain, keeps⟩

theorem releaseLoop {passed : List Nat} {fuel : Nat}
    (ring : Ring heap.links head (passed ++ behind.map LBMD.addr))
    (live : ∀ lbmd ∈ behind, heap.lbmds lbmd.addr = some lbmd) (enough : behind.length < fuel) :
    ∃ after, LBHeap.releaseLoop head fuel heap ((behind.map LBMD.addr).headD head)
        (heap.links ((behind.map LBMD.addr).headD head)).next = some after ∧
      heap.Keeps after (behind.map LBMD.addr) ∧
      ∀ lbmd ∈ behind, after.lbmds lbmd.addr = none := by
  induction behind generalizing heap passed fuel with
  | nil =>
      obtain ⟨fuel, rfl⟩ := Nat.exists_eq_add_one.mpr enough
      refine ⟨heap, by simp [LBHeap.releaseLoop], .refl heap _, fun _ member => ?_⟩
      exact absurd member List.not_mem_nil
  | cons cur rest inductionHypothesis =>
      obtain ⟨fuel, rfl⟩ := Nat.exists_eq_add_one.mpr (Nat.zero_lt_of_lt enough)
      rw [List.map_cons] at ring
      obtain ⟨notHead, distinct⟩ := List.nodup_cons.mp ring.distinct
      obtain ⟨-, distinct, -⟩ := List.nodup_append.mp distinct
      obtain ⟨apart, -⟩ := List.nodup_cons.mp distinct
      have curNotHead : cur.addr ≠ head := by
        intro same
        exact notHead (List.mem_append_right _ (same ▸ List.mem_cons_self))
      have split : passed ++ cur.addr :: rest.map LBMD.addr =
          passed ++ [cur.addr] ++ rest.map LBMD.addr := by simp
      have onward : Ring (heap.releaseLogicalBlockMetaData cur.addr).links head
          (passed ++ [cur.addr] ++ rest.map LBMD.addr) := split ▸ ring
      have live' : ∀ lbmd ∈ rest,
          (heap.releaseLogicalBlockMetaData cur.addr).lbmds lbmd.addr = some lbmd := by
        intro lbmd member
        rw [← live lbmd (List.mem_cons_of_mem _ member)]
        refine Function.update_of_ne (fun same => ?_) _ _
        exact apart (same ▸ List.mem_map_of_mem member)
      obtain ⟨after, released, keeps, freed⟩ :=
        inductionHypothesis onward live' (Nat.lt_of_succ_lt_succ enough)
      have free : after.lbmds cur.addr = none :=
        (keeps.lbmds _ apart).trans (Function.update_self ..)
      refine ⟨after, ?_, ⟨keeps.heads, fun addr elsewhere => ?_, fun addr elsewhere => ?_,
        fun addr lbmd found => ?_, keeps.bound⟩, fun lbmd member => ?_⟩
      · rw [List.map_cons, List.headD_cons, LBHeap.releaseLoop, if_neg curNotHead,
          live cur List.mem_cons_self, Option.bind_some, ring.next_node]
        exact released
      · exact keeps.links addr fun member => elsewhere (List.mem_cons_of_mem _ member)
      · obtain ⟨other, elsewhere⟩ := not_or.mp (List.mem_cons.not.mp elsewhere)
        exact (keeps.lbmds addr elsewhere).trans (Function.update_of_ne other _ _)
      · exact releaseLogicalBlockMetaData_some (keeps.allocated addr lbmd found)
      · rcases List.mem_cons.mp member with rfl | later
        · exact free
        · exact freed lbmd later

theorem releaseLogicalBlockList (holds : heap.Holds head blocks) :
    ∃ after, heap.releaseLogicalBlockList head = some after ∧
      Keeps { heap with heads := heap.heads.erase head } after (blocks.map LBMD.addr) ∧
      ∀ lbmd ∈ blocks, after.lbmds lbmd.addr = none := by
  have ring : Ring heap.links head ([] ++ blocks.map LBMD.addr) := holds.ring
  obtain ⟨after, released, keeps, freed⟩ :=
    releaseLoop ring holds.lbmds (Nat.lt_succ_of_le holds.bounded)
  rw [← holds.ring.next_head] at released
  refine ⟨{ after with heads := after.heads.erase head }, ?_,
    ⟨congrArg (List.erase · head) keeps.heads, keeps.links, keeps.lbmds, keeps.allocated,
      keeps.bound⟩, freed⟩
  rw [LBHeap.releaseLogicalBlockList, released]
  rfl

end Holds

theorem createLogicalBlockList_keeps (heap : LBHeap) (head : Nat) :
    Keeps { heap with heads := head :: heap.heads } (heap.createLogicalBlockList head) [head] where
  heads := rfl
  links addr elsewhere := Links.loop_of_ne _ _ _ (by simpa using elsewhere)
  lbmds _ _ := rfl
  allocated _ _ found := found
  bound := Nat.le_refl _

theorem createLogicalBlockList_holds (heap : LBHeap) (head : Nat) :
    (heap.createLogicalBlockList head).Holds head [] :=
  ⟨.loop heap.links head, fun _ member => absurd member List.not_mem_nil, Nat.zero_le _⟩

/-- `Get_Next_DIO_Request_LB_List` splits the list where its length allows it, and leaves it as it
is otherwise. -/
theorem Holds.getNextDIORequestLBList {newHead : Nat} (holds : heap.Holds head blocks)
    (length : Int) (fresh : newHead ∉ head :: blocks.map LBMD.addr) :
    ∃ result after,
      heap.getNextDIORequestLBList head length (some newHead) = some (result, after) ∧
      if (DmsBlkdev.moveSubList blocks length).1 = length then
        result = some newHead ∧ after.Holds newHead (DmsBlkdev.moveSubList blocks length).2.1 ∧
        after.Holds head (DmsBlkdev.moveSubList blocks length).2.2 ∧
        Keeps { heap with heads := newHead :: heap.heads } after
          (newHead :: head :: blocks.map LBMD.addr)
      else result = none ∧ after.Holds head blocks ∧ heap.Keeps after [newHead] := by
  have created := createLogicalBlockList_keeps heap newHead
  have apart : ∀ addr ∈ head :: blocks.map LBMD.addr, addr ∉ [newHead] := by
    intro addr member among
    exact fresh (List.mem_singleton.mp among ▸ member)
  have orig : Holds { heap with heads := newHead :: heap.heads } head blocks :=
    ⟨holds.ring, holds.lbmds, holds.bounded⟩
  have kept := orig.congr created apart
  obtain ⟨after, moved, result⟩ := kept.moveSubList length fresh
  rw [LBHeap.getNextDIORequestLBList, moved, Option.bind_some]
  have region : [newHead] ⊆ newHead :: head :: blocks.map LBMD.addr := by simp
  by_cases exactly : (DmsBlkdev.moveSubList blocks length).1 = length
  · rw [if_neg (not_not.mpr exactly)]
    simp only [if_pos exactly]
    refine ⟨some newHead, after, rfl, rfl, ?_⟩
    rw [DmsBlkdev.moveSubList]
    cases walk : moveSubListWalk length 0 blocks with
    | none =>
        rw [walk] at result
        obtain rfl := result
        exact ⟨createLogicalBlockList_holds heap newHead, kept, created.mono region⟩
    | some cut =>
        rw [walk] at result
        obtain ⟨held, remain, keeps⟩ := result
        exact ⟨held, remain, (created.mono region).trans keeps⟩
  · rw [if_pos exactly]
    simp only [if_neg exactly]
    have unmoved : moveSubListWalk length 0 blocks = none := by
      cases walk : moveSubListWalk length 0 blocks with
      | none => rfl
      | some cut => simp [DmsBlkdev.moveSubList, walk] at exactly
    rw [unmoved] at result
    obtain rfl := result
    obtain ⟨last, released, keeps, -⟩ :=
      (createLogicalBlockList_holds heap newHead).releaseLogicalBlockList
    have keeps' : heap.Keeps last [newHead] := by
      refine ⟨?_, fun addr elsewhere => ?_, fun addr _ => ?_, keeps.allocated, keeps.bound⟩
      · rw [keeps.heads]
        exact List.erase_cons_head ..
      · rw [keeps.links addr List.not_mem_nil]
        exact created.links addr elsewhere
      · exact keeps.lbmds addr List.not_mem_nil
    refine ⟨none, last, ?_, rfl, holds.congr keeps' apart, keeps'⟩
    rw [released]
    rfl

end LBHeap

end DmsBlkdev
