import DmsBlkdev.LogicalBlock.Ascending
import DmsBlkdev.LogicalBlock.Parts

/-!
# Freeing a block of a list

A block is taken off its list and released, by its pointer or by its id.  The
function that has a pointer declares a second `lbmd` in its block, and the
initializer of that one already means itself: the removal is given what the new
variable happens to hold instead of the pointer.  Pointers are NULL (or an error
pointer, which `IS_LEGAL` refuses alike) or an address.
-/

namespace DmsBlkdev

open Lib

def OnList (blocks : List LBMD) (pointer : Option Nat) : Prop :=
  ∃ block ∈ blocks, pointer = some block.addr

namespace LBHeap

/-- `Remove_from_LogicalBlock_List_by_LBMD` with its check of the pointer. -/
def removeByPointer (heap : LBHeap) (head : Nat) (lbmd : Option Nat) :
    Option (Option (Nat × Bool) × LBHeap) :=
  match lbmd with
  | none => some (none, heap)
  | some addr => heap.removeFromLogicalBlockListByLBMD head addr

/-- What both functions do with the result of the removal: the return value and the heap. -/
def freeRemoved : Option (Nat × Bool) × LBHeap → Int × LBHeap
  | (none, heap) => (dmsFail, heap)
  | (some (addr, empty), heap) => (if empty then 1 else 0, heap.releaseLogicalBlockMetaData addr)

/-- `Free_LogicalBlock_MetaData_from_LB_List_by_LBMD`; `inner` is what the `lbmd` of its block holds
before it is set. -/
def freeLogicalBlockMetaDataFromLBListByLBMD (heap : LBHeap) (head : Nat)
    (lbmd inner : Option Nat) : Option (Int × LBHeap) :=
  match lbmd with
  | none => some (dmsFail, heap)
  | some _ => (heap.removeByPointer head inner).map freeRemoved

/-- `Free_LogicalBlock_MetaData_from_LB_List_by_LBID`. -/
def freeLogicalBlockMetaDataFromLBListByLBID (heap : LBHeap) (head lbid : Nat) :
    Option (Int × LBHeap) :=
  (heap.removeFromLogicalBlockListByLBID head lbid).map freeRemoved

structure Freed (heap after : LBHeap) (head : Nat) (blocks : List LBMD) (block : LBMD) : Prop where
  list : after.Holds head (blocks.erase block)
  released : after.lbmds block.addr = none
  others : ∀ addr, addr ≠ block.addr → after.lbmds addr = heap.lbmds addr
  elsewhere : heap.Keeps after (head :: blocks.map LBMD.addr)

def emptied (blocks : List LBMD) (block : LBMD) : Int :=
  if (blocks.erase block).isEmpty then 1 else 0

/-- A block of the list is freed, as it is by its id, and any other pointer changes nothing. -/
structure FreesExactly (heap : LBHeap) (head : Nat) (blocks : List LBMD) (lbmd inner : Option Nat) :
    Prop where
  member : ∀ block ∈ blocks, lbmd = some block.addr → ∃ after,
    heap.freeLogicalBlockMetaDataFromLBListByLBMD head lbmd inner =
        some (emptied blocks block, after) ∧
      heap.Freed after head blocks block ∧
      heap.freeLogicalBlockMetaDataFromLBListByLBID head block.LBID =
        some (emptied blocks block, after)
  other : ¬ OnList blocks lbmd →
    heap.freeLogicalBlockMetaDataFromLBListByLBMD head lbmd inner = some (dmsFail, heap)

variable {heap : LBHeap} {head addr : Nat} {blocks : List LBMD} {block : LBMD}
  {lbmd inner : Option Nat} {check : LBMD → Bool}

namespace Holds

theorem commit_member (holds : heap.Holds head blocks) (member : block ∈ blocks) :
    (heap.listDel block.addr).Holds head (blocks.erase block) ∧
      heap.Freed ((heap.listDel block.addr).releaseLogicalBlockMetaData block.addr) head blocks
        block := by
  obtain ⟨before, behind, -, rfl, erased⟩ := List.exists_erase_eq member
  obtain ⟨deleted, -⟩ := holds.listDel
  obtain ⟨committed, keeps⟩ := holds.commit
  refine ⟨erased ▸ deleted, erased ▸ committed, Function.update_self .., ?_, keeps⟩
  exact fun addr apart => Function.update_of_ne apart _ _

theorem remove_only (holds : heap.Holds head blocks) (member : block ∈ blocks)
    (passes : check block = true) (only : ∀ other ∈ blocks, check other = true → other = block) :
    (heap.removeFromLogicalBlockList head check).map freeRemoved =
      some (emptied blocks block,
        (heap.listDel block.addr).releaseLogicalBlockMetaData block.addr) := by
  have found : blocks.find? check = some block := by
    cases located : blocks.find? check with
    | none => exact absurd passes (List.find?_eq_none.mp located block member)
    | some other =>
        rw [only other (List.mem_of_find?_eq_some located) (List.find?_some located)]
  have walked := holds.forEachEntry check
  rw [found, Option.map_some, Option.getD_some] at walked
  rw [LBHeap.removeFromLogicalBlockList, walked, Option.map_some, Option.map_some,
    if_neg (holds.ne_head member), (holds.commit_member member).1.listEmpty]
  rfl

theorem addr_injective (holds : heap.Holds head blocks) {other : LBMD} (member : block ∈ blocks)
    (member' : other ∈ blocks) (same : other.addr = block.addr) : other = block := by
  have read := holds.lbmds other member'
  rw [same, holds.lbmds block member] at read
  exact (Option.some.inj read).symm

/-- The removal is given a block of the list. -/
theorem removeByPointer_member (holds : heap.Holds head blocks) (member : block ∈ blocks) :
    (heap.removeByPointer head (some block.addr)).map freeRemoved =
      some (emptied blocks block,
        (heap.listDel block.addr).releaseLogicalBlockMetaData block.addr) := by
  apply holds.remove_only member (decide_eq_true rfl)
  intro other member' same
  exact holds.addr_injective member member' (of_decide_eq_true same)

/-- The removal is given anything else. -/
theorem removeByPointer_other (holds : heap.Holds head blocks) (absent : ¬ OnList blocks inner) :
    (heap.removeByPointer head inner).map freeRemoved = some (dmsFail, heap) := by
  cases inner with
  | none => rfl
  | some addr =>
      have unmatched : blocks.find? (fun tmp => decide (tmp.addr = addr)) = none := by
        rw [List.find?_eq_none]
        intro block member same
        exact absent ⟨block, member, congrArg some (of_decide_eq_true same).symm⟩
      have walked := holds.forEachEntry fun tmp => decide (tmp.addr = addr)
      rw [unmatched, Option.map_none, Option.getD_none] at walked
      rw [removeByPointer, removeFromLogicalBlockListByLBMD, LBHeap.removeFromLogicalBlockList,
        walked, Option.map_some, Option.map_some, if_pos rfl]
      rfl

theorem freeByLBID_member (holds : heap.Holds head blocks) (ascending : Ascending blocks)
    (member : block ∈ blocks) :
    heap.freeLogicalBlockMetaDataFromLBListByLBID head block.LBID =
      some (emptied blocks block,
        (heap.listDel block.addr).releaseLogicalBlockMetaData block.addr) := by
  apply holds.remove_only member (decide_eq_true rfl)
  intro other member' same
  have distinct : (blocks.map LBMD.LBID).Nodup := ascending.imp Nat.ne_of_lt
  exact List.inj_on_of_nodup_map distinct member' member (of_decide_eq_true same)

end Holds

/-- A block of the list that has been taken out has left the list. -/
theorem Freed.not_holds {after : LBHeap} (freed : heap.Freed after head blocks block)
    (holds : heap.Holds head blocks) {other : List LBMD} (held : after.Holds head other) :
    block ∉ other := by
  obtain rfl := freed.list.unique held
  have distinct : (blocks.map LBMD.addr).Nodup := (List.nodup_cons.mp holds.ring.distinct).2
  exact (List.Nodup.of_map _ distinct).not_mem_erase

theorem emptied_ne_dmsFail (blocks : List LBMD) (block : LBMD) :
    emptied blocks block ≠ dmsFail := by
  rw [emptied]
  split <;> decide

/-- Freeing by pointer does what it should exactly when the variable that hides the pointer happens
to hold that pointer, when the pointer is refused at once, or when neither is in the list. -/
theorem freesExactly_iff (holds : heap.Holds head blocks) (ascending : Ascending blocks)
    (lbmd inner : Option Nat) :
    heap.FreesExactly head blocks lbmd inner ↔
      inner = lbmd ∨ lbmd = none ∨ ¬ OnList blocks lbmd ∧ ¬ OnList blocks inner := by
  constructor
  · intro exactly
    by_contra otherwise
    obtain ⟨hidden, otherwise⟩ := not_or.mp otherwise
    obtain ⟨legal, otherwise⟩ := not_or.mp otherwise
    obtain ⟨addr, rfl⟩ := Option.ne_none_iff_exists'.mp legal
    by_cases onList : OnList blocks (some addr)
    · -- the block stays linked, whatever the removal was given
      obtain ⟨block, member, same⟩ := onList
      obtain ⟨after, freed, gone, -⟩ := exactly.member block member same
      by_cases inList : OnList blocks inner
      · obtain ⟨other, member', rfl⟩ := inList
        have apart : block ≠ other := fun equal => hidden (by rw [same, equal])
        have result := freed.symm.trans (holds.removeByPointer_member member')
        obtain ⟨-, rfl⟩ := Prod.mk.inj (Option.some.inj result)
        have kept := (holds.commit_member member').2.list
        exact gone.not_holds holds kept ((List.mem_erase_of_ne apart).mpr member)
      · have result := freed.symm.trans (holds.removeByPointer_other inList)
        obtain ⟨-, rfl⟩ := Prod.mk.inj (Option.some.inj result)
        exact gone.not_holds holds holds member
    · have inList : OnList blocks inner := by
        by_contra absent
        exact otherwise ⟨onList, absent⟩
      obtain ⟨other, member', rfl⟩ := inList
      have result := (exactly.other onList).symm.trans (holds.removeByPointer_member member')
      exact emptied_ne_dmsFail blocks other (Prod.mk.inj (Option.some.inj result)).1.symm
  · intro fine
    constructor
    · rintro block member rfl
      rcases fine with rfl | refused | absent
      · exact ⟨_, holds.removeByPointer_member member, (holds.commit_member member).2,
          holds.freeByLBID_member ascending member⟩
      · cases refused
      · exact absurd ⟨block, member, rfl⟩ absent.1
    · intro absent
      cases lbmd with
      | none => rfl
      | some addr =>
          rcases fine with rfl | refused | ⟨-, absent'⟩
          · exact holds.removeByPointer_other absent
          · cases refused
          · exact holds.removeByPointer_other absent'

/-- The second `lbmd` happens to hold the pointer of the first block. -/
theorem freesExactly_example :
    twoBlocksHeap.FreesExactly 0 twoBlocks (some 1) (some 1) ↔
      some 1 = some 1 ∨ some 1 = none ∨
        ¬ OnList twoBlocks (some 1) ∧ ¬ OnList twoBlocks (some 1) :=
  freesExactly_iff twoBlocksHeap_holds (by decide) (some 1) (some 1)

/-- The second `lbmd` happens to hold NULL: the block is neither taken out nor released. -/
theorem block_not_freed : Ascending twoBlocks ∧ twoBlocksHeap.Holds 0 twoBlocks ∧
    ¬ twoBlocksHeap.FreesExactly 0 twoBlocks (some 1) none := by
  refine ⟨by decide, twoBlocksHeap_holds, fun exactly => ?_⟩
  obtain ⟨after, freed, -⟩ := exactly.member ⟨1, 5, 0, 0⟩ (by decide) rfl
  have result := freed.symm.trans (twoBlocksHeap_holds.removeByPointer_other fun ⟨_, _, same⟩ =>
    Option.some_ne_none _ same.symm)
  exact emptied_ne_dmsFail _ _ (Prod.mk.inj (Option.some.inj result)).1

end LBHeap

end DmsBlkdev
