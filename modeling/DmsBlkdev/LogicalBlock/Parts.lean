import DmsBlkdev.LogicalBlock.Ring

/-!
# Parts of a block list

The next request takes the first blocks of a list for its own, and a commit
releases a range of blocks.  The walk of the commit compares the count with the
length of the range after a block has been released, so an empty range releases
the blocks from its start on.
-/

namespace DmsBlkdev

open Lib

namespace LBHeap

variable {heap : LBHeap} {head : Nat} {blocks : List LBMD}

section Split

/-- A length within the list splits it; any other length leaves it as it is, and so does a failed
allocation. -/
theorem getNextDIORequestLBList_split (holds : heap.Holds head blocks) (length : Int)
    {created : Option Nat} (fresh : ∀ newHead ∈ created, newHead ∉ head :: blocks.map LBMD.addr) :
    ∃ result after, heap.getNextDIORequestLBList head length created = some (result, after) ∧
      (∀ newHead ∈ created, 1 ≤ length → length ≤ blocks.length →
        result = some newHead ∧ after.Holds newHead (blocks.take length.toNat) ∧
          after.Holds head (blocks.drop length.toNat)) ∧
      (created = none ∨ blocks.length < length ∨ length = 0 ∧ 0 < blocks.length →
        result = none ∧ after.Holds head blocks ∧
          ∀ addr ∈ head :: blocks.map LBMD.addr, after.links addr = heap.links addr) := by
  cases created with
  | none =>
      refine ⟨none, heap, rfl, ?_, fun _ => ⟨rfl, holds, fun _ _ => rfl⟩⟩
      rintro newHead ⟨⟩
  | some newHead =>
      have new := fresh newHead rfl
      obtain ⟨result, after, done, spec⟩ := holds.getNextDIORequestLBList length new
      refine ⟨result, after, done, ?_, ?_⟩
      · rintro _ ⟨⟩ positive within
        obtain ⟨count, rfl⟩ := Int.eq_ofNat_of_zero_le (Int.le_trans (by decide) positive)
        have moved := @moveSubList_pos blocks count (by omega)
        rw [if_pos (by omega)] at moved
        rw [moved, if_pos rfl] at spec
        obtain ⟨given, first, rest, -⟩ := spec
        exact ⟨given, first, rest⟩
      · rintro (absent | refused)
        · cases absent
        · have unmet : (DmsBlkdev.moveSubList blocks length).1 ≠ length := by
            rcases refused with long | ⟨rfl, some⟩
            · have positive : 0 ≤ length := by omega
              obtain ⟨count, rfl⟩ := Int.eq_ofNat_of_zero_le positive
              rw [moveSubList_pos (by omega), if_neg (by omega)]
              exact fun same => absurd same (by omega)
            · rw [moveSubList_zero]
              exact fun same => absurd same (by omega)
          rw [if_neg unmet] at spec
          obtain ⟨given, kept, keeps⟩ := spec
          refine ⟨given, kept, fun addr among => keeps.links addr ?_⟩
          rintro inNew
          exact new (List.mem_singleton.mp inNew ▸ among)

end Split

section Commit

variable {slbid nr : Nat}

def outsideRange (blocks : List LBMD) (slbid nr : Nat) : List LBMD :=
  blocks.filter fun cur => decide (cur.LBID < slbid ∨ slbid + nr ≤ cur.LBID)

theorem range_small {blocks : List LBMD} (small : ∀ lbmd ∈ blocks, lbmd.LBID < 2 ^ 64)
    (positive : 0 < nr)
    (held : ∀ lbid, slbid ≤ lbid → lbid < slbid + nr → lbid ∈ blocks.map LBMD.LBID) :
    slbid + nr ≤ 2 ^ 64 := by
  obtain ⟨last, member, same⟩ := List.mem_map.mp (held (slbid + nr - 1) (by omega) (by omega))
  have bound := small last member
  omega

theorem outsideRange_zero (blocks : List LBMD) (slbid : Nat) :
    outsideRange blocks slbid 0 = blocks :=
  List.filter_eq_self.mpr fun _ _ => decide_eq_true (Nat.lt_or_ge _ _)

/-- The walk releases the block that it looks for, if that is on the list. -/
theorem commitWalk_released {nrLBIDs : Int} {i : Nat} {blocks : List LBMD}
    (held : (slbid + i) % 2 ^ 64 ∈ blocks.map LBMD.LBID) :
    (commitWalk slbid nrLBIDs i blocks).2 ≠ [] := by
  induction blocks with
  | nil => exact absurd held List.not_mem_nil
  | cons cur rest inductionHypothesis =>
      rw [commitWalk]
      by_cases here : cur.LBID = (slbid + i) % 2 ^ 64
      · rw [if_pos here]
        split <;> exact List.cons_ne_nil _ _
      · rw [if_neg here]
        rcases List.mem_cons.mp held with head | inRest
        · exact absurd head.symm here
        · exact inductionHypothesis inRest

theorem commitWalk_untouched {nrLBIDs : Int} {i : Nat} {blocks : List LBMD}
    (absent : (slbid + i) % 2 ^ 64 ∉ blocks.map LBMD.LBID) :
    commitWalk slbid nrLBIDs i blocks = (blocks, []) := by
  induction blocks with
  | nil => rfl
  | cons cur rest inductionHypothesis =>
      obtain ⟨here, inRest⟩ := not_or.mp (List.mem_cons.not.mp absent)
      rw [commitWalk, if_neg fun same => here same.symm, inductionHypothesis inRest]

/-- The list and the memory after a commit that removed exactly a range. -/
structure RangeReleased (heap after : LBHeap) (head : Nat) (blocks : List LBMD) (slbid nr : Nat) :
    Prop where
  kept : after.Holds head (outsideRange blocks slbid nr)
  released : ∀ lbmd ∈ blocks, lbmd ∉ outsideRange blocks slbid nr → after.lbmds lbmd.addr = none
  elsewhere : heap.Keeps after (head :: blocks.map LBMD.addr)

/-- A commit removes and releases exactly its range, whose blocks are on the list, when the range
has a block or its start is not on the list; and only then. -/
theorem commitLBListByRange_released_iff (holds : heap.Holds head blocks)
    (ascending : Ascending blocks) (small : ∀ lbmd ∈ blocks, lbmd.LBID < 2 ^ 64)
    (slbid : BitVec 64) (nr : Nat)
    (held : ∀ lbid, slbid.toNat ≤ lbid → lbid < slbid.toNat + nr → lbid ∈ blocks.map LBMD.LBID) :
    (∃ after, heap.commitLBListByRange head slbid.toNat nr =
        some ((outsideRange blocks slbid.toNat nr).isEmpty, after) ∧
      RangeReleased heap after head blocks slbid.toNat nr) ↔
    0 < nr ∨ slbid.toNat ∉ blocks.map LBMD.LBID := by
  obtain ⟨after, done, keptHolds, keeps, freed⟩ := holds.commitLBListByRange slbid.toNat nr
  have start : (slbid.toNat + 0) % 2 ^ 64 = slbid.toNat := Nat.mod_eq_of_lt slbid.isLt
  constructor
  · rintro ⟨other, again, result⟩
    by_contra neither
    obtain ⟨empty, onList⟩ := not_or.mp neither
    obtain rfl : nr = 0 := by omega
    obtain ⟨-, rfl⟩ := Prod.mk.inj (Option.some.inj (done.symm.trans again))
    have all := result.kept
    rw [outsideRange_zero] at all
    have onList' := not_not.mp onList
    rw [← start] at onList'
    obtain ⟨lbmd, gone⟩ := List.exists_mem_of_ne_nil _ (commitWalk_released onList')
    have member := (commitLBListByRange_perm blocks slbid.toNat (0 : Nat)).mem_iff.mp
      (List.mem_append_left _ gone)
    exact Option.some_ne_none _ ((all.lbmds lbmd member).symm.trans (freed lbmd gone))
  · intro fine
    have kept : (DmsBlkdev.commitLBListByRange blocks slbid.toNat nr).1 =
        outsideRange blocks slbid.toNat nr := by
      rcases Nat.eq_zero_or_pos nr with rfl | positive
      · have absent := fine.resolve_left (Nat.lt_irrefl 0)
        rw [← start] at absent
        rw [outsideRange_zero, DmsBlkdev.commitLBListByRange, commitWalk_untouched absent]
      · exact commitLBListByRange_kept (range_small small positive held) positive ascending held
    rw [kept] at done keptHolds
    refine ⟨after, done, keptHolds, fun lbmd member gone => ?_, keeps⟩
    have among := (commitLBListByRange_perm blocks slbid.toNat nr).mem_iff.mpr member
    rw [List.mem_append, kept] at among
    exact freed lbmd (among.resolve_right gone)

end Commit

end LBHeap

def twoBlocks : List LBMD := [⟨1, 5, 0, 0⟩, ⟨2, 6, 0, 1⟩]

def twoBlocksHeap : LBHeap where
  heads := [0]
  links addr := if addr = 0 then ⟨2, 1⟩ else if addr = 1 then ⟨0, 2⟩ else ⟨1, 0⟩
  lbmds addr := twoBlocks.find? (·.addr = addr)
  poison := ⟨0, 0⟩
  bound := 2

theorem twoBlocksHeap_holds : twoBlocksHeap.Holds 0 twoBlocks where
  ring := ⟨by unfold Links.Chained; decide, by decide⟩
  lbmds := by decide
  bounded := by decide

namespace LBHeap

theorem getNextDIORequestLBList_split_example :
    ∃ result after, twoBlocksHeap.getNextDIORequestLBList 0 1 (some 3) = some (result, after) ∧
      (∀ newHead ∈ some 3, (1 : Int) ≤ 1 → (1 : Int) ≤ twoBlocks.length →
        result = some newHead ∧ after.Holds newHead (twoBlocks.take (1 : Int).toNat) ∧
          after.Holds 0 (twoBlocks.drop (1 : Int).toNat)) ∧
      (some 3 = none ∨ (twoBlocks.length : Int) < 1 ∨ (1 : Int) = 0 ∧ 0 < twoBlocks.length →
        result = none ∧ after.Holds 0 twoBlocks ∧
          ∀ addr ∈ 0 :: twoBlocks.map LBMD.addr, after.links addr = twoBlocksHeap.links addr) :=
  getNextDIORequestLBList_split twoBlocksHeap_holds 1 (by rintro _ ⟨⟩; decide)

/-- Without memory for the new list nothing is split off. -/
theorem getNextDIORequestLBList_unsplit :
    ¬ ∀ (heap : LBHeap) (head : Nat) (blocks : List LBMD), heap.Holds head blocks →
      ∀ (length : Int) (created : Option Nat),
        (∀ newHead ∈ created, newHead ∉ head :: blocks.map LBMD.addr) →
        1 ≤ length → length ≤ blocks.length →
        ∃ newHead after,
          heap.getNextDIORequestLBList head length created = some (some newHead, after) ∧
            after.Holds newHead (blocks.take length.toNat) ∧
            after.Holds head (blocks.drop length.toNat) := by
  intro all
  obtain ⟨newHead, after, done, -⟩ := all twoBlocksHeap 0 twoBlocks twoBlocksHeap_holds 1 none
    (by rintro _ ⟨⟩) (by decide) (by decide)
  cases done

theorem commitLBListByRange_released_example :
    (∃ after, twoBlocksHeap.commitLBListByRange 0 (5 : BitVec 64).toNat (1 : Nat) =
        some ((outsideRange twoBlocks (5 : BitVec 64).toNat 1).isEmpty, after) ∧
      RangeReleased twoBlocksHeap after 0 twoBlocks (5 : BitVec 64).toNat 1) ↔
    0 < 1 ∨ (5 : BitVec 64).toNat ∉ twoBlocks.map LBMD.LBID :=
  commitLBListByRange_released_iff twoBlocksHeap_holds (by decide) (by decide) 5 1 (by
    intro lbid lower upper
    obtain rfl : lbid = 5 := Nat.le_antisymm (Nat.le_of_lt_succ upper) lower
    decide)

/-- A commit of no blocks releases those from its start on. -/
theorem commitLBListByRange_emptyRange :
    ¬ ∀ (heap : LBHeap) (head : Nat) (blocks : List LBMD), heap.Holds head blocks →
      Ascending blocks → (∀ lbmd ∈ blocks, lbmd.LBID < 2 ^ 64) → ∀ (slbid : BitVec 64) (nr : Nat),
      (∀ lbid, slbid.toNat ≤ lbid → lbid < slbid.toNat + nr → lbid ∈ blocks.map LBMD.LBID) →
      ∃ after, heap.commitLBListByRange head slbid.toNat nr =
          some ((outsideRange blocks slbid.toNat nr).isEmpty, after) ∧
        RangeReleased heap after head blocks slbid.toNat nr := by
  intro all
  obtain ⟨after, done, -⟩ := all twoBlocksHeap 0 twoBlocks twoBlocksHeap_holds (by decide)
    (by decide) 5 0 (fun lbid lower upper => absurd lower (Nat.not_le_of_lt upper))
  have empty : (twoBlocksHeap.commitLBListByRange 0 (5 : BitVec 64).toNat (0 : Nat)).map Prod.fst =
      some true := by decide
  rw [done, Option.map_some] at empty
  have isEmpty : (outsideRange twoBlocks (5 : BitVec 64).toNat 0).isEmpty = true :=
    Option.some.inj empty
  exact absurd isEmpty (by decide)

end LBHeap

end DmsBlkdev
