import DmsBlkdev.Core.Policy
import DmsBlkdev.Lib.ByteOrder

/-!
# The print of an error reply

Before it counts an error reply, the policy prints the location that the reply
came from, and hands it to the function that prints datanode tags.  Where a tag
has its list of payload tags, the lock of that list and the counts of its
request, a location has triplets.
-/

namespace DmsBlkdev

open Lib.Wire Lib.ByteOrder

section Overlay

variable (dnl : DatanodeLocation)

/-- The array `triplets` of a location, which has room for 16. -/
def tripletBytes : Bytes :=
  (List.range 16).flatMap fun i => hostBytes 8 (dnl.triplets.getD i 0)

/-- The word at an offset of a datanode tag, where the tag is a location; the array of triplets
starts at offset 10. -/
def tagWord (width offset : Nat) : BitVec (8 * width) :=
  hostWord width (((tripletBytes dnl).drop (offset - 10)).take width)

/-- `payload_tags.dlist_head.next`. -/
def tagListNext : BitVec 64 := tagWord dnl 8 32

/-- `payload_tags.dlist_lock`. -/
def tagListLock : BitVec 32 := tagWord dnl 4 48

/-- `dn_sreq.nr_hbids` and `dn_sreq.nr_triplets`. -/
def tagCounts : BitVec 32 := tagWord dnl 4 64

end Overlay

/-- What decides beside the triplets whether the print comes back: where the locations are, with
which word a spin lock can be taken, and whether the print gets to its end where the list of a
location does not end in it or its counts are not zero. -/
structure PrintSurroundings where
  dnLoc : Nat → BitVec 64
  unlocked : BitVec 32 → Bool
  getsThrough : Nat → Bool

/-- Whether `SPrint_DMS_Datanode_Tag` comes back for the location at an index. -/
def sprintDMSDatanodeTag (env : PrintSurroundings) (index : Nat) (dnl : DatanodeLocation) : Bool :=
  env.unlocked (tagListLock dnl) &&
    ((tagListNext dnl == env.dnLoc index + 32 && tagCounts dnl == 0) || env.getsThrough index)

namespace LocatedRequest

/-- Whether the print of the location at an index comes back. -/
def prints (env : PrintSurroundings) (lr : LocatedRequest) (dnlIndex : Nat) : Bool :=
  (lr.dnLocs[dnlIndex]?).all (sprintDMSDatanodeTag env dnlIndex)

/-- What is printed of a location does not depend on the result that is set in it. -/
theorem prints_setDnResult (env : PrintSurroundings) (lr : LocatedRequest) (dnlIndex : Nat) (ack : Int) :
    (lr.setDnResult dnlIndex ack).prints env = lr.prints env := by
  funext index
  simp only [prints, setDnResult, List.getElem?_modify]
  cases lr.dnLocs[index]? with
  | none => rfl
  | some dnl =>
      simp only [Option.map_eq_map, Option.map_some, Option.all_some]
      split
      · split <;> rfl
      · rfl

end LocatedRequest

/-- `__Update_and_Commit_to_User_Policy` with the print of an error reply; none where the print does
not come back. -/
def printAndUpdatePolicy (env : PrintSurroundings) (op : DMSOp) (lr : LocatedRequest) (dnlIndex : Nat)
    (ack : Int) : Option (LocatedRequest × Int) :=
  if IsErrorReply ack ∧ lr.prints env dnlIndex = false then none
  else some (updateAndCommitToUserPolicy op lr dnlIndex ack)

section Policy

variable (env : PrintSurroundings) (op : DMSOp) (lr : LocatedRequest) (dnlIndex : Nat) (ack : Int)

theorem countAck_dnLocs : (countAck op lr ack).1.dnLocs = lr.dnLocs := by
  rcases reply_cases op ack with ⟨kind, -⟩ | ⟨kind, -⟩ | ⟨kind, writes, -⟩ | ⟨mem, disk⟩
  · rw [countAck_mem op lr ack kind]
    rfl
  · rw [countAck_disk op lr ack kind]
    rfl
  · rw [countAck_error op lr ack kind writes]
    rfl
  · rw [countAck_ignored op lr ack mem disk]

theorem updatePolicy_prints :
    (updateAndCommitToUserPolicy op lr dnlIndex ack).1.prints env = lr.prints env := by
  unfold updateAndCommitToUserPolicy
  split
  · rw [← lr.prints_setDnResult env dnlIndex ack]
    funext index
    rw [LocatedRequest.prints, LocatedRequest.prints, countAck_dnLocs]
  · rfl

end Policy

/-- Six triplets that read as a free lock and as a list that ends in the location, for a location at
`0xffff810001000000`. -/
def listLikeLocation : DatanodeLocation where
  ip := 0
  port := 0
  nrTriplets := 6
  triplets := [0, 0, 0x0020000000000000, 0x0000ffff81000100, 0x0001000000000000, 0]
  dnResult := 0

/-- Locations a page apart.  A lock is free when it is one, and no print gets through that leaves
its location. -/
def pagesApart : PrintSurroundings where
  dnLoc index := 0xffff810001000000 + BitVec.ofNat 64 (4096 * index)
  unlocked lock := lock == 1
  getsThrough _ := false

example : sprintDMSDatanodeTag pagesApart 0 listLikeLocation = true := by decide

example : sprintDMSDatanodeTag pagesApart 0 ⟨0, 0, 0, [], 0⟩ = false := by decide

end DmsBlkdev
