import DmsBlkdev.Metadata

/-!
# The commit policy of one located request

A memory ack counts down the memory acks that are awaited, a disk ack the disk
acks, and an error both.  The policy asks to commit the located request to the
user when the memory acks are used up or a disk ack arrives, and calls it done
when the disk acks are used up.
-/

namespace DmsBlkdev

open Lib.Atomic

section Action

/-! What the policies ask for. -/

def waiting : Int := 0
def actCUser : Int := 1
def actLRDone : Int := 2
def actCNamenode : Int := 3

/-- The answers after which `Commit_LBs_to_DMS_IO` is called. -/
def AsksCommit (retcode : Int) : Prop := retcode = actCUser ∨ retcode = actLRDone

instance : DecidablePred AsksCommit := fun _ => inferInstanceAs (Decidable (_ ∨ _))

end Action

/-- `Update_Mem_Ack`. -/
def updateMemAck (lr : LocatedRequest) : LocatedRequest × Int :=
  (lr.decWMemAck.2, if lr.decWMemAck.1 then actCUser else waiting)

/-- `Update_Disk_Ack`. -/
def updateDiskAck (lr : LocatedRequest) (cuser : Int) : LocatedRequest × Int :=
  (lr.decWDiskAck.2,
    if lr.decWDiskAck.1 then actLRDone else if cuser ≠ 0 then actCUser else waiting)

/-- The `switch` of `__Update_and_Commit_to_User_Policy`. -/
def countAck (op : DMSOp) (lr : LocatedRequest) (ack : Int) : LocatedRequest × Int :=
  if IsMemAck ack then updateMemAck lr
  else if IsDiskAck ack then updateDiskAck lr 1
  else if ack = readAck then updateDiskAck lr 1
  else if IsErrorReply ack then
    if op = .read then (lr, dmsFail)
    else
      let counted := updateMemAck lr
      updateDiskAck counted.1 counted.2
  else (lr, dmsFail)

/-- `__Update_and_Commit_to_User_Policy` without the print of an error reply, which
`printAndUpdatePolicy` has; an index outside the table of locations is no legal pointer. -/
def updateAndCommitToUserPolicy (op : DMSOp) (lr : LocatedRequest) (dnlIndex : Nat) (ack : Int) :
    LocatedRequest × Int :=
  if dnlIndex < lr.dnLocs.length then countAck op (lr.setDnResult dnlIndex ack) ack
  else (lr, dmsFail)

section Counters

variable (op : DMSOp) (lr : LocatedRequest) (dnlIndex : Nat) (ack : Int)

@[simp] theorem setDnResult_wmemAck : (lr.setDnResult dnlIndex ack).wmemAck = lr.wmemAck := rfl

@[simp] theorem setDnResult_wdiskAck : (lr.setDnResult dnlIndex ack).wdiskAck = lr.wdiskAck := rfl

@[simp] theorem setDnResult_commitState :
    (lr.setDnResult dnlIndex ack).commitState = lr.commitState := rfl

@[simp] theorem setDnResult_length :
    (lr.setDnResult dnlIndex ack).dnLocs.length = lr.dnLocs.length := by
  simp [LocatedRequest.setDnResult]

def CountsMem : Prop := IsMemAck ack ∨ (IsErrorReply ack ∧ op ≠ .read)

def CountsDisk : Prop := IsDiskAck ack ∨ ack = readAck ∨ (IsErrorReply ack ∧ op ≠ .read)

instance : Decidable (CountsMem op ack) := inferInstanceAs (Decidable (_ ∨ _))

instance : Decidable (CountsDisk op ack) := inferInstanceAs (Decidable (_ ∨ _ ∨ _))

structure CountedAs (lr lr' : LocatedRequest) (mem disk : Prop) [Decidable mem] [Decidable disk] :
    Prop where
  wmemAck : lr'.wmemAck = if mem then lr.wmemAck - 1 else lr.wmemAck
  wdiskAck : lr'.wdiskAck = if disk then lr.wdiskAck - 1 else lr.wdiskAck
  commitState : lr'.commitState = lr.commitState
  slbid : lr'.slbid = lr.slbid
  nrLBIDs : lr'.nrLBIDs = lr.nrLBIDs
  locations : lr'.dnLocs.length = lr.dnLocs.length
  privateData : lr'.privateData = lr.privateData

theorem countAck_mem (mem : IsMemAck ack) : countAck op lr ack = updateMemAck lr := by
  simp [countAck, mem]

theorem countAck_disk (disk : IsDiskAck ack ∨ ack = readAck) :
    countAck op lr ack = updateDiskAck lr 1 := by
  have notMem : ¬ IsMemAck ack := by rcases disk with (rfl | rfl) | rfl <;> decide
  rcases disk with disk | read
  · simp [countAck, notMem, disk]
  · subst read
    rfl

theorem countAck_error (error : IsErrorReply ack) (writes : op ≠ .read) :
    countAck op lr ack = updateDiskAck (updateMemAck lr).1 (updateMemAck lr).2 := by
  have notAck : ¬ IsMemAck ack ∧ ¬ IsDiskAck ack ∧ ack ≠ readAck := by
    rcases error with rfl | rfl | rfl | rfl | rfl <;> decide
  simp [countAck, notAck, error, writes]

theorem countAck_ignored (mem : ¬ CountsMem op ack) (disk : ¬ CountsDisk op ack) :
    countAck op lr ack = (lr, dmsFail) := by
  unfold CountsMem CountsDisk at *
  simp only [not_or, not_and_or, not_not] at mem disk
  rcases mem.2 with notError | reads
  · simp [countAck, mem, disk, notError]
  · simp [countAck, mem, disk, reads]

theorem reply_cases :
    (IsMemAck ack ∧ CountsMem op ack ∧ ¬ CountsDisk op ack) ∨
      ((IsDiskAck ack ∨ ack = readAck) ∧ ¬ CountsMem op ack ∧ CountsDisk op ack) ∨
      (IsErrorReply ack ∧ op ≠ .read ∧ CountsMem op ack ∧ CountsDisk op ack) ∨
      (¬ CountsMem op ack ∧ ¬ CountsDisk op ack) := by
  unfold CountsMem CountsDisk
  by_cases mem : IsMemAck ack
  · have others : ¬ IsDiskAck ack ∧ ack ≠ readAck ∧ ¬ IsErrorReply ack := by
      rcases mem with rfl | rfl <;> decide
    simp [mem, others]
  · by_cases disk : IsDiskAck ack ∨ ack = readAck
    · have notError : ¬ IsErrorReply ack := by rcases disk with (rfl | rfl) | rfl <;> decide
      rw [← or_assoc]
      simp [mem, disk, notError]
    · rw [← or_assoc]
      by_cases counts : IsErrorReply ack ∧ op ≠ .read <;> simp_all

theorem countAck_counted :
    CountedAs lr (countAck op lr ack).1 (CountsMem op ack) (CountsDisk op ack) := by
  rcases reply_cases op ack with ⟨kind, mem, disk⟩ | ⟨kind, mem, disk⟩ | ⟨kind, writes, mem, disk⟩ |
    ⟨mem, disk⟩
  · rw [countAck_mem op lr ack kind]
    constructor <;> simp [mem, disk, updateMemAck, LocatedRequest.decWMemAck]
  · rw [countAck_disk op lr ack kind]
    constructor <;> simp [mem, disk, updateDiskAck, LocatedRequest.decWDiskAck]
  · rw [countAck_error op lr ack kind writes]
    constructor <;> simp [mem, disk, updateMemAck, updateDiskAck, LocatedRequest.decWMemAck,
      LocatedRequest.decWDiskAck]
  · rw [countAck_ignored op lr ack mem disk]
    constructor <;> simp [mem, disk]

/-- The answer of the policy, told from the counters as they were. -/
theorem countAck_answer : (countAck op lr ack).2 =
    if CountsDisk op ack ∧ lr.wdiskAck = 1 then actLRDone
    else if CountsMem op ack then (if lr.wmemAck = 1 then actCUser else waiting)
    else if CountsDisk op ack then actCUser
    else dmsFail := by
  rcases reply_cases op ack with ⟨kind, mem, disk⟩ | ⟨kind, mem, disk⟩ | ⟨kind, writes, mem, disk⟩ |
    ⟨mem, disk⟩
  · rw [countAck_mem op lr ack kind]
    simp [mem, disk, updateMemAck, LocatedRequest.decWMemAck]
  · rw [countAck_disk op lr ack kind]
    simp [mem, disk, updateDiskAck, LocatedRequest.decWDiskAck]
  · rw [countAck_error op lr ack kind writes]
    by_cases zero : lr.wmemAck = 1 <;>
      simp [mem, disk, updateMemAck, updateDiskAck, LocatedRequest.decWMemAck,
        LocatedRequest.decWDiskAck, zero, actCUser, waiting]
  · rw [countAck_ignored op lr ack mem disk]
    simp [mem, disk]

theorem asksCommit_countAck : AsksCommit (countAck op lr ack).2 ↔
    (CountsDisk op ack ∧ (lr.wdiskAck = 1 ∨ ¬ CountsMem op ack)) ∨
      (CountsMem op ack ∧ lr.wmemAck = 1) := by
  rw [countAck_answer]
  by_cases disk : CountsDisk op ack <;> by_cases mem : CountsMem op ack <;>
    by_cases diskLast : lr.wdiskAck = 1 <;> by_cases memLast : lr.wmemAck = 1 <;>
    simp only [disk, mem, diskLast, memLast, true_and, false_and, if_true, if_false,
      not_true_eq_false, not_false_eq_true, or_true, or_false] <;> decide

/-- The policy changes the counters and the result of the location, and nothing else it or the
commit of the located request reads. -/
theorem policy_keeps :
    (updateAndCommitToUserPolicy op lr dnlIndex ack).1.commitState = lr.commitState ∧
      (updateAndCommitToUserPolicy op lr dnlIndex ack).1.slbid = lr.slbid ∧
      (updateAndCommitToUserPolicy op lr dnlIndex ack).1.nrLBIDs = lr.nrLBIDs ∧
      (updateAndCommitToUserPolicy op lr dnlIndex ack).1.dnLocs.length = lr.dnLocs.length ∧
      (updateAndCommitToUserPolicy op lr dnlIndex ack).1.privateData = lr.privateData := by
  unfold updateAndCommitToUserPolicy
  split
  · have counted := countAck_counted op (lr.setDnResult dnlIndex ack) ack
    exact ⟨counted.commitState, counted.slbid, counted.nrLBIDs,
      counted.locations.trans (setDnResult_length ..), counted.privateData⟩
  · exact ⟨rfl, rfl, rfl, rfl, rfl⟩

end Counters

end DmsBlkdev
