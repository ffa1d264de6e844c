import DmsBlkdev.Common
import DmsBlkdev.DList
import DmsBlkdev.Lib.Atomic

/-!
# Metadata of a DIO

The namenode answers a query with located requests.  A located request is a
range of blocks with the datanodes that hold its replicas and the counters of
the acks that are still awaited.  The located requests of one DIO make its
metadata object.
-/

namespace DmsBlkdev

open Lib.Atomic

section Reply

/-! Reply codes of a datanode, from `enum DMS_DN_Sub_Type`. -/

def undefined : Int := -1000
def timeout : Int := -1001
def exception : Int := -1002
def ioexception : Int := -1003
def iofailButLunOkException : Int := -1004
def failedLunException : Int := -1005

def readAck : Int := 101
def wmemAck : Int := 102
def wdiskAck : Int := 103
def pwmemAck : Int := 104
def pwdiskAck : Int := 105

def IsMemAck (ack : Int) : Prop := ack = wmemAck ∨ ack = pwmemAck

def IsDiskAck (ack : Int) : Prop := ack = wdiskAck ∨ ack = pwdiskAck

def IsErrorReply (ack : Int) : Prop :=
  ack = undefined ∨ ack = exception ∨ ack = ioexception ∨ ack = iofailButLunOkException ∨
    ack = failedLunException

instance : DecidablePred IsMemAck := fun _ => inferInstanceAs (Decidable (_ ∨ _))

instance : DecidablePred IsDiskAck := fun _ => inferInstanceAs (Decidable (_ ∨ _))

instance : DecidablePred IsErrorReply := fun _ =>
  inferInstanceAs (Decidable (_ ∨ _ ∨ _ ∨ _ ∨ _))

theorem IsErrorReply.negative {ack : Int} (error : IsErrorReply ack) : ack < 0 := by
  rcases error with rfl | rfl | rfl | rfl | rfl <;> decide

end Reply

/-- `struct Datanode_Location`; the array holds the triplets stored so far and zeros behind. -/
structure DatanodeLocation where
  ip : BitVec 32
  port : BitVec 16
  nrTriplets : BitVec 16
  triplets : List (BitVec 64)
  dnResult : Int
  deriving DecidableEq, Repr

/-- `struct Located_Request`; `dnLocs` is the table of locations, and `privateData` the first block
of the range in the list of the DIO. -/
structure LocatedRequest where
  slbid : BitVec 64
  nrLBIDs : BitVec 16
  lrState : BitVec 16
  nrHBIDs : BitVec 16
  hbids : List (BitVec 64)
  nrDnLocs : BitVec 16
  dnLocs : List DatanodeLocation
  wmemAck : BitVec 32
  wdiskAck : BitVec 32
  commitState : BitVec 32
  privateData : Option Nat
  deriving DecidableEq, Repr

namespace LocatedRequest

/-- A located request after `memset`. -/
def zero : LocatedRequest where
  slbid := 0
  nrLBIDs := 0
  lrState := 0
  nrHBIDs := 0
  hbids := []
  nrDnLocs := 0
  dnLocs := []
  wmemAck := 0
  wdiskAck := 0
  commitState := 0
  privateData := none

/-- `COMMITTED_USER_BIT`. -/
def committedUserBit : Nat := 1

/-- `test_and_set_bit(COMMITTED_USER_BIT, &lr->commit_state)`. -/
def testAndSetCommitted (lr : LocatedRequest) : Bool × LocatedRequest :=
  (lr.commitState.getLsbD committedUserBit,
    { lr with commitState := lr.commitState ||| BitVec.twoPow 32 committedUserBit })

/-- `Dec_WMem_Ack`. -/
def decWMemAck (lr : LocatedRequest) : Bool × LocatedRequest :=
  ((decAndTest lr.wmemAck).2, { lr with wmemAck := (decAndTest lr.wmemAck).1 })

/-- `Dec_WDisk_Ack`. -/
def decWDiskAck (lr : LocatedRequest) : Bool × LocatedRequest :=
  ((decAndTest lr.wdiskAck).2, { lr with wdiskAck := (decAndTest lr.wdiskAck).1 })

/-- `atomic_set(&dnl->dn_result, ack)`, unless a disk ack is there. -/
def setDnResult (lr : LocatedRequest) (dnlIndex : Nat) (ack : Int) : LocatedRequest :=
  { lr with
    dnLocs := lr.dnLocs.modify dnlIndex fun dnl =>
      if dnl.dnResult = DmsBlkdev.wdiskAck then dnl else { dnl with dnResult := ack } }

end LocatedRequest

/-- `struct DMS_Payload_Tag`: a located request and one of its locations. -/
structure PayloadTag where
  lr : Nat
  dnIndex : Nat
  deriving DecidableEq, Repr

/-- `struct DMS_Datanode_Tag`: the request id it was sent under and the payloads it stands for. -/
structure DatanodeTag where
  addr : Nat
  dnrid : Nat
  payloadTags : List PayloadTag
  deriving DecidableEq, Repr

/-- `struct DMS_Metadata`; `lrs` is the table of located requests, and `pdio` the address of the
parent DIO until that has been completed. -/
structure DMSMetadata where
  op : DMSOp
  lrs : List LocatedRequest
  dnTags : DList DatanodeTag
  commitID : BitVec 64
  pdio : Option Nat
  nrWaitingLRs : BitVec 32
  deriving DecidableEq, Repr

namespace DMSMetadata

/-- `Dec_Waiting_LRs`. -/
def decWaitingLRs (dmeta : DMSMetadata) : Bool × DMSMetadata :=
  ((decAndTest dmeta.nrWaitingLRs).2,
    { dmeta with nrWaitingLRs := (decAndTest dmeta.nrWaitingLRs).1 })

def setLR (dmeta : DMSMetadata) (index : Nat) (lr : LocatedRequest) : DMSMetadata :=
  { dmeta with lrs := dmeta.lrs.set index lr }

end DMSMetadata

end DmsBlkdev
