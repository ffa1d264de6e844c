import DmsBlkdev.Metadata
import DmsBlkdev.Lib.Wire

/-!
# Parsing a response of the namenode

A response to a metadata query carries located requests, each with its HBIDs
and with the datanodes that hold its replicas.  The parser reads big-endian
numbers out of a buffer that it takes to be long enough, and it stores into
arrays and tables whose sizes it does not compare with the counts it reads.
What goes wrong that way is a fault here.
-/

namespace DmsBlkdev

open Lib.Wire

/-- A read beyond the body, a store beyond an array, or the use of an allocation that failed. -/
inductive ParseFault where
  | overrun
  | overflow
  | oops
  deriving DecidableEq, Repr

/-- Which allocations of a parse succeed, by the number of the attempt. -/
abbrev Allocations := Nat → Bool

section Read

variable (buf : Bytes) (offset : Nat)

/-- `READ_NET_BUF`: the value, and the offset behind it. -/
def readNetBuf (width : Nat) : Except ParseFault (BitVec (8 * width) × Nat) :=
  match read width buf offset with
  | none => .error .overrun
  | some word => .ok (word, offset + width)

/-- `READ_NET_SHORT`. -/
def readNetShort : Except ParseFault (BitVec 16 × Nat) := readNetBuf buf offset 2

/-- `READ_NET_INT`. -/
def readNetInt : Except ParseFault (BitVec 32 × Nat) := readNetBuf buf offset 4

/-- `READ_NET_LONG`. -/
def readNetLong : Except ParseFault (BitVec 64 × Nat) := readNetBuf buf offset 8

end Read

/-- `KSECTORS_TO_DSECTORS(MAX_KSECTORS)`, the length of the arrays `HBIDs` and `triplets`. -/
def arrayLength : Nat := 16

/-- The loops that read the HBIDs of a located request and the triplets of a location: `stored`
holds the entries of the array so far. -/
def readLongs (buf : Bytes) : Nat → Nat → List (BitVec 64) →
    Except ParseFault (List (BitVec 64) × Nat)
  | 0, offset, stored => .ok (stored, offset)
  | rounds + 1, offset, stored => do
      let (value, offset) ← readNetLong buf offset
      if stored.length < arrayLength then readLongs buf rounds offset (stored ++ [value])
      else .error .overflow

/-- The loop that allocates the entries of a table, each cleared before it is looked at. -/
def createEntries (grants : Allocations) {Entry : Type} (zero : Entry) (table : Bool) :
    Nat → Nat → Except ParseFault (List Entry × Nat)
  | 0, attempts => .ok ([], attempts)
  | entries + 1, attempts =>
      if grants attempts && table then do
        let (rest, attempts) ← createEntries grants zero table entries (attempts + 1)
        return (zero :: rest, attempts)
      else .error .oops

/-- `Create_Datanode_Locations` and `Create_Located_Requests`.  `kzalloc` refuses a negative count,
and no loop follows then; it always grants an empty table. -/
def createTable (grants : Allocations) {Entry : Type} (zero : Entry) (count : Int)
    (attempts : Nat) : Except ParseFault (Option (List Entry) × Nat) :=
  if count < 0 then .ok (none, attempts)
  else if count = 0 then .ok (some [], attempts)
  else do
    let (table, attempts) ←
      createEntries grants zero (grants attempts) count.toNat (attempts + 1)
    return (some table, attempts)

/-- A location after `memset`. -/
def DatanodeLocation.zero : DatanodeLocation := ⟨0, 0, 0, [], 0⟩

/-- `Create_Datanode_Locations`. -/
def createDatanodeLocations (grants : Allocations) (nrDns : Int) (attempts : Nat) :
    Except ParseFault (Option (List DatanodeLocation) × Nat) :=
  createTable grants .zero nrDns attempts

/-- `Create_Located_Requests`. -/
def createLocatedRequests (grants : Allocations) (nrLRs : Int) (attempts : Nat) :
    Except ParseFault (Option (List LocatedRequest) × Nat) :=
  createTable grants .zero nrLRs attempts

/-- One round of the loop of `Parse_Datanode_Locations`. -/
def parseDatanodeLocation (buf : Bytes) (dnLoc : DatanodeLocation) (offset : Nat) :
    Except ParseFault (DatanodeLocation × Nat) := do
  let (ip, offset) ← readNetInt buf offset
  let (port, offset) ← readNetShort buf offset
  let (nrTriplets, offset) ← readNetInt buf offset
  -- the count is stored in a short
  let nrTriplets := nrTriplets.setWidth 16
  let (triplets, offset) ← readLongs buf nrTriplets.toInt.toNat offset []
  return ({ dnLoc with ip, port, nrTriplets, triplets }, offset)

def parseDatanodeLocationTable (buf : Bytes) :
    List DatanodeLocation → Nat → Except ParseFault (List DatanodeLocation × Nat)
  | [], offset => .ok ([], offset)
  | dnLoc :: rest, offset => do
      let (dnLoc, offset) ← parseDatanodeLocation buf dnLoc offset
      let (rest, offset) ← parseDatanodeLocationTable buf rest offset
      return (dnLoc :: rest, offset)

/-- `Parse_Datanode_Locations`: the located request, the number of bytes read, and the number of
allocations attempted so far.  Without a table no location is read. -/
def parseDatanodeLocations (grants : Allocations) (lr : LocatedRequest) (buf : Bytes)
    (attempts : Nat) : Except ParseFault (LocatedRequest × Nat × Nat) := do
  let (table, attempts) ← createDatanodeLocations grants lr.nrDnLocs.toInt attempts
  let (dnLocs, offset) ← parseDatanodeLocationTable buf (table.getD []) 0
  return ({ lr with dnLocs }, offset, attempts)

/-- `Parse_Located_Request`. -/
def parseLocatedRequest (grants : Allocations) (lr : LocatedRequest) (buf : Bytes)
    (slbid : BitVec 64) (attempts : Nat) : Except ParseFault (LocatedRequest × Int × Nat) := do
  let (lrState, offset) ← readNetShort buf 0
  let (nrHBIDs, offset) ← readNetShort buf offset
  let (hbids, offset) ← readLongs buf nrHBIDs.toInt.toNat offset []
  let (nrDnLocs, offset) ← readNetShort buf offset
  let lr := { lr with slbid, lrState, nrHBIDs, nrLBIDs := nrHBIDs, hbids, nrDnLocs }
  let (lr, retcode, attempts) ← parseDatanodeLocations grants lr (buf.drop offset) attempts
  return (lr, if 0 < retcode then retcode + offset else retcode, attempts)

/-- The value of a sum in an `int`. -/
def wrapInt (value : Int) : Int := value.bmod (2 ^ 32)

/-- The loop of `Parse_Located_Requests`; `bufOffset` is an `int` and `lbidOffset` a `short`. -/
def parseLocatedRequests (grants : Allocations) (slbid : BitVec 64) (buf : Bytes) :
    List LocatedRequest → Int → BitVec 16 → Nat →
      Except ParseFault (List LocatedRequest × Int × Nat)
  | [], bufOffset, _, attempts => .ok ([], bufOffset, attempts)
  | lr :: rest, bufOffset, lbidOffset, attempts =>
      if bufOffset < 0 then .error .overrun
      else do
        let (lr, retcode, attempts) ← parseLocatedRequest grants lr (buf.drop bufOffset.toNat)
          (slbid + lbidOffset.signExtend 64) attempts
        if 0 < retcode then
          let (rest, retcode, attempts) ← parseLocatedRequests grants slbid buf rest
            (wrapInt (bufOffset + retcode)) (lbidOffset + lr.nrLBIDs) attempts
          return (lr :: rest, retcode, attempts)
        else return (lr :: rest, retcode, attempts)

/-- `struct Query_Metadata_Response`. -/
structure QueryMetadataResponse where
  volumeID : BitVec 64
  startLBID : BitVec 64
  nrLBIDs : BitVec 16
  commitID : BitVec 64
  nrLRs : Nat
  lrs : List LocatedRequest
  deriving DecidableEq, Repr

/-- `Parse_Metadata_Response`.  The count of located requests is not negative, so there is a
table. -/
def parseMetadataResponse (grants : Allocations) (buf : Bytes) (attempts : Nat) :
    Except ParseFault (QueryMetadataResponse × Int × Nat) := do
  let (volumeID, offset) ← readNetLong buf 0
  let (startLBID, offset) ← readNetLong buf offset
  let (nrLBIDs, offset) ← readNetShort buf offset
  let (commitID, offset) ← readNetLong buf offset
  let (nrLRs, offset) ← readNetShort buf offset
  let (table, attempts) ← createLocatedRequests grants nrLRs.toNat attempts
  match table with
  | none => return (⟨volumeID, startLBID, nrLBIDs, commitID, nrLRs.toNat, []⟩, dmsFail, attempts)
  | some lrs =>
      let (lrs, retcode, attempts) ←
        parseLocatedRequests grants startLBID (buf.drop offset) lrs 0 0 attempts
      return (⟨volumeID, startLBID, nrLBIDs, commitID, nrLRs.toNat, lrs⟩,
        if 0 < retcode then wrapInt (retcode + offset) else retcode, attempts)

end DmsBlkdev
