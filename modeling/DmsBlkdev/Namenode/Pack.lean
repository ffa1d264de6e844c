import DmsBlkdev.Namenode.WellFormed
import Mathlib.Algebra.BigOperators.Group.List.Basic

/-!
# Packing a response

The packing functions write the count of locations once before the locations
and once more with them, and they write a count that a `short` holds as an
`int`.  Every located request is two bytes longer than the parser takes it, so
the parser never gets a packed response back.
-/

namespace DmsBlkdev

open Lib.Wire

/-- `WRITE_NET_INT` of a `short` variable: of the reversed `int` the variable keeps the first two
bytes, and the copy of four bytes takes the two that lie behind the variable. -/
def writeNetIntOfShort (value behind : BitVec 16) : Bytes :=
  (wordBytes 4 (value.signExtend 32)).take 2 ++ wordBytes 2 behind

/-- The first entries of an array that has zeros behind the stored ones. -/
def arrayEntries (array : List (BitVec 64)) (count : BitVec 16) : List (BitVec 64) :=
  (List.range count.toInt.toNat).map fun i => array.getD i 0

/-- One round of the loop of `Pack_Datanode_Locations`. -/
def packDatanodeLocation (behind : BitVec 16) (dnLoc : DatanodeLocation) : Bytes :=
  wordBytes 4 dnLoc.ip ++ wordBytes 2 dnLoc.port ++ writeNetIntOfShort dnLoc.nrTriplets behind ++
    longBytes (arrayEntries dnLoc.triplets dnLoc.nrTriplets)

/-- `Pack_Datanode_Locations`: the bytes written, whose number it returns.  What lies behind the
variable on the stack may differ from round to round. -/
def packDatanodeLocations (behind : Nat → BitVec 16) (lr : LocatedRequest) : Bytes :=
  wordBytes 2 lr.nrDnLocs ++
    ((lr.dnLocs.take lr.nrDnLocs.toInt.toNat).mapIdx fun i => packDatanodeLocation (behind i)).flatten

/-- `Pack_Located_Request`. -/
def packLocatedRequest (behind : Nat → BitVec 16) (lr : LocatedRequest) : Bytes :=
  wordBytes 2 lr.lrState ++ wordBytes 2 lr.nrHBIDs ++
    longBytes (arrayEntries lr.hbids lr.nrHBIDs) ++ wordBytes 2 lr.nrDnLocs ++
    packDatanodeLocations behind lr

/-- `Pack_Located_Requests`. -/
def packLocatedRequests (behind : Nat → Nat → BitVec 16) (lrs : List LocatedRequest) : Bytes :=
  (lrs.mapIdx fun i => packLocatedRequest (behind i)).flatten

/-- `Pack_Metadata_Response`. -/
def packMetadataResponse (behind : Nat → Nat → BitVec 16) (body : QueryMetadataResponse) : Bytes :=
  wordBytes 8 body.volumeID ++ wordBytes 8 body.startLBID ++ wordBytes 2 body.nrLBIDs ++
    wordBytes 8 body.commitID ++ wordBytes 2 (BitVec.ofNat 16 body.nrLRs) ++
    packLocatedRequests behind (body.lrs.take body.nrLRs)

structure DatanodeLocation.WithinBounds (dnLoc : DatanodeLocation) : Prop where
  count : dnLoc.nrTriplets.toInt = dnLoc.triplets.length
  room : dnLoc.triplets.length ≤ arrayLength

structure LocatedRequest.WithinBounds (lr : LocatedRequest) : Prop where
  count : lr.nrHBIDs.toInt = lr.hbids.length
  room : lr.hbids.length ≤ arrayLength
  nrLBIDs : lr.nrLBIDs = lr.nrHBIDs
  locations : lr.nrDnLocs.toInt = lr.dnLocs.length
  located : lr.dnLocs ≠ []
  dnLocs : ∀ dnLoc ∈ lr.dnLocs, dnLoc.WithinBounds

structure QueryMetadataResponse.WithinBounds (body : QueryMetadataResponse) : Prop where
  count : body.nrLRs = body.lrs.length
  some : body.lrs ≠ []
  lrs : ∀ lr ∈ body.lrs, lr.WithinBounds

structure SameLocation (sent seen : DatanodeLocation) : Prop where
  ip : sent.ip = seen.ip
  port : sent.port = seen.port
  triplets : sent.triplets = seen.triplets

structure SameRequest (sent seen : LocatedRequest) : Prop where
  state : sent.lrState = seen.lrState
  hbids : sent.hbids = seen.hbids
  dnLocs : List.Forall₂ SameLocation sent.dnLocs seen.dnLocs

structure SameResponse (sent seen : QueryMetadataResponse) : Prop where
  volumeID : sent.volumeID = seen.volumeID
  startLBID : sent.startLBID = seen.startLBID
  nrLBIDs : sent.nrLBIDs = seen.nrLBIDs
  commitID : sent.commitID = seen.commitID
  nrLRs : sent.nrLRs = seen.nrLRs
  lrs : List.Forall₂ SameRequest sent.lrs seen.lrs

/-- The parser takes all the bytes packed, and gets the fields back. -/
def RoundTrips (grants : Allocations) (behind : Nat → Nat → BitVec 16)
    (body : QueryMetadataResponse) (attempts : Nat) : Prop :=
  ∃ seen attempts', parseMetadataResponse grants (packMetadataResponse behind body) attempts =
    .ok (seen, (packMetadataResponse behind body).length, attempts') ∧ SameResponse body seen

section Size

def DatanodeLocation.wireSize (dnLoc : DatanodeLocation) : Nat := 10 + 8 * dnLoc.triplets.length

def LocatedRequest.wireSize (lr : LocatedRequest) : Nat :=
  6 + 8 * lr.hbids.length + (lr.dnLocs.map DatanodeLocation.wireSize).sum

theorem map_eq_of_forall₂ {First Second Value : Type} {related : First → Second → Prop}
    {f : First → Value} {g : Second → Value} {firsts : List First} {seconds : List Second}
    (same : List.Forall₂ related firsts seconds)
    (agree : ∀ first second, related first second → f first = g second) :
    firsts.map f = seconds.map g := by
  induction same with
  | nil => rfl
  | cons head _ inductionHypothesis =>
      rw [List.map_cons, List.map_cons, agree _ _ head, inductionHypothesis]

theorem SameLocation.wireSize {sent seen : DatanodeLocation} (same : SameLocation sent seen) :
    sent.wireSize = seen.wireSize := by
  rw [DatanodeLocation.wireSize, same.triplets, DatanodeLocation.wireSize]

theorem SameRequest.wireSize {sent seen : LocatedRequest} (same : SameRequest sent seen) :
    sent.wireSize = seen.wireSize := by
  have sizes := map_eq_of_forall₂ same.dnLocs fun _ _ => SameLocation.wireSize
  rw [LocatedRequest.wireSize, same.hbids, sizes, LocatedRequest.wireSize]

theorem LocationMsg.wireSize_decoded (msg : LocationMsg) :
    msg.decoded.wireSize = msg.bytes.length := by
  rw [msg.bytes_length]
  rfl

theorem LRMsg.wireSize_decoded (msg : LRMsg) (slbid : BitVec 64) :
    (msg.decoded slbid).wireSize = msg.bytes.length := by
  have sizes : ((msg.locs.map LocationMsg.decoded).map DatanodeLocation.wireSize).sum =
      (LocationMsg.allBytes msg.locs).length := by
    rw [LocationMsg.allBytes, List.length_flatMap, List.map_map]
    exact congrArg List.sum (List.map_congr_left fun loc _ => loc.wireSize_decoded)
  rw [msg.bytes_length, LocatedRequest.wireSize]
  simp only [LRMsg.decoded, sizes]
  omega

theorem LRMsg.wireSize_decodedFrom {slbid : BitVec 64} {lbidOffset : BitVec 16}
    {msgs : List LRMsg} :
    ((LRMsg.decodedFrom slbid lbidOffset msgs).map LocatedRequest.wireSize).sum =
      (LRMsg.allBytes msgs).length := by
  induction msgs generalizing lbidOffset with
  | nil => rfl
  | cons msg rest inductionHypothesis =>
      rw [LRMsg.decodedFrom, List.map_cons, List.sum_cons, inductionHypothesis,
        msg.wireSize_decoded, LRMsg.allBytes_cons, List.length_append]

@[simp] theorem arrayEntries_length (array : List (BitVec 64)) (count : BitVec 16) :
    (arrayEntries array count).length = count.toInt.toNat := by
  simp [arrayEntries]

theorem packDatanodeLocation_length (behind : BitVec 16) {dnLoc : DatanodeLocation}
    (bounds : dnLoc.WithinBounds) :
    (packDatanodeLocation behind dnLoc).length = dnLoc.wireSize := by
  have count := bounds.count
  simp only [packDatanodeLocation, writeNetIntOfShort, List.length_append, wordBytes_length,
    longBytes_length, arrayEntries_length, List.length_take, DatanodeLocation.wireSize]
  omega

theorem sum_mapIdx_length {Entry : Type} {size : Entry → Nat} {entries : List Entry}
    (write : Nat → Entry → Bytes)
    (sizes : ∀ entry ∈ entries, ∀ i, (write i entry).length = size entry) :
    (entries.mapIdx write).flatten.length = (entries.map size).sum := by
  induction entries generalizing write with
  | nil => rfl
  | cons entry rest inductionHypothesis =>
      obtain ⟨first, others⟩ := List.forall_mem_cons.mp sizes
      rw [List.mapIdx_cons, List.flatten_cons, List.length_append, first 0,
        inductionHypothesis _ fun entry member i => others entry member (i + 1)]
      rfl

/-- A located request is packed with two bytes too many. -/
theorem packLocatedRequest_length (behind : Nat → BitVec 16) {lr : LocatedRequest}
    (bounds : lr.WithinBounds) : (packLocatedRequest behind lr).length = lr.wireSize + 2 := by
  have hbids := bounds.count
  have all : lr.dnLocs.take lr.nrDnLocs.toInt.toNat = lr.dnLocs :=
    List.take_of_length_le (by rw [bounds.locations]; omega)
  have locations := sum_mapIdx_length (fun i => packDatanodeLocation (behind i))
    fun dnLoc member i => packDatanodeLocation_length (behind i) (bounds.dnLocs dnLoc member)
  simp only [packLocatedRequest, packDatanodeLocations, all, List.length_append, wordBytes_length,
    longBytes_length, arrayEntries_length, locations, LocatedRequest.wireSize]
  omega

theorem packMetadataResponse_length (behind : Nat → Nat → BitVec 16)
    {body : QueryMetadataResponse} (bounds : body.WithinBounds) :
    (packMetadataResponse behind body).length =
      28 + (body.lrs.map LocatedRequest.wireSize).sum + 2 * body.lrs.length := by
  have all : body.lrs.take body.nrLRs = body.lrs :=
    List.take_of_length_le (Nat.le_of_eq bounds.count.symm)
  have requests := sum_mapIdx_length (fun i => packLocatedRequest (behind i))
    fun lr member i => packLocatedRequest_length (behind i) (bounds.lrs lr member)
  have twice : (body.lrs.map fun lr => lr.wireSize + 2).sum =
      (body.lrs.map LocatedRequest.wireSize).sum + 2 * body.lrs.length := by
    rw [List.sum_map_add]
    simp [Nat.mul_comm]
  simp only [packMetadataResponse, packLocatedRequests, all, List.length_append, wordBytes_length,
    requests, twice]
  omega

end Size

section Never

variable {grants : Allocations} {behind : Nat → Nat → BitVec 16} {body : QueryMetadataResponse}
  {attempts : Nat}

/-- No bytes in front of any buffer are taken for all of a packed response with its fields. -/
theorem packMetadataResponse_not_taken (bounds : body.WithinBounds) {buf : Bytes}
    (short : buf.length < 2 ^ 31) {seen : QueryMetadataResponse} {attempts' : Nat}
    (parsed : parseMetadataResponse grants buf attempts =
      .ok (seen, (packMetadataResponse behind body).length, attempts'))
    (same : SameResponse body seen) : False := by
  obtain ⟨msg, readable, -, -, rfl, code, -⟩ := (parseMetadataResponse_eq_ok short).mp parsed
  have packed := packMetadataResponse_length behind bounds
  have some := List.length_pos_iff.mpr bounds.some
  have accepted : msg.Accepted := by
    by_contra rejected
    rw [if_neg rejected] at code
    omega
  have filled := readable.reached.length_eq accepted.2
  have sizes := map_eq_of_forall₂ same.lrs fun _ _ => SameRequest.wireSize
  rw [ResponseMsg.decoded, filled, Nat.sub_self, List.replicate_zero, List.append_nil] at sizes
  rw [if_pos accepted, packed, sizes, LRMsg.wireSize_decodedFrom, msg.bytes_length] at code
  omega

/-- Whatever lies on the stack, parsing never gets back what was packed. -/
theorem packMetadataResponse_never_round_trips (grants : Allocations)
    (behind : Nat → Nat → BitVec 16) (body : QueryMetadataResponse) (attempts : Nat)
    (bounds : body.WithinBounds) : ¬ RoundTrips grants behind body attempts := by
  rintro ⟨seen, attempts', parsed, same⟩
  have short : (packMetadataResponse behind body).length < 2 ^ 31 := by
    have bound := parseMetadataResponse_retcode_lt parsed
    omega
  exact packMetadataResponse_not_taken bounds short parsed same

def samplePacked : QueryMetadataResponse :=
  ⟨1, 0, 0, 5, 1, [{ LocatedRequest.zero with
    nrDnLocs := 1, dnLocs := [{ DatanodeLocation.zero with ip := 7, port := 9 }] }]⟩

theorem samplePacked_withinBounds : samplePacked.WithinBounds := by
  refine ⟨rfl, nofun, ?_⟩
  rintro lr (_ | ⟨_, none⟩)
  · refine ⟨rfl, by decide, rfl, rfl, nofun, ?_⟩
    rintro dnLoc (_ | ⟨_, none⟩)
    · exact ⟨rfl, by decide⟩
    · cases none
  · cases none

theorem packMetadataResponse_never_example :
    ¬ RoundTrips (fun _ => true) (fun _ _ => 0) samplePacked 0 :=
  packMetadataResponse_never_round_trips _ _ _ _ samplePacked_withinBounds

/-- The parser takes 44 of the 46 bytes, and a wrong address. -/
theorem packMetadataResponse_misread :
    ¬ ∀ (grants : Allocations) (behind : Nat → Nat → BitVec 16) (body : QueryMetadataResponse)
      (attempts : Nat), body.WithinBounds → RoundTrips grants behind body attempts := by
  intro all
  obtain ⟨seen, attempts', parsed, -⟩ :=
    all (fun _ => true) (fun _ _ => 0) samplePacked 0 samplePacked_withinBounds
  have taken : (parseMetadataResponse (fun _ => true)
      (packMetadataResponse (fun _ _ => 0) samplePacked) 0).map (fun result => result.2.1) =
      .ok 44 := by decide +kernel
  rw [parsed] at taken
  have length : (packMetadataResponse (fun _ _ => 0) samplePacked).length = 46 := by decide +kernel
  rw [length] at taken
  cases taken

end Never

end DmsBlkdev
