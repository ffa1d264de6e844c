import DmsBlkdev.Namenode.Protocol

/-!
# Well-formed responses

In a well-formed response every count is the length of its list.  The parser
accepts such a response when it has located requests and none of them is
without locations; in the other cases the return code is that of a failure.
-/

namespace DmsBlkdev

open Lib.Wire

/-- The counts are the lengths of the lists, and no array is too short. -/
structure LocationMsg.WellFormed (msg : LocationMsg) : Prop where
  count : msg.nrTriplets.toNat = msg.triplets.length
  room : msg.triplets.length ≤ arrayLength

structure LRMsg.WellFormed (msg : LRMsg) : Prop where
  hbids : msg.nrHBIDs.toNat = msg.hbids.length
  room : msg.hbids.length ≤ arrayLength
  count : msg.nrDnLocs.toNat = msg.locs.length
  locs : ∀ loc ∈ msg.locs, loc.WellFormed

def LRMsg.blocks (msgs : List LRMsg) : Nat := (msgs.map fun msg => msg.hbids.length).sum

structure ResponseMsg.WellFormed (msg : ResponseMsg) : Prop where
  count : msg.nrLRs.toNat = msg.lrs.length
  lrs : ∀ lr ∈ msg.lrs, lr.WellFormed
  blocks : LRMsg.blocks msg.lrs ≤ 32767

/-- What the response says: each located request begins where the ones before it end. -/
def ResponseMsg.encoded (msg : ResponseMsg) : QueryMetadataResponse :=
  ⟨msg.volumeID, msg.startLBID, msg.nrLBIDs, msg.commitID, msg.lrs.length,
    msg.lrs.mapIdx fun i lr =>
      lr.decoded (msg.startLBID + BitVec.ofNat 64 (LRMsg.blocks (msg.lrs.take i)))⟩

theorem LocationMsg.WellFormed.fits {msg : LocationMsg} (wellFormed : msg.WellFormed) :
    msg.Fits := by
  obtain ⟨count, room⟩ := wellFormed
  refine ⟨?_, room⟩
  have small : msg.nrTriplets.toNat ≤ 16 := by rwa [count]
  rw [BitVec.toInt_setWidth, count, Int.bmod_eq_of_le] <;> omega

theorem LRMsg.WellFormed.fits {msg : LRMsg} (wellFormed : msg.WellFormed)
    (few : msg.locs.length < 2 ^ 15) : msg.Fits := by
  obtain ⟨hbids, room, count, locs⟩ := wellFormed
  have small : msg.nrHBIDs.toNat ≤ 16 := by rwa [hbids]
  refine ⟨?_, room, ?_, fun loc member => (locs loc member).fits⟩
  · rw [BitVec.toInt_eq_toNat_of_lt (by omega), Int.toNat_natCast, hbids]
  · rw [BitVec.toInt_eq_toNat_of_lt (by omega), Int.toNat_natCast, count]

theorem LRMsg.blocks_cons {msg : LRMsg} {rest : List LRMsg} :
    LRMsg.blocks (msg :: rest) = msg.hbids.length + LRMsg.blocks rest := by
  rw [LRMsg.blocks, List.map_cons, List.sum_cons]
  rfl

/-- The running offset of the parser is the number of blocks so far. -/
theorem LRMsg.decodedFrom_eq_mapIdx {slbid : BitVec 64} {before : Nat} {msgs : List LRMsg}
    (wellFormed : ∀ msg ∈ msgs, msg.WellFormed) (bound : before + LRMsg.blocks msgs ≤ 32767) :
    LRMsg.decodedFrom slbid (BitVec.ofNat 16 before) msgs =
      msgs.mapIdx fun i msg =>
        msg.decoded (slbid + BitVec.ofNat 64 (before + LRMsg.blocks (msgs.take i))) := by
  induction msgs generalizing before with
  | nil => rfl
  | cons msg rest inductionHypothesis =>
      obtain ⟨first, wellFormedRest⟩ := List.forall_mem_cons.mp wellFormed
      rw [LRMsg.blocks_cons, ← Nat.add_assoc] at bound
      have extended : (BitVec.ofNat 16 before).signExtend 64 = BitVec.ofNat 64 before := by
        apply BitVec.eq_of_toInt_eq
        rw [BitVec.toInt_signExtend_of_le (by decide), BitVec.toInt_ofNat', BitVec.toInt_ofNat',
          Int.bmod_eq_of_le, Int.bmod_eq_of_le] <;> omega
      have next : BitVec.ofNat 16 before + msg.nrHBIDs =
          BitVec.ofNat 16 (before + msg.hbids.length) := by
        rw [← first.hbids, BitVec.ofNat_add, BitVec.ofNat_toNat, BitVec.setWidth_eq]
      rw [LRMsg.decodedFrom, next, inductionHypothesis wellFormedRest bound, extended,
        List.mapIdx_cons, List.take_zero]
      simp only [List.take_succ_cons, LRMsg.blocks_cons, Nat.add_assoc]
      rfl

theorem LRMsg.mem_decodedFrom {slbid : BitVec 64} {lbidOffset : BitVec 16} {msgs : List LRMsg}
    {lr : LocatedRequest} (member : lr ∈ LRMsg.decodedFrom slbid lbidOffset msgs) :
    ∃ msg ∈ msgs, ∃ start, lr = msg.decoded start := by
  induction msgs generalizing lbidOffset with
  | nil => cases member
  | cons msg rest inductionHypothesis =>
      rcases List.mem_cons.mp member with rfl | behind
      · exact ⟨msg, List.mem_cons_self, _, rfl⟩
      · obtain ⟨other, inRest, start, same⟩ := inductionHypothesis behind
        exact ⟨other, List.mem_cons_of_mem _ inRest, start, same⟩

theorem wrapInt_lt (value : Int) : wrapInt value < 2 ^ 31 := by
  have bound := @Int.bmod_lt value (2 ^ 32) (by decide)
  unfold wrapInt
  omega

section Metadata

variable {grants : Allocations} {msg : ResponseMsg} {attempts : Nat}

theorem parseMetadataResponse_retcode_lt {buf : Bytes} {response : QueryMetadataResponse}
    {retcode : Int} {attempts' : Nat}
    (parsed : parseMetadataResponse grants buf attempts = .ok (response, retcode, attempts')) :
    retcode < 2 ^ 31 := by
  obtain ⟨_, _, _, _, code, front, -, rfl⟩ := parseMetadataResponse_loop parsed
  by_cases positive : 0 < code
  · rw [if_pos positive]
    exact wrapInt_lt _
  · rw [if_neg positive]
    omega

theorem ResponseMsg.WellFormed.decoded_eq (wellFormed : msg.WellFormed) :
    msg.decoded = msg.encoded := by
  have bound : 0 + LRMsg.blocks msg.lrs ≤ 32767 := by
    rw [Nat.zero_add]
    exact wellFormed.blocks
  have lrs := @LRMsg.decodedFrom_eq_mapIdx msg.startLBID 0 msg.lrs wellFormed.lrs bound
  simp only [Nat.zero_add] at lrs
  rw [decoded, encoded, wellFormed.count, Nat.sub_self, List.replicate_zero, List.append_nil]
  exact congrArg (QueryMetadataResponse.mk _ _ _ _ _) lrs

/-- There are located requests, each with locations that a `short` can count, and the length fits
an `int`. -/
def ResponseMsg.Taken (msg : ResponseMsg) : Prop :=
  msg.lrs ≠ [] ∧ (∀ lr ∈ msg.lrs, 0 < lr.locs.length ∧ lr.locs.length < 2 ^ 15) ∧
    msg.bytes.length < 2 ^ 31

/-- A well-formed response is accepted as it was sent exactly when its counts are taken. -/
theorem parseMetadataResponse_wellFormed_iff (grants : Allocations)
    (granted : ∀ attempt, grants attempt = true) (msg : ResponseMsg)
    (wellFormed : msg.WellFormed) (attempts : Nat) :
    (∃ attempts', parseMetadataResponse grants msg.bytes attempts =
        .ok (msg.encoded, msg.bytes.length, attempts')) ↔ msg.Taken := by
  constructor
  · rintro ⟨attempts', parsed⟩
    have short : msg.bytes.length < 2 ^ 31 := by
      have bound := parseMetadataResponse_retcode_lt parsed
      omega
    obtain ⟨seen, readable, -, -, same, code, -⟩ := (parseMetadataResponse_eq_ok short).mp parsed
    have accepted : seen.Accepted := by
      by_contra rejected
      rw [if_neg rejected, msg.bytes_length] at code
      omega
    have filled := readable.reached.length_eq accepted.2
    have lrs : msg.encoded.lrs = LRMsg.decodedFrom seen.startLBID 0 seen.lrs := by
      rw [same, ResponseMsg.decoded, filled, Nat.sub_self, List.replicate_zero, List.append_nil]
    refine ⟨?_, ?_, short⟩
    · rintro none
      have empty : LRMsg.decodedFrom seen.startLBID 0 seen.lrs = [] := by
        rw [← lrs, ResponseMsg.encoded, none]
        rfl
      cases some : seen.lrs with
      | nil => exact accepted.1 some
      | cons first rest =>
          rw [some] at empty
          cases empty
    · intro lr member
      obtain ⟨i, inside, rfl⟩ := List.getElem_of_mem member
      have decoded : msg.lrs[i].decoded
          (msg.startLBID + BitVec.ofNat 64 (LRMsg.blocks (msg.lrs.take i))) ∈ msg.encoded.lrs :=
        List.mem_mapIdx.mpr ⟨i, inside, rfl⟩
      rw [lrs] at decoded
      obtain ⟨other, inSeen, start, equal⟩ := LRMsg.mem_decodedFrom decoded
      have counts : msg.lrs[i].nrDnLocs = other.nrDnLocs :=
        congrArg LocatedRequest.nrDnLocs equal
      have locs : msg.lrs[i].locs.length = other.locs.length := by
        have tables := congrArg (List.length ∘ LocatedRequest.dnLocs) equal
        simpa [LRMsg.decoded] using tables
      have some : 0 < other.locs.length := List.length_pos_iff.mpr (accepted.2 other inSeen)
      have taken := (readable.fits other inSeen).count
      have bound := @BitVec.toInt_lt 16 other.nrDnLocs
      simp only [Nat.add_one_sub_one] at bound
      omega
  · rintro ⟨some, located, short⟩
    have whole : Located msg.lrs := fun lr member =>
      List.length_pos_iff.mp (located lr member).1
    have reached := reached_of_located whole
    rw [← wellFormed.count] at reached
    have fits : ∀ lr ∈ msg.lrs, lr.Fits := fun lr member =>
      (wellFormed.lrs lr member).fits (located lr member).2
    have stands : Stands msg.bytes 0 msg.bytes := by simpa using stands_self msg.bytes []
    refine ⟨_, (parseMetadataResponse_eq_ok short).mpr ⟨msg, ⟨reached, fits⟩, stands,
      fun k _ => granted _, wellFormed.decoded_eq.symm, ?_, rfl⟩⟩
    rw [if_pos ⟨some, whole⟩]

def sampleResponse : ResponseMsg := ⟨1, 0, 1, 5, 1, [⟨1, 1, [7], 1, [⟨1, 2, 1, [9]⟩]⟩]⟩

theorem sampleResponse_wellFormed : sampleResponse.WellFormed := by
  refine ⟨rfl, ?_, by decide⟩
  rintro lr (_ | ⟨_, none⟩)
  · refine ⟨rfl, by decide, rfl, ?_⟩
    rintro loc (_ | ⟨_, none⟩)
    · exact ⟨rfl, by decide⟩
    · cases none
  · cases none

theorem parseMetadataResponse_wellFormed_example :
    (∃ attempts', parseMetadataResponse (fun _ => true) sampleResponse.bytes 0 =
      .ok (sampleResponse.encoded, sampleResponse.bytes.length, attempts')) ↔
        sampleResponse.Taken :=
  parseMetadataResponse_wellFormed_iff _ (fun _ => rfl) _ sampleResponse_wellFormed 0

/-- A located request that is not allocated yet has no locations; its response is rejected. -/
theorem parseMetadataResponse_rejects_wellFormed :
    ¬ ∀ (grants : Allocations), (∀ attempt, grants attempt = true) → ∀ msg : ResponseMsg,
      msg.WellFormed → ∀ attempts, ∃ attempts',
        parseMetadataResponse grants msg.bytes attempts =
          .ok (msg.encoded, msg.bytes.length, attempts') := by
  intro all
  let msg : ResponseMsg := ⟨1, 0, 1, 5, 1, [⟨0, 1, [7], 0, []⟩]⟩
  have wellFormed : msg.WellFormed := by
    refine ⟨rfl, ?_, by decide⟩
    rintro lr (_ | ⟨_, none⟩)
    · exact ⟨rfl, by decide, rfl, nofun⟩
    · cases none
  obtain ⟨attempts', accepted⟩ := all (fun _ => true) (fun _ => rfl) msg wellFormed 0
  have rejected : parseMetadataResponse (fun _ => true) msg.bytes 0 =
      .ok (msg.encoded, 0, 2) := by decide +kernel
  rw [rejected] at accepted
  cases accepted

end Metadata

end DmsBlkdev
