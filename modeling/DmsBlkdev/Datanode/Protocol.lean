import DmsBlkdev.Namenode.Pack
import DmsBlkdev.Payload.Translate
import DmsBlkdev.Protocol.Header

/-!
# The request to a datanode

The body of a request is put together in a structure that is not packed: the
array of 64-bit ids begins at offset 8, four bytes behind the two counts.  The
length that is returned and sent adds up the sizes of the fields.
-/

namespace DmsBlkdev

open Lib.Wire Lib.ByteOrder

/-- `sizeof(union DN_Protocol_Body)`. -/
def dnProtocolBodySize : Nat := 264

/-- The offset of `rw_req.nr_triplets`. -/
def nrTripletsOffset : Nat := 2

/-- The offset of `rw_req.hbids`: behind the counts, aligned to 8. -/
def hbidsOffset : Nat := 8

/-- The loop of `__Pack_HBIDs` and of `__Pack_Triplets`. -/
def packLongs (raw : Bytes) (buf : Int) : List (BitVec 64) → Option Bytes
  | [] => some raw
  | value :: rest =>
      (store raw buf (hostBytes 8 (htonll value))).bind fun raw => packLongs raw (buf + 8) rest

/-- `__Pack_HBIDs`: the body after it, and the length. -/
def packHBIDs (raw : Bytes) (buf : Int) (nrHBIDs : BitVec 16) (hbids : List (BitVec 64)) :
    Option (Bytes × Int) :=
  (packLongs raw buf (arrayEntries hbids nrHBIDs)).map (·, 8 * nrHBIDs.toInt)

/-- `__Pack_Triplets`. -/
def packTriplets (raw : Bytes) (buf : Int) (nrTriplets : BitVec 16) (triplets : List (BitVec 64)) :
    Option (Bytes × Int) :=
  (packLongs raw buf (arrayEntries triplets nrTriplets)).map (·, 8 * nrTriplets.toInt)

/-- `Generate_DN_Request_Body`: the body and the length; nothing comes of a write that leaves the
body.  A pointer that is not legal is `none`. -/
def generateDNRequestBody (sreq : DNServiceRequest) (body : Option Bytes) :
    Option (Option Bytes × Int) :=
  match body with
  | none => some (none, 0)
  | some _ => do
      let body := List.replicate dnProtocolBodySize 0
      let body ← store body 0 (hostBytes 2 (htons sreq.nrHBIDs))
      let body ← store body nrTripletsOffset (hostBytes 2 (htons sreq.nrTriplets))
      let buf : Int := hbidsOffset
      let (body, hbidsLen) ← packHBIDs body buf sreq.nrHBIDs sreq.hbids
      let buf := buf + 8 * sreq.nrHBIDs.toInt
      let (body, tripletsLen) ← packTriplets body buf sreq.nrTriplets sreq.triplets
      return (some body, 2 + 2 + hbidsLen + tripletsLen)

/-- What `Generate_Request_of_Datanode` leaves in the header, the body and the tag, and its return
code. -/
structure MadeRequest where
  header : DMSProtocolHeader
  body : Bytes
  retryCount : BitVec 32
  dnrid : BitVec 64
  dnphIdGen : BitVec 64
  retcode : Int

/-- `Generate_Request_of_Datanode`, for pointers that are legal. -/
def generateRequestOfDatanode (dmeta : BitVec 64) (op : BitVec 8) (sreq : DNServiceRequest)
    (getCurrentUs : Fin 8 → BitVec 64) (made : MadeRequest) : Option MadeRequest :=
  match generateDNRequestBody sreq (some made.body) with
  | some (some body, retcode) =>
      if retcode < 0 then some { made with body, retcode }
      else
        match generateDNProtocolHeader (some made.header) (made.retryCount.setWidth 8)
          (op.signExtend 16) (BitVec.ofInt 32 retcode) dmeta made.dnphIdGen getCurrentUs with
        | (some header, retcode, dnphIdGen) =>
            some ⟨header, body, made.retryCount + 1, header.serviceID, dnphIdGen, retcode⟩
        | (none, retcode, dnphIdGen) => some { made with body, retcode, dnphIdGen }
  | some (none, retcode) => some { made with retcode }
  | none => none

/-- The request as a datanode is to get it. -/
def DNServiceRequest.bytes (sreq : DNServiceRequest) : Bytes :=
  wordBytes 2 sreq.nrHBIDs ++ wordBytes 2 sreq.nrTriplets ++
    longBytes (arrayEntries sreq.hbids sreq.nrHBIDs) ++
    longBytes (arrayEntries sreq.triplets sreq.nrTriplets)

def DNServiceRequest.ids (sreq : DNServiceRequest) : List (BitVec 64) :=
  arrayEntries sreq.hbids sreq.nrHBIDs ++ arrayEntries sreq.triplets sreq.nrTriplets

structure DNServiceRequest.Fits (sreq : DNServiceRequest) : Prop where
  nrHBIDs : 0 ≤ sreq.nrHBIDs.toInt ∧ sreq.nrHBIDs.toInt ≤ arrayLength
  nrTriplets : 0 ≤ sreq.nrTriplets.toInt ∧ sreq.nrTriplets.toInt ≤ arrayLength

section Pack

theorem packLongs_between (values : List (BitVec 64)) {before old behind : Bytes}
    (size : old.length = 8 * values.length) :
    packLongs (before ++ old ++ behind) before.length values =
      some (before ++ longBytes values ++ behind) := by
  induction values generalizing before old with
  | nil =>
      obtain rfl : old = [] := List.length_eq_zero_iff.mp size
      simp [packLongs, longBytes]
  | cons value rest inductionHypothesis =>
      have first : (old.take 8).length = (hostBytes 8 (htonll value)).length := by
        simp only [List.length_take, hostBytes_length, List.length_cons] at size ⊢
        omega
      have others : (old.drop 8).length = 8 * rest.length := by
        simp only [List.length_drop, List.length_cons] at size ⊢
        omega
      have split : before ++ old ++ behind = before ++ old.take 8 ++ (old.drop 8 ++ behind) := by
        simp only [List.append_assoc, ← List.append_assoc (old.take 8), List.take_append_drop]
      have next : (before.length : Int) + 8 = (before ++ wordBytes 8 value).length := by simp
      rw [packLongs, split, store_between first, Option.bind_some, htonll_reverses, next,
        ← List.append_assoc, inductionHypothesis others]
      simp only [longBytes, List.flatMap_cons, List.append_assoc]

end Pack

section Body

variable {sreq : DNServiceRequest}

theorem longBytes_append (first second : List (BitVec 64)) :
    longBytes (first ++ second) = longBytes first ++ longBytes second := by
  simp only [longBytes, List.flatMap_append]

theorem DNServiceRequest.bytes_eq (sreq : DNServiceRequest) :
    sreq.bytes = wordBytes 2 sreq.nrHBIDs ++ wordBytes 2 sreq.nrTriplets ++ longBytes sreq.ids := by
  rw [DNServiceRequest.bytes, DNServiceRequest.ids, longBytes_append,
    List.append_assoc _ (longBytes _)]

theorem DNServiceRequest.Fits.ids_length (fits : sreq.Fits) :
    (sreq.ids.length : Int) = sreq.nrHBIDs.toInt + sreq.nrTriplets.toInt := by
  have nrHBIDs := fits.nrHBIDs.1
  have nrTriplets := fits.nrTriplets.1
  simp only [DNServiceRequest.ids, List.length_append, arrayEntries_length]
  omega

def DNServiceRequest.counted (sreq : DNServiceRequest) : Bytes :=
  wordBytes 2 sreq.nrHBIDs ++ wordBytes 2 sreq.nrTriplets ++ List.replicate 4 0

theorem DNServiceRequest.counted_length (sreq : DNServiceRequest) :
    sreq.counted.length = hbidsOffset := by
  simp [DNServiceRequest.counted, hbidsOffset]

theorem store_counts (sreq : DNServiceRequest) :
    (store (List.replicate dnProtocolBodySize 0) 0 (hostBytes 2 (htons sreq.nrHBIDs))).bind
      (store · nrTripletsOffset (hostBytes 2 (htons sreq.nrTriplets))) =
      some (sreq.counted ++ List.replicate 256 0) := by
  have first := @store_between [] (List.replicate 2 0) (wordBytes 2 sreq.nrHBIDs)
    (List.replicate 262 0) (by simp)
  have second := @store_between (wordBytes 2 sreq.nrHBIDs) (List.replicate 2 0)
    (wordBytes 2 sreq.nrTriplets) (List.replicate 260 0) (by simp)
  simp only [List.nil_append, List.append_assoc, List.replicate_append_replicate, Nat.reduceAdd,
    List.length_nil, Nat.cast_zero, wordBytes_length] at first second
  rw [htons_reverses, htons_reverses, dnProtocolBodySize, first, Option.bind_some, nrTripletsOffset,
    second]
  simp only [DNServiceRequest.counted, List.append_assoc, List.replicate_append_replicate,
    Nat.reduceAdd]

theorem packLongs_zeros {before : Bytes} {buf : Int} (values : List (BitVec 64)) {room : Nat}
    (place : buf = before.length) (fits : 8 * values.length ≤ room) :
    packLongs (before ++ List.replicate room 0) buf values =
      some (before ++ longBytes values ++ List.replicate (room - 8 * values.length) 0) := by
  have split : before ++ List.replicate room 0 = before ++ List.replicate (8 * values.length) 0 ++
      List.replicate (room - 8 * values.length) (0 : BitVec 8) := by
    rw [List.append_assoc, List.replicate_append_replicate, Nat.add_sub_cancel' fits]
  rw [split, place, packLongs_between values (by simp)]

def DNServiceRequest.bodyLength (sreq : DNServiceRequest) : Int := 4 + 8 * sreq.ids.length

/-- The ids lie behind the counts and the gap, and zeros to the end. -/
theorem generateDNRequestBody_eq (fits : sreq.Fits) (raw : Bytes) :
    generateDNRequestBody sreq (some raw) =
      some (some (sreq.counted ++ longBytes sreq.ids ++
        List.replicate (256 - 8 * sreq.ids.length) 0),
        sreq.bodyLength) := by
  have size := fits.ids_length
  obtain ⟨⟨hbidsPositive, hbidsSmall⟩, ⟨tripletsPositive, tripletsSmall⟩⟩ := fits
  have hbids := arrayEntries_length sreq.hbids sreq.nrHBIDs
  have triplets := arrayEntries_length sreq.triplets sreq.nrTriplets
  simp only [arrayLength] at hbidsSmall tripletsSmall
  have counts := store_counts sreq
  have first : packLongs (sreq.counted ++ List.replicate 256 0) hbidsOffset
      (arrayEntries sreq.hbids sreq.nrHBIDs) = some (sreq.counted ++
        longBytes (arrayEntries sreq.hbids sreq.nrHBIDs) ++
        List.replicate (256 - 8 * sreq.nrHBIDs.toInt.toNat) 0) := by
    rw [packLongs_zeros _ (by rw [sreq.counted_length]) (by omega), hbids]
  have second : packLongs (sreq.counted ++ longBytes (arrayEntries sreq.hbids sreq.nrHBIDs) ++
        List.replicate (256 - 8 * sreq.nrHBIDs.toInt.toNat) 0)
      (hbidsOffset + 8 * sreq.nrHBIDs.toInt) (arrayEntries sreq.triplets sreq.nrTriplets) =
        some (sreq.counted ++ longBytes sreq.ids ++
          List.replicate (256 - 8 * sreq.ids.length) 0) := by
    have place : (hbidsOffset : Int) + 8 * sreq.nrHBIDs.toInt =
        (sreq.counted ++ longBytes (arrayEntries sreq.hbids sreq.nrHBIDs)).length := by
      rw [List.length_append, sreq.counted_length, longBytes_length, hbids]
      omega
    rw [packLongs_zeros _ place (by omega), triplets, DNServiceRequest.ids, longBytes_append,
      List.length_append, hbids, triplets, ← List.append_assoc, Nat.sub_sub, ← Nat.mul_add]
  have length : 2 + 2 + 8 * sreq.nrHBIDs.toInt + 8 * sreq.nrTriplets.toInt =
      sreq.bodyLength := by
    rw [DNServiceRequest.bodyLength]
    omega
  obtain ⟨body, nrHBIDsStored, nrTripletsStored⟩ := Option.bind_eq_some_iff.mp counts
  simp only [generateDNRequestBody, packHBIDs, packTriplets, Option.bind_eq_bind, nrHBIDsStored,
    nrTripletsStored, first, second, Option.bind_some, Option.map_some, length]
  rfl

end Body

/-- Bytes that are moved by a gap and cut to their length are the same when they are all like the
gap. -/
theorem take_gap_eq_iff {gap : Nat} (positive : 0 < gap) (bytes : Bytes) :
    (List.replicate gap 0 ++ bytes).take bytes.length = bytes ↔ ∀ byte ∈ bytes, byte = 0 := by
  constructor
  · intro same
    have each : ∀ place (inside : place < bytes.length), bytes[place] = 0 := by
      intro place
      induction place using Nat.strong_induction_on with
      | _ place inductionHypothesis =>
          intro inside
          have moved : (List.replicate gap 0 ++ bytes)[place]? = bytes[place]? := by
            rw [← List.getElem?_take_of_lt inside, same]
          rw [List.getElem?_eq_getElem inside] at moved
          by_cases early : place < gap
          · rw [List.getElem?_append_left (by simpa using early),
              List.getElem?_replicate_of_lt early] at moved
            exact (Option.some.inj moved).symm
          · have earlier : place - gap < bytes.length := by omega
            rw [List.getElem?_append_right (by simpa using early), List.length_replicate,
              List.getElem?_eq_getElem earlier] at moved
            rw [← Option.some.inj moved]
            exact inductionHypothesis _ (by omega) earlier
    intro byte member
    obtain ⟨place, inside, rfl⟩ := List.getElem_of_mem member
    exact each place inside
  · intro zero
    have zeros : bytes = List.replicate bytes.length 0 := List.eq_replicate_of_mem zero
    rw [zeros, List.replicate_append_replicate, List.length_replicate, List.take_replicate]
    congr 1
    omega

theorem longBytes_zero_iff (values : List (BitVec 64)) :
    (∀ byte ∈ longBytes values, byte = 0) ↔ ∀ value ∈ values, value = 0 := by
  constructor
  · intro zero value member
    have bytes : wordBytes 8 value = wordBytes 8 0 := by
      apply List.eq_replicate_of_mem
      intro byte inside
      exact zero byte (List.mem_flatMap.mpr ⟨value, member, inside⟩)
    rw [← htonll_reverses.received value, bytes, htonll_reverses.received]
  · intro zero byte member
    obtain ⟨value, inside, found⟩ := List.mem_flatMap.mp member
    rw [zero value inside] at found
    exact (List.mem_replicate (n := 8)).mp found |>.2

section Request

variable {sreq : DNServiceRequest}

theorem take_body_iff (sreq : DNServiceRequest) (behind : Bytes) :
    (sreq.counted ++ longBytes sreq.ids ++ behind).take (4 + 8 * sreq.ids.length) = sreq.bytes ↔
      ∀ id ∈ sreq.ids, id = 0 := by
  rw [← longBytes_zero_iff, ← take_gap_eq_iff (Nat.succ_pos 3), sreq.bytes_eq,
    DNServiceRequest.counted, ← longBytes_length]
  generalize counted : wordBytes 2 sreq.nrHBIDs ++ wordBytes 2 sreq.nrTriplets = counts
  have size : counts.length = 4 := by simp [← counted]
  have long : (longBytes sreq.ids).length ≤ (List.replicate 4 0 ++ longBytes sreq.ids).length := by
    simp only [List.length_append]
    exact Nat.le_add_left _ _
  have split : counts ++ List.replicate 4 0 ++ longBytes sreq.ids ++ behind =
      counts ++ ((List.replicate 4 0 ++ longBytes sreq.ids) ++ behind) := by
    simp only [List.append_assoc]
  rw [split, ← size, List.take_length_add_append, size, List.take_append_of_le_length long]
  exact List.append_right_inj _

theorem DNServiceRequest.bodyLength_toNat (sreq : DNServiceRequest) :
    sreq.bodyLength.toNat = 4 + 8 * sreq.ids.length := by
  rw [DNServiceRequest.bodyLength]
  omega

/-- The header says the length of the body, and the first bytes of the body up to that length are
the request. -/
def MadeRequest.Carries (made : MadeRequest) (sreq : DNServiceRequest) (len : Int) : Prop :=
  Stands made.header.image 12 (wordBytes 4 (BitVec.ofInt 32 len)) ∧
    made.body.take len.toNat = sreq.bytes

theorem MadeRequest.Carries.zero {made : MadeRequest} {len : Int} {raw : Bytes} (fits : sreq.Fits)
    (generated : generateDNRequestBody sreq (some raw) = some (some made.body, len))
    (carries : made.Carries sreq len) : ∀ id ∈ sreq.ids, id = 0 := by
  have result := generateDNRequestBody_eq fits raw
  rw [generated] at result
  obtain ⟨body, length⟩ := Prod.mk.inj (Option.some.inj result)
  have taken := carries.2
  rw [Option.some.inj body, length, sreq.bodyLength_toNat] at taken
  exact (take_body_iff sreq _).mp taken

theorem generateRequestOfDatanode_eq (fits : sreq.Fits) (dmeta : BitVec 64) (op : BitVec 8)
    (getCurrentUs : Fin 8 → BitVec 64) (before : MadeRequest) :
    ∃ made, generateRequestOfDatanode dmeta op sreq getCurrentUs before = some made ∧
      made.body = sreq.counted ++ longBytes sreq.ids ++
        List.replicate (256 - 8 * sreq.ids.length) 0 ∧
      Stands made.header.image 12 (wordBytes 4 (BitVec.ofInt 32 sreq.bodyLength)) := by
  have positive : ¬ sreq.bodyLength < 0 := by
    rw [DNServiceRequest.bodyLength]
    omega
  have generated := generateDNRequestBody_eq fits before.body
  obtain ⟨header, headerMade, stands⟩ := DMSProtocolHeader.generateDNProtocolHeader_bodyLength
    (before.retryCount.setWidth 8) (op.signExtend 16) (BitVec.ofInt 32 sreq.bodyLength) dmeta
    getCurrentUs before.header before.dnphIdGen
  refine ⟨⟨header, _, before.retryCount + 1, header.serviceID, before.dnphIdGen + 1, headerSize⟩,
    ?_, rfl, stands⟩
  unfold generateRequestOfDatanode
  rw [generated]
  simp only [if_neg positive, headerMade]

/-- The datanode is sent what the tag asks for exactly when every id in the request is zero. -/
theorem generateRequestOfDatanode_carries_iff (fits : sreq.Fits) (dmeta : BitVec 64) (op : BitVec 8)
    (getCurrentUs : Fin 8 → BitVec 64) (before : MadeRequest) :
    (∃ made len, generateRequestOfDatanode dmeta op sreq getCurrentUs before = some made ∧
      generateDNRequestBody sreq (some before.body) = some (some made.body, len) ∧
      made.Carries sreq len) ↔
    ∀ id ∈ sreq.ids, id = 0 := by
  constructor
  · rintro ⟨made, len, _, generated, carries⟩
    exact carries.zero fits generated
  · intro zero
    obtain ⟨made, done, body, stands⟩ :=
      generateRequestOfDatanode_eq fits dmeta op getCurrentUs before
    refine ⟨made, _, done, body ▸ generateDNRequestBody_eq fits before.body, stands, ?_⟩
    rw [body, sreq.bodyLength_toNat]
    exact (take_body_iff sreq _).mpr zero

end Request

def MadeRequest.initial : MadeRequest := ⟨.plain queryForWrite service 0, [], 0, 0, 1, 0⟩

/-- A request for two blocks with a triplet each. -/
theorem generateRequestOfDatanode_carries_example :
    ¬ ∃ made len, generateRequestOfDatanode 0 1 ⟨2, 2, [7, 8], [9, 10]⟩ (fun _ => 0) .initial =
        some made ∧
      generateDNRequestBody ⟨2, 2, [7, 8], [9, 10]⟩ (some MadeRequest.initial.body) =
        some (some made.body, len) ∧
      made.Carries ⟨2, 2, [7, 8], [9, 10]⟩ len := by
  have fits : DNServiceRequest.Fits ⟨2, 2, [7, 8], [9, 10]⟩ := ⟨by decide, by decide⟩
  intro carried
  have zero := (generateRequestOfDatanode_carries_iff fits 0 1 (fun _ => 0) .initial).mp carried
  exact absurd (zero 7 (by decide)) (by decide)

/-- A request for the block 7 begins with a gap and loses the last bytes of the id. -/
theorem generateRequestOfDatanode_cut :
    ¬ ∀ (sreq : DNServiceRequest) (dmeta : BitVec 64) (op : BitVec 8)
      (getCurrentUs : Fin 8 → BitVec 64) (before : MadeRequest), sreq.Fits →
      ∃ made len, generateRequestOfDatanode dmeta op sreq getCurrentUs before = some made ∧
        generateDNRequestBody sreq (some before.body) = some (some made.body, len) ∧
        made.Carries sreq len := by
  intro all
  have fits : DNServiceRequest.Fits ⟨1, 0, [7], []⟩ := ⟨by decide, by decide⟩
  obtain ⟨made, len, _, generated, carries⟩ := all _ 0 1 (fun _ => 0) .initial fits
  exact absurd (carries.zero fits generated 7 (by decide)) (by decide)

end DmsBlkdev
