import DmsBlkdev.Namenode.Response

/-!
# The protocol of the namenode

A message is a header of 40 bytes and a body.  The dispatch hands the body of a
query to the parser of metadata responses when the sub-type is not the one of
a response; whether the parser then stays inside the body depends on what the
body begins with.
-/

namespace DmsBlkdev

open Lib.Wire

/-- `struct DMS_Protocol_Header`. -/
structure DMSProtocolHeader where
  magicNumber : BitVec 32
  version : BitVec 8
  retry : BitVec 8
  senderType : BitVec 8
  reserve : BitVec 8
  serviceType : BitVec 16
  subType : BitVec 16
  bodyLength : BitVec 32
  serviceID : BitVec 64
  timeStamp : BitVec 64
  extention : BitVec 64
  deriving DecidableEq, Repr

/-- `MAGIC_NUM`. -/
def magicNum : BitVec 32 := 0xa5a5a5a5

/-- `sizeof(struct DMS_Protocol_Header)`. -/
def headerSize : Nat := 40

/-- The sub-type `SERVICE`. -/
def service : BitVec 16 := 1

/-- The sub-type `RESPONSE`. -/
def response : BitVec 16 := 2

def queryForRead : BitVec 16 := 0
def queryForWrite : BitVec 16 := 1
def queryForOverwrite : BitVec 16 := 2

def IsQuery (serviceType : BitVec 16) : Prop :=
  serviceType = queryForRead ∨ serviceType = queryForWrite ∨ serviceType = queryForOverwrite

instance : DecidablePred IsQuery := fun _ => inferInstanceAs (Decidable (_ ∨ _ ∨ _))

namespace DMSProtocolHeader

def bytes (header : DMSProtocolHeader) : Bytes :=
  wordBytes 4 header.magicNumber ++ wordBytes 1 header.version ++ wordBytes 1 header.retry ++
    wordBytes 1 header.senderType ++ wordBytes 1 header.reserve ++
    wordBytes 2 header.serviceType ++ wordBytes 2 header.subType ++
    wordBytes 4 header.bodyLength ++ wordBytes 8 header.serviceID ++
    wordBytes 8 header.timeStamp ++ wordBytes 8 header.extention

@[simp] theorem bytes_length (header : DMSProtocolHeader) : header.bytes.length = headerSize := by
  simp [bytes, headerSize]

end DMSProtocolHeader

/-- The buffer holds every field of the header in network order, each at its offset. -/
structure DMSProtocolHeader.StandsIn (header : DMSProtocolHeader) (raw : Bytes) : Prop where
  magicNumber : Stands raw 0 (wordBytes 4 header.magicNumber)
  version : Stands raw 4 (wordBytes 1 header.version)
  retry : Stands raw 5 (wordBytes 1 header.retry)
  senderType : Stands raw 6 (wordBytes 1 header.senderType)
  reserve : Stands raw 7 (wordBytes 1 header.reserve)
  serviceType : Stands raw 8 (wordBytes 2 header.serviceType)
  subType : Stands raw 10 (wordBytes 2 header.subType)
  bodyLength : Stands raw 12 (wordBytes 4 header.bodyLength)
  serviceID : Stands raw 16 (wordBytes 8 header.serviceID)
  timeStamp : Stands raw 24 (wordBytes 8 header.timeStamp)
  extention : Stands raw 32 (wordBytes 8 header.extention)

theorem DMSProtocolHeader.bytes_standsIn (header : DMSProtocolHeader) :
    header.StandsIn header.bytes := by
  have stands : Stands header.bytes 0 header.bytes := by simpa using stands_self header.bytes []
  conv at stands => rhs; rw [DMSProtocolHeader.bytes]
  simp only [stands_append, List.length_append, wordBytes_length, Nat.zero_add, Nat.reduceAdd]
    at stands
  obtain ⟨⟨⟨⟨⟨⟨⟨⟨⟨⟨magic, version⟩, retry⟩, sender⟩, reserve⟩, serviceType⟩, subType⟩, bodyLength⟩,
    serviceID⟩, timeStamp⟩, extention⟩ := stands
  exact ⟨magic, version, retry, sender, reserve, serviceType, subType, bodyLength, serviceID,
    timeStamp, extention⟩

def headerField (width : Nat) (raw : Bytes) (offset : Nat) : BitVec (8 * width) :=
  (read width raw offset).getD 0

theorem headerField_eq {width : Nat} (positive : 0 < width) {raw : Bytes} {offset : Nat}
    {word : BitVec (8 * width)} (stands : Stands raw offset (wordBytes width word)) :
    headerField width raw offset = word := by
  rw [headerField, (read_eq_some_iff positive).mpr stands]
  rfl

/-- `Parse_DMS_Protocol_Header`, from the bytes received into the header. -/
def parseDMSProtocolHeader (raw : Bytes) : DMSProtocolHeader where
  magicNumber := headerField 4 raw 0
  version := headerField 1 raw 4
  retry := headerField 1 raw 5
  senderType := headerField 1 raw 6
  reserve := headerField 1 raw 7
  serviceType := headerField 2 raw 8
  subType := headerField 2 raw 10
  bodyLength := headerField 4 raw 12
  serviceID := headerField 8 raw 16
  timeStamp := headerField 8 raw 24
  extention := headerField 8 raw 32

theorem DMSProtocolHeader.StandsIn.parse {header : DMSProtocolHeader} {raw : Bytes}
    (stands : header.StandsIn raw) : parseDMSProtocolHeader raw = header := by
  simp only [parseDMSProtocolHeader, headerField_eq (Nat.succ_pos _) stands.magicNumber,
    headerField_eq (Nat.succ_pos _) stands.version, headerField_eq (Nat.succ_pos _) stands.retry,
    headerField_eq (Nat.succ_pos _) stands.senderType,
    headerField_eq (Nat.succ_pos _) stands.reserve,
    headerField_eq (Nat.succ_pos _) stands.serviceType,
    headerField_eq (Nat.succ_pos _) stands.subType,
    headerField_eq (Nat.succ_pos _) stands.bodyLength,
    headerField_eq (Nat.succ_pos _) stands.serviceID,
    headerField_eq (Nat.succ_pos _) stands.timeStamp,
    headerField_eq (Nat.succ_pos _) stands.extention]

theorem parseDMSProtocolHeader_bytes (header : DMSProtocolHeader) :
    parseDMSProtocolHeader header.bytes = header :=
  header.bytes_standsIn.parse

/-- `Parse_NN_Protocol_Header`. -/
def parseNNProtocolHeader (raw : Bytes) : DMSProtocolHeader × Int :=
  let header := parseDMSProtocolHeader raw
  (header, if header.magicNumber ≠ magicNum then dmsFail else headerSize)

/-- A body after `memset`. -/
def QueryMetadataResponse.zero : QueryMetadataResponse := ⟨0, 0, 0, 0, 0, []⟩

/-- `Parse_NN_Protocol_Body`: a response is what the dispatch rejects. -/
def parseNNProtocolBody (grants : Allocations) (header : DMSProtocolHeader) (buf : Bytes)
    (body : QueryMetadataResponse) (attempts : Nat) :
    Except ParseFault (QueryMetadataResponse × Int × Nat) :=
  if header.subType ≠ response then
    if IsQuery header.serviceType then parseMetadataResponse grants buf attempts
    else .ok (body, dmsFail, attempts)
  else .ok (body, dmsFail, attempts)

/-- The header makes the dispatch call the parser of metadata responses. -/
def DMSProtocolHeader.Dispatched (header : DMSProtocolHeader) : Prop :=
  header.subType ≠ response ∧ IsQuery header.serviceType

section Body

variable {grants : Allocations} {header : DMSProtocolHeader} {buf : Bytes}
  {body : QueryMetadataResponse} {attempts : Nat}

theorem parseNNProtocolBody_of_dispatched (dispatched : header.Dispatched) :
    parseNNProtocolBody grants header buf body attempts =
      parseMetadataResponse grants buf attempts := by
  rw [parseNNProtocolBody, if_pos dispatched.1, if_pos dispatched.2]

theorem parseNNProtocolBody_of_not_dispatched (rejected : ¬ header.Dispatched) :
    parseNNProtocolBody grants header buf body attempts = .ok (body, dmsFail, attempts) := by
  rw [parseNNProtocolBody]
  by_cases notResponse : header.subType ≠ response
  · rw [if_pos notResponse, if_neg (fun query => rejected ⟨notResponse, query⟩)]
  · rw [if_neg notResponse]

/-- The body begins with a response that the parser can read, and every table that its counts ask
for is granted. -/
def Parses (grants : Allocations) (buf : Bytes) (attempts : Nat) : Prop :=
  ∃ msg : ResponseMsg, msg.Readable ∧ msg.bytes <+: buf ∧ Granted grants attempts msg.allocations

/-- Parsing a body reads inside it, stores inside the arrays and uses granted allocations only,
exactly when the body is not dispatched or the parser can read it. -/
theorem parseNNProtocolBody_inside_iff (grants : Allocations) (header : DMSProtocolHeader)
    (buf : Bytes) (body : QueryMetadataResponse) (attempts : Nat)
    (length : (buf.length : Int) = header.bodyLength.toInt) :
    (∃ result, parseNNProtocolBody grants header buf body attempts = .ok result) ↔
      ¬ header.Dispatched ∨ Parses grants buf attempts := by
  have short : buf.length < 2 ^ 31 := by
    have bound := @BitVec.toInt_lt 32 header.bodyLength
    simp only [Nat.add_one_sub_one] at bound
    omega
  by_cases dispatched : header.Dispatched
  · rw [parseNNProtocolBody_of_dispatched dispatched]
    constructor
    · rintro ⟨⟨response, retcode, attempts'⟩, parsed⟩
      obtain ⟨msg, readable, stands, granted, -⟩ := (parseMetadataResponse_eq_ok short).mp parsed
      exact .inr ⟨msg, readable, stands, granted⟩
    · rintro (rejected | ⟨msg, readable, stands, granted⟩)
      · exact absurd dispatched rejected
      · exact ⟨_, (parseMetadataResponse_eq_ok short).mpr
          ⟨msg, readable, stands, granted, rfl, rfl, rfl⟩⟩
  · rw [parseNNProtocolBody_of_not_dispatched dispatched]
    exact ⟨fun _ => .inl dispatched, fun _ => ⟨_, rfl⟩⟩

end Body

def DMSProtocolHeader.plain (serviceType subType : BitVec 16) (bodyLength : BitVec 32) :
    DMSProtocolHeader :=
  ⟨magicNum, 1, 0, 9, 0, serviceType, subType, bodyLength, 0, 0, 0⟩

theorem parseNNProtocolBody_inside_example :
    (∃ result, parseNNProtocolBody (fun _ => true) (.plain queryForWrite service 28)
      (List.replicate 28 0) .zero 0 = .ok result) ↔
    ¬ (DMSProtocolHeader.plain queryForWrite service 28).Dispatched ∨
      Parses (fun _ => true) (List.replicate 28 0) 0 :=
  parseNNProtocolBody_inside_iff _ _ _ _ _ (by decide)

/-- A query of a service message without a body is read beyond its end. -/
theorem parseNNProtocolBody_overrun :
    ¬ ∀ (grants : Allocations) (header : DMSProtocolHeader) (buf : Bytes)
      (body : QueryMetadataResponse) (attempts : Nat),
      (buf.length : Int) = header.bodyLength.toInt →
      ∃ result, parseNNProtocolBody grants header buf body attempts = .ok result := by
  intro all
  obtain ⟨result, parsed⟩ :=
    all (fun _ => true) (.plain queryForRead service 0) [] .zero 0 (by decide)
  cases parsed

end DmsBlkdev
