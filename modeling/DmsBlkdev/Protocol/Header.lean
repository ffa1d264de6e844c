import DmsBlkdev.Lib.ByteOrder
import DmsBlkdev.Namenode.Protocol
import Mathlib.Tactic.FinCases
import Mathlib.Tactic.IntervalCases

/-!
# The header of a message in memory

A header is written and parsed in place, in a packed structure of a
little-endian machine.  The macro `htonll` names its argument eight times, so
that the time stamp of a header comes from eight readings of the clock.
-/

namespace DmsBlkdev

open Lib.Wire Lib.ByteOrder

/-- `htons`, the macro `ntohs` also. -/
def htons (x : BitVec 16) : BitVec 16 := ((x &&& 0x00ff) <<< 8) ||| ((x &&& 0xff00) >>> 8)

/-- `htonl`, the macro `ntohl` also. -/
def htonl (x : BitVec 32) : BitVec 32 :=
  ((x &&& 0x000000ff) <<< 24) ||| ((x &&& 0x0000ff00) <<< 8) ||| ((x &&& 0x00ff0000) >>> 8) |||
    ((x &&& 0xff000000) >>> 24)

/-- `htonll` with what each of its eight uses of the argument comes to, from the top byte on. -/
def htonllOf (x : Fin 8 → BitVec 64) : BitVec 64 :=
  ((x 0 &&& 0xff00000000000000) >>> 56) |||
  ((x 1 &&& 0x00ff000000000000) >>> 40) |||
  ((x 2 &&& 0x0000ff0000000000) >>> 24) |||
  ((x 3 &&& 0x000000ff00000000) >>> 8) |||
  ((x 4 &&& 0x00000000ff000000) <<< 8) |||
  ((x 5 &&& 0x0000000000ff0000) <<< 24) |||
  ((x 6 &&& 0x000000000000ff00) <<< 40) |||
  ((x 7 &&& 0x00000000000000ff) <<< 56)

/-- `htonll` of a variable, the macro `ntohll` also. -/
def htonll (x : BitVec 64) : BitVec 64 := htonllOf fun _ => x

/-- The word that `htonll` stores: each byte is the one of its own reading. -/
def readInPieces (x : Fin 8 → BitVec 64) : BitVec 64 := htonll (htonllOf x)

section Swap

theorem id_reverses : Reverses 1 id := fun _ => rfl

theorem htons_reverses : Reverses 2 htons := by
  apply reverses_of_lanes
  intro word place inside
  apply BitVec.eq_of_getLsbD_eq
  intro bit small
  interval_cases place <;> interval_cases bit <;> simp [htons, lane]

theorem htonl_reverses : Reverses 4 htonl := by
  apply reverses_of_lanes
  intro word place inside
  apply BitVec.eq_of_getLsbD_eq
  intro bit small
  interval_cases place <;> interval_cases bit <;> simp [htonl, lane]

theorem lane_htonllOf (x : Fin 8 → BitVec 64) (use : Fin 8) :
    lane (htonllOf x) use = lane (x use) (7 - use) := by
  apply BitVec.eq_of_getLsbD_eq
  intro bit small
  fin_cases use <;> interval_cases bit <;> simp [htonllOf, lane]

theorem htonll_reverses : Reverses 8 htonll :=
  reverses_of_lanes fun _ place inside => lane_htonllOf _ ⟨place, inside⟩

@[simp] theorem readInPieces_const (x : BitVec 64) : readInPieces (fun _ => x) = x :=
  htonll_reverses.involutive x

end Swap

namespace DMSProtocolHeader

def image (header : DMSProtocolHeader) : Bytes :=
  hostBytes 4 header.magicNumber ++ hostBytes 1 header.version ++ hostBytes 1 header.retry ++
    hostBytes 1 header.senderType ++ hostBytes 1 header.reserve ++
    hostBytes 2 header.serviceType ++ hostBytes 2 header.subType ++
    hostBytes 4 header.bodyLength ++ hostBytes 8 header.serviceID ++
    hostBytes 8 header.timeStamp ++ hostBytes 8 header.extention

def ofImage (raw : Bytes) : DMSProtocolHeader where
  magicNumber := hostWord 4 ((raw.drop 0).take 4)
  version := hostWord 1 ((raw.drop 4).take 1)
  retry := hostWord 1 ((raw.drop 5).take 1)
  senderType := hostWord 1 ((raw.drop 6).take 1)
  reserve := hostWord 1 ((raw.drop 7).take 1)
  serviceType := hostWord 2 ((raw.drop 8).take 2)
  subType := hostWord 2 ((raw.drop 10).take 2)
  bodyLength := hostWord 4 ((raw.drop 12).take 4)
  serviceID := hostWord 8 ((raw.drop 16).take 8)
  timeStamp := hostWord 8 ((raw.drop 24).take 8)
  extention := hostWord 8 ((raw.drop 32).take 8)

end DMSProtocolHeader

/-- `CLIENTNODE`. -/
def clientNode : BitVec 8 := 0x0c

/-- `DMS_PROTO_VER`. -/
def dmsProtoVer : BitVec 8 := 1

/-- `Parse_DMS_Protocol_Header`: the structure after it, and its size. -/
def parseDMSProtocolHeaderInPlace (header : DMSProtocolHeader) : DMSProtocolHeader × Int :=
  ({ magicNumber := htonl header.magicNumber
     version := header.version
     retry := header.retry
     senderType := header.senderType
     reserve := header.reserve
     serviceType := htons header.serviceType
     subType := htons header.subType
     bodyLength := htonl header.bodyLength
     serviceID := htonll header.serviceID
     timeStamp := htonll header.timeStamp
     extention := htonll header.extention }, headerSize)

/-- `Generate_DMS_Protocol_Header`, with the readings of the clock in the order in which `htonll`
names them. -/
def generateDMSProtocolHeader (retry : BitVec 8) (serviceType subType : BitVec 16)
    (bodyLength : BitVec 32) (pdata sid : BitVec 64) (getCurrentUs : Fin 8 → BitVec 64) :
    DMSProtocolHeader × Int :=
  ({ magicNumber := htonl magicNum
     version := dmsProtoVer
     retry := retry
     senderType := clientNode
     reserve := 0
     serviceType := htons serviceType
     subType := htons subType
     bodyLength := htonl bodyLength
     serviceID := htonll sid
     timeStamp := htonllOf getCurrentUs
     extention := htonll pdata }, headerSize)

/-- `Parse_NN_Protocol_Header`; a pointer that is not legal is `none`. -/
def parseNNProtocolHeaderInPlace (header : Option DMSProtocolHeader) :
    Option DMSProtocolHeader × Int :=
  match header with
  | none => (none, dmsFail)
  | some header =>
      let (parsed, retcode) := parseDMSProtocolHeaderInPlace header
      (some parsed, if parsed.magicNumber ≠ magicNum then dmsFail else retcode)

/-- `Parse_DN_Protocol_Header`. -/
def parseDNProtocolHeaderInPlace (header : Option DMSProtocolHeader) :
    Option DMSProtocolHeader × Int :=
  parseNNProtocolHeaderInPlace header

/-- A service message: the header, the return code and the generator of identifiers after
`atomic64_inc_return`. -/
def generateServiceHeader (header : Option DMSProtocolHeader) (retry : BitVec 8)
    (serviceType : BitVec 16) (bodyLength : BitVec 32) (pdata idGen : BitVec 64)
    (getCurrentUs : Fin 8 → BitVec 64) : Option DMSProtocolHeader × Int × BitVec 64 :=
  match header with
  | none => (none, dmsFail, idGen)
  | some _ =>
      let (generated, retcode) := generateDMSProtocolHeader retry serviceType service bodyLength
        pdata (idGen + 1) getCurrentUs
      (some generated, retcode, idGen + 1)

/-- `Generate_NN_Protocol_Header`. -/
def generateNNProtocolHeader (header : Option DMSProtocolHeader) (retry : BitVec 8)
    (serviceType : BitVec 16) (bodyLength : BitVec 32) (pdata nnphIdGen : BitVec 64)
    (getCurrentUs : Fin 8 → BitVec 64) : Option DMSProtocolHeader × Int × BitVec 64 :=
  generateServiceHeader header retry serviceType bodyLength pdata nnphIdGen getCurrentUs

/-- `Generate_DN_Protocol_Header`. -/
def generateDNProtocolHeader (header : Option DMSProtocolHeader) (retry : BitVec 8)
    (serviceType : BitVec 16) (bodyLength : BitVec 32) (pdata dnphIdGen : BitVec 64)
    (getCurrentUs : Fin 8 → BitVec 64) : Option DMSProtocolHeader × Int × BitVec 64 :=
  generateServiceHeader header retry serviceType bodyLength pdata dnphIdGen getCurrentUs

namespace DMSProtocolHeader

/-- The header whose fields are in host order, as the message says them. -/
def said (retry : BitVec 8) (serviceType subType : BitVec 16) (bodyLength : BitVec 32)
    (pdata sid : BitVec 64) (getCurrentUs : Fin 8 → BitVec 64) : DMSProtocolHeader where
  magicNumber := magicNum
  version := dmsProtoVer
  retry := retry
  senderType := clientNode
  reserve := 0
  serviceType := serviceType
  subType := subType
  bodyLength := bodyLength
  serviceID := sid
  timeStamp := readInPieces getCurrentUs
  extention := pdata

section Received

variable {raw : Bytes} {offset : Nat}

theorem headerField_stands {width : Nat} (positive : 0 < width)
    (inside : offset + width ≤ raw.length) :
    Stands raw offset (wordBytes width (headerField width raw offset)) := by
  apply (read_eq_some_iff positive).mp
  simp only [headerField, Lib.Wire.read, if_pos inside, Option.getD_some]

/-- What the machine finds where the bytes of a word stand, it turns into that word. -/
theorem swap_hostWord {width : Nat} {swap : BitVec (8 * width) → BitVec (8 * width)}
    (reverses : Reverses width swap) {word : BitVec (8 * width)}
    (stands : Stands raw offset (wordBytes width word)) :
    swap (hostWord width ((raw.drop offset).take width)) = word := by
  obtain ⟨rest, split⟩ := stands
  rw [← split, List.take_left' (wordBytes_length ..), reverses.received]

theorem hostWord_byte {byte : BitVec (8 * 1)} (stands : Stands raw offset (wordBytes 1 byte)) :
    hostWord 1 ((raw.drop offset).take 1) = byte :=
  swap_hostWord id_reverses stands

/-- Parsing in place gives the header whose fields the buffer holds. -/
theorem StandsIn.parseInPlace {header : DMSProtocolHeader} (stands : header.StandsIn raw) :
    parseDMSProtocolHeaderInPlace (ofImage raw) = (header, (headerSize : Int)) := by
  simp only [parseDMSProtocolHeaderInPlace, ofImage,
    swap_hostWord htonl_reverses stands.magicNumber, hostWord_byte stands.version,
    hostWord_byte stands.retry, hostWord_byte stands.senderType, hostWord_byte stands.reserve,
    swap_hostWord htons_reverses stands.serviceType, swap_hostWord htons_reverses stands.subType,
    swap_hostWord htonl_reverses stands.bodyLength, swap_hostWord htonll_reverses stands.serviceID,
    swap_hostWord htonll_reverses stands.timeStamp, swap_hostWord htonll_reverses stands.extention]

theorem StandsIn.parseNN {header : DMSProtocolHeader} (stands : header.StandsIn raw)
    (magic : header.magicNumber = magicNum) :
    parseNNProtocolHeaderInPlace (some (ofImage raw)) = (some header, (headerSize : Int)) := by
  simp only [parseNNProtocolHeaderInPlace, stands.parseInPlace]
  rw [if_neg (not_not_intro magic)]

theorem parseDMSProtocolHeader_standsIn (size : raw.length = headerSize) :
    (parseDMSProtocolHeader raw).StandsIn raw := by
  have inside {offset width : Nat} (small : offset + width ≤ 40) : offset + width ≤ raw.length :=
    size ▸ small
  constructor <;> exact headerField_stands (by decide) (inside (by decide))

/-- In place a received header is parsed to what the stream's reader takes it for. -/
theorem parseDMSProtocolHeaderInPlace_ofImage (size : raw.length = headerSize) :
    parseDMSProtocolHeaderInPlace (ofImage raw) =
      (parseDMSProtocolHeader raw, (headerSize : Int)) :=
  (parseDMSProtocolHeader_standsIn size).parseInPlace

end Received

/-- What was returned with the bytes that are sent; they hold the header, and both parsers recover
it. -/
structure SentAs (sent : DMSProtocolHeader × Int) (header : DMSProtocolHeader) : Prop where
  returned : sent.2 = headerSize
  length : sent.1.image.length = headerSize
  standsIn : header.StandsIn sent.1.image
  namenode : parseNNProtocolHeaderInPlace (some (ofImage sent.1.image)) =
    (some header, (headerSize : Int))
  datanode : parseDNProtocolHeaderInPlace (some (ofImage sent.1.image)) =
    (some header, (headerSize : Int))

section Sent

variable (retry : BitVec 8) (serviceType subType : BitVec 16) (bodyLength : BitVec 32)
  (pdata sid : BitVec 64) (getCurrentUs : Fin 8 → BitVec 64)

/-- What is sent is what the header says, in network order. -/
theorem image_generate :
    (generateDMSProtocolHeader retry serviceType subType bodyLength pdata sid
        getCurrentUs).1.image =
      (said retry serviceType subType bodyLength pdata sid getCurrentUs).bytes := by
  have pieces : htonllOf getCurrentUs = htonll (readInPieces getCurrentUs) :=
    (htonll_reverses.involutive _).symm
  simp only [image, bytes, said, generateDMSProtocolHeader, pieces, htonl_reverses _,
    htons_reverses _, htonll_reverses _]
  rfl

theorem generateDNProtocolHeader_bodyLength (header : DMSProtocolHeader) (dnphIdGen : BitVec 64) :
    ∃ generated, generateDNProtocolHeader (some header) retry serviceType bodyLength pdata dnphIdGen
        getCurrentUs = (some generated, (headerSize : Int), dnphIdGen + 1) ∧
      Stands generated.image 12 (wordBytes 4 bodyLength) := by
  have stands := (said retry serviceType service bodyLength pdata (dnphIdGen + 1)
    getCurrentUs).bytes_standsIn.bodyLength
  rw [← image_generate] at stands
  exact ⟨_, rfl, stands⟩

/-- The 40 bytes of a generated header hold its fields in network order, and both parsers recover
the header from them; a clock that stands still is read as it stands. -/
theorem generate_parse :
    SentAs (generateDMSProtocolHeader retry serviceType subType bodyLength pdata sid getCurrentUs)
        (said retry serviceType subType bodyLength pdata sid getCurrentUs) ∧
      ∀ now,
        (said retry serviceType subType bodyLength pdata sid fun _ => now).timeStamp = now := by
  have bytes := image_generate retry serviceType subType bodyLength pdata sid getCurrentUs
  have stands := (said retry serviceType subType bodyLength pdata sid getCurrentUs).bytes_standsIn
  rw [← bytes] at stands
  refine ⟨⟨rfl, ?_, stands, stands.parseNN rfl, stands.parseNN rfl⟩, readInPieces_const⟩
  rw [bytes, bytes_length]

end Sent

end DMSProtocolHeader

end DmsBlkdev
