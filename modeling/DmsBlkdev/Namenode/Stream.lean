import DmsBlkdev.Lib.Run
import DmsBlkdev.Namenode.WellFormed

/-!
# The stream of the namenode

The receiver takes one message after the other from the stream: a header, then
as many bytes as the header announces, which go into a buffer that may grow by
one page for this message.  Behind the body the buffer holds what was there
before, and the parser sees it too.
-/

namespace DmsBlkdev

open Lib.Wire Lib.Run

/-- `PAGE_SIZE`. -/
def pageSize : Nat := 4096

/-- `-EPIPE`. -/
def brokenPipe : Int := -32

/-- Which allocations succeed, and what granted memory contains. -/
structure Surroundings where
  grants : Allocations
  fresh : Nat → Nat → BitVec 8

/-- The bytes still to come, the buffer, and the number of allocations attempted so far. -/
structure NamenodeReceiver where
  stream : Bytes
  buf : Bytes
  attempts : Nat

/-- `Recv_Msg` delivers the next bytes of the stream; nothing comes of it when it breaks off. -/
def recvMsg (stream : Bytes) (count : Nat) : Option (Bytes × Bytes) :=
  if count ≤ stream.length then some (stream.take count, stream.drop count) else none

theorem recvMsg_append (bytes rest : Bytes) :
    recvMsg (bytes ++ rest) bytes.length = some (bytes, rest) := by
  rw [recvMsg, if_pos (by simp), List.take_left, List.drop_left]

/-- `__Grow_up_Buffer`: the buffer, its size as returned, and the attempts. -/
def growUpBuffer (around : Surroundings) (buf : Bytes) (size attempts : Nat) : Bytes × Nat × Nat :=
  if around.grants attempts then
    ((List.range (size + pageSize)).map (around.fresh attempts), size + pageSize, attempts + 1)
  else (buf, size, attempts + 1)

/-- The buffer that a body is received into, its size as the caller knows it, and the attempts. -/
def receiveBuffer (around : Surroundings) (buf : Bytes) (size : Nat) (bodyLength : Int)
    (attempts : Nat) : Bytes × Nat × Nat :=
  if size < bodyLength then growUpBuffer around buf size attempts else (buf, size, attempts)

/-- `Recv_Query_Response_from_Namenode`.  A store behind the end of the buffer is a fault, and so
is a receive with a negative length, which bounds nothing. -/
def recvQueryResponseFromNamenode (around : Surroundings) (receiver : NamenodeReceiver)
    (body : QueryMetadataResponse) (bufSize : Nat) :
    Except ParseFault (NamenodeReceiver × QueryMetadataResponse × Int) :=
  match recvMsg receiver.stream headerSize with
  | none => .ok (receiver, body, brokenPipe)
  | some (raw, stream) =>
      let (header, retcode) := parseNNProtocolHeader raw
      if retcode < 0 then .ok ({ receiver with stream }, body, retcode)
      else
        let (buf, _, attempts) :=
          receiveBuffer around receiver.buf bufSize header.bodyLength.toInt receiver.attempts
        if header.bodyLength.toInt < 0 then .error .overflow
        else
          match recvMsg stream header.bodyLength.toInt.toNat with
          | none => .ok (⟨stream, buf, attempts⟩, body, brokenPipe)
          | some (bytes, stream) =>
              if buf.length < bytes.length then .error .overflow
              else do
                let buf := bytes ++ buf.drop bytes.length
                let (body, retcode, attempts) ←
                  parseNNProtocolBody around.grants header buf body attempts
                return (⟨stream, buf, attempts⟩, body, retcode)

/-- The buffer after the `memset` of a round. -/
def NamenodeReceiver.zeroed (receiver : NamenodeReceiver) : Bytes :=
  List.replicate pageSize 0 ++ receiver.buf.drop pageSize

/-- One round of the loop of `Namenode_Receiver`, up to the response code; the loop knows of no
other size than the first. -/
def namenodeReceiver (around : Surroundings) (receiver : NamenodeReceiver) :
    Except ParseFault (NamenodeReceiver × QueryMetadataResponse × Int) :=
  recvQueryResponseFromNamenode around { receiver with buf := receiver.zeroed } .zero pageSize

structure Frame where
  header : DMSProtocolHeader
  body : Bytes
  magic : header.magicNumber = magicNum
  length : header.bodyLength.toInt = body.length

namespace Frame

def bytes (frame : Frame) : Bytes := frame.header.bytes ++ frame.body

/-- A response to a query, with a well-formed body. -/
def Good (frame : Frame) : Prop :=
  frame.header.subType = response ∧ IsQuery frame.header.serviceType ∧
    ∃ msg : ResponseMsg, msg.WellFormed ∧ frame.body = msg.bytes

end Frame

def Frame.allBytes (frames : List Frame) : Bytes := frames.flatMap Frame.bytes

/-- A call takes exactly the frame, and returns a positive value with the decoded body exactly for
a good one. -/
def Received (around : Surroundings) (receiver : NamenodeReceiver) (frame : Frame)
    (rest : Bytes) : Prop :=
  ∃ receiver' body retcode, namenodeReceiver around receiver = .ok (receiver', body, retcode) ∧
    receiver'.stream = rest ∧ (0 < retcode ↔ frame.Good) ∧
    ∀ msg : ResponseMsg, msg.WellFormed → frame.body = msg.bytes → 0 < retcode → body = msg.encoded

section Round

variable (around : Surroundings) (receiver : NamenodeReceiver) (frame : Frame)

def bufferFor : Bytes × Nat :=
  let received := receiveBuffer around receiver.zeroed pageSize frame.body.length receiver.attempts
  (received.1, received.2.2)

def bufferWith : Bytes :=
  frame.body ++ (bufferFor around receiver frame).1.drop frame.body.length

/-- The body fits the buffer; the frame is no good response; and where the body is dispatched, the
buffer begins with a response that the parser can read but does not accept. -/
structure Takes : Prop where
  room : frame.body.length ≤ (bufferFor around receiver frame).1.length
  notGood : ¬ frame.Good
  rejected : frame.header.Dispatched → ∃ msg : ResponseMsg, msg.Readable ∧ ¬ msg.Accepted ∧
    msg.bytes <+: bufferWith around receiver frame ∧
    Granted around.grants (bufferFor around receiver frame).2 msg.allocations

def Paged : Prop := receiver.buf.length = pageSize ∨ receiver.buf.length = 2 * pageSize

end Round

section Round

variable {around : Surroundings} {receiver : NamenodeReceiver} {frame : Frame} {rest : Bytes}

theorem zeroed_length (paged : Paged receiver) :
    receiver.zeroed.length = receiver.buf.length := by
  rw [NamenodeReceiver.zeroed, List.length_append, List.length_replicate, List.length_drop]
  rcases paged with one | two <;> omega

theorem bufferFor_length (paged : Paged receiver) :
    (bufferFor around receiver frame).1.length = pageSize ∨
      (bufferFor around receiver frame).1.length = 2 * pageSize := by
  have old := zeroed_length paged
  simp only [bufferFor, receiveBuffer, growUpBuffer]
  split
  · split
    · right
      rw [List.length_map, List.length_range, Nat.two_mul]
    · rw [old]
      exact paged
  · rw [old]
    exact paged

theorem bufferWith_length (room : frame.body.length ≤ (bufferFor around receiver frame).1.length) :
    (bufferWith around receiver frame).length = (bufferFor around receiver frame).1.length := by
  rw [bufferWith, List.length_append, List.length_drop, Nat.add_sub_of_le room]

theorem parseNNProtocolHeader_frame :
    parseNNProtocolHeader frame.header.bytes = (frame.header, (headerSize : Int)) := by
  rw [parseNNProtocolHeader, parseDMSProtocolHeader_bytes]
  simp only [frame.magic, ne_eq, not_true_eq_false, if_false]

theorem recvQueryResponseFromNamenode_of_received {body : QueryMetadataResponse} {bufSize : Nat}
    {raw stream bytes buf : Bytes} {header : DMSProtocolHeader} {retcode : Int}
    {size attempts : Nat} (first : recvMsg receiver.stream headerSize = some (raw, stream))
    (parsed : parseNNProtocolHeader raw = (header, retcode)) (ok : ¬ retcode < 0)
    (received : receiveBuffer around receiver.buf bufSize header.bodyLength.toInt
      receiver.attempts = (buf, size, attempts))
    (notNegative : ¬ header.bodyLength.toInt < 0)
    (second : recvMsg stream header.bodyLength.toInt.toNat = some (bytes, rest)) :
    recvQueryResponseFromNamenode around receiver body bufSize =
      if buf.length < bytes.length then .error .overflow
      else do
        let (body, retcode, attempts) ← parseNNProtocolBody around.grants header
          (bytes ++ buf.drop bytes.length) body attempts
        return (⟨rest, bytes ++ buf.drop bytes.length, attempts⟩, body, retcode) := by
  rw [recvQueryResponseFromNamenode]
  simp only [first, parsed, if_neg ok, received, if_neg notNegative, second]

theorem recvMsg_frame (front : receiver.stream = frame.bytes ++ rest) :
    recvMsg receiver.stream headerSize = some (frame.header.bytes, frame.body ++ rest) := by
  rw [front, Frame.bytes, List.append_assoc, ← frame.header.bytes_length]
  exact recvMsg_append ..

/-- A round on a stream that begins with the frame. -/
theorem namenodeReceiver_frame (front : receiver.stream = frame.bytes ++ rest) :
    namenodeReceiver around receiver =
      if (bufferFor around receiver frame).1.length < frame.body.length then .error .overflow
      else do
        let (body, retcode, attempts) ← parseNNProtocolBody around.grants frame.header
          (bufferWith around receiver frame) .zero (bufferFor around receiver frame).2
        return (⟨rest, bufferWith around receiver frame, attempts⟩, body, retcode) := by
  have second : recvMsg (frame.body ++ rest) frame.header.bodyLength.toInt.toNat =
      some (frame.body, rest) := by
    rw [frame.length, Int.toNat_natCast]
    exact recvMsg_append ..
  have notNegative : ¬ frame.header.bodyLength.toInt < 0 := by
    rw [frame.length]
    omega
  have buffer : receiveBuffer around receiver.zeroed pageSize frame.header.bodyLength.toInt
      receiver.attempts = ((bufferFor around receiver frame).1,
        (receiveBuffer around receiver.zeroed pageSize frame.body.length receiver.attempts).2.1,
        (bufferFor around receiver frame).2) := by
    rw [frame.length]
    rfl
  exact recvQueryResponseFromNamenode_of_received (recvMsg_frame front) parseNNProtocolHeader_frame
    (by decide) buffer notNegative second

theorem namenodeReceiver_eq_ok (front : receiver.stream = frame.bytes ++ rest)
    {receiver' : NamenodeReceiver} {body : QueryMetadataResponse} {retcode : Int} :
    namenodeReceiver around receiver = .ok (receiver', body, retcode) ↔
      frame.body.length ≤ (bufferFor around receiver frame).1.length ∧ ∃ attempts,
        parseNNProtocolBody around.grants frame.header (bufferWith around receiver frame) .zero
          (bufferFor around receiver frame).2 = .ok (body, retcode, attempts) ∧
        receiver' = ⟨rest, bufferWith around receiver frame, attempts⟩ := by
  rw [namenodeReceiver_frame front]
  by_cases room : frame.body.length ≤ (bufferFor around receiver frame).1.length
  · simp only [if_neg (Nat.not_lt.mpr room), bind_eq_ok, Prod.exists]
    constructor
    · rintro ⟨found, code, attempts, parsed, done⟩
      cases done
      exact ⟨room, attempts, parsed, rfl⟩
    · rintro ⟨-, attempts, parsed, rfl⟩
      exact ⟨body, retcode, attempts, parsed, rfl⟩
  · rw [if_pos (Nat.lt_of_not_le room)]
    constructor
    · nofun
    · rintro ⟨fits, -⟩
      exact absurd fits room

theorem Frame.Good.not_dispatched (good : frame.Good) : ¬ frame.header.Dispatched :=
  fun dispatched => dispatched.1 good.1

/-- A call does what it should exactly when the frame is one that the receiver can take. -/
theorem received_iff (paged : Paged receiver) (front : receiver.stream = frame.bytes ++ rest) :
    Received around receiver frame rest ↔ Takes around receiver frame := by
  have short (room : frame.body.length ≤ (bufferFor around receiver frame).1.length) :
      (bufferWith around receiver frame).length < 2 ^ 31 := by
    rw [bufferWith_length room]
    have size : 2 * pageSize < 2 ^ 31 := by decide
    rcases @bufferFor_length around receiver frame paged with one | two <;> omega
  by_cases dispatched : frame.header.Dispatched
  · have notGood : ¬ frame.Good := fun good => good.not_dispatched dispatched
    constructor
    · rintro ⟨receiver', body, retcode, called, -, positive, -⟩
      obtain ⟨room, attempts, parsed, -⟩ := (namenodeReceiver_eq_ok front).mp called
      rw [parseNNProtocolBody_of_dispatched dispatched] at parsed
      obtain ⟨msg, readable, stands, granted, -, code, -⟩ :=
        (parseMetadataResponse_eq_ok (short room)).mp parsed
      refine ⟨room, notGood, fun _ => ⟨msg, readable, ?_, stands, granted⟩⟩
      intro accepted
      rw [if_pos accepted, msg.bytes_length] at code
      exact notGood (positive.mp (by omega))
    · rintro ⟨room, -, rejected⟩
      obtain ⟨msg, readable, notAccepted, stands, granted⟩ := rejected dispatched
      have parsed : parseNNProtocolBody around.grants frame.header
          (bufferWith around receiver frame) .zero (bufferFor around receiver frame).2 =
          .ok (msg.decoded, 0, (bufferFor around receiver frame).2 + msg.allocations) := by
        rw [parseNNProtocolBody_of_dispatched dispatched, parseMetadataResponse_eq_ok (short room)]
        exact ⟨msg, readable, stands, granted, rfl, by rw [if_neg notAccepted], rfl⟩
      refine ⟨_, _, _, (namenodeReceiver_eq_ok front).mpr ⟨room, _, parsed, rfl⟩, rfl, ?_, ?_⟩
      · exact ⟨fun positive => absurd positive (by decide), fun good => absurd good notGood⟩
      · exact fun _ _ _ positive => absurd positive (by decide)
  · have called := @parseNNProtocolBody_of_not_dispatched around.grants frame.header
      (bufferWith around receiver frame) .zero (bufferFor around receiver frame).2 dispatched
    constructor
    · rintro ⟨receiver', body, retcode, done, -, positive, -⟩
      obtain ⟨room, attempts, parsed, -⟩ := (namenodeReceiver_eq_ok front).mp done
      rw [called] at parsed
      cases parsed
      exact ⟨room, fun good => absurd (positive.mpr good) (by decide),
        fun other => absurd other dispatched⟩
    · rintro ⟨room, notGood, -⟩
      refine ⟨_, _, _, (namenodeReceiver_eq_ok front).mpr ⟨room, _, called, rfl⟩, rfl, ?_, ?_⟩
      · exact ⟨fun positive => absurd positive (by decide), fun good => absurd good notGood⟩
      · exact fun _ _ _ positive => absurd positive (by decide)

end Round

section Run

variable {around : Surroundings} {receiver : NamenodeReceiver}

def called (around : Surroundings) (receiver : NamenodeReceiver) (_ : Frame) :
    Option NamenodeReceiver :=
  match namenodeReceiver around receiver with
  | .ok (next, _, _) => some next
  | .error _ => none

theorem called_eq_some {frame : Frame} {rest : Bytes} (paged : Paged receiver)
    (front : receiver.stream = frame.bytes ++ rest) {next : NamenodeReceiver}
    (taken : called around receiver frame = some next) : Paged next ∧ next.stream = rest := by
  unfold called at taken
  split at taken
  · next body retcode done =>
      obtain rfl := Option.some.inj taken
      obtain ⟨room, attempts, -, rfl⟩ := (namenodeReceiver_eq_ok front).mp done
      refine ⟨?_, rfl⟩
      unfold Paged
      rw [bufferWith_length room]
      exact bufferFor_length paged
  · cases taken

/-- Every call along the frames receives its frame. -/
def Framed (around : Surroundings) (receiver : NamenodeReceiver) (frames : List Frame)
    (rest : Bytes) : Prop :=
  ∀ earlier frame later, frames = earlier ++ frame :: later →
    ∃ between, run (called around) receiver earlier = some between ∧
      between.stream = Frame.allBytes (frame :: later) ++ rest ∧
      Received around between frame (Frame.allBytes later ++ rest)

theorem framed_of_paged {frames : List Frame} {rest : Bytes} (paged : Paged receiver)
    (front : receiver.stream = Frame.allBytes frames ++ rest)
    (takes : Guarded (Takes around) (called around) receiver frames) :
    Framed around receiver frames rest := by
  induction frames generalizing receiver with
  | nil =>
      intro earlier frame later split
      simp at split
  | cons first frames inductionHypothesis =>
      have frontFirst : receiver.stream = first.bytes ++ (Frame.allBytes frames ++ rest) := by
        rw [front, Frame.allBytes, List.flatMap_cons, List.append_assoc]
        rfl
      have received := (received_iff paged frontFirst).mpr takes.1
      obtain ⟨next, body, retcode, done, -⟩ := received
      have step : called around receiver first = some next := by
        rw [called, done]
      obtain ⟨pagedNext, frontNext⟩ := called_eq_some paged frontFirst step
      have behind := inductionHypothesis pagedNext frontNext (takes.2 next step)
      intro earlier frame later split
      cases earlier with
      | nil =>
          obtain ⟨rfl, rfl⟩ := List.cons.inj split
          exact ⟨receiver, rfl, front, (received_iff paged frontFirst).mpr takes.1⟩
      | cons other earlier =>
          obtain ⟨rfl, splitRest⟩ := List.cons.inj split
          obtain ⟨between, ran, stream, last⟩ := behind earlier frame later splitRest
          refine ⟨between, ?_, stream, last⟩
          rw [run, step]
          exact ran

/-- A receiver that starts with its first buffer keeps to the frames as long as it can take every
one of them. -/
theorem namenodeReceiver_framed (around : Surroundings) (receiver : NamenodeReceiver)
    (frames : List Frame) (rest : Bytes) (first : receiver.buf.length = pageSize)
    (front : receiver.stream = Frame.allBytes frames ++ rest)
    (takes : Guarded (Takes around) (called around) receiver frames) :
    Framed around receiver frames rest :=
  framed_of_paged (.inl first) front takes

def plentiful : Surroundings := ⟨fun _ => true, fun _ _ => 0⟩

def NamenodeReceiver.init (stream : Bytes) : NamenodeReceiver := ⟨stream, .replicate pageSize 0, 0⟩

def commitFrame : Frame := ⟨.plain 5 response 4, [0, 0, 0, 7], rfl, rfl⟩

def emptyResponse : ResponseMsg := ⟨1, 0, 1, 5, 0, []⟩

/-- A query that comes back with such a response behind it; the dispatch has it parsed. -/
def echoedFrame : Frame := ⟨.plain queryForWrite service 28, emptyResponse.bytes, rfl, rfl⟩

theorem takes_commitFrame (paged : Paged receiver) : Takes around receiver commitFrame where
  room := by
    have size : commitFrame.body.length ≤ pageSize := by decide
    rcases @bufferFor_length around receiver commitFrame paged with one | two <;> omega
  notGood good := absurd good.2.1 (by decide)
  rejected dispatched := absurd dispatched.2 (by decide)

theorem takes_echoedFrame (paged : Paged receiver) : Takes around receiver echoedFrame where
  room := by
    have size : echoedFrame.body.length ≤ pageSize := by decide
    rcases @bufferFor_length around receiver echoedFrame paged with one | two <;> omega
  notGood good := absurd good.1 (by decide)
  rejected _ := ⟨emptyResponse, ⟨rfl, nofun⟩, by decide, List.prefix_append _ _, granted_zero⟩

theorem namenodeReceiver_framed_example :
    Framed plentiful (.init (Frame.allBytes [commitFrame, echoedFrame, commitFrame]))
      [commitFrame, echoedFrame, commitFrame] [] := by
  have paged : Paged (.init (Frame.allBytes [commitFrame, echoedFrame, commitFrame])) :=
    .inl List.length_replicate
  apply namenodeReceiver_framed _ _ _ _ List.length_replicate (List.append_nil _).symm
  refine ⟨takes_commitFrame paged, fun second taken => ?_⟩
  obtain ⟨pagedSecond, front⟩ := @called_eq_some _ _ _
    (Frame.allBytes [echoedFrame, commitFrame]) paged rfl _ taken
  refine ⟨takes_echoedFrame pagedSecond, fun third taken => ?_⟩
  obtain ⟨pagedThird, -⟩ := @called_eq_some _ _ _ (Frame.allBytes [commitFrame]) pagedSecond front
    _ taken
  exact ⟨takes_commitFrame pagedThird, fun _ _ => trivial⟩

def sampleFrame : Frame :=
  ⟨.plain queryForWrite response 60, sampleResponse.bytes, rfl, by decide +kernel⟩

theorem sampleFrame_good : sampleFrame.Good :=
  ⟨rfl, .inr (.inl rfl), sampleResponse, sampleResponse_wellFormed, rfl⟩

/-- The dispatch rejects every response. -/
theorem namenodeReceiver_rejects_response :
    ¬ ∀ (around : Surroundings) (receiver : NamenodeReceiver) (frames : List Frame) (rest : Bytes),
      receiver.buf.length = pageSize → receiver.stream = Frame.allBytes frames ++ rest →
      Framed around receiver frames rest := by
  intro all
  have front : (NamenodeReceiver.init sampleFrame.bytes).stream = sampleFrame.bytes ++ [] := by
    simp [NamenodeReceiver.init]
  have framed := all plentiful (.init sampleFrame.bytes) [sampleFrame] [] List.length_replicate
    (by simp [Frame.allBytes, NamenodeReceiver.init])
  obtain ⟨between, ran, -, received⟩ := framed [] sampleFrame [] rfl
  obtain rfl := Option.some.inj ran
  have taken := (received_iff (.inl List.length_replicate) front).mp received
  exact taken.notGood sampleFrame_good

end Run

end DmsBlkdev
