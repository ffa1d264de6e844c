import DmsBlkdev.Namenode.Stream

/-!
# The buffer of a response

The receiver always believes its buffer to be one page long, and a body that
is longer makes the buffer grow by one page, whatever the length of the body.
-/

namespace DmsBlkdev

open Lib.Wire Lib.Run

def NamenodeReceiver.announced (receiver : NamenodeReceiver) : Option Int :=
  (recvMsg receiver.stream headerSize).bind fun received =>
    let (header, retcode) := parseNNProtocolHeader received.1
    if retcode < 0 then none else some header.bodyLength.toInt

/-- One round of the loop of `Namenode_Receiver`. -/
def receiverRound (around : Surroundings) (receiver : NamenodeReceiver) (_ : Unit) :
    Option NamenodeReceiver :=
  match namenodeReceiver around receiver with
  | .ok (next, _, _) => some next
  | .error _ => none

/-- The buffer that `Recv_Msg` is given takes the body, and is no shorter than the receiver and
the call believe it to be. -/
structure NamenodeReceiver.Supplied (around : Surroundings) (receiver : NamenodeReceiver) :
    Prop where
  believed : pageSize ≤ receiver.buf.length
  body : ∀ length, receiver.announced = some length → 0 ≤ length →
    length ≤ (receiveBuffer around receiver.zeroed pageSize length receiver.attempts).1.length
  grown : ∀ length, receiver.announced = some length → 0 ≤ length →
    (receiveBuffer around receiver.zeroed pageSize length receiver.attempts).2.1 ≤
      (receiveBuffer around receiver.zeroed pageSize length receiver.attempts).1.length

/-- The body has at most a page, or at most two where the buffer can grow, or fits the buffer that
cannot. -/
def NamenodeReceiver.Fits (around : Surroundings) (receiver : NamenodeReceiver) : Prop :=
  ∀ length ∈ receiver.announced, 0 ≤ length → length ≤ pageSize ∨
    if around.grants receiver.attempts then length ≤ 2 * pageSize
    else length ≤ receiver.buf.length

section Round

variable {around : Surroundings} {receiver : NamenodeReceiver}

theorem zeroed_length_of_le (room : pageSize ≤ receiver.buf.length) :
    receiver.zeroed.length = receiver.buf.length := by
  rw [NamenodeReceiver.zeroed, List.length_append, List.length_replicate, List.length_drop,
    Nat.add_sub_of_le room]

theorem receiveBuffer_size_le {buf : Bytes} {size attempts : Nat} (room : size ≤ buf.length)
    (length : Int) : (receiveBuffer around buf size length attempts).2.1 ≤
      (receiveBuffer around buf size length attempts).1.length ∧
    size ≤ (receiveBuffer around buf size length attempts).2.1 := by
  unfold receiveBuffer growUpBuffer
  split
  · split
    · simp
    · exact ⟨room, Nat.le_refl _⟩
  · exact ⟨room, Nat.le_refl _⟩

theorem receiveBuffer_body_iff {buf : Bytes} {size attempts : Nat} (room : size ≤ buf.length)
    (length : Int) :
    length ≤ (receiveBuffer around buf size length attempts).1.length ↔
      length ≤ size ∨
        if around.grants attempts then length ≤ size + pageSize else length ≤ buf.length := by
  unfold receiveBuffer growUpBuffer
  by_cases short : length ≤ size
  · rw [if_neg (by omega)]
    simp only [short, true_or, iff_true]
    omega
  · rw [if_pos (by omega)]
    simp only [short, false_or]
    split
    · rw [List.length_map, List.length_range]
      push_cast
      rfl
    · rfl

theorem supplied_iff (room : pageSize ≤ receiver.buf.length) :
    receiver.Supplied around ↔ receiver.Fits around := by
  have zeroed : pageSize ≤ receiver.zeroed.length := by rwa [zeroed_length_of_le room]
  have body (length : Int) :
      length ≤ (receiveBuffer around receiver.zeroed pageSize length receiver.attempts).1.length ↔
        length ≤ pageSize ∨ if around.grants receiver.attempts then length ≤ 2 * pageSize
          else length ≤ receiver.buf.length := by
    rw [receiveBuffer_body_iff zeroed, zeroed_length_of_le room, Int.two_mul]
  constructor
  · intro supplied length announced positive
    exact (body length).mp (supplied.body length announced positive)
  · intro fits
    refine ⟨room, ?_, ?_⟩
    · exact fun length announced positive => (body length).mpr (fits length announced positive)
    · exact fun length _ _ => (receiveBuffer_size_le zeroed length).1

/-- The buffer is never exchanged for one that is shorter than a page. -/
theorem namenodeReceiver_room (room : pageSize ≤ receiver.buf.length) {next : NamenodeReceiver}
    {body : QueryMetadataResponse} {retcode : Int}
    (called : namenodeReceiver around receiver = .ok (next, body, retcode)) :
    pageSize ≤ next.buf.length := by
  have zeroed : pageSize ≤ receiver.zeroed.length := by rwa [zeroed_length_of_le room]
  unfold namenodeReceiver recvQueryResponseFromNamenode at called
  split at called
  · cases called
    exact zeroed
  · rename_i raw stream received
    simp only at called
    split at called
    · cases called
      exact zeroed
    · have size := @receiveBuffer_size_le around _ _ receiver.attempts zeroed
        (parseNNProtocolHeader raw).1.bodyLength.toInt
      have long := Nat.le_trans size.2 size.1
      split at called
      · cases called
      · split at called
        · cases called
          exact long
        · rename_i bytes rest second
          split at called
          · cases called
          · rename_i fits
            obtain ⟨⟨body', retcode', attempts⟩, -, done⟩ := bind_eq_ok.mp called
            cases done
            rw [List.length_append, List.length_drop]
            omega

theorem receiverRound_room (room : pageSize ≤ receiver.buf.length) {next : NamenodeReceiver}
    (taken : receiverRound around receiver () = some next) : pageSize ≤ next.buf.length := by
  unfold receiverRound at taken
  split at taken
  · rename_i next' body retcode called
    obtain rfl := Option.some.inj taken
    exact namenodeReceiver_room room called
  · cases taken

end Round

/-- Over the rounds of a receiver, every body gets a buffer that takes it, if and only if every
round meets the condition on its length. -/
theorem rounds_supplied_iff (around : Surroundings) (receiver : NamenodeReceiver)
    (room : pageSize ≤ receiver.buf.length) (rounds : List Unit) :
    Guarded (fun receiver _ => receiver.Supplied around) (receiverRound around) receiver rounds ↔
      Guarded (fun receiver _ => receiver.Fits around) (receiverRound around) receiver rounds := by
  have kept : ∀ (before : NamenodeReceiver) (event : Unit) (after : NamenodeReceiver),
      pageSize ≤ before.buf.length → receiverRound around before event = some after →
      pageSize ≤ after.buf.length := fun _ _ _ room taken => receiverRound_room room taken
  constructor
  · intro supplied
    refine supplied.of_invariant (fun before event after room _ => kept before event after room) ?_
      room
    exact fun before _ room supplied => (supplied_iff room).mp supplied
  · intro fits
    refine fits.of_invariant (fun before event after room _ => kept before event after room) ?_ room
    exact fun before _ room fits => (supplied_iff room).mpr fits

theorem announced_of_received {receiver : NamenodeReceiver} {raw stream : Bytes}
    {header : DMSProtocolHeader} {retcode : Int}
    (first : recvMsg receiver.stream headerSize = some (raw, stream))
    (parsed : parseNNProtocolHeader raw = (header, retcode)) (ok : ¬ retcode < 0) :
    receiver.announced = some header.bodyLength.toInt := by
  rw [NamenodeReceiver.announced, first, Option.bind_some]
  simp only [parsed, if_neg ok]

theorem announced_frame {receiver : NamenodeReceiver} {frame : Frame} {rest : Bytes}
    (front : receiver.stream = frame.bytes ++ rest) :
    receiver.announced = some (frame.body.length : Int) := by
  rw [announced_of_received (recvMsg_frame front) parseNNProtocolHeader_frame (by decide),
    frame.length]

def pagesFrame : Frame where
  header := .plain 5 response 5000
  body := .replicate 5000 0
  magic := rfl
  length := by
    rw [List.length_replicate]
    decide

/-- Two frames with bodies, the first of which makes the buffer grow. -/
theorem rounds_supplied_iff_example :
    Guarded (fun receiver _ => receiver.Supplied plentiful) (receiverRound plentiful)
      (.init (Frame.allBytes [pagesFrame, commitFrame])) [(), ()] := by
  have front : (NamenodeReceiver.init (Frame.allBytes [pagesFrame, commitFrame])).stream =
      pagesFrame.bytes ++ commitFrame.bytes := by
    simp [Frame.allBytes, NamenodeReceiver.init]
  have paged : Paged (NamenodeReceiver.init (Frame.allBytes [pagesFrame, commitFrame])) :=
    .inl List.length_replicate
  rw [rounds_supplied_iff plentiful _ (Nat.le_of_eq List.length_replicate.symm)]
  generalize NamenodeReceiver.init (Frame.allBytes [pagesFrame, commitFrame]) = first at front paged ⊢
  refine ⟨fun length announced _ => ?_, fun next taken => ⟨fun length announced _ => ?_,
    fun _ _ => trivial⟩⟩
  · rw [announced_frame front, pagesFrame, List.length_replicate] at announced
    cases announced
    right
    have granted : plentiful.grants first.attempts = true := rfl
    rw [if_pos granted]
    decide
  · have called : called plentiful first pagesFrame = some next := taken
    obtain ⟨-, behind⟩ := called_eq_some paged front called
    rw [← List.append_nil commitFrame.bytes] at behind
    rw [announced_frame behind] at announced
    cases announced
    exact .inl (by decide)

def longFrame : Frame where
  header := .plain queryForWrite response 8193
  body := .replicate 8193 0
  magic := rfl
  length := by
    rw [List.length_replicate]
    decide

/-- The buffer that has grown by a page does not take a body of more than two. -/
theorem long_body_not_supplied :
    ¬ ∀ (around : Surroundings) (receiver : NamenodeReceiver) (rounds : List Unit),
      receiver.buf.length = pageSize →
        Guarded (fun receiver _ => receiver.Supplied around) (receiverRound around) receiver
          rounds := by
  intro everyRun
  have supplied := (everyRun plentiful (.init longFrame.bytes) [()] List.length_replicate).1
  have fits := (supplied_iff (Nat.le_of_eq List.length_replicate.symm)).mp supplied
  have announced : (NamenodeReceiver.init longFrame.bytes).announced = some (8193 : Int) := by
    rw [announced_frame (List.append_nil longFrame.bytes).symm, longFrame, List.length_replicate]
    rfl
  rcases fits 8193 announced (by decide) with short | granted
  · exact absurd short (by decide)
  · exact absurd granted (by decide)

end DmsBlkdev
