import DmsBlkdev.Lib.Wire

/-!
# Reading a number of bytes from a connection

The daemon asks `recv` for the same number of bytes again and again until it
has at least as many as it wants.  What `recv` returns is given by answers, one
for each call; the bytes are those of the stream in their order.
-/

namespace DmsBlkdev.UserDaemon

open Lib.Wire

/-- What `ccma_buffer_read` returns: NULL, or a buffer with what has been stored from its beginning
on; and how many bytes of the stream have been consumed. -/
inductive ReadResult where
  | null (consumed : Nat)
  | buffer (stored : Bytes) (consumed : Nat)
  deriving DecidableEq, Repr

section Read

variable (answers : Nat → Int) (stream : Nat → BitVec 8)

/-- `recv` returns as many bytes as it was asked for at most. -/
def recv (least call : Nat) : Int := min (answers call) least

/-- The loop of the retries: the number of bytes that came at last and the next call, or nothing
when the retries are used up.  A result of 0 uses up none. -/
def retryRecv (least : Nat) : Nat → Nat → Nat → Option (Option (Nat × Nat))
  | 0, _, _ => none
  | _ + 1, 0, _ => some none
  | fuel + 1, retry + 1, call =>
      let res := recv answers least call
      if res > 0 then some (some (res.toNat, call + 1))
      else if res < 0 then retryRecv least fuel retry (call + 1)
      else retryRecv least fuel (retry + 1) (call + 1)

/-- The loop of `ccma_buffer_read`; `ptr` bytes have been consumed and stored. -/
def readLoop (size least : Nat) : Nat → Nat → Nat → Bytes → Option ReadResult
  | 0, _, _, _ => none
  | fuel + 1, call, ptr, buf =>
      if ptr < size then
        let res := recv answers least call
        match if res ≤ 0 then retryRecv answers least fuel 5 (call + 1)
            else some (some (res.toNat, call + 1)) with
        | none => none
        | some none => some (.null ptr)
        | some (some (count, next)) =>
            readLoop size least fuel next (ptr + count)
              (buf ++ (List.range' ptr count).map stream)
      else some (.buffer buf ptr)

/-- `ccma_buffer_read`, with `malloc` taken to succeed. -/
def ccmaBufferRead (size fuel : Nat) : Option ReadResult :=
  readLoop answers stream size (min size 255) fuel 0 0 []

end Read

def brought (answers : Nat → Int) (least : Nat) : Nat → Nat
  | 0 => 0
  | call + 1 => brought answers least call + (recv answers least call).toNat

section Calls

variable {answers : Nat → Int} {stream : Nat → BitVec 8} {least : Nat}

theorem brought_mono {first second : Nat} (le : first ≤ second) :
    brought answers least first ≤ brought answers least second := by
  induction le with
  | refl => exact Nat.le_refl _
  | step _ inductionHypothesis => exact Nat.le_trans inductionHypothesis (Nat.le_add_right _ _)

theorem brought_idle {call : Nat} (idle : answers call ≤ 0) :
    brought answers least (call + 1) = brought answers least call := by
  have none : (recv answers least call).toNat = 0 :=
    Int.toNat_of_nonpos (Int.le_trans (Int.min_le_left _ _) idle)
  rw [brought, none, Nat.add_zero]

theorem recv_pos_iff (positive : 0 < least) {call : Nat} :
    0 < recv answers least call ↔ 0 < answers call := by
  rw [recv, lt_min_iff]
  exact and_iff_left (Int.natCast_pos.2 positive)

theorem recv_neg_iff {call : Nat} : recv answers least call < 0 ↔ answers call < 0 := by
  rw [recv, min_lt_iff]
  exact or_iff_left (Int.not_lt.2 (Int.natCast_nonneg least))

theorem retryRecv_data (positive : 0 < least) {fuel retry call : Nat}
    (data : 0 < answers call) :
    retryRecv answers least (fuel + 1) (retry + 1) call =
      some (some ((recv answers least call).toNat, call + 1)) := by
  rw [retryRecv]
  exact if_pos ((recv_pos_iff positive).2 data)

theorem stored_append (first count : Nat) :
    (List.range first).map stream ++ (List.range' first count).map stream =
      (List.range (first + count)).map stream := by
  rw [← List.map_append, List.range_eq_range', List.range_eq_range', ← List.range'_append_1,
    Nat.zero_add]

end Calls

end DmsBlkdev.UserDaemon
