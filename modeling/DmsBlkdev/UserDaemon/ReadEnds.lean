import DmsBlkdev.UserDaemon.BufferRead

/-!
# When a read from a connection ends

`ccma_buffer_read` returns when it has as many bytes as it wants, or when five
errors follow a call without data before more data comes.  A result of 0, which
is the end of the stream, counts as no error; so a stream that ends too early
and gives no errors keeps it in its loop of retries for ever.
-/

namespace DmsBlkdev.UserDaemon

open Lib.Wire

def Idle (answers : Nat → Int) (call gap : Nat) : Prop := ∀ later < gap, answers (call + later) ≤ 0

def failures (answers : Nat → Int) (call : Nat) : Nat → Nat
  | 0 => 0
  | gap + 1 => failures answers call gap + if answers (call + gap) < 0 then 1 else 0

/-- The calls from here on bring nothing until five of those behind the first have failed. -/
def FailsFrom (answers : Nat → Int) (start : Nat) : Prop :=
  ∃ gap, Idle answers start (gap + 1) ∧ 5 ≤ failures answers (start + 1) gap

def OpensRound (answers : Nat → Int) (start : Nat) : Prop :=
  start = 0 ∨ 0 < answers (start - 1)

/-- A round that opens while less than `size` bytes have come, at this call or later, uses up the
retries. -/
def UsedUpFrom (answers : Nat → Int) (size least call : Nat) : Prop :=
  ∃ start, call ≤ start ∧ OpensRound answers start ∧ brought answers least start < size ∧
    FailsFrom answers start

/-- While less than `size` bytes have come, the calls fail as often as the retries allow. -/
def RetriesUsedUp (answers : Nat → Int) (size : Nat) : Prop :=
  UsedUpFrom answers size (min size 255) 0

/-- Some time at least `size` bytes have come. -/
def EnoughComes (answers : Nat → Int) (size : Nat) : Prop :=
  ∃ call, size ≤ brought answers (min size 255) call

section Round

variable {answers : Nat → Int} {least call gap : Nat}

theorem Idle.mono {shorter : Nat} (idle : Idle answers call gap) (le : shorter ≤ gap) :
    Idle answers call shorter :=
  fun later before => idle later (Nat.lt_of_lt_of_le before le)

theorem Idle.brought (idle : Idle answers call gap) :
    brought answers least (call + gap) = brought answers least call := by
  induction gap with
  | zero => rfl
  | succ gap inductionHypothesis =>
      rw [← Nat.add_assoc, brought_idle (idle gap (Nat.lt_succ_self gap)),
        inductionHypothesis (idle.mono (Nat.le_succ gap))]

theorem retryRecv_idle (positive : 0 < least) {retry : Nat} (idle : Idle answers call gap)
    (left : failures answers call gap < retry) (fuel : Nat) :
    retryRecv answers least (fuel + gap) retry call =
      retryRecv answers least fuel (retry - failures answers call gap) (call + gap) := by
  induction gap generalizing fuel with
  | zero => rfl
  | succ gap inductionHypothesis =>
      have last := idle gap (Nat.lt_succ_self gap)
      have noData : ¬ 0 < recv answers least (call + gap) := fun data =>
        Int.not_lt.mpr last ((recv_pos_iff positive).mp data)
      rw [failures] at left ⊢
      have before := inductionHypothesis (idle.mono (Nat.le_succ gap))
        (Nat.lt_of_le_of_lt (Nat.le_add_right _ _) left) (fuel + 1)
      rw [Nat.add_right_comm, Nat.add_assoc] at before
      rw [before]
      obtain ⟨more, moreRetries⟩ : ∃ more, retry - failures answers call gap = more + 1 :=
        Nat.exists_eq_add_one.mpr (by omega)
      rw [moreRetries, retryRecv, if_neg noData, ← Nat.add_assoc]
      by_cases failed : answers (call + gap) < 0
      · rw [if_pos failed] at left
        rw [if_pos (recv_neg_iff.mpr failed), if_pos failed]
        congr 1
        omega
      · rw [if_neg (recv_neg_iff.not.mpr failed), if_neg failed, ← moreRetries]
        rfl

/-- One round of `ccma_buffer_read`: a call, and the retries when it brings nothing. -/
def recvRound (answers : Nat → Int) (least fuel call : Nat) : Option (Option (Nat × Nat)) :=
  if recv answers least call ≤ 0 then retryRecv answers least fuel 5 (call + 1)
  else some (some ((recv answers least call).toNat, call + 1))

/-- What a round comes to: data, no retries left, or a wait without an end. -/
inductive RoundOutcome (answers : Nat → Int) (call : Nat) : Prop
  | data (gap : Nat) (idle : Idle answers call gap) (brings : 0 < answers (call + gap))
      (left : ¬ FailsFrom answers call)
  | usedUp (fails : FailsFrom answers call)
  | waits (idle : ∀ gap, Idle answers call gap) (left : ¬ FailsFrom answers call)

theorem roundOutcome (answers : Nat → Int) (call : Nat) : RoundOutcome answers call := by
  by_cases fails : FailsFrom answers call
  · exact .usedUp fails
  · by_cases comes : ∃ gap, 0 < answers (call + gap)
    · have idle : Idle answers call (Nat.find comes) := fun later before =>
        Int.not_lt.mp (Nat.find_min comes before)
      exact .data _ idle (Nat.find_spec comes) fails
    · refine .waits (fun gap later _ => ?_) fails
      exact Int.not_lt.mp fun data => comes ⟨later, data⟩

theorem Idle.tail (idle : Idle answers call (gap + 1)) : Idle answers (call + 1) gap := by
  intro later before
  rw [Nat.add_assoc, Nat.add_comm 1]
  exact idle (later + 1) (Nat.succ_lt_succ before)

theorem recvRound_idle (positive : 0 < least) (fuel : Nat) (idle : Idle answers call (gap + 1)) :
    recvRound answers least fuel call = retryRecv answers least fuel 5 (call + 1) :=
  have first : answers call ≤ 0 := idle 0 (Nat.succ_pos gap)
  if_pos (Int.not_lt.mp ((recv_pos_iff positive).not.mpr (Int.not_lt.mpr first)))

theorem failures_lt (left : ¬ FailsFrom answers call) (idle : Idle answers call (gap + 1)) :
    failures answers (call + 1) gap < 5 :=
  Nat.not_le.mp fun used => left ⟨gap, idle, used⟩

theorem recvRound_short (positive : 0 < least) (fuel : Nat) (left : ¬ FailsFrom answers call)
    (idle : Idle answers call (fuel + 1)) : recvRound answers least fuel call = none := by
  have waited := retryRecv_idle positive idle.tail (failures_lt left idle) 0
  rw [recvRound_idle positive fuel idle, ← Nat.zero_add fuel, waited,
    retryRecv]

theorem recvRound_data (positive : 0 < least) (idle : Idle answers call gap)
    (brings : 0 < answers (call + gap)) (left : ¬ FailsFrom answers call) (fuel : Nat) :
    recvRound answers least fuel call =
      if gap ≤ fuel then some (some ((recv answers least (call + gap)).toNat, call + gap + 1))
      else none := by
  by_cases enough : gap ≤ fuel
  · rw [if_pos enough]
    cases gap with
    | zero => exact if_neg (Int.not_le.mpr ((recv_pos_iff positive).mpr brings))
    | succ gap =>
        obtain ⟨fuel, rfl⟩ := Nat.exists_eq_add_of_le' enough
        have waited := retryRecv_idle positive idle.tail (failures_lt left idle) (fuel + 1)
        obtain ⟨more, moreRetries⟩ : ∃ more, 5 - failures answers (call + 1) gap = more + 1 :=
          Nat.exists_eq_add_one.mpr (Nat.sub_pos_of_lt (failures_lt left idle))
        have place : call + 1 + gap = call + (gap + 1) := by omega
        rw [moreRetries, place] at waited
        rw [recvRound_idle positive _ idle, ← Nat.add_assoc,
          Nat.add_right_comm, waited, retryRecv_data positive brings]
  · rw [if_neg enough]
    exact recvRound_short positive fuel left (idle.mono (Nat.succ_le_of_lt (Nat.not_le.mp enough)))

theorem recvRound_usedUp (positive : 0 < least) (fails : FailsFrom answers call) :
    ∃ bound, ∀ fuel, bound ≤ fuel → recvRound answers least fuel call = some none := by
  obtain ⟨gap, idle, used⟩ := fails
  -- the fifth error is the one that uses up the last retry
  have exhausted : ∃ gap, 5 ≤ failures answers (call + 1) gap := ⟨gap, used⟩
  obtain ⟨last, first⟩ : ∃ last, Nat.find exhausted = last + 1 := by
    refine Nat.exists_eq_add_one.mpr (Nat.pos_of_ne_zero fun none => ?_)
    have some := Nat.find_spec exhausted
    rw [none] at some
    exact Nat.not_succ_le_zero 4 some
  have reached := Nat.find_spec exhausted
  have before : failures answers (call + 1) last < 5 :=
    Nat.not_le.mp (Nat.find_min exhausted (first ▸ Nat.lt_succ_self last))
  rw [first, failures] at reached
  have failed : answers (call + 1 + last) < 0 := by
    by_contra notFailed
    rw [if_neg notFailed] at reached
    exact Nat.not_le.mpr before reached
  rw [if_pos failed] at reached
  have one : 5 - failures answers (call + 1) last = 1 := by omega
  have within : last + 1 ≤ gap := first ▸ Nat.find_le used
  refine ⟨last + 2, fun fuel enough => ?_⟩
  obtain ⟨fuel, rfl⟩ := Nat.exists_eq_add_of_le' enough
  have waited :=
    retryRecv_idle positive (idle.tail.mono (Nat.le_of_succ_le within)) before (fuel + 2)
  rw [one] at waited
  have noData : ¬ 0 < recv answers least (call + 1 + last) := fun data =>
    Int.lt_asymm failed ((recv_pos_iff positive).mp data)
  rw [recvRound_idle positive _ idle, Nat.add_comm last, ← Nat.add_assoc,
    waited, retryRecv, if_neg noData, if_pos (recv_neg_iff.mpr failed), retryRecv]

end Round

section Loop

variable {answers : Nat → Int} {stream : Nat → BitVec 8} {size least call gap : Nat}

theorem readLoop_more {fuel ptr : Nat} {buf : Bytes} (more : ptr < size) :
    readLoop answers stream size least (fuel + 1) call ptr buf =
      match recvRound answers least fuel call with
      | none => none
      | some none => some (.null ptr)
      | some (some (count, next)) =>
          readLoop answers stream size least fuel next (ptr + count)
            (buf ++ (List.range' ptr count).map stream) := by
  rw [readLoop, if_pos more]
  rfl

def readFrom (answers : Nat → Int) (stream : Nat → BitVec 8) (size least call fuel : Nat) :
    Option ReadResult :=
  readLoop answers stream size least fuel call (brought answers least call)
    ((List.range (brought answers least call)).map stream)

structure FilledAt (answers : Nat → Int) (size least last : Nat) : Prop where
  full : size ≤ brought answers least last
  first : ∀ earlier < last, brought answers least earlier < size

structure ReadsFrom (answers : Nat → Int) (stream : Nat → BitVec 8) (size least call : Nat) :
    Prop where
  usedUp : UsedUpFrom answers size least call → ∃ bound consumed, ∀ fuel, bound ≤ fuel →
    readFrom answers stream size least call fuel = some (.null consumed)
  filled : ¬ UsedUpFrom answers size least call → (∃ last, size ≤ brought answers least last) →
    ∃ bound last, FilledAt answers size least last ∧ ∀ fuel, bound ≤ fuel →
      readFrom answers stream size least call fuel =
        some (.buffer ((List.range (brought answers least last)).map stream)
          (brought answers least last))
  never : ¬ UsedUpFrom answers size least call → ¬ (∃ last, size ≤ brought answers least last) →
    ∀ fuel, readFrom answers stream size least call fuel = none

theorem readsFrom_filled (filled : FilledAt answers size least call) :
    ReadsFrom answers stream size least call where
  usedUp := by
    rintro ⟨start, later, -, short, -⟩
    exact absurd (Nat.le_trans filled.full (brought_mono later)) (Nat.not_le.mpr short)
  filled _ _ := by
    refine ⟨1, call, filled, fun fuel enough => ?_⟩
    obtain ⟨fuel, rfl⟩ := Nat.exists_eq_add_of_le' enough
    rw [readFrom, readLoop, if_neg (Nat.not_lt.mpr filled.full)]
  never _ short := absurd ⟨call, filled.full⟩ short

theorem readFrom_data (positive : 0 < least) (short : brought answers least call < size)
    (idle : Idle answers call gap) (brings : 0 < answers (call + gap))
    (left : ¬ FailsFrom answers call) (fuel : Nat) :
    readFrom answers stream size least call (fuel + 1) =
      if gap ≤ fuel then readFrom answers stream size least (call + gap + 1) fuel else none := by
  have total : brought answers least (call + gap + 1) =
      brought answers least call + (recv answers least (call + gap)).toNat := by
    rw [brought, idle.brought]
  rw [readFrom, readLoop_more short, recvRound_data positive idle brings left]
  by_cases enough : gap ≤ fuel
  · rw [if_pos enough, if_pos enough, readFrom, total, ← stored_append]
  · rw [if_neg enough, if_neg enough]

theorem usedUpFrom_data (idle : Idle answers call gap) (left : ¬ FailsFrom answers call) :
    UsedUpFrom answers size least call ↔ UsedUpFrom answers size least (call + gap + 1) := by
  constructor
  · rintro ⟨start, later, opens, short, fails⟩
    refine ⟨start, ?_, opens, short, fails⟩
    by_contra before
    have different : start ≠ call := fun same => left (same ▸ fails)
    rcases opens with first | data
    · omega
    · have nothing := idle (start - 1 - call) (by omega)
      rw [Nat.add_sub_cancel' (by omega)] at nothing
      exact Int.not_lt.mpr nothing data
  · rintro ⟨start, later, spec⟩
    exact ⟨start, by omega, spec⟩

theorem readsFrom_data (positive : 0 < least) (short : brought answers least call < size)
    (idle : Idle answers call gap) (brings : 0 < answers (call + gap))
    (left : ¬ FailsFrom answers call)
    (behind : ReadsFrom answers stream size least (call + gap + 1)) :
    ReadsFrom answers stream size least call := by
  have round := @readFrom_data answers stream size least call gap positive short idle brings left
  have later {bound : Nat} {result : ReadResult} (reads : ∀ fuel, bound ≤ fuel →
      readFrom answers stream size least (call + gap + 1) fuel = some result) :
      ∀ fuel, max bound gap + 1 ≤ fuel →
        readFrom answers stream size least call fuel = some result := by
    intro fuel enough
    obtain ⟨fuel, rfl⟩ := Nat.exists_eq_add_of_le' (Nat.le_of_add_left_le enough)
    have enough : max bound gap ≤ fuel := Nat.le_of_succ_le_succ enough
    rw [round, if_pos (Nat.le_trans (Nat.le_max_right _ _) enough)]
    exact reads fuel (Nat.le_trans (Nat.le_max_left _ _) enough)
  constructor
  · intro usedUp
    obtain ⟨bound, consumed, reads⟩ :=
      behind.usedUp ((usedUpFrom_data idle left).mp usedUp)
    exact ⟨_, consumed, later reads⟩
  · intro notUsedUp enough
    obtain ⟨bound, last, filled, reads⟩ :=
      behind.filled ((usedUpFrom_data idle left).not.mp notUsedUp) enough
    exact ⟨_, last, filled, later reads⟩
  · intro notUsedUp short fuel
    cases fuel with
    | zero => rfl
    | succ fuel =>
        rw [round, behind.never ((usedUpFrom_data idle left).not.mp notUsedUp) short]
        exact ite_self none

theorem short_until (idle : Idle answers call gap) (short : brought answers least call < size) :
    ∀ earlier < call + gap + 1, brought answers least earlier < size := by
  intro earlier before
  have upTo := @brought_mono answers least _ _ (Nat.le_of_lt_succ before)
  rw [idle.brought] at upTo
  exact Nat.lt_of_le_of_lt upTo short

/-- Every loop that a round opens ends in one of these ways. -/
theorem readsFrom (positive : 0 < least) (room : Nat) (opens : OpensRound answers call)
    (before : ∀ earlier < call, brought answers least earlier < size)
    (missing : size - brought answers least call ≤ room) :
    ReadsFrom answers stream size least call := by
  -- a round that brings data leaves less room
  induction room generalizing call with
  | zero => exact readsFrom_filled ⟨Nat.le_of_sub_eq_zero (Nat.le_zero.mp missing), before⟩
  | succ room inductionHypothesis =>
      by_cases short : brought answers least call < size
      · cases roundOutcome answers call with
        | data gap idle brings left =>
            apply readsFrom_data positive short idle brings left
            apply inductionHypothesis (.inr brings) (short_until idle short)
            have some : 0 < (recv answers least (call + gap)).toNat :=
              Int.pos_iff_toNat_pos.mp ((recv_pos_iff positive).mpr brings)
            rw [brought, idle.brought]
            omega
        | usedUp fails =>
            have here : UsedUpFrom answers size least call :=
              ⟨call, Nat.le_refl _, opens, short, fails⟩
            obtain ⟨bound, ends⟩ := recvRound_usedUp positive fails
            refine ⟨fun _ => ⟨bound + 1, brought answers least call, fun fuel enough => ?_⟩,
              absurd here, absurd here⟩
            obtain ⟨fuel, rfl⟩ := Nat.exists_eq_add_of_le' (Nat.le_of_add_left_le enough)
            rw [readFrom, readLoop_more short, ends fuel (Nat.le_of_succ_le_succ enough)]
        | waits idle left =>
            constructor
            · rintro ⟨start, later, opens, -, fails⟩
              rcases Nat.eq_or_lt_of_le later with rfl | later
              · exact absurd fails left
              · rcases opens with first | data
                · omega
                · have nothing := idle (start - call) (start - 1 - call) (by omega)
                  rw [Nat.add_sub_cancel' (by omega)] at nothing
                  exact absurd data (Int.not_lt.mpr nothing)
            · rintro - ⟨last, full⟩
              rcases Nat.le_total last call with before | later
              · exact absurd (Nat.le_trans full (brought_mono before)) (Nat.not_le.mpr short)
              · obtain ⟨gap, rfl⟩ := Nat.exists_eq_add_of_le later
                rw [(idle gap).brought] at full
                exact absurd full (Nat.not_le.mpr short)
            · intro _ _ fuel
              cases fuel with
              | zero => rfl
              | succ fuel =>
                  rw [readFrom, readLoop_more short,
                    recvRound_short positive fuel left (idle (fuel + 1))]
      · exact readsFrom_filled ⟨Nat.not_lt.mp short, before⟩

end Loop

/-- How `ccma_buffer_read` ends, if it does. -/
theorem ccmaBufferRead_ends (answers : Nat → Int) (stream : Nat → BitVec 8) (size : Nat) :
    ReadsFrom answers stream size (min size 255) 0 := by
  cases size with
  | zero =>
      exact readsFrom_filled ⟨Nat.zero_le _, fun _ before => absurd before (Nat.not_lt_zero _)⟩
  | succ size =>
      exact readsFrom (by omega) (size + 1) (.inl rfl)
        (fun _ before => absurd before (Nat.not_lt_zero _)) (Nat.sub_le _ _)

/-- From some bound on, `fuel` does not matter any more. -/
def Returns {Result : Type} (call : Nat → Option Result) : Prop :=
  ∃ bound result, ∀ fuel, bound ≤ fuel → call fuel = some result

theorem not_returns {Result : Type} {call : Nat → Option Result}
    (never : ∀ fuel, call fuel = none) : ¬ Returns call := by
  rintro ⟨bound, result, returns⟩
  exact Option.some_ne_none result ((returns bound (Nat.le_refl _)).symm.trans (never bound))

theorem ccmaBufferRead_returns_iff (answers : Nat → Int) (stream : Nat → BitVec 8) (size : Nat) :
    Returns (ccmaBufferRead answers stream size) ↔
      RetriesUsedUp answers size ∨ EnoughComes answers size := by
  have ends := ccmaBufferRead_ends answers stream size
  constructor
  · intro returns
    by_contra neither
    obtain ⟨notUsedUp, short⟩ := not_or.mp neither
    exact not_returns (ends.never notUsedUp short) returns
  · intro either
    by_cases usedUp : RetriesUsedUp answers size
    · obtain ⟨bound, consumed, reads⟩ := ends.usedUp usedUp
      exact ⟨bound, _, reads⟩
    · obtain ⟨bound, last, -, reads⟩ := ends.filled usedUp (either.resolve_left usedUp)
      exact ⟨bound, _, reads⟩

end DmsBlkdev.UserDaemon
