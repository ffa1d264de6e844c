import DmsBlkdev.UserDaemon.ReadEnds

/-!
# Reading no more than was asked for

When every failure of a connection is followed by data, `ccma_buffer_read`
returns a buffer with all that its calls have brought.  Each call asks for the
same number of bytes, so that may be more than was asked for.
-/

namespace DmsBlkdev.UserDaemon

def Resumes (answers : Nat → Int) (retry call : Nat) : Prop :=
  ∃ gap, 0 < answers (call + gap) ∧
    ((List.range' call gap).countP fun earlier => answers earlier < 0) < retry

/-- Every failure is followed by data within the retry limit. -/
def Persevering (answers : Nat → Int) : Prop :=
  ∀ call, answers call ≤ 0 → Resumes answers 5 (call + 1)

/-- The call returns NULL, or the next `size` bytes of the stream and has consumed and stored no
others. -/
def ReadsExactly (answers : Nat → Int) (stream : Nat → BitVec 8) (size : Nat) : Prop :=
  ∃ bound result, (∀ fuel, bound ≤ fuel → ccmaBufferRead answers stream size fuel = some result) ∧
    ((∃ consumed, result = .null consumed) ∨
      result = .buffer ((List.range size).map stream) size)

section Failures

variable {answers : Nat → Int}

theorem failures_eq_countP (call gap : Nat) : failures answers call gap =
    (List.range' call gap).countP fun earlier => answers earlier < 0 := by
  induction gap with
  | zero => rfl
  | succ gap inductionHypothesis =>
      rw [failures, inductionHypothesis, List.range'_concat, List.countP_append,
        List.countP_singleton]
      simp

theorem failures_mono {call first second : Nat} (le : first ≤ second) :
    failures answers call first ≤ failures answers call second := by
  induction le with
  | refl => exact Nat.le_refl _
  | step _ inductionHypothesis => exact Nat.le_trans inductionHypothesis (Nat.le_add_right _ _)

end Failures

namespace Persevering

variable {answers : Nat → Int}

theorem not_failsFrom (persevering : Persevering answers) (start : Nat) :
    ¬ FailsFrom answers start := by
  rintro ⟨gap, idle, used⟩
  obtain ⟨later, data, few⟩ := persevering start (idle 0 (Nat.succ_pos gap))
  rw [← failures_eq_countP] at few
  -- the data comes behind the calls that bring nothing
  have behind : gap ≤ later := by
    by_contra early
    exact Int.not_lt.mpr (idle.tail later (Nat.not_le.mp early)) data
  exact Nat.not_lt.mpr (Nat.le_trans used (failures_mono behind)) few

theorem brings_more (persevering : Persevering answers) {least : Nat} (positive : 0 < least)
    (call : Nat) : ∃ later, brought answers least call < brought answers least later := by
  have brings (last : Nat) (reached : call ≤ last) (data : 0 < answers last) :
      brought answers least call < brought answers least (last + 1) := by
    have some : 0 < (recv answers least last).toNat :=
      Int.pos_iff_toNat_pos.mp ((recv_pos_iff positive).mpr data)
    exact Nat.lt_of_le_of_lt (brought_mono reached) (Nat.lt_add_of_pos_right some)
  by_cases data : 0 < answers call
  · exact ⟨_, brings call (Nat.le_refl _) data⟩
  · obtain ⟨gap, data, -⟩ := persevering call (Int.not_lt.mp data)
    exact ⟨_, brings (call + 1 + gap) (by omega) data⟩

theorem enough (persevering : Persevering answers) {least : Nat} (positive : 0 < least)
    (size : Nat) : ∃ last, size ≤ brought answers least last := by
  induction size with
  | zero => exact ⟨0, Nat.zero_le _⟩
  | succ size inductionHypothesis =>
      obtain ⟨last, enough⟩ := inductionHypothesis
      obtain ⟨later, more⟩ := persevering.brings_more positive last
      exact ⟨later, Nat.lt_of_le_of_lt enough more⟩

/-- The buffer holds what has been brought when there is at least as much as was asked for. -/
theorem ccmaBufferRead_reads (stream : Nat → BitVec 8) (persevering : Persevering answers)
    {size : Nat} (one : 1 ≤ size) :
    ∃ bound last, FilledAt answers size (min size 255) last ∧ ∀ fuel, bound ≤ fuel →
      ccmaBufferRead answers stream size fuel =
        some (.buffer ((List.range (brought answers (min size 255) last)).map stream)
          (brought answers (min size 255) last)) := by
  have ends := ccmaBufferRead_ends answers stream size
  have positive : 0 < min size 255 := lt_min one (by decide)
  refine ends.filled ?_ (persevering.enough positive size)
  rintro ⟨start, -, -, -, fails⟩
  exact persevering.not_failsFrom start fails

end Persevering

/-- Exactly what was asked for is read if and only if the stream has brought exactly that many bytes
after some call, each call having asked for the same number. -/
theorem ccmaBufferRead_exactly_iff (answers : Nat → Int) (stream : Nat → BitVec 8) (size : Nat)
    (persevering : Persevering answers) (one : 1 ≤ size) :
    ReadsExactly answers stream size ↔ ∃ call, brought answers (min size 255) call = size := by
  obtain ⟨bound, last, ⟨full, least⟩, reads⟩ := persevering.ccmaBufferRead_reads stream one
  constructor
  · rintro ⟨other, result, exactly, wanted⟩
    have same := (exactly _ (Nat.le_max_right bound other)).symm.trans
      (reads _ (Nat.le_max_left bound other))
    obtain ⟨consumed, rfl⟩ | rfl := wanted
    · cases same
    · exact ⟨last, (ReadResult.buffer.inj (Option.some.inj same)).2.symm⟩
  · rintro ⟨call, total⟩
    have reached : last ≤ call := Nat.not_lt.1 fun before =>
      Nat.ne_of_lt (least call before) total
    have same : brought answers (min size 255) last = size :=
      Nat.le_antisymm (Nat.le_trans (brought_mono reached) (Nat.le_of_eq total)) full
    rw [same] at reads
    exact ⟨bound, _, reads, .inr rfl⟩

theorem persevering_data {answers : Nat → Int} (data : ∀ call, 0 < answers call) :
    Persevering answers :=
  fun call failed => absurd failed (Int.not_le.2 (data call))

theorem ccmaBufferRead_exactly_four :
    Persevering (fun _ => 4) ∧
      (ReadsExactly (fun _ => 4) (BitVec.ofNat 8) 4 ↔
        ∃ call, brought (fun _ => 4) (min 4 255) call = 4) :=
  have persevering : Persevering fun _ => 4 := persevering_data fun _ => by decide
  ⟨persevering, ccmaBufferRead_exactly_iff _ _ 4 persevering (by decide)⟩

/-- Where each call brings all that it was asked for, a multiple of it is brought. -/
theorem brought_full {answers : Nat → Int} {least : Nat}
    (full : ∀ call, (least : Int) ≤ answers call) (call : Nat) :
    brought answers least call = call * least := by
  induction call with
  | zero => exact (Nat.zero_mul least).symm
  | succ call inductionHypothesis =>
    have asked : (recv answers least call).toNat = least := by
      rw [recv, Int.min_eq_right (full call), Int.toNat_natCast]
    rw [brought, inductionHypothesis, asked, Nat.succ_mul]

/-- Of 300 bytes the second call asks for 255 again: when the stream has them, 510 are consumed and
stored in a buffer of 300. -/
theorem long_read_not_exactly :
    Persevering (fun _ => 255) ∧
      ¬ReadsExactly (fun _ => 255) (BitVec.ofNat 8) 300 := by
  have persevering : Persevering fun _ => 255 := persevering_data fun _ => by decide
  refine ⟨persevering, ?_⟩
  rintro ⟨other, result, exactly, wanted⟩
  obtain ⟨bound, last, ⟨full, least⟩, reads⟩ :=
    persevering.ccmaBufferRead_reads (BitVec.ofNat 8) (by decide : 1 ≤ 300)
  have same := (exactly _ (Nat.le_max_right bound other)).symm.trans
    (reads _ (Nat.le_max_left bound other))
  obtain ⟨consumed, rfl⟩ | rfl := wanted
  · cases same
  · have total : last * 255 = 300 :=
      (brought_full (fun _ => Int.le_refl _) last).symm.trans
        (ReadResult.buffer.inj (Option.some.inj same)).2.symm
    omega

end DmsBlkdev.UserDaemon
