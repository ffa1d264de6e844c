import Mathlib.Data.List.Basic

/-!
# Moving bytes over a socket

`sock_xmit` asks the kernel to send or to receive until the whole length has
been moved or an error ends it.  A send is moved in one piece or not at all; a
receive may come in pieces, and what is returned then is the length of the last
one.  What the kernel answers, and when the thread is told to stop, is given by
rounds, one for each call; the flags of the message only go to the kernel.
-/

namespace DmsBlkdev

def eAGAIN : Int := 11
def eTIMEDOUT : Int := 110
def ePIPE : Int := 32

/-- `EDNC_CONNECT`. -/
def eDNCConnect : Int := 1601

/-- `EDNC_SNDTIMEO`. -/
def eDNCSndtimeo : Int := 1604

/-- A call of the kernel: what `kthread_should_stop` says before it, the result, and whether the
socket is in `TCP_ESTABLISHED` behind it. -/
structure Round where
  shouldStop : Bool
  result : Int
  established : Bool
  deriving DecidableEq, Repr

/-- The kernel moves as much as it is asked for at most. -/
def Round.answer (round : Round) (len : Nat) : Int := min round.result len

/-- `DMS_Sock_ErrorHandling`. -/
def dmsSockErrorHandling (established send : Bool) (errno : Int) : Int :=
  if errno = 0 ∨ errno = -eAGAIN ∨ errno = -eTIMEDOUT then
    if established then if send then errno else 0
    else if send then -eDNCSndtimeo else -eDNCConnect
  else errno

/-- What one pass through the outer loop of `sock_xmit` gets from the kernel: the result, the number
of bytes moved and the round of the last call. -/
structure Pass where
  result : Int
  moved : Nat
  last : Nat
  deriving DecidableEq, Repr

section Xmit

variable (rounds : Nat → Round)

/-- The branch of a send. -/
def sendPass (len round : Nat) : Pass :=
  let result := (rounds round).answer len
  ⟨if result ≠ len ∧ result > 0 then -eDNCSndtimeo else result, result.toNat, round⟩

/-- The loop of a receive. -/
def recvPass (len : Nat) : Nat → Nat → Option Pass
  | 0, _ => none
  | fuel + 1, round =>
      if (rounds round).shouldStop then some ⟨-ePIPE, 0, round⟩
      else
        let result := (rounds round).answer len
        if result = 0 ∨ result = -eAGAIN ∨ result = -eTIMEDOUT then recvPass len fuel (round + 1)
        else some ⟨result, result.toNat, round⟩

/-- `sock_xmit` from a round on, with the place in the buffer and the length that is left: the
return code, and the places of the bytes moved. -/
def sockXmit (send : Bool) : Nat → Nat → Nat → Nat → List Nat → Option (Int × List Nat)
  | 0, _, _, _, _ => none
  | fuel + 1, round, buf, len, moved =>
      match if send then some (sendPass rounds len round) else recvPass rounds len fuel round with
      | none => none
      | some pass =>
          let moved := moved ++ List.range' buf pass.moved
          let result := if pass.result ≤ 0 then
            dmsSockErrorHandling (rounds pass.last).established send pass.result else pass.result
          if result < 0 then some (result, moved)
          else
            let len := len - result.toNat
            let buf := buf + result.toNat
            if len > 0 then sockXmit send fuel (pass.last + 1) buf len moved
            else some (result, moved)

end Xmit

def Round.Decides (send : Bool) (len : Nat) (round : Round) : Prop :=
  0 < len ∧ 0 < round.result ∨
    if send then round.result < 0 ∨ round.established = false
    else round.shouldStop = true ∨
      round.result < 0 ∧ round.result ≠ -eAGAIN ∧ round.result ≠ -eTIMEDOUT

def Eventful (send : Bool) (len : Nat) (rounds : Nat → Round) : Prop :=
  ∀ round, ∃ later, round ≤ later ∧ (rounds later).Decides send len

def Round.Live (round : Round) : Prop :=
  round.shouldStop = false ∧
    (0 ≤ round.result ∨ round.result = -eAGAIN ∨ round.result = -eTIMEDOUT)

def received (rounds : Nat → Round) : Nat → Nat
  | 0 => 0
  | round + 1 => received rounds round + (rounds round).result.toNat

structure CompletesAt (rounds : Nat → Round) (len round : Nat) : Prop where
  live : ∀ earlier ≤ round, (rounds earlier).Live
  before : received rounds round < len
  behind : len ≤ received rounds (round + 1)

section Receive

variable {rounds : Nat → Round} {len left : Nat}

theorem received_mono {first second : Nat} (le : first ≤ second) :
    received rounds first ≤ received rounds second := by
  induction le with
  | refl => exact Nat.le_refl _
  | step _ inductionHypothesis => exact Nat.le_trans inductionHypothesis (Nat.le_add_right _ _)

theorem CompletesAt.unique {first second : Nat} (one : CompletesAt rounds len first)
    (other : CompletesAt rounds len second) : first = second := by
  rcases Nat.lt_trichotomy first second with less | same | more
  · have bound := @received_mono rounds (first + 1) second less
    have before := other.before
    have behind := one.behind
    omega
  · exact same
  · have bound := @received_mono rounds (second + 1) first more
    have before := one.before
    have behind := other.behind
    omega

def Round.Waits (left : Nat) (round : Round) : Prop :=
  round.shouldStop = false ∧
    (round.answer left = 0 ∨ round.answer left = -eAGAIN ∨ round.answer left = -eTIMEDOUT)

instance (left : Nat) (round : Round) : Decidable (round.Waits left) :=
  inferInstanceAs (Decidable (_ ∧ _))

def recvEnd (round : Round) (left last : Nat) : Pass :=
  if round.shouldStop then ⟨-ePIPE, 0, last⟩
  else ⟨round.answer left, (round.answer left).toNat, last⟩

theorem recvPass_step (fuel round : Nat) :
    recvPass rounds left (fuel + 1) round =
      if (rounds round).Waits left then recvPass rounds left fuel (round + 1)
      else some (recvEnd (rounds round) left round) := by
  rw [recvPass]
  by_cases stop : (rounds round).shouldStop = true
  · have ends : ¬ (rounds round).Waits left := fun waits => by
      rw [waits.1] at stop
      cases stop
    rw [if_pos stop, if_neg ends, recvEnd, if_pos stop]
  · have goes : (rounds round).shouldStop = false := Bool.eq_false_iff.mpr stop
    simp only [recvEnd, Round.Waits, goes, true_and, Bool.false_eq_true, if_false]

/-- The inner loop ends with the first call that does not wait. -/
theorem recvPass_ends (gap round : Nat) (ends : ¬ (rounds (round + gap)).Waits left) :
    ∃ last, round ≤ last ∧ (∀ k, round ≤ k → k < last → (rounds k).Waits left) ∧
      ¬ (rounds last).Waits left ∧
      ∀ fuel, gap < fuel → recvPass rounds left fuel round =
        some (recvEnd (rounds last) left last) := by
  induction gap generalizing round with
  | zero =>
      rw [Nat.add_zero] at ends
      refine ⟨round, Nat.le_refl _,
        fun k lower upper => absurd upper (Nat.not_lt_of_le lower), ends,
        fun fuel enough => ?_⟩
      obtain ⟨fuel, rfl⟩ := Nat.exists_eq_add_one.mpr enough
      rw [recvPass_step, if_neg ends]
  | succ gap inductionHypothesis =>
      by_cases waits : (rounds round).Waits left
      · have shifted : round + (gap + 1) = round + 1 + gap := by omega
        rw [shifted] at ends
        obtain ⟨last, later, waited, ended, result⟩ := inductionHypothesis (round + 1) ends
        refine ⟨last, by omega, fun k lower upper => ?_, ended, fun fuel enough => ?_⟩
        · rcases Nat.eq_or_lt_of_le lower with rfl | above
          · exact waits
          · exact waited k above upper
        · obtain ⟨fuel, rfl⟩ := Nat.exists_eq_add_one.mpr (Nat.zero_lt_of_lt enough)
          rw [recvPass_step, if_pos waits]
          exact result fuel (by omega)
      · refine ⟨round, Nat.le_refl _, fun k lower upper => absurd upper (Nat.not_lt_of_le lower),
          waits, fun fuel enough => ?_⟩
        obtain ⟨fuel, rfl⟩ := Nat.exists_eq_add_one.mpr (Nat.zero_lt_of_lt enough)
        rw [recvPass_step, if_neg waits]

theorem Round.Waits.live {round : Round} (positive : 0 < left) (waits : round.Waits left) :
    round.Live ∧ round.result.toNat = 0 := by
  obtain ⟨goes, answers⟩ := waits
  simp only [Round.answer, eAGAIN, eTIMEDOUT] at answers
  have result : round.result = 0 ∨ round.result = -11 ∨ round.result = -110 := by omega
  refine ⟨⟨goes, ?_⟩, by omega⟩
  rcases result with zero | again | timedOut
  · exact .inl (Int.le_of_eq zero.symm)
  · exact .inr (.inl again)
  · exact .inr (.inr timedOut)

theorem received_waits {first last : Nat} (positive : 0 < left) (le : first ≤ last)
    (waited : ∀ k, first ≤ k → k < last → (rounds k).Waits left) :
    received rounds last = received rounds first := by
  induction le with
  | refl => rfl
  | @step last le inductionHypothesis =>
      have none := ((waited last le (Nat.lt_succ_self last)).live positive).2
      rw [received, none, inductionHypothesis fun k lower upper =>
        waited k lower (Nat.lt_succ_of_lt upper)]
      rfl

/-- How a receive of `len` bytes ends: with an error, or with the length of the piece that completed
it. -/
def RecvOutcome (rounds : Nat → Round) (len : Nat) (result : Int × List Nat) : Prop :=
  (result.1 < 0 ∧ (∃ count ≤ len, result.2 = List.range count) ∧
      ∀ round, ¬ CompletesAt rounds len round) ∨
    ∃ round, CompletesAt rounds len round ∧
      result = ((len : Int) - received rounds round, List.range len)

theorem dmsSockErrorHandling_error {established send : Bool} {errno : Int} (error : errno < 0)
    (again : errno ≠ -eAGAIN) (timedOut : errno ≠ -eTIMEDOUT) :
    dmsSockErrorHandling established send errno = errno := by
  rw [dmsSockErrorHandling, if_neg]
  rintro (zero | same | same)
  · omega
  · exact again same
  · exact timedOut same

theorem Round.Decides.not_waits {round : Round} (decides : round.Decides false len)
    (positive : 0 < len → 0 < left) : ¬ round.Waits left := by
  rintro ⟨goes, answers⟩
  simp only [Round.answer, eAGAIN, eTIMEDOUT] at answers
  rcases decides with ⟨some, progress⟩ | stop | ⟨error, again, timedOut⟩
  · have room := positive some
    omega
  · rw [goes] at stop
    cases stop
  · simp only [eAGAIN, eTIMEDOUT] at again timedOut
    omega

theorem not_completesAt {last : Nat} (dead : ¬ (rounds last).Live)
    (short : 0 < len → received rounds last < len) (round : Nat) :
    ¬ CompletesAt rounds len round := by
  intro completes
  have before := completes.before
  have behind := completes.behind
  have missing := short (by omega)
  rcases Nat.lt_or_ge round last with early | late
  · have bound := @received_mono rounds (round + 1) last early
    omega
  · exact dead (completes.live last late)

theorem Round.not_live_of_error {round : Round} (ends : ¬ round.Waits left)
    (none : round.answer left ≤ 0) : ¬ round.Live := by
  rintro ⟨goes, result⟩
  apply ends
  refine ⟨goes, ?_⟩
  simp only [Round.answer, eAGAIN, eTIMEDOUT] at none result ⊢
  omega

/-- A pass of a receive ends it with an error, or brings some bytes. -/
theorem sockXmit_recvEnd {round buf last bound : Nat} {moved : List Nat}
    (ended : ∀ fuel, bound < fuel → recvPass rounds left fuel round =
      some (recvEnd (rounds last) left last)) (ends : ¬ (rounds last).Waits left) :
    (∃ errno < 0, ¬ (rounds last).Live ∧ ∀ fuel, bound < fuel →
        sockXmit rounds false (fuel + 1) round buf left moved = some (errno, moved)) ∨
      ∃ count : Nat, 0 < count ∧ (rounds last).answer left = count ∧ (rounds last).Live ∧
        ∀ fuel, bound < fuel → sockXmit rounds false (fuel + 1) round buf left moved =
          if left - count > 0 then
            sockXmit rounds false fuel (last + 1) (buf + count) (left - count)
              (moved ++ List.range' buf count)
          else some ((count : Int), moved ++ List.range' buf count) := by
  by_cases stop : (rounds last).shouldStop = true
  · -- the thread is told to stop
    left
    have error : dmsSockErrorHandling (rounds last).established false (-ePIPE) = -ePIPE := by
      apply dmsSockErrorHandling_error <;> decide
    have negative : -ePIPE ≤ 0 := by decide
    have below : -ePIPE < 0 := by decide
    refine ⟨-ePIPE, below, fun live => Bool.eq_false_iff.mp live.1 stop, fun fuel enough => ?_⟩
    rw [sockXmit]
    simp only [Bool.false_eq_true, if_false, ended fuel enough, recvEnd, if_pos stop,
      if_pos negative, error, if_pos below, List.range'_zero, List.append_nil]
  · by_cases none : (rounds last).answer left ≤ 0
    · -- an error that is not retried
      left
      have fatal := not_and.mp ends (Bool.eq_false_iff.mpr stop)
      simp only [not_or] at fatal
      obtain ⟨notZero, again, timedOut⟩ := fatal
      have negative : (rounds last).answer left < 0 := by omega
      have empty : ((rounds last).answer left).toNat = 0 := Int.toNat_of_nonpos none
      refine ⟨_, negative, Round.not_live_of_error ends none, fun fuel enough => ?_⟩
      rw [sockXmit]
      simp only [Bool.false_eq_true, if_false, ended fuel enough, recvEnd, if_neg stop,
        if_pos none, dmsSockErrorHandling_error negative again timedOut, if_pos negative, empty,
        List.range'_zero, List.append_nil]
    · -- some bytes came
      right
      have value : (rounds last).answer left = min (rounds last).result left := rfl
      have counted : (rounds last).answer left = ((rounds last).answer left).toNat :=
        (Int.toNat_of_nonneg (by omega)).symm
      have notNegative : ¬ (rounds last).answer left < 0 := by omega
      refine ⟨((rounds last).answer left).toNat, by omega, counted,
        ⟨Bool.eq_false_iff.mpr stop, .inl (by omega)⟩, fun fuel enough => ?_⟩
      rw [sockXmit]
      simp only [Bool.false_eq_true, if_false, ended fuel enough, recvEnd, if_neg stop,
        if_neg none, if_neg notNegative, ← counted]

theorem range_append_range' (buf count : Nat) :
    List.range buf ++ List.range' buf count = List.range (buf + count) := by
  have joined := @List.range'_append_1 0 buf count
  rwa [Nat.zero_add, ← List.range_eq_range', ← List.range_eq_range'] at joined

/-- From the start of a pass on, a receive comes to its end. -/
theorem sockXmit_receive (eventful : Eventful false len rounds) (left : Nat) :
    ∀ round buf, buf + left = len → (0 < len → 0 < left) → received rounds round = buf →
      (∀ k < round, (rounds k).Live) →
      ∃ bound result, (∀ fuel, bound ≤ fuel →
          sockXmit rounds false fuel round buf left (List.range buf) = some result) ∧
        RecvOutcome rounds len result := by
  induction left using Nat.strongRecOn with
  | ind left inductionHypothesis =>
      intro round buf whole positive brought liveBefore
      obtain ⟨later, le, decides⟩ := eventful round
      obtain ⟨gap, rfl⟩ := Nat.exists_eq_add_of_le le
      obtain ⟨last, onward, waited, ends, ended⟩ :=
        recvPass_ends gap round (decides.not_waits positive)
      have broughtLast (room : 0 < left) : received rounds last = buf := by
        rw [received_waits room onward waited, brought]
      have short (some : 0 < len) : received rounds last < len := by
        have room := positive some
        rw [broughtLast room]
        omega
      rcases @sockXmit_recvEnd _ _ round buf last gap (List.range buf) ended ends with
        ⟨errno, error, dead, step⟩ | ⟨count, some, answered, live, step⟩
      · refine ⟨gap + 2, (errno, List.range buf), fun fuel enough => ?_,
          .inl ⟨error, ⟨buf, Nat.le.intro whole, rfl⟩, not_completesAt dead short⟩⟩
        obtain ⟨fuel, rfl⟩ := Nat.exists_eq_add_one.mpr (Nat.zero_lt_of_lt enough)
        exact step fuel (Nat.le_of_succ_le_succ enough)
      · have value : (rounds last).answer left = min (rounds last).result left := rfl
        have room : 0 < left := by omega
        have liveThrough : ∀ k < last + 1, (rounds k).Live := by
          intro k below
          rcases Nat.lt_or_ge k round with early | late
          · exact liveBefore k early
          · rcases Nat.eq_or_lt_of_le (Nat.le_of_lt_succ below) with rfl | before
            · exact live
            · exact ((waited k late before).live room).1
        have sum : received rounds (last + 1) = buf + (rounds last).result.toNat := by
          rw [received, broughtLast room]
        rw [range_append_range'] at step
        by_cases more : left - count > 0
        · -- the rest comes in the passes behind this one
          obtain ⟨bound, result, done, outcome⟩ := inductionHypothesis (left - count) (by omega)
            (last + 1) (buf + count) (by omega) (fun _ => more) (by rw [sum]; omega) liveThrough
          refine ⟨max (gap + 2) (bound + 1), result, fun fuel enough => ?_, outcome⟩
          obtain ⟨fuel, rfl⟩ := Nat.exists_eq_add_one.mpr
            (Nat.zero_lt_of_lt (Nat.le_trans (Nat.le_max_left _ _) enough))
          rw [step fuel (by omega), if_pos more, done fuel (by omega)]
        · have completes : CompletesAt rounds len last := by
            refine ⟨fun earlier within => liveThrough earlier (Nat.lt_succ_of_le within),
              short (by omega), ?_⟩
            rw [sum]
            omega
          have filled : buf + count = len := by omega
          have piece : (count : Int) = (len : Int) - buf := by omega
          refine ⟨gap + 2, _, fun fuel enough => ?_, .inr ⟨last, completes, rfl⟩⟩
          obtain ⟨fuel, rfl⟩ := Nat.exists_eq_add_one.mpr (Nat.zero_lt_of_lt enough)
          rw [step fuel (Nat.le_of_succ_le_succ enough), if_neg more, filled, piece,
            broughtLast room]

end Receive

section Send

variable {rounds : Nat → Round} {len : Nat}

/-- How a send of `len` bytes ends: without success, or in one piece. -/
def SendOutcome (len : Nat) (result : Int × List Nat) : Prop :=
  (result.1 ≤ 0 ∧ ∃ count ≤ len, result.2 = List.range count) ∨
    result = ((len : Int), List.range len)

theorem dmsSockErrorHandling_negative {established : Bool} {errno : Int} (error : errno < 0) :
    dmsSockErrorHandling established true errno < 0 := by
  have timeout : -eDNCSndtimeo < 0 := by decide
  rw [dmsSockErrorHandling]
  split
  · cases established with
    | true => simpa using error
    | false => simpa using timeout
  · exact error

/-- One pass of a send ends it, except for a call that moved nothing. -/
theorem sockXmit_sendPass (round : Nat) :
    ((rounds round).answer len = 0 ∧ (rounds round).established = true ∧ 0 < len ∧
        ∀ fuel, sockXmit rounds true (fuel + 1) round 0 len [] =
          sockXmit rounds true fuel (round + 1) 0 len []) ∨
      ∃ result, SendOutcome len result ∧
        ∀ fuel, sockXmit rounds true (fuel + 1) round 0 len [] = some result := by
  have value : (rounds round).answer len = min (rounds round).result len := rfl
  have timeout : -eDNCSndtimeo < 0 := by decide
  rcases Int.lt_trichotomy ((rounds round).answer len) 0 with error | none | some_
  · -- an error, which a send does not retry
    right
    have negative := @dmsSockErrorHandling_negative (rounds round).established _ error
    have unsent : ¬ ((rounds round).answer len ≠ len ∧ (rounds round).answer len > 0) := by omega
    have empty : ((rounds round).answer len).toNat = 0 := Int.toNat_of_nonpos (Int.le_of_lt error)
    refine ⟨(_, []), .inl ⟨Int.le_of_lt negative, 0, Nat.zero_le _, rfl⟩, fun fuel => ?_⟩
    rw [sockXmit]
    simp only [if_true, sendPass, if_neg unsent, if_pos (Int.le_of_lt error), if_pos negative,
      empty]
    rfl
  · -- nothing moved: tried again while the connection stands
    have unsent : ¬ ((rounds round).answer len ≠ len ∧ (rounds round).answer len > 0) := by omega
    rw [none] at unsent
    cases established : (rounds round).established with
    | false =>
        right
        refine ⟨(-eDNCSndtimeo, []), .inl ⟨Int.le_of_lt timeout, 0, Nat.zero_le _, rfl⟩,
          fun fuel => ?_⟩
        rw [sockXmit]
        simp only [if_true, sendPass, none, if_neg unsent, established]
        rfl
    | true =>
        rcases Nat.eq_zero_or_pos len with rfl | more
        · right
          refine ⟨(0, []), .inl ⟨Int.le_refl _, 0, Nat.zero_le _, rfl⟩, fun fuel => ?_⟩
          rw [sockXmit]
          simp only [if_true, sendPass, none, if_neg unsent, established]
          rfl
        · left
          refine ⟨none, rfl, more, fun fuel => ?_⟩
          rw [sockXmit]
          simp only [if_true, sendPass, none, if_neg unsent, established]
          exact if_pos more
  · -- some bytes went out: all of them, or the send has failed
    right
    by_cases whole : (rounds round).answer len = len
    · have sent : ¬ ((len : Int) ≠ len ∧ (len : Int) > 0) := fun both => both.1 rfl
      have positive : ¬ (len : Int) ≤ 0 := by omega
      have notNegative : ¬ (len : Int) < 0 := by omega
      have done : ¬ len - len > 0 := by omega
      refine ⟨((len : Int), List.range len), .inr rfl, fun fuel => ?_⟩
      rw [sockXmit]
      simp only [if_true, sendPass, whole, if_neg sent, if_neg positive, if_neg notNegative,
        Int.toNat_natCast, if_neg done, List.nil_append, ← List.range_eq_range']
    · have part : (rounds round).answer len ≠ len ∧ (rounds round).answer len > 0 := ⟨whole, some_⟩
      have error : dmsSockErrorHandling (rounds round).established true (-eDNCSndtimeo) =
          -eDNCSndtimeo := by
        apply dmsSockErrorHandling_error <;> decide
      refine ⟨(-eDNCSndtimeo, List.range ((rounds round).answer len).toNat),
        .inl ⟨Int.le_of_lt timeout, _, by omega, rfl⟩, fun fuel => ?_⟩
      rw [sockXmit]
      simp only [if_true, sendPass, if_pos part, if_pos (Int.le_of_lt timeout), error,
        if_pos timeout, List.nil_append, ← List.range_eq_range']

theorem sockXmit_send (gap : Nat) : ∀ round, (rounds (round + gap)).Decides true len →
    ∃ bound result, (∀ fuel, bound ≤ fuel →
        sockXmit rounds true fuel round 0 len [] = some result) ∧ SendOutcome len result := by
  induction gap with
  | zero =>
      intro round decides
      rw [Nat.add_zero] at decides
      rcases @sockXmit_sendPass rounds len round with ⟨none, established, more, -⟩ | ends
      · have value : (rounds round).answer len = min (rounds round).result len := rfl
        rcases decides with ⟨-, progress⟩ | error | lost
        · omega
        · omega
        · rw [established] at lost
          cases lost
      · obtain ⟨result, outcome, done⟩ := ends
        refine ⟨1, result, fun fuel enough => ?_, outcome⟩
        obtain ⟨fuel, rfl⟩ := Nat.exists_eq_add_one.mpr enough
        exact done fuel
  | succ gap inductionHypothesis =>
      intro round decides
      have shifted : round + (gap + 1) = round + 1 + gap := by omega
      rw [shifted] at decides
      rcases @sockXmit_sendPass rounds len round with ⟨-, -, -, again⟩ | ends
      · obtain ⟨bound, result, done, outcome⟩ := inductionHypothesis (round + 1) decides
        refine ⟨bound + 1, result, fun fuel enough => ?_, outcome⟩
        obtain ⟨fuel, rfl⟩ := Nat.exists_eq_add_one.mpr (Nat.zero_lt_of_lt enough)
        rw [again, done fuel (Nat.le_of_succ_le_succ enough)]
      · obtain ⟨result, outcome, done⟩ := ends
        refine ⟨1, result, fun fuel enough => ?_, outcome⟩
        obtain ⟨fuel, rfl⟩ := Nat.exists_eq_add_one.mpr enough
        exact done fuel

end Send

/-- The call ends; what it returns is positive only when exactly the buffer has been moved, in
order, and is its length then; and no byte outside the buffer is moved. -/
def TransfersAll (send : Bool) (rounds : Nat → Round) (len : Nat) : Prop :=
  ∃ bound retcode moved, (∀ fuel, bound ≤ fuel →
      sockXmit rounds send fuel 0 0 len [] = some (retcode, moved)) ∧
    (0 < retcode → moved = List.range len ∧ retcode = len) ∧ ∀ place ∈ moved, place < len

/-- The receive is completed by a piece when others have come before it. -/
def CompletedInPieces (rounds : Nat → Round) (len : Nat) : Prop :=
  ∃ round, CompletesAt rounds len round ∧ 0 < received rounds round

section Transfer

variable {rounds : Nat → Round} {len : Nat}

theorem transfersAll_send (eventful : Eventful true len rounds) : TransfersAll true rounds len := by
  obtain ⟨later, -, decides⟩ := eventful 0
  rw [← Nat.zero_add later] at decides
  obtain ⟨bound, ⟨retcode, moved⟩, done, outcome⟩ := sockXmit_send later 0 decides
  refine ⟨bound, retcode, moved, done, ?_⟩
  rcases outcome with ⟨failed, count, within, rfl⟩ | whole
  · refine ⟨fun positive => absurd positive (Int.not_lt.mpr failed), fun place member => ?_⟩
    exact Nat.lt_of_lt_of_le (List.mem_range.mp member) within
  · cases whole
    exact ⟨fun _ => ⟨rfl, rfl⟩, fun place member => List.mem_range.mp member⟩

theorem transfersAll_receive_iff (eventful : Eventful false len rounds) :
    TransfersAll false rounds len ↔ ¬ CompletedInPieces rounds len := by
  obtain ⟨bound, ⟨retcode, moved⟩, done, outcome⟩ := sockXmit_receive eventful len 0 0
    (Nat.zero_add len) id rfl fun k below => absurd below (Nat.not_lt_zero k)
  rcases outcome with ⟨failed, ⟨count, within, rfl⟩, never⟩ | ⟨round, completes, result⟩
  · refine iff_of_true ⟨bound, retcode, _, done, ?_, fun place member => ?_⟩ ?_
    · exact fun positive => absurd positive (Int.lt_asymm failed)
    · exact Nat.lt_of_lt_of_le (List.mem_range.mp member) within
    · rintro ⟨round, completes, -⟩
      exact never round completes
  · obtain ⟨rfl, rfl⟩ := Prod.mk.inj result
    have before := completes.before
    constructor
    · rintro ⟨bound', retcode', moved', done', exact_, -⟩ ⟨other, completes', pieces⟩
      obtain rfl := completes.unique completes'
      have same := (done _ (Nat.le_max_left bound bound')).symm.trans
        (done' _ (Nat.le_max_right bound bound'))
      obtain ⟨rfl, rfl⟩ := Prod.mk.inj (Option.some.inj same)
      have length := (exact_ (by omega)).2
      omega
    · intro whole
      have none : received rounds round = 0 := by
        by_contra some
        exact whole ⟨round, completes, Nat.pos_of_ne_zero some⟩
      refine ⟨bound, _, _, done, fun _ => ⟨rfl, ?_⟩, fun place member => List.mem_range.mp member⟩
      rw [none]
      exact Int.sub_zero _

/-- A transfer is complete or fails, and says its length, exactly when it is a send or a receive
that is not completed in pieces. -/
theorem transfersAll_iff {send : Bool} (eventful : Eventful send len rounds) :
    TransfersAll send rounds len ↔ send = true ∨ ¬ CompletedInPieces rounds len := by
  cases send with
  | true => exact iff_of_true (transfersAll_send eventful) (.inl rfl)
  | false => simpa using transfersAll_receive_iff eventful

def fourBytes : Nat → Round := fun _ => ⟨false, 4, true⟩

theorem fourBytes_eventful {len : Nat} (some : 0 < len) (send : Bool) :
    Eventful send len fourBytes :=
  fun round => ⟨round, Nat.le_refl _, .inl ⟨some, (by decide : (0 : Int) < 4)⟩⟩

theorem transfersAll_example : TransfersAll false fourBytes 4 ↔
    false = true ∨ ¬ CompletedInPieces fourBytes 4 :=
  transfersAll_iff (fourBytes_eventful (by decide) false)

/-- A receive of eight bytes that come four at a time returns four. -/
theorem transfersAll_inPieces : ¬ ∀ (send : Bool) (rounds : Nat → Round) (len : Nat),
    Eventful send len rounds → TransfersAll send rounds len := by
  intro all
  have transfers := all false fourBytes 8 (fourBytes_eventful (by decide) false)
  refine (transfersAll_receive_iff (fourBytes_eventful (by decide) false)).mp transfers ?_
  refine ⟨1, ⟨fun earlier _ => ⟨rfl, .inl (by decide : (0 : Int) ≤ 4)⟩, by decide, by decide⟩,
    by decide⟩

end Transfer

end DmsBlkdev
