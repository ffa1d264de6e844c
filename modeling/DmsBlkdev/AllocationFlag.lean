import DmsBlkdev.Common
import DmsBlkdev.Lib.RunLength

/-!
# Allocation flags and the range scan

One 64-bit word holds the allocation flags of one chunk of 64 blocks.  A write
request is cut where the flags change: `getAllocationRange` reads the flag of
the first block to choose the operation, and `getContinuousRange` follows the
flags of that kind from chunk to chunk.  `alf` is the word that
`Get_Allocation_Flag` returns for a block.
-/

namespace DmsBlkdev

open Lib.RunLength

/-- `CHUNK_SIZE`, also the width `BITS_PER_LONG` of a word of flags. -/
def chunkSize : Nat := 64

/-- The first set bit at or after `offset`, or `size`. -/
def findNextBit (word : BitVec 64) (size offset : Nat) : Nat :=
  offset + prefixLength (fun i => !word.getLsbD i) offset (size - offset)

/-- The first clear bit at or after `offset`, or `size`. -/
def findNextZeroBit (word : BitVec 64) (size offset : Nat) : Nat :=
  offset + prefixLength (fun i => word.getLsbD i) offset (size - offset)

/-- The end of the bits that match the operation; an unknown operation leaves it at zero. -/
def nextIndex (op : DMSOp) (word : BitVec 64) (startIndex : Nat) : Nat :=
  match op with
  | .write => findNextBit word chunkSize startIndex
  | .overwrite => findNextZeroBit word chunkSize startIndex
  | .read => 0

/-- The blocks of one chunk that match the operation, at most `nrLBIDs` of them: up to
`end_index`, which is pulled back to `range_index` when it lies beyond. -/
def chunkLength (op : DMSOp) (word : BitVec 64) (startIndex nrLBIDs : Nat) : Int :=
  let rangeIndex : Int := startIndex + nrLBIDs - 1
  let endIndex : Int := nextIndex op word startIndex - 1
  (if endIndex > rangeIndex then rangeIndex else endIndex) - startIndex + 1

theorem chunkLength_eq {op : DMSOp} {word : BitVec 64} {startIndex : Nat} (nrLBIDs : Nat)
    (inside : startIndex ≤ nextIndex op word startIndex) :
    chunkLength op word startIndex nrLBIDs =
      (min (nextIndex op word startIndex - startIndex) nrLBIDs : Nat) := by
  simp only [chunkLength]
  split <;> omega

section Scan

variable (alf : Nat → BitVec 64)

/-- `__Get_Continuous_Range`. -/
def getContinuousRange (op : DMSOp) (sLBID nrLBIDs : Nat) : Int :=
  let startIndex := sLBID % chunkSize
  let length := chunkLength op (alf sLBID) startIndex nrLBIDs
  if _more : (nrLBIDs : Int) > length ∧ nextIndex op (alf sLBID) startIndex = chunkSize then
    length + getContinuousRange op (sLBID + length.toNat) (nrLBIDs - length.toNat)
  else length
termination_by nrLBIDs
decreasing_by
  obtain ⟨remaining, full⟩ := _more
  have inside : sLBID % chunkSize < chunkSize := Nat.mod_lt _ (by decide)
  have value : length = (min (chunkSize - startIndex) nrLBIDs : Nat) := by
    rw [← full]
    exact chunkLength_eq nrLBIDs (by rw [full]; exact Nat.le_of_lt inside)
  rw [value] at remaining
  change nrLBIDs - length.toNat < nrLBIDs
  rw [value, Int.toNat_natCast]
  simp only [startIndex] at remaining ⊢
  omega

/-- `1 << index` on a 32-bit `int`, whose shift counts the processor reduces modulo 32, widened
to the 64 bits of the flags. -/
def intBit (index : Nat) : BitVec 64 := ((1#32) <<< (index % 32)).signExtend 64

/-- The operation `Get_Allocation_Range` stores through `op`. -/
def allocationOp (sLBID : Nat) : DMSOp :=
  if alf sLBID &&& intBit (sLBID % chunkSize) ≠ 0 then .overwrite else .write

/-- `Get_Allocation_Range`: the operation and the length of the range. -/
def getAllocationRange (sLBID nrLBIDs : Nat) : DMSOp × Int :=
  (allocationOp alf sLBID, getContinuousRange alf (allocationOp alf sLBID) sLBID nrLBIDs)

/-- The flag of block `lbid` as a scan from `sLBID` reads it: the first word is the one returned
for `sLBID`, every later word the one returned for the first block of its chunk. -/
def scannedFlag (sLBID lbid : Nat) : Bool :=
  if lbid / chunkSize = sLBID / chunkSize then (alf sLBID).getLsbD (lbid % chunkSize)
  else (alf (lbid / chunkSize * chunkSize)).getLsbD (lbid % chunkSize)

theorem scannedFlag_of_mod_lt {sLBID i : Nat} (inside : sLBID % chunkSize + i < chunkSize) :
    scannedFlag alf sLBID (sLBID + i) = (alf sLBID).getLsbD (sLBID % chunkSize + i) := by
  simp only [chunkSize] at inside
  have same : (sLBID + i) / 64 = sLBID / 64 := by omega
  have place : (sLBID + i) % 64 = sLBID % 64 + i := by omega
  simp only [scannedFlag, chunkSize, same, place, if_true]

theorem scannedFlag_next {sLBID lbid : Nat} (later : sLBID / chunkSize < lbid / chunkSize) :
    scannedFlag alf (sLBID / chunkSize * chunkSize + chunkSize) lbid =
      scannedFlag alf sLBID lbid := by
  simp only [chunkSize] at later
  have start : (sLBID / 64 * 64 + 64) / 64 = sLBID / 64 + 1 := by omega
  have different : lbid / 64 ≠ sLBID / 64 := by omega
  simp only [scannedFlag, chunkSize, start, different, if_false]
  by_cases next : lbid / 64 = sLBID / 64 + 1
  · rw [if_pos next, next, Nat.add_mul, Nat.one_mul]
  · rw [if_neg next]

/-- The scanning test of an operation on the flags that a scan from `sLBID` reads. -/
def matchesOp (op : DMSOp) (sLBID lbid : Nat) : Bool :=
  decide (DMSOp.ofFlag (scannedFlag alf sLBID lbid) = op)

theorem nextIndex_eq {op : DMSOp} (isWrite : op ≠ .read) (sLBID : Nat) :
    nextIndex op (alf sLBID) (sLBID % chunkSize) = sLBID % chunkSize +
      prefixLength (matchesOp alf op sLBID) sLBID (chunkSize - sLBID % chunkSize) := by
  have shifted : ∀ (test : Nat → Bool),
      (∀ i, i < chunkSize - sLBID % chunkSize →
        test (sLBID % chunkSize + i) = matchesOp alf op sLBID (sLBID + i)) →
      prefixLength test (sLBID % chunkSize) (chunkSize - sLBID % chunkSize) =
        prefixLength (matchesOp alf op sLBID) sLBID (chunkSize - sLBID % chunkSize) :=
    fun test same => prefixLength_congr same
  cases op with
  | read => exact absurd rfl isWrite
  | write =>
      simp only [nextIndex, findNextBit]
      rw [shifted]
      intro i small
      rw [matchesOp, scannedFlag_of_mod_lt alf (by omega)]
      cases (alf sLBID).getLsbD (sLBID % chunkSize + i) <;> rfl
  | overwrite =>
      simp only [nextIndex, findNextZeroBit]
      rw [shifted]
      intro i small
      rw [matchesOp, scannedFlag_of_mod_lt alf (by omega)]
      cases (alf sLBID).getLsbD (sLBID % chunkSize + i) <;> rfl

/-- The recursive scan measures the longest prefix of the range that matches the operation. -/
theorem getContinuousRange_eq {op : DMSOp} (isWrite : op ≠ .read) (sLBID nrLBIDs : Nat) :
    getContinuousRange alf op sLBID nrLBIDs =
      prefixLength (matchesOp alf op sLBID) sLBID nrLBIDs := by
  induction nrLBIDs using Nat.strongRecOn generalizing sLBID with
  | ind nrLBIDs inductionHypothesis =>
      have inside : sLBID % chunkSize < chunkSize := Nat.mod_lt _ (by decide)
      have next := nextIndex_eq alf isWrite sLBID
      generalize here : chunkSize - sLBID % chunkSize = ahead at next
      have bound := prefixLength_le (matchesOp alf op sLBID) sLBID ahead
      have length : chunkLength op (alf sLBID) (sLBID % chunkSize) nrLBIDs =
          (min (prefixLength (matchesOp alf op sLBID) sLBID ahead) nrLBIDs : Nat) := by
        rw [chunkLength_eq nrLBIDs (by omega), next, Nat.add_sub_cancel_left]
      rw [getContinuousRange]
      split
      case isTrue more =>
        obtain ⟨remaining, full⟩ := more
        rw [length] at remaining ⊢
        rw [next] at full
        have whole : prefixLength (matchesOp alf op sLBID) sLBID ahead = ahead := by omega
        rw [whole, Nat.min_eq_left (by omega), Int.toNat_natCast,
          inductionHypothesis (nrLBIDs - ahead) (by omega)]
        have total : nrLBIDs = ahead + (nrLBIDs - ahead) := by omega
        conv_rhs => rw [total, prefixLength_append whole]
        rw [Nat.cast_add]
        congr 2
        apply prefixLength_congr
        intro i _
        have boundary : sLBID + ahead = sLBID / chunkSize * chunkSize + chunkSize := by
          simp only [chunkSize] at here ⊢
          omega
        have later : sLBID / chunkSize < (sLBID + ahead + i) / chunkSize := by
          simp only [chunkSize] at boundary ⊢
          omega
        rw [matchesOp, matchesOp, ← scannedFlag_next alf later, boundary]
      case isFalse stopped =>
        rw [length, next] at stopped
        rw [length, Nat.cast_inj]
        symm
        apply prefixLength_unique (Nat.min_le_right _ _)
        · intro i lower upper
          exact prefixLength_holds _ sLBID ahead lower (by omega)
        · intro short
          rw [Nat.min_eq_left (by omega)] at short ⊢
          exact prefixLength_stops _ sLBID ahead (by omega)

theorem getLsbD_intBit {index i : Nat} (inside : i < 64) :
    (intBit index).getLsbD i = decide (i = index % 32 ∨ index % 32 = 31 ∧ 31 ≤ i) := by
  have small : index % 32 < 32 := Nat.mod_lt _ (by decide)
  simp only [intBit, BitVec.getLsbD_signExtend, BitVec.msb_eq_getLsbD_last,
    BitVec.getLsbD_shiftLeft, BitVec.getLsbD_one]
  rw [Bool.eq_iff_iff]
  by_cases low : i < 32
  · simp [low, inside]
    omega
  · simp [low, inside]
    omega

/-- What the operation test reads: the bit at the position modulo 32, and at position 31 of a half
every later bit of the word too, since the widened `int` is negative there. -/
theorem allocationOp_eq_overwrite_iff (sLBID : Nat) :
    allocationOp alf sLBID = .overwrite ↔
      ∃ i < 64, (alf sLBID).getLsbD i = true ∧
        (i = sLBID % 32 ∨ sLBID % 32 = 31 ∧ 31 ≤ i) := by
  have half : sLBID % chunkSize % 32 = sLBID % 32 := Nat.mod_mod_of_dvd _ (by decide)
  have nonzero : ∀ word : BitVec 64, word ≠ 0 ↔ ∃ i < 64, word.getLsbD i = true := by
    intro word
    rw [← not_iff_not, not_not]
    constructor
    · rintro rfl
      simp
    · intro none
      refine BitVec.eq_of_getLsbD_eq fun i small => ?_
      simpa using fun set => none ⟨i, small, set⟩
  have chosen : allocationOp alf sLBID = .overwrite ↔
      alf sLBID &&& intBit (sLBID % chunkSize) ≠ 0 := by
    unfold allocationOp
    split <;> simp_all
  rw [chosen, nonzero]
  refine exists_congr fun i => and_congr_right fun small => ?_
  rw [BitVec.getLsbD_and, getLsbD_intBit small, half]
  simp

/-- The operation test at `sLBID` agrees with the flag the scan reads there. -/
def TestExact (sLBID : Nat) : Prop :=
  allocationOp alf sLBID = DMSOp.ofFlag (scannedFlag alf sLBID sLBID)

instance (sLBID : Nat) : Decidable (TestExact alf sLBID) :=
  inferInstanceAs (Decidable (_ = _))

theorem testExact_of_mod_lt {sLBID : Nat} (low : sLBID % chunkSize < 31) :
    TestExact alf sLBID := by
  have flag : scannedFlag alf sLBID sLBID = (alf sLBID).getLsbD (sLBID % chunkSize) := by
    simp [scannedFlag]
  have place : sLBID % 32 = sLBID % chunkSize := by
    simp only [chunkSize] at low ⊢
    omega
  have tested : allocationOp alf sLBID = .overwrite ↔
      (alf sLBID).getLsbD (sLBID % chunkSize) = true := by
    rw [allocationOp_eq_overwrite_iff, place]
    constructor
    · rintro ⟨i, _, set, equality | ⟨high, _⟩⟩
      · exact equality ▸ set
      · omega
    · exact fun set => ⟨_, by omega, set, .inl rfl⟩
  rw [TestExact, flag]
  cases value : (alf sLBID).getLsbD (sLBID % chunkSize) with
  | true => exact tested.mpr value
  | false =>
      have clear : allocationOp alf sLBID ≠ .overwrite := by simp [tested, value]
      unfold allocationOp at clear ⊢
      split <;> simp_all [DMSOp.ofFlag]

/-- With an exact test the range is the first run that the scan reads. -/
theorem getAllocationRange_of_exact {sLBID : Nat} (exact : TestExact alf sLBID) (nrLBIDs : Nat) :
    getAllocationRange alf sLBID nrLBIDs =
      (DMSOp.ofFlag (scannedFlag alf sLBID sLBID),
        ((prefixLength (fun lbid => decide (scannedFlag alf sLBID lbid =
          scannedFlag alf sLBID sLBID)) sLBID nrLBIDs : Nat) : Int)) := by
  have test : matchesOp alf (DMSOp.ofFlag (scannedFlag alf sLBID sLBID)) sLBID =
      fun lbid => decide (scannedFlag alf sLBID lbid = scannedFlag alf sLBID sLBID) := by
    funext lbid
    simp [matchesOp, DMSOp.ofFlag_injective.eq_iff]
  unfold getAllocationRange
  rw [show allocationOp alf sLBID = _ from exact,
    getContinuousRange_eq alf (DMSOp.ofFlag_ne_read _), test]

theorem allocationOp_ne_read (sLBID : Nat) : allocationOp alf sLBID ≠ .read := by
  unfold allocationOp
  split <;> simp

theorem getAllocationRange_of_inexact {sLBID : Nat} (inexact : ¬ TestExact alf sLBID)
    (nrLBIDs : Nat) :
    getAllocationRange alf sLBID nrLBIDs = (allocationOp alf sLBID, 0) := by
  have failed : matchesOp alf (allocationOp alf sLBID) sLBID sLBID = false :=
    decide_eq_false fun equality => inexact equality.symm
  unfold getAllocationRange
  rw [getContinuousRange_eq alf (allocationOp_ne_read alf sLBID)]
  cases nrLBIDs with
  | zero => rfl
  | succ nrLBIDs => simp [prefixLength, failed]

def scannedRuns (sLBID nrLBIDs : Nat) : List (Run Bool) :=
  if _done : nrLBIDs = 0 then []
  else
    let flag := scannedFlag alf sLBID sLBID
    let length := prefixLength (fun lbid => decide (scannedFlag alf sLBID lbid = flag)) sLBID
      nrLBIDs
    ⟨flag, sLBID, length⟩ :: scannedRuns (sLBID + length) (nrLBIDs - length)
termination_by nrLBIDs
decreasing_by
  have positive : 0 < length := prefixLength_pos (Nat.pos_of_ne_zero _done) (by simp [flag])
  exact Nat.sub_lt (Nat.pos_of_ne_zero _done) positive

@[simp] theorem scannedRuns_zero (sLBID : Nat) : scannedRuns alf sLBID 0 = [] := by
  rw [scannedRuns, dif_pos rfl]

theorem scannedRuns_cons (sLBID : Nat) {nrLBIDs : Nat} (some : nrLBIDs ≠ 0) :
    ∃ length, 0 < length ∧ length ≤ nrLBIDs ∧
      scannedRuns alf sLBID nrLBIDs = ⟨scannedFlag alf sLBID sLBID, sLBID, length⟩ ::
        scannedRuns alf (sLBID + length) (nrLBIDs - length) ∧
      (TestExact alf sLBID → getAllocationRange alf sLBID nrLBIDs =
        (DMSOp.ofFlag (scannedFlag alf sLBID sLBID), (length : Int))) := by
  refine ⟨_, prefixLength_pos (Nat.pos_of_ne_zero some) (by simp), prefixLength_le _ _ _, ?_,
    fun exact => getAllocationRange_of_exact alf exact nrLBIDs⟩
  rw [scannedRuns, dif_neg some]

@[simp] theorem scannedRuns_eq_nil_iff {sLBID nrLBIDs : Nat} :
    scannedRuns alf sLBID nrLBIDs = [] ↔ nrLBIDs = 0 := by
  constructor
  · intro empty
    by_contra some
    obtain ⟨length, _, _, runs, _⟩ := scannedRuns_cons alf sLBID some
    simp [runs] at empty
  · rintro rfl
    exact scannedRuns_zero alf sLBID

/-- The runs met tile the range. -/
theorem scannedRuns_tiles (sLBID nrLBIDs : Nat) :
    Tiles sLBID (sLBID + nrLBIDs) (scannedRuns alf sLBID nrLBIDs) := by
  induction nrLBIDs using Nat.strongRecOn generalizing sLBID with
  | ind nrLBIDs inductionHypothesis =>
      by_cases none : nrLBIDs = 0
      · rw [none, scannedRuns_zero]
        rfl
      · obtain ⟨length, positive, bound, runs, _⟩ := scannedRuns_cons alf sLBID none
        have later := inductionHypothesis (nrLBIDs - length) (by omega) (sLBID + length)
        rw [Nat.add_assoc, Nat.add_sub_cancel' bound] at later
        rw [runs]
        exact ⟨rfl, positive, later⟩

end Scan

section Map

/-- The word of flags of the chunk that contains `lbid`. -/
def allocationChunk (flag : Nat → Bool) (lbid : Nat) : BitVec 64 :=
  (BitVec.ofBoolListLE ((List.range' (lbid / chunkSize * chunkSize) chunkSize).map flag)).setWidth
    64

variable (flag : Nat → Bool)

theorem getLsbD_allocationChunk (lbid : Nat) {i : Nat} (inside : i < chunkSize) :
    (allocationChunk flag lbid).getLsbD i = flag (lbid / chunkSize * chunkSize + i) := by
  have small : i < 64 := inside
  rw [allocationChunk, BitVec.getLsbD_setWidth, BitVec.getLsbD_ofBoolListLE]
  simp [small, inside]

@[simp] theorem scannedFlag_allocationChunk (sLBID lbid : Nat) :
    scannedFlag (allocationChunk flag) sLBID lbid = flag lbid := by
  have inside : lbid % chunkSize < chunkSize := Nat.mod_lt _ (by decide)
  have whole : lbid / chunkSize * chunkSize + lbid % chunkSize = lbid := Nat.div_add_mod' _ _
  have chunk : lbid / chunkSize * chunkSize / chunkSize = lbid / chunkSize :=
    Nat.mul_div_cancel _ (by decide)
  unfold scannedFlag
  split
  case isTrue same => rw [getLsbD_allocationChunk flag sLBID inside, ← same, whole]
  case isFalse => rw [getLsbD_allocationChunk flag _ inside, chunk, whole]

/-- The test at `lbid` is exact when the flags it reads are set just when the flag of `lbid` is. -/
theorem testExact_allocationChunk_iff (lbid : Nat) :
    TestExact (allocationChunk flag) lbid ↔
      (flag lbid = true ↔ ∃ i < 64, flag (lbid / chunkSize * chunkSize + i) = true ∧
        (i = lbid % 32 ∨ lbid % 32 = 31 ∧ 31 ≤ i)) := by
  have tested : allocationOp (allocationChunk flag) lbid = .overwrite ↔
      ∃ i < 64, flag (lbid / chunkSize * chunkSize + i) = true ∧
        (i = lbid % 32 ∨ lbid % 32 = 31 ∧ 31 ≤ i) := by
    rw [allocationOp_eq_overwrite_iff]
    refine exists_congr fun i => and_congr_right fun inside => ?_
    rw [getLsbD_allocationChunk flag lbid inside]
  rw [← tested, TestExact, scannedFlag_allocationChunk]
  have notRead := allocationOp_ne_read (allocationChunk flag) lbid
  generalize allocationOp (allocationChunk flag) lbid = op at notRead
  cases op with
  | read => exact absurd rfl notRead
  | write => cases flag lbid <;> simp [DMSOp.ofFlag]
  | overwrite => cases flag lbid <;> simp [DMSOp.ofFlag]

/-- With one allocation map the runs met are its maximal runs. -/
theorem scannedRuns_allocationChunk (sLBID nrLBIDs : Nat) :
    scannedRuns (allocationChunk flag) sLBID nrLBIDs = runs flag sLBID nrLBIDs := by
  induction nrLBIDs using Nat.strongRecOn generalizing sLBID with
  | ind nrLBIDs inductionHypothesis =>
      rw [scannedRuns]
      split
      case isTrue none => rw [none, runs]
      case isFalse some =>
        have nonempty := Nat.pos_of_ne_zero some
        have positive : 0 < prefixLength (fun lbid => decide (flag lbid = flag sLBID)) sLBID
            nrLBIDs := prefixLength_pos nonempty (by simp)
        rw [runs_eq_cons flag sLBID nrLBIDs nonempty]
        simp only [scannedFlag_allocationChunk]
        rw [inductionHypothesis _ (by omega)]

end Map

end DmsBlkdev
