import DmsBlkdev.AllocationFlag

/-!
# The range scan on machine integers

The scan keeps block ids and counts in 64-bit words and the positions in a
chunk in an `int`; it compares the one with the other.  For the counts of a
request nothing is lost in the conversions, and the scan comes to the longest
prefix of the range whose flags are all clear or all set.
-/

namespace DmsBlkdev

open Lib.RunLength

/-- The `length` of `__Get_Continuous_Range` before it goes on to the next chunk. -/
def chunkLengthInt (op : DMSOp) (word : BitVec 64) (startIndex : BitVec 32) (nrLBIDs : BitVec 64) :
    BitVec 32 :=
  let rangeIndex := (startIndex.signExtend 64 + nrLBIDs - 1).setWidth 32
  let endIndex := BitVec.ofNat 32 (nextIndex op word startIndex.toNat) - 1
  (if rangeIndex.slt endIndex then rangeIndex else endIndex) - startIndex + 1

/-- `__Get_Continuous_Range` on a volume whose words of flags are `alf`, to a depth of recursion. -/
def scanRange (alf : BitVec 64 → BitVec 64) (op : DMSOp) :
    Nat → BitVec 64 → BitVec 64 → Option (BitVec 32)
  | 0, _, _ => none
  | depth + 1, sLBID, nrLBIDs =>
      let startIndex := (sLBID % 64).setWidth 32
      let length := chunkLengthInt op (alf sLBID) startIndex nrLBIDs
      if length.signExtend 64 < nrLBIDs ∧
          nextIndex op (alf sLBID) startIndex.toNat = chunkSize then
        (scanRange alf op depth (sLBID + length.signExtend 64)
          (nrLBIDs - length.signExtend 64)).map (length + ·)
      else some length

section Chunk

theorem signExtend_toNat {int : BitVec 32} (small : int.toNat < 2 ^ 31) :
    (int.signExtend 64).toNat = int.toNat := by
  have positive : int.msb = false := by
    rw [BitVec.msb_eq_decide, decide_eq_false_iff_not]
    omega
  rw [BitVec.toNat_signExtend, positive, BitVec.toNat_setWidth]
  exact Nat.mod_eq_of_lt (by omega)

theorem chunkLengthInt_toNat {op : DMSOp} {word : BitVec 64} {startIndex : BitVec 32}
    {nrLBIDs : BitVec 64}
    (start : startIndex.toNat < 64) (inside : startIndex.toNat ≤ nextIndex op word startIndex.toNat)
    (bound : nextIndex op word startIndex.toNat ≤ 64) (positive : 0 < nrLBIDs.toNat)
    (small : nrLBIDs.toNat < 2 ^ 30) :
    (chunkLengthInt op word startIndex nrLBIDs).toNat =
      min (nextIndex op word startIndex.toNat - startIndex.toNat) nrLBIDs.toNat := by
  have extended : startIndex.signExtend 64 = BitVec.ofNat 64 startIndex.toNat := by
    apply BitVec.eq_of_toNat_eq
    rw [signExtend_toNat (by omega), BitVec.toNat_ofNat, Nat.mod_eq_of_lt (by omega)]
  rw [chunkLengthInt]
  simp only [extended]
  generalize nextIndex op word startIndex.toNat = next at *
  have range : ((BitVec.ofNat 64 startIndex.toNat + nrLBIDs - 1).setWidth 32).toNat =
      startIndex.toNat + nrLBIDs.toNat - 1 := by
    bv_omega
  have rangeInt : ((BitVec.ofNat 64 startIndex.toNat + nrLBIDs - 1).setWidth 32).toInt =
      startIndex.toNat + nrLBIDs.toNat - 1 := by
    rw [BitVec.toInt_eq_toNat_cond, range]
    split <;> omega
  have one : (1 : BitVec 32).toNat = 1 := rfl
  have last : (BitVec.ofNat 32 next - 1).toNat = (2 ^ 32 + next - 1) % 2 ^ 32 := by
    rw [BitVec.toNat_sub, one, BitVec.toNat_ofNat]
    omega
  have lastInt : (BitVec.ofNat 32 next - 1).toInt = next - 1 := by
    rw [BitVec.toInt_eq_toNat_cond, last]
    split <;> omega
  have sum (last : BitVec 32) : (last - startIndex + 1).toNat =
      (2 ^ 32 + last.toNat - startIndex.toNat + 1) % 2 ^ 32 := by
    rw [BitVec.toNat_add, BitVec.toNat_sub, one]
    omega
  rw [BitVec.slt_eq_decide, rangeInt, lastInt]
  by_cases beyond : (startIndex.toNat + nrLBIDs.toNat - 1 : Int) < next - 1
  · rw [if_pos (decide_eq_true beyond), sum, range]
    omega
  · rw [if_neg (by simpa using beyond), sum, last]
    omega

end Chunk

section Scan

variable (alf : BitVec 64 → BitVec 64)

theorem startIndex_toNat (sLBID : BitVec 64) :
    ((sLBID % 64).setWidth 32).toNat = sLBID.toNat % chunkSize := by
  have small : sLBID.toNat % 64 < 2 ^ 32 := by omega
  rw [BitVec.toNat_setWidth, BitVec.toNat_umod]
  exact Nat.mod_eq_of_lt small

theorem nextIndex_bounds {op : DMSOp} (isWrite : op ≠ .read) (word : BitVec 64) {startIndex : Nat}
    (inside : startIndex < chunkSize) :
    startIndex ≤ nextIndex op word startIndex ∧ nextIndex op word startIndex ≤ chunkSize := by
  have clear := prefixLength_le (fun i => !word.getLsbD i) startIndex (chunkSize - startIndex)
  have set := prefixLength_le (fun i => word.getLsbD i) startIndex (chunkSize - startIndex)
  cases op with
  | read => exact absurd rfl isWrite
  | write =>
      rw [nextIndex, findNextBit]
      omega
  | overwrite =>
      rw [nextIndex, findNextZeroBit]
      omega

/-- Within the counts of a request the scan of the machine is the one on numbers. -/
theorem scanRange_eq {op : DMSOp} (isWrite : op ≠ .read) {depth : Nat} {sLBID nrLBIDs : BitVec 64}
    (positive : 0 < nrLBIDs.toNat) (small : nrLBIDs.toNat < 2 ^ 30)
    (range : sLBID.toNat + nrLBIDs.toNat < 2 ^ 64) (deep : nrLBIDs.toNat ≤ depth) :
    ∃ length, scanRange alf op depth sLBID nrLBIDs = some length ∧
      (length.toNat : Int) =
        getContinuousRange (fun lbid => alf (BitVec.ofNat 64 lbid)) op sLBID.toNat
          nrLBIDs.toNat := by
  induction depth generalizing sLBID nrLBIDs with
  | zero => omega
  | succ depth inductionHypothesis =>
      have inside : sLBID.toNat % chunkSize < chunkSize := Nat.mod_lt _ (by decide)
      obtain ⟨lower, upper⟩ := nextIndex_bounds isWrite (alf sLBID) inside
      have start := startIndex_toNat sLBID
      generalize chunk : chunkLengthInt op (alf sLBID) ((sLBID % 64).setWidth 32) nrLBIDs = length
      have measured : length.toNat =
          min (nextIndex op (alf sLBID) (sLBID.toNat % chunkSize) - sLBID.toNat % chunkSize)
            nrLBIDs.toNat := by
        rw [← chunk, ← start]
        rw [← start] at inside lower upper
        exact chunkLengthInt_toNat inside lower upper positive small
      have ideal := @chunkLength_eq op (alf sLBID) _ nrLBIDs.toNat lower
      rw [← measured] at ideal
      have extended : (length.signExtend 64).toNat = length.toNat := signExtend_toNat (by omega)
      rw [scanRange, getContinuousRange]
      simp only [chunk, start, BitVec.ofNat_toNat, BitVec.setWidth_eq, ideal, Int.toNat_natCast,
        BitVec.lt_def, extended, gt_iff_lt, Int.ofNat_lt]
      by_cases more : length.toNat < nrLBIDs.toNat ∧
          nextIndex op (alf sLBID) (sLBID.toNat % chunkSize) = chunkSize
      · obtain ⟨remaining, full⟩ := more
        have count : (nrLBIDs - length.signExtend 64).toNat = nrLBIDs.toNat - length.toNat := by
          rw [BitVec.toNat_sub_of_le (by rw [BitVec.le_def, extended]; omega), extended]
        have next : (sLBID + length.signExtend 64).toNat = sLBID.toNat + length.toNat := by
          rw [BitVec.toNat_add, extended, Nat.mod_eq_of_lt (by omega)]
        obtain ⟨later, scanned, rest⟩ := @inductionHypothesis (sLBID + length.signExtend 64)
          (nrLBIDs - length.signExtend 64) (by omega) (by omega) (by omega) (by omega)
        rw [count, next] at rest
        have bound := prefixLength_le
          (matchesOp (fun lbid => alf (BitVec.ofNat 64 lbid)) op (sLBID.toNat + length.toNat))
          (sLBID.toNat + length.toNat) (nrLBIDs.toNat - length.toNat)
        have value := rest
        rw [getContinuousRange_eq _ isWrite, Nat.cast_inj] at value
        refine ⟨length + later, ?_, ?_⟩
        · rw [if_pos ⟨remaining, full⟩, scanned, Option.map_some]
        · rw [dif_pos ⟨remaining, full⟩, BitVec.toNat_add, Nat.mod_eq_of_lt (by omega),
            Nat.cast_add, rest]
      · exact ⟨length, if_neg more, by rw [dif_neg more]⟩

end Scan

def DMSOp.wanted : DMSOp → Bool
  | .overwrite => true
  | .read | .write => false

theorem DMSOp.ofFlag_eq_iff {op : DMSOp} (isWrite : op ≠ .read) (allocated : Bool) :
    DMSOp.ofFlag allocated = op ↔ allocated = op.wanted := by
  cases op with
  | read => exact absurd rfl isWrite
  | write => cases allocated <;> decide
  | overwrite => cases allocated <;> decide

theorem scannedFlag_word (flag : Nat → Bool) {sLBID lbid : Nat} (start : sLBID < 2 ^ 64)
    (within : lbid < 2 ^ 64) :
    scannedFlag (fun lbid => allocationChunk flag (BitVec.ofNat 64 lbid).toNat) sLBID lbid =
      flag lbid := by
  have chunk : lbid / chunkSize * chunkSize < 2 ^ 64 :=
    Nat.lt_of_le_of_lt (Nat.div_mul_le_self _ _) within
  rw [← scannedFlag_allocationChunk flag sLBID lbid]
  simp only [scannedFlag, BitVec.toNat_ofNat, Nat.mod_eq_of_lt start, Nat.mod_eq_of_lt chunk]

/-- On one allocation map the scan ends, with the length of the longest prefix of the range whose
flags are all the ones that the operation asks for. -/
theorem scanRange_longestPrefix (flag : Nat → Bool) {op : DMSOp} (isWrite : op ≠ .read)
    (sLBID nrLBIDs : BitVec 64) (positive : 1 ≤ nrLBIDs.toNat) (small : nrLBIDs.toNat < 2 ^ 30)
    (range : sLBID.toNat + nrLBIDs.toNat < 2 ^ 64) {depth : Nat} (deep : nrLBIDs.toNat ≤ depth) :
    ∃ length, scanRange (fun lbid => allocationChunk flag lbid.toNat) op depth sLBID nrLBIDs =
        some length ∧
      0 ≤ length.toInt ∧ length.toInt ≤ nrLBIDs.toNat ∧
      (∀ i : Nat, (i : Int) < length.toInt → flag (sLBID.toNat + i) = op.wanted) ∧
      (length.toInt < nrLBIDs.toNat → flag (sLBID.toNat + length.toInt.toNat) ≠ op.wanted) := by
  obtain ⟨length, scanned, value⟩ :=
    scanRange_eq (fun lbid => allocationChunk flag lbid.toNat) isWrite positive small range deep
  rw [getContinuousRange_eq _ isWrite, Nat.cast_inj] at value
  generalize here : matchesOp (fun lbid => allocationChunk flag (BitVec.ofNat 64 lbid).toNat) op
    sLBID.toNat = test at value
  have tested : ∀ i < nrLBIDs.toNat,
      test (sLBID.toNat + i) = true ↔ flag (sLBID.toNat + i) = op.wanted := by
    intro i inside
    rw [← here, matchesOp, decide_eq_true_iff, DMSOp.ofFlag_eq_iff isWrite,
      scannedFlag_word flag sLBID.isLt (by omega)]
  have bound := prefixLength_le test sLBID.toNat nrLBIDs.toNat
  have signed : length.toInt = length.toNat := BitVec.toInt_eq_toNat_of_lt (by omega)
  refine ⟨length, scanned, ?_⟩
  rw [signed, Int.toNat_natCast]
  refine ⟨by omega, by omega, fun i inside => ?_, fun short => ?_⟩
  · exact (tested i (by omega)).mp
      (prefixLength_holds test sLBID.toNat nrLBIDs.toNat (by omega) (by omega))
  · have stopped := prefixLength_stops test sLBID.toNat nrLBIDs.toNat (by omega)
    rw [← value] at stopped
    intro wanted
    rw [(tested length.toNat (by omega)).mpr wanted] at stopped
    cases stopped

/-- A range across two chunks whose flags are all clear. -/
theorem scanRange_longestPrefix_example :
    ∃ length, scanRange (fun lbid => allocationChunk (fun _ => false) lbid.toNat) .write 70 60 70 =
        some length ∧
      0 ≤ length.toInt ∧ length.toInt ≤ (70 : BitVec 64).toNat ∧
      (∀ i : Nat, (i : Int) < length.toInt → false = DMSOp.write.wanted) ∧
      (length.toInt < (70 : BitVec 64).toNat → false ≠ DMSOp.write.wanted) :=
  scanRange_longestPrefix (fun _ => false) (by decide) 60 70 (by decide) (by decide) (by decide)
    (by decide)

end DmsBlkdev
