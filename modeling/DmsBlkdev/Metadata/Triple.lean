import DmsBlkdev.Metadata

/-!
# Triples

The place of a range of blocks on a datanode is a word of 64 bits.  It has the
resource block in the upper half, and the length and the offset in the lower
half.
-/

namespace DmsBlkdev

/-- `compose_triple`; each `int` is widened with its sign. -/
def composeTriple (rbid len offset : BitVec 32) : BitVec 64 :=
  rbid.signExtend 64 <<< 32 ||| len.signExtend 64 <<< 20 ||| offset.signExtend 64

/-- `decompose_triple`: `rbid`, `len` and `offset`. -/
def decomposeTriple (val : BitVec 64) : BitVec 32 × BitVec 32 × BitVec 32 :=
  ((val >>> 32).setWidth 32,
    -- the cast to `int` comes before the second shift, which then keeps the sign
    ((val <<< 32 >>> 32).setWidth 32).sshiftRight 20,
    (val &&& 0x000000000000ffff#64).setWidth 32)

/-- A triple as it is laid out: the length has 12 bits and the offset has 20. -/
def tripleWord (rbid : BitVec 32) (len : BitVec 12) (offset : BitVec 20) : BitVec 64 :=
  rbid ++ len ++ offset

theorem getLsbD_tripleWord (rbid : BitVec 32) (len : BitVec 12) (offset : BitVec 20) (i : Nat) :
    (tripleWord rbid len offset).getLsbD i =
      if i < 20 then offset.getLsbD i
      else if i < 32 then len.getLsbD (i - 20) else rbid.getLsbD (i - 32) := by
  unfold tripleWord
  rw [BitVec.getLsbD_append, BitVec.getLsbD_append, Nat.sub_sub]
  have place : i - 20 < 12 ↔ i < 32 := by omega
  simp only [place]

theorem signExtend_setWidth {width : Nat} (narrow : width < 32) (field : BitVec width) :
    (field.setWidth 32).signExtend 64 = field.setWidth 64 := by
  have positive : (field.setWidth 32).msb = false := by
    rw [BitVec.msb_setWidth]
    simp [BitVec.getLsbD_of_ge field 31 (Nat.le_of_lt_succ narrow)]
  rw [BitVec.signExtend_eq_setWidth_of_msb_false positive]
  exact BitVec.setWidth_setWidth fun both => Nat.lt_asymm narrow both.1

theorem composeTriple_setWidth (rbid : BitVec 32) (len : BitVec 12) (offset : BitVec 20) :
    composeTriple rbid (len.setWidth 32) (offset.setWidth 32) = tripleWord rbid len offset := by
  apply BitVec.eq_of_getLsbD_eq
  intro i inside
  rw [getLsbD_tripleWord]
  unfold composeTriple
  rw [signExtend_setWidth (by decide), signExtend_setWidth (by decide)]
  simp only [BitVec.getLsbD_or, BitVec.getLsbD_shiftLeft, BitVec.getLsbD_setWidth, inside,
    decide_true, Bool.true_and]
  rcases Nat.lt_or_ge i 20 with low | high
  · simp [low, Nat.lt_trans low (by decide : 20 < 32)]
  · have offsetOver : offset.getLsbD i = false := BitVec.getLsbD_of_ge offset i high
    rcases Nat.lt_or_ge i 32 with middle | top
    · simp [middle, offsetOver, Nat.not_lt.mpr high]
      omega
    · have lenOver : len.getLsbD (i - 20) = false := BitVec.getLsbD_of_ge len _ (by omega)
      simp [offsetOver, lenOver, Nat.not_lt.mpr high, Nat.not_lt.mpr top]
      rw [BitVec.getLsbD_signExtend, if_pos (by omega), decide_eq_true (by omega), Bool.true_and]

/-- Without its upper half a triple is the length and the offset. -/
theorem lowerHalf_tripleWord (rbid : BitVec 32) (len : BitVec 12) (offset : BitVec 20) :
    (tripleWord rbid len offset <<< 32 >>> 32).setWidth 32 = (len ++ offset : BitVec 32) := by
  apply BitVec.eq_of_getLsbD_eq
  intro i inside
  rw [BitVec.getLsbD_append]
  simp [getLsbD_tripleWord, inside]
  omega

theorem sshiftRight_append (len : BitVec 12) (offset : BitVec 20) :
    (len ++ offset : BitVec 32).sshiftRight 20 = len.signExtend 32 := by
  apply BitVec.eq_of_getLsbD_eq
  intro i inside
  rw [BitVec.getLsbD_sshiftRight, BitVec.getLsbD_signExtend, BitVec.msb_append,
    BitVec.getLsbD_append]
  have place : 20 + i < 32 ↔ i < 12 := by omega
  have above : ¬ 20 + i < 20 := by omega
  simp [place, above, inside]

theorem lowSixteen_tripleWord (rbid : BitVec 32) (len : BitVec 12) (offset : BitVec 20) :
    (tripleWord rbid len offset &&& 0x000000000000ffff#64).setWidth 32 =
      (offset.setWidth 16).setWidth 32 := by
  have mask : 0x000000000000ffff#64 = (BitVec.allOnes 16).setWidth 64 := by decide
  apply BitVec.eq_of_getLsbD_eq
  intro i inside
  have wide : i < 64 := Nat.lt_trans inside (by decide)
  simp only [mask, BitVec.getLsbD_setWidth, BitVec.getLsbD_and, BitVec.getLsbD_allOnes,
    getLsbD_tripleWord, inside, wide, decide_true, Bool.true_and]
  rcases Nat.lt_or_ge i 16 with low | high
  · simp [low, Nat.lt_trans low (by decide : 16 < 20)]
  · simp [Nat.not_lt.mpr high]

/-- What comes back: the length with the sign of its top bit, and sixteen bits of the offset. -/
theorem decomposeTriple_tripleWord (rbid : BitVec 32) (len : BitVec 12) (offset : BitVec 20) :
    decomposeTriple (tripleWord rbid len offset) =
      (rbid, len.signExtend 32, (offset.setWidth 16).setWidth 32) := by
  have upper : (tripleWord rbid len offset >>> 32).setWidth 32 = rbid := by
    apply BitVec.eq_of_getLsbD_eq
    intro i inside
    have above : ¬ 32 + i < 20 ∧ ¬ 32 + i < 32 := ⟨by omega, by omega⟩
    simp [getLsbD_tripleWord, inside, above]
  unfold decomposeTriple
  rw [upper, lowerHalf_tripleWord, sshiftRight_append, lowSixteen_tripleWord]

theorem signExtend_eq_setWidth_iff (len : BitVec 12) :
    len.signExtend 32 = len.setWidth 32 ↔ len.toNat < 2 ^ 11 := by
  have signed : (len.signExtend 32).toInt = len.toInt := BitVec.toInt_signExtend_of_le (by decide)
  have unsigned : (len.setWidth 32).toInt = len.toNat := by
    rw [BitVec.toInt_eq_toNat_cond, BitVec.toNat_setWidth]
    omega
  rw [← BitVec.toInt_inj, signed, unsigned, BitVec.toInt_eq_toNat_cond]
  omega

theorem setWidth_sixteen_eq_iff (offset : BitVec 20) :
    (offset.setWidth 16).setWidth 32 = offset.setWidth 32 ↔ offset.toNat < 2 ^ 16 := by
  rw [← BitVec.toNat_inj]
  simp only [BitVec.toNat_setWidth]
  omega

theorem eq_setWidth_of_fits {width : Nat} {value : BitVec 32}
    (fits : 0 ≤ value.toInt ∧ value.toInt < 2 ^ width) :
    value = (value.setWidth width).setWidth 32 ∧ value.toInt = (value.setWidth width).toNat := by
  have natural : value.toInt = value.toNat := by
    have sign := BitVec.toInt_eq_toNat_cond value
    have bound := value.isLt
    split at sign <;> omega
  have narrow : value.toNat < 2 ^ width := by
    have := fits.2
    rw [natural] at this
    exact_mod_cast this
  have kept : (value.setWidth width).toNat = value.toNat := by
    rw [BitVec.toNat_setWidth, Nat.mod_eq_of_lt narrow]
  refine ⟨?_, by rw [natural, kept]⟩
  apply BitVec.eq_of_toNat_eq
  rw [BitVec.toNat_setWidth, kept, Nat.mod_eq_of_lt value.isLt]

/-- The fields come back when the top bit of the length and the top four bits of the offset are
free, and otherwise they do not. -/
theorem decomposeTriple_composeTriple_iff (rbid len offset : BitVec 32)
    (lenFits : 0 ≤ len.toInt ∧ len.toInt < 2 ^ 12)
    (offsetFits : 0 ≤ offset.toInt ∧ offset.toInt < 2 ^ 20) :
    decomposeTriple (composeTriple rbid len offset) = (rbid, len, offset) ↔
      len.toInt < 2 ^ 11 ∧ offset.toInt < 2 ^ 16 := by
  obtain ⟨lenField, lenValue⟩ := eq_setWidth_of_fits lenFits
  obtain ⟨offsetField, offsetValue⟩ := eq_setWidth_of_fits offsetFits
  have lenBound : len.toInt < 2 ^ 11 ↔ (len.setWidth 12).toNat < 2 ^ 11 := by omega
  have offsetBound : offset.toInt < 2 ^ 16 ↔ (offset.setWidth 20).toNat < 2 ^ 16 := by omega
  rw [lenBound, offsetBound, ← signExtend_eq_setWidth_iff, ← setWidth_sixteen_eq_iff,
    ← lenField, ← offsetField]
  have composed : composeTriple rbid len offset =
      tripleWord rbid (len.setWidth 12) (offset.setWidth 20) := by
    rw [← composeTriple_setWidth, ← lenField, ← offsetField]
  rw [composed, decomposeTriple_tripleWord]
  simp only [Prod.mk.injEq, true_and]

theorem decomposeTriple_composeTriple_small :
    ((0 : Int) ≤ (3#32).toInt ∧ (3#32).toInt < 2 ^ 12) ∧
      ((0 : Int) ≤ (7#32).toInt ∧ (7#32).toInt < 2 ^ 20) ∧
        (decomposeTriple (composeTriple 1009778692#32 3#32 7#32) =
            (1009778692#32, 3#32, 7#32) ↔
          (3#32).toInt < 2 ^ 11 ∧ (7#32).toInt < 2 ^ 16) :=
  ⟨by decide, by decide,
    decomposeTriple_composeTriple_iff 1009778692#32 3#32 7#32 (by decide) (by decide)⟩

/-- An offset with a bit above the sixteenth does not come back. -/
theorem triple_not_round_trip :
    ¬ ∀ rbid len offset : BitVec 32, 0 ≤ len.toInt ∧ len.toInt < 2 ^ 12 →
      0 ≤ offset.toInt ∧ offset.toInt < 2 ^ 20 →
        decomposeTriple (composeTriple rbid len offset) = (rbid, len, offset) := by
  intro everyTriple
  have lost := everyTriple 1009778692#32 3#32 65536#32 (by decide) (by decide)
  revert lost
  decide

end DmsBlkdev
