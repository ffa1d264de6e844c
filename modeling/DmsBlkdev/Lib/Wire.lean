import Mathlib.Data.BitVec
import Mathlib.Data.List.Basic
import Mathlib.Tactic.Ring

/-!
# Big-endian numbers in a buffer

A number of `width` bytes is written with its most significant byte first.
`Stands` says that given bytes are found in a buffer at an offset; it splits
along concatenations, and a read at an offset succeeds exactly when the bytes
of its result stand there.
-/

namespace Lib.Wire

abbrev Bytes := List (BitVec 8)

/-- The last `width` bytes of a number, the most significant one first. -/
def toBytes : Nat → Nat → Bytes
  | 0, _ => []
  | width + 1, n => BitVec.ofNat 8 (n / 256 ^ width) :: toBytes width n

def ofBytes : Bytes → Nat
  | [] => 0
  | byte :: rest => byte.toNat * 256 ^ rest.length + ofBytes rest

section Number

@[simp] theorem toBytes_length (width n : Nat) : (toBytes width n).length = width := by
  induction width with
  | zero => rfl
  | succ width inductionHypothesis => simp [toBytes, inductionHypothesis]

theorem ofBytes_toBytes (width n : Nat) : ofBytes (toBytes width n) = n % 256 ^ width := by
  induction width with
  | zero => simp [toBytes, ofBytes, Nat.mod_one]
  | succ width inductionHypothesis =>
      rw [toBytes, ofBytes, toBytes_length, inductionHypothesis, Nat.mod_pow_succ,
        BitVec.toNat_ofNat]
      ring

theorem ofBytes_lt (bytes : Bytes) : ofBytes bytes < 256 ^ bytes.length := by
  induction bytes with
  | nil => simp [ofBytes]
  | cons byte rest inductionHypothesis =>
      have small : byte.toNat < 256 := byte.isLt
      have room : byte.toNat * 256 ^ rest.length + 256 ^ rest.length ≤ 256 * 256 ^ rest.length := by
        rw [← Nat.succ_mul]
        exact Nat.mul_le_mul_right _ small
      rw [ofBytes, List.length_cons, Nat.pow_succ, Nat.mul_comm _ 256]
      omega

theorem toBytes_add_mul (width high n : Nat) :
    toBytes width (high * 256 ^ width + n) = toBytes width n := by
  induction width generalizing high with
  | zero => rfl
  | succ width inductionHypothesis =>
      have shifted : high * 256 ^ (width + 1) + n = high * 256 * 256 ^ width + n := by
        rw [Nat.pow_succ]
        ring
      rw [toBytes, toBytes, shifted, inductionHypothesis]
      congr 1
      rw [Nat.add_comm, Nat.add_mul_div_right _ _ (Nat.pow_pos (by decide))]
      apply BitVec.eq_of_toNat_eq
      rw [BitVec.toNat_ofNat, BitVec.toNat_ofNat]
      omega

theorem toBytes_ofBytes (bytes : Bytes) : toBytes bytes.length (ofBytes bytes) = bytes := by
  induction bytes with
  | nil => rfl
  | cons byte rest inductionHypothesis =>
      rw [List.length_cons, toBytes, ofBytes, toBytes_add_mul, inductionHypothesis]
      congr 1
      rw [Nat.add_comm, Nat.add_mul_div_right _ _ (Nat.pow_pos (by decide)),
        Nat.div_eq_of_lt (ofBytes_lt rest), Nat.zero_add, BitVec.ofNat_toNat, BitVec.setWidth_eq]

end Number

def wordBytes (width : Nat) (word : BitVec (8 * width)) : Bytes := toBytes width word.toNat

@[simp] theorem wordBytes_length (width : Nat) (word : BitVec (8 * width)) :
    (wordBytes width word).length = width := toBytes_length ..

def Stands (buf : Bytes) (offset : Nat) (bytes : Bytes) : Prop := bytes <+: buf.drop offset

section Stands

variable {buf : Bytes} {offset : Nat}

@[simp] theorem stands_nil : Stands buf offset [] := List.nil_prefix

theorem stands_append {first second : Bytes} : Stands buf offset (first ++ second) ↔
    Stands buf offset first ∧ Stands buf (offset + first.length) second := by
  unfold Stands
  rw [← List.drop_drop]
  constructor
  · rintro ⟨rest, split⟩
    rw [← split, List.append_assoc]
    exact ⟨List.prefix_append _ _, by simp⟩
  · rintro ⟨⟨rest, split⟩, behind⟩
    rw [← split] at behind ⊢
    rw [List.drop_left] at behind
    exact (List.prefix_append_right_inj first).mpr behind

theorem Stands.inside {bytes : Bytes} (stands : Stands buf offset bytes)
    (inside : offset ≤ buf.length) : offset + bytes.length ≤ buf.length := by
  have short := List.IsPrefix.length_le stands
  rw [List.length_drop] at short
  omega

/-- What stands at an offset is determined by its length. -/
theorem Stands.unique {first second : Bytes} (one : Stands buf offset first)
    (other : Stands buf offset second) (same : first.length = second.length) : first = second :=
  (List.prefix_of_prefix_length_le one other (Nat.le_of_eq same)).eq_of_length same

theorem stands_self (bytes rest : Bytes) : Stands (bytes ++ rest) 0 bytes := by
  simp [Stands]

theorem stands_drop {bytes : Bytes} {more : Nat} :
    Stands (buf.drop offset) more bytes ↔ Stands buf (offset + more) bytes := by
  rw [Stands, Stands, List.drop_drop]

end Stands

/-- Read a word; nothing comes of a read beyond the buffer. -/
def read (width : Nat) (buf : Bytes) (offset : Nat) : Option (BitVec (8 * width)) :=
  if offset + width ≤ buf.length then
    some (BitVec.ofNat _ (ofBytes ((buf.drop offset).take width)))
  else none

theorem read_eq_some_iff {width : Nat} (positive : 0 < width) {buf : Bytes} {offset : Nat}
    {word : BitVec (8 * width)} :
    read width buf offset = some word ↔ Stands buf offset (wordBytes width word) := by
  have size : 2 ^ (8 * width) = 256 ^ width := by rw [Nat.pow_mul]
  constructor
  · intro done
    unfold read at done
    split at done
    · next inside =>
        have length : ((buf.drop offset).take width).length = width := by simp; omega
        obtain rfl := Option.some.inj done
        have value : (BitVec.ofNat (8 * width) (ofBytes ((buf.drop offset).take width))).toNat =
            ofBytes ((buf.drop offset).take width) := by
          have small := ofBytes_lt ((buf.drop offset).take width)
          rw [length] at small
          rw [BitVec.toNat_ofNat, size, Nat.mod_eq_of_lt small]
        rw [Stands, wordBytes, value]
        have bytes := toBytes_ofBytes ((buf.drop offset).take width)
        rw [length] at bytes
        rw [bytes]
        exact List.take_prefix _ _
    · cases done
  · rintro ⟨rest, split⟩
    have long : offset + width ≤ buf.length := by
      have lengths := congrArg List.length split
      rw [List.length_append, wordBytes_length, List.length_drop] at lengths
      omega
    have front : (buf.drop offset).take width = wordBytes width word := by
      rw [← split, List.take_left' (wordBytes_length ..)]
    rw [read, if_pos long, front, wordBytes, ofBytes_toBytes]
    congr 1
    apply BitVec.eq_of_toNat_eq
    rw [BitVec.toNat_ofNat, size, Nat.mod_mod, Nat.mod_eq_of_lt (size ▸ word.isLt)]

end Lib.Wire
