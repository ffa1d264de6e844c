import DmsBlkdev.Lib.Wire

/-!
# Words in the memory of a little-endian machine

The machine keeps a word with its least significant byte first.  A function
on words reverses when what it stores is the word in network order; a function
that reverses is its own inverse.  A store replaces the bytes at an offset.
-/

namespace Lib.ByteOrder

open Lib.Wire

/-- The byte of a word at a place, the least significant one at place 0. -/
def lane {bits : Nat} (word : BitVec bits) (place : Nat) : BitVec 8 :=
  word.extractLsb' (8 * place) 8

def hostBytes (width : Nat) (word : BitVec (8 * width)) : Bytes := (wordBytes width word).reverse

def hostWord (width : Nat) (raw : Bytes) : BitVec (8 * width) :=
  BitVec.ofNat _ (ofBytes raw.reverse)

section Host

variable {width : Nat}

@[simp] theorem hostBytes_length (word : BitVec (8 * width)) :
    (hostBytes width word).length = width := by
  simp [hostBytes]

theorem hostWord_hostBytes (word : BitVec (8 * width)) :
    hostWord width (hostBytes width word) = word := by
  have size : 2 ^ (8 * width) = 256 ^ width := by rw [Nat.pow_mul]
  rw [hostWord, hostBytes, List.reverse_reverse, wordBytes, ofBytes_toBytes, ← size,
    Nat.mod_eq_of_lt word.isLt, BitVec.ofNat_toNat, BitVec.setWidth_eq]

theorem hostBytes_injective : Function.Injective (hostBytes width) := by
  intro first second same
  rw [← hostWord_hostBytes first, same, hostWord_hostBytes]

theorem toBytes_eq_map (number : Nat) : toBytes width number =
    (List.range width).reverse.map fun place => BitVec.ofNat 8 (number / 256 ^ place) := by
  induction width with
  | zero => rfl
  | succ width inductionHypothesis =>
      rw [toBytes, inductionHypothesis, List.range_succ, List.reverse_concat, List.map_cons]

theorem lane_eq (word : BitVec (8 * width)) (place : Nat) :
    lane word place = BitVec.ofNat 8 (word.toNat / 256 ^ place) := by
  apply BitVec.eq_of_toNat_eq
  rw [lane, BitVec.extractLsb'_toNat, BitVec.toNat_ofNat, Nat.shiftRight_eq_div_pow, Nat.pow_mul]

/-- In network order the lanes are read from the top. -/
theorem wordBytes_eq_lanes (word : BitVec (8 * width)) :
    wordBytes width word = (List.range width).reverse.map (lane word) := by
  rw [wordBytes, toBytes_eq_map]
  exact List.map_congr_left fun place _ => (lane_eq word place).symm

theorem hostBytes_eq_lanes (word : BitVec (8 * width)) :
    hostBytes width word = (List.range width).map (lane word) := by
  rw [hostBytes, wordBytes_eq_lanes, ← List.map_reverse, List.reverse_reverse]

end Host

def Reverses (width : Nat) (swap : BitVec (8 * width) → BitVec (8 * width)) : Prop :=
  ∀ word, hostBytes width (swap word) = wordBytes width word

section Reverses

variable {width : Nat} {swap : BitVec (8 * width) → BitVec (8 * width)}

/-- A function reverses when each lane of its result is the opposite lane of its argument. -/
theorem reverses_of_lanes
    (lanes : ∀ word place, place < width → lane (swap word) place = lane word (width - 1 - place)) :
    Reverses width swap := by
  intro word
  rw [hostBytes_eq_lanes, wordBytes_eq_lanes]
  apply List.ext_getElem
  · simp
  · intro place bound _
    have inside : place < width := by simpa using bound
    simpa using lanes word place inside

theorem Reverses.involutive (reverses : Reverses width swap) : Function.Involutive swap := by
  intro word
  apply hostBytes_injective
  have once : wordBytes width (swap word) = (wordBytes width word).reverse := by
    rw [← reverses word, hostBytes, List.reverse_reverse]
  rw [reverses, once, hostBytes]

theorem Reverses.received (reverses : Reverses width swap) (word : BitVec (8 * width)) :
    swap (hostWord width (wordBytes width word)) = word := by
  rw [← reverses word, hostWord_hostBytes, reverses.involutive]

end Reverses

/-- Write bytes into memory at an offset; nothing comes of a write that leaves it. -/
def store (raw : Bytes) (offset : Int) (bytes : Bytes) : Option Bytes :=
  if 0 ≤ offset ∧ offset + bytes.length ≤ raw.length then
    some (raw.take offset.toNat ++ bytes ++ raw.drop (offset.toNat + bytes.length))
  else none

theorem store_between {before old bytes behind : Bytes} (size : old.length = bytes.length) :
    store (before ++ old ++ behind) before.length bytes = some (before ++ bytes ++ behind) := by
  have room : 0 ≤ (before.length : Int) ∧
      (before.length : Int) + bytes.length ≤ (before ++ old ++ behind).length := by
    simp only [List.length_append]
    omega
  rw [store, if_pos room, Int.toNat_natCast, ← size, ← List.length_append, List.drop_left,
    List.append_assoc before old, List.take_left]

end Lib.ByteOrder
