import DmsBlkdev.Lib.Wire
import Mathlib.Data.List.TakeWhile

/-!
# Text as the C library prints and scans it

A string ends before its first zero byte.  `fgets` takes a line, or as much of
it as there is room for; the conversions `%d` and `%s` skip white space and take
a number or a word.  A number and a word that were printed are scanned again
when a byte that cannot belong to them stands behind.
-/

namespace Lib.Stdio

open Lib.Wire

/-- What a character array has in front of its first zero byte. -/
@[ext] structure CString where
  bytes : Bytes
  terminated : 0 ∉ bytes
  deriving DecidableEq

def CString.ofArray (array : Bytes) : CString where
  bytes := array.takeWhile (· ≠ 0)
  terminated := fun member => by simpa using List.mem_takeWhile_imp member

theorem CString.bytes_ofArray {array : Bytes} (nonzero : 0 ∉ array) :
    (ofArray array).bytes = array := by
  apply List.takeWhile_eq_self_iff.mpr
  intro byte member
  have other : byte ≠ 0 := fun same => nonzero (same ▸ member)
  simpa using other

theorem CString.ofArray_bytes (string : CString) : ofArray string.bytes = string :=
  CString.ext (bytes_ofArray string.terminated)

def newline : BitVec 8 := 10
def space : BitVec 8 := 32
def plus : BitVec 8 := 43
def minus : BitVec 8 := 45

/-- `isspace`. -/
def isSpace (byte : BitVec 8) : Bool := byte = space || (9 ≤ byte.toNat && byte.toNat ≤ 13)

/-- `isdigit`. -/
def isDigit (byte : BitVec 8) : Bool := 48 ≤ byte.toNat && byte.toNat ≤ 57

/-- `fgets` with room for so many bytes besides the zero: what it takes, and what it leaves. -/
def fgets : Nat → Bytes → Bytes × Bytes
  | 0, text => ([], text)
  | _ + 1, [] => ([], [])
  | room + 1, byte :: rest =>
      if byte = newline then ([byte], rest)
      else (byte :: (fgets room rest).1, (fgets room rest).2)

def decimal (number : Nat) : Bytes :=
  (Nat.toDigits 10 number).map fun digit => BitVec.ofNat 8 digit.toNat

/-- What `%d` prints. -/
def printInt (value : Int) : Bytes :=
  if value < 0 then minus :: decimal value.natAbs else decimal value.natAbs

def ofDecimal (digits : Bytes) : Nat :=
  Nat.ofDigitChars 10 (digits.map fun digit => Char.ofNat digit.toNat) 0

def skipSpace (text : Bytes) : Bytes := text.dropWhile isSpace

def scanNat (text : Bytes) : Option (Nat × Bytes) :=
  if text.takeWhile isDigit = [] then none
  else some (ofDecimal (text.takeWhile isDigit), text.dropWhile isDigit)

/-- What `%d` finds, and what stands behind it. -/
def scanInt (text : Bytes) : Option (Int × Bytes) :=
  match skipSpace text with
  | [] => none
  | sign :: rest =>
      if sign = minus then (scanNat rest).map fun found => (-(found.1 : Int), found.2)
      else if sign = plus then (scanNat rest).map fun found => ((found.1 : Int), found.2)
      else (scanNat (sign :: rest)).map fun found => ((found.1 : Int), found.2)

/-- What `%s` finds. -/
def scanWord (text : Bytes) : Option Bytes :=
  let word := (skipSpace text).takeWhile (!isSpace ·)
  if word = [] then none else some word

section Fgets

/-- A line for which there is room is taken whole. -/
theorem fgets_line {line : Bytes} (free : newline ∉ line) {room : Nat} (fits : line.length < room)
    (rest : Bytes) : fgets room (line ++ newline :: rest) = (line ++ [newline], rest) := by
  induction line generalizing room with
  | nil =>
      obtain ⟨less, rfl⟩ := Nat.exists_eq_succ_of_ne_zero (Nat.ne_of_gt fits)
      rfl
  | cons byte later inductionHypothesis =>
      obtain ⟨less, rfl⟩ := Nat.exists_eq_succ_of_ne_zero (Nat.ne_of_gt (Nat.zero_lt_of_lt fits))
      have other : byte ≠ newline := fun same => free (same ▸ List.mem_cons_self)
      have taken := inductionHypothesis (fun member => free (List.mem_cons_of_mem _ member))
        (Nat.lt_of_succ_lt_succ fits)
      rw [List.cons_append, fgets, if_neg other, taken]
      rfl

theorem fgets_length_le (room : Nat) (text : Bytes) : (fgets room text).2.length ≤ text.length := by
  induction text generalizing room with
  | nil => cases room <;> exact Nat.le_refl _
  | cons byte rest inductionHypothesis =>
      cases room with
      | zero => exact Nat.le_refl _
      | succ room =>
          rw [fgets]
          split
          · exact Nat.le_succ _
          · exact (inductionHypothesis room).trans (Nat.le_succ _)

theorem fgets_taken_le (room : Nat) (text : Bytes) : (fgets room text).1.length ≤ room := by
  induction text generalizing room with
  | nil => cases room <;> exact Nat.zero_le _
  | cons byte rest inductionHypothesis =>
      cases room with
      | zero => exact Nat.le_refl _
      | succ room =>
          rw [fgets]
          split
          · exact Nat.succ_le_succ (Nat.zero_le _)
          · exact Nat.succ_le_succ (inductionHypothesis room)

theorem fgets_length_lt (room : Nat) (byte : BitVec 8) (rest : Bytes) :
    (fgets (room + 1) (byte :: rest)).2.length < (byte :: rest).length := by
  rw [fgets]
  split
  · exact Nat.lt_succ_self _
  · exact Nat.lt_succ_of_le (fgets_length_le room rest)

end Fgets

section Decimal

theorem toNat_digit {number : Nat} {digit : Char} (there : digit ∈ Nat.toDigits 10 number) :
    (BitVec.ofNat 8 digit.toNat).toNat = digit.toNat ∧ 48 ≤ digit.toNat ∧ digit.toNat ≤ 57 := by
  have range : 48 ≤ digit.toNat ∧ digit.toNat ≤ 57 :=
    Char.isDigit_iff_toNat.mp (Nat.isDigit_of_mem_toDigits (by decide) (by decide) there)
  refine ⟨?_, range⟩
  rw [BitVec.toNat_ofNat]
  exact Nat.mod_eq_of_lt (by omega)

theorem isDigit_decimal {number : Nat} {byte : BitVec 8} (member : byte ∈ decimal number) :
    isDigit byte = true := by
  obtain ⟨digit, there, rfl⟩ := List.mem_map.mp member
  obtain ⟨same, low, high⟩ := toNat_digit there
  simp [isDigit, same, low, high]

theorem decimal_ne_nil (number : Nat) : decimal number ≠ [] := by
  simp [decimal]

theorem decimal_length_le {number places : Nat} (positive : 0 < places) :
    (decimal number).length ≤ places ↔ number < 10 ^ places := by
  rw [decimal, List.length_map, Nat.length_toDigits_le_iff (by decide) positive]

theorem ofDecimal_decimal (number : Nat) : ofDecimal (decimal number) = number := by
  have back : (decimal number).map (fun digit => Char.ofNat digit.toNat) =
      Nat.toDigits 10 number := by
    rw [decimal, List.map_map]
    refine (List.map_congr_left fun digit there => ?_).trans (List.map_id _)
    rw [Function.comp_apply, (toNat_digit there).1, Char.ofNat_toNat, id]
  rw [ofDecimal, back, Nat.ofDigitChars_ten_toDigits]

theorem isDigit_plain {byte : BitVec 8} (digit : isDigit byte = true) :
    isSpace byte = false ∧ byte ≠ minus ∧ byte ≠ plus := by
  have range : 48 ≤ byte.toNat ∧ byte.toNat ≤ 57 := by simpa [isDigit] using digit
  refine ⟨?_, ?_, ?_⟩
  · have notSpace : byte ≠ space := by
      rintro rfl
      exact absurd range (by decide)
    have above : ¬ byte.toNat ≤ 13 := by omega
    simp [isSpace, notSpace, above]
  · rintro rfl
    exact absurd range (by decide)
  · rintro rfl
    exact absurd range (by decide)

theorem scanNat_decimal (number : Nat) {byte : BitVec 8} (stops : isDigit byte = false)
    (rest : Bytes) : scanNat (decimal number ++ byte :: rest) = some (number, byte :: rest) := by
  have all : ∀ digit ∈ decimal number, isDigit digit := fun digit member => isDigit_decimal member
  have taken : (decimal number ++ byte :: rest).takeWhile isDigit = decimal number := by
    rw [List.takeWhile_append_of_pos all, List.takeWhile_cons_of_neg (by simp [stops]),
      List.append_nil]
  have left : (decimal number ++ byte :: rest).dropWhile isDigit = byte :: rest := by
    rw [List.dropWhile_append_of_pos all, List.dropWhile_cons_of_neg (by simp [stops])]
  rw [scanNat, taken, left, if_neg (decimal_ne_nil number), ofDecimal_decimal]

/-- A natural number that was printed is scanned again. -/
theorem scanInt_decimal (number : Nat) {byte : BitVec 8} (stops : isDigit byte = false)
    (rest : Bytes) :
    scanInt (decimal number ++ byte :: rest) = some ((number : Int), byte :: rest) := by
  obtain ⟨first, later, shape⟩ := List.exists_cons_of_ne_nil (decimal_ne_nil number)
  obtain ⟨solid, notMinus, notPlus⟩ :=
    isDigit_plain (isDigit_decimal (shape ▸ List.mem_cons_self : first ∈ decimal number))
  have scanned := scanNat_decimal number stops rest
  rw [shape, List.cons_append] at scanned ⊢
  rw [scanInt, skipSpace, List.dropWhile_cons_of_neg (by simp [solid])]
  simp only [if_neg notMinus, if_neg notPlus, scanned, Option.map_some]

theorem skipSpace_subset (text : Bytes) : skipSpace text ⊆ text :=
  (List.dropWhile_suffix _).subset

theorem scanNat_subset {text rest : Bytes} {number : Nat}
    (found : scanNat text = some (number, rest)) : rest ⊆ text := by
  rw [scanNat] at found
  split at found
  · cases found
  · cases found
    exact (List.dropWhile_suffix _).subset

theorem scanInt_subset {text rest : Bytes} {value : Int}
    (found : scanInt text = some (value, rest)) : rest ⊆ text := by
  have whole := skipSpace_subset text
  rw [scanInt] at found
  split at found
  · cases found
  · next sign later shape =>
      rw [shape] at whole
      have within : later ⊆ text := List.Subset.trans (List.subset_cons_self sign later) whole
      split at found
      · obtain ⟨⟨number, left⟩, scanned, same⟩ := Option.map_eq_some_iff.mp found
        cases same
        exact List.Subset.trans (scanNat_subset scanned) within
      · split at found
        · obtain ⟨⟨number, left⟩, scanned, same⟩ := Option.map_eq_some_iff.mp found
          cases same
          exact List.Subset.trans (scanNat_subset scanned) within
        · obtain ⟨⟨number, left⟩, scanned, same⟩ := Option.map_eq_some_iff.mp found
          cases same
          exact List.Subset.trans (scanNat_subset scanned) whole

end Decimal

section Word

theorem scanWord_plain {text word : Bytes} (found : scanWord text = some word) :
    word ⊆ text ∧ word ≠ [] ∧ ∀ byte ∈ word, isSpace byte = false := by
  rw [scanWord] at found
  split at found
  · cases found
  · next nonempty =>
      obtain rfl := Option.some.inj found
      refine ⟨?_, nonempty, fun byte member => ?_⟩
      · exact List.Subset.trans (List.takeWhile_prefix _).subset (skipSpace_subset text)
      · simpa using List.mem_takeWhile_imp member

theorem skipSpace_append {word : Bytes} (nonempty : word ≠ [])
    (solid : ∀ byte ∈ word, isSpace byte = false) (rest : Bytes) :
    skipSpace (word ++ rest) = word ++ rest := by
  obtain ⟨first, later, rfl⟩ := List.exists_cons_of_ne_nil nonempty
  exact List.dropWhile_cons_of_neg (by simp [solid first List.mem_cons_self])

/-- A word is found again in front of white space. -/
theorem scanWord_append {word : Bytes} (nonempty : word ≠ [])
    (solid : ∀ byte ∈ word, isSpace byte = false) {byte : BitVec 8} (stops : isSpace byte = true)
    (rest : Bytes) : scanWord (word ++ byte :: rest) = some word := by
  have taken : (word ++ byte :: rest).takeWhile (!isSpace ·) = word := by
    rw [List.takeWhile_append_of_pos fun byte member => by simp [solid byte member],
      List.takeWhile_cons_of_neg (by simp [stops]), List.append_nil]
  simp only [scanWord, skipSpace_append nonempty solid, taken, if_neg nonempty]

end Word

end Lib.Stdio
