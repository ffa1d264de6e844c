import Mathlib.Data.BitVec
import Mathlib.Data.List.Basic

/-!
# Shared cells changed by one atomic operation

A cell that only ever changes by compare-and-exchange from its start value
keeps the first other value offered to it.  A counter that is only ever
decremented and tested reports zero at one decrement of each full turn of its
word, so a counter that starts at `n` reports it at the `n`-th decrement.
-/

namespace Lib.Atomic

section CompareExchange

variable {Value : Type*} [DecidableEq Value]

/-- Store `new` when the cell holds `old`. -/
def cmpxchg (old new cell : Value) : Value := if cell = old then new else cell

@[simp] theorem cmpxchg_self (old new : Value) : cmpxchg old new old = new := by simp [cmpxchg]

/-- What a sequence of offers leaves in a cell that started at `old`. -/
def settled (old : Value) (offers : List Value) : Value :=
  (offers.find? fun offer => decide (offer ≠ old)).getD old

@[simp] theorem settled_nil (old : Value) : settled old [] = old := rfl

theorem settled_cons (old offer : Value) (offers : List Value) :
    settled old (offer :: offers) = if offer = old then settled old offers else offer := by
  by_cases same : offer = old <;> simp [settled, same]

theorem settled_append (old : Value) (first second : List Value) :
    settled old (first ++ second) =
      if settled old first = old then settled old second else settled old first := by
  induction first with
  | nil => simp
  | cons offer first inductionHypothesis =>
      rw [List.cons_append, settled_cons, settled_cons]
      by_cases same : offer = old
      · rw [if_pos same, if_pos same, inductionHypothesis]
      · rw [if_neg same, if_neg same, if_neg same]

/-- A cell that takes what other cells settled on settles on the first offer to any of them. -/
theorem settled_map_settled (old : Value) (groups : List (List Value)) :
    settled old (groups.map (settled old)) = settled old groups.flatten := by
  induction groups with
  | nil => rfl
  | cons group groups inductionHypothesis =>
      rw [List.map_cons, settled_cons, List.flatten_cons, settled_append, inductionHypothesis]

theorem settled_append_singleton (old : Value) (offers : List Value) (offer : Value) :
    settled old (offers ++ [offer]) = cmpxchg old offer (settled old offers) := by
  unfold settled
  rw [List.find?_append]
  cases found : offers.find? fun offer => decide (offer ≠ old) with
  | none => by_cases same : offer = old <;> simp [cmpxchg, same]
  | some value =>
      have changed : value ≠ old := by simpa using List.find?_some found
      simp [cmpxchg, changed]

theorem foldl_cmpxchg (old : Value) (offers : List Value) :
    offers.foldl (fun cell offer => cmpxchg old offer cell) old = settled old offers := by
  induction offers using List.reverseRecOn with
  | nil => rfl
  | append_singleton offers offer inductionHypothesis =>
      rw [List.foldl_append, inductionHypothesis, settled_append_singleton]
      rfl

end CompareExchange

section Countdown

variable {width : Nat}

/-- `atomic_dec_and_test`: the decremented counter, and whether it is zero. -/
def decAndTest (counter : BitVec width) : BitVec width × Bool :=
  (counter - 1, counter - 1 == 0)

@[simp] theorem decAndTest_fst (counter : BitVec width) : (decAndTest counter).1 = counter - 1 := rfl

@[simp] theorem decAndTest_snd (counter : BitVec width) :
    (decAndTest counter).2 = decide (counter = 1) := by
  rw [Bool.eq_iff_iff, decide_eq_true_iff]
  simp only [decAndTest, beq_iff_eq]
  exact sub_eq_zero

/-- A counter that started at `start` and was decremented `count` times. -/
def countdown (width start count : Nat) : BitVec width :=
  BitVec.ofNat width start - BitVec.ofNat width count

@[simp] theorem countdown_zero (start : Nat) :
    countdown width start 0 = BitVec.ofNat width start := by
  simp [countdown]

theorem countdown_sub_one (start count : Nat) :
    countdown width start count - 1 = countdown width start (count + 1) := by
  unfold countdown
  rw [BitVec.ofNat_add, sub_add_eq_sub_sub]
  rfl

theorem countdown_eq_zero_iff (start count : Nat) :
    countdown width start count = 0 ↔ start % 2 ^ width = count % 2 ^ width := by
  unfold countdown
  rw [sub_eq_zero]
  constructor
  · intro equality
    simpa using congrArg BitVec.toNat equality
  · intro equality
    exact BitVec.eq_of_toNat_eq (by simpa using equality)

theorem decAndTest_countdown (start count : Nat) :
    decAndTest (countdown width start count) =
      (countdown width start (count + 1),
        decide (start % 2 ^ width = (count + 1) % 2 ^ width)) := by
  unfold decAndTest
  rw [countdown_sub_one]
  congr 1
  rw [Bool.eq_iff_iff, beq_iff_eq, countdown_eq_zero_iff, decide_eq_true_iff]

/-- Within one turn of the word the test reports the `start`-th decrement only. -/
theorem decAndTest_countdown_of_lt {start count : Nat} (small : start < 2 ^ width)
    (within : count + 1 < 2 ^ width) :
    decAndTest (countdown width start count) =
      (countdown width start (count + 1), decide (start = count + 1)) := by
  rw [decAndTest_countdown, Nat.mod_eq_of_lt small, Nat.mod_eq_of_lt within]

end Countdown

end Lib.Atomic
