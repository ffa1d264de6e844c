import Mathlib.Algebra.BigOperators.Group.Finset.Piecewise
import Mathlib.Algebra.BigOperators.Ring.Finset
import Mathlib.Algebra.Order.BigOperators.Group.Finset
import Mathlib.Data.Finset.Card
import Mathlib.Data.List.Dedup

/-!
# How often the keys of a list occur

The weight of a list whose items carry keys below `n` is the sum over the keys
of how often they occur.  A list of `n` keys below `n` repeats none exactly
when it misses none.
-/

namespace Lib.Multiplicity

variable {Item : Type*} {items : List Item} {key : Item → Nat} {n : Nat}

theorem sum_map_eq_sum_countP (bounded : ∀ item ∈ items, key item < n) (weight : Nat → Nat) :
    (items.map fun item => weight (key item)).sum =
      ∑ k ∈ Finset.range n, items.countP (fun item => key item = k) * weight k := by
  induction items with
  | nil => simp
  | cons item items inductionHypothesis =>
      rw [List.map_cons, List.sum_cons,
        inductionHypothesis fun other member => bounded other (List.mem_cons_of_mem _ member)]
      have here : key item ∈ Finset.range n :=
        Finset.mem_range.mpr (bounded item List.mem_cons_self)
      have single : weight (key item) =
          ∑ k ∈ Finset.range n, (if key item = k then 1 else 0) * weight k := by
        simp only [ite_mul, one_mul, zero_mul, Finset.sum_ite_eq, if_pos here]
      rw [single, ← Finset.sum_add_distrib]
      apply Finset.sum_congr rfl
      intro k _
      rw [List.countP_cons, ← Nat.add_mul, Nat.add_comm]
      simp only [decide_eq_true_eq]

/-- When no key occurs more than `often` times, the list weighs at most `often` times all keys. -/
theorem sum_map_le (bounded : ∀ item ∈ items, key item < n) {often : Nat}
    (few : ∀ k < n, items.countP (fun item => key item = k) ≤ often) (weight : Nat → Nat) :
    (items.map fun item => weight (key item)).sum ≤ often * ∑ k ∈ Finset.range n, weight k := by
  rw [sum_map_eq_sum_countP bounded, Finset.mul_sum]
  exact Finset.sum_le_sum fun k member =>
    Nat.mul_le_mul_right _ (few k (Finset.mem_range.mp member))

theorem length_le (bounded : ∀ item ∈ items, key item < n) {often : Nat}
    (few : ∀ k < n, items.countP (fun item => key item = k) ≤ often) :
    items.length ≤ often * n := by
  have total := sum_map_le bounded few fun _ => 1
  simpa using total

/-- When an item has the property at most once, and only where it is marked, the items together
have it at most as often as they are marked. -/
theorem countP_flatMap_le {Other : Type*} {parts : Item → List Other} {property : Other → Bool}
    {marked : Item → Bool}
    (own : ∀ item ∈ items, (parts item).countP property ≤ (marked item).toNat) :
    (items.flatMap parts).countP property ≤ items.countP marked := by
  induction items with
  | nil => simp
  | cons item rest inductionHypothesis =>
      have first := own item List.mem_cons_self
      have later := inductionHypothesis fun other member =>
        own other (List.mem_cons_of_mem _ member)
      rw [List.flatMap_cons, List.countP_append, List.countP_cons]
      cases here : marked item <;> simp only [here, Bool.toNat_true, Bool.toNat_false] at first ⊢
      · simp
        omega
      · simp
        omega

theorem nodup_iff_complete {keys : List Nat} (long : keys.length = n)
    (bounded : ∀ k ∈ keys, k < n) : keys.Nodup ↔ ∀ k < n, k ∈ keys := by
  have inside : keys.toFinset ⊆ Finset.range n := by
    intro k member
    exact Finset.mem_range.mpr (bounded k (List.mem_toFinset.mp member))
  constructor
  · intro distinct k small
    have all : keys.toFinset = Finset.range n := by
      apply Finset.eq_of_subset_of_card_le inside
      rw [List.toFinset_card_of_nodup distinct, Finset.card_range, long]
    exact List.mem_toFinset.mp (all ▸ Finset.mem_range.mpr small)
  · intro complete
    have all : keys.toFinset = Finset.range n := by
      apply inside.antisymm
      intro k member
      exact List.mem_toFinset.mpr (complete k (Finset.mem_range.mp member))
    have card : keys.dedup.length = keys.length := by
      rw [← List.card_toFinset, all, Finset.card_range, long]
    rw [← List.dedup_eq_self]
    exact (List.dedup_sublist keys).eq_of_length card

end Lib.Multiplicity
