import DmsBlkdev.Lib.OrderedMap
import Mathlib.Data.Fin.Basic
import Mathlib.Data.List.FinRange
import Mathlib.Data.List.Nodup
import Mathlib.Data.Nat.Digits.Defs

/-!
# Trees over the digits of their keys

A node has a child for every digit to the base, and the digit of a key decides
at each height which child the key belongs to.  Such a tree is a finite map in
the order of its keys.  An insertion has labels for the nodes that it adds, and
may run out of them; a removal takes away the nodes that are left without
children.
-/

namespace Lib

inductive DigitTree (base : Nat) (Label Item : Type) : Nat → Type where
  | empty {height : Nat} : DigitTree base Label Item height
  | leaf (item : Item) : DigitTree base Label Item 0
  | node {height : Nat} (label : Label) (children : Fin base → DigitTree base Label Item height) :
      DigitTree base Label Item (height + 1)

def digit (base height key : Nat) [NeZero base] : Fin base := Fin.ofNat base (key / base ^ height)

section Digits

variable {base : Nat} [NeZero base] {height key other : Nat}

theorem digit_val : (digit base height key).val = key / base ^ height % base := rfl

theorem agree_succ_iff :
    other % base ^ (height + 1) = key % base ^ (height + 1) ↔
      digit base height other = digit base height key ∧ other % base ^ height = key % base ^ height := by
  have positive : 0 < base ^ height := Nat.pow_pos (NeZero.pos base)
  rw [Nat.mod_pow_succ, Nat.mod_pow_succ, Fin.ext_iff, digit_val, digit_val]
  constructor
  · intro same
    have below := congrArg (· % base ^ height) same
    simp only [Nat.add_mul_mod_self_left, Nat.mod_mod] at below
    refine ⟨?_, below⟩
    rw [below] at same
    exact Nat.eq_of_mul_eq_mul_left positive (Nat.add_left_cancel same)
  · rintro ⟨first, rest⟩
    rw [first, rest]

theorem digit_eq_div (bound : key < base ^ (height + 1)) :
    (digit base height key).val = key / base ^ height := by
  rw [digit_val]
  apply Nat.mod_eq_of_lt
  rw [Nat.div_lt_iff_lt_mul (Nat.pow_pos (NeZero.pos base)), Nat.mul_comm, ← Nat.pow_succ]
  exact bound

theorem digit_place {start : Nat} (aligned : base ^ (height + 1) ∣ start) (lower : start ≤ key)
    (upper : key < start + base ^ (height + 1)) :
    start + digit base height key * base ^ height ≤ key ∧
      key < start + (digit base height key + 1) * base ^ height := by
  have positive : 0 < base ^ height := Nat.pow_pos (NeZero.pos base)
  obtain ⟨low, rfl⟩ := Nat.exists_eq_add_of_le lower
  obtain ⟨blocks, rfl⟩ := aligned
  have small : low < base ^ (height + 1) := Nat.lt_of_add_lt_add_left upper
  have same : digit base height (base ^ (height + 1) * blocks + low) = digit base height low := by
    apply Fin.ext
    rw [digit_val, digit_val, Nat.pow_succ, Nat.mul_assoc, Nat.mul_add_div positive,
      Nat.mul_add_mod]
  have below := Nat.div_mul_le_self low (base ^ height)
  have above := Nat.lt_div_mul_add positive (a := low)
  rw [same, digit_eq_div small, Nat.add_one_mul]
  omega

end Digits

namespace DigitTree

variable {base : Nat} {Label Item : Type} {height : Nat}

def isEmpty : DigitTree base Label Item height → Bool
  | .empty => true
  | .leaf _ => false
  | .node _ _ => false

@[simp] theorem isEmpty_empty : (empty : DigitTree base Label Item height).isEmpty = true := by
  cases height <;> rfl

@[simp] theorem isEmpty_leaf (item : Item) :
    (leaf item : DigitTree base Label Item 0).isEmpty = false := rfl

@[simp] theorem isEmpty_node (label : Label)
    (children : Fin base → DigitTree base Label Item height) :
    (node label children).isEmpty = false := rfl

theorem isEmpty_iff {tree : DigitTree base Label Item height} :
    tree.isEmpty = true ↔ tree = .empty := by
  cases tree <;> simp

def labels : {height : Nat} → DigitTree base Label Item height → List Label
  | _, .empty => []
  | _, .leaf _ => []
  | _, .node label children => label :: (List.finRange base).flatMap fun d => (children d).labels

def occupied (children : Fin base → DigitTree base Label Item height) : Nat :=
  (List.finRange base).countP fun d => ! (children d).isEmpty

def entries : {height : Nat} → DigitTree base Label Item height → Nat → List (Nat × Item)
  | _, .empty, _ => []
  | _, .leaf item, start => [(start, item)]
  | height + 1, .node _ children, start =>
      (List.finRange base).flatMap fun d => (children d).entries (start + d * base ^ height)

@[simp] theorem entries_empty (start : Nat) :
    (empty : DigitTree base Label Item height).entries start = [] := by
  cases height <;> rfl

section Find

variable [NeZero base]

def find : {height : Nat} → DigitTree base Label Item height → Nat → Option Item
  | _, .empty, _ => none
  | _, .leaf item, _ => some item
  | height + 1, .node _ children, key => (children (digit base height key)).find key

@[simp] theorem find_empty (key : Nat) :
    (empty : DigitTree base Label Item height).find key = none := by
  cases height <;> rfl

@[simp] theorem find_leaf (item : Item) (key : Nat) :
    (leaf item : DigitTree base Label Item 0).find key = some item := rfl

@[simp] theorem find_node (label : Label) (children : Fin base → DigitTree base Label Item height)
    (key : Nat) : (node label children).find key = (children (digit base height key)).find key := rfl

theorem find_congr {tree : DigitTree base Label Item height} {key other : Nat}
    (agree : other % base ^ height = key % base ^ height) : tree.find other = tree.find key := by
  induction tree with
  | empty => rw [find_empty, find_empty]
  | leaf item => rfl
  | node label children inductionHypothesis =>
      obtain ⟨first, rest⟩ := agree_succ_iff.mp agree
      rw [find_node, find_node, first]
      exact inductionHypothesis _ rest

end Find

section Entries

variable [NeZero base] {tree : DigitTree base Label Item height} {start key : Nat} {item : Item}

theorem mem_entries : (key, item) ∈ tree.entries start ↔
    start ≤ key ∧ key < start + base ^ height ∧ tree.find (key - start) = some item := by
  induction tree generalizing start with
  | empty => simp
  | leaf stored =>
      rw [entries, find_leaf, List.mem_singleton, Prod.mk.injEq, Nat.pow_zero, Option.some.injEq]
      constructor
      · rintro ⟨rfl, rfl⟩
        exact ⟨le_rfl, Nat.lt_succ_self key, rfl⟩
      · rintro ⟨lower, upper, rfl⟩
        exact ⟨Nat.le_antisymm (Nat.le_of_lt_succ upper) lower, rfl⟩
  | @node height label children inductionHypothesis =>
      have positive : 0 < base ^ height := Nat.pow_pos (NeZero.pos base)
      have width : base ^ (height + 1) = base * base ^ height := by rw [Nat.pow_succ, Nat.mul_comm]
      simp only [entries, find_node, List.mem_flatMap, List.mem_finRange, true_and,
        inductionHypothesis]
      constructor
      · rintro ⟨d, lower, upper, found⟩
        have within : (d + 1) * base ^ height ≤ base * base ^ height :=
          Nat.mul_le_mul_right _ d.isLt
        rw [Nat.add_one_mul] at within
        have own : (key - start) / base ^ height = d := by
          rw [Nat.div_eq_iff positive]
          omega
        have digitOwn : digit base height (key - start) = d := by
          apply Fin.ext
          rw [digit_val, own, Nat.mod_eq_of_lt d.isLt]
        refine ⟨by omega, by omega, ?_⟩
        rw [digitOwn, ← found]
        apply find_congr
        have split : key - start = key - (start + d * base ^ height) + d * base ^ height := by omega
        rw [split, Nat.add_mul_mod_self_right]
      · rintro ⟨lower, upper, found⟩
        have small : key - start < base ^ (height + 1) := by omega
        have own := digit_eq_div small
        have below := Nat.div_mul_le_self (key - start) (base ^ height)
        have above := Nat.lt_div_mul_add positive (a := key - start)
        rw [← own] at below above
        refine ⟨digit base height (key - start), by omega, by omega, ?_⟩
        rw [← found]
        apply find_congr
        generalize (digit base height (key - start)).val = d at below above
        have split : key - start = key - (start + d * base ^ height) + d * base ^ height := by omega
        rw [split, Nat.add_mul_mod_self_right]

theorem entries_ascending (tree : DigitTree base Label Item height) (start : Nat) :
    (tree.entries start).Pairwise fun first second => first.1 < second.1 := by
  induction tree generalizing start with
  | empty => rw [entries_empty]; exact List.Pairwise.nil
  | leaf stored => exact List.pairwise_singleton _ _
  | @node height label children inductionHypothesis =>
      rw [entries, List.pairwise_flatMap]
      refine ⟨fun d _ => inductionHypothesis d _, ?_⟩
      refine (List.pairwise_lt_finRange base).imp ?_
      rintro d later before ⟨one, _⟩ inFirst ⟨other, _⟩ inSecond
      have upper := (mem_entries.mp inFirst).2.1
      have lower := (mem_entries.mp inSecond).1
      have apart : (d + 1) * base ^ height ≤ later * base ^ height :=
        Nat.mul_le_mul_right _ before
      rw [Nat.add_one_mul] at apart
      show one < other
      omega

/-- Within the range of a child, the entries of a node are those of the child. -/
theorem window_child {label : Label} {children : Fin base → DigitTree base Label Item height}
    (d : Fin base) {lower upper : Nat} (above : start + d * base ^ height ≤ lower)
    (below : upper ≤ start + (d + 1) * base ^ height) :
    OrderedMap.window ((node label children).entries start) lower upper =
      OrderedMap.window ((children d).entries (start + d * base ^ height)) lower upper := by
  apply OrderedMap.ascending_ext
  · exact OrderedMap.window_ascending (entries_ascending _ _) lower upper
  · exact OrderedMap.window_ascending (entries_ascending _ _) lower upper
  · intro entry
    rw [OrderedMap.mem_window, OrderedMap.mem_window, entries, List.mem_flatMap]
    constructor
    · rintro ⟨⟨other, -, member⟩, left, right⟩
      have range := mem_entries.mp member
      have same : other = d := by
        rcases Nat.lt_trichotomy other.val d.val with less | equal | more
        · have apart : (other + 1) * base ^ height ≤ d * base ^ height :=
            Nat.mul_le_mul_right _ less
          rw [Nat.add_one_mul] at apart
          omega
        · exact Fin.ext equal
        · have apart : (d + 1) * base ^ height ≤ other * base ^ height :=
            Nat.mul_le_mul_right _ more
          omega
      exact ⟨same ▸ member, left, right⟩
    · rintro ⟨member, left, right⟩
      exact ⟨⟨d, List.mem_finRange d, member⟩, left, right⟩

/-- The finite map that a tree stands for. -/
def toMap (tree : DigitTree base Label Item height) : OrderedMap Nat Item :=
  ⟨tree.entries 0, tree.entries_ascending 0⟩

theorem mem_toMap :
    (key, item) ∈ tree.toMap.entries ↔ key < base ^ height ∧ tree.find key = some item := by
  rw [toMap, mem_entries, Nat.zero_add, Nat.sub_zero]
  exact and_iff_right (Nat.zero_le key)

theorem lookup_toMap (bound : key < base ^ height) : tree.toMap.lookup key = tree.find key := by
  apply Option.ext
  intro item
  rw [OrderedMap.lookup_eq_some, mem_toMap, and_iff_right bound]

theorem lookup_toMap_of_le (above : base ^ height ≤ key) : tree.toMap.lookup key = none := by
  rw [OrderedMap.lookup_eq_none, OrderedMap.keys, List.mem_map]
  rintro ⟨⟨_, item⟩, member, rfl⟩
  exact Nat.not_lt.mpr above (mem_toMap.mp member).1

end Entries

section Children

variable {label : Label} {children : Fin base → DigitTree base Label Item height} {d : Fin base}
  {below : DigitTree base Label Item height}

def labelsBeside (d : Fin base) (children : Fin base → DigitTree base Label Item height) :
    List Label :=
  ((List.finRange base).erase d).flatMap fun other => (children other).labels

theorem labels_node_perm (label : Label) (d : Fin base)
    (children : Fin base → DigitTree base Label Item height) :
    (node label children).labels.Perm
      (label :: ((children d).labels ++ labelsBeside d children)) := by
  apply List.Perm.cons
  have split := (List.perm_cons_erase (List.mem_finRange d)).flatMap_right
    fun other => (children other).labels
  rwa [List.flatMap_cons] at split

theorem labelsBeside_update :
    labelsBeside d (Function.update children d below) = labelsBeside d children := by
  unfold labelsBeside
  apply List.flatMap_congr
  intro other member
  have different := ((List.nodup_finRange base).mem_erase_iff.mp member).1
  rw [Function.update_of_ne different]

theorem labels_update_perm (label : Label) (children : Fin base → DigitTree base Label Item height)
    (d : Fin base) (below : DigitTree base Label Item height) :
    (node label (Function.update children d below)).labels.Perm
      (label :: (below.labels ++ labelsBeside d children)) := by
  have split := labels_node_perm label d (Function.update children d below)
  rwa [Function.update_self, labelsBeside_update] at split

theorem find_update [NeZero base] (key : Nat) :
    (node label (Function.update children d below)).find key =
      if digit base height key = d then below.find key
      else (children (digit base height key)).find key := by
  rw [find_node, Function.update_apply]
  split <;> rfl

theorem occupied_eq_zero : occupied children = 0 ↔ ∀ d, children d = .empty := by
  simp [occupied, List.countP_eq_zero, isEmpty_iff]

theorem occupied_le (children : Fin base → DigitTree base Label Item height) :
    occupied children ≤ base := by
  have count := List.countP_le_length (p := fun d => ! (children d).isEmpty) (l := List.finRange base)
  rwa [List.length_finRange] at count

def occupiedBeside (d : Fin base) (children : Fin base → DigitTree base Label Item height) : Nat :=
  ((List.finRange base).erase d).countP fun other => ! (children other).isEmpty

theorem occupied_eq (d : Fin base) (children : Fin base → DigitTree base Label Item height) :
    occupied children = (if (children d).isEmpty then 0 else 1) + occupiedBeside d children := by
  rw [occupied, (List.perm_cons_erase (List.mem_finRange d)).countP_eq, List.countP_cons,
    occupiedBeside, Nat.add_comm]
  cases (children d).isEmpty <;> rfl

theorem occupied_update :
    occupied (Function.update children d below) =
      (if below.isEmpty then 0 else 1) + occupiedBeside d children := by
  rw [occupied_eq d, Function.update_self, occupiedBeside, occupiedBeside]
  congr 1
  apply List.countP_congr
  intro other member
  have different := ((List.nodup_finRange base).mem_erase_iff.mp member).1
  rw [Function.update_of_ne different]

/-- What replaces the child of a key changes what is found at that key, if that is all that it
changes below. -/
theorem find_update_of_agree [NeZero base] (label : Label) {key other : Nat} {outcome : Option Item}
    (changed : below.find other = if other % base ^ height = key % base ^ height then outcome
      else (children (digit base height key)).find other) :
    (node label (Function.update children (digit base height key) below)).find other =
      if other % base ^ (height + 1) = key % base ^ (height + 1) then outcome
      else (node label children).find other := by
  rw [find_update, find_node]
  by_cases first : digit base height other = digit base height key
  · have agree := @agree_succ_iff base _ height key other
    rw [and_iff_right first] at agree
    simp only [agree, changed, first, if_true]
  · rw [if_neg first, if_neg fun agree => first (agree_succ_iff.mp agree).1]

end Children

section Plant

variable [NeZero base]

/-- Put an item at a key; the labels are for the nodes that have to be added on the way. -/
def plant (key : Nat) (item : Item) :
    {height : Nat} → DigitTree base Label Item height → List Label →
      DigitTree base Label Item height
  | 0, _, _ => .leaf item
  | height + 1, .node label children, labels =>
      let d := digit base height key
      .node label (Function.update children d ((children d).plant key item labels))
  | _ + 1, .empty, [] => .empty
  | height + 1, .empty, label :: labels =>
      let d := digit base height key
      .node label (Function.update (fun _ => .empty) d (empty.plant key item labels))

def missing (key : Nat) : {height : Nat} → DigitTree base Label Item height → Nat
  | 0, _ => 0
  | height + 1, .empty => height + 1
  | height + 1, .node _ children => (children (digit base height key)).missing key

variable {key other : Nat} {item : Item} {added : List Label}

theorem missing_zero (key : Nat) (tree : DigitTree base Label Item 0) : tree.missing key = 0 := by
  cases tree <;> rfl

theorem missing_empty (key height : Nat) :
    (empty : DigitTree base Label Item height).missing key = height := by
  cases height <;> rfl

theorem missing_le (key : Nat) (tree : DigitTree base Label Item height) :
    tree.missing key ≤ height := by
  induction tree with
  | empty => exact Nat.le_of_eq (missing_empty ..)
  | leaf item => exact Nat.le_of_eq (missing_zero ..)
  | node label children inductionHypothesis =>
      exact Nat.le_succ_of_le (inductionHypothesis (digit base _ key))

theorem isEmpty_plant {tree : DigitTree base Label Item height} (present : tree.isEmpty = false) :
    (tree.plant key item added).isEmpty = false := by
  cases tree with
  | empty =>
      rw [isEmpty_empty] at present
      cases present
  | leaf stored => rfl
  | node label children => rfl

/-- With labels enough, the item is found at its key, and elsewhere what was found before. -/
theorem find_plant {tree : DigitTree base Label Item height}
    (enough : tree.missing key ≤ added.length) :
    (tree.plant key item added).find other =
      if other % base ^ height = key % base ^ height then some item else tree.find other := by
  induction height generalizing added with
  | zero =>
      have agree : other % base ^ 0 = key % base ^ 0 := by simp [Nat.mod_one]
      rw [if_pos agree]
      rfl
  | succ height inductionHypothesis =>
      cases tree with
      | empty =>
          cases added with
          | nil => cases enough
          | cons label added =>
              have rest : (empty : DigitTree base Label Item height).missing key ≤ added.length := by
                rw [missing_empty]
                exact Nat.le_of_succ_le_succ enough
              have planted := inductionHypothesis rest
              have unfolded := @find_update_of_agree base Label Item height (fun _ => .empty) _ _
                label key other (some item) planted
              rw [plant, unfolded, find_node, find_empty, find_empty]
      | node label children => exact find_update_of_agree label (inductionHypothesis enough)

theorem find_plant_of_lt {tree : DigitTree base Label Item height}
    (short : added.length < tree.missing key) :
    (tree.plant key item added).find other = tree.find other := by
  induction height generalizing added with
  | zero =>
      rw [missing_zero] at short
      exact absurd short (Nat.not_lt_zero _)
  | succ height inductionHypothesis =>
      cases tree with
      | empty =>
          cases added with
          | nil => rfl
          | cons label added =>
              have rest : added.length < (empty : DigitTree base Label Item height).missing key := by
                rw [missing_empty]
                exact Nat.lt_of_succ_lt_succ short
              rw [plant, find_update, inductionHypothesis rest, find_empty, find_empty, ite_self]
      | node label children =>
          rw [plant, find_update, inductionHypothesis short, find_node]
          split
          · next same => rw [same]
          · rfl

theorem labels_plant_perm {tree : DigitTree base Label Item height}
    (needed : added.length ≤ tree.missing key) :
    (tree.plant key item added).labels.Perm (added ++ tree.labels) := by
  induction height generalizing added with
  | zero =>
      rw [missing_zero] at needed
      obtain rfl := List.length_eq_zero_iff.mp (Nat.le_zero.mp needed)
      cases tree <;> exact List.Perm.refl []
  | succ height inductionHypothesis =>
      cases tree with
      | empty =>
          cases added with
          | nil => exact List.Perm.refl _
          | cons label added =>
              have rest : added.length ≤ (empty : DigitTree base Label Item height).missing key := by
                rw [missing_empty]
                exact Nat.le_of_succ_le_succ needed
              have nothing : labelsBeside (digit base height key)
                  (fun _ => (empty : DigitTree base Label Item height)) = [] := by
                simp [labelsBeside, labels]
              refine (labels_update_perm ..).trans (List.Perm.cons label ?_)
              rw [nothing, List.append_nil]
              exact inductionHypothesis rest
      | node label children =>
          refine (labels_update_perm ..).trans ?_
          have before := labels_node_perm label (digit base height key) children
          refine List.Perm.trans ?_ (before.symm.append_left added)
          refine List.Perm.trans ?_ List.perm_middle.symm
          refine List.Perm.cons label ?_
          rw [← List.append_assoc]
          exact (inductionHypothesis needed).append_right _

end Plant

section Prune

variable [NeZero base]

/-- Take the item of a key out, and every node that has no children then. -/
def prune (key : Nat) : {height : Nat} → DigitTree base Label Item height →
    DigitTree base Label Item height
  | _, .empty => .empty
  | _, .leaf _ => .empty
  | height + 1, .node label children =>
      let d := digit base height key
      let left := Function.update children d ((children d).prune key)
      if occupied left = 0 then .empty else .node label left

def pruned (key : Nat) : {height : Nat} → DigitTree base Label Item height → List Label
  | _, .empty => []
  | _, .leaf _ => []
  | height + 1, .node label children =>
      let d := digit base height key
      let left := Function.update children d ((children d).prune key)
      (children d).pruned key ++ if occupied left = 0 then [label] else []

variable {key other : Nat} {tree : DigitTree base Label Item height}

def descent (key : Nat) : {height : Nat} → DigitTree base Label Item height →
    List (Label × Fin base)
  | _, .empty => []
  | _, .leaf _ => []
  | height + 1, .node label children =>
      (children (digit base height key)).descent key ++ [(label, digit base height key)]

/-- Nothing is found at the key any more, and elsewhere what was found before. -/
theorem find_prune (key other : Nat) (tree : DigitTree base Label Item height) :
    (tree.prune key).find other =
      if other % base ^ height = key % base ^ height then none else tree.find other := by
  induction tree with
  | empty => rw [prune, find_empty, ite_self]
  | leaf item =>
      have agree : other % base ^ 0 = key % base ^ 0 := by simp [Nat.mod_one]
      rw [prune, find_empty, if_pos agree]
  | @node height label children inductionHypothesis =>
      have changed := find_update_of_agree label (inductionHypothesis (digit base height key))
      rw [← changed, prune]
      split
      · next nothing =>
          rw [find_empty, find_node, occupied_eq_zero.mp nothing, find_empty]
      · rfl

theorem labels_prune_perm (key : Nat) (tree : DigitTree base Label Item height) :
    tree.labels.Perm (tree.pruned key ++ (tree.prune key).labels) := by
  induction tree with
  | empty => exact List.Perm.refl _
  | leaf item => exact List.Perm.refl _
  | @node height label children inductionHypothesis =>
      have below := inductionHypothesis (digit base height key)
      have after := labels_update_perm label children (digit base height key)
        ((children (digit base height key)).prune key)
      refine (labels_node_perm label (digit base height key) children).trans ?_
      rw [prune, pruned]
      refine ((below.append_right _).cons label).trans ?_
      rw [List.append_assoc]
      refine List.perm_middle.symm.trans ?_
      have kept := (after.append_left ((children (digit base height key)).pruned key)).symm
      refine kept.trans ?_
      split
      · next nothing =>
          have alone : (node label (Function.update children (digit base height key)
              ((children (digit base height key)).prune key))).labels = [label] := by
            simp [labels, occupied_eq_zero.mp nothing]
          rw [alone, labels, List.append_nil]
      · rw [List.append_nil]

end Prune

section Height

variable [NeZero base]

def grow (label : Label) (tree : DigitTree base Label Item height) :
    DigitTree base Label Item (height + 1) :=
  .node label (Function.update (fun _ => .empty) 0 tree)

/-- As many heights less as there is nothing but what is below the digit 0. -/
def shrink : {height : Nat} → DigitTree base Label Item height →
    (height : Nat) × DigitTree base Label Item height
  | height, .empty => ⟨height, .empty⟩
  | _, .leaf item => ⟨0, .leaf item⟩
  | height + 1, .node label children =>
      if occupied children = 1 ∧ (children 0).isEmpty = false then (children 0).shrink
      else ⟨height + 1, .node label children⟩

def shed : {height : Nat} → DigitTree base Label Item height → List Label
  | _, .empty => []
  | _, .leaf _ => []
  | _ + 1, .node label children =>
      if occupied children = 1 ∧ (children 0).isEmpty = false then label :: (children 0).shed
      else []

variable {label : Label} {children : Fin base → DigitTree base Label Item height}

theorem digit_eq_zero_iff {key : Nat} (bound : key < base ^ (height + 1)) :
    digit base height key = 0 ↔ key < base ^ height := by
  have positive : 0 < base ^ height := Nat.pow_pos (NeZero.pos base)
  rw [Fin.ext_iff, digit_eq_div bound, Fin.val_zero, Nat.div_eq_zero_iff_lt positive]

theorem toMap_node_of_alone (alone : ∀ d, d ≠ 0 → children d = .empty) :
    (node label children).toMap = (children 0).toMap := by
  have wider : base ^ height ≤ base ^ (height + 1) :=
    Nat.pow_le_pow_right (NeZero.pos base) (Nat.le_succ height)
  apply OrderedMap.eq_of_mem_iff
  intro key item
  rw [mem_toMap, mem_toMap, find_node]
  constructor
  · rintro ⟨bound, found⟩
    have first : digit base height key = 0 := by
      by_contra other
      rw [alone _ other, find_empty] at found
      cases found
    rw [first] at found
    exact ⟨(digit_eq_zero_iff bound).mp first, found⟩
  · rintro ⟨bound, found⟩
    have within := Nat.lt_of_lt_of_le bound wider
    rw [(digit_eq_zero_iff within).mpr bound]
    exact ⟨within, found⟩

theorem labels_node_of_alone (label : Label) (alone : ∀ d, d ≠ 0 → children d = .empty) :
    (node label children).labels.Perm (label :: (children 0).labels) := by
  have split := labels_node_perm label 0 children
  have nothing : labelsBeside 0 children = [] := by
    apply List.flatMap_eq_nil_iff.mpr
    intro d member
    have different := ((List.nodup_finRange base).mem_erase_iff.mp member).1
    rw [alone d different, labels]
  rwa [nothing, List.append_nil] at split

theorem alone_of_occupied (single : occupied children = 1) (first : (children 0).isEmpty = false) :
    ∀ d, d ≠ 0 → children d = .empty := by
  intro d different
  rw [occupied_eq 0, first, occupiedBeside] at single
  have nothing := List.countP_eq_zero.mp (Nat.add_left_cancel (k := 0) single)
  have member := (List.nodup_finRange base).mem_erase_iff.mpr ⟨different, List.mem_finRange d⟩
  have empty := nothing d member
  rw [← isEmpty_iff]
  simpa using empty

theorem grown_alone (tree : DigitTree base Label Item height) (d : Fin base) (different : d ≠ 0) :
    Function.update (fun _ => (empty : DigitTree base Label Item height)) 0 tree d = .empty :=
  Function.update_of_ne different _ _

theorem toMap_grow (label : Label) (tree : DigitTree base Label Item height) :
    (tree.grow label).toMap = tree.toMap := by
  rw [grow, toMap_node_of_alone (grown_alone tree), Function.update_self]

theorem labels_grow_perm (label : Label) (tree : DigitTree base Label Item height) :
    (tree.grow label).labels.Perm (label :: tree.labels) := by
  have perm := labels_node_of_alone label (grown_alone tree)
  rwa [Function.update_self] at perm

def Slender (children : Fin base → DigitTree base Label Item height) : Prop :=
  occupied children = 1 ∧ (children 0).isEmpty = false

instance (children : Fin base → DigitTree base Label Item height) : Decidable (Slender children) :=
  inferInstanceAs (Decidable (_ ∧ _))

theorem shrink_of_slender (slender : Slender children) :
    (node label children).shrink = (children 0).shrink := if_pos slender

theorem shrink_of_not_slender (wide : ¬ Slender children) :
    (node label children).shrink = ⟨height + 1, node label children⟩ := if_neg wide

/-- Every key that is too great for a tree one height lower lacks all nodes but the highest. -/
def Sparse (tree : DigitTree base Label Item height) : Prop :=
  ∀ key, base ^ (height - 1) ≤ key → key < base ^ height → tree.missing key = height - 1

theorem sparse_grow (label : Label) (tree : DigitTree base Label Item height) :
    (tree.grow label).Sparse := by
  intro key lower upper
  have high : digit base height key ≠ 0 := fun zero =>
    Nat.not_lt.mpr lower ((digit_eq_zero_iff upper).mp zero)
  rw [grow, missing, Function.update_of_ne high, missing_empty, Nat.add_sub_cancel]

theorem occupied_grown (tree : DigitTree base Label Item height) :
    occupied (Function.update (fun _ => (empty : DigitTree base Label Item height)) 0 tree) =
      if tree.isEmpty then 0 else 1 := by
  have beside : occupiedBeside 0 (fun _ => (empty : DigitTree base Label Item height)) = 0 := by
    apply List.countP_eq_zero.mpr
    intro d member
    simp
  rw [occupied_update, beside, Nat.add_zero]

theorem toMap_shrink (tree : DigitTree base Label Item height) :
    tree.shrink.2.toMap = tree.toMap := by
  induction tree with
  | empty => rw [shrink]
  | leaf item => rfl
  | node label children inductionHypothesis =>
      by_cases slender : Slender children
      · have alone := alone_of_occupied slender.1 slender.2
        rw [shrink_of_slender slender, inductionHypothesis 0, toMap_node_of_alone alone]
      · rw [shrink_of_not_slender slender]

end Height

section Maps

variable [NeZero base] {key : Nat} {item : Item} {added : List Label}
  {tree : DigitTree base Label Item height}

omit [NeZero base] in
theorem eq_of_agree {key other : Nat} (bound : key < base ^ height)
    (boundOther : other < base ^ height)
    (agree : other % base ^ height = key % base ^ height) : other = key := by
  rwa [Nat.mod_eq_of_lt bound, Nat.mod_eq_of_lt boundOther] at agree

theorem toMap_plant (bound : key < base ^ height) (enough : tree.missing key ≤ added.length) :
    (tree.plant key item added).toMap = tree.toMap.insert key item := by
  apply OrderedMap.eq_of_mem_iff
  intro other stored
  rw [mem_toMap, OrderedMap.mem_insert, mem_toMap, find_plant enough, Prod.mk.injEq]
  constructor
  · rintro ⟨within, found⟩
    split at found
    · next agree => exact .inl ⟨eq_of_agree bound within agree, (Option.some.inj found).symm⟩
    · next apart =>
        refine .inr ⟨⟨within, found⟩, ?_⟩
        rintro rfl
        exact apart rfl
  · rintro (⟨rfl, rfl⟩ | ⟨⟨within, found⟩, different⟩)
    · exact ⟨bound, if_pos rfl⟩
    · refine ⟨within, ?_⟩
      rw [if_neg fun agree => different (eq_of_agree bound within agree)]
      exact found

theorem toMap_plant_of_lt (short : added.length < tree.missing key) :
    (tree.plant key item added).toMap = tree.toMap := by
  apply OrderedMap.eq_of_mem_iff
  intro other stored
  rw [mem_toMap, mem_toMap, find_plant_of_lt short]

theorem toMap_prune (bound : key < base ^ height) :
    (tree.prune key).toMap = tree.toMap.erase key := by
  apply OrderedMap.eq_of_mem_iff
  intro other stored
  rw [mem_toMap, OrderedMap.mem_erase, mem_toMap, find_prune]
  constructor
  · rintro ⟨within, found⟩
    split at found
    · cases found
    · next apart =>
        refine ⟨⟨within, found⟩, ?_⟩
        rintro rfl
        exact apart rfl
  · rintro ⟨⟨within, found⟩, different⟩
    refine ⟨within, ?_⟩
    rw [if_neg fun agree => different (eq_of_agree bound within agree)]
    exact found

end Maps

section Fruitful

def Fruitful : {height : Nat} → DigitTree base Label Item height → Prop
  | _, .empty => True
  | _, .leaf _ => True
  | _, .node _ children => occupied children ≠ 0 ∧ ∀ d, (children d).Fruitful

variable {tree : DigitTree base Label Item height} {label : Label}
  {children : Fin base → DigitTree base Label Item height} {d : Fin base}
  {below : DigitTree base Label Item height}

theorem fruitful_empty : (empty : DigitTree base Label Item height).Fruitful := by
  cases height <;> trivial

theorem occupied_ne_zero (present : (children d).isEmpty = false) : occupied children ≠ 0 := by
  intro none
  rw [occupied_eq_zero.mp none d, isEmpty_empty] at present
  cases present

theorem fruitful_update (fruitful : ∀ other, (children other).Fruitful) (fruit : below.Fruitful)
    (occupied : occupied (Function.update children d below) ≠ 0) :
    (node label (Function.update children d below)).Fruitful := by
  refine ⟨occupied, fun other => ?_⟩
  by_cases same : other = d
  · subst same
    rwa [Function.update_self]
  · rw [Function.update_of_ne same]
    exact fruitful other

theorem Fruitful.exists_entry (fruitful : tree.Fruitful) (present : tree.isEmpty = false)
    (start : Nat) : ∃ entry, entry ∈ tree.entries start := by
  induction tree generalizing start with
  | empty =>
      rw [isEmpty_empty] at present
      cases present
  | leaf item => exact ⟨(start, item), List.mem_singleton_self _⟩
  | @node height label children inductionHypothesis =>
      have some := fruitful.1
      rw [Ne, occupied_eq_zero, not_forall] at some
      obtain ⟨d, different⟩ := some
      have child : (children d).isEmpty = false :=
        Bool.eq_false_iff.mpr fun empty => different (isEmpty_iff.mp empty)
      obtain ⟨entry, member⟩ := inductionHypothesis d (fruitful.2 d) child
        (start + d * base ^ height)
      exact ⟨entry, List.mem_flatMap.mpr ⟨d, List.mem_finRange d, member⟩⟩

end Fruitful

section Tidy

variable [NeZero base] {tree : DigitTree base Label Item height} {label : Label}
  {children : Fin base → DigitTree base Label Item height} {key : Nat} {item : Item}
  {added : List Label}

def Needed : {height : Nat} → DigitTree base Label Item height → Prop
  | 0, _ => True
  | _ + 1, .empty => False
  | _ + 1, .node _ children => ∃ d, d ≠ 0 ∧ (children d).isEmpty = false

theorem needed_zero (tree : DigitTree base Label Item 0) : tree.Needed := by
  cases tree <;> trivial

theorem Fruitful.eq_empty (fruitful : tree.Fruitful) (nothing : tree.toMap.entries = []) :
    tree = .empty := by
  by_contra different
  have present : tree.isEmpty = false :=
    Bool.eq_false_iff.mpr fun empty => different (isEmpty_iff.mp empty)
  obtain ⟨entry, member⟩ := fruitful.exists_entry present 0
  have absent : entry ∈ tree.toMap.entries := member
  rw [nothing] at absent
  cases absent

/-- A height that is needed is that of a key that is found. -/
theorem Fruitful.exists_high {tree : DigitTree base Label Item (height + 1)}
    (fruitful : tree.Fruitful) (needed : tree.Needed) :
    ∃ entry ∈ tree.toMap.entries, base ^ height ≤ entry.1 := by
  cases tree with
  | empty => exact needed.elim
  | node label children =>
      obtain ⟨d, positive, present⟩ := needed
      obtain ⟨⟨key, item⟩, member⟩ := (fruitful.2 d).exists_entry present (0 + d * base ^ height)
      refine ⟨(key, item), List.mem_flatMap.mpr ⟨d, List.mem_finRange d, member⟩, ?_⟩
      have lower := (mem_entries.mp member).1
      have least : 1 * base ^ height ≤ d * base ^ height :=
        Nat.mul_le_mul_right _ (Nat.pos_of_ne_zero fun zero => positive (Fin.ext zero))
      omega

theorem isEmpty_plant_of_enough (enough : tree.missing key ≤ added.length) :
    (tree.plant key item added).isEmpty = false := by
  cases height with
  | zero => cases tree <;> rfl
  | succ height =>
      cases tree with
      | empty =>
          cases added with
          | nil => cases enough
          | cons label added => rfl
      | node label children => rfl

theorem fruitful_plant (fruitful : tree.Fruitful) (enough : tree.missing key ≤ added.length) :
    (tree.plant key item added).Fruitful := by
  induction height generalizing added with
  | zero => cases tree <;> trivial
  | succ height inductionHypothesis =>
      have occupiedBy : ∀ {children : Fin base → DigitTree base Label Item height} {d : Fin base}
          {below : DigitTree base Label Item height}, below.isEmpty = false →
          occupied (Function.update children d below) ≠ 0 := by
        intro children d below present
        refine occupied_ne_zero (d := d) ?_
        rwa [Function.update_self]
      cases tree with
      | empty =>
          cases added with
          | nil => cases enough
          | cons label added =>
              have rest : (empty : DigitTree base Label Item height).missing key ≤ added.length := by
                rw [missing_empty]
                exact Nat.le_of_succ_le_succ enough
              refine fruitful_update (fun _ => fruitful_empty) ?_ ?_
              · exact inductionHypothesis fruitful_empty rest
              · exact occupiedBy (isEmpty_plant_of_enough rest)
      | node label children =>
          refine fruitful_update fruitful.2 (inductionHypothesis (fruitful.2 _) enough) ?_
          exact occupiedBy (isEmpty_plant_of_enough enough)

theorem fruitful_prune (key : Nat) (fruitful : tree.Fruitful) : (tree.prune key).Fruitful := by
  induction tree with
  | empty => exact fruitful_empty
  | leaf item => exact fruitful_empty
  | node label children inductionHypothesis =>
      rw [prune]
      split
      · exact fruitful_empty
      · next occupied =>
          exact fruitful_update fruitful.2 (inductionHypothesis _ (fruitful.2 _)) occupied

theorem fruitful_grow (fruitful : tree.Fruitful) (present : tree.isEmpty = false) (label : Label) :
    (tree.grow label).Fruitful := by
  refine fruitful_update (fun _ => fruitful_empty) fruitful (occupied_ne_zero (d := 0) ?_)
  rwa [Function.update_self]

theorem fruitful_shrink (fruitful : tree.Fruitful) : tree.shrink.2.Fruitful := by
  induction tree with
  | empty =>
      rw [shrink]
      exact fruitful_empty
  | leaf item => trivial
  | node label children inductionHypothesis =>
      by_cases slender : Slender children
      · rw [shrink_of_slender slender]
        exact inductionHypothesis 0 (fruitful.2 0)
      · rw [shrink_of_not_slender slender]
        exact fruitful

/-- A height that cannot be taken away from a fruitful tree is needed. -/
theorem needed_shrink (fruitful : tree.Fruitful) (present : tree.isEmpty = false) :
    tree.shrink.2.Needed := by
  induction tree with
  | empty =>
      rw [isEmpty_empty] at present
      cases present
  | leaf item => exact needed_zero _
  | node label children inductionHypothesis =>
      by_cases slender : Slender children
      · rw [shrink_of_slender slender]
        exact inductionHypothesis 0 (fruitful.2 0) slender.2
      · rw [shrink_of_not_slender slender]
        by_contra none
        have alone : ∀ d, d ≠ 0 → (children d).isEmpty = true := by
          intro d different
          by_contra child
          exact none ⟨d, different, Bool.eq_false_iff.mpr child⟩
        have beside : occupiedBeside 0 children = 0 := by
          apply List.countP_eq_zero.mpr
          intro d member
          simp [alone d ((List.nodup_finRange base).mem_erase_iff.mp member).1]
        have total := occupied_eq 0 children
        rw [beside] at total
        cases first : (children 0).isEmpty with
        | true => exact fruitful.1 (total.trans (by simp [first]))
        | false => exact slender ⟨total.trans (by simp [first]), first⟩

theorem needed_plant (needed : tree.Needed) : (tree.plant key item added).Needed := by
  cases height with
  | zero => exact needed_zero _
  | succ height =>
      cases tree with
      | empty => exact needed.elim
      | node label children =>
          obtain ⟨d, different, present⟩ := needed
          refine ⟨d, different, ?_⟩
          by_cases same : d = digit base height key
          · subst same
            rw [Function.update_self]
            exact isEmpty_plant present
          · rwa [Function.update_of_ne same]

theorem needed_plant_of_digit {tree : DigitTree base Label Item (height + 1)}
    (high : digit base height key ≠ 0) (enough : tree.missing key ≤ added.length) :
    (tree.plant key item added).Needed := by
  cases tree with
  | empty =>
      cases added with
      | nil => cases enough
      | cons label added =>
          refine ⟨_, high, ?_⟩
          rw [Function.update_self]
          apply isEmpty_plant_of_enough
          rw [missing_empty]
          exact Nat.le_of_succ_le_succ enough
  | node label children =>
      refine ⟨_, high, ?_⟩
      rw [Function.update_self]
      exact isEmpty_plant_of_enough enough

end Tidy

section Remove

variable [NeZero base]

/-- Take the item of a key out, and heights too if that leaves the highest node with a child less. -/
def remove (key : Nat) : {height : Nat} → DigitTree base Label Item height →
    (height : Nat) × DigitTree base Label Item height
  | height, .empty => ⟨height, .empty⟩
  | _, .leaf _ => ⟨0, .empty⟩
  | height + 1, .node label children =>
      let d := digit base height key
      let left := Function.update children d ((children d).prune key)
      if occupied left = 0 then ⟨0, .empty⟩
      else if ((children d).prune key).isEmpty then (node label left).shrink
      else ⟨height + 1, .node label left⟩

variable {tree : DigitTree base Label Item height} {key : Nat}

theorem toMap_empty : (empty : DigitTree base Label Item height).toMap = .empty := by
  rw [toMap]
  simp only [entries_empty]
  rfl

theorem remove_of_gone (present : tree.isEmpty = false) (gone : (tree.prune key).isEmpty = true) :
    tree.remove key = ⟨0, .empty⟩ := by
  cases tree with
  | empty =>
      rw [isEmpty_empty] at present
      cases present
  | leaf item => rfl
  | @node height label children =>
      rw [prune] at gone
      by_cases bare : occupied (Function.update children (digit base height key)
          ((children (digit base height key)).prune key)) = 0
      · rw [remove, if_pos bare]
      · rw [if_neg bare, isEmpty_node] at gone
        cases gone

theorem remove_of_kept {label : Label} {children : Fin base → DigitTree base Label Item height}
    (kept : ((node label children).prune key).isEmpty = false) :
    (node label children).remove key =
      if ((children (digit base height key)).prune key).isEmpty then
        ((node label children).prune key).shrink
      else ⟨height + 1, (node label children).prune key⟩ := by
  rw [prune] at kept ⊢
  by_cases bare : occupied (Function.update children (digit base height key)
      ((children (digit base height key)).prune key)) = 0
  · rw [if_pos bare, isEmpty_empty] at kept
    cases kept
  · rw [remove, if_neg bare, if_neg bare]

theorem toMap_remove (bound : key < base ^ height) :
    (tree.remove key).2.toMap = tree.toMap.erase key := by
  rw [← toMap_prune bound]
  cases tree with
  | empty => rw [remove, prune]
  | leaf item => rw [remove, prune]
  | @node height label children =>
      rw [remove, prune]
      by_cases bare : occupied (Function.update children (digit base height key)
          ((children (digit base height key)).prune key)) = 0
      · rw [if_pos bare, if_pos bare, toMap_empty, toMap_empty]
      · rw [if_neg bare, if_neg bare]
        by_cases gone : ((children (digit base height key)).prune key).isEmpty = true
        · rw [if_pos gone, toMap_shrink]
        · rw [if_neg gone]

theorem fruitful_remove (fruitful : tree.Fruitful) : (tree.remove key).2.Fruitful := by
  cases tree with
  | empty => exact fruitful_empty
  | leaf item => exact fruitful_empty
  | @node height label children =>
      have left := fruitful_prune key fruitful
      rw [prune] at left
      rw [remove]
      by_cases bare : occupied (Function.update children (digit base height key)
          ((children (digit base height key)).prune key)) = 0
      · rw [if_pos bare]
        exact fruitful_empty
      · rw [if_neg bare] at left ⊢
        by_cases gone : ((children (digit base height key)).prune key).isEmpty = true
        · rw [if_pos gone]
          exact fruitful_shrink left
        · rw [if_neg gone]
          exact left

theorem needed_remove (fruitful : tree.Fruitful) (needed : tree.Needed) :
    (tree.remove key).2.Needed := by
  cases tree with
  | empty => exact needed
  | leaf item => exact needed_zero _
  | @node height label children =>
      have left := fruitful_prune key fruitful
      rw [prune] at left
      rw [remove]
      by_cases bare : occupied (Function.update children (digit base height key)
          ((children (digit base height key)).prune key)) = 0
      · rw [if_pos bare]
        exact needed_zero _
      · rw [if_neg bare] at left ⊢
        by_cases gone : ((children (digit base height key)).prune key).isEmpty = true
        · rw [if_pos gone]
          exact needed_shrink left rfl
        · rw [if_neg gone]
          obtain ⟨d, different, present⟩ := needed
          refine ⟨d, different, ?_⟩
          by_cases same : d = digit base height key
          · subst same
            rw [Function.update_self]
            exact Bool.eq_false_iff.mpr gone
          · rwa [Function.update_of_ne same]

end Remove

end DigitTree

end Lib
