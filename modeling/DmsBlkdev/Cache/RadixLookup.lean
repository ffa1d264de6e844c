import DmsBlkdev.Cache.RadixStored

/-!
# Lookups in the radix tree

A lookup of one index follows the digits of the index.  A lookup of several
items scans the tree level by level, skips the slots that are empty, and goes
on at the index where the last scan ended; together the scans find the first
items from an index on, in the order of their indices.
-/

namespace DmsBlkdev

open Lib RadixTreeSlab

section Lookup

variable {others : List Nat} {radix : RadixTree} {height index : Nat} {tree : RadixDigits height}

/-- From the slot of a tree on, the loop finds what the tree has at the index. -/
theorem lookupSlotLoop_spec (sound : radix.1.Sound) (stored : Stored radix.1 tree)
    {place : RadixTreeSlot} (loaded : loadSlot place radix = some (pointer tree)) :
    (lookupSlotLoop index radix height place).bind (readSlot radix) =
      some ((tree.find index).getD 0) := by
  induction tree generalizing place with
  | @empty height =>
      rw [pointer_empty] at loaded
      rw [DigitTree.find_empty]
      cases height with
      | zero => exact loaded
      | succ levels =>
          rw [lookupSlotLoop, loaded, Option.bind_some, if_pos rfl]
          rfl
  | leaf item => exact loaded
  | @node levels label children inductionHypothesis =>
      have member := (node_eq_some.mp stored.1).1
      have nonzero : label ≠ 0 := fun zero => sound.zero_notMem (zero ▸ member)
      have below : loadSlot (label, digit radixTreeMapSize levels index) radix =
          some (pointer (children (digit radixTreeMapSize levels index))) := by
        rw [loadSlot, if_neg nonzero, stored.1]
        rfl
      rw [lookupSlotLoop, loaded, Option.bind_some, pointer_node, if_neg nonzero, offsetOf_shiftOf]
      exact inductionHypothesis _ (stored.2 _) below

/-- A lookup never faults, and finds what was stored at the index. -/
theorem radixTreeLookup_spec (represents : RadixRepresents others radix tree)
    (small : index < 2 ^ 64) :
    radixTreeLookup index radix = some ((tree.toMap.lookup index).getD 0) := by
  have loaded : loadSlot (0, 0) radix = some (pointer tree) :=
    congrArg some represents.rnode
  simp only [radixTreeLookup, lookupSlot, represents.level, radixTreeMaxindex_eq represents.low,
    Option.bind_some]
  by_cases bound : index < radixTreeMapSize ^ height
  · have fits : ¬ min (radixTreeMapSize ^ height) (2 ^ 64) - 1 < index := by
      rw [fits_iff small, not_not]
      exact bound
    rw [if_neg fits, DigitTree.lookup_toMap bound]
    by_cases isItem : height = 0 ∧ radix.2.rnode ≠ 0
    · rw [if_pos isItem, Option.bind_some]
      refine loaded.trans ?_
      obtain ⟨rfl, -⟩ := isItem
      cases tree <;> rfl
    · rw [if_neg isItem]
      exact lookupSlotLoop_spec represents.sound represents.stored loaded
  · have beyond : min (radixTreeMapSize ^ height) (2 ^ 64) - 1 < index := (fits_iff small).mpr bound
    rw [if_pos beyond, DigitTree.lookup_toMap_of_le (Nat.le_of_not_lt bound)]
    rfl

end Lookup

section Scan

theorem finRange_drop {size position : Nat} (inside : position < size) :
    (List.finRange size).drop position =
      ⟨position, inside⟩ :: (List.finRange size).drop (position + 1) := by
  have bound : position < (List.finRange size).length := by rwa [List.length_finRange]
  rw [List.drop_eq_getElem_cons bound, List.getElem_finRange]
  rfl

theorem finRange_drop_all (size : Nat) : (List.finRange size).drop size = [] :=
  List.drop_of_length_le (Nat.le_of_eq List.length_finRange)

variable {slab : RadixTreeSlab} {label start : Nat}

theorem width_dvd {levels : Nat} (low : levels < 11) : radixTreeMapSize ^ levels ∣ 2 ^ 64 := by
  rw [radixTreeMapSize, ← Nat.pow_mul]
  exact Nat.pow_dvd_pow 2 (by omega)

theorem le_of_dvd_of_lt {width lower upper : Nat} (first : width ∣ lower) (second : width ∣ upper)
    (below : lower < upper) : lower + width ≤ upper := by
  obtain ⟨one, rfl⟩ := first
  obtain ⟨other, rfl⟩ := second
  have less : one < other := Nat.lt_of_mul_lt_mul_left below
  calc width * one + width = width * (one + 1) := (Nat.mul_succ width one).symm
    _ ≤ width * other := Nat.mul_le_mul_left width less

theorem window_slot (label start : Nat) {children : Fin radixTreeMapSize → RadixDigits 0}
    (sound : slab.Sound)
    (stored : ∀ d, Stored slab (children d)) (d : Fin radixTreeMapSize) :
    (OrderedMap.window ((DigitTree.node label children).entries start) (start + d)
        (start + d + 1)).map Prod.snd =
      if (contentsOf children).slots d ≠ 0 then [(contentsOf children).slots d] else [] := by
  have here : (contentsOf children).slots d = pointer (children d) := rfl
  have nonzero := (stored d).pointer_eq_zero sound
  rw [DigitTree.window_child d (by simp) (by simp [Nat.add_assoc]), here]
  cases child : children d with
  | empty =>
      rw [pointer_empty, if_neg (not_not.mpr rfl), DigitTree.entries_empty]
      rfl
  | leaf item =>
      rw [child] at nonzero
      have present : pointer (.leaf item : RadixDigits 0) ≠ 0 := by
        rw [Ne, nonzero]
        intro equal
        cases equal
      rw [if_pos present]
      simp [DigitTree.entries, OrderedMap.window]

/-- The scan of a node of the lowest level takes the items in a row, up to the number wanted. -/
theorem grabItems_spec (label start : Nat) {children : Fin radixTreeMapSize → RadixDigits 0}
    (sound : slab.Sound)
    (stored : ∀ d, Stored slab (children d)) {maxItems position : Nat}
    (inside : position ≤ radixTreeMapSize) (results : List Nat)
    (wanted : results.length < maxItems) :
    ∃ bound, start + position ≤ bound ∧ (position < radixTreeMapSize → start + position < bound) ∧
      bound ≤ start + radixTreeMapSize ∧
      grabItems (contentsOf children) maxItems ((List.finRange radixTreeMapSize).drop position)
          ((start + position) % 2 ^ 64) results =
        (results ++ (OrderedMap.window ((DigitTree.node label children).entries start)
          (start + position) bound).map Prod.snd, bound % 2 ^ 64) ∧
      (results ++ (OrderedMap.window ((DigitTree.node label children).entries start)
        (start + position) bound).map Prod.snd).length ≤ maxItems := by
  obtain ⟨left, split⟩ := Nat.exists_eq_add_of_le inside
  have ascending := DigitTree.entries_ascending (.node label children : RadixDigits 1) start
  induction left generalizing position results with
  | zero =>
      obtain rfl : position = radixTreeMapSize := split.symm
      refine ⟨start + radixTreeMapSize, le_rfl, fun less => absurd less (Nat.lt_irrefl _), le_rfl,
        ?_, ?_⟩
      · rw [finRange_drop_all, grabItems, OrderedMap.window_self, List.map_nil, List.append_nil]
      · rw [OrderedMap.window_self, List.map_nil, List.append_nil]
        exact Nat.le_of_lt wanted
  | succ left inductionHypothesis =>
      have here : position < radixTreeMapSize := by omega
      have slot := window_slot label start sound stored ⟨position, here⟩
      have advance : ((start + position) % 2 ^ 64 + 1) % 2 ^ 64 = (start + (position + 1)) % 2 ^ 64 :=
        Nat.mod_add_mod (start + position) (2 ^ 64) 1
      have join : ∀ {bound}, start + position + 1 ≤ bound →
          (OrderedMap.window ((DigitTree.node label children).entries start) (start + position)
              bound).map Prod.snd =
            (if (contentsOf children).slots ⟨position, here⟩ ≠ 0 then
                [(contentsOf children).slots ⟨position, here⟩] else []) ++
              (OrderedMap.window ((DigitTree.node label children).entries start)
                (start + position + 1) bound).map Prod.snd := by
        intro bound later
        rw [← OrderedMap.window_append ascending (Nat.le_succ (start + position)) later,
          List.map_append]
        exact congrArg (· ++ _) slot
      rw [finRange_drop here, grabItems, advance]
      by_cases filled : (contentsOf children).slots ⟨position, here⟩ ≠ 0
      · rw [if_pos filled]
        by_cases enough : (results ++ [(contentsOf children).slots ⟨position, here⟩]).length = maxItems
        · refine ⟨start + position + 1, Nat.le_succ _, fun _ => Nat.lt_succ_self _, by omega, ?_, ?_⟩
          · rw [if_pos enough, join le_rfl, if_pos filled, OrderedMap.window_self, List.map_nil,
              List.append_nil]
            rfl
          · rw [join le_rfl, if_pos filled, OrderedMap.window_self, List.map_nil, List.append_nil]
            exact Nat.le_of_eq enough
        · have wantedMore : (results ++ [(contentsOf children).slots ⟨position, here⟩]).length <
              maxItems := by
            rw [List.length_append, List.length_singleton] at enough ⊢
            omega
          obtain ⟨bound, lower, -, upper, ran, short⟩ :=
            inductionHypothesis here _ wantedMore (by omega)
          refine ⟨bound, by omega, fun _ => by omega, upper, ?_, ?_⟩
          · rw [if_neg enough, join (by omega), if_pos filled, ← List.append_assoc]
            exact ran
          · rw [join (by omega), if_pos filled, ← List.append_assoc]
            exact short
      · rw [if_neg filled]
        obtain ⟨bound, lower, -, upper, ran, short⟩ :=
          inductionHypothesis here results wanted (by omega)
        refine ⟨bound, by omega, fun _ => by omega, upper, ?_, ?_⟩
        · rw [join (by omega), if_neg filled, List.nil_append]
          exact ran
        · rw [join (by omega), if_neg filled, List.nil_append]
          exact short

theorem radixNextIndex_eq {levels index position : Nat} (aligned : radixTreeMapSize ^ levels ∣ start)
    (lower : start + position * radixTreeMapSize ^ levels ≤ index)
    (upper : index < start + (position + 1) * radixTreeMapSize ^ levels) :
    index >>> shiftOf levels <<< shiftOf levels + 1 <<< shiftOf levels =
      start + (position + 1) * radixTreeMapSize ^ levels := by
  have width : 2 ^ shiftOf levels = radixTreeMapSize ^ levels := by
    rw [shiftOf, Nat.mul_comm, Nat.pow_mul]
    rfl
  have positive : 0 < radixTreeMapSize ^ levels := Nat.pow_pos (Nat.two_pow_pos 6)
  obtain ⟨blocks, rfl⟩ := aligned
  have quotient : index / radixTreeMapSize ^ levels = blocks + position := by
    rw [Nat.div_eq_iff positive]
    constructor
    · calc (blocks + position) * radixTreeMapSize ^ levels
          = radixTreeMapSize ^ levels * blocks + position * radixTreeMapSize ^ levels := by
            rw [Nat.add_mul, Nat.mul_comm blocks]
        _ ≤ index := lower
    · have total : radixTreeMapSize ^ levels * blocks + (position + 1) * radixTreeMapSize ^ levels =
          (blocks + position) * radixTreeMapSize ^ levels + radixTreeMapSize ^ levels := by
        rw [Nat.add_one_mul, Nat.add_mul, Nat.mul_comm blocks, Nat.add_assoc]
      omega
  rw [Nat.shiftRight_eq_div_pow, Nat.shiftLeft_eq, Nat.shiftLeft_eq, width, quotient, Nat.one_mul,
    Nat.add_one_mul, Nat.add_mul, Nat.mul_comm blocks, Nat.add_assoc]

theorem skipEmpty_step (label : Nat) {levels : Nat} (low : levels < 11)
    {children : Fin radixTreeMapSize → RadixDigits levels}
    (aligned : radixTreeMapSize ^ levels ∣ start) {position index : Nat}
    (inside : position < radixTreeMapSize) (small : index < 2 ^ 64)
    (lower : start + position * radixTreeMapSize ^ levels ≤ index)
    (upper : index < start + (position + 1) * radixTreeMapSize ^ levels)
    (empty : children ⟨position, inside⟩ = .empty) {next : Nat}
    (nextEq : next = start + (position + 1) * radixTreeMapSize ^ levels) :
    next ≤ 2 ^ 64 ∧
      OrderedMap.window ((DigitTree.node label children).entries start) index next = [] ∧
      skipEmpty (contentsOf children) (shiftOf levels)
          ((List.finRange radixTreeMapSize).drop position) index =
        if next = 2 ^ 64 then (none, 2 ^ 64 % 2 ^ 64)
        else skipEmpty (contentsOf children) (shiftOf levels)
          ((List.finRange radixTreeMapSize).drop (position + 1)) next := by
  subst nextEq
  have positive : 0 < radixTreeMapSize ^ levels := Nat.pow_pos (Nat.two_pow_pos 6)
  have childAligned : radixTreeMapSize ^ levels ∣ start + position * radixTreeMapSize ^ levels :=
    Nat.dvd_add aligned (Nat.dvd_mul_left _ _)
  have fits := le_of_dvd_of_lt childAligned (width_dvd low) (Nat.lt_of_le_of_lt lower small)
  rw [Nat.add_assoc, ← Nat.add_one_mul] at fits
  have slot : (contentsOf children).slots ⟨position, inside⟩ = 0 :=
    (congrArg pointer empty).trans pointer_empty
  refine ⟨fits, ?_, ?_⟩
  · rw [DigitTree.window_child ⟨position, inside⟩ lower le_rfl, empty, DigitTree.entries_empty]
    rfl
  · rw [finRange_drop inside, skipEmpty, if_neg (not_not.mpr slot),
      radixNextIndex_eq aligned lower upper]
    by_cases wrapped : start + (position + 1) * radixTreeMapSize ^ levels = 2 ^ 64
    · rw [wrapped, if_pos rfl]
      exact if_pos (Nat.mod_self _)
    · have less := Nat.lt_of_le_of_ne fits wrapped
      rw [if_neg wrapped, Nat.mod_eq_of_lt less]
      exact if_neg (by omega)

/-- The scan of an inner node stops at the first child from the index on, or past the node or the
last index; it passes no entry. -/
theorem skipEmpty_spec (label : Nat) {levels : Nat} (low : levels < 11)
    {children : Fin radixTreeMapSize → RadixDigits levels} (sound : slab.Sound)
    (stored : ∀ d, Stored slab (children d)) (aligned : radixTreeMapSize ^ levels ∣ start)
    {position index : Nat} (inside : position < radixTreeMapSize) (small : index < 2 ^ 64)
    (lower : start + position * radixTreeMapSize ^ levels ≤ index)
    (upper : index < start + (position + 1) * radixTreeMapSize ^ levels) :
    (∃ (d : Fin radixTreeMapSize) (reached : Nat),
      skipEmpty (contentsOf children) (shiftOf levels)
          ((List.finRange radixTreeMapSize).drop position) index = (some d, reached) ∧
        (children d).isEmpty = false ∧ index ≤ reached ∧ reached < 2 ^ 64 ∧
        start + d * radixTreeMapSize ^ levels ≤ reached ∧
        reached < start + (d + 1) * radixTreeMapSize ^ levels ∧
        OrderedMap.window ((DigitTree.node label children).entries start) index reached = []) ∨
      ∃ bound,
        skipEmpty (contentsOf children) (shiftOf levels)
            ((List.finRange radixTreeMapSize).drop position) index = (none, bound % 2 ^ 64) ∧
        index < bound ∧ bound ≤ 2 ^ 64 ∧
        bound ≤ start + radixTreeMapSize * radixTreeMapSize ^ levels ∧
        OrderedMap.window ((DigitTree.node label children).entries start) index bound = [] := by
  have ascending := DigitTree.entries_ascending (.node label children : RadixDigits (levels + 1)) start
  have slot : ∀ d, (contentsOf children).slots d = 0 ↔ (children d).isEmpty = true :=
    fun d => ((stored d).isEmpty_iff sound).symm
  induction left : radixTreeMapSize - position generalizing position index with
  | zero => omega
  | succ left inductionHypothesis =>
      by_cases filled : (contentsOf children).slots ⟨position, inside⟩ = 0
      · have empty := DigitTree.isEmpty_iff.mp ((slot _).mp filled)
        obtain ⟨fits, vacant, step⟩ := skipEmpty_step label low aligned inside small lower
          upper empty rfl
        have within : start + (position + 1) * radixTreeMapSize ^ levels ≤
            start + radixTreeMapSize * radixTreeMapSize ^ levels :=
          Nat.add_le_add_left (Nat.mul_le_mul_right _ inside) start
        rw [step]
        by_cases wrapped : start + (position + 1) * radixTreeMapSize ^ levels = 2 ^ 64
        · refine .inr ⟨_, ?_, upper, fits, within, vacant⟩
          rw [if_pos wrapped, wrapped]
        · have less := Nat.lt_of_le_of_ne fits wrapped
          rw [if_neg wrapped]
          by_cases last : position + 1 = radixTreeMapSize
          · refine .inr ⟨_, ?_, upper, fits, within, vacant⟩
            have exhausted : (List.finRange radixTreeMapSize).drop (position + 1) = [] :=
              last.symm ▸ finRange_drop_all radixTreeMapSize
            rw [exhausted, skipEmpty, Nat.mod_eq_of_lt less]
          · have further : position + 1 < radixTreeMapSize := by omega
            have positive : 0 < radixTreeMapSize ^ levels := Nat.pow_pos (Nat.two_pow_pos 6)
            have beyond : start + (position + 1) * radixTreeMapSize ^ levels <
                start + (position + 1 + 1) * radixTreeMapSize ^ levels := by
              rw [Nat.add_one_mul (position + 1)]
              omega
            rcases inductionHypothesis further less le_rfl beyond (by omega) with
              ⟨d, reached, ran, present, later, bound, above, below, nothing⟩ |
              ⟨bound, ran, later, fitsBound, inNode, nothing⟩
            · refine .inl ⟨d, reached, ran, present, by omega, bound, above, below, ?_⟩
              rw [← OrderedMap.window_append ascending (Nat.le_of_lt upper) later, vacant, nothing]
              rfl
            · refine .inr ⟨bound, ran, Nat.lt_trans upper later, fitsBound, inNode, ?_⟩
              rw [← OrderedMap.window_append ascending (Nat.le_of_lt upper) (Nat.le_of_lt later),
                vacant, nothing]
              rfl
      · refine .inl ⟨⟨position, inside⟩, index, ?_, ?_, le_rfl, small, lower, upper, ?_⟩
        · rw [finRange_drop inside, skipEmpty, if_pos filled]
        · exact Bool.eq_false_iff.mpr fun empty => filled ((slot _).mpr empty)
        · exact OrderedMap.window_self index

/-- The levels of one scan: it takes the entries from the index on, up to where it ends. -/
theorem lookupLevels_spec (sound : slab.Sound) {levels maxItems : Nat} (low : levels < 11)
    (wanted : 0 < maxItems) {tree : RadixDigits (levels + 1)} (stored : Stored slab tree)
    (present : tree.isEmpty = false) (aligned : radixTreeMapSize ^ (levels + 1) ∣ start)
    {index : Nat} (small : index < 2 ^ 64) (lower : start ≤ index)
    (upper : index < start + radixTreeMapSize ^ (levels + 1)) :
    ∃ bound, index < bound ∧ bound ≤ 2 ^ 64 ∧ bound ≤ start + radixTreeMapSize ^ (levels + 1) ∧
      lookupLevels slab maxItems levels (pointer tree) index =
        some ((OrderedMap.window (tree.entries start) index bound).map Prod.snd, bound % 2 ^ 64) ∧
      ((OrderedMap.window (tree.entries start) index bound).map Prod.snd).length ≤ maxItems := by
  induction levels generalizing start index with
  | zero =>
      obtain ⟨above, below⟩ := digit_place aligned lower upper
      have inside := (digit radixTreeMapSize 0 index).isLt
      have here : start + (digit radixTreeMapSize 0 index).val = index := by
        rw [Nat.pow_zero, Nat.mul_one] at above below
        omega
      cases tree with
      | empty =>
          rw [DigitTree.isEmpty_empty] at present
          cases present
      | node label children =>
          obtain ⟨bound, -, further, upperBound, ran, short⟩ := grabItems_spec label start sound
            stored.2 (Nat.le_of_lt inside) [] wanted
          rw [here, List.nil_append] at ran short
          rw [here] at further
          have room : start + radixTreeMapSize ≤ 2 ^ 64 :=
            le_of_dvd_of_lt aligned ⟨2 ^ 58, rfl⟩ (Nat.lt_of_le_of_lt lower small)
          have offset : offsetOf index 0 = digit radixTreeMapSize 0 index := offsetOf_shiftOf index 0
          refine ⟨bound, further inside, Nat.le_trans upperBound room, upperBound, ?_, short⟩
          rw [lookupLevels, pointer_node, stored.1, Option.map_some, slotsFrom, offset]
          rw [Nat.mod_eq_of_lt small] at ran
          exact congrArg some ran
  | succ levels inductionHypothesis =>
      obtain ⟨above, below⟩ := digit_place aligned lower upper
      have inside := (digit radixTreeMapSize (levels + 1) index).isLt
      have ascending := DigitTree.entries_ascending tree start
      have narrower : radixTreeMapSize ^ (levels + 1) ∣ start :=
        Nat.dvd_trans (Nat.pow_dvd_pow _ (Nat.le_succ _)) aligned
      have width : radixTreeMapSize ^ (levels + 1 + 1) =
          radixTreeMapSize * radixTreeMapSize ^ (levels + 1) := by
        rw [Nat.pow_succ _ (levels + 1), Nat.mul_comm]
      cases tree with
      | empty =>
          rw [DigitTree.isEmpty_empty] at present
          cases present
      | node label children =>
          simp only [lookupLevels, pointer_node, stored.1, Option.bind_some, offsetOf_shiftOf,
            slotsFrom, width]
          rcases skipEmpty_spec label low sound stored.2 narrower inside small above below
            with ⟨d, reached, ran, child, later, fits, first, last, nothing⟩ |
              ⟨bound, ran, later, fits, inNode, nothing⟩
          · have childAligned : radixTreeMapSize ^ (levels + 1) ∣
                start + d * radixTreeMapSize ^ (levels + 1) :=
              Nat.dvd_add narrower (Nat.dvd_mul_left _ _)
            rw [Nat.add_one_mul, ← Nat.add_assoc] at last
            obtain ⟨bound, further, fitsBound, inChild, scanned, short⟩ :=
              inductionHypothesis (Nat.lt_of_succ_lt low) (stored.2 d) child childAligned fits first
                last
            have inNode : (d + 1) * radixTreeMapSize ^ (levels + 1) ≤
                radixTreeMapSize * radixTreeMapSize ^ (levels + 1) :=
              Nat.mul_le_mul_right _ d.isLt
            have upperChild : bound ≤ start + (d + 1) * radixTreeMapSize ^ (levels + 1) := by
              rw [Nat.add_one_mul]
              omega
            have joined : OrderedMap.window ((DigitTree.node label children).entries start) index
                bound = OrderedMap.window ((children d).entries
                  (start + d * radixTreeMapSize ^ (levels + 1))) reached bound := by
              rw [← OrderedMap.window_append ascending later (Nat.le_of_lt further), nothing,
                List.nil_append, DigitTree.window_child d first upperChild]
            refine ⟨bound, by omega, fitsBound, by omega, ?_, ?_⟩
            · rw [joined, ran]
              exact scanned
            · rw [joined]
              exact short
          · refine ⟨bound, later, fits, inNode, ?_, ?_⟩
            · rw [ran, nothing]
              rfl
            · rw [nothing]
              exact Nat.zero_le maxItems

end Scan

section GangLookup

variable {others : List Nat} {radix : RadixTree} {height index : Nat} {tree : RadixDigits height}

def Hollow (radix : RadixTree) : Prop := radix.2.rnode = 0 ∧ radix.2.height ≠ 0

instance (radix : RadixTree) : Decidable (Hollow radix) := inferInstanceAs (Decidable (_ ∧ _))

def LooksHollow (firstIndex maxItems : Nat) (radix : RadixTree) : Prop :=
  Hollow radix ∧ 0 < maxItems ∧ firstIndex < radixTreeMapSize ^ radix.2.height

instance (firstIndex maxItems : Nat) (radix : RadixTree) :
    Decidable (LooksHollow firstIndex maxItems radix) := inferInstanceAs (Decidable (_ ∧ _))

theorem hollow_iff (represents : RadixRepresents others radix tree) :
    Hollow radix ↔ tree = .empty ∧ height ≠ 0 := by
  rw [Hollow, represents.rnode, represents.level,
    represents.stored.pointer_eq_zero represents.sound]

theorem entries_lt (represents : RadixRepresents others radix tree) {entry : Nat × Nat}
    (member : entry ∈ tree.toMap.entries) :
    entry.1 < radixTreeMapSize ^ height ∧ entry.1 < 2 ^ 64 :=
  ⟨(DigitTree.mem_toMap.mp member).1, represents.bounded _ _ member⟩

theorem lookupFrom_spec (represents : RadixRepresents others radix tree) (solid : ¬ Hollow radix)
    {maxItems : Nat} (wanted : 0 < maxItems) (small : index < 2 ^ 64)
    (bound : index < radixTreeMapSize ^ height) :
    ∃ stop, index < stop ∧ stop ≤ 2 ^ 64 ∧
      lookupFrom radix index maxItems =
        some ((OrderedMap.window tree.toMap.entries index stop).map Prod.snd, stop % 2 ^ 64) ∧
      ((OrderedMap.window tree.toMap.entries index stop).map Prod.snd).length ≤ maxItems := by
  rw [hollow_iff represents] at solid
  cases height with
  | zero =>
      obtain rfl : index = 0 := Nat.lt_one_iff.mp bound
      refine ⟨2 ^ 64, Nat.two_pow_pos 64, le_rfl, ?_, ?_⟩
      · rw [lookupFrom, represents.level, represents.rnode, Nat.mod_self]
        cases tree with
        | empty => rfl
        | leaf item =>
            have nonzero : item ≠ 0 := represents.stored
            rw [pointer_leaf, if_pos ⟨nonzero, rfl⟩]
            rfl
      · cases tree with
        | empty => exact Nat.zero_le _
        | leaf item => exact wanted
  | succ levels =>
      have present : tree.isEmpty = false := by
        apply Bool.eq_false_iff.mpr
        exact fun empty => solid ⟨DigitTree.isEmpty_iff.mp empty, Nat.succ_ne_zero levels⟩
      obtain ⟨stop, later, fits, -, ran, short⟩ := lookupLevels_spec represents.sound
        (Nat.lt_of_succ_lt_succ represents.low) wanted represents.stored present
        (Nat.dvd_zero _) small (Nat.zero_le index) (by rwa [Nat.zero_add])
      refine ⟨stop, later, fits, ?_, short⟩
      rw [lookupFrom, represents.level, represents.rnode]
      exact ran

/-- The scans in a row find the first items, in fewer rounds than there are indices. -/
theorem gangLookupLoop_spec (represents : RadixRepresents others radix tree) (solid : ¬ Hollow radix)
    {firstIndex maxItems rounds curIndex : Nat} (results : List Nat)
    (enough : 2 ^ 64 < curIndex + rounds) (small : curIndex < 2 ^ 64)
    (started : firstIndex ≤ curIndex)
    (sofar : results = (OrderedMap.window tree.toMap.entries firstIndex curIndex).map Prod.snd)
    (short : results.length ≤ maxItems) :
    gangLookupLoop radix (min (radixTreeMapSize ^ height) (2 ^ 64) - 1) maxItems rounds curIndex
      results = some ((tree.toMap.firstFrom firstIndex maxItems).map Prod.snd) := by
  induction rounds generalizing curIndex results with
  | zero => omega
  | succ rounds inductionHypothesis =>
      have ascending := tree.toMap.ascending
      rw [gangLookupLoop]
      by_cases full : maxItems ≤ results.length
      · have exact_count := Nat.le_antisymm short full
        rw [if_pos (.inl full)]
        rw [sofar, List.length_map] at exact_count short
        rw [OrderedMap.firstFrom_eq_window short (.inl exact_count), sofar]
      · by_cases outgrown : min (radixTreeMapSize ^ height) (2 ^ 64) - 1 < curIndex
        · have beyond : ∀ entry ∈ tree.toMap.entries, entry.1 < curIndex := by
            intro entry member
            have limits := entries_lt represents member
            have positive : 0 < radixTreeMapSize ^ height := Nat.pow_pos (Nat.two_pow_pos 6)
            omega
          rw [if_pos (.inr outgrown)]
          rw [sofar, List.length_map] at short
          rw [OrderedMap.firstFrom_eq_window short (.inr beyond), sofar]
        · have within : curIndex < radixTreeMapSize ^ height :=
            not_not.mp fun outside => outgrown ((fits_iff small).mpr outside)
          obtain ⟨stop, later, fits, scanned, found⟩ := lookupFrom_spec represents solid
            (Nat.sub_pos_of_lt (Nat.lt_of_not_le full)) small within
          have joined : results ++ (OrderedMap.window tree.toMap.entries curIndex stop).map Prod.snd =
              (OrderedMap.window tree.toMap.entries firstIndex stop).map Prod.snd := by
            rw [sofar, ← List.map_append,
              OrderedMap.window_append ascending started (Nat.le_of_lt later)]
          have shortJoined : ((OrderedMap.window tree.toMap.entries firstIndex stop).map
              Prod.snd).length ≤ maxItems := by
            rw [← joined, List.length_append]
            omega
          rw [if_neg fun stops => stops.elim full outgrown, scanned, Option.bind_some]
          simp only [joined]
          by_cases wrapped : stop = 2 ^ 64
          · have beyond : ∀ entry ∈ tree.toMap.entries, entry.1 < stop :=
              fun entry member => wrapped ▸ (entries_lt represents member).2
            have ended : stop % 2 ^ 64 = 0 := wrapped ▸ Nat.mod_self _
            rw [List.length_map] at shortJoined
            rw [OrderedMap.firstFrom_eq_window shortJoined (.inr beyond)]
            exact if_pos ended
          · have less := Nat.lt_of_le_of_ne fits wrapped
            have goesOn : stop % 2 ^ 64 ≠ 0 := by
              rw [Nat.mod_eq_of_lt less]
              omega
            have rest := inductionHypothesis _ (by omega) less
              (Nat.le_trans started (Nat.le_of_lt later)) rfl shortJoined
            rw [← rest]
            refine (if_neg goesOn).trans ?_
            rw [Nat.mod_eq_of_lt less]

theorem lookupLevels_null {slab : RadixTreeSlab} (sound : slab.Sound)
    (levels maxItems index : Nat) : lookupLevels slab maxItems levels 0 index = none := by
  have absent := node_eq_none sound.zero_notMem
  cases levels <;> simp only [lookupLevels, absent, Option.map_none, Option.bind_none]

theorem gangLookupLoop_hollow (represents : RadixRepresents others radix tree) (hollow : Hollow radix)
    {firstIndex maxItems : Nat} (small : firstIndex < 2 ^ 64) (rounds : Nat) :
    gangLookupLoop radix (min (radixTreeMapSize ^ height) (2 ^ 64) - 1) maxItems (rounds + 1)
        firstIndex [] =
      if LooksHollow firstIndex maxItems radix then none else some [] := by
  have looks : LooksHollow firstIndex maxItems radix ↔
      ¬ (maxItems ≤ ([] : List Nat).length ∨
        min (radixTreeMapSize ^ height) (2 ^ 64) - 1 < firstIndex) := by
    rw [LooksHollow, and_iff_right hollow, represents.level, not_or, fits_iff small, not_not,
      Nat.not_le]
    rfl
  have null : lookupFrom radix firstIndex (maxItems - 0) = none := by
    obtain ⟨levels, level⟩ := Nat.exists_eq_succ_of_ne_zero hollow.2
    rw [lookupFrom, level, hollow.1]
    exact lookupLevels_null represents.sound levels _ _
  rw [gangLookupLoop]
  by_cases stops : maxItems ≤ ([] : List Nat).length ∨
      min (radixTreeMapSize ^ height) (2 ^ 64) - 1 < firstIndex
  · rw [if_pos stops, if_neg fun looking => looks.mp looking stops]
  · rw [if_neg stops, if_pos (looks.mpr stops), List.length_nil, null, Option.bind_none]

/-- A lookup of several items finds the first items from the index on, in the order of their
indices; it faults exactly when it uses the node of a root that has none. -/
theorem radixTreeGangLookup_spec (represents : RadixRepresents others radix tree)
    {firstIndex : Nat} (small : firstIndex < 2 ^ 64) (maxItems : Nat) :
    radixTreeGangLookup firstIndex maxItems radix =
      if LooksHollow firstIndex maxItems radix then none
      else some ((tree.toMap.firstFrom firstIndex maxItems).map Prod.snd) := by
  rw [radixTreeGangLookup, represents.level, radixTreeMaxindex_eq represents.low, Option.bind_some]
  by_cases hollow : Hollow radix
  · have empty := ((hollow_iff represents).mp hollow).1
    have nothing : (tree.toMap.firstFrom firstIndex maxItems).map Prod.snd = [] := by
      rw [empty, DigitTree.toMap_empty]
      exact congrArg (List.map Prod.snd) List.take_nil
    rw [nothing]
    exact gangLookupLoop_hollow represents hollow small (2 ^ 64)
  · rw [if_neg fun looks => hollow looks.1]
    apply gangLookupLoop_spec represents hollow [] (by omega) small le_rfl
    · rw [OrderedMap.window_self]
      rfl
    · exact Nat.zero_le maxItems

end GangLookup

end DmsBlkdev
