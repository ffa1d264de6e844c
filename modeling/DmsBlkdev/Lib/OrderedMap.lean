import Mathlib.Algebra.Order.BigOperators.Group.List
import Mathlib.Algebra.Order.Ring.Nat
import Mathlib.Data.List.Nodup
import Mathlib.Data.List.Pairwise
import Mathlib.Data.List.Perm.Basic
import Mathlib.Order.Lattice
import Mathlib.Order.Nat

/-!
# Finite maps in the order of their keys

A finite map is the list of its entries in ascending order of the keys.  What
an insertion and an erasure make of the entries is given up to permutation, so
that the order matters only to who asks for the first entries from a key on.
-/

namespace Lib

structure OrderedMap (Key Item : Type*) [LinearOrder Key] where
  entries : List (Key × Item)
  ascending : entries.Pairwise fun first second => first.1 < second.1

namespace OrderedMap

variable {Key Item : Type*} [LinearOrder Key]

def empty : OrderedMap Key Item := ⟨[], List.Pairwise.nil⟩

def keys (map : OrderedMap Key Item) : List Key := map.entries.map Prod.fst

def items (map : OrderedMap Key Item) : List Item := map.entries.map Prod.snd

def lookup (map : OrderedMap Key Item) (key : Key) : Option Item :=
  (map.entries.find? fun entry => entry.1 = key).map Prod.snd

def erase (map : OrderedMap Key Item) (key : Key) : OrderedMap Key Item :=
  ⟨map.entries.filter fun entry => entry.1 ≠ key, map.ascending.filter _⟩

def insert (map : OrderedMap Key Item) (key : Key) (item : Item) : OrderedMap Key Item where
  entries := map.entries.filter (fun entry => entry.1 < key) ++
    (key, item) :: map.entries.filter (fun entry => key < entry.1)
  ascending := by
    rw [List.pairwise_append, List.pairwise_cons]
    refine ⟨map.ascending.filter _, ⟨?_, map.ascending.filter _⟩, ?_⟩
    · intro entry member
      exact of_decide_eq_true (List.mem_filter.mp member).2
    · intro first below second rest
      have lower := of_decide_eq_true (List.mem_filter.mp below).2
      rcases List.mem_cons.mp rest with rfl | above
      · exact lower
      · exact lt_trans lower (of_decide_eq_true (List.mem_filter.mp above).2)

def assign (map : OrderedMap Key Item) (key : Key) : Option Item → OrderedMap Key Item
  | some item => map.insert key item
  | none => map.erase key

def firstFrom (map : OrderedMap Key Item) (start : Key) (count : Nat) : List (Key × Item) :=
  (map.entries.filter fun entry => start ≤ entry.1).take count

def total (map : OrderedMap Key Item) (weight : Item → Nat) : Nat := (map.items.map weight).sum

section Entries

variable {map : OrderedMap Key Item} {key : Key} {item : Item}

theorem keys_nodup (map : OrderedMap Key Item) : map.keys.Nodup := by
  rw [keys, List.Nodup, List.pairwise_map]
  exact map.ascending.imp fun below => ne_of_lt below

theorem entry_unique {first second : Item} (one : (key, first) ∈ map.entries)
    (other : (key, second) ∈ map.entries) : first = second := by
  have same := List.inj_on_of_nodup_map map.keys_nodup one other rfl
  exact congrArg Prod.snd same

theorem lookup_eq_some : map.lookup key = some item ↔ (key, item) ∈ map.entries := by
  constructor
  · intro found
    obtain ⟨⟨other, _⟩, located, rfl⟩ := Option.map_eq_some_iff.mp found
    obtain rfl : other = key := by simpa using List.find?_some located
    exact List.mem_of_find?_eq_some located
  · intro member
    cases located : map.entries.find? fun entry => entry.1 = key with
    | none =>
        have absent := List.find?_eq_none.mp located (key, item) member
        exact absurd (decide_eq_true rfl) absent
    | some entry =>
        obtain ⟨other, found⟩ := entry
        obtain rfl : other = key := by simpa using List.find?_some located
        rw [lookup, located, entry_unique member (List.mem_of_find?_eq_some located)]
        rfl

theorem lookup_eq_none : map.lookup key = none ↔ key ∉ map.keys := by
  rw [lookup, Option.map_eq_none_iff, List.find?_eq_none, keys, List.mem_map]
  constructor
  · rintro absent ⟨entry, member, same⟩
    exact absent entry member (decide_eq_true same)
  · rintro absent entry member same
    exact absent ⟨entry, member, of_decide_eq_true same⟩

theorem lookup_congr {other : OrderedMap Key Item}
    (same : ∀ item, (key, item) ∈ map.entries ↔ (key, item) ∈ other.entries) :
    map.lookup key = other.lookup key :=
  Option.ext fun item => lookup_eq_some.trans ((same item).trans lookup_eq_some.symm)

/-- Lists of entries in ascending order are equal if they have the same members. -/
theorem ascending_ext {first second : List (Key × Item)}
    (ascendingFirst : first.Pairwise fun one other => one.1 < other.1)
    (ascendingSecond : second.Pairwise fun one other => one.1 < other.1)
    (same : ∀ entry, entry ∈ first ↔ entry ∈ second) : first = second := by
  have nodup : ∀ {entries : List (Key × Item)},
      (entries.Pairwise fun one other => one.1 < other.1) → entries.Nodup := fun ascending =>
    ascending.imp fun below equal => ne_of_lt below (congrArg Prod.fst equal)
  have permuted := (List.perm_ext_iff_of_nodup (nodup ascendingFirst) (nodup ascendingSecond)).mpr
    same
  refine permuted.eq_of_pairwise (fun one other _ _ below above => ?_) ascendingFirst
    ascendingSecond
  exact absurd below (lt_asymm above)

theorem eq_of_mem_iff {other : OrderedMap Key Item}
    (same : ∀ key item, (key, item) ∈ map.entries ↔ (key, item) ∈ other.entries) : map = other := by
  have entries := ascending_ext map.ascending other.ascending fun entry => same entry.1 entry.2
  cases map
  cases other
  cases entries
  rfl

theorem mem_erase {entry : Key × Item} :
    entry ∈ (map.erase key).entries ↔ entry ∈ map.entries ∧ entry.1 ≠ key := by
  simp [erase]

theorem mem_insert {entry : Key × Item} :
    entry ∈ (map.insert key item).entries ↔
      entry = (key, item) ∨ entry ∈ map.entries ∧ entry.1 ≠ key := by
  simp only [insert, List.mem_append, List.mem_cons, List.mem_filter, decide_eq_true_eq]
  constructor
  · rintro (⟨member, below⟩ | rfl | ⟨member, above⟩)
    · exact .inr ⟨member, ne_of_lt below⟩
    · exact .inl rfl
    · exact .inr ⟨member, ne_of_gt above⟩
  · rintro (rfl | ⟨member, other⟩)
    · exact .inr (.inl rfl)
    · rcases lt_or_gt_of_ne other with below | above
      · exact .inl ⟨member, below⟩
      · exact .inr (.inr ⟨member, above⟩)

theorem mem_insert_of_absent {entry : Key × Item} (absent : map.lookup key = none)
    (member : entry ∈ map.entries) : entry ∈ (map.insert key item).entries := by
  refine mem_insert.mpr (.inr ⟨member, ?_⟩)
  rintro rfl
  exact lookup_eq_none.mp absent (List.mem_map_of_mem member)

theorem mem_assign {assigned : Option Item} {entry : Key × Item} :
    entry ∈ (map.assign key assigned).entries ↔
      (∃ item, assigned = some item ∧ entry = (key, item)) ∨
        entry ∈ map.entries ∧ entry.1 ≠ key := by
  cases assigned with
  | none => simp [assign, mem_erase]
  | some item => simp [assign, mem_insert]

theorem lookup_assign (assigned : Option Item) : (map.assign key assigned).lookup key = assigned := by
  cases assigned with
  | none =>
      rw [lookup_eq_none, keys, List.mem_map]
      rintro ⟨entry, member, rfl⟩
      exact (mem_erase.mp member).2 rfl
  | some item => exact lookup_eq_some.mpr (mem_insert.mpr (.inl rfl))

theorem lookup_insert (map : OrderedMap Key Item) (key : Key) (item : Item) (other : Key) :
    (map.insert key item).lookup other = if other = key then some item else map.lookup other := by
  split_ifs with same
  · exact lookup_eq_some.mpr (mem_insert.mpr (.inl (same ▸ rfl)))
  · refine lookup_congr fun found => mem_insert.trans ?_
    have different : (other, found) ≠ (key, item) := fun equal => same (Prod.mk.inj equal).1
    rw [or_iff_right different, and_iff_left same]

theorem erase_perm (present : (key, item) ∈ map.entries) :
    map.entries.Perm ((key, item) :: (map.erase key).entries) := by
  have nodup : map.entries.Nodup := List.Nodup.of_map Prod.fst map.keys_nodup
  refine (List.perm_ext_iff_of_nodup nodup ?_).mpr fun entry => ?_
  · rw [List.nodup_cons, mem_erase]
    exact ⟨fun twice => twice.2 rfl, nodup.filter _⟩
  · rw [List.mem_cons, mem_erase]
    constructor
    · intro member
      by_cases same : entry.1 = key
      · subst same
        exact .inl (Prod.ext rfl (entry_unique member present))
      · exact .inr ⟨member, same⟩
    · rintro (rfl | ⟨member, -⟩)
      · exact present
      · exact member

theorem erase_of_absent (absent : key ∉ map.keys) : map.erase key = map := by
  obtain ⟨entries, ascending⟩ := map
  simp only [erase, OrderedMap.mk.injEq, List.filter_eq_self]
  intro entry member
  apply decide_eq_true
  rintro rfl
  exact absent (List.mem_map_of_mem member)

theorem insert_perm : (map.insert key item).entries.Perm ((key, item) :: (map.erase key).entries) := by
  have nodup : map.entries.Nodup := List.Nodup.of_map Prod.fst map.keys_nodup
  refine (List.perm_ext_iff_of_nodup ?_ ?_).mpr fun entry => ?_
  · exact List.Nodup.of_map Prod.fst (map.insert key item).keys_nodup
  · rw [List.nodup_cons, mem_erase]
    exact ⟨fun twice => twice.2 rfl, nodup.filter _⟩
  · rw [mem_insert, List.mem_cons, mem_erase]

theorem items_erase_perm (present : (key, item) ∈ map.entries) :
    map.items.Perm (item :: (map.erase key).items) := (erase_perm present).map Prod.snd

theorem items_insert_perm :
    (map.insert key item).items.Perm (item :: (map.erase key).items) := insert_perm.map Prod.snd

theorem total_of_mem (present : (key, item) ∈ map.entries) (weight : Item → Nat) :
    map.total weight = weight item + (map.erase key).total weight := by
  rw [total, ((items_erase_perm present).map weight).sum_eq, List.map_cons, List.sum_cons, total]

theorem total_insert (weight : Item → Nat) :
    (map.insert key item).total weight = weight item + (map.erase key).total weight := by
  rw [total, (items_insert_perm.map weight).sum_eq, List.map_cons, List.sum_cons, total]

theorem total_assign (assigned : Option Item) (weight : Item → Nat) :
    (map.assign key assigned).total weight =
      (assigned.map weight).getD 0 + (map.erase key).total weight := by
  cases assigned with
  | none => exact (Nat.zero_add _).symm
  | some item => exact total_insert weight

theorem total_eq_zero {weight : Item → Nat} :
    map.total weight = 0 ↔ ∀ entry ∈ map.entries, weight entry.2 = 0 := by
  rw [total, List.sum_eq_zero_iff, items, List.map_map, List.forall_mem_map]
  rfl

theorem firstFrom_ascending (start : Key) (count : Nat) :
    (map.firstFrom start count).Pairwise fun first second => first.1 < second.1 :=
  (map.ascending.filter _).take

theorem mem_firstFrom {start : Key} {count : Nat} {entry : Key × Item}
    (member : entry ∈ map.firstFrom start count) : entry ∈ map.entries ∧ start ≤ entry.1 := by
  have passed := List.mem_filter.mp (List.mem_of_mem_take member)
  exact ⟨passed.1, of_decide_eq_true passed.2⟩

theorem firstFrom_sublist (map : OrderedMap Key Item) (start : Key) (count : Nat) :
    (map.firstFrom start count).Sublist map.entries :=
  (List.take_sublist _ _).trans List.filter_sublist

theorem firstFrom_items_nodup (map : OrderedMap Key Item) (start : Key) (count : Nat)
    (nodup : map.items.Nodup) : ((map.firstFrom start count).map Prod.snd).Nodup :=
  ((map.firstFrom_sublist start count).map Prod.snd).nodup nodup

end Entries

section Windows

def window (entries : List (Key × Item)) (lower upper : Key) : List (Key × Item) :=
  entries.filter fun entry => lower ≤ entry.1 ∧ entry.1 < upper

variable {entries : List (Key × Item)} {lower middle upper : Key}

theorem mem_window {entry : Key × Item} :
    entry ∈ window entries lower upper ↔
      entry ∈ entries ∧ lower ≤ entry.1 ∧ entry.1 < upper := by
  rw [window, List.mem_filter, decide_eq_true_eq]

theorem window_ascending (ascending : entries.Pairwise fun first second => first.1 < second.1)
    (lower upper : Key) :
    (window entries lower upper).Pairwise fun first second => first.1 < second.1 :=
  ascending.filter _

theorem window_append (ascending : entries.Pairwise fun first second => first.1 < second.1)
    (start : lower ≤ middle) (stop : middle ≤ upper) :
    window entries lower middle ++ window entries middle upper = window entries lower upper := by
  apply ascending_ext
  · refine List.pairwise_append.mpr ⟨window_ascending ascending .., window_ascending ascending ..,
      fun first inFirst second inSecond => ?_⟩
    exact lt_of_lt_of_le (mem_window.mp inFirst).2.2 (mem_window.mp inSecond).2.1
  · exact window_ascending ascending ..
  · intro entry
    rw [List.mem_append, mem_window, mem_window, mem_window]
    constructor
    · rintro (⟨member, above, below⟩ | ⟨member, above, below⟩)
      · exact ⟨member, above, lt_of_lt_of_le below stop⟩
      · exact ⟨member, le_trans start above, below⟩
    · rintro ⟨member, above, below⟩
      rcases lt_or_ge entry.1 middle with left | right
      · exact .inl ⟨member, above, left⟩
      · exact .inr ⟨member, right, below⟩

theorem window_self (key : Key) : window entries key key = [] := by
  apply List.filter_eq_nil_iff.mpr
  intro entry _
  rw [decide_eq_true_eq]
  rintro ⟨above, below⟩
  exact absurd below (not_lt_of_ge above)

/-- A window that has as many entries as are asked for, or that no entry is beyond, holds the first
entries from its start on. -/
theorem firstFrom_eq_window {map : OrderedMap Key Item} {start bound : Key} {count : Nat}
    (short : (window map.entries start bound).length ≤ count)
    (whole : (window map.entries start bound).length = count ∨
      ∀ entry ∈ map.entries, entry.1 < bound) :
    map.firstFrom start count = window map.entries start bound := by
  rcases whole with full | beyond
  · have split : (map.entries.filter fun entry => start ≤ entry.1) =
        window map.entries start bound ++
          map.entries.filter fun entry => start ≤ entry.1 ∧ bound ≤ entry.1 := by
      apply ascending_ext (map.ascending.filter _)
      · refine List.pairwise_append.mpr ⟨window_ascending map.ascending .., map.ascending.filter _,
          fun first inFirst second inSecond => ?_⟩
        have above := of_decide_eq_true (List.mem_filter.mp inSecond).2
        exact lt_of_lt_of_le (mem_window.mp inFirst).2.2 above.2
      · intro entry
        rw [List.mem_append, mem_window, List.mem_filter, List.mem_filter, decide_eq_true_eq,
          decide_eq_true_eq]
        constructor
        · rintro ⟨member, above⟩
          rcases lt_or_ge entry.1 bound with left | right
          · exact .inl ⟨member, above, left⟩
          · exact .inr ⟨member, above, right⟩
        · rintro (⟨member, above, -⟩ | ⟨member, above, -⟩) <;> exact ⟨member, above⟩
    rw [firstFrom, split, List.take_left' full]
  · have all : (map.entries.filter fun entry => start ≤ entry.1) =
        window map.entries start bound := by
      apply List.filter_congr
      intro entry member
      simp [beyond entry member]
    rw [firstFrom, all, List.take_of_length_le short]

end Windows

section MapItems

variable {Other : Type*} (f : Item → Other) (map : OrderedMap Key Item) (key : Key)

def mapItems : OrderedMap Key Other where
  entries := map.entries.map fun entry => (entry.1, f entry.2)
  ascending := map.ascending.map _ fun _ _ below => below

@[simp] theorem mapItems_empty : (empty : OrderedMap Key Item).mapItems f = .empty := rfl

theorem lookup_mapItems : (map.mapItems f).lookup key = (map.lookup key).map f := by
  rw [lookup, mapItems, List.find?_map, lookup, Option.map_map, Option.map_map]
  rfl

theorem erase_mapItems : (map.mapItems f).erase key = (map.erase key).mapItems f := by
  rw [erase, erase, mapItems, mapItems, OrderedMap.mk.injEq, List.filter_map]
  rfl

theorem insert_mapItems (item : Item) :
    (map.mapItems f).insert key (f item) = (map.insert key item).mapItems f := by
  rw [insert, insert, mapItems, mapItems, OrderedMap.mk.injEq, List.map_append, List.filter_map,
    List.filter_map]
  rfl

theorem firstFrom_mapItems (start : Key) (count : Nat) :
    ((map.mapItems f).firstFrom start count).map Prod.snd =
      ((map.firstFrom start count).map Prod.snd).map f := by
  rw [firstFrom, firstFrom, mapItems, List.filter_map, List.map_take, List.map_take, List.map_take,
    List.map_map, List.map_map]
  rfl

end MapItems

section Positions

variable {Item : Type*}

/-- Ascending keys from `start` on run ahead of their positions. -/
theorem add_position_le {entries : List (Nat × Item)} {start : Nat}
    (ascending : entries.Pairwise fun first second => first.1 < second.1)
    (lower : ∀ entry ∈ entries, start ≤ entry.1) {position : Nat} {entry : Nat × Item}
    (here : entries[position]? = some entry) : start + position ≤ entry.1 := by
  induction entries generalizing start position with
  | nil => cases here
  | cons first rest inductionHypothesis =>
      obtain ⟨below, ascendingRest⟩ := List.pairwise_cons.mp ascending
      have base := lower first List.mem_cons_self
      cases position with
      | zero =>
          obtain rfl : first = entry := by simpa using here
          exact base
      | succ position =>
          have next : ∀ other ∈ rest, start + 1 ≤ other.1 :=
            fun other member => Nat.lt_of_le_of_lt base (below other member)
          have later := inductionHypothesis ascendingRest next (by simpa using here)
          omega

theorem firstFrom_position_le {map : OrderedMap Nat Item} {start count position : Nat}
    {entry : Nat × Item} (here : (map.firstFrom start count)[position]? = some entry) :
    start + position ≤ entry.1 :=
  add_position_le (firstFrom_ascending start count) (fun _ member => (mem_firstFrom member).2) here

end Positions

end OrderedMap

end Lib
