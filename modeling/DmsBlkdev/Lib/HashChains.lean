import Mathlib.Data.List.Nodup
import Mathlib.Logic.Function.Basic

/-!
# Hash chains

A table that keeps its items in one chain for each bucket, with the item added
last in front, finds, replaces and removes the items that a single list does.
-/

namespace Lib.HashChains

variable {Key Item Bucket : Type*} [DecidableEq Key]

def firstMatch (key : Item → Key) (wanted : Key) (items : List Item) : Option (Nat × Item) :=
  (items.findIdx? fun item => key item = wanted).bind fun place =>
    items[place]?.map fun item => (place, item)

section First

variable (key : Item → Key) {wanted : Key}

theorem firstMatch_absent {items : List Item} (absent : ∀ item ∈ items, key item ≠ wanted) :
    firstMatch key wanted items = none := by
  have nowhere : (items.findIdx? fun item => key item = wanted) = none :=
    List.findIdx?_eq_none_iff.mpr fun item member => decide_eq_false (absent item member)
  rw [firstMatch, nowhere, Option.bind_none]

theorem firstMatch_split {before after : List Item} {item : Item}
    (absent : ∀ other ∈ before, key other ≠ wanted) (here : key item = wanted) :
    firstMatch key wanted (before ++ item :: after) = some (before.length, item) := by
  have nowhere : (before.findIdx? fun other => key other = wanted) = none :=
    List.findIdx?_eq_none_iff.mpr fun other member => decide_eq_false (absent other member)
  have place : ((before ++ item :: after).findIdx? fun other => key other = wanted) =
      some before.length := by
    rw [List.findIdx?_append, nowhere, List.findIdx?_cons, if_pos (decide_eq_true here)]
    exact congrArg some (Nat.zero_add _)
  rw [firstMatch, place, Option.bind_some, List.getElem?_append_right (Nat.le_refl _), Nat.sub_self]
  rfl

theorem exists_first (wanted : Key) (items : List Item) :
    (∀ item ∈ items, key item ≠ wanted) ∨ ∃ before item after,
      items = before ++ item :: after ∧ (∀ other ∈ before, key other ≠ wanted) ∧
        key item = wanted := by
  induction items with
  | nil => exact .inl fun _ member => absurd member List.not_mem_nil
  | cons first rest inductionHypothesis =>
      by_cases here : key first = wanted
      · exact .inr ⟨[], first, rest, rfl, fun _ member => absurd member List.not_mem_nil, here⟩
      · rcases inductionHypothesis with absent | ⟨before, item, after, rfl, absent, found⟩
        · exact .inl (List.forall_mem_cons.mpr ⟨here, absent⟩)
        · exact .inr ⟨first :: before, item, after, rfl, List.forall_mem_cons.mpr ⟨here, absent⟩,
            found⟩

end First

section Chains

variable [DecidableEq Bucket] {hash : Key → Bucket} {key : Item → Key}

/-- Each chain holds the items of its bucket, in the order of the list. -/
def Chained (hash : Key → Bucket) (key : Item → Key) (table : Bucket → List Item)
    (items : List Item) : Prop :=
  ∀ bucket, table bucket = items.filter fun item => hash (key item) = bucket

variable {table : Bucket → List Item} {items : List Item}

omit [DecidableEq Key] in
theorem chained_nil : Chained hash key (fun _ => []) [] := fun _ => rfl

omit [DecidableEq Key] in
theorem Chained.add (chained : Chained hash key table items) (item : Item) :
    Chained hash key (Function.update table (hash (key item)) (item :: table (hash (key item))))
      (item :: items) := by
  intro bucket
  by_cases own : bucket = hash (key item)
  · subst own
    rw [Function.update_self, List.filter_cons_of_pos, chained]
    exact decide_eq_true rfl
  · rw [Function.update_of_ne own, List.filter_cons_of_neg, chained]
    rw [decide_eq_true_iff]
    exact Ne.symm own

variable {wanted : Key}

theorem Chained.absent (chained : Chained hash key table items)
    (absent : ∀ item ∈ items, key item ≠ wanted) :
    firstMatch key wanted (table (hash wanted)) = none := by
  apply firstMatch_absent key
  intro item member
  rw [chained] at member
  exact absent item (List.mem_of_mem_filter member)

omit [DecidableEq Key] in
theorem chained_update {before replaced after : List Item} (between : List Item)
    (chained : Chained hash key table (before ++ replaced ++ after))
    (own : ∀ item ∈ replaced, key item = wanted) (same : ∀ item ∈ between, key item = wanted) :
    Chained hash key (Function.update table (hash wanted)
      ((before.filter fun item => hash (key item) = hash wanted) ++ between ++
        after.filter fun item => hash (key item) = hash wanted)) (before ++ between ++ after) := by
  intro bucket
  have all : ∀ part : List Item, (∀ item ∈ part, key item = wanted) →
      (part.filter fun item => hash (key item) = hash wanted) = part := fun part every =>
    List.filter_eq_self.mpr fun item member => decide_eq_true (congrArg hash (every item member))
  by_cases here : bucket = hash wanted
  · subst here
    rw [Function.update_self, List.filter_append, List.filter_append, all between same]
  · have none : ∀ part : List Item, (∀ item ∈ part, key item = wanted) →
        (part.filter fun item => hash (key item) = bucket) = [] := fun part every =>
      List.filter_eq_nil_iff.mpr fun item member => by
        rw [decide_eq_true_iff, every item member]
        exact Ne.symm here
    rw [Function.update_of_ne here, chained, List.filter_append, List.filter_append,
      List.filter_append, List.filter_append, none replaced own, none between same]

/-- The first item of the list with a key is the first of its chain.  When it is replaced there, or
removed, so it is in the list. -/
theorem Chained.first {before after : List Item} {item : Item}
    (chained : Chained hash key table (before ++ item :: after))
    (absent : ∀ other ∈ before, key other ≠ wanted) (here : key item = wanted) :
    ∃ place, firstMatch key wanted (table (hash wanted)) = some (place, item) ∧
      (∀ other, key other = wanted → Chained hash key
        (Function.update table (hash wanted) ((table (hash wanted)).set place other))
        (before ++ other :: after)) ∧
      Chained hash key (Function.update table (hash wanted) ((table (hash wanted)).eraseIdx place))
        (before ++ after) := by
  have chain : table (hash wanted) =
      (before.filter fun other => hash (key other) = hash wanted) ++
        item :: after.filter fun other => hash (key other) = hash wanted := by
    rw [chained, List.filter_append, List.filter_cons_of_pos]
    exact decide_eq_true (congrArg hash here)
  have own : ∀ other ∈ [item], key other = wanted := fun other member =>
    List.mem_singleton.mp member ▸ here
  have split : before ++ item :: after = before ++ [item] ++ after := by
    rw [List.append_assoc, List.singleton_append]
  rw [split] at chained
  refine ⟨(before.filter fun other => hash (key other) = hash wanted).length, ?_,
    fun other same => ?_, ?_⟩
  · rw [chain]
    exact firstMatch_split key (fun other member => absent other (List.mem_of_mem_filter member)) here
  · have replaced := chained_update [other] chained own fun one member =>
      List.mem_singleton.mp member ▸ same
    rw [List.append_assoc, List.append_assoc, List.singleton_append, List.singleton_append]
      at replaced
    rw [chain, List.set_append_right _ _ (Nat.le_refl _), Nat.sub_self]
    exact replaced
  · have removed := chained_update [] chained own fun one member =>
      absurd member List.not_mem_nil
    rw [List.append_nil, List.append_nil] at removed
    rw [chain, List.eraseIdx_append_of_length_le (Nat.le_refl _), Nat.sub_self]
    exact removed

omit [DecidableEq Key] in
theorem Chained.flatMap_perm (chained : Chained hash key table items) {buckets : List Bucket}
    (nodup : buckets.Nodup) :
    (buckets.flatMap table).Perm (items.filter fun item => hash (key item) ∈ buckets) := by
  induction buckets with
  | nil =>
      rw [List.filter_eq_nil_iff.mpr]
      · exact List.Perm.refl _
      · simp
  | cons bucket rest inductionHypothesis =>
      obtain ⟨fresh, nodupRest⟩ := List.nodup_cons.mp nodup
      have split := List.filter_append_perm (fun item => hash (key item) = bucket)
        (items.filter fun item => hash (key item) ∈ bucket :: rest)
      have own : (items.filter fun item => hash (key item) ∈ bucket :: rest).filter
          (fun item => hash (key item) = bucket) = table bucket := by
        rw [List.filter_filter, chained]
        apply List.filter_congr
        intro item member
        by_cases here : hash (key item) = bucket <;> simp [here]
      have others : (items.filter fun item => hash (key item) ∈ bucket :: rest).filter
          (fun item => ! decide (hash (key item) = bucket)) =
            items.filter fun item => hash (key item) ∈ rest := by
        rw [List.filter_filter]
        apply List.filter_congr
        intro item member
        by_cases here : hash (key item) = bucket <;> simp [here, fresh]
      rw [own, others] at split
      rw [List.flatMap_cons]
      exact ((inductionHypothesis nodupRest).append_left _).trans split

omit [DecidableEq Key] in
/-- All chains together hold the items of the list. -/
theorem Chained.perm (chained : Chained hash key table items) {buckets : List Bucket}
    (nodup : buckets.Nodup) (complete : ∀ bucket, bucket ∈ buckets) :
    (buckets.flatMap table).Perm items := by
  have all : (items.filter fun item => hash (key item) ∈ buckets) = items :=
    List.filter_eq_self.mpr fun item _ => decide_eq_true (complete _)
  exact all ▸ chained.flatMap_perm nodup

end Chains

end Lib.HashChains
