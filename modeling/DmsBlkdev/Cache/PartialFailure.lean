import DmsBlkdev.Cache.Representation

/-!
# An update that fails half way

An update stops at the first item that gets no leaf or no node of the tree.
The code it returns is then that of the insertion that failed; but an item
without a leaf has no insertion, and the code is the one that the variable
has from the item before.
-/

namespace DmsBlkdev

open Lib Lib.Run Leaves

variable {Data : Type} {start rounds i base : Nat} {items : UpdateItems Data}

def UpdateItems.granted (items : UpdateItems Data) (i : Nat) : Bool :=
  items.leafGranted i && items.nodeGranted i

/-- The key of the item leads to a leaf that is no older than `base` and holds the item. -/
def Inserted (start : Nat) (items : UpdateItems Data) (base : Nat) (after : VolumeCache Data)
    (i : Nat) : Prop :=
  ∃ addr leaf, after.2.tree.lookup (blockKey start i) = some addr ∧ base ≤ addr ∧
    after.1.leaf addr = some leaf ∧ leaf.blkid = blockKey start i ∧ leaf.data = items.basket i

/-- What `cache_update` should tell: 0 when all items are inserted, and an error otherwise, with the
items before the failing one inserted. -/
structure ReportsFailure (start count : Nat) (items : UpdateItems Data) (before : VolumeCache Data)
    (result : Int × VolumeCache Data) : Prop where
  zero : result.1 = 0 ↔ ∀ i < count, Inserted start items before.1.next result.2 i
  negative : result.1 ≠ 0 → result.1 < 0
  inserted : ∀ i < count,
    (Inserted start items before.1.next result.2 i ↔ ∀ j ≤ i, items.granted j = true)

/-- The insertions have got through the items before `done`, and the code is that of the place. -/
structure Stopped (start rounds i : Nat) (items : UpdateItems Data) (ret : Int)
    (before : VolumeCache Data) (result : Int × VolumeCache Data) (done : Nat) : Prop where
  within : done ≤ rounds
  granted : ∀ j < done, items.granted (i + j) = true
  refused : done < rounds → items.granted (i + done) = false
  code : result.1 = if done = rounds then 0 else if items.leafGranted (i + done) then noMemory
    else if done = 0 then ret else 0
  inserted : ∀ j < done, Inserted start items before.1.next result.2 (i + j)
  others : ∀ key, (∀ j < done, key ≠ blockKey start (i + j)) →
    result.2.2.tree.lookup key = before.2.tree.lookup key

theorem blockKey_injective {first second : Nat} (one : first < 2 ^ 32) (other : second < 2 ^ 32)
    (same : blockKey start first = blockKey start second) : first = second := by
  simp only [blockKey] at same
  omega

theorem insertLeaf_data {leaves : Leaves Data} {v : Volume} {key : Nat} {data : Data}
    {after : VolumeCache Data} (inserted : insertLeaf key data (leaves, v) = some after)
    {leaf : TreeLeaf Data} (found : after.1.leaf leaves.next = some leaf) : leaf.data = data := by
  have kept : Keeps (leaves.alloc ⟨data, key, 0⟩) after.1 := by
    simp only [insertLeaf] at inserted
    split at inserted
    · obtain rfl := Option.some.inj inserted
      exact Keeps.refl _
    · obtain ⟨leaves', retired, rfl⟩ := Option.map_eq_some_iff.mp inserted
      exact retire_keeps retired
  obtain ⟨own, here, -, same⟩ := kept.leaf leaves.next leaf found (Nat.lt_succ_self _)
  rw [alloc_leaf_self] at here
  obtain rfl := Option.some.inj here
  exact same

section Loop

variable {others outstanding : List Nat} {cache : VolumeCache Data}

/-- One insertion: the item is there, the entries under other keys are those of before. -/
theorem insertLeaf_inserted (sound : Sound others outstanding cache) (i : Nat) :
    ∃ between, insertLeaf (blockKey start i) (items.basket i) cache = some between ∧
      Sound others outstanding between ∧ Keeps cache.1 between.1 ∧
      Inserted start items cache.1.next between i ∧
      ∀ key, key ≠ blockKey start i → between.2.tree.lookup key = cache.2.tree.lookup key := by
  obtain ⟨leaves, v⟩ := cache
  obtain ⟨between, inserted, soundBetween, steady, entries⟩ :=
    insertLeaf_sound sound (blockKey start i) (items.basket i)
  have entry : (blockKey start i, leaves.next) ∈ between.2.tree.entries :=
    entries.mem_iff.mpr List.mem_cons_self
  have linked : leaves.next ∈ between.2.tree.items := List.mem_map_of_mem entry
  obtain ⟨leaf, found⟩ :=
    soundBetween.accounted.leaf_of_linked (List.mem_append_left others linked)
  refine ⟨between, inserted, soundBetween, steady.keeps, ?_, ?_⟩
  · exact ⟨leaves.next, leaf, OrderedMap.lookup_eq_some.mpr entry, Nat.le_refl _, found,
      soundBetween.consistent.keyed _ entry leaf found, insertLeaf_data inserted found⟩
  · intro key other
    apply OrderedMap.lookup_congr
    intro addr
    rw [entries.mem_iff, List.mem_cons, OrderedMap.mem_erase]
    constructor
    · rintro (same | ⟨member, -⟩)
      · exact absurd (congrArg Prod.fst same) other
      · exact member
    · exact fun member => .inr ⟨member, other⟩

theorem Inserted.kept {before after : VolumeCache Data}
    (inserted : Inserted start items base before i)
    (sound : Sound others outstanding before) (soundAfter : Sound others outstanding after)
    (keeps : Keeps before.1 after.1)
    (same : after.2.tree.lookup (blockKey start i) = before.2.tree.lookup (blockKey start i)) :
    Inserted start items base after i := by
  obtain ⟨addr, leaf, located, fresh, found, key, data⟩ := inserted
  have linked (cache : VolumeCache Data)
      (there : cache.2.tree.lookup (blockKey start i) = some addr) : addr ∈ cache.2.tree.items :=
    List.mem_map_of_mem (OrderedMap.lookup_eq_some.mp there)
  have located' := same.trans located
  obtain ⟨leaf', found'⟩ := soundAfter.accounted.leaf_of_linked
    (List.mem_append_left others (linked after located'))
  obtain ⟨own, here, key', data'⟩ :=
    keeps.leaf addr leaf' found' (sound.lt_next (linked before located))
  obtain rfl := Option.some.inj (here.symm.trans found)
  exact ⟨addr, leaf', located', fresh, found', key'.trans key, data'.trans data⟩

theorem Inserted.older {after : VolumeCache Data} {older : Nat} (earlier : older ≤ base)
    (inserted : Inserted start items base after i) : Inserted start items older after i := by
  obtain ⟨addr, leaf, located, fresh, rest⟩ := inserted
  exact ⟨addr, leaf, located, Nat.le_trans earlier fresh, rest⟩

theorem Stopped.next {between : VolumeCache Data} {result : Int × VolumeCache Data} {done : Nat}
    {ret : Int} (stopped : Stopped start rounds (i + 1) items 0 between result done)
    (granted : items.granted i = true) (earlier : cache.1.next ≤ between.1.next)
    (first : Inserted start items cache.1.next result.2 i)
    (same : ∀ key, key ≠ blockKey start i →
      between.2.tree.lookup key = cache.2.tree.lookup key) :
    Stopped start (rounds + 1) i items ret cache result (done + 1) := by
  have place (j : Nat) : i + (j + 1) = i + 1 + j := by omega
  refine ⟨Nat.succ_le_succ stopped.within, ?_, ?_, ?_, ?_, ?_⟩
  · intro j early
    cases j with
    | zero => exact granted
    | succ j =>
        rw [place]
        exact stopped.granted j (Nat.lt_of_succ_lt_succ early)
  · intro early
    rw [place]
    exact stopped.refused (Nat.lt_of_succ_lt_succ early)
  · rw [place, stopped.code]
    simp
  · intro j early
    cases j with
    | zero => exact first
    | succ j =>
        rw [place]
        exact (stopped.inserted j (Nat.lt_of_succ_lt_succ early)).older earlier
  · intro key apart
    rw [stopped.others key fun j early => place j ▸ apart (j + 1) (Nat.succ_lt_succ early)]
    exact same key (apart 0 (Nat.succ_pos done))

theorem updateLoop_stopped (sound : Sound others outstanding cache) (bounded : i + rounds ≤ 2 ^ 32)
    (ret : Int) :
    ∃ result done, updateLoop start items rounds i ret cache = some result ∧
      Sound others outstanding result.2 ∧ Keeps cache.1 result.2.1 ∧
      Stopped start rounds i items ret cache result done := by
  induction rounds generalizing i ret cache with
  | zero =>
      refine ⟨(0, cache), 0, rfl, sound, Keeps.refl _, ⟨Nat.le_refl _, ?_, ?_, ?_, ?_, ?_⟩⟩
      all_goals simp
  | succ rounds inductionHypothesis =>
      rw [updateLoop]
      by_cases leaf : items.leafGranted i = false
      · rw [if_pos leaf]
        refine ⟨(ret, cache), 0, rfl, sound, Keeps.refl _, ⟨Nat.zero_le _, ?_, ?_, ?_, ?_, ?_⟩⟩
        all_goals simp [UpdateItems.granted, leaf]
      rw [if_neg leaf]
      by_cases node : items.nodeGranted i = false
      · rw [if_pos node]
        refine ⟨(noMemory, cache), 0, rfl, sound, Keeps.refl _,
          ⟨Nat.zero_le _, ?_, ?_, ?_, ?_, ?_⟩⟩
        all_goals simp [UpdateItems.granted, leaf, node]
      rw [if_neg node]
      obtain ⟨between, inserted, soundBetween, keeps, first, same⟩ :=
        @insertLeaf_inserted _ start items _ _ _ sound i
      obtain ⟨result, done, looped, soundRest, keepsRest, stopped⟩ :=
        inductionHypothesis (i := i + 1) soundBetween (by omega) 0
      refine ⟨result, done + 1, ?_, soundRest, keeps.trans keepsRest, ?_⟩
      · rw [inserted]
        exact looped
      · have granted : items.granted i = true := by
          simpa [UpdateItems.granted] using And.intro leaf node
        have kept : Inserted start items cache.1.next result.2 i := by
          refine first.kept soundBetween soundRest keepsRest (stopped.others _ ?_)
          intro j early same
          have within := stopped.within
          have := blockKey_injective (by omega) (by omega) same
          omega
        exact stopped.next granted keeps.next kept same

theorem kickLoop_next {count total nr : BitVec 32} {condition : Option (Data → Bool)}
    {walk : List Nat} {after : VolumeCache Data}
    (kicked : kickLoop count total condition walk nr cache = some after) :
    after.1.next = cache.1.next := by
  induction walk generalizing nr cache with
  | nil =>
      obtain rfl := Option.some.inj kicked
      rfl
  | cons addr rest inductionHypothesis =>
      obtain ⟨leaves, v⟩ := cache
      rw [kickLoop] at kicked
      obtain ⟨leaf, -, kicked⟩ := Option.bind_eq_some_iff.mp kicked
      split at kicked
      · exact inductionHypothesis kicked
      · obtain ⟨leaves', retired, kicked⟩ := Option.bind_eq_some_iff.mp kicked
        have same := retire_next retired
        split at kicked
        · split at kicked
          · obtain rfl := Option.some.inj kicked
            exact same
          · exact (inductionHypothesis kicked).trans same
        · exact (inductionHypothesis kicked).trans same

theorem cacheUpdate_stopped (sound : Sound others outstanding cache) (count : BitVec 32) :
    ∃ between result done, cacheUpdate start count items cache = some result ∧
      Sound others outstanding between ∧ between.1.next = cache.1.next ∧
      Stopped start count.toInt.toNat 0 items noMemory between result done := by
  have kicked : ∃ between, (if 0 < (surplus cache.2 count).toInt then
      kickMetaCache (surplus cache.2 count) none cache else some cache) = some between ∧
      Sound others outstanding between ∧ between.1.next = cache.1.next := by
    split
    · obtain ⟨between, kick, after, -, -⟩ :=
        kickMetaCache_sound (surplus cache.2 count) none sound
      exact ⟨between, kick, after, kickLoop_next kick⟩
    · exact ⟨cache, rfl, sound, rfl⟩
  obtain ⟨between, kick, soundBetween, same⟩ := kicked
  have small : count.toInt < 2 ^ 31 := BitVec.toInt_lt
  obtain ⟨result, done, looped, -, -, stopped⟩ :=
    @updateLoop_stopped _ start count.toInt.toNat 0 items _ _ _ soundBetween (by omega) noMemory
  refine ⟨between, result, done, ?_, soundBetween, same, stopped⟩
  simp only [cacheUpdate, kick, Option.bind_some]
  exact looped

end Loop

section Report

variable {others outstanding : List Nat} {before between : VolumeCache Data} {count done : Nat}
  {result : Int × VolumeCache Data} {ret : Int}

/-- The items that are inserted are those before the place where the insertions stopped. -/
theorem Stopped.inserted_iff (stopped : Stopped start count 0 items ret between result done)
    (sound : Sound others outstanding between) (same : between.1.next = before.1.next)
    (bounded : count ≤ 2 ^ 32) {i : Nat} (within : i < count) :
    Inserted start items before.1.next result.2 i ↔ i < done := by
  constructor
  · rintro ⟨addr, leaf, located, fresh, -⟩
    by_contra late
    have apart : ∀ j < done, blockKey start i ≠ blockKey start (0 + j) := by
      intro j early equal
      have := stopped.within
      have := blockKey_injective (by omega) (by omega) equal
      omega
    rw [stopped.others _ apart] at located
    have old := sound.lt_next (List.mem_map_of_mem (OrderedMap.lookup_eq_some.mp located))
    omega
  · intro early
    have there := stopped.inserted i early
    rwa [Nat.zero_add, same] at there

theorem Stopped.granted_iff (stopped : Stopped start count 0 items ret between result done)
    {i : Nat} (within : i < count) : (∀ j ≤ i, items.granted j = true) ↔ i < done := by
  constructor
  · intro granted
    by_contra late
    have refused := stopped.refused (by omega)
    rw [Nat.zero_add, granted done (Nat.le_of_not_lt late)] at refused
    cases refused
  · intro early j below
    have granted := stopped.granted j (Nat.lt_of_le_of_lt below early)
    rwa [Nat.zero_add] at granted

theorem Stopped.all_iff (stopped : Stopped start count 0 items ret between result done)
    (sound : Sound others outstanding between) (same : between.1.next = before.1.next)
    (bounded : count ≤ 2 ^ 32) :
    (∀ i < count, Inserted start items before.1.next result.2 i) ↔ done = count := by
  constructor
  · intro all
    by_contra early
    have within : done < count := Nat.lt_of_le_of_ne stopped.within early
    have there := (stopped.inserted_iff sound same bounded within).mp (all done within)
    exact Nat.lt_irrefl _ there
  · rintro rfl i within
    exact (stopped.inserted_iff sound same bounded within).mpr within

theorem Stopped.reportsFailure_iff
    (stopped : Stopped start count 0 items noMemory between result done)
    (sound : Sound others outstanding between) (same : between.1.next = before.1.next)
    (bounded : count ≤ 2 ^ 32) :
    ReportsFailure start count items before result ↔
      (done < count → items.leafGranted done = false → done = 0) := by
  have all := stopped.all_iff sound same bounded
  have within := stopped.within
  have code := stopped.code
  rw [Nat.zero_add] at code
  constructor
  · intro reports early leaf
    by_contra later
    rw [if_neg (Nat.ne_of_lt early), leaf, if_neg Bool.false_ne_true, if_neg later] at code
    exact Nat.ne_of_lt early (all.mp (reports.zero.mp code))
  · intro first
    have failed : done ≠ count → result.1 = noMemory := by
      intro early
      rw [code, if_neg early]
      split
      · rfl
      · rename_i leaf
        rw [if_pos (first (Nat.lt_of_le_of_ne within early) (Bool.not_eq_true _ ▸ leaf))]
    refine ⟨?_, ?_, ?_⟩
    · rw [all]
      constructor
      · intro zero
        by_contra early
        rw [failed early] at zero
        exact absurd zero (by decide)
      · intro complete
        rw [code, if_pos complete]
    · intro nonzero
      by_cases complete : done = count
      · rw [code, if_pos complete] at nonzero
        exact absurd rfl nonzero
      · rw [failed complete]
        decide
    · intro i inside
      rw [stopped.inserted_iff sound same bounded inside, stopped.granted_iff inside]

end Report

/-- On a volume that a legal run leaves, an update tells of its failure unless the first thing that
it cannot get is a leaf for an item after the first. -/
theorem cacheUpdate_reportsFailure_iff (volid : Nat) (cacheSize : BitVec 32)
    (events : List (CacheEvent Data))
    (legal : Guarded CacheState.Legal CacheState.step (.init volid cacheSize) events)
    {state : CacheState Data}
    (reached : run CacheState.step (.init volid cacheSize) events = some state)
    (start : BitVec 64) (count : BitVec 32) (items : UpdateItems Data) :
    ∃ result, cacheUpdate start.toNat count items state.cache = some result ∧
      (ReportsFailure start.toNat count.toInt.toNat items state.cache result ↔
        ∀ i < count.toInt.toNat, (∀ j < i, items.granted j = true) →
          items.leafGranted i = false → i = 0) := by
  obtain ⟨state', ran, sound⟩ := run_sound volid cacheSize legal
  obtain rfl := Option.some.inj (ran.symm.trans reached)
  obtain ⟨between, result, done, updated, soundBetween, same, stopped⟩ :=
    @cacheUpdate_stopped _ start.toNat items _ _ _ sound count
  have bounded : count.toInt.toNat ≤ 2 ^ 32 := by
    have : count.toInt < 2 ^ 31 := BitVec.toInt_lt
    omega
  refine ⟨result, updated, ?_⟩
  rw [stopped.reportsFailure_iff soundBetween same bounded]
  constructor
  · intro first i inside granted leaf
    have here : i = done := by
      have refused : ¬ ∀ j ≤ i, items.granted j = true := fun all => by
        have own := all i (Nat.le_refl i)
        rw [UpdateItems.granted, leaf] at own
        cases own
      have late := mt (stopped.granted_iff inside).mpr refused
      rcases Nat.lt_or_ge done i with below | above
      · have own := granted done below
        have stop := stopped.refused (by omega)
        rw [Nat.zero_add, own] at stop
        cases stop
      · omega
    exact here ▸ first (here ▸ inside) (here ▸ leaf)
  · intro first early leaf
    refine first done early (fun j below => ?_) leaf
    have granted := stopped.granted j below
    rwa [Nat.zero_add] at granted

def secondLeafMissing : UpdateItems Nat := ⟨id, fun i => decide (i ≠ 1), fun _ => true⟩

theorem cacheUpdate_reportsFailure_two :
    ∃ state : CacheState Nat,
      run CacheState.step (.init 7 4) [.update 0 2 numberedItems] = some state ∧
      ∃ result, cacheUpdate 5 3 secondLeafMissing state.cache = some result ∧
        (ReportsFailure 5 3 secondLeafMissing state.cache result ↔
          ∀ i < 3, (∀ j < i, secondLeafMissing.granted j = true) →
            secondLeafMissing.leafGranted i = false → i = 0) := by
  have legal : Guarded CacheState.Legal CacheState.step (.init 7 4)
      [.update 0 2 numberedItems] := by
    decide
  obtain ⟨state, ran, -⟩ := run_sound 7 4 legal
  exact ⟨state, ran, cacheUpdate_reportsFailure_iff 7 4 _ legal ran 5 3 secondLeafMissing⟩

/-- The second of two items gets no leaf, and the update returns 0. -/
theorem cacheUpdate_failure_untold :
    ¬ ∀ (start : BitVec 64) (count : BitVec 32) (items : UpdateItems Nat)
      (result : Int × VolumeCache Nat), 1 ≤ count.toInt →
        cacheUpdate start.toNat count items (CacheState.init 7 4).cache = some result →
          ReportsFailure start.toNat count.toInt.toNat items (CacheState.init 7 4).cache
            result := by
  intro reports
  have told := reports 0 2 secondLeafMissing _ (by decide) rfl
  have second := (told.inserted 1 (by decide)).mp (told.zero.mp rfl 1 (by decide)) 1 (by decide)
  exact absurd second (by decide)

end DmsBlkdev
