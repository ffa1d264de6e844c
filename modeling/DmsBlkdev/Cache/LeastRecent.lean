import DmsBlkdev.Cache.Threaded

/-!
# The least recently used entries

A run of operations beside the history of the touches.  An entry is touched
when an update puts it in and when a find takes it, and the list of the volume
is at any time in the order of the last touch.  Where the counter of the
entries has not left the range of an `int`, an eviction takes as many entries
from the end of the list as it is asked for.
-/

namespace DmsBlkdev

open Lib Lib.Run Lib.Recency Leaves

variable {Data : Type}

/-- The keys of a range that are cached; none when the end of the range is not behind its start. -/
def hits (start count : Nat) (tree : OrderedMap Nat Nat) : List Nat :=
  (tree.entries.filter fun entry => start ≤ entry.1 ∧ entry.1 < blockKey start count).map Prod.fst

/-- The keys of the items that an update inserts, from round `i` on. -/
def insertedKeys (start : Nat) (items : UpdateItems Data) (i rounds : Nat) : List Nat :=
  ((List.range' i rounds).takeWhile items.granted).map (blockKey start)

/-- The keys that an operation touches, the latest first: a find goes through its hits from the
last one to the first. -/
def touched (state : CacheState Data) : CacheEvent Data → List Nat
  | .update start count items => (insertedKeys start.toNat items 0 count.toInt.toNat).reverse
  | .find start count => hits start.toNat count state.cache.2.tree
  | _ => []

def traced (state : CacheState Data × List Nat) (event : CacheEvent Data) :
    Option (CacheState Data × List Nat) :=
  (state.1.step event).map fun next => (next, touched state.1 event ++ state.2)

def Ordered (history : List Nat) (v : Volume) : Prop :=
  ∃ listed : List (Nat × Nat), listed.Perm v.tree.entries ∧ listed.map Prod.snd = v.lruList ∧
    Recent history (listed.map Prod.fst)

/-- How many entries an operation asks `__kick_meta_cache` for, without a condition. -/
def asked (state : CacheState Data) : CacheEvent Data → Option (BitVec 32)
  | .update _ count _ =>
      if 0 < (surplus state.cache.2 count).toInt then some (surplus state.cache.2 count) else none
  | .kick count none => if 1 ≤ count.toInt then some count else none
  | _ => none

/-- An eviction has left all but `k` entries, and has taken no entry touched later than one that it
has left. -/
structure EvictsOldest (history : List Nat) (k : Nat) (before after : Volume) : Prop where
  kept : after.tree.entries ⊆ before.tree.entries
  number : after.tree.entries.length + min k before.tree.entries.length =
    before.tree.entries.length
  oldest : ∀ kept ∈ after.tree.entries, ∀ gone ∈ before.tree.entries,
    gone ∉ after.tree.entries → history.idxOf kept.1 < history.idxOf gone.1

/-- All along the run the list is in order, and each eviction takes the least recent entries. -/
def EvictsLeastRecent (first : CacheState Data) (events : List (CacheEvent Data)) : Prop :=
  ∀ earlier later state, events = earlier ++ later →
    run traced (first, []) earlier = some state →
      Ordered state.2 state.1.cache.2 ∧
        ∀ event rest k after, later = event :: rest → asked state.1 event = some k →
          kickMetaCache k none state.1.cache = some after →
            EvictsOldest state.2 k.toInt.toNat state.1.cache.2 after.2

section Operations

variable {cache : VolumeCache Data} {listed : List (Nat × Nat)} {history : List Nat}

theorem hits_eq (start count : Nat) (tree : OrderedMap Nat Nat) :
    hits start count tree = ((tree.firstFrom start count).filter fun entry =>
      entry.1 < blockKey start count).map Prod.fst := by
  let behind := tree.entries.filter fun entry => start ≤ entry.1
  have late : (behind.drop count).filter (fun entry => entry.1 < blockKey start count) = [] := by
    rw [List.filter_eq_nil_iff]
    intro entry member inside
    obtain ⟨position, located⟩ := List.mem_iff_getElem?.mp member
    rw [List.getElem?_drop] at located
    have place := OrderedMap.add_position_le (tree.ascending.filter _)
      (fun other member => of_decide_eq_true (List.mem_filter.mp member).2) located
    have ends : blockKey start count ≤ start + count := Nat.mod_le _ _
    have early := of_decide_eq_true inside
    omega
  have split : behind.filter (fun entry => entry.1 < blockKey start count) =
      (behind.take count).filter fun entry => entry.1 < blockKey start count := by
    rw [← List.take_append_drop count behind, List.filter_append, late, List.append_nil,
      List.take_append_drop]
  have both : behind.filter (fun entry => entry.1 < blockKey start count) =
      tree.entries.filter fun entry => start ≤ entry.1 ∧ entry.1 < blockKey start count := by
    rw [List.filter_filter]
    congr 1
    funext entry
    rw [Bool.decide_and, Bool.and_comm]
  rw [hits, ← both, split]
  rfl

theorem foldr_touch_threaded {leaves : Leaves Data} {v : Volume}
    (threaded : Threaded leaves v listed) {entries : List (Nat × Nat)} (linked : entries ⊆ v.tree.entries) :
    ∃ moved, Threaded leaves (entries.foldr (fun entry v => v.touch entry.2) v) moved ∧
      moved.map Prod.fst = (entries.map Prod.fst).foldr moveToFront (listed.map Prod.fst) := by
  induction entries with
  | nil => exact ⟨listed, threaded, rfl⟩
  | cons entry rest inductionHypothesis =>
      obtain ⟨first, linkedRest⟩ := List.cons_subset.mp linked
      obtain ⟨between, threadedBetween, keys⟩ := inductionHypothesis linkedRest
      have member : (entry.1, entry.2) ∈ between := by
        rw [threadedBetween.entries.mem_iff, foldr_touch_tree]
        exact first
      obtain ⟨moved, threadedMoved, front⟩ := threadedBetween.touch member
      refine ⟨moved, threadedMoved, ?_⟩
      rw [front, keys]
      rfl

theorem cacheFind_threaded (threaded : Threaded cache.1 cache.2 listed) {start count : Nat}
    {result : Int × List (Option Nat) × VolumeCache Data}
    (found : cacheFind start count cache = some result) :
    ∃ moved, Threaded result.2.2.1 result.2.2.2 moved ∧
      moved.map Prod.fst =
        (hits start count cache.2.tree).foldr moveToFront (listed.map Prod.fst) := by
  obtain ⟨retOff, finding⟩ :=
    (cacheFind_finding threaded.keyed threaded.items_nodup).1 result found
  have linked : (((cache.2.tree.firstFrom start count).drop 0).filter fun entry =>
      entry.1 < blockKey start count) ⊆ cache.2.tree.entries := fun entry member =>
    (OrderedMap.mem_firstFrom (List.mem_filter.mp member).1).1
  obtain ⟨moved, threadedMoved, keys⟩ := foldr_touch_threaded threaded linked
  refine ⟨moved, ?_, ?_⟩
  · rw [finding.volume]
    exact threadedMoved.keeps finding.keeps
  · rw [keys, hits_eq, List.drop_zero]

theorem cachePut_keeps {basket : List (Option Nat)} {leaves leaves' : Leaves Data}
    (put : cachePut basket leaves = some leaves') : Keeps leaves leaves' := by
  induction basket generalizing leaves with
  | nil =>
      obtain rfl := Option.some.inj put
      exact Keeps.refl _
  | cons slot rest inductionHypothesis =>
      cases slot with
      | none => exact inductionHypothesis put
      | some addr =>
          obtain ⟨between, first, putRest⟩ := Option.bind_eq_some_iff.mp put
          exact (putRef_keeps first).trans (inductionHypothesis putRest)

theorem invalidateKey_threaded (threaded : Threaded cache.1 cache.2 listed) {key : Nat}
    {after : VolumeCache Data} (invalidated : invalidateKey key cache = some after) :
    ∃ rest, Threaded after.1 after.2 rest ∧
      (rest.map Prod.fst).Sublist (listed.map Prod.fst) := by
  obtain ⟨leaves, v⟩ := cache
  unfold invalidateKey at invalidated
  split at invalidated
  · obtain rfl := Option.some.inj invalidated
    exact ⟨listed, threaded, List.Sublist.refl _⟩
  · rename_i addr there
    obtain ⟨leaves', retired, rfl⟩ := Option.map_eq_some_iff.mp invalidated
    have entry := threaded.entries.mem_iff.mpr (OrderedMap.lookup_eq_some.mp there)
    obtain ⟨rest, unlinked, -, keys⟩ := threaded.unlink entry
    exact ⟨rest, unlinked.keeps (retire_keeps retired), keys ▸ List.erase_sublist⟩

theorem cacheInvalidate_threaded (threaded : Threaded cache.1 cache.2 listed) {start rounds i : Nat}
    {after : VolumeCache Data} (invalidated : cacheInvalidate start rounds i cache = some after) :
    ∃ rest, Threaded after.1 after.2 rest ∧
      (rest.map Prod.fst).Sublist (listed.map Prod.fst) := by
  induction rounds generalizing i cache listed with
  | zero =>
      obtain rfl := Option.some.inj invalidated
      exact ⟨listed, threaded, List.Sublist.refl _⟩
  | succ rounds inductionHypothesis =>
      obtain ⟨between, first, invalidatedRest⟩ := Option.bind_eq_some_iff.mp invalidated
      obtain ⟨middle, threadedBetween, sublist⟩ := invalidateKey_threaded threaded first
      obtain ⟨rest, threadedRest, sublistRest⟩ :=
        inductionHypothesis threadedBetween invalidatedRest
      exact ⟨rest, threadedRest, sublistRest.trans sublist⟩

/-- The insertions move the keys of their items to the front, one after the other. -/
theorem updateLoop_threaded (threaded : Threaded cache.1 cache.2 listed)
    (recent : Recent history (listed.map Prod.fst)) {start rounds i : Nat}
    {items : UpdateItems Data} {ret : Int} {result : Int × VolumeCache Data}
    (looped : updateLoop start items rounds i ret cache = some result) :
    ∃ moved, Threaded result.2.1 result.2.2 moved ∧
      Recent ((insertedKeys start items i rounds).reverse ++ history) (moved.map Prod.fst) := by
  induction rounds generalizing i ret cache listed history with
  | zero =>
      obtain rfl := Option.some.inj looped
      exact ⟨listed, threaded, recent⟩
  | succ rounds inductionHypothesis =>
      have unfinished (refused : items.granted i = false) :
          insertedKeys start items i (rounds + 1) = [] := by
        rw [insertedKeys, List.range'_succ, List.takeWhile_cons_of_neg (by simp [refused])]
        rfl
      rw [updateLoop] at looped
      split at looped
      · rename_i leaf
        obtain rfl := Option.some.inj looped
        rw [unfinished (by simp [UpdateItems.granted, leaf])]
        exact ⟨listed, threaded, recent⟩
      · rename_i leaf
        split at looped
        · rename_i node
          obtain rfl := Option.some.inj looped
          rw [unfinished (by simp [UpdateItems.granted, node])]
          exact ⟨listed, threaded, recent⟩
        · rename_i node
          obtain ⟨between, inserted, loopedRest⟩ := Option.bind_eq_some_iff.mp looped
          obtain ⟨first, threadedFirst, front⟩ := insertLeaf_threaded threaded inserted
          have recentFirst := recent.moveToFront (blockKey start i)
          rw [← front] at recentFirst
          obtain ⟨moved, threadedMoved, recentMoved⟩ :=
            inductionHypothesis threadedFirst recentFirst loopedRest
          have granted : items.granted i = true := by
            simpa [UpdateItems.granted] using And.intro leaf node
          refine ⟨moved, threadedMoved, ?_⟩
          rw [insertedKeys, List.range'_succ, List.takeWhile_cons_of_pos granted, List.map_cons,
            List.reverse_cons, List.append_assoc]
          exact recentMoved

end Operations

section Eviction

variable {cache : VolumeCache Data} {listed : List (Nat × Nat)} {history : List Nat}

theorem EvictsOldest.of_take {leaves leaves' : Leaves Data} {before after : Volume} {k left : Nat}
    {rest : List (Nat × Nat)} (threaded : Threaded leaves before listed)
    (recent : Recent history (listed.map Prod.fst)) (threadedRest : Threaded leaves' after rest)
    (fewer : rest ⊆ listed) (keys : rest.map Prod.fst = (listed.map Prod.fst).take left)
    (number : min left listed.length + min k listed.length = listed.length) :
    EvictsOldest history k before after := by
  refine ⟨?_, ?_, ?_⟩
  · intro entry member
    exact threaded.entries.mem_iff.mp (fewer (threadedRest.entries.mem_iff.mpr member))
  · have length := congrArg List.length keys
    rw [List.length_map, List.length_take, List.length_map] at length
    rw [← threadedRest.entries.length_eq, ← threaded.entries.length_eq, length, number]
  · intro kept member gone before out
    have front : kept.1 ∈ (listed.map Prod.fst).take left := by
      rw [← keys]
      exact List.mem_map_of_mem (threadedRest.entries.mem_iff.mpr member)
    refine recent.take front ?_
    have key : gone.1 ∈ listed.map Prod.fst :=
      List.mem_map_of_mem (threaded.entries.mem_iff.mpr before)
    rw [← List.take_append_drop left (listed.map Prod.fst), List.mem_append, ← keys] at key
    refine key.resolve_left fun stayed => out ?_
    -- an entry that stayed under that key would be the one that has gone
    obtain ⟨other, inside, same⟩ := List.mem_map.mp stayed
    have original := threaded.entries.mem_iff.mp (fewer inside)
    have equal : other = gone := Prod.ext same
      (OrderedMap.entry_unique (same ▸ original : (gone.1, other.2) ∈ _) before)
    exact equal ▸ threadedRest.entries.mem_iff.mp inside

/-- The eviction does not count further than it is asked to, or finds no more entries. -/
theorem kickTotal_exact {v : Volume} {k : BitVec 32} {entries : Nat}
    (counter : v.cacheNum = BitVec.ofNat 32 entries) (positive : 0 < k.toInt)
    (counted : entries < 2 ^ 31 ∨ k.toInt ≤ v.cacheNum.toInt) :
    entries - max 1 (kickTotal k v).toNat + min k.toInt.toNat entries = entries := by
  have some : k ≠ -1 := by
    rintro rfl
    exact absurd positive (by decide)
  have natural : k.toInt.toNat = k.toNat := by
    have word := BitVec.toInt_eq_toNat_cond k
    have bound := k.isLt
    split at word <;> omega
  rw [kickTotal, natural]
  by_cases fewer : v.cacheNum.toInt < k.toInt
  · have small : entries < 2 ^ 31 := counted.resolve_right (not_le_of_gt fewer)
    have number : v.cacheNum.toNat = entries := by
      rw [counter, BitVec.toNat_ofNat, Nat.mod_eq_of_lt (by omega)]
    have signed : v.cacheNum.toInt = entries := by
      rw [BitVec.toInt_eq_toNat_cond, number]
      split <;> omega
    rw [if_pos (.inr fewer), number]
    omega
  · rw [if_neg (by tauto)]
    omega

theorem kickMetaCache_evictsOldest (threaded : Threaded cache.1 cache.2 listed)
    (recent : Recent history (listed.map Prod.fst)) {k : BitVec 32} (positive : 0 < k.toInt)
    (counted : cache.2.tree.entries.length < 2 ^ 31 ∨ k.toInt ≤ cache.2.cacheNum.toInt)
    {after : VolumeCache Data} (kicked : kickMetaCache k none cache = some after) :
    EvictsOldest history k.toInt.toNat cache.2 after.2 := by
  have counts : k ≠ -1 := by
    rintro rfl
    exact absurd positive (by decide)
  obtain ⟨rest, threadedRest, fewer, keys⟩ := kickLoop_take threaded counts
    (Nat.lt_of_lt_of_le Nat.one_pos (Nat.le_max_left _ _)) rfl kicked
  rw [← threaded.entries.length_eq] at counted
  have number := kickTotal_exact threaded.cacheNum positive counted
  refine .of_take threaded recent threadedRest fewer keys ?_
  change min (listed.length - (max 1 (kickTotal k cache.2).toNat - 0)) _ + _ = _
  omega

end Eviction

section Runs

def InOrder (state : CacheState Data × List Nat) : Prop :=
  ∃ listed, Threaded state.1.cache.1 state.1.cache.2 listed ∧
    Recent state.2 (listed.map Prod.fst)

theorem InOrder.ordered {state : CacheState Data × List Nat} (inOrder : InOrder state) :
    Ordered state.2 state.1.cache.2 := by
  obtain ⟨listed, threaded, recent⟩ := inOrder
  exact ⟨listed, threaded.entries, threaded.list, recent⟩

theorem inOrder_init (volid : Nat) (cacheSize : BitVec 32) :
    InOrder ((.init volid cacheSize, []) : CacheState Data × List Nat) := by
  refine ⟨[], ⟨List.Perm.refl _, rfl, List.nodup_nil, ?_, ?_, rfl⟩, Recent.nil⟩
  · exact fun entry member => absurd member List.not_mem_nil
  · exact fun entry member => absurd member List.not_mem_nil

theorem surplus_threaded {cache between : VolumeCache Data} {listed : List (Nat × Nat)}
    (threaded : Threaded cache.1 cache.2 listed) {count : BitVec 32}
    (kicked : (if 0 < (surplus cache.2 count).toInt then
      kickMetaCache (surplus cache.2 count) none cache else some cache) = some between) :
    ∃ rest, Threaded between.1 between.2 rest ∧
      (rest.map Prod.fst).Sublist (listed.map Prod.fst) := by
  split at kicked
  · exact kickMetaCache_sublist threaded kicked
  · obtain rfl := Option.some.inj kicked
    exact ⟨listed, threaded, List.Sublist.refl _⟩

theorem traced_inOrder {before after : CacheState Data × List Nat} {event : CacheEvent Data}
    (inOrder : InOrder before) (taken : traced before event = some after) : InOrder after := by
  obtain ⟨listed, threaded, recent⟩ := inOrder
  obtain ⟨next, stepped, rfl⟩ := Option.map_eq_some_iff.mp taken
  cases event with
  | update start count items =>
      obtain ⟨result, updated, rfl⟩ := Option.map_eq_some_iff.mp stepped
      obtain ⟨between, kicked, looped⟩ := Option.bind_eq_some_iff.mp updated
      obtain ⟨rest, threadedRest, sublist⟩ := surplus_threaded threaded kicked
      exact updateLoop_threaded threadedRest (recent.sublist sublist) looped
  | find start count =>
      obtain ⟨result, found, rfl⟩ := Option.map_eq_some_iff.mp stepped
      obtain ⟨moved, threadedMoved, keys⟩ := cacheFind_threaded threaded found
      refine ⟨moved, threadedMoved, ?_⟩
      rw [keys]
      exact recent.foldr_moveToFront _
  | put basket =>
      obtain ⟨leaves, put, rfl⟩ := Option.map_eq_some_iff.mp stepped
      exact ⟨listed, threaded.keeps (cachePut_keeps put), recent⟩
  | invalidate start count =>
      obtain ⟨cache, invalidated, rfl⟩ := Option.map_eq_some_iff.mp stepped
      obtain ⟨rest, threadedRest, sublist⟩ := cacheInvalidate_threaded threaded invalidated
      exact ⟨rest, threadedRest, recent.sublist sublist⟩
  | kick count condition =>
      obtain ⟨cache, kicked, rfl⟩ := Option.map_eq_some_iff.mp stepped
      obtain ⟨rest, threadedRest, sublist⟩ := kickMetaCache_sublist threaded kicked
      exact ⟨rest, threadedRest, recent.sublist sublist⟩

theorem asked_positive {state : CacheState Data} {event : CacheEvent Data} {k : BitVec 32}
    (asks : asked state event = some k) : 0 < k.toInt := by
  cases event with
  | update start count items =>
      simp only [asked] at asks
      split at asks
      · rename_i positive
        exact Option.some.inj asks ▸ positive
      · cases asks
  | kick count condition =>
      cases condition with
      | none =>
          simp only [asked] at asks
          split at asks
          · rename_i positive
            exact Option.some.inj asks ▸ positive
          · cases asks
      | some condition => cases asks
  | find start count => cases asks
  | put basket => cases asks
  | invalidate start count => cases asks

/-- A volume with fewer than 2^31 entries, or whose counter shows the entries that are asked for. -/
def Volume.Counts (v : Volume) : Option (BitVec 32) → Prop
  | some k => v.tree.entries.length < 2 ^ 31 ∨ k.toInt ≤ v.cacheNum.toInt
  | none => True

instance (v : Volume) : DecidablePred v.Counts
  | some _ => inferInstanceAs (Decidable (_ ∨ _))
  | none => .isTrue trivial

/-- Where the operation evicts, the counter has not left its range. -/
def Counted (state : CacheState Data × List Nat) (event : CacheEvent Data) : Prop :=
  state.1.cache.2.Counts (asked state.1 event)

instance (state : CacheState Data × List Nat) : DecidablePred (Counted state) := fun event =>
  inferInstanceAs (Decidable (state.1.cache.2.Counts (asked state.1 event)))

/-- In a run whose evictions find a counter that has not left its range, the list is always in the
order of the last touch, and the evictions take the least recently touched entries. -/
theorem evictsLeastRecent (volid : Nat) (cacheSize : BitVec 32) {events : List (CacheEvent Data)}
    (counted : Guarded Counted traced (.init volid cacheSize, []) events) :
    EvictsLeastRecent (.init volid cacheSize) events := by
  rintro earlier later state rfl ran
  have inOrder : InOrder state :=
    run_invariant (fun before event after ordered _ taken => traced_inOrder ordered taken)
      (inOrder_init volid cacheSize) counted.left ran
  refine ⟨inOrder.ordered, ?_⟩
  rintro event rest k after rfl asks kicked
  obtain ⟨listed, threaded, recent⟩ := inOrder
  have counts := (counted.right ran).1
  rw [Counted, asks] at counts
  exact kickMetaCache_evictsOldest threaded recent (asked_positive asks) counts kicked

theorem evictsLeastRecent_example :
    EvictsLeastRecent (.init 7 4) [.update 0 3 numberedItems, .find 0 2,
      .update 8 2 numberedItems, .kick 2 none] := by
  apply evictsLeastRecent
  decide

end Runs

section Overflow

variable {others outstanding : List Nat} {cache : VolumeCache Data}

theorem updateLoop_fresh (sound : Sound others outstanding cache) {start rounds i : Nat}
    {items : UpdateItems Data} (granted : ∀ j, items.granted j = true)
    (bounded : i + rounds ≤ 2 ^ 32)
    (fresh : ∀ j < rounds, cache.2.tree.lookup (blockKey start (i + j)) = none) (ret : Int) :
    ∃ result, updateLoop start items rounds i ret cache = some result ∧
      Sound others outstanding result.2 ∧ Steady cache result.2 ∧
      result.2.2.tree.entries.length = cache.2.tree.entries.length + rounds ∧
      ∀ key, (∀ j < rounds, key ≠ blockKey start (i + j)) →
        result.2.2.tree.lookup key = cache.2.tree.lookup key := by
  induction rounds generalizing i ret cache with
  | zero => exact ⟨_, rfl, sound, Steady.refl _, rfl, fun _ _ => rfl⟩
  | succ rounds inductionHypothesis =>
      have place (j : Nat) : i + 1 + j = i + (j + 1) := by omega
      have both : items.leafGranted i = true ∧ items.nodeGranted i = true := by
        simpa [UpdateItems.granted] using granted i
      obtain ⟨between, inserted, soundBetween, -, -, same⟩ :=
        @insertLeaf_inserted _ start items _ _ _ sound i
      obtain ⟨between', inserted', -, steady, entries⟩ :=
        insertLeaf_sound sound (blockKey start i) (items.basket i)
      obtain rfl := Option.some.inj (inserted.symm.trans inserted')
      have erased : cache.2.tree.erase (blockKey start i) = cache.2.tree :=
        OrderedMap.erase_of_absent (OrderedMap.lookup_eq_none.mp (fresh 0 (Nat.succ_pos rounds)))
      have length := entries.length_eq
      rw [erased, List.length_cons] at length
      have freshRest : ∀ j < rounds, between.2.tree.lookup (blockKey start (i + 1 + j)) = none := by
        intro j early
        have apart : blockKey start (i + 1 + j) ≠ blockKey start i := fun equal => by
          have := blockKey_injective (by omega) (by omega) equal
          omega
        rw [same _ apart, place]
        exact fresh (j + 1) (Nat.succ_lt_succ early)
      obtain ⟨result, looped, soundRest, steadyRest, lengthRest, sameRest⟩ :=
        inductionHypothesis (i := i + 1) soundBetween (by omega) freshRest 0
      refine ⟨result, ?_, soundRest, steady.trans steadyRest, by omega, ?_⟩
      · simp only [updateLoop, both.1, both.2, Bool.true_eq_false, if_false, inserted,
          Option.bind_some]
        exact looped
      · intro key apart
        rw [sameRest key fun j early => place j ▸ apart (j + 1) (Nat.succ_lt_succ early)]
        exact same key (apart 0 (Nat.succ_pos rounds))

/-- When the counter of the entries is negative, an eviction of one entry takes them all. -/
theorem kickMetaCache_negative (sound : Sound others outstanding cache)
    (many : 2 ^ 31 ≤ cache.2.tree.entries.length) (under : cache.2.tree.entries.length < 2 ^ 32) :
    ∃ after, kickMetaCache 1 none cache = some after ∧ after.2.tree.entries.length = 0 := by
  obtain ⟨after, kicked, -, -, length⟩ := kickMetaCache_sound 1 none sound
  have number : cache.2.cacheNum.toNat = cache.2.tree.entries.length := by
    rw [sound.consistent.cacheNum, BitVec.toNat_ofNat, Nat.mod_eq_of_lt under]
  have negative : cache.2.cacheNum.toInt < (1 : BitVec 32).toInt := by
    have word := BitVec.toInt_eq_toNat_cond cache.2.cacheNum
    rw [if_neg (by omega)] at word
    rw [word, number]
    change _ < (1 : Int)
    omega
  have total : kickTotal 1 cache.2 = cache.2.cacheNum := if_pos (.inr negative)
  have fewer := length rfl
  have items : cache.2.tree.items.length = cache.2.tree.entries.length := List.length_map _
  have all : kicks 1 cache.2.cacheNum cache.2.tree.items 0 = cache.2.tree.entries.length := by
    rw [kicks, if_neg (by decide), items, number]
    exact Nat.min_self _
  rw [total, all] at fewer
  exact ⟨after, kicked, by omega⟩

def overflowing : List (CacheEvent Nat) :=
  [.update 0 0x7fffffff numberedItems, .update 0x7fffffff 2 numberedItems, .kick 1 none]

theorem step_update {state : CacheState Data} {start : BitVec 64} {count : BitVec 32}
    {items : UpdateItems Data} {result : Int × VolumeCache Data}
    (unkicked : (if 0 < (surplus state.cache.2 count).toInt then
      kickMetaCache (surplus state.cache.2 count) none state.cache else some state.cache) =
        some state.cache)
    (looped : updateLoop start.toNat items count.toInt.toNat 0 noMemory state.cache = some result) :
    state.step (.update start count items) = some ⟨result.2, state.outstanding⟩ := by
  rw [CacheState.step, cacheUpdate, unkicked]
  simp only [Option.bind_some]
  rw [looped]
  rfl

theorem overflowing_entries :
    ∃ state : CacheState Nat,
      run CacheState.step (.init 7 1) (overflowing.take 2) = some state ∧
        Sound [] [] state.cache ∧ state.cache.2.tree.entries.length = 2 ^ 31 + 1 := by
  have granted : ∀ j, numberedItems.granted j = true := fun _ => rfl
  obtain ⟨filled, loopedFirst, soundFirst, steady, lengthFirst, sameFirst⟩ :=
    @updateLoop_fresh _ _ _ _ (init_sound 7 1) 0 0x7fffffff 0 numberedItems granted (by decide)
      (fun _ _ => rfl) noMemory
  have entriesFirst : filled.2.2.tree.entries.length = 0x7fffffff := lengthFirst
  have stepFirst : (CacheState.init 7 1).step (.update 0 0x7fffffff numberedItems) =
      some ⟨filled.2, []⟩ := step_update rfl loopedFirst
  have freshSecond : ∀ j < 2, filled.2.2.tree.lookup (blockKey 0x7fffffff (0 + j)) = none := by
    intro j early
    refine (sameFirst _ fun i inside same => ?_).trans rfl
    simp only [blockKey] at same
    omega
  obtain ⟨grown, loopedSecond, soundSecond, -, lengthSecond, -⟩ :=
    @updateLoop_fresh _ _ _ _ soundFirst 0x7fffffff 2 0 numberedItems granted (by decide)
      freshSecond noMemory
  -- the number of entries to kick is negative as an `int`
  have wrapped : surplus filled.2.2 2 = 0x80000000 := by
    have counter : filled.2.2.cacheNum = 0x7fffffff := by
      rw [soundFirst.consistent.cacheNum, entriesFirst]
      rfl
    have size : filled.2.2.cacheSize = 1 := steady.cacheSize
    rw [surplus, counter, size]
    decide
  have stepSecond : CacheState.step ⟨filled.2, []⟩ (.update 0x7fffffff 2 numberedItems) =
      some ⟨grown.2, []⟩ := by
    refine step_update ?_ loopedSecond
    rw [wrapped]
    exact if_neg (by decide)
  refine ⟨⟨grown.2, []⟩, ?_, soundSecond, ?_⟩
  · simp only [overflowing, List.take, run, stepFirst, stepSecond, Option.bind_some]
  · rw [lengthSecond, entriesFirst]
    rfl

theorem run_traced {first last : CacheState Data} {events : List (CacheEvent Data)}
    (ran : run CacheState.step first events = some last) (history : List Nat) :
    ∃ touches, run traced (first, history) events = some (last, touches) := by
  induction events generalizing first history with
  | nil =>
      obtain rfl := Option.some.inj ran
      exact ⟨history, rfl⟩
  | cons event rest inductionHypothesis =>
      obtain ⟨next, taken, ranRest⟩ := Option.bind_eq_some_iff.mp ran
      obtain ⟨touches, tracedRest⟩ := inductionHypothesis ranRest (touched first event ++ history)
      refine ⟨touches, ?_⟩
      rw [run, traced, taken]
      exact tracedRest

/-- With more entries than an `int` can count, an eviction of one entry takes them all. -/
theorem overflowing_not_evictsLeastRecent :
    Guarded CacheState.Legal CacheState.step (.init 7 1) overflowing ∧
      ¬ EvictsLeastRecent (.init 7 1) overflowing := by
  refine ⟨⟨trivial, fun _ _ => ⟨trivial, fun _ _ => ⟨trivial, fun _ _ => trivial⟩⟩⟩, ?_⟩
  intro evicts
  obtain ⟨state, ran, sound, entries⟩ := overflowing_entries
  obtain ⟨touches, ranTraced⟩ := run_traced ran []
  obtain ⟨after, kicked, nothing⟩ := kickMetaCache_negative sound (by omega) (by omega)
  have oldest := (evicts (overflowing.take 2) [.kick 1 none] (state, touches) rfl ranTraced).2
    (.kick 1 none) [] 1 after rfl rfl kicked
  have number := oldest.number
  change _ + min 1 state.cache.2.tree.entries.length = state.cache.2.tree.entries.length at number
  omega

end Overflow

end DmsBlkdev
