import DmsBlkdev.Cache.Find
import DmsBlkdev.Lib.Run
import Mathlib.Data.List.Perm.Subperm

/-!
# The representation of the metadata cache

A run of operations on one volume.  Beside the volume the state has the
references that finds have returned and that were not put back.
-/

namespace DmsBlkdev

open Lib Lib.Run Leaves

variable {Data : Type}

inductive CacheEvent (Data : Type) where
  | update (start : BitVec 64) (count : BitVec 32) (items : UpdateItems Data)
  | find (start : BitVec 64) (count : Nat)
  | put (basket : List (Option Nat))
  | invalidate (start : BitVec 64) (count : BitVec 32)
  | kick (count : BitVec 32) (condition : Option (Data → Bool))

/-- A volume with the references to its leaves that are held outside. -/
structure CacheState (Data : Type) where
  cache : VolumeCache Data
  outstanding : List Nat

namespace CacheState

def init (volid : Nat) (cacheSize : BitVec 32) : CacheState Data :=
  ⟨(.empty, .init volid cacheSize), []⟩

def step (state : CacheState Data) : CacheEvent Data → Option (CacheState Data)
  | .update start count items =>
      (cacheUpdate start.toNat count items state.cache).map fun result =>
        { state with cache := result.2 }
  | .find start count =>
      (cacheFind start.toNat count state.cache).map fun result =>
        ⟨result.2.2, result.2.1.reduceOption ++ state.outstanding⟩
  | .put basket =>
      (cachePut basket state.cache.1).map fun leaves =>
        ⟨(leaves, state.cache.2), state.outstanding.diff basket.reduceOption⟩
  | .invalidate start count =>
      (cacheInvalidate start.toNat count.toInt.toNat 0 state.cache).map fun cache =>
        { state with cache }
  | .kick count condition =>
      (kickMetaCache count condition state.cache).map fun cache => { state with cache }

/-- Only references that are held are put back, and no leaf gets more of them than it can count. -/
def Legal (state : CacheState Data) : CacheEvent Data → Prop
  | .find start count =>
      Room start.toNat (blockKey start.toNat count) state.outstanding state.cache.2.tree
  | .put basket => basket.reduceOption.Subperm state.outstanding
  | _ => True

instance (state : CacheState Data) : DecidablePred state.Legal
  | .update .. => .isTrue trivial
  | .find .. => inferInstanceAs (Decidable (Room ..))
  | .put basket => inferInstanceAs (Decidable (basket.reduceOption.Subperm state.outstanding))
  | .invalidate .. => .isTrue trivial
  | .kick .. => .isTrue trivial

/-- The tree, the list, the counter and the words of the leaves agree. -/
structure Represented (state : CacheState Data) : Prop where
  listed : state.cache.2.lruList.Perm state.cache.2.tree.items
  once : state.cache.2.tree.items.Nodup
  cacheNum : state.cache.2.cacheNum = BitVec.ofNat 32 state.cache.2.tree.items.length
  cached : ∀ key addr, (key, addr) ∈ state.cache.2.tree.entries →
    ∃ leaf, state.cache.1.leaf addr = some leaf ∧ leaf.blkid = key ∧ leaf.isDelete = false
  removed : ∀ addr leaf, state.cache.1.leaf addr = some leaf → addr ∉ state.cache.2.tree.items →
    leaf.isDelete = true ∧ 0 < leaf.refCount ∧
      leaf.refCount.toNat = state.outstanding.count addr

end CacheState

section Invariant

variable {others : List Nat} {state : CacheState Data}

/-- A legal operation gets through, and the leaves stay accounted for. -/
theorem step_sound (sound : Sound others state.outstanding state.cache) {event : CacheEvent Data}
    (legal : state.Legal event) :
    ∃ next, state.step event = some next ∧ Sound others next.outstanding next.cache ∧
      Steady state.cache next.cache := by
  cases event with
  | update start count items =>
      obtain ⟨result, updated, after, steady⟩ := cacheUpdate_sound sound start.toNat count items
      refine ⟨⟨result.2, state.outstanding⟩, ?_, after, steady⟩
      rw [CacheState.step, updated]
      rfl
  | find start count =>
      obtain ⟨result, found, after, steady⟩ := cacheFind_sound start.toNat count sound legal
      refine ⟨⟨result.2.2, result.2.1.reduceOption ++ state.outstanding⟩, ?_, after, steady⟩
      change cacheFind start.toNat count state.cache = some result at found
      rw [CacheState.step, found]
      rfl
  | put basket =>
      have split : state.outstanding.Perm
          (basket.reduceOption ++ state.outstanding.diff basket.reduceOption) :=
        (List.subperm_append_diff_self_of_count_le fun addr _ => legal.count_le addr).symm
      obtain ⟨leaves, put, after, kept⟩ := cachePut_sound (sound.outstanding_perm split)
      refine ⟨⟨(leaves, state.cache.2), state.outstanding.diff basket.reduceOption⟩, ?_, after,
        kept, rfl, rfl⟩
      rw [CacheState.step, put]
      rfl
  | invalidate start count =>
      obtain ⟨cache, invalidated, after, steady⟩ :=
        cacheInvalidate_sound sound start.toNat count.toInt.toNat 0
      refine ⟨⟨cache, state.outstanding⟩, ?_, after, steady⟩
      rw [CacheState.step, invalidated]
      rfl
  | kick count condition =>
      obtain ⟨cache, kicked, after, steady, -⟩ := kickMetaCache_sound count condition sound
      refine ⟨⟨cache, state.outstanding⟩, ?_, after, steady⟩
      rw [CacheState.step, kicked]
      rfl

theorem init_sound (volid : Nat) (cacheSize : BitVec 32) :
    Sound [] [] ((.empty, .init volid cacheSize) : VolumeCache Data) where
  accounted := accounted_empty
  consistent := ⟨List.Perm.refl [], rfl, fun _ member => absurd member List.not_mem_nil⟩

theorem Sound.represented (sound : Sound [] state.outstanding state.cache) :
    state.Represented where
  listed := sound.consistent.listed
  once := sound.items_nodup
  cacheNum := by
    rw [sound.consistent.cacheNum, OrderedMap.items, List.length_map]
  cached key addr entry := by
    have item : addr ∈ state.cache.2.tree.items ++ [] :=
      List.mem_append_left [] (List.mem_map_of_mem entry)
    obtain ⟨leaf, found⟩ := sound.accounted.leaf_of_linked item
    refine ⟨leaf, found, sound.consistent.keyed (key, addr) entry leaf found, ?_⟩
    rw [TreeLeaf.isDelete, sound.accounted.counted addr leaf found,
      packed_isDelete (sound.accounted.bounded addr)]
    exact decide_eq_false (not_not_intro item)
  removed addr leaf found unlinked := by
    have small := sound.accounted.bounded addr
    have word := sound.accounted.counted addr leaf found
    have out : addr ∉ state.cache.2.tree.items ++ [] := by rwa [List.append_nil]
    have referred := ((sound.accounted.alive addr).mp ⟨leaf, found⟩).resolve_left out
    rw [TreeLeaf.isDelete, TreeLeaf.refCount, word, packed_isDelete small,
      packed_refCount_pos small, packed_refCount small]
    exact ⟨decide_eq_true out, List.count_pos_iff.mpr referred, rfl⟩

end Invariant

/-- Every legal run gets through, with the leaves accounted for. -/
theorem run_sound (volid : Nat) (cacheSize : BitVec 32) {events : List (CacheEvent Data)}
    (legal : Guarded CacheState.Legal CacheState.step (CacheState.init volid cacheSize) events) :
    ∃ state, run CacheState.step (CacheState.init volid cacheSize) events = some state ∧
      Sound [] state.outstanding state.cache := by
  have preserved : ∀ (before : CacheState Data) (event : CacheEvent Data),
      Sound [] before.outstanding before.cache → before.Legal event →
      ∃ after, before.step event = some after ∧ Sound [] after.outstanding after.cache := by
    intro before event sound legal
    obtain ⟨after, taken, soundAfter, -⟩ := step_sound sound legal
    exact ⟨after, taken, soundAfter⟩
  exact guarded_run preserved (init_sound volid cacheSize) legal

/-- Every legal run gets through, and the views of the cache agree after it. -/
theorem cache_represented (volid : Nat) (cacheSize : BitVec 32) (events : List (CacheEvent Data))
    (legal : Guarded CacheState.Legal CacheState.step (CacheState.init volid cacheSize) events) :
    ∃ state, run CacheState.step (CacheState.init volid cacheSize) events = some state ∧
      state.Represented := by
  obtain ⟨state, ran, sound⟩ := run_sound volid cacheSize legal
  exact ⟨state, ran, sound.represented⟩

def numberedItems : UpdateItems Nat := ⟨id, fun _ => true, fun _ => true⟩

theorem cache_represented_replaced :
    ∃ state, run CacheState.step (CacheState.init 7 4) [.update 0 2 numberedItems, .find 0 2,
        .update 0 1 numberedItems, .put [some 0, none]] = some state ∧ state.Represented := by
  apply cache_represented
  decide

end DmsBlkdev
