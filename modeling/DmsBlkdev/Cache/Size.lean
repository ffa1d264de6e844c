import DmsBlkdev.Cache.Representation
import Mathlib.Order.MinMax

/-!
# The size of the metadata cache

An update first kicks as many entries as it would be over the size of the
cache, but never more than that size.  After an update of more items than the
cache takes the next one can have more to kick, and then the cache grows.
-/

namespace DmsBlkdev

open Lib Lib.Run Leaves

variable {Data : Type}

namespace CacheState

/-- The number of entries is at most twice the size when an update has been added to it, or at
most the size before. -/
def Fits (state : CacheState Data) : CacheEvent Data → Prop
  | .update _ count _ =>
      let entries : Int := state.cache.2.tree.items.length
      let size := state.cache.2.cacheSize.toInt
      entries ≤ size ∨ 0 ≤ count.toInt ∧ entries + count.toInt ≤ 2 * size
  | _ => True

instance (state : CacheState Data) : DecidablePred state.Fits
  | .update .. => inferInstanceAs (Decidable (_ ∨ _))
  | .find .. => .isTrue trivial
  | .put .. => .isTrue trivial
  | .invalidate .. => .isTrue trivial
  | .kick .. => .isTrue trivial

/-- After every update of the run that succeeds, the entries are at most as many as the size of
the cache, or as the items of the update. -/
def StaysWithinSize (cacheSize : BitVec 32) (first : CacheState Data)
    (events : List (CacheEvent Data)) : Prop :=
  ∀ earlier start count items later state result,
    events = earlier ++ .update start count items :: later →
    run step first earlier = some state →
    cacheUpdate start.toNat count items state.cache = some result → result.1 = 0 →
    (result.2.2.tree.items.length : Int) ≤ max cacheSize.toInt count.toInt

end CacheState

section Arithmetic

theorem surplus_toInt_raw {cacheNum count cacheSize : BitVec 32} {entries : Nat}
    (counter : cacheNum = BitVec.ofNat 32 entries)
    (low : -2 ^ 31 ≤ (entries : Int) + count.toInt - cacheSize.toInt)
    (high : (entries : Int) + count.toInt - cacheSize.toInt < 2 ^ 31) :
    (cacheNum + count - cacheSize).toInt = entries + count.toInt - cacheSize.toInt := by
  rw [BitVec.toInt_sub, BitVec.toInt_add, counter, BitVec.toInt_ofNat', Int.bmod_add_bmod,
    Int.bmod_sub_bmod]
  exact Int.bmod_eq_of_le (by omega) (by omega)

/-- Without an overflow `cache_update` wants to kick what is over the size, but at most the size. -/
theorem surplus_toInt {v : Volume} {count : BitVec 32} {entries : Nat}
    (counter : v.cacheNum = BitVec.ofNat 32 entries)
    (low : -2 ^ 31 ≤ (entries : Int) + count.toInt - v.cacheSize.toInt)
    (high : (entries : Int) + count.toInt - v.cacheSize.toInt < 2 ^ 31) :
    (surplus v count).toInt = min v.cacheSize.toInt (entries + count.toInt - v.cacheSize.toInt) := by
  have raw := surplus_toInt_raw counter low high
  rw [surplus]
  split
  · rename_i clamped
    rw [raw] at clamped
    exact (min_eq_left (le_of_lt clamped)).symm
  · rename_i kept
    rw [raw, not_lt] at kept
    rw [raw, min_eq_right kept]

theorem kickTotal_toNat {v : Volume} {count : BitVec 32} {entries : Nat}
    (counter : v.cacheNum = BitVec.ofNat 32 entries) (small : entries < 2 ^ 32) :
    min entries count.toNat ≤ (kickTotal count v).toNat := by
  rw [kickTotal]
  split
  · rw [counter, BitVec.toNat_ofNat, Nat.mod_eq_of_lt small]
    exact Nat.min_le_left _ _
  · exact Nat.min_le_right _ _

end Arithmetic

section Update

variable {others outstanding : List Nat}

theorem kicks_surplus {cache : VolumeCache Data} (sound : Sound others outstanding cache)
    (small : cache.2.tree.entries.length < 2 ^ 32) (count : BitVec 32) :
    ∃ between, (if 0 < (surplus cache.2 count).toInt then
        kickMetaCache (surplus cache.2 count) none cache else some cache) = some between ∧
      Sound others outstanding between ∧
      between.2.tree.entries.length +
        min cache.2.tree.entries.length (surplus cache.2 count).toInt.toNat ≤
          cache.2.tree.entries.length := by
  split
  · rename_i positive
    obtain ⟨between, kicked, after, -, length⟩ :=
      kickMetaCache_sound (surplus cache.2 count) none sound
    have all := @kickTotal_toNat cache.2 (surplus cache.2 count) _ sound.consistent.cacheNum small
    have wanted : (surplus cache.2 count).toInt = (surplus cache.2 count).toNat := by
      have word := BitVec.toInt_eq_toNat_cond (surplus cache.2 count)
      have bound := (surplus cache.2 count).isLt
      split at word <;> omega
    refine ⟨between, kicked, after, ?_⟩
    have fewer := length rfl
    have counted : cache.2.tree.items.length = cache.2.tree.entries.length := List.length_map _
    simp only [kicks, counted, BitVec.ofNat_eq_ofNat, BitVec.toNat_zero] at fewer
    rw [wanted, Int.toNat_natCast]
    split at fewer <;> omega
  · refine ⟨cache, rfl, sound, ?_⟩
    omega

/-- An update that fits leaves the cache within its size. -/
theorem cacheUpdate_length {state : CacheState Data}
    (sound : Sound others state.outstanding state.cache)
    (positive : 0 < state.cache.2.cacheSize.toInt) {start : BitVec 64} {count : BitVec 32}
    {items : UpdateItems Data} (fits : state.Fits (.update start count items))
    {result : Int × VolumeCache Data}
    (updated : cacheUpdate start.toNat count items state.cache = some result) :
    (result.2.2.tree.items.length : Int) ≤ max state.cache.2.cacheSize.toInt count.toInt := by
  have counted : state.cache.2.tree.items.length = state.cache.2.tree.entries.length :=
    List.length_map _
  have size : state.cache.2.cacheSize.toInt < 2 ^ 31 := BitVec.toInt_lt
  have most : count.toInt < 2 ^ 31 := BitVec.toInt_lt
  simp only [CacheState.Fits, counted] at fits
  obtain ⟨between, kicked, soundBetween, left⟩ := kicks_surplus sound (by omega) count
  obtain ⟨result', looped, -, -, inserted⟩ :=
    updateLoop_sound soundBetween start.toNat count.toInt.toNat 0 items noMemory
  have same : cacheUpdate start.toNat count items state.cache = some result' := by
    simp only [cacheUpdate, kicked, Option.bind_some]
    exact looped
  obtain rfl := Option.some.inj (same.symm.trans updated)
  rw [OrderedMap.items, List.length_map]
  by_cases negative : count.toInt < 0
  · -- nothing is inserted
    omega
  · have excess := @surplus_toInt _ count _ sound.consistent.cacheNum (by omega) (by omega)
    omega

end Update

/-- In a legal run whose updates fit, every update leaves the cache within its size. -/
theorem updates_staysWithinSize (volid : Nat) {cacheSize : BitVec 32}
    (positive : 0 < cacheSize.toInt) {events : List (CacheEvent Data)}
    (legal : Guarded CacheState.Legal CacheState.step (.init volid cacheSize) events)
    (fits : Guarded CacheState.Fits CacheState.step (.init volid cacheSize) events) :
    (∃ last, run CacheState.step (.init volid cacheSize) events = some last) ∧
      CacheState.StaysWithinSize cacheSize (.init volid cacheSize) events := by
  let property (state : CacheState Data) : Prop :=
    Sound [] state.outstanding state.cache ∧ state.cache.2.cacheSize = cacheSize
  have base : property (.init volid cacheSize) := ⟨init_sound volid cacheSize, rfl⟩
  have preserved : ∀ before event, property before → before.Legal event →
      ∃ after, before.step event = some after ∧ property after := by
    rintro before event ⟨sound, size⟩ legal
    obtain ⟨after, taken, soundAfter, steady⟩ := step_sound sound legal
    exact ⟨after, taken, soundAfter, steady.cacheSize.trans size⟩
  constructor
  · obtain ⟨last, ran, -⟩ := guarded_run preserved base legal
    exact ⟨last, ran⟩
  · rintro earlier start count items later state result rfl ran updated -
    obtain ⟨state', ran', sound, size⟩ := guarded_run preserved base legal.left
    obtain rfl := Option.some.inj (ran'.symm.trans ran)
    have fitsHere := (fits.right ran).1
    rw [← size] at positive ⊢
    exact cacheUpdate_length sound positive fitsHere updated

theorem updates_staysWithinSize_example :
    (∃ last, run CacheState.step (.init 7 4)
        [.update 0 6 numberedItems, .update 6 2 numberedItems] = some last) ∧
      CacheState.StaysWithinSize 4 (.init 7 4)
        [.update 0 6 numberedItems, .update 6 2 numberedItems] := by
  apply updates_staysWithinSize <;> decide

theorem update_exceeds_size :
    0 < (4 : BitVec 32).toInt ∧
      Guarded CacheState.Legal CacheState.step (.init 7 4)
        [.update 0 10 numberedItems, .update 10 1 numberedItems] ∧
      ¬ CacheState.StaysWithinSize 4 (.init 7 4)
        [.update 0 10 numberedItems, .update 10 1 numberedItems] := by
  refine ⟨by decide, by decide, fun stays => ?_⟩
  have grown := stays [.update 0 10 numberedItems] 10 1 numberedItems [] _ _ rfl rfl rfl rfl
  exact absurd grown (by decide)

end DmsBlkdev
