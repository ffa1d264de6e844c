import DmsBlkdev.Cache.RadixCache
import DmsBlkdev.Cache.RadixLookup
import DmsBlkdev.Cache.Volumes
import DmsBlkdev.Lib.HashChains

/-!
# The cache module

The volumes stand in hash chains by their ids, the leaves and the nodes of the
trees come from one pool each.  The operations that the module offers find
their volume in its chain; most of them do nothing without one.
-/

namespace DmsBlkdev

open Lib.HashChains

variable {Data : Type}

/-- `VOLID_TABLE_SIZE`. -/
abbrev volidTableSize : Nat := 23

/-- `volid_table`; each chain has the volume registered last in front. -/
abbrev VolidTable := Fin volidTableSize → List RadixVolume

def bucketOf (volid : Nat) : Fin volidTableSize := Fin.ofNat volidTableSize volid

namespace VolidTable

def init : VolidTable := fun _ => []

/-- `volume_find`: the volume and its place in the chain. -/
def volumeFind (volid : Nat) (table : VolidTable) : Option (Nat × RadixVolume) :=
  firstMatch RadixVolume.volid volid (table (bucketOf volid))

/-- `volume_register`. -/
def volumeRegister (v : RadixVolume) (table : VolidTable) : VolidTable :=
  Function.update table (bucketOf v.volid) (v :: table (bucketOf v.volid))

def store (volid place : Nat) (v : RadixVolume) (table : VolidTable) : VolidTable :=
  Function.update table (bucketOf volid) ((table (bucketOf volid)).set place v)

/-- `volume_remove_by_id`. -/
def volumeRemoveById (volid : Nat) (table : VolidTable) : VolidTable :=
  match volumeFind volid table with
  | none => table
  | some (place, _) =>
      Function.update table (bucketOf volid) ((table (bucketOf volid)).eraseIdx place)

def volumes (table : VolidTable) : List RadixVolume := (List.finRange volidTableSize).flatMap table

end VolidTable

/-- The leaves, the nodes and the volumes, and the references that finds have returned and that
their callers have not put back. -/
structure RadixModule (Data : Type) where
  leaves : Leaves Data
  slab : RadixTreeSlab
  volidTable : VolidTable
  outstanding : List Nat

/-- A call of the module; for a creation, whether the volume can be allocated. -/
inductive RadixModuleEvent (Data : Type) where
  | createVolumeCache (volid : BitVec 64) (cacheSize : BitVec 32) (granted : Bool)
  | releaseVolumeCache (volid : BitVec 64)
  | update (volid start : BitVec 64) (count : BitVec 32) (items : RadixItems Data)
  | find (volid start : BitVec 64) (count : Nat)
  | put (volid : BitVec 64) (basket : List (Option Nat))
  | invalidate (volid start : BitVec 64) (count : BitVec 32)
  | invalidateByType (type : BitVec 8) (volid start : BitVec 64) (count : BitVec 32)
      (condition : Option (Data → Bool))

inductive CacheAnswer where
  | returned (ret : Int)
  | found (rret : Int) (basket : List (Option Nat))
  deriving DecidableEq, Repr

namespace RadixModule

def init : RadixModule Data := ⟨.empty, .init, .init, []⟩

def cacheOf (state : RadixModule Data) (v : RadixVolume) : RadixCache Data :=
  ⟨state.leaves, state.slab, v⟩

def withCache (state : RadixModule Data) (volid place : Nat) (cache : RadixCache Data) :
    RadixModule Data :=
  { state with
    leaves := cache.leaves
    slab := cache.slab
    volidTable := state.volidTable.store volid place cache.v }

/-- An operation on the volume that `volume_find` finds, or the answer without one. -/
def operate (state : RadixModule Data) (volid : Nat) (absent : CacheAnswer)
    (operation : RadixCache Data → Option (CacheAnswer × RadixCache Data)) :
    Option (CacheAnswer × RadixModule Data) :=
  match state.volidTable.volumeFind volid with
  | none => some (absent, state)
  | some (place, v) =>
      (operation (state.cacheOf v)).map fun done => (done.1, state.withCache volid place done.2)

/-- `volume_create`. -/
def volumeCreate (volid : Nat) (cacheSize : BitVec 32) (granted : Bool)
    (state : RadixModule Data) : CacheAnswer × RadixModule Data :=
  if granted then
    (.returned 0, { state with
      volidTable := state.volidTable.volumeRegister (.init volid cacheSize) })
  else (.returned noMemory, state)

/-- `kick_meta_cache`. -/
def kickMetaCache (volid : Nat) (count : BitVec 32) (condition : Option (Data → Bool))
    (state : RadixModule Data) : Option (CacheAnswer × RadixModule Data) :=
  state.operate volid (.returned 0) fun cache =>
    (cache.kickMetaCache count condition).map fun cache => (.returned 0, cache)

/-- `volume_clear_all`. -/
def volumeClearAll (volid : Nat) (state : RadixModule Data) :
    Option (CacheAnswer × RadixModule Data) :=
  (state.kickMetaCache volid (-1) none).map fun kicked =>
    (.returned 0, { kicked.2 with volidTable := kicked.2.volidTable.volumeRemoveById volid })

/-- `cache_update`. -/
def cacheUpdate (volid start : Nat) (count : BitVec 32) (items : RadixItems Data)
    (state : RadixModule Data) : Option (CacheAnswer × RadixModule Data) :=
  state.operate volid (.returned (-1)) fun cache =>
    (cache.cacheUpdate start count items).map fun result => (.returned result.1, result.2)

/-- `cache_find`; the references in the basket are held from now on. -/
def cacheFind (volid start count : Nat) (state : RadixModule Data) :
    Option (CacheAnswer × RadixModule Data) :=
  match state.volidTable.volumeFind volid with
  | none => some (.found (-1) [], state)
  | some (place, v) =>
      ((state.cacheOf v).cacheFind start count).map fun found =>
        (.found found.1 found.2.1, { state.withCache volid place found.2.2 with
          outstanding := found.2.1.reduceOption ++ state.outstanding })

/-- `cache_put`; the references in the basket are not held any longer. -/
def cachePut (volid : Nat) (basket : List (Option Nat)) (state : RadixModule Data) :
    Option (CacheAnswer × RadixModule Data) :=
  let outstanding := state.outstanding.diff basket.reduceOption
  match state.volidTable.volumeFind volid with
  | none => some (.returned (-1), { state with outstanding })
  | some _ =>
      (DmsBlkdev.cachePut basket state.leaves).map fun leaves =>
        (.returned 0, { state with leaves, outstanding })

/-- `cache_invalidate`. -/
def cacheInvalidate (volid start : Nat) (count : BitVec 32) (state : RadixModule Data) :
    Option (CacheAnswer × RadixModule Data) :=
  state.operate volid (.returned 0) fun cache =>
    (cache.cacheInvalidate start count.toInt.toNat 0).map fun cache => (.returned 0, cache)

/-- `cache_invalidate_by_type`; a condition that is `NULL` is a bug. -/
def cacheInvalidateByType (type : BitVec 8) (volid start : Nat) (count : BitVec 32)
    (condition : Option (Data → Bool)) (state : RadixModule Data) :
    Option (CacheAnswer × RadixModule Data) :=
  if type = 2 then state.kickMetaCache volid (-1) none
  else if type = 3 then
    condition.bind fun holds => state.kickMetaCache volid (-1) (some holds)
  else if type = 1 then state.cacheInvalidate volid start count
  else some (.returned 0, state)

def step (state : RadixModule Data) : RadixModuleEvent Data →
    Option (CacheAnswer × RadixModule Data)
  | .createVolumeCache volid cacheSize granted =>
      some (state.volumeCreate volid.toNat cacheSize granted)
  | .releaseVolumeCache volid => state.volumeClearAll volid.toNat
  | .update volid start count items => state.cacheUpdate volid.toNat start.toNat count items
  | .find volid start count => state.cacheFind volid.toNat start.toNat count
  | .put volid basket => state.cachePut volid.toNat basket
  | .invalidate volid start count => state.cacheInvalidate volid.toNat start.toNat count
  | .invalidateByType type volid start count condition =>
      state.cacheInvalidateByType type volid.toNat start.toNat count condition

/-- The loop of `volume_remove_all` over the volumes still to be removed. -/
def removeLoop : List RadixVolume → RadixModule Data → Option (RadixModule Data)
  | [], state => some state
  | v :: rest, state =>
      ((state.cacheOf v).kickMetaCache (-1) none).bind fun cache =>
        removeLoop rest { state with leaves := cache.leaves, slab := cache.slab }

/-- `volume_remove_all`. -/
def volumeRemoveAll (state : RadixModule Data) : Option (RadixModule Data) :=
  removeLoop state.volidTable.volumes { state with volidTable := .init }

/-- A find that uses the node of a root that has none. -/
def UsesHollow (state : RadixModule Data) : RadixModuleEvent Data → Prop
  | .find volid start count =>
      match state.volidTable.volumeFind volid.toNat with
      | none => False
      | some (_, v) => LooksHollow start.toNat count (state.slab, v.root)
  | _ => False

/-- References are put back that are held, while there is a volume; no leaf has as many of them as
it can count; and a condition is given where one is wanted. -/
def Proper (state : RadixModule Data) : RadixModuleEvent Data → Prop
  | .put volid basket => (state.volidTable.volumeFind volid.toNat).isSome ∧
      basket.reduceOption.Subperm state.outstanding
  | .find _ _ _ => ∀ addr ∈ state.outstanding, state.outstanding.count addr + 1 < 2 ^ 31
  | .invalidateByType type _ _ _ condition => type = 3 → condition.isSome
  | _ => True

instance (state : RadixModule Data) : DecidablePred state.UsesHollow
  | .find volid start count =>
      match found : state.volidTable.volumeFind volid.toNat with
      | none => .isFalse fun hollow => by simp [UsesHollow, found] at hollow
      | some (_, v) =>
          decidable_of_iff (LooksHollow start.toNat count (state.slab, v.root))
            (by rw [UsesHollow, found])
  | .createVolumeCache .. => .isFalse not_false
  | .releaseVolumeCache _ => .isFalse not_false
  | .update .. => .isFalse not_false
  | .put .. => .isFalse not_false
  | .invalidate .. => .isFalse not_false
  | .invalidateByType .. => .isFalse not_false

instance (state : RadixModule Data) : DecidablePred state.Proper
  | .put _ _ => inferInstanceAs (Decidable (_ ∧ _))
  | .find _ _ _ => inferInstanceAs (Decidable (∀ addr ∈ state.outstanding, _))
  | .invalidateByType type _ _ _ condition =>
      inferInstanceAs (Decidable (type = 3 → condition.isSome))
  | .createVolumeCache .. => .isTrue trivial
  | .releaseVolumeCache _ => .isTrue trivial
  | .update .. => .isTrue trivial
  | .invalidate .. => .isTrue trivial

end RadixModule

section Model

def CacheEvent.answer (cache : VolumeCache Data) : CacheEvent Data → CacheAnswer
  | .update start count items =>
      .returned (((cacheUpdate start.toNat count items cache).map Prod.fst).getD 0)
  | .find start count =>
      match cacheFind start.toNat count cache with
      | none => .returned 0
      | some found => .found found.1 found.2.1
  | _ => .returned 0

def CacheEvent.absentAnswer : CacheEvent Data → CacheAnswer
  | .update .. => .returned (-1)
  | .find .. => .found (-1) []
  | .put _ => .returned (-1)
  | _ => .returned 0

def CacheModule.answer (state : CacheModule Data) : CacheModuleEvent Data → CacheAnswer
  | .createVolumeCache _ _ granted => .returned (if granted then 0 else noMemory)
  | .releaseVolumeCache _ => .returned 0
  | .operate volid event =>
      match volumeFind volid state.volumes with
      | none => event.absentAnswer
      | some (_, v) => event.answer (state.leaves, v)

def CacheModule.observe (state : CacheModule Data) (event : CacheModuleEvent Data) :
    Option (CacheAnswer × CacheModule Data) :=
  (state.step event).map fun next => (state.answer event, next)

end Model

end DmsBlkdev
