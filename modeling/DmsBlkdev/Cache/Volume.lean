import DmsBlkdev.Cache.Leaves
import DmsBlkdev.Lib.OrderedMap

/-!
# The cache of one volume

The leaves of a volume are found by block id in a tree, and stand in a list
with the most recently used one in front.  The operations of the cache keep
the two together, and with them the counter of the entries.
-/

namespace DmsBlkdev

open Lib

variable {Data : Type}

/-- `struct volume`; the tree and the list hold the numbers of leaves. -/
structure Volume where
  volid : Nat
  cacheNum : BitVec 32
  cacheSize : BitVec 32
  tree : OrderedMap Nat Nat
  lruList : List Nat

abbrev VolumeCache (Data : Type) := Leaves Data × Volume

/-- `-ENOMEM`. -/
def noMemory : Int := -12

/-- The key `start + i`, in 64 bits. -/
def blockKey (start i : Nat) : Nat := (start + i) % 2 ^ 64

namespace Volume

/-- A volume that `volume_create` has filled in. -/
def init (volid : Nat) (cacheSize : BitVec 32) : Volume := ⟨volid, 0, cacheSize, .empty, []⟩

/-- `list_del` and `list_add`: the leaf becomes the most recently used one. -/
def touch (v : Volume) (addr : Nat) : Volume := { v with lruList := addr :: v.lruList.erase addr }

/-- `list_del` and `atomic_dec`, once the leaf is out of the tree. -/
def unlink (v : Volume) (addr : Nat) : Volume :=
  { v with lruList := v.lruList.erase addr, cacheNum := v.cacheNum - 1 }

end Volume

section Find

/-- The loop of `cache_find`, from the last slot of the lookup down to the first; `retOff` is the
key that was taken last. -/
def cacheFindLoop (start : Nat) : Nat → Nat → Int → List (Option Nat) → VolumeCache Data →
    Option (Int × List (Option Nat) × VolumeCache Data)
  | 0, _, rret, basket, cache => some (rret, basket, cache)
  | i + 1, retOff, rret, basket, (leaves, v) =>
      (basket[i]?.join).bind fun addr =>
        (leaves.leaf addr).bind fun leaf =>
          let j := leaf.blkid
          if start ≤ j ∧ j < retOff then
            let basket := (basket.set i none).set (j - start) (some addr)
            (leaves.takeRef addr).bind fun leaves =>
              cacheFindLoop start i j (rret + 1) basket (leaves, v.touch addr)
          else cacheFindLoop start i retOff rret (basket.set i none) (leaves, v)

/-- `cache_find` for a basket of `count` slots: how many were found, and the basket. -/
def cacheFind (start count : Nat) (cache : VolumeCache Data) :
    Option (Int × List (Option Nat) × VolumeCache Data) :=
  let looked := (cache.2.tree.firstFrom start count).map Prod.snd
  let basket := looked.map some ++ List.replicate (count - looked.length) none
  if 0 < looked.length then cacheFindLoop start looked.length (blockKey start count) 0 basket cache
  else some (0, basket, cache)

end Find

/-- The loop of `cache_put`. -/
def cachePut : List (Option Nat) → Leaves Data → Option (Leaves Data)
  | [], leaves => some leaves
  | none :: rest, leaves => cachePut rest leaves
  | some addr :: rest, leaves => (leaves.putRef addr).bind fun leaves => cachePut rest leaves

/-- One round of `cache_invalidate`. -/
def invalidateKey (key : Nat) (cache : VolumeCache Data) : Option (VolumeCache Data) :=
  match cache.2.tree.lookup key with
  | none => some cache
  | some addr =>
      (cache.1.retire addr).map fun leaves =>
        (leaves, { cache.2 with tree := cache.2.tree.erase key }.unlink addr)

/-- The loop of `cache_invalidate`, with `i` as the next offset. -/
def cacheInvalidate (start : Nat) : Nat → Nat → VolumeCache Data → Option (VolumeCache Data)
  | 0, _, cache => some cache
  | rounds + 1, i, cache =>
      (invalidateKey (blockKey start i) cache).bind fun cache =>
        cacheInvalidate start rounds (i + 1) cache

section Kick

/-- `check_condition && check_condition(leaf->data, NULL)`. -/
def spares (condition : Option (Data → Bool)) (data : Data) : Bool :=
  condition.any fun holds => holds data

/-- The loop of `__kick_meta_cache` over the leaves still to be looked at, with `nr` kicked. -/
def kickLoop (count : BitVec 32) (total : BitVec 32) (condition : Option (Data → Bool)) :
    List Nat → BitVec 32 → VolumeCache Data → Option (VolumeCache Data)
  | [], _, cache => some cache
  | addr :: rest, nr, (leaves, v) =>
      (leaves.leaf addr).bind fun leaf =>
        if spares condition leaf.data then kickLoop count total condition rest nr (leaves, v)
        else
          (leaves.retire addr).bind fun leaves =>
            let v := { v with tree := v.tree.erase leaf.blkid }.unlink addr
            if count ≠ -1 then
              if total ≤ nr + 1 then some (leaves, v)
              else kickLoop count total condition rest (nr + 1) (leaves, v)
            else kickLoop count total condition rest nr (leaves, v)

/-- `total` of `__kick_meta_cache`. -/
def kickTotal (count : BitVec 32) (v : Volume) : BitVec 32 :=
  if count = -1 ∨ v.cacheNum.toInt < count.toInt then v.cacheNum else count

/-- `__kick_meta_cache`, from the least recently used leaf on; -1 kicks all. -/
def kickMetaCache (count : BitVec 32) (condition : Option (Data → Bool))
    (cache : VolumeCache Data) : Option (VolumeCache Data) :=
  kickLoop count (kickTotal count cache.2) condition cache.2.lruList.reverse 0 cache

end Kick

section Update

/-- The items of an update, and which allocations of leaves and of nodes of the tree succeed, by
the number of the round. -/
structure UpdateItems (Data : Type) where
  basket : Nat → Data
  leafGranted : Nat → Bool
  nodeGranted : Nat → Bool

/-- One insertion of `cache_update`: the leaf that it replaces is unlinked and retired. -/
def insertLeaf (key : Nat) (data : Data) (cache : VolumeCache Data) : Option (VolumeCache Data) :=
  let (leaves, v) := cache
  let addr := leaves.next
  let leaves := leaves.alloc ⟨data, key, 0⟩
  let old := v.tree.lookup key
  let v := { v with
    tree := v.tree.insert key addr, lruList := addr :: v.lruList, cacheNum := v.cacheNum + 1 }
  match old with
  | none => some (leaves, v)
  | some old => (leaves.retire old).map fun leaves => (leaves, v.unlink old)

/-- The insertions of `cache_update`, with `i` as the next offset and `ret` as the code of the
insertion before. -/
def updateLoop (start : Nat) (items : UpdateItems Data) :
    Nat → Nat → Int → VolumeCache Data → Option (Int × VolumeCache Data)
  | 0, _, _, cache => some (0, cache)
  | rounds + 1, i, ret, cache =>
      if items.leafGranted i = false then some (ret, cache)
      else if items.nodeGranted i = false then some (noMemory, cache)
      else
        (insertLeaf (blockKey start i) (items.basket i) cache).bind fun cache =>
          updateLoop start items rounds (i + 1) 0 cache

/-- How many entries `cache_update` wants to kick. -/
def surplus (v : Volume) (count : BitVec 32) : BitVec 32 :=
  let i := v.cacheNum + count - v.cacheSize
  if v.cacheSize.toInt < i.toInt then v.cacheSize else i

/-- `cache_update`. -/
def cacheUpdate (start : Nat) (count : BitVec 32) (items : UpdateItems Data)
    (cache : VolumeCache Data) : Option (Int × VolumeCache Data) :=
  let i := surplus cache.2 count
  (if 0 < i.toInt then kickMetaCache i none cache else some cache).bind fun cache =>
    updateLoop start items count.toInt.toNat 0 noMemory cache

end Update

end DmsBlkdev
