import DmsBlkdev.Cache.RadixTree
import DmsBlkdev.Cache.Representation

/-!
# The cache of a volume over its radix tree

The operations of the cache as they stand, with a radix tree for the items of
a volume.  They delete what they take out of the list from the tree as well,
and an insertion that the tree refuses ends an update.
-/

namespace DmsBlkdev

variable {Data : Type}

/-- `struct volume`; the tree and the list hold the numbers of leaves. -/
structure RadixVolume where
  volid : Nat
  cacheNum : BitVec 32
  cacheSize : BitVec 32
  root : RadixTreeRoot
  lruList : List Nat

namespace RadixVolume

/-- A volume that `volume_create` has filled in. -/
def init (volid : Nat) (cacheSize : BitVec 32) : RadixVolume := ⟨volid, 0, cacheSize, ⟨0, 0⟩, []⟩

def withMap (v : RadixVolume) (map : Lib.OrderedMap Nat Nat) : Volume :=
  ⟨v.volid, v.cacheNum, v.cacheSize, map, v.lruList⟩

def shell (v : RadixVolume) : Volume := v.withMap .empty

end RadixVolume

structure RadixCache (Data : Type) where
  leaves : Leaves Data
  slab : RadixTreeSlab
  v : RadixVolume

/-- The pointer to a leaf, which is not `NULL`. -/
def leafPointer (addr : Nat) : Nat := addr + 1

def leafOf (pointer : Nat) : Nat := pointer - 1

/-- The items of an update, which allocations of leaves succeed, and the answers of the slab, by
the number of the round. -/
structure RadixItems (Data : Type) where
  basket : Nat → Data
  leafGranted : Nat → Bool
  nodeGrants : Nat → List (Option Nat)

namespace RadixCache

def tree (cache : RadixCache Data) : RadixTree := (cache.slab, cache.v.root)

def withTree (cache : RadixCache Data) (tree : RadixTree) : RadixCache Data :=
  { cache with slab := tree.1, v := { cache.v with root := tree.2 } }

def withShell (cache : RadixCache Data) (shell : VolumeCache Data) : RadixCache Data :=
  { cache with
    leaves := shell.1
    v := { cache.v with cacheNum := shell.2.cacheNum, lruList := shell.2.lruList } }

def retire (cache : RadixCache Data) (addr : Nat) : Option (RadixCache Data) :=
  (cache.leaves.retire addr).map fun leaves => cache.withShell (leaves, cache.v.shell.unlink addr)

/-- `cache_find`. -/
def cacheFind (start count : Nat) (cache : RadixCache Data) :
    Option (Int × List (Option Nat) × RadixCache Data) :=
  (radixTreeGangLookup start count cache.tree).bind fun results =>
    let basket := results.map (fun pointer => some (leafOf pointer)) ++
      List.replicate (count - results.length) none
    if 0 < results.length then
      (cacheFindLoop start results.length (blockKey start count) 0 basket
        (cache.leaves, cache.v.shell)).map fun found =>
          (found.1, found.2.1, cache.withShell found.2.2)
    else some (0, basket, cache)

/-- One round of `cache_invalidate`. -/
def invalidateKey (key : Nat) (cache : RadixCache Data) : Option (RadixCache Data) :=
  (radixTreeDelete key cache.tree).bind fun deleted =>
    let cache := cache.withTree deleted.2
    if deleted.1 = 0 then some cache else cache.retire (leafOf deleted.1)

/-- The loop of `cache_invalidate`, with `i` as the next offset. -/
def cacheInvalidate (start : Nat) : Nat → Nat → RadixCache Data → Option (RadixCache Data)
  | 0, _, cache => some cache
  | rounds + 1, i, cache =>
      (invalidateKey (blockKey start i) cache).bind fun cache =>
        cacheInvalidate start rounds (i + 1) cache

/-- The loop of `__kick_meta_cache` over the leaves still to be looked at, with `nr` kicked. -/
def kickLoop (count : BitVec 32) (total : BitVec 32) (condition : Option (Data → Bool)) :
    List Nat → BitVec 32 → RadixCache Data → Option (RadixCache Data)
  | [], _, cache => some cache
  | addr :: rest, nr, cache =>
      (cache.leaves.leaf addr).bind fun leaf =>
        if spares condition leaf.data then kickLoop count total condition rest nr cache
        else
          (radixTreeDelete leaf.blkid cache.tree).bind fun deleted =>
            ((cache.withTree deleted.2).retire addr).bind fun cache =>
              if count ≠ -1 then
                if total ≤ nr + 1 then some cache
                else kickLoop count total condition rest (nr + 1) cache
              else kickLoop count total condition rest nr cache

/-- `__kick_meta_cache`. -/
def kickMetaCache (count : BitVec 32) (condition : Option (Data → Bool))
    (cache : RadixCache Data) : Option (RadixCache Data) :=
  kickLoop count (kickTotal count cache.v.shell) condition cache.v.lruList.reverse 0 cache

/-- `list_add` and `atomic_inc`, for a new leaf. -/
def link (key : Nat) (data : Data) (cache : RadixCache Data) : RadixCache Data :=
  { cache with
    leaves := cache.leaves.alloc ⟨data, key, 0⟩
    v := { cache.v with
      lruList := cache.leaves.next :: cache.v.lruList, cacheNum := cache.v.cacheNum + 1 } }

/-- One insertion of `cache_update`, with the return value of `radix_tree_insert`; a leaf that the
tree has no place for is freed again. -/
def insertLeaf (key : Nat) (data : Data) (grants : List (Option Nat)) (cache : RadixCache Data) :
    Option (Int × RadixCache Data) :=
  (radixTreeInsert key (leafPointer cache.leaves.next) grants cache.tree).bind fun inserted =>
    let (ret, replaced, tree) := inserted
    if ret < 0 then some (ret, cache.withTree tree)
    else
      let cache := (cache.withTree tree).link key data
      if replaced = 0 then some (ret, cache)
      else (cache.retire (leafOf replaced)).map fun cache => (ret, cache)

/-- The insertions of `cache_update`, with `i` as the next offset and `ret` as the code of the
insertion before. -/
def updateLoop (start : Nat) (items : RadixItems Data) :
    Nat → Nat → Int → RadixCache Data → Option (Int × RadixCache Data)
  | 0, _, _, cache => some (0, cache)
  | rounds + 1, i, ret, cache =>
      if items.leafGranted i = false then some (ret, cache)
      else
        (insertLeaf (blockKey start i) (items.basket i) (items.nodeGrants i) cache).bind
          fun inserted =>
            if inserted.1 < 0 then some inserted
            else updateLoop start items rounds (i + 1) inserted.1 inserted.2

/-- `cache_update`. -/
def cacheUpdate (start : Nat) (count : BitVec 32) (items : RadixItems Data)
    (cache : RadixCache Data) : Option (Int × RadixCache Data) :=
  let i := surplus cache.v.shell count
  (if 0 < i.toInt then kickMetaCache i none cache else some cache).bind fun cache =>
    updateLoop start items count.toInt.toNat 0 noMemory cache

end RadixCache

end DmsBlkdev
