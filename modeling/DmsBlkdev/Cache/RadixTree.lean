import DmsBlkdev.Common
import Mathlib.Data.Fin.Basic
import Mathlib.Logic.Function.Basic

/-!
# The radix tree of the cache

The nodes of the trees are objects of one slab, and the slots of a node point
to the nodes below it or, on the lowest level, to the items.  An object that
is freed keeps its contents until the slab hands it out again.  To use an
object that is not allocated, to free one twice, or to index past the table of
maximal keys or past the path of a deletion is a fault.
-/

namespace DmsBlkdev

/-- `RADIX_TREE_MAP_SHIFT` of the kernel build. -/
def radixTreeMapShift : Nat := 6

/-- `RADIX_TREE_MAP_SIZE`. -/
abbrev radixTreeMapSize : Nat := 2 ^ 6

instance : NeZero radixTreeMapSize := ⟨by decide⟩

/-- `RADIX_TREE_INDEX_BITS`. -/
def radixTreeIndexBits : Nat := 64

/-- `RADIX_TREE_MAX_PATH`. -/
def radixTreeMaxPath : Nat := radixTreeIndexBits / radixTreeMapShift + 2

/-- `struct radix_tree_node`; a pointer is a number, with 0 for `NULL`. -/
structure RadixTreeNode where
  count : BitVec 32
  slots : Fin radixTreeMapSize → Nat
  deriving DecidableEq

/-- What `radix_tree_node_ctor` makes of a new object. -/
def zeroedNode : RadixTreeNode := ⟨0, fun _ => 0⟩

/-- The objects of the slab, those allocated and those freed, and `node_count`; the objects from
`next` on have not been handed out yet. -/
structure RadixTreeSlab where
  objects : Nat → RadixTreeNode
  live : List Nat
  free : List Nat
  next : Nat
  nodeCount : BitVec 32

namespace RadixTreeSlab

def init : RadixTreeSlab := ⟨fun _ => zeroedNode, [], [], 1, 0⟩

def node (slab : RadixTreeSlab) (addr : Nat) : Option RadixTreeNode :=
  if addr ∈ slab.live then some (slab.objects addr) else none

def store (slab : RadixTreeSlab) (addr : Nat) (node : RadixTreeNode) : Option RadixTreeSlab :=
  if addr ∈ slab.live then some { slab with objects := Function.update slab.objects addr node }
  else none

/-- `radix_tree_node_alloc`; an allocation that is granted takes one of the objects freed before,
or a new one where there is no object of that number. -/
def nodeAlloc (slab : RadixTreeSlab) (grant : Option Nat) : Nat × RadixTreeSlab :=
  match grant with
  | none => (0, { slab with nodeCount := slab.nodeCount + 1 })
  | some choice =>
      match slab.free[choice]? with
      | some addr =>
          (addr, { slab with
            live := addr :: slab.live
            free := slab.free.erase addr
            nodeCount := slab.nodeCount + 1 })
      | none =>
          (slab.next, { slab with
            objects := Function.update slab.objects slab.next zeroedNode
            live := slab.next :: slab.live
            next := slab.next + 1
            nodeCount := slab.nodeCount + 1 })

/-- `radix_tree_node_free`. -/
def nodeFree (slab : RadixTreeSlab) (addr : Nat) : Option RadixTreeSlab :=
  if addr ∈ slab.live then
    some { slab with
      live := slab.live.erase addr
      free := addr :: slab.free
      nodeCount := slab.nodeCount - 1 }
  else none

end RadixTreeSlab

/-- `struct radix_tree_root`. -/
structure RadixTreeRoot where
  height : Nat
  rnode : Nat
  deriving DecidableEq, Repr

abbrev RadixTree := RadixTreeSlab × RadixTreeRoot

/-- A pointer to a pointer: to `root->rnode` if the node is `NULL`, else to a slot. -/
abbrev RadixTreeSlot := Nat × Fin radixTreeMapSize

/-- `(index >> shift) & RADIX_TREE_MAP_MASK`. -/
def offsetOf (index shift : Nat) : Fin radixTreeMapSize := Fin.ofNat radixTreeMapSize (index >>> shift)

def shiftOf (levels : Nat) : Nat := levels * radixTreeMapShift

section Maxindex

/-- `__maxindex`. -/
def maxindexOf (height : Nat) : Nat :=
  let tmp := height * radixTreeMapShift
  if radixTreeIndexBits ≤ tmp then 2 ^ 64 - 1
  else (2 ^ 64 - 1) >>> (radixTreeIndexBits - tmp - 1) >>> 1

/-- `height_to_maxindex`, as `radix_tree_init_maxindex` fills it in. -/
def heightToMaxindex : List Nat := (List.range radixTreeMaxPath).map maxindexOf

/-- `radix_tree_maxindex`. -/
def radixTreeMaxindex (height : Nat) : Option Nat := heightToMaxindex[height]?

end Maxindex

section Extend

/-- The first loop of `radix_tree_extend`, over what is left of the table. -/
def extendedHeight (index : Nat) : List Nat → Nat → Option Nat
  | [], _ => none
  | maxindex :: rest, height =>
      if maxindex < index then extendedHeight index rest (height + 1) else some height

/-- The second loop of `radix_tree_extend`, with the answers of the slab that are left. -/
def extendLoop : Nat → List (Option Nat) → RadixTree → Option (Int × List (Option Nat) × RadixTree)
  | 0, grants, tree => some (0, grants, tree)
  | rounds + 1, grants, (slab, root) =>
      let (node, slab) := slab.nodeAlloc (grants.headD none)
      if node = 0 then some (-12, grants.tail, (slab, root))
      else
        (slab.node node).bind fun contents =>
          (slab.store node ⟨1, Function.update contents.slots 0 root.rnode⟩).bind fun slab =>
            extendLoop rounds grants.tail (slab, ⟨root.height + 1, node⟩)

/-- `radix_tree_extend`. -/
def radixTreeExtend (index : Nat) (grants : List (Option Nat)) (tree : RadixTree) :
    Option (Int × List (Option Nat) × RadixTree) :=
  let (slab, root) := tree
  (extendedHeight index (heightToMaxindex.drop (root.height + 1)) (root.height + 1)).bind
    fun height =>
      if root.rnode = 0 then some (0, grants, (slab, { root with height := height }))
      else extendLoop (height - root.height) grants tree

end Extend

section Insert

/-- A pointer is stored to a slot of a node or to the root; `added` says whether the node counts
one more. -/
def attach (slot : RadixTreeSlot) (added : Bool) (pointer : Nat) (tree : RadixTree) :
    Option RadixTree :=
  let (slab, root) := tree
  if slot.1 = 0 then some (slab, { root with rnode := pointer })
  else
    (slab.node slot.1).bind fun contents =>
      (slab.store slot.1 ⟨if added then contents.count + 1 else contents.count,
        Function.update contents.slots slot.2 pointer⟩).map fun slab => (slab, root)

/-- The loop of `radix_tree_insert` with the levels left: the place of the slot that it comes to
and the pointer there, or nothing for `-ENOMEM`. -/
def insertLoop (index : Nat) : Nat → RadixTreeSlot → Nat → List (Option Nat) → RadixTree →
    Option (Option (RadixTreeSlot × Nat) × RadixTree)
  | 0, place, slot, _, tree => some (some (place, slot), tree)
  | levels + 1, place, slot, grants, (slab, root) =>
      if slot = 0 then
        -- Have to add a child node.
        let (slot, slab) := slab.nodeAlloc (grants.headD none)
        if slot = 0 then some (none, (slab, root))
        else
          (attach place true slot (slab, root)).bind fun tree =>
            (tree.1.node slot).bind fun contents =>
              let offset := offsetOf index (shiftOf levels)
              insertLoop index levels (slot, offset) (contents.slots offset) grants.tail tree
      else
        (slab.node slot).bind fun contents =>
          let offset := offsetOf index (shiftOf levels)
          insertLoop index levels (slot, offset) (contents.slots offset) grants (slab, root)

/-- The end of `radix_tree_insert`: the item is stored in the slot that the loop has come to. -/
def insertItem (item : Nat) (reached : Option (RadixTreeSlot × Nat)) (tree : RadixTree) :
    Option (Int × Nat × RadixTree) :=
  match reached with
  | none => some (-12, 0, tree)
  | some (place, slot) => (attach place (slot = 0) item tree).map fun tree => (0, slot, tree)

/-- `radix_tree_insert`: the return value and what `*item_replaced` becomes, with 0 for a pointer
that is not stored to. -/
def radixTreeInsert (index item : Nat) (grants : List (Option Nat)) (tree : RadixTree) :
    Option (Int × Nat × RadixTree) :=
  (radixTreeMaxindex tree.2.height).bind fun maxindex =>
    (if maxindex < index then radixTreeExtend index grants tree
      else some (0, grants, tree)).bind fun extended =>
        let (error, grants, tree) := extended
        if error ≠ 0 then some (error, 0, tree)
        else
          (insertLoop index tree.2.height (0, 0) tree.2.rnode grants tree).bind fun reached =>
            insertItem item reached.1 reached.2

end Insert

section Lookup

/-- `*slot`. -/
def loadSlot (place : RadixTreeSlot) (tree : RadixTree) : Option Nat :=
  if place.1 = 0 then some tree.2.rnode
  else (tree.1.node place.1).map fun contents => contents.slots place.2

/-- The loop of `__lookup_slot`, with `NULL` as nothing. -/
def lookupSlotLoop (index : Nat) (tree : RadixTree) : Nat → RadixTreeSlot →
    Option (Option RadixTreeSlot)
  | 0, place => some (some place)
  | levels + 1, place =>
      (loadSlot place tree).bind fun slot =>
        if slot = 0 then some none
        else lookupSlotLoop index tree levels (slot, offsetOf index (shiftOf levels))

/-- `__lookup_slot`. -/
def lookupSlot (index : Nat) (tree : RadixTree) : Option (Option RadixTreeSlot) :=
  (radixTreeMaxindex tree.2.height).bind fun maxindex =>
    if maxindex < index then some none
    else if tree.2.height = 0 ∧ tree.2.rnode ≠ 0 then some (some (0, 0))
    else lookupSlotLoop index tree tree.2.height (0, 0)

/-- `slot != NULL ? *slot : NULL`. -/
def readSlot (tree : RadixTree) : Option RadixTreeSlot → Option Nat
  | none => some 0
  | some place => loadSlot place tree

/-- `radix_tree_lookup`. -/
def radixTreeLookup (index : Nat) (tree : RadixTree) : Option Nat :=
  (lookupSlot index tree).bind (readSlot tree)

end Lookup

section GangLookup

def slotsFrom (offset : Fin radixTreeMapSize) : List (Fin radixTreeMapSize) :=
  (List.finRange radixTreeMapSize).drop offset

/-- The loop over the slots of an inner node in `__lookup`: the slot that is not empty, or nothing
for `goto out`, and the index. -/
def skipEmpty (contents : RadixTreeNode) (shift : Nat) : List (Fin radixTreeMapSize) → Nat →
    Option (Fin radixTreeMapSize) × Nat
  | [], index => (none, index)
  | offset :: rest, index =>
      if contents.slots offset ≠ 0 then (some offset, index)
      else
        -- index &= ~((1ULL << shift) - 1); index += 1ULL << shift;
        let index := (index >>> shift <<< shift + 1 <<< shift) % 2 ^ 64
        if index = 0 then (none, index) else skipEmpty contents shift rest index

/-- The loop over the slots of a node of the lowest level in `__lookup`, with the results. -/
def grabItems (contents : RadixTreeNode) (maxItems : Nat) :
    List (Fin radixTreeMapSize) → Nat → List Nat → List Nat × Nat
  | [], index, results => (results, index)
  | offset :: rest, index, results =>
      let index := (index + 1) % 2 ^ 64
      if contents.slots offset ≠ 0 then
        let results := results ++ [contents.slots offset]
        if results.length = maxItems then (results, index)
        else grabItems contents maxItems rest index results
      else grabItems contents maxItems rest index results

/-- The levels of `__lookup` below a node: the results and `*next_index`. -/
def lookupLevels (slab : RadixTreeSlab) (maxItems : Nat) : Nat → Nat → Nat →
    Option (List Nat × Nat)
  | 0, slot, index =>
      (slab.node slot).map fun contents =>
        grabItems contents maxItems (slotsFrom (offsetOf index 0)) index []
  | levels + 1, slot, index =>
      (slab.node slot).bind fun contents =>
        let shift := shiftOf (levels + 1)
        match skipEmpty contents shift (slotsFrom (offsetOf index shift)) index with
        | (none, index) => some ([], index)
        | (some offset, index) => lookupLevels slab maxItems levels (contents.slots offset) index

/-- `__lookup`: the results and `*next_index`. -/
def lookupFrom (tree : RadixTree) (index maxItems : Nat) : Option (List Nat × Nat) :=
  match tree.2.height with
  | 0 => some (if tree.2.rnode ≠ 0 ∧ index = 0 then [tree.2.rnode] else [], index)
  | levels + 1 => lookupLevels tree.1 maxItems levels tree.2.rnode index

/-- The loop of `radix_tree_gang_lookup`, in at most that many rounds. -/
def gangLookupLoop (tree : RadixTree) (maxIndex maxItems : Nat) : Nat → Nat → List Nat →
    Option (List Nat)
  | 0, _, _ => none
  | rounds + 1, curIndex, results =>
      if maxItems ≤ results.length ∨ maxIndex < curIndex then some results
      else
        (lookupFrom tree curIndex (maxItems - results.length)).bind fun looked =>
          -- `looked.2` is the index of the next search.
          if looked.2 = 0 then some (results ++ looked.1)
          else gangLookupLoop tree maxIndex maxItems rounds looked.2 (results ++ looked.1)

/-- `radix_tree_gang_lookup`: the results; the index grows from round to round. -/
def radixTreeGangLookup (firstIndex maxItems : Nat) (tree : RadixTree) : Option (List Nat) :=
  (radixTreeMaxindex tree.2.height).bind fun maxIndex =>
    gangLookupLoop tree maxIndex maxItems (2 ^ 64 + 1) firstIndex []

end GangLookup

section Delete

/-- `radix_tree_shrink`, for a root with that height and that node. -/
def radixTreeShrink : Nat → Nat → RadixTreeSlab → Option RadixTree
  | 0, rnode, slab => some (slab, ⟨0, rnode⟩)
  | height + 1, rnode, slab =>
      (slab.node rnode).bind fun toFree =>
        if toFree.count = 1 ∧ toFree.slots 0 ≠ 0 then
          -- must only free zeroed nodes into the slab
          (slab.store rnode ⟨0, Function.update toFree.slots 0 0⟩).bind fun slab =>
            (slab.nodeFree rnode).bind fun slab => radixTreeShrink height (toFree.slots 0) slab
        else some (slab, ⟨height + 1, rnode⟩)

/-- The first loop of `radix_tree_delete`: what the slot of the index holds, and the path to it. -/
def deletePath (slab : RadixTreeSlab) (index : Nat) : Nat → Nat → List RadixTreeSlot →
    Option (Nat × List RadixTreeSlot)
  | 0, slot, path => some (slot, path)
  | levels + 1, slot, path =>
      if slot = 0 then some (0, path)
      else if radixTreeMaxPath ≤ path.length + 1 then none
      else
        (slab.node slot).bind fun contents =>
          let offset := offsetOf index (shiftOf levels)
          deletePath slab index levels (contents.slots offset) ((slot, offset) :: path)

/-- The second loop of `radix_tree_delete`: the node of the path that keeps entries, or 0. -/
def freePath : List RadixTreeSlot → RadixTreeSlab → Option (Nat × RadixTreeSlab)
  | [], slab => some (0, slab)
  | (node, offset) :: path, slab =>
      (slab.node node).bind fun contents =>
        let contents := ⟨contents.count - 1, Function.update contents.slots offset 0⟩
        (slab.store node contents).bind fun slab =>
          if contents.count ≠ 0 then some (node, slab)
          else (slab.nodeFree node).bind (freePath path)

/-- The end of `radix_tree_delete`: the node that keeps entries may be the root, or there is none. -/
def deleteEnd (item : Nat) (root : RadixTreeRoot) (kept : Nat) (slab : RadixTreeSlab) :
    Option (Nat × RadixTree) :=
  if kept = 0 then some (item, (slab, ⟨0, 0⟩))
  else if kept = root.rnode then
    (radixTreeShrink root.height root.rnode slab).map fun tree => (item, tree)
  else some (item, (slab, root))

/-- `radix_tree_delete`: the deleted item, or 0. -/
def radixTreeDelete (index : Nat) (tree : RadixTree) : Option (Nat × RadixTree) :=
  let (slab, root) := tree
  (radixTreeMaxindex root.height).bind fun maxindex =>
    if maxindex < index then some (0, tree)
    else if root.height = 0 ∧ root.rnode ≠ 0 then some (root.rnode, (slab, ⟨0, 0⟩))
    else
      (deletePath slab index root.height root.rnode []).bind fun reached =>
        if reached.1 = 0 then some (0, tree)
        else (freePath reached.2 slab).bind fun freed => deleteEnd reached.1 root freed.1 freed.2

end Delete

end DmsBlkdev
