import DmsBlkdev.Cache.RadixTree
import DmsBlkdev.Lib.DigitTree
import Mathlib.Tactic.IntervalCases

/-!
# The slab, and a tree of digits in it

What an allocation, a store and a freeing do to the objects of the slab, and
when the objects hold a tree over the digits of the indices: the label of a
node is its address, and its contents are the number of its children and the
pointers to them.
-/

namespace DmsBlkdev

open Lib

namespace RadixTreeSlab

/-- No object is both allocated and free, and those that are free are all zero. -/
structure Sound (slab : RadixTreeSlab) : Prop where
  nodup : (slab.live ++ slab.free).Nodup
  handedOut : ∀ addr ∈ slab.live ++ slab.free, 0 < addr ∧ addr < slab.next
  next : 0 < slab.next
  zeroed : ∀ addr ∈ slab.free, slab.objects addr = zeroedNode

theorem sound_init : RadixTreeSlab.init.Sound :=
  ⟨List.nodup_nil, fun _ member => absurd member List.not_mem_nil, Nat.one_pos,
    fun _ member => absurd member List.not_mem_nil⟩

/-- What `node_count` counts beyond the objects that are allocated. -/
def surplus (slab : RadixTreeSlab) : BitVec 32 :=
  slab.nodeCount - BitVec.ofNat 32 slab.live.length

def put (slab : RadixTreeSlab) (addr : Nat) (node : RadixTreeNode) : RadixTreeSlab :=
  { slab with objects := Function.update slab.objects addr node }

def dropped (slab : RadixTreeSlab) (addr : Nat) : RadixTreeSlab :=
  { slab with
    live := slab.live.erase addr, free := addr :: slab.free, nodeCount := slab.nodeCount - 1 }

section Contents

variable {slab other : RadixTreeSlab} {addr rest : Nat} {contents : RadixTreeNode}

theorem node_eq_some :
    slab.node addr = some contents ↔ addr ∈ slab.live ∧ slab.objects addr = contents := by
  simp [node]

theorem node_eq_none (absent : addr ∉ slab.live) : slab.node addr = none := if_neg absent

theorem store_eq (member : addr ∈ slab.live) :
    slab.store addr contents = some (slab.put addr contents) := if_pos member

theorem nodeFree_eq (slab : RadixTreeSlab) (member : addr ∈ slab.live) :
    slab.nodeFree addr = some (slab.dropped addr) :=
  if_pos member

@[simp] theorem put_live : (slab.put addr contents).live = slab.live := rfl

@[simp] theorem put_surplus : (slab.put addr contents).surplus = slab.surplus := rfl

@[simp] theorem dropped_live : (slab.dropped addr).live = slab.live.erase addr := rfl

theorem node_put_self (member : addr ∈ slab.live) :
    (slab.put addr contents).node addr = some contents :=
  node_eq_some.mpr ⟨member, Function.update_self ..⟩

theorem node_put_of_ne (different : rest ≠ addr) :
    (slab.put addr contents).node rest = slab.node rest := by
  have same : (slab.put addr contents).objects rest = slab.objects rest :=
    Function.update_of_ne different _ _
  rw [node, node, same, put_live]

theorem node_dropped_of_ne (different : rest ≠ addr) :
    (slab.dropped addr).node rest = slab.node rest := by
  simp only [node, dropped_live, List.mem_erase_of_ne different]
  rfl

namespace Sound

theorem zero_notMem (sound : slab.Sound) : 0 ∉ slab.live := by
  intro member
  exact Nat.lt_irrefl 0 (sound.handedOut 0 (List.mem_append_left _ member)).1

theorem live_nodup (sound : slab.Sound) : slab.live.Nodup := (List.nodup_append.mp sound.nodup).1

theorem put (sound : slab.Sound) (member : addr ∈ slab.live) (contents : RadixTreeNode) :
    (slab.put addr contents).Sound where
  nodup := sound.nodup
  handedOut := sound.handedOut
  next := sound.next
  zeroed free member' := by
    have apart := (List.nodup_append.mp sound.nodup).2.2 addr member free member'
    exact (Function.update_of_ne (Ne.symm apart) _ _).trans (sound.zeroed free member')

theorem dropped (sound : slab.Sound) (zero : slab.node addr = some zeroedNode) :
    (slab.dropped addr).Sound := by
  obtain ⟨member, zeroed⟩ := node_eq_some.mp zero
  have moved : ((slab.dropped addr).live ++ (slab.dropped addr).free).Perm
      (slab.live ++ slab.free) := by
    refine List.perm_middle.trans ?_
    exact ((List.perm_cons_erase member).append_right slab.free).symm
  refine ⟨moved.nodup_iff.mpr sound.nodup, ?_, sound.next, ?_⟩
  · intro rest inside
    exact sound.handedOut rest (moved.mem_iff.mp inside)
  · intro rest inside
    rcases List.mem_cons.mp inside with rfl | earlier
    · exact zeroed
    · exact sound.zeroed rest earlier

end Sound

theorem surplus_dropped (slab : RadixTreeSlab) (member : addr ∈ slab.live) :
    (slab.dropped addr).surplus = slab.surplus := by
  have smaller : slab.live.length = (slab.live.erase addr).length + 1 :=
    (List.perm_cons_erase member).length_eq
  rw [surplus, surplus, smaller, BitVec.ofNat_add, dropped_live]
  show slab.nodeCount - 1 - _ = slab.nodeCount - (_ + 1)
  rw [BitVec.sub_sub, BitVec.add_comm]

end Contents

structure Allocated (slab after : RadixTreeSlab) (addr : Nat) : Prop where
  sound : after.Sound
  live : after.live = addr :: slab.live
  fresh : addr ∉ slab.live
  zeroed : after.node addr = some zeroedNode
  others : ∀ other, other ≠ addr → after.node other = slab.node other
  surplus : after.surplus = slab.surplus

theorem Allocated.ne_zero {slab after : RadixTreeSlab} {addr : Nat}
    (allocated : Allocated slab after addr) : addr ≠ 0 := by
  have member : addr ∈ after.live := allocated.live ▸ List.mem_cons_self
  exact Nat.pos_iff_ne_zero.mp (allocated.sound.handedOut addr (List.mem_append_left _ member)).1

theorem surplus_alloc (slab : RadixTreeSlab) {after : RadixTreeSlab} {addr : Nat}
    (live : after.live = addr :: slab.live) (counted : after.nodeCount = slab.nodeCount + 1) :
    after.surplus = slab.surplus := by
  rw [surplus, surplus, live, counted, List.length_cons, BitVec.ofNat_add]
  grind

theorem Sound.alloc {slab : RadixTreeSlab} (sound : slab.Sound) (choice : Nat) :
    ∃ addr after, slab.nodeAlloc (some choice) = (addr, after) ∧ Allocated slab after addr := by
  cases chosen : slab.free[choice]? with
  | some addr =>
      have free := List.mem_of_getElem? chosen
      have inside : addr ∈ slab.live ++ slab.free := List.mem_append_right _ free
      have fresh : addr ∉ slab.live := fun member =>
        (List.nodup_append.mp sound.nodup).2.2 addr member addr free rfl
      let after : RadixTreeSlab := { slab with
        live := addr :: slab.live, free := slab.free.erase addr, nodeCount := slab.nodeCount + 1 }
      have moved : (after.live ++ after.free).Perm (slab.live ++ slab.free) :=
        List.perm_middle.symm.trans ((List.perm_cons_erase free).symm.append_left slab.live)
      refine ⟨addr, after, by simp [nodeAlloc, chosen, after], ?_, rfl, fresh, ?_, ?_, ?_⟩
      · refine ⟨moved.nodup_iff.mpr sound.nodup, ?_, sound.next, ?_⟩
        · exact fun rest member => sound.handedOut rest (moved.mem_iff.mp member)
        · exact fun rest member => sound.zeroed rest (List.mem_of_mem_erase member)
      · exact node_eq_some.mpr ⟨List.mem_cons_self, sound.zeroed addr free⟩
      · intro other different
        simp [node, after, List.mem_cons, different]
      · exact surplus_alloc slab rfl rfl
  | none =>
      let after : RadixTreeSlab := { slab with
        objects := Function.update slab.objects slab.next zeroedNode
        live := slab.next :: slab.live, next := slab.next + 1, nodeCount := slab.nodeCount + 1 }
      have new : slab.next ∉ slab.live ++ slab.free := fun member =>
        Nat.lt_irrefl _ (sound.handedOut _ member).2
      refine ⟨slab.next, after, by simp [nodeAlloc, chosen, after], ?_, rfl, ?_, ?_, ?_, ?_⟩
      · refine ⟨List.nodup_cons.mpr ⟨new, sound.nodup⟩, ?_, Nat.succ_pos _, ?_⟩
        · intro rest member
          rcases List.mem_cons.mp member with rfl | earlier
          · exact ⟨sound.next, Nat.lt_succ_self _⟩
          · have old := sound.handedOut rest earlier
            exact ⟨old.1, Nat.lt_succ_of_lt old.2⟩
        · intro rest member
          have different : rest ≠ slab.next := by
            rintro rfl
            exact new (List.mem_append_right _ member)
          exact (Function.update_of_ne different _ _).trans (sound.zeroed rest member)
      · exact fun member => new (List.mem_append_left _ member)
      · exact node_eq_some.mpr ⟨List.mem_cons_self, Function.update_self ..⟩
      · intro other different
        simp only [node, after, List.mem_cons, different, false_or, Function.update_of_ne different]
      · exact surplus_alloc slab rfl rfl

/-- An allocation that is refused counts as one more object all the same. -/
theorem nodeAlloc_refused (slab : RadixTreeSlab) : ∃ after, slab.nodeAlloc none = (0, after) ∧
    after.live = slab.live ∧ after.node = slab.node ∧ (slab.Sound → after.Sound) ∧
    after.surplus = slab.surplus + 1 := by
  refine ⟨_, rfl, rfl, rfl, fun sound => ⟨sound.nodup, sound.handedOut, sound.next, sound.zeroed⟩, ?_⟩
  rw [surplus, surplus]
  grind

end RadixTreeSlab

/-- A tree over the digits of the indices, with the addresses of its nodes. -/
abbrev RadixDigits (height : Nat) : Type := DigitTree radixTreeMapSize Nat Nat height

def pointer : {height : Nat} → RadixDigits height → Nat
  | _, .empty => 0
  | _, .leaf item => item
  | _, .node label _ => label

def contentsOf {height : Nat} (children : Fin radixTreeMapSize → RadixDigits height) :
    RadixTreeNode :=
  ⟨BitVec.ofNat 32 (DigitTree.occupied children), fun d => pointer (children d)⟩

theorem offsetOf_shiftOf (index levels : Nat) :
    offsetOf index (shiftOf levels) = digit radixTreeMapSize levels index := by
  rw [offsetOf, shiftOf, digit, Nat.shiftRight_eq_div_pow, Nat.mul_comm, Nat.pow_mul]
  rfl

def Stored (slab : RadixTreeSlab) : {height : Nat} → RadixDigits height → Prop
  | _, .empty => True
  | _, .leaf item => item ≠ 0
  | _, .node label children =>
      slab.node label = some (contentsOf children) ∧ ∀ d, Stored slab (children d)

section Stored

variable {slab other : RadixTreeSlab} {height : Nat} {tree : RadixDigits height}
  {children : Fin radixTreeMapSize → RadixDigits height} {label item : Nat}
  {d : Fin radixTreeMapSize}

@[simp] theorem pointer_empty : pointer (.empty : RadixDigits height) = 0 := by
  cases height <;> rfl

@[simp] theorem pointer_leaf : pointer (.leaf item : RadixDigits 0) = item := rfl

@[simp] theorem pointer_node : pointer (.node label children) = label := rfl

theorem stored_empty (slab : RadixTreeSlab) : Stored slab (.empty : RadixDigits height) := by
  cases height <;> trivial

/-- A tree stays where it is as long as its own objects do. -/
theorem Stored.congr (stored : Stored slab tree)
    (same : ∀ addr ∈ tree.labels, other.node addr = slab.node addr) : Stored other tree := by
  induction tree with
  | empty => trivial
  | leaf item => exact stored
  | node label children inductionHypothesis =>
      refine ⟨(same label List.mem_cons_self).trans stored.1, fun d => ?_⟩
      refine inductionHypothesis d (stored.2 d) fun addr member => ?_
      apply same
      apply List.mem_cons_of_mem
      exact List.mem_flatMap.mpr ⟨d, List.mem_finRange d, member⟩

theorem Stored.labels_live (stored : Stored slab tree) : ∀ addr ∈ tree.labels, addr ∈ slab.live := by
  induction tree with
  | empty => exact fun addr member => nomatch member
  | leaf item => exact fun addr member => nomatch member
  | node label children inductionHypothesis =>
      intro addr member
      rcases List.mem_cons.mp member with rfl | below
      · exact (RadixTreeSlab.node_eq_some.mp stored.1).1
      · obtain ⟨d, -, member⟩ := List.mem_flatMap.mp below
        exact inductionHypothesis d (stored.2 d) addr member

theorem Stored.pointer_eq_zero (stored : Stored slab tree) (sound : slab.Sound) :
    pointer tree = 0 ↔ tree = .empty := by
  cases tree with
  | empty => exact iff_of_true pointer_empty rfl
  | leaf item =>
      refine iff_of_false stored ?_
      intro equal
      cases equal
  | node label children =>
      refine iff_of_false ?_ ?_
      · rintro rfl
        exact sound.zero_notMem (RadixTreeSlab.node_eq_some.mp stored.1).1
      · intro equal
        cases equal

theorem Stored.item_ne_zero (stored : Stored slab tree) {index : Nat}
    (found : tree.find index = some item) : item ≠ 0 := by
  induction tree with
  | empty =>
      rw [DigitTree.find_empty] at found
      cases found
  | leaf kept =>
      obtain rfl := Option.some.inj found
      exact stored
  | node label children inductionHypothesis =>
      exact inductionHypothesis _ (stored.2 _) found

theorem Stored.isEmpty_iff (stored : Stored slab tree) (sound : slab.Sound) :
    tree.isEmpty = true ↔ pointer tree = 0 :=
  DigitTree.isEmpty_iff.trans (stored.pointer_eq_zero sound).symm

/-- The `count` of a node with children tells whether it has any, or just one. -/
theorem count_eq_iff (children : Fin radixTreeMapSize → RadixDigits height) {number : Nat}
    (small : number ≤ radixTreeMapSize) :
    (contentsOf children).count = BitVec.ofNat 32 number ↔ DigitTree.occupied children = number := by
  have bound := DigitTree.occupied_le children
  have size : radixTreeMapSize < 2 ^ 32 := by decide
  constructor
  · intro same
    have values := congrArg BitVec.toNat same
    rwa [contentsOf, BitVec.toNat_ofNat, BitVec.toNat_ofNat, Nat.mod_eq_of_lt (by omega),
      Nat.mod_eq_of_lt (by omega)] at values
  · intro same
    rw [contentsOf, same]

theorem contentsOf_update (below : RadixDigits height) :
    contentsOf (Function.update children d below) =
      ⟨BitVec.ofNat 32 ((if below.isEmpty then 0 else 1) + DigitTree.occupiedBeside d children),
        Function.update (contentsOf children).slots d (pointer below)⟩ := by
  rw [contentsOf, DigitTree.occupied_update, RadixTreeNode.mk.injEq]
  refine ⟨rfl, ?_⟩
  funext other
  by_cases same : other = d
  · subst same
    rw [Function.update_self, Function.update_self]
  · rw [Function.update_of_ne same, Function.update_of_ne same]
    rfl

/-- Objects that are not below one child do not change what is below the others. -/
theorem Stored.update {below : RadixDigits height} {after : RadixTreeSlab}
    (stored : Stored slab (.node label children))
    (here : after.node label = some (contentsOf (Function.update children d below)))
    (child : Stored after below)
    (same : ∀ addr ∈ DigitTree.labelsBeside d children, after.node addr = slab.node addr) :
    Stored after (.node label (Function.update children d below)) := by
  refine ⟨here, fun other => ?_⟩
  by_cases own : other = d
  · subst own
    rw [Function.update_self]
    exact child
  · rw [Function.update_of_ne own]
    refine (stored.2 other).congr fun addr inside => same addr ?_
    have listed := (List.nodup_finRange _).mem_erase_iff.mpr ⟨own, List.mem_finRange other⟩
    exact List.mem_flatMap.mpr ⟨other, listed, inside⟩

theorem contentsOf_empty :
    contentsOf (fun _ => (.empty : RadixDigits height)) = zeroedNode := by
  have nothing : DigitTree.occupied (fun _ : Fin radixTreeMapSize =>
      (.empty : RadixDigits height)) = 0 := DigitTree.occupied_eq_zero.mpr fun _ => rfl
  simp only [contentsOf, nothing, pointer_empty]
  rfl

theorem contentsOf_of_bare (bare : DigitTree.occupied children = 0) :
    contentsOf children = zeroedNode := by
  have nothing : children = fun _ => .empty := funext (DigitTree.occupied_eq_zero.mp bare)
  rw [nothing, contentsOf_empty]

end Stored

/-- A root with its slab holds a tree, beside the objects of other trees. -/
structure RadixRepresents (others : List Nat) (radix : RadixTree) {height : Nat}
    (tree : RadixDigits height) : Prop where
  sound : radix.1.Sound
  live : radix.1.live.Perm (tree.labels ++ others)
  level : radix.2.height = height
  rnode : radix.2.rnode = pointer tree
  stored : Stored radix.1 tree
  low : height < radixTreeMaxPath
  bounded : ∀ key item, (key, item) ∈ tree.toMap.entries → key < 2 ^ 64

def Untouched (others : List Nat) (before after : RadixTree) : Prop :=
  ∀ addr ∈ others, after.1.node addr = before.1.node addr

theorem Untouched.trans {others : List Nat} {first second third : RadixTree}
    (one : Untouched others first second) (two : Untouched others second third) :
    Untouched others first third :=
  fun addr member => (two addr member).trans (one addr member)

section RadixRepresents

variable {others : List Nat} {radix : RadixTree} {height : Nat} {tree : RadixDigits height}

theorem RadixRepresents.labels_nodup (represents : RadixRepresents others radix tree) :
    tree.labels.Nodup :=
  (List.nodup_append.mp (represents.live.nodup_iff.mp represents.sound.live_nodup)).1

theorem RadixRepresents.apart (represents : RadixRepresents others radix tree) {addr : Nat}
    (member : addr ∈ others) : addr ∉ tree.labels := fun inside =>
  (List.nodup_append.mp (represents.live.nodup_iff.mp represents.sound.live_nodup)).2.2
    addr inside addr member rfl

theorem RadixRepresents.others_live (represents : RadixRepresents others radix tree) {addr : Nat}
    (member : addr ∈ others) : addr ∈ radix.1.live :=
  represents.live.mem_iff.mpr (List.mem_append_right _ member)

theorem RadixRepresents.zero_notMem (represents : RadixRepresents others radix tree) :
    0 ∉ tree.labels :=
  fun inside => represents.sound.zero_notMem
    (represents.live.mem_iff.mpr (List.mem_append_left _ inside))

theorem radixTreeMaxindex_eq (low : height < radixTreeMaxPath) :
    radixTreeMaxindex height = some (min (radixTreeMapSize ^ height) (2 ^ 64) - 1) := by
  have bound : height < 12 := low
  interval_cases height <;> rfl

theorem fits_iff {index : Nat} (small : index < 2 ^ 64) :
    min (radixTreeMapSize ^ height) (2 ^ 64) - 1 < index ↔ ¬ index < radixTreeMapSize ^ height := by
  have positive : 0 < radixTreeMapSize ^ height := Nat.pow_pos (Nat.two_pow_pos 6)
  omega

theorem capacity : 2 ^ 64 ≤ radixTreeMapSize ^ 11 := by decide

end RadixRepresents

end DmsBlkdev
