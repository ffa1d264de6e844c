import DmsBlkdev.Cache.RadixDelete
import DmsBlkdev.Cache.RadixInsert
import DmsBlkdev.Cache.RadixLookup
import DmsBlkdev.Lib.Trace

/-!
# The trees of one slab

All volumes take their nodes from one slab.  An operation on one tree touches
no node of another, so that whatever the trees are called, and in whatever
order they are used, each node that is allocated stays in one tree.
-/

namespace DmsBlkdev

open Lib

variable {Id : Type}

structure RadixForest (Id : Type) where
  slab : RadixTreeSlab
  roots : Id → RadixTreeRoot

inductive RadixEvent (Id : Type) where
  | insert (id : Id) (index : BitVec 64) (item : { item : Nat // item ≠ 0 })
      (grants : List (Option Nat))
  | delete (id : Id) (index : BitVec 64)
  | lookup (id : Id) (index : BitVec 64)
  | gangLookup (id : Id) (firstIndex : BitVec 64) (maxItems : BitVec 32)

/-- What an operation returns: the return value and the item replaced, an item or 0, or the results. -/
inductive RadixAnswer where
  | inserted (ret : Int) (replaced : Nat)
  | item (item : Nat)
  | items (items : List Nat)
  deriving DecidableEq, Repr

namespace RadixForest

/-- No object has been handed out, and each root is as `INIT_RADIX_TREE` leaves it. -/
def init : RadixForest Id := ⟨.init, fun _ => ⟨0, 0⟩⟩

def tree (forest : RadixForest Id) (id : Id) : RadixTree := (forest.slab, forest.roots id)

def set [DecidableEq Id] (forest : RadixForest Id) (id : Id) (after : RadixTree) :
    RadixForest Id :=
  ⟨after.1, Function.update forest.roots id after.2⟩

/-- An event that uses the node of a root that has none. -/
def UsesHollow (forest : RadixForest Id) : RadixEvent Id → Prop
  | .gangLookup id firstIndex maxItems =>
      LooksHollow firstIndex.toNat maxItems.toNat (forest.tree id)
  | _ => False

instance (forest : RadixForest Id) : DecidablePred forest.UsesHollow
  | .insert .. => .isFalse not_false
  | .delete .. => .isFalse not_false
  | .lookup .. => .isFalse not_false
  | .gangLookup .. => inferInstanceAs (Decidable (LooksHollow _ _ _))

def step [DecidableEq Id] (forest : RadixForest Id) :
    RadixEvent Id → Option (RadixAnswer × RadixForest Id)
  | .insert id index item grants =>
      (radixTreeInsert index.toNat item grants (forest.tree id)).map fun inserted =>
        (.inserted inserted.1 inserted.2.1, forest.set id inserted.2.2)
  | .delete id index =>
      (radixTreeDelete index.toNat (forest.tree id)).map fun deleted =>
        (.item deleted.1, forest.set id deleted.2)
  | .lookup id index =>
      (radixTreeLookup index.toNat (forest.tree id)).map fun item => (.item item, forest)
  | .gangLookup id firstIndex maxItems =>
      (radixTreeGangLookup firstIndex.toNat maxItems.toNat (forest.tree id)).map fun items =>
        (.items items, forest)

def nodesBelow (slab : RadixTreeSlab) : Nat → Nat → List Nat
  | 0, _ => []
  | height + 1, target =>
      if target = 0 then []
      else target :: (List.finRange radixTreeMapSize).flatMap fun d =>
        nodesBelow slab height ((slab.objects target).slots d)

def nodesOf (forest : RadixForest Id) (id : Id) : List Nat :=
  nodesBelow forest.slab (forest.roots id).height (forest.roots id).rnode

end RadixForest

section Maps

/-- What the trees are for: a finite map for each, and the number of insertions refused. -/
structure RadixMaps (Id : Type) where
  maps : Id → OrderedMap Nat Nat
  refused : Nat

def RadixMaps.init : RadixMaps Id := ⟨fun _ => .empty, 0⟩

/-- The most nodes that one insertion needs: eleven that make an item at index 0 a tree of full
height, and ten on the way down beside it. -/
def mostNodes : Nat := 21

/-- What an event makes of the maps, and its answer.  An insertion is refused only where one of the
allocations is. -/
inductive MapStep [DecidableEq Id] : RadixMaps Id → RadixEvent Id → RadixAnswer → RadixMaps Id →
    Prop where
  | inserted (state : RadixMaps Id) (id : Id) (index : BitVec 64) (item : { item : Nat // item ≠ 0 })
      (grants : List (Option Nat)) :
      MapStep state (.insert id index item grants)
        (.inserted 0 (((state.maps id).lookup index.toNat).getD 0))
        ⟨Function.update state.maps id ((state.maps id).insert index.toNat item), state.refused⟩
  | refused (state : RadixMaps Id) (id : Id) (index : BitVec 64) (item : { item : Nat // item ≠ 0 })
      {grants : List (Option Nat)} (short : ¬ NodesGranted mostNodes grants) :
      MapStep state (.insert id index item grants) (.inserted (-12) 0)
        ⟨state.maps, state.refused + 1⟩
  | deleted (state : RadixMaps Id) (id : Id) (index : BitVec 64) :
      MapStep state (.delete id index) (.item (((state.maps id).lookup index.toNat).getD 0))
        ⟨Function.update state.maps id ((state.maps id).erase index.toNat), state.refused⟩
  | found (state : RadixMaps Id) (id : Id) (index : BitVec 64) :
      MapStep state (.lookup id index) (.item (((state.maps id).lookup index.toNat).getD 0)) state
  | gathered (state : RadixMaps Id) (id : Id) (firstIndex : BitVec 64) (maxItems : BitVec 32) :
      MapStep state (.gangLookup id firstIndex maxItems)
        (.items (((state.maps id).firstFrom firstIndex.toNat maxItems.toNat).map Prod.snd)) state

end Maps

section Planted

abbrev AnyDigits : Type := Σ height, RadixDigits height

def AnyDigits.Neat (tree : AnyDigits) : Prop := tree.2.Fruitful ∧ tree.2.Needed

theorem AnyDigits.neat_empty : AnyDigits.Neat ⟨0, .empty⟩ :=
  ⟨DigitTree.fruitful_empty, DigitTree.needed_zero _⟩

theorem AnyDigits.Neat.eq_empty {tree : AnyDigits} (neat : tree.Neat)
    (nothing : tree.2.toMap.entries = []) : tree = ⟨0, .empty⟩ := by
  obtain ⟨height, tree⟩ := tree
  have empty : tree = .empty := neat.1.eq_empty nothing
  subst empty
  cases height with
  | zero => rfl
  | succ height => exact neat.2.elim

theorem AnyDigits.Neat.not_hollow {tree : AnyDigits} (neat : tree.Neat) (empty : tree.2 = .empty)
    (high : tree.1 ≠ 0) : False := by
  have nothing : tree.2.toMap.entries = [] := by
    rw [empty, DigitTree.toMap_empty]
    rfl
  rw [neat.eq_empty nothing] at high
  exact high rfl

def besides (slab : RadixTreeSlab) {height : Nat} (tree : RadixDigits height) : List Nat :=
  slab.live.filter fun addr => addr ∉ tree.labels

/-- The slab holds all trees, and each object that is allocated is in one of them. -/
structure Planted (forest : RadixForest Id) (trees : Id → AnyDigits) : Prop where
  sound : forest.slab.Sound
  each : ∀ id, RadixRepresents (besides forest.slab (trees id).2) (forest.tree id) (trees id).2
  apart : ∀ id other addr, addr ∈ (trees id).2.labels → addr ∈ (trees other).2.labels → id = other
  owned : ∀ addr ∈ forest.slab.live, ∃ id, addr ∈ (trees id).2.labels

theorem perm_append_rest {all part : List Nat} (nodup : all.Nodup) (nodupPart : part.Nodup)
    (inside : ∀ addr ∈ part, addr ∈ all) :
    all.Perm (part ++ all.filter fun addr => addr ∉ part) := by
  refine (List.perm_ext_iff_of_nodup nodup ?_).mpr fun addr => ?_
  · refine List.nodup_append.mpr ⟨nodupPart, nodup.filter _, fun addr member other rest => ?_⟩
    rintro rfl
    exact of_decide_eq_true (List.mem_filter.mp rest).2 member
  · by_cases member : addr ∈ part
    · exact iff_of_true (inside addr member) (List.mem_append_left _ member)
    · simp [member]

variable {forest : RadixForest Id} {trees : Id → AnyDigits} {id : Id}

theorem mem_besides {slab : RadixTreeSlab} {height : Nat} {tree : RadixDigits height} {addr : Nat} :
    addr ∈ besides slab tree ↔ addr ∈ slab.live ∧ addr ∉ tree.labels := by
  rw [besides, List.mem_filter, decide_eq_true_iff]

theorem RadixRepresents.besides {others : List Nat} {radix : RadixTree} {height : Nat}
    {tree : RadixDigits height} (represents : RadixRepresents others radix tree) :
    RadixRepresents (besides radix.1 tree) radix tree := by
  refine ⟨represents.sound, ?_, represents.level, represents.rnode, represents.stored,
    represents.low, represents.bounded⟩
  exact perm_append_rest represents.sound.live_nodup represents.labels_nodup
    fun addr member => represents.live.mem_iff.mpr (List.mem_append_left _ member)

theorem Planted.labels_besides (planted : Planted forest trees) {other : Id}
    (different : other ≠ id) {addr : Nat} (member : addr ∈ (trees other).2.labels) :
    addr ∈ besides forest.slab (trees id).2 := by
  refine mem_besides.mpr ⟨(planted.each other).stored.labels_live addr member, fun inside => ?_⟩
  exact different (planted.apart other id addr member inside)

/-- An operation on one tree leaves a slab that holds all trees. -/
theorem Planted.replace [DecidableEq Id] (planted : Planted forest trees) {after : RadixTree}
    (treeAfter : AnyDigits)
    (represents : RadixRepresents (besides forest.slab (trees id).2) after treeAfter.2)
    (untouched : Untouched (besides forest.slab (trees id).2) (forest.tree id) after) :
    Planted (forest.set id after) (Function.update trees id treeAfter) := by
  have owner : ∀ other, other ≠ id → Function.update trees id treeAfter other = trees other :=
    fun other different => Function.update_of_ne different _ _
  have apart : ∀ other addr, other ≠ id → addr ∈ treeAfter.2.labels →
      addr ∉ (trees other).2.labels := fun other addr different member inside =>
    represents.apart (planted.labels_besides different inside) member
  refine ⟨represents.sound, fun other => ?_, fun first second addr one two => ?_,
    fun addr member => ?_⟩
  · by_cases same : other = id
    · subst same
      rw [Function.update_self]
      have here : (forest.set other after).tree other = after :=
        Prod.ext rfl (Function.update_self ..)
      rw [here]
      exact represents.besides
    · rw [owner other same]
      have before := planted.each other
      have root : ((forest.set id after).tree other).2 = forest.roots other :=
        Function.update_of_ne same _ _
      have stored : Stored after.1 (trees other).2 := before.stored.congr fun addr member =>
        untouched addr (planted.labels_besides same member)
      refine ⟨represents.sound, ?_, ?_, ?_, stored, before.low, before.bounded⟩
      · exact perm_append_rest represents.sound.live_nodup before.labels_nodup stored.labels_live
      · rw [root]
        exact before.level
      · rw [root]
        exact before.rnode
  · by_cases one' : first = id
    · by_cases two' : second = id
      · exact one'.trans two'.symm
      · subst one'
        rw [Function.update_self] at one
        rw [owner second two'] at two
        exact absurd two (apart second addr two' one)
    · rw [owner first one'] at one
      by_cases two' : second = id
      · subst two'
        rw [Function.update_self] at two
        exact absurd one (apart first addr one' two)
      · rw [owner second two'] at two
        exact planted.apart first second addr one two
  · rcases List.mem_append.mp (represents.live.mem_iff.mp member) with here | earlier
    · exact ⟨id, by rwa [Function.update_self]⟩
    · obtain ⟨live, outside⟩ := mem_besides.mp earlier
      obtain ⟨other, inside⟩ := planted.owned addr live
      have different : other ≠ id := by
        rintro rfl
        exact outside inside
      exact ⟨other, by rwa [owner other different]⟩

end Planted

section Simulation

/-- The insertions refused are counted as objects, and without any all trees are as low as their
entries allow. -/
structure ForestRefines (trees : Id → AnyDigits) (forest : RadixForest Id) (state : RadixMaps Id) :
    Prop where
  planted : Planted forest trees
  maps : ∀ id, (trees id).2.toMap = state.maps id
  counted : forest.slab.surplus = BitVec.ofNat 32 state.refused
  tidy : state.refused = 0 → ∀ id, (trees id).Neat

theorem nodesNeeded_le {index height : Nat} (small : index < 2 ^ 64) (tree : RadixDigits height)
    (low : height < radixTreeMaxPath) : nodesNeeded index tree ≤ mostNodes := by
  have high : heightFor index < 12 := heightFor_lt small
  have level : height < 12 := low
  have few := DigitTree.missing_le index tree
  unfold nodesNeeded mostNodes
  split_ifs <;> omega

theorem NodesGranted.mono {few many : Nat} {grants : List (Option Nat)}
    (granted : NodesGranted many grants)
    (less : few ≤ many) : NodesGranted few grants := by
  obtain ⟨rest, rfl⟩ := Nat.exists_eq_add_of_le less
  exact (nodesGranted_add.mp granted).1

theorem refines_init :
    ForestRefines (fun _ => ⟨0, .empty⟩) (RadixForest.init : RadixForest Id) .init := by
  refine ⟨⟨RadixTreeSlab.sound_init, fun id => ?_, fun _ _ _ member => absurd member List.not_mem_nil,
    fun _ member => absurd member List.not_mem_nil⟩,
    fun id => DigitTree.toMap_empty, BitVec.sub_self 0#32,
    fun _ id => AnyDigits.neat_empty⟩
  refine ⟨RadixTreeSlab.sound_init, List.Perm.refl _, rfl, rfl, trivial, by decide,
    fun key item member => ?_⟩
  rw [DigitTree.toMap_empty] at member
  cases member

variable [DecidableEq Id] {trees : Id → AnyDigits} {forest : RadixForest Id}
  {state : RadixMaps Id}

theorem ForestRefines.replace (refines : ForestRefines trees forest state) {id : Id}
    {after : RadixTree}
    (treeAfter : AnyDigits) {refused : Nat}
    (represents : RadixRepresents (besides forest.slab (trees id).2) after treeAfter.2)
    (untouched : Untouched (besides forest.slab (trees id).2) (forest.tree id) after)
    (counted : after.1.surplus = BitVec.ofNat 32 refused)
    (tidy : refused = 0 → state.refused = 0 ∧ treeAfter.Neat) :
    ForestRefines (Function.update trees id treeAfter) (forest.set id after)
      ⟨Function.update state.maps id treeAfter.2.toMap, refused⟩ := by
  have planted := refines.planted.replace treeAfter represents untouched
  refine ⟨planted, fun other => ?_, counted, fun none other => ?_⟩
  · by_cases same : other = id
    · subst same
      dsimp only
      rw [Function.update_self, Function.update_self]
    · dsimp only
      rw [Function.update_of_ne same, Function.update_of_ne same]
      exact refines.maps other
  · by_cases same : other = id
    · subst same
      rw [Function.update_self]
      exact (tidy none).2
    · rw [Function.update_of_ne same]
      exact refines.tidy (tidy none).1 other

/-- Every step either uses a hollow root, and faults, or is a step of the maps. -/
theorem radixForest_simulates : Trace.Simulates (@RadixForest.step Id _) RadixForest.UsesHollow
    MapStep fun forest state => ∃ trees, ForestRefines trees forest state where
  taken := by
    rintro forest ⟨maps, refused⟩ event ⟨trees, refines⟩ safe
    cases event with
    | insert id index item grants =>
        have represents := refines.planted.each id
        obtain ⟨heightAfter, treeAfter, ret, replaced, after, ran, holds, untouched, ends⟩ :=
          radixTreeInsert_spec represents index.isLt item.2 grants
        have same : (trees id).2.toMap = maps id := refines.maps id
        cases ends with
        | inserted granted map tidy counted =>
            have next := refines.replace ⟨_, treeAfter⟩ holds untouched
              (counted.trans refines.counted) fun zero =>
                ⟨zero, tidy (refines.tidy zero id).1 (refines.tidy zero id).2⟩
            rw [map, same] at next
            refine ⟨_, _, _, ?_, .inserted _ id index item grants, _, next⟩
            rw [RadixForest.step, ran, same]
            rfl
        | refused short map counted =>
            have more : after.1.surplus = BitVec.ofNat 32 (refused + 1) := by
              rw [counted, BitVec.ofNat_add]
              exact congrArg (· + 1) refines.counted
            have next := refines.replace ⟨_, treeAfter⟩ holds untouched more
              fun zero => absurd zero (Nat.succ_ne_zero refused)
            rw [map, same, Function.update_eq_self] at next
            have few := nodesNeeded_le index.isLt (trees id).2 represents.low
            refine ⟨_, _, _, ?_, .refused _ id index item fun granted => short (granted.mono few),
              _, next⟩
            rw [RadixForest.step, ran]
            rfl
    | delete id index =>
        obtain ⟨heightAfter, treeAfter, after, ran, holds, untouched, map, tidy, counted⟩ :=
          radixTreeDelete_spec (refines.planted.each id) index.isLt
        have same : (trees id).2.toMap = maps id := refines.maps id
        have next := refines.replace ⟨_, treeAfter⟩ holds untouched
          (counted.trans refines.counted) fun zero =>
            ⟨zero, tidy (refines.tidy zero id).1 (refines.tidy zero id).2⟩
        rw [map, same] at next
        refine ⟨_, _, _, ?_, .deleted _ id index, _, next⟩
        rw [RadixForest.step, ran, same]
        rfl
    | lookup id index =>
        have ran := radixTreeLookup_spec (refines.planted.each id) index.isLt
        have same : (trees id).2.toMap = maps id := refines.maps id
        refine ⟨_, _, _, ?_, .found _ id index, trees, refines⟩
        rw [RadixForest.step, ran, same]
        rfl
    | gangLookup id firstIndex maxItems =>
        have ran := radixTreeGangLookup_spec (refines.planted.each id) firstIndex.isLt
          maxItems.toNat
        have same : (trees id).2.toMap = maps id := refines.maps id
        have looks : ¬ LooksHollow firstIndex.toNat maxItems.toNat (forest.tree id) := safe
        refine ⟨_, _, _, ?_, .gathered _ id firstIndex maxItems, trees, refines⟩
        rw [if_neg looks] at ran
        rw [RadixForest.step, ran, same]
        rfl
  failing := by
    rintro forest state event ⟨trees, refines⟩ hollow
    cases event with
    | insert id index item grants => exact hollow.elim
    | delete id index => exact hollow.elim
    | lookup id index => exact hollow.elim
    | gangLookup id firstIndex maxItems =>
        have ran := radixTreeGangLookup_spec (refines.planted.each id) firstIndex.isLt
          maxItems.toNat
        have looks : LooksHollow firstIndex.toNat maxItems.toNat (forest.tree id) := hollow
        rw [if_pos looks] at ran
        rw [RadixForest.step, ran]
        rfl

end Simulation

end DmsBlkdev
