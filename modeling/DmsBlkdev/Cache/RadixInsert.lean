import DmsBlkdev.Cache.RadixStored
import Mathlib.Data.Nat.Log

/-!
# An insertion into the radix tree

The loop goes down from slot to slot, adds the nodes that are missing, and
stores the item in the last slot.  A node that has been added stays when a
later allocation is refused, so that an insertion that fails leaves a tree
with the same items.
-/

namespace DmsBlkdev

open Lib

def NodesGranted : Nat → List (Option Nat) → Prop
  | 0, _ => True
  | count + 1, grants => grants.headD none ≠ none ∧ NodesGranted count grants.tail

def bump {height : Nat} (tree planted : RadixDigits height) : BitVec 32 :=
  if tree.isEmpty && ! planted.isEmpty then 1 else 0

/-- A tree at a slot has changed into another, on objects that have been added to the slab. -/
structure Planting (place : RadixTreeSlot) {height : Nat} (tree planted : RadixDigits height)
    (added : List Nat) (before after : RadixTree) : Prop where
  sound : after.1.Sound
  live : after.1.live.Perm (added ++ before.1.live)
  stored : Stored after.1 planted
  root : after.2 = if place.1 = 0 then { before.2 with rnode := pointer planted } else before.2
  holder : ∀ contents, before.1.node place.1 = some contents →
    after.1.node place.1 = some ⟨contents.count + bump tree planted,
      Function.update contents.slots place.2 (pointer planted)⟩
  others : ∀ addr ∈ before.1.live, addr ≠ place.1 → addr ∉ tree.labels →
    after.1.node addr = before.1.node addr

inductive InsertOutcome (missing : Nat) (grants : List (Option Nat)) (found : Option Nat)
    (added : List Nat) (before after : BitVec 32) : Int → Nat → Prop where
  | inserted (granted : NodesGranted missing grants) (enough : added.length = missing)
      (counted : after = before) : InsertOutcome missing grants found added before after 0 (found.getD 0)
  | refused (refused : ¬ NodesGranted missing grants) (short : added.length < missing)
      (counted : after = before + 1) : InsertOutcome missing grants found added before after (-12) 0

section Attach

variable {slab : RadixTreeSlab} {root : RadixTreeRoot} {place : RadixTreeSlot} {old : Nat}

theorem loadSlot_root (tree : RadixTree) (offset : Fin radixTreeMapSize) :
    loadSlot (0, offset) tree = some tree.2.rnode := rfl

theorem loadSlot_of_ne_zero (held : place.1 ≠ 0) {tree : RadixTree} :
    loadSlot place tree = (tree.1.node place.1).map fun contents => contents.slots place.2 :=
  if_neg held

theorem attach_spec (sound : slab.Sound) (loaded : loadSlot place (slab, root) = some old)
    (added : Bool) (target : Nat) :
    ∃ after : RadixTree, attach place added target (slab, root) = some after ∧ after.1.Sound ∧
      after.1.live = slab.live ∧ after.1.surplus = slab.surplus ∧
      loadSlot place after = some target ∧
      (after.2 = if place.1 = 0 then { root with rnode := target } else root) ∧
      (∀ contents, slab.node place.1 = some contents →
        after.1.node place.1 = some ⟨contents.count + (if added then 1 else 0),
          Function.update contents.slots place.2 target⟩) ∧
      ∀ addr, addr ≠ place.1 → after.1.node addr = slab.node addr := by
  by_cases held : place.1 = 0
  · refine ⟨(slab, { root with rnode := target }), if_pos held, sound, rfl, rfl, if_pos held,
      (if_pos held).symm, ?_, fun _ _ => rfl⟩
    intro contents here
    rw [held] at here
    exact absurd (RadixTreeSlab.node_eq_some.mp here).1 sound.zero_notMem
  · rw [loadSlot_of_ne_zero held] at loaded
    obtain ⟨contents, here, -⟩ := Option.map_eq_some_iff.mp loaded
    have member := (RadixTreeSlab.node_eq_some.mp here).1
    let stored : RadixTreeNode := ⟨if added then contents.count + 1 else contents.count,
      Function.update contents.slots place.2 target⟩
    have filled : (slab.put place.1 stored).node place.1 = some stored :=
      RadixTreeSlab.node_put_self member
    refine ⟨(slab.put place.1 stored, root), ?_, sound.put member stored, rfl, rfl, ?_,
      (if_neg held).symm, ?_, fun _ different => RadixTreeSlab.node_put_of_ne different⟩
    · simp only [attach, if_neg held, here, Option.bind_some]
      rw [RadixTreeSlab.store_eq member]
      rfl
    · rw [loadSlot_of_ne_zero held]
      refine (congrArg (Option.map _) filled).trans ?_
      exact congrArg some (Function.update_self ..)
    · intro others same
      obtain rfl := Option.some.inj (here.symm.trans same)
      rw [filled]
      cases added <;> simp [stored]

end Attach

theorem count_add_bump {height : Nat} {children : Fin radixTreeMapSize → RadixDigits height}
    {d : Fin radixTreeMapSize} {below : RadixDigits height}
    (kept : (children d).isEmpty = false → below.isEmpty = false) :
    (contentsOf children).count + bump (children d) below =
      BitVec.ofNat 32 ((if below.isEmpty then 0 else 1) + DigitTree.occupiedBeside d children) := by
  rw [contentsOf, DigitTree.occupied_eq d, bump, BitVec.ofNat_add, BitVec.ofNat_add]
  cases first : (children d).isEmpty <;> cases second : below.isEmpty <;> grind

section Loop

variable {index item : Nat}

def InsertSpec (index item levels : Nat) : Prop :=
  ∀ (place : RadixTreeSlot) (tree : RadixDigits levels) (grants : List (Option Nat))
    (before : RadixTree), before.1.Sound → tree.labels.Nodup → Stored before.1 tree →
    loadSlot place before = some (pointer tree) → place.1 ∉ tree.labels →
    ∃ added ret replaced after,
      ((insertLoop index levels place (pointer tree) grants before).bind fun reached =>
        insertItem item reached.1 reached.2) = some (ret, replaced, after) ∧
      Planting place tree (tree.plant index item added) added before after ∧
      InsertOutcome (tree.missing index) grants (tree.find index) added before.1.surplus
        after.1.surplus ret replaced

theorem insertSpec_zero (present : item ≠ 0) : InsertSpec index item 0 := by
  intro place tree grants before sound nodup stored loaded apart
  obtain ⟨after, attached, soundAfter, live, surplus, -, root, holder, others⟩ :=
    attach_spec sound loaded (decide (pointer tree = 0)) item
  refine ⟨[], 0, pointer tree, after, ?_, ?_, ?_⟩
  · simp only [insertLoop, Option.bind_some, insertItem]
    rw [attached, Option.map_some]
  · have planted : tree.plant index item [] = .leaf item := by cases tree <;> rfl
    rw [planted]
    refine ⟨soundAfter, live ▸ List.Perm.refl _, present, root, ?_, fun addr _ different _ =>
      others addr different⟩
    intro contents here
    rw [holder contents here, pointer_leaf, bump]
    have empty := stored.isEmpty_iff sound
    cases emptiness : tree.isEmpty <;> simp_all
  · rw [DigitTree.missing_zero]
    have found : pointer tree = (tree.find index).getD 0 := by cases tree <;> rfl
    rw [found]
    exact .inserted trivial rfl surplus

theorem insertSpec_node {levels : Nat} (below : InsertSpec index item levels)
    (place : RadixTreeSlot) (label : Nat)
    (children : Fin radixTreeMapSize → RadixDigits levels) (grants : List (Option Nat))
    (before : RadixTree) (sound : before.1.Sound)
    (nodup : (DigitTree.node label children).labels.Nodup)
    (stored : Stored before.1 (.node label children))
    (loaded : loadSlot place before = some label)
    (apart : place.1 ∉ (DigitTree.node label children).labels) :
    ∃ added ret replaced after,
      ((insertLoop index levels (label, digit radixTreeMapSize levels index)
          (pointer (children (digit radixTreeMapSize levels index))) grants before).bind
        fun reached => insertItem item reached.1 reached.2) = some (ret, replaced, after) ∧
      Planting place (.node label children) (DigitTree.plant index item (.node label children) added)
        added before after ∧
      InsertOutcome ((children (digit radixTreeMapSize levels index)).missing index) grants
        ((children (digit radixTreeMapSize levels index)).find index) added before.1.surplus
        after.1.surplus ret replaced := by
  generalize chosen : digit radixTreeMapSize levels index = d
  have member := (RadixTreeSlab.node_eq_some.mp stored.1).1
  have labelNonzero : label ≠ 0 := fun zero => sound.zero_notMem (zero ▸ member)
  have split := (DigitTree.labels_node_perm label d children)
  obtain ⟨labelApart, nodupBelow⟩ := List.nodup_cons.mp (split.nodup_iff.mp nodup)
  obtain ⟨nodupChild, -, disjoint⟩ := List.nodup_append.mp nodupBelow
  have loadedBelow : loadSlot (label, d) before = some (pointer (children d)) := by
    rw [loadSlot_of_ne_zero labelNonzero, stored.1]
    rfl
  obtain ⟨added, ret, replaced, after, ran, planting, outcome⟩ :=
    below (label, d) (children d) grants before sound nodupChild (stored.2 d) loadedBelow
      fun inside => labelApart (List.mem_append_left _ inside)
  have plantedEq : DigitTree.plant index item (.node label children) added =
      .node label (Function.update children d ((children d).plant index item added)) := by
    rw [DigitTree.plant, chosen]
  refine ⟨added, ret, replaced, after, ran, ?_, outcome⟩
  rw [plantedEq]
  refine ⟨planting.sound, planting.live, stored.update ?_ planting.stored ?_, ?_, ?_, ?_⟩
  · rw [planting.holder _ stored.1, contentsOf_update, count_add_bump DigitTree.isEmpty_plant]
  · intro addr beside
    have inside := List.mem_cons_of_mem label (List.mem_append_right (children d).labels beside)
    apply planting.others addr (stored.labels_live addr (split.mem_iff.mpr inside))
    · rintro rfl
      exact labelApart (List.mem_append_right _ beside)
    · exact fun child => disjoint addr child addr beside rfl
  · rw [planting.root, if_neg labelNonzero]
    split
    · next rooted =>
        rw [loadSlot, if_pos rooted] at loaded
        rw [← Option.some.inj loaded]
        rfl
    · rfl
  · intro contents here
    have inside := (RadixTreeSlab.node_eq_some.mp here).1
    have held : place.1 ≠ 0 := fun zero => sound.zero_notMem (zero ▸ inside)
    have apartChild : place.1 ∉ (children d).labels := fun member =>
      apart (split.mem_iff.mpr (List.mem_cons_of_mem _ (List.mem_append_left _ member)))
    have apartLabel : place.1 ≠ label := fun same => apart (same ▸ List.mem_cons_self)
    rw [loadSlot_of_ne_zero held, here] at loaded
    have slot : contents.slots place.2 = label := Option.some.inj loaded
    rw [planting.others place.1 inside apartLabel apartChild, here, pointer_node, ← slot,
      Function.update_eq_self]
    simp [bump]
  · intro addr inside different outside
    apply planting.others addr inside
    · exact fun same => outside (same ▸ List.mem_cons_self)
    · exact fun member =>
        outside (split.mem_iff.mpr (List.mem_cons_of_mem _ (List.mem_append_left _ member)))

theorem insertSpec_refused (index item levels : Nat) (place : RadixTreeSlot)
    (grants : List (Option Nat)) (before : RadixTree) (sound : before.1.Sound)
    (loaded : loadSlot place before = some 0)
    (refused : grants.headD none = none) :
    ∃ after,
      ((insertLoop index (levels + 1) place 0 grants before).bind fun reached =>
        insertItem item reached.1 reached.2) = some (-12, 0, after) ∧
      Planting place (.empty : RadixDigits (levels + 1)) .empty [] before after ∧
      after.1.surplus = before.1.surplus + 1 := by
  obtain ⟨slab, root⟩ := before
  obtain ⟨after, denied, live, node, keeps, surplus⟩ := slab.nodeAlloc_refused
  refine ⟨(after, root), ?_, ?_, surplus⟩
  · simp only [insertLoop, if_true, refused, denied, Option.bind_some, insertItem]
  · refine ⟨keeps sound, live ▸ List.Perm.refl _, stored_empty _, ?_, ?_, fun addr _ _ _ =>
      congrFun node addr⟩
    · split
      · next rooted =>
          rw [loadSlot, if_pos rooted] at loaded
          rw [pointer_empty, ← Option.some.inj loaded]
      · rfl
    · intro contents here
      have held : place.1 ≠ 0 := fun zero =>
        sound.zero_notMem (zero ▸ (RadixTreeSlab.node_eq_some.mp here).1)
      rw [loadSlot_of_ne_zero held, here] at loaded
      have slot : contents.slots place.2 = 0 := Option.some.inj loaded
      rw [pointer_empty, ← slot, Function.update_eq_self]
      show after.node place.1 = _
      rw [congrFun node, here]
      simp [bump]

theorem insertSpec_granted {levels : Nat} (below : InsertSpec index item levels)
    (place : RadixTreeSlot) (grants : List (Option Nat)) (before : RadixTree)
    (sound : before.1.Sound) (loaded : loadSlot place before = some 0) {choice : Nat}
    (granted : grants.headD none = some choice) :
    ∃ label added ret replaced after,
      ((insertLoop index (levels + 1) place 0 grants before).bind fun reached =>
        insertItem item reached.1 reached.2) = some (ret, replaced, after) ∧
      Planting place (.empty : RadixDigits (levels + 1))
        (DigitTree.plant index item .empty (label :: added)) (label :: added) before after ∧
      InsertOutcome levels grants.tail none added before.1.surplus after.1.surplus ret replaced := by
  obtain ⟨slab, root⟩ := before
  obtain ⟨label, slabNew, allocEq, allocated⟩ := RadixTreeSlab.Sound.alloc sound choice
  have labelNonzero := allocated.ne_zero
  have loadedNew : loadSlot place (slabNew, root) = some 0 := by
    by_cases held : place.1 = 0
    · rwa [loadSlot, if_pos held] at loaded ⊢
    · rw [loadSlot_of_ne_zero held] at loaded ⊢
      obtain ⟨contents, here, -⟩ := Option.map_eq_some_iff.mp loaded
      have inside := (RadixTreeSlab.node_eq_some.mp here).1
      have different : place.1 ≠ label := fun same => allocated.fresh (same ▸ inside)
      rw [allocated.others place.1 different]
      exact loaded
  obtain ⟨mid, attached, soundMid, liveMid, surplusMid, loadedMid, rootMid, holderMid, othersMid⟩ :=
    attach_spec allocated.sound loadedNew true label
  have placeApart : place.1 ≠ label := by
    by_cases held : place.1 = 0
    · exact fun same => labelNonzero (same.symm.trans held)
    · rw [loadSlot_of_ne_zero held] at loaded
      obtain ⟨contents, here, -⟩ := Option.map_eq_some_iff.mp loaded
      exact fun same => allocated.fresh (same ▸ (RadixTreeSlab.node_eq_some.mp here).1)
  have zeroed : mid.1.node label = some zeroedNode := by
    rw [othersMid label placeApart.symm]
    exact allocated.zeroed
  let children : Fin radixTreeMapSize → RadixDigits levels := fun _ => .empty
  have stored : Stored mid.1 (.node label children) := by
    refine ⟨?_, fun d => stored_empty _⟩
    rw [zeroed, contentsOf_empty]
  have labels : (DigitTree.node label children).labels = [label] := by
    simp [DigitTree.labels, children]
  obtain ⟨added, ret, replaced, after, ran, planting, outcome⟩ :=
    insertSpec_node below place label children grants.tail mid soundMid
      (labels ▸ List.nodup_singleton label) stored loadedMid
      (labels ▸ fun inside => placeApart (List.mem_singleton.mp inside))
  rw [DigitTree.missing_empty, DigitTree.find_empty, surplusMid, allocated.surplus] at outcome
  refine ⟨label, added, ret, replaced, after, ?_, ?_, outcome⟩
  · rw [← ran]
    simp only [insertLoop, if_true, granted, allocEq, if_neg labelNonzero, attached,
      Option.bind_some, zeroed, offsetOf_shiftOf, zeroedNode, children, pointer_empty]
  · have planted : DigitTree.plant index item (.node label children) added =
        DigitTree.plant index item (.empty : RadixDigits (levels + 1)) (label :: added) := rfl
    rw [planted] at planting
    refine ⟨planting.sound, ?_, planting.stored, ?_, ?_, ?_⟩
    · have live := planting.live
      rw [liveMid, allocated.live] at live
      exact live.trans List.perm_middle
    · rw [planting.root, rootMid]
      split <;> rfl
    · intro contents here
      have inside := (RadixTreeSlab.node_eq_some.mp here).1
      have kept : slabNew.node place.1 = some contents :=
        (allocated.others place.1 placeApart).trans here
      have filled := planting.holder _ (holderMid contents kept)
      rw [filled]
      simp [bump, DigitTree.plant]
    · intro addr inside different outside
      have old : addr ≠ label := fun same => allocated.fresh (same ▸ inside)
      rw [planting.others addr _ different _, othersMid addr different, allocated.others addr old]
      · rw [liveMid, allocated.live]
        exact List.mem_cons_of_mem _ inside
      · rw [labels]
        exact fun member => old (List.mem_singleton.mp member)

theorem insertSpec_succ {levels : Nat} (below : InsertSpec index item levels) :
    InsertSpec index item (levels + 1) := by
  intro place tree grants before sound nodup stored loaded apart
  cases tree with
  | empty =>
      rw [pointer_empty] at loaded ⊢
      cases head : grants.headD none with
      | none =>
          obtain ⟨after, ran, planting, counted⟩ :=
            insertSpec_refused index item levels place grants before sound loaded head
          refine ⟨[], -12, 0, after, ran, planting, .refused ?_ ?_ counted⟩
          · exact fun granted => granted.1 head
          · exact Nat.succ_pos levels
      | some choice =>
          obtain ⟨label, added, ret, replaced, after, ran, planting, outcome⟩ :=
            insertSpec_granted below place grants before sound loaded head
          refine ⟨label :: added, ret, replaced, after, ran, planting, ?_⟩
          have first : grants.headD none ≠ none := by
            rw [head]
            exact Option.some_ne_none choice
          cases outcome with
          | inserted granted enough counted =>
              exact .inserted ⟨first, granted⟩ (congrArg Nat.succ enough) counted
          | refused refused short counted =>
              exact .refused (fun granted => refused granted.2) (Nat.succ_lt_succ short) counted
  | node label children =>
      have member := (RadixTreeSlab.node_eq_some.mp stored.1).1
      have labelNonzero : label ≠ 0 := fun zero => sound.zero_notMem (zero ▸ member)
      obtain ⟨added, ret, replaced, after, ran, planting, outcome⟩ :=
        insertSpec_node below place label children grants before sound nodup stored loaded apart
      refine ⟨added, ret, replaced, after, ?_, planting, outcome⟩
      rw [← ran]
      obtain ⟨slab, root⟩ := before
      simp only [insertLoop, pointer_node, if_neg labelNonzero, stored.1, Option.bind_some,
        offsetOf_shiftOf]
      rfl

theorem insertSpec (present : item ≠ 0) (index levels : Nat) : InsertSpec index item levels := by
  induction levels with
  | zero => exact insertSpec_zero present
  | succ levels inductionHypothesis => exact insertSpec_succ inductionHypothesis

end Loop

section Extend

def heightFor (index : Nat) : Nat := Nat.log radixTreeMapSize index + 1

variable {others : List Nat} {radix : RadixTree} {height index : Nat} {tree : RadixDigits height}

theorem lt_heightFor (high : radixTreeMapSize ^ height ≤ index) : height < heightFor index := by
  apply Nat.lt_succ_of_le
  exact Nat.le_log_of_pow_le (by decide) high

theorem lt_pow_heightFor (index : Nat) : index < radixTreeMapSize ^ heightFor index :=
  Nat.lt_pow_succ_log_self (by decide) index

theorem pow_heightFor_le (present : index ≠ 0) :
    radixTreeMapSize ^ (heightFor index - 1) ≤ index := Nat.pow_log_le_self radixTreeMapSize present

theorem heightFor_lt (small : index < 2 ^ 64) : heightFor index < radixTreeMaxPath := by
  have below : Nat.log radixTreeMapSize index < 11 :=
    Nat.log_lt_of_lt_pow' (by decide) (Nat.lt_of_lt_of_le small capacity)
  exact Nat.succ_lt_succ below

theorem extendedHeight_eq (small : index < 2 ^ 64) {candidate : Nat} (positive : candidate ≠ 0)
    (reached : candidate ≤ heightFor index) :
    extendedHeight index (heightToMaxindex.drop candidate) candidate = some (heightFor index) := by
  obtain ⟨left, split⟩ := Nat.exists_eq_add_of_le reached
  induction left generalizing candidate with
  | zero =>
      have here : heightFor index = candidate := split
      have entry := radixTreeMaxindex_eq (here ▸ heightFor_lt small)
      obtain ⟨bound, value⟩ := List.getElem?_eq_some_iff.mp entry
      have fits : ¬ min (radixTreeMapSize ^ candidate) (2 ^ 64) - 1 < index := by
        rw [fits_iff small, not_not, ← here]
        exact lt_pow_heightFor index
      rw [List.drop_eq_getElem_cons bound, value, extendedHeight, if_neg fits, here]
  | succ left inductionHypothesis =>
      have later : candidate + 1 ≤ heightFor index := by omega
      have low : candidate < radixTreeMaxPath := Nat.lt_trans later (heightFor_lt small)
      obtain ⟨bound, value⟩ := List.getElem?_eq_some_iff.mp (radixTreeMaxindex_eq low)
      have beyond : min (radixTreeMapSize ^ candidate) (2 ^ 64) - 1 < index := by
        rw [fits_iff small]
        intro below
        have lower : heightFor index ≤ candidate := Nat.log_lt_of_lt_pow' positive below
        exact Nat.not_succ_le_self _ (Nat.le_trans later lower)
      rw [List.drop_eq_getElem_cons bound, value, extendedHeight, if_pos beyond]
      exact inductionHypothesis (Nat.succ_ne_zero candidate) later (by omega)

/-- A tree with one height more, on an object that has just been allocated. -/
theorem RadixRepresents.grow {slab mid : RadixTreeSlab} {root : RadixTreeRoot} {label : Nat}
    (represents : RadixRepresents others (slab, root) tree) (present : tree.isEmpty = false)
    (low : height + 1 < radixTreeMaxPath) (allocated : RadixTreeSlab.Allocated slab mid label) :
    ∃ after, mid.store label ⟨1, Function.update zeroedNode.slots 0 root.rnode⟩ = some after ∧
      RadixRepresents others (after, ⟨root.height + 1, label⟩) (tree.grow label) ∧
      Untouched others (slab, root) (after, ⟨root.height + 1, label⟩) ∧
      after.surplus = slab.surplus := by
  have member : label ∈ mid.live := allocated.live ▸ List.mem_cons_self
  have kept : ∀ addr ∈ slab.live,
      (mid.put label ⟨1, Function.update zeroedNode.slots 0 root.rnode⟩).node addr =
        slab.node addr := by
    intro addr inside
    have different : addr ≠ label := fun same => allocated.fresh (same ▸ inside)
    rw [RadixTreeSlab.node_put_of_ne different, allocated.others addr different]
  have contents : contentsOf (Function.update (fun _ => (.empty : RadixDigits height)) 0 tree) =
      ⟨1, Function.update zeroedNode.slots 0 root.rnode⟩ := by
    rw [contentsOf_update, ← DigitTree.occupied_update, DigitTree.occupied_grown, present,
      contentsOf_empty, represents.rnode]
    rfl
  refine ⟨_, RadixTreeSlab.store_eq member, ?_, ?_, allocated.surplus⟩
  · refine ⟨allocated.sound.put member _, ?_, congrArg Nat.succ represents.level, rfl, ⟨?_, ?_⟩, low,
      ?_⟩
    · rw [RadixTreeSlab.put_live, allocated.live]
      refine (represents.live.cons label).trans ?_
      exact (DigitTree.labels_grow_perm label tree).symm.append_right others
    · rw [contents]
      exact RadixTreeSlab.node_put_self member
    · intro d
      by_cases first : d = 0
      · subst first
        rw [Function.update_self]
        exact represents.stored.congr fun addr inside =>
          kept addr (represents.stored.labels_live addr inside)
      · rw [Function.update_of_ne first]
        exact stored_empty _
    · rw [DigitTree.toMap_grow]
      exact represents.bounded
  · exact fun addr inside => kept addr (represents.others_live inside)

/-- The second loop of the extension: the tree has as many heights more as nodes were granted, and
the same items. -/
theorem extendLoop_spec (represents : RadixRepresents others radix tree)
    (present : tree.isEmpty = false) (rounds : Nat) (low : height + rounds < radixTreeMaxPath)
    (grants : List (Option Nat)) :
    ∃ (heightAfter : Nat) (grown : RadixDigits heightAfter) (ret : Int) (rest : List (Option Nat))
      (after : RadixTree), extendLoop rounds grants radix = some (ret, rest, after) ∧
      RadixRepresents others after grown ∧ Untouched others radix after ∧
      grown.toMap = tree.toMap ∧ grown.isEmpty = false ∧ (tree.Fruitful → grown.Fruitful) ∧
      (0 < rounds ∨ tree.Sparse → ret = 0 → grown.Sparse) ∧
      (ret = 0 ∧ heightAfter = height + rounds ∧ NodesGranted rounds grants ∧
          rest = grants.drop rounds ∧ after.1.surplus = radix.1.surplus ∨
        ret = -12 ∧ ¬ NodesGranted rounds grants ∧ after.1.surplus = radix.1.surplus + 1) := by
  induction rounds generalizing height tree radix grants with
  | zero =>
      refine ⟨height, tree, 0, grants, radix, rfl, represents, fun _ _ => rfl, rfl, present, id, ?_,
        .inl ⟨rfl, rfl, trivial, rfl, rfl⟩⟩
      rintro (impossible | sparse) -
      · exact absurd impossible (Nat.lt_irrefl 0)
      · exact sparse
  | succ rounds inductionHypothesis =>
      obtain ⟨slab, root⟩ := radix
      cases head : grants.headD none with
      | none =>
          obtain ⟨mid, denied, live, node, keeps, surplus⟩ := slab.nodeAlloc_refused
          refine ⟨height, tree, -12, grants.tail, (mid, root), ?_, ?_, ?_, rfl, present, id, ?_, ?_⟩
          · simp only [extendLoop, head, denied, if_true]
          · exact ⟨keeps represents.sound, live ▸ represents.live, represents.level,
              represents.rnode, represents.stored.congr fun addr _ => congrFun node addr,
              represents.low, represents.bounded⟩
          · exact fun addr _ => congrFun node addr
          · intro _ zero
            cases zero
          · exact .inr ⟨rfl, fun granted => granted.1 head, surplus⟩
      | some choice =>
          obtain ⟨label, mid, allocEq, allocated⟩ := represents.sound.alloc choice
          obtain ⟨stored, storeEq, grown, untouched, surplus⟩ :=
            represents.grow present (by omega) allocated
          obtain ⟨heightAfter, result, ret, rest, after, ran, holds, beside, sameMap, some, fruitful,
            sparse, outcome⟩ := inductionHypothesis grown rfl (by omega) grants.tail
          refine ⟨heightAfter, result, ret, rest, after, ?_, holds, untouched.trans beside,
            sameMap.trans (DigitTree.toMap_grow label tree), some, ?_, ?_, ?_⟩
          · simp only [extendLoop, head, allocEq, if_neg allocated.ne_zero, allocated.zeroed,
              Option.bind_some]
            rw [storeEq]
            exact ran
          · exact fun before => fruitful (DigitTree.fruitful_grow before present label)
          · exact fun _ => sparse (.inr (DigitTree.sparse_grow label tree))
          · have first : grants.headD none ≠ none := by
              rw [head]
              exact Option.some_ne_none choice
            rcases outcome with ⟨zero, level, granted, left, counted⟩ | ⟨failed, refused, counted⟩
            · refine .inl ⟨zero, ?_, ⟨first, granted⟩, ?_, counted.trans surplus⟩
              · rw [level, Nat.add_assoc, Nat.add_comm 1]
              · rw [left, List.drop_tail]
            · exact .inr ⟨failed, fun granted => refused granted.2, counted.trans (by rw [surplus])⟩

end Extend

section Insert

theorem nodesGranted_add {first second : Nat} {grants : List (Option Nat)} :
    NodesGranted (first + second) grants ↔
      NodesGranted first grants ∧ NodesGranted second (grants.drop first) := by
  induction first generalizing grants with
  | zero => simp [NodesGranted]
  | succ first inductionHypothesis =>
      rw [Nat.add_right_comm, NodesGranted, NodesGranted, inductionHypothesis, List.drop_tail,
        and_assoc]

variable {others : List Nat} {radix : RadixTree} {height index item : Nat}
  {tree : RadixDigits height}

def nodesNeeded (index : Nat) (tree : RadixDigits height) : Nat :=
  if index < radixTreeMapSize ^ height then tree.missing index
  else if tree.isEmpty then heightFor index
  else (heightFor index - height) + (heightFor index - 1)

/-- How an insertion ends: the tree before and after, `node_count` beyond the nodes before and
after, the return value and the item replaced. -/
inductive InsertEnds (index item : Nat) (grants : List (Option Nat)) {height heightAfter : Nat}
    (tree : RadixDigits height) (treeAfter : RadixDigits heightAfter) (before after : BitVec 32) :
    Int → Nat → Prop where
  | inserted (granted : NodesGranted (nodesNeeded index tree) grants)
      (map : treeAfter.toMap = tree.toMap.insert index item)
      (tidy : tree.Fruitful → tree.Needed → treeAfter.Fruitful ∧ treeAfter.Needed)
      (counted : after = before) :
      InsertEnds index item grants tree treeAfter before after 0 ((tree.toMap.lookup index).getD 0)
  | refused (refused : ¬ NodesGranted (nodesNeeded index tree) grants)
      (map : treeAfter.toMap = tree.toMap) (counted : after = before + 1) :
      InsertEnds index item grants tree treeAfter before after (-12) 0

/-- In a tree that is high enough the insertion goes down to the slot of the index. -/
theorem insert_within (represents : RadixRepresents others radix tree)
    (bound : index < radixTreeMapSize ^ height) (small : index < 2 ^ 64) (present : item ≠ 0)
    (grants : List (Option Nat)) :
    ∃ added ret replaced after,
      ((insertLoop index radix.2.height (0, 0) radix.2.rnode grants radix).bind fun reached =>
        insertItem item reached.1 reached.2) = some (ret, replaced, after) ∧
      RadixRepresents others after (tree.plant index item added) ∧ Untouched others radix after ∧
      InsertOutcome (tree.missing index) grants (tree.find index) added radix.1.surplus
        after.1.surplus ret replaced := by
  have loaded : loadSlot (0, 0) radix = some (pointer tree) :=
    (loadSlot_root radix 0).trans (congrArg some represents.rnode)
  obtain ⟨added, ret, replaced, after, ran, planting, outcome⟩ :=
    insertSpec present index height (0, 0) tree grants radix represents.sound
      represents.labels_nodup represents.stored loaded represents.zero_notMem
  have root : after.2 = { radix.2 with rnode := pointer (tree.plant index item added) } := by
    rw [planting.root, if_pos rfl]
  have needed : added.length ≤ tree.missing index := by
    cases outcome with
    | inserted _ enough _ => exact Nat.le_of_eq enough
    | refused _ short _ => exact Nat.le_of_lt short
  refine ⟨added, ret, replaced, after, ?_, ?_, ?_, outcome⟩
  · rw [represents.level, represents.rnode]
    exact ran
  · refine ⟨planting.sound, ?_, ?_, ?_, planting.stored, represents.low, ?_⟩
    · refine planting.live.trans ((represents.live.append_left added).trans ?_)
      rw [← List.append_assoc]
      exact (DigitTree.labels_plant_perm needed).symm.append_right others
    · rw [root]
      exact represents.level
    · rw [root]
    · intro key stored member
      cases outcome with
      | inserted _ enough _ =>
          rw [DigitTree.toMap_plant bound (Nat.le_of_eq enough.symm)] at member
          rcases OrderedMap.mem_insert.mp member with same | ⟨earlier, -⟩
          · exact (Prod.mk.inj same).1 ▸ small
          · exact represents.bounded key stored earlier
      | refused _ short _ =>
          rw [DigitTree.toMap_plant_of_lt short] at member
          exact represents.bounded key stored member
  · intro addr member
    refine planting.others addr (represents.others_live member) ?_ (represents.apart member)
    rintro rfl
    exact represents.sound.zero_notMem (represents.others_live member)

theorem InsertOutcome.ends {heightAfter : Nat} {grown : RadixDigits heightAfter}
    {grants rest : List (Option Nat)} {added : List Nat} {before after : BitVec 32} {ret : Int}
    {replaced : Nat}
    (outcome : InsertOutcome (grown.missing index) rest (grown.find index) added before after ret
      replaced)
    (sameMap : grown.toMap = tree.toMap) (bound : index < radixTreeMapSize ^ heightAfter)
    (needed : NodesGranted (nodesNeeded index tree) grants ↔ NodesGranted (grown.missing index) rest)
    (fruitful : tree.Fruitful → grown.Fruitful)
    (height : grown.missing index ≤ added.length → tree.Needed →
      (grown.plant index item added).Needed) :
    InsertEnds index item grants tree (grown.plant index item added) before after ret replaced := by
  cases outcome with
  | inserted granted enough counted =>
      have sufficient := Nat.le_of_eq enough.symm
      rw [← DigitTree.lookup_toMap bound, sameMap]
      refine .inserted (needed.mpr granted) ?_ ?_ counted
      · rw [DigitTree.toMap_plant bound sufficient, sameMap]
      · exact fun fruit need =>
          ⟨DigitTree.fruitful_plant (fruitful fruit) sufficient, height sufficient need⟩
  | refused refused short counted =>
      refine .refused (fun granted => refused (needed.mp granted)) ?_ counted
      rw [DigitTree.toMap_plant_of_lt short, sameMap]

theorem radixTreeInsert_fitting (represents : RadixRepresents others radix tree)
    (bound : index < radixTreeMapSize ^ height) (small : index < 2 ^ 64) (present : item ≠ 0)
    (grants : List (Option Nat)) :
    ∃ (treeAfter : RadixDigits height) (ret : Int) (replaced : Nat) (after : RadixTree),
      radixTreeInsert index item grants radix = some (ret, replaced, after) ∧
      RadixRepresents others after treeAfter ∧ Untouched others radix after ∧
      InsertEnds index item grants tree treeAfter radix.1.surplus after.1.surplus ret replaced := by
  obtain ⟨added, ret, replaced, after, ran, holds, untouched, outcome⟩ :=
    insert_within represents bound small present grants
  refine ⟨_, ret, replaced, after, ?_, holds, untouched, outcome.ends rfl bound ?_ id ?_⟩
  · have fits : ¬ min (radixTreeMapSize ^ height) (2 ^ 64) - 1 < index := by
      rw [fits_iff small, not_not]
      exact bound
    simp only [radixTreeInsert, represents.level, radixTreeMaxindex_eq represents.low,
      Option.bind_some, if_neg fits]
    rw [if_neg (by decide), ← represents.level]
    exact ran
  · rw [nodesNeeded, if_pos bound]
  · exact fun _ => DigitTree.needed_plant

theorem digit_ne_zero_of_le {levels : Nat} (high : radixTreeMapSize ^ levels ≤ index)
    (bound : index < radixTreeMapSize ^ (levels + 1)) : digit radixTreeMapSize levels index ≠ 0 :=
  fun zero => Nat.not_lt.mpr high ((DigitTree.digit_eq_zero_iff bound).mp zero)

theorem index_ne_zero (beyond : radixTreeMapSize ^ height ≤ index) : index ≠ 0 :=
  Nat.pos_iff_ne_zero.mp (Nat.lt_of_lt_of_le (Nat.pow_pos (Nat.two_pow_pos 6)) beyond)

theorem radixTreeInsert_empty (represents : RadixRepresents others radix tree)
    (beyond : radixTreeMapSize ^ height ≤ index) (small : index < 2 ^ 64) (present : item ≠ 0)
    (nothing : tree = .empty) (grants : List (Option Nat)) :
    ∃ (treeAfter : RadixDigits (heightFor index)) (ret : Int) (replaced : Nat) (after : RadixTree),
      radixTreeInsert index item grants radix = some (ret, replaced, after) ∧
      RadixRepresents others after treeAfter ∧ Untouched others radix after ∧
      InsertEnds index item grants tree treeAfter radix.1.surplus after.1.surplus ret replaced := by
  subst nothing
  obtain ⟨slab, root⟩ := radix
  have rnode : root.rnode = 0 := represents.rnode.trans pointer_empty
  let raised : RadixTree := (slab, { root with height := heightFor index })
  have lifted : RadixRepresents others raised (.empty : RadixDigits (heightFor index)) := by
    refine ⟨represents.sound, represents.live, rfl, ?_, stored_empty _, heightFor_lt small, ?_⟩
    · exact rnode.trans pointer_empty.symm
    · rw [DigitTree.toMap_empty]
      exact fun _ _ member => nomatch member
  obtain ⟨added, ret, replaced, after, ran, holds, untouched, outcome⟩ :=
    insert_within lifted (lt_pow_heightFor index) small present grants
  refine ⟨_, ret, replaced, after, ?_, holds, untouched,
    outcome.ends ?_ (lt_pow_heightFor index) ?_ ?_ ?_⟩
  · have outgrown : min (radixTreeMapSize ^ height) (2 ^ 64) - 1 < index := by
      rw [fits_iff small]
      exact Nat.not_lt.mpr beyond
    have level : root.height = height := represents.level
    simp only [radixTreeInsert, level, radixTreeMaxindex_eq represents.low, Option.bind_some,
      if_pos outgrown, radixTreeExtend, extendedHeight_eq small (Nat.succ_ne_zero height)
        (lt_heightFor beyond), rnode, if_true]
    rw [if_neg (by decide)]
    simp only [raised, rnode] at ran
    exact ran
  · rw [DigitTree.toMap_empty, DigitTree.toMap_empty]
  · rw [nodesNeeded, if_neg (Nat.not_lt.mpr beyond), DigitTree.isEmpty_empty, if_pos rfl,
      DigitTree.missing_empty]
  · exact fun _ => DigitTree.fruitful_empty
  · intro enough _
    have high := pow_heightFor_le (index_ne_zero beyond)
    exact DigitTree.needed_plant_of_digit
      (digit_ne_zero_of_le high (lt_pow_heightFor index)) enough

theorem radixTreeInsert_growing (represents : RadixRepresents others radix tree)
    (beyond : radixTreeMapSize ^ height ≤ index) (small : index < 2 ^ 64) (present : item ≠ 0)
    (something : tree.isEmpty = false) (grants : List (Option Nat)) :
    ∃ (heightAfter : Nat) (treeAfter : RadixDigits heightAfter) (ret : Int) (replaced : Nat)
      (after : RadixTree), radixTreeInsert index item grants radix = some (ret, replaced, after) ∧
      RadixRepresents others after treeAfter ∧ Untouched others radix after ∧
      InsertEnds index item grants tree treeAfter radix.1.surplus after.1.surplus ret replaced := by
  have higher := lt_heightFor beyond
  have reached : height + (heightFor index - height) = heightFor index :=
    Nat.add_sub_cancel' (Nat.le_of_lt higher)
  have nonzero : radix.2.rnode ≠ 0 := by
    rw [represents.rnode, Ne, represents.stored.pointer_eq_zero represents.sound]
    rintro rfl
    rw [DigitTree.isEmpty_empty] at something
    cases something
  have outgrown : min (radixTreeMapSize ^ height) (2 ^ 64) - 1 < index := by
    rw [fits_iff small]
    exact Nat.not_lt.mpr beyond
  have needed : nodesNeeded index tree = (heightFor index - height) + (heightFor index - 1) := by
    rw [nodesNeeded, if_neg (Nat.not_lt.mpr beyond), something]
    rfl
  have extends_eq : radixTreeExtend index grants radix =
      extendLoop (heightFor index - height) grants radix := by
    obtain ⟨slab, root⟩ := radix
    have level : root.height = height := represents.level
    simp only [radixTreeExtend, level, extendedHeight_eq small (Nat.succ_ne_zero height) higher,
      Option.bind_some]
    exact if_neg nonzero
  obtain ⟨heightGrown, grown, error, rest, mid, extended, holdsMid, untouchedMid, sameMap, -,
    fruitful, sparse, outcome⟩ := extendLoop_spec represents something (heightFor index - height)
      (reached.symm ▸ heightFor_lt small) grants
  have start : ∀ result, (if error ≠ 0 then some (error, 0, mid)
      else (insertLoop index mid.2.height (0, 0) mid.2.rnode rest mid).bind fun reached =>
        insertItem item reached.1 reached.2) = result →
      radixTreeInsert index item grants radix = result := by
    intro result ran
    simp only [radixTreeInsert, represents.level, radixTreeMaxindex_eq represents.low,
      Option.bind_some, if_pos outgrown, extends_eq, extended]
    exact ran
  rcases outcome with ⟨rfl, level, granted, rfl, counted⟩ | ⟨rfl, refused, counted⟩
  · obtain rfl := level.trans reached
    obtain ⟨added, ret, replaced, after, ran, holds, untouched, outcome⟩ :=
      insert_within holdsMid (lt_pow_heightFor index) small present
        (grants.drop (heightFor index - height))
    have high := pow_heightFor_le (index_ne_zero beyond)
    have missing := sparse (.inl (Nat.sub_pos_of_lt higher)) rfl index high (lt_pow_heightFor index)
    rw [counted] at outcome
    refine ⟨_, _, ret, replaced, after, start _ ran, holds, untouchedMid.trans untouched,
      outcome.ends sameMap (lt_pow_heightFor index) ?_ fruitful ?_⟩
    · rw [needed, nodesGranted_add, missing, and_iff_right granted]
    · exact fun enough _ => DigitTree.needed_plant_of_digit
        (digit_ne_zero_of_le high (lt_pow_heightFor index)) enough
  · refine ⟨_, grown, -12, 0, mid, start _ rfl, holdsMid, untouchedMid, .refused ?_ sameMap counted⟩
    rw [needed, nodesGranted_add]
    exact fun granted => refused granted.1

/-- An insertion never faults.  It fails exactly when one of the allocations that it needs is
refused, and then leaves the items as they were. -/
theorem radixTreeInsert_spec (represents : RadixRepresents others radix tree) (small : index < 2 ^ 64)
    (present : item ≠ 0) (grants : List (Option Nat)) :
    ∃ (heightAfter : Nat) (treeAfter : RadixDigits heightAfter) (ret : Int) (replaced : Nat)
      (after : RadixTree), radixTreeInsert index item grants radix = some (ret, replaced, after) ∧
      RadixRepresents others after treeAfter ∧ Untouched others radix after ∧
      InsertEnds index item grants tree treeAfter radix.1.surplus after.1.surplus ret replaced := by
  by_cases bound : index < radixTreeMapSize ^ height
  · exact ⟨height, radixTreeInsert_fitting represents bound small present grants⟩
  · have beyond := Nat.le_of_not_lt bound
    cases something : tree.isEmpty with
    | true =>
        have nothing := DigitTree.isEmpty_iff.mp something
        exact ⟨_, radixTreeInsert_empty represents beyond small present nothing grants⟩
    | false => exact radixTreeInsert_growing represents beyond small present something grants

end Insert

end DmsBlkdev
