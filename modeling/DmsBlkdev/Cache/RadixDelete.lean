import DmsBlkdev.Cache.RadixStored

/-!
# A deletion from the radix tree

The path of the slots goes down to the item.  On the way back the nodes that
are left without entries are freed, all of them zero by then, up to the first
that keeps one.  Where that is the root, the tree loses the heights that it
does not need.
-/

namespace DmsBlkdev

open Lib RadixTreeSlab

section Path

variable {slab : RadixTreeSlab} {height index : Nat} {tree : RadixDigits height}
  {path : List RadixTreeSlot}

/-- The path to an item that is there. -/
theorem deletePath_found (path : List RadixTreeSlot) (sound : slab.Sound)
    (stored : Stored slab tree) {item : Nat}
    (found : tree.find index = some item) (room : path.length + height < radixTreeMaxPath) :
    deletePath slab index height (pointer tree) path = some (item, tree.descent index ++ path) := by
  induction tree generalizing path with
  | empty =>
      rw [DigitTree.find_empty] at found
      cases found
  | leaf stored =>
      obtain rfl := Option.some.inj found
      rfl
  | @node levels label children inductionHypothesis =>
      have nonzero : label ≠ 0 := fun zero =>
        sound.zero_notMem (zero ▸ (node_eq_some.mp stored.1).1)
      have short : ¬ radixTreeMaxPath ≤ path.length + 1 := by omega
      have rest := inductionHypothesis (digit radixTreeMapSize levels index)
        ((label, digit radixTreeMapSize levels index) :: path) (stored.2 _) found
        (by rw [List.length_cons]; omega)
      rw [deletePath, pointer_node, if_neg nonzero, if_neg short, stored.1, Option.bind_some,
        offsetOf_shiftOf, DigitTree.descent, List.append_assoc]
      exact rest

theorem deletePath_missing (path : List RadixTreeSlot) (sound : slab.Sound)
    (stored : Stored slab tree)
    (missing : tree.find index = none) (room : path.length + height < radixTreeMaxPath) :
    ∃ reached, deletePath slab index height (pointer tree) path = some (0, reached) := by
  induction tree generalizing path with
  | @empty height =>
      refine ⟨path, ?_⟩
      rw [pointer_empty]
      cases height <;> rfl
  | leaf item => cases missing
  | @node levels label children inductionHypothesis =>
      have nonzero : label ≠ 0 := fun zero =>
        sound.zero_notMem (zero ▸ (node_eq_some.mp stored.1).1)
      have short : ¬ radixTreeMaxPath ≤ path.length + 1 := by omega
      obtain ⟨reached, rest⟩ := inductionHypothesis (digit radixTreeMapSize levels index)
        ((label, digit radixTreeMapSize levels index) :: path) (stored.2 _) missing
        (by rw [List.length_cons]; omega)
      refine ⟨reached, ?_⟩
      rw [deletePath, pointer_node, if_neg nonzero, if_neg short, stored.1, Option.bind_some,
        offsetOf_shiftOf]
      exact rest

end Path

section Free

variable {height index : Nat}

/-- What the way back makes of the objects of a tree: those of the nodes that went are freed. -/
structure Pruned (index : Nat) (tree : RadixDigits height) (slab after : RadixTreeSlab) : Prop where
  sound : after.Sound
  live : slab.live.Perm (tree.pruned index ++ after.live)
  stored : Stored after (tree.prune index)
  others : ∀ addr, addr ∉ tree.labels → after.node addr = slab.node addr
  surplus : after.surplus = slab.surplus

def StopsAt (index : Nat) : {height : Nat} → RadixDigits height → Nat → Prop
  | _, .empty, _ => False
  | _, .leaf _, _ => False
  | height + 1, .node label children, kept =>
      kept ∈ (DigitTree.node label children).labels ∧
        (kept = label ↔
          ((children (digit radixTreeMapSize height index)).prune index).isEmpty = true)

theorem StopsAt.mem {tree : RadixDigits height} {kept : Nat} (stops : StopsAt index tree kept) :
    kept ∈ tree.labels := by
  cases tree with
  | empty => exact stops.elim
  | leaf item => exact stops.elim
  | node label children => exact stops.1

theorem pointer_prune {tree : RadixDigits height} (present : (tree.prune index).isEmpty = false) :
    pointer (tree.prune index) = pointer tree := by
  cases tree with
  | empty => rw [DigitTree.prune]
  | leaf item => cases present
  | node label children =>
      rw [DigitTree.prune] at present ⊢
      split at present
      · rw [DigitTree.isEmpty_empty] at present
        cases present
      · next occupied => rw [if_neg occupied, pointer_node, pointer_node]

theorem isEmpty_of_find {tree : RadixDigits height} {item : Nat}
    (found : tree.find index = some item) : tree.isEmpty = false := by
  apply Bool.eq_false_iff.mpr
  intro empty
  rw [DigitTree.isEmpty_iff.mp empty, DigitTree.find_empty] at found
  cases found

variable {children : Fin radixTreeMapSize → RadixDigits height} {label : Nat}
  {d : Fin radixTreeMapSize}

theorem contentsOf_kept (present : (children d).isEmpty = false)
    (kept : ((children d).prune index).isEmpty = false) :
    contentsOf (Function.update children d ((children d).prune index)) = contentsOf children := by
  rw [contentsOf_update, pointer_prune kept, kept]
  have slot : pointer (children d) = (contentsOf children).slots d := rfl
  rw [slot, Function.update_eq_self, contentsOf, DigitTree.occupied_eq d children, present]

theorem contentsOf_gone (present : (children d).isEmpty = false)
    (gone : ((children d).prune index).isEmpty = true) :
    contentsOf (Function.update children d ((children d).prune index)) =
      ⟨(contentsOf children).count - 1, Function.update (contentsOf children).slots d 0⟩ := by
  rw [contentsOf_update, DigitTree.isEmpty_iff.mp gone, pointer_empty, RadixTreeNode.mk.injEq]
  refine ⟨?_, rfl⟩
  rw [contentsOf, DigitTree.occupied_eq d children, present, DigitTree.isEmpty_empty]
  simp only [if_true, Bool.false_eq_true, if_false, BitVec.ofNat_add]
  grind

theorem prune_of_occupied (label : Nat)
    (occupied : DigitTree.occupied (Function.update children (digit radixTreeMapSize height index)
      ((children (digit radixTreeMapSize height index)).prune index)) ≠ 0) :
    (DigitTree.node label children).prune index =
        .node label (Function.update children (digit radixTreeMapSize height index)
          ((children (digit radixTreeMapSize height index)).prune index)) ∧
      (DigitTree.node label children).pruned index =
        (children (digit radixTreeMapSize height index)).pruned index := by
  rw [DigitTree.prune, DigitTree.pruned, if_neg occupied, if_neg occupied, List.append_nil]
  exact ⟨rfl, rfl⟩

theorem prune_of_bare (label : Nat)
    (bare : DigitTree.occupied (Function.update children (digit radixTreeMapSize height index)
      ((children (digit radixTreeMapSize height index)).prune index)) = 0) :
    (DigitTree.node label children).prune index = .empty ∧
      (DigitTree.node label children).pruned index =
        (children (digit radixTreeMapSize height index)).pruned index ++ [label] := by
  rw [DigitTree.prune, DigitTree.pruned, if_pos bare, if_pos bare]
  exact ⟨rfl, rfl⟩

def FreeEnds (index : Nat) {height : Nat} (tree : RadixDigits height) (path : List RadixTreeSlot)
    (slab after : RadixTreeSlab) : Prop :=
  (tree.prune index).isEmpty = true ∧
      freePath (tree.descent index ++ path) slab = freePath path after ∨
    (tree.prune index).isEmpty = false ∧ ∃ kept, StopsAt index tree kept ∧
      freePath (tree.descent index ++ path) slab = some (kept, after)

section Node

variable {slab mid : RadixTreeSlab} {path : List RadixTreeSlot} {item : Nat}

theorem free_node_kept (stored : Stored slab (.node label children))
    (nodup : (DigitTree.node label children).labels.Nodup)
    (present : (children (digit radixTreeMapSize height index)).isEmpty = false)
    (pruned : Pruned index (children (digit radixTreeMapSize height index)) slab mid)
    (kept : ((children (digit radixTreeMapSize height index)).prune index).isEmpty = false)
    {stop : Nat} (stops : StopsAt index (children (digit radixTreeMapSize height index)) stop) :
    Pruned index (.node label children) slab mid ∧
      ((DigitTree.node label children).prune index).isEmpty = false ∧
      StopsAt index (.node label children) stop := by
  have split := DigitTree.labels_node_perm label (digit radixTreeMapSize height index) children
  obtain ⟨apart, nodupBelow⟩ := List.nodup_cons.mp (split.nodup_iff.mp nodup)
  have disjoint := (List.nodup_append.mp nodupBelow).2.2
  have occupied : DigitTree.occupied (Function.update children (digit radixTreeMapSize height index)
      ((children (digit radixTreeMapSize height index)).prune index)) ≠ 0 := by
    refine DigitTree.occupied_ne_zero (d := digit radixTreeMapSize height index) ?_
    rwa [Function.update_self]
  obtain ⟨pruneEq, prunedEq⟩ := prune_of_occupied label occupied
  refine ⟨⟨pruned.sound, ?_, ?_, ?_, pruned.surplus⟩, ?_, ?_, ?_⟩
  · rw [prunedEq]
    exact pruned.live
  · rw [pruneEq]
    refine stored.update ?_ pruned.stored fun addr beside => pruned.others addr ?_
    · rw [pruned.others label fun inside => apart (List.mem_append_left _ inside), stored.1,
        contentsOf_kept present kept]
    · exact fun inside => disjoint addr inside addr beside rfl
  · intro addr outside
    apply pruned.others
    exact fun inside =>
      outside (split.mem_iff.mpr (List.mem_cons_of_mem _ (List.mem_append_left _ inside)))
  · rw [pruneEq, DigitTree.isEmpty_node]
  · exact split.mem_iff.mpr (List.mem_cons_of_mem _ (List.mem_append_left _ stops.mem))
  · rw [kept]
    refine iff_of_false ?_ Bool.false_ne_true
    rintro rfl
    exact apart (List.mem_append_left _ stops.mem)

theorem free_node_gone (stored : Stored slab (.node label children))
    (nodup : (DigitTree.node label children).labels.Nodup)
    (present : (children (digit radixTreeMapSize height index)).isEmpty = false)
    (pruned : Pruned index (children (digit radixTreeMapSize height index)) slab mid)
    (gone : ((children (digit radixTreeMapSize height index)).prune index).isEmpty = true)
    (ran : freePath ((DigitTree.node label children).descent index ++ path) slab =
      freePath ((label, digit radixTreeMapSize height index) :: path) mid) :
    ∃ after, Pruned index (.node label children) slab after ∧
      FreeEnds index (.node label children) path slab after := by
  have split := DigitTree.labels_node_perm label (digit radixTreeMapSize height index) children
  obtain ⟨apart, nodupBelow⟩ := List.nodup_cons.mp (split.nodup_iff.mp nodup)
  have disjoint := (List.nodup_append.mp nodupBelow).2.2
  have here : mid.node label = some (contentsOf children) :=
    (pruned.others label fun inside => apart (List.mem_append_left _ inside)).trans stored.1
  have member := (node_eq_some.mp here).1
  generalize shrunk : Function.update children (digit radixTreeMapSize height index)
    ((children (digit radixTreeMapSize height index)).prune index) = left
  have contents := contentsOf_gone present gone
  rw [shrunk] at contents
  have step : freePath ((label, digit radixTreeMapSize height index) :: path) mid =
      if (contentsOf left).count ≠ 0 then some (label, mid.put label (contentsOf left))
      else ((mid.put label (contentsOf left)).nodeFree label).bind (freePath path) := by
    have counts := congrArg RadixTreeNode.count contents
    simp only [freePath, here, Option.bind_some, ← contents, store_eq member, counts]
  have counted : (contentsOf left).count = 0 ↔ DigitTree.occupied left = 0 :=
    count_eq_iff left (Nat.zero_le _)
  have untouched : ∀ addr, addr ∉ (DigitTree.node label children).labels →
      (mid.put label (contentsOf left)).node addr = slab.node addr := by
    intro addr outside
    have different : addr ≠ label := fun same => outside (same ▸ List.mem_cons_self)
    rw [node_put_of_ne different]
    apply pruned.others
    exact fun inside =>
      outside (split.mem_iff.mpr (List.mem_cons_of_mem _ (List.mem_append_left _ inside)))
  by_cases bare : DigitTree.occupied left = 0
  · obtain ⟨pruneEq, prunedEq⟩ := prune_of_bare label (shrunk.symm ▸ bare)
    have zeroed : (mid.put label (contentsOf left)).node label = some zeroedNode := by
      rw [node_put_self member, contentsOf_of_bare bare]
    refine ⟨(mid.put label (contentsOf left)).dropped label, ⟨?_, ?_, ?_, ?_, ?_⟩, .inl ⟨?_, ?_⟩⟩
    · exact (pruned.sound.put member _).dropped zeroed
    · rw [prunedEq, List.append_assoc]
      exact pruned.live.trans ((List.perm_cons_erase member).append_left _)
    · rw [pruneEq]
      exact stored_empty _
    · intro addr outside
      have different : addr ≠ label := fun same => outside (same ▸ List.mem_cons_self)
      rw [node_dropped_of_ne different]
      exact untouched addr outside
    · exact ((mid.put label (contentsOf left)).surplus_dropped member).trans pruned.surplus
    · rw [pruneEq, DigitTree.isEmpty_empty]
    · rw [ran, step, if_neg (not_not.mpr (counted.mpr bare)),
        (mid.put label (contentsOf left)).nodeFree_eq member, Option.bind_some]
  · obtain ⟨pruneEq, prunedEq⟩ := prune_of_occupied label (shrunk.symm ▸ bare)
    rw [shrunk] at pruneEq
    refine ⟨mid.put label (contentsOf left), ⟨?_, ?_, ?_, untouched, pruned.surplus⟩,
      .inr ⟨?_, label, ⟨List.mem_cons_self, iff_of_true rfl gone⟩, ?_⟩⟩
    · exact pruned.sound.put member _
    · rw [prunedEq]
      exact pruned.live
    · rw [pruneEq, ← shrunk]
      refine stored.update ?_ ?_ fun addr beside => ?_
      · rw [shrunk]
        exact node_put_self member
      · rw [DigitTree.isEmpty_iff.mp gone]
        exact stored_empty _
      · have different : addr ≠ label := by
          rintro rfl
          exact apart (List.mem_append_right _ beside)
        rw [node_put_of_ne different]
        exact pruned.others addr fun inside => disjoint addr inside addr beside rfl
    · rw [pruneEq, DigitTree.isEmpty_node]
    · rw [ran, step, if_pos fun zero => bare (counted.mp zero)]

end Node

/-- The way back from an item that is there frees the nodes that are left without entries, and
each of them is all zero then. -/
theorem freePath_descent {slab : RadixTreeSlab} {tree : RadixDigits height} (sound : slab.Sound)
    (stored : Stored slab tree) (nodup : tree.labels.Nodup) {item : Nat}
    (found : tree.find index = some item) (path : List RadixTreeSlot) :
    ∃ after, Pruned index tree slab after ∧ FreeEnds index tree path slab after := by
  induction tree generalizing path with
  | empty =>
      rw [DigitTree.find_empty] at found
      cases found
  | leaf item =>
      exact ⟨slab, ⟨sound, List.Perm.refl _, stored_empty _, fun _ _ => rfl, rfl⟩, .inl ⟨rfl, rfl⟩⟩
  | @node height label children inductionHypothesis =>
      have split := DigitTree.labels_node_perm label (digit radixTreeMapSize height index) children
      have nodupChild := (List.nodup_append.mp (List.nodup_cons.mp (split.nodup_iff.mp nodup)).2).1
      have present : (children (digit radixTreeMapSize height index)).isEmpty = false :=
        isEmpty_of_find found
      obtain ⟨mid, pruned, ends⟩ := inductionHypothesis _ (stored.2 _) nodupChild found
        ((label, digit radixTreeMapSize height index) :: path)
      have unrolled : (DigitTree.node label children).descent index ++ path =
          (children (digit radixTreeMapSize height index)).descent index ++
            (label, digit radixTreeMapSize height index) :: path := by
        rw [DigitTree.descent, List.append_assoc]
        rfl
      rcases ends with ⟨gone, ran⟩ | ⟨kept, stop, stops, ran⟩
      · exact free_node_gone stored nodup present pruned gone (unrolled ▸ ran)
      · obtain ⟨prunedNode, stays, stopsNode⟩ :=
          free_node_kept stored nodup present pruned kept stops
        exact ⟨mid, prunedNode, .inr ⟨stays, stop, stopsNode, unrolled ▸ ran⟩⟩

end Free

section Shrink

variable {others : List Nat} {height : Nat} {tree : RadixDigits height}

theorem RadixRepresents.lower {slab : RadixTreeSlab} {root : RadixTreeRoot} {label : Nat}
    {children : Fin radixTreeMapSize → RadixDigits height}
    (represents : RadixRepresents others (slab, root) (DigitTree.node label children))
    (slender : DigitTree.Slender children) :
    RadixRepresents others ((slab.put label zeroedNode).dropped label, ⟨height, pointer (children 0)⟩)
      (children 0) := by
  have alone := DigitTree.alone_of_occupied slender.1 slender.2
  have member := (node_eq_some.mp represents.stored.1).1
  have labels := DigitTree.labels_node_of_alone label alone
  have apart : label ∉ (children 0).labels :=
    (List.nodup_cons.mp (labels.nodup_iff.mp represents.labels_nodup)).1
  refine ⟨?_, ?_, rfl, rfl, ?_, Nat.lt_of_succ_lt represents.low, ?_⟩
  · exact (represents.sound.put member zeroedNode).dropped (node_put_self member)
  · have live := represents.live.trans (labels.append_right others)
    exact (List.perm_cons_erase member).symm.trans live |>.cons_inv
  · refine (represents.stored.2 0).congr fun addr inside => ?_
    have different : addr ≠ label := fun same => apart (same ▸ inside)
    rw [node_dropped_of_ne different, node_put_of_ne different]
  · have map : (DigitTree.node label children).toMap = (children 0).toMap :=
      DigitTree.toMap_node_of_alone alone
    rw [← map]
    exact represents.bounded

/-- `radix_tree_shrink` takes away the heights that nothing needs, and frees zeroed nodes only. -/
theorem radixTreeShrink_spec {slab : RadixTreeSlab} {root : RadixTreeRoot}
    (represents : RadixRepresents others (slab, root) tree) (present : tree.isEmpty = false) :
    ∃ after, radixTreeShrink height (pointer tree) slab = some after ∧
      RadixRepresents others after tree.shrink.2 ∧ Untouched others (slab, root) after ∧
      after.1.surplus = slab.surplus := by
  induction tree generalizing slab root with
  | empty =>
      rw [DigitTree.isEmpty_empty] at present
      cases present
  | leaf item =>
      refine ⟨(slab, ⟨0, item⟩), rfl, ?_, fun _ _ => rfl, rfl⟩
      exact ⟨represents.sound, represents.live, rfl, rfl, represents.stored, represents.low,
        represents.bounded⟩
  | @node height label children inductionHypothesis =>
      have member := (node_eq_some.mp represents.stored.1).1
      have single : (contentsOf children).count = 1 ↔ DigitTree.occupied children = 1 :=
        count_eq_iff children (by decide)
      have first : (contentsOf children).slots 0 ≠ 0 ↔ (children 0).isEmpty = false := by
        rw [← Bool.not_eq_true, (represents.stored.2 0).isEmpty_iff represents.sound]
        rfl
      by_cases slender : DigitTree.Slender children
      · have alone := DigitTree.alone_of_occupied slender.1 slender.2
        have zeroed : (⟨0, Function.update (contentsOf children).slots 0 0⟩ : RadixTreeNode) =
            zeroedNode := by
          rw [zeroedNode, RadixTreeNode.mk.injEq]
          refine ⟨rfl, ?_⟩
          funext d
          by_cases zero : d = 0
          · subst zero
            exact Function.update_self ..
          · rw [Function.update_of_ne zero]
            exact (congrArg pointer (alone d zero)).trans pointer_empty
        have lowered := represents.lower slender
        obtain ⟨after, ran, holds, untouched, surplus⟩ := inductionHypothesis 0 lowered slender.2
        refine ⟨after, ?_, ?_, ?_, ?_⟩
        · rw [radixTreeShrink, pointer_node, represents.stored.1, Option.bind_some,
            if_pos ⟨single.mpr slender.1, first.mpr slender.2⟩, zeroed, store_eq member,
            Option.bind_some, (slab.put label zeroedNode).nodeFree_eq member,
            Option.bind_some]
          exact ran
        · rw [DigitTree.shrink_of_slender slender]
          exact holds
        · intro addr inside
          have different : addr ≠ label := fun same =>
            represents.apart inside (same ▸ List.mem_cons_self)
          refine (untouched addr inside).trans ?_
          rw [node_dropped_of_ne different, node_put_of_ne different]
        · exact surplus.trans ((slab.put label zeroedNode).surplus_dropped member)
      · refine ⟨(slab, ⟨height + 1, label⟩), ?_, ?_, fun _ _ => rfl, rfl⟩
        · rw [radixTreeShrink, pointer_node, represents.stored.1, Option.bind_some]
          exact if_neg fun both => slender ⟨single.mp both.1, first.mp both.2⟩
        · rw [DigitTree.shrink_of_not_slender slender]
          exact ⟨represents.sound, represents.live, rfl, rfl, represents.stored, represents.low,
            represents.bounded⟩

end Shrink

section Delete

variable {others : List Nat} {radix : RadixTree} {height index : Nat} {tree : RadixDigits height}

theorem Pruned.live_others {after : RadixTreeSlab} (represents : RadixRepresents others radix tree)
    (pruned : Pruned index tree radix.1 after) :
    after.live.Perm ((tree.prune index).labels ++ others) := by
  have split := (DigitTree.labels_prune_perm index tree).append_right others
  have moved := pruned.live.symm.trans (represents.live.trans split)
  rw [List.append_assoc] at moved
  exact (List.perm_append_left_iff _).mp moved

/-- The tree that the way back leaves, still with its height. -/
theorem RadixRepresents.prune {after : RadixTreeSlab} (represents : RadixRepresents others radix tree)
    (bound : index < radixTreeMapSize ^ height) (pruned : Pruned index tree radix.1 after)
    (rnode : pointer (tree.prune index) = radix.2.rnode) :
    RadixRepresents others (after, radix.2) (tree.prune index) where
  sound := pruned.sound
  live := pruned.live_others represents
  level := represents.level
  rnode := rnode.symm
  stored := pruned.stored
  low := represents.low
  bounded key item member := by
    rw [DigitTree.toMap_prune bound] at member
    exact represents.bounded key item (OrderedMap.mem_erase.mp member).1

theorem represents_cleared {slab : RadixTreeSlab} (sound : slab.Sound)
    (live : slab.live.Perm others) :
    RadixRepresents others (slab, ⟨0, 0⟩) (.empty : RadixDigits 0) :=
  ⟨sound, live, rfl, rfl, trivial, by decide, fun _ _ member => nomatch member⟩

theorem Pruned.untouched {after : RadixTreeSlab} (represents : RadixRepresents others radix tree)
    (pruned : Pruned index tree radix.1 after) (root : RadixTreeRoot) :
    Untouched others radix (after, root) :=
  fun addr member => pruned.others addr (represents.apart member)

theorem delete_present (represents : RadixRepresents others radix tree)
    (bound : index < radixTreeMapSize ^ height) {item : Nat} (found : tree.find index = some item) :
    ∃ after,
      ((freePath (tree.descent index) radix.1).bind fun freed =>
        deleteEnd item radix.2 freed.1 freed.2) = some (item, after) ∧
      RadixRepresents others after (tree.remove index).2 ∧ Untouched others radix after ∧
      after.1.surplus = radix.1.surplus := by
  obtain ⟨mid, pruned, ends⟩ := freePath_descent represents.sound represents.stored
    represents.labels_nodup found []
  rw [FreeEnds, List.append_nil] at ends
  have present := isEmpty_of_find found
  rcases ends with ⟨gone, ran⟩ | ⟨kept, stop, stops, ran⟩
  · refine ⟨(mid, ⟨0, 0⟩), ?_, ?_, pruned.untouched represents _, pruned.surplus⟩
    · rw [ran]
      rfl
    · have live := pruned.live_others represents
      rw [DigitTree.isEmpty_iff.mp gone] at live
      rw [DigitTree.remove_of_gone present gone]
      exact represents_cleared pruned.sound live
  · have nonzero : stop ≠ 0 := fun zero => represents.zero_notMem (zero ▸ stops.mem)
    have rnode := (pointer_prune kept).trans represents.rnode.symm
    have pruneHolds := represents.prune bound pruned rnode
    rw [ran, Option.bind_some, deleteEnd, if_neg nonzero]
    cases tree with
    | empty => exact stops.elim
    | leaf item => exact stops.elim
    | @node levels label children =>
        have atRoot : stop = radix.2.rnode ↔
            ((children (digit radixTreeMapSize levels index)).prune index).isEmpty = true := by
          rw [represents.rnode]
          exact stops.2
        rw [DigitTree.remove_of_kept kept]
        by_cases gone : ((children (digit radixTreeMapSize levels index)).prune index).isEmpty = true
        · obtain ⟨after, shrunk, holds, untouched, surplus⟩ := radixTreeShrink_spec pruneHolds kept
          refine ⟨after, ?_, ?_, (pruned.untouched represents _).trans untouched,
            surplus.trans pruned.surplus⟩
          · rw [if_pos (atRoot.mpr gone), represents.level, ← rnode, shrunk]
            rfl
          · rw [if_pos gone]
            exact holds
        · refine ⟨(mid, radix.2), ?_, ?_, pruned.untouched represents _, pruned.surplus⟩
          · rw [if_neg fun same => gone (atRoot.mp same)]
          · rw [if_neg gone]
            exact pruneHolds

/-- A deletion never faults.  It answers with the item, and takes it out of the tree with all
nodes and heights that are not needed any more. -/
theorem radixTreeDelete_spec (represents : RadixRepresents others radix tree)
    (small : index < 2 ^ 64) :
    ∃ (heightAfter : Nat) (treeAfter : RadixDigits heightAfter) (after : RadixTree),
      radixTreeDelete index radix = some ((tree.toMap.lookup index).getD 0, after) ∧
      RadixRepresents others after treeAfter ∧ Untouched others radix after ∧
      treeAfter.toMap = tree.toMap.erase index ∧
      (tree.Fruitful → tree.Needed → treeAfter.Fruitful ∧ treeAfter.Needed) ∧
      after.1.surplus = radix.1.surplus := by
  have absent : ∀ (missing : tree.toMap.lookup index = none),
      tree.toMap = tree.toMap.erase index := fun missing =>
    (OrderedMap.erase_of_absent (OrderedMap.lookup_eq_none.mp missing)).symm
  by_cases bound : index < radixTreeMapSize ^ height
  · have lookup : tree.toMap.lookup index = tree.find index := DigitTree.lookup_toMap bound
    have fits : ¬ min (radixTreeMapSize ^ height) (2 ^ 64) - 1 < index := by
      rw [fits_iff small, not_not]
      exact bound
    obtain ⟨slab, root⟩ := radix
    have level : root.height = height := represents.level
    have rnode : root.rnode = pointer tree := represents.rnode
    simp only [radixTreeDelete, level, radixTreeMaxindex_eq represents.low, Option.bind_some,
      if_neg fits]
    cases found : tree.find index with
    | none =>
        have notItem : ¬ (height = 0 ∧ root.rnode ≠ 0) := by
          rintro ⟨rfl, nonzero⟩
          cases tree with
          | empty => exact nonzero rnode
          | leaf item => cases found
        obtain ⟨reached, ran⟩ := deletePath_missing [] represents.sound represents.stored found
          (by rw [List.length_nil, Nat.zero_add]; exact represents.low)
        refine ⟨height, tree, (slab, root), ?_, represents, fun _ _ => rfl,
          absent (lookup.trans found), fun fruitful needed => ⟨fruitful, needed⟩, rfl⟩
        rw [if_neg notItem, rnode, ran, Option.bind_some, if_pos rfl, lookup, found]
        rfl
    | some item =>
        have nonzero := represents.stored.item_ne_zero found
        have erased : (tree.remove index).2.toMap = tree.toMap.erase index :=
          DigitTree.toMap_remove bound
        by_cases isItem : height = 0 ∧ root.rnode ≠ 0
        · obtain ⟨rfl, -⟩ := isItem
          cases tree with
          | empty => cases found
          | leaf stored =>
              obtain rfl := Option.some.inj found
              refine ⟨0, .empty, (slab, ⟨0, 0⟩), ?_, represents_cleared represents.sound
                represents.live, fun _ _ => rfl, erased, fun _ _ => ⟨trivial, trivial⟩, rfl⟩
              have isItem : (0 = 0 ∧ root.rnode ≠ 0) := ⟨rfl, rnode ▸ nonzero⟩
              rw [if_pos isItem, lookup, rnode]
              rfl
        · have ran := deletePath_found [] represents.sound represents.stored found
            (by rw [List.length_nil, Nat.zero_add]; exact represents.low)
          obtain ⟨after, freed, holds, untouched, surplus⟩ :=
            delete_present represents bound found
          refine ⟨_, (tree.remove index).2, after, ?_, holds, untouched, erased,
            fun fruitful needed => ⟨DigitTree.fruitful_remove fruitful,
              DigitTree.needed_remove fruitful needed⟩, surplus⟩
          rw [if_neg isItem, rnode, ran, Option.bind_some, if_neg nonzero, lookup, found,
            List.append_nil]
          exact freed
  · have missing : tree.toMap.lookup index = none :=
      DigitTree.lookup_toMap_of_le (Nat.le_of_not_lt bound)
    have beyond : min (radixTreeMapSize ^ height) (2 ^ 64) - 1 < index := (fits_iff small).mpr bound
    refine ⟨height, tree, radix, ?_, represents, fun _ _ => rfl, absent missing,
      fun fruitful needed => ⟨fruitful, needed⟩, rfl⟩
    simp only [radixTreeDelete, represents.level, radixTreeMaxindex_eq represents.low,
      Option.bind_some, if_pos beyond, missing]
    rfl

end Delete

end DmsBlkdev
