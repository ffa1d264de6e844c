import DmsBlkdev.Cache.RadixForest

/-!
# The radix trees over whole runs

Whatever operations come, in whatever order and on whatever trees, the answers
are those of finite maps.  What goes wrong goes wrong after an insertion that
has been refused: the tree may keep nodes without items below them, or a
height without a node.  A lookup of several items does not check for that.
-/

namespace DmsBlkdev

open Lib RadixForest

variable {Id : Type} [DecidableEq Id]

def refusedAnswer : RadixAnswer := .inserted (-12) 0

/-- An insertion that is granted all the nodes that it may need. -/
def RadixEvent.Ample : RadixEvent Id → Prop
  | .insert _ _ _ grants => NodesGranted mostNodes grants
  | _ => True

section Answers

instance decidableNodesGranted : ∀ (count : Nat) (grants : List (Option Nat)),
    Decidable (NodesGranted count grants)
  | 0, _ => .isTrue trivial
  | count + 1, grants =>
      have := decidableNodesGranted count grants.tail
      inferInstanceAs (Decidable (_ ∧ _))

omit [DecidableEq Id] in
instance decidableAmple : DecidablePred (@RadixEvent.Ample Id)
  | .insert _ _ _ grants => decidableNodesGranted mostNodes grants
  | .delete .. => .isTrue trivial
  | .lookup .. => .isTrue trivial
  | .gangLookup .. => .isTrue trivial

theorem refused_of_allowed {first last : RadixMaps Id} {events : List (RadixEvent Id)}
    {answers : List RadixAnswer} (allowed : Trace.Allowed MapStep first events answers last) :
    last.refused = first.refused + answers.count refusedAnswer := by
  induction allowed with
  | nil state => rfl
  | @cons state next last event answer events answers step rest inductionHypothesis =>
      have taken : next.refused = state.refused + if answer = refusedAnswer then 1 else 0 := by
        cases step <;> simp [refusedAnswer]
      rw [inductionHypothesis, taken, List.count_cons, Nat.add_right_comm, Nat.add_assoc]
      simp only [beq_iff_eq]

theorem ample_of_allowed {first last : RadixMaps Id} {events : List (RadixEvent Id)}
    {answers : List RadixAnswer} (allowed : Trace.Allowed MapStep first events answers last)
    (ample : ∀ event ∈ events, event.Ample) : last.refused = first.refused := by
  induction allowed with
  | nil state => rfl
  | @cons state next last event answer events answers step rest inductionHypothesis =>
      rw [inductionHypothesis fun later member => ample later (List.mem_cons_of_mem _ member)]
      have here := ample event List.mem_cons_self
      cases step with
      | refused id index item short => exact absurd here short
      | inserted id index item grants => rfl
      | deleted id index => rfl
      | found id index => rfl
      | gathered id firstIndex maxItems => rfl

omit [DecidableEq Id] in
/-- A root whose tree is tidy is not hollow. -/
theorem ForestRefines.not_usesHollow {trees : Id → AnyDigits} {forest : RadixForest Id}
    {state : RadixMaps Id} (refines : ForestRefines trees forest state) (none : state.refused = 0)
    (event : RadixEvent Id) : ¬ forest.UsesHollow event := by
  cases event with
  | insert id index item grants => exact not_false
  | delete id index => exact not_false
  | lookup id index => exact not_false
  | gangLookup id firstIndex maxItems =>
      intro looks
      obtain ⟨empty, high⟩ := (hollow_iff (refines.planted.each id)).mp looks.1
      exact (refines.tidy none id).not_hollow empty high

end Answers

section Trace

/-- Operations on radix trees that share a slab have the answers of operations on finite maps, one
for each tree, unless one of them faults. -/
theorem radixForest_trace_allowed (events : List (RadixEvent Id))
    (safe : Trace.Safe UsesHollow step (init : RadixForest Id) events) :
    ∃ answers last maps, Trace.trace step (init : RadixForest Id) events = some (answers, last) ∧
      Trace.Allowed MapStep RadixMaps.init events answers maps := by
  obtain ⟨answers, last, maps, ran, allowed, -⟩ :=
    radixForest_simulates.trace ⟨_, refines_init⟩ safe
  exact ⟨answers, last, maps, ran, allowed⟩

def mixedEvents : List (RadixEvent Bool) :=
  [.insert true 70 ⟨7, by decide⟩ [some 0, some 0], .insert false 5 ⟨9, by decide⟩ [],
    .insert false 70 ⟨8, by decide⟩ [], .gangLookup true 3 2, .delete true 70]

theorem radixForest_trace_allowed_mixed :
    ∃ answers last maps,
      Trace.trace step (init : RadixForest Bool) mixedEvents = some (answers, last) ∧
        Trace.Allowed MapStep RadixMaps.init mixedEvents answers maps :=
  radixForest_trace_allowed mixedEvents (by decide +kernel)

/-- Operations on radix trees fault exactly when one of them is a lookup of several items in a tree
whose root has a height and no node, and that comes of an insertion that has been refused. -/
theorem radixForest_faults_iff (events : List (RadixEvent Id)) :
    Trace.trace step (init : RadixForest Id) events = none ↔ ∃ before event after answers mid,
      events = before ++ event :: after ∧
        Trace.trace step (init : RadixForest Id) before = some (answers, mid) ∧
        mid.UsesHollow event ∧ refusedAnswer ∈ answers := by
  rw [radixForest_simulates.trace_eq_none_iff ⟨_, refines_init⟩]
  constructor
  · rintro ⟨before, event, after, answers, mid, split, led, hollow⟩
    obtain ⟨maps, allowed, trees, refines⟩ := radixForest_simulates.of_trace ⟨_, refines_init⟩ led
    refine ⟨before, event, after, answers, mid, split, led, hollow, ?_⟩
    by_contra absent
    have counted := refused_of_allowed allowed
    rw [List.count_eq_zero.mpr absent] at counted
    exact refines.not_usesHollow counted event hollow
  · rintro ⟨before, event, after, answers, mid, split, led, hollow, -⟩
    exact ⟨before, event, after, answers, mid, split, led, hollow⟩

example : (Trace.trace step (init : RadixForest Bool)
    (mixedEvents ++ [.gangLookup false 0 1])).isNone = true := by decide +kernel

end Trace

section Hygiene

/-- The objects of the slab are each free or in one tree, and those that are free are all zero. -/
structure KeepsNodes (forest : RadixForest Id) : Prop where
  once : (forest.slab.live ++ forest.slab.free).Nodup
  zeroed : ∀ addr ∈ forest.slab.free, forest.slab.objects addr = zeroedNode
  distinct : ∀ id, (forest.nodesOf id).Nodup
  owned : ∀ addr, addr ∈ forest.slab.live ↔ ∃! id, addr ∈ forest.nodesOf id

omit [DecidableEq Id] in
theorem nodesBelow_stored {slab : RadixTreeSlab} {height : Nat} {tree : RadixDigits height}
    (stored : Stored slab tree) (sound : slab.Sound) :
    nodesBelow slab height (pointer tree) = tree.labels := by
  induction tree with
  | @empty height => cases height <;> rfl
  | leaf item => rfl
  | node label children inductionHypothesis =>
      obtain ⟨live, contents⟩ := RadixTreeSlab.node_eq_some.mp stored.1
      have nonzero : label ≠ 0 := fun zero => sound.zero_notMem (zero ▸ live)
      rw [nodesBelow, pointer_node, if_neg nonzero, contents, DigitTree.labels]
      have below := fun d => inductionHypothesis d (stored.2 d)
      simp only [contentsOf, below]

omit [DecidableEq Id] in
theorem Planted.nodesOf {forest : RadixForest Id} {trees : Id → AnyDigits}
    (planted : Planted forest trees) (id : Id) : forest.nodesOf id = (trees id).2.labels := by
  have represents := planted.each id
  have level : (forest.roots id).height = (trees id).1 := represents.level
  have rnode : (forest.roots id).rnode = pointer (trees id).2 := represents.rnode
  rw [RadixForest.nodesOf, level, rnode]
  exact nodesBelow_stored represents.stored represents.sound

/-- In every run, each node that is allocated is in one tree, each node that is not is all zero,
and `node_count` is their number and that of the insertions refused. -/
theorem radixForest_keepsNodes {events : List (RadixEvent Id)}
    {answers : List RadixAnswer} {last : RadixForest Id}
    (ran : Trace.trace step (init : RadixForest Id) events = some (answers, last)) :
    KeepsNodes last ∧ last.slab.nodeCount =
      BitVec.ofNat 32 (last.slab.live.length + answers.count refusedAnswer) := by
  obtain ⟨maps, allowed, trees, refines⟩ := radixForest_simulates.of_trace ⟨_, refines_init⟩ ran
  have nodes := refines.planted.nodesOf
  have sound : last.slab.Sound := refines.planted.sound
  refine ⟨⟨sound.nodup, sound.zeroed, fun id => ?_, fun addr => ⟨fun live => ?_, ?_⟩⟩, ?_⟩
  · rw [nodes]
    exact (refines.planted.each id).labels_nodup
  · obtain ⟨id, inside⟩ := refines.planted.owned addr live
    refine ⟨id, ?_, fun other another => ?_⟩
    · exact (congrArg (addr ∈ ·) (nodes id)).mpr inside
    · dsimp only at another
      rw [nodes] at another
      exact refines.planted.apart other id addr another inside
  · rintro ⟨id, inside, -⟩
    rw [nodes] at inside
    exact (refines.planted.each id).stored.labels_live addr inside
  · have counted := refines.counted
    rw [refused_of_allowed allowed, RadixTreeSlab.surplus] at counted
    have refused : (RadixMaps.init : RadixMaps Id).refused + answers.count refusedAnswer =
        answers.count refusedAnswer := Nat.zero_add _
    rw [BitVec.ofNat_add, ← refused, ← counted]
    grind

theorem radixForest_keepsNodes_mixed :
    ∃ answers last,
      Trace.trace step (init : RadixForest Bool) mixedEvents = some (answers, last) ∧
        KeepsNodes last ∧ last.slab.nodeCount =
          BitVec.ofNat 32 (last.slab.live.length + answers.count refusedAnswer) := by
  have taken : (Trace.trace step (init : RadixForest Bool) mixedEvents).isSome = true := by
    decide +kernel
  obtain ⟨⟨answers, last⟩, ran⟩ := Option.isSome_iff_exists.mp taken
  exact ⟨answers, last, ran, radixForest_keepsNodes ran⟩

end Hygiene

section Tidy

/-- No tree has a node or a height that it could do without. -/
structure Tidy (forest : RadixForest Id) : Prop where
  counted : forest.slab.nodeCount = BitVec.ofNat 32 forest.slab.live.length
  filled : ∀ addr ∈ forest.slab.live, (forest.slab.objects addr).count ≠ 0
  lowest : ∀ id levels, (forest.roots id).height = levels + 1 → ∃ index : BitVec 64,
    radixTreeMapSize ^ levels ≤ index.toNat ∧
      radixTreeLookup index.toNat (forest.tree id) ≠ some 0
  bare : ∀ id, (∀ index : BitVec 64, radixTreeLookup index.toNat (forest.tree id) = some 0) →
    forest.roots id = ⟨0, 0⟩ ∧ forest.nodesOf id = []

section RadixRepresents

variable {others : List Nat} {radix : RadixTree} {height : Nat} {tree : RadixDigits height}

theorem RadixRepresents.lookup_ne_zero (represents : RadixRepresents others radix tree)
    {entry : Nat × Nat}
    (member : entry ∈ tree.toMap.entries) :
    ∃ index : BitVec 64, index.toNat = entry.1 ∧ radixTreeLookup index.toNat radix ≠ some 0 := by
  have small := represents.bounded entry.1 entry.2 member
  have nonzero := represents.stored.item_ne_zero (DigitTree.mem_toMap.mp member).2
  have value : (BitVec.ofNat 64 entry.1).toNat = entry.1 := Nat.mod_eq_of_lt small
  refine ⟨BitVec.ofNat 64 entry.1, value, ?_⟩
  rw [value, radixTreeLookup_spec represents small, OrderedMap.lookup_eq_some.mpr member]
  exact fun same => nonzero (Option.some.inj same)

theorem RadixRepresents.lowest (represents : RadixRepresents others radix tree)
    (fruitful : tree.Fruitful)
    (needed : tree.Needed) {levels : Nat} (level : radix.2.height = levels + 1) :
    ∃ index : BitVec 64, radixTreeMapSize ^ levels ≤ index.toNat ∧
      radixTreeLookup index.toNat radix ≠ some 0 := by
  obtain rfl := represents.level.symm.trans level
  obtain ⟨entry, member, high⟩ := fruitful.exists_high needed
  obtain ⟨index, same, found⟩ := represents.lookup_ne_zero member
  exact ⟨index, same ▸ high, found⟩

theorem RadixRepresents.bare {tree : AnyDigits} (represents : RadixRepresents others radix tree.2)
    (neat : tree.Neat)
    (nothing : ∀ index : BitVec 64, radixTreeLookup index.toNat radix = some 0) :
    radix.2 = ⟨0, 0⟩ ∧ tree.2.labels = [] := by
  have entries : tree.2.toMap.entries = [] := by
    apply List.eq_nil_iff_forall_not_mem.mpr
    intro entry member
    obtain ⟨index, -, found⟩ := represents.lookup_ne_zero member
    exact found (nothing index)
  obtain rfl := neat.eq_empty entries
  have fields : radix.2 = ⟨radix.2.height, radix.2.rnode⟩ := rfl
  rw [fields, represents.level, represents.rnode]
  exact ⟨rfl, rfl⟩

theorem Stored.count_ne_zero {slab : RadixTreeSlab} (stored : Stored slab tree)
    (fruitful : tree.Fruitful) {addr : Nat} (member : addr ∈ tree.labels) :
    (slab.objects addr).count ≠ 0 := by
  induction tree with
  | empty => exact absurd member List.not_mem_nil
  | leaf item => exact absurd member List.not_mem_nil
  | node label children inductionHypothesis =>
      rcases List.mem_cons.mp member with rfl | below
      · rw [(RadixTreeSlab.node_eq_some.mp stored.1).2]
        exact fun zero => fruitful.1 ((count_eq_iff children (Nat.zero_le _)).mp zero)
      · obtain ⟨d, -, inside⟩ := List.mem_flatMap.mp below
        exact inductionHypothesis d (stored.2 d) (fruitful.2 d) inside

end RadixRepresents

/-- While every insertion is granted what it may need, no operation faults, no node is empty, no
tree is higher than its last item wants it, and a tree without items has no node. -/
theorem radixForest_tidy (events : List (RadixEvent Id)) (ample : ∀ event ∈ events, event.Ample) :
    ∃ answers last, Trace.trace step (init : RadixForest Id) events = some (answers, last) ∧
      Tidy last := by
  cases ran : Trace.trace step (init : RadixForest Id) events with
  | none =>
      obtain ⟨before, event, after, answers, mid, rfl, led, hollow⟩ :=
        (radixForest_simulates.trace_eq_none_iff ⟨_, refines_init⟩ events).mp ran
      obtain ⟨maps, allowed, trees, refines⟩ :=
        radixForest_simulates.of_trace ⟨_, refines_init⟩ led
      have none := ample_of_allowed allowed fun earlier member =>
        ample earlier (List.mem_append_left _ member)
      exact absurd hollow (refines.not_usesHollow none event)
  | some ended =>
      obtain ⟨answers, last⟩ := ended
      obtain ⟨maps, allowed, trees, refines⟩ :=
        radixForest_simulates.of_trace ⟨_, refines_init⟩ ran
      have none : maps.refused = 0 := ample_of_allowed allowed ample
      have planted := refines.planted
      refine ⟨answers, last, rfl, ?_, fun addr live => ?_, fun id levels level => ?_,
        fun id nothing => ?_⟩
      · have counted := refines.counted
        rw [none, RadixTreeSlab.surplus] at counted
        grind
      · obtain ⟨id, inside⟩ := planted.owned addr live
        exact (planted.each id).stored.count_ne_zero (refines.tidy none id).1 inside
      · exact (planted.each id).lowest (refines.tidy none id).1 (refines.tidy none id).2 level
      · rw [planted.nodesOf]
        exact (planted.each id).bare (refines.tidy none id) nothing

def granted (count : Nat) : List (Option Nat) := List.replicate count (some 0)

theorem radixForest_tidy_deleted :
    ∃ answers last, Trace.trace step (init : RadixForest Bool)
      [.insert true 0 ⟨7, by decide⟩ (granted mostNodes),
        .insert true 70 ⟨8, by decide⟩ (granted mostNodes), .delete true 70] =
          some (answers, last) ∧ Tidy last :=
  radixForest_tidy _ (by decide +kernel)

end Tidy

section Refusal

def LooksUp (forest after : RadixForest Id) (stored : Option (Id × BitVec 64 × Nat)) : Prop :=
  ∀ (id : Id) (index : BitVec 64), radixTreeLookup index.toNat (after.tree id) =
    match stored with
    | none => radixTreeLookup index.toNat (forest.tree id)
    | some (target, key, item) =>
        if id = target ∧ index = key then some item
        else radixTreeLookup index.toNat (forest.tree id)

theorem looksUp_of_planted {forest : RadixForest Id} {trees : Id → AnyDigits}
    (planted : Planted forest trees) {id : Id} {after : RadixTree} {treeAfter : AnyDigits}
    (next : Planted (forest.set id after) (Function.update trees id treeAfter))
    (stored : Option (BitVec 64 × Nat))
    (map : ∀ index : BitVec 64, treeAfter.2.toMap.lookup index.toNat =
      match stored with
      | none => (trees id).2.toMap.lookup index.toNat
      | some (key, item) =>
          if index = key then some item else (trees id).2.toMap.lookup index.toNat) :
    LooksUp forest (forest.set id after) (stored.map fun entry => (id, entry)) := by
  intro other index
  have found := radixTreeLookup_spec (next.each other) index.isLt
  rw [found, radixTreeLookup_spec (planted.each other) index.isLt]
  by_cases same : other = id
  · subst same
    rw [Function.update_self, map index]
    cases stored with
    | none => rfl
    | some entry =>
        obtain ⟨key, item⟩ := entry
        by_cases here : index = key <;> simp [here]
  · rw [Function.update_of_ne same]
    cases stored with
    | none => rfl
    | some entry => simp [same]

/-- In every state that is reached, an insertion fails exactly when one of the nodes that it needs is
refused, of which there may be 21, and then changes the lookup of no index of any tree. -/
theorem radixTreeInsert_refused_iff {events : List (RadixEvent Id)} {answers : List RadixAnswer}
    {last : RadixForest Id}
    (ran : Trace.trace step (init : RadixForest Id) events = some (answers, last)) (id : Id)
    (index : BitVec 64) (item : { item : Nat // item ≠ 0 }) :
    ∃ needed ≤ mostNodes, ∀ grants, ∃ ret replaced after,
      radixTreeInsert index.toNat item grants (last.tree id) = some (ret, replaced, after) ∧
      (NodesGranted needed grants → ret = 0 ∧ LooksUp last (last.set id after) (some (id, index, item))) ∧
      (¬ NodesGranted needed grants → ret = -12 ∧ LooksUp last (last.set id after) none) := by
  obtain ⟨maps, allowed, trees, refines⟩ := radixForest_simulates.of_trace ⟨_, refines_init⟩ ran
  have planted := refines.planted
  have represents := planted.each id
  refine ⟨nodesNeeded index.toNat (trees id).2,
    nodesNeeded_le index.isLt (trees id).2 represents.low, fun grants => ?_⟩
  obtain ⟨heightAfter, treeAfter, ret, replaced, after, inserted, holds, untouched, ends⟩ :=
    radixTreeInsert_spec represents index.isLt item.2 grants
  have next := planted.replace ⟨heightAfter, treeAfter⟩ holds untouched
  refine ⟨ret, replaced, after, inserted, ?_⟩
  cases ends with
  | inserted granted map tidy counted =>
      refine ⟨fun _ => ⟨rfl, ?_⟩, fun short => absurd granted short⟩
      refine looksUp_of_planted planted next (some (index, item.1)) fun key => ?_
      rw [map, OrderedMap.lookup_insert]
      simp only [BitVec.toNat_inj]
  | refused short map counted =>
      refine ⟨fun granted => absurd granted short, fun _ => ⟨rfl, ?_⟩⟩
      exact looksUp_of_planted planted next none fun key => by rw [map]

theorem radixTreeInsert_refused_iff_mixed :
    ∃ last : RadixForest Bool, ∃ needed ≤ mostNodes, ∀ grants, ∃ ret replaced after,
      radixTreeInsert 5 9 grants (last.tree false) = some (ret, replaced, after) ∧
      (NodesGranted needed grants →
        ret = 0 ∧ LooksUp last (last.set false after) (some (false, 5, 9))) ∧
      (¬ NodesGranted needed grants → ret = -12 ∧ LooksUp last (last.set false after) none) := by
  have taken : (Trace.trace step (init : RadixForest Bool) mixedEvents).isSome = true := by
    decide +kernel
  obtain ⟨⟨answers, last⟩, ran⟩ := Option.isSome_iff_exists.mp taken
  exact ⟨last, radixTreeInsert_refused_iff ran false 5 ⟨9, by decide⟩⟩

/-- An item at the first index and one at the last need all of the nodes. -/
example : ((radixTreeInsert 0 7 [] (.init, ⟨0, 0⟩)).bind fun first =>
    (radixTreeInsert (2 ^ 64 - 1) 9 (granted 20) first.2.2).map fun second => second.1) = some (-12) ∧
      ((radixTreeInsert 0 7 [] (.init, ⟨0, 0⟩)).bind fun first =>
        (radixTreeInsert (2 ^ 64 - 1) 9 (granted 21) first.2.2).map fun second => second.1) =
          some 0 := by
  decide +kernel

end Refusal

end DmsBlkdev
