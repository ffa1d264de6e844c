import DmsBlkdev.Cache.RadixModuleSteps
import DmsBlkdev.Cache.RadixRuns

/-!
# The cache module over whole runs

The calls that callers may make get through on the module over chains and
trees, with the answers of the module over a list and maps, as long as no find
comes upon a tree that a refused insertion has left hollow.  While no node is
refused, no call can, and the trees use no node that they do not need.
-/

namespace DmsBlkdev

open Lib Lib.HashChains RadixModule

variable {Data : Type}

namespace RadixModuleEvent

def resolve (nodeGranted : Nat → Bool) : RadixModuleEvent Data → CacheModuleEvent Data
  | .createVolumeCache volid cacheSize granted => .createVolumeCache volid.toNat cacheSize granted
  | .releaseVolumeCache volid => .releaseVolumeCache volid.toNat
  | .update volid start count items =>
      .operate volid.toNat (.update start count (items.resolve nodeGranted))
  | .find volid start count => .operate volid.toNat (.find start count)
  | .put volid basket => .operate volid.toNat (.put basket)
  | .invalidate volid start count => .operate volid.toNat (.invalidate start count)
  | .invalidateByType type volid start count condition =>
      .operate volid.toNat (if type = 2 then .kick (-1) none else if type = 3 then .kick (-1) condition
        else .invalidate start (if type = 1 then count else 0))

/-- Only insertions that may not get all their nodes are refused. -/
def Allows (nodeGranted : Nat → Bool) : RadixModuleEvent Data → Prop
  | .update _ _ _ items => items.Resolves nodeGranted
  | _ => True

/-- Every insertion is granted all the nodes that it may need. -/
def Ample : RadixModuleEvent Data → Prop
  | .update _ _ _ items => ∀ i, NodesGranted mostNodes (items.nodeGrants i)
  | _ => True

end RadixModuleEvent

def ModelStep (model : CacheModule Data) (event : RadixModuleEvent Data) (answer : CacheAnswer)
    (next : CacheModule Data) : Prop :=
  ∃ nodeGranted, event.Allows nodeGranted ∧
    model.observe (event.resolve nodeGranted) = some (answer, next)

section Step

variable {state : RadixModule Data} {rows : List Row} {refused : Nat} {lost : List Nat}
  {event : RadixModuleEvent Data}

theorem observe_nothing (model : CacheModule Data) (volid : Nat) (start : BitVec 64) :
    model.observe (.operate volid (.invalidate start 0)) = some (.returned 0, model) := by
  rw [CacheModule.observe, CacheModule.step, CacheModule.answer]
  cases found : volumeFind volid model.volumes with
  | none => rfl
  | some slot =>
      obtain ⟨place, v⟩ := slot
      obtain ⟨place', -, located⟩ := Option.bind_eq_some_iff.mp found
      obtain ⟨v', here, same⟩ := Option.map_eq_some_iff.mp located
      cases same
      obtain ⟨within, rfl⟩ := List.getElem?_eq_some_iff.mp here
      have unchanged := List.set_getElem_self within
      simp only [CacheState.step, CacheEvent.answer]
      refine congrArg some (Prod.ext rfl ?_)
      exact congrArg (fun volumes => CacheModule.mk model.leaves volumes model.outstanding) unchanged

/-- Every call is in step with one of the model. -/
theorem Housed.step (housed : Housed state rows refused lost) (kept : (modelOf state rows).Kept)
    (proper : state.Proper event) (solid : ¬ state.UsesHollow event) :
    ∃ nodeGranted, event.Allows nodeGranted ∧
      Option.Rel (Agrees refused event.Ample) (state.step event)
        ((modelOf state rows).observe (event.resolve nodeGranted)) := by
  cases event with
  | createVolumeCache volid cacheSize granted =>
      exact ⟨fun _ => true, trivial, housed.volumeCreate cacheSize granted⟩
  | releaseVolumeCache volid => exact ⟨fun _ => true, trivial, housed.volumeClearAll kept⟩
  | update volid start count items => exact housed.cacheUpdate start count items
  | find volid start count => exact ⟨fun _ => true, trivial, housed.cacheFind volid start count solid⟩
  | put volid basket => exact ⟨fun _ => true, trivial, housed.cachePut basket⟩
  | invalidate volid start count =>
      exact ⟨fun _ => true, trivial, housed.cacheInvalidate start count⟩
  | invalidateByType type volid start count condition =>
      refine ⟨fun _ => true, trivial, ?_⟩
      rw [RadixModule.step, RadixModule.cacheInvalidateByType, RadixModuleEvent.resolve]
      split_ifs with byVolume byCondition byRange
      · exact housed.kickMetaCache (-1) none
      · cases condition with
        | none => cases proper byCondition
        | some holds => exact housed.kickMetaCache (-1) (some holds)
      · exact housed.cacheInvalidate start count
      · rw [observe_nothing]
        exact .some ⟨rfl, rows, refused, lost, housed, rfl, fun _ => rfl⟩

theorem Housed.legal (housed : Housed state rows refused lost) (proper : state.Proper event)
    (nodeGranted : Nat → Bool) : (modelOf state rows).Legal (event.resolve nodeGranted) ∧
      (modelOf state rows).Answered (event.resolve nodeGranted) := by
  cases event with
  | createVolumeCache volid cacheSize granted => exact ⟨trivial, trivial⟩
  | releaseVolumeCache volid => exact ⟨trivial, trivial⟩
  | update volid start count items => exact ⟨trivial, trivial⟩
  | find volid start count =>
      refine ⟨trivial, fun found _ entry _ _ _ => ?_⟩
      by_cases member : entry.2 ∈ state.outstanding
      · exact proper entry.2 member
      · have none : (modelOf state rows).outstanding.count entry.2 = 0 :=
          List.count_eq_zero.mpr member
        rw [none]
        decide
  | put volid basket =>
      refine ⟨proper.2, ?_⟩
      have known := proper.1
      rcases exists_first (fun row : Row => row.v.volid) volid.toNat rows with
        none_here | ⟨before, row, after, rfl, none_before, here⟩
      · rw [(housed.absent none_here).1] at known
        cases known
      · obtain ⟨place, -, foundModel, -, -⟩ := housed.first none_before here
        have model : volumeFind volid.toNat (modelOf state (before ++ row :: after)).volumes =
            some (before.length, row.model) := foundModel
        simp only [RadixModuleEvent.resolve, CacheModule.Answered, model, Option.isSome_some]
  | invalidate volid start count => exact ⟨trivial, trivial⟩
  | invalidateByType type volid start count condition =>
      rw [RadixModuleEvent.resolve]
      split_ifs <;> exact ⟨trivial, trivial⟩

/-- A call that callers may make gets through, with an answer of the model. -/
theorem Housed.taken (housed : Housed state rows refused lost) (kept : (modelOf state rows).Kept)
    (proper : state.Proper event) (solid : ¬ state.UsesHollow event) :
    ∃ answer next rowsAfter refusedAfter lostAfter, state.step event = some (answer, next) ∧
      ModelStep (modelOf state rows) event answer (modelOf next rowsAfter) ∧
      Housed next rowsAfter refusedAfter lostAfter ∧ (modelOf next rowsAfter).Kept ∧
      (event.Ample → refusedAfter = refused) := by
  obtain ⟨nodeGranted, allows, rel⟩ := housed.step kept proper solid
  obtain ⟨legal, answered⟩ := housed.legal proper nodeGranted
  obtain ⟨nextModel, steps, keptAfter⟩ := CacheModule.step_kept kept legal answered
  have observed : (modelOf state rows).observe (event.resolve nodeGranted) =
      some ((modelOf state rows).answer (event.resolve nodeGranted), nextModel) := by
    rw [CacheModule.observe, steps]
    rfl
  rw [observed] at rel
  cases ran : state.step event with
  | none =>
      rw [ran] at rel
      cases rel
  | some one =>
      obtain ⟨answer, next⟩ := one
      rw [ran, Option.rel_some_some] at rel
      obtain ⟨same, rowsAfter, refusedAfter, lostAfter, housedAfter, model, ample⟩ := rel
      obtain rfl : nextModel = modelOf next rowsAfter := model
      obtain rfl : answer = (modelOf state rows).answer (event.resolve nodeGranted) := same
      exact ⟨_, next, rowsAfter, refusedAfter, lostAfter, rfl, ⟨nodeGranted, allows, observed⟩,
        housedAfter, keptAfter, ample⟩

/-- While no node has been refused, no find comes upon a hollow root. -/
theorem Housed.solid (housed : Housed state rows 0 lost) (event : RadixModuleEvent Data) :
    ¬ state.UsesHollow event := by
  cases event with
  | find volid start count =>
      rw [RadixModule.UsesHollow]
      rcases exists_first (fun row : Row => row.v.volid) volid.toNat rows with
        none_here | ⟨before, row, after, rfl, none_before, here⟩
      · rw [(housed.absent none_here).1]
        exact not_false
      · obtain ⟨place, found, -⟩ := housed.first none_before here
        rw [found]
        intro looks
        obtain ⟨empty, high⟩ := (hollow_iff housed.backed.represents).mp looks.1
        have neat := (housed.neat rfl).2 row (List.mem_append_right _ List.mem_cons_self)
        exact neat.not_hollow empty high
  | createVolumeCache volid cacheSize granted => exact not_false
  | releaseVolumeCache volid => exact not_false
  | update volid start count items => exact not_false
  | put volid basket => exact not_false
  | invalidate volid start count => exact not_false
  | invalidateByType type volid start count condition => exact not_false

theorem housed_init : Housed (RadixModule.init : RadixModule Data) [] 0 [] := by
  refine ⟨⟨RadixTreeSlab.sound_init, List.Perm.refl _,
    fun _ member => absurd member List.not_mem_nil, ?_,
    BitVec.sub_self 0#32, fun _ => ⟨rfl, fun _ member => absurd member List.not_mem_nil⟩⟩,
    chained_nil⟩
  intro addr leaf found
  cases found

end Step

section Runs

def Modelled (state : RadixModule Data) (model : CacheModule Data) : Prop :=
  ∃ rows refused lost, Housed state rows refused lost ∧ model = modelOf state rows ∧ model.Kept

theorem modelled_init : Modelled (RadixModule.init : RadixModule Data) CacheModule.init :=
  ⟨[], 0, [], housed_init, rfl, CacheModule.kept_init⟩

def Strays (state : RadixModule Data) (event : RadixModuleEvent Data) : Prop :=
  ¬ state.Proper event ∨ state.UsesHollow event

instance (state : RadixModule Data) : DecidablePred (Strays state) := fun event =>
  inferInstanceAs (Decidable (¬ state.Proper event ∨ state.UsesHollow event))

theorem radixModule_follows :
    Trace.Follows (@RadixModule.step Data) Strays ModelStep Modelled where
  taken := by
    rintro state _ event ⟨rows, refused, lost, housed, rfl, kept⟩ straight
    rw [Strays, not_or, not_not] at straight
    obtain ⟨answer, next, rowsAfter, refusedAfter, lostAfter, ran, allowed, housedAfter, keptAfter,
      -⟩ :=
      housed.taken kept straight.1 straight.2
    exact ⟨answer, next, modelOf next rowsAfter, ran, allowed, rowsAfter, refusedAfter, lostAfter,
      housedAfter, rfl, keptAfter⟩

/-- Calls of the module over chains and radix trees that callers may make, and that come upon no
hollow tree, get through with the answers, the leaves and the references of the module over a list
of volumes and maps. -/
theorem radixModule_trace_allowed (events : List (RadixModuleEvent Data))
    (straight : Trace.Safe Strays RadixModule.step RadixModule.init events) :
    ∃ answers last model, Trace.trace RadixModule.step RadixModule.init events =
        some (answers, last) ∧
      Trace.Allowed ModelStep CacheModule.init events answers model ∧
      model.leaves = last.leaves ∧ model.outstanding = last.outstanding := by
  obtain ⟨answers, last, _, ran, allowed, rows, refused, lost, -, rfl, -⟩ :=
    radixModule_follows.trace modelled_init straight
  exact ⟨answers, last, modelOf last rows, ran, allowed, rfl, rfl⟩

def threeItems (nodeGrants : List (Option Nat)) : RadixItems Nat :=
  ⟨fun i => 100 + i, fun _ => true, fun _ => nodeGrants⟩

/-- Two volumes in one chain; the third update of the first is granted `nodeGrants`. -/
def twoVolumes (nodeGrants : List (Option Nat)) : List (RadixModuleEvent Nat) :=
  [.createVolumeCache 1 4 true, .createVolumeCache 24 8 true,
    .update 1 0 3 (threeItems (granted mostNodes)), .update 24 62 3 (threeItems (granted mostNodes)),
    .find 1 1 4, .update 1 100 3 (threeItems nodeGrants), .invalidate 24 62 1,
    .put 1 [some 1, none, none, some 2], .find 24 60 6, .releaseVolumeCache 1,
    .invalidateByType 3 24 0 0 (some fun data => data % 2 == 0), .find 1 0 1]

theorem radixModule_trace_allowed_two :
    ∃ answers last model, Trace.trace RadixModule.step RadixModule.init (twoVolumes []) =
        some (answers, last) ∧
      Trace.Allowed ModelStep CacheModule.init (twoVolumes []) answers model ∧
      model.leaves = last.leaves ∧ model.outstanding = last.outstanding :=
  radixModule_trace_allowed (twoVolumes []) (by decide +kernel)

def Unrefused (state : RadixModule Data) (model : CacheModule Data) : Prop :=
  ∃ rows, Housed state rows 0 [] ∧ model = modelOf state rows ∧ model.Kept

theorem unrefused_follows :
    Trace.Follows (@RadixModule.step Data)
      (fun state event => ¬ state.Proper event ∨ ¬ event.Ample) ModelStep Unrefused where
  taken := by
    rintro state _ event ⟨rows, housed, rfl, kept⟩ straight
    rw [not_or, not_not, not_not] at straight
    obtain ⟨answer, next, rowsAfter, refusedAfter, lostAfter, ran, allowed, housedAfter, keptAfter,
      ample⟩ := housed.taken kept straight.1 (housed.solid event)
    obtain rfl := ample straight.2
    obtain rfl := (housedAfter.neat rfl).1
    exact ⟨answer, next, modelOf next rowsAfter, ran, allowed, rowsAfter, housedAfter, rfl, keptAfter⟩

theorem unrefused_init : Unrefused (RadixModule.init : RadixModule Data) CacheModule.init :=
  ⟨[], housed_init, rfl, CacheModule.kept_init⟩

theorem unrefused_safe {events : List (RadixModuleEvent Data)}
    (ample : ∀ event ∈ events, event.Ample)
    (proper : Trace.Safe (fun state event => ¬ state.Proper event) RadixModule.step
      RadixModule.init events) :
    Trace.Safe (fun state event => ¬ state.Proper event ∨ ¬ event.Ample) RadixModule.step
      RadixModule.init events := by
  apply proper.or
  exact fun event member => not_not.mpr (ample event member)

/-- Every node is one of a volume's tree and has a `count` that is not 0, a volume without leaves has
none, and `node_count` is their number. -/
structure Frugal (state : RadixModule Data) : Prop where
  owned : state.slab.live.Perm (state.volidTable.volumes.flatMap fun v =>
    RadixForest.nodesBelow state.slab v.root.height v.root.rnode)
  filled : ∀ addr ∈ state.slab.live, (state.slab.objects addr).count ≠ 0
  bare : ∀ v ∈ state.volidTable.volumes, v.lruList = [] → v.root = ⟨0, 0⟩
  counted : state.slab.nodeCount = BitVec.ofNat 32 state.slab.live.length

theorem Housed.volumes_perm {state : RadixModule Data} {rows : List Row} {refused : Nat}
    {lost : List Nat} (housed : Housed state rows refused lost) :
    state.volidTable.volumes.Perm (rows.map Row.v) :=
  housed.chained.perm (List.nodup_finRange _) List.mem_finRange

theorem Row.Held.nodesBelow {slab : RadixTreeSlab} {row : Row} (held : row.Held slab)
    (sound : slab.Sound) :
    RadixForest.nodesBelow slab row.v.root.height row.v.root.rnode = row.tree.2.labels := by
  rw [held.level, held.rnode]
  exact nodesBelow_stored held.stored sound

theorem frugal_of_unrefused {state : RadixModule Data} {model : CacheModule Data}
    (unrefused : Unrefused state model) : Frugal state := by
  obtain ⟨rows, housed, rfl, kept⟩ := unrefused
  have live := housed.live
  rw [List.append_nil] at live
  refine ⟨?_, fun addr member => ?_, fun v member none => ?_, ?_⟩
  · refine live.trans (List.Perm.trans ?_ (housed.volumes_perm.flatMap_right _).symm)
    rw [List.flatMap_map]
    refine List.Perm.of_eq (List.flatMap_congr fun row member => ?_)
    exact ((housed.held row member).nodesBelow housed.sound).symm
  · obtain ⟨row, inside, label⟩ := List.mem_flatMap.mp (live.mem_iff.mp member)
    exact (housed.held row inside).stored.count_ne_zero ((housed.neat rfl).2 row inside).1 label
  · obtain ⟨row, inside, rfl⟩ := List.mem_map.mp (housed.volumes_perm.mem_iff.mp member)
    have consistent := kept.consistent row.model (List.mem_map_of_mem inside)
    have held := housed.held row inside
    have listed : row.model.lruList = [] := none
    have empty : row.map.entries = [] := by
      have items := consistent.listed
      rw [listed] at items
      exact List.map_eq_nil_iff.mp items.nil_eq.symm
    have nothing : row.tree.2.toMap.entries = [] := by
      rw [held.map]
      exact congrArg (List.map _) empty
    have bare := ((housed.neat rfl).2 row inside).eq_empty nothing
    have level : row.v.root.height = 0 := held.level.trans (congrArg Sigma.fst bare)
    have rnode : row.v.root.rnode = 0 := by
      rw [held.rnode, bare]
      rfl
    have fields : row.v.root = ⟨row.v.root.height, row.v.root.rnode⟩ := rfl
    rw [fields, level, rnode]
  · have counted := housed.counted
    rw [RadixTreeSlab.surplus] at counted
    grind

/-- While every insertion is granted the nodes that it may need, the calls that callers may make all
get through, and no node is kept without need. -/
theorem radixModule_frugal (events : List (RadixModuleEvent Data))
    (ample : ∀ event ∈ events, event.Ample)
    (proper : Trace.Safe (fun state event => ¬ state.Proper event) RadixModule.step
      RadixModule.init events) :
    ∃ answers last, Trace.trace RadixModule.step RadixModule.init events = some (answers, last) ∧
      Frugal last := by
  obtain ⟨answers, last, model, ran, -, unrefused⟩ :=
    unrefused_follows.trace unrefused_init (unrefused_safe ample proper)
  exact ⟨answers, last, ran, frugal_of_unrefused unrefused⟩

theorem ample_two : ∀ event ∈ twoVolumes (granted mostNodes), event.Ample := by
  have enough : NodesGranted mostNodes (granted mostNodes) := by decide
  rw [← List.forall_iff_forall_mem]
  exact ⟨trivial, trivial, fun _ => enough, fun _ => enough, trivial, fun _ => enough, trivial,
    trivial, trivial, trivial, trivial, trivial⟩

theorem radixModule_frugal_two : ∃ answers last, Trace.trace RadixModule.step RadixModule.init
    (twoVolumes (granted mostNodes)) = some (answers, last) ∧ Frugal last :=
  radixModule_frugal (twoVolumes (granted mostNodes)) ample_two (by decide +kernel)

end Runs

section Unload

variable {state : RadixModule Data} {rows : List Row} {refused : Nat} {lost : List Nat}

/-- The loop kicks all leaves out of all volumes, one volume after the other. -/
theorem Lodged.removeLoop (lodged : Lodged state rows refused lost)
    (kept : (modelOf state rows).Kept) :
    ∃ after lostAfter, removeLoop (rows.map Row.v) state = some after ∧
      Lodged after [] refused lostAfter ∧ (modelOf after []).Kept ∧
      after.volidTable = state.volidTable ∧ after.outstanding = state.outstanding := by
  induction rows generalizing state lost with
  | nil => exact ⟨state, lost, rfl, lodged, kept, rfl, rfl⟩
  | cons row rest inductionHypothesis =>
      have around : Lodged state ([] ++ row :: rest) refused lost := lodged
      have none_before : ∀ v ∈ ([] : List Volume), v.volid ≠ row.v.volid :=
        fun _ member => absurd member List.not_mem_nil
      have found : volumeFind row.v.volid (modelOf state (row :: rest)).volumes =
          some (0, row.model) := firstMatch_split Volume.volid none_before rfl
      obtain ⟨after, ran, sound, steady, -⟩ := kickMetaCache_sound (-1) none (kept.sound found)
      have empty := kickMetaCache_all (kept.sound found) ran
      have taken := around.backed.kickMetaCache (-1) none
      have ranModel : DmsBlkdev.kickMetaCache (-1) none
          ((state.cacheOf row.v).withMap row.map) = some after := ran
      rw [ranModel] at taken
      cases kicked : (state.cacheOf row.v).kickMetaCache (-1) none with
      | none =>
          rw [kicked] at taken
          cases taken
      | some cache =>
          rw [kicked, Option.rel_some_some] at taken
          obtain ⟨map, tree, rfl, backed, moves⟩ := taken
          obtain ⟨lostAfter, lodgedAfter⟩ :=
            (around.replace backed moves state.volidTable state.outstanding).remove
              state.volidTable (backed.labels_nil empty)
          have keptAfter := kept.remove steady.keeps sound (congrArg List.length empty)
          rw [List.map_cons, RadixModule.removeLoop, kicked, Option.bind_some]
          exact inductionHypothesis lodgedAfter keptAfter

theorem kept_perm {leaves : Leaves Data} {volumes others : List Volume} {outstanding : List Nat}
    (kept : CacheModule.Kept ⟨leaves, volumes, outstanding⟩) (same : volumes.Perm others) :
    CacheModule.Kept ⟨leaves, others, outstanding⟩ :=
  ⟨kept.accounted.perm (same.flatMap_right _) (List.Perm.refl _),
    fun v member => kept.consistent v (same.mem_iff.mpr member)⟩

theorem Housed.ordered (housed : Housed state rows refused lost) :
    ∃ order : List Row, order.map Row.v = state.volidTable.volumes ∧ order.Perm rows := by
  have chained : Chained bucketOf (fun row : Row => row.v.volid)
      (fun bucket => rows.filter fun row => bucketOf row.v.volid = bucket) rows := fun _ => rfl
  refine ⟨_, ?_, chained.perm (List.nodup_finRange volidTableSize) List.mem_finRange⟩
  rw [List.map_flatMap, VolidTable.volumes]
  refine List.flatMap_congr fun bucket _ => ?_
  rw [housed.chained, List.filter_map]
  rfl

theorem Lodged.perm (lodged : Lodged state rows refused lost) {order : List Row}
    (same : order.Perm rows) : Lodged state order refused lost :=
  ⟨lodged.sound, lodged.live.trans ((same.flatMap_right _).symm.append_right lost),
    fun row member => lodged.held row (same.mem_iff.mp member), lodged.keyed, lodged.counted,
    fun none => ⟨(lodged.neat none).1, fun row member =>
      (lodged.neat none).2 row (same.mem_iff.mp member)⟩⟩

/-- Nothing is left of the cache but the leaves that callers still refer to. -/
structure Unloaded (outstanding : List Nat) (state : RadixModule Data) : Prop where
  volumes : state.volidTable.volumes = []
  once : state.leaves.released.Nodup
  released : ∀ addr < state.leaves.next, addr ∈ state.leaves.released ↔ addr ∉ outstanding

theorem Housed.volumeRemoveAll (housed : Housed state rows refused lost)
    (kept : (modelOf state rows).Kept) :
    ∃ after lostAfter, state.volumeRemoveAll = some after ∧ Unloaded state.outstanding after ∧
      Lodged after [] refused lostAfter := by
  obtain ⟨order, listed, same⟩ := housed.ordered
  have lodged := housed.toLodged.perm same
  have emptied : Lodged { state with volidTable := .init } order refused lost :=
    ⟨lodged.sound, lodged.live, lodged.held, lodged.keyed, lodged.counted, lodged.neat⟩
  obtain ⟨after, lostAfter, ran, lodgedAfter, keptAfter, table, outstanding⟩ :=
    emptied.removeLoop (kept_perm kept (same.map Row.model).symm)
  rw [listed] at ran
  have once := keptAfter.releasedOnce
  refine ⟨after, lostAfter, ran, ⟨?_, once.once, fun addr known => ?_⟩, lodgedAfter⟩
  · have initial : after.volidTable = VolidTable.init := table
    rw [initial]
    rfl
  · have here : addr ∈ after.leaves.released ↔ (∀ v ∈ ([] : List Volume), addr ∉ v.tree.items) ∧
        addr ∉ after.outstanding := once.released addr known
    rw [here, outstanding]
    exact and_iff_right fun v member => absurd member List.not_mem_nil

theorem Lodged.bare (lodged : Lodged state [] 0 lost) :
    state.slab.live = [] ∧ state.slab.nodeCount = 0 := by
  obtain rfl := (lodged.neat rfl).1
  have none : state.slab.live = [] := lodged.live.eq_nil
  have counted := lodged.counted
  rw [RadixTreeSlab.surplus, none] at counted
  exact ⟨none, by simpa using counted⟩

/-- After calls that callers may make, and that come upon no hollow tree, the module can be
unloaded, which releases every leaf once that no caller refers to; and while every insertion has
been granted the nodes that it may need, it leaves no node. -/
theorem radixModule_unloads (events : List (RadixModuleEvent Data))
    (straight : Trace.Safe Strays RadixModule.step RadixModule.init events) :
    ∃ answers last after, Trace.trace RadixModule.step RadixModule.init events =
        some (answers, last) ∧
      last.volumeRemoveAll = some after ∧ Unloaded last.outstanding after ∧
      ((∀ event ∈ events, event.Ample) → after.slab.live = [] ∧ after.slab.nodeCount = 0) := by
  obtain ⟨answers, last, _, ran, -, rows, refused, lost, housed, rfl, kept⟩ :=
    radixModule_follows.trace modelled_init straight
  obtain ⟨after, lostAfter, removed, unloaded, -⟩ := housed.volumeRemoveAll kept
  refine ⟨answers, last, after, ran, removed, unloaded, fun ample => ?_⟩
  have safe := unrefused_safe ample (straight.mono fun _ _ => Or.inl)
  obtain ⟨answers', last', _, ran', -, rows', housed', rfl, kept'⟩ :=
    unrefused_follows.trace unrefused_init safe
  obtain ⟨-, rfl⟩ := Prod.mk.inj (Option.some.inj (ran'.symm.trans ran))
  obtain ⟨after', lostAfter', removed', -, lodged⟩ := housed'.volumeRemoveAll kept'
  obtain rfl := Option.some.inj (removed'.symm.trans removed)
  exact lodged.bare

theorem radixModule_unloads_two :
    ∃ answers last after, Trace.trace RadixModule.step RadixModule.init
        (twoVolumes (granted mostNodes)) = some (answers, last) ∧
      last.volumeRemoveAll = some after ∧ Unloaded last.outstanding after ∧
      ((∀ event ∈ twoVolumes (granted mostNodes), event.Ample) →
        after.slab.live = [] ∧ after.slab.nodeCount = 0) :=
  radixModule_unloads (twoVolumes (granted mostNodes)) (by decide +kernel)

end Unload

end DmsBlkdev
