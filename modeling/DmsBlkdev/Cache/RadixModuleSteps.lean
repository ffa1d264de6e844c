import DmsBlkdev.Cache.RadixLockstep
import DmsBlkdev.Cache.RadixModule

/-!
# The cache module in step with its model

The model has a list of volumes, the one registered last in front, and a map
for each.  Every call of the module over chains and trees is in step with a
call of the model, with the leaves, the references and the answers the same.
-/

namespace DmsBlkdev

open Lib Lib.Lockstep Lib.HashChains

variable {Data : Type}

/-- A volume with the tree that its nodes hold and the map that it stands for. -/
structure Row where
  tree : AnyDigits
  v : RadixVolume
  map : OrderedMap Nat Nat

def Row.model (row : Row) : Volume := row.v.withMap row.map

structure Row.Held (slab : RadixTreeSlab) (row : Row) : Prop where
  level : row.v.root.height = row.tree.1
  rnode : row.v.root.rnode = pointer row.tree.2
  stored : Stored slab row.tree.2
  low : row.tree.1 < radixTreeMaxPath
  bounded : ∀ key item, (key, item) ∈ row.tree.2.toMap.entries → key < 2 ^ 64
  map : row.tree.2.toMap = row.map.mapItems leafPointer

def labelsOf (rows : List Row) : List Nat := rows.flatMap fun row => row.tree.2.labels

/-- The slab holds the trees of the volumes, beside nodes that no volume has any more. -/
structure Lodged (state : RadixModule Data) (rows : List Row) (refused : Nat) (lost : List Nat) :
    Prop where
  sound : state.slab.Sound
  live : state.slab.live.Perm (labelsOf rows ++ lost)
  held : ∀ row ∈ rows, row.Held state.slab
  keyed : state.leaves.Keyed64
  counted : state.slab.surplus = BitVec.ofNat 32 refused
  neat : refused = 0 → lost = [] ∧ ∀ row ∈ rows, row.tree.Neat

structure Housed (state : RadixModule Data) (rows : List Row) (refused : Nat) (lost : List Nat) :
    Prop extends Lodged state rows refused lost where
  chained : Chained bucketOf RadixVolume.volid state.volidTable (rows.map Row.v)

def modelOf (state : RadixModule Data) (rows : List Row) : CacheModule Data :=
  ⟨state.leaves, rows.map Row.model, state.outstanding⟩

section Rows

variable {state : RadixModule Data} {before after : List Row} {row : Row} {refused : Nat}
  {lost : List Nat}

theorem labelsOf_perm :
    (labelsOf (before ++ row :: after) ++ lost).Perm
      (row.tree.2.labels ++ (labelsOf (before ++ after) ++ lost)) := by
  rw [labelsOf, labelsOf, List.flatMap_append, List.flatMap_append, List.flatMap_cons,
    List.append_assoc, List.append_assoc, List.append_assoc]
  exact List.perm_append_comm_assoc ..

theorem mem_around {other : Row} (member : other ∈ before ++ after) :
    other ∈ before ++ row :: after := by
  rcases List.mem_append.mp member with left | right
  · exact List.mem_append_left _ left
  · exact List.mem_append_right _ (List.mem_cons_of_mem _ right)

theorem Lodged.backed (lodged : Lodged state (before ++ row :: after) refused lost) :
    Backed (labelsOf (before ++ after) ++ lost) (state.cacheOf row.v) row.map row.tree := by
  have held := lodged.held row (List.mem_append_right _ List.mem_cons_self)
  exact ⟨⟨lodged.sound, lodged.live.trans labelsOf_perm, held.level, held.rnode, held.stored,
    held.low, held.bounded⟩, held.map, lodged.keyed⟩

variable {cache : RadixCache Data} {map : OrderedMap Nat Nat} {tree : AnyDigits} {more : Nat}

theorem Lodged.others (lodged : Lodged state (before ++ row :: after) refused lost)
    (moves : Moves (labelsOf (before ++ after) ++ lost) (state.cacheOf row.v) cache row.tree tree
      more) {other : Row} (member : other ∈ before ++ after) : other.Held cache.slab := by
  have held := lodged.held other (mem_around member)
  refine ⟨held.level, held.rnode, held.stored.congr fun addr inside => ?_, held.low, held.bounded,
    held.map⟩
  apply moves.untouched
  exact List.mem_append_left _ (List.mem_flatMap.mpr ⟨other, member, inside⟩)

/-- A volume that has changed takes its place again. -/
theorem Lodged.replace (lodged : Lodged state (before ++ row :: after) refused lost)
    (backed : Backed (labelsOf (before ++ after) ++ lost) cache map tree)
    (moves : Moves (labelsOf (before ++ after) ++ lost) (state.cacheOf row.v) cache row.tree tree
      more) (table : VolidTable) (outstanding : List Nat) :
    Lodged ⟨cache.leaves, cache.slab, table, outstanding⟩
      (before ++ ⟨tree, cache.v, map⟩ :: after) (refused + more) lost := by
  have represents := backed.represents
  have here : Row.Held cache.slab ⟨tree, cache.v, map⟩ :=
    ⟨represents.level, represents.rnode, represents.stored, represents.low, represents.bounded,
      backed.map⟩
  have nodes : (labelsOf (before ++ ⟨tree, cache.v, map⟩ :: after) ++ lost).Perm
      (tree.2.labels ++ (labelsOf (before ++ after) ++ lost)) := labelsOf_perm
  refine ⟨represents.sound, represents.live.trans nodes.symm, ?_, backed.keyed, ?_,
    fun none => ?_⟩
  · intro other member
    rcases List.mem_append.mp member with left | right
    · exact lodged.others moves (List.mem_append_left _ left)
    · rcases List.mem_cons.mp right with rfl | right
      · exact here
      · exact lodged.others moves (List.mem_append_right _ right)
  · rw [BitVec.ofNat_add, ← lodged.counted]
    exact moves.counted
  · obtain ⟨zero, zero'⟩ := Nat.add_eq_zero_iff.mp none
    obtain ⟨nothing, neat⟩ := lodged.neat zero
    refine ⟨nothing, fun other member => ?_⟩
    rcases List.mem_append.mp member with left | right
    · exact neat other (List.mem_append_left _ left)
    · rcases List.mem_cons.mp right with rfl | right
      · exact moves.neat zero' (neat row (List.mem_append_right _ List.mem_cons_self))
      · exact neat other (List.mem_append_right _ (List.mem_cons_of_mem _ right))

theorem Lodged.remove (lodged : Lodged state (before ++ row :: after) refused lost)
    (table : VolidTable) (bare : row.tree.Neat → row.tree.2.labels = []) :
    ∃ lost, Lodged { state with volidTable := table } (before ++ after) refused lost := by
  refine ⟨row.tree.2.labels ++ lost, lodged.sound, ?_,
    fun other member => lodged.held other (mem_around member), lodged.keyed, lodged.counted,
    fun none => ?_⟩
  · refine (lodged.live.trans labelsOf_perm).trans ?_
    rw [← List.append_assoc, ← List.append_assoc]
    exact List.perm_append_comm.append_right lost
  · obtain ⟨nothing, neat⟩ := lodged.neat none
    refine ⟨?_, fun other member => neat other (mem_around member)⟩
    rw [nothing, List.append_nil]
    exact bare (neat row (List.mem_append_right _ List.mem_cons_self))

end Rows

section Places

variable {state : RadixModule Data} {rows before after : List Row} {row : Row} {refused : Nat}
  {lost : List Nat} {volid : Nat}

theorem Housed.absent (housed : Housed state rows refused lost)
    (absent : ∀ row ∈ rows, row.v.volid ≠ volid) :
    state.volidTable.volumeFind volid = none ∧ volumeFind volid (rows.map Row.model) = none := by
  constructor
  · refine housed.chained.absent fun v member => ?_
    obtain ⟨row, inside, rfl⟩ := List.mem_map.mp member
    exact absent row inside
  · refine firstMatch_absent Volume.volid fun v member => ?_
    obtain ⟨row, inside, rfl⟩ := List.mem_map.mp member
    exact absent row inside

theorem Housed.first (housed : Housed state (before ++ row :: after) refused lost)
    (absent : ∀ other ∈ before, other.v.volid ≠ volid) (here : row.v.volid = volid) :
    ∃ place, state.volidTable.volumeFind volid = some (place, row.v) ∧
      volumeFind volid ((before ++ row :: after).map Row.model) =
        some (before.length, row.model) ∧
      (∀ other : Row, other.v.volid = volid →
        Chained bucketOf RadixVolume.volid (state.volidTable.store volid place other.v)
          ((before ++ other :: after).map Row.v)) ∧
      Chained bucketOf RadixVolume.volid (state.volidTable.volumeRemoveById volid)
        ((before ++ after).map Row.v) := by
  have absentIn : ∀ v ∈ before.map Row.v, v.volid ≠ volid := by
    intro v member
    obtain ⟨other, inside, rfl⟩ := List.mem_map.mp member
    exact absent other inside
  have chained := housed.chained
  rw [List.map_append, List.map_cons] at chained
  obtain ⟨place, found, replaced, removed⟩ := chained.first absentIn here
  have foundHere : state.volidTable.volumeFind volid = some (place, row.v) := found
  refine ⟨place, foundHere, ?_, fun other same => ?_, ?_⟩
  · have absentModel : ∀ v ∈ before.map Row.model, v.volid ≠ volid := by
      intro v member
      obtain ⟨other, inside, rfl⟩ := List.mem_map.mp member
      exact absent other inside
    have length : (before.map Row.model).length = before.length := List.length_map _
    rw [List.map_append, List.map_cons, ← length]
    exact firstMatch_split Volume.volid absentModel here
  · rw [List.map_append, List.map_cons]
    exact replaced other.v same
  · rw [List.map_append, VolidTable.volumeRemoveById, foundHere]
    exact removed

theorem map_set_split (other : Row) :
    ((before ++ row :: after).map Row.model).set before.length other.model =
      (before ++ other :: after).map Row.model := by
  have length : (before.map Row.model).length = before.length := List.length_map _
  rw [List.map_append, List.map_cons, ← length, List.set_append_right _ _ le_rfl, Nat.sub_self,
    List.map_append, List.map_cons]
  rfl

theorem map_eraseIdx_split :
    ((before ++ row :: after).map Row.model).eraseIdx before.length =
      (before ++ after).map Row.model := by
  have length : (before.map Row.model).length = before.length := List.length_map _
  rw [List.map_append, List.map_cons, ← length, List.eraseIdx_append_of_length_le le_rfl,
    Nat.sub_self, List.map_append]
  rfl

end Places

section Operate

variable {state : RadixModule Data} {rows : List Row} {refused : Nat} {lost : List Nat}
  {volid : Nat} {ample : Prop}

def Agrees (refused : Nat) (ample : Prop) (one : CacheAnswer × RadixModule Data)
    (model : CacheAnswer × CacheModule Data) : Prop :=
  one.1 = model.1 ∧ ∃ rows refusedAfter lost, Housed one.2 rows refusedAfter lost ∧
    model.2 = modelOf one.2 rows ∧ (ample → refusedAfter = refused)

def Completes (state : RadixModule Data) (others : List Nat) (v : RadixVolume) (tree : AnyDigits)
    (answer : CacheAnswer) (ample : Prop) (done : CacheAnswer × RadixCache Data)
    (next : CacheState Data) : Prop :=
  done.1 = answer ∧ next.outstanding = state.outstanding ∧ ∃ more, (ample → more = 0) ∧
    ArrivesAt others (state.cacheOf v) tree more done.2 next.cache

section Volume

variable {absent : CacheAnswer}
  {operation : RadixCache Data → Option (CacheAnswer × RadixCache Data)} {event : CacheEvent Data}

theorem Housed.operate_absent (housed : Housed state rows refused lost)
    (none_here : ∀ row ∈ rows, row.v.volid ≠ volid) (missing : event.absentAnswer = absent)
    (steady : event.unanswered state.outstanding = state.outstanding) :
    Option.Rel (Agrees refused ample) (state.operate volid absent operation)
      ((modelOf state rows).observe (.operate volid event)) := by
  obtain ⟨nowhere, nowhereModel⟩ := housed.absent none_here
  have model : volumeFind volid (modelOf state rows).volumes = none := nowhereModel
  simp only [RadixModule.operate, CacheModule.observe, CacheModule.step, CacheModule.answer, nowhere,
    model, Option.map_some]
  refine .some ⟨missing.symm, rows, refused, lost, housed, ?_, fun _ => rfl⟩
  simp only [modelOf, steady]

/-- An operation on a volume is in step with the operation on the volume of the model. -/
theorem Housed.operate_found {before after : List Row} {row : Row}
    (housed : Housed state (before ++ row :: after) refused lost)
    (none_before : ∀ other ∈ before, other.v.volid ≠ volid) (here : row.v.volid = volid)
    (taken : Option.Rel (Completes state (labelsOf (before ++ after) ++ lost) row.v row.tree
        (event.answer ((state.cacheOf row.v).withMap row.map)) ample)
      (operation (state.cacheOf row.v))
      (CacheState.step ⟨(state.cacheOf row.v).withMap row.map, state.outstanding⟩ event)) :
    Option.Rel (Agrees refused ample) (state.operate volid absent operation)
      ((modelOf state (before ++ row :: after)).observe (.operate volid event)) := by
  obtain ⟨place, found, foundModel, replaced, -⟩ := housed.first none_before here
  have model : volumeFind volid (modelOf state (before ++ row :: after)).volumes =
      some (before.length, row.model) := foundModel
  simp only [RadixModule.operate, CacheModule.observe, CacheModule.step, CacheModule.answer, found,
    model, Option.map_map]
  refine rel_map taken fun done next completed => ?_
  obtain ⟨answered, kept, more, none, map, tree, same, backed, moves⟩ := completed
  have own : done.2.v.volid = volid := moves.volid.trans here
  have lodged := housed.replace backed moves (state.volidTable.store volid place done.2.v)
    state.outstanding
  refine ⟨answered, _, _, lost, ⟨lodged, replaced ⟨tree, done.2.v, map⟩ own⟩, ?_,
    fun enough => ?_⟩
  · have slot : next.cache.2 = Row.model ⟨tree, done.2.v, map⟩ := congrArg Prod.snd same
    have leaves : next.cache.1 = done.2.leaves := congrArg Prod.fst same
    simp only [Function.comp_apply, modelOf, slot, leaves, kept, map_set_split]
    rfl
  · rw [none enough, Nat.add_zero]

theorem Housed.operate (housed : Housed state rows refused lost)
    (missing : event.absentAnswer = absent)
    (steady : event.unanswered state.outstanding = state.outstanding)
    (taken : ∀ others v map tree, Backed others (state.cacheOf v) map tree →
      Option.Rel (Completes state others v tree (event.answer ((state.cacheOf v).withMap map)) ample)
        (operation (state.cacheOf v))
        (CacheState.step ⟨(state.cacheOf v).withMap map, state.outstanding⟩ event)) :
    Option.Rel (Agrees refused ample) (state.operate volid absent operation)
      ((modelOf state rows).observe (.operate volid event)) := by
  rcases exists_first (fun row : Row => row.v.volid) volid rows with
    none_here | ⟨before, row, after, rfl, none_before, here⟩
  · exact housed.operate_absent none_here missing steady
  · exact housed.operate_found none_before here (taken _ row.v row.map row.tree housed.backed)

end Volume

theorem Housed.kickMetaCache (housed : Housed state rows refused lost) (count : BitVec 32)
    (condition : Option (Data → Bool)) :
    Option.Rel (Agrees refused ample) (state.kickMetaCache volid count condition)
      ((modelOf state rows).observe (.operate volid (.kick count condition))) := by
  refine housed.operate rfl rfl fun others v map tree backed => ?_
  refine rel_map (backed.kickMetaCache count condition) fun cache model reached => ?_
  exact ⟨rfl, rfl, 0, fun _ => rfl, reached⟩

theorem Housed.cacheInvalidate (housed : Housed state rows refused lost) (start : BitVec 64)
    (count : BitVec 32) :
    Option.Rel (Agrees refused ample) (state.cacheInvalidate volid start.toNat count)
      ((modelOf state rows).observe (.operate volid (.invalidate start count))) := by
  refine housed.operate rfl rfl fun others v map tree backed => ?_
  refine rel_map (backed.cacheInvalidate start.toNat count.toInt.toNat 0) fun cache model reached => ?_
  exact ⟨rfl, rfl, 0, fun _ => rfl, reached⟩

/-- An update is in step with an update for which the insertions refused have been chosen. -/
theorem Housed.cacheUpdate (housed : Housed state rows refused lost) (start : BitVec 64)
    (count : BitVec 32) (items : RadixItems Data) :
    ∃ nodeGranted, items.Resolves nodeGranted ∧
      Option.Rel (Agrees refused (∀ i, NodesGranted mostNodes (items.nodeGrants i)))
        (state.cacheUpdate volid start.toNat count items)
        ((modelOf state rows).observe
          (.operate volid (.update start count (items.resolve nodeGranted)))) := by
  rcases exists_first (fun row : Row => row.v.volid) volid rows with
    none_here | ⟨before, row, after, rfl, none_before, here⟩
  · exact ⟨fun _ => true, items.resolves_all, housed.operate_absent none_here rfl rfl⟩
  · obtain ⟨chosen, resolves, updated⟩ := housed.backed.cacheUpdate start.toNat count items
    refine ⟨chosen, resolves, housed.operate_found none_before here ?_⟩
    refine rel_map (rel_attach updated) fun one model related => ?_
    obtain ⟨⟨same, more, why, reached⟩, -, ran⟩ := related
    refine ⟨?_, rfl, more, fun granted => ?_, reached⟩
    · have answered : CacheEvent.answer ((state.cacheOf row.v).withMap row.map)
          (.update start count (items.resolve chosen)) = .returned model.1 := by
        rw [CacheEvent.answer, ran]
        rfl
      rw [answered, same]
    · by_contra some
      obtain ⟨i, short⟩ := why some
      exact short (granted i)

/-- A find that does not use a hollow root is in step with that of the model. -/
theorem Housed.cacheFind (housed : Housed state rows refused lost) (volid start : BitVec 64)
    (count : Nat) (solid : ¬ state.UsesHollow (.find volid start count)) :
    Option.Rel (Agrees refused ample) (state.cacheFind volid.toNat start.toNat count)
      ((modelOf state rows).observe (.operate volid.toNat (.find start count))) := by
  rw [RadixModule.cacheFind, CacheModule.observe, CacheModule.step, CacheModule.answer]
  rcases exists_first (fun row : Row => row.v.volid) volid.toNat rows with
    none_here | ⟨before, row, after, rfl, none_before, here⟩
  · obtain ⟨nowhere, nowhereModel⟩ := housed.absent none_here
    have model : volumeFind volid.toNat (modelOf state rows).volumes = none := nowhereModel
    simp only [nowhere, model, Option.map_some]
    exact .some ⟨rfl, rows, refused, lost, housed, rfl, fun _ => rfl⟩
  · obtain ⟨place, found, foundModel, replaced, -⟩ := housed.first none_before here
    have model : volumeFind volid.toNat (modelOf state (before ++ row :: after)).volumes =
        some (before.length, row.model) := foundModel
    have looks : ¬ LooksHollow start.toNat count (state.cacheOf row.v).tree := by
      rw [RadixModule.UsesHollow, found] at solid
      exact solid
    simp only [found, model, Option.map_map, CacheState.step, CacheEvent.answer]
    have taken := housed.backed.cacheFind start.isLt looks
    refine rel_map (rel_attach taken) fun one result related => ?_
    obtain ⟨⟨rret, basket, map, tree, same, backed, moves⟩, -, ran⟩ := related
    have own : one.2.2.v.volid = volid.toNat := moves.volid.trans here
    have lodged := housed.replace backed moves (state.volidTable.store volid.toNat place one.2.2.v)
      (one.2.1.reduceOption ++ state.outstanding)
    have ranModel : DmsBlkdev.cacheFind start.toNat count
        ((modelOf state (before ++ row :: after)).leaves, row.model) = some result := ran
    refine ⟨?_, before ++ ⟨tree, one.2.2.v, map⟩ :: after, refused + 0, lost,
      ⟨lodged, replaced ⟨tree, one.2.2.v, map⟩ own⟩, ?_, fun _ => rfl⟩
    · simp only [Function.comp_apply, ranModel, rret, basket]
    · have slot : result.2.2.2 = Row.model ⟨tree, one.2.2.v, map⟩ := congrArg Prod.snd same
      have leaves : result.2.2.1 = one.2.2.leaves := congrArg Prod.fst same
      simp only [Function.comp_apply, modelOf, slot, leaves, basket, map_set_split]
      rfl

theorem Housed.cachePut (housed : Housed state rows refused lost) (basket : List (Option Nat)) :
    Option.Rel (Agrees refused ample) (state.cachePut volid basket)
      ((modelOf state rows).observe (.operate volid (.put basket))) := by
  rw [RadixModule.cachePut, CacheModule.observe, CacheModule.step, CacheModule.answer]
  rcases exists_first (fun row : Row => row.v.volid) volid rows with
    none_here | ⟨before, row, after, rfl, none_before, here⟩
  · obtain ⟨nowhere, nowhereModel⟩ := housed.absent none_here
    have model : volumeFind volid (modelOf state rows).volumes = none := nowhereModel
    simp only [nowhere, model, Option.map_some]
    exact .some ⟨rfl, rows, refused, lost, ⟨⟨housed.sound, housed.live, housed.held, housed.keyed,
      housed.counted, housed.neat⟩, housed.chained⟩, rfl, fun _ => rfl⟩
  · obtain ⟨place, found, foundModel, -, -⟩ := housed.first none_before here
    have model : volumeFind volid (modelOf state (before ++ row :: after)).volumes =
        some (before.length, row.model) := foundModel
    have same : (modelOf state (before ++ row :: after)).leaves = state.leaves := rfl
    simp only [found, model, Option.map_map, CacheState.step, CacheEvent.answer, same]
    cases put : DmsBlkdev.cachePut basket state.leaves with
    | none => exact .none
    | some leaves =>
        refine .some ⟨rfl, before ++ row :: after, refused, lost, ⟨⟨housed.sound, housed.live,
          housed.held, cachePut_keyed64 housed.keyed put, housed.counted, housed.neat⟩,
          housed.chained⟩, ?_, fun _ => rfl⟩
        simp only [Function.comp_apply, modelOf, map_set_split]

theorem Housed.volumeCreate (housed : Housed state rows refused lost) (cacheSize : BitVec 32)
    (granted : Bool) :
    Option.Rel (Agrees refused ample) (some (state.volumeCreate volid cacheSize granted))
      ((modelOf state rows).observe (.createVolumeCache volid cacheSize granted)) := by
  cases granted with
  | false => exact .some ⟨rfl, rows, refused, lost, housed, rfl, fun _ => rfl⟩
  | true =>
      refine .some ⟨rfl, ⟨⟨0, .empty⟩, .init volid cacheSize, .empty⟩ :: rows, refused, lost,
        ⟨⟨housed.sound, housed.live, fun row member => ?_, housed.keyed, housed.counted,
          fun none => ⟨(housed.neat none).1, fun row member => ?_⟩⟩, housed.chained.add _⟩, rfl,
        fun _ => rfl⟩
      · rcases List.mem_cons.mp member with rfl | earlier
        · refine ⟨rfl, rfl, trivial, Nat.succ_pos 11, fun key item inside => ?_,
            DigitTree.toMap_empty⟩
          rw [DigitTree.toMap_empty] at inside
          cases inside
        · exact housed.held row earlier
      · rcases List.mem_cons.mp member with rfl | earlier
        · exact AnyDigits.neat_empty
        · exact (housed.neat none).2 row earlier

theorem kickMetaCache_all {others outstanding : List Nat} {cache after : VolumeCache Data}
    (sound : Sound others outstanding cache)
    (kicked : DmsBlkdev.kickMetaCache (-1) none cache = some after) : after.2.tree.entries = [] := by
  obtain ⟨result, ran, -, -, length⟩ := kickMetaCache_sound (-1) none sound
  obtain rfl := Option.some.inj (kicked.symm.trans ran)
  have all := length rfl
  have counted : cache.2.tree.items.length = cache.2.tree.entries.length := List.length_map _
  simp only [kicks, if_true, counted] at all
  exact List.length_eq_zero_iff.mp (by omega)

theorem Backed.labels_nil {others : List Nat} {cache : RadixCache Data}
    {map : OrderedMap Nat Nat} {tree : AnyDigits} (backed : Backed others cache map tree)
    (empty : map.entries = []) (neat : tree.Neat) : tree.2.labels = [] := by
  have entries : tree.2.toMap.entries = [] := by
    rw [backed.map]
    exact congrArg (List.map _) empty
  rw [neat.eq_empty entries]
  rfl

theorem Housed.volumeClearAll (housed : Housed state rows refused lost)
    (kept : (modelOf state rows).Kept) :
    Option.Rel (Agrees refused ample) (state.volumeClearAll volid)
      ((modelOf state rows).observe (.releaseVolumeCache volid)) := by
  rw [RadixModule.volumeClearAll, RadixModule.kickMetaCache, RadixModule.operate,
    CacheModule.observe, CacheModule.step, CacheModule.answer]
  rcases exists_first (fun row : Row => row.v.volid) volid rows with
    none_here | ⟨before, row, after, rfl, none_before, here⟩
  · obtain ⟨nowhere, nowhereModel⟩ := housed.absent none_here
    have model : volumeFind volid (modelOf state rows).volumes = none := nowhereModel
    simp only [nowhere, model, Option.map_some, VolidTable.volumeRemoveById]
    exact .some ⟨rfl, rows, refused, lost, housed, rfl, fun _ => rfl⟩
  · obtain ⟨place, found, foundModel, replaced, -⟩ := housed.first none_before here
    have model : volumeFind volid (modelOf state (before ++ row :: after)).volumes =
        some (before.length, row.model) := foundModel
    simp only [found, model, Option.map_map]
    have taken := housed.backed.kickMetaCache (-1) none
    refine rel_map (rel_attach taken) fun cache result related => ?_
    obtain ⟨⟨map, tree, rfl, backed, moves⟩, -, ran⟩ := related
    have own : cache.v.volid = volid := moves.volid.trans here
    have lodged := housed.replace backed moves (state.volidTable.store volid place cache.v)
      state.outstanding
    have replacedHoused : Housed _ _ _ _ := ⟨lodged, replaced ⟨tree, cache.v, map⟩ own⟩
    obtain ⟨-, -, -, -, removed⟩ := replacedHoused.first none_before own
    have empty : map.entries = [] := kickMetaCache_all (kept.sound foundModel) ran
    obtain ⟨lostAfter, lodgedAfter⟩ := lodged.remove
      ((state.withCache volid place cache).volidTable.volumeRemoveById volid)
      (backed.labels_nil empty)
    refine ⟨rfl, before ++ after, refused + 0, lostAfter, ⟨lodgedAfter, removed⟩, ?_, fun _ => rfl⟩
    simp only [Function.comp_apply, modelOf, map_eraseIdx_split]
    rfl

end Operate

end DmsBlkdev
