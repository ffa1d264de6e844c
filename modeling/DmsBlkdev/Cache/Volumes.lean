import DmsBlkdev.Cache.Representation

/-!
# The volumes of the metadata cache

The operations name a volume by its id, and do nothing when there is none
with that id.  A put that comes after the release of its volume is one of
them: the leaves that it refers to have left the tree by then, and no other
put will release them.
-/

namespace DmsBlkdev

open Lib Lib.Run Leaves

variable {Data : Type}

inductive CacheModuleEvent (Data : Type) where
  | createVolumeCache (volid : Nat) (cacheSize : BitVec 32) (granted : Bool)
  | releaseVolumeCache (volid : Nat)
  | operate (volid : Nat) (event : CacheEvent Data)

/-- The leaves, the volumes with the one registered last in front, and the references that finds
have returned and that their callers have not put back. -/
structure CacheModule (Data : Type) where
  leaves : Leaves Data
  volumes : List Volume
  outstanding : List Nat

/-- `volume_find`: the volume and its place. -/
def volumeFind (volid : Nat) (volumes : List Volume) : Option (Nat × Volume) :=
  (volumes.findIdx? fun v => v.volid = volid).bind fun place =>
    volumes[place]?.map fun v => (place, v)

def CacheEvent.unanswered (outstanding : List Nat) : CacheEvent Data → List Nat
  | .put basket => outstanding.diff basket.reduceOption
  | _ => outstanding

namespace CacheModule

def init : CacheModule Data := ⟨.empty, [], []⟩

def step (state : CacheModule Data) : CacheModuleEvent Data → Option (CacheModule Data)
  | .createVolumeCache volid cacheSize granted =>
      some (if granted then { state with volumes := .init volid cacheSize :: state.volumes }
        else state)
  | .releaseVolumeCache volid =>
      match volumeFind volid state.volumes with
      | none => some state
      | some (place, v) =>
          (kickMetaCache (-1) none (state.leaves, v)).map fun cache =>
            { state with leaves := cache.1, volumes := state.volumes.eraseIdx place }
  | .operate volid event =>
      match volumeFind volid state.volumes with
      | none => some { state with outstanding := event.unanswered state.outstanding }
      | some (place, v) =>
          (CacheState.step ⟨(state.leaves, v), state.outstanding⟩ event).map fun next =>
            ⟨next.cache.1, state.volumes.set place next.cache.2, next.outstanding⟩

/-- Only references that are held are put back. -/
def Legal (state : CacheModule Data) : CacheModuleEvent Data → Prop
  | .operate _ (.put basket) => basket.reduceOption.Subperm state.outstanding
  | _ => True

/-- A put finds a volume, and a find no leaf that has as many references as it can count. -/
def Answered (state : CacheModule Data) : CacheModuleEvent Data → Prop
  | .operate volid (.put _) => (volumeFind volid state.volumes).isSome
  | .operate volid (.find start count) =>
      ∀ found ∈ volumeFind volid state.volumes,
        Room start.toNat (blockKey start.toNat count) state.outstanding found.2.tree
  | _ => True

instance (state : CacheModule Data) : DecidablePred state.Legal
  | .createVolumeCache .. => .isTrue trivial
  | .releaseVolumeCache _ => .isTrue trivial
  | .operate _ (.put basket) =>
      inferInstanceAs (Decidable (basket.reduceOption.Subperm state.outstanding))
  | .operate _ (.update ..) => .isTrue trivial
  | .operate _ (.find ..) => .isTrue trivial
  | .operate _ (.invalidate ..) => .isTrue trivial
  | .operate _ (.kick ..) => .isTrue trivial

instance (state : CacheModule Data) : DecidablePred state.Answered
  | .createVolumeCache .. => .isTrue trivial
  | .releaseVolumeCache _ => .isTrue trivial
  | .operate volid (.put _) =>
      inferInstanceAs (Decidable ((volumeFind volid state.volumes).isSome = true))
  | .operate _ (.update ..) => .isTrue trivial
  | .operate _ (.find ..) => inferInstanceAs (Decidable (∀ _ ∈ _, Room ..))
  | .operate _ (.invalidate ..) => .isTrue trivial
  | .operate _ (.kick ..) => .isTrue trivial

/-- The leaves released, each once, are those in no tree that nobody refers to. -/
structure ReleasedOnce (state : CacheModule Data) : Prop where
  once : state.leaves.released.Nodup
  released : ∀ addr < state.leaves.next, addr ∈ state.leaves.released ↔
    (∀ v ∈ state.volumes, addr ∉ v.tree.items) ∧ addr ∉ state.outstanding

structure Kept (state : CacheModule Data) : Prop where
  accounted : Accounted state.leaves (state.volumes.flatMap fun v => v.tree.items)
    state.outstanding
  consistent : ∀ v ∈ state.volumes, v.Consistent state.leaves

section Invariant

variable {state : CacheModule Data}

theorem kept_init : Kept (init : CacheModule Data) :=
  ⟨accounted_empty, fun _ member => absurd member List.not_mem_nil⟩

theorem Kept.releasedOnce (kept : state.Kept) : state.ReleasedOnce where
  once := kept.accounted.once
  released addr known := by
    have linked : addr ∈ state.volumes.flatMap (fun v => v.tree.items) ↔
        ∃ v ∈ state.volumes, addr ∈ v.tree.items := List.mem_flatMap
    have dead : addr ∈ state.leaves.released ↔ ¬ ∃ leaf, state.leaves.leaf addr = some leaf := by
      constructor
      · rintro released ⟨leaf, found⟩
        rw [kept.accounted.gone addr released] at found
        cases found
      · exact ((kept.accounted.allocated addr).mp known).resolve_left
    rw [dead, kept.accounted.alive, not_or, linked]
    simp only [not_exists, not_and]

variable {volid place : Nat} {v : Volume}

theorem volumeFind_perm {volumes : List Volume} (found : volumeFind volid volumes = some (place, v)) :
    volumes.Perm (v :: volumes.eraseIdx place) ∧
      ∀ v', (volumes.set place v').Perm (v' :: volumes.eraseIdx place) := by
  obtain ⟨place', -, located⟩ := Option.bind_eq_some_iff.mp found
  obtain ⟨v', here, same⟩ := Option.map_eq_some_iff.mp located
  cases same
  obtain ⟨within, rfl⟩ := List.getElem?_eq_some_iff.mp here
  exact ⟨(List.getElem_cons_eraseIdx_perm within).symm, List.set_perm_cons_eraseIdx within⟩

theorem Kept.sound (kept : state.Kept) (found : volumeFind volid state.volumes = some (place, v)) :
    Sound ((state.volumes.eraseIdx place).flatMap fun v => v.tree.items) state.outstanding
      (state.leaves, v) where
  accounted := kept.accounted.perm ((volumeFind_perm found).1.flatMap_right _) (List.Perm.refl _)
  consistent := kept.consistent v ((volumeFind_perm found).1.mem_iff.mpr List.mem_cons_self)

theorem Kept.others (kept : state.Kept) (place : Nat) {leaves : Leaves Data}
    (keeps : Keeps state.leaves leaves) :
    ∀ other ∈ state.volumes.eraseIdx place, other.Consistent leaves := by
  intro other member
  have before : other ∈ state.volumes := List.mem_of_mem_eraseIdx member
  refine (kept.consistent other before).keeps keeps fun addr item => ?_
  exact kept.accounted.lt_next (List.mem_flatMap.mpr ⟨other, before, item⟩)

/-- The volume that was found is replaced. -/
theorem Kept.replace (kept : state.Kept) (found : volumeFind volid state.volumes = some (place, v))
    {leaves : Leaves Data} {v' : Volume} {outstanding : List Nat}
    (keeps : Keeps state.leaves leaves)
    (sound : Sound ((state.volumes.eraseIdx place).flatMap fun v => v.tree.items) outstanding
      (leaves, v')) :
    Kept ⟨leaves, state.volumes.set place v', outstanding⟩ := by
  have replaced := (volumeFind_perm found).2 v'
  have linked := (replaced.flatMap_right fun v => v.tree.items).symm
  refine ⟨sound.accounted.perm linked (List.Perm.refl _), ?_⟩
  intro other member
  rcases List.mem_cons.mp (replaced.mem_iff.mp member) with rfl | before
  · exact sound.consistent
  · exact kept.others place keeps other before

theorem Kept.remove (kept : state.Kept) {place : Nat} {leaves : Leaves Data} {v' : Volume}
    (keeps : Keeps state.leaves leaves)
    (sound : Sound ((state.volumes.eraseIdx place).flatMap fun v => v.tree.items)
      state.outstanding (leaves, v')) (empty : v'.tree.entries.length = 0) :
    Kept ⟨leaves, state.volumes.eraseIdx place, state.outstanding⟩ := by
  refine ⟨?_, kept.others place keeps⟩
  have items : v'.tree.items = [] := by
    rw [OrderedMap.items, List.length_eq_zero_iff.mp empty]
    rfl
  have accounted := sound.accounted
  rwa [items] at accounted

theorem step_kept (kept : state.Kept) {event : CacheModuleEvent Data} (legal : state.Legal event)
    (answered : state.Answered event) : ∃ next, state.step event = some next ∧ next.Kept := by
  cases event with
  | createVolumeCache volid cacheSize granted =>
      refine ⟨_, rfl, ?_⟩
      cases granted with
      | false => exact kept
      | true =>
          refine ⟨kept.accounted, fun v member => ?_⟩
          rcases List.mem_cons.mp member with rfl | before
          · exact ⟨List.Perm.refl [], rfl, fun _ entry => absurd entry List.not_mem_nil⟩
          · exact kept.consistent v before
  | releaseVolumeCache volid =>
      cases found : volumeFind volid state.volumes with
      | none => exact ⟨state, by simp only [step, found], kept⟩
      | some slot =>
          obtain ⟨place, v⟩ := slot
          obtain ⟨cache, kicked, after, steady, length⟩ :=
            kickMetaCache_sound (-1) none (kept.sound found)
          refine ⟨_, by simp only [step, found, kicked]; rfl, ?_⟩
          refine kept.remove steady.keeps after ?_
          have all := length rfl
          have counted : v.tree.items.length = v.tree.entries.length := List.length_map _
          simp only [kicks, if_true, counted] at all
          omega
  | operate volid event =>
      cases found : volumeFind volid state.volumes with
      | none =>
          refine ⟨_, by simp only [step, found]; rfl, ?_⟩
          cases event with
          | put basket =>
              simp only [Answered, found] at answered
              cases answered
          | _ => exact kept
      | some slot =>
          obtain ⟨place, v⟩ := slot
          have allowed : CacheState.Legal ⟨(state.leaves, v), state.outstanding⟩ event := by
            cases event with
            | put basket => exact legal
            | find start count => exact answered (place, v) found
            | _ => trivial
          obtain ⟨next, taken, after, steady⟩ := step_sound (kept.sound found) allowed
          refine ⟨_, by simp only [step, found, taken]; rfl, ?_⟩
          exact kept.replace found steady.keeps after

end Invariant

/-- In a run whose puts are answered every leaf is released once, when it has left the tree and
its last reference has been put, and not before. -/
theorem leaves_releasedOnce {events : List (CacheModuleEvent Data)}
    (legal : Guarded Legal step init events) (answered : Guarded Answered step init events) :
    (∃ last, run step init events = some last) ∧ Always ReleasedOnce step init events := by
  have preserved : ∀ (before : CacheModule Data) (event : CacheModuleEvent Data), before.Kept →
      before.Legal event ∧ before.Answered event →
      ∃ after, before.step event = some after ∧ after.Kept :=
    fun _ _ kept allowed => step_kept kept allowed.1 allowed.2
  obtain ⟨ran, always⟩ := guarded_always preserved kept_init (legal.and answered)
  exact ⟨ran, always.imp fun _ kept => kept.releasedOnce⟩

theorem leaves_releasedOnce_recreated :
    (∃ last, run step (init : CacheModule Nat) [.createVolumeCache 7 4 true,
        .operate 7 (.update 0 2 numberedItems), .operate 7 (.find 0 2), .releaseVolumeCache 7,
        .createVolumeCache 7 4 true, .operate 7 (.put [some 0, some 1])] = some last) ∧
      Always ReleasedOnce step (init : CacheModule Nat) [.createVolumeCache 7 4 true,
        .operate 7 (.update 0 2 numberedItems), .operate 7 (.find 0 2), .releaseVolumeCache 7,
        .createVolumeCache 7 4 true, .operate 7 (.put [some 0, some 1])] := by
  apply leaves_releasedOnce <;> decide

theorem leaf_unreleased :
    Guarded Legal step (init : CacheModule Nat) [.createVolumeCache 7 4 true,
      .operate 7 (.update 0 1 numberedItems), .operate 7 (.find 0 1), .releaseVolumeCache 7,
      .operate 7 (.put [some 0])] ∧
    ∃ last, run step (init : CacheModule Nat) [.createVolumeCache 7 4 true,
      .operate 7 (.update 0 1 numberedItems), .operate 7 (.find 0 1), .releaseVolumeCache 7,
      .operate 7 (.put [some 0])] = some last ∧ ¬ last.ReleasedOnce := by
  refine ⟨by decide, _, rfl, fun once => ?_⟩
  have gone := once.released 0 (by decide)
  exact absurd gone (by decide)

end CacheModule

end DmsBlkdev
