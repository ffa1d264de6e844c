import DmsBlkdev.VolumeManager.Calls
import DmsBlkdev.Lib.Replies
import Mathlib.Logic.Function.Basic
import Mathlib.Data.Nat.Find

/-!
# The table of volumes as a finite map

Calls that do not overlap see a map from volume ids to slots and balances of
opens and closes.  The table keeps the balance in 32 bits, so a detach finds
the volume busy unless the balance is a multiple of 2^32.
-/

namespace DmsBlkdev

open Lib.Replies

structure VolumeEntry where
  slot : Nat
  balance : Int

/-- What the table is for: each volume id that is attached has a slot, and a balance of its opens
and closes. -/
abbrev VolumeMap := BitVec 64 → Option VolumeEntry

namespace VolumeMap

def Addresses (unit slot : Nat) : Prop :=
  dmsDiskMinors * slot ≤ unit ∧ unit < dmsDiskMinors * slot + dmsDiskMinors

def Free (map : VolumeMap) (maxNrVolumes slot : Nat) : Prop :=
  dmsMinorStart ≤ slot ∧ slot < maxNrVolumes ∧
    ∀ volumeID entry, map volumeID = some entry → entry.slot ≠ slot

def Occupied (map : VolumeMap) (unit : Nat) : Prop :=
  ∃ volumeID entry, map volumeID = some entry ∧ Addresses unit entry.slot

open Classical in
noncomputable def lowestFree (map : VolumeMap) (maxNrVolumes : Nat) : Option Nat :=
  if free : ∃ slot, map.Free maxNrVolumes slot then some (Nat.find free) else none

open Classical in
noncomputable def change (map : VolumeMap) (unit : Nat) (difference : Int) : VolumeMap :=
  fun volumeID => (map volumeID).map fun entry =>
    if Addresses unit entry.slot then { entry with balance := entry.balance + difference }
    else entry

open Classical in
/-- The reply to a call, and the map after it, where a detach goes through at the balances that
count as idle. -/
noncomputable def call (idle : Int → Prop) (maxNrVolumes : Nat) (map : VolumeMap) :
    VolumeCall → Int × VolumeMap
  | .attach volumeID created _ =>
      match map volumeID, map.lowestFree maxNrVolumes, created with
      | some _, _, _ => (alreadyExists, map)
      | none, some slot, some _ => (dmsOK, Function.update map volumeID (some ⟨slot, 0⟩))
      | none, _, _ => (attachFail, map)
  | .detach volumeID _ =>
      match map volumeID with
      | none => (noSuchDevice, map)
      | some entry =>
          if idle entry.balance then (dmsOK, Function.update map volumeID none)
          else (deviceBusy, map)
  | .openMinor unit _ =>
      if map.Occupied unit then (0, map.change unit 1)
      else if ∃ slot, Addresses unit slot ∧ dmsMinorStart ≤ slot ∧ slot < maxNrVolumes then
        (badAddress, map)
      else (0, map)
  | .closeMinor unit _ => (0, map.change unit (-1))

theorem addresses_iff {unit slot : Nat} : Addresses unit slot ↔ unit / dmsDiskMinors = slot := by
  unfold Addresses dmsDiskMinors
  omega

open Classical in
theorem lowestFree_eq_some {map : VolumeMap} {maxNrVolumes slot : Nat}
    (free : map.Free maxNrVolumes slot) (lowest : ∀ lower < slot, ¬ map.Free maxNrVolumes lower) :
    map.lowestFree maxNrVolumes = some slot := by
  have exists_free : ∃ slot, map.Free maxNrVolumes slot := ⟨slot, free⟩
  rw [lowestFree, dif_pos exists_free, Option.some_inj, Nat.find_eq_iff]
  exact ⟨free, lowest⟩

theorem lowestFree_eq_none {map : VolumeMap} {maxNrVolumes : Nat}
    (full : ∀ slot, ¬ map.Free maxNrVolumes slot) : map.lowestFree maxNrVolumes = none := by
  rw [lowestFree, dif_neg]
  rintro ⟨slot, free⟩
  exact full slot free

section Change

variable {map : VolumeMap} {unit : Nat} {difference : Int} {volumeID : BitVec 64}
  {entry : VolumeEntry}

theorem change_at (mapped : map volumeID = some entry) (here : Addresses unit entry.slot) :
    map.change unit difference volumeID =
      some { entry with balance := entry.balance + difference } := by
  rw [change, mapped, Option.map_some, if_pos here]

theorem change_elsewhere (mapped : map volumeID = some entry)
    (elsewhere : ¬ Addresses unit entry.slot) :
    map.change unit difference volumeID = some entry := by
  rw [change, mapped, Option.map_some, if_neg elsewhere]

theorem mapped_of_change (mapped : map.change unit difference volumeID = some entry) :
    ∃ entry, map volumeID = some entry := by
  obtain ⟨before, there, -⟩ := Option.map_eq_some_iff.mp mapped
  exact ⟨before, there⟩

theorem change_of_not_occupied (vacant : ¬ map.Occupied unit) :
    map.change unit difference = map := by
  funext volumeID
  cases mapped : map volumeID with
  | none => rw [change, mapped, Option.map_none]
  | some entry =>
      apply change_elsewhere mapped
      intro here
      exact vacant ⟨volumeID, entry, mapped, here⟩

end Change

end VolumeMap

def Slot.Shows (slot : Slot) (volumeID : BitVec 64) (entry : VolumeEntry) : Prop :=
  ∃ addr volumeState, checkPtr addr = true ∧ volumeState.getLsbD 1 = false ∧
    slot = .attached addr ⟨volumeID, entry.slot, volumeState, openCounterOf entry.balance⟩

theorem Slot.Shows.not_empty {volumeID : BitVec 64} {entry : VolumeEntry} :
    ¬ Slot.empty.Shows volumeID entry := by
  rintro ⟨addr, volumeState, -, -, same⟩
  cases same

theorem Slot.Shows.unique {slot : Slot} {volumeID volumeID' : BitVec 64}
    {entry entry' : VolumeEntry} (shows : slot.Shows volumeID entry)
    (other : slot.Shows volumeID' entry') : volumeID = volumeID' := by
  obtain ⟨addr, volumeState, -, -, rfl⟩ := shows
  obtain ⟨addr', volumeState', -, -, same⟩ := other
  exact congrArg DMSVolume.volumeID (Slot.attached.inj same).2

theorem Slot.Shows.opened {addr : BitVec 64} {volume : DMSVolume} {volumeID : BitVec 64}
    {entry : VolumeEntry} (shows : (Slot.attached addr volume).Shows volumeID entry) :
    (openVolume volume).1 = 0 ∧ (Slot.attached addr (openVolume volume).2).Shows volumeID
      { entry with balance := entry.balance + 1 } := by
  obtain ⟨addr', volumeState, legal, attached, same⟩ := shows
  cases same
  rw [openVolume, if_pos attached]
  refine ⟨rfl, addr, volumeState, legal, attached, ?_⟩
  rw [openCounterOf_opened]

theorem Slot.Shows.closed {addr : BitVec 64} {volume : DMSVolume} {volumeID : BitVec 64}
    {entry : VolumeEntry} (shows : (Slot.attached addr volume).Shows volumeID entry) :
    (closeVolume volume).1 = 0 ∧ (Slot.attached addr (closeVolume volume).2).Shows volumeID
      { entry with balance := entry.balance + -1 } := by
  obtain ⟨addr', volumeState, legal, attached, same⟩ := shows
  cases same
  refine ⟨rfl, addr, volumeState, legal, attached, ?_⟩
  rw [closeVolume, openCounterOf_closed, Int.sub_eq_add_neg]

structure Represents (allVolumes : List Slot) (map : VolumeMap) : Prop where
  entry : ∀ volumeID entry, map volumeID = some entry → dmsMinorStart ≤ entry.slot ∧
    ∃ slot, allVolumes[entry.slot]? = some slot ∧ slot.Shows volumeID entry
  slot : ∀ (i : Nat) slot, allVolumes[i]? = some slot → slot = .empty ∨
    ∃ volumeID entry, map volumeID = some entry ∧ entry.slot = i ∧ slot.Shows volumeID entry

theorem represents_init (maxNrVolumes : Nat) :
    Represents (List.replicate maxNrVolumes .empty) fun _ => none where
  entry _ _ mapped := by cases mapped
  slot _ _ here := .inl (List.eq_of_mem_replicate (List.mem_of_getElem? here))

namespace Represents

variable {allVolumes : List Slot} {map : VolumeMap} {volumeID : BitVec 64} {entry : VolumeEntry}
  {slot : Slot}

theorem settled (represents : Represents allVolumes map) : Settled allVolumes := by
  intro slot member
  obtain ⟨i, here⟩ := List.mem_iff_getElem?.mp member
  refine (represents.slot i slot here).imp_right ?_
  rintro ⟨volumeID, entry, -, -, addr, volumeState, legal, -, same⟩
  exact ⟨addr, _, same, legal⟩

/-- No two ids have one slot. -/
theorem slot_injective (represents : Represents allVolumes map) {volumeID' : BitVec 64}
    {entry' : VolumeEntry} (mapped : map volumeID = some entry)
    (mapped' : map volumeID' = some entry') (same : entry.slot = entry'.slot) :
    volumeID = volumeID' := by
  obtain ⟨-, slot, here, shows⟩ := represents.entry _ _ mapped
  obtain ⟨-, slot', here', shows'⟩ := represents.entry _ _ mapped'
  rw [same, here'] at here
  cases here
  exact shows.unique shows'

theorem range (represents : Represents allVolumes map) (mapped : map volumeID = some entry) :
    inAllVolumeRange allVolumes entry.slot = true := by
  obtain ⟨late, slot, here, -⟩ := represents.entry _ _ mapped
  exact inAllVolumeRange_natCast.mpr ⟨late, (List.getElem?_eq_some_iff.mp here).1⟩

/-- A lookup finds the volume of the map, or sees that the id is absent. -/
theorem lookup (represents : Represents allVolumes map) (volumeID : BitVec 64)
    (stray : StrayMemory) :
    (∃ entry addr volume, map volumeID = some entry ∧
      (Slot.attached addr volume).Shows volumeID entry ∧
      (getVolumePtrByVolumeID volumeID stray allVolumes).1 =
        .slot entry.slot (.attached addr volume) volume) ∨
    map volumeID = none ∧ (getVolumePtrByVolumeID volumeID stray allVolumes).1 = .missing := by
  have settledRest : Settled (allVolumes.drop dmsMinorStart) :=
    fun slot member => represents.settled slot (List.mem_of_mem_drop member)
  rw [getVolumePtrByVolumeID]
  rcases settledRest.lookupLoop volumeID stray dmsMinorStart with
    ⟨place, addr, volume, found, there, named⟩ | missing
  · rw [List.getElem?_drop] at there
    rcases represents.slot _ _ there with empty | ⟨volumeID', entry, mapped, slotIs, shows⟩
    · cases empty
    · obtain ⟨addr', volumeState, -, -, same⟩ := id shows
      cases same
      obtain rfl : volumeID' = volumeID := named
      refine .inl ⟨entry, addr, _, mapped, shows, ?_⟩
      rw [found, slotIs]
  · refine .inr ⟨?_, missing⟩
    rw [Option.eq_none_iff_forall_ne_some]
    intro entry mapped
    obtain ⟨late, slot, here, addr, volumeState, legal, -, rfl⟩ := represents.entry _ _ mapped
    have member : Slot.attached addr ⟨volumeID, entry.slot, volumeState,
        openCounterOf entry.balance⟩ ∈ allVolumes.drop dmsMinorStart := by
      apply List.mem_iff_getElem?.mpr
      refine ⟨entry.slot - dmsMinorStart, ?_⟩
      rw [List.getElem?_drop, Nat.add_sub_cancel' late, here]
    exact absurd rfl (lookupLoop_missing missing member legal)

theorem free_iff (represents : Represents allVolumes map) {i : Nat} :
    map.Free allVolumes.length i ↔ dmsMinorStart ≤ i ∧ allVolumes[i]? = some .empty := by
  constructor
  · rintro ⟨late, inside, free⟩
    refine ⟨late, ?_⟩
    obtain ⟨slot, here⟩ : ∃ slot, allVolumes[i]? = some slot :=
      ⟨_, List.getElem?_eq_getElem inside⟩
    rcases represents.slot i slot here with rfl | ⟨volumeID, entry, mapped, slotIs, -⟩
    · exact here
    · exact absurd slotIs (free volumeID entry mapped)
  · rintro ⟨late, empty⟩
    refine ⟨late, (List.getElem?_eq_some_iff.mp empty).1, ?_⟩
    rintro volumeID entry mapped rfl
    obtain ⟨-, slot, here, shows⟩ := represents.entry _ _ mapped
    rw [empty] at here
    cases here
    exact Slot.Shows.not_empty shows

section Update

theorem add (represents : Represents allVolumes map) (absent : map volumeID = none)
    (free : map.Free allVolumes.length entry.slot) (shows : slot.Shows volumeID entry) :
    Represents (allVolumes.set entry.slot slot) (Function.update map volumeID (some entry)) where
  entry other entry' mapped := by
    by_cases same : other = volumeID
    · subst same
      rw [Function.update_self] at mapped
      cases mapped
      exact ⟨free.1, slot, List.getElem?_set_self free.2.1, shows⟩
    · rw [Function.update_of_ne same] at mapped
      obtain ⟨late, slot', here, shows'⟩ := represents.entry _ _ mapped
      refine ⟨late, slot', ?_, shows'⟩
      rw [List.getElem?_set_ne (free.2.2 other entry' mapped).symm]
      exact here
  slot i slot' here := by
    by_cases same : entry.slot = i
    · subst same
      rw [List.getElem?_set_self free.2.1] at here
      cases here
      exact .inr ⟨volumeID, entry, Function.update_self .., rfl, shows⟩
    · rw [List.getElem?_set_ne same] at here
      refine (represents.slot i slot' here).imp_right ?_
      rintro ⟨other, entry', mapped, slotIs, shows'⟩
      refine ⟨other, entry', ?_, slotIs, shows'⟩
      rw [Function.update_of_ne]
      · exact mapped
      · rintro rfl
        rw [absent] at mapped
        cases mapped

theorem remove (represents : Represents allVolumes map) (mapped : map volumeID = some entry) :
    Represents (allVolumes.set entry.slot .empty) (Function.update map volumeID none) where
  entry other entry' mapped' := by
    by_cases same : other = volumeID
    · subst same
      rw [Function.update_self] at mapped'
      cases mapped'
    · rw [Function.update_of_ne same] at mapped'
      obtain ⟨late, slot', here, shows'⟩ := represents.entry _ _ mapped'
      refine ⟨late, slot', ?_, shows'⟩
      rw [List.getElem?_set_ne]
      · exact here
      · exact fun slots => same (represents.slot_injective mapped mapped' slots).symm
  slot i slot' here := by
    by_cases same : entry.slot = i
    · subst same
      obtain ⟨-, slot, there, -⟩ := represents.entry _ _ mapped
      rw [List.getElem?_set_self (List.getElem?_eq_some_iff.mp there).1] at here
      cases here
      exact .inl rfl
    · rw [List.getElem?_set_ne same] at here
      refine (represents.slot i slot' here).imp_right ?_
      rintro ⟨other, entry', mapped', slotIs, shows'⟩
      refine ⟨other, entry', ?_, slotIs, shows'⟩
      rw [Function.update_of_ne]
      · exact mapped'
      · rintro rfl
        rw [mapped] at mapped'
        cases mapped'
        exact same slotIs

theorem change {unit : Nat} {difference : Int} (represents : Represents allVolumes map)
    (mapped : map volumeID = some entry) (here : VolumeMap.Addresses unit entry.slot)
    (shows : slot.Shows volumeID { entry with balance := entry.balance + difference }) :
    Represents (allVolumes.set entry.slot slot) (map.change unit difference) := by
  obtain ⟨late, before, there, -⟩ := represents.entry _ _ mapped
  have inside := (List.getElem?_eq_some_iff.mp there).1
  have elsewhere {other : BitVec 64} {entry' : VolumeEntry} (mapped' : map other = some entry')
      (differ : other ≠ volumeID) :
      entry.slot ≠ entry'.slot ∧ map.change unit difference other = some entry' := by
    have slots : entry.slot ≠ entry'.slot :=
      fun slots => differ (represents.slot_injective mapped mapped' slots).symm
    refine ⟨slots, VolumeMap.change_elsewhere mapped' ?_⟩
    rw [VolumeMap.addresses_iff] at here ⊢
    rw [here]
    exact slots
  constructor
  case entry =>
    intro other entry' mapped'
    by_cases same : other = volumeID
    · subst same
      rw [VolumeMap.change_at mapped here] at mapped'
      cases mapped'
      exact ⟨late, slot, List.getElem?_set_self inside, shows⟩
    · obtain ⟨entry₀, mapped₀⟩ := VolumeMap.mapped_of_change mapped'
      obtain ⟨slots, kept⟩ := elsewhere mapped₀ same
      rw [kept] at mapped'
      cases mapped'
      obtain ⟨late', slot', there', shows'⟩ := represents.entry _ _ mapped₀
      refine ⟨late', slot', ?_, shows'⟩
      rw [List.getElem?_set_ne slots]
      exact there'
  case slot =>
    intro i slot' there'
    by_cases same : entry.slot = i
    · subst same
      rw [List.getElem?_set_self inside] at there'
      cases there'
      exact .inr ⟨volumeID, _, VolumeMap.change_at mapped here, rfl, shows⟩
    · rw [List.getElem?_set_ne same] at there'
      refine (represents.slot i slot' there').imp_right ?_
      rintro ⟨other, entry', mapped', slotIs, shows'⟩
      refine ⟨other, entry', (elsewhere mapped' ?_).2, slotIs, shows'⟩
      rintro rfl
      rw [mapped] at mapped'
      cases mapped'
      exact same slotIs

end Update

/-- An attach reserves the lowest slot that is free. -/
theorem occupy (represents : Represents allVolumes map) (volumeID : BitVec 64) :
    (∃ index : Nat, map.lowestFree allVolumes.length = some index ∧
      map.Free allVolumes.length index ∧ inAllVolumeRange allVolumes index = true ∧
      occupyInAllVolumes volumeID allVolumes =
        ((index : Int), allVolumes.set index (.reserved volumeID))) ∨
    map.lowestFree allVolumes.length = none ∧
      occupyInAllVolumes volumeID allVolumes = (outOfRange, allVolumes) := by
  have settledRest : Settled (allVolumes.drop dmsMinorStart) :=
    fun slot member => represents.settled slot (List.mem_of_mem_drop member)
  have empty_of_free {i : Nat} (free : map.Free allVolumes.length i) :
      (allVolumes.drop dmsMinorStart)[i - dmsMinorStart]? = some .empty := by
    obtain ⟨late, empty⟩ := represents.free_iff.mp free
    rw [List.getElem?_drop, Nat.add_sub_cancel' late]
    exact empty
  unfold occupyInAllVolumes
  cases searched : (allVolumes.drop dmsMinorStart).findIdx? fun slot => slot.pointer = 0 with
  | none =>
      refine .inr ⟨VolumeMap.lowestFree_eq_none ?_, rfl⟩
      intro i free
      have member := List.mem_of_getElem? (empty_of_free free)
      exact absurd (List.findIdx?_eq_none_iff.mp searched _ member) (by decide)
  | some place =>
      obtain ⟨within, null, before⟩ := List.findIdx?_eq_some_iff_getElem.mp searched
      have empty := (settledRest.pointer_eq_zero (List.getElem_mem within)).mp
        (of_decide_eq_true null)
      have free : map.Free allVolumes.length (dmsMinorStart + place) := by
        apply represents.free_iff.mpr
        refine ⟨Nat.le_add_right _ _, ?_⟩
        rw [← List.getElem?_drop, List.getElem?_eq_getElem within, empty]
      have range : inAllVolumeRange allVolumes ((dmsMinorStart + place : Nat) : Int) = true :=
        inAllVolumeRange_natCast.mpr ⟨free.1, free.2.1⟩
      refine .inl ⟨dmsMinorStart + place, VolumeMap.lowestFree_eq_some free ?_, free, range, ?_⟩
      · intro lower isLower freeLower
        have late := freeLower.1
        obtain ⟨withinLower, emptyLower⟩ := List.getElem?_eq_some_iff.mp (empty_of_free freeLower)
        apply before (lower - dmsMinorStart) (by omega)
        rw [emptyLower]
        rfl
      · simp only [range, if_true]

theorem exists_iff (represents : Represents allVolumes map) (volumeID : BitVec 64)
    (stray : StrayMemory) :
    (checkVolumeExistence volumeID stray allVolumes).1 = some (map volumeID).isSome := by
  simp only [checkVolumeExistence, getDMSVolumeIndexByVolumeID]
  rcases represents.lookup volumeID stray with
    ⟨entry, addr, volume, mapped, -, found⟩ | ⟨absent, missing⟩
  · rw [getVolumePtrByVolumeID] at found
    rw [found, mapped]
    exact congrArg some (represents.range mapped)
  · rw [getVolumePtrByVolumeID] at missing
    rw [missing, absent]
    exact congrArg some (inAllVolumeRange_of_low (by decide))

end Represents

theorem set_restored {allVolumes : List Slot} {slot : Slot} {i : Nat}
    (here : allVolumes[i]? = some slot) : allVolumes.set i slot = allVolumes := by
  obtain ⟨inside, rfl⟩ := List.getElem?_eq_some_iff.mp here
  exact List.set_getElem_self inside

/-- The counter reads zero at these balances. -/
def ReadsZero (balance : Int) : Prop := (2 ^ 32 : Int) ∣ balance

/-- A call answers as it does on the map, leaves the table of the map after it, and leaves the
table alone when it fails. -/
structure Refines (allVolumes : List Slot) (result : Option Int × List Slot)
    (spec : Int × VolumeMap) : Prop where
  reply : result.1 = some spec.1
  length : result.2.length = allVolumes.length
  represents : Represents result.2 spec.2
  unchanged : spec.1 ≠ 0 → result.2 = allVolumes

namespace Represents

variable {allVolumes : List Slot} {map : VolumeMap}

theorem attach (represents : Represents allVolumes map) (idle : Int → Prop) (volumeID : BitVec 64)
    (created : Option Address) (stray : StrayMemory) :
    Refines allVolumes (dmsAttachVolume volumeID created stray allVolumes)
      (map.call idle allVolumes.length (.attach volumeID created stray)) := by
  rw [dmsAttachVolume, represents.exists_iff]
  cases mapped : map volumeID with
  | some entry =>
      simp only [VolumeMap.call, mapped, Option.isSome_some]
      exact ⟨rfl, rfl, represents, fun _ => rfl⟩
  | none =>
      rcases represents.occupy volumeID with
        ⟨index, lowest, free, range, occupied⟩ | ⟨full, occupied⟩
      · cases created with
        | none =>
            have empty := (represents.free_iff.mp free).2
            have restored := set_restored empty
            simp only [VolumeMap.call, mapped, lowest, Option.isSome_none,
              createAndInsertDMSVolume_notCreated range occupied, restored]
            exact ⟨rfl, rfl, represents, fun _ => rfl⟩
        | some addr =>
            have cleared : ((0 : BitVec 32) ||| attachedBit).getLsbD 1 = false := by decide
            have shows : (Slot.attached addr (attachVolume ⟨volumeID, index, 0, 0⟩).2).Shows
                volumeID ⟨index, 0⟩ := ⟨addr, _, addr.2, cleared, rfl⟩
            simp only [VolumeMap.call, mapped, lowest, Option.isSome_none,
              createAndInsertDMSVolume_created range addr occupied, Int.toNat_natCast,
              List.set_set]
            exact ⟨rfl, List.length_set, represents.add mapped free shows,
              fun failed => absurd rfl failed⟩
      · simp only [VolumeMap.call, mapped, full, Option.isSome_none,
          createAndInsertDMSVolume_full created occupied]
        exact ⟨rfl, rfl, represents, fun _ => rfl⟩

theorem detach (represents : Represents allVolumes map) (volumeID : BitVec 64)
    (stray : StrayMemory) :
    Refines allVolumes (dmsDetachVolume volumeID stray allVolumes)
      (map.call ReadsZero allVolumes.length (.detach volumeID stray)) := by
  rw [dmsDetachVolume, VolumeMap.call]
  rcases represents.lookup volumeID stray with
    ⟨entry, addr, volume, mapped, shows, found⟩ | ⟨absent, missing⟩
  · obtain ⟨addr', volumeState, legal, attached, same⟩ := shows
    cases same
    rw [found, mapped]
    by_cases zero : openCounterOf entry.balance = 0
    · have idle : ReadsZero entry.balance := openCounterOf_eq_zero.mp zero
      have range := represents.range mapped
      simp only [isOpenCounterEmptyInVol, zero, decide_true, if_true, detachVolume,
        removeAndReleaseDMSVolume, removeVolumeFromAllVolumes, range, Int.toNat_natCast,
        if_pos idle]
      exact ⟨rfl, List.length_set, represents.remove mapped, fun failed => absurd rfl failed⟩
    · have busy : ¬ ReadsZero entry.balance := fun idle => zero (openCounterOf_eq_zero.mpr idle)
      simp only [isOpenCounterEmptyInVol, zero, decide_false, if_neg busy]
      exact ⟨rfl, rfl, represents, fun _ => rfl⟩
  · rw [missing, absent]
    exact ⟨rfl, rfl, represents, fun _ => rfl⟩

open Classical in
/-- An access through a minor reaches the volume there, if there is one. -/
theorem access {operation : DMSVolume → Int × DMSVolume} {difference : Int}
    (counts : ∀ {addr volume volumeID entry}, (Slot.attached addr volume).Shows volumeID entry →
      (operation volume).1 = 0 ∧ (Slot.attached addr (operation volume).2).Shows volumeID
        { entry with balance := entry.balance + difference })
    (represents : Represents allVolumes map) (illegal : Int) (unit : Nat) (stray : StrayMemory) :
    Refines allVolumes
      ((accessDMSVolume operation illegal unit stray allVolumes).1,
        (accessDMSVolume operation illegal unit stray allVolumes).2.1)
      (if map.Occupied unit then (0, map.change unit difference)
        else if ∃ slot, VolumeMap.Addresses unit slot ∧ dmsMinorStart ≤ slot ∧
          slot < allVolumes.length then (illegal, map)
        else (0, map)) := by
  have range_iff : (∃ slot, VolumeMap.Addresses unit slot ∧ dmsMinorStart ≤ slot ∧
      slot < allVolumes.length) ↔
        inAllVolumeRange allVolumes ((unit / dmsDiskMinors : Nat) : Int) = true := by
    simp only [VolumeMap.addresses_iff, exists_eq_left', inAllVolumeRange_natCast]
  rw [range_iff]
  by_cases occupied : map.Occupied unit
  · obtain ⟨volumeID, entry, mapped, here⟩ := id occupied
    obtain ⟨late, slot, there, shows⟩ := represents.entry _ _ mapped
    have changed (slot : Slot) (shows : slot.Shows volumeID
        { entry with balance := entry.balance + difference }) :=
      represents.change mapped here shows
    have index := VolumeMap.addresses_iff.mp here
    have range : inAllVolumeRange allVolumes ((unit / dmsDiskMinors : Nat) : Int) = true := by
      rw [index]
      exact represents.range mapped
    obtain ⟨addr, volumeState, legal, attached, rfl⟩ := id shows
    obtain ⟨succeeds, counted⟩ := counts shows
    rw [← index] at there
    simp only [accessDMSVolume, range, if_true, there, Slot.access, Slot.pointer, legal,
      if_pos occupied]
    rw [index]
    exact ⟨congrArg some succeeds, List.length_set, changed _ counted,
      fun failed => absurd rfl failed⟩
  · rw [if_neg occupied, accessDMSVolume]
    by_cases range : inAllVolumeRange allVolumes ((unit / dmsDiskMinors : Nat) : Int) = true
    · have empty : allVolumes[unit / dmsDiskMinors]? = some .empty := by
        have inside := (inAllVolumeRange_natCast.mp range).2
        obtain ⟨slot, there⟩ : ∃ slot, allVolumes[unit / dmsDiskMinors]? = some slot :=
          ⟨_, List.getElem?_eq_getElem inside⟩
        rcases represents.slot _ slot there with rfl | ⟨volumeID, entry, mapped, slotIs, -⟩
        · exact there
        · exact absurd ⟨volumeID, entry, mapped, VolumeMap.addresses_iff.mpr slotIs.symm⟩ occupied
      have restored := set_restored empty
      have access : Slot.empty.access operation illegal stray = (some illegal, .empty, []) := rfl
      simp only [range, if_true, empty, access, restored]
      exact ⟨rfl, rfl, represents, fun _ => rfl⟩
    · simp only [range]
      exact ⟨rfl, rfl, represents, fun _ => rfl⟩

theorem call (represents : Represents allVolumes map) (one : VolumeCall) :
    Refines allVolumes (one.call allVolumes) (map.call ReadsZero allVolumes.length one) := by
  cases one with
  | attach volumeID created stray => exact represents.attach ReadsZero volumeID created stray
  | detach volumeID stray => exact represents.detach volumeID stray
  | openMinor unit stray =>
      exact represents.access Slot.Shows.opened badAddress unit stray
  | closeMinor unit stray =>
      have closed := represents.access Slot.Shows.closed 0 unit stray
      rw [ite_self] at closed
      by_cases occupied : map.Occupied unit
      · rw [if_pos occupied] at closed
        exact closed
      · rw [if_neg occupied] at closed
        rw [VolumeMap.call, VolumeMap.change_of_not_occupied occupied]
        exact closed

end Represents

section Calls

def Shown (maxNrVolumes : Nat) (allVolumes : List Slot) (map : VolumeMap) : Prop :=
  Represents allVolumes map ∧ allVolumes.length = maxNrVolumes

theorem shown_init (maxNrVolumes : Nat) :
    Shown maxNrVolumes (List.replicate maxNrVolumes .empty) fun _ => none :=
  ⟨represents_init maxNrVolumes, List.length_replicate⟩

theorem Shown.call {maxNrVolumes : Nat} {allVolumes : List Slot} {map : VolumeMap}
    (shown : Shown maxNrVolumes allVolumes map) (one : VolumeCall) :
    (one.call allVolumes).1 = some (map.call ReadsZero maxNrVolumes one).1 ∧
      Shown maxNrVolumes (one.call allVolumes).2 (map.call ReadsZero maxNrVolumes one).2 := by
  obtain ⟨represents, rfl⟩ := shown
  have step := represents.call one
  exact ⟨step.reply, step.represents, step.length⟩

/-- The replies to calls that do not overlap, and the table behind them. -/
def tableCalls (maxNrVolumes : Nat) (calls : List VolumeCall) : List (Option Int) × List Slot :=
  runCalls VolumeCall.call (List.replicate maxNrVolumes .empty) calls

noncomputable def mapCalls (idle : Int → Prop) (maxNrVolumes : Nat) (calls : List VolumeCall) :
    List Int × VolumeMap :=
  runCalls (VolumeMap.call idle maxNrVolumes) (fun _ => none) calls

theorem tableCalls_shown (maxNrVolumes : Nat) (calls : List VolumeCall) :
    (tableCalls maxNrVolumes calls).1 = (mapCalls ReadsZero maxNrVolumes calls).1.map some ∧
      Shown maxNrVolumes (tableCalls maxNrVolumes calls).2
        (mapCalls ReadsZero maxNrVolumes calls).2 := by
  have kept : ∀ allVolumes map (one : VolumeCall), Shown maxNrVolumes allVolumes map →
      (one.call allVolumes).1 = some (map.call ReadsZero maxNrVolumes one).1 ∧
        Shown maxNrVolumes (one.call allVolumes).2 (map.call ReadsZero maxNrVolumes one).2 :=
    fun _ _ one shown => shown.call one
  exact runCalls_refines kept (shown_init maxNrVolumes) calls

/-- Calls that do not overlap answer as on a map from volume ids to slots and balances, where a
detach is busy unless 2^32 divides the balance; and a call that fails leaves the table alone. -/
theorem tableCalls_refine (maxNrVolumes : Nat) (calls : List VolumeCall) :
    (tableCalls maxNrVolumes calls).1 = (mapCalls ReadsZero maxNrVolumes calls).1.map some ∧
    Represents (tableCalls maxNrVolumes calls).2 (mapCalls ReadsZero maxNrVolumes calls).2 ∧
    ∀ one : VolumeCall, (one.call (tableCalls maxNrVolumes calls).2).1 ≠ some 0 →
      (one.call (tableCalls maxNrVolumes calls).2).2 = (tableCalls maxNrVolumes calls).2 := by
  obtain ⟨replies, represents, -⟩ := tableCalls_shown maxNrVolumes calls
  refine ⟨replies, represents, ?_⟩
  intro one failed
  have step := represents.call one
  apply step.unchanged
  intro succeeds
  apply failed
  rw [step.reply, succeeds]

def detachedAfterOpens (opens : Nat) : List VolumeCall :=
  .attach 5 (some ⟨4096, rfl⟩) (fun _ => none) ::
    (List.replicate opens (.openMinor 16 fun _ => none) ++ [.detach 5 fun _ => none])

def inFirstSlot (balance : Int) : VolumeMap :=
  Function.update (fun _ => none) 5 (some ⟨1, balance⟩)

theorem attach_inFirstSlot (idle : Int → Prop) (addr : Address) (stray : StrayMemory) :
    VolumeMap.call idle 2 (fun _ => none) (.attach 5 (some addr) stray) =
      (dmsOK, inFirstSlot 0) := by
  have free : VolumeMap.Free (fun _ => none) 2 1 :=
    ⟨Nat.le_refl 1, Nat.lt_succ_self 1, fun _ _ mapped => by cases mapped⟩
  have lowest : VolumeMap.lowestFree (fun _ => none) 2 = some 1 := by
    apply VolumeMap.lowestFree_eq_some free
    intro lower isLower freeLower
    exact absurd freeLower.1 (Nat.not_le.mpr isLower)
  simp only [VolumeMap.call, lowest]
  rfl

theorem open_inFirstSlot (idle : Int → Prop) (stray : StrayMemory) (balance : Int) :
    VolumeMap.call idle 2 (inFirstSlot balance) (.openMinor 16 stray) =
      (0, inFirstSlot (balance + 1)) := by
  have here : VolumeMap.Addresses 16 1 := VolumeMap.addresses_iff.mpr rfl
  have mapped : inFirstSlot balance 5 = some ⟨1, balance⟩ := Function.update_self ..
  have occupied : (inFirstSlot balance).Occupied 16 := ⟨5, ⟨1, balance⟩, mapped, here⟩
  have changed : (inFirstSlot balance).change 16 1 = inFirstSlot (balance + 1) := by
    funext volumeID
    by_cases same : volumeID = 5
    · subst same
      rw [VolumeMap.change_at mapped here, inFirstSlot, Function.update_self]
    · rw [VolumeMap.change, inFirstSlot, inFirstSlot, Function.update_of_ne same,
        Function.update_of_ne same, Option.map_none]
  rw [VolumeMap.call, if_pos occupied, changed]

theorem opens_inFirstSlot (idle : Int → Prop) (stray : StrayMemory) (opens : Nat)
    (balance : Int) :
    (runCalls (VolumeMap.call idle 2) (inFirstSlot balance)
      (List.replicate opens (.openMinor 16 stray))).2 = inFirstSlot (balance + opens) := by
  induction opens generalizing balance with
  | zero => rw [Int.natCast_zero, Int.add_zero]; rfl
  | succ opens inductionHypothesis =>
      rw [List.replicate_succ, runCalls, open_inFirstSlot, inductionHypothesis,
        Int.natCast_succ, Int.add_assoc, Int.add_comm 1]

open Classical in
/-- The last reply says whether the balance of the opens counts as idle. -/
theorem mapCalls_detachedAfterOpens (idle : Int → Prop) (opens : Nat) :
    (mapCalls idle 2 (detachedAfterOpens opens)).1.getLast? =
      some (if idle opens then dmsOK else deviceBusy) := by
  have detached : (VolumeMap.call idle 2 (inFirstSlot opens) (.detach 5 fun _ => none)).1 =
      if idle opens then dmsOK else deviceBusy := by
    have mapped : inFirstSlot opens 5 = some ⟨1, opens⟩ := Function.update_self ..
    simp only [VolumeMap.call, mapped]
    split
    · rfl
    · rfl
  rw [mapCalls, detachedAfterOpens, runCalls, attach_inFirstSlot, runCalls_append,
    opens_inFirstSlot, Int.zero_add, runCalls, runCalls, detached]
  rw [List.getLast?_cons, List.getLast?_append]
  rfl

/-- After 2^32 opens the counter reads zero, and the open volume is detached. -/
theorem wrapped_detached :
    ¬ ∀ (maxNrVolumes : Nat) (calls : List VolumeCall),
      (tableCalls maxNrVolumes calls).1 =
        (mapCalls (fun balance => balance = 0) maxNrVolumes calls).1.map some := by
  intro refined
  have replies := refined 2 (detachedAfterOpens (2 ^ 32))
  rw [(tableCalls_shown 2 _).1] at replies
  have last := congrArg List.getLast? replies
  rw [List.getLast?_map, List.getLast?_map, mapCalls_detachedAfterOpens,
    mapCalls_detachedAfterOpens] at last
  have wraps : ReadsZero ((2 ^ 32 : Nat) : Int) := Int.dvd_refl _
  have counted : ¬ ((2 ^ 32 : Nat) : Int) = 0 := by decide
  rw [if_pos wraps, if_neg counted] at last
  cases last

end Calls

end DmsBlkdev
