import DmsBlkdev.VolumeManager.AttachOnce

/-!
# Calls of the volume manager, one after the other

An attach checks, reserves, creates and inserts; a detach looks the volume up,
tests its counter, and takes it out.  When no two calls overlap every slot is
empty or has a volume between them, and what a call makes of such a table is
said here branch by branch.
-/

namespace DmsBlkdev

/-- `-EEXIST`. -/
def alreadyExists : Int := -17

/-- `-ENODEV`. -/
def noSuchDevice : Int := -19

/-- `-EBUSY`. -/
def deviceBusy : Int := -16

/-- `-ATTACH_FAIL`, which is `-EFAULT`. -/
def attachFail : Int := -14

/-- What `CHECK_PTR` takes for a pointer. -/
abbrev Address := { addr : BitVec 64 // checkPtr addr = true }

/-- `Create_and_Insert_DMS_Volume`, where `__Create_Volume` returns the address of a volume, or a
null pointer. -/
def createAndInsertDMSVolume (volumeID : BitVec 64) (created : Option Address)
    (allVolumes : List Slot) : Option (Address × DMSVolume) × List Slot :=
  let (index, allVolumes) := occupyInAllVolumes volumeID allVolumes
  if inAllVolumeRange allVolumes index then
    match created with
    | some addr =>
        let volume : DMSVolume := ⟨volumeID, index, 0, 0⟩
        let (index, allVolumes) := insertVolumeToAllVolumes addr volume allVolumes
        (if inAllVolumeRange allVolumes index then some (addr, volume) else none, allVolumes)
    | none => (none, (removeVolumeFromAllVolumes index allVolumes).2)
  else (none, allVolumes)

/-- `__Attach_Volume` for a legal pointer. -/
def attachVolume (volume : DMSVolume) : Int × DMSVolume :=
  (dmsOK, { volume with volumeState := volume.volumeState ||| attachedBit })

/-- `DMS_Attach_Volume`; no code when the check faults. -/
def dmsAttachVolume (volumeID : BitVec 64) (created : Option Address) (stray : StrayMemory)
    (allVolumes : List Slot) : Option Int × List Slot :=
  match (checkVolumeExistence volumeID stray allVolumes).1 with
  | none => (none, allVolumes)
  | some true => (some alreadyExists, allVolumes)
  | some false =>
      match createAndInsertDMSVolume volumeID created allVolumes with
      | (some (addr, volume), allVolumes) =>
          (some (attachVolume volume).1, allVolumes.set volume.minorIndex.toNat
            (.attached addr (attachVolume volume).2))
      | (none, allVolumes) => (some attachFail, allVolumes)

/-- `__Detach_Volume` for a legal pointer. -/
def detachVolume (volume : DMSVolume) : Int × DMSVolume :=
  (dmsOK, { volume with
    volumeState := (volume.volumeState ||| detachingBit) &&& ~~~attachedBit &&& ~~~detachingBit })

/-- `Remove_and_Release_DMS_Volume` for a legal pointer. -/
def removeAndReleaseDMSVolume (volume : DMSVolume) (allVolumes : List Slot) : List Slot :=
  (removeVolumeFromAllVolumes volume.minorIndex allVolumes).2

/-- `DMS_Detach_Volume`; no code when the lookup faults. -/
def dmsDetachVolume (volumeID : BitVec 64) (stray : StrayMemory) (allVolumes : List Slot) :
    Option Int × List Slot :=
  match (getVolumePtrByVolumeID volumeID stray allVolumes).1 with
  | .fault => (none, allVolumes)
  | .missing => (some noSuchDevice, allVolumes)
  | .slot _ _ volume =>
      if isOpenCounterEmptyInVol volume then
        let (retcode, volume) := detachVolume volume
        (some retcode, if retcode = dmsOK then removeAndReleaseDMSVolume volume allVolumes
          else allVolumes)
      else (some deviceBusy, allVolumes)

inductive VolumeCall where
  | attach (volumeID : BitVec 64) (created : Option Address) (stray : StrayMemory)
  | detach (volumeID : BitVec 64) (stray : StrayMemory)
  | openMinor (unit : Nat) (stray : StrayMemory)
  | closeMinor (unit : Nat) (stray : StrayMemory)

def VolumeCall.call (allVolumes : List Slot) : VolumeCall → Option Int × List Slot
  | attach volumeID created stray => dmsAttachVolume volumeID created stray allVolumes
  | detach volumeID stray => dmsDetachVolume volumeID stray allVolumes
  | openMinor unit stray =>
      ((openDMSVolume unit stray allVolumes).1, (openDMSVolume unit stray allVolumes).2.1)
  | closeMinor unit stray =>
      ((closeDMSVolume unit stray allVolumes).1, (closeDMSVolume unit stray allVolumes).2.1)

def Settled (allVolumes : List Slot) : Prop :=
  ∀ slot ∈ allVolumes, slot = .empty ∨
    ∃ addr volume, slot = .attached addr volume ∧ checkPtr addr = true

section Settled

variable {allVolumes slots : List Slot} {volumeID : BitVec 64} {stray : StrayMemory} {i : Nat}

/-- A lookup in a settled table finds a volume with the id, or sees that there is none. -/
theorem Settled.lookupLoop (settled : Settled slots) (volumeID : BitVec 64) (stray : StrayMemory)
    (i : Nat) :
    (∃ place addr volume, (DmsBlkdev.lookupLoop volumeID stray slots i).1 =
        .slot (i + place) (.attached addr volume) volume ∧
      slots[place]? = some (.attached addr volume) ∧ volume.volumeID = volumeID) ∨
    (DmsBlkdev.lookupLoop volumeID stray slots i).1 = .missing := by
  induction slots generalizing i with
  | nil => exact .inr rfl
  | cons first rest inductionHypothesis =>
      have later := inductionHypothesis (fun slot member => settled slot (.tail _ member)) (i + 1)
      have shift : (∃ place addr volume, (DmsBlkdev.lookupLoop volumeID stray rest (i + 1)).1 =
            .slot (i + 1 + place) (.attached addr volume) volume ∧
          rest[place]? = some (.attached addr volume) ∧ volume.volumeID = volumeID) →
          ∃ place addr volume, (DmsBlkdev.lookupLoop volumeID stray rest (i + 1)).1 =
            .slot (i + place) (.attached addr volume) volume ∧
          (first :: rest)[place]? = some (.attached addr volume) ∧ volume.volumeID = volumeID := by
        rintro ⟨place, addr, volume, found, there, named⟩
        refine ⟨place + 1, addr, volume, ?_, there, named⟩
        rw [found, Nat.add_right_comm, Nat.add_assoc]
      rw [DmsBlkdev.lookupLoop]
      rcases settled first List.mem_cons_self with rfl | ⟨addr, volume, rfl, legal⟩
      · exact later.imp_left shift
      · simp only [Slot.pointer, legal, if_true, Slot.deref]
        split
        · next named => exact .inl ⟨0, addr, volume, rfl, rfl, named⟩
        · exact later.imp_left shift

theorem Settled.pointer_eq_zero (settled : Settled slots) {slot : Slot} (member : slot ∈ slots) :
    slot.pointer = 0 ↔ slot = .empty := by
  constructor
  · intro null
    rcases settled slot member with empty | ⟨addr, volume, rfl, legal⟩
    · exact empty
    · change addr = 0 at null
      subst null
      cases legal
  · rintro rfl
    rfl

end Settled

section Create

variable {allVolumes : List Slot} {volumeID : BitVec 64} {index : Nat}
  (range : inAllVolumeRange allVolumes index = true)

include range

/-- A volume that is created comes to the slot that was reserved for it. -/
theorem createAndInsertDMSVolume_created (addr : Address)
    (occupied : occupyInAllVolumes volumeID allVolumes =
      ((index : Int), allVolumes.set index (.reserved volumeID))) :
    createAndInsertDMSVolume volumeID (some addr) allVolumes =
      (some (addr, ⟨volumeID, index, 0, 0⟩),
        allVolumes.set index (.attached addr ⟨volumeID, index, 0, 0⟩)) := by
  have inside := (inAllVolumeRange_natCast.mp range).2
  have inserted : insertVolumeToAllVolumes addr ⟨volumeID, index, 0, 0⟩
      (allVolumes.set index (.reserved volumeID)) =
        ((index : Int), allVolumes.set index (.attached addr ⟨volumeID, index, 0, 0⟩)) := by
    simp only [insertVolumeToAllVolumes, addr.2, inAllVolumeRange_set, range, if_true,
      Int.toNat_natCast, List.getElem?_set_self inside, Option.map_some, Slot.pointer, List.set_set]
  simp only [createAndInsertDMSVolume, occupied, inAllVolumeRange_set, range, inserted, if_true]

theorem createAndInsertDMSVolume_notCreated
    (occupied : occupyInAllVolumes volumeID allVolumes =
      ((index : Int), allVolumes.set index (.reserved volumeID))) :
    createAndInsertDMSVolume volumeID none allVolumes = (none, allVolumes.set index .empty) := by
  simp only [createAndInsertDMSVolume, occupied, inAllVolumeRange_set, range,
    removeVolumeFromAllVolumes, if_true, Int.toNat_natCast, List.set_set]

end Create

theorem createAndInsertDMSVolume_full {allVolumes : List Slot} {volumeID : BitVec 64}
    (created : Option Address)
    (occupied : occupyInAllVolumes volumeID allVolumes = (outOfRange, allVolumes)) :
    createAndInsertDMSVolume volumeID created allVolumes = (none, allVolumes) := by
  have outside : inAllVolumeRange allVolumes outOfRange = false :=
    inAllVolumeRange_of_low (by decide)
  simp only [createAndInsertDMSVolume, occupied, outside]
  rfl

end DmsBlkdev
