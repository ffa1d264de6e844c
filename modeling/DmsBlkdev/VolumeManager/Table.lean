import DmsBlkdev.Common
import Mathlib.Data.List.Basic

/-!
# The table of volumes

A slot of the table is empty, reserved by an attach that is still creating
its volume, or has a volume.  In the source all three are one pointer, and a
reservation is the volume id cast to it; a reader sees the pointer only.
-/

namespace DmsBlkdev

/-- `struct DMS_Volume`. -/
structure DMSVolume where
  volumeID : BitVec 64
  minorIndex : Int
  volumeState : BitVec 32
  openCounter : BitVec 32
  deriving DecidableEq, Repr

/-- An entry of `all_volumes`; a volume stands there with its address. -/
inductive Slot where
  | empty
  | reserved (volumeID : BitVec 64)
  | attached (addr : BitVec 64) (volume : DMSVolume)
  deriving DecidableEq, Repr

namespace Slot

def pointer : Slot → BitVec 64
  | empty => 0
  | reserved volumeID => volumeID
  | attached addr _ => addr

def volumeID : Slot → Option (BitVec 64)
  | empty => none
  | reserved volumeID => some volumeID
  | attached _ volume => some volume.volumeID

def isVolume : Slot → Bool
  | attached .. => true
  | _ => false

end Slot

/-- `IS_ERR`: the last 4095 addresses are error codes. -/
def isErr (pointer : BitVec 64) : Bool := 2 ^ 64 - 4095 ≤ pointer.toNat

/-- `CHECK_PTR` and `IS_LEGAL`. -/
def checkPtr (pointer : BitVec 64) : Bool := pointer != 0 && !isErr pointer

/-- What reads like a `struct DMS_Volume` at an address that has none, unless the read faults. -/
abbrev StrayMemory := BitVec 64 → Option DMSVolume

def Slot.deref (stray : StrayMemory) : Slot → Option DMSVolume
  | .attached _ volume => some volume
  | slot => stray slot.pointer

/-- `DMS_MINOR_START`. -/
def dmsMinorStart : Nat := 1

/-- `DMS_DISK_MINORS`. -/
def dmsDiskMinors : Nat := 16

/-- `-EVMGR_OUT_OF_RANGE`. -/
def outOfRange : Int := -1101

/-- `-EFAULT`. -/
def badAddress : Int := -14

/-- `IS_IN_ALL_VOLUME_RANGE`. -/
def inAllVolumeRange (allVolumes : List Slot) (index : Int) : Bool :=
  dmsMinorStart ≤ index ∧ index ≤ allVolumes.length - 1

section Lookup

/-- How a lookup ends: at a slot with what was read there, at the end, or in a page fault. -/
inductive Found where
  | slot (index : Nat) (slot : Slot) (volume : DMSVolume)
  | missing
  | fault
  deriving DecidableEq, Repr

/-- The loop of the lookups over the slots from `i` on, with the slots that it dereferences. -/
def lookupLoop (volumeID : BitVec 64) (stray : StrayMemory) :
    List Slot → Nat → Found × List Slot
  | [], _ => (.missing, [])
  | slot :: rest, i =>
      if checkPtr slot.pointer then
        match slot.deref stray with
        | none => (.fault, [slot])
        | some volume =>
            if volume.volumeID = volumeID then (.slot i slot volume, [slot])
            else
              let ended := lookupLoop volumeID stray rest (i + 1)
              (ended.1, slot :: ended.2)
      else lookupLoop volumeID stray rest (i + 1)

/-- `Get_Volume_ptr_by_VolumeID`: the slot whose pointer is returned, or none for a null pointer. -/
def getVolumePtrByVolumeID (volumeID : BitVec 64) (stray : StrayMemory) (allVolumes : List Slot) :
    Found × List Slot :=
  lookupLoop volumeID stray (allVolumes.drop dmsMinorStart) dmsMinorStart

/-- `__Get_DMS_Volume_Index_by_VolumeID`; no index when the loop does not come to its end. -/
def getDMSVolumeIndexByVolumeID (volumeID : BitVec 64) (stray : StrayMemory)
    (allVolumes : List Slot) : Option Int × List Slot :=
  let (found, used) := lookupLoop volumeID stray (allVolumes.drop dmsMinorStart) dmsMinorStart
  match found with
  | .slot index _ _ => (some index, used)
  | .missing => (some (-1), used)
  | .fault => (none, used)

/-- `Check_Volume_Existence`. -/
def checkVolumeExistence (volumeID : BitVec 64) (stray : StrayMemory) (allVolumes : List Slot) :
    Option Bool × List Slot :=
  let (index, used) := getDMSVolumeIndexByVolumeID volumeID stray allVolumes
  (index.map (inAllVolumeRange allVolumes), used)

/-- `Get_Volume_ptr_by_gendisk`: the slot whose pointer is returned. -/
def getVolumePtrByGendisk (firstMinor : Nat) (allVolumes : List Slot) : Option Slot :=
  allVolumes[firstMinor / dmsDiskMinors]?

end Lookup

section Change

/-- `__Occupy_in_All_Volumes`: the index, and the table with the reservation. -/
def occupyInAllVolumes (volumeID : BitVec 64) (allVolumes : List Slot) : Int × List Slot :=
  match (allVolumes.drop dmsMinorStart).findIdx? fun slot => slot.pointer = 0 with
  | none => (outOfRange, allVolumes)
  | some place =>
      let index := dmsMinorStart + place
      (if inAllVolumeRange allVolumes index then index else outOfRange,
        allVolumes.set index (.reserved volumeID))

/-- `__Insert_Volume_to_All_Volumes` for the volume at that address. -/
def insertVolumeToAllVolumes (addr : BitVec 64) (volume : DMSVolume) (allVolumes : List Slot) :
    Int × List Slot :=
  if checkPtr addr then
    let index := volume.minorIndex
    if inAllVolumeRange allVolumes index then
      if (allVolumes[index.toNat]?).map Slot.pointer = some volume.volumeID then
        (index, allVolumes.set index.toNat (.attached addr volume))
      else (dmsFail, allVolumes)
    else (outOfRange, allVolumes)
  else (-1, allVolumes)

/-- `__Remove_Volume_from_All_Volumes`. -/
def removeVolumeFromAllVolumes (index : Int) (allVolumes : List Slot) : Int × List Slot :=
  if inAllVolumeRange allVolumes index then (dmsOK, allVolumes.set index.toNat .empty)
  else (outOfRange, allVolumes)

end Change

/-- `ATTACHED`. -/
def attachedBit : BitVec 32 := 1

/-- `DETACHING`. -/
def detachingBit : BitVec 32 := 2

section Open

/-- `__Open_Volume` for a legal pointer; bit 1 of the state is `DETACHING_BIT`. -/
def openVolume (volume : DMSVolume) : Int × DMSVolume :=
  if volume.volumeState.getLsbD 1 = false then
    (0, { volume with openCounter := volume.openCounter + 1 })
  else (badAddress, volume)

/-- `__Close_Volume` for a legal pointer. -/
def closeVolume (volume : DMSVolume) : Int × DMSVolume :=
  (0, { volume with openCounter := volume.openCounter - 1 })

/-- What `__Open_Volume` or `__Close_Volume` makes of the pointer in a slot: the return code, unless
the access faults, the slot, and the slot that is dereferenced. -/
def Slot.access (operation : DMSVolume → Int × DMSVolume) (illegal : Int) (stray : StrayMemory)
    (slot : Slot) : Option Int × Slot × List Slot :=
  if checkPtr slot.pointer then
    match slot with
    | .attached addr volume =>
        (some (operation volume).1, .attached addr (operation volume).2, [slot])
    | _ => ((stray slot.pointer).map fun volume => (operation volume).1, slot, [slot])
  else (some illegal, slot, [])

/-- `Open_DMS_Volume` and `Close_DMS_Volume`. -/
def accessDMSVolume (operation : DMSVolume → Int × DMSVolume) (illegal : Int) (unit : Nat)
    (stray : StrayMemory) (allVolumes : List Slot) : Option Int × List Slot × List Slot :=
  let index := unit / dmsDiskMinors
  if inAllVolumeRange allVolumes index then
    match allVolumes[index]? with
    | none => (some 0, allVolumes, [])
    | some slot =>
        let (retcode, slot, used) := slot.access operation illegal stray
        (retcode, allVolumes.set index slot, used)
  else (some 0, allVolumes, [])

def openDMSVolume (unit : Nat) (stray : StrayMemory) (allVolumes : List Slot) :
    Option Int × List Slot × List Slot :=
  accessDMSVolume openVolume badAddress unit stray allVolumes

def closeDMSVolume (unit : Nat) (stray : StrayMemory) (allVolumes : List Slot) :
    Option Int × List Slot × List Slot :=
  accessDMSVolume closeVolume 0 unit stray allVolumes

/-- `IS_OPEN_COUNTER_EMPTY_IN_VOL`. -/
def isOpenCounterEmptyInVol (volume : DMSVolume) : Bool := volume.openCounter = 0

def openCounterOf (balance : Int) : BitVec 32 := BitVec.ofInt 32 balance

theorem openCounterOf_opened (balance : Int) :
    openCounterOf balance + 1 = openCounterOf (balance + 1) := by
  rw [openCounterOf, openCounterOf, BitVec.ofInt_add]
  rfl

theorem openCounterOf_closed (balance : Int) :
    openCounterOf balance - 1 = openCounterOf (balance - 1) := by
  rw [openCounterOf, openCounterOf, Int.sub_eq_add_neg, BitVec.ofInt_add, BitVec.sub_eq_add_neg]
  rfl

/-- The counter reads zero once in every 2^32 opens. -/
theorem openCounterOf_eq_zero {balance : Int} :
    openCounterOf balance = 0 ↔ (2 ^ 32 : Int) ∣ balance := by
  rw [openCounterOf, ← BitVec.toNat_inj, BitVec.toNat_ofInt, BitVec.ofNat_eq_ofNat,
    BitVec.toNat_zero]
  omega

end Open

section Proper

structure Proper (allVolumes : List Slot) : Prop where
  first : ∀ slot, allVolumes[0]? = some slot → slot = .empty
  legal : ∀ addr volume, Slot.attached addr volume ∈ allVolumes → checkPtr addr = true

variable {allVolumes : List Slot} {place : Nat} {slot : Slot}

theorem inAllVolumeRange_iff {index : Int} : inAllVolumeRange allVolumes index = true ↔
    1 ≤ index ∧ index ≤ allVolumes.length - 1 := by
  simp [inAllVolumeRange, dmsMinorStart]

theorem inAllVolumeRange_natCast {index : Nat} : inAllVolumeRange allVolumes index = true ↔
    dmsMinorStart ≤ index ∧ index < allVolumes.length := by
  rw [inAllVolumeRange_iff, dmsMinorStart]
  omega

theorem inAllVolumeRange_of_low {index : Int} (low : index < 1) :
    inAllVolumeRange allVolumes index = false := by
  apply Bool.eq_false_of_not_eq_true
  intro range
  exact absurd (inAllVolumeRange_iff.mp range).1 (Int.not_le.mpr low)

@[simp] theorem inAllVolumeRange_set (index : Int) :
    inAllVolumeRange (allVolumes.set place slot) index = inAllVolumeRange allVolumes index := by
  rw [inAllVolumeRange, inAllVolumeRange, List.length_set]

theorem Proper.set (proper : Proper allVolumes) (late : 0 < place)
    (legal : ∀ addr volume, slot = .attached addr volume → checkPtr addr = true) :
    Proper (allVolumes.set place slot) where
  first other here := by
    rw [List.getElem?_set_ne (by omega)] at here
    exact proper.first other here
  legal addr volume member := by
    rcases List.mem_or_eq_of_mem_set member with before | same
    · exact proper.legal addr volume before
    · exact legal addr volume same.symm

theorem Proper.remove {index : Int} (proper : Proper allVolumes) :
    Proper (removeVolumeFromAllVolumes index allVolumes).2 := by
  rw [removeVolumeFromAllVolumes]
  split
  · rename_i range
    have bounds := inAllVolumeRange_iff.mp range
    exact proper.set (by omega) (fun _ _ same => by cases same)
  · exact proper

theorem occupyInAllVolumes_cases (volumeID : BitVec 64) (allVolumes : List Slot) :
    occupyInAllVolumes volumeID allVolumes = (outOfRange, allVolumes) ∨
      ∃ index : Nat, inAllVolumeRange allVolumes index = true ∧
        occupyInAllVolumes volumeID allVolumes =
          ((index : Int), allVolumes.set index (.reserved volumeID)) := by
  unfold occupyInAllVolumes
  cases free : (allVolumes.drop dmsMinorStart).findIdx? fun slot => slot.pointer = 0 with
  | none => exact .inl rfl
  | some place =>
      have within := (List.findIdx?_eq_some_iff_getElem.mp free).1
      rw [List.length_drop] at within
      have range : inAllVolumeRange allVolumes (dmsMinorStart + place : Nat) = true :=
        inAllVolumeRange_natCast.mpr ⟨Nat.le_add_right _ _, Nat.add_lt_of_lt_sub' within⟩
      refine .inr ⟨dmsMinorStart + place, range, ?_⟩
      simp only [range, if_true]

/-- An access through a slot leaves it as it is, or changes its volume. -/
theorem access_slot (operation : DMSVolume → Int × DMSVolume) (illegal : Int) (stray : StrayMemory)
    (slot : Slot) : (slot.access operation illegal stray).2.1 = slot ∨
      ∃ addr volume, slot = .attached addr volume ∧
        (slot.access operation illegal stray).2.1 = .attached addr (operation volume).2 := by
  cases slot with
  | attached addr volume =>
      unfold Slot.access
      split
      · exact .inr ⟨addr, volume, rfl, rfl⟩
      · exact .inl rfl
  | _ =>
      unfold Slot.access
      split <;> exact .inl rfl

theorem Proper.occupy (proper : Proper allVolumes) (volumeID : BitVec 64) :
    Proper (occupyInAllVolumes volumeID allVolumes).2 := by
  rcases occupyInAllVolumes_cases volumeID allVolumes with full | ⟨place, range, found⟩
  · rw [full]
    exact proper
  · have bounds := inAllVolumeRange_iff.mp range
    rw [found]
    exact proper.set (by omega) fun _ _ same => by cases same

theorem Proper.insert (proper : Proper allVolumes) (addr : BitVec 64) (volume : DMSVolume) :
    Proper (insertVolumeToAllVolumes addr volume allVolumes).2 := by
  simp only [insertVolumeToAllVolumes]
  split
  · rename_i legal
    split
    · rename_i range
      have bounds := inAllVolumeRange_iff.mp range
      split
      · refine proper.set (by omega) fun _ _ same => ?_
        cases same
        exact legal
      · exact proper
    · exact proper
  · exact proper

theorem Proper.access (proper : Proper allVolumes) (operation : DMSVolume → Int × DMSVolume)
    (illegal : Int) (unit : Nat) (stray : StrayMemory) :
    Proper (accessDMSVolume operation illegal unit stray allVolumes).2.1 := by
  simp only [accessDMSVolume]
  split
  · rename_i range
    have bounds := inAllVolumeRange_iff.mp range
    cases here : allVolumes[unit / dmsDiskMinors]? with
    | none => exact proper
    | some slot =>
        have member := List.mem_of_getElem? here
        refine proper.set (by omega) fun addr volume same => ?_
        rcases access_slot operation illegal stray slot with kept | ⟨addr', volume', rfl, changed⟩
        · rw [kept] at same
          rw [same] at member
          exact proper.legal addr volume member
        · rw [changed] at same
          cases same
          exact proper.legal addr volume' member
  · exact proper

end Proper

end DmsBlkdev
