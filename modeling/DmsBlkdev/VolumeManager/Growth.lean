import DmsBlkdev.VolumeManager.Calls

/-!
# The size of the table of volumes

`all_volumes` and `dms_max_nr_volumes` are two variables, and the loops take
the entries of the one up to the other.  Growing the table allocates a larger
array, copies the entries to it and raises the limit, but `all_volumes` stays
the array that it was.
-/

namespace DmsBlkdev

open Lib.Run

/-- `-EVMGR_DEC_MAX`. -/
def decMax : Int := -1102

/-- `all_volumes`, with as many entries as are allocated, and `dms_max_nr_volumes`. -/
structure VolumeTable where
  allVolumes : List Slot
  dmsMaxNrVolumes : Nat
  deriving DecidableEq, Repr

namespace VolumeTable

/-- `Init_DMS_Volume_Manager`, when the array is allocated. -/
def initDMSVolumeManager (dmsMaxNrVolumes : Nat) : VolumeTable :=
  ⟨List.replicate dmsMaxNrVolumes .empty, dmsMaxNrVolumes⟩

section Calls

variable (table : VolumeTable)

/-- `IS_IN_ALL_VOLUME_RANGE`. -/
def inRange (index : Int) : Bool :=
  dmsMinorStart ≤ index ∧ index ≤ table.dmsMaxNrVolumes - 1

def setSlot (index : Nat) (slot : Slot) : VolumeTable :=
  { table with allVolumes := table.allVolumes.set index slot }

/-- The loop of the lookups, for so many entries from index `i` on.  Nothing comes of an access
beyond the end of the array. -/
def lookupFrom (volumeID : BitVec 64) (stray : StrayMemory) : Nat → Nat → Option Found
  | 0, _ => some .missing
  | left + 1, i => table.allVolumes[i]?.bind fun slot =>
      if checkPtr slot.pointer then
        match slot.deref stray with
        | none => some .fault
        | some volume =>
            if volume.volumeID = volumeID then some (.slot i slot volume)
            else lookupFrom volumeID stray left (i + 1)
      else lookupFrom volumeID stray left (i + 1)

/-- `Get_Volume_ptr_by_VolumeID` and `__Get_DMS_Volume_Index_by_VolumeID`. -/
def lookup (volumeID : BitVec 64) (stray : StrayMemory) : Option Found :=
  table.lookupFrom volumeID stray (table.dmsMaxNrVolumes - dmsMinorStart) dmsMinorStart

/-- `Check_Volume_Existence`; no answer when the loop faults. -/
def checkVolumeExistence (volumeID : BitVec 64) (stray : StrayMemory) : Option (Option Bool) :=
  (table.lookup volumeID stray).map fun
    | .slot index _ _ => some (table.inRange index)
    | .missing => some (table.inRange (-1))
    | .fault => none

/-- The loop of `__Occupy_in_All_Volumes`. -/
def freeFrom : Nat → Nat → Option (Option Nat)
  | 0, _ => some none
  | left + 1, i => table.allVolumes[i]?.bind fun slot =>
      if slot.pointer = 0 then some (some i) else freeFrom left (i + 1)

/-- `__Occupy_in_All_Volumes`. -/
def occupyInAllVolumes (volumeID : BitVec 64) : Option (Int × VolumeTable) :=
  (table.freeFrom (table.dmsMaxNrVolumes - dmsMinorStart) dmsMinorStart).map fun
    | none => (outOfRange, table)
    | some index =>
        (if table.inRange index then index else outOfRange,
          table.setSlot index (.reserved volumeID))

/-- `__Insert_Volume_to_All_Volumes` for the volume at that address. -/
def insertVolumeToAllVolumes (addr : BitVec 64) (volume : DMSVolume) :
    Option (Int × VolumeTable) :=
  if checkPtr addr then
    let index := volume.minorIndex
    if table.inRange index then
      table.allVolumes[index.toNat]?.map fun slot =>
        if slot.pointer = volume.volumeID then
          (index, table.setSlot index.toNat (.attached addr volume))
        else (dmsFail, table)
    else some (outOfRange, table)
  else some (-1, table)

/-- `__Remove_Volume_from_All_Volumes`. -/
def removeVolumeFromAllVolumes (index : Int) : Option (Int × VolumeTable) :=
  if table.inRange index then
    table.allVolumes[index.toNat]?.map fun _ => (dmsOK, table.setSlot index.toNat .empty)
  else some (outOfRange, table)

/-- `Create_and_Insert_DMS_Volume`. -/
def createAndInsertDMSVolume (volumeID : BitVec 64) (created : Option Address) :
    Option (Option (Address × DMSVolume) × VolumeTable) :=
  (table.occupyInAllVolumes volumeID).bind fun (index, table) =>
    if table.inRange index then
      match created with
      | some addr =>
          let volume : DMSVolume := ⟨volumeID, index, 0, 0⟩
          (table.insertVolumeToAllVolumes addr volume).map fun (index, table) =>
            (if table.inRange index then some (addr, volume) else none, table)
      | none => (table.removeVolumeFromAllVolumes index).map fun (_, table) => (none, table)
    else some (none, table)

/-- `DMS_Attach_Volume`. -/
def dmsAttachVolume (volumeID : BitVec 64) (created : Option Address) (stray : StrayMemory) :
    Option (Option Int × VolumeTable) :=
  (table.checkVolumeExistence volumeID stray).bind fun
    | none => some (none, table)
    | some true => some (some alreadyExists, table)
    | some false => (table.createAndInsertDMSVolume volumeID created).map fun
        | (some (addr, volume), table) =>
            (some (attachVolume volume).1, table.setSlot volume.minorIndex.toNat
              (.attached addr (attachVolume volume).2))
        | (none, table) => (some attachFail, table)

/-- `DMS_Detach_Volume`. -/
def dmsDetachVolume (volumeID : BitVec 64) (stray : StrayMemory) :
    Option (Option Int × VolumeTable) :=
  (table.lookup volumeID stray).bind fun
    | .fault => some (none, table)
    | .missing => some (some noSuchDevice, table)
    | .slot _ _ volume =>
        if isOpenCounterEmptyInVol volume then
          let (retcode, volume) := detachVolume volume
          if retcode = dmsOK then
            (table.removeVolumeFromAllVolumes volume.minorIndex).map fun (_, table) =>
              (some retcode, table)
          else some (some retcode, table)
        else some (some deviceBusy, table)

/-- `__Dynamic_Change_Max_Volume_Size`.  The entries that the copy reads are those up to the limit;
the array that they are copied to is not used. -/
def dynamicChangeMaxVolumeSize (size : Int) (granted : Bool) : Option (Int × VolumeTable) :=
  if granted then
    if table.dmsMaxNrVolumes < size then
      if table.dmsMaxNrVolumes ≤ table.allVolumes.length then
        some (dmsOK, { table with dmsMaxNrVolumes := size.toNat })
      else none
    else some (decMax, table)
  else some (dmsFail, table)

end Calls

inductive Call where
  | attach (volumeID : BitVec 64) (created : Option Address) (stray : StrayMemory)
  | detach (volumeID : BitVec 64) (stray : StrayMemory)
  | changeMaxSize (size : Int) (granted : Bool)

def call (table : VolumeTable) : Call → Option (Option Int × VolumeTable)
  | .attach volumeID created stray => table.dmsAttachVolume volumeID created stray
  | .detach volumeID stray => table.dmsDetachVolume volumeID stray
  | .changeMaxSize size granted =>
      (table.dynamicChangeMaxVolumeSize size granted).map fun (retcode, table) =>
        (some retcode, table)

def step (table : VolumeTable) (one : Call) : Option VolumeTable :=
  (table.call one).map Prod.snd

/-- The existing entries stay at their indices, and the others up to the new limit are empty. -/
structure Grown (before after : VolumeTable) (size : Int) : Prop where
  limit : after.dmsMaxNrVolumes = size
  kept : ∀ i, i < before.dmsMaxNrVolumes → after.allVolumes[i]? = before.allVolumes[i]?
  added : ∀ i, before.dmsMaxNrVolumes ≤ i → i < after.dmsMaxNrVolumes →
    after.allVolumes[i]? = some .empty

def ChangesSafely (before after : VolumeTable) (retcode : Option Int) : Call → Prop
  | .changeMaxSize size _ =>
      if retcode = some dmsOK then before.Grown after size else after = before
  | _ => True

/-- The call gets by with the entries that are allocated, so many that the limit does not exceed
them, and a change of size grows the table or leaves it unchanged. -/
def Safe (table : VolumeTable) (one : Call) : Prop :=
  ∃ retcode after, table.call one = some (retcode, after) ∧
    after.dmsMaxNrVolumes ≤ after.allVolumes.length ∧ table.ChangesSafely after retcode one

def NotGrowing (table : VolumeTable) : Call → Prop
  | .changeMaxSize size granted => granted = true → size ≤ table.dmsMaxNrVolumes
  | _ => True

instance (table : VolumeTable) : DecidablePred table.NotGrowing
  | .changeMaxSize _ _ => inferInstanceAs (Decidable (_ → _))
  | .attach _ _ _ => .isTrue trivial
  | .detach _ _ => .isTrue trivial

section Whole

def whole (allVolumes : List Slot) : VolumeTable := ⟨allVolumes, allVolumes.length⟩

variable {allVolumes : List Slot}

@[simp] theorem whole_inRange (index : Int) :
    (whole allVolumes).inRange index = inAllVolumeRange allVolumes index := rfl

@[simp] theorem whole_setSlot (index : Nat) (slot : Slot) :
    (whole allVolumes).setSlot index slot = whole (allVolumes.set index slot) := by
  rw [whole, whole, List.length_set]
  rfl

theorem whole_getElem? {index : Int} (range : inAllVolumeRange allVolumes index = true) :
    ∃ slot, allVolumes[index.toNat]? = some slot := by
  have bounds := inAllVolumeRange_iff.mp range
  exact ⟨_, List.getElem?_eq_getElem (by omega)⟩

theorem lookupFrom_whole (volumeID : BitVec 64) (stray : StrayMemory) (left : Nat) :
    ∀ i, left = allVolumes.length - i → (whole allVolumes).lookupFrom volumeID stray left i =
      some (lookupLoop volumeID stray (allVolumes.drop i) i).1 := by
  induction left with
  | zero =>
    intro i ended
    rw [List.drop_eq_nil_of_le (Nat.le_of_sub_eq_zero ended.symm)]
    rfl
  | succ left inductionHypothesis =>
    intro i length
    have inside : i < allVolumes.length := by omega
    have onward := inductionHypothesis (i + 1) (by omega)
    rw [lookupFrom, whole, List.getElem?_eq_getElem inside, List.drop_eq_getElem_cons inside,
      Option.bind_some, lookupLoop, ← whole, onward]
    by_cases legal : checkPtr allVolumes[i].pointer = true
    · rw [if_pos legal, if_pos legal]
      cases allVolumes[i].deref stray with
      | none => rfl
      | some volume =>
        by_cases named : volume.volumeID = volumeID
        · simp only [if_pos named]
        · simp only [if_neg named]
    · rw [if_neg legal, if_neg legal]

theorem lookup_whole (volumeID : BitVec 64) (stray : StrayMemory) :
    (whole allVolumes).lookup volumeID stray =
      some (getVolumePtrByVolumeID volumeID stray allVolumes).1 :=
  lookupFrom_whole volumeID stray _ dmsMinorStart rfl

theorem checkVolumeExistence_whole (volumeID : BitVec 64) (stray : StrayMemory) :
    (whole allVolumes).checkVolumeExistence volumeID stray =
      some (DmsBlkdev.checkVolumeExistence volumeID stray allVolumes).1 := by
  rw [checkVolumeExistence, lookup_whole, DmsBlkdev.checkVolumeExistence,
    getDMSVolumeIndexByVolumeID, getVolumePtrByVolumeID]
  cases lookupLoop volumeID stray (allVolumes.drop dmsMinorStart) dmsMinorStart with
  | mk found used => cases found <;> rfl

theorem freeFrom_whole (left : Nat) : ∀ i, left = allVolumes.length - i →
    (whole allVolumes).freeFrom left i =
      some (((allVolumes.drop i).findIdx? fun slot => slot.pointer = 0).map (i + ·)) := by
  induction left with
  | zero =>
    intro i ended
    rw [List.drop_eq_nil_of_le (Nat.le_of_sub_eq_zero ended.symm)]
    rfl
  | succ left inductionHypothesis =>
    intro i length
    have inside : i < allVolumes.length := by omega
    have onward := inductionHypothesis (i + 1) (by omega)
    rw [freeFrom, whole, List.getElem?_eq_getElem inside, List.drop_eq_getElem_cons inside,
      Option.bind_some, List.findIdx?_cons, ← whole, onward]
    by_cases free : allVolumes[i].pointer = 0
    · rw [if_pos free, if_pos (decide_eq_true free)]
      rfl
    · have here : ¬decide (allVolumes[i].pointer = 0) = true := fun isFree =>
        free (of_decide_eq_true isFree)
      rw [if_neg free, if_neg here, Option.map_map]
      congr 2
      funext place
      exact (Nat.add_assoc i 1 place).trans (congrArg (i + ·) (Nat.add_comm 1 place))

theorem occupyInAllVolumes_whole (volumeID : BitVec 64) :
    (whole allVolumes).occupyInAllVolumes volumeID =
      some ((DmsBlkdev.occupyInAllVolumes volumeID allVolumes).1,
        whole (DmsBlkdev.occupyInAllVolumes volumeID allVolumes).2) := by
  have ended := freeFrom_whole (allVolumes.length - dmsMinorStart) dmsMinorStart rfl
  rw [occupyInAllVolumes, DmsBlkdev.occupyInAllVolumes]
  change ((whole allVolumes).freeFrom (allVolumes.length - dmsMinorStart) dmsMinorStart).map _ = _
  rw [ended]
  cases (allVolumes.drop dmsMinorStart).findIdx? fun slot => slot.pointer = 0 with
  | none => rfl
  | some place => simp

theorem insertVolumeToAllVolumes_whole (addr : BitVec 64) (volume : DMSVolume) :
    (whole allVolumes).insertVolumeToAllVolumes addr volume =
      some ((DmsBlkdev.insertVolumeToAllVolumes addr volume allVolumes).1,
        whole (DmsBlkdev.insertVolumeToAllVolumes addr volume allVolumes).2) := by
  simp only [insertVolumeToAllVolumes, DmsBlkdev.insertVolumeToAllVolumes, whole_inRange]
  by_cases legal : checkPtr addr = true
  · by_cases range : inAllVolumeRange allVolumes volume.minorIndex = true
    · obtain ⟨slot, there⟩ := whole_getElem? range
      by_cases own : slot.pointer = volume.volumeID <;>
        simp [legal, range, whole, there, own, setSlot]
    · simp [legal, range]
  · simp [legal]

theorem removeVolumeFromAllVolumes_whole (index : Int) :
    (whole allVolumes).removeVolumeFromAllVolumes index =
      some ((DmsBlkdev.removeVolumeFromAllVolumes index allVolumes).1,
        whole (DmsBlkdev.removeVolumeFromAllVolumes index allVolumes).2) := by
  rw [removeVolumeFromAllVolumes, DmsBlkdev.removeVolumeFromAllVolumes, whole_inRange]
  by_cases range : inAllVolumeRange allVolumes index = true
  · obtain ⟨slot, there⟩ := whole_getElem? range
    simp [range, whole, there, setSlot]
  · rw [if_neg range, if_neg range]

theorem createAndInsertDMSVolume_whole (volumeID : BitVec 64) (created : Option Address) :
    (whole allVolumes).createAndInsertDMSVolume volumeID created =
      some ((DmsBlkdev.createAndInsertDMSVolume volumeID created allVolumes).1,
        whole (DmsBlkdev.createAndInsertDMSVolume volumeID created allVolumes).2) := by
  rw [createAndInsertDMSVolume, occupyInAllVolumes_whole, Option.bind_some,
    DmsBlkdev.createAndInsertDMSVolume]
  cases DmsBlkdev.occupyInAllVolumes volumeID allVolumes with
  | mk index occupied =>
    by_cases range : inAllVolumeRange occupied index = true
    · cases created with
      | some addr =>
        simp only [whole_inRange, range, if_true, insertVolumeToAllVolumes_whole, Option.map_some]
        rfl
      | none => simp [range, removeVolumeFromAllVolumes_whole]
    · simp [range]

theorem dmsAttachVolume_whole (volumeID : BitVec 64) (created : Option Address)
    (stray : StrayMemory) :
    (whole allVolumes).dmsAttachVolume volumeID created stray =
      some ((DmsBlkdev.dmsAttachVolume volumeID created stray allVolumes).1,
        whole (DmsBlkdev.dmsAttachVolume volumeID created stray allVolumes).2) := by
  rw [dmsAttachVolume, checkVolumeExistence_whole, Option.bind_some, DmsBlkdev.dmsAttachVolume]
  cases (DmsBlkdev.checkVolumeExistence volumeID stray allVolumes).1 with
  | none => rfl
  | some stands =>
    cases stands with
    | true => rfl
    | false =>
      dsimp only
      rw [createAndInsertDMSVolume_whole, Option.map_some]
      cases DmsBlkdev.createAndInsertDMSVolume volumeID created allVolumes with
      | mk volume allVolumes =>
        cases volume with
        | none => rfl
        | some volume => simp

theorem dmsDetachVolume_whole (volumeID : BitVec 64) (stray : StrayMemory) :
    (whole allVolumes).dmsDetachVolume volumeID stray =
      some ((DmsBlkdev.dmsDetachVolume volumeID stray allVolumes).1,
        whole (DmsBlkdev.dmsDetachVolume volumeID stray allVolumes).2) := by
  rw [dmsDetachVolume, lookup_whole, Option.bind_some, DmsBlkdev.dmsDetachVolume]
  cases (getVolumePtrByVolumeID volumeID stray allVolumes).1 with
  | fault => rfl
  | missing => rfl
  | slot index slot volume =>
    by_cases unused : isOpenCounterEmptyInVol volume = true
    · simp [unused, removeVolumeFromAllVolumes_whole, removeAndReleaseDMSVolume, detachVolume]
    · simp [unused]

/-- A call that is no growth makes of the table what it makes of the entries alone. -/
theorem call_whole {one : Call} (notGrowing : (whole allVolumes).NotGrowing one) :
    ∃ retcode after, (whole allVolumes).call one = some (retcode, whole after) ∧
      (whole allVolumes).ChangesSafely (whole after) retcode one := by
  cases one with
  | attach volumeID created stray =>
    exact ⟨_, _, dmsAttachVolume_whole volumeID created stray, trivial⟩
  | detach volumeID stray => exact ⟨_, _, dmsDetachVolume_whole volumeID stray, trivial⟩
  | changeMaxSize size granted =>
    cases granted with
    | false => exact ⟨some dmsFail, allVolumes, rfl, rfl⟩
    | true =>
      have refused : ¬((whole allVolumes).dmsMaxNrVolumes : Int) < size :=
        Int.not_lt.mpr (notGrowing rfl)
      refine ⟨some decMax, allVolumes, ?_, rfl⟩
      rw [call, dynamicChangeMaxVolumeSize, if_pos rfl, if_neg refused, Option.map_some]

/-- A growth raises the limit above the entries that are allocated. -/
theorem growth_unsafe {one : Call} (growing : ¬(whole allVolumes).NotGrowing one) :
    ¬(whole allVolumes).Safe one := by
  cases one with
  | attach volumeID created stray => exact absurd trivial growing
  | detach volumeID stray => exact absurd trivial growing
  | changeMaxSize size granted =>
    obtain ⟨rfl, larger⟩ := Classical.not_imp.mp growing
    have larger : ((whole allVolumes).dmsMaxNrVolumes : Int) < size := Int.not_le.mp larger
    rintro ⟨retcode, after, called, fits, -⟩
    have length : (whole allVolumes).dmsMaxNrVolumes ≤ (whole allVolumes).allVolumes.length :=
      Nat.le_refl _
    rw [call, dynamicChangeMaxVolumeSize, if_pos rfl, if_pos larger, if_pos length] at called
    cases called
    exact absurd fits (Nat.not_le.mpr (Int.lt_toNat.mpr larger))

def Unchanged (table : VolumeTable) : Prop := ∃ entries, table = whole entries

theorem Unchanged.step {before after : VolumeTable} {one : Call} (unchanged : before.Unchanged)
    (notGrowing : before.NotGrowing one) (taken : before.step one = some after) :
    after.Unchanged := by
  obtain ⟨entries, rfl⟩ := unchanged
  obtain ⟨retcode, entries', called, -⟩ := call_whole notGrowing
  rw [VolumeTable.step, called] at taken
  exact ⟨entries', (Option.some.inj taken).symm⟩

theorem Unchanged.safe_iff {table : VolumeTable} (unchanged : table.Unchanged) (one : Call) :
    table.Safe one ↔ table.NotGrowing one := by
  obtain ⟨entries, rfl⟩ := unchanged
  constructor
  · intro safe
    by_contra growing
    exact growth_unsafe growing safe
  · intro notGrowing
    obtain ⟨retcode, after, called, changes⟩ := call_whole notGrowing
    exact ⟨retcode, whole after, called, Nat.le_refl _, changes⟩

end Whole

/-- In a run of attaches, detaches and changes of the size every call is safe if and only if none is
a growth that is granted the memory. -/
theorem safe_guarded_iff (dmsMaxNrVolumes : Nat) (calls : List Call) :
    Guarded Safe step (initDMSVolumeManager dmsMaxNrVolumes) calls ↔
      Guarded NotGrowing step (initDMSVolumeManager dmsMaxNrVolumes) calls := by
  have base : (initDMSVolumeManager dmsMaxNrVolumes).Unchanged := by
    refine ⟨List.replicate dmsMaxNrVolumes .empty, ?_⟩
    rw [initDMSVolumeManager, whole, List.length_replicate]
  constructor
  · intro guarded
    apply guarded.of_invariant _ _ base
    · exact fun before one after unchanged safe taken =>
        unchanged.step ((unchanged.safe_iff one).mp safe) taken
    · exact fun before one unchanged safe => (unchanged.safe_iff one).mp safe
  · intro guarded
    apply guarded.of_invariant _ _ base
    · exact fun before one after unchanged notGrowing taken => unchanged.step notGrowing taken
    · exact fun before one unchanged notGrowing => (unchanged.safe_iff one).mpr notGrowing

/-- The table grows from 32 entries to 64, and the next attach goes beyond the end of the array. -/
theorem growth_not_safe :
    run step (initDMSVolumeManager 32)
        [.changeMaxSize 64 true, .attach 7 none fun _ => none] = none ∧
      ¬Guarded Safe step (initDMSVolumeManager 32)
        [.changeMaxSize 64 true, .attach 7 none fun _ => none] := by
  refine ⟨rfl, fun guarded => ?_⟩
  have growing : ¬(whole (List.replicate 32 .empty)).NotGrowing (.changeMaxSize 64 true) := by
    decide
  exact growth_unsafe growing guarded.1

end VolumeTable

end DmsBlkdev
