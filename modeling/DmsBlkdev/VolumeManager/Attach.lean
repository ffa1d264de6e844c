import DmsBlkdev.VolumeManager.Table
import DmsBlkdev.Lib.OrderedMap
import DmsBlkdev.Lib.Run

/-!
# Concurrent attaches and detaches

Attaches and detaches of any number of callers take their critical sections
on the table of volumes in any order.  An attach checks that the volume is
not there, reserves a slot and, once the volume is created, puts it there;
these are three critical sections.  A detach looks at the open counter of its
volume outside of them, so it may find the volume busy or not.
-/

namespace DmsBlkdev

open Lib Lib.Run

/-- Where a caller is between two of its critical sections: in an attach that has made its check,
or that has its reservation, or in a detach that has found its volume. -/
inductive Call where
  | checked (volumeID : BitVec 64)
  | occupied (volumeID : BitVec 64) (index : Int)
  | detaching (volume : DMSVolume)
  deriving DecidableEq, Repr

def Call.attaching : Call → Option (BitVec 64)
  | checked volumeID => some volumeID
  | occupied volumeID _ => some volumeID
  | detaching _ => none

/-- The table, the callers under way, and the slots whose content has been used as a volume. -/
structure ManagerState where
  allVolumes : List Slot
  calls : OrderedMap Nat Call
  used : List Slot

inductive ManagerEvent where
  | check (who : Nat) (volumeID : BitVec 64) (stray : StrayMemory)
  | occupy (who : Nat)
  | create (who : Nat) (created : Option (BitVec 64))
  | find (who : Nat) (volumeID : BitVec 64) (stray : StrayMemory)
  | busy (who : Nat)
  | remove (who : Nat)
  | lookup (volumeID : BitVec 64) (stray : StrayMemory)
  | gendisk (firstMinor : Nat)
  | openMinor (unit : Nat) (stray : StrayMemory)
  | closeMinor (unit : Nat) (stray : StrayMemory)

namespace ManagerState

/-- The table that `Init_DMS_Volume_Manager` sets up. -/
def init (maxNrVolumes : Nat) : ManagerState := ⟨List.replicate maxNrVolumes .empty, .empty, []⟩

def goOn (state : ManagerState) (who : Nat) (call : Call) : ManagerState :=
  { state with calls := state.calls.insert who call }

def leave (state : ManagerState) (who : Nat) : ManagerState :=
  { state with calls := state.calls.erase who }

def use (state : ManagerState) (slots : List Slot) : ManagerState :=
  { state with used := slots ++ state.used }

def withTable (state : ManagerState) (allVolumes : List Slot) : ManagerState :=
  { state with allVolumes }

def step (state : ManagerState) : ManagerEvent → Option ManagerState
  | .check who volumeID stray =>
      match state.calls.lookup who with
      | some _ => none
      | none =>
          let (existence, used) := checkVolumeExistence volumeID stray state.allVolumes
          some (if existence = some false then (state.use used).goOn who (.checked volumeID)
            else state.use used)
  | .occupy who =>
      match state.calls.lookup who with
      | some (.checked volumeID) =>
          let (index, allVolumes) := occupyInAllVolumes volumeID state.allVolumes
          some (if inAllVolumeRange state.allVolumes index then
            (state.withTable allVolumes).goOn who (.occupied volumeID index)
            else (state.withTable allVolumes).leave who)
      | _ => none
  | .create who created =>
      match state.calls.lookup who with
      | some (.occupied volumeID index) =>
          match created with
          | none => some ((state.withTable
              (removeVolumeFromAllVolumes index state.allVolumes).2).leave who)
          | some addr =>
              if checkPtr addr then some ((state.withTable
                (insertVolumeToAllVolumes addr ⟨volumeID, index, 0, 0⟩ state.allVolumes).2).leave who)
              else none
      | _ => none
  | .find who volumeID stray =>
      match state.calls.lookup who with
      | some _ => none
      | none =>
          let (found, used) := getVolumePtrByVolumeID volumeID stray state.allVolumes
          some (match found with
            | .slot _ _ volume => (state.use used).goOn who (.detaching volume)
            | _ => state.use used)
  | .busy who =>
      match state.calls.lookup who with
      | some (.detaching _) => some (state.leave who)
      | _ => none
  | .remove who =>
      match state.calls.lookup who with
      | some (.detaching volume) => some ((state.withTable
          (removeVolumeFromAllVolumes volume.minorIndex state.allVolumes).2).leave who)
      | _ => none
  | .lookup volumeID stray =>
      some (state.use (getVolumePtrByVolumeID volumeID stray state.allVolumes).2)
  | .gendisk firstMinor =>
      some (state.use ((getVolumePtrByGendisk firstMinor state.allVolumes).toList.filter
        fun slot => slot.pointer ≠ 0))
  | .openMinor unit stray =>
      let (_, allVolumes, used) := openDMSVolume unit stray state.allVolumes
      some ((state.withTable allVolumes).use used)
  | .closeMinor unit stray =>
      let (_, allVolumes, used) := closeDMSVolume unit stray state.allVolumes
      some ((state.withTable allVolumes).use used)

theorem slot_init {maxNrVolumes : Nat} {slot : Slot}
    (member : slot ∈ (init maxNrVolumes).allVolumes) : slot = .empty :=
  List.eq_of_mem_replicate member

theorem proper_init (maxNrVolumes : Nat) : Proper (init maxNrVolumes).allVolumes := by
  refine ⟨fun slot here => slot_init (List.mem_of_getElem? here), fun addr volume member => ?_⟩
  cases slot_init member

inductive Taken (state : ManagerState) : ManagerEvent → ManagerState → Prop where
  | passed {who : Nat} {volumeID : BitVec 64} {stray : StrayMemory}
      (absent : state.calls.lookup who = none)
      (existence : (checkVolumeExistence volumeID stray state.allVolumes).1 = some false) :
      Taken state (.check who volumeID stray)
        ((state.use (checkVolumeExistence volumeID stray state.allVolumes).2).goOn who
          (.checked volumeID))
  | refused {who : Nat} {volumeID : BitVec 64} {stray : StrayMemory} :
      Taken state (.check who volumeID stray)
        (state.use (checkVolumeExistence volumeID stray state.allVolumes).2)
  | reserved {who place : Nat} {volumeID : BitVec 64}
      (here : state.calls.lookup who = some (.checked volumeID))
      (range : inAllVolumeRange state.allVolumes place = true) :
      Taken state (.occupy who)
        ((state.withTable (state.allVolumes.set place (.reserved volumeID))).goOn who
          (.occupied volumeID place))
  | full {who : Nat} {volumeID : BitVec 64}
      (here : state.calls.lookup who = some (.checked volumeID)) :
      Taken state (.occupy who) (state.leave who)
  | failed {who : Nat} {volumeID : BitVec 64} {index : Int}
      (here : state.calls.lookup who = some (.occupied volumeID index)) :
      Taken state (.create who none)
        ((state.withTable (removeVolumeFromAllVolumes index state.allVolumes).2).leave who)
  | created {who : Nat} {volumeID addr : BitVec 64} {index : Int}
      (here : state.calls.lookup who = some (.occupied volumeID index))
      (legal : checkPtr addr = true) :
      Taken state (.create who (some addr))
        ((state.withTable (insertVolumeToAllVolumes addr ⟨volumeID, index, 0, 0⟩
          state.allVolumes).2).leave who)
  | found {who : Nat} {volumeID : BitVec 64} {stray : StrayMemory} {volume : DMSVolume}
      (absent : state.calls.lookup who = none) :
      Taken state (.find who volumeID stray)
        ((state.use (getVolumePtrByVolumeID volumeID stray state.allVolumes).2).goOn who
          (.detaching volume))
  | missed {who : Nat} {volumeID : BitVec 64} {stray : StrayMemory} :
      Taken state (.find who volumeID stray)
        (state.use (getVolumePtrByVolumeID volumeID stray state.allVolumes).2)
  | busy {who : Nat} {volume : DMSVolume}
      (here : state.calls.lookup who = some (.detaching volume)) :
      Taken state (.busy who) (state.leave who)
  | removed {who : Nat} {volume : DMSVolume}
      (here : state.calls.lookup who = some (.detaching volume)) :
      Taken state (.remove who) ((state.withTable
        (removeVolumeFromAllVolumes volume.minorIndex state.allVolumes).2).leave who)
  | lookup {volumeID : BitVec 64} {stray : StrayMemory} :
      Taken state (.lookup volumeID stray)
        (state.use (getVolumePtrByVolumeID volumeID stray state.allVolumes).2)
  | gendisk {firstMinor : Nat} : Taken state (.gendisk firstMinor)
      (state.use ((getVolumePtrByGendisk firstMinor state.allVolumes).toList.filter
        fun slot => slot.pointer ≠ 0))
  | opened {unit : Nat} {stray : StrayMemory} : Taken state (.openMinor unit stray)
      ((state.withTable (openDMSVolume unit stray state.allVolumes).2.1).use
        (openDMSVolume unit stray state.allVolumes).2.2)
  | closed {unit : Nat} {stray : StrayMemory} : Taken state (.closeMinor unit stray)
      ((state.withTable (closeDMSVolume unit stray state.allVolumes).2.1).use
        (closeDMSVolume unit stray state.allVolumes).2.2)

theorem taken_of_step {state next : ManagerState} {event : ManagerEvent}
    (run : state.step event = some next) : Taken state event next := by
  cases event with
  | check who volumeID stray =>
      simp only [step] at run
      split at run
      · cases run
      · rename_i absent
        obtain rfl := Option.some.inj run
        split
        · rename_i existence
          exact .passed absent existence
        · exact .refused
  | occupy who =>
      simp only [step] at run
      split at run
      · rename_i volumeID here
        obtain rfl := Option.some.inj run
        rcases occupyInAllVolumes_cases volumeID state.allVolumes with full | ⟨place, range, found⟩
        · have out : inAllVolumeRange state.allVolumes outOfRange = false := by
            simp [inAllVolumeRange, outOfRange, dmsMinorStart]
          simp only [full, out]
          exact .full here
        · simp only [found, range, if_true]
          exact .reserved here range
      · cases run
  | create who created =>
      simp only [step] at run
      split at run
      · rename_i here
        cases created with
        | none =>
            obtain rfl := Option.some.inj run
            exact .failed here
        | some addr =>
            simp only at run
            split at run
            · rename_i legal
              obtain rfl := Option.some.inj run
              exact .created here legal
            · cases run
      · cases run
  | find who volumeID stray =>
      simp only [step] at run
      split at run
      · cases run
      · rename_i absent
        obtain rfl := Option.some.inj run
        split
        · exact .found absent
        · exact .missed
  | busy who =>
      simp only [step] at run
      split at run
      · rename_i here
        obtain rfl := Option.some.inj run
        exact .busy here
      · cases run
  | remove who =>
      simp only [step] at run
      split at run
      · rename_i here
        obtain rfl := Option.some.inj run
        exact .removed here
      · cases run
  | lookup volumeID stray =>
      obtain rfl := Option.some.inj run
      exact .lookup
  | gendisk firstMinor =>
      obtain rfl := Option.some.inj run
      exact .gendisk
  | openMinor unit stray =>
      obtain rfl := Option.some.inj run
      exact .opened
  | closeMinor unit stray =>
      obtain rfl := Option.some.inj run
      exact .closed

end ManagerState

end DmsBlkdev
