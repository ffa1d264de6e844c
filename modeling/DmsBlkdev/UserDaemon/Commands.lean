import DmsBlkdev.UserDaemon.AttachFile
import DmsBlkdev.Lib.Run
import Mathlib.Data.Finset.Insert
import Mathlib.Data.Finset.Erase

/-!
# The attach and detach commands of the daemon

A command asks the driver first, then the RS, and writes the attach list last;
it is the build with `RS_SUPPORT`.  What the others answer is given for each
command.  The driver holds a set of volumes that a successful `ioctl` changes.
-/

namespace DmsBlkdev.UserDaemon

open Lib Lib.Wire Lib.Stdio

/-- `ATTACH_OK` and `DETACH_OK`. -/
def attachOK : Int := 0

/-- `ATTACH_FAIL` and `DETACH_FAIL`, which are `EFAULT`. -/
def attachFail : Int := 14

structure Outcome where
  volCap : BitVec 64
  ioctl : Int
  /-- Whether each `fopen` of the device file gets it. -/
  deviceFile : List Bool
  /-- Whether `save_attach_info_to_rs` finds a connection in each of its rounds. -/
  connected : Fin 5 → Bool
  /-- What `attachVolume` or `detachVolume` of the RS returns. -/
  update : Int
  /-- Whether the attach file can be opened. -/
  opened : Bool

/-- `save_attach_info_to_rs`. -/
def saveAttachInfoToRS (outcome : Outcome) : Int :=
  if (List.finRange 5).any outcome.connected then outcome.update else -1

/-- The loop that waits for the device file and its flag, as long as `fopen` has been tried; nothing
when it has not ended by then.  The source never counts `retry` up. -/
def checkDeviceFile (retry : Nat) : Int → List Bool → Option Int
  | flag, [] => if retry < 30 then none else some flag
  | flag, found :: rest =>
      if retry < 30 then if found then some 1 else checkDeviceFile retry 0 rest else some flag

/-- The daemon's list and its file, and the volumes that the driver has attached. -/
structure Daemon where
  list : List VolAttachInfo
  file : Option Bytes
  driver : Finset (BitVec 64)

def Daemon.record (daemon : Daemon) (vol_id : BitVec 32) (instid : CString) (opened : Bool) :
    Daemon :=
  let list := addAttachToList daemon.list vol_id instid
  { daemon with list, file := (saveAttachInfoToFile opened list daemon.file).2 }

def Daemon.forget (daemon : Daemon) (vol_id : BitVec 32) (opened : Bool) : Daemon :=
  let list := (removeAttachFromList vol_id daemon.list).1
  { daemon with list, file := (saveAttachInfoToFile opened list daemon.file).2 }

/-- The driver takes the volume in when its `ioctl` succeeds. -/
def Daemon.ioctlAttach (daemon : Daemon) (vol_id : BitVec 32) (ret : Int) : Daemon :=
  if ret = attachOK then { daemon with driver := insert (extended vol_id) daemon.driver }
  else daemon

/-- The driver lets go of the volume when its `ioctl` succeeds. -/
def Daemon.ioctlDetach (daemon : Daemon) (vol_id : BitVec 32) (ret : Int) : Daemon :=
  if ret = attachOK then { daemon with driver := daemon.driver.erase (extended vol_id) }
  else daemon

@[simp] theorem Daemon.ioctlAttach_list (daemon : Daemon) (vol_id : BitVec 32) (ret : Int) :
    (daemon.ioctlAttach vol_id ret).list = daemon.list := by
  rw [ioctlAttach]
  split <;> rfl

@[simp] theorem Daemon.ioctlDetach_list (daemon : Daemon) (vol_id : BitVec 32) (ret : Int) :
    (daemon.ioctlDetach vol_id ret).list = daemon.list := by
  rw [ioctlDetach]
  split <;> rfl

/-- `attach_volume`; nothing when it does not return. -/
def attachVolume (vol_id : BitVec 32) (instid : CString) (updateToRS updateToLocalFile : Int)
    (outcome : Outcome) (daemon : Daemon) : Option (Int × Daemon) :=
  match if updateToLocalFile = 0 then none else queryAttachInfo vol_id daemon.list with
  | some _ => some (attachOK, daemon)
  | none =>
      if outcome.volCap.toInt ≤ 0 then some (attachFail, daemon)
      else
        let daemon := daemon.ioctlAttach vol_id outcome.ioctl
        if outcome.ioctl ≠ attachOK then some (outcome.ioctl, daemon)
        else
          (checkDeviceFile 0 0 outcome.deviceFile).map fun flag =>
            if flag = 0 then (attachFail, daemon)
            else if updateToRS = 1 ∧ saveAttachInfoToRS outcome ≠ 0 then (attachFail, daemon)
            else if updateToLocalFile = 1 then
              (attachOK, daemon.record vol_id instid outcome.opened)
            else (attachFail, daemon)

/-- `detach_volume`. -/
def detachVolume (vol_id : BitVec 32) (updateToRS updateToLocalFile : Int) (outcome : Outcome)
    (daemon : Daemon) : Int × Daemon :=
  let daemon := daemon.ioctlDetach vol_id outcome.ioctl
  if outcome.ioctl ≠ attachOK then (outcome.ioctl, daemon)
  else if updateToRS = 1 ∧ saveAttachInfoToRS outcome ≠ 0 then (attachFail, daemon)
  else
    let ret := if updateToRS = 1 then saveAttachInfoToRS outcome else outcome.ioctl
    (ret, if updateToLocalFile = 1 then daemon.forget vol_id outcome.opened else daemon)

/-- A command with `updateToLocalFile`, as `process_thread` issues them. -/
inductive Command where
  | attach (vol_id : BitVec 32) (instid : CString) (updateToRS : Int) (outcome : Outcome)
  | detach (vol_id : BitVec 32) (updateToRS : Int) (outcome : Outcome)

def Command.perform (daemon : Daemon) : Command → Option (Int × Daemon)
  | attach vol_id instid updateToRS outcome =>
      attachVolume vol_id instid updateToRS 1 outcome daemon
  | detach vol_id updateToRS outcome => some (detachVolume vol_id updateToRS 1 outcome daemon)

def step (daemon : Daemon) (command : Command) : Option Daemon :=
  (command.perform daemon).map Prod.snd

/-- The daemon behind `initialize`, before it has attached a volume. -/
def Daemon.start : Daemon := ⟨[], none, ∅⟩

theorem checkDeviceFile_eq (flag : Int) (opens : List Bool) :
    checkDeviceFile 0 flag opens = if true ∈ opens then some 1 else none := by
  induction opens generalizing flag with
  | nil => rfl
  | cons found rest inductionHypothesis =>
      cases found with
      | true => simp [checkDeviceFile]
      | false => simp [checkDeviceFile, inductionHypothesis]

structure Attached (daemon : Daemon) (vol_id : BitVec 32) (outcome : Outcome) : Prop where
  unlisted : extended vol_id ∉ volumeIDs daemon.list
  capacity : 0 < outcome.volCap.toInt
  ioctl : outcome.ioctl = attachOK
  appears : true ∈ outcome.deviceFile

section Spec

variable {daemon after : Daemon} {vol_id : BitVec 32} {instid : CString} {updateToRS ret : Int}
  {outcome : Outcome}

/-- Where the driver attaches the volume, the RS decides. -/
theorem attachVolume_attached (attached : Attached daemon vol_id outcome) :
    attachVolume vol_id instid updateToRS 1 outcome daemon =
      some (if updateToRS = 1 ∧ saveAttachInfoToRS outcome ≠ 0 then
          (attachFail, daemon.ioctlAttach vol_id attachOK)
        else
          (attachOK,
            (daemon.ioctlAttach vol_id attachOK).record vol_id instid outcome.opened)) := by
  have capacity := Int.not_le.mpr attached.capacity
  have appears := (checkDeviceFile_eq 0 outcome.deviceFile).trans (if_pos attached.appears)
  simp only [attachVolume, one_ne_zero, if_false, if_true,
    queryAttachInfo_eq_none.mpr attached.unlisted, capacity, attached.ioctl, appears, ne_eq,
    not_true_eq_false, Option.map_some]

theorem attachVolume_unattached (unattached : ¬ Attached daemon vol_id outcome)
    (returned : attachVolume vol_id instid updateToRS 1 outcome daemon = some (ret, after)) :
    after = daemon := by
  rw [attachVolume, if_neg one_ne_zero] at returned
  cases listed : queryAttachInfo vol_id daemon.list with
  | some item =>
      rw [listed] at returned
      cases returned
      rfl
  | none =>
      simp only [listed] at returned
      by_cases capacity : outcome.volCap.toInt ≤ 0
      · rw [if_pos capacity] at returned
        cases returned
        rfl
      · rw [if_neg capacity] at returned
        by_cases failed : outcome.ioctl ≠ attachOK
        · rw [if_pos failed] at returned
          cases returned
          exact if_neg failed
        · rw [if_neg failed, checkDeviceFile_eq] at returned
          by_cases appears : true ∈ outcome.deviceFile
          · exact absurd ⟨queryAttachInfo_eq_none.mp listed, Int.not_le.mp capacity,
              not_not.mp failed, appears⟩ unattached
          · rw [if_neg appears] at returned
            cases returned

/-- Where the driver lets go of the volume, the RS decides. -/
theorem detachVolume_detached (detached : outcome.ioctl = attachOK) :
    detachVolume vol_id updateToRS 1 outcome daemon =
      if updateToRS = 1 ∧ saveAttachInfoToRS outcome ≠ 0 then
        (attachFail, daemon.ioctlDetach vol_id attachOK)
      else (attachOK, (daemon.ioctlDetach vol_id attachOK).forget vol_id outcome.opened) := by
  simp only [detachVolume, detached, ne_eq, not_true_eq_false, if_false, if_true]
  split
  · rfl
  · next taken =>
      split
      · next updates =>
          rw [not_and, not_not] at taken
          rw [taken updates]
          rfl
      · rfl

theorem detachVolume_undetached (undetached : outcome.ioctl ≠ attachOK) :
    detachVolume vol_id updateToRS 1 outcome daemon = (outcome.ioctl, daemon) := by
  rw [detachVolume, if_pos undetached, Daemon.ioctlDetach, if_neg undetached]

inductive Performed (daemon : Daemon) : Command → Int → Daemon → Prop where
  | unchanged (command : Command) (ret : Int) : Performed daemon command ret daemon
  | attachRefused {vol_id : BitVec 32} {outcome : Outcome} (instid : CString) {updateToRS : Int}
      (attached : Attached daemon vol_id outcome)
      (refused : updateToRS = 1 ∧ saveAttachInfoToRS outcome ≠ 0) :
      Performed daemon (.attach vol_id instid updateToRS outcome) attachFail
        (daemon.ioctlAttach vol_id attachOK)
  | attachRecorded {vol_id : BitVec 32} {outcome : Outcome} (instid : CString) {updateToRS : Int}
      (attached : Attached daemon vol_id outcome)
      (accepted : ¬ (updateToRS = 1 ∧ saveAttachInfoToRS outcome ≠ 0)) :
      Performed daemon (.attach vol_id instid updateToRS outcome) attachOK
        ((daemon.ioctlAttach vol_id attachOK).record vol_id instid outcome.opened)
  | detachRefused {vol_id : BitVec 32} {outcome : Outcome} {updateToRS : Int}
      (detached : outcome.ioctl = attachOK)
      (refused : updateToRS = 1 ∧ saveAttachInfoToRS outcome ≠ 0) :
      Performed daemon (.detach vol_id updateToRS outcome) attachFail
        (daemon.ioctlDetach vol_id attachOK)
  | detachRecorded {vol_id : BitVec 32} {outcome : Outcome} (updateToRS : Int)
      (detached : outcome.ioctl = attachOK) :
      Performed daemon (.detach vol_id updateToRS outcome) attachOK
        ((daemon.ioctlDetach vol_id attachOK).forget vol_id outcome.opened)

theorem Command.performed {command : Command}
    (returned : command.perform daemon = some (ret, after)) :
    Performed daemon command ret after := by
  cases command with
  | attach vol_id instid updateToRS outcome =>
      by_cases attached : Attached daemon vol_id outcome
      · rw [perform, attachVolume_attached attached] at returned
        by_cases refused : updateToRS = 1 ∧ saveAttachInfoToRS outcome ≠ 0
        · rw [if_pos refused] at returned
          cases returned
          exact .attachRefused instid attached refused
        · rw [if_neg refused] at returned
          cases returned
          exact .attachRecorded instid attached refused
      · obtain rfl := attachVolume_unattached attached returned
        exact .unchanged _ ret
  | detach vol_id updateToRS outcome =>
      rw [perform, Option.some.injEq] at returned
      by_cases detached : outcome.ioctl = attachOK
      · rw [detachVolume_detached detached] at returned
        by_cases refused : updateToRS = 1 ∧ saveAttachInfoToRS outcome ≠ 0
        · rw [if_pos refused] at returned
          cases returned
          exact .detachRefused detached refused
        · rw [if_neg refused] at returned
          cases returned
          exact .detachRecorded updateToRS detached
      · rw [detachVolume_undetached detached] at returned
        cases returned
        exact .unchanged _ outcome.ioctl

end Spec

end DmsBlkdev.UserDaemon
