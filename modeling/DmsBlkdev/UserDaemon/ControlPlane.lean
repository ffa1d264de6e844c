import DmsBlkdev.UserDaemon.Commands
import DmsBlkdev.VolumeManager.Refinement

/-!
# From the command socket to the table of volumes

A packet goes through the daemon and its `ioctl` to the volume manager of the
driver.  The set of volumes that the commands of the daemon take for the driver
is here the table itself, with opens and closes of the volumes in between.
-/

namespace DmsBlkdev.UserDaemon

open Lib.Wire Lib.Stdio

/-- The opcodes 1 to 4 of `process_thread`. -/
inductive Opcode where
  | attachVolume
  | detachVolume
  | attachVolumeForMigration
  | detachVolumeForMigration
  deriving DecidableEq

def Opcode.updateToRS : Opcode → Int
  | attachVolume | detachVolume => 1
  | attachVolumeForMigration | detachVolumeForMigration => 0

def Opcode.attaches : Opcode → Bool
  | attachVolume | attachVolumeForMigration => true
  | detachVolume | detachVolumeForMigration => false

/-- A packet as `process_thread` has read it; its field is searched for a zero byte. -/
structure Packet where
  pktLen : BitVec 16
  opcode : Opcode
  volID : BitVec 64
  field : Bytes
  terminated : 10 < pktLen.toInt → 0 ∈ field

/-- The field is there only in a packet that is long enough. -/
def Packet.Long (packet : Packet) : Prop := 10 < packet.pktLen.toInt

instance (packet : Packet) : Decidable packet.Long :=
  inferInstanceAs (Decidable (10 < packet.pktLen.toInt))

/-- The volume id as an `int`. -/
def Packet.vol_id (packet : Packet) : BitVec 32 := packet.volID.setWidth 32

structure CommandAnswers where
  volCap : BitVec 64
  /-- Whether the daemon has `CAP_SYS_ADMIN`. -/
  capable : Bool
  /-- What `__Create_Volume` returns. -/
  created : Option Address
  stray : StrayMemory
  deviceFile : List Bool
  connected : Fin 5 → Bool
  update : Int
  opened : Bool

def CommandAnswers.outcome (answers : CommandAnswers) (ioctl : Int) : Outcome :=
  ⟨answers.volCap, ioctl, answers.deviceFile, answers.connected, answers.update, answers.opened⟩

/-- `-EPERM`. -/
def notPermitted : Int := -1

/-- `DMS_IOCTL_Handler` for `IOCTL_ATTACH_VOL` and `IOCTL_DETATCH_VOL`. -/
def dmsIOCTLHandler (capable : Bool) (call : VolumeCall) (allVolumes : List Slot) :
    Option Int × List Slot :=
  if capable then call.call allVolumes else (some notPermitted, allVolumes)

/-- What `ioctl` returns to the daemon. -/
def ioctlReturn (retcode : Int) : Int := if retcode < 0 then -1 else retcode

/-- What `process_thread` sends for a return value. -/
def response (ret : Int) : Int := if ret = 0 then 0 else 1

/-- The daemon's list and its file, and the driver's table. -/
structure ControlPlane where
  list : List VolAttachInfo
  file : Option Bytes
  allVolumes : List Slot

inductive SessionEvent where
  | packet (packet : Packet) (answers : CommandAnswers)
  | openMinor (unit : Nat) (stray : StrayMemory)
  | closeMinor (unit : Nat) (stray : StrayMemory)

/-- The call that the `ioctl` of a command makes. -/
def Packet.call (packet : Packet) (answers : CommandAnswers) : VolumeCall :=
  if packet.opcode.attaches then .attach (extended packet.vol_id) answers.created answers.stray
  else .detach (extended packet.vol_id) answers.stray

def Packet.command (packet : Packet) (outcome : Outcome) : Command :=
  if packet.opcode.attaches then
    .attach packet.vol_id (CString.ofArray packet.field) packet.opcode.updateToRS outcome
  else .detach packet.vol_id packet.opcode.updateToRS outcome

namespace ControlPlane

def start (maxNrVolumes : Nat) : ControlPlane := ⟨[], none, List.replicate maxNrVolumes .empty⟩

/-- The daemon's part of a command, with the table that the driver leaves. -/
def complete (plane : ControlPlane) (allVolumes : List Slot) (command : Command) :
    Option (Int × ControlPlane) :=
  (command.perform ⟨plane.list, plane.file, ∅⟩).map fun (ret, daemon) =>
    (ret, ⟨daemon.list, daemon.file, allVolumes⟩)

/-- The command comes to its `ioctl`: an attach of a volume in the list does not, nor does one
without a capacity. -/
def AsksDriver (plane : ControlPlane) (packet : Packet) (answers : CommandAnswers) : Prop :=
  packet.opcode.attaches = true →
    queryAttachInfo packet.vol_id plane.list = none ∧ 0 < answers.volCap.toInt

instance (plane : ControlPlane) (packet : Packet) (answers : CommandAnswers) :
    Decidable (plane.AsksDriver packet answers) :=
  inferInstanceAs (Decidable (_ → _))

/-- `process_thread`; nothing when the command does not return. -/
def processThread (plane : ControlPlane) (packet : Packet) (answers : CommandAnswers) :
    Option (Int × ControlPlane) :=
  if packet.Long then
    Option.map (fun (ret, plane) => (response ret, plane)) <|
      if plane.AsksDriver packet answers then
        match dmsIOCTLHandler answers.capable (packet.call answers) plane.allVolumes with
        | (none, _) => none
        | (some retcode, allVolumes) =>
            plane.complete allVolumes (packet.command (answers.outcome (ioctlReturn retcode)))
      else plane.complete plane.allVolumes (packet.command (answers.outcome attachOK))
  else some (1, plane)

def access (plane : ControlPlane) (call : VolumeCall) : Option (Int × ControlPlane) :=
  (call.call plane.allVolumes).1.map fun retcode =>
    (retcode, { plane with allVolumes := (call.call plane.allVolumes).2 })

def step (plane : ControlPlane) : SessionEvent → Option (Int × ControlPlane)
  | .packet packet answers => plane.processThread packet answers
  | .openMinor unit stray => plane.access (.openMinor unit stray)
  | .closeMinor unit stray => plane.access (.closeMinor unit stray)

end ControlPlane

/-- The answer of the driver to an `ioctl`, and the map of its table. -/
noncomputable def ioctlOnMap (capable : Bool) (maxNrVolumes : Nat) (map : VolumeMap)
    (call : VolumeCall) : Int × VolumeMap :=
  if capable then map.call ReadsZero maxNrVolumes call else (notPermitted, map)

theorem dmsIOCTLHandler_shown {maxNrVolumes : Nat} {allVolumes : List Slot} {map : VolumeMap}
    (shown : Shown maxNrVolumes allVolumes map) (capable : Bool) (call : VolumeCall) :
    ∃ after, dmsIOCTLHandler capable call allVolumes =
        (some (ioctlOnMap capable maxNrVolumes map call).1, after) ∧
      Shown maxNrVolumes after (ioctlOnMap capable maxNrVolumes map call).2 := by
  cases capable with
  | false => exact ⟨allVolumes, rfl, shown⟩
  | true =>
      obtain ⟨replies, after⟩ := shown.call call
      exact ⟨_, Prod.ext replies rfl, after⟩

/-- An `ioctl` fails and leaves the map alone, or takes a volume in that is not there, or takes out
one that is. -/
theorem ioctlOnMap_cases (capable : Bool) (maxNrVolumes : Nat) (map : VolumeMap) (packet : Packet)
    (answers : CommandAnswers) :
    ((ioctlOnMap capable maxNrVolumes map (packet.call answers)).1 ≠ 0 ∧
      (ioctlOnMap capable maxNrVolumes map (packet.call answers)).2 = map) ∨
    ∃ entry : Option VolumeEntry, entry.isSome = packet.opcode.attaches ∧
      (map (extended packet.vol_id)).isSome = !packet.opcode.attaches ∧
      ioctlOnMap capable maxNrVolumes map (packet.call answers) =
        (0, Function.update map (extended packet.vol_id) entry) := by
  cases capable with
  | false => exact .inl ⟨show notPermitted ≠ 0 by decide, rfl⟩
  | true =>
      cases attaches : packet.opcode.attaches with
      | true =>
          simp only [ioctlOnMap, Packet.call, attaches, if_true, VolumeMap.call]
          split
          · exact .inl ⟨show alreadyExists ≠ 0 by decide, rfl⟩
          · next slot _ absent _ _ => exact .inr ⟨some ⟨slot, 0⟩, rfl, by simp [absent], rfl⟩
          · exact .inl ⟨show DmsBlkdev.attachFail ≠ 0 by decide, rfl⟩
      | false =>
          simp only [ioctlOnMap, Packet.call, attaches, if_true, Bool.false_eq_true, if_false,
            VolumeMap.call]
          split
          · exact .inl ⟨show noSuchDevice ≠ 0 by decide, rfl⟩
          · next entry mapped =>
              by_cases idle : ReadsZero entry.balance
              · rw [if_pos idle]
                exact .inr ⟨none, rfl, by simp [mapped], rfl⟩
              · rw [if_neg idle]
                exact .inl ⟨show deviceBusy ≠ 0 by decide, rfl⟩

theorem response_of_ok {ret : Int} (ok : ret = 0) : response ret = 0 := if_pos ok

theorem response_of_failed {ret : Int} (failed : ret ≠ 0) : response ret = 1 := if_neg failed

theorem ioctlReturn_eq_zero {retcode : Int} : ioctlReturn retcode = attachOK ↔ retcode = 0 := by
  unfold ioctlReturn attachOK
  split <;> omega

structure Driven (maxNrVolumes : Nat) (plane : ControlPlane) (map : VolumeMap) (packet : Packet)
    (answers : CommandAnswers) : Prop where
  asks : plane.AsksDriver packet answers
  taken : (ioctlOnMap answers.capable maxNrVolumes map (packet.call answers)).1 = 0

def RSRefuses (packet : Packet) (answers : CommandAnswers) : Prop :=
  packet.opcode.updateToRS = 1 ∧ saveAttachInfoToRS (answers.outcome attachOK) ≠ 0

instance (packet : Packet) (answers : CommandAnswers) : Decidable (RSRefuses packet answers) :=
  inferInstanceAs (Decidable (_ ∧ _))

def Packet.recordedIn (packet : Packet) (ids : List (BitVec 64)) : List (BitVec 64) :=
  if packet.opcode.attaches then ids ++ [extended packet.vol_id]
  else ids.erase (extended packet.vol_id)

section Complete

variable {plane : ControlPlane} {packet : Packet} {answers : CommandAnswers} {ioctl : Int}
  {after : List Slot}

theorem complete_notAsked (notAsked : ¬ plane.AsksDriver packet answers) (ioctl : Int) :
    packet.opcode.attaches = true ∧ ∃ ret,
      plane.complete plane.allVolumes (packet.command (answers.outcome ioctl)) =
        some (ret, plane) ∧
      (ret = 0 ↔ extended packet.vol_id ∈ volumeIDs plane.list) := by
  simp only [ControlPlane.AsksDriver, Classical.not_imp] at notAsked
  obtain ⟨attaches, notAsked⟩ := notAsked
  refine ⟨attaches, ?_⟩
  simp only [ControlPlane.complete, Packet.command, attaches, if_true, Command.perform,
    attachVolume, one_ne_zero, if_false]
  cases queried : queryAttachInfo packet.vol_id plane.list with
  | some record =>
      have listed : extended packet.vol_id ∈ volumeIDs plane.list := by
        by_contra unlisted
        rw [queryAttachInfo_eq_none.mpr unlisted] at queried
        cases queried
      exact ⟨attachOK, rfl, iff_of_true rfl listed⟩
  | none =>
      have noCapacity : (answers.outcome ioctl).volCap.toInt ≤ 0 :=
        Int.not_lt.mp fun capacity => notAsked ⟨queried, capacity⟩
      rw [if_pos noCapacity]
      exact ⟨attachFail, rfl, iff_of_false (by decide) (queryAttachInfo_eq_none.mp queried)⟩

theorem complete_failed (asks : plane.AsksDriver packet answers) (failed : ioctl ≠ attachOK) :
    plane.complete after (packet.command (answers.outcome ioctl)) =
      some (ioctl, { plane with allVolumes := after }) := by
  have fails : (answers.outcome ioctl).ioctl ≠ attachOK := failed
  unfold ControlPlane.complete Packet.command
  split
  · next attaches =>
      obtain ⟨unlisted, capacity⟩ := asks attaches
      have enough : ¬ (answers.outcome ioctl).volCap.toInt ≤ 0 := Int.not_le.mpr capacity
      simp only [Command.perform, attachVolume, one_ne_zero, if_false, unlisted, if_neg enough,
        if_pos fails, Daemon.ioctlAttach, if_neg fails]
      rfl
  · simp only [Command.perform, detachVolume_undetached fails]
    rfl

theorem complete_waits (asks : plane.AsksDriver packet answers)
    (attaches : packet.opcode.attaches = true) (missing : true ∉ answers.deviceFile) :
    plane.complete after (packet.command (answers.outcome attachOK)) = none := by
  obtain ⟨unlisted, capacity⟩ := asks attaches
  have enough : ¬ (answers.outcome attachOK).volCap.toInt ≤ 0 := Int.not_le.mpr capacity
  have waiting : true ∉ (answers.outcome attachOK).deviceFile := missing
  have succeeds : ¬ (answers.outcome attachOK).ioctl ≠ attachOK := fun failed => failed rfl
  simp only [ControlPlane.complete, Packet.command, attaches, if_true, Command.perform,
    attachVolume, one_ne_zero, if_false, unlisted, if_neg enough, if_neg succeeds,
    checkDeviceFile_eq, if_neg waiting, Option.map_none]

/-- Behind a change of the driver the RS decides. -/
theorem complete_driven (asks : plane.AsksDriver packet answers)
    (appears : packet.opcode.attaches = true → true ∈ answers.deviceFile) :
    if RSRefuses packet answers then
      plane.complete after (packet.command (answers.outcome attachOK)) =
        some (attachFail, { plane with allVolumes := after })
    else ∃ list file,
      plane.complete after (packet.command (answers.outcome attachOK)) =
        some (attachOK, ⟨list, file, after⟩) ∧
      volumeIDs list = packet.recordedIn (volumeIDs plane.list) := by
  cases attaches : packet.opcode.attaches with
  | true =>
      obtain ⟨unlisted, capacity⟩ := asks attaches
      have attached : Attached ⟨plane.list, plane.file, ∅⟩ packet.vol_id
          (answers.outcome attachOK) :=
        ⟨queryAttachInfo_eq_none.mp unlisted, capacity, rfl, appears attaches⟩
      simp only [ControlPlane.complete, Packet.command, attaches, if_true, Command.perform,
        attachVolume_attached attached, Packet.recordedIn]
      by_cases refuses : RSRefuses packet answers
      · rw [if_pos refuses, if_pos (show _ ∧ _ from refuses)]
        rfl
      · rw [if_neg refuses, if_neg (show ¬ (_ ∧ _) from refuses)]
        exact ⟨_, _, rfl, by simp [Daemon.record]⟩
  | false =>
      have detached : (answers.outcome attachOK).ioctl = attachOK := rfl
      simp only [ControlPlane.complete, Packet.command, attaches, Bool.false_eq_true, if_false,
        Command.perform, detachVolume_detached detached, Packet.recordedIn]
      by_cases refuses : RSRefuses packet answers
      · rw [if_pos refuses, if_pos (show _ ∧ _ from refuses)]
        rfl
      · rw [if_neg refuses, if_neg (show ¬ (_ ∧ _) from refuses)]
        exact ⟨_, _, rfl, by simp [Daemon.forget]⟩

end Complete

/-- What becomes of a packet, where the table shows a map. -/
inductive Served (maxNrVolumes : Nat) (plane : ControlPlane) (map : VolumeMap) (packet : Packet)
    (answers : CommandAnswers) : Option (Int × ControlPlane) → Prop where
  | short (short : ¬ packet.Long) :
      Served maxNrVolumes plane map packet answers (some (1, plane))
  | known (long : packet.Long) (attaches : packet.opcode.attaches = true)
      (listed : extended packet.vol_id ∈ volumeIDs plane.list) :
      Served maxNrVolumes plane map packet answers (some (0, plane))
  | failed (long : packet.Long)
      (unlisted : packet.opcode.attaches = true → extended packet.vol_id ∉ volumeIDs plane.list)
      (undriven : ¬ Driven maxNrVolumes plane map packet answers) {after : List Slot}
      (shown : Shown maxNrVolumes after map) :
      Served maxNrVolumes plane map packet answers
        (some (1, { plane with allVolumes := after }))
  | waits (long : packet.Long) (driven : Driven maxNrVolumes plane map packet answers)
      (attaches : packet.opcode.attaches = true) (missing : true ∉ answers.deviceFile) :
      Served maxNrVolumes plane map packet answers none
  | refused (long : packet.Long) (driven : Driven maxNrVolumes plane map packet answers)
      (refuses : RSRefuses packet answers) {after : List Slot}
      (shown : Shown maxNrVolumes after
        (ioctlOnMap answers.capable maxNrVolumes map (packet.call answers)).2) :
      Served maxNrVolumes plane map packet answers
        (some (1, { plane with allVolumes := after }))
  | recorded (long : packet.Long) (driven : Driven maxNrVolumes plane map packet answers)
      (accepts : ¬ RSRefuses packet answers) {after : ControlPlane}
      (shown : Shown maxNrVolumes after.allVolumes
        (ioctlOnMap answers.capable maxNrVolumes map (packet.call answers)).2)
      (ids : volumeIDs after.list = packet.recordedIn (volumeIDs plane.list)) :
      Served maxNrVolumes plane map packet answers (some (0, after))

/-- A packet that comes to its `ioctl` gets what the driver and then the RS answer. -/
theorem asked_served {maxNrVolumes : Nat} {plane : ControlPlane} {map : VolumeMap}
    {packet : Packet} {answers : CommandAnswers} {after : List Slot} (long : packet.Long)
    (asks : plane.AsksDriver packet answers)
    (shownAfter : Shown maxNrVolumes after
      (ioctlOnMap answers.capable maxNrVolumes map (packet.call answers)).2) :
    Served maxNrVolumes plane map packet answers
      (Option.map (fun ended => (response ended.1, ended.2)) <|
        plane.complete after (packet.command (answers.outcome (ioctlReturn
          (ioctlOnMap answers.capable maxNrVolumes map (packet.call answers)).1)))) := by
  have unlisted (attaches : packet.opcode.attaches = true) :
      extended packet.vol_id ∉ volumeIDs plane.list :=
    queryAttachInfo_eq_none.mp (asks attaches).1
  by_cases taken : (ioctlOnMap answers.capable maxNrVolumes map (packet.call answers)).1 = 0
  · have driven : Driven maxNrVolumes plane map packet answers := ⟨asks, taken⟩
    rw [ioctlReturn_eq_zero.mpr taken]
    by_cases waiting : packet.opcode.attaches = true ∧ true ∉ answers.deviceFile
    · rw [complete_waits asks waiting.1 waiting.2]
      exact .waits long driven waiting.1 waiting.2
    have decided := @complete_driven plane packet answers after asks fun attaches =>
      not_not.mp fun missing => waiting ⟨attaches, missing⟩
    by_cases refuses : RSRefuses packet answers
    · rw [if_pos refuses] at decided
      rw [decided]
      exact .refused long driven refuses shownAfter
    · rw [if_neg refuses] at decided
      obtain ⟨list, file, completed, ids⟩ := decided
      rw [completed]
      exact .recorded long driven refuses shownAfter ids
  · have failed := mt ioctlReturn_eq_zero.mp taken
    rw [complete_failed asks failed, Option.map_some]
    dsimp only
    rw [response_of_failed failed]
    rcases ioctlOnMap_cases answers.capable maxNrVolumes map packet answers with
      ⟨-, same⟩ | ⟨entry, -, -, same⟩
    · rw [same] at shownAfter
      exact .failed long unlisted (fun driven => taken driven.taken) shownAfter
    · exact absurd (congrArg Prod.fst same) taken

theorem processThread_served {maxNrVolumes : Nat} {plane : ControlPlane} {map : VolumeMap}
    (shown : Shown maxNrVolumes plane.allVolumes map) (packet : Packet)
    (answers : CommandAnswers) :
    Served maxNrVolumes plane map packet answers (plane.processThread packet answers) := by
  by_cases long : packet.Long
  · rw [ControlPlane.processThread, if_pos long]
    by_cases asks : plane.AsksDriver packet answers
    · obtain ⟨after, handled, shownAfter⟩ :=
        dmsIOCTLHandler_shown shown answers.capable (packet.call answers)
      rw [if_pos asks, handled]
      exact asked_served long asks shownAfter
    · obtain ⟨attaches, ret, completed, zero⟩ := complete_notAsked asks attachOK
      rw [if_neg asks, completed, Option.map_some]
      dsimp only
      by_cases listed : extended packet.vol_id ∈ volumeIDs plane.list
      · rw [response_of_ok (zero.mpr listed)]
        exact .known long attaches listed
      · rw [response_of_failed fun ok => listed (zero.mp ok)]
        exact .failed long (fun _ => listed) (fun driven => asks driven.asks) shown
  · rw [ControlPlane.processThread, if_neg long]
    exact .short long

/-- The table shows a map after a packet too. -/
theorem Served.shown {maxNrVolumes : Nat} {plane next : ControlPlane} {map : VolumeMap}
    {packet : Packet} {answers : CommandAnswers} {reply : Int}
    (served : Served maxNrVolumes plane map packet answers (some (reply, next)))
    (shown : Shown maxNrVolumes plane.allVolumes map) :
    ∃ map, Shown maxNrVolumes next.allVolumes map := by
  cases served with
  | short short => exact ⟨map, shown⟩
  | known long attaches listed => exact ⟨map, shown⟩
  | failed long unlisted undriven shownAfter => exact ⟨map, shownAfter⟩
  | refused long driven refuses shownAfter => exact ⟨_, shownAfter⟩
  | recorded long driven accepts shownAfter ids => exact ⟨_, shownAfter⟩

theorem access_shown {maxNrVolumes : Nat} {plane : ControlPlane} {map : VolumeMap}
    (shown : Shown maxNrVolumes plane.allVolumes map) (call : VolumeCall) :
    ∃ after, plane.access call =
        some ((map.call ReadsZero maxNrVolumes call).1, { plane with allVolumes := after }) ∧
      Shown maxNrVolumes after (map.call ReadsZero maxNrVolumes call).2 := by
  obtain ⟨replies, after⟩ := shown.call call
  refine ⟨_, ?_, after⟩
  rw [ControlPlane.access, replies]
  rfl

section Stepped

variable {maxNrVolumes : Nat} {plane next : ControlPlane} {map : VolumeMap} {reply : Int}

theorem served_of_step (shown : Shown maxNrVolumes plane.allVolumes map) {packet : Packet}
    {answers : CommandAnswers} (stepped : plane.step (.packet packet answers) = some (reply, next)) :
    Served maxNrVolumes plane map packet answers (some (reply, next)) := by
  have served := processThread_served shown packet answers
  rw [ControlPlane.step] at stepped
  rw [stepped] at served
  exact served

theorem shown_of_access (shown : Shown maxNrVolumes plane.allVolumes map) {call : VolumeCall}
    (accessed : plane.access call = some (reply, next)) :
    next.list = plane.list ∧
      Shown maxNrVolumes next.allVolumes (map.call ReadsZero maxNrVolumes call).2 := by
  obtain ⟨after, answered, shownAfter⟩ := access_shown shown call
  obtain ⟨-, rfl⟩ := Prod.mk.inj (Option.some.inj (answered.symm.trans accessed))
  exact ⟨rfl, shownAfter⟩

end Stepped

end DmsBlkdev.UserDaemon
