import DmsBlkdev.UserDaemon.Commands

/-!
# The attach list and the driver

The list of the daemon and the driver have the same volumes as long as the RS
takes every update that it is asked for behind a change of the driver.  Where it
does not, the command fails but what the driver has done is not undone.
-/

namespace DmsBlkdev.UserDaemon

open Lib Lib.Run Lib.Stdio

/-- A volume is in the attach list exactly when the driver has attached it. -/
def Agrees (daemon : Daemon) : Prop := ∀ id, id ∈ volumeIDs daemon.list ↔ id ∈ daemon.driver

def FailureKeepsBoth (daemon : Daemon) (command : Command) : Prop :=
  ∀ ret after, command.perform daemon = some (ret, after) → ret ≠ attachOK →
    after.list = daemon.list ∧ after.driver = daemon.driver

/-- The RS takes the update when the driver has attached the volume or has let go of one that is in
the list. -/
def UpdateTaken (daemon : Daemon) : Command → Prop
  | .attach vol_id _ updateToRS outcome =>
      Attached daemon vol_id outcome → updateToRS = 1 → saveAttachInfoToRS outcome = 0
  | .detach vol_id updateToRS outcome =>
      extended vol_id ∈ volumeIDs daemon.list → outcome.ioctl = attachOK → updateToRS = 1 →
        saveAttachInfoToRS outcome = 0

structure InStep (daemon : Daemon) : Prop where
  agrees : Agrees daemon
  distinct : (volumeIDs daemon.list).Nodup

section Step

variable {daemon after : Daemon} {command : Command}

theorem InStep.attached (inStep : InStep daemon) {vol_id : BitVec 32} {outcome : Outcome}
    (attached : Attached daemon vol_id outcome) (instid : CString) :
    InStep ((daemon.ioctlAttach vol_id attachOK).record vol_id instid outcome.opened) where
  agrees := by
    intro id
    have before := inStep.agrees id
    simp only [Daemon.record, Daemon.ioctlAttach, if_true, volumeIDs_addAttachToList,
      List.mem_append, List.mem_singleton, Finset.mem_insert]
    rw [before, or_comm]
  distinct := by
    simp only [Daemon.record, Daemon.ioctlAttach, if_true, volumeIDs_addAttachToList]
    rw [List.nodup_append_comm]
    exact List.nodup_cons.mpr ⟨attached.unlisted, inStep.distinct⟩

theorem InStep.detached (inStep : InStep daemon) (vol_id : BitVec 32) (opened : Bool) :
    InStep ((daemon.ioctlDetach vol_id attachOK).forget vol_id opened) where
  agrees := by
    intro id
    have before := inStep.agrees id
    simp only [Daemon.forget, Daemon.ioctlDetach, if_true, volumeIDs_removeAttachFromList,
      Finset.mem_erase]
    rw [inStep.distinct.mem_erase_iff, before]
  distinct := by
    simp only [Daemon.forget, Daemon.ioctlDetach, if_true, volumeIDs_removeAttachFromList]
    exact inStep.distinct.erase _

theorem InStep.ioctlDetach_unlisted (inStep : InStep daemon) {vol_id : BitVec 32}
    (unlisted : extended vol_id ∉ volumeIDs daemon.list) :
    daemon.ioctlDetach vol_id attachOK = daemon := by
  have absent : extended vol_id ∉ daemon.driver := fun there =>
    unlisted ((inStep.agrees _).mpr there)
  rw [Daemon.ioctlDetach, if_pos rfl, Finset.erase_eq_of_notMem absent]

/-- A command whose update is taken, or is not asked for, keeps the two in step; when it fails it
changes neither. -/
theorem InStep.perform (inStep : InStep daemon) (taken : UpdateTaken daemon command) {ret : Int}
    (returned : command.perform daemon = some (ret, after)) :
    InStep after ∧ (ret ≠ attachOK → after = daemon) := by
  cases Command.performed returned with
  | unchanged => exact ⟨inStep, fun _ => rfl⟩
  | attachRefused instid attached refused =>
      exact absurd (taken attached refused.1) refused.2
  | attachRecorded instid attached accepted =>
      exact ⟨inStep.attached attached instid, fun failed => absurd rfl failed⟩
  | @detachRefused vol_id outcome updateToRS detached refused =>
      -- the driver has not had the volume, so nothing has to be undone
      have unlisted : extended vol_id ∉ volumeIDs daemon.list := fun listed =>
        refused.2 (taken listed detached refused.1)
      rw [inStep.ioctlDetach_unlisted unlisted]
      exact ⟨inStep, fun _ => rfl⟩
  | detachRecorded updateToRS detached =>
      exact ⟨inStep.detached _ _, fun failed => absurd rfl failed⟩

theorem InStep.kept (inStep : InStep daemon) (taken : UpdateTaken daemon command)
    (stepped : step daemon command = some after) : InStep after := by
  obtain ⟨⟨ret, behind⟩, returned, rfl⟩ := Option.map_eq_some_iff.mp stepped
  exact (inStep.perform taken returned).1

theorem InStep.failureKeepsBoth (inStep : InStep daemon) (taken : UpdateTaken daemon command) :
    FailureKeepsBoth daemon command := by
  intro ret after returned failed
  obtain rfl := (inStep.perform taken returned).2 failed
  exact ⟨rfl, rfl⟩

/-- An update that the RS refuses leaves the volume in only one of the two. -/
theorem not_agrees_of_refused (refused : ¬ UpdateTaken daemon command) :
    ∃ after, step daemon command = some after ∧ ¬ Agrees after := by
  cases command with
  | attach vol_id instid updateToRS outcome =>
      simp only [UpdateTaken, Classical.not_imp] at refused
      obtain ⟨attached, asked, failed⟩ := refused
      have refusal : updateToRS = 1 ∧ saveAttachInfoToRS outcome ≠ 0 := ⟨asked, failed⟩
      refine ⟨daemon.ioctlAttach vol_id attachOK, ?_, fun agrees => attached.unlisted ?_⟩
      · rw [step, Command.perform, attachVolume_attached attached, if_pos refusal]
        rfl
      · apply (agrees (extended vol_id)).mpr
        exact Finset.mem_insert_self _ _
  | detach vol_id updateToRS outcome =>
      simp only [UpdateTaken, Classical.not_imp] at refused
      obtain ⟨listed, detached, asked, failed⟩ := refused
      have refusal : updateToRS = 1 ∧ saveAttachInfoToRS outcome ≠ 0 := ⟨asked, failed⟩
      refine ⟨daemon.ioctlDetach vol_id attachOK, ?_, fun agrees => ?_⟩
      · rw [step, Command.perform, detachVolume_detached detached, if_pos refusal]
        rfl
      · have kept : extended vol_id ∈ daemon.driver.erase (extended vol_id) :=
          (agrees (extended vol_id)).mp listed
        exact Finset.notMem_erase _ _ kept

end Step

theorem InStep.start : InStep Daemon.start where
  agrees := fun id => by simp [Daemon.start, volumeIDs]
  distinct := List.nodup_nil

/-- The list and the driver agree behind every command, and every failure leaves both as they were,
exactly when the RS takes each update that follows a change of the driver. -/
theorem agrees_iff_updateTaken (commands : List Command) :
    (Always Agrees step Daemon.start commands ∧
      Guarded FailureKeepsBoth step Daemon.start commands) ↔
      Guarded UpdateTaken step Daemon.start commands := by
  have kept (before : Daemon) (command : Command) (after : Daemon) (inStep : InStep before)
      (taken : UpdateTaken before command) (stepped : step before command = some after) :
      InStep after := inStep.kept taken stepped
  have always : Always Agrees step Daemon.start commands ↔
      Guarded UpdateTaken step Daemon.start commands :=
    always_iff_guarded_of_broken kept (fun _ _ _ refused => not_agrees_of_refused refused)
      (fun _ inStep => inStep.agrees) InStep.start
  constructor
  · rintro ⟨agrees, -⟩
    exact always.mp agrees
  · intro taken
    refine ⟨always.mpr taken, taken.of_invariant kept ?_ InStep.start⟩
    exact fun before command inStep taken => inStep.failureKeepsBoth taken

def unconnected : Outcome := ⟨4096, 0, [true], fun _ => false, 0, true⟩

/-- A volume whose attach fails at the RS stays attached in the driver. -/
theorem agrees_driftsApart :
    ¬ ∀ commands : List Command, Always Agrees step Daemon.start commands ∧
      Guarded FailureKeepsBoth step Daemon.start commands := by
  intro all
  have agrees := (all [.attach 7 ⟨[118, 109], by decide⟩ 1 unconnected]).1 _ [] _
    (List.append_nil _).symm rfl
  exact absurd ((agrees 7).mpr (by decide)) (by decide)

end DmsBlkdev.UserDaemon
