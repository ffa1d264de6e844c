import DmsBlkdev.UserDaemon.Commands

/-!
# Attach lists that survive on disk

The list that the daemon has after some commands is loaded again as it was saved
exactly when every record in it was added with ids that a line gives back.
-/

namespace DmsBlkdev.UserDaemon

open Lib Lib.Run Lib.Stdio

/-- An attach that is recorded has a volume id that is not negative and an instance id that `%s`
gives back. -/
def GivenBack (daemon : Daemon) : Command → Prop
  | .attach vol_id instid updateToRS outcome =>
      Attached daemon vol_id outcome → (updateToRS = 1 → saveAttachInfoToRS outcome = 0) →
        0 ≤ vol_id.toInt ∧ Word instid
  | .detach .. => True

def Recoverable (daemon : Daemon) : Prop := ∀ record ∈ daemon.list, record.Recoverable

section Step

variable {daemon after : Daemon} {command : Command}

theorem recoverable_iff {vol_id : BitVec 32} {instid : CString} :
    (VolAttachInfo.mk (extended vol_id) instid).Recoverable ↔ 0 ≤ vol_id.toInt ∧ Word instid := by
  constructor
  · rintro ⟨small, word⟩
    exact ⟨extended_toNat_lt.mp small, word⟩
  · rintro ⟨nonnegative, word⟩
    exact ⟨extended_toNat_lt.mpr nonnegative, word⟩

theorem Recoverable.kept (recoverable : Recoverable daemon) (given : GivenBack daemon command)
    (stepped : step daemon command = some after) : Recoverable after := by
  obtain ⟨⟨ret, behind⟩, returned, rfl⟩ := Option.map_eq_some_iff.mp stepped
  cases Command.performed returned with
  | unchanged => exact recoverable
  | attachRefused => simpa [Recoverable] using recoverable
  | attachRecorded instid attached accepted =>
      intro record member
      rcases List.mem_append.mp member with older | added
      · exact recoverable record (by simpa using older)
      · obtain rfl := List.mem_singleton.mp added
        exact recoverable_iff.mpr (given attached (by simpa using accepted))
  | detachRefused => simpa [Recoverable] using recoverable
  | detachRecorded =>
      intro record member
      have older := removeAttachFromList_subset member
      exact recoverable record (by simpa using older)

theorem not_survives_of_lost (lost : ¬ GivenBack daemon command) :
    ∃ after, step daemon command = some after ∧ ¬ Survives after.list := by
  cases command with
  | attach vol_id instid updateToRS outcome =>
      simp only [GivenBack, Classical.not_imp] at lost
      obtain ⟨attached, accepted, lost⟩ := lost
      have recorded : ¬ (updateToRS = 1 ∧ saveAttachInfoToRS outcome ≠ 0) := by simpa using accepted
      refine ⟨(daemon.ioctlAttach vol_id attachOK).record vol_id instid outcome.opened, ?_, ?_⟩
      · rw [step, Command.perform, attachVolume_attached attached, if_neg recorded]
        rfl
      · intro survives
        apply lost
        apply recoverable_iff.mp
        apply survives_iff.mp survives
        exact List.mem_append_right _ (List.mem_singleton.mpr rfl)
  | detach vol_id updateToRS outcome => exact absurd trivial lost

end Step

/-- The list survives behind every command exactly when each attach that is recorded has ids that a
line gives back. -/
theorem survives_iff_givenBack (commands : List Command) :
    Always (fun daemon => Survives daemon.list) step Daemon.start commands ↔
      Guarded GivenBack step Daemon.start commands := by
  have start : Recoverable Daemon.start := fun _ member => nomatch member
  apply always_iff_guarded_of_broken _ _ _ start
  · exact fun before command after recoverable given => Recoverable.kept recoverable given
  · exact fun before command _ lost => not_survives_of_lost lost
  · exact fun daemon recoverable => survives_iff.mpr recoverable

def accepting : Outcome := ⟨4096, 0, [true], fun _ => true, 0, true⟩

/-- Volume 5 attached to the instance `a b` does not survive: its line is loaded as `5 a`. -/
theorem survives_cutAtSpace :
    ¬ ∀ commands : List Command,
      Always (fun daemon => Survives daemon.list) step Daemon.start commands := by
  intro all
  have survives := all [.attach 5 ⟨[97, 32, 98], by decide⟩ 1 accepting] _ [] _
    (List.append_nil _).symm rfl
  have record := survives_iff.mp survives _ List.mem_cons_self
  exact absurd (record.word.solid 32 (by decide)) (by decide)

end DmsBlkdev.UserDaemon
