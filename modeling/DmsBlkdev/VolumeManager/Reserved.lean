import DmsBlkdev.VolumeManager.Attach

/-!
# Reserved slots that pass for volumes

A reader that finds a reservation in a slot sees a volume id in the place of
an address.  The tests of the pointer sort out the ids that are null or an
error code; any other id is dereferenced, or returned, as if it were one.
-/

namespace DmsBlkdev

open Lib Lib.Run

namespace Slot

/-- A reservation that `CHECK_PTR` takes for the address of a volume. -/
def masquerades (slot : Slot) : Bool := !slot.isVolume && checkPtr slot.pointer

def has (volumeID : BitVec 64) (slot : Slot) : Bool :=
  slot.isVolume && slot.volumeID == some volumeID

end Slot

def Clear (volumeID : BitVec 64) (slots : List Slot) : Prop :=
  ∀ slot ∈ slots.takeWhile fun slot => !slot.has volumeID, slot.masquerades = false

instance (volumeID : BitVec 64) (slots : List Slot) : Decidable (Clear volumeID slots) :=
  inferInstanceAs (Decidable (∀ slot ∈ slots.takeWhile _, _))

def OnlyVolumes (used : List Slot) : Prop := ∀ slot ∈ used, slot.isVolume = true

section Uses

variable {volumeID : BitVec 64} {slots : List Slot} {slot : Slot}

theorem onlyVolumes_append {first second : List Slot} :
    OnlyVolumes (first ++ second) ↔ OnlyVolumes first ∧ OnlyVolumes second := by
  simp only [OnlyVolumes, List.mem_append, or_imp, forall_and]

theorem onlyVolumes_cons :
    OnlyVolumes (slot :: slots) ↔ slot.isVolume = true ∧ OnlyVolumes slots := List.forall_mem_cons

theorem clear_cons_found (found : slot.has volumeID = true) : Clear volumeID (slot :: slots) := by
  intro other member
  rw [List.takeWhile_cons_of_neg (by simp [found])] at member
  cases member

theorem clear_cons_passed (passed : slot.has volumeID = false) :
    Clear volumeID (slot :: slots) ↔ slot.masquerades = false ∧ Clear volumeID slots := by
  simp only [Clear]
  rw [List.takeWhile_cons_of_pos (by simp [passed]), List.forall_mem_cons]

/-- A slot that masquerades is dereferenced, whatever is read there. -/
theorem lookupLoop_masquerades (stray : StrayMemory) (i : Nat) (masked : slot.masquerades = true) :
    slot ∈ (lookupLoop volumeID stray (slot :: slots) i).2 := by
  have pointed : checkPtr slot.pointer = true := (Bool.and_eq_true_iff.mp masked).2
  rw [lookupLoop, if_pos pointed]
  split
  · exact List.mem_cons_self
  · split <;> exact List.mem_cons_self

theorem lookupLoop_attached (stray : StrayMemory) (i : Nat) {addr : BitVec 64} {volume : DMSVolume}
    (legal : checkPtr addr = true) :
    lookupLoop volumeID stray (.attached addr volume :: slots) i =
      if volume.volumeID = volumeID then
        (.slot i (.attached addr volume) volume, [.attached addr volume])
      else ((lookupLoop volumeID stray slots (i + 1)).1,
        .attached addr volume :: (lookupLoop volumeID stray slots (i + 1)).2) := by
  have pointed : checkPtr (Slot.attached addr volume).pointer = true := legal
  rw [lookupLoop, if_pos pointed]
  rfl

theorem lookupLoop_used (stray : StrayMemory) (i : Nat)
    (legal : ∀ addr volume, Slot.attached addr volume ∈ slots → checkPtr addr = true) :
    OnlyVolumes (lookupLoop volumeID stray slots i).2 ↔ Clear volumeID slots := by
  induction slots generalizing i with
  | nil => simp [lookupLoop, OnlyVolumes, Clear]
  | cons slot rest inductionHypothesis =>
      have later := inductionHypothesis (i + 1)
        fun addr volume member => legal addr volume (List.mem_cons_of_mem _ member)
      cases volumed : slot.isVolume with
      | false =>
          have passed : slot.has volumeID = false := by rw [Slot.has, volumed, Bool.false_and]
          rw [clear_cons_passed passed]
          cases masked : slot.masquerades with
          | true =>
              refine iff_of_false (fun only => ?_) (fun clear => by cases clear.1)
              have volume := only slot (lookupLoop_masquerades stray i masked)
              rw [volumed] at volume
              cases volume
          | false =>
              have unpointed : checkPtr slot.pointer = false := by
                simpa [Slot.masquerades, volumed] using masked
              rw [lookupLoop, if_neg (by simp [unpointed]), later]
              exact (and_iff_right rfl).symm
      | true =>
          obtain ⟨addr, volume, rfl⟩ : ∃ addr volume, slot = .attached addr volume := by
            cases slot with
            | attached addr volume => exact ⟨addr, volume, rfl⟩
            | _ => cases volumed
          rw [lookupLoop_attached stray i (legal addr volume List.mem_cons_self)]
          split
          · rename_i named
            have found : (Slot.attached addr volume).has volumeID = true := by
              simp [Slot.has, Slot.isVolume, Slot.volumeID, named]
            exact iff_of_true (onlyVolumes_cons.mpr ⟨rfl, fun _ member => by cases member⟩)
              (clear_cons_found found)
          · rename_i other
            have passed : (Slot.attached addr volume).has volumeID = false := by
              simp [Slot.has, Slot.isVolume, Slot.volumeID, other]
            rw [clear_cons_passed passed, onlyVolumes_cons, later]
            exact and_congr_left fun _ => iff_of_true rfl rfl

theorem getDMSVolumeIndexByVolumeID_used (stray : StrayMemory) (allVolumes : List Slot) :
    (getDMSVolumeIndexByVolumeID volumeID stray allVolumes).2 =
      (getVolumePtrByVolumeID volumeID stray allVolumes).2 := by
  unfold getDMSVolumeIndexByVolumeID getVolumePtrByVolumeID
  generalize lookupLoop volumeID stray (allVolumes.drop dmsMinorStart) dmsMinorStart = ended
  rcases ended with ⟨found, used⟩
  cases found <;> rfl

theorem getVolumePtrByVolumeID_used {allVolumes : List Slot} (proper : Proper allVolumes)
    (stray : StrayMemory) : OnlyVolumes (getVolumePtrByVolumeID volumeID stray allVolumes).2 ↔
      Clear volumeID (allVolumes.drop dmsMinorStart) := by
  apply lookupLoop_used
  intro addr volume member
  exact proper.legal addr volume (List.mem_of_mem_drop member)

theorem checkVolumeExistence_used {allVolumes : List Slot} (proper : Proper allVolumes)
    (stray : StrayMemory) : OnlyVolumes (checkVolumeExistence volumeID stray allVolumes).2 ↔
      Clear volumeID (allVolumes.drop dmsMinorStart) := by
  change OnlyVolumes (getDMSVolumeIndexByVolumeID volumeID stray allVolumes).2 ↔ _
  rw [getDMSVolumeIndexByVolumeID_used]
  exact getVolumePtrByVolumeID_used proper stray

theorem access_used (operation : DMSVolume → Int × DMSVolume) (illegal : Int)
    (stray : StrayMemory) : OnlyVolumes (slot.access operation illegal stray).2.2 ↔
      slot.masquerades = false := by
  have used : (slot.access operation illegal stray).2.2 =
      if checkPtr slot.pointer then [slot] else [] := by
    unfold Slot.access
    split
    · cases slot <;> rfl
    · rfl
  rw [used, Slot.masquerades]
  cases checkPtr slot.pointer <;> simp [OnlyVolumes]

/-- The slot that an open or a close by minor reads does not masquerade. -/
def MinorClear (unit : Nat) (allVolumes : List Slot) : Prop :=
  inAllVolumeRange allVolumes (unit / dmsDiskMinors : Nat) = true →
    ∀ slot ∈ allVolumes[unit / dmsDiskMinors]?, slot.masquerades = false

instance (unit : Nat) (allVolumes : List Slot) : Decidable (MinorClear unit allVolumes) :=
  inferInstanceAs (Decidable (_ = true → ∀ slot ∈ allVolumes[unit / dmsDiskMinors]?, _))

theorem accessDMSVolume_used (operation : DMSVolume → Int × DMSVolume) (illegal : Int) (unit : Nat)
    (stray : StrayMemory) (allVolumes : List Slot) :
    OnlyVolumes (accessDMSVolume operation illegal unit stray allVolumes).2.2 ↔
      MinorClear unit allVolumes := by
  simp only [accessDMSVolume, MinorClear]
  have nothing : OnlyVolumes [] := fun _ member => by cases member
  split
  · rename_i range
    cases here : allVolumes[unit / dmsDiskMinors]? with
    | none => exact iff_of_true nothing fun _ _ member => by cases member
    | some slot =>
        simp only [access_used, Option.mem_some_iff, forall_eq', range, forall_const]
  · rename_i range
    exact iff_of_true nothing fun inside => absurd inside range

/-- The pointer that a gendisk leads to is null or that of a volume. -/
def DiskClear (firstMinor : Nat) (allVolumes : List Slot) : Prop :=
  ∀ slot ∈ getVolumePtrByGendisk firstMinor allVolumes, slot.pointer ≠ 0 → slot.isVolume = true

instance (firstMinor : Nat) (allVolumes : List Slot) : Decidable (DiskClear firstMinor allVolumes) :=
  inferInstanceAs (Decidable (∀ slot ∈ getVolumePtrByGendisk firstMinor allVolumes, _))

theorem getVolumePtrByGendisk_used (firstMinor : Nat) (allVolumes : List Slot) :
    OnlyVolumes ((getVolumePtrByGendisk firstMinor allVolumes).toList.filter
      fun slot => slot.pointer ≠ 0) ↔ DiskClear firstMinor allVolumes := by
  simp [OnlyVolumes, DiskClear]

end Uses

namespace ManagerState

/-- No reader has used a slot without a volume as a volume. -/
def UsesVolumes (state : ManagerState) : Prop := OnlyVolumes state.used

/-- The slots that a reader will come to, up to the volume that it looks for, do not masquerade. -/
def Settled (state : ManagerState) : ManagerEvent → Prop
  | .check _ volumeID _ => Clear volumeID (state.allVolumes.drop dmsMinorStart)
  | .find _ volumeID _ => Clear volumeID (state.allVolumes.drop dmsMinorStart)
  | .lookup volumeID _ => Clear volumeID (state.allVolumes.drop dmsMinorStart)
  | .gendisk firstMinor => DiskClear firstMinor state.allVolumes
  | .openMinor unit _ => MinorClear unit state.allVolumes
  | .closeMinor unit _ => MinorClear unit state.allVolumes
  | _ => True

instance (state : ManagerState) : DecidablePred state.Settled
  | .check .. => inferInstanceAs (Decidable (Clear _ _))
  | .find .. => inferInstanceAs (Decidable (Clear _ _))
  | .lookup .. => inferInstanceAs (Decidable (Clear _ _))
  | .gendisk _ => inferInstanceAs (Decidable (DiskClear _ _))
  | .openMinor .. => inferInstanceAs (Decidable (MinorClear _ _))
  | .closeMinor .. => inferInstanceAs (Decidable (MinorClear _ _))
  | .occupy _ => .isTrue trivial
  | .create .. => .isTrue trivial
  | .busy _ => .isTrue trivial
  | .remove _ => .isTrue trivial

section Step

variable {state next : ManagerState} {event : ManagerEvent}

/-- The table stays proper in every critical section. -/
theorem step_proper (proper : Proper state.allVolumes) (taken : state.step event = some next) :
    Proper next.allVolumes := by
  cases taken_of_step taken with
  | @reserved who place volumeID here range =>
      have bounds := inAllVolumeRange_iff.mp range
      exact proper.set (by omega) fun _ _ same => by cases same
  | failed here => exact proper.remove
  | @created who volumeID addr index here legal => exact proper.insert addr _
  | removed here => exact proper.remove
  | @opened unit stray => exact proper.access openVolume badAddress unit stray
  | @closed unit stray => exact proper.access closeVolume 0 unit stray
  | _ => exact proper

def reads (state : ManagerState) : ManagerEvent → List Slot
  | .check _ volumeID stray => (checkVolumeExistence volumeID stray state.allVolumes).2
  | .find _ volumeID stray => (getVolumePtrByVolumeID volumeID stray state.allVolumes).2
  | .lookup volumeID stray => (getVolumePtrByVolumeID volumeID stray state.allVolumes).2
  | .gendisk firstMinor => (getVolumePtrByGendisk firstMinor state.allVolumes).toList.filter
      fun slot => slot.pointer ≠ 0
  | .openMinor unit stray => (openDMSVolume unit stray state.allVolumes).2.2
  | .closeMinor unit stray => (closeDMSVolume unit stray state.allVolumes).2.2
  | _ => []

theorem step_used (taken : state.step event = some next) :
    next.used = state.reads event ++ state.used := by
  cases taken_of_step taken <;> rfl

/-- What a critical section reads are volumes exactly when it is settled. -/
theorem reads_settled (proper : Proper state.allVolumes) (event : ManagerEvent) :
    OnlyVolumes (state.reads event) ↔ state.Settled event := by
  have nothing : OnlyVolumes [] := fun _ member => by cases member
  cases event with
  | check who volumeID stray => exact checkVolumeExistence_used proper stray
  | find who volumeID stray => exact getVolumePtrByVolumeID_used proper stray
  | lookup volumeID stray => exact getVolumePtrByVolumeID_used proper stray
  | gendisk firstMinor => exact getVolumePtrByGendisk_used firstMinor state.allVolumes
  | openMinor unit stray => exact accessDMSVolume_used openVolume badAddress unit stray _
  | closeMinor unit stray => exact accessDMSVolume_used closeVolume 0 unit stray _
  | _ => exact iff_of_true nothing trivial

/-- A critical section uses volumes only, exactly when the slots it reads are settled. -/
theorem step_usesVolumes (proper : Proper state.allVolumes) (taken : state.step event = some next) :
    next.UsesVolumes ↔ state.UsesVolumes ∧ state.Settled event := by
  rw [UsesVolumes, step_used taken, onlyVolumes_append, reads_settled proper, and_comm]
  rfl

end Step

/-- A reservation is never used as a volume exactly when every critical section is settled. -/
theorem always_usesVolumes_iff {maxNrVolumes : Nat} {events : List ManagerEvent}
    {last : ManagerState} (ran : run step (init maxNrVolumes) events = some last) :
    Always UsesVolumes step (init maxNrVolumes) events ↔
      Guarded Settled step (init maxNrVolumes) events := by
  have nothing : (init maxNrVolumes).UsesVolumes := fun _ member => by cases member
  exact always_iff_guarded (fun _ _ _ proper taken => step_proper proper taken)
    (fun _ _ _ proper taken => step_usesVolumes proper taken) (proper_init maxNrVolumes) nothing ran

theorem always_usesVolumes_sequence :
    Always UsesVolumes step (init 4) [.check 0 5 fun _ => none, .occupy 0, .create 0 (some 4096),
      .lookup 5 fun _ => none, .check 1 6 fun _ => none, .occupy 1, .lookup 5 fun _ => none,
      .openMinor 16 fun _ => none, .gendisk 16] := by
  refine (always_usesVolumes_iff rfl).mpr ?_
  decide

/-- A lookup that comes while an attach has its reservation. -/
theorem reservation_used :
    ∃ state, run step (init 4) [.check 0 5 fun _ => none, .occupy 0, .lookup 7 fun _ => none] =
      some state ∧ ¬ state.UsesVolumes := by
  refine ⟨_, rfl, fun volumes => ?_⟩
  have used := volumes (.reserved 5) List.mem_cons_self
  cases used

end ManagerState

end DmsBlkdev
