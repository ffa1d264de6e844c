import DmsBlkdev.VolumeManager.Attach

/-!
# No volume is attached twice

As long as the attaches of one volume do not overlap, the check of an attach
still holds when it reserves its slot.  Attaches of other volumes, detaches
and readers may come in between at any point.
-/

namespace DmsBlkdev

open Lib Lib.Run

def Stands (allVolumes : List Slot) (volumeID : BitVec 64) (place : Nat) : Prop :=
  ∃ slot, allVolumes[place]? = some slot ∧ slot.volumeID = some volumeID

section Table

variable {allVolumes : List Slot} {volumeID : BitVec 64} {place place' : Nat} {slot : Slot}

theorem stands_set : Stands (allVolumes.set place slot) volumeID place' ↔
    (place' = place ∧ place < allVolumes.length ∧ slot.volumeID = some volumeID) ∨
      (place' ≠ place ∧ Stands allVolumes volumeID place') := by
  by_cases same : place' = place
  · subst same
    by_cases within : place' < allVolumes.length <;> simp [Stands, within]
  · simp [Stands, List.getElem?_set_ne (Ne.symm same), same]

theorem stands_remove {index : Int}
    (there : Stands (removeVolumeFromAllVolumes index allVolumes).2 volumeID place) :
    Stands allVolumes volumeID place := by
  rw [removeVolumeFromAllVolumes] at there
  split at there
  · rcases stands_set.mp there with ⟨-, -, named⟩ | ⟨-, before⟩
    · cases named
    · exact before
  · exact there

theorem length_remove {index : Int} :
    (removeVolumeFromAllVolumes index allVolumes).2.length = allVolumes.length := by
  rw [removeVolumeFromAllVolumes]
  split
  · exact List.length_set
  · rfl

theorem reserved_remove {index : Int}
    (member : Slot.reserved volumeID ∈ (removeVolumeFromAllVolumes index allVolumes).2) :
    Slot.reserved volumeID ∈ allVolumes := by
  rw [removeVolumeFromAllVolumes] at member
  split at member
  · rcases List.mem_or_eq_of_mem_set member with before | same
    · exact before
    · cases same
  · exact member

theorem lookupLoop_slot {stray : StrayMemory} {slots : List Slot} {i index : Nat}
    {volume : DMSVolume} (found : (lookupLoop volumeID stray slots i).1 = .slot index slot volume) :
    i ≤ index ∧ index < i + slots.length := by
  induction slots generalizing i with
  | nil => cases found
  | cons first rest inductionHypothesis =>
      have later (found : (lookupLoop volumeID stray rest (i + 1)).1 = .slot index slot volume) :
          i ≤ index ∧ index < i + (first :: rest).length := by
        have range := inductionHypothesis found
        rw [List.length_cons]
        omega
      rw [lookupLoop] at found
      split at found
      · split at found
        · cases found
        · split at found
          · cases found
            simp
          · exact later found
      · exact later found

theorem lookupLoop_missing {stray : StrayMemory} {slots : List Slot} {i : Nat}
    (missing : (lookupLoop volumeID stray slots i).1 = .missing) {addr : BitVec 64}
    {volume : DMSVolume} (member : .attached addr volume ∈ slots) (legal : checkPtr addr = true) :
    volume.volumeID ≠ volumeID := by
  induction slots generalizing i with
  | nil => cases member
  | cons first rest inductionHypothesis =>
      rw [lookupLoop] at missing
      rcases List.mem_cons.mp member with rfl | behind
      · simp only [Slot.pointer, legal, Slot.deref, if_true] at missing
        split at missing
        · cases missing
        · assumption
      · split at missing
        · split at missing
          · cases missing
          · split at missing
            · cases missing
            · exact inductionHypothesis missing behind
        · exact inductionHypothesis missing behind

theorem checkVolumeExistence_false {stray : StrayMemory}
    (passed : (checkVolumeExistence volumeID stray allVolumes).1 = some false) :
    (lookupLoop volumeID stray (allVolumes.drop dmsMinorStart) dmsMinorStart).1 = .missing := by
  rcases ended : lookupLoop volumeID stray (allVolumes.drop dmsMinorStart) dmsMinorStart with
    ⟨found, used⟩
  simp only [checkVolumeExistence, getDMSVolumeIndexByVolumeID, ended] at passed
  cases found with
  | missing => rfl
  | fault => cases passed
  | slot index slot volume =>
      have range := lookupLoop_slot (congrArg Prod.fst ended)
      rw [List.length_drop] at range
      have inside : inAllVolumeRange allVolumes (index : Nat) = true :=
        inAllVolumeRange_natCast.mpr ⟨range.1, by omega⟩
      simp [inside] at passed

end Table

namespace ManagerState

def AttachedOnce (state : ManagerState) : Prop :=
  ∀ volumeID first second, Stands state.allVolumes volumeID first →
    Stands state.allVolumes volumeID second → first = second

/-- An attach starts when no other attach of the volume is under way. -/
def Apart (state : ManagerState) : ManagerEvent → Prop
  | .check _ volumeID _ => ∀ entry ∈ state.calls.entries, entry.2.attaching ≠ some volumeID
  | _ => True

instance (state : ManagerState) : DecidablePred state.Apart
  | .check .. => inferInstanceAs (Decidable (∀ entry ∈ state.calls.entries, _))
  | .occupy _ => .isTrue trivial
  | .create .. => .isTrue trivial
  | .find .. => .isTrue trivial
  | .busy _ => .isTrue trivial
  | .remove _ => .isTrue trivial
  | .lookup .. => .isTrue trivial
  | .gendisk _ => .isTrue trivial
  | .openMinor .. => .isTrue trivial
  | .closeMinor .. => .isTrue trivial

structure Orderly (state : ManagerState) : Prop where
  proper : Proper state.allVolumes
  once : state.AttachedOnce
  checked : ∀ who volumeID, (who, Call.checked volumeID) ∈ state.calls.entries →
    ∀ place, ¬ Stands state.allVolumes volumeID place
  occupied : ∀ who volumeID index, (who, Call.occupied volumeID index) ∈ state.calls.entries →
    inAllVolumeRange state.allVolumes index = true ∧
      ∀ place, Stands state.allVolumes volumeID place → place = index.toNat
  reserved : ∀ volumeID, Slot.reserved volumeID ∈ state.allVolumes →
    ∃ who index, (who, Call.occupied volumeID index) ∈ state.calls.entries
  single : ∀ first ∈ state.calls.entries, ∀ second ∈ state.calls.entries,
    ∀ volumeID, first.2.attaching = some volumeID → second.2.attaching = some volumeID →
      first.1 = second.1

section Orderly

variable {state : ManagerState} {who : Nat} {volumeID : BitVec 64} {index : Int}

theorem Orderly.shrink (orderly : state.Orderly) {after : ManagerState}
    (length : after.allVolumes.length = state.allVolumes.length)
    (proper : Proper after.allVolumes)
    (stands : ∀ volumeID place, Stands after.allVolumes volumeID place →
      Stands state.allVolumes volumeID place)
    (calls : ∀ entry ∈ after.calls.entries, entry.2.attaching ≠ none →
      entry ∈ state.calls.entries)
    (reserved : ∀ volumeID, Slot.reserved volumeID ∈ after.allVolumes →
      ∃ who index, (who, Call.occupied volumeID index) ∈ after.calls.entries) :
    after.Orderly where
  proper := proper
  once volumeID first second one other :=
    orderly.once volumeID first second (stands _ _ one) (stands _ _ other)
  checked who volumeID member place there :=
    orderly.checked who volumeID (calls _ member (by simp [Call.attaching])) place
      (stands _ _ there)
  occupied who volumeID index member := by
    obtain ⟨range, only⟩ :=
      orderly.occupied who volumeID index (calls _ member (by simp [Call.attaching]))
    refine ⟨?_, fun place there => only place (stands _ _ there)⟩
    rwa [inAllVolumeRange_iff, length, ← inAllVolumeRange_iff]
  reserved := reserved
  single first one second other volumeID names names' := by
    have present (entry : Nat × Call) (named : entry.2.attaching = some volumeID) :
        entry.2.attaching ≠ none := by simp [named]
    exact orderly.single first (calls first one (present first names)) second
      (calls second other (present second names')) volumeID names names'

theorem Orderly.keepCallers (orderly : state.Orderly)
    (free : ∀ volumeID index, (who, Call.occupied volumeID index) ∉ state.calls.entries) :
    ∀ volumeID, Slot.reserved volumeID ∈ state.allVolumes → ∃ other index,
      (other, Call.occupied volumeID index) ∈ state.calls.entries ∧ other ≠ who := by
  intro volumeID member
  obtain ⟨other, index, there⟩ := orderly.reserved volumeID member
  refine ⟨other, index, there, ?_⟩
  rintro rfl
  exact free volumeID index there

theorem not_occupied {call : Call} (here : state.calls.lookup who = some call)
    (other : ∀ volumeID index, call ≠ .occupied volumeID index) :
    ∀ volumeID index, (who, Call.occupied volumeID index) ∉ state.calls.entries := by
  intro volumeID index member
  have found := OrderedMap.lookup_eq_some.mpr member
  rw [here] at found
  exact other volumeID index (Option.some.inj found)

theorem not_present (absent : state.calls.lookup who = none) (call : Call) :
    (who, call) ∉ state.calls.entries := by
  intro member
  rw [OrderedMap.lookup_eq_some.mpr member] at absent
  cases absent

theorem Orderly.use (orderly : state.Orderly) (slots : List Slot) : (state.use slots).Orderly :=
  ⟨orderly.proper, orderly.once, orderly.checked, orderly.occupied, orderly.reserved,
    orderly.single⟩

/-- A volume that the check does not find, and that no attach is about, stands nowhere. -/
theorem Orderly.stands_nowhere (orderly : state.Orderly) {stray : StrayMemory}
    (apart : ∀ entry ∈ state.calls.entries, entry.2.attaching ≠ some volumeID)
    (passed : (checkVolumeExistence volumeID stray state.allVolumes).1 = some false)
    (place : Nat) : ¬ Stands state.allVolumes volumeID place := by
  rintro ⟨slot, here, named⟩
  have member := List.mem_of_getElem? here
  cases slot with
  | empty => cases named
  | reserved reservedID =>
      obtain rfl : reservedID = volumeID := Option.some.inj named
      obtain ⟨who, index, caller⟩ := orderly.reserved reservedID member
      exact apart _ caller rfl
  | attached addr volume =>
      have late : dmsMinorStart ≤ place := by
        by_contra early
        obtain rfl : place = 0 := by simpa [dmsMinorStart] using early
        cases orderly.proper.first _ here
      have behind : Slot.attached addr volume ∈ state.allVolumes.drop dmsMinorStart := by
        have found : (state.allVolumes.drop dmsMinorStart)[place - dmsMinorStart]? =
            some (.attached addr volume) := by
          rw [List.getElem?_drop, Nat.add_sub_cancel' late, here]
        exact List.mem_of_getElem? found
      exact lookupLoop_missing (checkVolumeExistence_false passed) behind
        (orderly.proper.legal addr volume member) (Option.some.inj named)

theorem Orderly.check (orderly : state.Orderly) {stray : StrayMemory}
    (absent : state.calls.lookup who = none)
    (apart : ∀ entry ∈ state.calls.entries, entry.2.attaching ≠ some volumeID)
    (passed : (checkVolumeExistence volumeID stray state.allVolumes).1 = some false) :
    (state.goOn who (.checked volumeID)).Orderly where
  proper := orderly.proper
  once := orderly.once
  checked other otherID member := by
    rcases OrderedMap.mem_insert.mp member with same | ⟨before, -⟩
    · cases same
      exact orderly.stands_nowhere apart passed
    · exact orderly.checked other otherID before
  occupied other otherID index member := by
    rcases OrderedMap.mem_insert.mp member with same | ⟨before, -⟩
    · cases same
    · exact orderly.occupied other otherID index before
  reserved otherID member := by
    obtain ⟨other, index, caller, different⟩ :=
      orderly.keepCallers (fun _ _ => not_present absent _) otherID member
    exact ⟨other, index, OrderedMap.mem_insert.mpr (.inr ⟨caller, different⟩)⟩
  single first one second other otherID names names' := by
    rcases OrderedMap.mem_insert.mp one with rfl | ⟨before, -⟩ <;>
      rcases OrderedMap.mem_insert.mp other with rfl | ⟨before', -⟩
    · rfl
    · obtain rfl : volumeID = otherID := Option.some.inj names
      exact absurd names' (apart second before')
    · obtain rfl : volumeID = otherID := Option.some.inj names'
      exact absurd names (apart first before)
    · exact orderly.single first before second before' otherID names names'

theorem Orderly.alone (orderly : state.Orderly) {call : Call}
    (caller : (who, call) ∈ state.calls.entries) (about : call.attaching = some volumeID) :
    ∀ entry ∈ state.calls.entries, entry.1 ≠ who → entry.2.attaching ≠ some volumeID :=
  fun entry member different named =>
    different (orderly.single entry member _ caller volumeID named about)

/-- The caller of an attach puts its reservation, or its volume, where the volume may stand. -/
theorem Orderly.fill (orderly : state.Orderly) {call : Call} {place : Nat} {slot : Slot}
    {calls : OrderedMap Nat Call} (caller : (who, call) ∈ state.calls.entries)
    (about : call.attaching = some volumeID)
    (range : inAllVolumeRange state.allVolumes place = true)
    (only : ∀ there, Stands state.allVolumes volumeID there → there = place)
    (proper : Proper (state.allVolumes.set place slot)) (named : slot.volumeID = some volumeID)
    (callers : ∀ entry ∈ calls.entries, entry = (who, .occupied volumeID place) ∨
      entry ∈ state.calls.entries ∧ entry.1 ≠ who)
    (reserved : ∀ reservedID, Slot.reserved reservedID ∈ state.allVolumes.set place slot →
      ∃ other index, (other, Call.occupied reservedID index) ∈ calls.entries) :
    Orderly ⟨state.allVolumes.set place slot, calls, state.used⟩ := by
  have alone := orderly.alone caller about
  have here (there : Nat) (stands : Stands (state.allVolumes.set place slot) volumeID there) :
      there = place := by
    rcases stands_set.mp stands with ⟨same, -⟩ | ⟨-, before⟩
    · exact same
    · exact only there before
  -- for the volumes of the other callers the table is the one before
  have others (otherID : BitVec 64) (different : otherID ≠ volumeID) (there : Nat)
      (stands : Stands (state.allVolumes.set place slot) otherID there) :
      Stands state.allVolumes otherID there := by
    rcases stands_set.mp stands with ⟨-, -, same⟩ | ⟨-, before⟩
    · exact absurd (Option.some.inj (same.symm.trans named)) different
    · exact before
  refine ⟨proper, ?_, ?_, ?_, reserved, ?_⟩
  · intro otherID first second one other
    by_cases same : otherID = volumeID
    · subst same
      rw [here first one, here second other]
    · exact orderly.once otherID first second (others _ same _ one) (others _ same _ other)
  · intro other otherID member there stands
    rcases callers _ member with same | ⟨before, different⟩
    · cases same
    · refine orderly.checked other otherID before there (others _ ?_ _ stands)
      rintro rfl
      exact alone _ before different rfl
  · intro other otherID index member
    rw [inAllVolumeRange_set]
    rcases callers _ member with same | ⟨before, different⟩
    · cases same
      exact ⟨range, here⟩
    · obtain ⟨otherRange, otherOnly⟩ := orderly.occupied other otherID index before
      refine ⟨otherRange, fun there stands => otherOnly there (others _ ?_ _ stands)⟩
      rintro rfl
      exact alone _ before different rfl
  · intro first one second other otherID names names'
    rcases callers first one with rfl | ⟨before, different⟩ <;>
      rcases callers second other with rfl | ⟨before', different'⟩
    · rfl
    · obtain rfl : volumeID = otherID := Option.some.inj names
      exact absurd names' (alone second before' different')
    · obtain rfl : volumeID = otherID := Option.some.inj names'
      exact absurd names (alone first before different)
    · exact orderly.single first before second before' otherID names names'

theorem Orderly.occupy (orderly : state.Orderly) {place : Nat}
    (here : state.calls.lookup who = some (.checked volumeID))
    (range : inAllVolumeRange state.allVolumes place = true) :
    ((state.withTable (state.allVolumes.set place (.reserved volumeID))).goOn who
      (.occupied volumeID place)).Orderly := by
  have caller := OrderedMap.lookup_eq_some.mp here
  have nowhere := orderly.checked who volumeID caller
  have bounds := inAllVolumeRange_iff.mp range
  refine orderly.fill caller rfl range (fun there stands => absurd stands (nowhere there))
    (orderly.proper.set (by omega) fun _ _ same => by cases same) rfl
    (fun entry member => OrderedMap.mem_insert.mp member) fun reservedID member => ?_
  rcases List.mem_or_eq_of_mem_set member with before | same
  · obtain ⟨other, index, there, different⟩ :=
      orderly.keepCallers (not_occupied here fun _ _ same => by cases same) reservedID before
    exact ⟨other, index, OrderedMap.mem_insert.mpr (.inr ⟨there, different⟩)⟩
  · cases same
    exact ⟨who, place, OrderedMap.mem_insert.mpr (.inl rfl)⟩

theorem Orderly.remove (orderly : state.Orderly)
    (given_up : ∀ reservedID,
      Slot.reserved reservedID ∈ (removeVolumeFromAllVolumes index state.allVolumes).2 →
      ∃ other otherIndex, (other, Call.occupied reservedID otherIndex) ∈ state.calls.entries ∧
        other ≠ who) :
    ((state.withTable (removeVolumeFromAllVolumes index state.allVolumes).2).leave who).Orderly := by
  refine orderly.shrink length_remove orderly.proper.remove (fun _ _ there => stands_remove there)
    (fun entry member _ => (OrderedMap.mem_erase.mp member).1) fun reservedID member => ?_
  obtain ⟨other, otherIndex, there, different⟩ := given_up reservedID member
  exact ⟨other, otherIndex, OrderedMap.mem_erase.mpr ⟨there, different⟩⟩

/-- The reservation of a caller is at its index; the others belong to other callers. -/
theorem Orderly.otherReservations (orderly : state.Orderly)
    (here : state.calls.lookup who = some (.occupied volumeID index)) {reservedID : BitVec 64}
    {place : Nat} (reserved : state.allVolumes[place]? = some (.reserved reservedID))
    (elsewhere : reservedID = volumeID → place ≠ index.toNat) :
    ∃ other otherIndex, (other, Call.occupied reservedID otherIndex) ∈ state.calls.entries ∧
      other ≠ who := by
  have caller := OrderedMap.lookup_eq_some.mp here
  obtain ⟨other, otherIndex, there⟩ := orderly.reserved reservedID (List.mem_of_getElem? reserved)
  refine ⟨other, otherIndex, there, ?_⟩
  rintro rfl
  cases OrderedMap.entry_unique there caller
  exact elsewhere rfl ((orderly.occupied _ _ _ caller).2 place ⟨_, reserved, rfl⟩)

theorem Orderly.createFails (orderly : state.Orderly)
    (here : state.calls.lookup who = some (.occupied volumeID index)) :
    ((state.withTable (removeVolumeFromAllVolumes index state.allVolumes).2).leave who).Orderly := by
  have range := (orderly.occupied _ _ _ (OrderedMap.lookup_eq_some.mp here)).1
  refine orderly.remove fun reservedID member => ?_
  simp only [removeVolumeFromAllVolumes, range, if_true] at member
  obtain ⟨place, there⟩ := List.getElem?_of_mem member
  have elsewhere : place ≠ index.toNat := by
    rintro rfl
    simp [List.getElem?_set] at there
  rw [List.getElem?_set_ne (Ne.symm elsewhere)] at there
  exact orderly.otherReservations here there fun _ => elsewhere

theorem Orderly.insert (orderly : state.Orderly) {addr : BitVec 64}
    (here : state.calls.lookup who = some (.occupied volumeID index))
    (legal : checkPtr addr = true) :
    ((state.withTable (insertVolumeToAllVolumes addr ⟨volumeID, index, 0, 0⟩
      state.allVolumes).2).leave who).Orderly := by
  have caller := OrderedMap.lookup_eq_some.mp here
  obtain ⟨range, only⟩ := orderly.occupied who volumeID index caller
  have bounds := inAllVolumeRange_iff.mp range
  have place : ((index.toNat : Nat) : Int) = index := by omega
  have staying (reservedID : BitVec 64) (there : Nat)
      (reserved : state.allVolumes[there]? = some (.reserved reservedID))
      (elsewhere : reservedID = volumeID → there ≠ index.toNat) :
      ∃ other otherIndex, (other, Call.occupied reservedID otherIndex) ∈
        (state.calls.erase who).entries := by
    obtain ⟨other, otherIndex, found, different⟩ :=
      orderly.otherReservations here reserved elsewhere
    exact ⟨other, otherIndex, OrderedMap.mem_erase.mpr ⟨found, different⟩⟩
  simp only [insertVolumeToAllVolumes, legal, range, if_true]
  split
  · refine orderly.fill caller rfl (by rwa [place]) only
      (orderly.proper.set (by omega) fun _ _ same => by cases same; exact legal) rfl
      (fun entry member => .inr (OrderedMap.mem_erase.mp member)) fun reservedID member => ?_
    obtain ⟨there, reserved⟩ := List.getElem?_of_mem member
    have elsewhere : there ≠ index.toNat := by
      rintro rfl
      simp [List.getElem?_set] at reserved
    rw [List.getElem?_set_ne (Ne.symm elsewhere)] at reserved
    exact staying reservedID there reserved fun _ => elsewhere
  · rename_i other
    refine orderly.shrink rfl orderly.proper (fun _ _ there => there)
      (fun entry member _ => (OrderedMap.mem_erase.mp member).1) fun reservedID member => ?_
    obtain ⟨there, reserved⟩ := List.getElem?_of_mem member
    refine staying reservedID there reserved ?_
    -- its own reservation would have passed the test
    rintro rfl rfl
    exact other (congrArg (Option.map Slot.pointer) reserved)

theorem Orderly.access (orderly : state.Orderly) {operation : DMSVolume → Int × DMSVolume}
    (keeps : ∀ volume, (operation volume).2.volumeID = volume.volumeID) (illegal : Int)
    (unit : Nat) (stray : StrayMemory) :
    (state.withTable
      (accessDMSVolume operation illegal unit stray state.allVolumes).2.1).Orderly := by
  have proper := orderly.proper.access operation illegal unit stray
  simp only [accessDMSVolume] at proper ⊢
  split
  · rename_i range
    cases here : state.allVolumes[unit / dmsDiskMinors]? with
    | none => exact orderly
    | some slot =>
        have member := List.mem_of_getElem? here
        have shape := access_slot operation illegal stray slot
        simp only [range, here, if_true] at proper ⊢
        generalize (slot.access operation illegal stray).2.1 = slot' at shape proper ⊢
        refine orderly.shrink List.length_set proper ?_ (fun _ before _ => before) ?_
        · intro volumeID place there
          rcases stands_set.mp there with ⟨rfl, -, named⟩ | ⟨-, before⟩
          · refine ⟨slot, here, ?_⟩
            rcases shape with rfl | ⟨addr, volume, rfl, rfl⟩
            · exact named
            · rwa [Slot.volumeID, keeps] at named
          · exact before
        · intro volumeID reserved
          rcases List.mem_or_eq_of_mem_set reserved with before | same
          · exact orderly.reserved volumeID before
          · rcases shape with rfl | ⟨addr, volume, rfl, rfl⟩
            · rw [← same] at member
              exact orderly.reserved volumeID member
            · cases same
  · exact orderly

theorem openVolume_volumeID (volume : DMSVolume) :
    (openVolume volume).2.volumeID = volume.volumeID := by
  unfold openVolume
  split <;> rfl

theorem orderly_init (maxNrVolumes : Nat) : (init maxNrVolumes).Orderly := by
  have nowhere (volumeID : BitVec 64) (place : Nat) :
      ¬ Stands (init maxNrVolumes).allVolumes volumeID place := by
    rintro ⟨slot, here, named⟩
    rw [slot_init (List.mem_of_getElem? here)] at named
    cases named
  refine ⟨proper_init maxNrVolumes, fun volumeID first _ there _ =>
    absurd there (nowhere volumeID first), fun _ _ member => ?_, fun _ _ _ member => ?_,
    fun volumeID member => ?_, fun _ member => ?_⟩
  · cases member
  · cases member
  · cases slot_init member
  · cases member

theorem Orderly.leave (orderly : state.Orderly)
    (free : ∀ volumeID index, (who, Call.occupied volumeID index) ∉ state.calls.entries) :
    (state.leave who).Orderly := by
  refine orderly.shrink rfl orderly.proper (fun _ _ there => there)
    (fun entry member _ => (OrderedMap.mem_erase.mp member).1) fun volumeID member => ?_
  obtain ⟨other, index, there, different⟩ := orderly.keepCallers free volumeID member
  exact ⟨other, index, OrderedMap.mem_erase.mpr ⟨there, different⟩⟩

theorem Orderly.find (orderly : state.Orderly) (absent : state.calls.lookup who = none)
    (volume : DMSVolume) : (state.goOn who (.detaching volume)).Orderly := by
  refine orderly.shrink rfl orderly.proper (fun _ _ there => there) (fun entry member part => ?_)
    fun volumeID member => ?_
  · rcases OrderedMap.mem_insert.mp member with rfl | ⟨before, -⟩
    · exact absurd rfl part
    · exact before
  · obtain ⟨other, index, there, different⟩ :=
      orderly.keepCallers (fun _ _ => not_present absent _) volumeID member
    exact ⟨other, index, OrderedMap.mem_insert.mpr (.inr ⟨there, different⟩)⟩

/-- A critical section that starts an attach only apart from others of its volume keeps order. -/
theorem step_orderly (orderly : state.Orderly) {event : ManagerEvent} {next : ManagerState}
    (apart : state.Apart event) (taken : state.step event = some next) : next.Orderly := by
  cases taken_of_step taken with
  | passed absent existence => exact (orderly.use _).check absent apart existence
  | refused => exact orderly.use _
  | reserved here range => exact orderly.occupy here range
  | full here => exact orderly.leave (not_occupied here fun _ _ same => by cases same)
  | failed here => exact orderly.createFails here
  | created here legal => exact orderly.insert here legal
  | found absent => exact (orderly.use _).find absent _
  | missed => exact orderly.use _
  | busy here => exact orderly.leave (not_occupied here fun _ _ same => by cases same)
  | removed here =>
      have free := not_occupied here fun _ _ same => by cases same
      exact orderly.remove fun volumeID member =>
        orderly.keepCallers free volumeID (reserved_remove member)
  | lookup => exact orderly.use _
  | gendisk => exact orderly.use _
  | @opened unit stray => exact (orderly.access openVolume_volumeID badAddress unit stray).use _
  | @closed unit stray => exact (orderly.access (fun _ => rfl) 0 unit stray).use _

end Orderly

/-- When the attaches of one volume do not overlap, no volume ever stands in two slots. -/
theorem always_attachedOnce {maxNrVolumes : Nat} {events : List ManagerEvent}
    (apart : Guarded Apart step (init maxNrVolumes) events) :
    Always AttachedOnce step (init maxNrVolumes) events := by
  have orderly : Always Orderly step (init maxNrVolumes) events :=
    always_of_preserved (fun _ _ _ kept allowed taken => step_orderly kept allowed taken)
      (orderly_init maxNrVolumes) apart
  exact orderly.imp fun _ kept => kept.once

def nothingStray : StrayMemory := fun _ => none

theorem always_attachedOnce_sequence :
    Always AttachedOnce step (init 4) [.check 0 5 nothingStray, .occupy 0, .create 0 (some 4096),
      .check 1 5 nothingStray, .find 2 5 nothingStray, .remove 2, .check 1 5 nothingStray,
      .occupy 1] := by
  apply always_attachedOnce
  decide

/-- Two attaches that both make their check before either reserves a slot. -/
theorem attachedTwice :
    ∃ state, run step (init 4) [.check 0 5 nothingStray, .check 1 5 nothingStray, .occupy 0,
      .occupy 1] = some state ∧ ¬ state.AttachedOnce := by
  refine ⟨_, rfl, fun once => ?_⟩
  have same := once 5 1 2 ⟨.reserved 5, rfl, rfl⟩ ⟨.reserved 5, rfl, rfl⟩
  cases same

end ManagerState

end DmsBlkdev
