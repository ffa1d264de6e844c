import DmsBlkdev.UserDaemon.ControlPlane
import DmsBlkdev.Lib.Trace

/-!
# Sessions of the daemon

While the RS takes every update, a session answers as a directory of volumes
does, and the list of the daemon and the table of the driver both have its
volumes.  A volume for which the RS has once refused an update stays in one of
them only, whatever commands follow.
-/

namespace DmsBlkdev.UserDaemon

open Lib.Trace

noncomputable def directoryStep (maxNrVolumes : Nat) (map : VolumeMap) :
    SessionEvent → Int × VolumeMap
  | .packet packet answers =>
      if ¬ packet.Long then (1, map)
      else if packet.opcode.attaches = true ∧ (map (extended packet.vol_id)).isSome = true then
        (0, map)
      else if packet.opcode.attaches = true ∧ answers.volCap.toInt ≤ 0 then (1, map)
      else
        (response (ioctlOnMap answers.capable maxNrVolumes map (packet.call answers)).1,
          (ioctlOnMap answers.capable maxNrVolumes map (packet.call answers)).2)
  | .openMinor unit stray => map.call ReadsZero maxNrVolumes (.openMinor unit stray)
  | .closeMinor unit stray => map.call ReadsZero maxNrVolumes (.closeMinor unit stray)

structure Serves (maxNrVolumes : Nat) (plane : ControlPlane) (map : VolumeMap) : Prop where
  shown : Shown maxNrVolumes plane.allVolumes map
  agrees : ∀ id, id ∈ volumeIDs plane.list ↔ (map id).isSome = true
  distinct : (volumeIDs plane.list).Nodup

theorem serves_start (maxNrVolumes : Nat) :
    Serves maxNrVolumes (.start maxNrVolumes) fun _ => none where
  shown := shown_init maxNrVolumes
  agrees id := by simp [ControlPlane.start, volumeIDs]
  distinct := List.nodup_nil

/-- The driver does what the packet asks of it, but the attach waits for its device file, or the RS
does not take the update. -/
def Unfinished (plane : ControlPlane) : SessionEvent → Prop
  | .packet packet answers => packet.Long ∧ plane.AsksDriver packet answers ∧
      (dmsIOCTLHandler answers.capable (packet.call answers) plane.allVolumes).1 = some 0 ∧
      ((packet.opcode.attaches = true ∧ true ∉ answers.deviceFile) ∨ RSRefuses packet answers)
  | _ => False

instance (plane : ControlPlane) : DecidablePred (Unfinished plane)
  | .packet _ _ => inferInstanceAs (Decidable (_ ∧ _ ∧ _ ∧ _))
  | .openMinor _ _ => .isFalse id
  | .closeMinor _ _ => .isFalse id

section Step

variable {maxNrVolumes : Nat} {plane : ControlPlane} {map : VolumeMap} {packet : Packet}
  {answers : CommandAnswers}

theorem Driven.handled (driven : Driven maxNrVolumes plane map packet answers)
    (shown : Shown maxNrVolumes plane.allVolumes map) :
    (dmsIOCTLHandler answers.capable (packet.call answers) plane.allVolumes).1 = some 0 := by
  obtain ⟨after, handled, -⟩ := dmsIOCTLHandler_shown shown answers.capable (packet.call answers)
  rw [handled, driven.taken]

theorem Driven.changed (driven : Driven maxNrVolumes plane map packet answers) :
    ∃ entry : Option VolumeEntry, entry.isSome = packet.opcode.attaches ∧
      (map (extended packet.vol_id)).isSome = !packet.opcode.attaches ∧
      ioctlOnMap answers.capable maxNrVolumes map (packet.call answers) =
        (0, Function.update map (extended packet.vol_id) entry) := by
  rcases ioctlOnMap_cases answers.capable maxNrVolumes map packet answers with
    ⟨failed, -⟩ | changed
  · exact absurd driven.taken failed
  · exact changed

theorem directoryStep_failed (serves : Serves maxNrVolumes plane map) (long : packet.Long)
    (unlisted : packet.opcode.attaches = true → extended packet.vol_id ∉ volumeIDs plane.list)
    (undriven : ¬ Driven maxNrVolumes plane map packet answers) :
    directoryStep maxNrVolumes map (.packet packet answers) = (1, map) := by
  have absent : ¬ (packet.opcode.attaches = true ∧
      (map (extended packet.vol_id)).isSome = true) := by
    rintro ⟨attaches, present⟩
    exact unlisted attaches ((serves.agrees _).mpr present)
  rw [directoryStep, if_neg (not_not.mpr long), if_neg absent]
  by_cases capacity : packet.opcode.attaches = true ∧ answers.volCap.toInt ≤ 0
  · rw [if_pos capacity]
  rw [if_neg capacity]
  have asks : plane.AsksDriver packet answers := by
    intro attaches
    exact ⟨queryAttachInfo_eq_none.mpr (unlisted attaches),
      Int.not_le.mp fun little => capacity ⟨attaches, little⟩⟩
  have failed : (ioctlOnMap answers.capable maxNrVolumes map (packet.call answers)).1 ≠ 0 :=
    fun taken => undriven ⟨asks, taken⟩
  rw [response_of_failed failed]
  rcases ioctlOnMap_cases answers.capable maxNrVolumes map packet answers with
    ⟨-, same⟩ | ⟨entry, -, -, same⟩
  · rw [same]
  · exact absurd (congrArg Prod.fst same) failed

theorem directoryStep_driven (serves : Serves maxNrVolumes plane map) (long : packet.Long)
    (driven : Driven maxNrVolumes plane map packet answers) :
    directoryStep maxNrVolumes map (.packet packet answers) =
      (0, (ioctlOnMap answers.capable maxNrVolumes map (packet.call answers)).2) := by
  have absent : ¬ (packet.opcode.attaches = true ∧
      (map (extended packet.vol_id)).isSome = true) := by
    rintro ⟨attaches, present⟩
    have unlisted := queryAttachInfo_eq_none.mp (driven.asks attaches).1
    exact unlisted ((serves.agrees _).mpr present)
  have capacity : ¬ (packet.opcode.attaches = true ∧ answers.volCap.toInt ≤ 0) := by
    rintro ⟨attaches, little⟩
    exact Int.not_lt.mpr little (driven.asks attaches).2
  rw [directoryStep, if_neg (not_not.mpr long), if_neg absent, if_neg capacity,
    response_of_ok driven.taken]

theorem Serves.recorded (serves : Serves maxNrVolumes plane map)
    (driven : Driven maxNrVolumes plane map packet answers) {after : ControlPlane}
    (shown : Shown maxNrVolumes after.allVolumes
      (ioctlOnMap answers.capable maxNrVolumes map (packet.call answers)).2)
    (ids : volumeIDs after.list = packet.recordedIn (volumeIDs plane.list)) :
    Serves maxNrVolumes after
      (ioctlOnMap answers.capable maxNrVolumes map (packet.call answers)).2 := by
  obtain ⟨entry, present, -, changed⟩ := driven.changed
  refine ⟨shown, fun id => ?_, ?_⟩
  · rw [ids, changed, Packet.recordedIn]
    dsimp only
    have before := serves.agrees id
    by_cases same : id = extended packet.vol_id
    · subst same
      rw [Function.update_self, present]
      cases packet.opcode.attaches with
      | true => simp
      | false => simpa using serves.distinct.not_mem_erase
    · rw [Function.update_of_ne same, ← before]
      cases packet.opcode.attaches with
      | true => simp [same]
      | false => simpa using List.mem_erase_of_ne same
  · rw [ids, Packet.recordedIn]
    split
    · next attaches =>
        have unlisted := queryAttachInfo_eq_none.mp (driven.asks attaches).1
        rw [List.nodup_append_comm]
        exact List.nodup_cons.mpr ⟨unlisted, serves.distinct⟩
    · exact serves.distinct.erase _

theorem isSome_call_access {unit : Nat} {stray : StrayMemory} {call : VolumeCall}
    (access : call = .openMinor unit stray ∨ call = .closeMinor unit stray) (id : BitVec 64) :
    ((map.call ReadsZero maxNrVolumes call).2 id).isSome = (map id).isSome := by
  have changed (difference : Int) : (map.change unit difference id).isSome = (map id).isSome := by
    simp [VolumeMap.change]
  rcases access with rfl | rfl
  · rw [VolumeMap.call]
    split
    · exact changed 1
    · split <;> rfl
  · exact changed (-1)

theorem Serves.access (serves : Serves maxNrVolumes plane map) {unit : Nat} {stray : StrayMemory}
    {call : VolumeCall} (access : call = .openMinor unit stray ∨ call = .closeMinor unit stray) :
    ∃ next, plane.access call = some ((map.call ReadsZero maxNrVolumes call).1, next) ∧
      Serves maxNrVolumes next (map.call ReadsZero maxNrVolumes call).2 := by
  obtain ⟨after, accessed, shown⟩ := access_shown serves.shown call
  refine ⟨_, accessed, shown, fun id => ?_, serves.distinct⟩
  rw [isSome_call_access access]
  exact serves.agrees id

end Step

/-- Where no event is left unfinished, each answers as on the directory. -/
theorem controlPlane_follows (maxNrVolumes : Nat) :
    Follows ControlPlane.step Unfinished
      (fun map event answer next => directoryStep maxNrVolumes map event = (answer, next))
      (Serves maxNrVolumes) where
  taken := by
    intro plane map event serves finished
    cases event with
    | packet packet answers =>
        have served := processThread_served serves.shown packet answers
        change ∃ answer next otherNext,
          plane.processThread packet answers = some (answer, next) ∧ _
        generalize plane.processThread packet answers = result at served
        cases served with
        | short short => exact ⟨1, plane, map, rfl, by rw [directoryStep, if_pos short], serves⟩
        | known long attaches listed =>
            have present : packet.opcode.attaches = true ∧
                (map (extended packet.vol_id)).isSome = true :=
              ⟨attaches, (serves.agrees _).mp listed⟩
            refine ⟨0, plane, map, rfl, ?_, serves⟩
            rw [directoryStep, if_neg (not_not.mpr long), if_pos present]
        | @failed long unlisted undriven after shown =>
            exact ⟨1, { plane with allVolumes := after }, map, rfl,
              directoryStep_failed serves long unlisted undriven,
              shown, serves.agrees, serves.distinct⟩
        | waits long driven attaches missing =>
            have handled := driven.handled serves.shown
            exact absurd ⟨long, driven.asks, handled, .inl ⟨attaches, missing⟩⟩ finished
        | refused long driven refuses shown =>
            have handled := driven.handled serves.shown
            exact absurd ⟨long, driven.asks, handled, .inr refuses⟩ finished
        | @recorded long driven accepts after shown ids =>
            exact ⟨0, after, _, rfl, directoryStep_driven serves long driven,
              serves.recorded driven shown ids⟩
    | openMinor unit stray =>
        obtain ⟨next, accessed, served⟩ :=
          serves.access (.inl (Eq.refl (VolumeCall.openMinor unit stray)))
        exact ⟨_, next, _, accessed, rfl, served⟩
    | closeMinor unit stray =>
        obtain ⟨next, accessed, served⟩ :=
          serves.access (.inr (Eq.refl (VolumeCall.closeMinor unit stray)))
        exact ⟨_, next, _, accessed, rfl, served⟩

def answersWith (update : Int) : CommandAnswers :=
  ⟨4096, true, some ⟨8192, rfl⟩, fun _ => none, [false, true], fun _ => true, update, true⟩

/-- A packet for volume 7 and the instance `vm`. -/
def packetFor (opcode : Opcode) : Packet := ⟨13, opcode, 7, [118, 109, 0], by decide⟩

def plainSession : List SessionEvent :=
  [.packet (packetFor .attachVolume) (answersWith 0),
    .openMinor 16 fun _ => none, .closeMinor 16 fun _ => none,
    .packet (packetFor .detachVolume) (answersWith 0),
    .packet ⟨10, .attachVolume, 7, [], by decide⟩ (answersWith 0)]

def SessionEvent.For (id : BitVec 64) : SessionEvent → Prop
  | .packet sent _ => sent.Long ∧ extended sent.vol_id = id
  | _ => False

def SessionEvent.Gets (attachReply detachReply : Int) : SessionEvent → Int → Prop
  | .packet sent _, reply => reply = if sent.opcode.attaches then attachReply else detachReply
  | _, _ => True

def LetsGo (id : BitVec 64) (plane : ControlPlane) : SessionEvent → Prop
  | .packet packet answers => packet.Long ∧ extended packet.vol_id = id ∧
      packet.opcode.attaches = false ∧
      (dmsIOCTLHandler answers.capable (packet.call answers) plane.allVolumes).1 = some 0
  | _ => False

/-- Whether a volume is in the list, and whether it is in the table. -/
structure Stands (maxNrVolumes : Nat) (id : BitVec 64) (listed attached : Bool)
    (plane : ControlPlane) : Prop where
  list : id ∈ volumeIDs plane.list ↔ listed = true
  table : ∃ map, Shown maxNrVolumes plane.allVolumes map ∧ (map id).isSome = attached

section Stands

variable {maxNrVolumes : Nat} {id : BitVec 64} {listed attached : Bool} {plane next : ControlPlane}
  {event : SessionEvent} {reply : Int}

/-- A volume in one of the two only stays there when a packet for it comes, and the driver does not
let go of it. -/
theorem Stands.command (stands : Stands maxNrVolumes id listed attached plane)
    (apart : attached = !listed) (command : event.For id)
    (kept : attached = true → ¬ LetsGo id plane event)
    (stepped : plane.step event = some (reply, next)) :
    Stands maxNrVolumes id listed attached next ∧ event.Gets (if listed then 0 else 1) 1 reply := by
  cases event with
  | packet packet answers =>
      obtain ⟨long, rfl⟩ := command
      obtain ⟨map, shown, present⟩ := stands.table
      have served := served_of_step shown stepped
      have undriven : ¬ Driven maxNrVolumes plane map packet answers := by
        intro driven
        obtain ⟨entry, -, before, -⟩ := driven.changed
        cases attaches : packet.opcode.attaches with
        | true =>
            -- the volume is not in the table, so it is in the list, and the driver is not asked
            have unlisted := queryAttachInfo_eq_none.mp (driven.asks attaches).1
            rw [attaches, present, apart] at before
            exact unlisted (stands.list.mpr (by simpa using before))
        | false =>
            rw [attaches, present] at before
            exact kept before ⟨long, rfl, attaches, driven.handled shown⟩
      cases served with
      | short short => exact absurd long short
      | known long attaches there =>
          refine ⟨stands, ?_⟩
          simp [SessionEvent.Gets, attaches, stands.list.mp there]
      | @failed long unlisted undriven after shownAfter =>
          refine ⟨⟨stands.list, map, shownAfter, present⟩, ?_⟩
          rw [SessionEvent.Gets]
          split
          · next attaches =>
              have absent : ¬ listed = true := fun there =>
                unlisted attaches (stands.list.mpr there)
              rw [if_neg absent]
          · rfl
      | refused long driven => exact absurd driven undriven
      | recorded long driven => exact absurd driven undriven
  | openMinor unit stray => exact command.elim
  | closeMinor unit stray => exact command.elim

theorem Stands.other (stands : Stands maxNrVolumes id listed attached plane)
    (other : ¬ event.For id) (stepped : plane.step event = some (reply, next)) :
    Stands maxNrVolumes id listed attached next := by
  obtain ⟨map, shown, present⟩ := stands.table
  have accessed {unit : Nat} {stray : StrayMemory} {call : VolumeCall}
      (access : call = .openMinor unit stray ∨ call = .closeMinor unit stray)
      (taken : plane.access call = some (reply, next)) :
      Stands maxNrVolumes id listed attached next := by
    obtain ⟨same, shownAfter⟩ := shown_of_access shown taken
    exact ⟨same ▸ stands.list, _, shownAfter, (isSome_call_access access id).trans present⟩
  cases event with
  | packet packet answers =>
      have served := served_of_step shown stepped
      cases served with
      | short short => exact stands
      | known long attaches there => exact stands
      | @failed long unlisted undriven after shownAfter =>
          exact ⟨stands.list, map, shownAfter, present⟩
      | @refused long driven refuses after shownAfter =>
          obtain ⟨entry, -, -, changed⟩ := driven.changed
          have different : id ≠ extended packet.vol_id := fun same => other ⟨long, same.symm⟩
          rw [changed] at shownAfter
          refine ⟨stands.list, _, shownAfter, ?_⟩
          exact (congrArg Option.isSome (Function.update_of_ne different _ _)).trans present
      | @recorded long driven accepts after shownAfter ids =>
          obtain ⟨entry, -, -, changed⟩ := driven.changed
          have different : id ≠ extended packet.vol_id := fun same => other ⟨long, same.symm⟩
          rw [changed] at shownAfter
          refine ⟨?_, _, shownAfter,
            (congrArg Option.isSome (Function.update_of_ne different _ _)).trans present⟩
          rw [ids, ← stands.list, Packet.recordedIn]
          split
          · simp [different]
          · exact List.mem_erase_of_ne different
  | openMinor unit stray =>
      exact accessed (.inl (Eq.refl (VolumeCall.openMinor unit stray))) stepped
  | closeMinor unit stray =>
      exact accessed (.inr (Eq.refl (VolumeCall.closeMinor unit stray))) stepped

/-- A volume in one of the two only stays there, and its commands get the replies of that. -/
theorem Stands.run {events : List SessionEvent} {replies : List Int}
    (stands : Stands maxNrVolumes id listed attached plane) (apart : attached = !listed)
    (kept : attached = true → Safe (LetsGo id) ControlPlane.step plane events)
    (ran : trace ControlPlane.step plane events = some (replies, next)) :
    Stands maxNrVolumes id listed attached next ∧
      List.Forall₂ (fun event reply => event.For id → event.Gets (if listed then 0 else 1) 1 reply)
        events replies := by
  induction events generalizing plane replies with
  | nil =>
      cases ran
      exact ⟨stands, .nil⟩
  | cons event rest inductionHypothesis =>
      rw [trace] at ran
      obtain ⟨⟨reply, between⟩, stepped, ranRest⟩ := Option.bind_eq_some_iff.mp ran
      obtain ⟨⟨later, last⟩, ended, same⟩ := Option.map_eq_some_iff.mp ranRest
      cases same
      have keptRest (there : attached = true) := (kept there).2 (reply, between) stepped
      by_cases command : event.For id
      · obtain ⟨still, gets⟩ := stands.command apart command (fun there => (kept there).1) stepped
        obtain ⟨final, gotten⟩ := inductionHypothesis still keptRest ended
        exact ⟨final, .cons (fun _ => gets) gotten⟩
      · have still := stands.other command stepped
        obtain ⟨final, gotten⟩ := inductionHypothesis still keptRest ended
        exact ⟨final, .cons (fun here => absurd here command) gotten⟩

end Stands

def HasVolume (allVolumes : List Slot) (id : BitVec 64) : Prop :=
  ∃ addr volume, Slot.attached addr volume ∈ allVolumes ∧ volume.volumeID = id

section Refused

variable {maxNrVolumes : Nat} {before : List SessionEvent} {earlier : List Int}
  {plane : ControlPlane} {packet : Packet} {answers : CommandAnswers}

theorem hasVolume_iff {allVolumes : List Slot} {map : VolumeMap}
    (shown : Shown maxNrVolumes allVolumes map) (id : BitVec 64) :
    HasVolume allVolumes id ↔ (map id).isSome = true := by
  constructor
  · rintro ⟨addr, volume, member, rfl⟩
    obtain ⟨i, here⟩ := List.mem_iff_getElem?.mp member
    rcases shown.1.slot i _ here with empty | ⟨id, entry, mapped, -, shows⟩
    · cases empty
    · obtain ⟨addr, volumeState, -, -, same⟩ := shows
      cases same
      exact mapped ▸ rfl
  · intro present
    obtain ⟨entry, mapped⟩ := Option.isSome_iff_exists.mp present
    obtain ⟨-, slot, here, addr, volumeState, -, -, rfl⟩ := shown.1.entry _ _ mapped
    exact ⟨addr, _, List.mem_of_getElem? here, rfl⟩

theorem shown_of_trace
    (reached : trace ControlPlane.step (.start maxNrVolumes) before = some (earlier, plane)) :
    ∃ map, Shown maxNrVolumes plane.allVolumes map := by
  have preserved : ∀ (plane : ControlPlane) event reply next,
      (∃ map, Shown maxNrVolumes plane.allVolumes map) → plane.step event = some (reply, next) →
        ∃ map, Shown maxNrVolumes next.allVolumes map := by
    rintro plane event reply next ⟨map, shown⟩ stepped
    cases event with
    | packet packet answers => exact (served_of_step shown stepped).shown shown
    | openMinor unit stray => exact ⟨_, (shown_of_access shown stepped).2⟩
    | closeMinor unit stray => exact ⟨_, (shown_of_access shown stepped).2⟩
  exact trace_invariant preserved ⟨_, shown_init maxNrVolumes⟩ reached

theorem driven_of_handled {map : VolumeMap} (shown : Shown maxNrVolumes plane.allVolumes map)
    (asks : plane.AsksDriver packet answers)
    (handled : (dmsIOCTLHandler answers.capable (packet.call answers) plane.allVolumes).1 = some 0) :
    Driven maxNrVolumes plane map packet answers := by
  obtain ⟨after, same, -⟩ := dmsIOCTLHandler_shown shown answers.capable (packet.call answers)
  rw [same] at handled
  exact ⟨asks, Option.some.inj handled⟩

theorem refused_stands {map : VolumeMap} (shown : Shown maxNrVolumes plane.allVolumes map)
    (long : packet.Long) (driven : Driven maxNrVolumes plane map packet answers)
    (appears : packet.opcode.attaches = true → true ∈ answers.deviceFile)
    (refuses : RSRefuses packet answers) {listed : Bool}
    (list : extended packet.vol_id ∈ volumeIDs plane.list ↔ listed = true) :
    ∃ next, plane.step (.packet packet answers) = some (1, next) ∧
      Stands maxNrVolumes (extended packet.vol_id) listed packet.opcode.attaches next := by
  have served := processThread_served shown packet answers
  change ∃ next, plane.processThread packet answers = some (1, next) ∧ _
  generalize plane.processThread packet answers = result at served
  cases served with
  | short short => exact absurd long short
  | known long attaches there =>
      exact absurd there (queryAttachInfo_eq_none.mp (driven.asks attaches).1)
  | failed long unlisted undriven => exact absurd driven undriven
  | waits long driven attaches missing => exact absurd (appears attaches) missing
  | recorded long driven accepts => exact absurd refuses accepts
  | @refused long driven refuses after shownAfter =>
      obtain ⟨entry, present, -, changed⟩ := driven.changed
      rw [changed] at shownAfter
      refine ⟨_, rfl, list, _, shownAfter, ?_⟩
      dsimp only
      rw [Function.update_self, present]

end Refused

theorem attach_ends : (trace ControlPlane.step (.start 2)
    [.packet (packetFor .attachVolume) (answersWith 0)]).isSome := by decide

def attachedPlane : ControlPlane :=
  ((trace ControlPlane.step (.start 2)
    [.packet (packetFor .attachVolume) (answersWith 0)]).get attach_ends).2

end DmsBlkdev.UserDaemon
