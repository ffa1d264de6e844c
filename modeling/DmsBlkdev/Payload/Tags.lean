import DmsBlkdev.Core.FailedSend
import DmsBlkdev.Core.Spared
import DmsBlkdev.Lib.Run

/-!
# Where the datanode tags are

A datanode tag is linked in `dn_tags` until a reply of its datanode takes it
out.  The function that does so returns a code in the place of the tag, so the
committer, which would put the tag back or release it, is not told which one.
The sender leaves the tags linked while it walks over them, and calls the
committer for a request that it could not send.
-/

namespace DmsBlkdev

open Lib.Run

/-- What happens to the tags of a metadata object.  The sender starts its walk, or sends the request
of the next tag under a request id, which succeeds or fails; a handler takes the tag of a request
id off the list, or is back from the function that took a tag and calls the committer. -/
inductive TagEvent where
  | reset
  | send (dnrid : Nat) (sent : Bool)
  | get (dnrid : Nat)
  | reply (ddt : DatanodeTag) (ack : Int)
  deriving DecidableEq, Repr

/-- The state of the metadata object, with the tags in the inner `ddt` of the handlers that are in
`Get_Datanode_Tag_from_Datanode_Tags`. -/
structure TagState where
  core : CoreState
  held : List DatanodeTag

/-- `Check_DN_Tag_by_ID`, which is handed the id as a pointer; for an id that is no legal pointer the
source returns no value, taken here for false. -/
def checkDNTagByID (dnrid : Nat) (ddt : DatanodeTag) : Bool :=
  dnrid ≠ 0 ∧ dnrid < 2 ^ 64 - 4095 ∧ ddt.dnrid = dnrid

namespace CoreState

/-- `s` with other datanode tags. -/
def withDnTags (s : CoreState) (dnTags : DList DatanodeTag) : CoreState :=
  { s with dmeta := { s.dmeta with dnTags := dnTags } }

/-- `ddt->dnrid = header->serviceID`. -/
def setDnrid (ddt : DatanodeTag) (dnrid : Nat) (dnTags : DList DatanodeTag) : DList DatanodeTag :=
  dnTags.modifyUserData fun other =>
    if other.addr = ddt.addr then { other with dnrid := dnrid } else other

/-- The payload of a write does not get past the first print of `__Xmit_Payload_Tag`. -/
def stopsAtPrint (dbg : BitVec 32) (s : CoreState) (ddt : DatanodeTag) : Bool :=
  paloDbg dbg && !ddt.payloadTags.isEmpty && (s.dmeta.pdio.bind s.request.dios).any fun dio =>
    dio.op ≠ .read ∧ dio.lbList.isSome

/-- One round of `Make_and_Send_Datanode_Requests`; none where its loop ends or a print oopses. -/
def sendNext (dbg : BitVec 32) (dnrid : Nat) (sent : Bool) (s : CoreState) : Option CoreState :=
  match s.dmeta.dnTags.getNextUserData with
  | some (some ddt, dnTags) =>
      let s := s.withDnTags (setDnrid ddt dnrid dnTags)
      if sent then if s.stopsAtPrint dbg ddt then none else some s
      else s.sendFailed { ddt with dnrid := dnrid }
  | _ => none

/-- `__VolumeIO_Commiter` for a pointer that may not be legal. -/
def volumeIOCommiterData (s : CoreState) (data : Option DatanodeTag) (ack : Int) :
    Option CoreState :=
  match data with
  | none => some s
  | some ddt => volumeIOCommiter .metadata s ddt ack

end CoreState

namespace TagState

/-- The removal in `Get_Datanode_Tag_from_Datanode_Tags`; without a tag of that id nothing
happens. -/
def getDatanodeTag (dnrid : Nat) (s : TagState) : TagState :=
  match s.core.dmeta.dnTags.removeByCheckFunc (checkDNTagByID dnrid) with
  | (none, _) => s
  | (some ddt, dnTags) => ⟨s.core.withDnTags dnTags, ddt :: s.held⟩

/-- What `Get_Datanode_Tag_from_Datanode_Tags` returns is `DMS_OK` or `-DMS_FAIL`, and neither is a
legal pointer. -/
def returnedTag : Option DatanodeTag := none

def step (dbg : BitVec 32) (s : TagState) : TagEvent → Option TagState
  | .reset => some ⟨s.core.withDnTags s.core.dmeta.dnTags.resetIterator, s.held⟩
  | .send dnrid sent => (s.core.sendNext dbg dnrid sent).map fun core => ⟨core, s.held⟩
  | .get dnrid => some (s.getDatanodeTag dnrid)
  | .reply ddt ack =>
      if ddt ∈ s.held then
        (s.core.volumeIOCommiterData returnedTag ack).map fun core => ⟨core, s.held.erase ddt⟩
      else none

/-- The addresses of the tags, once for each place that a tag is in. -/
def places (s : TagState) : List Nat :=
  (s.core.dmeta.dnTags.userData ++ s.held ++ s.core.released).map DatanodeTag.addr

/-- Every tag is in exactly one place: linked once, held by one handler, or released. -/
def Owned (created : List Nat) (s : TagState) : Prop :=
  ∀ addr ∈ created, s.places.count addr = 1

/-- The tags have been created and linked, and nothing was sent yet. -/
structure Created (s : TagState) (created : List Nat) : Prop where
  linked : s.core.dmeta.dnTags.userData.map DatanodeTag.addr = created
  distinct : created.Nodup
  held : s.held = []
  released : s.core.released = []

end TagState

namespace CoreState

section Keeps

variable {s s' : CoreState}

@[simp] theorem withDnTags_dnTags (s : CoreState) (dnTags : DList DatanodeTag) :
    (s.withDnTags dnTags).dmeta.dnTags = dnTags := rfl

@[simp] theorem withDnTags_released (s : CoreState) (dnTags : DList DatanodeTag) :
    (s.withDnTags dnTags).released = s.released := rfl

theorem setDnrid_addrs (ddt : DatanodeTag) (dnrid : Nat) (dnTags : DList DatanodeTag) :
    (setDnrid ddt dnrid dnTags).userData.map DatanodeTag.addr =
      dnTags.userData.map DatanodeTag.addr := by
  rw [setDnrid, DList.modifyUserData_userData, List.map_map]
  apply List.map_congr_left
  intro other _
  simp only [Function.comp_apply]
  split <;> rfl

/-- A round of the sender leaves the tags linked, and releases the tag of a request that it could
not send. -/
theorem sendNext_tags {dbg : BitVec 32} {dnrid : Nat} {sent : Bool}
    (run : sendNext dbg dnrid sent s = some s') :
    s'.dmeta.dnTags.userData.map DatanodeTag.addr = s.dmeta.dnTags.userData.map DatanodeTag.addr ∧
      ((sent = true ∧ s'.released = s.released) ∨
        (sent = false ∧ ∃ ddt ∈ s.dmeta.dnTags.userData, ∃ failed : DatanodeTag,
          failed.addr = ddt.addr ∧ s'.released = failed :: s.released)) := by
  unfold sendNext at run
  split at run
  · next ddt dnTags moved =>
      have linked := DList.getNextUserData_userData moved
      cases sent with
      | true =>
          rw [if_pos rfl] at run
          split at run
          · cases run
          · cases run
            exact ⟨by rw [withDnTags_dnTags, setDnrid_addrs, linked], .inl ⟨rfl, rfl⟩⟩
      | false =>
          obtain ⟨failed, called, -, -, -, dnTags', released⟩ :=
            sendFailed_eq (s.withDnTags (setDnrid ddt dnrid dnTags)) { ddt with dnrid := dnrid }
          simp only [Bool.false_eq_true, if_false, called, Option.some.injEq] at run
          subst run
          refine ⟨by rw [dnTags', withDnTags_dnTags, setDnrid_addrs, linked],
            .inr ⟨rfl, ddt, DList.getNextUserData_mem moved, { ddt with dnrid := dnrid }, rfl, released⟩⟩
  · cases run

end Keeps

end CoreState

namespace TagState

section Step

variable {dbg : BitVec 32} {s s' : TagState}

def FailedSend (event : TagEvent) : Prop := ∃ dnrid, event = .send dnrid false

/-- A handler that has taken a tag is back from the function that took it. -/
def ReturnsTag (event : TagEvent) : Prop := ∃ ddt ack, event = .reply ddt ack

theorem getDatanodeTag_places (dnrid : Nat) (s : TagState) :
    (s.getDatanodeTag dnrid).places.Perm s.places := by
  unfold getDatanodeTag
  cases removed : s.core.dmeta.dnTags.removeByCheckFunc (checkDNTagByID dnrid) with
  | mk found dnTags =>
      cases found with
      | none => exact .refl _
      | some ddt =>
          obtain ⟨-, before, after, split, rest⟩ :=
            DList.removeByCheckFunc_some (congrArg Prod.fst removed)
          rw [removed] at rest
          apply List.Perm.map
          simp only [CoreState.withDnTags_dnTags, CoreState.withDnTags_released, rest, split]
          simp only [List.append_assoc, List.cons_append]
          exact List.perm_middle.symm.append_left before |>.symm

/-- A step moves a tag to another place; a failed send puts a linked tag in a second one, and a
handler that is back from taking a tag leaves it in none. -/
theorem step_places {event : TagEvent} (taken : s.step dbg event = some s') :
    (¬ FailedSend event ∧ ¬ ReturnsTag event ∧ s'.places.Perm s.places) ∨
      (FailedSend event ∧ ∃ ddt ∈ s.core.dmeta.dnTags.userData,
        s'.places.Perm (ddt.addr :: s.places)) ∨
      (ReturnsTag event ∧ ∃ ddt ∈ s.held, s.places.Perm (ddt.addr :: s'.places)) := by
  cases event with
  | reset =>
      cases taken
      exact .inl ⟨nofun, nofun, .refl _⟩
  | send dnrid sent =>
      obtain ⟨core, round, rfl⟩ := Option.map_eq_some_iff.mp taken
      obtain ⟨linked, ⟨rfl, released⟩ | ⟨rfl, ddt, member, failed, same, released⟩⟩ :=
        CoreState.sendNext_tags round
      · refine .inl ⟨nofun, nofun, ?_⟩
        simp only [places, List.map_append, linked, released]
        exact .refl _
      · refine .inr (.inl ⟨⟨dnrid, rfl⟩, ddt, member, ?_⟩)
        simp only [places, List.map_append, List.map_cons, linked, released, same]
        exact List.perm_middle
  | get dnrid =>
      cases taken
      exact .inl ⟨nofun, nofun, getDatanodeTag_places dnrid s⟩
  | reply ddt ack =>
      refine .inr (.inr ⟨⟨ddt, ack, rfl⟩, ?_⟩)
      simp only [step] at taken
      split at taken
      · next member =>
          cases taken
          refine ⟨ddt, member, ?_⟩
          have lost := (List.perm_cons_erase member).map DatanodeTag.addr
          simp only [places, List.map_append]
          exact ((lost.append_left _).append_right _).trans (List.perm_middle.append_right _)
      · cases taken

end Step

section Run

variable {dbg : BitVec 32} {s final : TagState} {created : List Nat} {events : List TagEvent}

theorem Created.places_perm (start : Created s created) : s.places.Perm created := by
  simp [places, start.linked, start.held, start.released]

theorem owned_of_perm (distinct : created.Nodup) (perm : s.places.Perm created) :
    Owned created s := by
  intro addr member
  rw [perm.count_eq]
  exact List.count_eq_one_of_mem distinct member

theorem run_places_subset (start : Created s created)
    (ran : run (step dbg) s events = some final) : final.places ⊆ created := by
  let Within : TagState → Prop := fun s => s.places ⊆ created
  have all : ∀ event ∈ events, True := fun _ _ => trivial
  refine @run_invariant _ _ (step dbg) _ Within ?_ _ _ _ start.places_perm.subset
    (guarded_of_forall all s) ran
  intro before event after within _ taken
  rcases step_places taken with ⟨-, -, moved⟩ | ⟨-, ddt, linked, doubled⟩ | ⟨-, ddt, -, lost⟩
  · exact fun addr member => within (moved.subset member)
  · intro addr member
    rcases List.mem_cons.mp (doubled.subset member) with rfl | early
    · exact within (List.mem_map_of_mem (by simp [linked]))
    · exact within early
  · exact fun addr member => within (lost.symm.subset (List.mem_cons_of_mem _ member))

/-- A failed send leaves its tag in two places at once. -/
theorem not_owned_of_failedSend {before after : TagState} {event : TagEvent}
    (within : before.places ⊆ created) (taken : before.step dbg event = some after)
    (failed : FailedSend event) : ¬ Owned created after := by
  intro owned
  rcases step_places taken with ⟨other, -⟩ | ⟨-, ddt, linked, doubled⟩ | ⟨⟨ddt, ack, rfl⟩, -⟩
  · exact other failed
  · have inPlace : ddt.addr ∈ before.places := List.mem_map_of_mem (by simp [linked])
    have once := owned ddt.addr (within inPlace)
    rw [doubled.count_eq, List.count_cons_self] at once
    have again := List.count_pos_iff.mpr inPlace
    omega
  · obtain ⟨dnrid, other⟩ := failed
    cases other

/-- A tag that was in one place is in none when the handler is back. -/
theorem not_owned_of_returnsTag {before after : TagState} {event : TagEvent}
    (within : before.places ⊆ created) (taken : before.step dbg event = some after)
    (returns : ReturnsTag event) (owned : Owned created before) : ¬ Owned created after := by
  intro ownedAfter
  rcases step_places taken with ⟨-, other, -⟩ | ⟨⟨dnrid, rfl⟩, -⟩ | ⟨-, ddt, held, lost⟩
  · exact other returns
  · obtain ⟨ddt, ack, other⟩ := returns
    cases other
  · have inPlace : ddt.addr ∈ before.places := List.mem_map_of_mem (by simp [held])
    have once := owned ddt.addr (within inPlace)
    rw [lost.count_eq, List.count_cons_self, ownedAfter ddt.addr (within inPlace)] at once
    omega

/-- In a run every tag is in exactly one place all along exactly when no send of the run fails and no
handler that has taken a tag is back from the function that took it. -/
theorem owned_iff (dbg : BitVec 32) (start : Created s created)
    (ran : run (step dbg) s events = some final) :
    Always (Owned created) (step dbg) s events ↔
      ∀ event ∈ events, ¬ FailedSend event ∧ ¬ ReturnsTag event := by
  constructor
  · intro owned event member
    obtain ⟨earlier, later, rfl⟩ := List.append_of_mem member
    have before := owned earlier (event :: later)
    rw [List.append_cons] at ran owned
    obtain ⟨after, first, -⟩ := run_append_some ran
    obtain ⟨state, early, last⟩ := run_append_some first
    have taken : state.step dbg event = some after := by simpa [run] using last
    have within := run_places_subset start early
    have ownedAfter := owned _ later after rfl first
    constructor
    · exact fun failed => not_owned_of_failedSend within taken failed ownedAfter
    · exact fun returns =>
        not_owned_of_returnsTag within taken returns (before state rfl early) ownedAfter
  · intro met
    let Kept : TagState → Prop := fun s => s.places.Perm created
    have kept : Always Kept (step dbg) s events := by
      refine always_of_preserved ?_ start.places_perm (guarded_of_forall met s)
      intro before event after perm allowed taken
      rcases step_places taken with ⟨-, -, moved⟩ | ⟨failed, -⟩ | ⟨returns, -⟩
      · exact moved.trans perm
      · exact absurd failed allowed.1
      · exact absurd returns allowed.2
    intro earlier later state split early
    exact owned_of_perm start.distinct (kept earlier later state split early)

def oneBlockRange (slbid : BitVec 64) : LocatedRequest :=
  { LocatedRequest.zero with
    slbid := slbid
    nrLBIDs := 1
    nrDnLocs := 1
    dnLocs := [⟨0, 0, 0, [], 0⟩] }

def twoRangesRead : TagState where
  core := {
    dmeta := {
      op := .read
      lrs := [oneBlockRange 5, oneBlockRange 6]
      dnTags := (DList.init.insertTail ⟨0, 0, [⟨0, 0⟩]⟩).insertTail ⟨1, 0, [⟨1, 0⟩]⟩
      commitID := 0
      pdio := some 0
      nrWaitingLRs := 2 }
    request := {
      dios := fun addr => if addr = 0 then
        some ⟨0, .read, 5, 2, some ⟨0, [⟨0, 5, 0, 0⟩, ⟨1, 6, 0, 1⟩]⟩, 1⟩ else none
      diolist := [0]
      result := 1
      log := [] }
    released := []
    trace := [] }
  held := []

theorem twoRangesRead_created : Created twoRangesRead [0, 1] := by
  constructor <;> decide

def firstTaken : List TagEvent := [.reset, .send 7 true, .send 8 true, .get 7]

theorem owned_iff_firstTaken :
    Always (Owned [0, 1]) (step dmsDbgFlag) twoRangesRead firstTaken ↔
      ∀ event ∈ firstTaken, ¬ FailedSend event ∧ ¬ ReturnsTag event :=
  @owned_iff twoRangesRead _ [0, 1] firstTaken dmsDbgFlag twoRangesRead_created rfl

/-- A request that cannot be sent leaves its tag linked and released, and a reply leaves it
nowhere. -/
theorem notOwned_twoRangesRead :
    Created twoRangesRead [0, 1] ∧
      (∃ final, run (step dmsDbgFlag) twoRangesRead [.reset, .send 7 false] = some final ∧
        ¬ Owned [0, 1] final) ∧
      ∃ final, run (step dmsDbgFlag) twoRangesRead
          (firstTaken ++ [.reply ⟨0, 7, [⟨0, 0⟩]⟩ readAck]) = some final ∧ ¬ Owned [0, 1] final := by
  refine ⟨twoRangesRead_created, ⟨_, rfl, fun owned => ?_⟩, ⟨_, rfl, fun owned => ?_⟩⟩
  · exact absurd (owned 0 (by decide)) (by decide)
  · exact absurd (owned 0 (by decide)) (by decide)

end Run

end TagState

end DmsBlkdev
