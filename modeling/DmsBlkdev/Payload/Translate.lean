import DmsBlkdev.LogicalBlock
import DmsBlkdev.Namenode.Parse

/-!
# From located requests to datanode tags

The locations of a write are to be grouped by datanode: one tag for each
address, with a payload tag for each located request that has a replica there.
The code that builds the groups releases every tag that it creates, and no
payload tag gets through its initialisation.
-/

namespace DmsBlkdev

/-- `struct SSocket`. -/
structure SSocket where
  ip : BitVec 32
  port : BitVec 16
  deriving DecidableEq, Repr

def DatanodeLocation.ssk (dnLoc : DatanodeLocation) : SSocket := ⟨dnLoc.ip, dnLoc.port⟩

/-- `struct DN_Service_Request`; the arrays hold what is stored so far. -/
structure DNServiceRequest where
  nrHBIDs : BitVec 16
  nrTriplets : BitVec 16
  hbids : List (BitVec 64)
  triplets : List (BitVec 64)
  deriving DecidableEq, Repr

/-- A datanode tag with its address and the request that is put together in it. -/
structure RequestTag extends DatanodeTag where
  ssk : SSocket
  dnSreq : DNServiceRequest
  deriving DecidableEq, Repr

/-- A look at memory that was released, a copy beyond an array, or the use of a null pointer. -/
inductive TagFault where
  | useAfterFree
  | overflow
  | oops
  deriving DecidableEq, Repr

/-- What the translation works on: the tags linked, the addresses released, the number of
allocations attempted, and the table of located requests. -/
structure Translation where
  dnTags : DList RequestTag
  released : List Nat
  attempts : Nat
  lrs : List LocatedRequest

/-- `Check_DN_Tag_by_SSocket`: the tag is for that address, and not sent yet. -/
def checkDNTagBySSocket (ddt : RequestTag) (dnLoc : DatanodeLocation) : Bool :=
  ddt.ssk = dnLoc.ssk && ddt.dnrid == 0

/-- `Get_User_Data_By_Check_Func` for the tag of a location. -/
def getTagBySSocket (released : List Nat) (dnLoc : DatanodeLocation) :
    List RequestTag → Except TagFault (Option RequestTag)
  | [] => .ok none
  | ddt :: rest =>
      if ddt.addr ∈ released then .error .useAfterFree
      else if checkDNTagBySSocket ddt dnLoc then .ok (some ddt)
      else getTagBySSocket released dnLoc rest

/-- `Init_DMS_Payload_Tag`: the fields are set, and the return code stays that of a failure. -/
def initDMSPayloadTag (lr dnIndex : Nat) : PayloadTag × Int := (⟨lr, dnIndex⟩, dmsFail)

/-- `Create_DMS_Payload_Tag`. -/
def createDMSPayloadTag (granted : Bool) (lr dnIndex : Nat) : Option PayloadTag :=
  if granted then
    let (dpt, retcode) := initDMSPayloadTag lr dnIndex
    if retcode < 0 then none else some dpt
  else none

/-- `Create_DMS_Datanode_Tag`. -/
def createDMSDatanodeTag (granted : Bool) (addr : Nat) (ssk : SSocket) : Option RequestTag :=
  if granted then some ⟨⟨addr, 0, []⟩, ssk, ⟨0, 0, [], []⟩⟩ else none

section Translate

variable (grants : Allocations) (place : Nat → Nat)

/-- `__Get_Datanode_Tag`: after the insertion a new tag is released, whether it was linked or
not. -/
def getDatanodeTag (s : Translation) (dnLoc : DatanodeLocation) :
    Except TagFault (Option RequestTag × Translation) := do
  match ← getTagBySSocket s.released dnLoc s.dnTags.userData with
  | some ddt => return (some ddt, s)
  | none =>
      match createDMSDatanodeTag (grants s.attempts) (place s.attempts) dnLoc.ssk with
      | none => return (none, { s with attempts := s.attempts + 1 })
      | some ddt =>
          let dnTags := s.dnTags.insertTail ddt
          return (none, ⟨dnTags, ddt.addr :: s.released, s.attempts + 1, s.lrs⟩)

/-- `memcpy` behind what an array of a request holds. -/
def copyBehind (stored source : List (BitVec 64)) (count : BitVec 16) :
    Except TagFault (List (BitVec 64)) :=
  if count.toInt < 0 ∨ (arrayLength : Int) < stored.length + count.toInt then .error .overflow
  else .ok (stored ++ source.take count.toInt.toNat)

/-- `Integrate_to_DN_Service_Request`, with the located request that the payload tag points to. -/
def integrateToDNServiceRequest (dnSreq : DNServiceRequest) (lr : Option LocatedRequest)
    (dnIndex : Nat) : Except TagFault DNServiceRequest :=
  match lr.bind fun lr => (lr.dnLocs[dnIndex]?).map (lr, ·) with
  | none => .error .oops
  | some (lr, dnLoc) => do
      let hbids ← copyBehind dnSreq.hbids lr.hbids lr.nrHBIDs
      let triplets ← copyBehind dnSreq.triplets dnLoc.triplets dnLoc.nrTriplets
      return ⟨dnSreq.nrHBIDs + lr.nrHBIDs, dnSreq.nrTriplets + dnLoc.nrTriplets, hbids, triplets⟩

def Translation.setTag (s : Translation) (addr : Nat) (change : RequestTag → RequestTag) :
    Translation :=
  { s with dnTags := s.dnTags.modifyUserData fun ddt => if ddt.addr = addr then change ddt else ddt }

/-- `Add_to_Datanode_Tags`.  The tag itself is passed where a payload tag is expected, so its
request id is taken for the located request; that is 0 in a tag that was found. -/
def addToDatanodeTags (s : Translation) (lr dnIndex : Nat) (dnLoc : DatanodeLocation) :
    Except TagFault (Int × Translation) := do
  let (ddt, s) ← getDatanodeTag grants place s dnLoc
  match ddt with
  | none => return (dmsFail, s)
  | some ddt =>
      let dpt := createDMSPayloadTag (grants s.attempts) lr dnIndex
      let s := { s with attempts := s.attempts + 1 }
      let s := s.setTag ddt.addr fun ddt =>
        { ddt with payloadTags := ddt.payloadTags ++ dpt.toList }
      let dnSreq ← integrateToDNServiceRequest ddt.dnSreq none dnIndex
      return (if dpt.isSome then dmsOK else dmsFail, s.setTag ddt.addr fun ddt => { ddt with dnSreq })

variable (vIOCommiter : PayloadTag → Translation → Translation)

/-- `__Commit_Error_to_vIO_Commiter`. -/
def commitErrorToVIOCommiter (s : Translation) (lr dnIndex : Nat) : Translation :=
  let dpt := createDMSPayloadTag (grants s.attempts) lr dnIndex
  let s := { s with attempts := s.attempts + 1 }
  match dpt with
  | none => s
  | some dpt => vIOCommiter dpt s

/-- The loop over the locations of a located request, `dnIndex` being the next one. -/
def translateLocations (lr : Nat) : Translation → Nat → List DatanodeLocation →
    Except TagFault Translation
  | s, _, [] => .ok s
  | s, dnIndex, dnLoc :: rest => do
      let (retcode, s) ← addToDatanodeTags grants place s lr dnIndex dnLoc
      let s := if retcode < 0 then commitErrorToVIOCommiter grants vIOCommiter s lr dnIndex else s
      translateLocations lr s (dnIndex + 1) rest

/-- The loop of `Translate_Write_Located_Requests_to_DN_Tags`, `i` being the next located request. -/
def translateLocatedRequests (blocks : List LBMD) : Translation → Nat → Option Nat →
    List LocatedRequest → Except TagFault Translation
  | s, _, _, [] => .ok s
  | s, i, pdata, lr :: rest => do
      let s ← translateLocations grants place vIOCommiter i s 0
        (lr.dnLocs.take lr.nrDnLocs.toInt.toNat)
      match getLBMDFromNodeByLBID blocks pdata lr.slbid.toNat with
      | none => .error .useAfterFree
      | some found =>
          let pdata := found.map LBMD.addr
          let s := { s with lrs := s.lrs.modify i fun lr => { lr with privateData := pdata } }
          translateLocatedRequests blocks s (i + 1) pdata rest

/-- `Translate_Write_Located_Requests_to_DN_Tags`; it returns success whatever became of the
tags. -/
def translateWriteLocatedRequestsToDNTags (blocks : List LBMD) (s : Translation) :
    Except TagFault (Int × Translation) := do
  let s ← translateLocatedRequests grants place vIOCommiter blocks s 0 none s.lrs
  return (dmsOK, s)

end Translate

def replicaPairs (lrs : List LocatedRequest) : List (PayloadTag × DatanodeLocation) :=
  lrs.zipIdx.flatMap fun (lr, i) => lr.dnLocs.zipIdx.map fun (dnLoc, j) => (⟨i, j⟩, dnLoc)

def pairsAt (lrs : List LocatedRequest) (ssk : SSocket) : List (PayloadTag × DatanodeLocation) :=
  (replicaPairs lrs).filter fun pair => pair.2.ssk = ssk

def hbidsAt (lrs : List LocatedRequest) (ssk : SSocket) : List (BitVec 64) :=
  (pairsAt lrs ssk).flatMap fun pair => (lrs[pair.1.lr]?.map LocatedRequest.hbids).getD []

def tripletsAt (lrs : List LocatedRequest) (ssk : SSocket) : List (BitVec 64) :=
  (pairsAt lrs ssk).flatMap fun pair => pair.2.triplets

structure Partitioned (lrs : List LocatedRequest) (tags : List RequestTag) : Prop where
  distinct : (tags.map RequestTag.ssk).Nodup
  addresses : ∀ ssk, ssk ∈ tags.map RequestTag.ssk ↔ pairsAt lrs ssk ≠ []
  payloadTags : ∀ ddt ∈ tags, ddt.payloadTags = (pairsAt lrs ddt.ssk).map Prod.fst
  hbids : ∀ ddt ∈ tags, ddt.dnSreq.hbids = hbidsAt lrs ddt.ssk
  triplets : ∀ ddt ∈ tags, ddt.dnSreq.triplets = tripletsAt lrs ddt.ssk
  nrHBIDs : ∀ ddt ∈ tags, ddt.dnSreq.nrHBIDs.toInt = ddt.dnSreq.hbids.length
  nrTriplets : ∀ ddt ∈ tags, ddt.dnSreq.nrTriplets.toInt = ddt.dnSreq.triplets.length

/-- The tables are as long as their counts, no located request names a datanode twice, and what
goes to one datanode fits its arrays. -/
structure Groupable (lrs : List LocatedRequest) : Prop where
  counts : ∀ lr ∈ lrs, lr.nrDnLocs.toInt = lr.dnLocs.length ∧ lr.nrHBIDs.toInt = lr.hbids.length ∧
    ∀ dnLoc ∈ lr.dnLocs, dnLoc.nrTriplets.toInt = dnLoc.triplets.length
  distinct : ∀ lr ∈ lrs, (lr.dnLocs.map DatanodeLocation.ssk).Nodup
  room : ∀ ssk, (hbidsAt lrs ssk).length ≤ arrayLength ∧ (tripletsAt lrs ssk).length ≤ arrayLength

section Bare

variable {grants : Allocations} {place : Nat → Nat}
  {vIOCommiter : PayloadTag → Translation → Translation} {s s' : Translation}

def Bare (s : Translation) : Prop := ∀ ddt ∈ s.dnTags.userData, ddt.payloadTags = []

theorem createDMSPayloadTag_eq_none (granted : Bool) (lr dnIndex : Nat) :
    createDMSPayloadTag granted lr dnIndex = none := by
  cases granted <;> rfl

theorem commitErrorToVIOCommiter_dnTags (lr dnIndex : Nat) :
    (commitErrorToVIOCommiter grants vIOCommiter s lr dnIndex).dnTags = s.dnTags := by
  rw [commitErrorToVIOCommiter, createDMSPayloadTag_eq_none]

theorem getDatanodeTag_bare {dnLoc : DatanodeLocation} {found : Option RequestTag} (bare : Bare s)
    (got : getDatanodeTag grants place s dnLoc = .ok (found, s')) : Bare s' := by
  rw [getDatanodeTag, bind_eq_ok] at got
  obtain ⟨linked, -, rest⟩ := got
  cases linked with
  | some ddt =>
      cases rest
      exact bare
  | none =>
      cases granted : grants s.attempts with
      | false =>
          simp only [granted, createDMSDatanodeTag] at rest
          cases rest
          exact bare
      | true =>
          simp only [granted, createDMSDatanodeTag, if_true] at rest
          cases rest
          intro ddt member
          rw [DList.insertTail_userData] at member
          rcases List.mem_append.mp member with old | new
          · exact bare ddt old
          · rw [List.mem_singleton.mp new]

/-- A tag that was found makes the call fail; the other calls add no payload tag. -/
theorem addToDatanodeTags_bare {lr dnIndex : Nat} {dnLoc : DatanodeLocation} {retcode : Int}
    (bare : Bare s)
    (added : addToDatanodeTags grants place s lr dnIndex dnLoc = .ok (retcode, s')) : Bare s' := by
  rw [addToDatanodeTags, bind_eq_ok] at added
  obtain ⟨⟨found, between⟩, got, rest⟩ := added
  cases found with
  | none =>
      cases rest
      exact getDatanodeTag_bare bare got
  | some ddt =>
      obtain ⟨dnSreq, oops, -⟩ := bind_eq_ok.mp rest
      cases oops

theorem translateLocations_bare {lr dnIndex : Nat} {dnLocs : List DatanodeLocation} (bare : Bare s)
    (done : translateLocations grants place vIOCommiter lr s dnIndex dnLocs = .ok s') :
    Bare s' := by
  induction dnLocs generalizing s dnIndex with
  | nil =>
      cases done
      exact bare
  | cons dnLoc rest inductionHypothesis =>
      rw [translateLocations, bind_eq_ok] at done
      obtain ⟨⟨retcode, between⟩, added, loop⟩ := done
      have kept := addToDatanodeTags_bare bare added
      refine inductionHypothesis ?_ loop
      split
      · unfold Bare
        rw [commitErrorToVIOCommiter_dnTags]
        exact kept
      · exact kept

theorem translateLocatedRequests_bare {blocks : List LBMD} {i : Nat} {pdata : Option Nat}
    {lrs : List LocatedRequest} (bare : Bare s)
    (done : translateLocatedRequests grants place vIOCommiter blocks s i pdata lrs = .ok s') :
    Bare s' := by
  induction lrs generalizing s i pdata with
  | nil =>
      cases done
      exact bare
  | cons lr rest inductionHypothesis =>
      rw [translateLocatedRequests, bind_eq_ok] at done
      obtain ⟨between, locations, loop⟩ := done
      have kept := translateLocations_bare bare locations
      split at loop
      · cases loop
      · refine inductionHypothesis ?_ loop
        exact kept

theorem translateLocatedRequests_unlocated {blocks : List LBMD} {i : Nat} {pdata : Option Nat}
    {lrs : List LocatedRequest} (linked : ∀ addr ∈ pdata.toList, addr ∈ blocks.map LBMD.addr)
    (none : ∀ lr ∈ lrs, lr.dnLocs = []) :
    ∃ s', translateLocatedRequests grants place vIOCommiter blocks s i pdata lrs = .ok s' ∧
      s'.dnTags = s.dnTags := by
  induction lrs generalizing s i pdata with
  | nil => exact ⟨s, rfl, rfl⟩
  | cons lr rest inductionHypothesis =>
      obtain ⟨first, others⟩ := List.forall_mem_cons.mp none
      obtain ⟨found, walked⟩ := @getLBMDFromNodeByLBID_of_mem _ _ lr.slbid.toNat linked
      rw [translateLocatedRequests, first, List.take_nil, translateLocations]
      simp only [bind, Except.bind, walked]
      exact inductionHypothesis (getLBMDFromNodeByLBID_some walked) others

theorem pairsAt_eq_nil {lrs : List LocatedRequest} (none : ∀ lr ∈ lrs, lr.dnLocs = [])
    (ssk : SSocket) : pairsAt lrs ssk = [] := by
  have pairs : replicaPairs lrs = [] := by
    rw [replicaPairs, List.flatMap_eq_nil_iff]
    rintro ⟨lr, i⟩ member
    simp [none lr (List.fst_mem_of_mem_zipIdx member)]
  rw [pairsAt, pairs, List.filter_nil]

theorem pairsAt_ne_nil {lrs : List LocatedRequest} {lr : LocatedRequest} (member : lr ∈ lrs)
    {dnLoc : DatanodeLocation} (located : dnLoc ∈ lr.dnLocs) : pairsAt lrs dnLoc.ssk ≠ [] := by
  obtain ⟨i, inside, rfl⟩ := List.getElem_of_mem member
  obtain ⟨j, within, rfl⟩ := List.getElem_of_mem located
  have pair : ((⟨i, j⟩ : PayloadTag), lrs[i].dnLocs[j]) ∈ replicaPairs lrs := by
    rw [replicaPairs, List.mem_flatMap]
    refine ⟨(lrs[i], i), List.mk_mem_zipIdx_iff_getElem?.mpr (List.getElem?_eq_getElem inside), ?_⟩
    exact List.mem_map.mpr ⟨(lrs[i].dnLocs[j], j),
      List.mk_mem_zipIdx_iff_getElem?.mpr (List.getElem?_eq_getElem within), rfl⟩
  exact List.ne_nil_of_mem (List.mem_filter.mpr ⟨pair, by simp⟩)

/-- The translation groups the pairs by datanode exactly when there are no pairs. -/
theorem translateWriteLocatedRequestsToDNTags_partitioned_iff (grants : Allocations)
    (place : Nat → Nat) (vIOCommiter : PayloadTag → Translation → Translation)
    (blocks : List LBMD) (s : Translation) (fresh : s.dnTags.userData = []) :
    (∃ retcode s',
      translateWriteLocatedRequestsToDNTags grants place vIOCommiter blocks s = .ok (retcode, s') ∧
        Partitioned s.lrs s'.dnTags.userData) ↔ ∀ lr ∈ s.lrs, lr.dnLocs = [] := by
  have bare : Bare s := by
    unfold Bare
    rw [fresh]
    nofun
  constructor
  · rintro ⟨retcode, s', done, grouped⟩ lr member
    rw [translateWriteLocatedRequestsToDNTags, bind_eq_ok] at done
    obtain ⟨last, loop, result⟩ := done
    cases result
    have kept := translateLocatedRequests_bare bare loop
    by_contra some
    obtain ⟨dnLoc, located⟩ := List.exists_mem_of_ne_nil _ some
    have pairs := pairsAt_ne_nil member located
    obtain ⟨ddt, linked, same⟩ := List.mem_map.mp ((grouped.addresses _).mpr pairs)
    have payloads := grouped.payloadTags ddt linked
    rw [kept ddt linked, same] at payloads
    exact pairs (List.map_eq_nil_iff.mp payloads.symm)
  · intro none
    obtain ⟨s', loop, dnTags⟩ := @translateLocatedRequests_unlocated grants place vIOCommiter s
      blocks 0 .none s.lrs nofun none
    refine ⟨dmsOK, s', ?_, ?_⟩
    · rw [translateWriteLocatedRequestsToDNTags, loop]
      rfl
    · rw [dnTags, fresh]
      exact ⟨List.nodup_nil, fun ssk => by simp [pairsAt_eq_nil none], nofun, nofun, nofun, nofun,
        nofun⟩

def sampleWrite : List LocatedRequest :=
  [{ LocatedRequest.zero with
    nrHBIDs := 1, hbids := [7], nrDnLocs := 1
    dnLocs := [{ DatanodeLocation.zero with ip := 1, nrTriplets := 1, triplets := [9] }] }]

theorem translateWriteLocatedRequestsToDNTags_example :
    ¬ ∃ retcode s', translateWriteLocatedRequestsToDNTags (fun _ => true) id (fun _ s => s) []
        ⟨.init, [], 0, sampleWrite⟩ = .ok (retcode, s') ∧
          Partitioned sampleWrite s'.dnTags.userData :=
  (translateWriteLocatedRequestsToDNTags_partitioned_iff _ _ _ _ _ rfl).not.mpr (by decide)

/-- The tag of the only replica is linked, released, and has no payload tag. -/
theorem translateWriteLocatedRequestsToDNTags_drops_pair :
    ¬ ∀ (place : Nat → Nat) (vIOCommiter : PayloadTag → Translation → Translation)
      (blocks : List LBMD) (s : Translation), s.dnTags.userData = [] → Groupable s.lrs →
      ∃ retcode s', translateWriteLocatedRequestsToDNTags (fun _ => true) place vIOCommiter blocks
        s = .ok (retcode, s') ∧ Partitioned s.lrs s'.dnTags.userData := by
  intro all
  have groupable : Groupable sampleWrite := by
    refine ⟨by decide, by decide, fun ssk => ?_⟩
    by_cases here : ssk = ⟨1, 0⟩
    · subst here
      decide
    · have elsewhere : pairsAt sampleWrite ssk = [] := by
        rw [pairsAt, List.filter_eq_nil_iff]
        rintro pair (_ | ⟨_, none⟩) same
        · exact here (of_decide_eq_true same).symm
        · cases none
      simp [hbidsAt, tripletsAt, elsewhere]
  obtain ⟨retcode, s', done, grouped⟩ :=
    all id (fun _ s => s) [] ⟨.init, [], 0, sampleWrite⟩ rfl groupable
  have tags : (translateWriteLocatedRequestsToDNTags (fun _ => true) id (fun _ s => s) []
      ⟨.init, [], 0, sampleWrite⟩).map (fun result => result.2.dnTags.userData) =
        .ok [⟨⟨0, 0, []⟩, ⟨1, 0⟩, ⟨0, 0, [], []⟩⟩] := by decide
  rw [done] at tags
  have linked := Except.ok.inj tags
  simp only at linked
  have payloads := grouped.payloadTags ⟨⟨0, 0, []⟩, ⟨1, 0⟩, ⟨0, 0, [], []⟩⟩ (by simp [linked])
  exact absurd payloads (by decide)

end Bare

end DmsBlkdev
