import DmsBlkdev.Payload.Tags

/-!
# Sending the requests while replies come in

The sender walks over the datanode tags of a metadata object and sends the
header, the body and, for a write, the blocks of each request.  Acks for the
requests it has sent are delivered in between, and the commits they make release
blocks of the DIO and the DIO itself, which the sender goes on reading: for the
operation, for the block list, and for the print behind each request.
-/

namespace DmsBlkdev

/-- Where the sender is in `Make_and_Send_Datanode_Requests`, with its local variables: what it is
about to fetch or send, or to do behind the label `SEND_FOUT` for a request that was sent or not. -/
inductive Pc where
  | fetch
  | header (ddt : DatanodeTag)
  | body (ddt : DatanodeTag)
  | payload (ddt : DatanodeTag)
  | block (ddt : DatanodeTag) (dpt : PayloadTag) (rest : List PayloadTag) (i : Nat)
      (lbmd : Option Nat)
  | fout (ddt : DatanodeTag) (ok : Bool)
  | oops
  | done
  deriving DecidableEq, Repr

/-- The metadata object and the sender of a DIO; `sent` holds the tags whose requests were sent to
their end. -/
structure SenderState where
  core : CoreState
  dio : Nat
  pc : Pc
  sent : List DatanodeTag

/-- The sender takes its next step, under the request id for a fetched tag and with the outcome of
the send; the tag of a request that has been sent is taken off the list; or an ack for such a tag is
delivered to `__VolumeIO_Commiter`. -/
inductive SenderEvent where
  | sender (dnrid : Nat) (ok : Bool)
  | get (dnrid : Nat)
  | reply (ddt : DatanodeTag) (ack : Int)
  deriving DecidableEq, Repr

/-- The next payload tag with a block to send, the block its walk starts at, and the payload tags
behind it. -/
def nextPayload (dmeta : DMSMetadata) :
    List PayloadTag → Option (PayloadTag × Option Nat × List PayloadTag)
  | [] => none
  | dpt :: rest =>
      match dmeta.lrs[dpt.lr]? with
      | none => nextPayload dmeta rest
      | some lr =>
          if 0 < lr.nrLBIDs.toInt then some (dpt, lr.privateData, rest)
          else nextPayload dmeta rest

namespace SenderState

section Model

variable (dbg : BitVec 32) (s : SenderState)

/-- `Xmit_Payload_by_Datanode_Tag`, up to the next block it sends. -/
def sendPayloads (ddt : DatanodeTag) (payloadTags : List PayloadTag) : SenderState :=
  match nextPayload s.core.dmeta payloadTags with
  | none => { s with pc := .fout ddt true, sent := ddt :: s.sent }
  | some (dpt, lbmd, rest) => { s with pc := .block ddt dpt rest 0 lbmd }

def blocks : List LBMD := s.core.dioBlocks s.dio

/-- `Get_Next_User_Data` and `Generate_Request_of_Datanode`. -/
def fetchTag (dnrid : Nat) : Option SenderState :=
  match s.core.dmeta.dnTags.getNextUserData with
  | none => none
  | some (none, _) => some { s with pc := .done }
  | some (some ddt, dnTags) =>
      some { s with
        core := s.core.withDnTags (CoreState.setDnrid ddt dnrid dnTags)
        pc := .header { ddt with dnrid := dnrid } }

/-- Nothing follows the body of the request: it is a read, or has no block to send. -/
def bodyIsLast (dio : DMSIO) (ddt : DatanodeTag) : Bool :=
  dio.op = .read || dio.lbList.isNone || (nextPayload s.core.dmeta ddt.payloadTags).isNone

/-- `Send_Msg` of the body, with flags that depend on `dio->op`. -/
def sendBody (ddt : DatanodeTag) (ok : Bool) : Option SenderState :=
  (s.core.request.dios s.dio).map fun dio =>
    if ok = false then { s with pc := .fout ddt false }
    else if s.bodyIsLast dio ddt then { s with pc := .payload ddt, sent := ddt :: s.sent }
    else { s with pc := .payload ddt }

/-- `if(dio->op)` behind the body.  Without a block list `__Xmit_Payload_Tag` does nothing, and with
its prints on it gets no further than the first of them. -/
def startPayload (ddt : DatanodeTag) : Option SenderState :=
  (s.core.request.dios s.dio).map fun dio =>
    if dio.op = .read ∨ dio.lbList = none then { s with pc := .fout ddt true }
    else if paloDbg dbg ∧ ddt.payloadTags ≠ [] then { s with pc := .oops }
    else s.sendPayloads ddt ddt.payloadTags

/-- One round of the loop of `__Xmit_Payload_Tag`; a block that is not on the list is passed over. -/
def sendBlock (ddt : DatanodeTag) (dpt : PayloadTag) (rest : List PayloadTag) (i : Nat)
    (lbmd : Option Nat) (ok : Bool) : Option SenderState :=
  match s.core.request.dios s.dio, s.core.dmeta.lrs[dpt.lr]? with
  | some _, some lr =>
      (getLBMDFromNodeByLBID s.blocks lbmd ((lr.slbid.toNat + i) % 2 ^ 64)).map fun found =>
        if found.isSome ∧ ok = false then { s with pc := .fout ddt false }
        else if (i + 1 : Int) < lr.nrLBIDs.toInt then
          { s with pc := .block ddt dpt rest (i + 1) (found.map LBMD.addr) }
        else s.sendPayloads ddt rest
  | _, _ => none

/-- `SEND_FOUT`, with the print of `dio->did`, and what the loop does about a request that could not
be sent. -/
def leave (ddt : DatanodeTag) (ok : Bool) : Option SenderState :=
  if paloDbg dbg ∧ s.core.request.dios s.dio = none then none
  else if ok then some { s with pc := .fetch }
  else (s.core.sendFailed ddt).map fun core => { s with core := core, pc := .fetch }

def senderStep (dnrid : Nat) (ok : Bool) : Option SenderState :=
  match s.pc with
  | .fetch => s.fetchTag dnrid
  | .header ddt => some { s with pc := if ok then .body ddt else .fout ddt false }
  | .body ddt => s.sendBody ddt ok
  | .payload ddt => s.startPayload dbg ddt
  | .block ddt dpt rest i lbmd => s.sendBlock ddt dpt rest i lbmd ok
  | .fout ddt sent => s.leave dbg ddt sent
  | .oops => none
  | .done => none

/-- The tag is neither linked nor released. -/
def OffList (ddt : DatanodeTag) : Prop :=
  ddt.addr ∉ (s.core.dmeta.dnTags.userData ++ s.core.released).map DatanodeTag.addr

instance (ddt : DatanodeTag) : Decidable (s.OffList ddt) := inferInstanceAs (Decidable (¬ _))

def step : SenderEvent → Option SenderState
  | .sender dnrid ok => s.senderStep dbg dnrid ok
  | .get dnrid =>
      if s.sent.any (checkDNTagByID dnrid) then
        let removed := s.core.dmeta.dnTags.removeByCheckFunc (checkDNTagByID dnrid)
        some { s with core := s.core.withDnTags removed.2 }
      else none
  | .reply ddt ack =>
      if ddt ∈ s.sent ∧ s.OffList ddt then
        (CoreState.volumeIOCommiter .metadata s.core ddt ack).map fun core => { s with core := core }
      else none

/-- The next step of the sender reads the DIO, its list, or a block that is no longer on the list,
after the release. -/
def ReadsReleased : Prop :=
  match s.pc with
  | .body _ | .payload _ => s.core.request.dios s.dio = none
  | .block _ _ _ _ lbmd => s.core.request.dios s.dio = none ∨
      ∃ addr, lbmd = some addr ∧ addr ∉ s.blocks.map LBMD.addr
  | .fout _ _ => paloDbg dbg = true ∧ s.core.request.dios s.dio = none
  | _ => False

end Model

section Condition

/-- The blocks at which the walks of these payload tags start. -/
def needs (extents : List Extent) (payloadTags : List PayloadTag) : List Nat :=
  payloadTags.filterMap fun dpt => extents[dpt.lr]?.bind fun extent =>
    if 0 < extent.nrLBIDs.toInt then extent.privateData else none

/-- The blocks that the requests of these tags start from; a read sends no blocks, and nothing does
with the prints on. -/
def toSend (dbg : BitVec 32) (core : CoreState) (dio : Nat) (tags : List DatanodeTag) : List Nat :=
  if paloDbg dbg ∨ (core.request.dios dio).map DMSIO.op = some .read then []
  else tags.flatMap fun ddt => needs core.extents ddt.payloadTags

variable (dbg : BitVec 32) (s : SenderState)

def inHand : List Nat :=
  match s.pc with
  | .header ddt | .body ddt | .payload ddt => toSend dbg s.core s.dio [ddt]
  | .block _ _ payloadTags _ lbmd => lbmd.toList ++ needs s.core.extents payloadTags
  | _ => []

/-- The blocks that the sender still needs, for the request in hand and the tags ahead of it. -/
def needed : List Nat :=
  s.inHand dbg ++ toSend dbg s.core s.dio s.core.dmeta.dnTags.ahead

/-- The blocks of a tag that the reply puts back ahead of the sender. -/
def putBack (ddt : DatanodeTag) (ack : Int) : List Nat :=
  if (IsMemAck ack ∨ ack < 0) ∧ s.core.dmeta.dnTags.nextNode ≠ none then
    toSend dbg s.core s.dio [ddt]
  else []

/-- The sender reads nothing any more. -/
def Quiet : Prop :=
  match s.pc with
  | .done | .oops => True
  | .fetch => s.core.dmeta.dnTags.nextNode = none
  | .fout _ _ => paloDbg dbg = false ∧ s.core.dmeta.dnTags.nextNode = none
  | _ => False

/-- The reply comes when the sender is quiet; or it commits no located request or leaves a block of
the DIO outside the ranges it commits, and the blocks that the sender will start from are on the list
and outside of these ranges. -/
def Spares (ddt : DatanodeTag) (ack : Int) : Prop :=
  s.Quiet dbg ∨
    (((∀ index, ¬ s.core.Commits ack ddt.payloadTags index) ∨
      ∃ block ∈ s.blocks, ¬ s.core.Hits ack ddt.payloadTags block) ∧
    ∀ addr ∈ s.needed dbg ++ s.putBack dbg ddt ack,
      ∃ block ∈ s.blocks, block.addr = addr ∧ ¬ s.core.Hits ack ddt.payloadTags block)

def SparingEvent : SenderEvent → Prop
  | .reply ddt ack => s.Spares dbg ddt ack
  | _ => True

end Condition

/-- The sender before its first step, with the DIO and the first blocks of the ranges in place. -/
structure Start (s : SenderState) : Prop where
  pc : s.pc = .fetch
  sent : s.sent = []
  linked : s.core.dmeta.dnTags.Linked
  parent : s.core.dmeta.pdio = some s.dio
  live : ∃ dio, s.core.request.dios s.dio = some dio
  privateData : ∀ lr ∈ s.core.dmeta.lrs, ∀ addr, lr.privateData = some addr →
    addr ∈ s.blocks.map LBMD.addr

structure Holds (core : CoreState) (dio : Nat) (lbmds : List Nat) : Prop where
  parent : core.dmeta.pdio = some dio
  live : ∃ dms, core.request.dios dio = some dms
  blocks : ∀ addr ∈ lbmds, addr ∈ (core.dioBlocks dio).map LBMD.addr

structure SenderInv (dbg : BitVec 32) (s : SenderState) : Prop where
  linked : s.core.dmeta.dnTags.Linked
  busy : ¬ s.Quiet dbg → Holds s.core s.dio (s.needed dbg)

section Lookup

variable {dbg : BitVec 32}

theorem Holds.subset {core : CoreState} {dio : Nat} {lbmds fewer : List Nat}
    (holds : Holds core dio lbmds) (sub : fewer ⊆ lbmds) : Holds core dio fewer :=
  ⟨holds.parent, holds.live, fun addr member => holds.blocks addr (sub member)⟩

/-- Only the parent pointer and the DIO itself decide what is there. -/
theorem Holds.congr {core core' : CoreState} {dio : Nat} {lbmds : List Nat}
    (holds : Holds core dio lbmds) (pdio : core'.dmeta.pdio = core.dmeta.pdio)
    (request : core'.request = core.request) : Holds core' dio lbmds := by
  constructor
  · exact pdio.trans holds.parent
  · rw [request]
    exact holds.live
  · rw [CoreState.dioBlocks, request]
    exact holds.blocks

theorem toSend_congr {core core' : CoreState} {dio : Nat}
    (op : (core'.request.dios dio).map DMSIO.op = (core.request.dios dio).map DMSIO.op)
    (extents : core'.extents = core.extents) : toSend dbg core' dio = toSend dbg core dio := by
  funext tags
  simp only [toSend, op, extents]

theorem toSend_subset {core : CoreState} {dio : Nat} {tags fewer : List DatanodeTag}
    (sub : fewer ⊆ tags) : toSend dbg core dio fewer ⊆ toSend dbg core dio tags := by
  unfold toSend
  split
  · exact List.Subset.refl _
  · intro addr member
    obtain ⟨ddt, inFewer, needs⟩ := List.mem_flatMap.mp member
    exact List.mem_flatMap.mpr ⟨ddt, sub inFewer, needs⟩

theorem toSend_map {core : CoreState} {dio : Nat} {tags : List DatanodeTag}
    {change : DatanodeTag → DatanodeTag}
    (same : ∀ ddt, (change ddt).payloadTags = ddt.payloadTags) :
    toSend dbg core dio (tags.map change) = toSend dbg core dio tags := by
  simp only [toSend, List.flatMap_map, same]

theorem toSend_append (core : CoreState) (dio : Nat) (first second : List DatanodeTag) :
    toSend dbg core dio (first ++ second) =
      toSend dbg core dio first ++ toSend dbg core dio second := by
  unfold toSend
  split
  · rfl
  · exact List.flatMap_append

theorem nextPayload_needs {core : CoreState} {payloadTags rest : List PayloadTag} {dpt : PayloadTag}
    {lbmd : Option Nat} (next : nextPayload core.dmeta payloadTags = some (dpt, lbmd, rest)) :
    lbmd.toList ++ needs core.extents rest ⊆ needs core.extents payloadTags := by
  induction payloadTags with
  | nil => cases next
  | cons first others inductionHypothesis =>
      have extent : core.extents[first.lr]? =
          (core.dmeta.lrs[first.lr]?).map LocatedRequest.extent := by
        simp [CoreState.extents]
      have grow : needs core.extents others ⊆ needs core.extents (first :: others) := by
        unfold needs
        exact ((List.sublist_cons_self first others).filterMap _).subset
      rw [nextPayload] at next
      split at next
      · exact List.Subset.trans (inductionHypothesis next) grow
      · next lr found =>
          split at next
          · next positive =>
              cases next
              have own : core.extents[dpt.lr]? = some lr.extent := by rw [extent, found]; rfl
              rw [List.append_subset]
              refine ⟨fun addr member => ?_, grow⟩
              apply List.mem_filterMap.mpr
              refine ⟨dpt, List.mem_cons_self, ?_⟩
              simpa [own, positive, LocatedRequest.extent] using member
          · exact List.Subset.trans (inductionHypothesis next) grow

end Lookup

section Sending

variable {dbg : BitVec 32} {s s' : SenderState}

theorem needed_of_fout {ddt : DatanodeTag} {ok : Bool} (s : SenderState) (sent : List DatanodeTag) :
    needed dbg { s with pc := .fout ddt ok, sent := sent } ⊆ s.needed dbg :=
  List.subset_append_right _ _

theorem toFout_inv (inv : SenderInv dbg s) (working : ¬ s.Quiet dbg) (ddt : DatanodeTag) (ok : Bool)
    (sent : List DatanodeTag) : SenderInv dbg { s with pc := .fout ddt ok, sent := sent } :=
  ⟨inv.linked, fun _ => (inv.busy working).subset (needed_of_fout s sent)⟩

theorem sendPayloads_inv (inv : SenderInv dbg s) (working : ¬ s.Quiet dbg) (ddt : DatanodeTag)
    {payloadTags : List PayloadTag} (own : needs s.core.extents payloadTags ⊆ s.inHand dbg) :
    SenderInv dbg (s.sendPayloads ddt payloadTags) := by
  unfold sendPayloads
  split
  · exact toFout_inv inv working ddt true _
  · next dpt lbmd rest next =>
      have first := List.Subset.trans (nextPayload_needs next) own
      refine ⟨inv.linked, fun _ => (inv.busy working).subset ?_⟩
      exact List.append_subset.mpr ⟨List.Subset.trans first (List.subset_append_left _ _),
        List.subset_append_right _ _⟩

theorem fetchTag_inv (inv : SenderInv dbg s) (atFetch : s.pc = .fetch) {dnrid : Nat}
    (fetched : s.fetchTag dnrid = some s') : SenderInv dbg s' := by
  unfold fetchTag at fetched
  split at fetched
  · cases fetched
  · cases fetched
    exact ⟨inv.linked, fun working => absurd trivial working⟩
  · next ddt dnTags moved =>
      cases fetched
      obtain ⟨data, between, moved', linked⟩ := inv.linked.getNextUserData
      obtain ⟨rfl, rfl⟩ := Prod.mk.inj (Option.some.inj (moved.symm.trans moved'))
      have working : ¬ s.Quiet dbg := by
        intro atHead
        simp only [Quiet, atFetch] at atHead
        simp [DList.getNextUserData, atHead] at moved
      let rename : DatanodeTag → DatanodeTag := fun other =>
        if other.addr = ddt.addr then { other with dnrid := dnrid } else other
      have renamed : (CoreState.setDnrid ddt dnrid dnTags).ahead = dnTags.ahead.map rename :=
        DList.modifyUserData_ahead _ _
      have same : ∀ other, (rename other).payloadTags = other.payloadTags := by
        intro other
        simp only [rename]
        split <;> rfl
      have holds := inv.busy working
      simp only [needed, inHand, atFetch, inv.linked.getNextUserData_ahead moved,
        List.nil_append] at holds
      refine ⟨linked.modifyUserData rename, fun _ => ?_⟩
      change Holds (s.core.withDnTags (CoreState.setDnrid ddt dnrid dnTags)) s.dio
        (toSend dbg s.core s.dio [ddt] ++
          toSend dbg s.core s.dio (CoreState.setDnrid ddt dnrid dnTags).ahead)
      rw [renamed, toSend_map same, ← toSend_append]
      exact holds.congr rfl rfl

theorem sendBody_inv (inv : SenderInv dbg s) {ddt : DatanodeTag} (atBody : s.pc = .body ddt)
    {ok : Bool} (sent : s.sendBody ddt ok = some s') : SenderInv dbg s' := by
  have working : ¬ s.Quiet dbg := by simp [Quiet, atBody]
  have holds := inv.busy working
  simp only [needed, inHand, atBody] at holds
  obtain ⟨dio, -, rfl⟩ := Option.map_eq_some_iff.mp sent
  split
  · exact toFout_inv inv working ddt false s.sent
  · split
    · exact ⟨inv.linked, fun _ => holds⟩
    · exact ⟨inv.linked, fun _ => holds⟩

theorem startPayload_inv (inv : SenderInv dbg s) {ddt : DatanodeTag}
    (atPayload : s.pc = .payload ddt) (started : s.startPayload dbg ddt = some s') :
    SenderInv dbg s' := by
  have working : ¬ s.Quiet dbg := by simp [Quiet, atPayload]
  obtain ⟨dio, live, rfl⟩ := Option.map_eq_some_iff.mp started
  split
  · exact toFout_inv inv working ddt true s.sent
  · next writes =>
      split
      · exact ⟨inv.linked, fun working => absurd trivial working⟩
      · next silent =>
          apply sendPayloads_inv inv working
          have notRead : ¬ dio.op = .read := fun read => writes (.inl read)
          by_cases printed : paloDbg dbg = true
          · have none : ddt.payloadTags = [] := by simpa [printed] using silent
            simp [needs, none]
          · simp [inHand, atPayload, toSend, live, notRead, printed]

theorem sendBlock_inv (inv : SenderInv dbg s) {ddt : DatanodeTag} {dpt : PayloadTag}
    {rest : List PayloadTag} {i : Nat} {lbmd : Option Nat}
    (atBlock : s.pc = .block ddt dpt rest i lbmd) {ok : Bool}
    (sent : s.sendBlock ddt dpt rest i lbmd ok = some s') : SenderInv dbg s' := by
  have working : ¬ s.Quiet dbg := by simp [Quiet, atBlock]
  have hand : s.inHand dbg = lbmd.toList ++ needs s.core.extents rest := by simp [inHand, atBlock]
  unfold sendBlock at sent
  split at sent
  · next lr _ _ =>
      obtain ⟨found, walked, rfl⟩ := Option.map_eq_some_iff.mp sent
      split
      · exact toFout_inv inv working ddt false s.sent
      · split
        · have holds := inv.busy working
          refine ⟨inv.linked, fun _ => ⟨holds.parent, holds.live, fun addr member => ?_⟩⟩
          simp only [needed, inHand, List.mem_append] at member
          rcases member with (here | later) | ahead
          · exact getLBMDFromNodeByLBID_some walked addr here
          · apply holds.blocks addr
            simp [needed, hand, later]
          · apply holds.blocks addr
            exact List.mem_append_right _ ahead
        · apply sendPayloads_inv inv working
          rw [hand]
          exact List.subset_append_right _ _
  · cases sent

/-- Behind `SEND_FOUT` the DIO, its blocks and the tags stay where they are, also when the request
could not be sent. -/
theorem leave_inv (inv : SenderInv dbg s) {ddt : DatanodeTag} {sent : Bool}
    (atFout : s.pc = .fout ddt sent) (left : s.leave dbg ddt sent = some s') :
    SenderInv dbg s' := by
  have busy : s.core.dmeta.dnTags.nextNode ≠ none →
      Holds s.core s.dio (toSend dbg s.core s.dio s.core.dmeta.dnTags.ahead) := by
    intro onward
    have holds := inv.busy (by simp [Quiet, atFout, onward])
    simpa [needed, inHand, atFout] using holds
  unfold leave at left
  split at left
  · cases left
  · split at left
    · cases left
      exact ⟨inv.linked, busy⟩
    · obtain ⟨core, called, rfl⟩ := Option.map_eq_some_iff.mp left
      obtain ⟨core', called', -, request, pdio, dnTags, -⟩ := CoreState.sendFailed_eq s.core ddt
      obtain rfl := Option.some.inj (called.symm.trans called')
      have extents := CoreState.volumeIOCommiter_extents called
      constructor
      · change core.dmeta.dnTags.Linked
        rw [dnTags]
        exact inv.linked
      · intro onward
        change Holds core s.dio (toSend dbg core s.dio core.dmeta.dnTags.ahead)
        rw [toSend_congr (congrArg (fun r : Request => (r.dios s.dio).map DMSIO.op) request) extents,
          dnTags]
        refine (busy ?_).congr pdio request
        rw [← dnTags]
        exact onward

theorem senderStep_inv (inv : SenderInv dbg s) {dnrid : Nat} {ok : Bool}
    (taken : s.senderStep dbg dnrid ok = some s') : SenderInv dbg s' := by
  unfold senderStep at taken
  split at taken
  · next atFetch => exact fetchTag_inv inv atFetch taken
  · next ddt atHeader =>
      cases taken
      have working : ¬ s.Quiet dbg := by simp [Quiet, atHeader]
      have holds := inv.busy working
      cases ok with
      | false => exact toFout_inv inv working ddt false s.sent
      | true =>
          simp only [needed, inHand, atHeader] at holds
          exact ⟨inv.linked, fun _ => holds⟩
  · next ddt atBody => exact sendBody_inv inv atBody taken
  · next ddt atPayload => exact startPayload_inv inv atPayload taken
  · next ddt dpt rest i lbmd atBlock => exact sendBlock_inv inv atBlock taken
  · next ddt sent atFout => exact leave_inv inv atFout taken
  · cases taken
  · cases taken

end Sending

section Replying

variable {dbg : BitVec 32} {s s' : SenderState}

theorem Quiet.of_core {core : CoreState} (quiet : s.Quiet dbg)
    (atHead : s.core.dmeta.dnTags.nextNode = none → core.dmeta.dnTags.nextNode = none) :
    Quiet dbg { s with core := core } := by
  unfold Quiet at quiet ⊢
  split at quiet <;> simp_all

theorem get_inv (inv : SenderInv dbg s) {dnrid : Nat} (taken : s.step dbg (.get dnrid) = some s') :
    SenderInv dbg s' := by
  simp only [step] at taken
  split at taken
  · cases taken
    refine ⟨inv.linked.removeByCheckFunc _, fun working => ?_⟩
    have before : ¬ s.Quiet dbg := fun quiet =>
      working (quiet.of_core fun stands => DList.removeByCheckFunc_atHead stands)
    have holds : Holds (s.core.withDnTags
        (s.core.dmeta.dnTags.removeByCheckFunc (checkDNTagByID dnrid)).2) s.dio (s.needed dbg) :=
      (inv.busy before).congr rfl rfl
    have fewer := inv.linked.removeByCheckFunc_ahead (checkDNTagByID dnrid)
    exact holds.subset (List.append_subset.mpr ⟨List.subset_append_left _ _,
      List.Subset.trans (toSend_subset fewer) (List.subset_append_right _ _)⟩)
  · cases taken

/-- A reply can only bring the blocks of its own tag ahead of the sender. -/
theorem reply_needed {core : CoreState} {ddt : DatanodeTag} {ack : Int}
    (linked : s.core.dmeta.dnTags.Linked)
    (called : CoreState.volumeIOCommiter .metadata s.core ddt ack = some core)
    (op : (core.request.dios s.dio).map DMSIO.op =
      (s.core.request.dios s.dio).map DMSIO.op) :
    needed dbg { s with core := core } ⊆ s.needed dbg ++ s.putBack dbg ddt ack := by
  have extents := CoreState.volumeIOCommiter_extents called
  have same : toSend dbg core s.dio = toSend dbg s.core s.dio := toSend_congr op extents
  have hand : inHand dbg { s with core := core } = s.inHand dbg := by
    simp only [inHand, same, extents]
  have ahead : toSend dbg s.core s.dio core.dmeta.dnTags.ahead ⊆
      toSend dbg s.core s.dio s.core.dmeta.dnTags.ahead ++ s.putBack dbg ddt ack := by
    rcases CoreState.volumeIOCommiter_tags (by decide) called with ⟨kept, dnTags, -⟩ |
      ⟨freed, dnTags, -⟩
    · rw [dnTags, linked.insertTail_ahead, toSend_append]
      apply List.append_subset.mpr ⟨List.subset_append_left _ _, ?_⟩
      by_cases atHead : s.core.dmeta.dnTags.nextNode = none
      · simp [atHead, toSend]
      · rw [if_neg atHead, putBack, if_pos ⟨kept, atHead⟩]
        exact List.subset_append_right _ _
    · rw [dnTags]
      exact List.subset_append_left _ _
  rw [needed, hand, needed, List.append_assoc]
  change s.inHand dbg ++ toSend dbg core s.dio core.dmeta.dnTags.ahead ⊆ _
  rw [same]
  exact List.append_subset.mpr ⟨List.subset_append_left _ _,
    List.Subset.trans ahead (List.subset_append_right _ _)⟩

theorem reply_inv (inv : SenderInv dbg s) {ddt : DatanodeTag} {ack : Int}
    (spares : s.Spares dbg ddt ack) (taken : s.step dbg (.reply ddt ack) = some s') :
    SenderInv dbg s' := by
  simp only [step] at taken
  split at taken
  · obtain ⟨core, called, rfl⟩ := Option.map_eq_some_iff.mp taken
    have dnTags := CoreState.volumeIOCommiter_tags (by decide) called
    have nextNode : core.dmeta.dnTags.nextNode = s.core.dmeta.dnTags.nextNode := by
      rcases dnTags with ⟨-, dnTags, -⟩ | ⟨-, dnTags, -⟩
      · rw [dnTags]
        rfl
      · rw [dnTags]
    constructor
    · rcases dnTags with ⟨-, dnTags, -⟩ | ⟨-, dnTags, -⟩
      · change core.dmeta.dnTags.Linked
        rw [dnTags]
        exact inv.linked.insertTail ddt
      · change core.dmeta.dnTags.Linked
        rw [dnTags]
        exact inv.linked
    · intro working
      have before : ¬ s.Quiet dbg := fun quiet => working (quiet.of_core nextNode.trans)
      rcases spares with quiet | ⟨enough, apart⟩
      · exact absurd quiet before
      · have holds := inv.busy before
        obtain ⟨dio, live⟩ := holds.live
        have spared := CoreState.volumeIOCommiter_spared holds.parent live enough called
        obtain ⟨dio', after, live', liveAfter, sameOp⟩ := spared.dio
        refine ⟨spared.parent, ⟨after, liveAfter⟩, fun addr member => ?_⟩
        have op : (core.request.dios s.dio).map DMSIO.op =
            (s.core.request.dios s.dio).map DMSIO.op := by
          rw [liveAfter, live', Option.map_some, Option.map_some, sameOp]
        obtain ⟨block, listed, rfl, outside⟩ :=
          apart addr (reply_needed inv.linked called op member)
        exact List.mem_map_of_mem (spared.blocks block listed outside)
  · cases taken

end Replying

section Run

variable {dbg : BitVec 32} {s s' : SenderState}

theorem Start.inv (start : Start s) : SenderInv dbg s := by
  refine ⟨start.linked, fun _ => ⟨start.parent, start.live, fun addr member => ?_⟩⟩
  simp only [needed, inHand, start.pc, List.nil_append, toSend] at member
  split at member
  · cases member
  · obtain ⟨ddt, -, inNeeds⟩ := List.mem_flatMap.mp member
    obtain ⟨dpt, -, first⟩ := List.mem_filterMap.mp inNeeds
    obtain ⟨extent, own, starts⟩ := Option.bind_eq_some_iff.mp first
    obtain ⟨lr, found, rfl⟩ := List.mem_map.mp (List.mem_of_getElem? own)
    split at starts
    · exact start.privateData lr found addr starts
    · cases starts

theorem SenderInv.step (inv : SenderInv dbg s) {event : SenderEvent}
    (spares : s.SparingEvent dbg event) (taken : s.step dbg event = some s') :
    SenderInv dbg s' := by
  cases event with
  | sender dnrid ok => exact senderStep_inv inv taken
  | get dnrid => exact get_inv inv taken
  | reply ddt ack => exact reply_inv inv spares taken

theorem SenderInv.readsLive (inv : SenderInv dbg s) : ¬ s.ReadsReleased dbg := by
  have live : ¬ s.Quiet dbg → ¬ s.core.request.dios s.dio = none := by
    intro working gone
    obtain ⟨dio, live⟩ := (inv.busy working).live
    rw [gone] at live
    cases live
  unfold ReadsReleased
  split
  · next ddt atBody => exact live (by simp [Quiet, atBody])
  · next ddt atPayload => exact live (by simp [Quiet, atPayload])
  · next ddt dpt rest i lbmd atBlock =>
      have working : ¬ s.Quiet dbg := by simp [Quiet, atBlock]
      rintro (gone | ⟨addr, rfl, absent⟩)
      · exact live working gone
      · apply absent
        apply (inv.busy working).blocks addr
        simp [needed, inHand, atBlock]
  · next ddt ok atFout =>
      rintro ⟨printed, gone⟩
      exact live (by simp [Quiet, atFout, printed]) gone
  · exact id

def twoRangesRead : SenderState where
  core := TagState.twoRangesRead.core.withDnTags
    TagState.twoRangesRead.core.dmeta.dnTags.resetIterator
  dio := 0
  pc := .fetch
  sent := []

theorem twoRangesRead_start : Start twoRangesRead where
  pc := rfl
  sent := rfl
  linked := ((DList.linked_init.insertTail _).insertTail _).resetIterator
  parent := rfl
  live := ⟨_, rfl⟩
  privateData := by
    intro lr member addr
    rcases List.mem_cons.mp member with rfl | last
    · nofun
    · obtain rfl := List.mem_singleton.mp last
      nofun

def secondHeader : List SenderEvent :=
  [.sender 7 true, .sender 0 true, .sender 0 true, .sender 0 true, .sender 0 true, .sender 8 true,
    .sender 0 true]

/-- The ack of the first request comes now, the body of the second is sent, and its ack comes when
nothing is left to do. -/
def lateReadAck : List SenderEvent :=
  secondHeader ++ [.get 7, .reply ⟨0, 7, [⟨0, 0⟩]⟩ readAck, .sender 0 true, .sender 0 true,
    .sender 0 true, .get 8, .reply ⟨1, 8, [⟨1, 0⟩]⟩ readAck]

/-- The acks of both requests come before the sender has looked at the operation behind the second
body. -/
def earlyReadAck : List SenderEvent :=
  secondHeader ++ [.get 7, .reply ⟨0, 7, [⟨0, 0⟩]⟩ readAck, .sender 0 true, .get 8,
    .reply ⟨1, 8, [⟨1, 0⟩]⟩ readAck]

def twoReplicasWrite : SenderState where
  core := CoreState.oneBlockWrite.withDnTags
    (((DList.init.insertTail CoreState.firstReplica).insertTail ⟨1, 0, [⟨0, 1⟩]⟩).resetIterator)
  dio := 0
  pc := .fetch
  sent := []

theorem twoReplicasWrite_start : Start twoReplicasWrite where
  pc := rfl
  sent := rfl
  linked := ((DList.linked_init.insertTail _).insertTail _).resetIterator
  parent := rfl
  live := ⟨_, rfl⟩
  privateData := by
    intro lr member addr
    obtain rfl := List.mem_singleton.mp member
    nofun

/-- The first request is sent with its block, the header of the second one goes out, and the disk ack
of the first comes in. -/
def earlyDiskAck : List SenderEvent :=
  [.sender 7 true, .sender 0 true, .sender 0 true, .sender 0 true, .sender 0 true, .sender 0 true,
    .sender 8 true, .sender 0 true, .get 7, .reply ⟨0, 7, [⟨0, 0⟩]⟩ wdiskAck]

end Run

end SenderState

end DmsBlkdev
