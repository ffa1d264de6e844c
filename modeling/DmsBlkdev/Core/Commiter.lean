import DmsBlkdev.Completion.Commit
import DmsBlkdev.Core.Policy

/-!
# The committer of a volume

`__VolumeIO_Commiter` counts the reply of a datanode for every payload of its
tag, commits located requests to the parent DIO as the policy asks for, and
puts the tag back or releases it.  The parent pointer of the metadata is reset
when a commit has completed the DIO.
-/

namespace DmsBlkdev

open Lib.Atomic

inductive Action where
  | policy (lr : Nat) (retcode : Int)
  | commitLB (lr : Nat)
  | commitToNamenode
  deriving DecidableEq, Repr

/-- A metadata object with the request of its DIO, the datanode tags that were released, and what
the committer did so far. -/
structure CoreState where
  dmeta : DMSMetadata
  request : Request
  released : List DatanodeTag
  trace : List Action

/-- What is passed as the metadata object: the object, the parent DIO in its place, or null. -/
inductive MetaArg where
  | metadata
  | misplaced
  | null
  deriving DecidableEq, Repr

namespace CoreState

def act (action : Action) (s : CoreState) : CoreState := { s with trace := s.trace ++ [action] }

def answer (index : Nat) (result : LocatedRequest × Int) (s : CoreState) : CoreState :=
  ({ s with dmeta := s.dmeta.setLR index result.1 } : CoreState).act (.policy index result.2)

/-- `dmeta->pdio` in the place of the metadata object. -/
def pdioArg (s : CoreState) : MetaArg := if s.dmeta.pdio.isSome then .misplaced else .null

/-- `Commit_LBs_to_DMS_IO`; `Commit_LB_to_DMS_IO` does nothing without a DIO. -/
def commitLBs (arg : MetaArg) (s : CoreState) (index : Nat) (result : Int) : Option CoreState :=
  match s.dmeta.lrs[index]? with
  | none => some s
  | some lr =>
      let s : CoreState := { s with dmeta := s.dmeta.setLR index lr.testAndSetCommitted.2 }
      if lr.testAndSetCommitted.1 then some s
      else if arg ≠ .metadata then none
      else match s.dmeta.pdio with
        | none => some s
        | some addr =>
            (s.request.commitLBToDMSIO index addr lr.slbid.toNat lr.nrLBIDs.toInt result).map
              fun (request, empty) =>
                ({ s with
                  dmeta := { s.dmeta with pdio := if empty = 1 then none else s.dmeta.pdio }
                  request := request } : CoreState).act (.commitLB index)

/-- One round of the loop of `Default_Update_and_Commit_to_User_Policy`, with `done_lrs`.  The
operation of the metadata object is read only for an error reply. -/
def payloadRound (arg : MetaArg) (ack : Int) (s : CoreState) (doneLRs : Nat) (dpt : PayloadTag) :
    Option (CoreState × Nat) :=
  match s.dmeta.lrs[dpt.lr]? with
  | none => some (s, doneLRs)
  | some lr =>
      if arg = .misplaced ∧ IsErrorReply ack ∧ dpt.dnIndex < lr.dnLocs.length then none
      else
        let result := updateAndCommitToUserPolicy s.dmeta.op lr dpt.dnIndex ack
        let s := s.answer dpt.lr result
        if AsksCommit result.2 then
          (commitLBs arg s dpt.lr ack).map fun s =>
            (s, if result.2 = actLRDone then doneLRs + 1 else doneLRs)
        else some (s, doneLRs)

/-- The loop of `Default_Update_and_Commit_to_User_Policy`. -/
def payloadRounds (arg : MetaArg) (ack : Int) :
    CoreState → Nat → List PayloadTag → Option (CoreState × Nat)
  | s, doneLRs, [] => some (s, doneLRs)
  | s, doneLRs, dpt :: rest =>
      match payloadRound arg ack s doneLRs dpt with
      | none => none
      | some (s, doneLRs) => payloadRounds arg ack s doneLRs rest

/-- `Default_Update_and_Commit_to_User_Policy`. -/
def updateAndCommitToUser (arg : MetaArg) (s : CoreState) (ddt : DatanodeTag) (ack : Int) :
    Option (CoreState × Int) :=
  if arg = .null then some (s, dmsFail)
  else
    (payloadRounds arg ack s 0 ddt.payloadTags).map fun (s, doneLRs) =>
      (s, if ddt.payloadTags = [] then dmsFail else doneLRs)

/-- `Default_Update_and_Commit_to_Namenode_Policy`. -/
def updateAndCommitToNamenode (dmeta : DMSMetadata) : Nat → DMSMetadata × Int
  | 0 => (dmeta, dmsFail)
  | doneLRs + 1 =>
      let counted := updateAndCommitToNamenode dmeta doneLRs
      (counted.1.decWaitingLRs.2,
        if counted.1.decWaitingLRs.1 then actCNamenode else counted.2)

/-- `Commit_Datanode_Tags`. -/
def commitDatanodeTags (arg : MetaArg) (s : CoreState) (ddt : DatanodeTag) (ack : Int) :
    Option CoreState :=
  if IsMemAck ack ∨ ack < 0 then
    if arg = .metadata then
      some { s with dmeta := { s.dmeta with dnTags := s.dmeta.dnTags.insertTail ddt } }
    else none
  else some { s with released := ddt :: s.released }

/-- The namenode policy, which `__VolumeIO_Commiter` calls when located requests got done. -/
def countDone (dmeta : DMSMetadata) (doneLRs : Int) : DMSMetadata × Int :=
  if 0 < doneLRs then updateAndCommitToNamenode dmeta doneLRs.toNat else (dmeta, dmsFail)

/-- The rest of `__VolumeIO_Commiter`, once it knows how many located requests got done. -/
def settle (arg : MetaArg) (s : CoreState) (ddt : DatanodeTag) (ack doneLRs : Int) :
    Option CoreState :=
  let counted := countDone s.dmeta doneLRs
  (commitDatanodeTags arg { s with dmeta := counted.1 } ddt ack).map fun s =>
    if counted.2 = actCNamenode then s.act .commitToNamenode else s

/-- `__VolumeIO_Commiter`. -/
def volumeIOCommiter (arg : MetaArg) (s : CoreState) (ddt : DatanodeTag) (ack : Int) :
    Option CoreState :=
  match updateAndCommitToUser arg s ddt ack with
  | none => none
  | some (s, doneLRs) => settle arg s ddt ack doneLRs

def commitReplies : CoreState → List (DatanodeTag × Int) → Option CoreState
  | s, [] => some s
  | s, (ddt, ack) :: rest =>
      match volumeIOCommiter .metadata s ddt ack with
      | none => none
      | some s => commitReplies s rest

/-- What `Make_and_Send_Datanode_Requests` does about a request that could not be sent:
`vIO_Commiter(dmeta->pdio, ddt, false)`. -/
def sendFailed (s : CoreState) (ddt : DatanodeTag) : Option CoreState :=
  volumeIOCommiter s.pdioArg s ddt 0

section Settle

variable {arg : MetaArg} {s s' : CoreState} {ddt : DatanodeTag} {ack : Int}

def marked (s : CoreState) (index : Nat) (lr : LocatedRequest) : CoreState :=
  { s with dmeta := s.dmeta.setLR index lr.testAndSetCommitted.2 }

/-- What `Commit_LBs_to_DMS_IO` can do: nothing, set the bit, or also call on the DIO, which it does
for the first to set the bit. -/
theorem commitLBs_some {index : Nat} {result : Int}
    (run : commitLBs arg s index result = some s') :
    s' = s ∨ ∃ lr, s.dmeta.lrs[index]? = some lr ∧ (s' = s.marked index lr ∨
      ∃ addr request empty, lr.testAndSetCommitted.1 = false ∧ s.dmeta.pdio = some addr ∧
        s.request.commitLBToDMSIO index addr lr.slbid.toNat lr.nrLBIDs.toInt result =
          some (request, empty) ∧
        s' = { s with
          dmeta := { (s.marked index lr).dmeta with
            pdio := if empty = 1 then none else s.dmeta.pdio }
          request := request
          trace := s.trace ++ [.commitLB index] }) := by
  cases found : s.dmeta.lrs[index]? with
  | none =>
      simp only [commitLBs, found] at run
      cases run
      exact .inl rfl
  | some lr =>
      refine .inr ⟨lr, rfl, ?_⟩
      simp only [commitLBs, found] at run
      split at run
      · cases run
        exact .inl rfl
      · next fresh =>
          split at run
          · cases run
          · split at run
            · cases run
              exact .inl rfl
            · next addr parent =>
                obtain ⟨⟨request, empty⟩, called, rfl⟩ := Option.map_eq_some_iff.mp run
                exact .inr ⟨addr, request, empty, by simpa using fresh, parent, called, rfl⟩

theorem payloadRounds_cons {ack : Int} {doneLRs doneLRs' : Nat} {dpt : PayloadTag}
    {rest : List PayloadTag}
    (run : payloadRounds arg ack s doneLRs (dpt :: rest) = some (s', doneLRs')) :
    ∃ between doneBetween, payloadRound arg ack s doneLRs dpt = some (between, doneBetween) ∧
      payloadRounds arg ack between doneBetween rest = some (s', doneLRs') := by
  rw [payloadRounds] at run
  cases round : payloadRound arg ack s doneLRs dpt with
  | none =>
      rw [round] at run
      cases run
  | some next =>
      rw [round] at run
      exact ⟨next.1, next.2, rfl, run⟩

theorem payloadRound_some {doneLRs doneLRs' : Nat} {dpt : PayloadTag}
    (run : payloadRound arg ack s doneLRs dpt = some (s', doneLRs')) :
    (s.dmeta.lrs[dpt.lr]? = none ∧ s' = s ∧ doneLRs' = doneLRs) ∨
      ∃ lr, s.dmeta.lrs[dpt.lr]? = some lr ∧
      let result := updateAndCommitToUserPolicy s.dmeta.op lr dpt.dnIndex ack
      (¬ AsksCommit result.2 ∧ s' = s.answer dpt.lr result ∧ doneLRs' = doneLRs) ∨
        (AsksCommit result.2 ∧ commitLBs arg (s.answer dpt.lr result) dpt.lr ack = some s' ∧
          doneLRs' = if result.2 = actLRDone then doneLRs + 1 else doneLRs) := by
  cases found : s.dmeta.lrs[dpt.lr]? with
  | none =>
      simp only [payloadRound, found] at run
      cases run
      exact .inl ⟨rfl, rfl, rfl⟩
  | some lr =>
      simp only [payloadRound, found] at run
      split at run
      · cases run
      · split at run
        · next asked =>
            obtain ⟨committed, commits, equality⟩ := Option.map_eq_some_iff.mp run
            obtain ⟨rfl, rfl⟩ := Prod.mk.inj equality
            exact .inr ⟨lr, rfl, .inr ⟨asked, commits, rfl⟩⟩
        · next silent =>
            cases run
            exact .inr ⟨lr, rfl, .inl ⟨silent, rfl, rfl⟩⟩

theorem updateAndCommitToNamenode_keeps (dmeta : DMSMetadata) (doneLRs : Nat) :
    ∃ nrWaitingLRs, (updateAndCommitToNamenode dmeta doneLRs).1 =
      { dmeta with nrWaitingLRs := nrWaitingLRs } := by
  induction doneLRs with
  | zero => exact ⟨dmeta.nrWaitingLRs, rfl⟩
  | succ doneLRs inductionHypothesis =>
      obtain ⟨nrWaitingLRs, counted⟩ := inductionHypothesis
      simp only [updateAndCommitToNamenode, counted]
      exact ⟨_, rfl⟩

structure Settled (user s' : CoreState) (ddt : DatanodeTag) (ack doneLRs : Int) : Prop where
  op : s'.dmeta.op = user.dmeta.op
  lrs : s'.dmeta.lrs = user.dmeta.lrs
  pdio : s'.dmeta.pdio = user.dmeta.pdio
  request : s'.request = user.request
  commits : ∀ index, s'.trace.count (.commitLB index) = user.trace.count (.commitLB index)
  idle : doneLRs ≤ 0 → s'.dmeta.nrWaitingLRs = user.dmeta.nrWaitingLRs ∧ s'.trace = user.trace
  kept : IsMemAck ack ∨ ack < 0 →
    s'.dmeta.dnTags = user.dmeta.dnTags.insertTail ddt ∧ s'.released = user.released
  freed : ¬ (IsMemAck ack ∨ ack < 0) →
    s'.dmeta.dnTags = user.dmeta.dnTags ∧ s'.released = ddt :: user.released

theorem countDone_keeps (dmeta : DMSMetadata) (doneLRs : Int) :
    ∃ nrWaitingLRs, (countDone dmeta doneLRs).1 = { dmeta with nrWaitingLRs := nrWaitingLRs } := by
  unfold countDone
  split
  · exact updateAndCommitToNamenode_keeps ..
  · exact ⟨dmeta.nrWaitingLRs, rfl⟩

theorem countDone_idle (dmeta : DMSMetadata) {doneLRs : Int} (none : doneLRs ≤ 0) :
    countDone dmeta doneLRs = (dmeta, dmsFail) := if_neg (Int.not_lt.mpr none)

theorem settle_some {doneLRs : Int} (run : settle arg s ddt ack doneLRs = some s') :
    Settled s s' ddt ack doneLRs := by
  obtain ⟨nrWaitingLRs, keeps⟩ := countDone_keeps s.dmeta doneLRs
  obtain ⟨tagged, put, finish⟩ := Option.map_eq_some_iff.mp run
  have same : s'.dmeta = tagged.dmeta ∧ s'.request = tagged.request ∧
      s'.released = tagged.released ∧
      (∀ index, s'.trace.count (.commitLB index) = tagged.trace.count (.commitLB index)) ∧
      (doneLRs ≤ 0 → s'.trace = tagged.trace) := by
    rw [← finish]
    split
    · next asked =>
        refine ⟨rfl, rfl, rfl, fun index => by simp [act], fun none => ?_⟩
        rw [countDone_idle _ none] at asked
        cases asked
    · exact ⟨rfl, rfl, rfl, fun _ => rfl, fun _ => rfl⟩
  obtain ⟨dmeta, request, released, commits, trace⟩ := same
  have idle : doneLRs ≤ 0 → (countDone s.dmeta doneLRs).1 = s.dmeta := fun none => by
    rw [countDone_idle _ none]
  unfold commitDatanodeTags at put
  split at put
  · next kept =>
      split at put
      · cases put
        exact ⟨by simp [dmeta, keeps], by simp [dmeta, keeps], by simp [dmeta, keeps], request,
          commits, fun none => ⟨by simp [dmeta, idle none], trace none⟩,
          fun _ => ⟨by simp [dmeta, keeps], released⟩, fun other => absurd kept other⟩
      · cases put
  · next other =>
      cases put
      exact ⟨by simp [dmeta, keeps], by simp [dmeta, keeps], by simp [dmeta, keeps], request,
        commits, fun none => ⟨by simp [dmeta, idle none], trace none⟩,
        fun kept => absurd kept other, fun _ => ⟨by simp [dmeta, keeps], released⟩⟩

/-- The end of the committer fails only for want of a metadata object. -/
theorem settle_metadata (s : CoreState) (ddt : DatanodeTag) (ack doneLRs : Int) :
    ∃ s', settle .metadata s ddt ack doneLRs = some s' := by
  unfold settle commitDatanodeTags
  split
  · exact ⟨_, rfl⟩
  · exact ⟨_, rfl⟩

theorem volumeIOCommiter_some (legal : arg ≠ .null)
    (run : volumeIOCommiter arg s ddt ack = some s') :
    ∃ user doneLRs, payloadRounds arg ack s 0 ddt.payloadTags = some (user, doneLRs) ∧
      Settled user s' ddt ack (if ddt.payloadTags = [] then dmsFail else doneLRs) := by
  unfold volumeIOCommiter at run
  split at run
  · cases run
  · next user retcode updated =>
      rw [updateAndCommitToUser, if_neg legal] at updated
      obtain ⟨⟨user', doneLRs⟩, rounds, equality⟩ := Option.map_eq_some_iff.mp updated
      obtain ⟨rfl, rfl⟩ := Prod.mk.inj equality
      exact ⟨user', doneLRs, rounds, settle_some run⟩

end Settle

end CoreState

end DmsBlkdev
