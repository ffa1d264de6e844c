import DmsBlkdev.Core.Commiter

/-!
# The counters during a reply

A reply changes the counters of the located requests that its tag names, one
payload after the other, and commits do not touch them.
-/

namespace DmsBlkdev

open Lib.Atomic

structure Counters where
  wmemAck : BitVec 32
  wdiskAck : BitVec 32
  locations : Nat
  deriving DecidableEq, Repr

namespace LocatedRequest

def counters (lr : LocatedRequest) : Counters := ⟨lr.wmemAck, lr.wdiskAck, lr.dnLocs.length⟩

end LocatedRequest

namespace Counters

/-- A reply of the datanode at `dnIndex` is counted. -/
def count (op : DMSOp) (ack : Int) (dnIndex : Nat) (counters : Counters) : Counters :=
  if dnIndex < counters.locations then
    { counters with
      wmemAck := if CountsMem op ack then counters.wmemAck - 1 else counters.wmemAck
      wdiskAck := if CountsDisk op ack then counters.wdiskAck - 1 else counters.wdiskAck }
  else counters

@[simp] theorem count_locations (op : DMSOp) (ack : Int) (dnIndex : Nat) (counters : Counters) :
    (counters.count op ack dnIndex).locations = counters.locations := by
  unfold count
  split <;> rfl

end Counters

theorem policy_counters (op : DMSOp) (lr : LocatedRequest) (dnlIndex : Nat) (ack : Int) :
    (updateAndCommitToUserPolicy op lr dnlIndex ack).1.counters =
      lr.counters.count op ack dnlIndex := by
  unfold updateAndCommitToUserPolicy Counters.count
  have inside : lr.counters.locations = lr.dnLocs.length := rfl
  rw [inside]
  split
  · have counted := countAck_counted op (lr.setDnResult dnlIndex ack) ack
    simp only [LocatedRequest.counters, counted.wmemAck, counted.wdiskAck, counted.locations,
      setDnResult_wmemAck, setDnResult_wdiskAck, setDnResult_length]
  · rfl

namespace CoreState

def counters (s : CoreState) : List Counters := s.dmeta.lrs.map LocatedRequest.counters

section Step

variable {arg : MetaArg} {s s' : CoreState}

theorem setLR_map {Value : Type*} (value : LocatedRequest → Value) {dmeta : DMSMetadata}
    {index : Nat} {lr lr' : LocatedRequest} {change : Value → Value}
    (found : dmeta.lrs[index]? = some lr) (changed : value lr' = change (value lr)) :
    (dmeta.setLR index lr').lrs.map value = (dmeta.lrs.map value).modify index change := by
  apply List.ext_getElem?
  intro other
  rw [DMSMetadata.setLR, List.getElem?_map, List.getElem?_modify, List.getElem?_map]
  by_cases same : index = other
  · subst same
    rw [List.getElem?_set_self (List.getElem?_eq_some_iff.mp found).1, found]
    simp [changed]
  · rw [List.getElem?_set_ne same]
    simp [same]

theorem setLR_map_same {Value : Type*} (value : LocatedRequest → Value) {dmeta : DMSMetadata}
    {index : Nat} {lr lr' : LocatedRequest} (found : dmeta.lrs[index]? = some lr)
    (same : value lr' = value lr) :
    (dmeta.setLR index lr').lrs.map value = dmeta.lrs.map value := by
  rw [@setLR_map _ value _ _ _ _ id found same, List.modify_id]

theorem commitLBs_keeps {index : Nat} {result : Int}
    (run : commitLBs arg s index result = some s') :
    s'.dmeta.op = s.dmeta.op ∧ s'.counters = s.counters ∧
      s'.dmeta.nrWaitingLRs = s.dmeta.nrWaitingLRs ∧
      (∀ lr retcode, Action.policy lr retcode ∈ s'.trace ↔ Action.policy lr retcode ∈ s.trace) := by
  rcases commitLBs_some run with rfl | ⟨lr, found, outcome⟩
  · exact ⟨rfl, rfl, rfl, fun _ _ => .rfl⟩
  · have marked : (s.marked index lr).counters = s.counters := setLR_map_same _ found rfl
    rcases outcome with rfl | ⟨addr, request, empty, -, -, -, rfl⟩
    · exact ⟨rfl, marked, rfl, fun _ _ => .rfl⟩
    · exact ⟨rfl, marked, rfl, fun _ _ => by simp⟩

/-- The policy calls a located request done only when one disk ack is left to count. -/
theorem policy_done {op : DMSOp} {lr : LocatedRequest} {dnlIndex : Nat} {ack : Int}
    (done : (updateAndCommitToUserPolicy op lr dnlIndex ack).2 = actLRDone) :
    CountsDisk op ack ∧ lr.counters.wdiskAck = 1 := by
  unfold updateAndCommitToUserPolicy at done
  split at done
  · rw [countAck_answer, setDnResult_wdiskAck] at done
    by_contra pending
    change ¬ (CountsDisk op ack ∧ lr.wdiskAck = 1) at pending
    rw [if_neg pending] at done
    split at done
    · split at done <;> cases done
    · split at done <;> cases done
  · cases done

/-- What one round of the payload loop does to the counters, to `done_lrs` and to the answers. -/
structure Round (op : DMSOp) (ack : Int) (dpt : PayloadTag) (s s' : CoreState)
    (doneLRs doneLRs' : Nat) : Prop where
  sameOp : s'.dmeta.op = s.dmeta.op
  counters : s'.counters = s.counters.modify dpt.lr (Counters.count op ack dpt.dnIndex)
  nrWaitingLRs : s'.dmeta.nrWaitingLRs = s.dmeta.nrWaitingLRs
  answers : (doneLRs' = doneLRs ∧ ∀ lr, .policy lr actLRDone ∈ s'.trace →
      .policy lr actLRDone ∈ s.trace) ∨
    (CountsDisk op ack ∧ ∃ counters, s.counters[dpt.lr]? = some counters ∧ counters.wdiskAck = 1)

theorem payloadRound_counts {ack : Int} {doneLRs doneLRs' : Nat} {dpt : PayloadTag}
    (run : payloadRound arg ack s doneLRs dpt = some (s', doneLRs')) :
    Round s.dmeta.op ack dpt s s' doneLRs doneLRs' := by
  rcases payloadRound_some run with ⟨absent, rfl, rfl⟩ | ⟨lr, found, outcome⟩
  · have outside : s'.counters[dpt.lr]? = none := by simp [counters, absent]
    refine ⟨rfl, ?_, rfl, .inl ⟨rfl, fun _ => id⟩⟩
    rw [List.modify_eq_self (List.getElem?_eq_none_iff.mp outside)]
  · let result := updateAndCommitToUserPolicy s.dmeta.op lr dpt.dnIndex ack
    have counted : (s.answer dpt.lr result).counters =
        s.counters.modify dpt.lr (Counters.count s.dmeta.op ack dpt.dnIndex) :=
      setLR_map _ found (policy_counters ..)
    have said : result.2 ≠ actLRDone → ∀ index,
        Action.policy index actLRDone ∈ (s.answer dpt.lr result).trace →
          Action.policy index actLRDone ∈ s.trace := by
      intro notDone index member
      rcases List.mem_append.mp member with early | now
      · exact early
      · rw [List.mem_singleton, Action.policy.injEq] at now
        exact absurd now.2.symm notDone
    have last : result.2 = actLRDone → CountsDisk s.dmeta.op ack ∧
        ∃ counters, s.counters[dpt.lr]? = some counters ∧ counters.wdiskAck = 1 := fun done =>
      ⟨(policy_done done).1, lr.counters, by simp [counters, found], (policy_done done).2⟩
    rcases outcome with ⟨silent, rfl, rfl⟩ | ⟨asked, commits, rfl⟩
    · have notDone : result.2 ≠ actLRDone := fun done => silent (.inr done)
      exact ⟨rfl, counted, rfl, .inl ⟨rfl, said notDone⟩⟩
    · obtain ⟨op, same, waiting, answers⟩ := commitLBs_keeps commits
      refine ⟨op, same.trans counted, waiting, ?_⟩
      by_cases done : result.2 = actLRDone
      · exact .inr (last done)
      · exact .inl ⟨if_neg done, fun index member => said done index ((answers _ _).mp member)⟩

def countTag (op : DMSOp) (ack : Int) (counters : List Counters) (payloadTags : List PayloadTag) :
    List Counters :=
  payloadTags.foldl (fun counters dpt =>
    counters.modify dpt.lr (Counters.count op ack dpt.dnIndex)) counters

theorem payloadRounds_counters {ack : Int} {doneLRs doneLRs' : Nat} {payloadTags : List PayloadTag}
    (run : payloadRounds arg ack s doneLRs payloadTags = some (s', doneLRs')) :
    s'.dmeta.op = s.dmeta.op ∧ s'.counters = countTag s.dmeta.op ack s.counters payloadTags ∧
      s'.dmeta.nrWaitingLRs = s.dmeta.nrWaitingLRs := by
  induction payloadTags generalizing s doneLRs with
  | nil =>
      cases run
      exact ⟨rfl, rfl, rfl⟩
  | cons dpt rest inductionHypothesis =>
      obtain ⟨between, doneBetween, round, runRest⟩ := payloadRounds_cons run
      have first := payloadRound_counts round
      obtain ⟨op, counters, waiting⟩ := inductionHypothesis runRest
      refine ⟨op.trans first.sameOp, ?_, waiting.trans first.nrWaitingLRs⟩
      rw [counters, first.sameOp, first.counters]
      rfl

def countMany (op : DMSOp) (ack : Int) (times : Nat) (counters : Counters) : Counters :=
  { counters with
    wmemAck := if CountsMem op ack then counters.wmemAck - BitVec.ofNat 32 times
      else counters.wmemAck
    wdiskAck := if CountsDisk op ack then counters.wdiskAck - BitVec.ofNat 32 times
      else counters.wdiskAck }

/-- The tag names locations that are there. -/
def Located (counters : List Counters) (payloadTags : List PayloadTag) : Prop :=
  ∀ dpt ∈ payloadTags, ∃ own, counters[dpt.lr]? = some own ∧ dpt.dnIndex < own.locations

theorem countMany_succ (op : DMSOp) (ack : Int) (times : Nat) {dnIndex : Nat} {counters : Counters}
    (inside : dnIndex < counters.locations) :
    countMany op ack times (counters.count op ack dnIndex) =
      countMany op ack (times + 1) counters := by
  have more : BitVec.ofNat 32 (times + 1) = 1 + BitVec.ofNat 32 times := by
    rw [Nat.add_comm, BitVec.ofNat_add]
    rfl
  simp only [countMany, Counters.count, if_pos inside, more]
  congr 1
  · split
    · exact sub_sub ..
    · rfl
  · split
    · exact sub_sub ..
    · rfl

theorem countMany_zero (op : DMSOp) (ack : Int) (counters : Counters) :
    countMany op ack 0 counters = counters := by
  simp [countMany]

theorem countTag_getElem? {op : DMSOp} {ack : Int} {counters : List Counters}
    {payloadTags : List PayloadTag} (located : Located counters payloadTags) (index : Nat) :
    (countTag op ack counters payloadTags)[index]? = (counters[index]?).map
      (countMany op ack (payloadTags.countP fun dpt => dpt.lr = index)) := by
  induction payloadTags generalizing counters with
  | nil =>
      simp only [countTag, List.foldl_nil, List.countP_nil]
      cases counters[index]? <;> simp [countMany_zero]
  | cons dpt rest inductionHypothesis =>
      obtain ⟨own, found, inside⟩ := located dpt List.mem_cons_self
      have still : Located (counters.modify dpt.lr (Counters.count op ack dpt.dnIndex)) rest := by
        intro other member
        obtain ⟨theirs, there, within⟩ := located other (List.mem_cons_of_mem _ member)
        rw [List.getElem?_modify, there]
        by_cases same : dpt.lr = other.lr
        · exact ⟨_, by simp [same]; rfl, by simpa using within⟩
        · exact ⟨_, by simp [same], within⟩
      change (countTag op ack _ rest)[index]? = _
      rw [inductionHypothesis still, List.getElem?_modify, List.countP_cons]
      by_cases same : dpt.lr = index
      · subst same
        simp [found, countMany_succ op ack _ inside]
      · simp [same]

end Step

end CoreState

end DmsBlkdev
