import DmsBlkdev.Core.Counting
import DmsBlkdev.Core.Once
import DmsBlkdev.Lib.Multiplicity
import DmsBlkdev.Namenode.WellFormed

/-!
# Located requests that never get done

The parser leaves the counters of a located request at zero, and the metadata
object is installed like that.  Each datanode counts down the disk acks twice
at most, which is far from one turn of the counter, so no reply is the one
that uses them up.
-/

namespace DmsBlkdev

open Lib.Atomic Lib.Wire

section Install

/-- `Create_DMS_Metadata`, when its memory is granted. -/
def createDMSMetadata (dio : DMSIO) : DMSMetadata where
  op := dio.op
  lrs := []
  dnTags := .init
  commitID := 0
  pdio := some dio.addr
  nrWaitingLRs := 0

/-- `Process_Namenode_Response`: the metadata object that is installed in the DIO, and the return
code. -/
def processNamenodeResponse (granted : Bool) (dio : DMSIO) (body : QueryMetadataResponse) :
    Option DMSMetadata × Int :=
  if granted then
    (some { createDMSMetadata dio with
      lrs := body.lrs
      commitID := body.commitID
      nrWaitingLRs := BitVec.ofNat 32 body.nrLRs }, dmsOK)
  else (none, dmsFail)

structure FreshLR (lr : LocatedRequest) : Prop where
  wdiskAck : lr.wdiskAck = 0
  few : lr.dnLocs.length < 2 ^ 15

theorem freshLR_zero : FreshLR .zero := ⟨rfl, by decide⟩

theorem LRMsg.Fits.freshLR {msg : LRMsg} (fits : msg.Fits) (slbid : BitVec 64) :
    FreshLR (msg.decoded slbid) := by
  refine ⟨rfl, ?_⟩
  have bound := @BitVec.toInt_lt 16 msg.nrDnLocs
  simp only [LRMsg.decoded, List.length_map, fits.count]
  omega

theorem parseLocatedRequests_fresh {grants : Allocations} {buf : Bytes} {slbid : BitVec 64}
    {rounds attempts attempts' : Nat} {bufOffset retcode : Int} {lbidOffset : BitVec 16}
    {lrs : List LocatedRequest}
    (parsed : parseLocatedRequests grants slbid buf (List.replicate rounds .zero) bufOffset
      lbidOffset attempts = .ok (lrs, retcode, attempts')) : ∀ lr ∈ lrs, FreshLR lr := by
  induction rounds generalizing bufOffset lbidOffset attempts lrs retcode attempts' with
  | zero =>
      cases parsed
      exact List.forall_mem_nil _
  | succ rounds inductionHypothesis =>
      rw [List.replicate_succ, parseLocatedRequests] at parsed
      split at parsed
      · cases parsed
      · simp only [bind_eq_ok, Prod.exists] at parsed
        obtain ⟨first, code, attemptsRest, read, rest⟩ := parsed
        obtain ⟨msg, fits, -, -, rfl, -, -⟩ := parseLocatedRequest_eq_ok.mp read
        split at rest
        · simp only [bind_eq_ok, Prod.exists] at rest
          obtain ⟨others, code', attemptsEnd, readRest, done⟩ := rest
          cases done
          exact List.forall_mem_cons.mpr ⟨fits.freshLR _, inductionHypothesis readRest⟩
        · cases rest
          refine List.forall_mem_cons.mpr ⟨fits.freshLR _, fun lr member => ?_⟩
          rw [List.eq_of_mem_replicate member]
          exact freshLR_zero

/-- The parser sets no counter. -/
theorem parseMetadataResponse_fresh {grants : Allocations} {buf : Bytes} {attempts attempts' : Nat}
    {response : QueryMetadataResponse} {retcode : Int}
    (parsed : parseMetadataResponse grants buf attempts = .ok (response, retcode, attempts')) :
    ∀ lr ∈ response.lrs, FreshLR lr := by
  obtain ⟨_, _, _, _, _, _, loop, -⟩ := parseMetadataResponse_loop parsed
  exact parseLocatedRequests_fresh loop

end Install

/-- A located request is called done, or the namenode is told. -/
def Action.finishes : Action → Bool
  | policy _ retcode => retcode = actLRDone
  | commitLB _ => false
  | commitToNamenode => true

namespace CoreState

def Quiet (s : CoreState) : Prop := ∀ action ∈ s.trace, action.finishes = false

def Within (s : CoreState) (payloadTags : List PayloadTag) : Prop :=
  ∀ index counters, s.counters[index]? = some counters → ∃ used,
    counters.wdiskAck = countdown 32 0 used ∧
      used + payloadTags.countP (fun dpt => dpt.lr = index) + 1 < 2 ^ 32

section Reply

variable {arg : MetaArg} {s s' : CoreState} {ack : Int}

theorem Quiet.act {action : Action} (quiet : s.Quiet) (open_ : action.finishes = false) :
    (s.act action).Quiet := by
  intro other member
  rcases List.mem_append.mp member with early | now
  · exact quiet other early
  · rw [List.mem_singleton.mp now]
    exact open_

theorem Quiet.commitLBs {index : Nat} {result : Int} (quiet : s.Quiet)
    (run : commitLBs arg s index result = some s') : s'.Quiet := by
  rcases commitLBs_some run with rfl | ⟨lr, -, rfl | ⟨addr, request, empty, -, -, -, rfl⟩⟩
  · exact quiet
  · exact quiet
  · exact Quiet.act quiet rfl

theorem Within.not_last {payloadTags : List PayloadTag} (within : s.Within payloadTags)
    {index : Nat} {counters : Counters} (found : s.counters[index]? = some counters) :
    counters.wdiskAck ≠ 1 := by
  intro last
  obtain ⟨used, started, few⟩ := within index counters found
  have zero : countdown 32 0 (used + 1) = 0 := by
    rw [← countdown_sub_one, ← started, last]
    rfl
  rw [countdown_eq_zero_iff, Nat.zero_mod, Nat.mod_eq_of_lt (by omega)] at zero
  omega

theorem count_wdiskAck (op : DMSOp) (ack : Int) (dnIndex : Nat) (counters : Counters) :
    (counters.count op ack dnIndex).wdiskAck = counters.wdiskAck - 1 ∨
      (counters.count op ack dnIndex).wdiskAck = counters.wdiskAck := by
  unfold Counters.count
  split
  · by_cases disk : CountsDisk op ack
    · exact .inl (if_pos disk)
    · exact .inr (if_neg disk)
  · exact .inr rfl

theorem Within.count {dpt : PayloadTag} {rest : List PayloadTag} {op : DMSOp}
    (within : s.Within (dpt :: rest))
    (counted : s'.counters = s.counters.modify dpt.lr (Counters.count op ack dpt.dnIndex)) :
    s'.Within rest := by
  intro index counters found
  rw [counted, List.getElem?_modify] at found
  obtain ⟨before, there, after⟩ := Option.map_eq_some_iff.mp found
  obtain ⟨used, started, few⟩ := within index before there
  rw [List.countP_cons] at few
  by_cases own : dpt.lr = index
  · simp only [own, if_true, decide_true] at after few
    rw [← after]
    rcases count_wdiskAck op ack dpt.dnIndex before with one | none
    · refine ⟨used + 1, ?_, by omega⟩
      rw [one, started, countdown_sub_one]
    · exact ⟨used, none.trans started, by omega⟩
  · simp only [own, if_false] at after
    rw [← after]
    exact ⟨used, started, by omega⟩

theorem payloadRound_quiet {dpt : PayloadTag} {rest : List PayloadTag} {doneLRs doneLRs' : Nat}
    (quiet : s.Quiet) (within : s.Within (dpt :: rest))
    (run : payloadRound arg ack s doneLRs dpt = some (s', doneLRs')) :
    s'.Quiet ∧ s'.Within rest ∧ doneLRs' = doneLRs := by
  have round := payloadRound_counts run
  refine ⟨?_, within.count round.counters, ?_⟩
  · rcases payloadRound_some run with ⟨-, rfl, -⟩ | ⟨lr, found, outcome⟩
    · exact quiet
    · have pending : (updateAndCommitToUserPolicy s.dmeta.op lr dpt.dnIndex ack).2 ≠
          actLRDone := by
        intro done
        have there : s.counters[dpt.lr]? = some lr.counters := by simp [counters, found]
        exact within.not_last there (policy_done done).2
      have answered : (s.answer dpt.lr
          (updateAndCommitToUserPolicy s.dmeta.op lr dpt.dnIndex ack)).Quiet := by
        apply Quiet.act
        · exact quiet
        · exact decide_eq_false pending
      rcases outcome with ⟨-, rfl, -⟩ | ⟨-, commits, -⟩
      · exact answered
      · exact Quiet.commitLBs answered commits
  · rcases round.answers with ⟨same, -⟩ | ⟨-, counters, there, last⟩
    · exact same
    · exact absurd last (within.not_last there)

theorem payloadRounds_quiet {payloadTags rest : List PayloadTag} {doneLRs doneLRs' : Nat}
    (quiet : s.Quiet) (within : s.Within (payloadTags ++ rest))
    (run : payloadRounds arg ack s doneLRs payloadTags = some (s', doneLRs')) :
    s'.Quiet ∧ s'.Within rest ∧ doneLRs' = doneLRs := by
  induction payloadTags generalizing s doneLRs with
  | nil =>
      cases run
      exact ⟨quiet, within, rfl⟩
  | cons dpt later inductionHypothesis =>
      obtain ⟨between, doneBetween, round, runRest⟩ := payloadRounds_cons run
      obtain ⟨quietBetween, withinBetween, rfl⟩ := payloadRound_quiet quiet within round
      exact inductionHypothesis quietBetween withinBetween runRest

theorem volumeIOCommiter_quiet {ddt : DatanodeTag} {rest : List PayloadTag} (quiet : s.Quiet)
    (within : s.Within (ddt.payloadTags ++ rest))
    (run : volumeIOCommiter .metadata s ddt ack = some s') : s'.Quiet ∧ s'.Within rest := by
  obtain ⟨user, doneLRs, rounds, settled⟩ := volumeIOCommiter_some (by decide) run
  obtain ⟨quietUser, withinUser, rfl⟩ := payloadRounds_quiet quiet within rounds
  have idle := settled.idle (by split <;> decide)
  refine ⟨fun action member => quietUser action (idle.2 ▸ member), fun index counters found => ?_⟩
  rw [CoreState.counters, settled.lrs] at found
  exact withinUser index counters found

end Reply

def payloads (inputs : List (DatanodeTag × Int)) : List PayloadTag :=
  inputs.flatMap fun input => input.1.payloadTags

/-- Replies that do not bring a counter round finish nothing. -/
theorem commitReplies_quiet {s s' : CoreState} {inputs : List (DatanodeTag × Int)} (quiet : s.Quiet)
    (within : s.Within (payloads inputs)) (run : commitReplies s inputs = some s') : s'.Quiet := by
  induction inputs generalizing s with
  | nil =>
      cases run
      exact quiet
  | cons input rest inductionHypothesis =>
      simp only [commitReplies] at run
      split at run
      · cases run
      · next between step =>
          obtain ⟨quietBetween, withinBetween⟩ := volumeIOCommiter_quiet quiet within step
          exact inductionHypothesis quietBetween withinBetween run

section Delivery

def replicas (s : CoreState) (index : Nat) : Nat :=
  ((s.counters[index]?).map Counters.locations).getD 0

/-- A reply after which nothing more is expected of a datanode. -/
def Final (ack : Int) : Prop := IsDiskAck ack ∨ IsErrorReply ack

instance : DecidablePred Final := fun _ => inferInstanceAs (Decidable (_ ∨ _))

/-- The replies of a datanode to a write: a memory ack and then a disk ack, or an error in place of
either. -/
inductive WriteReplies : List Int → Prop where
  | both {first last : Int} : IsMemAck first ∨ IsErrorReply first → Final last →
      WriteReplies [first, last]
  | failed {error : Int} : IsErrorReply error → WriteReplies [error]

theorem WriteReplies.length_le {acks : List Int} (replies : WriteReplies acks) :
    acks.length ≤ 2 := by
  cases replies with
  | both first last => exact Nat.le_refl 2
  | failed error => exact Nat.le_succ 1

theorem WriteReplies.final {acks : List Int} (replies : WriteReplies acks) :
    ∃ ack ∈ acks, Final ack := by
  cases replies with
  | @both first last _ final => exact ⟨last, by simp, final⟩
  | @failed error fails => exact ⟨error, by simp, .inr fails⟩

/-- The replies of all datanodes, in any order: each location of a located request stands in the tag
of one datanode, and each tag gets the replies to a write. -/
structure Delivery (s : CoreState) (tags : List DatanodeTag) (inputs : List (DatanodeTag × Int)) :
    Prop where
  covers : ∀ index, ∀ dnIndex < s.replicas index,
    ∃ ddt ∈ tags, ⟨index, dnIndex⟩ ∈ ddt.payloadTags ∧
      ∀ other ∈ tags, ⟨index, dnIndex⟩ ∈ other.payloadTags → other = ddt
  located : ∀ ddt ∈ tags, ∀ dpt ∈ ddt.payloadTags, dpt.dnIndex < s.replicas dpt.lr
  distinct : ∀ ddt ∈ tags, ddt.payloadTags.Nodup
  fromTags : ∀ input ∈ inputs, input.1 ∈ tags
  replies : ∀ ddt ∈ tags, WriteReplies ((inputs.filter (·.1 = ddt)).map Prod.snd)

variable {s : CoreState} {tags : List DatanodeTag} {inputs : List (DatanodeTag × Int)}

/-- A location is named by two replies at most. -/
theorem Delivery.twice (delivery : Delivery s tags inputs) {index dnIndex : Nat}
    (small : dnIndex < s.replicas index) :
    (payloads inputs).countP (fun dpt => dpt = ⟨index, dnIndex⟩) ≤ 2 := by
  obtain ⟨ddt, member, -, only⟩ := delivery.covers index dnIndex small
  have few := (delivery.replies ddt member).length_le
  rw [List.length_map, ← List.countP_eq_length_filter] at few
  refine Nat.le_trans (Lib.Multiplicity.countP_flatMap_le fun input there => ?_) few
  have tag := delivery.fromTags input there
  by_cases named : ⟨index, dnIndex⟩ ∈ input.1.payloadTags
  · have once := List.nodup_iff_count_le_one.mp (delivery.distinct _ tag) ⟨index, dnIndex⟩
    rw [decide_eq_true (only _ tag named)]
    exact once
  · have never := List.count_eq_zero.mpr named
    exact Nat.le_trans (Nat.le_of_eq never) (Nat.zero_le _)

theorem Delivery.few (delivery : Delivery s tags inputs) (index : Nat) :
    (payloads inputs).countP (fun dpt => dpt.lr = index) ≤ 2 * s.replicas index := by
  rw [List.countP_eq_length_filter]
  refine @Lib.Multiplicity.length_le _ _ PayloadTag.dnIndex _ ?_ 2 ?_
  · intro dpt member
    obtain ⟨named, own⟩ := List.mem_filter.mp member
    obtain ⟨input, there, inTag⟩ := List.mem_flatMap.mp named
    have small := delivery.located _ (delivery.fromTags input there) dpt inTag
    rwa [of_decide_eq_true own] at small
  · intro dnIndex small
    refine Nat.le_trans ?_ (delivery.twice small)
    rw [List.countP_filter]
    refine Nat.le_of_eq (List.countP_congr fun dpt _ => ?_)
    cases dpt
    simp only [Bool.and_eq_true, decide_eq_true_eq, PayloadTag.mk.injEq]
    exact and_comm

def Delivered (s : CoreState) (inputs : List (DatanodeTag × Int)) (index : Nat) : Prop :=
  ∀ dnIndex < s.replicas index,
    ∃ input ∈ inputs, ⟨index, dnIndex⟩ ∈ input.1.payloadTags ∧ Final input.2

instance (s : CoreState) (inputs : List (DatanodeTag × Int)) (index : Nat) :
    Decidable (s.Delivered inputs index) :=
  inferInstanceAs (Decidable (∀ dnIndex < s.replicas index, ∃ input ∈ inputs, _ ∧ _))

theorem Delivery.delivered (delivery : Delivery s tags inputs) (index : Nat) :
    s.Delivered inputs index := by
  intro dnIndex small
  obtain ⟨ddt, member, named, -⟩ := delivery.covers index dnIndex small
  obtain ⟨ack, replied, final⟩ := (delivery.replies ddt member).final
  obtain ⟨input, found, rfl⟩ := List.mem_map.mp replied
  obtain ⟨there, own⟩ := List.mem_filter.mp found
  refine ⟨input, there, ?_, final⟩
  rwa [of_decide_eq_true own]

end Delivery

section Installed

def installed (dmeta : DMSMetadata) (request : Request) : CoreState := ⟨dmeta, request, [], []⟩

/-- Each located request has been called done, once, if all its datanodes are through with it, and
the namenode has been told, once, if that is so for all of them. -/
structure Completed (s : CoreState) (inputs : List (DatanodeTag × Int)) (reached : CoreState) :
    Prop where
  lrDone : ∀ index < s.dmeta.lrs.length, reached.trace.count (.policy index actLRDone) =
    if s.Delivered inputs index then 1 else 0
  namenode : reached.trace.count .commitToNamenode =
    if ∀ index < s.dmeta.lrs.length, s.Delivered inputs index then 1 else 0

def Completes (s : CoreState) (inputs : List (DatanodeTag × Int)) : Prop :=
  ∀ earlier later, inputs = earlier ++ later →
    ∃ reached, commitReplies s earlier = some reached ∧ Completed s earlier reached

theorem Quiet.not_completed {s reached : CoreState} {inputs : List (DatanodeTag × Int)}
    (quiet : reached.Quiet) (delivered : ∀ index, s.Delivered inputs index) :
    ¬ Completed s inputs reached := by
  intro completed
  have told := completed.namenode
  rw [if_pos fun index _ => delivered index] at told
  have member : Action.commitToNamenode ∈ reached.trace :=
    List.count_pos_iff.mp (told ▸ Nat.one_pos)
  cases quiet _ member

variable {grants : Allocations} {buf : Bytes} {attempts attempts' : Nat}
  {response : QueryMetadataResponse} {retcode : Int} {granted : Bool} {dio : DMSIO}
  {dmeta : DMSMetadata} {tags : List DatanodeTag} {inputs : List (DatanodeTag × Int)}

/-- The counters of an installed metadata object are far from their last decrement. -/
theorem installed_within
    (parsed : parseMetadataResponse grants buf attempts = .ok (response, retcode, attempts'))
    (processed : (processNamenodeResponse granted dio response).1 = some dmeta) (request : Request)
    (delivery : Delivery (installed dmeta request) tags inputs) :
    (installed dmeta request).Within (payloads inputs) := by
  intro index counters found
  have lrs : dmeta.lrs = response.lrs := by
    unfold processNamenodeResponse at processed
    split at processed
    · cases processed
      rfl
    · cases processed
  have few := delivery.few index
  have there : (installed dmeta request).replicas index = counters.locations := by
    rw [replicas, found]
    rfl
  obtain ⟨lr, stored, rfl⟩ := Option.map_eq_some_iff.mp (List.getElem?_map .. ▸ found)
  have fresh := parseMetadataResponse_fresh parsed lr (lrs ▸ List.mem_of_getElem? stored)
  have short : lr.counters.locations < 2 ^ 15 := fresh.few
  refine ⟨0, ?_, by omega⟩
  rw [countdown_zero]
  exact fresh.wdiskAck

/-- However the datanodes of a response deliver their replies, no located request is ever called
done and the namenode is never told. -/
theorem never_completes
    (parsed : parseMetadataResponse grants buf attempts = .ok (response, retcode, attempts'))
    (processed : (processNamenodeResponse granted dio response).1 = some dmeta) (request : Request)
    (delivery : Delivery (installed dmeta request) tags inputs) :
    (∀ reached, commitReplies (installed dmeta request) inputs = some reached → reached.Quiet) ∧
      ¬ Completes (installed dmeta request) inputs := by
  have quiet : ∀ reached, commitReplies (installed dmeta request) inputs = some reached →
      reached.Quiet := fun reached run =>
    commitReplies_quiet (fun _ member => by cases member)
      (installed_within parsed processed request delivery) run
  refine ⟨quiet, fun completes => ?_⟩
  obtain ⟨reached, run, completed⟩ := completes inputs [] (List.append_nil inputs).symm
  exact (quiet reached run).not_completed delivery.delivered completed

def twoReplicas : ResponseMsg :=
  ⟨1, 0, 1, 5, 1, [⟨1, 1, [7], 2, [⟨1, 2, 1, [9]⟩, ⟨2, 2, 1, [9]⟩]⟩]⟩

def oneBlockDIO : DMSIO := ⟨0, .write, 0, 1, some ⟨0, [⟨0, 0, 0, 0⟩]⟩, 1⟩

/-- The metadata object of `twoReplicas`. -/
def twoReplicasMetadata : DMSMetadata :=
  { createDMSMetadata oneBlockDIO with
    lrs := twoReplicas.encoded.lrs
    commitID := 5
    nrWaitingLRs := 1 }

def twoReplicaWrite : CoreState := installed twoReplicasMetadata oneBlockWrite.request

def replicaTag (dnIndex : Nat) : DatanodeTag := ⟨dnIndex, dnIndex, [⟨0, dnIndex⟩]⟩

def twoReplicaReplies : List (DatanodeTag × Int) :=
  [(replicaTag 0, wmemAck), (replicaTag 1, wmemAck), (replicaTag 0, wdiskAck),
    (replicaTag 1, wdiskAck)]

theorem twoReplicaWrite_delivery :
    Delivery twoReplicaWrite [replicaTag 0, replicaTag 1] twoReplicaReplies := by
  have replies : WriteReplies [wmemAck, wdiskAck] := .both (by decide) (by decide)
  refine ⟨?_, by decide, by decide, by decide, ?_⟩
  · rintro (_ | index) dnIndex small
    · have cases_ : dnIndex = 0 ∨ dnIndex = 1 := by
        have two : twoReplicaWrite.replicas 0 = 2 := by decide
        omega
      rcases cases_ with rfl | rfl
      · exact ⟨replicaTag 0, by decide, by decide, by decide⟩
      · exact ⟨replicaTag 1, by decide, by decide, by decide⟩
    · cases small
  · intro ddt member
    rcases List.mem_cons.mp member with rfl | later
    · exact replies
    · rw [List.mem_singleton.mp later]
      exact replies

theorem never_completes_twoReplicas :
    (∀ reached, commitReplies twoReplicaWrite twoReplicaReplies = some reached → reached.Quiet) ∧
      ¬ Completes twoReplicaWrite twoReplicaReplies := by
  have parsed : parseMetadataResponse (fun _ => true) twoReplicas.bytes 0 =
      .ok (twoReplicas.encoded, twoReplicas.bytes.length, 5) := by decide +kernel
  have processed : (processNamenodeResponse true oneBlockDIO twoReplicas.encoded).1 =
      some twoReplicasMetadata := rfl
  exact never_completes parsed processed oneBlockWrite.request twoReplicaWrite_delivery

/-- Each datanode delivers a memory ack and a disk ack. -/
theorem twoReplicas_not_completed :
    Delivery twoReplicaWrite [replicaTag 0, replicaTag 1] twoReplicaReplies ∧
      ¬ Completes twoReplicaWrite twoReplicaReplies := by
  refine ⟨twoReplicaWrite_delivery, fun completes => ?_⟩
  obtain ⟨reached, run, completed⟩ := completes twoReplicaReplies [] (List.append_nil _).symm
  have silent : (commitReplies twoReplicaWrite twoReplicaReplies).map
      (fun reached => reached.trace.count .commitToNamenode) = some 0 := by decide
  have told := completed.namenode
  rw [run] at silent
  have zero : reached.trace.count .commitToNamenode = 0 := Option.some.inj silent
  rw [zero] at told
  revert told
  decide

end Installed

end CoreState

end DmsBlkdev
