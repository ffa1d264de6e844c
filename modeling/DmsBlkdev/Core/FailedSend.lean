import DmsBlkdev.Core.Counting
import DmsBlkdev.Core.Once

/-!
# A request that could not be sent

When a send fails, the committer is called with the parent DIO in the place of
the metadata object and with result zero.  Zero is no reply code, so nothing
is counted, while an error reply counts down both counters of every payload.
-/

namespace DmsBlkdev

namespace CoreState

/-- What a reply is accounted in: the counters and the commit state of the located requests, the
number of located requests that are awaited, and the blocks of the DIOs. -/
structure Accounts where
  lrs : List (BitVec 32 × BitVec 32 × BitVec 32)
  nrWaitingLRs : BitVec 32
  blocks : Nat → Option (List LBMD)

def accounts (s : CoreState) : Accounts where
  lrs := s.dmeta.lrs.map fun lr => (lr.wmemAck, lr.wdiskAck, lr.commitState)
  nrWaitingLRs := s.dmeta.nrWaitingLRs
  blocks addr := ((s.request.dios addr).bind DMSIO.lbList).map LBList.blocks

structure TagOf (s : CoreState) (ddt : DatanodeTag) : Prop where
  located : ∀ dpt ∈ ddt.payloadTags, ∃ lr, s.dmeta.lrs[dpt.lr]? = some lr ∧
    dpt.dnIndex < lr.dnLocs.length
  short : ∀ lr ∈ s.dmeta.lrs, lr.dnLocs.length < 2 ^ 15
  distinct : ddt.payloadTags.Nodup

/-- The failed send of a tag is accounted like this error reply of its datanode. -/
def AccountedLike (s : CoreState) (ddt : DatanodeTag) (error : Int) : Prop :=
  ∃ failed replied, sendFailed s ddt = some failed ∧
    volumeIOCommiter .metadata s ddt error = some replied ∧ failed.accounts = replied.accounts

section Send

variable {s : CoreState}

theorem countAck_zero (op : DMSOp) (lr : LocatedRequest) : countAck op lr 0 = (lr, dmsFail) := by
  apply countAck_ignored
  · unfold CountsMem
    exact fun counts => counts.elim (by decide) fun error => absurd error.1 (by decide)
  · unfold CountsDisk
    exact fun counts => counts.elim (by decide) fun other =>
      other.elim (by decide) fun error => absurd error.1 (by decide)

structure Uncounted (s s' : CoreState) : Prop where
  accounts : s'.accounts = s.accounts
  request : s'.request = s.request
  pdio : s'.dmeta.pdio = s.dmeta.pdio
  dnTags : s'.dmeta.dnTags = s.dmeta.dnTags
  released : s'.released = s.released

theorem Uncounted.trans {first second third : CoreState} (early : Uncounted first second)
    (late : Uncounted second third) : Uncounted first third :=
  ⟨late.accounts.trans early.accounts, late.request.trans early.request, late.pdio.trans early.pdio,
    late.dnTags.trans early.dnTags, late.released.trans early.released⟩

theorem payloadRound_zero (arg : MetaArg) (s : CoreState) (doneLRs : Nat) (dpt : PayloadTag) :
    ∃ s', payloadRound arg 0 s doneLRs dpt = some (s', doneLRs) ∧ Uncounted s s' := by
  have noError : ¬ IsErrorReply 0 := by decide
  cases found : s.dmeta.lrs[dpt.lr]? with
  | none => exact ⟨s, by simp [payloadRound, found], rfl, rfl, rfl, rfl, rfl⟩
  | some lr =>
      have ignored : (updateAndCommitToUserPolicy s.dmeta.op lr dpt.dnIndex 0).2 = dmsFail ∧
          (updateAndCommitToUserPolicy s.dmeta.op lr dpt.dnIndex 0).1.wmemAck = lr.wmemAck ∧
          (updateAndCommitToUserPolicy s.dmeta.op lr dpt.dnIndex 0).1.wdiskAck = lr.wdiskAck ∧
          (updateAndCommitToUserPolicy s.dmeta.op lr dpt.dnIndex 0).1.commitState =
            lr.commitState := by
        unfold updateAndCommitToUserPolicy
        split
        · rw [countAck_zero]
          exact ⟨rfl, rfl, rfl, rfl⟩
        · exact ⟨rfl, rfl, rfl, rfl⟩
      obtain ⟨answer, wmemAck, wdiskAck, commitState⟩ := ignored
      have silent : ¬ AsksCommit dmsFail := by decide
      refine ⟨s.answer dpt.lr (updateAndCommitToUserPolicy s.dmeta.op lr dpt.dnIndex 0), ?_, ?_, rfl,
        rfl, rfl, rfl⟩
      · simp [payloadRound, found, noError, answer, silent]
      · have same : (fun lr : LocatedRequest => (lr.wmemAck, lr.wdiskAck, lr.commitState))
            (updateAndCommitToUserPolicy s.dmeta.op lr dpt.dnIndex 0).1 =
              (lr.wmemAck, lr.wdiskAck, lr.commitState) := by
          simp only [wmemAck, wdiskAck, commitState]
        have lrs := setLR_map_same
          (fun lr : LocatedRequest => (lr.wmemAck, lr.wdiskAck, lr.commitState)) found same
        exact congrArg (fun lrs => Accounts.mk lrs s.accounts.nrWaitingLRs s.accounts.blocks) lrs

theorem payloadRounds_zero (arg : MetaArg) (s : CoreState) (doneLRs : Nat)
    (payloadTags : List PayloadTag) :
    ∃ s', payloadRounds arg 0 s doneLRs payloadTags = some (s', doneLRs) ∧ Uncounted s s' := by
  induction payloadTags generalizing s with
  | nil => exact ⟨s, rfl, rfl, rfl, rfl, rfl, rfl⟩
  | cons dpt rest inductionHypothesis =>
      obtain ⟨between, round, same⟩ := payloadRound_zero arg s doneLRs dpt
      obtain ⟨s', rounds, sameRest⟩ := inductionHypothesis between
      exact ⟨s', by simp [payloadRounds, round, rounds], same.trans sameRest⟩

theorem accounts_congr {s s' : CoreState} (lrs : s'.dmeta.lrs = s.dmeta.lrs)
    (nrWaitingLRs : s'.dmeta.nrWaitingLRs = s.dmeta.nrWaitingLRs) (request : s'.request = s.request) :
    s'.accounts = s.accounts := by
  simp only [accounts, lrs, nrWaitingLRs, request]

theorem updateAndCommitToUser_zero (arg : MetaArg) (s : CoreState) (ddt : DatanodeTag) :
    ∃ user, ∃ doneLRs ≤ 0, updateAndCommitToUser arg s ddt 0 = some (user, doneLRs) ∧
      Uncounted s user := by
  unfold updateAndCommitToUser
  split
  · exact ⟨s, dmsFail, by decide, rfl, rfl, rfl, rfl, rfl, rfl⟩
  · obtain ⟨user, rounds, same⟩ := payloadRounds_zero arg s 0 ddt.payloadTags
    refine ⟨user, if ddt.payloadTags = [] then dmsFail else 0, ?_, by simp [rounds], same⟩
    split <;> decide

/-- A failed send counts nothing and releases the tag, linked or not. -/
theorem sendFailed_eq (s : CoreState) (ddt : DatanodeTag) :
    ∃ s', sendFailed s ddt = some s' ∧ s'.accounts = s.accounts ∧ s'.request = s.request ∧
      s'.dmeta.pdio = s.dmeta.pdio ∧ s'.dmeta.dnTags = s.dmeta.dnTags ∧
      s'.released = ddt :: s.released := by
  have notKept : ¬ (IsMemAck 0 ∨ (0 : Int) < 0) := by decide
  obtain ⟨user, doneLRs, none, updated, same⟩ := updateAndCommitToUser_zero s.pdioArg s ddt
  obtain ⟨s', finish⟩ : ∃ s', settle s.pdioArg user ddt 0 doneLRs = some s' := by
    simp only [settle, commitDatanodeTags, if_neg notKept]
    exact ⟨_, rfl⟩
  have settled := settle_some finish
  refine ⟨s', by simp [sendFailed, volumeIOCommiter, updated, finish], ?_,
    settled.request.trans same.request, settled.pdio.trans same.pdio,
    (settled.freed notKept).1.trans same.dnTags, ?_⟩
  · exact (accounts_congr settled.lrs (settled.idle none).1 settled.request).trans same.accounts
  · rw [(settled.freed notKept).2, same.released]

end Send

section Compare

variable {s : CoreState} {ddt : DatanodeTag} {error : Int}

theorem TagOf.locatedTags (tag : TagOf s ddt) : Located s.counters ddt.payloadTags := by
  intro dpt member
  obtain ⟨lr, found, inside⟩ := tag.located dpt member
  exact ⟨lr.counters, by simp [counters, found], inside⟩

/-- A located request occurs less often in a tag than a counter takes to turn once. -/
theorem TagOf.countP_lt (tag : TagOf s ddt) (index : Nat) :
    (ddt.payloadTags.countP fun dpt => dpt.lr = index) < 2 ^ 32 := by
  let own := ddt.payloadTags.filter fun dpt => dpt.lr = index
  have distinct : (own.map PayloadTag.dnIndex).Nodup := by
    apply (tag.distinct.filter _).map_on
    intro first firstMember second secondMember same
    have firstLR := of_decide_eq_true (List.mem_filter.mp firstMember).2
    have secondLR := of_decide_eq_true (List.mem_filter.mp secondMember).2
    cases first
    cases second
    simp_all
  have bounded : ∀ dnIndex ∈ own.map PayloadTag.dnIndex, dnIndex < 2 ^ 15 := by
    intro dnIndex member
    obtain ⟨dpt, inOwn, rfl⟩ := List.mem_map.mp member
    obtain ⟨lr, found, inside⟩ := tag.located dpt (List.mem_of_mem_filter inOwn)
    exact Nat.lt_trans inside (tag.short lr (List.mem_of_getElem? found))
  have subset : (own.map PayloadTag.dnIndex).toFinset ⊆ Finset.range (2 ^ 15) := by
    intro dnIndex member
    exact Finset.mem_range.mpr (bounded dnIndex (List.mem_toFinset.mp member))
  have size := Finset.card_le_card subset
  rw [List.toFinset_card_of_nodup distinct, List.length_map, Finset.card_range] at size
  have counted : (ddt.payloadTags.countP fun dpt => dpt.lr = index) = own.length :=
    List.countP_eq_length_filter
  omega

theorem error_counts (writes : s.dmeta.op ≠ .read) (error_reply : IsErrorReply error)
    {replied : CoreState} (run : volumeIOCommiter .metadata s ddt error = some replied)
    (tag : TagOf s ddt) {dpt : PayloadTag} (member : dpt ∈ ddt.payloadTags) :
    replied.accounts ≠ s.accounts := by
  have counts : CountsMem s.dmeta.op error := .inr ⟨error_reply, writes⟩
  obtain ⟨user, doneLRs, rounds, settled⟩ := volumeIOCommiter_some (by decide) run
  obtain ⟨-, counters, -⟩ := payloadRounds_counters rounds
  obtain ⟨lr, found, -⟩ := tag.located dpt member
  let times := ddt.payloadTags.countP fun other => other.lr = dpt.lr
  have positive : 0 < times := List.countP_pos_iff.mpr ⟨dpt, member, by simp⟩
  have small : times < 2 ^ 32 := tag.countP_lt dpt.lr
  have after := @countTag_getElem? s.dmeta.op error _ _ tag.locatedTags dpt.lr
  rw [← counters, CoreState.counters, CoreState.counters, List.getElem?_map, List.getElem?_map,
    found] at after
  obtain ⟨counted, foundAfter, countedAs⟩ := Option.map_eq_some_iff.mp after
  have decremented : counted.wmemAck = lr.wmemAck - BitVec.ofNat 32 times := by
    have wmemAck := congrArg Counters.wmemAck countedAs
    simpa [countMany, counts, LocatedRequest.counters] using wmemAck
  intro same
  have lrs := congrArg (fun accounts => accounts.lrs[dpt.lr]?) same
  simp only [accounts, settled.lrs, List.getElem?_map, found, foundAfter, Option.map_some,
    Option.some.injEq, Prod.mk.injEq] at lrs
  have zero : BitVec.ofNat 32 times = 0 := by
    have unchanged : lr.wmemAck - BitVec.ofNat 32 times = lr.wmemAck :=
      decremented.symm.trans lrs.1
    bv_omega
  have timesZero := congrArg BitVec.toNat zero
  rw [BitVec.toNat_ofNat, Nat.mod_eq_of_lt small] at timesZero
  exact absurd timesZero positive.ne'

theorem accounts_of_noPayload (none : ddt.payloadTags = []) :
    ∃ replied, volumeIOCommiter .metadata s ddt error = some replied ∧
      replied.accounts = s.accounts := by
  obtain ⟨replied, finish⟩ := settle_metadata s ddt error dmsFail
  have settled := settle_some finish
  refine ⟨replied, ?_, ?_⟩
  · simp [volumeIOCommiter, updateAndCommitToUser, none, payloadRounds, finish]
  · exact accounts_congr settled.lrs (settled.idle (by decide)).1 settled.request

/-- A send that fails is accounted like an error reply only for a tag without payloads. -/
theorem accountedLike_iff (s : CoreState) (ddt : DatanodeTag) (error : Int)
    (writes : s.dmeta.op ≠ .read) (tag : TagOf s ddt)
    (lowest : failedLunException ≤ error) (highest : error ≤ exception) :
    AccountedLike s ddt error ↔ ddt.payloadTags = [] := by
  have errorReply : IsErrorReply error := by
    unfold IsErrorReply
    simp only [failedLunException, iofailButLunOkException, ioexception, exception] at *
    omega
  obtain ⟨failed, send, uncounted, -⟩ := sendFailed_eq s ddt
  constructor
  · intro ⟨failed', replied, send', reply, same⟩
    obtain rfl : failed = failed' := Option.some.inj (send.symm.trans send')
    by_contra payloads
    obtain ⟨dpt, member⟩ := List.exists_mem_of_ne_nil _ payloads
    exact error_counts writes errorReply reply tag member (same.symm.trans uncounted)
  · intro none
    obtain ⟨replied, reply, same⟩ := accounts_of_noPayload none
    exact ⟨failed, replied, send, reply, uncounted.trans same.symm⟩

def firstReplica : DatanodeTag := ⟨0, 0, [⟨0, 0⟩]⟩

theorem tagOf_firstReplica : TagOf oneBlockWrite firstReplica := by
  constructor <;> simp [oneBlockWrite, firstReplica]

theorem accountedLike_iff_oneBlockWrite :
    oneBlockWrite.dmeta.op ≠ .read ∧
      (AccountedLike oneBlockWrite firstReplica exception ↔ firstReplica.payloadTags = []) :=
  ⟨by decide, accountedLike_iff oneBlockWrite firstReplica exception (by decide)
    tagOf_firstReplica (by decide) (by decide)⟩

theorem failedSend_notAccounted_oneBlockWrite :
    oneBlockWrite.dmeta.op = .write ∧ TagOf oneBlockWrite firstReplica ∧
      ¬ AccountedLike oneBlockWrite firstReplica exception := by
  refine ⟨rfl, tagOf_firstReplica, fun ⟨failed, replied, send, reply, same⟩ => ?_⟩
  obtain ⟨failed', send', uncounted, -⟩ := sendFailed_eq oneBlockWrite firstReplica
  obtain rfl : failed = failed' := Option.some.inj (send.symm.trans send')
  exact error_counts (by decide) (by decide) reply tagOf_firstReplica
    List.mem_cons_self (same.symm.trans uncounted)

end Compare

end CoreState

end DmsBlkdev
