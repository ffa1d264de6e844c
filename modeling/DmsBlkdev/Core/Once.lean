import DmsBlkdev.Core.Commiter

/-!
# Each located request is committed once

The committed bit of a located request lets one commit through, and the parent
pointer is reset by the commit that completes the DIO.  So however replies are
repeated or ordered, the DIO is completed once and left alone afterwards.
-/

namespace DmsBlkdev

namespace CoreState

def committed (s : CoreState) (index : Nat) : Bool :=
  ((s.dmeta.lrs[index]?).map fun lr =>
    lr.commitState.getLsbD LocatedRequest.committedUserBit).getD false

/-- The DIO is there until it is completed, and each commit has its bit. -/
structure OnceInv (s : CoreState) : Prop where
  live : ∀ addr, s.dmeta.pdio = some addr →
    (∃ dio, s.request.dios addr = some dio) ∧ s.request.log = []
  once : ∀ index, s.trace.count (.commitLB index) ≤ (s.committed index).toNat
  log : (s.request.log.map Prod.snd).Nodup

structure Frozen (s s' : CoreState) : Prop where
  pdio : s.dmeta.pdio = none → s'.dmeta.pdio = none
  request : s.dmeta.pdio = none → s'.request = s.request
  commits : s.dmeta.pdio = none →
    ∀ index, s'.trace.count (.commitLB index) = s.trace.count (.commitLB index)

theorem Frozen.refl (s : CoreState) : Frozen s s := ⟨id, fun _ => rfl, fun _ _ => rfl⟩

theorem Frozen.trans {first second third : CoreState} (early : Frozen first second)
    (late : Frozen second third) : Frozen first third where
  pdio gone := late.pdio (early.pdio gone)
  request gone := (late.request (early.pdio gone)).trans (early.request gone)
  commits gone index := (late.commits (early.pdio gone) index).trans (early.commits gone index)

structure Untouched (s s' : CoreState) : Prop where
  pdio : s'.dmeta.pdio = s.dmeta.pdio
  request : s'.request = s.request
  commits : ∀ index, s'.trace.count (.commitLB index) = s.trace.count (.commitLB index)
  committed : ∀ index, s'.committed index = s.committed index

theorem Untouched.frozen {s s' : CoreState} (same : Untouched s s') : Frozen s s' where
  pdio gone := same.pdio.trans gone
  request _ := same.request
  commits _ := same.commits

theorem OnceInv.untouched {s s' : CoreState} (inv : OnceInv s) (same : Untouched s s') :
    OnceInv s' where
  live addr parent := by
    rw [same.request]
    exact inv.live addr (same.pdio ▸ parent)
  once index := by
    rw [same.commits, same.committed]
    exact inv.once index
  log := by
    rw [same.request]
    exact inv.log

section Step

variable {s : CoreState}

theorem committed_setLR {index : Nat} {lr lr' : LocatedRequest}
    (found : s.dmeta.lrs[index]? = some lr) (other : Nat) :
    ({ s with dmeta := s.dmeta.setLR index lr' } : CoreState).committed other =
      if other = index then lr'.commitState.getLsbD LocatedRequest.committedUserBit
      else s.committed other := by
  have inside : index < s.dmeta.lrs.length := (List.getElem?_eq_some_iff.mp found).1
  by_cases same : other = index
  · subst same
    simp [committed, DMSMetadata.setLR, inside]
  · simp [committed, DMSMetadata.setLR, List.getElem?_set_ne (Ne.symm same), same]

theorem testAndSetCommitted_bit (lr : LocatedRequest) :
    lr.testAndSetCommitted.2.commitState.getLsbD LocatedRequest.committedUserBit = true := by
  simp [LocatedRequest.testAndSetCommitted, LocatedRequest.committedUserBit]

theorem commitLBs_once (inv : OnceInv s) (index : Nat) (result : Int) :
    ∃ s', commitLBs .metadata s index result = some s' ∧ OnceInv s' ∧ Frozen s s' := by
  cases found : s.dmeta.lrs[index]? with
  | none => exact ⟨s, by simp [commitLBs, found], inv, .refl s⟩
  | some lr =>
      let marked : CoreState := { s with dmeta := s.dmeta.setLR index lr.testAndSetCommitted.2 }
      have bits : ∀ other, marked.committed other =
          if other = index then true else s.committed other := by
        intro other
        rw [committed_setLR found, testAndSetCommitted_bit]
      have own : s.committed index = lr.testAndSetCommitted.1 := by
        simp [committed, found, LocatedRequest.testAndSetCommitted]
      cases before : lr.testAndSetCommitted.1 with
      | true =>
          have same : Untouched s marked := by
            refine ⟨rfl, rfl, fun _ => rfl, fun other => ?_⟩
            rw [bits]
            split
            · next here => rw [here, own, before]
            · rfl
          exact ⟨marked, by simp [commitLBs, found, before, marked], inv.untouched same,
            same.frozen⟩
      | false =>
          have never : s.trace.count (.commitLB index) = 0 := by
            have bound := inv.once index
            rw [own, before] at bound
            exact Nat.le_zero.mp bound
          cases parent : s.dmeta.pdio with
          | none =>
              have still : marked.dmeta.pdio = none := parent
              refine ⟨marked, by simp [commitLBs, found, before, marked, DMSMetadata.setLR, parent],
                ⟨fun addr gone => absurd (still.symm.trans gone) (by simp), fun other => ?_, inv.log⟩,
                fun _ => still, fun _ => rfl, fun _ _ => rfl⟩
              rw [bits]
              split
              · next here =>
                  rw [here]
                  exact Nat.le_trans (Nat.le_of_eq never) (Nat.zero_le _)
              · exact inv.once other
          | some addr =>
              obtain ⟨⟨dio, present⟩, silent⟩ := inv.live addr parent
              obtain ⟨request, empty, called, outcome⟩ := commitLBToDMSIO_cases index
                lr.slbid.toNat lr.nrLBIDs.toInt result present
              have counted : ∀ other, (s.trace ++ [Action.commitLB index]).count (.commitLB other) ≤
                  (marked.committed other).toNat := by
                intro other
                rw [bits, List.count_append, List.count_singleton]
                by_cases here : other = index
                · simp [here, never]
                · have different : ¬ index = other := Ne.symm here
                  simpa [here, different] using inv.once other
              refine ⟨(CoreState.mk { marked.dmeta with
                  pdio := if empty = 1 then none else s.dmeta.pdio } request s.released
                  s.trace).act (.commitLB index), ?_, ?_, ?_⟩
              · simp [commitLBs, found, before, marked, DMSMetadata.setLR, parent, called]
              · rcases outcome with ⟨more, log, dio', stays⟩ | ⟨rfl, events, log, -, distinct⟩
                · refine ⟨fun addr' parent' => ?_, counted, ?_⟩
                  · obtain rfl : addr = addr' := by simpa [act, more, parent] using parent'
                    exact ⟨⟨dio', stays⟩, log.trans silent⟩
                  · simp [act, log, silent]
                · refine ⟨fun addr' parent' => ?_, counted, ?_⟩
                  · simp [act] at parent'
                  · simpa [act, log, silent, Function.comp_def] using distinct
              · refine ⟨fun gone => ?_, fun gone => ?_, fun gone => ?_⟩ <;> simp [parent] at gone

/-- Counting a reply touches neither the committed bit nor the DIO. -/
theorem untouched_answer {index : Nat} {lr : LocatedRequest}
    (found : s.dmeta.lrs[index]? = some lr) (dnlIndex : Nat) (ack : Int) :
    Untouched s (s.answer index (updateAndCommitToUserPolicy s.dmeta.op lr dnlIndex ack)) := by
  refine ⟨rfl, rfl, fun other => by simp [answer, act], fun other => ?_⟩
  refine (committed_setLR found other).trans ?_
  rw [(policy_keeps s.dmeta.op lr dnlIndex ack).1]
  split
  · next here => simp [committed, here, found]
  · rfl

theorem payloadRound_once (inv : OnceInv s) (ack : Int) (doneLRs : Nat) (dpt : PayloadTag) :
    ∃ s' doneLRs', payloadRound .metadata ack s doneLRs dpt = some (s', doneLRs') ∧ OnceInv s' ∧
      Frozen s s' := by
  cases found : s.dmeta.lrs[dpt.lr]? with
  | none => exact ⟨s, doneLRs, by simp [payloadRound, found], inv, .refl s⟩
  | some lr =>
      have same := untouched_answer found dpt.dnIndex ack
      simp only [payloadRound, found, reduceCtorEq, false_and, if_false]
      split
      · obtain ⟨s', committed, inv', frozen⟩ :=
          commitLBs_once (inv.untouched same) dpt.lr ack
        rw [committed]
        exact ⟨s', _, rfl, inv', same.frozen.trans frozen⟩
      · exact ⟨_, _, rfl, inv.untouched same, same.frozen⟩

theorem payloadRounds_once (inv : OnceInv s) (ack : Int) (doneLRs : Nat)
    (payloadTags : List PayloadTag) :
    ∃ s' doneLRs', payloadRounds .metadata ack s doneLRs payloadTags = some (s', doneLRs') ∧
      OnceInv s' ∧ Frozen s s' := by
  induction payloadTags generalizing s doneLRs with
  | nil => exact ⟨s, doneLRs, rfl, inv, .refl s⟩
  | cons dpt rest inductionHypothesis =>
      obtain ⟨between, doneBetween, round, invBetween, frozen⟩ :=
        payloadRound_once inv ack doneLRs dpt
      obtain ⟨s', doneLRs', rounds, inv', frozenRest⟩ :=
        inductionHypothesis invBetween doneBetween
      exact ⟨s', doneLRs', by simp [payloadRounds, round, rounds], inv', frozen.trans frozenRest⟩

theorem updateAndCommitToUser_once (inv : OnceInv s) (ddt : DatanodeTag) (ack : Int) :
    ∃ s' doneLRs, updateAndCommitToUser .metadata s ddt ack = some (s', doneLRs) ∧ OnceInv s' ∧
      Frozen s s' := by
  obtain ⟨s', doneLRs, rounds, inv', frozen⟩ := payloadRounds_once inv ack 0 ddt.payloadTags
  exact ⟨s', _, by simp [updateAndCommitToUser, rounds]; rfl, inv', frozen⟩

theorem Settled.untouched {user s' : CoreState} {ddt : DatanodeTag} {ack doneLRs : Int}
    (settled : Settled user s' ddt ack doneLRs) : Untouched user s' :=
  ⟨settled.pdio, settled.request, settled.commits, fun _ => by
    simp only [committed, settled.lrs]⟩

theorem volumeIOCommiter_once (inv : OnceInv s) (ddt : DatanodeTag) (ack : Int) :
    ∃ s', volumeIOCommiter .metadata s ddt ack = some s' ∧ OnceInv s' ∧ Frozen s s' := by
  obtain ⟨user, doneLRs, updated, invUser, frozen⟩ := updateAndCommitToUser_once inv ddt ack
  obtain ⟨s', settled⟩ := settle_metadata user ddt ack doneLRs
  have same := (settle_some settled).untouched
  exact ⟨s', by simp [volumeIOCommiter, updated, settled], invUser.untouched same,
    frozen.trans same.frozen⟩

end Step

section Run

variable {s : CoreState}

theorem commitReplies_once (inv : OnceInv s) (inputs : List (DatanodeTag × Int)) :
    ∃ final, commitReplies s inputs = some final ∧ OnceInv final ∧ Frozen s final := by
  induction inputs generalizing s with
  | nil => exact ⟨s, rfl, inv, .refl s⟩
  | cons input rest inductionHypothesis =>
      obtain ⟨between, step, invBetween, frozen⟩ := volumeIOCommiter_once inv input.1 input.2
      obtain ⟨final, run, invFinal, frozenRest⟩ := inductionHypothesis invBetween
      exact ⟨final, by simp [commitReplies, step, run], invFinal, frozen.trans frozenRest⟩

theorem commitReplies_append (s : CoreState) (first second : List (DatanodeTag × Int)) :
    commitReplies s (first ++ second) =
      (commitReplies s first).bind fun between => commitReplies between second := by
  induction first generalizing s with
  | nil => rfl
  | cons input rest inductionHypothesis =>
      simp only [List.cons_append, commitReplies]
      cases volumeIOCommiter .metadata s input.1 input.2 with
      | none => rfl
      | some between => exact inductionHypothesis between

structure Uncompleted (s : CoreState) (addr : Nat) : Prop where
  pdio : s.dmeta.pdio = some addr
  dio : ∃ dio, s.request.dios addr = some dio
  log : s.request.log = []
  trace : s.trace = []

theorem Uncompleted.onceInv {addr : Nat} (start : Uncompleted s addr) : OnceInv s where
  live other parent := by
    obtain rfl : addr = other := Option.some.inj (start.pdio.symm.trans parent)
    exact ⟨start.dio, start.log⟩
  once index := by simp [start.trace]
  log := by simp [start.log]

def oneBlockWrite : CoreState where
  dmeta := {
    op := .write
    lrs := [{ LocatedRequest.zero with
      nrLBIDs := 1
      nrDnLocs := 2
      dnLocs := [⟨0, 0, 0, [], 0⟩, ⟨0, 0, 0, [], 0⟩]
      wmemAck := 2
      wdiskAck := 2 }]
    dnTags := .init
    commitID := 0
    pdio := some 0
    nrWaitingLRs := 1 }
  request := {
    dios := fun addr => if addr = 0 then some ⟨0, .write, 0, 1, some ⟨0, [⟨0, 0, 0, 0⟩]⟩, 1⟩ else none
    diolist := [0]
    result := 1
    log := [] }
  released := []
  trace := []

theorem oneBlockWrite_uncompleted : Uncompleted oneBlockWrite 0 := ⟨rfl, ⟨_, rfl⟩, rfl, rfl⟩

end Run

end CoreState

end DmsBlkdev
