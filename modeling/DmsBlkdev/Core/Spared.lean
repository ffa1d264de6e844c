import DmsBlkdev.Core.Counting
import DmsBlkdev.Core.Once

/-!
# What a reply leaves of the DIO

A reply commits those located requests of its tag that are not committed yet
and whose counters make the policy ask for it.  The DIO and the blocks outside
of their ranges survive the reply, if there is such a block at all.
-/

namespace DmsBlkdev

structure Extent where
  slbid : BitVec 64
  nrLBIDs : BitVec 16
  privateData : Option Nat
  deriving DecidableEq, Repr

/-- A commit of the range may remove the block.  A range without blocks does not end the walk of
`Commit_LB_List_by_Range`. -/
def Extent.Covers (extent : Extent) (lbid : Nat) : Prop :=
  ∃ i : Nat, lbid = (extent.slbid.toNat + i) % 2 ^ 64 ∧
    (extent.nrLBIDs.toInt ≤ 0 ∨ i < extent.nrLBIDs.toInt)

def LocatedRequest.extent (lr : LocatedRequest) : Extent := ⟨lr.slbid, lr.nrLBIDs, lr.privateData⟩

theorem commitWalk_outside {slbid : Nat} {nrLBIDs : Int} {i : Nat} {blocks : List LBMD}
    (within : nrLBIDs ≤ 0 ∨ i < nrLBIDs) {block : LBMD} (member : block ∈ blocks)
    (outside : ∀ j : Nat, block.LBID = (slbid + j) % 2 ^ 64 → ¬ (nrLBIDs ≤ 0 ∨ j < nrLBIDs)) :
    block ∈ (commitWalk slbid nrLBIDs i blocks).1 := by
  induction blocks generalizing i with
  | nil => cases member
  | cons cur rest inductionHypothesis =>
      rw [commitWalk]
      by_cases here : cur.LBID = (slbid + i) % 2 ^ 64
      · have other : block ∈ rest := by
          rcases List.mem_cons.mp member with rfl | inRest
          · exact absurd within (outside i here)
          · exact inRest
        rw [if_pos here]
        split
        · exact other
        · exact inductionHypothesis (by omega) other
      · rw [if_neg here]
        rcases List.mem_cons.mp member with rfl | inRest
        · exact List.mem_cons_self
        · exact List.mem_cons_of_mem _ (inductionHypothesis within inRest)

theorem commitLBListByRange_outside {lr : LocatedRequest} {blocks : List LBMD} {block : LBMD}
    (member : block ∈ blocks) (outside : ¬ lr.extent.Covers block.LBID) :
    block ∈ (commitLBListByRange blocks lr.slbid.toNat lr.nrLBIDs.toInt).1 := by
  apply commitWalk_outside _ member
  · exact fun j here within => outside ⟨j, here, within⟩
  · omega

section Asks

variable (op : DMSOp) (ack : Int)

def Counters.Asks (dnIndex : Nat) (counters : Counters) : Prop :=
  dnIndex < counters.locations ∧
    ((CountsDisk op ack ∧ (counters.wdiskAck = 1 ∨ ¬ CountsMem op ack)) ∨
      (CountsMem op ack ∧ counters.wmemAck = 1))

theorem policy_asks (lr : LocatedRequest) (dnlIndex : Nat) :
    AsksCommit (updateAndCommitToUserPolicy op lr dnlIndex ack).2 ↔
      lr.counters.Asks op ack dnlIndex := by
  unfold updateAndCommitToUserPolicy Counters.Asks
  split
  · next inside =>
      rw [asksCommit_countAck]
      have located : dnlIndex < lr.counters.locations := inside
      simp only [located, true_and]
      rfl
  · next outside =>
      have absent : ¬ dnlIndex < lr.counters.locations := outside
      simp only [absent, false_and, iff_false]
      decide

theorem policy_extent (lr : LocatedRequest) (dnlIndex : Nat) :
    (updateAndCommitToUserPolicy op lr dnlIndex ack).1.extent = lr.extent := by
  have keeps := policy_keeps op lr dnlIndex ack
  simp only [LocatedRequest.extent, keeps]

end Asks

namespace CoreState

def extents (s : CoreState) : List Extent := s.dmeta.lrs.map LocatedRequest.extent

def dioBlocks (s : CoreState) (addr : Nat) : List LBMD :=
  (((s.request.dios addr).bind DMSIO.lbList).map LBList.blocks).getD []

section Frame

structure Framed (s s' : CoreState) : Prop where
  dnTags : s'.dmeta.dnTags = s.dmeta.dnTags
  released : s'.released = s.released
  extents : s'.extents = s.extents

theorem Framed.trans {first second third : CoreState} (early : Framed first second)
    (late : Framed second third) : Framed first third :=
  ⟨late.dnTags.trans early.dnTags, late.released.trans early.released,
    late.extents.trans early.extents⟩

variable {arg : MetaArg} {s s' : CoreState}

theorem commitLBs_framed {index : Nat} {result : Int}
    (run : commitLBs arg s index result = some s') : Framed s s' := by
  rcases commitLBs_some run with rfl | ⟨lr, found, outcome⟩
  · exact ⟨rfl, rfl, rfl⟩
  · have sameExtents : (s.marked index lr).extents = s.extents := setLR_map_same _ found rfl
    rcases outcome with rfl | ⟨addr, request, empty, -, -, -, rfl⟩
    · exact ⟨rfl, rfl, sameExtents⟩
    · exact ⟨rfl, rfl, sameExtents⟩

theorem answer_framed {dpt : PayloadTag} {lr : LocatedRequest}
    (found : s.dmeta.lrs[dpt.lr]? = some lr) (ack : Int) :
    Framed s (s.answer dpt.lr (updateAndCommitToUserPolicy s.dmeta.op lr dpt.dnIndex ack)) :=
  ⟨rfl, rfl, setLR_map_same _ found (policy_extent ..)⟩

theorem payloadRounds_framed {ack : Int} {doneLRs doneLRs' : Nat} {payloadTags : List PayloadTag}
    (run : payloadRounds arg ack s doneLRs payloadTags = some (s', doneLRs')) : Framed s s' := by
  induction payloadTags generalizing s doneLRs with
  | nil =>
      cases run
      exact ⟨rfl, rfl, rfl⟩
  | cons dpt rest inductionHypothesis =>
      obtain ⟨between, doneBetween, round, runRest⟩ := payloadRounds_cons run
      refine Framed.trans ?_ (inductionHypothesis runRest)
      rcases payloadRound_some round with ⟨-, rfl, -⟩ | ⟨lr, found, outcome⟩
      · exact ⟨rfl, rfl, rfl⟩
      · have answered := answer_framed found ack
        rcases outcome with ⟨-, rfl, -⟩ | ⟨-, commits, -⟩
        · exact answered
        · exact answered.trans (commitLBs_framed commits)

/-- No reply and no failed send changes the ranges of the located requests. -/
theorem volumeIOCommiter_extents {ddt : DatanodeTag} {ack : Int}
    (run : volumeIOCommiter arg s ddt ack = some s') : s'.extents = s.extents := by
  by_cases legal : arg = .null
  · rw [volumeIOCommiter, updateAndCommitToUser, if_pos legal] at run
    rw [CoreState.extents, (settle_some run).lrs, CoreState.extents]
  · obtain ⟨user, doneLRs, rounds, settled⟩ := volumeIOCommiter_some legal run
    rw [CoreState.extents, settled.lrs]
    exact (payloadRounds_framed rounds).extents

/-- The committer links the tag again or releases it. -/
theorem volumeIOCommiter_tags {ddt : DatanodeTag} {ack : Int} (legal : arg ≠ .null)
    (run : volumeIOCommiter arg s ddt ack = some s') :
    ((IsMemAck ack ∨ ack < 0) ∧ s'.dmeta.dnTags = s.dmeta.dnTags.insertTail ddt ∧
        s'.released = s.released) ∨
      (¬ (IsMemAck ack ∨ ack < 0) ∧ s'.dmeta.dnTags = s.dmeta.dnTags ∧
        s'.released = ddt :: s.released) := by
  obtain ⟨user, doneLRs, rounds, settled⟩ := volumeIOCommiter_some legal run
  have same := payloadRounds_framed rounds
  by_cases kept : IsMemAck ack ∨ ack < 0
  · left
    rw [(settled.kept kept).1, (settled.kept kept).2, same.dnTags, same.released]
    exact ⟨kept, rfl, rfl⟩
  · right
    rw [(settled.freed kept).1, (settled.freed kept).2, same.dnTags, same.released]
    exact ⟨kept, rfl, rfl⟩

end Frame

/-- The reply commits the located request: its bit is not set, and one of the payloads finds
counters that make the policy ask for it. -/
def Commits (s : CoreState) (ack : Int) (payloadTags : List PayloadTag) (index : Nat) : Prop :=
  s.committed index = false ∧ ∃ earlier dpt later, payloadTags = earlier ++ dpt :: later ∧
    dpt.lr = index ∧ ∃ own, (countTag s.dmeta.op ack s.counters earlier)[index]? = some own ∧
      own.Asks s.dmeta.op ack dpt.dnIndex

def Hits (s : CoreState) (ack : Int) (payloadTags : List PayloadTag) (block : LBMD) : Prop :=
  ∃ index extent, s.Commits ack payloadTags index ∧ s.extents[index]? = some extent ∧
    extent.Covers block.LBID

/-- The DIO is still the parent of the metadata object, with the blocks that are kept. -/
structure Spared (addr : Nat) (kept : LBMD → Prop) (s s' : CoreState) : Prop where
  parent : s'.dmeta.pdio = some addr
  dio : ∃ dio dio', s.request.dios addr = some dio ∧ s'.request.dios addr = some dio' ∧
    dio'.op = dio.op
  blocks : ∀ block ∈ s.dioBlocks addr, kept block → block ∈ s'.dioBlocks addr
  extents : s'.extents = s.extents

theorem Spared.refl {addr : Nat} {kept : LBMD → Prop} {s : CoreState} {dio : DMSIO}
    (parent : s.dmeta.pdio = some addr) (live : s.request.dios addr = some dio) :
    Spared addr kept s s :=
  ⟨parent, ⟨dio, dio, live, live, rfl⟩, fun _ member _ => member, rfl⟩

theorem Spared.trans {addr : Nat} {kept : LBMD → Prop} {first second third : CoreState}
    (early : Spared addr kept first second) (late : Spared addr kept second third) :
    Spared addr kept first third where
  parent := late.parent
  dio := by
    obtain ⟨dio, between, live, liveBetween, sameOp⟩ := early.dio
    obtain ⟨between', dio', liveBetween', live', sameOp'⟩ := late.dio
    obtain rfl := Option.some.inj (liveBetween.symm.trans liveBetween')
    exact ⟨dio, dio', live, live', sameOp'.trans sameOp⟩
  blocks block member keeps := late.blocks block (early.blocks block member keeps) keeps
  extents := late.extents.trans early.extents

section Step

variable {s s' : CoreState} {addr : Nat} {dio : DMSIO} {kept : LBMD → Prop}

theorem commitLBs_spared {index : Nat} {result : Int} (parent : s.dmeta.pdio = some addr)
    (live : s.request.dios addr = some dio)
    (outside : s.committed index = false → (∃ block ∈ s.dioBlocks addr, kept block) ∧
      ∀ extent, s.extents[index]? = some extent → ∀ block, kept block →
        ¬ extent.Covers block.LBID)
    (run : commitLBs .metadata s index result = some s') : Spared addr kept s s' := by
  rcases commitLBs_some run with rfl | ⟨lr, found, outcome⟩
  · exact .refl parent live
  · have sameExtents := (commitLBs_framed run).extents
    rcases outcome with rfl | ⟨addr', request, empty, fresh, parent', called, rfl⟩
    · exact ⟨parent, ⟨dio, dio, live, live, rfl⟩, fun _ member _ => member, sameExtents⟩
    · obtain rfl : addr = addr' := Option.some.inj (parent.symm.trans parent')
      have notCommitted : s.committed index = false := by
        simpa [committed, found, LocatedRequest.testAndSetCommitted] using fresh
      obtain ⟨⟨block, member, keeps⟩, apart⟩ := outside notCommitted
      have own : s.extents[index]? = some lr.extent := by simp [CoreState.extents, found]
      cases held : dio.lbList with
      | none => simp [dioBlocks, live, held] at member
      | some list =>
          have blocks : s.dioBlocks addr = list.blocks := by simp [dioBlocks, live, held]
          have stays : ∀ block ∈ s.dioBlocks addr, kept block →
              block ∈ (keptBlocks list lr.slbid.toNat lr.nrLBIDs.toInt).blocks := by
            intro block member keeps
            rw [blocks] at member
            exact commitLBListByRange_outside member (apart _ own block keeps)
          have left := List.ne_nil_of_mem (stays block member keeps)
          rw [commitLBToDMSIO_left index lr.slbid.toNat lr.nrLBIDs.toInt result live held left]
            at called
          cases called
          refine ⟨by simpa using parent, ⟨dio, _, live, Function.update_self .., rfl⟩,
            fun block member keeps => ?_, sameExtents⟩
          simpa [dioBlocks] using stays block member keeps

theorem commitLBs_committed {arg : MetaArg} {index : Nat} {result : Int}
    (run : commitLBs arg s index result = some s') {other : Nat}
    (clear : s'.committed other = false) : s.committed other = false := by
  rcases commitLBs_some run with rfl | ⟨lr, found, outcome⟩
  · exact clear
  · have bits : s'.committed other = (s.marked index lr).committed other := by
      rcases outcome with rfl | ⟨addr, request, empty, -, -, -, rfl⟩
      · rfl
      · rfl
    rw [bits, marked, committed_setLR found, testAndSetCommitted_bit] at clear
    split at clear
    · cases clear
    · exact clear

/-- What one round of the payload loop leaves, and that a commit of the rounds after it is a commit
of the whole loop. -/
theorem payloadRound_spared {ack : Int} {doneLRs doneLRs' : Nat} {dpt : PayloadTag}
    {rest : List PayloadTag} (parent : s.dmeta.pdio = some addr)
    (live : s.request.dios addr = some dio)
    (outside : ∀ index, s.Commits ack (dpt :: rest) index →
      (∃ block ∈ s.dioBlocks addr, kept block) ∧
      ∀ extent, s.extents[index]? = some extent → ∀ block, kept block →
        ¬ extent.Covers block.LBID)
    (run : payloadRound .metadata ack s doneLRs dpt = some (s', doneLRs')) :
    Spared addr kept s s' ∧
      ∀ index, s'.Commits ack rest index → s.Commits ack (dpt :: rest) index := by
  have counts := payloadRound_counts run
  have later : (∀ index, s'.committed index = false → s.committed index = false) →
      ∀ index, s'.Commits ack rest index → s.Commits ack (dpt :: rest) index := by
    rintro clear index ⟨notCommitted, earlier, own, behind, rfl, here, counters, counted, asks⟩
    refine ⟨clear index notCommitted, dpt :: earlier, own, behind, rfl, here, counters, ?_, ?_⟩
    · rw [counts.sameOp, counts.counters] at counted
      exact counted
    · rwa [counts.sameOp] at asks
  rcases payloadRound_some run with ⟨-, rfl, -⟩ | ⟨lr, found, outcome⟩
  · exact ⟨.refl parent live, later fun _ => id⟩
  · let result := updateAndCommitToUserPolicy s.dmeta.op lr dpt.dnIndex ack
    let answered := s.answer dpt.lr result
    have same : Untouched s answered := untouched_answer found dpt.dnIndex ack
    have sameExtents := (answer_framed found ack).extents
    have counted : Spared addr kept s answered :=
      ⟨same.pdio.trans parent, ⟨dio, dio, live, live, rfl⟩, fun _ member _ => member, sameExtents⟩
    rcases outcome with ⟨-, rfl, -⟩ | ⟨asked, commits, -⟩
    · exact ⟨counted, later fun index clear => (same.committed index).symm.trans clear⟩
    · have head : s.committed dpt.lr = false → s.Commits ack (dpt :: rest) dpt.lr := by
        intro clear
        refine ⟨clear, [], dpt, rest, rfl, rfl, lr.counters, ?_, (policy_asks ..).mp asked⟩
        simp [countTag, CoreState.counters, found]
      refine ⟨counted.trans (commitLBs_spared counted.parent live (fun clear => ?_) commits),
        later fun index clear => ?_⟩
      · rw [same.committed] at clear
        rw [sameExtents]
        exact outside dpt.lr (head clear)
      · rw [← same.committed]
        exact commitLBs_committed commits clear

theorem payloadRounds_spared {ack : Int} {doneLRs doneLRs' : Nat} {payloadTags : List PayloadTag}
    (parent : s.dmeta.pdio = some addr) (live : s.request.dios addr = some dio)
    (outside : ∀ index, s.Commits ack payloadTags index →
      (∃ block ∈ s.dioBlocks addr, kept block) ∧
      ∀ extent, s.extents[index]? = some extent → ∀ block, kept block →
        ¬ extent.Covers block.LBID)
    (run : payloadRounds .metadata ack s doneLRs payloadTags = some (s', doneLRs')) :
    Spared addr kept s s' := by
  induction payloadTags generalizing s dio doneLRs with
  | nil =>
      cases run
      exact .refl parent live
  | cons dpt rest inductionHypothesis =>
      obtain ⟨between, doneBetween, round, runRest⟩ := payloadRounds_cons run
      obtain ⟨first, later⟩ := payloadRound_spared parent live outside round
      obtain ⟨-, dioBetween, -, liveBetween, -⟩ := first.dio
      refine first.trans (inductionHypothesis first.parent liveBetween ?_ runRest)
      intro index commits
      obtain ⟨⟨block, member, keeps⟩, apart⟩ := outside index (later index commits)
      rw [first.extents]
      exact ⟨⟨block, first.blocks block member keeps, keeps⟩, apart⟩

theorem Spared.settled {user : CoreState} {ddt : DatanodeTag} {ack doneLRs : Int}
    (spared : Spared addr kept s user) (settled : Settled user s' ddt ack doneLRs) :
    Spared addr kept s s' where
  parent := settled.pdio.trans spared.parent
  dio := by
    rw [settled.request]
    exact spared.dio
  blocks block member keeps := by
    rw [dioBlocks, settled.request]
    exact spared.blocks block member keeps
  extents := by
    rw [CoreState.extents, settled.lrs]
    exact spared.extents

/-- The DIO outlives a reply that commits nothing, or leaves a block of its list alone. -/
theorem volumeIOCommiter_spared {ddt : DatanodeTag} {ack : Int}
    (parent : s.dmeta.pdio = some addr) (live : s.request.dios addr = some dio)
    (spares : (∀ index, ¬ s.Commits ack ddt.payloadTags index) ∨
      ∃ block ∈ s.dioBlocks addr, ¬ s.Hits ack ddt.payloadTags block)
    (run : volumeIOCommiter .metadata s ddt ack = some s') :
    Spared addr (fun block => ¬ s.Hits ack ddt.payloadTags block) s s' := by
  obtain ⟨user, doneLRs, rounds, settled⟩ := volumeIOCommiter_some (by decide) run
  refine Spared.settled (payloadRounds_spared parent live ?_ rounds) settled
  intro index commits
  rcases spares with none | enough
  · exact absurd commits (none index)
  · exact ⟨enough, fun extent own block keeps covers =>
      keeps ⟨index, extent, commits, own, covers⟩⟩

end Step

end CoreState

end DmsBlkdev
