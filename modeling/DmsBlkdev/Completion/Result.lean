import DmsBlkdev.Completion.Commit
import Mathlib.Data.List.Dedup

/-!
# The result reported to the kernel

Result cells keep the first ack code other than one that is offered to them,
so a later error does not show behind an earlier success.  The result of a
request is decided by one ack: the first other than one, taken DIO by DIO in
the order in which the DIOs complete.
-/

namespace DmsBlkdev

open Lib.Atomic Commit

namespace Request

/-- `Commit_LB_to_DMS_IO` for one commit after the other. -/
def commitAll : Nat → List Commit → Request → Option Request
  | _, [], r => some r
  | who, commit :: rest, r =>
      match r.commitLBToDMSIO who commit.dio commit.slbid commit.nrLBIDs commit.result with
      | none => none
      | some (r, _) => commitAll (who + 1) rest r

/-- The results that `DMS_End_Request_Handler` was called with. -/
def endedResults (r : Request) : List Int :=
  r.log.filterMap fun entry => match entry.2 with
    | .ended result => some result
    | _ => none

theorem mem_endedResults {r : Request} {result : Int} :
    result ∈ r.endedResults ↔ ∃ who, (who, .ended result) ∈ r.log := by
  simp only [endedResults, List.mem_filterMap]
  constructor
  · rintro ⟨⟨who, event⟩, member, found⟩
    cases event with
    | ended value =>
        cases found
        exact ⟨who, member⟩
    | emptied _ => cases found
    | removed _ => cases found
    | released _ => cases found
  · rintro ⟨who, member⟩
    exact ⟨_, member, rfl⟩

def cell (r : Request) (addr : Nat) : Int := ((r.dios addr).map DMSIO.result).getD 1

end Request

open Request

/-- The commits still to come tile the blocks that the listed DIOs still hold. -/
structure Pending (r : Request) (commits : List Commit) : Prop where
  nodup : r.diolist.Nodup
  listed : ∀ addr, addr ∈ r.diolist ↔ addr ∈ commits.map Commit.dio
  nonempty : ∀ commit ∈ commits, 0 < commit.nrLBIDs
  blocks : ∀ addr ∈ r.diolist, ∃ dio list, r.dios addr = some dio ∧ dio.lbList = some list ∧
    Sorted64 list.blocks ∧ list.lbids.Perm (covered addr commits)

section Step

variable {r : Request} {commit : Commit} {rest : List Commit}

/-- What the next commit meets: its DIO with its block list, and the blocks it leaves there. -/
theorem Pending.next (pending : Pending r (commit :: rest)) :
    commit.dio ∈ r.diolist ∧ ∃ dio list, r.dios commit.dio = some dio ∧ dio.lbList = some list ∧
      Sorted64 (keptBlocks list commit.slbid commit.nrLBIDs).blocks ∧
      (keptBlocks list commit.slbid commit.nrLBIDs).lbids.Perm (covered commit.dio rest) := by
  have listed : commit.dio ∈ r.diolist := (pending.listed _).mpr (by simp)
  obtain ⟨dio, list, found, held, sorted, perm⟩ := pending.blocks _ listed
  rw [covered_cons_self] at perm
  obtain ⟨keptSorted, keptPerm⟩ :=
    @commit_perm _ sorted _ _ (pending.nonempty commit List.mem_cons_self) [] _ perm
  exact ⟨listed, dio, list, found, held, keptSorted, keptPerm⟩

/-- A commit to a DIO that more commits follow offers its ack to the DIO and changes no result. -/
theorem Pending.commit_left (pending : Pending r (commit :: rest)) (who : Nat)
    (more : commit.dio ∈ rest.map Commit.dio) :
    ∃ r', r.commitLBToDMSIO who commit.dio commit.slbid commit.nrLBIDs commit.result =
        some (r', 0) ∧
      Pending r' rest ∧ r'.result = r.result ∧ r'.log = r.log ∧
      r'.cell commit.dio = cmpxchg 1 commit.result (r.cell commit.dio) ∧
      ∀ addr, addr ≠ commit.dio → r'.cell addr = r.cell addr := by
  obtain ⟨listed, dio, list, found, held, sorted, perm⟩ := pending.next
  have restNonempty : ∀ commit ∈ rest, 0 < commit.nrLBIDs := fun other member =>
    pending.nonempty other (List.mem_cons_of_mem _ member)
  have left : (keptBlocks list commit.slbid commit.nrLBIDs).blocks ≠ [] := by
    intro none
    rw [LBList.lbids, none, List.map_nil] at perm
    exact (covered_eq_nil_iff restNonempty).mp perm.nil_eq.symm more
  refine ⟨_, commitLBToDMSIO_left who _ _ _ found held left, ?_, rfl, rfl, ?_, ?_⟩
  · refine ⟨pending.nodup, fun addr => ?_, restNonempty, fun addr member => ?_⟩
    · rw [pending.listed, List.map_cons, List.mem_cons]
      constructor
      · rintro (rfl | inRest)
        · exact more
        · exact inRest
      · exact .inr
    · by_cases same : addr = commit.dio
      · subst same
        exact ⟨_, _, Function.update_self .., rfl, sorted, perm⟩
      · obtain ⟨other, otherList, otherFound, otherHeld, otherSorted, otherPerm⟩ :=
          pending.blocks addr member
        rw [covered_cons_of_ne (Ne.symm same)] at otherPerm
        exact ⟨other, otherList, (Function.update_of_ne same ..).trans otherFound, otherHeld,
          otherSorted, otherPerm⟩
  · simp [cell, found]
  · intro addr different
    simp [cell, Function.update_of_ne different]

/-- The last commit to a DIO passes the result of the DIO on, and the last one of all ends the
kernel request. -/
theorem Pending.commit_last (pending : Pending r (commit :: rest)) (who : Nat)
    (last : commit.dio ∉ rest.map Commit.dio) :
    ∃ r', r.commitLBToDMSIO who commit.dio commit.slbid commit.nrLBIDs commit.result =
        some (r', 1) ∧
      Pending r' rest ∧
      r'.result = cmpxchg 1 (cmpxchg 1 commit.result (r.cell commit.dio)) r.result ∧
      r'.endedResults = r.endedResults ++ (if rest = [] then [r'.result] else []) ∧
      ∀ addr, addr ≠ commit.dio → r'.cell addr = r.cell addr := by
  obtain ⟨listed, dio, list, found, held, sorted, perm⟩ := pending.next
  have restNonempty : ∀ commit ∈ rest, 0 < commit.nrLBIDs := fun other member =>
    pending.nonempty other (List.mem_cons_of_mem _ member)
  have empty : (keptBlocks list commit.slbid commit.nrLBIDs).blocks = [] := by
    rw [(covered_eq_nil_iff restNonempty).mpr last] at perm
    exact List.map_eq_nil_iff.mp perm.eq_nil
  have listedAfter : ∀ addr, addr ∈ r.diolist.erase commit.dio ↔ addr ∈ rest.map Commit.dio := by
    intro addr
    rw [pending.nodup.mem_erase_iff, pending.listed, List.map_cons, List.mem_cons]
    constructor
    · rintro ⟨different, rfl | inRest⟩
      · exact absurd rfl different
      · exact inRest
    · intro inRest
      refine ⟨?_, .inr inRest⟩
      rintro rfl
      exact last inRest
  have noneLeft : r.diolist.erase commit.dio = [] ↔ rest = [] := by
    rw [List.eq_nil_iff_forall_not_mem]
    constructor
    · intro absent
      by_contra some
      obtain ⟨head, tail, rfl⟩ := List.exists_cons_of_ne_nil some
      exact absent head.dio ((listedAfter _).mpr (by simp))
    · rintro rfl addr member
      simpa using (listedAfter addr).mp member
  refine ⟨_, commitLBToDMSIO_emptied who _ _ _ found held listed empty, ?_, ?_, ?_, ?_⟩
  · refine ⟨?_, ?_, restNonempty, ?_⟩
    · rw [afterLastCommit_diolist]
      exact pending.nodup.erase _
    · rw [afterLastCommit_diolist]
      exact listedAfter
    · rw [afterLastCommit_diolist, afterLastCommit_dios]
      intro addr member
      obtain ⟨different, inList⟩ := pending.nodup.mem_erase_iff.mp member
      obtain ⟨other, otherList, otherFound, otherHeld, otherSorted, otherPerm⟩ :=
        pending.blocks addr inList
      rw [covered_cons_of_ne (Ne.symm different)] at otherPerm
      exact ⟨other, otherList, (Function.update_of_ne different ..).trans otherFound, otherHeld,
        otherSorted, otherPerm⟩
  · simp [cell, found]
  · rw [endedResults, afterLastCommit_log, endedResults, List.filterMap_append,
      List.filterMap_append, afterLastCommit_result]
    by_cases none : rest = []
    · simp [none, noneLeft.mpr none]
    · simp [none, mt noneLeft.mp none]
  · intro addr different
    simp [cell, Function.update_of_ne different]

end Step

section Run

def acks (addr : Nat) (commits : List Commit) : List Int :=
  (commits.filter fun commit => commit.dio = addr).map Commit.result

/-- The ack codes, DIO by DIO in the order in which the DIOs complete: a DIO completes with its
last commit. -/
def acksByCompletion (commits : List Commit) : List Int :=
  ((commits.map Commit.dio).dedup.map fun addr => acks addr commits).flatten

/-- The first ack other than one in that order. -/
def decidingAck (commits : List Commit) : Option Int :=
  (acksByCompletion commits).find? fun ack => decide (ack ≠ 1)

def offerAll (cell : Int) (offers : List Int) : Int :=
  offers.foldl (fun cell offer => cmpxchg 1 offer cell) cell

theorem commitAll_pending {r : Request} {commits : List Commit} (pending : Pending r commits)
    (who : Nat) :
    ∃ r', commitAll who commits r = some r' ∧
      r'.result = offerAll r.result ((commits.map Commit.dio).dedup.map fun addr =>
        offerAll (r.cell addr) (acks addr commits)) ∧
      r'.endedResults = r.endedResults ++ (if commits = [] then [] else [r'.result]) := by
  induction commits generalizing r who with
  | nil => exact ⟨r, rfl, rfl, by simp⟩
  | cons commit rest inductionHypothesis =>
      have ownAcks : acks commit.dio (commit :: rest) = commit.result :: acks commit.dio rest := by
        simp [acks]
      have otherAcks : ∀ addr, addr ≠ commit.dio → acks addr (commit :: rest) = acks addr rest := by
        intro addr different
        simp [acks, Ne.symm different]
      by_cases more : commit.dio ∈ rest.map Commit.dio
      · obtain ⟨next, call, later, result, log, own, others⟩ := pending.commit_left who more
        obtain ⟨r', run, final, ended⟩ := inductionHypothesis later (who + 1)
        have some : rest ≠ [] := by
          rintro rfl
          simp at more
        refine ⟨r', by rw [commitAll, call]; exact run, ?_, ?_⟩
        · rw [final, result, List.map_cons, List.dedup_cons_of_mem more]
          congr 1
          apply List.map_congr_left
          intro addr _
          by_cases same : addr = commit.dio
          · rw [same, own, ownAcks]
            rfl
          · rw [others addr same, otherAcks addr same]
        · rw [ended, endedResults, log, ← endedResults, if_neg some, if_neg (by simp)]
      · obtain ⟨next, call, later, result, endedNext, others⟩ := pending.commit_last who more
        obtain ⟨r', run, final, ended⟩ := inductionHypothesis later (who + 1)
        have noAcks : acks commit.dio rest = [] := by
          rw [acks, List.map_eq_nil_iff, List.filter_eq_nil_iff]
          intro other member equality
          exact more (List.mem_map.mpr ⟨other, member, of_decide_eq_true equality⟩)
        refine ⟨r', by rw [commitAll, call]; exact run, ?_, ?_⟩
        · rw [final, result, List.map_cons, List.dedup_cons_of_notMem more, List.map_cons, ownAcks,
            noAcks]
          simp only [offerAll, List.foldl_cons, List.foldl_nil]
          congr 1
          apply List.map_congr_left
          intro addr member
          have different : addr ≠ commit.dio := by
            rintro rfl
            exact more (List.mem_dedup.mp member)
          rw [others addr different, otherAcks addr different]
        · rw [ended, endedNext, if_neg (List.cons_ne_nil commit rest)]
          by_cases none : rest = []
          · subst none
            simp [commitAll] at run
            simp [run]
          · simp [none]

theorem InFlight.pending {r : Request} {commits : List Commit} (inFlight : InFlight r commits) :
    Pending r commits := by
  refine ⟨inFlight.nodup, fun addr => ⟨fun member => ?_, fun member => ?_⟩,
    fun commit member => (inFlight.ranges commit member).2, fun addr member => ?_⟩
  · obtain ⟨_, list, _, _, _, blocks, _, perm⟩ := inFlight.dios addr member
    apply mem_dio_of_covered_ne_nil
    intro empty
    rw [empty] at perm
    exact blocks (List.map_eq_nil_iff.mp perm.eq_nil)
  · obtain ⟨commit, inCommits, rfl⟩ := List.mem_map.mp member
    exact (inFlight.ranges commit inCommits).1
  · obtain ⟨dio, list, found, _, held, _, sorted, perm⟩ := inFlight.dios addr member
    exact ⟨dio, list, found, held, sorted, perm⟩

/-- The kernel hears the deciding ack, or one when every ack was one. -/
theorem commitAll_reports {r : Request} {commits : List Commit} (inFlight : InFlight r commits) :
    ∃ final, commitAll 0 commits r = some final ∧
      final.endedResults = [(decidingAck commits).getD 1] := by
  have pending := inFlight.pending
  obtain ⟨final, run, result, ended⟩ := commitAll_pending pending 0
  have cells : ∀ addr ∈ (commits.map Commit.dio).dedup,
      offerAll (r.cell addr) (acks addr commits) = settled 1 (acks addr commits) := by
    intro addr member
    obtain ⟨dio, list, found, fresh, _⟩ :=
      inFlight.dios addr ((pending.listed addr).mpr (List.mem_dedup.mp member))
    rw [cell, found, Option.map_some, Option.getD_some, fresh, offerAll, foldl_cmpxchg]
  have some : commits ≠ [] := by
    rintro rfl
    obtain ⟨addr, rest, listed⟩ := List.exists_cons_of_ne_nil inFlight.inhabited
    have member : addr ∈ r.diolist := by simp [listed]
    simpa using (pending.listed addr).mp member
  refine ⟨final, run, ?_⟩
  rw [ended, if_neg some, endedResults, inFlight.log, result, inFlight.result,
    List.map_congr_left cells, offerAll, foldl_cmpxchg]
  have groups := settled_map_settled 1
    ((commits.map Commit.dio).dedup.map fun addr => acks addr commits)
  rw [List.map_map] at groups
  exact congrArg (fun value => [value]) groups

/-- A success reported to the kernel hides no error exactly when there is no error, or the deciding
ack is one. -/
theorem commitAll_unmasked_iff {r : Request} {commits : List Commit}
    (inFlight : InFlight r commits) (signed : ∀ commit ∈ commits, commit.result ≠ 0) :
    (∃ final, commitAll 0 commits r = some final ∧
      ∀ who result, (who, Event.ended result) ∈ final.log → 0 < result →
        ∀ commit ∈ commits, 0 < commit.result) ↔
      (∀ commit ∈ commits, 0 < commit.result) ∨
        ∃ ack, decidingAck commits = some ack ∧ ack < 0 := by
  obtain ⟨final, run, ended⟩ := commitAll_reports inFlight
  have reported : ∀ result, (∃ who, (who, Event.ended result) ∈ final.log) ↔
      result = (decidingAck commits).getD 1 := by
    intro result
    rw [← mem_endedResults, ended, List.mem_singleton]
  have nonzero : (decidingAck commits).getD 1 ≠ 0 := by
    cases deciding : decidingAck commits with
    | none => simp
    | some ack =>
        have member : ack ∈ acksByCompletion commits := List.mem_of_find?_eq_some deciding
        obtain ⟨group, inGroups, inGroup⟩ := List.mem_flatten.mp member
        obtain ⟨addr, _, rfl⟩ := List.mem_map.mp inGroups
        obtain ⟨commit, inFilter, rfl⟩ := List.mem_map.mp inGroup
        exact signed commit (List.mem_of_mem_filter inFilter)
  constructor
  · rintro ⟨other, otherRun, unmasked⟩
    obtain rfl : final = other := Option.some.inj (run.symm.trans otherRun)
    obtain ⟨who, member⟩ := (reported _).mpr rfl
    by_cases success : 0 < (decidingAck commits).getD 1
    · exact .inl (unmasked who _ member success)
    · right
      cases deciding : decidingAck commits with
      | none => simp [deciding] at success
      | some ack =>
          simp only [deciding, Option.getD_some] at success nonzero
          exact ⟨ack, rfl, by omega⟩
  · intro condition
    refine ⟨final, run, fun who result member success => ?_⟩
    rcases condition with clean | ⟨ack, deciding, negative⟩
    · exact clean
    · have equality := (reported result).mp ⟨who, member⟩
      rw [deciding, Option.getD_some] at equality
      omega

def twoBlockRequest : Request where
  dios addr := if addr = 0 then
    some ⟨0, .write, 0, 2, some ⟨0, [⟨0, 0, 0, 0⟩, ⟨1, 1, 0, 1⟩]⟩, 1⟩ else none
  diolist := [0]
  result := 1
  log := []

theorem twoBlockRequest_inFlight (first second : Int) :
    InFlight twoBlockRequest [⟨0, 0, 1, first⟩, ⟨0, 1, 1, second⟩] := by
  refine ⟨rfl, rfl, by decide, by decide, ?_, ?_⟩
  · simp [twoBlockRequest]
  · intro addr member
    obtain rfl : addr = 0 := by simpa [twoBlockRequest] using member
    exact ⟨_, _, rfl, rfl, rfl, by simp, ⟨by decide, by decide⟩, .refl _⟩

theorem commitAll_unmasked_twoBlocks :
    ∃ final, commitAll 0 [⟨0, 0, 1, -1003⟩, ⟨0, 1, 1, 103⟩] twoBlockRequest = some final ∧
      ∀ who result, (who, Event.ended result) ∈ final.log → 0 < result →
        ∀ commit ∈ ([⟨0, 0, 1, -1003⟩, ⟨0, 1, 1, 103⟩] : List Commit), 0 < commit.result :=
  (commitAll_unmasked_iff (twoBlockRequest_inFlight (-1003) 103) (by decide)).mpr
    (.inr ⟨-1003, by decide, by decide⟩)

/-- An error after a success of the same DIO is reported as that success. -/
theorem commitAll_masks_twoBlocks :
    InFlight twoBlockRequest [⟨0, 0, 1, 103⟩, ⟨0, 1, 1, -1003⟩] ∧
      ¬ ∃ final, commitAll 0 [⟨0, 0, 1, 103⟩, ⟨0, 1, 1, -1003⟩] twoBlockRequest = some final ∧
        ∀ who result, (who, Event.ended result) ∈ final.log → 0 < result →
          ∀ commit ∈ ([⟨0, 0, 1, 103⟩, ⟨0, 1, 1, -1003⟩] : List Commit), 0 < commit.result := by
  have inFlight := twoBlockRequest_inFlight 103 (-1003)
  refine ⟨inFlight, ?_⟩
  rintro ⟨final, run, unmasked⟩
  obtain ⟨other, otherRun, ended⟩ := commitAll_reports inFlight
  obtain rfl : final = other := Option.some.inj (run.symm.trans otherRun)
  have success : (103 : Int) ∈ final.endedResults := by
    rw [ended]
    decide
  obtain ⟨who, member⟩ := mem_endedResults.mp success
  have positive := unmasked who 103 member (by decide) ⟨0, 1, 1, -1003⟩ (by decide)
  revert positive
  decide

end Run

end DmsBlkdev
