import DmsBlkdev.Completion.ExactlyOnce
import DmsBlkdev.DIO.SplitExact

/-!
# From the set-up of a request to its completion

The DIOs that the splitting loop makes have addresses of their own, result
cells that nobody has written to and ascending block lists, which is where the
commits start from.  So a request that has been set up is completed exactly
once, however its blocks are committed.
-/

namespace DmsBlkdev

open Lib.Interleaving Lib.RunLength

/-- The DIOs of the loop are objects of their own, and nothing has been offered to a result cell. -/
structure Made (split : Split) : Prop where
  ordered : (split.ior.dios.map DMSIO.addr).Pairwise (· < ·)
  allocated : ∀ dio ∈ split.ior.dios, dio.addr < split.memory.attempts .dio
  unset : ∀ dio ∈ split.ior.dios, dio.result = 1
  result : split.ior.result = 1

section Loop

variable {grants : Grants} {alf : Nat → BitVec 64} {split split' : Split}

theorem addDIOToIORequest_result {ior ior' : IORequest} {dio : DMSIO} {memory memory' : Memory}
    (added : addDIOToIORequest grants ior dio memory = .ok (ior', memory')) :
    ior'.result = ior.result := by
  unfold addDIOToIORequest at added
  cases attached : ior.diolist with
  | none =>
      rw [attached] at added
      cases added
      rfl
  | some list =>
      cases granted : grants .dln (memory.attempts .dln) with
      | false => simp [attached, malloc, granted] at added
      | true =>
          simp only [attached, malloc, granted, if_true] at added
          cases added
          rfl

theorem takeBlocks_attempts {length : Int} {memory memory' : Memory} {list : LBList}
    {rest : Option LBList}
    (taken : takeBlocks grants split length memory = .ok (some list, rest, memory')) :
    memory'.attempts .dio = memory.attempts .dio := by
  rcases takeBlocks_some taken with ⟨-, -, -, rfl⟩ | ⟨-, -, rfl, -⟩
  · rfl
  · exact malloc_attempts_of_ne grants .lbList memory (by decide)

theorem Made.add (made : Made split) {dio : DMSIO} {memory : Memory}
    (addr : dio.addr = split.memory.attempts .dio) (unset : dio.result = 1)
    (tried : memory.attempts .dio = split.memory.attempts .dio + 1)
    (added : addDIOToIORequest grants split.ior dio memory =
      .ok (split'.ior, split'.memory)) : Made split' := by
  have result := (addDIOToIORequest_result added).trans made.result
  rcases addDIOToIORequest_ok grants added with ⟨-, same, rfl⟩ | ⟨-, -, after, -, dios⟩
  · refine ⟨same ▸ made.ordered, fun other member => ?_, same ▸ made.unset, result⟩
    rw [tried]
    exact Nat.lt_succ_of_lt (made.allocated other (same ▸ member))
  · have triedAfter : split'.memory.attempts .dio = split.memory.attempts .dio + 1 := by
      rw [after, malloc_attempts_of_ne grants .dln memory (by decide), tried]
    refine ⟨?_, fun other member => ?_, fun other member => ?_, result⟩
    · rw [dios, List.map_append, List.pairwise_append]
      refine ⟨made.ordered, List.pairwise_singleton .., fun one inOld other inNew => ?_⟩
      obtain ⟨old, member, rfl⟩ := List.mem_map.mp inOld
      obtain rfl : other = dio.addr := List.mem_singleton.mp inNew
      rw [addr]
      exact made.allocated old member
    · rw [triedAfter]
      rcases List.mem_append.mp (dios ▸ member) with old | new
      · exact Nat.lt_succ_of_lt (made.allocated other old)
      · obtain rfl := List.mem_singleton.mp new
        rw [addr]
        exact Nat.lt_succ_self _
    · rcases List.mem_append.mp (dios ▸ member) with old | new
      · exact made.unset other old
      · exact List.mem_singleton.mp new ▸ unset

theorem Made.round (made : Made split)
    (round : splitRound grants alf split = .ok (.next split')) : Made split' := by
  have tried := malloc_attempts_self grants .dio split.memory
  by_cases isRead : split.op = .read
  · obtain ⟨-, ior, memory, added, rfl⟩ := splitRound_read_next isRead round
    exact made.add rfl rfl tried added
  · obtain ⟨-, list, rest, taken, ior, memory, cut, added, rfl⟩ := splitRound_next isRead round
    exact made.add rfl rfl ((takeBlocks_attempts cut).trans tried) added

theorem Made.loop {fuel : Nat} (made : Made split)
    (ended : splitLoop grants alf fuel split = .ok (.next split')) : Made split' := by
  induction fuel generalizing split with
  | zero => simp [splitLoop] at ended
  | succ fuel inductionHypothesis =>
      rcases splitLoop_next_cases ended with ⟨-, rfl⟩ | ⟨-, shorter, middle, less, round, later⟩
      · exact made
      obtain rfl : fuel = shorter := Nat.succ.inj less
      exact inductionHypothesis (made.round round) later

end Loop

def IORequest.request (ior : IORequest) : Request where
  dios addr := ior.dios.find? fun dio => dio.addr = addr
  diolist := ior.dios.map DMSIO.addr
  result := ior.result
  log := []

/-- The commits cover each DIO of the request with disjoint ranges. -/
structure CommitsTile (ior : IORequest) (commits : List Commit) : Prop where
  ranges : ∀ commit ∈ commits, 0 < commit.nrLBIDs ∧ ∃ dio ∈ ior.dios, dio.addr = commit.dio
  covered : ∀ dio ∈ ior.dios, (Commit.covered dio.addr commits).Perm dio.range

structure SetUp (kreq : KRequest) (ior : IORequest) : Prop where
  covers : Covers kreq ior
  distinct : (ior.dios.map DMSIO.addr).Nodup
  unset : ∀ dio ∈ ior.dios, dio.result = 1
  nonempty : ∀ dio ∈ ior.dios, 0 < dio.nrLBIDs
  result : ior.result = 1

section SetUp

variable {grants : Grants} {alf : Nat → BitVec 64} {kreq : KRequest} {ior : IORequest}

theorem createIORequest_some {memory memory' : Memory}
    (created : createIORequest grants memory = (some ior, memory')) :
    ior.dios = [] ∧ ior.result = 1 := by
  cases granted : grants .ioRequest (memory.attempts .ioRequest) with
  | false => simp [createIORequest, malloc, granted] at created
  | true =>
      simp only [createIORequest, createDList, malloc, granted, if_true, Prod.mk.injEq,
        Option.some.injEq] at created
      obtain ⟨rfl, -⟩ := created
      refine ⟨?_, rfl⟩
      simp only [IORequest.dios]
      split <;> rfl

theorem makeDIORequst_made {fuel : Nat} {kreq' : KRequest} {memory : Memory}
    (returned : makeDIORequst grants alf fuel kreq .fresh = .ok (some ior, kreq', memory)) :
    (ior.dios.map DMSIO.addr).Nodup ∧ (∀ dio ∈ ior.dios, dio.result = 1) ∧ ior.result = 1 := by
  unfold makeDIORequst at returned
  rcases created : createIORequest grants .fresh with ⟨_ | start, afterwards⟩
  · rw [created] at returned
    cases returned
  · obtain ⟨none, result⟩ := createIORequest_some created
    rw [created] at returned
    simp only [bind, Except.bind] at returned
    generalize generateAllLogicalBlocks grants kreq afterwards = generated at returned
    have made : Made ⟨kreq.sLBID, kreq.nrLBIDs, kreq.op, generated.1, start, generated.2⟩ := by
      refine ⟨by simp [none], ?_, ?_, result⟩ <;> simp [none]
    rcases ended : splitLoop grants alf fuel
        ⟨kreq.sLBID, kreq.nrLBIDs, kreq.op, generated.1, start, generated.2⟩ with
      fault | (split | split)
    · rw [ended] at returned
      cases returned
    · rw [ended] at returned
      cases returned
      have after := made.loop ended
      exact ⟨after.ordered.imp Nat.ne_of_lt, after.unset, after.result⟩
    · rw [ended] at returned
      cases returned

/-- A request whose allocations are granted is set up. -/
theorem setUp_of_granted (granted : SetUpGranted grants alf kreq) (nonempty : kreq.nrLBIDs ≠ 0) :
    ∃ fuel ior memory, makeDIORequst grants alf fuel kreq .fresh = .ok (some ior, kreq, memory) ∧
      SetUp kreq ior := by
  cases isWrite : kreq.isWrite with
  | true =>
      obtain ⟨fuel, ior, memory, returned, serves⟩ := makeDIORequst_write isWrite granted
      obtain ⟨distinct, unset, result⟩ := makeDIORequst_made returned
      have tiles := scannedRuns_tiles alf kreq.sLBID kreq.nrLBIDs
      obtain ⟨ranges, blocks⟩ := serves_ranges serves
      rw [tiles.positions, Nat.add_sub_cancel_left] at ranges
      refine ⟨fuel, ior, memory, returned, ⟨ranges, blocks⟩, distinct, unset, ?_, result⟩
      intro dio member
      have served : dio.run ∈ scannedRuns alf kreq.sLBID kreq.nrLBIDs :=
        (serves_map serves).1 ▸ List.mem_map_of_mem member
      exact (tiles.bounds _ served).2.1
  | false =>
      obtain ⟨fuel, ior, memory, returned, covers⟩ := makeDIORequst_read isWrite nonempty granted
      obtain ⟨distinct, unset, result⟩ := makeDIORequst_made returned
      obtain ⟨-, start, lbList, first, split, started, rfl, ended⟩ := makeDIORequst_some returned
      have attached := started.attached.mpr granted.dList
      have isRead : kreq.op = .read := by rw [KRequest.op, isWrite]; rfl
      obtain ⟨-, -, addr, dios⟩ := granted_of_splitLoop_read isRead nonempty attached ended
      refine ⟨fuel, _, memory, returned, covers, distinct, unset, ?_, result⟩
      intro dio member
      rw [dios, started.dios, List.nil_append, List.mem_singleton] at member
      subst member
      exact Nat.pos_of_ne_zero nonempty

theorem SetUp.find (setUp : SetUp kreq ior) {dio : DMSIO} (member : dio ∈ ior.dios) :
    ior.request.dios dio.addr = some dio := by
  obtain ⟨before, after, split⟩ := List.append_of_mem member
  have distinct := setUp.distinct
  rw [split, List.map_append, List.map_cons, List.nodup_append] at distinct
  refine List.find?_eq_some_iff_append.mpr ⟨by simp, before, after, split, fun other inBefore => ?_⟩
  have different : other.addr ≠ dio.addr :=
    distinct.2.2 _ (List.mem_map_of_mem inBefore) _ List.mem_cons_self
  simp [different]

/-- A request that is set up is ready for commits that tile its DIOs. -/
theorem SetUp.inFlight (setUp : SetUp kreq ior) (blocks : kreq.nrLBIDs ≠ 0)
    (bound : kreq.sLBID + kreq.nrLBIDs ≤ 2 ^ 64) {commits : List Commit}
    (tile : CommitsTile ior commits) : InFlight ior.request commits := by
  refine ⟨setUp.result, rfl, ?_, setUp.distinct, fun commit member => ?_, fun addr member => ?_⟩
  · intro none
    have empty : ior.dios = [] := List.map_eq_nil_iff.mp none
    have ranges := setUp.covers.ranges
    rw [empty] at ranges
    exact blocks (by simpa using (congrArg List.length ranges).symm)
  · obtain ⟨positive, dio, inside, same⟩ := tile.ranges commit member
    exact ⟨same ▸ List.mem_map_of_mem inside, positive⟩
  · obtain ⟨dio, inside, rfl⟩ := List.mem_map.mp member
    have lbids := setUp.covers.blocks dio inside
    have filled : dio.lbids ≠ [] := by
      rw [lbids, DMSIO.range, Ne, List.range'_eq_nil_iff]
      exact (setUp.nonempty dio inside).ne'
    cases held : dio.lbList with
    | none => simp [ DMSIO.lbids, held] at filled
    | some list =>
        have listed : list.lbids = dio.range := by
          rw [← lbids, DMSIO.lbids, held]
          rfl
        refine ⟨dio, list, setUp.find inside, setUp.unset dio inside, held, ?_, ⟨?_, ?_⟩, ?_⟩
        · rintro none
          rw [ DMSIO.lbids, held] at filled
          exact filled (by simp [LBList.lbids, none])
        · have ascending : (list.blocks.map LBMD.LBID).Pairwise (· < ·) := by
            have same : list.blocks.map LBMD.LBID = dio.range := listed
            rw [same]
            exact List.pairwise_lt_range'
          exact ascending
        · intro block inBlocks
          have inRange : block.LBID ∈ dio.range := listed ▸ List.mem_map_of_mem inBlocks
          have inRequest : block.LBID ∈ List.range' kreq.sLBID kreq.nrLBIDs :=
            setUp.covers.ranges ▸ List.mem_flatMap.mpr ⟨dio, inside, inRange⟩
          exact Nat.lt_of_lt_of_le (List.mem_range'_1.mp inRequest).2 bound
        · rw [listed]
          exact (tile.covered dio inside).symm

/-- The kernel request after calls of `DMS_End_Request_Handler` for all of its sectors. -/
def KRequest.ended (kreq : KRequest) (results : List Int) : KRequest :=
  results.foldl (fun kreq result => (dmsEndRequestHandler kreq kreq.nrSectors result).1) kreq

theorem KRequest.ended_once {kreq : KRequest} {addr : Nat} (attached : kreq.special = some addr)
    (fresh : kreq.completions = []) {results : List Int} (once : results.length = 1) :
    ∃ result, results = [result] ∧ (kreq.ended results).completions = [result] ∧
      (kreq.ended results).special = none := by
  obtain ⟨result, rfl⟩ := List.length_eq_one_iff.mp once
  refine ⟨result, rfl, ?_⟩
  simp [ended, dmsEndRequestHandler, attached, fresh]

/-- A kernel request that gets what its set-up needs is attached to DIOs that cover it; and however
commits tile them, and however these interleave, no commit meets a released DIO, the commits can be
brought to an end, and then each DIO has been removed and released once, and the kernel request has
been completed once. -/
theorem request_completes_once (granted : SetUpGranted grants alf kreq) (fresh : kreq.Fresh)
    (blocks : kreq.nrLBIDs ≠ 0) (bound : kreq.sLBID + kreq.nrLBIDs ≤ 2 ^ 64) :
    ∃ fuel ior kreq' memory, volumeIOHandler grants alf fuel kreq .fresh =
        .ok (some ior, kreq', memory) ∧
      Covers kreq ior ∧ ∀ commits, CommitsTile ior commits → ∀ config,
        Reaches Committer.next (launch ior.request commits) config →
          (∀ t ∈ config.threads, t.pc ≠ .fault) ∧
          Orderly (ior.dios.map DMSIO.addr) config.shared ∧
          (∃ last, Reaches Committer.next config last ∧ Finished last) ∧
          (Finished config → CompletedOnce (ior.dios.map DMSIO.addr) config.shared ∧
            ∃ result, config.shared.endedResults = [result] ∧
              (kreq'.ended config.shared.endedResults).completions = [result]) := by
  obtain ⟨fuel, ior, memory, returned, setUp⟩ := setUp_of_granted granted blocks
  refine ⟨fuel, ior, { kreq with special := some ior.addr }, memory, ?_, setUp.covers, ?_⟩
  · rw [volumeIOHandler, returned]
    rfl
  · intro commits tile config reached
    have inv := (setUp.inFlight blocks bound tile).requestInv.of_reaches reached
    refine ⟨inv.sound, inv.orderly, ?_, fun finished => ?_⟩
    · exact @exists_reaches_stuck _ _ Committer.next (fun t => t.pc.rank)
        (fun _ _ _ _ => next_rank) config
    · have completed := inv.completedOnce finished
      obtain ⟨result, ended, completions, -⟩ := KRequest.ended_once
        (show ({ kreq with special := some ior.addr } : KRequest).special = some ior.addr from rfl)
        fresh.2 completed.ended
      exact ⟨completed, result, ended, completions⟩

end SetUp

section Block31

/-- The write of block 31 with two commits that do not agree. -/
theorem request_completes_once_block31Write :
    ∃ fuel ior kreq' memory, volumeIOHandler (fun _ _ => true) (allocationChunk fun _ => false) fuel
        block31Write .fresh = .ok (some ior, kreq', memory) ∧
      Covers block31Write ior ∧ ∀ commits, CommitsTile ior commits → ∀ config,
        Reaches Committer.next (launch ior.request commits) config →
          (∀ t ∈ config.threads, t.pc ≠ .fault) ∧
          Orderly (ior.dios.map DMSIO.addr) config.shared ∧
          (∃ last, Reaches Committer.next config last ∧ Finished last) ∧
          (Finished config → CompletedOnce (ior.dios.map DMSIO.addr) config.shared ∧
            ∃ result, config.shared.endedResults = [result] ∧
              (kreq'.ended config.shared.endedResults).completions = [result]) := by
  have tests : ∀ run ∈ runs (fun _ : Nat => false) 31 1,
      TestExact (allocationChunk fun _ => false) run.start := by
    intro run _
    rw [testExact_allocationChunk_iff]
    simp
  exact request_completes_once
    (block31Write_aligned.setUpGranted (fun _ => false) (by decide) tests) ⟨rfl, rfl⟩ (by decide)
    (by decide)

end Block31

end DmsBlkdev
