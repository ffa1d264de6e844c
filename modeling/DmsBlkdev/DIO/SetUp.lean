import DmsBlkdev.DIO.SplitLoop

/-!
# When a request is set up

`SetUpGranted` lists what the set-up of a kernel request takes from the
allocator, the block list and the operation test.  A request is set up with
DIOs that cover it exactly then.
-/

namespace DmsBlkdev

open Lib.RunLength

section Segments

variable (grants : Grants)

/-- The segments that get an LBMD when the first of them is attempt `first`. -/
def grantedSegments (first : Nat) (list : List Segment) : List Segment :=
  ((list.zipIdx first).filter fun entry => grants .lbmd entry.2).map Prod.fst

theorem addSegments_spec (list : List Segment) {blocks : List LBMD} (memory : Memory)
    (ascending : Ascending blocks) :
    Ascending (addSegments grants list blocks memory).1 ∧
      (∀ lbid, lbid ∈ (addSegments grants list blocks memory).1.map LBMD.LBID ↔
        lbid ∈ blocks.map LBMD.LBID ∨
          lbid ∈ (grantedSegments grants (memory.attempts .lbmd) list).map Segment.LBID) ∧
      ∀ pool, pool ≠ .lbmd →
        (addSegments grants list blocks memory).2.attempts pool = memory.attempts pool := by
  induction list generalizing blocks memory with
  | nil => exact ⟨ascending, by simp [addSegments, grantedSegments], fun _ _ => rfl⟩
  | cons segment rest inductionHypothesis =>
      have tried := malloc_attempts_self grants .lbmd memory
      have others : ∀ pool, pool ≠ .lbmd →
          (malloc grants .lbmd memory).2.attempts pool = memory.attempts pool :=
        fun pool => malloc_attempts_of_ne grants .lbmd memory
      cases granted : grants .lbmd (memory.attempts .lbmd) with
      | false =>
          have skipped : addSegment grants blocks segment memory =
              (blocks, (malloc grants .lbmd memory).2) := by
            simp [addSegment, malloc, granted]
          obtain ⟨sorted, members, kept⟩ :=
            inductionHypothesis (malloc grants .lbmd memory).2 ascending
          have same : grantedSegments grants (memory.attempts .lbmd) (segment :: rest) =
              grantedSegments grants (memory.attempts .lbmd + 1) rest := by
            simp [grantedSegments, granted]
          rw [addSegments, skipped, same]
          rw [tried] at members
          exact ⟨sorted, members, fun pool different => (kept pool different).trans
            (others pool different)⟩
      | true =>
          let lbmd : LBMD := ⟨memory.attempts .lbmd, segment.LBID, segment.bio, segment.vecIdx⟩
          have added : addSegment grants blocks segment memory =
              ((addToLogicalBlockListByInsertionSort blocks lbmd).getD blocks,
                (malloc grants .lbmd memory).2) := by
            simp [addSegment, malloc, granted, lbmd]
          have inserted : Ascending
              ((addToLogicalBlockListByInsertionSort blocks lbmd).getD blocks) ∧
              ∀ lbid, lbid ∈ ((addToLogicalBlockListByInsertionSort blocks lbmd).getD blocks).map
                LBMD.LBID ↔ lbid = segment.LBID ∨ lbid ∈ blocks.map LBMD.LBID := by
            cases outcome : addToLogicalBlockListByInsertionSort blocks lbmd with
            | none =>
                have present : segment.LBID ∈ blocks.map LBMD.LBID :=
                  addByInsertionSort_none outcome
                refine ⟨ascending, fun lbid => ⟨.inr, ?_⟩⟩
                rintro (rfl | member)
                · exact present
                · exact member
            | some grown =>
                obtain ⟨sorted, perm⟩ := addByInsertionSort_some ascending outcome
                refine ⟨sorted, fun lbid => ?_⟩
                rw [Option.getD_some, (perm.map LBMD.LBID).mem_iff, List.map_cons, List.mem_cons]
          obtain ⟨sorted, members, kept⟩ :=
            inductionHypothesis (malloc grants .lbmd memory).2 inserted.1
          have first : grantedSegments grants (memory.attempts .lbmd) (segment :: rest) =
              segment :: grantedSegments grants (memory.attempts .lbmd + 1) rest := by
            simp [grantedSegments, granted]
          rw [addSegments, added, first]
          rw [tried] at members
          refine ⟨sorted, fun lbid => ?_, fun pool different => (kept pool different).trans
            (others pool different)⟩
          rw [members, inserted.2, List.map_cons, List.mem_cons]
          tauto

theorem Ascending.eq_range' {blocks : List LBMD} (ascending : Ascending blocks) {start count : Nat}
    (members : ∀ lbid, lbid ∈ blocks.map LBMD.LBID ↔ start ≤ lbid ∧ lbid < start + count) :
    blocks.map LBMD.LBID = List.range' start count := by
  have sameMembers : (blocks.map LBMD.LBID).Perm (List.range' start count) := by
    apply (List.perm_ext_iff_of_nodup (ascending.imp Nat.ne_of_lt) List.nodup_range').mpr
    intro lbid
    rw [members, List.mem_range'_1]
  exact sameMembers.eq_of_pairwise' ascending List.pairwise_lt_range'

theorem generateAllLogicalBlocks_spec (kreq : KRequest) (memory : Memory) :
    ((generateAllLogicalBlocks grants kreq memory).1 ≠ none ↔
        grants .lbList (memory.attempts .lbList) = true) ∧
      (∀ list, (generateAllLogicalBlocks grants kreq memory).1 = some list →
        Ascending list.blocks ∧ ∀ lbid, lbid ∈ list.lbids ↔
          lbid ∈ (grantedSegments grants (memory.attempts .lbmd) (segments kreq.bios)).map
            Segment.LBID) ∧
      (generateAllLogicalBlocks grants kreq memory).2.attempts .lbList =
        memory.attempts .lbList + 1 ∧
      ∀ pool, pool ≠ .lbList → pool ≠ .lbmd →
        (generateAllLogicalBlocks grants kreq memory).2.attempts pool = memory.attempts pool := by
  have tried := malloc_attempts_self grants .lbList memory
  have others : ∀ pool, pool ≠ .lbList →
      (malloc grants .lbList memory).2.attempts pool = memory.attempts pool :=
    fun pool => malloc_attempts_of_ne grants .lbList memory
  cases granted : grants .lbList (memory.attempts .lbList) with
  | false =>
      have failed : generateAllLogicalBlocks grants kreq memory =
          (none, (malloc grants .lbList memory).2) := by
        simp [generateAllLogicalBlocks, createLogicalBlockList, malloc, granted]
      rw [failed]
      exact ⟨by simp, by simp, tried, fun pool notList _ => others pool notList⟩
  | true =>
      have filled : generateAllLogicalBlocks grants kreq memory =
          (some ⟨memory.attempts .lbList, (addSegments grants (segments kreq.bios) []
            (malloc grants .lbList memory).2).1⟩,
          (addSegments grants (segments kreq.bios) [] (malloc grants .lbList memory).2).2) := by
        simp [generateAllLogicalBlocks, createLogicalBlockList, malloc, granted]
      obtain ⟨sorted, members, kept⟩ := addSegments_spec grants (segments kreq.bios)
        (malloc grants .lbList memory).2 Ascending.nil
      rw [filled]
      refine ⟨by simp, ?_, (kept .lbList (by decide)).trans tried, fun pool notList notLbmd =>
        (kept pool notLbmd).trans (others pool notList)⟩
      intro list equality
      cases equality
      refine ⟨sorted, fun lbid => ?_⟩
      rw [LBList.lbids, members, others _ (by decide)]
      simp

end Segments

section SetUp

variable (grants : Grants) (alf : Nat → BitVec 64)

def pieces (kreq : KRequest) : List (Run Bool) :=
  if kreq.isWrite then scannedRuns alf kreq.sLBID kreq.nrLBIDs
  else [⟨false, kreq.sLBID, kreq.nrLBIDs⟩]

/-- What setting up a request takes: the IO request and its list, one block list, one node and one
DIO for every piece, LBMDs for segments that make up exactly the blocks of the request, and for a
write an exact operation test where a piece starts. -/
structure SetUpGranted (kreq : KRequest) : Prop where
  ioRequest : grants .ioRequest 0 = true
  dList : grants .dList 0 = true
  lists : ∀ i < (pieces alf kreq).length, grants .lbList i = true
  nodes : ∀ i < (pieces alf kreq).length, grants .dln i = true
  dios : ∀ i < (pieces alf kreq).length, grants .dio i = true
  blocks : ∀ lbid, lbid ∈ (grantedSegments grants 0 (segments kreq.bios)).map Segment.LBID ↔
    kreq.sLBID ≤ lbid ∧ lbid < kreq.sLBID + kreq.nrLBIDs
  tests : kreq.isWrite = true → ∀ run ∈ pieces alf kreq, TestExact alf run.start

/-- The DIOs of an IO request cover a kernel request: their ranges follow one another through it
and every DIO lists the blocks of its range. -/
structure Covers (kreq : KRequest) (ior : IORequest) : Prop where
  ranges : ior.dios.flatMap DMSIO.range = List.range' kreq.sLBID kreq.nrLBIDs
  blocks : ∀ dio ∈ ior.dios, dio.lbids = dio.range

theorem Covers.lbids {kreq : KRequest} {ior : IORequest} (covers : Covers kreq ior) :
    ior.dios.flatMap DMSIO.lbids = List.range' kreq.sLBID kreq.nrLBIDs := by
  rw [← covers.ranges]
  exact List.flatMap_congr covers.blocks

structure Started (kreq : KRequest) (ior : IORequest) (lbList : Option LBList)
    (memory : Memory) : Prop where
  dios : ior.dios = []
  attached : ior.diolist ≠ none ↔ grants .dList 0 = true
  held : lbList ≠ none ↔ grants .lbList 0 = true
  blocks : ∀ list, lbList = some list → Ascending list.blocks ∧
    ∀ lbid, lbid ∈ list.lbids ↔
      lbid ∈ (grantedSegments grants 0 (segments kreq.bios)).map Segment.LBID
  lists : memory.attempts .lbList = 1
  nodes : memory.attempts .dln = 0
  tries : memory.attempts .dio = 0

variable {grants alf}

theorem makeDIORequst_started (kreq : KRequest) (granted : grants .ioRequest 0 = true) :
    ∃ ior lbList memory, Started grants kreq ior lbList memory ∧
      ∀ fuel, makeDIORequst grants alf fuel kreq .fresh =
        match splitLoop grants alf fuel
            ⟨kreq.sLBID, kreq.nrLBIDs, kreq.op, lbList, ior, memory⟩ with
        | .error fault => .error fault
        | .ok (.next split) => .ok (some split.ior, kreq, split.memory)
        | .ok (.failed split) => .ok (none,
            (dmsEndRequestHandler kreq kreq.nrSectors 0).1,
            releaseLogicalBlockList split.lbList (releaseIORequest split.ior split.memory)) := by
  have notIor : ∀ pool, pool ≠ .ioRequest →
      (malloc grants .ioRequest .fresh).2.attempts pool = 0 :=
    fun pool => malloc_attempts_of_ne grants .ioRequest .fresh
  generalize first : (malloc grants .ioRequest .fresh).2 = afterIor at notIor
  have notDList : ∀ pool, pool ≠ .ioRequest → pool ≠ .dList →
      (createDList grants afterIor).2.attempts pool = 0 := fun pool notRequest different =>
    (malloc_attempts_of_ne grants .dList afterIor different).trans (notIor pool notRequest)
  have list : (createDList grants afterIor).1 ≠ none ↔ grants .dList 0 = true := by
    simp [createDList, malloc, notIor .dList (by decide)]
  have empty : ∀ made, (createDList grants afterIor).1 = some made → made.nodes = [] := by
    intro made equality
    obtain ⟨_, _, rfl⟩ := Option.map_eq_some_iff.mp equality
    rfl
  obtain ⟨held, blocks, tried, kept⟩ :=
    generateAllLogicalBlocks_spec grants kreq (createDList grants afterIor).2
  rw [notDList _ (by decide) (by decide)] at held tried
  rw [notDList _ (by decide) (by decide)] at blocks
  refine ⟨⟨0, (createDList grants afterIor).1, 1, 0⟩,
    (generateAllLogicalBlocks grants kreq (createDList grants afterIor).2).1,
    (generateAllLogicalBlocks grants kreq (createDList grants afterIor).2).2, ?_, ?_⟩
  · refine ⟨?_, list, held, blocks, tried, ?_, ?_⟩
    · cases made : (createDList grants afterIor).1 with
      | none => rfl
      | some dList => simp [IORequest.dios, empty dList made]
    · rw [kept _ (by decide) (by decide), notDList _ (by decide) (by decide)]
    · rw [kept _ (by decide) (by decide), notDList _ (by decide) (by decide)]
  · intro fuel
    have created : createIORequest grants .fresh =
        (some ⟨0, (createDList grants afterIor).1, 1, 0⟩, (createDList grants afterIor).2) := by
      rw [← first]
      simp [createIORequest, malloc, granted, Memory.fresh]
    simp only [makeDIORequst, created, bind, Except.bind]
    generalize splitLoop grants alf fuel _ = ended
    cases ended with
    | error fault => rfl
    | ok progress => cases progress <;> rfl

theorem makeDIORequst_refused (kreq : KRequest) (refused : grants .ioRequest 0 = false)
    (fuel : Nat) :
    ∃ memory, makeDIORequst grants alf fuel kreq .fresh = .ok (none, kreq, memory) := by
  refine ⟨(malloc grants .ioRequest .fresh).2, ?_⟩
  simp [makeDIORequst, createIORequest, malloc, Memory.fresh, refused]

/-- The DIOs that serve the runs of a tiled range cover it. -/
theorem serves_ranges {list : List (Run Bool)} {dios : List DMSIO}
    (serves : List.Forall₂ DMSIO.Serves list dios) :
    dios.flatMap DMSIO.range = list.flatMap Run.positions ∧
      ∀ dio ∈ dios, dio.lbids = dio.range := by
  induction serves with
  | nil => simp
  | @cons run dio rest dios serve _ inductionHypothesis =>
      have range : dio.range = run.positions := by
        rw [ DMSIO.range, serve.sLBID, serve.nrLBIDs, Run.positions]
      refine ⟨by simp [range, inductionHypothesis.1], ?_⟩
      intro other member
      rcases List.mem_cons.mp member with rfl | inRest
      · rw [serve.lbids, range]
      · exact inductionHypothesis.2 other inRest

theorem Started.lbids {kreq : KRequest} {ior : IORequest} {lbList : Option LBList}
    {memory : Memory} (started : Started grants kreq ior lbList memory)
    (granted : SetUpGranted grants alf kreq) (nonempty : pieces alf kreq ≠ []) :
    ∃ list, lbList = some list ∧ list.lbids = List.range' kreq.sLBID kreq.nrLBIDs := by
  have first := granted.lists 0 (List.length_pos_of_ne_nil nonempty)
  obtain ⟨list, held⟩ := Option.ne_none_iff_exists'.mp (started.held.mpr first)
  obtain ⟨ascending, members⟩ := started.blocks list held
  exact ⟨list, held, ascending.eq_range' fun lbid => (members lbid).trans (granted.blocks lbid)⟩

/-- A write with everything granted is split into one DIO for every run. -/
theorem makeDIORequst_write {kreq : KRequest} (isWrite : kreq.isWrite = true)
    (granted : SetUpGranted grants alf kreq) :
    ∃ fuel ior memory, makeDIORequst grants alf fuel kreq .fresh = .ok (some ior, kreq, memory) ∧
      List.Forall₂ DMSIO.Serves (scannedRuns alf kreq.sLBID kreq.nrLBIDs) ior.dios := by
  obtain ⟨ior, lbList, memory, started, unfolds⟩ := @makeDIORequst_started grants alf kreq
    granted.ioRequest
  have same : pieces alf kreq = scannedRuns alf kreq.sLBID kreq.nrLBIDs := by
    rw [pieces, if_pos isWrite]
  let split : Split := ⟨kreq.sLBID, kreq.nrLBIDs, kreq.op, lbList, ior, memory⟩
  have ready : Ready split := by
    refine ⟨by simp [split, KRequest.op, isWrite], started.attached.mpr granted.dList, ?_⟩
    intro more
    apply started.lbids granted
    rw [same, ne_eq, scannedRuns_eq_nil_iff]
    exact more
  have runs : RunsGranted grants alf memory.attempts
      (scannedRuns alf kreq.sLBID kreq.nrLBIDs) := by
    refine ⟨fun run member => granted.tests isWrite run (same ▸ member), ?_, ?_, ?_⟩
    · intro i bound
      rw [started.lists, Nat.add_comm]
      exact granted.lists (i + 1) (same ▸ bound)
    · intro i bound
      rw [started.nodes, Nat.zero_add]
      exact granted.nodes i (same ▸ bound)
    · intro i bound
      rw [started.tries, Nat.zero_add]
      exact granted.dios i (same ▸ bound)
  obtain ⟨fuel, split', made, run, made_dios, serves⟩ := splitLoop_of_granted ready runs
  refine ⟨fuel, split'.ior, split'.memory, ?_, ?_⟩
  · rw [unfolds, run]
  · rw [made_dios, show split.ior.dios = [] from started.dios, List.nil_append]
    exact serves

/-- A read with everything granted gets one DIO. -/
theorem makeDIORequst_read {kreq : KRequest} (isRead : kreq.isWrite = false)
    (nonempty : kreq.nrLBIDs ≠ 0) (granted : SetUpGranted grants alf kreq) :
    ∃ fuel ior memory, makeDIORequst grants alf fuel kreq .fresh = .ok (some ior, kreq, memory) ∧
      Covers kreq ior := by
  obtain ⟨ior, lbList, memory, started, unfolds⟩ := @makeDIORequst_started grants alf kreq
    granted.ioRequest
  have same : pieces alf kreq = [⟨false, kreq.sLBID, kreq.nrLBIDs⟩] := by
    simp [pieces, isRead]
  obtain ⟨list, held, lbids⟩ := started.lbids granted (by simp [same])
  let split : Split := ⟨kreq.sLBID, kreq.nrLBIDs, kreq.op, lbList, ior, memory⟩
  have node : grants .dln (split.memory.attempts .dln) = true := by
    rw [show split.memory.attempts .dln = 0 from started.nodes]
    exact granted.nodes 0 (by simp [same])
  have allowed : grants .dio (split.memory.attempts .dio) = true := by
    rw [show split.memory.attempts .dio = 0 from started.tries]
    exact granted.dios 0 (by simp [same])
  obtain ⟨fuel, split', addr, run, made⟩ := @splitLoop_read_of_granted grants alf
    split (by simp [split, KRequest.op, isRead]) nonempty
    (started.attached.mpr granted.dList) node allowed
  refine ⟨fuel, split'.ior, split'.memory, ?_, ?_⟩
  · rw [unfolds, run]
  · rw [show split.ior.dios = [] from started.dios, List.nil_append] at made
    constructor
    · simp [made, DMSIO.range, split]
    · simp [made, DMSIO.range, DMSIO.lbids, split, held, lbids]

theorem makeDIORequst_some {fuel : Nat} {kreq kreq' : KRequest} {ior : IORequest}
    {memory : Memory}
    (returned : makeDIORequst grants alf fuel kreq .fresh = .ok (some ior, kreq', memory)) :
    grants .ioRequest 0 = true ∧ ∃ start lbList first split',
      Started grants kreq start lbList first ∧ split'.ior = ior ∧
        splitLoop grants alf fuel ⟨kreq.sLBID, kreq.nrLBIDs, kreq.op, lbList, start, first⟩ =
          .ok (.next split') := by
  cases granted : grants .ioRequest 0 with
  | false =>
      obtain ⟨_, refused⟩ := @makeDIORequst_refused grants alf kreq granted fuel
      simp [refused] at returned
  | true =>
      obtain ⟨start, lbList, first, started, unfolds⟩ :=
        @makeDIORequst_started grants alf kreq granted
      refine ⟨rfl, start, lbList, first, ?_⟩
      rw [unfolds] at returned
      cases ended : splitLoop grants alf fuel
          ⟨kreq.sLBID, kreq.nrLBIDs, kreq.op, lbList, start, first⟩ with
      | error fault => simp [ended] at returned
      | ok progress =>
          cases progress with
          | failed split => simp [ended] at returned
          | next split' =>
              simp only [ended, Except.ok.injEq, Prod.mk.injEq, Option.some.injEq] at returned
              exact ⟨split', started, returned.1, rfl⟩

/-- An IO request that covers the kernel request shows that everything was granted. -/
theorem setUpGranted_of_covers {fuel : Nat} {kreq kreq' : KRequest} {ior : IORequest}
    {memory : Memory} (nonempty : kreq.nrLBIDs ≠ 0)
    (returned : makeDIORequst grants alf fuel kreq .fresh = .ok (some ior, kreq', memory))
    (covers : Covers kreq ior) : SetUpGranted grants alf kreq := by
  obtain ⟨ioRequest, start, lbList, first, split', started, rfl, ended⟩ :=
    makeDIORequst_some returned
  have dList : grants .dList 0 = true := by
    by_contra refused
    have detached : start.diolist = none := not_not.mp fun attached =>
      refused (started.attached.mp attached)
    have still := splitLoop_detached detached ended
    have lbids := covers.lbids
    simp [IORequest.dios, still, nonempty] at lbids
  have attached := started.attached.mpr dList
  have blocks : ∀ list, lbList = some list →
      split'.ior.dios.flatMap DMSIO.lbids = list.lbids →
      grants .lbList 0 = true ∧
        ∀ lbid, lbid ∈ (grantedSegments grants 0 (segments kreq.bios)).map Segment.LBID ↔
          kreq.sLBID ≤ lbid ∧ lbid < kreq.sLBID + kreq.nrLBIDs := by
    intro list held content
    refine ⟨started.held.mp (by simp [held]), fun lbid => ?_⟩
    rw [← (started.blocks list held).2, ← content, covers.lbids, List.mem_range'_1]
  cases isWrite : kreq.isWrite with
  | true =>
      have same : pieces alf kreq = scannedRuns alf kreq.sLBID kreq.nrLBIDs := by
        rw [pieces, if_pos isWrite]
      obtain ⟨granted, content⟩ := granted_of_splitLoop
        (by simp [KRequest.op, isWrite]) attached ended
      obtain ⟨list, held, whole⟩ := content nonempty
      obtain ⟨firstList, exactBlocks⟩ :=
        blocks list held (by simpa [started.dios] using whole)
      refine ⟨ioRequest, dList, ?_, ?_, ?_, exactBlocks, fun _ run member =>
        granted.tests run (same ▸ member)⟩
      · rw [same]
        intro i bound
        cases i with
        | zero => exact firstList
        | succ i =>
            have later := granted.lists i bound
            rwa [started.lists, Nat.add_comm] at later
      · rw [same]
        intro i bound
        have node := granted.nodes i bound
        rwa [started.nodes, Nat.zero_add] at node
      · rw [same]
        intro i bound
        have dio := granted.dios i bound
        rwa [started.tries, Nat.zero_add] at dio
  | false =>
      have same : pieces alf kreq = [⟨false, kreq.sLBID, kreq.nrLBIDs⟩] := by
        simp [pieces, isWrite]
      obtain ⟨node, allowed, addr, made⟩ := granted_of_splitLoop_read
        (by simp [KRequest.op, isWrite]) nonempty attached ended
      rw [started.nodes] at node
      rw [started.tries] at allowed
      rw [started.dios, List.nil_append] at made
      have held : ∃ list, lbList = some list := by
        apply Option.ne_none_iff_exists'.mp
        rintro rfl
        have lbids := covers.lbids
        simp [made, DMSIO.lbids, nonempty] at lbids
      obtain ⟨list, rfl⟩ := held
      obtain ⟨firstList, exactBlocks⟩ :=
        blocks list rfl (by simp [made, DMSIO.lbids])
      refine ⟨ioRequest, dList, ?_, ?_, by simpa [same] using allowed, exactBlocks,
        fun isTrue => absurd isTrue (by simp [isWrite])⟩
      · simpa [same] using firstList
      · simpa [same] using node

end SetUp

end DmsBlkdev
