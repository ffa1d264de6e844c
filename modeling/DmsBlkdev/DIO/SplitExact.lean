import DmsBlkdev.DIO.SetUp

/-!
# A write is cut at the allocation flags

With every allocation granted, the DIOs of a block-aligned write are the
maximal runs of one allocation flag, provided the operation test is right at
the first block of each run.  The test shifts a 32-bit one, so from position
31 of a chunk on it may read another flag; then the range is empty and the
request fails.
-/

namespace DmsBlkdev

open Lib.RunLength

def Bio.blocks (bio : Bio) : List Nat := List.range' (bio.sector / 8) bio.vcnt

/-- A block-aligned write of `[s, s + n)` with one full segment for every block. -/
structure AlignedWrite (kreq : KRequest) (s n : Nat) : Prop where
  isWrite : kreq.isWrite = true
  sector : kreq.sector = 8 * s
  nrSectors : kreq.nrSectors = 8 * n
  aligned : ∀ bio ∈ kreq.bios, 8 ∣ bio.sector
  blocks : (kreq.bios.flatMap Bio.blocks).Perm (List.range' s n)

/-- The maximal-run decomposition of `[s, s + n)` under an allocation map. -/
structure SplitsExactly (flag : Nat → Bool) (s n : Nat) (dios : List DMSIO) : Prop where
  nonempty : ∀ dio ∈ dios, 0 < dio.nrLBIDs
  tiles : dios.flatMap DMSIO.range = List.range' s n
  overwrite : ∀ dio ∈ dios, dio.op = .overwrite ↔ ∀ lbid ∈ dio.range, flag lbid = true
  write : ∀ dio ∈ dios, dio.op = .write ↔ ∀ lbid ∈ dio.range, flag lbid = false
  alternate : dios.IsChain fun first second => first.op ≠ second.op
  blocks : ∀ dio ∈ dios, dio.lbids = dio.range

section Segments

theorem grantedSegments_all {grants : Grants} (all : ∀ attempt, grants .lbmd attempt = true)
    (first : Nat) (list : List Segment) : grantedSegments grants first list = list := by
  rw [grantedSegments, List.filter_eq_self.mpr fun entry _ => all entry.2]
  exact List.zipIdx_map_fst ..

theorem segments_lbids {bios : List Bio} (aligned : ∀ bio ∈ bios, 8 ∣ bio.sector)
    (bound : ∀ lbid ∈ bios.flatMap Bio.blocks, lbid < 2 ^ 52) :
    (segments bios).map Segment.LBID = bios.flatMap Bio.blocks := by
  have each : ∀ bio ∈ bios, ∀ index : Nat,
      ((List.range bio.vcnt).map fun j =>
        (⟨(ksectorsToLBID bio.sector + j) % 2 ^ 64, index, j⟩ : Segment)).map Segment.LBID =
          bio.blocks := by
    intro bio member index
    obtain ⟨block, sector⟩ := aligned bio member
    have first : bio.sector / 8 = block := by omega
    rw [List.map_map, Bio.blocks, List.range'_eq_map_range, first]
    apply List.map_congr_left
    intro j inside
    have carried : block + j ∈ bio.blocks := by
      rw [Bio.blocks, first, List.mem_range'_1]
      exact ⟨Nat.le_add_right _ _, Nat.add_lt_add_left (List.mem_range.mp inside) _⟩
    have small := bound _ (List.mem_flatMap.mpr ⟨bio, member, carried⟩)
    have start : ksectorsToLBID bio.sector = block := by
      rw [sector]
      exact ksectorsToLBID_mul (by omega)
    simp only [Function.comp, start]
    exact Nat.mod_eq_of_lt (by omega)
  rw [segments, List.map_flatMap]
  calc bios.zipIdx.flatMap _ = bios.zipIdx.flatMap fun entry => entry.1.blocks :=
        List.flatMap_congr fun entry member =>
          each entry.1 (List.fst_mem_of_mem_zipIdx member) entry.2
    _ = (bios.zipIdx.map Prod.fst).flatMap Bio.blocks := by rw [List.flatMap_map]
    _ = bios.flatMap Bio.blocks := by rw [List.zipIdx_map_fst]

end Segments

section Exact

variable (flag : Nat → Bool)

def DMSIO.run (dio : DMSIO) : Run Bool := ⟨decide (dio.op = .overwrite), dio.sLBID, dio.nrLBIDs⟩

theorem DMSIO.Serves.run_eq {run : Run Bool} {dio : DMSIO} (serve : DMSIO.Serves run dio) :
    dio.run = run := by
  obtain ⟨label, start, length⟩ := run
  obtain ⟨op, sLBID, nrLBIDs, _⟩ := serve
  simp only [ DMSIO.run, op, sLBID, nrLBIDs]
  cases label <;> rfl

theorem serves_map {list : List (Run Bool)} {dios : List DMSIO}
    (serves : List.Forall₂ DMSIO.Serves list dios) :
    dios.map DMSIO.run = list ∧ ∀ dio ∈ dios, dio.op = DMSOp.ofFlag dio.run.label := by
  induction serves with
  | nil => simp
  | @cons run dio rest dios serve _ inductionHypothesis =>
      refine ⟨by rw [List.map_cons, serve.run_eq, inductionHypothesis.1], ?_⟩
      intro other member
      rcases List.mem_cons.mp member with rfl | inRest
      · rw [serve.run_eq, serve.op]
      · exact inductionHypothesis.2 other inRest

/-- DIOs that serve the maximal runs split the range exactly. -/
theorem splitsExactly_of_serves {s n : Nat} {dios : List DMSIO}
    (serves : List.Forall₂ DMSIO.Serves (runs flag s n) dios) : SplitsExactly flag s n dios := by
  have maximal := runs_isMaximal flag s n
  obtain ⟨ranges, blocks⟩ := serves_ranges serves
  obtain ⟨served, ops⟩ := serves_map serves
  rw [← served] at maximal
  have flags : ∀ dio ∈ dios, ∀ lbid ∈ dio.range, flag lbid = dio.run.label := by
    intro dio member lbid inside
    rw [ DMSIO.range, List.mem_range'_1] at inside
    exact maximal.uniform _ (List.mem_map_of_mem member) lbid inside.1 inside.2
  have positive : ∀ dio ∈ dios, 0 < dio.nrLBIDs := fun dio member =>
    (maximal.tiles.bounds _ (List.mem_map_of_mem member)).2.1
  have opOfFlag : ∀ dio ∈ dios, ∀ value,
      dio.op = DMSOp.ofFlag value ↔ ∀ lbid ∈ dio.range, flag lbid = value := by
    intro dio member value
    rw [ops dio member, DMSOp.ofFlag_injective.eq_iff]
    constructor
    · rintro equality lbid inside
      exact (flags dio member lbid inside).trans equality
    · intro all
      have first : dio.sLBID ∈ dio.range := by
        rw [ DMSIO.range, List.mem_range'_1]
        exact ⟨Nat.le_refl _, Nat.lt_add_of_pos_right (positive dio member)⟩
      exact (flags dio member _ first).symm.trans (all _ first)
  refine ⟨positive, ?_, fun dio member => opOfFlag dio member true,
    fun dio member => opOfFlag dio member false, ?_, blocks⟩
  · rw [ranges, ← served, maximal.tiles.positions, Nat.add_sub_cancel_left]
  · have alternating := List.isChain_map .. |>.mp maximal.alternating
    refine alternating.imp_of_mem_imp ?_
    intro first second firstMember secondMember different same
    apply different
    rw [ops first firstMember, ops second secondMember] at same
    exact DMSOp.ofFlag_injective same

theorem SplitsExactly.covers {kreq : KRequest} {ior : IORequest}
    (exact : SplitsExactly flag kreq.sLBID kreq.nrLBIDs ior.dios) : Covers kreq ior :=
  ⟨exact.tiles, exact.blocks⟩

theorem AlignedWrite.range {kreq : KRequest} {s n : Nat} (request : AlignedWrite kreq s n)
    (bound : s + n < 2 ^ 52) : kreq.sLBID = s ∧ kreq.nrLBIDs = n := by
  rw [KRequest.sLBID, KRequest.nrLBIDs, request.sector, request.nrSectors]
  exact ⟨ksectorsToLBID_mul (by omega), ksectorsToLBID_mul (by omega)⟩

/-- With all memory granted, an exact test where a run starts is all that is left to ask. -/
theorem AlignedWrite.setUpGranted {kreq : KRequest} {s n : Nat} (request : AlignedWrite kreq s n)
    (bound : s + n < 2 ^ 52)
    (tests : ∀ run ∈ runs flag s n, TestExact (allocationChunk flag) run.start) :
    SetUpGranted (fun _ _ => true) (allocationChunk flag) kreq := by
  obtain ⟨start, count⟩ := request.range bound
  refine ⟨rfl, rfl, fun _ _ => rfl, fun _ _ => rfl, fun _ _ => rfl, ?_, ?_⟩
  · intro lbid
    have inside : ∀ lbid ∈ kreq.bios.flatMap Bio.blocks, lbid < 2 ^ 52 := by
      intro lbid member
      have range := request.blocks.mem_iff.mp member
      rw [List.mem_range'_1] at range
      omega
    rw [grantedSegments_all fun _ => rfl, segments_lbids request.aligned inside, request.blocks.mem_iff,
      List.mem_range'_1, start, count]
  · intro _ run member
    rw [pieces, if_pos request.isWrite, scannedRuns_allocationChunk, start, count] at member
    exact tests run member

/-- A write is split into the maximal runs of its allocation flags exactly when the operation test
reads the right flag at the first block of every run. -/
theorem makeDIORequst_exact_iff {s n : Nat} (nonempty : 1 ≤ n) (small : n < 2 ^ 30)
    (bound : s + n < 2 ^ 52) {kreq : KRequest} (request : AlignedWrite kreq s n) :
    (∃ fuel ior memory, makeDIORequst (fun _ _ => true) (allocationChunk flag) fuel kreq .fresh =
        .ok (some ior, kreq, memory) ∧ SplitsExactly flag s n ior.dios) ↔
      ∀ run ∈ runs flag s n, TestExact (allocationChunk flag) run.start := by
  obtain ⟨start, count⟩ := request.range bound
  constructor
  · rintro ⟨fuel, ior, memory, returned, exact⟩ run member
    rw [← start, ← count] at exact
    have granted := setUpGranted_of_covers (by omega) returned (exact.covers flag)
    apply granted.tests request.isWrite
    rwa [pieces, if_pos request.isWrite, scannedRuns_allocationChunk, start, count]
  · intro tests
    obtain ⟨fuel, ior, memory, returned, serves⟩ :=
      makeDIORequst_write request.isWrite (request.setUpGranted flag bound tests)
    rw [scannedRuns_allocationChunk, start, count] at serves
    exact ⟨fuel, ior, memory, returned, splitsExactly_of_serves flag serves⟩

end Exact

section Block31

def block31Write : KRequest := ⟨248, 8, true, [⟨248, 1⟩], none, []⟩

theorem block31Write_aligned : AlignedWrite block31Write 31 1 :=
  ⟨rfl, rfl, rfl, by simp [block31Write], .refl _⟩

theorem makeDIORequst_exact_block31Write :
    ∃ fuel ior memory, makeDIORequst (fun _ _ => true) (allocationChunk fun _ => false) fuel
        block31Write .fresh = .ok (some ior, block31Write, memory) ∧
      SplitsExactly (fun _ => false) 31 1 ior.dios := by
  apply (makeDIORequst_exact_iff (fun _ => false) (by decide) (by decide) (by decide)
    block31Write_aligned).mpr
  intro run _
  rw [testExact_allocationChunk_iff]
  simp

/-- With only the flag of block 32 set, the test at block 31 reads it through the sign bit. -/
theorem makeDIORequst_inexact_block31Write :
    AlignedWrite block31Write 31 1 ∧
      ¬ ∃ fuel ior memory, makeDIORequst (fun _ _ => true) (allocationChunk (· == 32)) fuel
          block31Write .fresh = .ok (some ior, block31Write, memory) ∧
        SplitsExactly (· == 32) 31 1 ior.dios := by
  refine ⟨block31Write_aligned, ?_⟩
  rintro ⟨fuel, ior, memory, returned, exact⟩
  have granted := setUpGranted_of_covers (by decide) returned
    (SplitsExactly.covers (· == 32) (show SplitsExactly _ block31Write.sLBID _ _ from exact))
  have first : (⟨false, 31, 1⟩ : Run Bool) ∈ pieces (allocationChunk (· == 32)) block31Write := by
    rw [pieces, if_pos (by rfl), scannedRuns_allocationChunk]
    decide
  have test := granted.tests rfl _ first
  rw [testExact_allocationChunk_iff] at test
  have clear : ((31 : Nat) == 32) = true := test.mpr ⟨32, by decide, by decide, by decide⟩
  revert clear
  decide

end Block31

end DmsBlkdev
