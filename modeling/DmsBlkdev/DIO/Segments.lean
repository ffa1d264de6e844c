import DmsBlkdev.DIO.SplitExact
import Mathlib.Algebra.Order.Ring.Nat

/-!
# Blocks and the segments that hold them

A bio as it is submitted begins at a sector and lists its segments by their
lengths; the segments carry the bytes of the device from that sector on.  The
list that is generated for a request names for each block its bio and the place
of the segment in the bio.
-/

namespace DmsBlkdev

/-- A bio with the lengths `bv_len` of its segments. -/
structure BioLayout where
  sector : Nat
  segments : List Nat
  deriving DecidableEq, Repr

namespace BioLayout

/-- What `Generate_All_LogicalBlocks` reads of a bio. -/
def toBio (bio : BioLayout) : Bio := ⟨bio.sector, bio.segments.length⟩

def carried (bio : BioLayout) (vecIdx : Nat) : Option (Nat × Nat) :=
  (bio.segments[vecIdx]?).map fun length =>
    (512 * bio.sector + (bio.segments.take vecIdx).sum, length)

/-- Every bio begins where the one before it ends. -/
def Contiguous : Nat → List BioLayout → Prop
  | _, [] => True
  | sector, bio :: rest =>
      bio.sector = sector ∧ Contiguous (sector + bio.segments.sum / 512) rest

/-- Block aligned, with segments of a whole block each. -/
structure Full (bio : BioLayout) : Prop where
  aligned : 8 ∣ bio.sector
  whole : ∀ length ∈ bio.segments, length = 4096

end BioLayout

def carriedBytes (layout : List BioLayout) (bio vecIdx : Nat) : Option (Nat × Nat) :=
  (layout[bio]?).bind (·.carried vecIdx)

/-- The bios of the request lie one behind the other and make up its sectors, in whole blocks with
numbers below `2 ^ 52`. -/
structure KRequest.LaidOut (kreq : KRequest) (layout : List BioLayout) : Prop where
  bios : kreq.bios = layout.map BioLayout.toBio
  contiguous : BioLayout.Contiguous kreq.sector layout
  full : ∀ bio ∈ layout, bio.Full
  sector : 8 ∣ kreq.sector
  size : 512 * kreq.nrSectors = (layout.map fun bio => bio.segments.sum).sum
  small : kreq.sector + kreq.nrSectors ≤ 8 * 2 ^ 52

section Carried

namespace BioLayout

variable {bio : BioLayout}

theorem Full.sum (full : bio.Full) (vecIdx : Nat) :
    (bio.segments.take vecIdx).sum = 4096 * (bio.segments.take vecIdx).length := by
  have replicated := List.eq_replicate_of_mem fun length member =>
    full.whole length (List.mem_of_mem_take (i := vecIdx) member)
  conv_lhs => rw [replicated]
  rw [List.sum_replicate_nat, Nat.mul_comm]

theorem Full.carried (full : bio.Full) {vecIdx : Nat} (inside : vecIdx < bio.segments.length) :
    bio.carried vecIdx = some (4096 * (bio.sector / 8 + vecIdx), 4096) := by
  obtain ⟨block, aligned⟩ := full.aligned
  have length := full.whole _ (List.getElem_mem inside)
  rw [BioLayout.carried, List.getElem?_eq_getElem inside, Option.map_some, length, full.sum,
    List.length_take_of_le (Nat.le_of_lt inside), aligned, Nat.mul_div_cancel_left _ (by decide)]
  congr 2
  omega

theorem Full.sectors (full : bio.Full) : bio.segments.sum / 512 = 8 * bio.segments.length := by
  have sum := full.sum bio.segments.length
  rw [List.take_length] at sum
  omega

def blockCount (layout : List BioLayout) : Nat := (layout.map fun bio => bio.segments.length).sum

theorem blockCount_cons (first : BioLayout) (rest : List BioLayout) :
    blockCount (first :: rest) = first.segments.length + blockCount rest := by
  rw [blockCount, List.map_cons, List.sum_cons]
  rfl

theorem Contiguous.within {layout : List BioLayout} {block : Nat}
    (contiguous : Contiguous (8 * block) layout) (full : ∀ bio ∈ layout, bio.Full) :
    ∀ bio ∈ layout, ∃ first, bio.sector = 8 * first ∧ block ≤ first ∧
      first + bio.segments.length ≤ block + blockCount layout := by
  induction layout generalizing block with
  | nil => exact fun _ member => absurd member List.not_mem_nil
  | cons first rest inductionHypothesis =>
      obtain ⟨here, behind⟩ := contiguous
      obtain ⟨fullFirst, fullRest⟩ := List.forall_mem_cons.mp full
      rw [fullFirst.sectors, ← Nat.mul_add] at behind
      rw [blockCount_cons]
      intro bio member
      rcases List.mem_cons.mp member with rfl | inRest
      · exact ⟨block, here, Nat.le_refl _, by omega⟩
      · obtain ⟨start, sector, lower, upper⟩ := inductionHypothesis behind fullRest bio inRest
        exact ⟨start, sector, by omega, by omega⟩

theorem Contiguous.blocks {layout : List BioLayout} {block : Nat}
    (contiguous : Contiguous (8 * block) layout) (full : ∀ bio ∈ layout, bio.Full) :
    (layout.map toBio).flatMap Bio.blocks = List.range' block (blockCount layout) := by
  induction layout generalizing block with
  | nil => rfl
  | cons first rest inductionHypothesis =>
      obtain ⟨here, behind⟩ := contiguous
      obtain ⟨fullFirst, fullRest⟩ := List.forall_mem_cons.mp full
      rw [fullFirst.sectors, ← Nat.mul_add] at behind
      have own : first.toBio.blocks = List.range' block first.segments.length := by
        rw [Bio.blocks, toBio, here, Nat.mul_div_cancel_left _ (by decide)]
      rw [List.map_cons, List.flatMap_cons, inductionHypothesis behind fullRest, own,
        blockCount_cons, List.range'_append_1]

end BioLayout

end Carried

section Bound

variable {grants : Grants}

theorem addByInsertionSort_perm {blocks inserted : List LBMD} {lbmd : LBMD}
    (done : addToLogicalBlockListByInsertionSort blocks lbmd = some inserted) :
    inserted.Perm (lbmd :: blocks) := by
  obtain ⟨reversed, walked, rfl⟩ := Option.map_eq_some_iff.mp done
  have perm := insertFromTail_perm walked
  exact (List.reverse_perm _).trans (perm.trans ((List.reverse_perm _).cons _))

/-- A block that was not on the list before is that of a segment. -/
theorem addSegments_from (list : List Segment) (blocks : List LBMD) (memory : Memory) :
    ∀ lbmd ∈ (addSegments grants list blocks memory).1,
      lbmd ∈ blocks ∨ ⟨lbmd.LBID, lbmd.bio, lbmd.vecIdx⟩ ∈ list := by
  induction list generalizing blocks memory with
  | nil => exact fun _ member => .inl member
  | cons segment rest inductionHypothesis =>
      intro lbmd member
      rw [addSegments] at member
      rcases inductionHypothesis _ _ lbmd member with added | inRest
      · cases granted : grants .lbmd (memory.attempts .lbmd) with
        | false =>
            rw [addSegment, malloc, granted] at added
            exact .inl added
        | true =>
            rw [addSegment, malloc, granted] at added
            cases outcome : addToLogicalBlockListByInsertionSort blocks
                ⟨memory.attempts .lbmd, segment.LBID, segment.bio, segment.vecIdx⟩ with
            | none => exact .inl (by simpa [outcome] using added)
            | some inserted =>
                have among : lbmd ∈ inserted := by simpa [outcome] using added
                rcases List.mem_cons.mp ((addByInsertionSort_perm outcome).mem_iff.mp among) with
                  rfl | before
                · exact .inr List.mem_cons_self
                · exact .inl before
      · exact .inr (List.mem_cons_of_mem _ inRest)

theorem generateAllLogicalBlocks_from {kreq : KRequest} {memory : Memory} {list : LBList}
    (made : (generateAllLogicalBlocks grants kreq memory).1 = some list) :
    ∀ lbmd ∈ list.blocks, ⟨lbmd.LBID, lbmd.bio, lbmd.vecIdx⟩ ∈ segments kreq.bios := by
  intro lbmd member
  cases granted : grants .lbList (memory.attempts .lbList) with
  | false => simp [generateAllLogicalBlocks, createLogicalBlockList, malloc, granted] at made
  | true =>
      simp only [generateAllLogicalBlocks, createLogicalBlockList, malloc, granted, if_true,
        Option.map_some, Option.some.injEq] at made
      subst made
      exact (addSegments_from _ _ _ lbmd member).resolve_left List.not_mem_nil

namespace KRequest.LaidOut

variable {kreq : KRequest} {layout : List BioLayout}

theorem blockCount_eq (laid : kreq.LaidOut layout) :
    kreq.nrSectors = 8 * BioLayout.blockCount layout := by
  have sums : ∀ bios : List BioLayout, (∀ bio ∈ bios, bio.Full) →
      (bios.map fun bio => bio.segments.sum).sum = 4096 * BioLayout.blockCount bios := by
    intro bios full
    induction bios with
    | nil => rfl
    | cons first rest inductionHypothesis =>
        obtain ⟨fullFirst, fullRest⟩ := List.forall_mem_cons.mp full
        have sum := fullFirst.sum first.segments.length
        rw [List.take_length] at sum
        rw [List.map_cons, List.sum_cons, inductionHypothesis fullRest, sum,
          BioLayout.blockCount_cons, Nat.mul_add]
  have size := laid.size
  rw [sums layout laid.full] at size
  omega

theorem exists_block (laid : kreq.LaidOut layout) : ∃ block, kreq.sector = 8 * block ∧
    block + BioLayout.blockCount layout ≤ 2 ^ 52 := by
  obtain ⟨block, sector⟩ := laid.sector
  have small := laid.small
  have size := laid.blockCount_eq
  exact ⟨block, sector, by omega⟩

end KRequest.LaidOut

/-- The segment of a block carries the bytes of that block. -/
theorem segment_carried {kreq : KRequest} {layout : List BioLayout} (laid : kreq.LaidOut layout)
    {segment : Segment} (member : segment ∈ segments kreq.bios) :
    carriedBytes layout segment.bio segment.vecIdx = some (4096 * segment.LBID, 4096) := by
  obtain ⟨block, sector, small⟩ := laid.exists_block
  rw [laid.bios] at member
  obtain ⟨⟨bio, index⟩, among, inBio⟩ := List.mem_flatMap.mp member
  obtain ⟨j, inside, rfl⟩ := List.mem_map.mp inBio
  have found := List.mem_zipIdx_iff_getElem?.mp among
  rw [List.getElem?_map] at found
  obtain ⟨source, here, rfl⟩ := Option.map_eq_some_iff.mp found
  have onLayout : source ∈ layout := List.mem_of_getElem? here
  obtain ⟨first, start, -, within⟩ :=
    BioLayout.Contiguous.within (sector ▸ laid.contiguous) laid.full source onLayout
  have less : j < source.segments.length := List.mem_range.mp inside
  have lbid : (ksectorsToLBID source.toBio.sector + j) % 2 ^ 64 = source.sector / 8 + j := by
    rw [BioLayout.toBio, start, ksectorsToLBID_mul (by omega)]
    omega
  rw [lbid, carriedBytes, here, Option.bind_some, (laid.full source onLayout).carried less]

/-- When memory is granted, the list names exactly the blocks of the request, in order, and each
with the segment that carries its bytes. -/
theorem generateAllLogicalBlocks_bound {kreq : KRequest} {layout : List BioLayout}
    (laid : kreq.LaidOut layout) (memory : Memory)
    (granted : grants .lbList (memory.attempts .lbList) = true)
    (all : ∀ attempt, grants .lbmd attempt = true) :
    ∃ list, (generateAllLogicalBlocks grants kreq memory).1 = some list ∧
      list.lbids = List.range' (kreq.sector / 8) (kreq.nrSectors / 8) ∧
      ∀ lbmd ∈ list.blocks,
        carriedBytes layout lbmd.bio lbmd.vecIdx = some (4096 * lbmd.LBID, 4096) := by
  obtain ⟨block, sector, small⟩ := laid.exists_block
  have blocks : kreq.bios.flatMap Bio.blocks = List.range' block (BioLayout.blockCount layout) := by
    rw [laid.bios]
    exact BioLayout.Contiguous.blocks (sector ▸ laid.contiguous) laid.full
  have aligned : ∀ bio ∈ kreq.bios, 8 ∣ bio.sector := by
    intro bio member
    rw [laid.bios] at member
    obtain ⟨source, onLayout, rfl⟩ := List.mem_map.mp member
    exact (laid.full source onLayout).aligned
  have bounded : ∀ lbid ∈ kreq.bios.flatMap Bio.blocks, lbid < 2 ^ 52 := by
    intro lbid member
    rw [blocks, List.mem_range'_1] at member
    omega
  have first : kreq.sector / 8 = block := by omega
  have count : kreq.nrSectors / 8 = BioLayout.blockCount layout := by
    rw [laid.blockCount_eq, Nat.mul_div_cancel_left _ (by decide)]
  obtain ⟨held, ascending, -⟩ := generateAllLogicalBlocks_spec grants kreq memory
  obtain ⟨list, made⟩ := Option.ne_none_iff_exists'.mp (held.mpr granted)
  obtain ⟨sorted, members⟩ := ascending list made
  refine ⟨list, made, ?_, fun lbmd member => ?_⟩
  · rw [first, count]
    refine sorted.eq_range' fun lbid => ?_
    rw [← LBList.lbids, members, grantedSegments_all all, segments_lbids aligned bounded, blocks,
      List.mem_range'_1]
  · exact segment_carried laid (generateAllLogicalBlocks_from made lbmd member)

def twoBios : List BioLayout := [⟨80, [4096, 4096]⟩, ⟨96, [4096]⟩]

def twoBiosRequest : KRequest :=
  ⟨80, 24, true, twoBios.map BioLayout.toBio, none, []⟩

theorem twoBiosRequest_laidOut : twoBiosRequest.LaidOut twoBios where
  bios := rfl
  contiguous := ⟨rfl, rfl, trivial⟩
  full := by
    intro bio member
    rcases List.mem_pair.mp member with rfl | rfl
    · exact ⟨by decide, by decide⟩
    · exact ⟨by decide, by decide⟩
  sector := by decide
  size := by decide
  small := by decide

theorem generateAllLogicalBlocks_bound_example :
    ∃ list, (generateAllLogicalBlocks (fun _ _ => true) twoBiosRequest .fresh).1 = some list ∧
      list.lbids = List.range' (twoBiosRequest.sector / 8) (twoBiosRequest.nrSectors / 8) ∧
      ∀ lbmd ∈ list.blocks,
        carriedBytes twoBios lbmd.bio lbmd.vecIdx = some (4096 * lbmd.LBID, 4096) :=
  generateAllLogicalBlocks_bound twoBiosRequest_laidOut .fresh rfl fun _ => rfl

end Bound

end DmsBlkdev
