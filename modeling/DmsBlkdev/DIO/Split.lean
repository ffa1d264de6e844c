import DmsBlkdev.AllocationFlag
import DmsBlkdev.DIO.Basic

/-!
# Splitting a kernel request

`__Make_DIO_Requst` lists the blocks of a kernel request, cuts a write where
the allocation flags change and attaches one DIO for each piece to a new IO
request.  `grants` decides which allocations succeed and `alf` is
`Get_Allocation_Flag`; request lengths stay below `2 ^ 31` blocks, so the
`int` lengths of the source do not overflow.
-/

namespace DmsBlkdev

section Blocks

variable (grants : Grants)

/-- `Create_LogicalBlock_List`. -/
def createLogicalBlockList (memory : Memory) : Option LBList × Memory :=
  ((malloc grants .lbList memory).1.map fun addr => ⟨addr, []⟩, (malloc grants .lbList memory).2)

/-- One segment as `Generate_All_LogicalBlocks` meets it: block id, bio and vector index. -/
structure Segment where
  LBID : Nat
  bio : Nat
  vecIdx : Nat
  deriving DecidableEq, Repr

def segments (bios : List Bio) : List Segment :=
  bios.zipIdx.flatMap fun (bio, index) =>
    (List.range bio.vcnt).map fun j =>
      ⟨(ksectorsToLBID bio.sector + j) % 2 ^ 64, index, j⟩

/-- The body of the loops of `Generate_All_LogicalBlocks`: a segment without memory is skipped,
and a block that the insertion refuses is lost. -/
def addSegment (blocks : List LBMD) (segment : Segment) (memory : Memory) :
    List LBMD × Memory :=
  match malloc grants .lbmd memory with
  | (none, memory) => (blocks, memory)
  | (some addr, memory) =>
      let lbmd : LBMD := ⟨addr, segment.LBID, segment.bio, segment.vecIdx⟩
      ((addToLogicalBlockListByInsertionSort blocks lbmd).getD blocks, memory)

def addSegments : List Segment → List LBMD → Memory → List LBMD × Memory
  | [], blocks, memory => (blocks, memory)
  | segment :: rest, blocks, memory =>
      let added := addSegment grants blocks segment memory
      addSegments rest added.1 added.2

/-- `Generate_All_LogicalBlocks`. -/
def generateAllLogicalBlocks (kreq : KRequest) (memory : Memory) : Option LBList × Memory :=
  match createLogicalBlockList grants memory with
  | (none, memory) => (none, memory)
  | (some list, memory) =>
      let added := addSegments grants (segments kreq.bios) list.blocks memory
      (some { list with blocks := added.1 }, added.2)

/-- `Get_Next_DIO_Request_LB_List`: the sub list, what remains of the list, and the memory.  The
list is locked before it is checked. -/
def getNextDIORequestLBList (lbList : Option LBList) (length : Int) (memory : Memory) :
    Except Fault (Option LBList × Option LBList × Memory) :=
  match createLogicalBlockList grants memory with
  | (none, memory) => .ok (none, lbList, memory)
  | (some sub, memory) =>
      match lbList with
      | none => .error .oops
      | some list =>
          let moved := moveSubList list.blocks length
          let sub := { sub with blocks := moved.2.1 }
          let rest := { list with blocks := moved.2.2 }
          if moved.1 = length then .ok (some sub, some rest, memory)
          else .ok (none, some rest, releaseLogicalBlockList (some sub) memory)

end Blocks

section Loop

variable (grants : Grants) (alf : Nat → BitVec 64)

/-- The variables of the loop of `__Make_DIO_Requst`. -/
structure Split where
  sLBID : Nat
  nrLBIDs : Nat
  op : DMSOp
  lbList : Option LBList
  ior : IORequest
  memory : Memory

/-- How one round of the loop ends: with the next round, or at `CREATE_DIO_FAIL`. -/
inductive Progress where
  | next (split : Split)
  | failed (split : Split)

/-- The block list of the next piece of a write: the whole list for the last piece. -/
def takeBlocks (split : Split) (length : Int) (memory : Memory) :
    Except Fault (Option LBList × Option LBList × Memory) :=
  if length = split.nrLBIDs then .ok (split.lbList, none, memory)
  else getNextDIORequestLBList grants split.lbList length memory

/-- The branch of a read: one DIO takes everything. -/
def splitRead (split : Split) (addr : Nat) (memory : Memory) : Except Fault Progress := do
  let dio : DMSIO := ⟨addr, split.op, split.sLBID, split.nrLBIDs, split.lbList, 1⟩
  let (ior, memory) ← addDIOToIORequest grants split.ior dio memory
  return .next { split with nrLBIDs := 0, ior := ior, memory := memory }

/-- The branch of a write: one DIO takes the next range of one allocation flag. -/
def splitWrite (split : Split) (addr : Nat) (memory : Memory) : Except Fault Progress := do
  let (op, length) := getAllocationRange alf split.sLBID split.nrLBIDs
  let (taken, rest, memory) ← takeBlocks grants split length memory
  match taken with
  | none => return .failed { split with op := op, lbList := rest, memory := memory }
  | some list =>
      let dio : DMSIO := ⟨addr, op, split.sLBID, length.toNat, some list, 1⟩
      let (ior, memory) ← addDIOToIORequest grants split.ior dio memory
      return .next
        ⟨split.sLBID + length.toNat, split.nrLBIDs - length.toNat, op, rest, ior, memory⟩

/-- One round of the loop; without a DIO the next round tries again. -/
def splitRound (split : Split) : Except Fault Progress :=
  match createDIO grants split.memory with
  | .error fault => .error fault
  | .ok (none, memory) => .ok (.next { split with memory := memory })
  | .ok (some addr, memory) =>
      if split.op = .read then splitRead grants split addr memory
      else splitWrite grants alf split addr memory

/-- `while(nr_LBIDs)`, for at most `fuel` rounds. -/
def splitLoop : Nat → Split → Except Fault Progress
  | 0, _ => .error .running
  | fuel + 1, split =>
      if split.nrLBIDs = 0 then .ok (.next split)
      else
        match splitRound grants alf split with
        | .ok (.next split) => splitLoop fuel split
        | ended => ended

/-- `__Make_DIO_Requst`: the IO request, the kernel request and the memory afterwards.  Where it
fails, the DIO under construction is not attached to the IO request that is released. -/
def makeDIORequst (fuel : Nat) (kreq : KRequest) (memory : Memory) :
    Except Fault (Option IORequest × KRequest × Memory) :=
  match createIORequest grants memory with
  | (none, memory) => .ok (none, kreq, memory)
  | (some ior, memory) => do
      let (lbList, memory) := generateAllLogicalBlocks grants kreq memory
      match ← splitLoop grants alf fuel
          ⟨kreq.sLBID, kreq.nrLBIDs, kreq.op, lbList, ior, memory⟩ with
      | .next split => return (some split.ior, kreq, split.memory)
      | .failed split =>
          let memory := releaseIORequest split.ior split.memory
          let memory := releaseLogicalBlockList split.lbList memory
          return (none, (dmsEndRequestHandler kreq kreq.nrSectors 0).1, memory)

/-- `__VolumeIO_Handler`: the split, and the IO request attached to the kernel request. -/
def volumeIOHandler (fuel : Nat) (kreq : KRequest) (memory : Memory) :
    Except Fault (Option IORequest × KRequest × Memory) := do
  let (ior, kreq, memory) ← makeDIORequst grants alf fuel kreq memory
  return (ior, ← addIORequestToKRequest kreq ior, memory)

end Loop

section Rounds

variable {grants : Grants} {alf : Nat → BitVec 64}

theorem takeBlocks_some {split : Split} {length : Int} {memory memory' : Memory}
    {list : LBList} {rest : Option LBList}
    (taken : takeBlocks grants split length memory = .ok (some list, rest, memory')) :
    (length = split.nrLBIDs ∧ split.lbList = some list ∧ rest = none ∧ memory' = memory) ∨
      (length ≠ split.nrLBIDs ∧ grants .lbList (memory.attempts .lbList) = true ∧
        memory' = (malloc grants .lbList memory).2 ∧
        ∃ orig remaining, split.lbList = some orig ∧ rest = some remaining ∧
          moveSubList orig.blocks length = (length, list.blocks, remaining.blocks)) := by
  unfold takeBlocks at taken
  split at taken
  case isTrue whole =>
    simp only [Except.ok.injEq, Prod.mk.injEq] at taken
    obtain ⟨held, rfl, rfl⟩ := taken
    exact .inl ⟨whole, held, rfl, rfl⟩
  case isFalse part =>
    refine .inr ⟨part, ?_⟩
    unfold getNextDIORequestLBList createLogicalBlockList at taken
    cases granted : grants .lbList (memory.attempts .lbList) with
    | false => simp [malloc, granted] at taken
    | true =>
        refine ⟨rfl, ?_⟩
        simp only [malloc, granted, if_true, Option.map_some] at taken
        cases held : split.lbList with
        | none => simp [held] at taken
        | some orig =>
            simp only [held] at taken
            split at taken
            case isTrue enough =>
              cases taken
              refine ⟨rfl, orig, _, rfl, rfl, ?_⟩
              exact Prod.ext enough rfl
            case isFalse => simp at taken

/-- What a round that goes on has done. -/
theorem splitRound_next {split split' : Split} (isWrite : split.op ≠ .read)
    (done : splitRound grants alf split = .ok (.next split')) :
    grants .dio (split.memory.attempts .dio) = true ∧
      ∃ list rest taken ior memory,
        takeBlocks grants split (getAllocationRange alf split.sLBID split.nrLBIDs).2
            (malloc grants .dio split.memory).2 = .ok (some list, rest, taken) ∧
          addDIOToIORequest grants split.ior
              ⟨split.memory.attempts .dio, (getAllocationRange alf split.sLBID split.nrLBIDs).1,
                split.sLBID, (getAllocationRange alf split.sLBID split.nrLBIDs).2.toNat,
                some list, 1⟩ taken = .ok (ior, memory) ∧
          split' =
            ⟨split.sLBID + (getAllocationRange alf split.sLBID split.nrLBIDs).2.toNat,
              split.nrLBIDs - (getAllocationRange alf split.sLBID split.nrLBIDs).2.toNat,
              (getAllocationRange alf split.sLBID split.nrLBIDs).1, rest, ior, memory⟩ := by
  unfold splitRound at done
  cases granted : grants .dio (split.memory.attempts .dio) with
  | false => simp [createDIO_refused grants granted] at done
  | true =>
      refine ⟨rfl, ?_⟩
      simp only [createDIO_granted grants granted, isWrite, if_false] at done
      unfold splitWrite at done
      generalize getAllocationRange alf split.sLBID split.nrLBIDs = range at done ⊢
      obtain ⟨op, length⟩ := range
      simp only [bind, Except.bind, malloc] at done ⊢
      split at done
      case h_1 => simp at done
      case h_2 result taken =>
        obtain ⟨list, rest, takenMemory⟩ := result
        cases list with
        | none => simp [pure, Except.pure] at done
        | some list =>
            simp only at done
            split at done
            case h_1 => simp at done
            case h_2 result added =>
              cases done
              exact ⟨list, rest, takenMemory, _, _, taken, added, rfl⟩

theorem splitRound_read_next {split split' : Split} (isRead : split.op = .read)
    (done : splitRound grants alf split = .ok (.next split')) :
    grants .dio (split.memory.attempts .dio) = true ∧ ∃ ior memory,
      addDIOToIORequest grants split.ior
          ⟨split.memory.attempts .dio, .read, split.sLBID, split.nrLBIDs, split.lbList, 1⟩
          (malloc grants .dio split.memory).2 = .ok (ior, memory) ∧
        split' = { split with nrLBIDs := 0, ior := ior, memory := memory } := by
  unfold splitRound at done
  cases granted : grants .dio (split.memory.attempts .dio) with
  | false => simp [createDIO_refused grants granted] at done
  | true =>
      refine ⟨rfl, ?_⟩
      simp only [createDIO_granted grants granted, if_true, isRead, splitRead, bind, Except.bind]
        at done ⊢
      split at done
      case h_1 => simp at done
      case h_2 result added =>
        cases done
        exact ⟨_, _, added, rfl⟩

theorem splitRound_granted {split : Split} (isWrite : split.op ≠ .read)
    (granted : grants .dio (split.memory.attempts .dio) = true) {op : DMSOp} {length : Nat}
    (range : getAllocationRange alf split.sLBID split.nrLBIDs = (op, (length : Int)))
    {list : LBList} {rest : Option LBList} {taken memory : Memory} {ior : IORequest}
    (blocks : takeBlocks grants split length (malloc grants .dio split.memory).2 =
      .ok (some list, rest, taken))
    (added : addDIOToIORequest grants split.ior
      ⟨split.memory.attempts .dio, op, split.sLBID, length, some list, 1⟩ taken =
        .ok (ior, memory)) :
    splitRound grants alf split =
      .ok (.next ⟨split.sLBID + length, split.nrLBIDs - length, op, rest, ior, memory⟩) := by
  simp only [splitRound, createDIO_granted grants granted, isWrite, if_false, splitWrite, range,
    bind, Except.bind, blocks, Int.toNat_natCast, added, pure, Except.pure]

/-- A cut for which the memory is granted takes the first `length` blocks. -/
theorem takeBlocks_granted {split : Split} {list : LBList} (held : split.lbList = some list)
    (blocks : list.lbids = List.range' split.sLBID split.nrLBIDs) {length : Nat}
    (positive : 0 < length) (bound : length ≤ split.nrLBIDs) {memory : Memory}
    (granted : length < split.nrLBIDs → grants .lbList (memory.attempts .lbList) = true) :
    ∃ taken rest memory', takeBlocks grants split length memory = .ok (some taken, rest, memory') ∧
      taken.lbids = List.range' split.sLBID length ∧
      (length < split.nrLBIDs → ∃ remaining, rest = some remaining ∧
        remaining.lbids = List.range' (split.sLBID + length) (split.nrLBIDs - length) ∧
        memory'.attempts .lbList = memory.attempts .lbList + 1) ∧
      ∀ pool, pool ≠ .lbList → memory'.attempts pool = memory.attempts pool := by
  rcases Nat.lt_or_eq_of_le bound with short | whole
  · have long : length ≤ list.blocks.length := by
      have count := congrArg List.length blocks
      simp only [LBList.lbids, List.length_map, List.length_range'] at count
      omega
    have part : ¬ (length : Int) = split.nrLBIDs := by omega
    refine ⟨⟨memory.attempts .lbList, list.blocks.take length⟩,
      some { list with blocks := list.blocks.drop length }, (malloc grants .lbList memory).2,
      ?_, ?_, ?_, ?_⟩
    · rw [takeBlocks, if_neg part, held]
      simp [getNextDIORequestLBList, createLogicalBlockList, malloc, granted short,
        moveSubList_pos positive, long]
    · rw [LBList.lbids, List.map_take, ← LBList.lbids, blocks,
        List.take_range'_of_length_ge bound]
    · intro _
      refine ⟨_, rfl, ?_, by simp⟩
      rw [LBList.lbids, List.map_drop, ← LBList.lbids, blocks, List.drop_range']
      simp
    · exact fun pool different => malloc_attempts_of_ne grants .lbList memory different
  · refine ⟨list, none, memory, ?_, ?_, ?_, ?_⟩
    · rw [takeBlocks, if_pos (by exact_mod_cast whole), held]
    · rw [blocks, whole]
    · exact fun short => absurd whole (Nat.ne_of_lt short)
    · exact fun _ _ => rfl

end Rounds

end DmsBlkdev
