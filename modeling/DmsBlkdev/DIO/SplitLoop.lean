import DmsBlkdev.DIO.Split

/-!
# What the splitting loop needs and makes

The loop of a write finishes exactly when every allocation it makes for its
runs is granted and the operation test is exact at the start of every run.
Then one DIO serves each run.
-/

namespace DmsBlkdev

open Lib.RunLength

/-- A DIO made for a run: its operation, its range and the blocks on its list. -/
structure DMSIO.Serves (run : Run Bool) (dio : DMSIO) : Prop where
  op : dio.op = DMSOp.ofFlag run.label
  sLBID : dio.sLBID = run.start
  nrLBIDs : dio.nrLBIDs = run.length
  lbids : dio.lbids = run.positions

/-- What the loop needs from the allocator, counted from the attempts made so far, and from the
operation test.  The whole list serves the last run, so only the runs before it need a new one. -/
structure RunsGranted (grants : Grants) (alf : Nat → BitVec 64) (attempts : Pool → Nat)
    (list : List (Run Bool)) : Prop where
  tests : ∀ run ∈ list, TestExact alf run.start
  lists : ∀ i, i + 1 < list.length → grants .lbList (attempts .lbList + i) = true
  nodes : ∀ i < list.length, grants .dln (attempts .dln + i) = true
  dios : ∀ i < list.length, grants .dio (attempts .dio + i) = true

section Granted

variable {grants : Grants} {alf : Nat → BitVec 64} {attempts attempts' : Pool → Nat}

theorem RunsGranted.nil : RunsGranted grants alf attempts [] :=
  ⟨by simp, by simp, by simp, by simp⟩

theorem granted_succ_iff {pool : Pool} {length : Nat} (tried : attempts' pool = attempts pool + 1) :
    (∀ i < length + 1, grants pool (attempts pool + i) = true) ↔
      grants pool (attempts pool) = true ∧ ∀ i < length, grants pool (attempts' pool + i) = true := by
  constructor
  · intro all
    refine ⟨all 0 (Nat.succ_pos _), fun i bound => ?_⟩
    rw [tried, Nat.add_right_comm]
    exact all (i + 1) (Nat.succ_lt_succ bound)
  · rintro ⟨first, later⟩ (_ | i) bound
    · exact first
    · have next := later i (Nat.lt_of_succ_lt_succ bound)
      rwa [tried, Nat.add_right_comm] at next

theorem RunsGranted.cons_iff {run : Run Bool} {rest : List (Run Bool)}
    (tried : attempts' .dio = attempts .dio + 1)
    (nodeTried : attempts' .dln = attempts .dln + 1)
    (listTried : rest ≠ [] → attempts' .lbList = attempts .lbList + 1) :
    RunsGranted grants alf attempts (run :: rest) ↔
      TestExact alf run.start ∧
        (rest ≠ [] → grants .lbList (attempts .lbList) = true) ∧
        grants .dln (attempts .dln) = true ∧ grants .dio (attempts .dio) = true ∧
        RunsGranted grants alf attempts' rest := by
  constructor
  · rintro ⟨tests, lists, nodes, dios⟩
    obtain ⟨node, laterNodes⟩ := (granted_succ_iff nodeTried).mp nodes
    obtain ⟨dio, laterDIOs⟩ := (granted_succ_iff tried).mp dios
    refine ⟨tests run List.mem_cons_self, fun more => ?_, node, dio,
      fun other member => tests other (List.mem_cons_of_mem _ member), fun i bound => ?_, laterNodes,
      laterDIOs⟩
    · exact lists 0 (by simpa using List.length_pos_of_ne_nil more)
    · have more : rest ≠ [] := by
        rintro rfl
        simp at bound
      rw [listTried more, Nat.add_right_comm]
      exact lists (i + 1) (by simpa using bound)
  · rintro ⟨test, list, node, dio, tests, lists, nodes, dios⟩
    refine ⟨?_, ?_, (granted_succ_iff nodeTried).mpr ⟨node, nodes⟩,
      (granted_succ_iff tried).mpr ⟨dio, dios⟩⟩
    · intro other member
      rcases List.mem_cons.mp member with equality | inRest
      · exact equality ▸ test
      · exact tests other inRest
    · intro i bound
      have more : rest ≠ [] := by
        rintro rfl
        simp at bound
      cases i with
      | zero => exact list more
      | succ i =>
          have later := lists i (by simpa using bound)
          rwa [listTried more, Nat.add_right_comm] at later

end Granted

section Forward

variable {grants : Grants} {alf : Nat → BitVec 64}

theorem splitLoop_done (fuel : Nat) {split : Split} (done : split.nrLBIDs = 0) :
    splitLoop grants alf (fuel + 1) split = .ok (.next split) := by
  simp [splitLoop, done]

theorem splitLoop_round {fuel : Nat} {split split' : Split} (more : split.nrLBIDs ≠ 0)
    (round : splitRound grants alf split = .ok (.next split')) :
    splitLoop grants alf (fuel + 1) split = splitLoop grants alf fuel split' := by
  simp [splitLoop, more, round]

structure Ready (split : Split) : Prop where
  isWrite : split.op ≠ .read
  attached : split.ior.diolist ≠ none
  held : split.nrLBIDs ≠ 0 → ∃ list, split.lbList = some list ∧
    list.lbids = List.range' split.sLBID split.nrLBIDs

/-- A round whose allocations are granted makes one DIO, which serves the first run. -/
theorem splitRound_of_granted {split : Split} (ready : Ready split) (more : split.nrLBIDs ≠ 0)
    (granted : RunsGranted grants alf split.memory.attempts
      (scannedRuns alf split.sLBID split.nrLBIDs)) :
    ∃ split' run dio, splitRound grants alf split = .ok (.next split') ∧ Ready split' ∧
      split'.ior.dios = split.ior.dios ++ [dio] ∧ DMSIO.Serves run dio ∧
      scannedRuns alf split.sLBID split.nrLBIDs =
        run :: scannedRuns alf split'.sLBID split'.nrLBIDs ∧
      RunsGranted grants alf split'.memory.attempts
        (scannedRuns alf split'.sLBID split'.nrLBIDs) := by
  obtain ⟨list, lbList, blocks⟩ := ready.held more
  obtain ⟨length, positive, bound, runs, range⟩ := scannedRuns_cons alf split.sLBID more
  have last : scannedRuns alf (split.sLBID + length) (split.nrLBIDs - length) ≠ [] ↔
      length < split.nrLBIDs := by
    rw [ne_eq, scannedRuns_eq_nil_iff]
    omega
  rw [runs] at granted
  -- the first run needs one DIO, one node and, unless it is the last, one list
  have exact := granted.tests _ List.mem_cons_self
  have node := granted.nodes 0 (by simp)
  have allowed := granted.dios 0 (by simp)
  have listGranted : length < split.nrLBIDs →
      grants .lbList ((malloc grants .dio split.memory).2.attempts .lbList) = true := by
    intro short
    rw [malloc_attempts_of_ne grants .dio split.memory (by decide)]
    exact granted.lists 0 (by simpa using List.length_pos_of_ne_nil (last.mpr short))
  obtain ⟨taken, rest, takenMemory, cut, front, remaining, others⟩ :=
    takeBlocks_granted lbList blocks positive bound listGranted
  have dlnTried : takenMemory.attempts .dln = split.memory.attempts .dln := by
    rw [others _ (by decide), malloc_attempts_of_ne grants .dio split.memory (by decide)]
  let dio : DMSIO := ⟨split.memory.attempts .dio,
    DMSOp.ofFlag (scannedFlag alf split.sLBID split.sLBID), split.sLBID, length, some taken, 1⟩
  obtain ⟨ior, added, attached, dios⟩ :=
    addDIOToIORequest_granted grants dio ready.attached (dlnTried ▸ node)
  have round := splitRound_granted ready.isWrite allowed (range exact) cut added
  generalize nextMemory : (malloc grants .dln takenMemory).2 = memory at round
  have dioTried : memory.attempts .dio = split.memory.attempts .dio + 1 := by
    rw [← nextMemory, malloc_attempts_of_ne grants .dln takenMemory (by decide),
      others _ (by decide), malloc_attempts_self]
  have nodeTried : memory.attempts .dln = split.memory.attempts .dln + 1 := by
    rw [← nextMemory, malloc_attempts_self, dlnTried]
  have listTried : length < split.nrLBIDs →
      memory.attempts .lbList = split.memory.attempts .lbList + 1 := by
    intro short
    obtain ⟨_, _, _, tried⟩ := remaining short
    rw [← nextMemory, malloc_attempts_of_ne grants .dln takenMemory (by decide), tried,
      malloc_attempts_of_ne grants .dio split.memory (by decide)]
  refine ⟨_, _, dio, round, ⟨DMSOp.ofFlag_ne_read _, attached, ?_⟩, dios, ?_, runs, ?_⟩
  · intro nonempty
    obtain ⟨list, equality, lbids, _⟩ := remaining (Nat.lt_of_sub_ne_zero nonempty)
    exact ⟨list, equality, lbids⟩
  · exact ⟨rfl, rfl, rfl, front⟩
  · exact ((RunsGranted.cons_iff dioTried nodeTried
      fun nonempty => listTried (last.mp nonempty)).mp granted).2.2.2.2

/-- With everything granted the loop ends, and one new DIO serves each run. -/
theorem splitLoop_of_granted {split : Split} (ready : Ready split)
    (granted : RunsGranted grants alf split.memory.attempts
      (scannedRuns alf split.sLBID split.nrLBIDs)) :
    ∃ fuel split' made, splitLoop grants alf fuel split = .ok (.next split') ∧
      split'.ior.dios = split.ior.dios ++ made ∧
      List.Forall₂ DMSIO.Serves (scannedRuns alf split.sLBID split.nrLBIDs) made := by
  generalize remaining : scannedRuns alf split.sLBID split.nrLBIDs = list at granted
  induction list generalizing split with
  | nil =>
      have none := (scannedRuns_eq_nil_iff alf).mp remaining
      exact ⟨1, split, [], splitLoop_done 0 none, by simp, by simp⟩
  | cons head tail inductionHypothesis =>
      have more : split.nrLBIDs ≠ 0 := by
        rw [ne_eq, ← @scannedRuns_eq_nil_iff alf split.sLBID, remaining]
        exact List.cons_ne_nil _ _
      rw [← remaining] at granted
      obtain ⟨next, first, dio, round, nextReady, nextDios, serve, runs, later⟩ :=
        splitRound_of_granted ready more granted
      obtain ⟨rfl, rest⟩ := List.cons.inj (runs.symm.trans remaining)
      obtain ⟨fuel, split', made, run, dios, serves⟩ :=
        inductionHypothesis nextReady rest (rest ▸ later)
      refine ⟨fuel + 1, split', dio :: made, (splitLoop_round more round).trans run, ?_,
        .cons serve serves⟩
      rw [dios, nextDios, List.append_assoc, List.singleton_append]

end Forward

section Backward

variable {grants : Grants} {alf : Nat → BitVec 64}

theorem splitLoop_next_cases {fuel : Nat} {split split' : Split}
    (ended : splitLoop grants alf fuel split = .ok (.next split')) :
    (split.nrLBIDs = 0 ∧ split' = split) ∨
      (split.nrLBIDs ≠ 0 ∧ ∃ shorter middle, fuel = shorter + 1 ∧
        splitRound grants alf split = .ok (.next middle) ∧
        splitLoop grants alf shorter middle = .ok (.next split')) := by
  cases fuel with
  | zero => simp [splitLoop] at ended
  | succ fuel =>
      rw [splitLoop] at ended
      split at ended
      case isTrue done =>
        cases ended
        exact .inl ⟨done, rfl⟩
      case isFalse more =>
        refine .inr ⟨more, fuel, ?_⟩
        cases round : splitRound grants alf split with
        | error fault => simp [round] at ended
        | ok progress =>
            cases progress with
            | failed _ => simp [round] at ended
            | next middle => exact ⟨middle, rfl, rfl, by simpa [round] using ended⟩

/-- Once the operation test is wrong the range is empty, and no later round gets past it. -/
theorem splitLoop_inexact {fuel : Nat} {split split' : Split} (isWrite : split.op ≠ .read)
    (more : split.nrLBIDs ≠ 0) (inexact : ¬ TestExact alf split.sLBID) :
    splitLoop grants alf fuel split ≠ .ok (.next split') := by
  induction fuel generalizing split with
  | zero => simp [splitLoop]
  | succ fuel inductionHypothesis =>
      intro ended
      rcases splitLoop_next_cases ended with ⟨done, _⟩ | ⟨_, shorter, middle, less, round, later⟩
      · exact more done
      obtain rfl : fuel = shorter := Nat.succ.inj less
      have same : middle.op ≠ .read ∧ middle.nrLBIDs = split.nrLBIDs ∧
          middle.sLBID = split.sLBID := by
        obtain ⟨_, _, _, _, _, _, _, _, rfl⟩ := splitRound_next isWrite round
        rw [getAllocationRange_of_inexact alf inexact]
        exact ⟨allocationOp_ne_read alf _, rfl, rfl⟩
      obtain ⟨stillWrite, length, start⟩ := same
      exact inductionHypothesis stillWrite (length ▸ more) (start ▸ inexact) later

structure Served (grants : Grants) (alf : Nat → BitVec 64) (split split' : Split)
    (run : Run Bool) (dio : DMSIO) : Prop where
  isWrite : split'.op ≠ .read
  attached : split'.ior.diolist ≠ none
  dios : split'.ior.dios = split.ior.dios ++ [dio]
  runs : scannedRuns alf split.sLBID split.nrLBIDs =
    run :: scannedRuns alf split'.sLBID split'.nrLBIDs
  start : run.start = split.sLBID
  granted : grants .dio (split.memory.attempts .dio) = true
  node : grants .dln (split.memory.attempts .dln) = true
  nodeTried : split'.memory.attempts .dln = split.memory.attempts .dln + 1
  dioTried : split'.memory.attempts .dio = split.memory.attempts .dio + 1
  list : split'.nrLBIDs ≠ 0 → grants .lbList (split.memory.attempts .lbList) = true ∧
    split'.memory.attempts .lbList = split.memory.attempts .lbList + 1
  blocks : ∃ list, split.lbList = some list ∧
    (split'.nrLBIDs = 0 → list.lbids = dio.lbids) ∧
    (split'.nrLBIDs ≠ 0 → ∃ rest, split'.lbList = some rest ∧
      list.lbids = dio.lbids ++ rest.lbids)

theorem served_of_splitRound {split split' : Split} (isWrite : split.op ≠ .read)
    (attached : split.ior.diolist ≠ none) (more : split.nrLBIDs ≠ 0)
    (exact : TestExact alf split.sLBID)
    (round : splitRound grants alf split = .ok (.next split')) :
    ∃ run dio, Served grants alf split split' run dio := by
  obtain ⟨length, positive, bound, runs, range⟩ := scannedRuns_cons alf split.sLBID more
  have others : ∀ pool, pool ≠ .dio →
      (malloc grants .dio split.memory).2.attempts pool = split.memory.attempts pool :=
    fun pool => malloc_attempts_of_ne grants .dio split.memory
  obtain ⟨allowed, list, rest, taken, ior, memory, cut, added, rfl⟩ :=
    splitRound_next isWrite round
  rw [range exact, Int.toNat_natCast] at added
  rw [range exact] at cut
  simp only [range exact, Int.toNat_natCast]
  have listCases := takeBlocks_some cut
  have takenOthers : ∀ pool, pool ≠ .dio → pool ≠ .lbList →
      taken.attempts pool = split.memory.attempts pool := by
    intro pool notDio notList
    rcases listCases with ⟨_, _, _, rfl⟩ | ⟨_, _, rfl, _⟩
    · exact others pool notDio
    · rw [malloc_attempts_of_ne grants .lbList _ notList, others pool notDio]
  have takenDio : taken.attempts .dio = split.memory.attempts .dio + 1 := by
    rcases listCases with ⟨_, _, _, rfl⟩ | ⟨_, _, rfl, _⟩
    · exact malloc_attempts_self grants .dio split.memory
    · rw [malloc_attempts_of_ne grants .lbList _ (by decide), malloc_attempts_self]
  rcases addDIOToIORequest_ok grants added with
    ⟨detached, _, _⟩ | ⟨_, node, memoryEq, stillAttached, dios⟩
  · exact absurd detached attached
  have dlnTaken := takenOthers .dln (by decide) (by decide)
  subst memoryEq
  refine ⟨⟨_, split.sLBID, length⟩, _, DMSOp.ofFlag_ne_read _, stillAttached, dios, runs, rfl,
    allowed, dlnTaken ▸ node, ?_, ?_, ?_, ?_⟩
  · rw [malloc_attempts_self, dlnTaken]
  · rw [malloc_attempts_of_ne grants .dln _ (by decide), takenDio]
  · intro nonempty
    rcases listCases with ⟨whole, _⟩ | ⟨_, granted, rfl, _⟩
    · exact absurd (Nat.sub_eq_zero_of_le (by omega)) nonempty
    · rw [others _ (by decide)] at granted
      exact ⟨granted, by rw [malloc_attempts_of_ne grants .dln _ (by decide),
        malloc_attempts_self, others _ (by decide)]⟩
  · rcases listCases with ⟨whole, held, restEq, _⟩ | ⟨part, _, _, orig, remaining, held, restEq, moved⟩
    · refine ⟨list, held, fun _ => rfl, fun nonempty => ?_⟩
      exact absurd (Nat.sub_eq_zero_of_le (by omega)) nonempty
    · refine ⟨orig, held, fun none => ?_, fun _ => ⟨remaining, restEq, ?_⟩⟩
      · have whole : split.nrLBIDs - length = 0 := none
        omega
      · rw [moveSubList_pos positive] at moved
        split at moved
        case isTrue =>
          simp only [Prod.mk.injEq] at moved
          obtain ⟨_, front, back⟩ := moved
          simp [ DMSIO.lbids, LBList.lbids, ← front, ← back]
        case isFalse short =>
          simp only [Prod.mk.injEq] at moved
          omega

/-- A loop that ended had everything granted, and its DIOs hold all the blocks of the list. -/
theorem granted_of_splitLoop {fuel : Nat} {split split' : Split} (isWrite : split.op ≠ .read)
    (attached : split.ior.diolist ≠ none)
    (ended : splitLoop grants alf fuel split = .ok (.next split')) :
    RunsGranted grants alf split.memory.attempts (scannedRuns alf split.sLBID split.nrLBIDs) ∧
      (split.nrLBIDs ≠ 0 → ∃ list, split.lbList = some list ∧
        split'.ior.dios.flatMap DMSIO.lbids = split.ior.dios.flatMap DMSIO.lbids ++ list.lbids) := by
  induction fuel generalizing split with
  | zero => simp [splitLoop] at ended
  | succ fuel inductionHypothesis =>
      rcases splitLoop_next_cases ended with ⟨done, rfl⟩ | ⟨more, shorter, middle, less, round, later⟩
      · refine ⟨?_, fun some => absurd done some⟩
        rw [done, scannedRuns_zero]
        exact .nil
      obtain rfl : fuel = shorter := Nat.succ.inj less
      have exact : TestExact alf split.sLBID := by
        by_contra inexact
        exact splitLoop_inexact isWrite more inexact ended
      obtain ⟨run, dio, served⟩ := served_of_splitRound isWrite attached more exact round
      obtain ⟨granted, blocks⟩ := inductionHypothesis served.isWrite served.attached later
      constructor
      · rw [served.runs]
        have nonempty : scannedRuns alf middle.sLBID middle.nrLBIDs ≠ [] →
            middle.nrLBIDs ≠ 0 := fun some none => some (by rw [none, scannedRuns_zero])
        exact (RunsGranted.cons_iff served.dioTried served.nodeTried
          fun some => (served.list (nonempty some)).2).mpr
            ⟨served.start ▸ exact, fun some => (served.list (nonempty some)).1, served.node,
              served.granted, granted⟩
      · intro _
        obtain ⟨list, held, last, front⟩ := served.blocks
        refine ⟨list, held, ?_⟩
        by_cases none : middle.nrLBIDs = 0
        · rcases splitLoop_next_cases later with ⟨_, rfl⟩ | ⟨some, _⟩
          · simp [served.dios, last none]
          · exact absurd none some
        · obtain ⟨rest, restHeld, lbids⟩ := front none
          obtain ⟨list, equality, whole⟩ := blocks none
          obtain rfl : rest = list := Option.some.inj (restHeld.symm.trans equality)
          simp [whole, served.dios, lbids]

/-- An IO request without a list never gets a DIO. -/
theorem splitLoop_detached {fuel : Nat} {split split' : Split}
    (detached : split.ior.diolist = none)
    (ended : splitLoop grants alf fuel split = .ok (.next split')) :
    split'.ior.diolist = none := by
  induction fuel generalizing split with
  | zero => simp [splitLoop] at ended
  | succ fuel inductionHypothesis =>
      rcases splitLoop_next_cases ended with ⟨done, rfl⟩ | ⟨_, shorter, middle, less, round, later⟩
      · exact detached
      obtain rfl : fuel = shorter := Nat.succ.inj less
      refine inductionHypothesis ?_ later
      by_cases isRead : split.op = .read
      · obtain ⟨_, ior, memory, added, rfl⟩ := splitRound_read_next isRead round
        rcases addDIOToIORequest_ok grants added with ⟨_, rfl, _⟩ | ⟨attached, _⟩
        · exact detached
        · exact absurd detached attached
      · obtain ⟨_, _, _, _, ior, _, _, added, rfl⟩ := splitRound_next isRead round
        rcases addDIOToIORequest_ok grants added with ⟨_, rfl, _⟩ | ⟨attached, _⟩
        · exact detached
        · exact absurd detached attached

end Backward

section Read

variable {grants : Grants} {alf : Nat → BitVec 64}

theorem splitLoop_read_of_granted {split : Split} (isRead : split.op = .read)
    (more : split.nrLBIDs ≠ 0) (attached : split.ior.diolist ≠ none)
    (node : grants .dln (split.memory.attempts .dln) = true)
    (granted : grants .dio (split.memory.attempts .dio) = true) :
    ∃ fuel split' addr, splitLoop grants alf fuel split = .ok (.next split') ∧
      split'.ior.dios =
        split.ior.dios ++ [⟨addr, .read, split.sLBID, split.nrLBIDs, split.lbList, 1⟩] := by
  let dio : DMSIO := ⟨split.memory.attempts .dio, .read, split.sLBID, split.nrLBIDs,
    split.lbList, 1⟩
  have sameNode : (malloc grants .dio split.memory).2.attempts .dln =
      split.memory.attempts .dln :=
    malloc_attempts_of_ne grants .dio split.memory (by decide)
  rw [← sameNode] at node
  obtain ⟨ior, added, _, dios⟩ := addDIOToIORequest_granted grants dio attached node
  let ended : Split := { split with
    nrLBIDs := 0
    ior := ior
    memory := (malloc grants .dln (malloc grants .dio split.memory).2).2 }
  have round : splitRound grants alf split = .ok (.next ended) := by
    simp only [splitRound, createDIO_granted grants granted, isRead, if_true, splitRead, bind,
      Except.bind, dio] at added ⊢
    rw [added]
    simp [pure, Except.pure, ended, isRead]
  exact ⟨2, ended, _, (splitLoop_round more round).trans (splitLoop_done 0 rfl), dios⟩

theorem granted_of_splitLoop_read {fuel : Nat} {split split' : Split} (isRead : split.op = .read)
    (more : split.nrLBIDs ≠ 0) (attached : split.ior.diolist ≠ none)
    (ended : splitLoop grants alf fuel split = .ok (.next split')) :
    grants .dln (split.memory.attempts .dln) = true ∧
      grants .dio (split.memory.attempts .dio) = true ∧
      ∃ addr, split'.ior.dios =
        split.ior.dios ++ [⟨addr, .read, split.sLBID, split.nrLBIDs, split.lbList, 1⟩] := by
  rcases splitLoop_next_cases ended with ⟨done, _⟩ | ⟨_, shorter, middle, _, round, later⟩
  · exact absurd done more
  have sameNode : (malloc grants .dio split.memory).2.attempts .dln =
      split.memory.attempts .dln :=
    malloc_attempts_of_ne grants .dio split.memory (by decide)
  obtain ⟨granted, ior, memory, added, rfl⟩ := splitRound_read_next isRead round
  rcases addDIOToIORequest_ok grants added with ⟨detached, _⟩ | ⟨_, node, _, _, dios⟩
  · exact absurd detached attached
  refine ⟨sameNode ▸ node, granted, split.memory.attempts .dio, ?_⟩
  rcases splitLoop_next_cases later with ⟨_, rfl⟩ | ⟨some, _⟩
  · exact dios
  · exact absurd rfl some

end Read

end DmsBlkdev
