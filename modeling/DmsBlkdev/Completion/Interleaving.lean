import DmsBlkdev.Completion.Commit
import DmsBlkdev.Lib.Interleaving

/-!
# Commits that interleave

Each call of `Commit_LB_to_DMS_IO` is a thread.  A compare-and-exchange, a
read, and each critical section of a list is one atomic step.  Two tests of
emptiness, of the block list of a DIO and of the DIO list of the request, pick
the thread that completes a DIO and the thread that ends the kernel request.
-/

namespace DmsBlkdev

open Lib.Interleaving

/-- The next atomic step of a call of `Commit_LB_to_DMS_IO`.  A finished call holds the emptiness
it returns and its local `retcode`; a call that touched a released DIO is at `fault`. -/
inductive PC where
  | setDIOResult
  | commitLBList
  | readDIOResult
  | setIORResult (result : Int)
  | remove
  | release (empty : Bool)
  | endRequest
  | finished (empty retcode : Int)
  | fault
  deriving DecidableEq, Repr

/-- A thread inside `Commit_LB_to_DMS_IO`. -/
structure Committer where
  id : Nat
  commit : Commit
  pc : PC
  deriving DecidableEq, Repr

namespace Committer

def start (id : Nat) (commit : Commit) : Committer := ⟨id, commit, .setDIOResult⟩

def goto (t : Committer) (pc : PC) : Committer := { t with pc := pc }

@[simp] theorem goto_commit (t : Committer) (pc : PC) : (t.goto pc).commit = t.commit := rfl

@[simp] theorem goto_id (t : Committer) (pc : PC) : (t.goto pc).id = t.id := rfl

@[simp] theorem goto_pc (t : Committer) (pc : PC) : (t.goto pc).pc = pc := rfl

/-- One atomic step of a thread, through the operations of the sequential call. -/
def next (r : Request) (t : Committer) : Option (Request × Committer) :=
  match t.pc with
  | .setDIOResult =>
      match r.setDIOResult t.commit.dio t.commit.result with
      | some r' => some (r', t.goto .commitLBList)
      | none => some (r, t.goto .fault)
  | .commitLBList =>
      match r.commitLBList t.id t.commit.dio t.commit.slbid t.commit.nrLBIDs with
      | some (r', empty) =>
          some (r', t.goto (if empty = 1 then .readDIOResult else .finished empty dmsFail))
      | none => some (r, t.goto .fault)
  | .readDIOResult =>
      match r.readDIOResult t.commit.dio with
      | some result => some (r, t.goto (.setIORResult result))
      | none => some (r, t.goto .fault)
  | .setIORResult result =>
      match r.setIORResult t.commit.dio result with
      | some r' => some (r', t.goto .remove)
      | none => some (r, t.goto .fault)
  | .remove =>
      match r.removeDIOFromIORequest t.id t.commit.dio with
      | (r', true, empty) => some (r', t.goto (.release empty))
      | (r', false, _) => some (r', t.goto (.finished 1 dmsFail))
  | .release empty =>
      match r.release t.id t.commit.dio with
      | some r' => some (r', t.goto (if empty then .endRequest else .finished 1 0))
      | none => some (r, t.goto .fault)
  | .endRequest => some (r.endRequest t.id, t.goto (.finished 1 1))
  | .finished _ _ => none
  | .fault => none

end Committer

open Committer

section Classes

namespace PC

def waiting : PC → Bool
  | setDIOResult | commitLBList => true
  | _ => false

def holding : PC → Bool
  | readDIOResult | setIORResult _ | remove => true
  | _ => false

def freeing : PC → Bool
  | release _ => true
  | _ => false

def freed : PC → Bool
  | endRequest => true
  | finished empty _ => decide (empty = 1)
  | _ => false

def ending : PC → Bool
  | release empty => empty
  | endRequest => true
  | finished empty retcode => decide (empty = 1 ∧ retcode = 1)
  | _ => false

def ended : PC → Bool
  | finished empty retcode => decide (empty = 1 ∧ retcode = 1)
  | _ => false

def rank : PC → Nat
  | setDIOResult => 7
  | commitLBList => 6
  | readDIOResult => 5
  | setIORResult _ => 4
  | remove => 3
  | release _ => 2
  | endRequest => 1
  | finished _ _ => 0
  | fault => 0

end PC

def tally (addr : Nat) (phase : PC → Bool) (threads : List Committer) : Nat :=
  threads.countP fun t => decide (t.commit.dio = addr) && phase t.pc

theorem tally_middle (addr : Nat) (phase : PC → Bool) (before after : List Committer)
    (t : Committer) :
    tally addr phase (before ++ t :: after) = tally addr phase (before ++ after) +
      if t.commit.dio = addr ∧ phase t.pc = true then 1 else 0 := by
  simp only [tally, List.countP_append, List.countP_cons, Bool.and_eq_true, decide_eq_true_eq]
  omega

def waitingCommits (threads : List Committer) : List Commit :=
  (threads.filter fun t => t.pc.waiting).map Committer.commit

theorem waitingCommits_append (first second : List Committer) :
    waitingCommits (first ++ second) = waitingCommits first ++ waitingCommits second := by
  simp [waitingCommits]

theorem waitingCommits_cons (t : Committer) (threads : List Committer) :
    waitingCommits (t :: threads) =
      if t.pc.waiting then t.commit :: waitingCommits threads else waitingCommits threads := by
  by_cases waits : t.pc.waiting = true <;> simp [waitingCommits, waits]

theorem covered_waitingCommits_eq_nil_iff {addr : Nat} {threads : List Committer}
    (nonempty : ∀ t ∈ threads, 0 < t.commit.nrLBIDs) :
    Commit.covered addr (waitingCommits threads) = [] ↔ tally addr PC.waiting threads = 0 := by
  rw [Commit.covered_eq_nil_iff]
  · simp only [waitingCommits, tally, List.countP_eq_zero, List.map_map, List.mem_map,
      List.mem_filter, Function.comp_apply, Bool.and_eq_true, decide_eq_true_eq]
    constructor
    · rintro absent t member ⟨own, waits⟩
      exact absent ⟨t, ⟨member, waits⟩, own⟩
    · rintro none ⟨t, ⟨member, waits⟩, own⟩
      exact none t member ⟨own, waits⟩
  · intro commit member
    obtain ⟨t, waits, rfl⟩ := List.mem_map.mp member
    exact nonempty t (List.mem_filter.mp waits).1

def Request.happened (event : Event) (r : Request) : Nat := (r.log.map Prod.snd).count event

@[simp] theorem Request.happened_emit (event other : Event) (who : Nat) (r : Request) :
    (r.emit who other).happened event = r.happened event + if other = event then 1 else 0 := by
  simp [Request.happened, Request.emit, List.count_singleton]

end Classes

section Frame

namespace Request

def view (addr : Nat) (r : Request) : Option DMSIO × Nat × Nat × Nat × Nat :=
  (r.dios addr, r.diolist.count addr, r.happened (.emptied addr), r.happened (.removed addr),
    r.happened (.released addr))

variable {r r' : Request} {own addr : Nat}

theorem setDIOResult_view {result : Int} (stored : r.setDIOResult own result = some r')
    (other : addr ≠ own) : r'.view addr = r.view addr := by
  obtain ⟨dio, found, rfl⟩ := Option.map_eq_some_iff.mp stored
  simp [view, happened, Function.update_of_ne other]

theorem commitLBList_view {who slbid : Nat} {nrLBIDs empty : Int}
    (committed : r.commitLBList who own slbid nrLBIDs = some (r', empty))
    (other : addr ≠ own) : r'.view addr = r.view addr := by
  obtain ⟨dio, found, result⟩ := Option.map_eq_some_iff.mp committed
  split at result
  · cases result
    rfl
  · obtain ⟨rfl, -⟩ := Prod.mk.inj result
    have different := Ne.symm other
    split
    · simp [view, happened, emit, Function.update_of_ne other, different]
    · simp [view, happened, Function.update_of_ne other]

theorem setIORResult_view {result : Int} (stored : r.setIORResult own result = some r') :
    r'.view addr = r.view addr := by
  obtain ⟨dio, found, rfl⟩ := Option.map_eq_some_iff.mp stored
  rfl

theorem removeDIOFromIORequest_view {who : Nat} (other : addr ≠ own) :
    (r.removeDIOFromIORequest who own).1.view addr = r.view addr := by
  have different := Ne.symm other
  unfold removeDIOFromIORequest
  split
  · simp [view, happened, emit, List.count_erase_of_ne other, different]
  · rfl

theorem release_view {who : Nat} (released : r.release who own = some r')
    (other : addr ≠ own) : r'.view addr = r.view addr := by
  obtain ⟨dio, found, rfl⟩ := Option.map_eq_some_iff.mp released
  have different := Ne.symm other
  simp [view, happened, emit, Function.update_of_ne other, different]

theorem endRequest_view (who : Nat) : (r.endRequest who).view addr = r.view addr := by
  simp [view, happened, endRequest, emit]

end Request

variable {r r' : Request} {t t' : Committer}

theorem next_goto (taken : next r t = some (r', t')) : t' = t.goto t'.pc := by
  unfold next at taken
  split at taken <;> (try split at taken) <;> cases taken <;> rfl

theorem next_view (taken : next r t = some (r', t')) {addr : Nat}
    (other : addr ≠ t.commit.dio) : r'.view addr = r.view addr := by
  unfold next at taken
  split at taken
  · split at taken <;> cases taken
    · rename_i stored
      exact Request.setDIOResult_view stored other
    · rfl
  · split at taken <;> cases taken
    · rename_i committed
      exact Request.commitLBList_view committed other
    · rfl
  · split at taken <;> cases taken <;> rfl
  · split at taken <;> cases taken
    · rename_i stored
      exact Request.setIORResult_view stored
    · rfl
  · have removed := @Request.removeDIOFromIORequest_view r t.commit.dio addr t.id other
    split at taken <;> rename_i result <;> cases taken <;> simpa only [result] using removed
  · split at taken <;> cases taken
    · rename_i released
      exact Request.release_view released other
    · rfl
  · cases taken
    exact Request.endRequest_view t.id
  · cases taken
  · cases taken

end Frame

section Invariant

/-- Where one DIO stands: as long as a range is to be removed nobody completes it, afterwards
exactly one thread does. -/
structure DIOInv (addr : Nat) (r : Request) (threads : List Committer) : Prop where
  phase : (0 < tally addr PC.waiting threads ∧ tally addr PC.holding threads +
      tally addr PC.freeing threads + tally addr PC.freed threads = 0) ∨
    (tally addr PC.waiting threads = 0 ∧ tally addr PC.holding threads +
      tally addr PC.freeing threads + tally addr PC.freed threads = 1)
  listed : r.diolist.count addr + tally addr PC.freeing threads + tally addr PC.freed threads = 1
  emptied : r.happened (.emptied addr) = tally addr PC.holding threads +
    tally addr PC.freeing threads + tally addr PC.freed threads
  removed : r.happened (.removed addr) =
    tally addr PC.freeing threads + tally addr PC.freed threads
  released : r.happened (.released addr) = tally addr PC.freed threads
  blocks : tally addr PC.freed threads = 0 → ∃ dio list, r.dios addr = some dio ∧
    dio.lbList = some list ∧ Sorted64 list.blocks ∧
    list.lbids.Perm (Commit.covered addr (waitingCommits threads))

variable {r r' : Request} {t t' : Committer} {before after : List Committer}

theorem DIOInv.other_step {addr : Nat} (inv : DIOInv addr r (before ++ t :: after))
    (other : addr ≠ t.commit.dio) (taken : next r t = some (r', t')) :
    DIOInv addr r' (before ++ t' :: after) := by
  obtain ⟨dios, listed, emptied, removed, released⟩ := by
    simpa only [Request.view, Prod.mk.injEq] using next_view taken other
  have same : t'.commit = t.commit := by rw [next_goto taken, goto_commit]
  have tallies : ∀ phase, tally addr phase (before ++ t' :: after) =
      tally addr phase (before ++ t :: after) := by
    intro phase
    rw [tally_middle, tally_middle, same]
    simp [Ne.symm other]
  have covers : Commit.covered addr (waitingCommits (before ++ t' :: after)) =
      Commit.covered addr (waitingCommits (before ++ t :: after)) := by
    have own : t.commit.dio ≠ addr := Ne.symm other
    have ownAfter : t'.commit.dio ≠ addr := same ▸ own
    simp only [waitingCommits_append, waitingCommits_cons, Commit.covered_append]
    split <;> split <;> simp [Commit.covered_cons_of_ne, own, ownAfter]
  constructor
  · simpa only [tallies] using inv.phase
  · simpa only [tallies, listed] using inv.listed
  · simpa only [tallies, emptied] using inv.emptied
  · simpa only [tallies, removed] using inv.removed
  · simpa only [tallies, released] using inv.released
  · simpa only [tallies, covers, dios] using inv.blocks

section OwnStep

/-- The thread that holds a DIO with blocks left finds it with its block list. -/
theorem DIOInv.found (inv : DIOInv t.commit.dio r (before ++ t :: after))
    (early : t.pc.freed = false) (open_ : t.pc.waiting ∨ t.pc.holding ∨ t.pc.freeing) :
    ∃ dio list, r.dios t.commit.dio = some dio ∧ dio.lbList = some list ∧
      Sorted64 list.blocks ∧
      list.lbids.Perm (Commit.covered t.commit.dio (waitingCommits (before ++ t :: after))) := by
  apply inv.blocks
  have phase := inv.phase
  simp only [tally_middle, true_and] at phase ⊢
  rcases open_ with waits | holds | frees
  · simp only [waits, if_true] at phase
    omega
  · simp only [holds, early, if_true] at phase ⊢
    omega
  · simp only [frees, early, if_true] at phase ⊢
    omega

theorem DIOInv.same_phase {pc : PC} (inv : DIOInv t.commit.dio r (before ++ t :: after))
    (waiting : pc.waiting = t.pc.waiting) (holding : pc.holding = t.pc.holding)
    (freeing : pc.freeing = t.pc.freeing) (freed : pc.freed = t.pc.freed)
    (diolist : r'.diolist = r.diolist)
    (happened : ∀ event, (∀ result, event ≠ .ended result) →
      r'.happened event = r.happened event)
    (dios : ∀ dio, r.dios t.commit.dio = some dio →
      ∃ value, r'.dios t.commit.dio = some { dio with result := value }) :
    DIOInv t.commit.dio r' (before ++ t.goto pc :: after) := by
  have covers : waitingCommits (before ++ t.goto pc :: after) =
      waitingCommits (before ++ t :: after) := by
    simp only [waitingCommits_append, waitingCommits_cons, goto_pc, goto_commit, waiting]
  have tallies : ∀ phase : PC → Bool, phase pc = phase t.pc →
      tally t.commit.dio phase (before ++ t.goto pc :: after) =
        tally t.commit.dio phase (before ++ t :: after) := by
    intro phase same
    rw [tally_middle, tally_middle, goto_pc, goto_commit, same]
  have waitings := tallies _ waiting
  have holdings := tallies _ holding
  have freeings := tallies _ freeing
  have freeds := tallies _ freed
  constructor
  · rw [waitings, holdings, freeings, freeds]
    exact inv.phase
  · rw [freeings, freeds, diolist]
    exact inv.listed
  · rw [holdings, freeings, freeds, happened (.emptied _) (by simp)]
    exact inv.emptied
  · rw [freeings, freeds, happened (.removed _) (by simp)]
    exact inv.removed
  · rw [freeds, happened (.released _) (by simp)]
    exact inv.released
  · intro none
    rw [freeds] at none
    obtain ⟨dio, list, found, held, sorted, perm⟩ := inv.blocks none
    obtain ⟨value, changed⟩ := dios dio found
    exact ⟨_, list, changed, held, sorted, covers ▸ perm⟩

theorem commitLBList_eq {addr : Nat} {dio : DMSIO} {list : LBList}
    (who slbid : Nat) (nrLBIDs : Int) (found : r.dios addr = some dio) (held : dio.lbList = some list) :
    r.commitLBList who addr slbid nrLBIDs =
      let stored : Request := { r with
        dios := Function.update r.dios addr
          (some { dio with lbList := some (keptBlocks list slbid nrLBIDs) }) }
      if (keptBlocks list slbid nrLBIDs).blocks = [] then some (stored.emit who (.emptied addr), 1)
      else some (stored, 0) := by
  by_cases empty : (commitLBListByRange list.blocks slbid nrLBIDs).1 = [] <;>
    simp [Request.commitLBList, found, held, keptBlocks, empty, truth]

theorem waitingCommits_goto {pc : PC} (left : pc.waiting = false) :
    waitingCommits (before ++ t.goto pc :: after) = waitingCommits (before ++ after) := by
  simp [waitingCommits_append, waitingCommits_cons, left]

theorem DIOInv.commit_kept (inv : DIOInv t.commit.dio r (before ++ t :: after))
    (nonempty : ∀ other ∈ before ++ t :: after, 0 < other.commit.nrLBIDs)
    (here : t.pc = .commitLBList) :
    ∃ dio list, r.dios t.commit.dio = some dio ∧ dio.lbList = some list ∧
      let kept := keptBlocks list t.commit.slbid t.commit.nrLBIDs
      Sorted64 kept.blocks ∧
        kept.lbids.Perm (Commit.covered t.commit.dio (waitingCommits (before ++ after))) ∧
        (kept.blocks = [] ↔ tally t.commit.dio PC.waiting (before ++ after) = 0) := by
  obtain ⟨dio, list, found, held, sorted, perm⟩ := inv.found (by rw [here]; rfl)
    (by rw [here]; exact .inl rfl)
  have split : Commit.covered t.commit.dio (waitingCommits (before ++ t :: after)) =
      Commit.covered t.commit.dio (waitingCommits before) ++ t.commit.range ++
        Commit.covered t.commit.dio (waitingCommits after) := by
    rw [waitingCommits_append, waitingCommits_cons, here, if_pos (by rfl), Commit.covered_append,
      Commit.covered_cons_self, List.append_assoc]
  rw [split] at perm
  obtain ⟨keptSorted, keptPerm⟩ := commit_perm sorted (nonempty t (by simp)) perm
  rw [← Commit.covered_append, ← waitingCommits_append] at keptPerm
  have others : ∀ other ∈ before ++ after, 0 < other.commit.nrLBIDs := by
    intro other member
    exact nonempty other ((List.Sublist.refl before).append (List.sublist_cons_self t after)
      |>.subset member)
  refine ⟨dio, list, found, held, keptSorted, keptPerm, ?_⟩
  rw [← covered_waitingCommits_eq_nil_iff others]
  constructor
  · intro empty
    rw [show (commitLBListByRange list.blocks t.commit.slbid t.commit.nrLBIDs).1 = [] from empty]
      at keptPerm
    exact keptPerm.nil_eq.symm
  · intro none
    rw [none] at keptPerm
    exact List.map_eq_nil_iff.mp keptPerm.eq_nil

/-- The range of a commit leaves the list of its DIO.  The commit that leaves it empty, which it
does when no other range is to come, completes the DIO. -/
theorem DIOInv.commit_step (inv : DIOInv t.commit.dio r (before ++ t :: after))
    (nonempty : ∀ other ∈ before ++ t :: after, 0 < other.commit.nrLBIDs)
    (here : t.pc = .commitLBList) (taken : next r t = some (r', t')) :
    DIOInv t.commit.dio r' (before ++ t' :: after) ∧ t'.pc ≠ .fault := by
  obtain ⟨dio, list, found, held, keptSorted, keptPerm, noneLeft⟩ := inv.commit_kept nonempty here
  have moved := commitLBList_eq t.id t.commit.slbid t.commit.nrLBIDs found held
  obtain ⟨phase, listed, emptied, removed, released, -⟩ := inv
  simp only [tally_middle, here, PC.waiting, PC.holding, PC.freeing, PC.freed, true_and, if_true,
    Bool.false_eq_true, if_false, Nat.add_zero] at phase listed emptied removed released
  by_cases empty : (keptBlocks list t.commit.slbid t.commit.nrLBIDs).blocks = []
  · have last := noneLeft.mp empty
    rw [if_pos empty] at moved
    simp only [next, here, moved, if_true, Option.some.injEq, Prod.mk.injEq] at taken
    obtain ⟨rfl, rfl⟩ := taken
    refine ⟨?_, by simp⟩
    constructor <;>
      simp only [tally_middle, goto_pc, goto_commit, PC.waiting, PC.holding, PC.freeing, PC.freed,
        true_and, if_true, Bool.false_eq_true, if_false, Nat.add_zero, Request.happened_emit]
    · omega
    · simpa [Request.emit] using listed
    · simp [Request.happened] at emptied ⊢
      omega
    · simp [Request.happened] at removed ⊢
      omega
    · simp [Request.happened] at released ⊢
      omega
    · intro none
      refine ⟨_, _, Function.update_self .., rfl, keptSorted, ?_⟩
      rw [waitingCommits_goto rfl]
      exact keptPerm
  · have more := mt noneLeft.mpr empty
    rw [if_neg empty] at moved
    simp only [next, here, moved, zero_ne_one, if_false, Option.some.injEq, Prod.mk.injEq] at taken
    obtain ⟨rfl, rfl⟩ := taken
    refine ⟨?_, by simp⟩
    constructor <;>
      simp only [tally_middle, goto_pc, goto_commit, PC.waiting, PC.holding, PC.freeing, PC.freed,
        zero_ne_one, decide_false, Bool.false_eq_true, and_false, if_false, Nat.add_zero]
    · omega
    · simpa using listed
    · simp [Request.happened] at emptied ⊢
      omega
    · simp [Request.happened] at removed ⊢
      omega
    · simp [Request.happened] at released ⊢
      omega
    · intro none
      refine ⟨_, _, Function.update_self .., rfl, keptSorted, ?_⟩
      rw [waitingCommits_goto rfl]
      exact keptPerm

/-- The thread that emptied its DIO finds it on the list and takes it off. -/
theorem DIOInv.remove_step (inv : DIOInv t.commit.dio r (before ++ t :: after))
    (here : t.pc = .remove) (taken : next r t = some (r', t')) :
    DIOInv t.commit.dio r' (before ++ t' :: after) ∧ t.commit.dio ∈ r.diolist ∧
      r' = ({ r with diolist := r.diolist.erase t.commit.dio } : Request).emit t.id
        (.removed t.commit.dio) ∧
      t' = t.goto (.release (r.diolist.erase t.commit.dio).isEmpty) := by
  obtain ⟨phase, listed, emptied, removed, released, blocks⟩ := inv
  simp only [tally_middle, here, PC.waiting, PC.holding, PC.freeing, PC.freed, true_and, if_true,
    Bool.false_eq_true, if_false, Nat.add_zero] at phase listed emptied removed released blocks
  have listedOnce : r.diolist.count t.commit.dio = 1 := by omega
  have member : t.commit.dio ∈ r.diolist := by
    apply List.count_pos_iff.mp
    omega
  simp only [next, here, Request.removeDIOFromIORequest, member, if_true, Option.some.injEq,
    Prod.mk.injEq] at taken
  obtain ⟨rfl, rfl⟩ := taken
  refine ⟨?_, member, rfl, rfl⟩
  constructor <;>
    simp only [tally_middle, goto_pc, goto_commit, PC.waiting, PC.holding, PC.freeing, PC.freed,
      true_and, if_true, Bool.false_eq_true, if_false, Nat.add_zero, Request.happened_emit]
  · omega
  · simp only [Request.emit, List.count_erase_self]
    omega
  · simp [Request.happened] at emptied ⊢
    omega
  · simp [Request.happened] at removed ⊢
    omega
  · simp [Request.happened] at released ⊢
    omega
  · intro none
    have waits : waitingCommits (before ++ t.goto
        (.release (r.diolist.erase t.commit.dio).isEmpty) :: after) =
        waitingCommits (before ++ t :: after) := by
      simp [waitingCommits_append, waitingCommits_cons, PC.waiting, here]
    rw [waits]
    exact blocks none

/-- The thread that took its DIO off the list finds it allocated and releases it. -/
theorem DIOInv.release_step (inv : DIOInv t.commit.dio r (before ++ t :: after)) {empty : Bool}
    (here : t.pc = .release empty) (taken : next r t = some (r', t')) :
    DIOInv t.commit.dio r' (before ++ t' :: after) ∧
      t' = t.goto (if empty then .endRequest else .finished 1 0) ∧ r'.diolist = r.diolist ∧
      r'.log = r.log ++ [(t.id, .released t.commit.dio)] := by
  obtain ⟨dio, list, found, -⟩ := inv.found (by rw [here]; rfl) (by rw [here]; exact .inr (.inr rfl))
  simp only [next, here, Request.release, found, Option.map_some, Option.some.injEq,
    Prod.mk.injEq] at taken
  obtain ⟨rfl, rfl⟩ := taken
  refine ⟨?_, rfl, rfl, rfl⟩
  have later : (if empty then PC.endRequest else .finished 1 0).waiting = false ∧
      (if empty then PC.endRequest else .finished 1 0).holding = false ∧
      (if empty then PC.endRequest else .finished 1 0).freeing = false ∧
      (if empty then PC.endRequest else .finished 1 0).freed = true := by
    cases empty <;> decide
  obtain ⟨phase, listed, emptied, removed, released, -⟩ := inv
  simp only [tally_middle, here, PC.waiting, PC.holding, PC.freeing, PC.freed, true_and, if_true,
    Bool.false_eq_true, if_false, Nat.add_zero] at phase listed emptied removed released
  constructor <;>
    simp only [tally_middle, goto_pc, goto_commit, later, true_and, if_true, Bool.false_eq_true,
      if_false, Nat.add_zero, Request.happened_emit]
  · omega
  · simp only [Request.emit]
    omega
  · simp [Request.happened] at emptied ⊢
    omega
  · simp [Request.happened] at removed ⊢
    omega
  · simp [Request.happened] at released ⊢
    omega
  · intro none
    omega

/-- A step of a thread keeps the invariant of its DIO and meets no released DIO. -/
theorem DIOInv.own_step (inv : DIOInv t.commit.dio r (before ++ t :: after))
    (nonempty : ∀ other ∈ before ++ t :: after, 0 < other.commit.nrLBIDs)
    (taken : next r t = some (r', t')) :
    DIOInv t.commit.dio r' (before ++ t' :: after) ∧ t'.pc ≠ .fault := by
  cases here : t.pc with
  | setDIOResult =>
      obtain ⟨dio, list, found, -⟩ := inv.found (by rw [here]; rfl) (by rw [here]; exact .inl rfl)
      simp only [next, here, Request.setDIOResult, found, Option.map_some, Option.some.injEq,
        Prod.mk.injEq] at taken
      obtain ⟨rfl, rfl⟩ := taken
      refine ⟨?_, by simp⟩
      apply inv.same_phase <;> try rw [here]; rfl
      · rfl
      · intro event _
        rfl
      · intro stored equality
        rw [found] at equality
        cases equality
        exact ⟨_, Function.update_self ..⟩
  | commitLBList => exact inv.commit_step nonempty here taken
  | readDIOResult =>
      obtain ⟨dio, list, found, -⟩ :=
        inv.found (by rw [here]; rfl) (by rw [here]; exact .inr (.inl rfl))
      simp only [next, here, Request.readDIOResult, found, Option.map_some, Option.some.injEq,
        Prod.mk.injEq] at taken
      obtain ⟨rfl, rfl⟩ := taken
      refine ⟨?_, by simp⟩
      apply inv.same_phase <;> try rw [here]; rfl
      · rfl
      · intro event _
        rfl
      · intro stored equality
        exact ⟨stored.result, equality⟩
  | setIORResult result =>
      obtain ⟨dio, list, found, -⟩ :=
        inv.found (by rw [here]; rfl) (by rw [here]; exact .inr (.inl rfl))
      simp only [next, here, Request.setIORResult, found, Option.map_some, Option.some.injEq,
        Prod.mk.injEq] at taken
      obtain ⟨rfl, rfl⟩ := taken
      refine ⟨?_, by simp⟩
      apply inv.same_phase <;> try rw [here]; rfl
      · rfl
      · intro event _
        rfl
      · intro stored equality
        exact ⟨stored.result, equality⟩
  | remove =>
      obtain ⟨kept, -, -, rfl⟩ := inv.remove_step here taken
      exact ⟨kept, by simp⟩
  | release empty =>
      obtain ⟨kept, rfl, -⟩ := inv.release_step here taken
      exact ⟨kept, by cases empty <;> simp⟩
  | endRequest =>
      simp only [next, here, Option.some.injEq, Prod.mk.injEq] at taken
      obtain ⟨rfl, rfl⟩ := taken
      refine ⟨?_, by simp⟩
      apply inv.same_phase <;> try rw [here]; rfl
      · rfl
      · intro event notEnded
        simp [Request.endRequest, Ne.symm (notEnded _)]
      · intro stored equality
        exact ⟨stored.result, equality⟩
  | finished empty retcode => simp [next, here] at taken
  | fault => simp [next, here] at taken

end OwnStep

end Invariant

end DmsBlkdev
