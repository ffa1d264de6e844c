import DmsBlkdev.DIO.Basic
import DmsBlkdev.Lib.Atomic

/-!
# Committing blocks to a DIO and a DIO to its request

A commit of a block range offers its ack code to the result cell of the DIO
and removes the range from the block list.  The commit that empties the list
offers the result of the DIO to the request, takes the DIO off the list of the
request and releases it; if that empties the list of the request, it ends the
kernel request.  Every access to a DIO that has been released yields nothing.
-/

namespace DmsBlkdev

open Lib.Atomic

inductive Event where
  | emptied (dio : Nat)
  | removed (dio : Nat)
  | released (dio : Nat)
  | ended (result : Int)
  deriving DecidableEq, Repr

/-- An IO request being completed: the DIOs that have not been released, the DIO list, the result
cell, and who did what so far. -/
structure Request where
  dios : Nat → Option DMSIO
  diolist : List Nat
  result : Int
  log : List (Nat × Event)

namespace Request

def emit (who : Nat) (event : Event) (r : Request) : Request :=
  { r with log := r.log ++ [(who, event)] }

/-- `atomic_cmpxchg(&dio->result, true, result)`. -/
def setDIOResult (addr : Nat) (result : Int) (r : Request) : Option Request :=
  (r.dios addr).map fun dio =>
    { r with
      dios := Function.update r.dios addr (some { dio with result := cmpxchg 1 result dio.result }) }

/-- `Commit_LB_List_by_Range` on the list of a DIO, one critical section. -/
def commitLBList (who addr slbid : Nat) (nrLBIDs : Int) (r : Request) : Option (Request × Int) :=
  (r.dios addr).map fun dio =>
    match dio.lbList with
    | none => (r, dmsFail)
    | some list =>
        let kept := (commitLBListByRange list.blocks slbid nrLBIDs).1
        let list := { list with blocks := kept }
        let r := { r with dios := Function.update r.dios addr (some { dio with lbList := some list }) }
        (if kept = [] then r.emit who (.emptied addr) else r, truth kept.isEmpty)

/-- `atomic_read(&dio->result)`. -/
def readDIOResult (addr : Nat) (r : Request) : Option Int := (r.dios addr).map DMSIO.result

/-- `atomic_cmpxchg(&ior->result, true, result)`, with the request taken from `dio->io_req`. -/
def setIORResult (addr : Nat) (result : Int) (r : Request) : Option Request :=
  (r.dios addr).map fun _ => { r with result := cmpxchg 1 result r.result }

/-- `Remove_DIO_from_IO_Reqeust`, one critical section: whether the DIO was found, and whether the
list is empty afterwards. -/
def removeDIOFromIORequest (who addr : Nat) (r : Request) : Request × Bool × Bool :=
  let left := r.diolist.erase addr
  if addr ∈ r.diolist then
    (({ r with diolist := left } : Request).emit who (.removed addr), true, left.isEmpty)
  else (r, false, left.isEmpty)

/-- `Release_DIO`. -/
def release (who addr : Nat) (r : Request) : Option Request :=
  (r.dios addr).map fun _ =>
    ({ r with dios := Function.update r.dios addr none } : Request).emit who (.released addr)

/-- `DMS_End_Request_Handler` with the result of the request. -/
def endRequest (who : Nat) (r : Request) : Request := r.emit who (.ended r.result)

/-- `Remove_and_Release_DIO_from_IO_Reqeust`. -/
def removeAndReleaseDIOFromIORequest (who addr : Nat) (r : Request) : Option (Request × Int) :=
  match r.removeDIOFromIORequest who addr with
  | (r, true, empty) => (r.release who addr).map fun r => (r, truth empty)
  | (r, false, _) => some (r, dmsFail)

/-- `Commit_DIO_to_IO_Request`; its return value is one when it ended the kernel request. -/
def commitDIOToIORequest (who addr : Nat) (result : Int) (r : Request) :
    Option (Request × Int) := do
  let r ← r.setIORResult addr result
  let (r, empty) ← r.removeAndReleaseDIOFromIORequest who addr
  return (if empty = 1 then r.endRequest who else r, empty)

/-- `Commit_LB_to_DMS_IO`: the request afterwards and the emptiness of the block list. -/
def commitLBToDMSIO (who addr slbid : Nat) (nrLBIDs result : Int) (r : Request) :
    Option (Request × Int) := do
  let r ← r.setDIOResult addr result
  let (r, empty) ← r.commitLBList who addr slbid nrLBIDs
  if empty = 1 then
    let value ← r.readDIOResult addr
    let (r, _) ← r.commitDIOToIORequest who addr value
    return (r, empty)
  else return (r, empty)

end Request

/-- The arguments of one call of `Commit_LB_to_DMS_IO`. -/
structure Commit where
  dio : Nat
  slbid : Nat
  nrLBIDs : Nat
  result : Int
  deriving DecidableEq, Repr

namespace Commit

def range (commit : Commit) : List Nat := List.range' commit.slbid commit.nrLBIDs

def covered (addr : Nat) (commits : List Commit) : List Nat :=
  (commits.filter fun commit => commit.dio = addr).flatMap range

@[simp] theorem covered_nil (addr : Nat) : covered addr [] = [] := rfl

theorem covered_cons_self (commit : Commit) (commits : List Commit) :
    covered commit.dio (commit :: commits) = commit.range ++ covered commit.dio commits := by
  simp [covered]

theorem covered_cons_of_ne {commit : Commit} {addr : Nat} (different : commit.dio ≠ addr)
    (commits : List Commit) : covered addr (commit :: commits) = covered addr commits := by
  simp [covered, different]

theorem covered_append (addr : Nat) (first second : List Commit) :
    covered addr (first ++ second) = covered addr first ++ covered addr second := by
  simp [covered]

theorem mem_dio_of_covered_ne_nil {addr : Nat} {commits : List Commit}
    (covers : covered addr commits ≠ []) : addr ∈ commits.map Commit.dio := by
  by_contra absent
  apply covers
  have none : (commits.filter fun commit => commit.dio = addr) = [] := by
    apply List.filter_eq_nil_iff.mpr
    intro commit member equality
    exact absent (List.mem_map.mpr ⟨commit, member, of_decide_eq_true equality⟩)
  rw [covered, none, List.flatMap_nil]

theorem covered_eq_nil_iff {addr : Nat} {commits : List Commit}
    (nonempty : ∀ commit ∈ commits, 0 < commit.nrLBIDs) :
    covered addr commits = [] ↔ addr ∉ commits.map Commit.dio := by
  constructor
  · intro empty member
    obtain ⟨commit, inCommits, rfl⟩ := List.mem_map.mp member
    have inside : commit.slbid ∈ covered commit.dio commits := by
      apply List.mem_flatMap.mpr
      refine ⟨commit, by simpa using inCommits, ?_⟩
      rw [Commit.range, List.mem_range'_1]
      exact ⟨Nat.le_refl _, Nat.lt_add_of_pos_right (nonempty commit inCommits)⟩
    simp [empty] at inside
  · intro absent
    by_contra covers
    exact absent (mem_dio_of_covered_ne_nil covers)

end Commit

section BlockList

structure Sorted64 (blocks : List LBMD) : Prop where
  ascending : Ascending blocks
  bounded : ∀ block ∈ blocks, block.LBID < 2 ^ 64

theorem commit_perm {blocks : List LBMD} (sorted : Sorted64 blocks) {slbid nr : Nat}
    (nonempty : 0 < nr) {before after : List Nat}
    (held : (blocks.map LBMD.LBID).Perm (before ++ List.range' slbid nr ++ after)) :
    Sorted64 (commitLBListByRange blocks slbid nr).1 ∧
      ((commitLBListByRange blocks slbid nr).1.map LBMD.LBID).Perm (before ++ after) := by
  have sublist := commitLBListByRange_sublist blocks slbid nr
  have inRange : ∀ lbid, slbid ≤ lbid → lbid < slbid + nr → lbid ∈ blocks.map LBMD.LBID := by
    intro lbid lower upper
    rw [held.mem_iff]
    simp [List.mem_range'_1, lower, upper]
  have small : slbid + nr ≤ 2 ^ 64 := by
    obtain ⟨block, member, last⟩ :=
      List.mem_map.mp (inRange (slbid + (nr - 1)) (by omega) (by omega))
    have bound := sorted.bounded block member
    omega
  refine ⟨⟨sorted.ascending.sublist (sublist.map LBMD.LBID), fun block member =>
    sorted.bounded block (sublist.subset member)⟩, ?_⟩
  have distinct : (before ++ List.range' slbid nr ++ after).Nodup :=
    held.nodup_iff.mp (sorted.ascending.imp Nat.ne_of_lt)
  have outside : ∀ lbid ∈ before ++ after, lbid < slbid ∨ slbid + nr ≤ lbid := by
    intro lbid member
    by_contra inside
    have again : lbid ∈ List.range' slbid nr := List.mem_range'_1.mpr (by omega)
    rw [List.append_assoc] at distinct
    rcases List.mem_append.mp member with early | late
    · exact List.disjoint_of_nodup_append distinct early (List.mem_append_left _ again)
    · exact List.disjoint_of_nodup_append (List.nodup_append.mp distinct).2.1 again late
  let stays : Nat → Bool := fun lbid => decide (lbid < slbid ∨ slbid + nr ≤ lbid)
  have keepAll : ∀ list : List Nat, (∀ lbid ∈ list, lbid ∈ before ++ after) →
      list.filter stays = list := fun list among =>
    List.filter_eq_self.mpr fun lbid member => decide_eq_true (outside lbid (among lbid member))
  have dropAll : (List.range' slbid nr).filter stays = [] := by
    apply List.filter_eq_nil_iff.mpr
    intro lbid member
    rw [List.mem_range'_1] at member
    simp only [stays, decide_eq_true_eq]
    omega
  have filtered := held.filter stays
  rw [List.filter_append, List.filter_append, dropAll, List.append_nil,
    keepAll before fun _ => List.mem_append_left _,
    keepAll after fun _ => List.mem_append_right _, List.filter_map] at filtered
  rwa [commitLBListByRange_kept small nonempty sorted.ascending inRange]

/-- A request before any commit, and commits that tile the blocks of its DIOs. -/
structure InFlight (r : Request) (commits : List Commit) : Prop where
  result : r.result = 1
  log : r.log = []
  inhabited : r.diolist ≠ []
  nodup : r.diolist.Nodup
  ranges : ∀ commit ∈ commits, commit.dio ∈ r.diolist ∧ 0 < commit.nrLBIDs
  dios : ∀ addr ∈ r.diolist, ∃ dio list, r.dios addr = some dio ∧ dio.result = 1 ∧
    dio.lbList = some list ∧ list.blocks ≠ [] ∧ Sorted64 list.blocks ∧
    list.lbids.Perm (Commit.covered addr commits)

end BlockList

section Call

variable {r : Request} {dio : DMSIO} {list : LBList} {addr : Nat}

def keptBlocks (list : LBList) (slbid : Nat) (nrLBIDs : Int) : LBList :=
  { list with blocks := (commitLBListByRange list.blocks slbid nrLBIDs).1 }

/-- A commit that leaves blocks on the list changes only its DIO. -/
theorem commitLBToDMSIO_left (who slbid : Nat) (nrLBIDs result : Int)
    (found : r.dios addr = some dio) (held : dio.lbList = some list)
    (left : (keptBlocks list slbid nrLBIDs).blocks ≠ []) :
    r.commitLBToDMSIO who addr slbid nrLBIDs result =
      some ({ r with dios := Function.update r.dios addr (some { dio with
        result := cmpxchg 1 result dio.result
        lbList := some (keptBlocks list slbid nrLBIDs) }) }, 0) := by
  have some : (commitLBListByRange list.blocks slbid nrLBIDs).1 ≠ [] := left
  simp [Request.commitLBToDMSIO, Request.setDIOResult, Request.commitLBList, found, held, some,
    keptBlocks, truth]

def afterLastCommit (who addr : Nat) (value : Int) (r : Request) : Request :=
  let r : Request := { r with
    dios := Function.update r.dios addr none
    diolist := r.diolist.erase addr
    result := cmpxchg 1 value r.result
    log := r.log ++ [(who, .emptied addr), (who, .removed addr), (who, .released addr)] }
  if r.diolist = [] then r.endRequest who else r

section Completed

variable (who addr : Nat) (value : Int) (r : Request)

@[simp] theorem afterLastCommit_dios :
    (afterLastCommit who addr value r).dios = Function.update r.dios addr none := by
  simp only [afterLastCommit]
  split <;> rfl

@[simp] theorem afterLastCommit_diolist :
    (afterLastCommit who addr value r).diolist = r.diolist.erase addr := by
  simp only [afterLastCommit]
  split <;> rfl

@[simp] theorem afterLastCommit_result :
    (afterLastCommit who addr value r).result = cmpxchg 1 value r.result := by
  simp only [afterLastCommit]
  split <;> rfl

theorem afterLastCommit_log :
    (afterLastCommit who addr value r).log =
      r.log ++ [(who, .emptied addr), (who, .removed addr), (who, .released addr)] ++
        if r.diolist.erase addr = [] then [(who, .ended (cmpxchg 1 value r.result))] else [] := by
  simp only [afterLastCommit]
  split <;> simp [Request.endRequest, Request.emit]

end Completed

/-- The commit that empties the list completes its DIO. -/
theorem commitLBToDMSIO_emptied (who slbid : Nat) (nrLBIDs result : Int)
    (found : r.dios addr = some dio) (held : dio.lbList = some list) (listed : addr ∈ r.diolist)
    (empty : (keptBlocks list slbid nrLBIDs).blocks = []) :
    r.commitLBToDMSIO who addr slbid nrLBIDs result =
      some (afterLastCommit who addr (cmpxchg 1 result dio.result) r, 1) := by
  have none : (commitLBListByRange list.blocks slbid nrLBIDs).1 = [] := empty
  by_cases last : r.diolist.erase addr = []
  · simp [Request.commitLBToDMSIO, Request.setDIOResult, Request.commitLBList, found, held, none,
      truth, Request.emit, Request.readDIOResult, Request.commitDIOToIORequest,
      Request.setIORResult, Request.removeAndReleaseDIOFromIORequest, Request.removeDIOFromIORequest, listed,
      Request.release, afterLastCommit, last, Request.endRequest]
  · simp [Request.commitLBToDMSIO, Request.setDIOResult, Request.commitLBList, found, held, none,
      truth, Request.emit, Request.readDIOResult, Request.commitDIOToIORequest,
      Request.setIORResult, Request.removeAndReleaseDIOFromIORequest, Request.removeDIOFromIORequest, listed,
      Request.release, afterLastCommit, last]

/-- On a DIO that has not been released a commit returns; either it leaves the DIO where it is, or
it completes the DIO, and each thing happens at most once. -/
theorem commitLBToDMSIO_cases (who slbid : Nat) (nrLBIDs result : Int)
    (found : r.dios addr = some dio) :
    ∃ r' empty, r.commitLBToDMSIO who addr slbid nrLBIDs result = some (r', empty) ∧
      ((empty ≠ 1 ∧ r'.log = r.log ∧ ∃ dio', r'.dios addr = some dio') ∨
        (empty = 1 ∧ ∃ events : List Event, r'.log = r.log ++ events.map (who, ·) ∧
          .emptied addr ∈ events ∧ events.Nodup)) := by
  cases held : dio.lbList with
  | none =>
      let offered : DMSIO := { dio with result := cmpxchg 1 result dio.result }
      refine ⟨{ r with dios := Function.update r.dios addr (some offered) }, dmsFail, ?_,
        .inl ⟨by decide, rfl, _, Function.update_self ..⟩⟩
      simp [Request.commitLBToDMSIO, Request.setDIOResult, Request.commitLBList, found, held,
        dmsFail, offered]
  | some list =>
      by_cases empty : (keptBlocks list slbid nrLBIDs).blocks = []
      · by_cases listed : addr ∈ r.diolist
        · refine ⟨_, 1, commitLBToDMSIO_emptied who slbid nrLBIDs result found held listed empty,
            .inr ⟨rfl, ?_⟩⟩
          rw [afterLastCommit_log]
          by_cases last : r.diolist.erase addr = []
          · refine ⟨[.emptied addr, .removed addr, .released addr,
              .ended (cmpxchg 1 (cmpxchg 1 result dio.result) r.result)], ?_, by simp, by simp⟩
            simp [last]
          · exact ⟨[.emptied addr, .removed addr, .released addr], by simp [last], by simp,
              by simp⟩
        · have none : (commitLBListByRange list.blocks slbid nrLBIDs).1 = [] := empty
          refine ⟨_, 1, by
            simp [Request.commitLBToDMSIO, Request.setDIOResult, Request.commitLBList, found, held,
              none, truth, Request.emit, Request.readDIOResult, Request.commitDIOToIORequest,
              Request.setIORResult, Request.removeAndReleaseDIOFromIORequest, Request.removeDIOFromIORequest,
              listed, dmsFail]
            rfl, .inr ⟨rfl, [.emptied addr], rfl, by simp, by simp⟩⟩
      · exact ⟨_, 0, commitLBToDMSIO_left who slbid nrLBIDs result found held empty,
          .inl ⟨by decide, rfl, _, Function.update_self ..⟩⟩

end Call

end DmsBlkdev
