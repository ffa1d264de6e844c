import DmsBlkdev.DList.Ring

/-!
# The queue of requests to commit to the namenode

A volume keeps its requests on a `DList`.  `Remove_from_Commit_NN_Queue` hands
the address of a request to `Remove_from_DList_Head`, which takes it for the
place where to write whether the list is empty.
-/

namespace DmsBlkdev

open Lib Lib.Run

/-- `struct IO_Request` where it is stored: the first field, and the others. -/
structure QueuedIORequest (Others : Type*) where
  rid : BitVec 64
  others : Others
  deriving DecidableEq, Repr

/-- `*empty = value` where `empty` is the address of a request: an int over the lower half of the
first field. -/
def QueuedIORequest.writeInt {Others : Type*} (ior : QueuedIORequest Others) (value : BitVec 32) :
    QueuedIORequest Others :=
  { ior with rid := ior.rid.extractLsb' 32 32 ++ value }

/-- `cmt2nn_q` of a volume, whose user data are addresses of requests, and the requests there. -/
structure CommitNNQueue (Others : Type*) where
  cmt2nnQ : DListHeap Nat
  requests : Nat → QueuedIORequest Others

namespace CommitNNQueue

variable {Others : Type*}

/-- `Add_to_Commit_NN_Queue`, when the allocator hands out that address for the node. -/
def addToCommitNNQueue (volume : CommitNNQueue Others) (dlistDbg : Bool) (node ior : Nat) :
    Option (Int × CommitNNQueue Others) :=
  (volume.cmt2nnQ.insertUserDataToDList dlistDbg node ior .tail).map fun (retcode, heap) =>
    (retcode, { volume with cmt2nnQ := heap })

/-- What `list_empty` returns. -/
def listEmpty (heap : DListHeap Nat) : BitVec 32 :=
  if (heap.links heap.head).next = heap.head then 1 else 0

/-- `Remove_from_Commit_NN_Queue`. -/
def removeFromCommitNNQueue (volume : CommitNNQueue Others) (ior : Nat) :
    Option (CommitNNQueue Others) :=
  volume.cmt2nnQ.removeFromDListHead.map fun (_, heap) =>
    { cmt2nnQ := heap
      requests := Function.update volume.requests ior
        ((volume.requests ior).writeInt (listEmpty heap)) }

end CommitNNQueue

/-- A call.  An addition names the address for the node, and says whether the build searches for
duplicates. -/
inductive CommitCall where
  | add (dlistDbg : Bool) (node ior : Nat)
  | remove (ior : Nat)
  deriving DecidableEq, Repr

/-- The queue of a volume, and the requests that the calls have left queued if each does what it is
asked to. -/
structure CommitRun (Others : Type*) where
  volume : CommitNNQueue Others
  queued : List Nat

namespace CommitRun

variable {Others : Type*}

/-- The requests are distinct: one that is queued is not added again.  Nothing comes of an address
in use either. -/
def step (state : CommitRun Others) : CommitCall → Option (CommitRun Others)
  | .add dlistDbg node ior =>
      if (state.volume.cmt2nnQ.userData node).isNone ∧ node ≠ state.volume.cmt2nnQ.head ∧
          ior ∉ state.queued then
        (state.volume.addToCommitNNQueue dlistDbg node ior).map fun result =>
          ⟨result.2, state.queued ++ [ior]⟩
      else none
  | .remove ior => (state.volume.removeFromCommitNNQueue ior).map fun volume =>
      ⟨volume, state.queued.erase ior⟩

/-- The list holds the requests that should be queued, in their order, and no request has been
modified. -/
def AsAsked (requests : Nat → QueuedIORequest Others) (state : CommitRun Others) : Prop :=
  (∃ nodes, state.volume.cmt2nnQ.Holds nodes ∧ nodes.map Prod.snd = state.queued) ∧
    state.volume.requests = requests

/-- The request is the first of the queue, or the queue is empty; and what is written over it is
there already. -/
def RemovesFirst (state : CommitRun Others) : CommitCall → Prop
  | .add _ _ _ => True
  | .remove ior => (state.queued.head? = some ior ∨ state.queued = []) ∧
      (state.volume.requests ior).rid.extractLsb' 0 32 = if state.queued.tail = [] then 1 else 0

instance (state : CommitRun Others) : DecidablePred state.RemovesFirst
  | .add _ _ _ => .isTrue trivial
  | .remove ior => inferInstanceAs (Decidable
      ((state.queued.head? = some ior ∨ state.queued = []) ∧
        (state.volume.requests ior).rid.extractLsb' 0 32 =
          if state.queued.tail = [] then 1 else 0))

structure InOrder (requests : Nat → QueuedIORequest Others) (state : CommitRun Others) :
    Prop where
  distinct : state.queued.Nodup
  requests : state.volume.requests = requests
  stands : ∃ passed ahead, state.volume.cmt2nnQ.Stands passed ahead ∧
    (passed ++ ahead).map Prod.snd = state.queued

theorem InOrder.asAsked {requests : Nat → QueuedIORequest Others} {state : CommitRun Others}
    (inOrder : state.InOrder requests) : state.AsAsked requests := by
  obtain ⟨passed, ahead, stands, data⟩ := inOrder.stands
  exact ⟨⟨passed ++ ahead, stands.toHolds, data⟩, inOrder.requests⟩

theorem writeInt_eq_iff {ior : QueuedIORequest Others} {value : BitVec 32} :
    ior.writeInt value = ior ↔ ior.rid.extractLsb' 0 32 = value := by
  constructor
  · intro same
    have written := congrArg (fun ior => ior.rid.extractLsb' 0 32) same
    exact written.symm.trans BitVec.extractLsb'_append_eq_right
  · intro there
    have halves : ior.rid.extractLsb' 32 32 ++ value = ior.rid := by
      rw [← there]
      exact BitVec.extractLsb'_append_extractLsb'
    rw [QueuedIORequest.writeInt, halves]

section Step

variable {state after : CommitRun Others} {requests : Nat → QueuedIORequest Others} {ior : Nat}

theorem InOrder.add (inOrder : state.InOrder requests) {dlistDbg : Bool} {node : Nat}
    (taken : state.step (.add dlistDbg node ior) = some after) : after.InOrder requests := by
  obtain ⟨passed, ahead, stands, data⟩ := inOrder.stands
  rw [step] at taken
  split at taken
  · next allocates =>
      obtain ⟨free, apart, new⟩ := allocates
      have absent : ior ∉ (passed ++ ahead).map Prod.snd := data ▸ new
      obtain ⟨heap, inserted, passed', ahead', stands', order⟩ :=
        stands.insertUserDataToDList_tail dlistDbg (Option.isNone_iff_eq_none.mp free) apart absent
      rw [CommitNNQueue.addToCommitNNQueue, inserted] at taken
      cases taken
      refine ⟨?_, inOrder.requests, passed', ahead', stands', ?_⟩
      · exact List.nodup_append_comm.mp (List.nodup_cons.mpr ⟨new, inOrder.distinct⟩)
      · rw [order, List.map_append, data]
        rfl
  · cases taken

/-- A removal takes the first request out and writes over the one that it is asked to remove. -/
theorem InOrder.remove (inOrder : state.InOrder requests) (ior : Nat) :
    ∃ heap passed ahead, heap.Stands passed ahead ∧
      (passed ++ ahead).map Prod.snd = state.queued.tail ∧
      state.step (.remove ior) = some
        { volume := {
            cmt2nnQ := heap
            requests := Function.update requests ior
              ((requests ior).writeInt (if state.queued.tail = [] then 1 else 0)) }
          queued := state.queued.erase ior } := by
  obtain ⟨passed, ahead, stands, data⟩ := inOrder.stands
  obtain ⟨heap, removed, stands'⟩ := stands.removeFromDListHead
  have left : (passed.tail ++ if passed = [] then ahead.tail else ahead).map Prod.snd =
      state.queued.tail := by
    rw [← data]
    cases passed with
    | nil => exact List.map_tail
    | cons first rest => rfl
  have empty : CommitNNQueue.listEmpty heap = if state.queued.tail = [] then 1 else 0 := by
    rw [CommitNNQueue.listEmpty, if_congr stands'.next_eq_head_iff rfl rfl]
    exact if_congr (List.map_eq_nil_iff.symm.trans (by rw [left])) rfl rfl
  refine ⟨heap, _, _, stands', left, ?_⟩
  rw [step, CommitNNQueue.removeFromCommitNNQueue, removed, ← inOrder.requests, ← empty]
  rfl

/-- A call that meets the condition does what it is asked to. -/
theorem InOrder.step (inOrder : state.InOrder requests) {call : CommitCall}
    (first : state.RemovesFirst call) (taken : state.step call = some after) :
    after.InOrder requests := by
  cases call with
  | add dlistDbg node ior => exact inOrder.add taken
  | remove ior =>
      obtain ⟨asked, there⟩ := first
      obtain ⟨heap, passed, ahead, stands, data, done⟩ := inOrder.remove ior
      have erased : state.queued.erase ior = state.queued.tail := by
        obtain head | empty := asked
        · obtain ⟨rest, queued⟩ := List.head?_eq_some_iff.mp head
          rw [queued, List.erase_cons_head, List.tail_cons]
        · rw [empty]
          rfl
      have same : Function.update requests ior
          ((requests ior).writeInt (if state.queued.tail = [] then 1 else 0)) = requests := by
        rw [inOrder.requests] at there
        rw [writeInt_eq_iff.mpr there]
        exact Function.update_eq_self ior requests
      rw [done, same, erased] at taken
      cases taken
      exact ⟨inOrder.distinct.sublist (List.tail_sublist _), rfl, passed, ahead, stands, data⟩

/-- Any other call takes out another request, or modifies the one that it is asked to remove. -/
theorem InOrder.broken (inOrder : state.InOrder requests) {call : CommitCall}
    (other : ¬state.RemovesFirst call) :
    ∃ after, state.step call = some after ∧ ¬after.AsAsked requests := by
  cases call with
  | add dlistDbg node ior => exact absurd trivial other
  | remove ior =>
      obtain ⟨heap, passed, ahead, stands, data, done⟩ := inOrder.remove ior
      refine ⟨_, done, ?_⟩
      rintro ⟨⟨nodes, holds, asked⟩, same⟩
      apply other
      have left : state.queued.tail = state.queued.erase ior :=
        data.symm.trans ((stands.toHolds.userData_unique holds).trans asked)
      constructor
      · cases queued : state.queued with
        | nil => exact .inr rfl
        | cons first rest =>
            left
            by_contra apart
            have different : (first == ior) = false :=
              beq_false_of_ne fun same => apart (congrArg some same)
            rw [queued, List.erase_cons_tail (by rw [different]; exact Bool.false_ne_true),
              List.tail_cons] at left
            have distinct := inOrder.distinct
            rw [queued, left] at distinct
            exact (List.nodup_cons.mp distinct).1 List.mem_cons_self
      · rw [inOrder.requests]
        apply writeInt_eq_iff.mp
        exact (Function.update_self ior _ requests).symm.trans (congrFun same ior)

end Step

/-- In a run of calls on distinct requests the queue is what the calls ask for, and no request is
modified, if and only if every removal is asked for the first request, or for any one when the queue
is empty, and finds what it writes there. -/
theorem asAsked_always_iff {volume : CommitNNQueue Others} {passed ahead : List (Nat × Nat)}
    (stands : volume.cmt2nnQ.Stands passed ahead)
    (distinct : ((passed ++ ahead).map Prod.snd).Nodup) (calls : List CommitCall) :
    Always (AsAsked volume.requests) step ⟨volume, (passed ++ ahead).map Prod.snd⟩ calls ↔
      Guarded RemovesFirst step ⟨volume, (passed ++ ahead).map Prod.snd⟩ calls := by
  have base : InOrder volume.requests ⟨volume, (passed ++ ahead).map Prod.snd⟩ :=
    ⟨distinct, rfl, passed, ahead, stands, rfl⟩
  refine always_iff_guarded_of_broken ?_ ?_ ?_ base
  · exact fun before call after inOrder first taken => inOrder.step first taken
  · exact fun before call inOrder other => inOrder.broken other
  · exact fun state inOrder => inOrder.asAsked

/-- A volume whose queue has just been created; the requests have their addresses for `rid`. -/
def created : CommitNNQueue Unit where
  cmt2nnQ := DListHeap.init 0 fun _ => ⟨0, 0⟩
  requests ior := ⟨BitVec.ofNat 64 ior, ()⟩

theorem created_stands : created.cmt2nnQ.Stands [] [] := DListHeap.stands_init 0 _

/-- Two requests, removed in their order.  The lower half of the first `rid` is 0, that of the second
is 1. -/
theorem asAsked_created :
    Always (AsAsked created.requests) step ⟨created, []⟩
      [.add true 1 (2 ^ 32), .add true 2 1, .remove (2 ^ 32), .remove 1] :=
  (asAsked_always_iff created_stands List.nodup_nil _).mpr (by decide)

/-- Of two requests the second is to be removed: the first is taken out instead. -/
theorem second_not_removed :
    ¬Always (AsAsked created.requests) step ⟨created, []⟩
      [.add false 1 1, .add false 2 2, .remove 2] := by
  intro always
  obtain ⟨⟨nodes, holds, asked⟩, -⟩ := always _ [] _ (List.append_nil _).symm rfl
  obtain ⟨⟨addr, ior⟩, rfl, first⟩ := List.map_eq_singleton_iff.mp asked
  have linked := holds.userData (addr, ior) List.mem_cons_self
  have second : 2 = addr := holds.ring.next_head
  subst second
  exact absurd ((Option.some.inj linked).trans first) (by decide)

end CommitRun

end DmsBlkdev
