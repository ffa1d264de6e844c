import DmsBlkdev.UserDaemon.AttachFile
import DmsBlkdev.Lib.NullTerminated
import DmsBlkdev.Lib.Run

/-!
# The tail pointer of the attach list

The list is a chain of nodes behind a head node, and `list_last` is shared by
the functions that add to it and take from it.  They are given here on the
pointers; on the records of the chain they do what the functions on lists of
records do.
-/

namespace DmsBlkdev.UserDaemon

open Lib Lib.Run Lib.Wire Lib.Stdio

/-- The nodes that `malloc` has handed out, with the head, and the two pointers.  The loop of a
removal ends within `bound` rounds: as many as nodes have been added so far, and one more. -/
structure AttachHeap where
  next : Nat → Option Nat
  records : Nat → Option VolAttachInfo
  list : Nat
  listLast : Nat
  bound : Nat

namespace AttachHeap

/-- The list behind `initialize`; the head has the volume id -1 and no instance id of its own. -/
def start (next : Nat → Option Nat) (list : Nat) (instanceID : CString) : AttachHeap where
  next := Function.update next list none
  records := Function.update (fun _ => none) list (some ⟨-1, instanceID⟩)
  list := list
  listLast := list
  bound := 0

/-- A new node with the record becomes the next of `c` and the last. -/
def append (heap : AttachHeap) (c node : Nat) (record : VolAttachInfo) : AttachHeap :=
  { heap with
    next := Function.update (Function.update heap.next c (some node)) node none
    records := Function.update heap.records node (some record)
    listLast := node
    bound := heap.bound + 1 }

/-- `AddAttachToList`, when `malloc` hands out that node. -/
def addAttachToList (heap : AttachHeap) (node : Nat) (volid : BitVec 32) (instID : CString) :
    Nat × AttachHeap :=
  (node, heap.append heap.listLast node ⟨extended volid, instID⟩)

/-- `VolumeID == volid`, for a node in use. -/
def hasVolume (heap : AttachHeap) (volid : BitVec 32) (node : Nat) : Option Bool :=
  (heap.records node).map fun record => record.volumeID = extended volid

/-- Takes `tmp`, the next of `c`, out of the list. -/
def takeOut (heap : AttachHeap) (c tmp : Nat) : AttachHeap :=
  match heap.next tmp with
  | some behind =>
      { heap with next := Function.update (Function.update heap.next c (some behind)) tmp none }
  | none => { heap with next := Function.update heap.next c none, listLast := c }

/-- `RemoveAttachFromList`: the node that is taken out, or NULL. -/
def removeAttachFromList (heap : AttachHeap) (volid : BitVec 32) :
    Option (Option Nat × AttachHeap) :=
  (seekNext heap.next (heap.hasVolume volid) (heap.bound + 1) heap.list).map fun
    | none => (none, heap)
    | some (c, tmp) => (some tmp, heap.takeOut c tmp)

/-- The loop of `LoadAttachInfoFromFile`; `malloc` is called for the `count`-th time.  Nothing comes
of a node that is in use. -/
def loadLoop (malloc : Nat → Nat) (heap : AttachHeap) (c count : Nat) (volid : BitVec 32)
    (instID : CString) : Bytes → Option AttachHeap
  | [] => some heap
  | byte :: rest =>
      match scanLine (fgets 255 (byte :: rest)).1 volid instID with
      | none => none
      | some (volid, instID) =>
          if volid.toInt > -1 then
            let curr := malloc count
            if (heap.records curr).isNone then
              loadLoop malloc (heap.append c curr ⟨extended volid, instID⟩) curr (count + 1) volid
                instID (fgets 255 (byte :: rest)).2
            else none
          else loadLoop malloc heap c count volid instID (fgets 255 (byte :: rest)).2
termination_by file => file.length
decreasing_by all_goals exact fgets_length_lt 254 byte rest

/-- `LoadAttachInfoFromFile`: the return value and the list. -/
def loadAttachInfoFromFile (heap : AttachHeap) (malloc : Nat → Nat) (instID : CString)
    (readable writable : Bool) (file : Option Bytes) : Option (Int × AttachHeap) :=
  match if readable then file else none with
  | none => some (if writable then (1, heap) else (0, heap))
  | some text => (loadLoop malloc heap heap.list 0 (-1) instID text).map fun heap => (1, heap)

end AttachHeap

/-- A call, with what the allocator and the file system answer. -/
inductive AttachEvent where
  | load (malloc : Nat → Nat) (instID : CString) (readable writable : Bool) (file : Option Bytes)
  | add (node : Nat) (volid : BitVec 32) (instID : CString)
  | remove (volid : BitVec 32)

/-- What the call is to make of the entries: those of the file come first, an addition comes last,
and a removal takes the first entry with the volume id. -/
def AttachEvent.entries (entries : List VolAttachInfo) : AttachEvent → List VolAttachInfo
  | load _ instID readable _ file =>
      entries ++ (((if readable then file else none).bind (loadRecords (-1) instID)).getD [])
  | add _ volid instID => entries ++ [⟨extended volid, instID⟩]
  | remove volid => entries.eraseP fun record => record.volumeID = extended volid

namespace AttachHeap

/-- Nothing comes of a call that is given a node in use, or of a load into a list with entries. -/
def step (heap : AttachHeap) : AttachEvent → Option AttachHeap
  | .load malloc instID readable writable file =>
      if heap.next heap.list = none then
        (heap.loadAttachInfoFromFile malloc instID readable writable file).map Prod.snd
      else none
  | .add node volid instID =>
      if (heap.records node).isNone then some (heap.addAttachToList node volid instID).2 else none
  | .remove volid => (heap.removeAttachFromList volid).map Prod.snd

/-- `malloc` hands out nodes that are not in use, and a load finds the list empty and no word that
overflows `instID`. -/
def Grants (heap : AttachHeap) : AttachEvent → Prop
  | .load malloc instID readable _ file =>
      heap.next heap.list = none ∧ (∀ count, heap.records (malloc count) = none) ∧
        Function.Injective malloc ∧
        ∀ text ∈ if readable then file else none, (loadRecords (-1) instID text).isSome
  | .add node _ _ => heap.records node = none
  | .remove _ => True

/-- The pointers lead from the head through these nodes, and `list_last` is the last of them, or the
head. -/
structure Holds (heap : AttachHeap) (nodes : List (Nat × VolAttachInfo)) : Prop where
  leads : Leads heap.next heap.list (nodes.map Prod.fst)
  last : heap.listLast = (nodes.map Prod.fst).getLastD heap.list
  records : ∀ node ∈ nodes, heap.records node.1 = some node.2

def TailExact (heap : AttachHeap) (entries : List VolAttachInfo) : Prop :=
  ∃ nodes, heap.Holds nodes ∧ nodes.map Prod.snd = entries

structure InOrder (heap : AttachHeap) (nodes : List (Nat × VolAttachInfo)) : Prop extends
    heap.Holds nodes where
  head : (heap.records heap.list).isSome
  bounded : nodes.length ≤ heap.bound

variable {heap after : AttachHeap} {nodes : List (Nat × VolAttachInfo)} {volid : BitVec 32}

theorem start_inOrder (next : Nat → Option Nat) (list : Nat) (instanceID : CString) :
    (start next list instanceID).InOrder [] where
  leads := Function.update_self ..
  last := rfl
  records node member := absurd member List.not_mem_nil
  head := by simp [start]
  bounded := Nat.zero_le _

namespace InOrder

theorem fresh (inOrder : heap.InOrder nodes) {node : Nat} (free : heap.records node = none) :
    node ∉ heap.list :: nodes.map Prod.fst := by
  intro member
  rcases List.mem_cons.mp member with rfl | inList
  · have head := inOrder.head
    rw [free] at head
    cases head
  · obtain ⟨other, linked, rfl⟩ := List.mem_map.mp inList
    rw [inOrder.records other linked] at free
    cases free

/-- A node that is added behind `list_last` is the last of the list. -/
theorem append (inOrder : heap.InOrder nodes) {node : Nat} (free : heap.records node = none)
    (record : VolAttachInfo) :
    (heap.append heap.listLast node record).InOrder (nodes ++ [(node, record)]) where
  leads := by
    rw [List.map_append, List.map_singleton, inOrder.last]
    exact inOrder.leads.concat (inOrder.fresh free)
  last := by simp [AttachHeap.append]
  records other member := by
    rcases List.mem_append.mp member with linked | new
    · have apart : other.1 ≠ node := by
        rintro same
        exact inOrder.fresh free (same ▸ List.mem_cons_of_mem _ (List.mem_map_of_mem linked))
      exact (Function.update_of_ne apart _ _).trans (inOrder.records other linked)
    · rw [List.mem_singleton.mp new]
      exact Function.update_self ..
  head := by
    have apart : heap.list ≠ node := fun same => inOrder.fresh free (same ▸ List.mem_cons_self)
    have kept : (heap.append heap.listLast node record).records heap.list =
        heap.records heap.list := Function.update_of_ne apart _ _
    exact (congrArg Option.isSome kept).trans inOrder.head
  bounded := by
    rw [List.length_append]
    exact Nat.succ_le_succ inOrder.bounded

end InOrder

end AttachHeap

theorem removeAttachFromList_eq (volid : BitVec 32) (list : List VolAttachInfo) :
    removeAttachFromList volid list =
      (list.eraseP fun record => record.volumeID = extended volid,
        list.find? fun record => record.volumeID = extended volid) := by
  induction list with
  | nil => rfl
  | cons record rest inductionHypothesis =>
      by_cases same : record.volumeID = extended volid
      · simp [removeAttachFromList, same]
      · simp [removeAttachFromList, same, inductionHypothesis]

namespace AttachHeap

variable {heap after : AttachHeap} {nodes before behind : List (Nat × VolAttachInfo)}
  {node : Nat × VolAttachInfo} {volid : BitVec 32}

namespace InOrder

theorem hasVolume (inOrder : heap.InOrder nodes) (volid : BitVec 32) (member : node ∈ nodes) :
    heap.hasVolume volid node.1 = some (decide (node.2.volumeID = extended volid)) := by
  rw [AttachHeap.hasVolume, inOrder.records node member]
  rfl

/-- The node is taken out of the list, and `list_last` goes back to the node before it when it was
the last. -/
theorem takeOut (inOrder : heap.InOrder (before ++ node :: behind)) :
    (heap.takeOut ((before.map Prod.fst).getLastD heap.list) node.1).InOrder
      (before ++ behind) := by
  have leads := inOrder.leads
  have last := inOrder.last
  have records : ∀ other ∈ before ++ behind, heap.records other.1 = some other.2 := by
    intro other member
    apply inOrder.records
    simp only [List.mem_append, List.mem_cons] at member ⊢
    tauto
  have bounded : (before ++ behind).length ≤ heap.bound := by
    have bounded := inOrder.bounded
    simp only [List.length_append, List.length_cons] at bounded ⊢
    omega
  rw [List.map_append, List.map_cons] at leads last
  have removed := leads.remove
  rw [← List.map_append] at removed
  cases behind with
  | nil =>
      have ends : heap.next node.1 = none := leads.from_node
      rw [ends] at removed
      rw [AttachHeap.takeOut, ends]
      -- the next pointer of the node is NULL as it is
      have still : Function.update heap.next ((before.map Prod.fst).getLastD heap.list) none
          node.1 = none := by
        rw [Function.update_apply]
        split
        · rfl
        · exact ends
      rw [Function.update_eq_self_iff.mpr still.symm] at removed
      refine ⟨⟨removed, ?_, records⟩, inOrder.head, bounded⟩
      rw [List.append_nil]
  | cons second rest =>
      have onward : heap.next node.1 = some second.1 := leads.from_node.1
      rw [onward] at removed
      rw [AttachHeap.takeOut, onward]
      refine ⟨⟨removed, ?_, records⟩, inOrder.head, bounded⟩
      simpa [List.getLastD_eq_getLast?] using last

/-- A removal does on the nodes what it does on the records. -/
theorem removeAttachFromList (inOrder : heap.InOrder nodes) (volid : BitVec 32) :
    ∃ result after nodes', heap.removeAttachFromList volid = some (result, after) ∧
      after.InOrder nodes' ∧
      (nodes'.map Prod.snd, result.bind heap.records) =
        UserDaemon.removeAttachFromList volid (nodes.map Prod.snd) := by
  have failing : ∀ others ⊆ nodes, (∀ other ∈ others, ¬ other.2.volumeID = extended volid) →
      ∀ addr ∈ others.map Prod.fst, heap.hasVolume volid addr = some false := by
    intro others among failed addr member
    obtain ⟨other, linked, rfl⟩ := List.mem_map.mp member
    rw [inOrder.hasVolume volid (among linked), decide_eq_false (failed other linked)]
  have enough : nodes.length < heap.bound + 1 := Nat.lt_succ_of_le inOrder.bounded
  rw [removeAttachFromList_eq, List.eraseP_map, List.find?_map]
  cases located : nodes.find? ((fun record => decide (record.volumeID = extended volid)) ∘ Prod.snd)
    with
  | none =>
      have failed := List.find?_eq_none.mp located
      have walked := inOrder.leads.seekNext_absent
        (failing nodes (List.Subset.refl _) (by simpa using failed))
        (by rwa [List.length_map])
      refine ⟨none, heap, nodes, ?_, inOrder, ?_⟩
      · rw [AttachHeap.removeAttachFromList, walked]
        rfl
      · rw [List.eraseP_of_forall_not failed]
        rfl
  | some node =>
      obtain ⟨passed, before, behind, rfl, failed⟩ := List.find?_eq_some_iff_append.mp located
      have failed : ∀ other ∈ before, ¬ other.2.volumeID = extended volid := by simpa using failed
      have matched : heap.hasVolume volid node.1 = some true := by
        rw [inOrder.hasVolume volid (by simp)]
        exact congrArg some passed
      have leads := inOrder.leads
      rw [List.map_append, List.map_cons] at leads
      have short : (before.map Prod.fst).length < heap.bound + 1 := by
        rw [List.length_append] at enough
        rw [List.length_map]
        exact Nat.lt_of_le_of_lt (Nat.le_add_right _ _) enough
      have walked := leads.seekNext_found
        (failing before (List.subset_append_left _ _) failed) matched short
      have erased : (before ++ node :: behind).eraseP
          ((fun record => decide (record.volumeID = extended volid)) ∘ Prod.snd) =
          before ++ behind := by
        rw [List.eraseP_append_right _ (by simpa using failed), List.eraseP_cons_of_pos passed]
      refine ⟨some node.1, _, before ++ behind, ?_, inOrder.takeOut, ?_⟩
      · rw [AttachHeap.removeAttachFromList, walked]
        rfl
      · rw [erased]
        exact congrArg (Prod.mk _) (inOrder.records node (by simp))

theorem loadLoop {malloc : Nat → Nat} {count : Nat} {instID : CString} {text : Bytes}
    (inOrder : heap.InOrder nodes)
    (done : loadLoop malloc heap heap.listLast count volid instID text = some after) :
    ∃ loaded nodes', loadRecords volid instID text = some loaded ∧ after.InOrder nodes' ∧
      nodes'.map Prod.snd = nodes.map Prod.snd ++ loaded := by
  induction volid, instID, text using loadRecords.induct generalizing heap nodes count with
  | case1 volid instID =>
      rw [AttachHeap.loadLoop] at done
      obtain rfl := Option.some.inj done
      exact ⟨[], nodes, loadRecords.eq_1 volid instID, inOrder, (List.append_nil _).symm⟩
  | case2 volid instID byte rest past =>
      rw [AttachHeap.loadLoop, past] at done
      cases done
  | case3 volid instID byte rest volid' instID' scanned inductionHypothesis =>
      rw [AttachHeap.loadLoop, scanned] at done
      rw [loadRecords, scanned]
      by_cases nonnegative : volid'.toInt > -1
      · simp only [if_pos nonnegative] at done ⊢
        by_cases free : (heap.records (malloc count)).isNone
        · rw [if_pos free] at done
          have added :=
            inOrder.append (Option.isNone_iff_eq_none.mp free) ⟨extended volid', instID'⟩
          obtain ⟨loaded, nodes', later, inOrder', entries⟩ := inductionHypothesis added done
          refine ⟨_, nodes', congrArg (Option.map _) later, inOrder', ?_⟩
          rw [entries, List.map_append, List.append_assoc]
          rfl
        · rw [if_neg free] at done
          cases done
      · simp only [if_neg nonnegative] at done ⊢
        obtain ⟨loaded, nodes', later, inOrder', entries⟩ := inductionHypothesis inOrder done
        exact ⟨loaded, nodes', congrArg (Option.map _) later, inOrder', entries⟩

/-- Every call that gets through keeps the tail pointer exact and makes of the entries what it
should. -/
theorem step {event : AttachEvent} (inOrder : heap.InOrder nodes)
    (taken : heap.step event = some after) :
    ∃ nodes', after.InOrder nodes' ∧
      nodes'.map Prod.snd = event.entries (nodes.map Prod.snd) := by
  cases event with
  | load malloc instID readable writable file =>
      by_cases empty : heap.next heap.list = none
      · rw [AttachHeap.step, if_pos empty] at taken
        have leads := inOrder.leads
        obtain rfl : nodes = [] := by
          cases nodes with
          | nil => rfl
          | cons first rest => exact absurd (empty.symm.trans leads.1) (by simp)
        have atHead : heap.list = heap.listLast := inOrder.last.symm
        obtain ⟨⟨ret, after'⟩, called, rfl⟩ := Option.map_eq_some_iff.mp taken
        rw [AttachHeap.loadAttachInfoFromFile] at called
        rw [AttachEvent.entries]
        cases text : if readable then file else none with
        | none =>
            rw [text] at called
            have same : after' = heap := by
              cases writable <;> exact (Prod.mk.inj (Option.some.inj called)).2.symm
            rw [same]
            exact ⟨[], inOrder, rfl⟩
        | some text' =>
            rw [text, atHead] at called
            obtain ⟨_, looped, same⟩ := Option.map_eq_some_iff.mp called
            obtain ⟨-, rfl⟩ := Prod.mk.inj same
            obtain ⟨loaded, nodes', read, inOrder', entries⟩ := inOrder.loadLoop looped
            refine ⟨nodes', inOrder', ?_⟩
            rw [entries, Option.bind_some, read, Option.getD_some]
      · rw [AttachHeap.step, if_neg empty] at taken
        cases taken
  | add node volid instID =>
      by_cases free : (heap.records node).isNone
      · rw [AttachHeap.step, if_pos free] at taken
        obtain rfl := Option.some.inj taken
        refine ⟨_, inOrder.append (Option.isNone_iff_eq_none.mp free) ⟨extended volid, instID⟩, ?_⟩
        rw [List.map_append]
        rfl
      · rw [AttachHeap.step, if_neg free] at taken
        cases taken
  | remove volid =>
      obtain ⟨result, after', nodes', removed, inOrder', same⟩ :=
        inOrder.removeAttachFromList volid
      rw [AttachHeap.step, removed] at taken
      obtain rfl := Option.some.inj taken
      rw [removeAttachFromList_eq] at same
      exact ⟨nodes', inOrder', (Prod.mk.inj same).1⟩

theorem run {events : List AttachEvent} (inOrder : heap.InOrder nodes)
    (ran : Run.run AttachHeap.step heap events = some after) :
    ∃ nodes', after.InOrder nodes' ∧
      nodes'.map Prod.snd = events.foldl AttachEvent.entries (nodes.map Prod.snd) := by
  induction events generalizing heap nodes with
  | nil =>
      obtain rfl := Option.some.inj ran
      exact ⟨nodes, inOrder, rfl⟩
  | cons event rest inductionHypothesis =>
      obtain ⟨next, taken, ranRest⟩ := Option.bind_eq_some_iff.mp ran
      obtain ⟨between, inOrder', entries⟩ := inOrder.step taken
      obtain ⟨nodes', inOrder'', entries'⟩ := inductionHypothesis inOrder' ranRest
      exact ⟨nodes', inOrder'', by rw [entries', entries]; rfl⟩

end InOrder

theorem loadLoop_isSome {malloc : Nat → Nat} {c count : Nat} {instID : CString} {text : Bytes}
    (free : ∀ later, count ≤ later → heap.records (malloc later) = none)
    (distinct : Function.Injective malloc) (read : (loadRecords volid instID text).isSome) :
    (loadLoop malloc heap c count volid instID text).isSome := by
  induction volid, instID, text using loadRecords.induct generalizing heap c count with
  | case1 volid instID =>
      rw [loadLoop]
      rfl
  | case2 volid instID byte rest past =>
      rw [loadRecords, past] at read
      cases read
  | case3 volid instID byte rest volid' instID' scanned inductionHypothesis =>
      rw [loadRecords, scanned] at read
      have readRest := Option.isSome_map.symm.trans read
      rw [loadLoop, scanned]
      by_cases nonnegative : volid'.toInt > -1
      · simp only [if_pos nonnegative]
        rw [if_pos (Option.isNone_iff_eq_none.mpr (free count (Nat.le_refl _)))]
        refine inductionHypothesis (fun later after => ?_) readRest
        have apart : malloc later ≠ malloc count := distinct.ne (Nat.ne_of_gt after)
        exact (Function.update_of_ne apart _ _).trans (free later (Nat.le_of_succ_le after))
      · simp only [if_neg nonnegative]
        exact inductionHypothesis free readRest

theorem InOrder.step_isSome (inOrder : heap.InOrder nodes) {event : AttachEvent}
    (grants : heap.Grants event) : (heap.step event).isSome := by
  cases event with
  | load malloc instID readable writable file =>
      obtain ⟨empty, free, distinct, reads⟩ := grants
      rw [AttachHeap.step, if_pos empty, Option.isSome_map, loadAttachInfoFromFile]
      cases text : if readable then file else none with
      | none => cases writable <;> rfl
      | some text' =>
          rw [Option.isSome_map]
          exact loadLoop_isSome (fun later _ => free later) distinct (reads text' text)
  | add node volid instID =>
      rw [AttachHeap.step, if_pos (Option.isNone_iff_eq_none.mpr grants)]
      rfl
  | remove volid =>
      obtain ⟨result, after, -, removed, -⟩ := inOrder.removeAttachFromList volid
      rw [AttachHeap.step, removed]
      rfl

/-- After every run of calls the tail pointer is exact and the list has the entries that it should,
and the next call gets through when it is granted what it needs. -/
theorem run_tailExact {next : Nat → Option Nat} {list : Nat} {instanceID : CString}
    {events : List AttachEvent}
    (ran : Run.run step (start next list instanceID) events = some heap) :
    heap.TailExact (events.foldl AttachEvent.entries []) ∧
      ∀ event, heap.Grants event → (heap.step event).isSome := by
  obtain ⟨nodes, inOrder, entries⟩ := (start_inOrder next list instanceID).run ran
  exact ⟨⟨nodes, inOrder.toHolds, entries⟩, fun event => inOrder.step_isSome⟩

/-- Two volumes are added and the second is taken out: the next one goes in behind the first. -/
theorem run_tailExact_example :
    ∃ heap, Run.run step (start (fun _ => none) 10 ⟨[], by decide⟩)
        [.add 11 5 ⟨[97], by decide⟩, .add 12 6 ⟨[98], by decide⟩, .remove 6,
          .add 13 7 ⟨[99], by decide⟩] = some heap ∧
      heap.TailExact [⟨5, ⟨[97], by decide⟩⟩, ⟨7, ⟨[99], by decide⟩⟩] ∧
      ∀ event, heap.Grants event → (heap.step event).isSome := by
  have through : (Run.run step (start (fun _ => none) 10 ⟨[], by decide⟩)
      [.add 11 5 ⟨[97], by decide⟩, .add 12 6 ⟨[98], by decide⟩, .remove 6,
        .add 13 7 ⟨[99], by decide⟩]).isSome := rfl
  obtain ⟨heap, ran⟩ := Option.isSome_iff_exists.mp through
  exact ⟨heap, ran, run_tailExact ran⟩

end AttachHeap

end DmsBlkdev.UserDaemon
