import DmsBlkdev.LogicalBlock.Freeing
import DmsBlkdev.LogicalBlock.Search

/-!
# Whether the iterator of a block list dangles

`Get_Next_LBMD` hands out the block under the iterator of the list and moves the
iterator on.  The list is changed in between.  No removal looks at the iterator,
so it dangles behind a removal or a commit of the block that it stands on.
-/

namespace DmsBlkdev

open Lib Lib.Run

section Commit

/-- A range commit reaches a block when all ids from the start of the range up to its id are on the
list and, where the range is not empty, it is in the range. -/
def ReachedByCommit (blocks : List LBMD) (slbid : Nat) (nrLBIDs : Int) (lbid : Nat) : Prop :=
  slbid ≤ lbid ∧ (∀ earlier, slbid ≤ earlier → earlier ≤ lbid → earlier ∈ blocks.map LBMD.LBID) ∧
    (0 < nrLBIDs → (lbid : Int) < slbid + nrLBIDs)

section Reached

variable {cur : LBMD} {rest : List LBMD} {slbid lbid : Nat} {nrLBIDs : Int}

theorem reachedByCommit_first (here : cur.LBID = slbid) :
    ReachedByCommit (cur :: rest) slbid nrLBIDs cur.LBID := by
  refine ⟨Nat.le_of_eq here.symm, fun earlier lower upper => ?_, fun _ => by omega⟩
  rw [Nat.le_antisymm upper (Nat.le_trans (Nat.le_of_eq here) lower)]
  exact List.mem_cons_self

theorem reachedByCommit_onward (here : cur.LBID = slbid) (beyond : cur.LBID < lbid)
    (more : nrLBIDs ≠ 1) :
    ReachedByCommit rest (slbid + 1) (nrLBIDs - 1) lbid ↔
      ReachedByCommit (cur :: rest) slbid nrLBIDs lbid := by
  constructor
  · rintro ⟨lower, held, within⟩
    refine ⟨Nat.le_of_succ_le lower, fun earlier lower' upper => ?_, fun _ => by omega⟩
    by_cases first : earlier = cur.LBID
    · rw [first]
      exact List.mem_cons_self
    · exact List.mem_cons_of_mem _ (held earlier (by omega) upper)
  · rintro ⟨-, held, within⟩
    refine ⟨by omega, fun earlier lower upper => ?_, fun _ => by omega⟩
    exact (List.mem_cons.mp (held earlier (by omega) upper)).resolve_left (by omega)

theorem lt_of_reachedByCommit (other : cur.LBID ≠ slbid)
    (below : ∀ later ∈ rest.map LBMD.LBID, cur.LBID < later)
    (reached : ReachedByCommit (cur :: rest) slbid nrLBIDs lbid) : cur.LBID < slbid := by
  rcases List.mem_cons.mp (reached.2.1 slbid (Nat.le_refl _) reached.1) with same | inRest
  · exact absurd same.symm other
  · exact below slbid inRest

theorem reachedByCommit_passed (other : cur.LBID ≠ slbid)
    (below : ∀ later ∈ rest.map LBMD.LBID, cur.LBID < later) :
    ReachedByCommit rest slbid nrLBIDs lbid ↔
      ReachedByCommit (cur :: rest) slbid nrLBIDs lbid := by
  constructor
  · rintro ⟨lower, held, within⟩
    exact ⟨lower, fun earlier lower upper => List.mem_cons_of_mem _ (held earlier lower upper),
      within⟩
  · intro reached
    have before := lt_of_reachedByCommit other below reached
    refine ⟨reached.1, fun earlier lower upper => ?_, reached.2.2⟩
    refine (List.mem_cons.mp (reached.2.1 earlier lower upper)).resolve_left ?_
    exact Nat.ne_of_gt (Nat.lt_of_lt_of_le before lower)

end Reached

/-- The rest of the walk releases what the commit of the rest of the range reaches. -/
theorem commitWalk_released_iff {slbid : Nat} {nrLBIDs : Int} {i : Nat} {blocks : List LBMD}
    (ascending : Ascending blocks) (small : ∀ lbmd ∈ blocks, lbmd.LBID < 2 ^ 64)
    (fits : blocks ≠ [] → slbid + i < 2 ^ 64) (more : 0 < nrLBIDs → (i : Int) < nrLBIDs)
    {lbmd : LBMD} (member : lbmd ∈ blocks) :
    lbmd ∈ (commitWalk slbid nrLBIDs i blocks).2 ↔
      ReachedByCommit blocks (slbid + i) (nrLBIDs - i) lbmd.LBID := by
  induction blocks generalizing i with
  | nil => exact absurd member List.not_mem_nil
  | cons cur rest inductionHypothesis =>
      obtain ⟨below, restAscending⟩ := List.pairwise_cons.mp ascending
      have later : ∀ block ∈ rest, cur.LBID < block.LBID :=
        fun block member => below _ (List.mem_map_of_mem member)
      have noWrap : (slbid + i) % 2 ^ 64 = slbid + i :=
        Nat.mod_eq_of_lt (fits (List.cons_ne_nil _ _))
      have restSmall : ∀ block ∈ rest, block.LBID < 2 ^ 64 :=
        fun block member => small block (List.mem_cons_of_mem _ member)
      rw [commitWalk, noWrap]
      by_cases here : cur.LBID = slbid + i
      · rw [if_pos here]
        by_cases last : (i + 1 : Int) = nrLBIDs
        · rw [if_pos last, List.mem_singleton]
          rcases List.mem_cons.mp member with rfl | inRest
          · exact iff_of_true rfl (reachedByCommit_first here)
          · have beyond := later lbmd inRest
            refine iff_of_false (fun same => ?_) fun reached => ?_
            · exact Nat.ne_of_gt beyond (congrArg LBMD.LBID same)
            · have within := reached.2.2 (by omega)
              omega
        · rw [if_neg last, List.mem_cons]
          rcases List.mem_cons.mp member with rfl | inRest
          · exact iff_of_true (.inl rfl) (reachedByCommit_first here)
          · have beyond := later lbmd inRest
            have apart : lbmd ≠ cur := fun same => Nat.ne_of_gt beyond (congrArg LBMD.LBID same)
            have fits' : rest ≠ [] → slbid + (i + 1) < 2 ^ 64 := by
              intro _
              have bound := restSmall lbmd inRest
              omega
            have onward := @inductionHypothesis (i + 1) restAscending restSmall fits'
              (fun positive => by have := more positive; omega) inRest
            rw [or_iff_right apart, onward, ← reachedByCommit_onward here beyond (by omega),
              ← Nat.add_assoc, Nat.cast_add_one, Int.sub_sub]
      · rw [if_neg here]
        rcases List.mem_cons.mp member with rfl | inRest
        · refine iff_of_false (fun gone => ?_) fun reached => ?_
          · have among := (commitWalk_perm slbid nrLBIDs i rest).subset
              (List.mem_append_left _ gone)
            exact Nat.lt_irrefl _ (later lbmd among)
          · exact Nat.not_lt.mpr reached.1 (lt_of_reachedByCommit here below reached)
        · rw [← reachedByCommit_passed here below]
          exact inductionHypothesis restAscending restSmall
            (fun _ => fits (List.cons_ne_nil _ _)) more inRest

theorem commitLBListByRange_kept_iff {blocks : List LBMD} (ascending : Ascending blocks)
    (small : ∀ lbmd ∈ blocks, lbmd.LBID < 2 ^ 64) (slbid : BitVec 64) (nrLBIDs : Int) {lbmd : LBMD}
    (member : lbmd ∈ blocks) :
    lbmd ∈ (commitLBListByRange blocks slbid.toNat nrLBIDs).1 ↔
      ¬ ReachedByCommit blocks slbid.toNat nrLBIDs lbmd.LBID := by
  have released := @commitWalk_released_iff slbid.toNat nrLBIDs 0 blocks ascending small
    (fun _ => slbid.isLt) id lbmd member
  rw [Nat.add_zero, Nat.cast_zero, Int.sub_zero, ← commitLBListByRange] at released
  have perm := commitLBListByRange_perm blocks slbid.toNat nrLBIDs
  have distinct := perm.nodup_iff.mpr (List.Nodup.of_map _ (ascending.imp Nat.ne_of_lt))
  have either := List.mem_append.mp (perm.mem_iff.mpr member)
  rw [← released]
  constructor
  · exact fun kept gone => (List.nodup_append.mp distinct).2.2 lbmd gone lbmd kept rfl
  · exact either.resolve_left

end Commit

inductive LBChange where
  | createLBMD (lbmd : LBMD)
  | insert (addr : Nat)
  | removeByLBMD (addr : Nat)
  | removeByLBID (lbid : Nat)
  | commitRange (slbid : BitVec 64) (nrLBIDs : Int)
  | releaseLBMD (addr : Nat)

namespace LBHeap

variable {heap after : LBHeap} {head : Nat} {blocks blocks' : List LBMD} {lbmd : LBMD}
  {change : LBChange}

/-- The allocator hands out free addresses, and a block is inserted or released while it is not on
the list. -/
def Allows (heap : LBHeap) (head : Nat) : LBChange → Prop
  | .createLBMD lbmd => heap.lbmds lbmd.addr = none ∧ lbmd.addr ≠ head ∧ lbmd.LBID < 2 ^ 64
  | .insert addr | .releaseLBMD addr =>
      (heap.lbmds addr).isSome ∧ heap.forEachEntry head (fun tmp => tmp.addr = addr) = some head
  | _ => True

instance (heap : LBHeap) (head : Nat) : DecidablePred (heap.Allows head)
  | .createLBMD lbmd => inferInstanceAs (Decidable (heap.lbmds lbmd.addr = none ∧ _))
  | .insert addr | .releaseLBMD addr => inferInstanceAs (Decidable ((heap.lbmds addr).isSome ∧ _))
  | .removeByLBMD _ | .removeByLBID _ | .commitRange _ _ => inferInstanceAs (Decidable True)

def changed (heap : LBHeap) (head : Nat) (change : LBChange) : Option LBHeap :=
  if heap.Allows head change then
    match change with
    | .createLBMD lbmd => some (heap.createLogicalBlockMetaData lbmd)
    | .insert addr => (heap.addToLogicalBlockListByInsertionSort head addr).map Prod.snd
    | .removeByLBMD addr => (heap.removeFromLogicalBlockListByLBMD head addr).map Prod.snd
    | .removeByLBID lbid => (heap.removeFromLogicalBlockListByLBID head lbid).map Prod.snd
    | .commitRange slbid nrLBIDs =>
        (heap.commitLBListByRange head slbid.toNat nrLBIDs).map Prod.snd
    | .releaseLBMD addr => some (heap.releaseLogicalBlockMetaData addr)
  else none

def Takes (heap : LBHeap) (head : Nat) : LBChange → LBMD → Prop
  | .removeByLBMD addr, lbmd => lbmd.addr = addr
  | .removeByLBID lbid, lbmd => lbmd.LBID = lbid
  | .commitRange slbid nrLBIDs, lbmd => slbid.toNat ≤ lbmd.LBID ∧
      (∀ earlier, slbid.toNat ≤ earlier → earlier ≤ lbmd.LBID →
        heap.getLogicalBlockByLBID head earlier ≠ some none) ∧
      (0 < nrLBIDs → (lbmd.LBID : Int) < slbid.toNat + nrLBIDs)
  | _, _ => False

structure InOrder (heap : LBHeap) (head : Nat) (blocks : List LBMD) : Prop where
  holds : heap.Holds head blocks
  ascending : Ascending blocks
  head : heap.lbmds head = none
  allocated : ∀ addr lbmd, heap.lbmds addr = some lbmd → lbmd.addr = addr ∧ lbmd.LBID < 2 ^ 64

theorem Holds.outside (holds : heap.Holds head blocks) {addr : Nat}
    (absent : heap.forEachEntry head (fun tmp => tmp.addr = addr) = some head) :
    addr ∉ blocks.map LBMD.addr := by
  rintro onList
  obtain ⟨lbmd, member, rfl⟩ := List.mem_map.mp onList
  rw [holds.forEachEntry] at absent
  cases located : blocks.find? fun tmp => decide (tmp.addr = lbmd.addr) with
  | none => exact List.find?_eq_none.mp located lbmd member (decide_eq_true rfl)
  | some other =>
      rw [located] at absent
      exact holds.ne_head (List.mem_of_find?_eq_some located) (Option.some.inj absent)

theorem mem_eraseP_iff {check : LBMD → Bool} (distinct : blocks.Nodup)
    (alone : ∀ first ∈ blocks, ∀ second ∈ blocks, check first = true → check second = true →
      first = second) (member : lbmd ∈ blocks) :
    lbmd ∈ blocks.eraseP check ↔ ¬ check lbmd = true := by
  by_cases passes : check lbmd = true
  · obtain ⟨other, before, behind, -, passes', rfl, erased⟩ := List.exists_of_eraseP member passes
    obtain rfl := alone lbmd member other (by simp) passes passes'
    rw [erased]
    exact iff_of_false (List.nodup_cons.mp (List.nodup_middle.mp distinct)).1 (not_not.mpr passes)
  · exact iff_of_true ((List.mem_eraseP_of_neg passes).mpr member) passes

namespace InOrder

theorem small (inOrder : heap.InOrder head blocks) : ∀ lbmd ∈ blocks, lbmd.LBID < 2 ^ 64 :=
  fun lbmd member => (inOrder.allocated _ lbmd (inOrder.holds.lbmds lbmd member)).2

theorem distinct (inOrder : heap.InOrder head blocks) : (blocks.map LBMD.LBID).Nodup :=
  inOrder.ascending.imp Nat.ne_of_lt

theorem renew {region : List Nat} (inOrder : heap.InOrder head blocks)
    (holds : after.Holds head blocks') (ascending : Ascending blocks')
    (keeps : heap.Keeps after region) : after.InOrder head blocks' where
  holds := holds
  ascending := ascending
  head := by
    cases found : after.lbmds head with
    | none => rfl
    | some lbmd =>
        have before := keeps.allocated head lbmd found
        rw [inOrder.head] at before
        cases before
  allocated addr lbmd found := inOrder.allocated addr lbmd (keeps.allocated addr lbmd found)

theorem part {region : List Nat} (inOrder : heap.InOrder head blocks)
    (holds : after.Holds head blocks') (sublist : blocks'.Sublist blocks)
    (keeps : heap.Keeps after region) {taken : LBMD → Prop}
    (kept : ∀ lbmd ∈ blocks, lbmd ∈ blocks' ↔ ¬ taken lbmd) :
    after.InOrder head blocks' ∧
      ∀ lbmd ∈ blocks, lbmd.addr ∈ blocks'.map LBMD.addr ↔ ¬ taken lbmd := by
  refine ⟨inOrder.renew holds (inOrder.ascending.sublist (sublist.map LBMD.LBID)) keeps,
    fun lbmd member => ?_⟩
  rw [← kept lbmd member]
  constructor
  · intro among
    obtain ⟨other, member', same⟩ := List.mem_map.mp among
    rwa [← inOrder.holds.addr_injective member (sublist.subset member') same]
  · exact List.mem_map_of_mem

theorem remove (inOrder : heap.InOrder head blocks) (check : LBMD → Bool)
    (alone : ∀ first ∈ blocks, ∀ second ∈ blocks, check first = true → check second = true →
      first = second) :
    ∃ after blocks', (heap.removeFromLogicalBlockList head check).map Prod.snd = some after ∧
      after.InOrder head blocks' ∧
      ∀ lbmd ∈ blocks, lbmd.addr ∈ blocks'.map LBMD.addr ↔ ¬ check lbmd = true := by
  obtain ⟨after, removed, holds, keeps⟩ := inOrder.holds.removeFromLogicalBlockList check
  have distinct := List.Nodup.of_map _ inOrder.distinct
  exact ⟨after, _, congrArg (Option.map Prod.snd) removed,
    inOrder.part holds List.eraseP_sublist keeps fun lbmd => mem_eraseP_iff distinct alone⟩

theorem takes_commitRange (inOrder : heap.InOrder head blocks) {slbid : BitVec 64}
    {nrLBIDs : Int} : heap.Takes head (.commitRange slbid nrLBIDs) lbmd ↔
      ReachedByCommit blocks slbid.toNat nrLBIDs lbmd.LBID := by
  have onList (lbid : Nat) : heap.getLogicalBlockByLBID head lbid ≠ some none ↔
      lbid ∈ blocks.map LBMD.LBID := by
    rw [inOrder.holds.getLogicalBlockByLBID, ne_eq, Option.some.injEq, Option.map_eq_none_iff,
      List.find?_eq_none]
    simp
  simp only [Takes, onList, ReachedByCommit]

theorem outside (inOrder : heap.InOrder head blocks) {addr : Nat}
    (allocated : (heap.lbmds addr).isSome)
    (absent : heap.forEachEntry head (fun tmp => tmp.addr = addr) = some head) :
    addr ∉ head :: blocks.map LBMD.addr := by
  rw [List.mem_cons, not_or]
  refine ⟨fun same => ?_, inOrder.holds.outside absent⟩
  rw [same, inOrder.head] at allocated
  cases allocated

theorem create (inOrder : heap.InOrder head blocks) (free : heap.lbmds lbmd.addr = none)
    (notHead : lbmd.addr ≠ head) (small : lbmd.LBID < 2 ^ 64) :
    (heap.createLogicalBlockMetaData lbmd).InOrder head blocks where
  holds := by
    apply inOrder.holds.createLogicalBlockMetaData
    rw [List.mem_cons, not_or]
    refine ⟨notHead, fun onList => ?_⟩
    obtain ⟨other, member, same⟩ := List.mem_map.mp onList
    have allocated := inOrder.holds.lbmds other member
    rw [same, free] at allocated
    cases allocated
  ascending := inOrder.ascending
  head := (Function.update_of_ne (Ne.symm notHead) _ _).trans inOrder.head
  allocated addr other found := by
    by_cases same : addr = lbmd.addr
    · have new : (heap.createLogicalBlockMetaData lbmd).lbmds addr = some lbmd := by
        rw [same]
        exact Function.update_self ..
      rw [same, ← Option.some.inj (new.symm.trans found)]
      exact ⟨rfl, small⟩
    · exact inOrder.allocated addr other ((Function.update_of_ne same _ _).symm.trans found)

theorem insert (inOrder : heap.InOrder head blocks) {addr : Nat}
    (allocated : (heap.lbmds addr).isSome)
    (absent : heap.forEachEntry head (fun tmp => tmp.addr = addr) = some head) :
    ∃ after blocks', (heap.addToLogicalBlockListByInsertionSort head addr).map Prod.snd =
        some after ∧ after.InOrder head blocks' ∧ blocks ⊆ blocks' := by
  have outside := inOrder.outside allocated absent
  obtain ⟨lbmd, allocated⟩ := Option.isSome_iff_exists.mp allocated
  obtain ⟨rfl, -⟩ := inOrder.allocated addr lbmd allocated
  obtain ⟨retcode, after, inserted, result⟩ :=
    inOrder.holds.addToLogicalBlockListByInsertionSort allocated outside
  have inserted := congrArg (Option.map Prod.snd) inserted
  rcases result with ⟨-, -, rfl⟩ | ⟨before, behind, rfl, sorted, -, holds', keeps⟩
  · exact ⟨after, blocks, inserted, inOrder, List.Subset.refl _⟩
  · have renewed := inOrder.renew holds'
      (addByInsertionSort_some inOrder.ascending sorted).1 keeps
    refine ⟨after, _, inserted, renewed, fun other member => ?_⟩
    simp only [List.mem_append, List.mem_cons] at member ⊢
    tauto

theorem release (inOrder : heap.InOrder head blocks) {addr : Nat}
    (allocated : (heap.lbmds addr).isSome)
    (absent : heap.forEachEntry head (fun tmp => tmp.addr = addr) = some head) :
    (heap.releaseLogicalBlockMetaData addr).InOrder head blocks := by
  have keeps : heap.Keeps (heap.releaseLogicalBlockMetaData addr) [addr] :=
    ⟨rfl, fun _ _ => rfl, fun other elsewhere =>
      Function.update_of_ne (List.mem_singleton.not.mp elsewhere) _ _,
      fun _ _ found => releaseLogicalBlockMetaData_some found, Nat.le_refl _⟩
  have apart : ∀ other ∈ head :: blocks.map LBMD.addr, other ∉ [addr] := fun other among same =>
    inOrder.outside allocated absent (List.mem_singleton.mp same ▸ among)
  exact inOrder.renew (inOrder.holds.congr keeps apart) inOrder.ascending keeps

/-- What a change makes of a list in order: the blocks that it does not take stay. -/
theorem changed (inOrder : heap.InOrder head blocks) (allows : heap.Allows head change) :
    ∃ after blocks', heap.changed head change = some after ∧ after.InOrder head blocks' ∧
      ∀ lbmd ∈ blocks, lbmd.addr ∈ blocks'.map LBMD.addr ↔ ¬ heap.Takes head change lbmd := by
  have holds := inOrder.holds
  unfold LBHeap.changed
  rw [if_pos allows]
  cases change with
  | createLBMD lbmd =>
      obtain ⟨free, notHead, small⟩ := allows
      exact ⟨_, blocks, rfl, inOrder.create free notHead small,
        fun other member => iff_of_true (List.mem_map_of_mem member) id⟩
  | insert addr =>
      obtain ⟨after, blocks', inserted, inOrder', stay⟩ := inOrder.insert allows.1 allows.2
      exact ⟨after, blocks', inserted, inOrder',
        fun other member => iff_of_true (List.mem_map_of_mem (stay member)) id⟩
  | removeByLBMD addr =>
      obtain ⟨after, blocks', removed, inOrder', kept⟩ := inOrder.remove
        (fun tmp => decide (tmp.addr = addr)) fun first member second member' same same' =>
          holds.addr_injective member' member
            ((of_decide_eq_true same).trans (of_decide_eq_true same').symm)
      simp only [decide_eq_true_eq] at kept
      exact ⟨after, blocks', removed, inOrder', kept⟩
  | removeByLBID lbid =>
      obtain ⟨after, blocks', removed, inOrder', kept⟩ := inOrder.remove
        (fun tmp => decide (tmp.LBID = lbid)) fun first member second member' same same' =>
          List.inj_on_of_nodup_map inOrder.distinct member member'
            ((of_decide_eq_true same).trans (of_decide_eq_true same').symm)
      simp only [decide_eq_true_eq] at kept
      exact ⟨after, blocks', removed, inOrder', kept⟩
  | commitRange slbid nrLBIDs =>
      obtain ⟨after, committed, holds', keeps, -⟩ := holds.commitLBListByRange slbid.toNat nrLBIDs
      have sublist := commitLBListByRange_sublist blocks slbid.toNat nrLBIDs
      refine ⟨after, _, congrArg (Option.map Prod.snd) committed,
        inOrder.part holds' sublist keeps fun lbmd member => ?_⟩
      rw [commitLBListByRange_kept_iff inOrder.ascending inOrder.small slbid nrLBIDs member,
        inOrder.takes_commitRange]
  | releaseLBMD addr =>
      exact ⟨_, blocks, rfl, inOrder.release allows.1 allows.2,
        fun other member => iff_of_true (List.mem_map_of_mem member) id⟩

end InOrder

end LBHeap

structure IteratedLBList where
  heap : LBHeap
  head : Nat
  nextNode : Nat

inductive LBIteratorEvent where
  | change (change : LBChange)
  | resetIterator
  | getNext

namespace IteratedLBList

/-- `Reset_LB_List_Iterator`. -/
def resetLBListIterator (list : IteratedLBList) : IteratedLBList :=
  { list with nextNode := (list.heap.links list.head).next }

/-- `Get_Next_LBMD`: the block, or NULL at the head.  Nothing comes of it when `next_node` is no
block that is allocated. -/
def getNextLBMD (list : IteratedLBList) : Option (Option Nat × IteratedLBList) :=
  if list.nextNode = list.head then some (none, list)
  else (list.heap.lbmds list.nextNode).map fun _ =>
    (some list.nextNode, { list with nextNode := (list.heap.links list.nextNode).next })

def step (list : IteratedLBList) : LBIteratorEvent → Option IteratedLBList
  | .change change => (list.heap.changed list.head change).map fun heap => { list with heap }
  | .resetIterator => some list.resetLBListIterator
  | .getNext => list.getNextLBMD.map Prod.snd

/-- `next_node` is the head or a block that is linked, and the next block that is handed out is
linked. -/
def IteratorLinked (list : IteratedLBList) : Prop :=
  ∃ blocks, list.heap.Holds list.head blocks ∧
    list.nextNode ∈ list.head :: blocks.map LBMD.addr ∧
    ∃ found after, list.getNextLBMD = some (found, after) ∧
      ∀ addr ∈ found, addr ∈ blocks.map LBMD.addr

/-- The change does not take off the block that `next_node` stands on. -/
def SparesIterator (list : IteratedLBList) : LBIteratorEvent → Prop
  | .change change => ∀ lbmd, list.heap.lbmds list.nextNode = some lbmd →
      ¬ list.heap.Takes list.head change lbmd
  | _ => True

def Standing (list : IteratedLBList) : Prop :=
  ∃ blocks, list.heap.InOrder list.head blocks ∧
    list.nextNode ∈ list.head :: blocks.map LBMD.addr

variable {list after : IteratedLBList} {event : LBIteratorEvent} {blocks : List LBMD}

theorem getNextLBMD_standing (inOrder : list.heap.InOrder list.head blocks)
    (standing : list.nextNode ∈ list.head :: blocks.map LBMD.addr) :
    ∃ found after, list.getNextLBMD = some (found, after) ∧
      (∀ addr ∈ found, addr ∈ blocks.map LBMD.addr) ∧
      after.heap = list.heap ∧ after.head = list.head ∧
      after.nextNode ∈ list.head :: blocks.map LBMD.addr := by
  rw [getNextLBMD]
  rcases List.mem_cons.mp standing with atHead | linked
  · rw [if_pos atHead]
    refine ⟨none, list, rfl, ?_, rfl, rfl, standing⟩
    rintro addr ⟨⟩
  · obtain ⟨lbmd, member, same⟩ := List.mem_map.mp linked
    have apart := inOrder.holds.ne_head member
    have allocated := inOrder.holds.lbmds lbmd member
    rw [same] at apart allocated
    rw [if_neg apart, allocated]
    refine ⟨some list.nextNode, _, rfl, ?_, rfl, rfl, inOrder.holds.ring.next_mem standing⟩
    rintro addr ⟨⟩
    exact linked

theorem Standing.iteratorLinked (standing : list.Standing) : list.IteratorLinked := by
  obtain ⟨blocks, inOrder, onRing⟩ := standing
  obtain ⟨found, after, next, linked, -⟩ := getNextLBMD_standing inOrder onRing
  exact ⟨blocks, inOrder.holds, onRing, found, after, next, linked⟩

theorem onRing_cases (inOrder : list.heap.InOrder list.head blocks)
    (onRing : list.nextNode ∈ list.head :: blocks.map LBMD.addr) :
    list.nextNode = list.head ∧ list.heap.lbmds list.nextNode = none ∨
      ∃ lbmd ∈ blocks, lbmd.addr = list.nextNode ∧
        list.heap.lbmds list.nextNode = some lbmd := by
  rcases List.mem_cons.mp onRing with atHead | linked
  · exact .inl ⟨atHead, atHead ▸ inOrder.head⟩
  · obtain ⟨lbmd, member, same⟩ := List.mem_map.mp linked
    exact .inr ⟨lbmd, member, same, same ▸ inOrder.holds.lbmds lbmd member⟩

/-- A step that spares the iterator keeps it on the ring. -/
theorem Standing.step (standing : list.Standing) (spares : list.SparesIterator event)
    (taken : list.step event = some after) : after.Standing := by
  obtain ⟨blocks, inOrder, onRing⟩ := standing
  cases event with
  | change change =>
      have allows : list.heap.Allows list.head change := by
        by_contra refused
        have stuck : list.heap.changed list.head change = none := if_neg refused
        rw [IteratedLBList.step, stuck] at taken
        cases taken
      obtain ⟨heap, blocks', changed, inOrder', kept⟩ := inOrder.changed allows
      rw [IteratedLBList.step, changed] at taken
      cases taken
      refine ⟨blocks', inOrder', ?_⟩
      rcases onRing_cases inOrder onRing with ⟨atHead, -⟩ | ⟨lbmd, member, same, allocated⟩
      · exact atHead ▸ List.mem_cons_self
      · refine List.mem_cons_of_mem _ ?_
        rw [← same]
        exact (kept lbmd member).mpr (spares lbmd allocated)
  | resetIterator =>
      cases taken
      exact ⟨blocks, inOrder, inOrder.holds.ring.next_mem List.mem_cons_self⟩
  | getNext =>
      obtain ⟨found, heap, next, -, sameHeap, sameHead, onRing'⟩ :=
        getNextLBMD_standing inOrder onRing
      rw [IteratedLBList.step, next] at taken
      cases taken
      exact ⟨blocks, by rwa [sameHeap, sameHead], by rwa [sameHead]⟩

/-- Any other step leaves the iterator on a block that is not linked. -/
theorem Standing.dangling (standing : list.Standing) (unspared : ¬ list.SparesIterator event) :
    ∃ after, list.step event = some after ∧ ¬ after.IteratorLinked := by
  obtain ⟨blocks, inOrder, onRing⟩ := standing
  cases event with
  | change change =>
      simp only [SparesIterator, not_forall, not_not] at unspared
      obtain ⟨lbmd, allocated, takes⟩ := unspared
      have allows : list.heap.Allows list.head change := by
        cases change <;> trivial
      obtain ⟨heap, blocks', changed, inOrder', kept⟩ := inOrder.changed allows
      refine ⟨{ list with heap }, congrArg (Option.map _) changed, ?_⟩
      rintro ⟨other, holds, onRing', -⟩
      obtain rfl := holds.unique inOrder'.holds
      rcases onRing_cases inOrder onRing with ⟨atHead, absent⟩ | ⟨lbmd', member, same, allocated'⟩
      · rw [absent] at allocated
        cases allocated
      · obtain rfl := Option.some.inj (allocated.symm.trans allocated')
        rcases List.mem_cons.mp onRing' with atHead | linked
        · exact inOrder.holds.ne_head member (same.trans atHead)
        · exact (kept lbmd member).mp (same ▸ linked) takes
  | resetIterator => exact absurd trivial unspared
  | getNext => exact absurd trivial unspared

/-- The iterator never dangles exactly when it stands on the ring at first and no change takes off
the block under it. -/
theorem nextNode_linked_always_iff (inOrder : list.heap.InOrder list.head blocks)
    (events : List LBIteratorEvent) :
    Always IteratorLinked step list events ↔
      list.nextNode ∈ list.head :: blocks.map LBMD.addr ∧
        Guarded SparesIterator step list events := by
  have rule (standing : list.Standing) :=
    @always_iff_guarded_of_broken _ _ step SparesIterator IteratorLinked Standing
      (fun _ _ _ standing spares taken => standing.step spares taken)
      (fun _ _ standing unspared => standing.dangling unspared)
      (fun _ standing => standing.iteratorLinked) list events standing
  constructor
  · intro always
    obtain ⟨blocks', holds, onRing, -⟩ := always [] events list rfl rfl
    obtain rfl := holds.unique inOrder.holds
    exact ⟨onRing, (rule ⟨blocks', inOrder, onRing⟩).mp always⟩
  · rintro ⟨onRing, guarded⟩
    exact (rule ⟨blocks, inOrder, onRing⟩).mpr guarded

end IteratedLBList

theorem twoBlocksHeap_inOrder : twoBlocksHeap.InOrder 0 twoBlocks where
  holds := twoBlocksHeap_holds
  ascending := by decide
  head := rfl
  allocated addr lbmd found := by
    have found : twoBlocks.find? (fun block => decide (block.addr = addr)) = some lbmd := found
    have passed := List.find?_some found
    have small : ∀ block ∈ twoBlocks, block.LBID < 2 ^ 64 := by decide
    exact ⟨of_decide_eq_true passed, small lbmd (List.mem_of_find?_eq_some found)⟩

namespace IteratedLBList

/-- The iterator has left the first block when that one is taken off. -/
theorem nextNode_linked_always_example :
    Always IteratorLinked step ⟨twoBlocksHeap, 0, 0⟩
      [.resetIterator, .getNext, .change (.removeByLBMD 1), .getNext] := by
  refine (nextNode_linked_always_iff twoBlocksHeap_inOrder _).mpr ⟨List.mem_cons_self, ?_⟩
  refine ⟨trivial, fun first reset => ⟨trivial, fun second moved => ⟨?_, fun _ _ => ⟨trivial,
    fun _ _ => trivial⟩⟩⟩⟩
  cases reset
  cases moved
  intro lbmd standing takes
  cases standing
  cases takes

/-- The iterator is set on the first block, which is then taken off the list and released. -/
theorem iterator_on_released : twoBlocksHeap.InOrder 0 twoBlocks ∧
    ¬ Always IteratorLinked step ⟨twoBlocksHeap, 0, 0⟩
      [.resetIterator, .change (.removeByLBMD 1), .change (.releaseLBMD 1)] := by
  refine ⟨twoBlocksHeap_inOrder, fun always => ?_⟩
  obtain ⟨blocks, holds, onRing, found, after, next, linked⟩ :=
    always _ [] _ (List.append_nil _).symm rfl
  cases next

end IteratedLBList

end DmsBlkdev
