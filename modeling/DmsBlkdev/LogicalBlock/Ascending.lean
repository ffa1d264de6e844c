import DmsBlkdev.LogicalBlock.Ring
import DmsBlkdev.Lib.Run

/-!
# Logical block lists stay ascending

LB lists are created, filled, committed, split and released in any order, and
a block that is linked in one list is never inserted into another.  The heap
represents one list of blocks for every head, in ascending order of the ids;
an operation changes the lists that it names and no others.
-/

namespace DmsBlkdev

open Lib Lib.Run

/-- A call of an operation.  Allocations name the address that the allocator hands out, and
`getNext` whether it hands out one. -/
inductive LBEvent where
  | createList (head : Nat)
  | createLBMD (lbmd : LBMD)
  | insert (head addr : Nat)
  | removeByLBMD (head addr : Nat)
  | removeByLBID (head lbid : Nat)
  | commitRange (head slbid : Nat) (nrLBIDs : Int)
  | getNext (head : Nat) (length : Int) (created : Option Nat)
  | releaseLBMD (addr : Nat)
  | releaseList (head : Nat)

namespace LBHeap

def init (links : Links Nat) (poison : Link Nat) : LBHeap :=
  { heads := [], links, lbmds := fun _ => none, poison, bound := 0 }

def step (heap : LBHeap) : LBEvent → Option LBHeap
  | .createList head => some (heap.createLogicalBlockList head)
  | .createLBMD lbmd => some (heap.createLogicalBlockMetaData lbmd)
  | .insert head addr => (heap.addToLogicalBlockListByInsertionSort head addr).map Prod.snd
  | .removeByLBMD head addr => (heap.removeFromLogicalBlockListByLBMD head addr).map Prod.snd
  | .removeByLBID head lbid => (heap.removeFromLogicalBlockListByLBID head lbid).map Prod.snd
  | .commitRange head slbid nrLBIDs =>
      (heap.commitLBListByRange head slbid nrLBIDs).map Prod.snd
  | .getNext head length created =>
      (heap.getNextDIORequestLBList head length created).map Prod.snd
  | .releaseLBMD addr => some (heap.releaseLogicalBlockMetaData addr)
  | .releaseList head => heap.releaseLogicalBlockList head

def Linked (heap : LBHeap) (addr : Nat) : Prop :=
  ∃ head ∈ heap.heads, ∃ blocks, heap.Holds head blocks ∧ addr ∈ blocks.map LBMD.addr

def Free (heap : LBHeap) (addr : Nat) : Prop := heap.lbmds addr = none ∧ addr ∉ heap.heads

/-- Lists that exist are used, and a block is inserted or released while it is not linked. -/
def Legal (heap : LBHeap) : LBEvent → Prop
  | .createList head => heap.Free head
  | .createLBMD lbmd => heap.Free lbmd.addr
  | .insert head addr => head ∈ heap.heads ∧ (heap.lbmds addr).isSome ∧ ¬ heap.Linked addr
  | .getNext head _ created => head ∈ heap.heads ∧ ∀ newHead ∈ created, heap.Free newHead
  | .releaseLBMD addr => (heap.lbmds addr).isSome ∧ ¬ heap.Linked addr
  | .removeByLBMD head _ | .removeByLBID head _ | .commitRange head _ _ | .releaseList head =>
      head ∈ heap.heads

structure Represents (heap : LBHeap) (contents : Nat → List LBMD) : Prop where
  distinct : heap.heads.Nodup
  holds : ∀ head ∈ heap.heads, heap.Holds head (contents head)
  ascending : ∀ head ∈ heap.heads, Ascending (contents head)
  apart : ∀ head ∈ heap.heads, ∀ other ∈ heap.heads, head ≠ other →
    ∀ addr ∈ head :: (contents head).map LBMD.addr, addr ∉ other :: (contents other).map LBMD.addr
  heads : ∀ head ∈ heap.heads, heap.lbmds head = none
  addresses : ∀ addr lbmd, heap.lbmds addr = some lbmd → lbmd.addr = addr

/-- An insertion of a block that is not linked adds exactly that block if its id is not in the
list, and does nothing otherwise. -/
def InsertsExactly (heap : LBHeap) (head : Nat) (blocks : List LBMD) : Prop :=
  ∀ addr lbmd, heap.lbmds addr = some lbmd → ¬ heap.Linked addr →
    ∃ retcode after, heap.addToLogicalBlockListByInsertionSort head addr = some (retcode, after) ∧
      (retcode = dmsOK ↔ lbmd.LBID ∉ blocks.map LBMD.LBID) ∧
      (retcode = dmsOK →
        (∃ before behind, blocks = before ++ behind ∧
          after.Holds head (before ++ lbmd :: behind)) ∧
        ∀ other ∈ heap.heads, other ≠ head → ∀ blocks, heap.Holds other blocks →
          after.Holds other blocks) ∧
      (retcode ≠ dmsOK → after = heap)

def ListsAscending (heap : LBHeap) : Prop :=
  ∀ head ∈ heap.heads, ∃ blocks, heap.Holds head blocks ∧ Ascending blocks ∧
    heap.InsertsExactly head blocks

variable {heap after : LBHeap} {head addr : Nat} {region heads : List Nat} {lbmd : LBMD}
  {blocks : List LBMD} {contents contents' : Nat → List LBMD}

/-- The blocks of a list are determined by the heap. -/
theorem Holds.unique {blocks' : List LBMD} (holds : heap.Holds head blocks)
    (holds' : heap.Holds head blocks') : blocks = blocks' := by
  have addrs := holds.ring.unique holds'.ring
  have some_blocks : blocks.map some = blocks'.map some := by
    have read {list : List LBMD} (held : heap.Holds head list) :
        list.map some = (list.map LBMD.addr).map heap.lbmds := by
      rw [List.map_map]
      exact List.map_congr_left fun lbmd member => (held.lbmds lbmd member).symm
    rw [read holds, read holds', addrs]
  exact List.map_injective_iff.mpr (Option.some_injective _) some_blocks

namespace Represents

theorem not_linked (represents : heap.Represents contents) (unlinked : ¬ heap.Linked addr)
    (inHeads : head ∈ heap.heads) : addr ∉ (contents head).map LBMD.addr :=
  fun member => unlinked ⟨head, inHeads, contents head, represents.holds head inHeads, member⟩

theorem ne_heads (represents : heap.Represents contents) (inHeads : head ∈ heap.heads)
    (allocated : heap.lbmds addr = some lbmd) : addr ≠ head := by
  rintro rfl
  rw [represents.heads addr inHeads] at allocated
  cases allocated

theorem outside (represents : heap.Represents contents) (inHeads : head ∈ heap.heads)
    (allocated : heap.lbmds addr = some lbmd) (unlinked : ¬ heap.Linked addr) :
    addr ∉ head :: (contents head).map LBMD.addr := by
  rw [List.mem_cons, not_or]
  exact ⟨represents.ne_heads inHeads allocated, represents.not_linked unlinked inHeads⟩

theorem outside_free (represents : heap.Represents contents) (inHeads : head ∈ heap.heads)
    (free : heap.Free addr) : addr ∉ head :: (contents head).map LBMD.addr := by
  rw [List.mem_cons, not_or]
  refine ⟨fun same => free.2 (same ▸ inHeads), fun member => ?_⟩
  obtain ⟨lbmd, linked, rfl⟩ := List.mem_map.mp member
  have allocated := (represents.holds head inHeads).lbmds lbmd linked
  rw [free.1] at allocated
  cases allocated

/-- An operation renews the lists of some heads within its region and leaves the others. -/
theorem change (changed : List Nat) (represents : heap.Represents contents)
    (keeps : Keeps { heap with heads } after region) (distinct : heads.Nodup)
    (unchanged : ∀ other ∈ heads, other ∉ changed → other ∈ heap.heads ∧
      contents' other = contents other ∧
      ∀ addr ∈ other :: (contents other).map LBMD.addr, addr ∉ region)
    (renewed : ∀ other ∈ heads, other ∈ changed → after.Holds other (contents' other) ∧
      Ascending (contents' other) ∧ heap.lbmds other = none ∧
      other :: (contents' other).map LBMD.addr ⊆ region)
    (apart : ∀ head ∈ heads, ∀ other ∈ heads, head ∈ changed → other ∈ changed → head ≠ other →
      ∀ addr ∈ head :: (contents' head).map LBMD.addr,
        addr ∉ other :: (contents' other).map LBMD.addr) :
    after.Represents contents' := by
  have sameHeads : after.heads = heads := keeps.heads
  constructor
  · rw [sameHeads]
    exact distinct
  · intro other member
    rw [sameHeads] at member
    by_cases isChanged : other ∈ changed
    · exact (renewed other member isChanged).1
    · obtain ⟨inHeads, same, outside⟩ := unchanged other member isChanged
      rw [same]
      have held : Holds { heap with heads } other (contents other) :=
        have before := represents.holds other inHeads
        ⟨before.ring, before.lbmds, before.bounded⟩
      exact held.congr keeps outside
  · intro other member
    rw [sameHeads] at member
    by_cases isChanged : other ∈ changed
    · exact (renewed other member isChanged).2.1
    · obtain ⟨inHeads, same, -⟩ := unchanged other member isChanged
      rw [same]
      exact represents.ascending other inHeads
  · intro head member other member' different addr inHead inOther
    rw [sameHeads] at member member'
    by_cases isChanged : head ∈ changed <;> by_cases isChanged' : other ∈ changed
    · exact apart head member other member' isChanged isChanged' different addr inHead inOther
    · obtain ⟨-, same, outside⟩ := unchanged other member' isChanged'
      rw [same] at inOther
      exact outside addr inOther ((renewed head member isChanged).2.2.2 inHead)
    · obtain ⟨-, same, outside⟩ := unchanged head member isChanged
      rw [same] at inHead
      exact outside addr inHead ((renewed other member' isChanged').2.2.2 inOther)
    · obtain ⟨inHeads, same, -⟩ := unchanged head member isChanged
      obtain ⟨inHeads', same', -⟩ := unchanged other member' isChanged'
      rw [same] at inHead
      rw [same'] at inOther
      exact represents.apart head inHeads other inHeads' different addr inHead inOther
  · intro other member
    rw [sameHeads] at member
    have before : heap.lbmds other = none := by
      by_cases isChanged : other ∈ changed
      · exact (renewed other member isChanged).2.2.1
      · exact represents.heads other (unchanged other member isChanged).1
    cases found : after.lbmds other with
    | none => rfl
    | some lbmd =>
        have allocated : heap.lbmds other = some lbmd := keeps.allocated other lbmd found
        rw [before] at allocated
        cases allocated
  · intro addr lbmd found
    exact represents.addresses addr lbmd (keeps.allocated addr lbmd found)

/-- An operation on one list renews that list. -/
theorem update (represents : heap.Represents contents) (inHeads : head ∈ heap.heads)
    (holds : after.Holds head blocks) (ascending : Ascending blocks)
    (keeps : heap.Keeps after region)
    (outside : ∀ other ∈ heap.heads, other ≠ head →
      ∀ addr ∈ other :: (contents other).map LBMD.addr, addr ∉ region)
    (within : head :: blocks.map LBMD.addr ⊆ region) :
    after.Represents (Function.update contents head blocks) := by
  have elsewhere (other : Nat) (different : other ≠ head) :
      Function.update contents head blocks other = contents other :=
    Function.update_of_ne different _ _
  refine represents.change [head] keeps represents.distinct ?_ ?_ ?_
  · intro other member notChanged
    have different : other ≠ head := fun same => notChanged (List.mem_singleton.mpr same)
    exact ⟨member, elsewhere other different, outside other member different⟩
  · intro other member isChanged
    obtain rfl := List.mem_singleton.mp isChanged
    rw [Function.update_self]
    exact ⟨holds, ascending, represents.heads other inHeads, within⟩
  · intro first _ second _ isChanged isChanged' different
    rw [List.mem_singleton.mp isChanged, List.mem_singleton.mp isChanged'] at different
    exact absurd rfl different

theorem shrink (represents : heap.Represents contents) (inHeads : head ∈ heap.heads)
    (holds : after.Holds head blocks) (sublist : blocks.Sublist (contents head))
    (keeps : heap.Keeps after (head :: (contents head).map LBMD.addr)) :
    after.Represents (Function.update contents head blocks) := by
  have ascending := (represents.ascending head inHeads).sublist (sublist.map LBMD.LBID)
  refine represents.update inHeads holds ascending keeps ?_ ?_
  · exact fun other member different => represents.apart other member head inHeads different
  · exact List.cons_subset_cons head (sublist.map LBMD.addr).subset

theorem createLogicalBlockList (represents : heap.Represents contents) (free : heap.Free head) :
    (heap.createLogicalBlockList head).Represents (Function.update contents head []) := by
  refine represents.change [head] (createLogicalBlockList_keeps heap head)
    (List.nodup_cons.mpr ⟨free.2, represents.distinct⟩) ?_ ?_ ?_
  · intro other member notChanged
    have different : other ≠ head := fun same => notChanged (List.mem_singleton.mpr same)
    have inHeads := List.mem_of_ne_of_mem different member
    refine ⟨inHeads, Function.update_of_ne different _ _, fun addr among new => ?_⟩
    rw [List.mem_singleton.mp new] at among
    exact represents.outside_free inHeads free among
  · intro other _ isChanged
    obtain rfl := List.mem_singleton.mp isChanged
    rw [Function.update_self]
    exact ⟨createLogicalBlockList_holds heap other, .nil, free.1, List.Subset.refl _⟩
  · intro first _ second _ isChanged isChanged' different
    rw [List.mem_singleton.mp isChanged, List.mem_singleton.mp isChanged'] at different
    exact absurd rfl different

theorem createLogicalBlockMetaData (represents : heap.Represents contents)
    (free : heap.Free lbmd.addr) : (heap.createLogicalBlockMetaData lbmd).Represents contents where
  distinct := represents.distinct
  holds head inHeads :=
    (represents.holds head inHeads).createLogicalBlockMetaData
      (represents.outside_free inHeads free)
  ascending := represents.ascending
  apart := represents.apart
  heads head inHeads := by
    refine (Function.update_of_ne ?_ _ _).trans (represents.heads head inHeads)
    rintro rfl
    exact free.2 inHeads
  addresses addr other found := by
    by_cases same : addr = lbmd.addr
    · have new : (heap.createLogicalBlockMetaData lbmd).lbmds addr = some lbmd := by
        rw [same]
        exact Function.update_self ..
      rw [same, Option.some.inj (new.symm.trans found)]
    · exact represents.addresses addr other ((Function.update_of_ne same _ _).symm.trans found)

theorem releaseLogicalBlockMetaData (represents : heap.Represents contents)
    (allocated : heap.lbmds addr = some lbmd) (unlinked : ¬ heap.Linked addr) :
    (heap.releaseLogicalBlockMetaData addr).Represents contents := by
  have keeps : heap.Keeps (heap.releaseLogicalBlockMetaData addr) [addr] :=
    ⟨rfl, fun _ _ => rfl, fun other elsewhere =>
      Function.update_of_ne (List.mem_singleton.not.mp elsewhere) _ _,
      fun _ _ found => releaseLogicalBlockMetaData_some found, Nat.le_refl _⟩
  refine represents.change [] keeps represents.distinct ?_ ?_ ?_
  · refine fun other inHeads _ => ⟨inHeads, rfl, fun addr' among member => ?_⟩
    rw [List.mem_singleton.mp member] at among
    exact represents.outside inHeads allocated unlinked among
  · exact fun _ _ isChanged => absurd isChanged List.not_mem_nil
  · exact fun _ _ _ _ isChanged => absurd isChanged List.not_mem_nil

theorem releaseLogicalBlockList (represents : heap.Represents contents)
    (inHeads : head ∈ heap.heads) :
    ∃ after, heap.releaseLogicalBlockList head = some after ∧ after.Represents contents := by
  obtain ⟨after, released, keeps, -⟩ := (represents.holds head inHeads).releaseLogicalBlockList
  refine ⟨after, released, ?_⟩
  refine represents.change [] keeps (represents.distinct.erase head) ?_ ?_ ?_
  · intro other member _
    have among := List.mem_of_mem_erase member
    have different : other ≠ head := by
      rintro rfl
      exact represents.distinct.not_mem_erase member
    refine ⟨among, rfl, fun addr linked inRegion => ?_⟩
    exact represents.apart other among head inHeads different addr linked
      (List.mem_cons_of_mem _ inRegion)
  · exact fun _ _ isChanged => absurd isChanged List.not_mem_nil
  · exact fun _ _ _ _ isChanged => absurd isChanged List.not_mem_nil

theorem insert (represents : heap.Represents contents) (inHeads : head ∈ heap.heads)
    (allocated : heap.lbmds addr = some lbmd) (unlinked : ¬ heap.Linked addr) :
    ∃ retcode after, heap.addToLogicalBlockListByInsertionSort head addr = some (retcode, after) ∧
      (DmsBlkdev.addToLogicalBlockListByInsertionSort (contents head) lbmd = none ∧
          retcode = dmsFail ∧ after = heap ∨
        ∃ before behind, contents head = before ++ behind ∧
          DmsBlkdev.addToLogicalBlockListByInsertionSort (contents head) lbmd =
            some (before ++ lbmd :: behind) ∧
          retcode = dmsOK ∧
          after.Represents (Function.update contents head (before ++ lbmd :: behind)) ∧
          after.heads = heap.heads) := by
  obtain rfl := represents.addresses addr lbmd allocated
  have outside := represents.outside inHeads allocated unlinked
  have ascending := represents.ascending head inHeads
  obtain ⟨retcode, after, inserted, refused | ⟨before, behind, split, sorted, ok, holds, keeps⟩⟩ :=
    (represents.holds head inHeads).addToLogicalBlockListByInsertionSort allocated outside
  · exact ⟨retcode, after, inserted, .inl refused⟩
  · refine ⟨retcode, after, inserted, .inr ⟨before, behind, split, sorted, ok, ?_, keeps.heads⟩⟩
    refine represents.update inHeads holds (addByInsertionSort_some ascending sorted).1 keeps ?_ ?_
    · intro other inHeads' different other_addr among inRegion
      rcases List.mem_cons.mp inRegion with rfl | inRegion
      · exact represents.outside inHeads' allocated unlinked among
      · exact represents.apart other inHeads' head inHeads different other_addr among inRegion
    · rw [split]
      intro other member
      simp only [List.mem_cons, List.map_append, List.map_cons, List.mem_append] at member ⊢
      tauto

theorem removeFromLogicalBlockList (represents : heap.Represents contents)
    (inHeads : head ∈ heap.heads) (check : LBMD → Bool) :
    ∃ result after, heap.removeFromLogicalBlockList head check = some (result, after) ∧
      after.Represents (Function.update contents head ((contents head).eraseP check)) := by
  obtain ⟨after, removed, holds, keeps⟩ :=
    (represents.holds head inHeads).removeFromLogicalBlockList check
  exact ⟨_, after, removed, represents.shrink inHeads holds List.eraseP_sublist keeps⟩

theorem commitLBListByRange (represents : heap.Represents contents) (inHeads : head ∈ heap.heads)
    (slbid : Nat) (nrLBIDs : Int) :
    ∃ empty after, heap.commitLBListByRange head slbid nrLBIDs = some (empty, after) ∧
      after.Represents (Function.update contents head
        (DmsBlkdev.commitLBListByRange (contents head) slbid nrLBIDs).1) := by
  obtain ⟨after, committed, holds, keeps, -⟩ :=
    (represents.holds head inHeads).commitLBListByRange slbid nrLBIDs
  have sublist := commitLBListByRange_sublist (contents head) slbid nrLBIDs
  exact ⟨_, after, committed, represents.shrink inHeads holds sublist keeps⟩

/-- The list of a head is taken apart into that of a new head and the rest. -/
theorem splitOff {newHead : Nat} {moved rest : List LBMD} (represents : heap.Represents contents)
    (inHeads : head ∈ heap.heads) (free : heap.Free newHead)
    (whole : moved ++ rest = contents head) (holdsMoved : after.Holds newHead moved)
    (holdsRest : after.Holds head rest)
    (keeps : Keeps { heap with heads := newHead :: heap.heads } after
      (newHead :: head :: (contents head).map LBMD.addr)) :
    after.Represents (Function.update (Function.update contents head rest) newHead moved) := by
  have different : head ≠ newHead := fun same => free.2 (same ▸ inHeads)
  have fresh := represents.outside_free inHeads free
  have ascending := represents.ascending head inHeads
  have distinct := (represents.holds head inHeads).ring.distinct
  rw [← whole] at fresh ascending distinct
  rw [List.map_append] at fresh distinct
  have atNew : Function.update (Function.update contents head rest) newHead moved newHead = moved :=
    Function.update_self ..
  have atHead : Function.update (Function.update contents head rest) newHead moved head = rest := by
    rw [Function.update_of_ne different, Function.update_self]
  -- the two rings are disjoint
  have disjoint : ∀ addr ∈ newHead :: moved.map LBMD.addr, addr ∉ head :: rest.map LBMD.addr := by
    obtain ⟨notHead, distinct⟩ := List.nodup_cons.mp distinct
    intro addr inMoved inRest
    rcases List.mem_cons.mp inMoved with rfl | inMoved
    · exact fresh (List.cons_subset_cons head (List.subset_append_right _ _) inRest)
    · rcases List.mem_cons.mp inRest with rfl | inRest
      · exact notHead (List.mem_append_left _ inMoved)
      · exact (List.nodup_append.mp distinct).2.2 addr inMoved addr inRest rfl
  refine represents.change [newHead, head] keeps
    (List.nodup_cons.mpr ⟨free.2, represents.distinct⟩) ?_ ?_ ?_
  · intro other member notChanged
    simp only [List.mem_cons, List.not_mem_nil, or_false, not_or] at notChanged
    obtain ⟨notNew, notHead⟩ := notChanged
    have among := List.mem_of_ne_of_mem notNew member
    refine ⟨among, ?_, fun addr linked inRegion => ?_⟩
    · rw [Function.update_of_ne notNew, Function.update_of_ne notHead]
    · rcases List.mem_cons.mp inRegion with rfl | inRegion
      · exact represents.outside_free among free linked
      · exact represents.apart other among head inHeads notHead addr linked inRegion
  · intro other _ isChanged
    rcases List.mem_cons.mp isChanged with rfl | isChanged
    · rw [atNew]
      refine ⟨holdsMoved, ascending.sublist ?_, free.1, ?_⟩
      · exact (List.sublist_append_left moved rest).map LBMD.LBID
      · rw [← whole, List.map_append]
        exact List.cons_subset_cons _
          (List.subset_cons_of_subset _ (List.subset_append_left _ _))
    · obtain rfl := List.mem_singleton.mp isChanged
      rw [atHead]
      refine ⟨holdsRest, ascending.sublist ?_, represents.heads other inHeads, ?_⟩
      · exact (List.sublist_append_right moved rest).map LBMD.LBID
      · rw [← whole, List.map_append]
        exact List.subset_cons_of_subset _
          (List.cons_subset_cons _ (List.subset_append_right _ _))
  · intro first _ second _ isChanged isChanged' apart addr inFirst inSecond
    rcases List.mem_cons.mp isChanged with rfl | isHead <;>
      rcases List.mem_cons.mp isChanged' with rfl | isHead'
    · exact apart rfl
    · obtain rfl := List.mem_singleton.mp isHead'
      rw [atNew] at inFirst
      rw [atHead] at inSecond
      exact disjoint addr inFirst inSecond
    · obtain rfl := List.mem_singleton.mp isHead
      rw [atHead] at inFirst
      rw [atNew] at inSecond
      exact disjoint addr inSecond inFirst
    · rw [List.mem_singleton.mp isHead, List.mem_singleton.mp isHead'] at apart
      exact apart rfl

theorem getNextDIORequestLBList {newHead : Nat} (represents : heap.Represents contents)
    (inHeads : head ∈ heap.heads) (length : Int) (free : heap.Free newHead) :
    ∃ result after,
      heap.getNextDIORequestLBList head length (some newHead) = some (result, after) ∧
      ∃ contents', after.Represents contents' := by
  have fresh := represents.outside_free inHeads free
  obtain ⟨result, after, split, outcome⟩ :=
    (represents.holds head inHeads).getNextDIORequestLBList length fresh
  refine ⟨result, after, split, ?_⟩
  split_ifs at outcome with exactly
  · obtain ⟨-, moved, remain, keeps⟩ := outcome
    have whole := moveSubList_append (contents head) length
    exact ⟨_, represents.splitOff inHeads free whole moved remain keeps⟩
  · obtain ⟨-, -, keeps⟩ := outcome
    refine ⟨contents, represents.change [] keeps represents.distinct ?_ ?_ ?_⟩
    · refine fun other inHeads' _ => ⟨inHeads', rfl, fun addr among member => ?_⟩
      rw [List.mem_singleton.mp member] at among
      exact represents.outside_free inHeads' free among
    · exact fun _ _ isChanged => absurd isChanged List.not_mem_nil
    · exact fun _ _ _ _ isChanged => absurd isChanged List.not_mem_nil

/-- Every legal operation gets through, and the heap represents lists then. -/
theorem step {event : LBEvent} (represents : heap.Represents contents)
    (legal : heap.Legal event) :
    ∃ after, heap.step event = some after ∧ ∃ contents', after.Represents contents' := by
  cases event with
  | createList head => exact ⟨_, rfl, _, represents.createLogicalBlockList legal⟩
  | createLBMD lbmd => exact ⟨_, rfl, _, represents.createLogicalBlockMetaData legal⟩
  | insert head addr =>
      obtain ⟨inHeads, allocated, unlinked⟩ := legal
      obtain ⟨lbmd, allocated⟩ := Option.isSome_iff_exists.mp allocated
      obtain ⟨retcode, after, inserted, ⟨-, -, rfl⟩ | ⟨_, _, -, -, -, represents', -⟩⟩ :=
        represents.insert inHeads allocated unlinked
      · exact ⟨after, congrArg (Option.map Prod.snd) inserted, contents, represents⟩
      · exact ⟨after, congrArg (Option.map Prod.snd) inserted, _, represents'⟩
  | removeByLBMD head addr =>
      obtain ⟨result, after, removed, represents'⟩ :=
        represents.removeFromLogicalBlockList legal fun tmp => tmp.addr = addr
      exact ⟨after, congrArg (Option.map Prod.snd) removed, _, represents'⟩
  | removeByLBID head lbid =>
      obtain ⟨result, after, removed, represents'⟩ :=
        represents.removeFromLogicalBlockList legal fun tmp => tmp.LBID = lbid
      exact ⟨after, congrArg (Option.map Prod.snd) removed, _, represents'⟩
  | commitRange head slbid nrLBIDs =>
      obtain ⟨empty, after, committed, represents'⟩ :=
        represents.commitLBListByRange legal slbid nrLBIDs
      exact ⟨after, congrArg (Option.map Prod.snd) committed, _, represents'⟩
  | getNext head length created =>
      obtain ⟨inHeads, free⟩ := legal
      cases created with
      | none => exact ⟨heap, rfl, contents, represents⟩
      | some newHead =>
          obtain ⟨result, after, split, contents', represents'⟩ :=
            represents.getNextDIORequestLBList inHeads length (free newHead rfl)
          exact ⟨after, congrArg (Option.map Prod.snd) split, contents', represents'⟩
  | releaseLBMD addr =>
      obtain ⟨allocated, unlinked⟩ := legal
      obtain ⟨lbmd, allocated⟩ := Option.isSome_iff_exists.mp allocated
      exact ⟨_, rfl, contents, represents.releaseLogicalBlockMetaData allocated unlinked⟩
  | releaseList head =>
      obtain ⟨after, released, represents'⟩ := represents.releaseLogicalBlockList legal
      exact ⟨after, released, contents, represents'⟩

theorem insertsExactly (represents : heap.Represents contents) (inHeads : head ∈ heap.heads) :
    heap.InsertsExactly head (contents head) := by
  intro addr lbmd allocated unlinked
  have ascending := represents.ascending head inHeads
  obtain ⟨retcode, after, inserted, ⟨refused, rfl, same⟩ |
      ⟨before, behind, split, sorted, rfl, represents', sameHeads⟩⟩ :=
    represents.insert inHeads allocated unlinked
  · refine ⟨dmsFail, after, inserted, ?_, fun ok => ?_, fun _ => same⟩
    · refine iff_of_false (by decide) (not_not.mpr ?_)
      exact addByInsertionSort_none refused
    · exact absurd ok (by decide)
  · refine ⟨dmsOK, after, inserted, iff_of_true rfl ?_, fun _ => ⟨⟨before, behind, split, ?_⟩, ?_⟩,
      fun failed => absurd rfl failed⟩
    · obtain ⟨sortedIds, perm⟩ := addByInsertionSort_some ascending sorted
      have distinct := (perm.map LBMD.LBID).nodup_iff.mp (sortedIds.imp Nat.ne_of_lt)
      exact (List.nodup_cons.mp distinct).1
    · have held := represents'.holds head (sameHeads ▸ inHeads)
      rwa [Function.update_self] at held
    · intro other inHeads' different blocks held
      obtain rfl := held.unique (represents.holds other inHeads')
      have kept := represents'.holds other (sameHeads ▸ inHeads')
      rwa [Function.update_of_ne different] at kept

theorem listsAscending (represents : heap.Represents contents) : heap.ListsAscending :=
  fun head inHeads => ⟨contents head, represents.holds head inHeads,
    represents.ascending head inHeads, represents.insertsExactly inHeads⟩

end Represents

theorem represents_init (links : Links Nat) (poison : Link Nat) :
    (init links poison).Represents fun _ => [] where
  distinct := List.nodup_nil
  holds _ inHeads := absurd inHeads List.not_mem_nil
  ascending _ _ := .nil
  apart _ inHeads := absurd inHeads List.not_mem_nil
  heads _ _ := rfl
  addresses _ _ found := by cases found

/-- Every run of legal operations gets through, and every list is strictly ascending all along. -/
theorem lists_always_ascending (links : Links Nat) (poison : Link Nat) {events : List LBEvent}
    (legal : Guarded Legal step (init links poison) events) :
    (∃ last, run step (init links poison) events = some last) ∧
      Always ListsAscending step (init links poison) events := by
  have base : ∃ contents, (init links poison).Represents contents :=
    ⟨_, represents_init links poison⟩
  have kept : ∀ (before : LBHeap) event, (∃ contents, before.Represents contents) →
      before.Legal event →
        ∃ after, before.step event = some after ∧ ∃ contents, after.Represents contents :=
    fun before event ⟨_, represents⟩ legal => represents.step legal
  obtain ⟨through, always⟩ := guarded_always kept base legal
  exact ⟨through, always.imp fun _ ⟨_, represents⟩ => represents.listsAscending⟩

def splitAndCommit : List LBEvent :=
  [.createList 10, .createLBMD ⟨1, 8, 0, 1⟩, .createLBMD ⟨2, 7, 0, 0⟩, .insert 10 1, .insert 10 2,
    .getNext 10 1 (some 20), .commitRange 10 8 1]

theorem not_linked_of_holds (only : heap.heads = [head]) (holds : heap.Holds head blocks)
    (absent : addr ∉ blocks.map LBMD.addr) : ¬ heap.Linked addr := by
  rintro ⟨other, inHeads, blocks', holds', linked⟩
  rw [only, List.mem_singleton] at inHeads
  subst inHeads
  exact absent (holds.unique holds' ▸ linked)

theorem splitAndCommit_ascending :
    (∃ last, run step (init (fun _ => ⟨0, 0⟩) ⟨0, 0⟩) splitAndCommit = some last) ∧
    Always ListsAscending step (init (fun _ => ⟨0, 0⟩) ⟨0, 0⟩) splitAndCommit := by
  apply lists_always_ascending
  refine ⟨⟨rfl, List.not_mem_nil⟩, ?_⟩
  rintro _ ⟨⟩
  refine ⟨⟨rfl, by decide⟩, ?_⟩
  rintro _ ⟨⟩
  refine ⟨⟨rfl, by decide⟩, ?_⟩
  rintro _ ⟨⟩
  refine ⟨⟨List.mem_cons_self, rfl, ?_⟩, ?_⟩
  · have holds : Holds _ 10 [] := createLogicalBlockList_holds (init (fun _ => ⟨0, 0⟩) ⟨0, 0⟩) 10
    exact not_linked_of_holds rfl
      ((holds.createLogicalBlockMetaData (by decide)).createLogicalBlockMetaData (by decide))
      List.not_mem_nil
  · rintro next taken
    cases taken
    refine ⟨⟨List.mem_cons_self, rfl, ?_⟩, ?_⟩
    · refine @not_linked_of_holds _ 10 2 [⟨1, 8, 0, 1⟩] rfl ⟨⟨?_, by decide⟩, ?_, by decide⟩
        (by decide)
      · exact .cons_cons ⟨rfl, rfl⟩ (.cons_cons ⟨rfl, rfl⟩ (.singleton _))
      · exact List.forall_mem_singleton.mpr rfl
    · rintro next taken
      cases taken
      refine ⟨⟨List.mem_cons_self, ?_⟩, ?_⟩
      · rintro _ ⟨⟩
        exact ⟨rfl, by decide⟩
      · rintro next taken
        cases taken
        exact ⟨List.mem_cons_of_mem _ List.mem_cons_self, fun _ _ => trivial⟩

end LBHeap

end DmsBlkdev
