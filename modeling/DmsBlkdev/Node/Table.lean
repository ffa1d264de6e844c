import DmsBlkdev.Common
import DmsBlkdev.Payload.Translate
import DmsBlkdev.Lib.Run

/-!
# The table of nodes

A node container stands in a slot of the table under its ip and port.  A build
looks for a duplicate before it takes the first empty slot; a destroy empties
the slot.  Of the two lookups, `Get_Node_Index_by_IP_Port` takes the port as a
signed short and compares it with the unsigned short of the container.
-/

namespace DmsBlkdev

open Lib.Run

/-- `DMS_MAX_NODES`. -/
def dmsMaxNodes : Nat := 255

/-- `struct DMS_Node_Container`, as far as the table reads it. -/
structure DMSNodeContainer where
  ssk : SSocket
  index : Int
  deriving DecidableEq, Repr

/-- `dms_nodes`. -/
abbrev DMSNodes := List (Option DMSNodeContainer)

namespace DMSNodes

/-- `DNC_IN_RANGE`. -/
def dncInRange (nodes : DMSNodes) (index : Int) : Bool := 0 ≤ index ∧ index ≤ nodes.length - 1

/-- `__DNC_Check_Duplicate`. -/
def dncCheckDuplicate (nodes : DMSNodes) (dnc : DMSNodeContainer) : Option DMSNodeContainer :=
  nodes.findSome? fun slot => slot.filter fun other =>
    dnc.ssk.ip = other.ssk.ip && dnc.ssk.port = other.ssk.port

/-- `__Occupy_One_Index`. -/
def occupyOneIndex (nodes : DMSNodes) (dnc : DMSNodeContainer) : Int × DMSNodes :=
  match nodes.dncCheckDuplicate dnc with
  | some _ => (-1, nodes)
  | none =>
      match nodes.findIdx? Option.isNone with
      | none => (-1, nodes)
      | some i => (i, nodes.set i (some dnc))

/-- `__Clean_One_Index`. -/
def cleanOneIndex (nodes : DMSNodes) (nodeIndex : Int) : Option DMSNodeContainer × DMSNodes :=
  if nodes.dncInRange nodeIndex then
    match nodes[nodeIndex.toNat]? with
    | some (some dnc) => (some dnc, nodes.set nodeIndex.toNat none)
    | _ => (none, nodes)
  else (none, nodes)

/-- `Build_DMS_Node_Container`, given whether the container is created and what `Build_Connection`
returns; the node keeps its slot when that fails. -/
def buildDMSNodeContainer (nodes : DMSNodes) (created : Bool) (buildConnection : Int)
    (nodeIP : BitVec 32) (port : BitVec 16) : Int × DMSNodes :=
  if created then
    match nodes.occupyOneIndex ⟨⟨nodeIP, port⟩, 0⟩ with
    | (index, nodes) =>
        if nodes.dncInRange index then
          (if 0 < buildConnection then index else dmsFail,
            nodes.set index.toNat (some ⟨⟨nodeIP, port⟩, index⟩))
        else (dmsFail, nodes)
  else (dmsFail, nodes)

/-- `Destroy_DMS_Node_Container`. -/
def destroyDMSNodeContainer (nodes : DMSNodes) (nodeIndex : Int) : DMSNodes :=
  (nodes.cleanOneIndex nodeIndex).2

/-- The loop of the lookups, from index `i` on, which does not stop at a match. -/
def indexLoop (isMatch : SSocket → Bool) : DMSNodes → Nat → Int → Int
  | [], _, retcode => retcode
  | slot :: rest, i, retcode =>
      indexLoop isMatch rest (i + 1) (if slot.any (isMatch ·.ssk) then i else retcode)

/-- `Get_Node_Index_by_IP_Port`; the unsigned port of the container and the signed one of the
argument are compared as integers. -/
def getNodeIndexByIPPort (nodes : DMSNodes) (ip : BitVec 32) (port : BitVec 16) : Int :=
  indexLoop (fun ssk => ssk.ip = ip && (ssk.port.toNat : Int) = port.toInt) nodes 0 (-1)

/-- `Get_Node_Index_by_SSocket`. -/
def getNodeIndexBySSocket (nodes : DMSNodes) (ssk : SSocket) : Int :=
  indexLoop (fun other => other.ip = ssk.ip && other.port = ssk.port) nodes 0 (-1)

def sskAt (nodes : DMSNodes) (i : Nat) : Option SSocket := nodes[i]?.join.map DMSNodeContainer.ssk

section Lookup

variable {nodes rest : DMSNodes} {slot : Option DMSNodeContainer} {i : Nat} {ssk : SSocket}
  {isMatch : SSocket → Bool}

@[simp] theorem sskAt_nil : sskAt [] i = none := rfl

@[simp] theorem sskAt_zero : sskAt (slot :: rest) 0 = slot.map DMSNodeContainer.ssk := rfl

@[simp] theorem sskAt_succ : sskAt (slot :: rest) (i + 1) = sskAt rest i := rfl

theorem lt_of_sskAt (found : nodes.sskAt i = some ssk) : i < nodes.length := by
  by_contra beyond
  rw [sskAt, List.getElem?_eq_none (Nat.le_of_not_lt beyond)] at found
  cases found

theorem sskAt_set (dnc : Option DMSNodeContainer) (inside : i < nodes.length) (j : Nat) :
    sskAt (nodes.set i dnc) j = if j = i then dnc.map DMSNodeContainer.ssk else nodes.sskAt j := by
  rw [sskAt, List.getElem?_set]
  by_cases same : j = i
  · simp [same, inside]
  · simp [same, Ne.symm same, sskAt]

theorem indexLoop_none (absent : ∀ i ssk, nodes.sskAt i = some ssk → isMatch ssk = false)
    (start : Nat) (retcode : Int) : indexLoop isMatch nodes start retcode = retcode := by
  induction nodes generalizing start with
  | nil => rfl
  | cons slot rest inductionHypothesis =>
      have here : slot.any (isMatch ·.ssk) = false := by
        cases slot with
        | none => rfl
        | some dnc => exact absent 0 dnc.ssk rfl
      rw [indexLoop, here]
      exact inductionHypothesis (fun i ssk found => absent (i + 1) ssk found) (start + 1)

theorem indexLoop_some (found : nodes.sskAt i = some ssk) (passes : isMatch ssk = true)
    (only : ∀ j other, nodes.sskAt j = some other → isMatch other = true → j = i) (start : Nat)
    (retcode : Int) : indexLoop isMatch nodes start retcode = (start + i : Nat) := by
  induction nodes generalizing start i retcode with
  | nil => cases found
  | cons slot rest inductionHypothesis =>
      rw [indexLoop]
      cases i with
      | zero =>
          have here : slot.any (isMatch ·.ssk) = true := by
            obtain ⟨dnc, rfl, rfl⟩ := Option.map_eq_some_iff.mp found
            exact passes
          rw [here, if_pos rfl]
          refine indexLoop_none (fun j other later => ?_) _ _
          by_contra matched
          have same := only (j + 1) other later (by simpa using matched)
          cases same
      | succ i =>
          rw [inductionHypothesis found (fun j other later matched => ?_), Nat.add_right_comm,
            Nat.add_assoc]
          exact Nat.succ_injective (only (j + 1) other later matched)

end Lookup

def Distinct (nodes : DMSNodes) : Prop :=
  ∀ i j ssk, nodes.sskAt i = some ssk → nodes.sskAt j = some ssk → i = j

theorem ssk_eq_iff {first second : SSocket} :
    first = second ↔ first.ip = second.ip ∧ first.port = second.port := by
  cases first
  cases second
  simp

section Keyed

variable {nodes : DMSNodes} {i : Nat} {ssk : SSocket}

/-- A signed port equals an unsigned one if they are the same and below 32768. -/
theorem toNat_eq_toInt {port other : BitVec 16} :
    (other.toNat : Int) = port.toInt ↔ other = port ∧ port.toNat < 2 ^ 15 := by
  rw [BitVec.toInt_eq_toNat_cond, ← BitVec.toNat_inj]
  have bound := other.isLt
  split <;> omega

theorem getNodeIndexBySSocket_some (distinct : nodes.Distinct)
    (found : nodes.sskAt i = some ssk) : nodes.getNodeIndexBySSocket ssk = i := by
  rw [getNodeIndexBySSocket, indexLoop_some found (by simp), Nat.zero_add]
  intro j other there isMatch
  obtain rfl : other = ssk := ssk_eq_iff.mpr (by simpa using isMatch)
  exact distinct j i other there found

theorem getNodeIndexBySSocket_none (absent : ∀ i, nodes.sskAt i ≠ some ssk) :
    nodes.getNodeIndexBySSocket ssk = -1 := by
  apply indexLoop_none
  intro i other there
  by_contra isMatch
  obtain rfl : other = ssk := ssk_eq_iff.mpr (by simpa using isMatch)
  exact absent i there

theorem getNodeIndexByIPPort_some (distinct : nodes.Distinct) (found : nodes.sskAt i = some ssk)
    (below : ssk.port.toNat < 2 ^ 15) : nodes.getNodeIndexByIPPort ssk.ip ssk.port = i := by
  have passes : (decide (ssk.ip = ssk.ip) &&
      decide ((ssk.port.toNat : Int) = ssk.port.toInt)) = true := by
    simp [toNat_eq_toInt.mpr ⟨rfl, below⟩]
  rw [getNodeIndexByIPPort, indexLoop_some found passes, Nat.zero_add]
  intro j other there isMatch
  simp only [Bool.and_eq_true, decide_eq_true_eq, toNat_eq_toInt] at isMatch
  obtain rfl : other = ssk := ssk_eq_iff.mpr ⟨isMatch.1, isMatch.2.1⟩
  exact distinct j i other there found

/-- No node is found for a pair that is not in the table, or for a port from 32768 on. -/
theorem getNodeIndexByIPPort_none
    (absent : (∀ i, nodes.sskAt i ≠ some ssk) ∨ 2 ^ 15 ≤ ssk.port.toNat) :
    nodes.getNodeIndexByIPPort ssk.ip ssk.port = -1 := by
  apply indexLoop_none
  intro i other there
  by_contra isMatch
  simp only [Bool.not_eq_false, Bool.and_eq_true, decide_eq_true_eq, toNat_eq_toInt] at isMatch
  obtain ⟨sameIP, samePort, below⟩ := isMatch
  rcases absent with absent | above
  · apply absent i
    rw [there, ssk_eq_iff.mpr ⟨sameIP, samePort⟩]
  · exact Nat.not_lt_of_le above below

end Keyed

section Change

variable {nodes : DMSNodes} {dnc : DMSNodeContainer}

theorem dncCheckDuplicate_eq_none :
    nodes.dncCheckDuplicate dnc = none ↔ ∀ i, nodes.sskAt i ≠ some dnc.ssk := by
  rw [dncCheckDuplicate, List.findSome?_eq_none_iff]
  constructor
  · intro unequal i there
    obtain ⟨other, slot, same⟩ := Option.map_eq_some_iff.mp there
    have member := List.mem_of_getElem? (Option.join_eq_some_iff.mp slot)
    have apart := unequal (some other) member
    simp [same] at apart
  · intro absent slot member
    cases slot with
    | none => rfl
    | some other =>
        obtain ⟨i, there⟩ := List.mem_iff_getElem?.mp member
        have apart : other.ssk ≠ dnc.ssk := by
          intro same
          apply absent i
          rw [sskAt, there, ← same]
          rfl
        have unequal : (decide (dnc.ssk.ip = other.ssk.ip) &&
            decide (dnc.ssk.port = other.ssk.port)) = false := by
          by_contra equal
          simp only [Bool.not_eq_false, Bool.and_eq_true, decide_eq_true_eq] at equal
          exact apart (ssk_eq_iff.mpr equal).symm
        rw [Option.filter_some, unequal]
        rfl

/-- The first empty slot is occupied, unless the pair is in the table or no slot is empty. -/
theorem occupyOneIndex_some {index : Nat} (fresh : ∀ i, nodes.sskAt i ≠ some dnc.ssk)
    (empty : nodes.findIdx? Option.isNone = some index) :
    nodes.occupyOneIndex dnc = ((index : Int), nodes.set index (some dnc)) ∧
      index < nodes.length ∧ nodes.sskAt index = none := by
  obtain ⟨inside, vacant, -⟩ := List.findIdx?_eq_some_iff_getElem.mp empty
  refine ⟨?_, inside, ?_⟩
  · rw [occupyOneIndex, dncCheckDuplicate_eq_none.mpr fresh, empty]
  · rw [sskAt, List.getElem?_eq_getElem inside, Option.isNone_iff_eq_none.mp vacant]
    rfl

theorem occupyOneIndex_none
    (refused : (∃ i, nodes.sskAt i = some dnc.ssk) ∨ nodes.findIdx? Option.isNone = none) :
    nodes.occupyOneIndex dnc = (-1, nodes) := by
  rw [occupyOneIndex]
  cases duplicate : nodes.dncCheckDuplicate dnc with
  | some other => rfl
  | none =>
      rcases refused with ⟨i, there⟩ | full
      · exact absurd there (dncCheckDuplicate_eq_none.mp duplicate i)
      · rw [full]

theorem dncInRange_neg : nodes.dncInRange (-1) = false := by
  rw [dncInRange, decide_eq_false_iff_not]
  omega

theorem dncInRange_iff {index : Nat} : nodes.dncInRange index = true ↔ index < nodes.length := by
  rw [dncInRange, decide_eq_true_eq]
  omega

variable {nodeIP : BitVec 32} {port : BitVec 16}

theorem buildDMSNodeContainer_some {index : Nat} (buildConnection : Int)
    (fresh : ∀ i, nodes.sskAt i ≠ some ⟨nodeIP, port⟩)
    (empty : nodes.findIdx? Option.isNone = some index) :
    nodes.buildDMSNodeContainer true buildConnection nodeIP port =
      (if 0 < buildConnection then (index : Int) else dmsFail,
        nodes.set index (some ⟨⟨nodeIP, port⟩, index⟩)) := by
  obtain ⟨occupied, inside, -⟩ : nodes.occupyOneIndex ⟨⟨nodeIP, port⟩, 0⟩ = _ ∧ _ :=
    occupyOneIndex_some fresh empty
  have inRange : dncInRange (nodes.set index (some ⟨⟨nodeIP, port⟩, 0⟩)) index = true := by
    rw [dncInRange_iff, List.length_set]
    exact inside
  rw [buildDMSNodeContainer, if_pos rfl, occupied]
  simp only [inRange, if_true, Int.toNat_natCast, List.set_set]

theorem buildDMSNodeContainer_none (created : Bool) (buildConnection : Int)
    (refused : created = false ∨ (∃ i, nodes.sskAt i = some ⟨nodeIP, port⟩) ∨
      nodes.findIdx? Option.isNone = none) :
    nodes.buildDMSNodeContainer created buildConnection nodeIP port = (dmsFail, nodes) := by
  cases created with
  | false => rfl
  | true =>
      have occupied : nodes.occupyOneIndex ⟨⟨nodeIP, port⟩, 0⟩ = (-1, nodes) :=
        occupyOneIndex_none (refused.resolve_left Bool.noConfusion)
      rw [buildDMSNodeContainer, if_pos rfl, occupied]
      simp [dncInRange_neg]

theorem sskAt_destroy (nodeIndex : Int) (j : Nat) :
    (nodes.destroyDMSNodeContainer nodeIndex).sskAt j =
      if (j : Int) = nodeIndex then none else nodes.sskAt j := by
  rw [destroyDMSNodeContainer, cleanOneIndex]
  by_cases inRange : nodes.dncInRange nodeIndex = true
  · obtain ⟨index, rfl⟩ : ∃ index : Nat, nodeIndex = index := by
      rw [dncInRange, decide_eq_true_eq] at inRange
      exact Int.eq_ofNat_of_zero_le inRange.1
    rw [if_pos inRange, Int.toNat_natCast]
    have inside := dncInRange_iff.mp inRange
    have cleared : sskAt (nodes.set index none) j = if (j : Int) = index then none
        else nodes.sskAt j := by
      rw [sskAt_set none inside]
      simp
    cases slot : nodes[index] with
    | none =>
        rw [List.getElem?_eq_getElem inside, slot]
        by_cases same : (j : Int) = index
        · rw [if_pos same]
          change nodes.sskAt j = none
          rw [sskAt, Int.ofNat.inj same, List.getElem?_eq_getElem inside, slot]
          rfl
        · rw [if_neg same]
    | some dnc =>
        rw [List.getElem?_eq_getElem inside, slot]
        exact cleared
  · rw [if_neg inRange]
    split
    · next same =>
        rw [← same] at inRange
        cases there : nodes.sskAt j with
        | none => rfl
        | some ssk => exact absurd (dncInRange_iff.mpr (lt_of_sskAt there)) inRange
    · rfl

end Change

end DMSNodes

end DmsBlkdev
