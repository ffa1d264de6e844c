import DmsBlkdev.Common
import Mathlib.Data.List.Count
import Mathlib.Data.List.Perm.Basic
import Mathlib.Logic.Function.Basic

/-!
# The leaves of the metadata cache

A leaf holds one cached item.  Its reference count and the delete bit share a
word.  A leaf that leaves the tree is released at once when nobody refers to
it; otherwise it gets the delete bit, and the last reference that is put
releases it.
-/

namespace DmsBlkdev

variable {Data : Type}

/-- `struct tree_leaf`. -/
structure TreeLeaf (Data : Type) where
  data : Data
  blkid : Nat
  flagRefcnt : BitVec 32
  deriving DecidableEq, Repr

/-- `1u << 31`, the delete bit of `flag_refcnt`. -/
def deleteBit : BitVec 32 := BitVec.twoPow 32 31

namespace TreeLeaf

/-- `tree_leaf_set_delete`. -/
def setDelete (leaf : TreeLeaf Data) : TreeLeaf Data :=
  { leaf with flagRefcnt := leaf.flagRefcnt ||| deleteBit }

/-- `tree_leaf_is_delete`. -/
def isDelete (leaf : TreeLeaf Data) : Bool := leaf.flagRefcnt &&& deleteBit != 0

/-- `tree_leaf_ref_count`. -/
def refCount (leaf : TreeLeaf Data) : BitVec 32 := leaf.flagRefcnt &&& ~~~ deleteBit

end TreeLeaf

/-- The leaves allocated so far, under numbers that are not used again, and those released. -/
structure Leaves (Data : Type) where
  leaf : Nat → Option (TreeLeaf Data)
  next : Nat
  released : List Nat

namespace Leaves

def empty : Leaves Data := ⟨fun _ => none, 0, []⟩

/-- `kmem_cache_alloc`. -/
def alloc (leaves : Leaves Data) (leaf : TreeLeaf Data) : Leaves Data :=
  ⟨Function.update leaves.leaf leaves.next (some leaf), leaves.next + 1, leaves.released⟩

def store (leaves : Leaves Data) (addr : Nat) (leaf : TreeLeaf Data) : Leaves Data :=
  { leaves with leaf := Function.update leaves.leaf addr (some leaf) }

/-- `kmem_cache_free`. -/
def free (leaves : Leaves Data) (addr : Nat) : Leaves Data :=
  ⟨Function.update leaves.leaf addr none, leaves.next, addr :: leaves.released⟩

/-- `release_tree_leaf`; nothing comes of it for a leaf that is gone, or still referred to. -/
def releaseTreeLeaf (leaves : Leaves Data) (addr : Nat) : Option (Leaves Data) :=
  match leaves.leaf addr with
  | none => none
  | some leaf =>
      if 0 < leaf.refCount then none else some (leaves.free addr)

def retire (leaves : Leaves Data) (addr : Nat) : Option (Leaves Data) :=
  match leaves.leaf addr with
  | none => none
  | some leaf =>
      if 0 < leaf.refCount then some (leaves.store addr leaf.setDelete)
      else leaves.releaseTreeLeaf addr

/-- `++leaf->flag_refcnt`. -/
def takeRef (leaves : Leaves Data) (addr : Nat) : Option (Leaves Data) :=
  (leaves.leaf addr).map fun leaf =>
    leaves.store addr { leaf with flagRefcnt := leaf.flagRefcnt + 1 }

/-- One round of `cache_put`. -/
def putRef (leaves : Leaves Data) (addr : Nat) : Option (Leaves Data) :=
  (leaves.leaf addr).bind fun leaf =>
    let leaf := { leaf with flagRefcnt := leaf.flagRefcnt - 1 }
    let leaves := leaves.store addr leaf
    if leaf.isDelete = false then some leaves
    else if 0 < leaf.refCount then some leaves
    else leaves.releaseTreeLeaf addr

section Lookup

variable (leaves : Leaves Data) (leaf : TreeLeaf Data) {addr other : Nat}

@[simp] theorem alloc_next : (leaves.alloc leaf).next = leaves.next + 1 := rfl

@[simp] theorem alloc_released : (leaves.alloc leaf).released = leaves.released := rfl

@[simp] theorem alloc_leaf_self : (leaves.alloc leaf).leaf leaves.next = some leaf :=
  Function.update_self ..

theorem alloc_leaf_of_ne (different : addr ≠ leaves.next) :
    (leaves.alloc leaf).leaf addr = leaves.leaf addr := Function.update_of_ne different ..

@[simp] theorem store_next : (leaves.store addr leaf).next = leaves.next := rfl

@[simp] theorem store_released : (leaves.store addr leaf).released = leaves.released := rfl

@[simp] theorem store_leaf_self : (leaves.store addr leaf).leaf addr = some leaf :=
  Function.update_self ..

theorem store_leaf_of_ne (different : other ≠ addr) :
    (leaves.store addr leaf).leaf other = leaves.leaf other := Function.update_of_ne different ..

@[simp] theorem free_next : (leaves.free addr).next = leaves.next := rfl

@[simp] theorem free_released : (leaves.free addr).released = addr :: leaves.released := rfl

@[simp] theorem free_leaf_self : (leaves.free addr).leaf addr = none := Function.update_self ..

theorem free_leaf_of_ne (different : other ≠ addr) :
    (leaves.free addr).leaf other = leaves.leaf other := Function.update_of_ne different ..

@[simp] theorem store_free : (leaves.store addr leaf).free addr = leaves.free addr := by
  simp [store, free]

end Lookup

end Leaves

def packed (deleted : Bool) (count : Nat) : BitVec 32 :=
  BitVec.ofNat 32 ((if deleted then 2 ^ 31 else 0) + count)

section Packed

variable {deleted : Bool} {count : Nat}

theorem packed_toNat (small : count < 2 ^ 31) :
    (packed deleted count).toNat = (if deleted then 2 ^ 31 else 0) + count := by
  rw [packed, BitVec.toNat_ofNat, Nat.mod_eq_of_lt]
  split <;> omega

theorem packed_add_one : packed deleted count + 1 = packed deleted (count + 1) := by
  rw [packed, packed, ← Nat.add_assoc, BitVec.ofNat_add _ 1]
  rfl

theorem packed_sub_one : packed deleted (count + 1) - 1 = packed deleted count := by
  rw [← packed_add_one, BitVec.add_sub_cancel]

theorem packed_refCount (small : count < 2 ^ 31) :
    (packed deleted count &&& ~~~ deleteBit).toNat = count := by
  have mask : ~~~ deleteBit = BitVec.ofNat 32 (2 ^ 31 - 1) := by decide
  rw [mask, BitVec.toNat_and, packed_toNat small, BitVec.toNat_ofNat, Nat.mod_eq_of_lt (by decide),
    Nat.and_two_pow_sub_one_eq_mod]
  split <;> omega

theorem packed_refCount_pos (small : count < 2 ^ 31) :
    0 < packed deleted count &&& ~~~ deleteBit ↔ 0 < count := by
  rw [BitVec.lt_def, packed_refCount small]
  rfl

theorem packed_isDelete (small : count < 2 ^ 31) :
    (packed deleted count &&& deleteBit != 0) = deleted := by
  have bit : (packed deleted count).getLsbD 31 = deleted := by
    rw [BitVec.getLsbD, packed_toNat small]
    cases deleted with
    | false => rw [if_neg (by decide), Nat.zero_add, Nat.testBit_lt_two_pow small]
    | true =>
        rw [if_pos rfl, Nat.testBit_two_pow_add_eq, Nat.testBit_lt_two_pow small]
        rfl
  rw [deleteBit, BitVec.and_twoPow, bit]
  cases deleted <;> decide

theorem packed_setDelete (small : count < 2 ^ 31) :
    packed deleted count ||| deleteBit = packed true count := by
  have sum : 2 ^ 31 + count = count ||| 2 ^ 31 := by
    rw [Nat.or_two_pow_eq_add_of_lt small, Nat.add_comm]
  apply BitVec.eq_of_toNat_eq
  rw [BitVec.toNat_or, packed_toNat small, packed_toNat small, deleteBit,
    BitVec.toNat_twoPow_of_lt (by decide), if_pos rfl, sum]
  cases deleted with
  | false => rw [if_neg (by decide), Nat.zero_add]
  | true => rw [if_pos rfl, sum, Nat.or_assoc, Nat.or_self]

end Packed

namespace Leaves

/-- The leaves are those linked in a tree and those that somebody refers to; each counts its
references and has the delete bit when it is not linked; the others have been released once. -/
structure Accounted (leaves : Leaves Data) (linked outstanding : List Nat) : Prop where
  nodup : linked.Nodup
  alive : ∀ addr, (∃ leaf, leaves.leaf addr = some leaf) ↔ addr ∈ linked ∨ addr ∈ outstanding
  counted : ∀ addr leaf, leaves.leaf addr = some leaf →
    leaf.flagRefcnt = packed (decide (addr ∉ linked)) (outstanding.count addr)
  bounded : ∀ addr, outstanding.count addr < 2 ^ 31
  allocated : ∀ addr, addr < leaves.next ↔
    (∃ leaf, leaves.leaf addr = some leaf) ∨ addr ∈ leaves.released
  once : leaves.released.Nodup
  gone : ∀ addr ∈ leaves.released, leaves.leaf addr = none

structure AccountedAt (leaves : Leaves Data) (linked outstanding : List Nat) (addr : Nat) :
    Prop where
  alive : (∃ leaf, leaves.leaf addr = some leaf) ↔ addr ∈ linked ∨ addr ∈ outstanding
  counted : ∀ leaf, leaves.leaf addr = some leaf →
    leaf.flagRefcnt = packed (decide (addr ∉ linked)) (outstanding.count addr)
  bounded : outstanding.count addr < 2 ^ 31
  allocated : addr < leaves.next ↔
    (∃ leaf, leaves.leaf addr = some leaf) ∨ addr ∈ leaves.released
  gone : addr ∈ leaves.released → leaves.leaf addr = none

structure Keeps (before after : Leaves Data) : Prop where
  next : before.next ≤ after.next
  leaf : ∀ addr leaf', after.leaf addr = some leaf' → addr < before.next →
    ∃ leaf, before.leaf addr = some leaf ∧ leaf'.blkid = leaf.blkid ∧ leaf'.data = leaf.data

section Rules

variable {leaves : Leaves Data} {linked outstanding : List Nat} {addr : Nat}

theorem Keeps.refl (leaves : Leaves Data) : Keeps leaves leaves :=
  ⟨Nat.le_refl _, fun _ leaf found _ => ⟨leaf, found, rfl, rfl⟩⟩

theorem Keeps.trans {first second third : Leaves Data} (one : Keeps first second)
    (two : Keeps second third) : Keeps first third := by
  refine ⟨Nat.le_trans one.next two.next, fun addr leaf' found old => ?_⟩
  obtain ⟨between, there, key, data⟩ := two.leaf addr leaf' found (Nat.lt_of_lt_of_le old one.next)
  obtain ⟨leaf, here, key', data'⟩ := one.leaf addr between there old
  exact ⟨leaf, here, key.trans key', data.trans data'⟩

theorem keeps_store {leaf leaf' : TreeLeaf Data} (found : leaves.leaf addr = some leaf)
    (key : leaf'.blkid = leaf.blkid) (data : leaf'.data = leaf.data) :
    Keeps leaves (leaves.store addr leaf') := by
  refine ⟨Nat.le_refl _, fun other other' here _ => ?_⟩
  by_cases same : other = addr
  · subst same
    rw [store_leaf_self] at here
    obtain rfl := Option.some.inj here
    exact ⟨leaf, found, key, data⟩
  · rw [store_leaf_of_ne _ _ same] at here
    exact ⟨other', here, rfl, rfl⟩

theorem accounted_empty : Accounted (empty : Leaves Data) [] [] where
  nodup := List.nodup_nil
  alive addr := by simp [empty]
  counted addr leaf found := by cases found
  bounded addr := by simp
  allocated addr := by simp [empty]
  once := List.nodup_nil
  gone addr member := by cases member

theorem accounted_iff : Accounted leaves linked outstanding ↔
    linked.Nodup ∧ leaves.released.Nodup ∧ ∀ addr, AccountedAt leaves linked outstanding addr := by
  constructor
  · intro accounted
    refine ⟨accounted.nodup, accounted.once, fun addr => ?_⟩
    exact ⟨accounted.alive addr, accounted.counted addr, accounted.bounded addr,
      accounted.allocated addr, accounted.gone addr⟩
  · rintro ⟨nodup, once, each⟩
    exact ⟨nodup, fun addr => (each addr).alive, fun addr => (each addr).counted,
      fun addr => (each addr).bounded, fun addr => (each addr).allocated, once,
      fun addr => (each addr).gone⟩

theorem Accounted.address (accounted : Accounted leaves linked outstanding) (addr : Nat) :
    AccountedAt leaves linked outstanding addr :=
  (accounted_iff.mp accounted).2.2 addr

theorem AccountedAt.congr (accounted : AccountedAt leaves linked outstanding addr)
    {leaves' : Leaves Data} {linked' outstanding' : List Nat}
    (sameLeaf : leaves'.leaf addr = leaves.leaf addr)
    (sameNext : addr < leaves'.next ↔ addr < leaves.next)
    (sameReleased : addr ∈ leaves'.released ↔ addr ∈ leaves.released)
    (sameLinked : addr ∈ linked' ↔ addr ∈ linked)
    (sameCount : outstanding'.count addr = outstanding.count addr) :
    AccountedAt leaves' linked' outstanding' addr where
  alive := by
    have references : addr ∈ outstanding' ↔ addr ∈ outstanding := by
      rw [← List.count_pos_iff, sameCount, List.count_pos_iff]
    rw [sameLeaf, accounted.alive, sameLinked, references]
  counted leaf here := by
    rw [accounted.counted leaf (sameLeaf ▸ here), sameCount]
    simp only [sameLinked]
  bounded := sameCount ▸ accounted.bounded
  allocated := by rw [sameNext, sameLeaf, sameReleased, accounted.allocated]
  gone here := sameLeaf.trans (accounted.gone (sameReleased.mp here))

theorem Accounted.perm (accounted : Accounted leaves linked outstanding)
    {linked' outstanding' : List Nat} (sameLinked : linked.Perm linked')
    (sameOutstanding : outstanding.Perm outstanding') :
    Accounted leaves linked' outstanding' := by
  refine accounted_iff.mpr ⟨sameLinked.nodup_iff.mp accounted.nodup, accounted.once, fun addr => ?_⟩
  exact (accounted.address addr).congr rfl Iff.rfl Iff.rfl sameLinked.mem_iff.symm
    (sameOutstanding.count_eq addr).symm

theorem Accounted.leaf_of_linked (accounted : Accounted leaves linked outstanding)
    (member : addr ∈ linked) : ∃ leaf, leaves.leaf addr = some leaf :=
  (accounted.alive addr).mpr (.inl member)

theorem Accounted.lt_next (accounted : Accounted leaves linked outstanding)
    (member : addr ∈ linked) : addr < leaves.next :=
  (accounted.allocated addr).mpr (.inl (accounted.leaf_of_linked member))

theorem Accounted.next_none (accounted : Accounted leaves linked outstanding) :
    leaves.leaf leaves.next = none := by
  cases found : leaves.leaf leaves.next with
  | none => rfl
  | some leaf =>
      have low := (accounted.allocated leaves.next).mpr (.inl ⟨leaf, found⟩)
      exact absurd low (Nat.lt_irrefl _)

theorem Accounted.alloc (accounted : Accounted leaves linked outstanding) {leaf : TreeLeaf Data}
    (fresh : leaf.flagRefcnt = 0) :
    Accounted (leaves.alloc leaf) (leaves.next :: linked) outstanding ∧
      Keeps leaves (leaves.alloc leaf) := by
  have absent : leaves.next ∉ linked ∧ leaves.next ∉ outstanding := by
    have dead := mt (accounted.alive leaves.next).mpr
    simpa [accounted.next_none] using dead
  constructor
  · refine accounted_iff.mpr ⟨List.nodup_cons.mpr ⟨absent.1, accounted.nodup⟩, accounted.once,
      fun addr => ?_⟩
    by_cases same : addr = leaves.next
    · subst same
      have unreleased : leaves.next ∉ leaves.released := fun member =>
        Nat.lt_irrefl _ ((accounted.allocated leaves.next).mpr (.inr member))
      refine ⟨by simp, fun found here => ?_, accounted.bounded _, by simp, fun member => ?_⟩
      · rw [alloc_leaf_self] at here
        obtain rfl := Option.some.inj here
        rw [fresh, List.count_eq_zero.mpr absent.2]
        simp [packed]
      · exact absurd member unreleased
    · have sameNext : addr < leaves.next + 1 ↔ addr < leaves.next := by omega
      exact (accounted.address addr).congr (alloc_leaf_of_ne _ _ same) sameNext Iff.rfl
        (by simp [same]) rfl
  · refine ⟨Nat.le_succ _, fun addr leaf' here old => ⟨leaf', ?_, rfl, rfl⟩⟩
    rwa [alloc_leaf_of_ne _ _ (by omega)] at here

/-- The word of one leaf changes with its links and references, those of the others stay. -/
theorem Accounted.store (accounted : Accounted leaves linked outstanding)
    {linked' outstanding' : List Nat} {leaf : TreeLeaf Data}
    (found : leaves.leaf addr = some leaf) {word : BitVec 32} (nodup : linked'.Nodup)
    (member : addr ∈ linked' ∨ addr ∈ outstanding')
    (count : word = packed (decide (addr ∉ linked')) (outstanding'.count addr))
    (small : outstanding'.count addr < 2 ^ 31)
    (sameLinked : ∀ other, other ≠ addr → (other ∈ linked' ↔ other ∈ linked))
    (sameCount : ∀ other, other ≠ addr → outstanding'.count other = outstanding.count other) :
    Accounted (leaves.store addr { leaf with flagRefcnt := word }) linked' outstanding' := by
  refine accounted_iff.mpr ⟨nodup, accounted.once, fun other => ?_⟩
  by_cases same : other = addr
  · subst same
    have low := (accounted.allocated other).mpr (.inl ⟨leaf, found⟩)
    refine ⟨by simp [member], fun leaf' here => ?_, small, by simp [low], fun here => ?_⟩
    · rw [store_leaf_self] at here
      obtain rfl := Option.some.inj here
      exact count
    · have none := accounted.gone other here
      rw [found] at none
      cases none
  · exact (accounted.address other).congr (store_leaf_of_ne _ _ same) Iff.rfl Iff.rfl
      (sameLinked other same) (sameCount other same)

theorem Accounted.free (accounted : Accounted leaves linked outstanding)
    {linked' outstanding' : List Nat} {leaf : TreeLeaf Data}
    (found : leaves.leaf addr = some leaf) (nodup : linked'.Nodup)
    (unlinked : addr ∉ linked') (unreferred : addr ∉ outstanding')
    (sameLinked : ∀ other, other ≠ addr → (other ∈ linked' ↔ other ∈ linked))
    (sameCount : ∀ other, other ≠ addr → outstanding'.count other = outstanding.count other) :
    Accounted (leaves.free addr) linked' outstanding' := by
  refine accounted_iff.mpr ⟨nodup, ?_, fun other => ?_⟩
  · rw [free_released, List.nodup_cons]
    refine ⟨fun member => ?_, accounted.once⟩
    rw [accounted.gone addr member] at found
    cases found
  · by_cases same : other = addr
    · subst same
      have low := (accounted.allocated other).mpr (.inl ⟨leaf, found⟩)
      have uncounted : outstanding'.count other < 2 ^ 31 := by
        rw [List.count_eq_zero.mpr unreferred]
        decide
      refine ⟨by simp [unlinked, unreferred], fun leaf' here => ?_, uncounted, by simp [low],
        fun _ => free_leaf_self _⟩
      rw [free_leaf_self] at here
      cases here
    · exact (accounted.address other).congr (free_leaf_of_ne _ same) Iff.rfl
        (by simp [same]) (sameLinked other same) (sameCount other same)

theorem keeps_free : Keeps leaves (leaves.free addr) := by
  refine ⟨Nat.le_refl _, fun other leaf' here _ => ⟨leaf', ?_, rfl, rfl⟩⟩
  by_cases same : other = addr
  · subst same
    rw [free_leaf_self] at here
    cases here
  · rwa [free_leaf_of_ne _ same] at here

theorem releaseTreeLeaf_keeps {leaves' : Leaves Data}
    (released : leaves.releaseTreeLeaf addr = some leaves') : Keeps leaves leaves' := by
  unfold releaseTreeLeaf at released
  split at released
  · cases released
  · split at released
    · cases released
    · obtain rfl := Option.some.inj released
      exact keeps_free

theorem putRef_keeps {leaves' : Leaves Data} (put : leaves.putRef addr = some leaves') :
    Keeps leaves leaves' := by
  unfold Leaves.putRef at put
  obtain ⟨leaf, found, put⟩ := Option.bind_eq_some_iff.mp put
  have kept : Keeps leaves
      (leaves.store addr { leaf with flagRefcnt := leaf.flagRefcnt - 1 }) :=
    keeps_store found rfl rfl
  simp only at put
  split at put
  · obtain rfl := Option.some.inj put
    exact kept
  · split at put
    · obtain rfl := Option.some.inj put
      exact kept
    · exact kept.trans (releaseTreeLeaf_keeps put)

theorem retire_keeps {leaves' : Leaves Data} (retired : leaves.retire addr = some leaves') :
    Keeps leaves leaves' := by
  unfold Leaves.retire at retired
  split at retired
  · cases retired
  · rename_i found
    split at retired
    · obtain rfl := Option.some.inj retired
      exact keeps_store found rfl rfl
    · exact releaseTreeLeaf_keeps retired

theorem retire_next {leaves' : Leaves Data} (retired : leaves.retire addr = some leaves') :
    leaves'.next = leaves.next := by
  unfold Leaves.retire releaseTreeLeaf at retired
  split at retired
  · cases retired
  · by_cases referred : 0 < TreeLeaf.refCount ‹_›
    · rw [if_pos referred] at retired
      obtain rfl := Option.some.inj retired
      rfl
    · simp only [if_neg referred, Option.some.injEq] at retired
      subst retired
      rfl

/-- A leaf that was unlinked is released, or marked for its last reference to release it. -/
theorem Accounted.retire (accounted : Accounted leaves (addr :: linked) outstanding) :
    ∃ leaves', leaves.retire addr = some leaves' ∧ Accounted leaves' linked outstanding ∧
      Keeps leaves leaves' := by
  obtain ⟨leaf, found⟩ := accounted.leaf_of_linked List.mem_cons_self
  obtain ⟨unlinked, nodup⟩ := List.nodup_cons.mp accounted.nodup
  have small := accounted.bounded addr
  have word : leaf.flagRefcnt = packed false (outstanding.count addr) := by
    simpa using accounted.counted addr leaf found
  have sameLinked : ∀ other, other ≠ addr → (other ∈ linked ↔ other ∈ addr :: linked) :=
    fun other different => by rw [List.mem_cons, or_iff_right different]
  have counted : 0 < leaf.refCount ↔ addr ∈ outstanding := by
    rw [TreeLeaf.refCount, word, packed_refCount_pos small, List.count_pos_iff]
  rw [Leaves.retire, found]
  by_cases referred : addr ∈ outstanding
  · refine ⟨_, if_pos (counted.mpr referred), ?_, keeps_store found rfl rfl⟩
    refine accounted.store found nodup (.inr referred) ?_ small sameLinked fun _ _ => rfl
    rw [word, packed_setDelete small]
    simp [unlinked]
  · have none := mt counted.mp referred
    refine ⟨leaves.free addr, ?_, accounted.free found nodup unlinked referred sameLinked
      fun _ _ => rfl, keeps_free⟩
    simp only [none, if_false, releaseTreeLeaf, found]

/-- A linked leaf gets one more reference. -/
theorem Accounted.takeRef (accounted : Accounted leaves linked outstanding)
    (member : addr ∈ linked) (room : outstanding.count addr + 1 < 2 ^ 31) :
    ∃ leaves', leaves.takeRef addr = some leaves' ∧
      Accounted leaves' linked (addr :: outstanding) ∧ Keeps leaves leaves' := by
  obtain ⟨leaf, found⟩ := accounted.leaf_of_linked member
  have word := accounted.counted addr leaf found
  rw [Leaves.takeRef, found]
  refine ⟨_, rfl, ?_, keeps_store found rfl rfl⟩
  refine accounted.store found accounted.nodup (.inl member) ?_ ?_ (fun _ _ => Iff.rfl) ?_
  · rw [word, packed_add_one, List.count_cons_self]
  · rwa [List.count_cons_self]
  · exact fun other different => List.count_cons_of_ne (Ne.symm different)

/-- A reference that is put releases a leaf that was waiting for it only. -/
theorem Accounted.putRef (accounted : Accounted leaves linked (addr :: outstanding)) :
    ∃ leaves', leaves.putRef addr = some leaves' ∧ Accounted leaves' linked outstanding ∧
      Keeps leaves leaves' := by
  obtain ⟨leaf, found⟩ := (accounted.alive addr).mpr (.inr List.mem_cons_self)
  have before := accounted.bounded addr
  rw [List.count_cons_self] at before
  have small : outstanding.count addr < 2 ^ 31 := Nat.lt_of_succ_lt before
  have word := accounted.counted addr leaf found
  rw [List.count_cons_self] at word
  let leaf' := { leaf with flagRefcnt := leaf.flagRefcnt - 1 }
  have after : leaf'.flagRefcnt = packed (decide (addr ∉ linked)) (outstanding.count addr) := by
    simp only [leaf', word, packed_sub_one]
  have sameCount : ∀ other, other ≠ addr → outstanding.count other = (addr :: outstanding).count other :=
    fun other different => (List.count_cons_of_ne (Ne.symm different)).symm
  have deleted : leaf'.isDelete = decide (addr ∉ linked) := by
    rw [TreeLeaf.isDelete, after, packed_isDelete small]
  have counted : 0 < leaf'.refCount ↔ addr ∈ outstanding := by
    rw [TreeLeaf.refCount, after, packed_refCount_pos small, List.count_pos_iff]
  have kept : Keeps leaves (leaves.store addr leaf') := keeps_store found rfl rfl
  have stored (member : addr ∈ linked ∨ addr ∈ outstanding) :
      Accounted (leaves.store addr leaf') linked outstanding :=
    accounted.store found accounted.nodup member after small (fun _ _ => Iff.rfl) sameCount
  rw [Leaves.putRef, found]
  by_cases member : addr ∈ linked
  · refine ⟨_, ?_, stored (.inl member), kept⟩
    have notDeleted : leaf'.isDelete = false := by simp [deleted, member]
    exact if_pos notDeleted
  · have isDeleted : ¬ leaf'.isDelete = false := by simp [deleted, member]
    by_cases referred : addr ∈ outstanding
    · refine ⟨_, ?_, stored (.inr referred), kept⟩
      exact (if_neg isDeleted).trans (if_pos (counted.mpr referred))
    · have none := mt counted.mp referred
      refine ⟨leaves.free addr, ?_, accounted.free found accounted.nodup member referred
        (fun _ _ => Iff.rfl) sameCount, keeps_free⟩
      refine (if_neg isDeleted).trans ((if_neg none).trans ?_)
      rw [releaseTreeLeaf, store_leaf_self, ← store_free leaves leaf']
      exact if_neg none

end Rules

end Leaves

end DmsBlkdev
