import DmsBlkdev.Cache.PartialFailure
import DmsBlkdev.Cache.Scatter
import DmsBlkdev.Lib.Recency

/-!
# The list of a volume

What each operation makes of the list in which the leaves of a volume stand,
told by the keys of the leaves.  A leaf that was found or put in goes to the
front, and a leaf that is evicted comes from the end.
-/

namespace DmsBlkdev

open Lib Lib.Recency Leaves

variable {Data : Type}

/-- The entries of a volume in the order of its list. -/
structure Threaded (leaves : Leaves Data) (v : Volume) (listed : List (Nat × Nat)) : Prop where
  entries : listed.Perm v.tree.entries
  list : listed.map Prod.snd = v.lruList
  once : v.lruList.Nodup
  old : ∀ entry ∈ listed, entry.2 < leaves.next
  keyed : Keyed leaves v.tree
  cacheNum : v.cacheNum = BitVec.ofNat 32 listed.length

section Entries

variable {leaves leaves' : Leaves Data} {v : Volume} {listed : List (Nat × Nat)} {key addr : Nat}

theorem Threaded.keys_nodup (threaded : Threaded leaves v listed) :
    (listed.map Prod.fst).Nodup :=
  (threaded.entries.map Prod.fst).nodup_iff.mpr v.tree.keys_nodup

theorem Threaded.items_nodup (threaded : Threaded leaves v listed) : v.tree.items.Nodup := by
  rw [OrderedMap.items, ← (threaded.entries.map Prod.snd).nodup_iff, threaded.list]
  exact threaded.once

theorem Threaded.entry_of_listed (threaded : Threaded leaves v listed) (member : addr ∈ v.lruList) :
    ∃ key, (key, addr) ∈ listed := by
  rw [← threaded.list] at member
  obtain ⟨⟨key, _⟩, entry, rfl⟩ := List.mem_map.mp member
  exact ⟨key, entry⟩

theorem Threaded.keeps (threaded : Threaded leaves v listed) (kept : Keeps leaves leaves') :
    Threaded leaves' v listed := by
  refine ⟨threaded.entries, threaded.list, threaded.once, ?_, ?_, threaded.cacheNum⟩
  · exact fun entry member => Nat.lt_of_lt_of_le (threaded.old entry member) kept.next
  · intro entry member leaf' found
    have old := threaded.old entry (threaded.entries.mem_iff.mpr member)
    obtain ⟨leaf, before, key, -⟩ := kept.leaf entry.2 leaf' found old
    rw [key]
    exact threaded.keyed entry member leaf before

theorem exists_erase (member : (key, addr) ∈ listed) (firsts : (listed.map Prod.fst).Nodup)
    (seconds : (listed.map Prod.snd).Nodup) :
    ∃ rest, listed.Perm ((key, addr) :: rest) ∧
      rest.map Prod.fst = (listed.map Prod.fst).erase key ∧
      rest.map Prod.snd = (listed.map Prod.snd).erase addr := by
  obtain ⟨front, back, rfl⟩ := List.append_of_mem member
  rw [List.map_append, List.nodup_append] at firsts seconds
  refine ⟨front ++ back, List.perm_middle, ?_, ?_⟩
  · have absent : key ∉ front.map Prod.fst := fun inside =>
      firsts.2.2 key inside key List.mem_cons_self rfl
    rw [List.map_append, List.map_append, List.erase_append_right _ absent, List.map_cons,
      List.erase_cons_head]
  · have absent : addr ∉ front.map Prod.snd := fun inside =>
      seconds.2.2 addr inside addr List.mem_cons_self rfl
    rw [List.map_append, List.map_append, List.erase_append_right _ absent, List.map_cons,
      List.erase_cons_head]

theorem Threaded.unlink (threaded : Threaded leaves v listed) (entry : (key, addr) ∈ listed) :
    ∃ rest, Threaded leaves ({ v with tree := v.tree.erase key }.unlink addr) rest ∧
      rest ⊆ listed ∧ rest.map Prod.fst = (listed.map Prod.fst).erase key := by
  have seconds : (listed.map Prod.snd).Nodup := threaded.list ▸ threaded.once
  obtain ⟨rest, split, keys, items⟩ := exists_erase entry threaded.keys_nodup seconds
  have smaller : ∀ other ∈ rest, other ∈ listed := fun other member =>
    split.mem_iff.mpr (List.mem_cons_of_mem _ member)
  refine ⟨rest, ⟨?_, ?_, threaded.once.erase addr, ?_, ?_, ?_⟩, smaller, keys⟩
  · have erased := OrderedMap.erase_perm (threaded.entries.mem_iff.mp entry)
    exact ((split.symm.trans threaded.entries).trans erased).cons_inv
  · rw [items, threaded.list]
    rfl
  · exact fun other member => threaded.old other (smaller other member)
  · exact fun other member => threaded.keyed other (OrderedMap.mem_erase.mp member).1
  · have before := threaded.cacheNum
    rw [split.length_eq, List.length_cons, BitVec.ofNat_add] at before
    change v.cacheNum - 1 = _
    rw [before]
    exact BitVec.add_sub_cancel _ _

theorem Threaded.touch (threaded : Threaded leaves v listed) (entry : (key, addr) ∈ listed) :
    ∃ moved, Threaded leaves (v.touch addr) moved ∧
      moved.map Prod.fst = moveToFront key (listed.map Prod.fst) := by
  have seconds : (listed.map Prod.snd).Nodup := threaded.list ▸ threaded.once
  obtain ⟨rest, split, keys, items⟩ := exists_erase entry threaded.keys_nodup seconds
  have member : addr ∈ v.lruList := threaded.list ▸ List.mem_map_of_mem entry
  refine ⟨(key, addr) :: rest, ⟨split.symm.trans threaded.entries, ?_, ?_, ?_, threaded.keyed, ?_⟩,
    ?_⟩
  · rw [List.map_cons, items, threaded.list]
    rfl
  · exact (List.perm_cons_erase member).nodup_iff.mp threaded.once
  · exact fun other inside => threaded.old other (split.mem_iff.mpr inside)
  · rw [← split.length_eq]
    exact threaded.cacheNum
  · rw [List.map_cons, keys]
    rfl

theorem Threaded.push {tree : OrderedMap Nat Nat} (threaded : Threaded leaves v listed)
    (key : Nat) (free : v.tree = tree.erase key) (data : Data) :
    Threaded (leaves.alloc ⟨data, key, 0⟩)
      { v with
        tree := tree.insert key leaves.next
        lruList := leaves.next :: v.lruList
        cacheNum := v.cacheNum + 1 } ((key, leaves.next) :: listed) := by
  have fresh : leaves.next ∉ v.lruList := by
    intro member
    obtain ⟨other, entry⟩ := threaded.entry_of_listed member
    exact Nat.lt_irrefl _ (threaded.old _ entry)
  refine ⟨?_, ?_, List.nodup_cons.mpr ⟨fresh, threaded.once⟩, ?_, ?_, ?_⟩
  · have entries := threaded.entries
    rw [free] at entries
    exact (entries.cons _).trans OrderedMap.insert_perm.symm
  · rw [List.map_cons, threaded.list]
  · intro entry member
    rcases List.mem_cons.mp member with rfl | inside
    · exact Nat.lt_succ_self _
    · exact Nat.lt_succ_of_lt (threaded.old entry inside)
  · intro entry member leaf found
    rcases OrderedMap.mem_insert.mp member with rfl | ⟨earlier, other⟩
    · rw [alloc_leaf_self] at found
      obtain rfl := Option.some.inj found
      rfl
    · have inside : entry ∈ v.tree.entries := free ▸ OrderedMap.mem_erase.mpr ⟨earlier, other⟩
      have old := threaded.old entry (threaded.entries.mem_iff.mpr inside)
      rw [alloc_leaf_of_ne _ _ (Nat.ne_of_lt old)] at found
      exact threaded.keyed entry inside leaf found
  · rw [List.length_cons, BitVec.ofNat_add, ← threaded.cacheNum]
    rfl

/-- A new leaf goes to the front, and the leaf that it replaces leaves its place. -/
theorem insertLeaf_threaded (threaded : Threaded leaves v listed) {data : Data}
    {after : VolumeCache Data} (inserted : insertLeaf key data (leaves, v) = some after) :
    ∃ moved, Threaded after.1 after.2 moved ∧
      moved.map Prod.fst = moveToFront key (listed.map Prod.fst) := by
  simp only [insertLeaf] at inserted
  cases there : v.tree.lookup key with
  | none =>
      rw [there] at inserted
      obtain rfl := Option.some.inj inserted
      have absent := OrderedMap.lookup_eq_none.mp there
      have unlisted : key ∉ listed.map Prod.fst := fun member =>
        absent ((threaded.entries.map Prod.fst).mem_iff.mp member)
      refine ⟨_, threaded.push key (OrderedMap.erase_of_absent absent).symm data, ?_⟩
      rw [List.map_cons, moveToFront, List.erase_of_not_mem unlisted]
  | some old =>
      rw [there] at inserted
      obtain ⟨leaves', retired, rfl⟩ := Option.map_eq_some_iff.mp inserted
      have entry := threaded.entries.mem_iff.mpr (OrderedMap.lookup_eq_some.mp there)
      have different : leaves.next ≠ old := (Nat.ne_of_lt (threaded.old _ entry)).symm
      obtain ⟨rest, unlinked, -, keys⟩ := threaded.unlink entry
      have pushed := (unlinked.push key rfl data).keeps (retire_keeps retired)
      refine ⟨(key, leaves.next) :: rest, ?_, congrArg (key :: ·) keys⟩
      -- the code unlinks the old leaf after it has put the new one in
      have list : (leaves.next :: v.lruList).erase old = leaves.next :: v.lruList.erase old :=
        List.erase_cons_tail (by simpa using different)
      have counter : v.cacheNum + 1 - 1 = v.cacheNum - 1 + 1 := by
        rw [BitVec.add_sub_cancel, BitVec.sub_add_cancel]
      simp only [Volume.unlink, list, counter] at pushed ⊢
      exact pushed

end Entries

section Kick

variable {leaves : Leaves Data} {v : Volume} {listed : List (Nat × Nat)}
  {count total nr : BitVec 32} {after : VolumeCache Data}

/-- Whatever is kicked, the others stay in their order. -/
theorem kickLoop_sublist {condition : Option (Data → Bool)} {walk : List Nat}
    (threaded : Threaded leaves v listed) (nodup : walk.Nodup) (linked : walk ⊆ v.lruList)
    (kicked : kickLoop count total condition walk nr (leaves, v) = some after) :
    ∃ rest, Threaded after.1 after.2 rest ∧
      (rest.map Prod.fst).Sublist (listed.map Prod.fst) := by
  induction walk generalizing leaves v listed nr with
  | nil =>
      obtain rfl := Option.some.inj kicked
      exact ⟨listed, threaded, List.Sublist.refl _⟩
  | cons addr walk inductionHypothesis =>
      obtain ⟨unwalked, nodupRest⟩ := List.nodup_cons.mp nodup
      obtain ⟨first, linkedRest⟩ := List.cons_subset.mp linked
      rw [kickLoop] at kicked
      obtain ⟨leaf, found, kicked⟩ := Option.bind_eq_some_iff.mp kicked
      split at kicked
      · exact inductionHypothesis threaded nodupRest linkedRest kicked
      · obtain ⟨leaves', retired, kicked⟩ := Option.bind_eq_some_iff.mp kicked
        obtain ⟨key, entry⟩ := threaded.entry_of_listed first
        have own : leaf.blkid = key :=
          threaded.keyed _ (threaded.entries.mem_iff.mp entry) leaf found
        obtain ⟨rest, unlinked, -, keys⟩ := threaded.unlink entry
        have fewer : (rest.map Prod.fst).Sublist (listed.map Prod.fst) :=
          keys ▸ List.erase_sublist
        have kept := unlinked.keeps (retire_keeps retired)
        have linkedKept : walk ⊆ v.lruList.erase addr := fun other member =>
          threaded.once.mem_erase_iff.mpr
            ⟨fun same => unwalked (same ▸ member), linkedRest member⟩
        rw [own] at kicked
        have next {nr : BitVec 32}
            (kicked : kickLoop count total condition walk nr
              (leaves', { v with tree := v.tree.erase key }.unlink addr) = some after) :
            ∃ rest, Threaded after.1 after.2 rest ∧
              (rest.map Prod.fst).Sublist (listed.map Prod.fst) := by
          obtain ⟨last, threadedLast, sublist⟩ :=
            inductionHypothesis kept nodupRest linkedKept kicked
          exact ⟨last, threadedLast, sublist.trans fewer⟩
        split at kicked
        · split at kicked
          · obtain rfl := Option.some.inj kicked
            exact ⟨rest, kept, fewer⟩
          · exact next kicked
        · exact next kicked

theorem kickMetaCache_sublist {condition : Option (Data → Bool)}
    (threaded : Threaded leaves v listed)
    (kicked : kickMetaCache count condition (leaves, v) = some after) :
    ∃ rest, Threaded after.1 after.2 rest ∧
      (rest.map Prod.fst).Sublist (listed.map Prod.fst) :=
  kickLoop_sublist threaded (List.nodup_reverse.mpr threaded.once)
    (fun _ member => List.mem_reverse.mp member) kicked

theorem Threaded.unlink_last (threaded : Threaded leaves v listed) {addr : Nat} {walk : List Nat}
    (order : v.lruList = walk.reverse ++ [addr]) :
    ∃ key rest, (key, addr) ∈ listed ∧
      Threaded leaves ({ v with tree := v.tree.erase key }.unlink addr) rest ∧ rest ⊆ listed ∧
      listed.map Prod.fst = rest.map Prod.fst ++ [key] ∧
      ({ v with tree := v.tree.erase key }.unlink addr).lruList = walk.reverse := by
  obtain ⟨front, last, rfl, -, lastItem⟩ :=
    List.map_eq_append_iff.mp (threaded.list.trans order)
  obtain ⟨⟨key, other⟩, rfl, same⟩ := List.map_eq_singleton_iff.mp lastItem
  obtain rfl : other = addr := same
  have entry : (key, other) ∈ front ++ [(key, other)] :=
    List.mem_append_right _ (List.mem_singleton_self _)
  obtain ⟨rest, unlinked, fewer, keys⟩ := threaded.unlink entry
  have once := threaded.once
  have onceKeys := threaded.keys_nodup
  rw [order, List.nodup_append] at once
  rw [List.map_append, List.nodup_append] at onceKeys
  refine ⟨key, rest, entry, unlinked, fewer, ?_, ?_⟩
  · have absent : key ∉ front.map Prod.fst := fun inside =>
      onceKeys.2.2 key inside key List.mem_cons_self rfl
    rw [keys, List.map_append, List.erase_append_right _ absent]
    simp
  · have absent : other ∉ walk.reverse := fun inside =>
      once.2.2 other inside other List.mem_cons_self rfl
    change v.lruList.erase other = walk.reverse
    rw [order, List.erase_append_right _ absent, List.erase_cons_head, List.append_nil]

/-- Without a condition the leaves at the end of the list go, at least one of them, until `total`
have been counted. -/
theorem kickLoop_take {walk : List Nat} (threaded : Threaded leaves v listed) (counts : count ≠ -1)
    (early : nr.toNat < max 1 total.toNat) (order : walk = v.lruList.reverse)
    (kicked : kickLoop count total none walk nr (leaves, v) = some after) :
    ∃ rest, Threaded after.1 after.2 rest ∧ rest ⊆ listed ∧
      rest.map Prod.fst =
        (listed.map Prod.fst).take (listed.length - (max 1 total.toNat - nr.toNat)) := by
  induction walk generalizing leaves v listed nr with
  | nil =>
      obtain rfl := Option.some.inj kicked
      have nothing : listed = [] := by
        rw [← List.map_eq_nil_iff, threaded.list, ← List.reverse_eq_nil_iff, ← order]
      subst nothing
      exact ⟨[], threaded, List.Subset.refl _, by simp⟩
  | cons addr walk inductionHypothesis =>
      have order' : v.lruList = walk.reverse ++ [addr] := by
        rw [← List.reverse_cons, order, List.reverse_reverse]
      obtain ⟨key, rest, entry, unlinked, fewer, keys, list⟩ := threaded.unlink_last order'
      have length : listed.length = rest.length + 1 := by
        have same := congrArg List.length keys
        rwa [List.length_map, List.length_append, List.length_map] at same
      have step : (nr + 1).toNat = nr.toNat + 1 := by
        have bound := total.isLt
        rw [BitVec.toNat_add]
        exact Nat.mod_eq_of_lt (by change nr.toNat + 1 < 2 ^ 32; omega)
      rw [kickLoop] at kicked
      obtain ⟨leaf, found, kicked⟩ := Option.bind_eq_some_iff.mp kicked
      have own : leaf.blkid = key := threaded.keyed _ (threaded.entries.mem_iff.mp entry) leaf found
      have unspared : ¬ spares none leaf.data = true := Bool.false_ne_true
      rw [if_neg unspared] at kicked
      obtain ⟨leaves', retired, kicked⟩ := Option.bind_eq_some_iff.mp kicked
      have kept := unlinked.keeps (retire_keeps retired)
      rw [own, if_pos counts] at kicked
      split at kicked
      · rename_i enough
        obtain rfl := Option.some.inj kicked
        have reached := BitVec.le_def.mp enough
        refine ⟨rest, kept, fewer, ?_⟩
        have one : listed.length - (max 1 total.toNat - nr.toNat) = rest.length := by omega
        rw [one, keys]
        exact (List.take_left' (List.length_map _)).symm
      · rename_i more
        have later : (nr + 1).toNat < total.toNat := Nat.lt_of_not_le fun reached =>
          more (BitVec.le_def.mpr reached)
        obtain ⟨last, threadedLast, fewerLast, keysLast⟩ :=
          inductionHypothesis kept (by omega) (by rw [list, List.reverse_reverse]) kicked
        refine ⟨last, threadedLast, List.Subset.trans fewerLast fewer, ?_⟩
        have same : rest.length - (max 1 total.toNat - (nr + 1).toNat) =
            listed.length - (max 1 total.toNat - nr.toNat) := by omega
        rw [keysLast, same, keys, List.take_append_of_le_length]
        rw [List.length_map]
        omega

end Kick

end DmsBlkdev
