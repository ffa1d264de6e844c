import DmsBlkdev.Cache.Volume
import Mathlib.Data.List.ReduceOption

/-!
# What the cache operations preserve

The tree and the list of a volume hold the same leaves, each under its own
key, and the counter is their number.  Every operation gets through on a
volume of that kind whose leaves are accounted for, and leaves it so; it may
share the leaves with other volumes, whose leaves it does not touch.
-/

namespace DmsBlkdev

open Lib Leaves

variable {Data : Type}

/-- The tree, the list and the counter of a volume agree, and the keys are the block ids. -/
structure Volume.Consistent (leaves : Leaves Data) (v : Volume) : Prop where
  listed : v.lruList.Perm v.tree.items
  cacheNum : v.cacheNum = BitVec.ofNat 32 v.tree.entries.length
  keyed : ∀ entry ∈ v.tree.entries, ∀ leaf, leaves.leaf entry.2 = some leaf → leaf.blkid = entry.1

/-- A consistent volume beside others with the given leaves, with all references accounted for. -/
structure Sound (others outstanding : List Nat) (cache : VolumeCache Data) : Prop where
  accounted : Accounted cache.1 (cache.2.tree.items ++ others) outstanding
  consistent : cache.2.Consistent cache.1

structure Steady (before after : VolumeCache Data) : Prop where
  keeps : Keeps before.1 after.1
  volid : after.2.volid = before.2.volid
  cacheSize : after.2.cacheSize = before.2.cacheSize

theorem Steady.refl (cache : VolumeCache Data) : Steady cache cache := ⟨Keeps.refl _, rfl, rfl⟩

theorem Steady.trans {first second third : VolumeCache Data} (one : Steady first second)
    (two : Steady second third) : Steady first third :=
  ⟨one.keeps.trans two.keeps, two.volid.trans one.volid, two.cacheSize.trans one.cacheSize⟩

section Entries

variable {others outstanding : List Nat} {leaves leaves' : Leaves Data} {v : Volume}

theorem Volume.Consistent.keeps (consistent : v.Consistent leaves) (kept : Keeps leaves leaves')
    (old : ∀ addr ∈ v.tree.items, addr < leaves.next) : v.Consistent leaves' where
  listed := consistent.listed
  cacheNum := consistent.cacheNum
  keyed entry member leaf' found := by
    obtain ⟨leaf, before, key, -⟩ :=
      kept.leaf entry.2 leaf' found (old entry.2 (List.mem_map_of_mem member))
    rw [key]
    exact consistent.keyed entry member leaf before

theorem Sound.lt_next (sound : Sound others outstanding (leaves, v)) {addr : Nat}
    (member : addr ∈ v.tree.items) : addr < leaves.next :=
  sound.accounted.lt_next (List.mem_append_left _ member)

theorem Sound.items_nodup (sound : Sound others outstanding (leaves, v)) : v.tree.items.Nodup :=
  (List.nodup_append.mp sound.accounted.nodup).1

theorem Sound.lruList_nodup (sound : Sound others outstanding (leaves, v)) : v.lruList.Nodup :=
  sound.consistent.listed.nodup_iff.mpr sound.items_nodup

theorem Sound.outstanding_perm (sound : Sound others outstanding (leaves, v))
    {outstanding' : List Nat} (same : outstanding.Perm outstanding') :
    Sound others outstanding' (leaves, v) :=
  ⟨sound.accounted.perm (List.Perm.refl _) same, sound.consistent⟩

theorem Sound.entry_of_item (sound : Sound others outstanding (leaves, v)) {addr : Nat}
    (member : addr ∈ v.tree.items) :
    ∃ leaf, leaves.leaf addr = some leaf ∧ (leaf.blkid, addr) ∈ v.tree.entries := by
  obtain ⟨leaf, found⟩ := sound.accounted.leaf_of_linked (List.mem_append_left _ member)
  obtain ⟨⟨key, _⟩, entry, rfl⟩ := List.mem_map.mp member
  have own := sound.consistent.keyed (key, _) entry leaf found
  exact ⟨leaf, found, by rwa [own]⟩

theorem Sound.touch (sound : Sound others outstanding (leaves, v)) {addr : Nat}
    (member : addr ∈ v.tree.items) : Sound others outstanding (leaves, v.touch addr) where
  accounted := sound.accounted
  consistent := by
    refine ⟨?_, sound.consistent.cacheNum, sound.consistent.keyed⟩
    have listed := sound.consistent.listed.mem_iff.mpr member
    exact (List.perm_cons_erase listed).symm.trans sound.consistent.listed

/-- An entry leaves the tree, the list and the counter, and its leaf is retired. -/
theorem Sound.unlink (sound : Sound others outstanding (leaves, v)) {key addr : Nat}
    (entry : (key, addr) ∈ v.tree.entries) :
    ∃ leaves', leaves.retire addr = some leaves' ∧
      Sound others outstanding (leaves', { v with tree := v.tree.erase key }.unlink addr) ∧
      Keeps leaves leaves' := by
  have items := OrderedMap.items_erase_perm entry
  have linked : (v.tree.items ++ others).Perm (addr :: ((v.tree.erase key).items ++ others)) :=
    items.append_right others
  have accounted := sound.accounted.perm linked (List.Perm.refl outstanding)
  obtain ⟨leaves', retired, kept, keeps⟩ := accounted.retire
  refine ⟨leaves', retired, ⟨kept, ?_⟩, keeps⟩
  have smaller : v.tree.entries.length = (v.tree.erase key).entries.length + 1 :=
    (OrderedMap.erase_perm entry).length_eq
  refine ⟨?_, ?_, ?_⟩
  · have rest := (sound.consistent.listed.trans items).erase addr
    rwa [List.erase_cons_head] at rest
  · have before : v.cacheNum = BitVec.ofNat 32 v.tree.entries.length := sound.consistent.cacheNum
    rw [smaller, BitVec.ofNat_add] at before
    change v.cacheNum - 1 = _
    rw [before]
    exact BitVec.add_sub_cancel _ _
  · intro other member leaf' found
    have before := (OrderedMap.mem_erase.mp member).1
    have old := sound.lt_next (List.mem_map_of_mem before)
    obtain ⟨leaf, here, own, -⟩ := keeps.leaf other.2 leaf' found old
    rw [own]
    exact sound.consistent.keyed other before leaf here

end Entries

section Invalidate

variable {others outstanding : List Nat} {cache : VolumeCache Data}

theorem invalidateKey_sound (sound : Sound others outstanding cache) (key : Nat) :
    ∃ cache', invalidateKey key cache = some cache' ∧ Sound others outstanding cache' ∧
      Steady cache cache' := by
  obtain ⟨leaves, v⟩ := cache
  unfold invalidateKey
  cases found : v.tree.lookup key with
  | none => exact ⟨_, rfl, sound, Steady.refl _⟩
  | some addr =>
      obtain ⟨leaves', retired, kept, keeps⟩ := sound.unlink (OrderedMap.lookup_eq_some.mp found)
      simp only [retired]
      exact ⟨_, rfl, kept, keeps, rfl, rfl⟩

theorem cacheInvalidate_sound (sound : Sound others outstanding cache) (start rounds i : Nat) :
    ∃ cache', cacheInvalidate start rounds i cache = some cache' ∧ Sound others outstanding cache' ∧
      Steady cache cache' := by
  induction rounds generalizing i cache with
  | zero => exact ⟨cache, rfl, sound, Steady.refl _⟩
  | succ rounds inductionHypothesis =>
      obtain ⟨between, round, soundBetween, first⟩ := invalidateKey_sound sound (blockKey start i)
      obtain ⟨cache', rest, soundRest, second⟩ := inductionHypothesis soundBetween (i + 1)
      refine ⟨cache', ?_, soundRest, first.trans second⟩
      rw [cacheInvalidate, round]
      exact rest

end Invalidate

section Kick

variable {others outstanding : List Nat} {cache : VolumeCache Data}

def kicks (count total : BitVec 32) (walk : List Nat) (nr : BitVec 32) : Nat :=
  if count = -1 then walk.length else min walk.length (total.toNat - nr.toNat)

theorem toNat_add_one_le (nr : BitVec 32) : (nr + 1).toNat ≤ nr.toNat + 1 := by
  rw [BitVec.toNat_add]
  exact Nat.mod_le _ _

theorem kicks_cons_all (total : BitVec 32) (addr : Nat) (rest : List Nat) (nr : BitVec 32) :
    kicks (-1) total (addr :: rest) nr ≤ kicks (-1) total rest nr + 1 := by
  simp [kicks]

theorem kicks_cons_next {count : BitVec 32} (some : count ≠ -1) (total : BitVec 32) (addr : Nat)
    (rest : List Nat) (nr : BitVec 32) :
    kicks count total (addr :: rest) nr ≤ kicks count total rest (nr + 1) + 1 := by
  have more := toNat_add_one_le nr
  simp only [kicks, if_neg some, List.length_cons]
  omega

theorem kicks_cons_last {count total nr : BitVec 32} (some : count ≠ -1) (enough : nr + 1 ≥ total)
    (addr : Nat) (rest : List Nat) : kicks count total (addr :: rest) nr ≤ 1 := by
  have more := toNat_add_one_le nr
  have last := BitVec.le_def.mp enough
  simp only [kicks, if_neg some]
  omega

theorem Sound.kick {leaves : Leaves Data} {v : Volume}
    (sound : Sound others outstanding (leaves, v)) {key addr : Nat} {rest : List Nat}
    (entry : (key, addr) ∈ v.tree.entries) (unwalked : addr ∉ rest)
    (linked : rest ⊆ v.tree.items) :
    ∃ leaves', leaves.retire addr = some leaves' ∧
      let between : VolumeCache Data := (leaves', { v with tree := v.tree.erase key }.unlink addr)
      Sound others outstanding between ∧ Steady (leaves, v) between ∧
        rest ⊆ between.2.tree.items ∧
        between.2.tree.entries.length + 1 = v.tree.entries.length := by
  obtain ⟨leaves', retired, kept, keeps⟩ := sound.unlink entry
  refine ⟨leaves', retired, kept, ⟨keeps, rfl, rfl⟩, ?_,
    (OrderedMap.erase_perm entry).length_eq.symm⟩
  intro other member
  have split := (OrderedMap.items_erase_perm entry).mem_iff.mp (linked member)
  rcases List.mem_cons.mp split with rfl | inside
  · exact absurd member unwalked
  · exact inside

/-- The walk meets leaves of the tree only, each once. -/
theorem kickLoop_sound (count total : BitVec 32) (condition : Option (Data → Bool))
    (sound : Sound others outstanding cache) {walk : List Nat} (nodup : walk.Nodup)
    (linked : walk ⊆ cache.2.tree.items) (nr : BitVec 32) :
    ∃ cache', kickLoop count total condition walk nr cache = some cache' ∧
      Sound others outstanding cache' ∧ Steady cache cache' ∧
      (condition = none → cache'.2.tree.entries.length + kicks count total walk nr ≤
        cache.2.tree.entries.length) := by
  induction walk generalizing nr cache with
  | nil => exact ⟨cache, rfl, sound, Steady.refl _, fun _ => by simp [kicks]⟩
  | cons addr rest inductionHypothesis =>
      obtain ⟨leaves, v⟩ := cache
      obtain ⟨unwalked, nodupRest⟩ := List.nodup_cons.mp nodup
      obtain ⟨first, linkedRest⟩ := List.cons_subset.mp linked
      obtain ⟨leaf, found, entry⟩ := sound.entry_of_item first
      rw [kickLoop, found, Option.bind_some]
      by_cases spared : spares condition leaf.data = true
      · rw [if_pos spared]
        obtain ⟨cache', looped, soundRest, steady, -⟩ :=
          inductionHypothesis sound nodupRest linkedRest nr
        refine ⟨cache', looped, soundRest, steady, ?_⟩
        rintro rfl
        cases spared
      · obtain ⟨leaves', retired, kept, step, linkedKept, smaller⟩ :=
          sound.kick entry unwalked linkedRest
        rw [if_neg spared, retired, Option.bind_some]
        -- one leaf is kicked here, the rest of the walk kicks the others
        have next (nr' : BitVec 32)
            (counts : kicks count total (addr :: rest) nr ≤ kicks count total rest nr' + 1) :
            ∃ cache', kickLoop count total condition rest nr'
                (leaves', { v with tree := v.tree.erase leaf.blkid }.unlink addr) = some cache' ∧
              Sound others outstanding cache' ∧ Steady (leaves, v) cache' ∧
              (condition = none → cache'.2.tree.entries.length +
                kicks count total (addr :: rest) nr ≤ v.tree.entries.length) := by
          obtain ⟨cache', looped, soundRest, steadyRest, length⟩ :=
            inductionHypothesis kept nodupRest linkedKept nr'
          refine ⟨cache', looped, soundRest, step.trans steadyRest, fun always => ?_⟩
          have kicked := length always
          omega
        by_cases all : count = -1
        · rw [if_neg (not_not_intro all)]
          apply next nr
          rw [all]
          exact kicks_cons_all total addr rest nr
        · rw [if_pos all]
          split
          · rename_i enough
            refine ⟨_, rfl, kept, step, fun _ => ?_⟩
            have last := kicks_cons_last all enough addr rest
            change _ + kicks count total (addr :: rest) nr ≤ v.tree.entries.length
            omega
          · exact next (nr + 1) (kicks_cons_next all total addr rest nr)

theorem kickMetaCache_sound (count : BitVec 32) (condition : Option (Data → Bool))
    (sound : Sound others outstanding cache) :
    ∃ cache', kickMetaCache count condition cache = some cache' ∧ Sound others outstanding cache' ∧
      Steady cache cache' ∧
      (condition = none → cache'.2.tree.entries.length +
        kicks count (kickTotal count cache.2) cache.2.tree.items 0 ≤
          cache.2.tree.entries.length) := by
  have linked : cache.2.lruList.reverse ⊆ cache.2.tree.items := fun addr member =>
    sound.consistent.listed.mem_iff.mp (List.mem_reverse.mp member)
  obtain ⟨cache', looped, after, steady, length⟩ := kickLoop_sound count (kickTotal count cache.2)
    condition sound (List.nodup_reverse.mpr sound.lruList_nodup) linked 0
  refine ⟨cache', looped, after, steady, fun always => ?_⟩
  have kicked := length always
  rwa [kicks, List.length_reverse, sound.consistent.listed.length_eq] at kicked

end Kick

section Update

variable {others outstanding : List Nat} {cache : VolumeCache Data}

section Insert

variable {leaves : Leaves Data} {v : Volume} {key : Nat} {data : Data}

theorem Sound.keyed_insert (sound : Sound others outstanding (leaves, v))
    (keepsAlloc : Keeps leaves (leaves.alloc ⟨data, key, 0⟩)) {after : Leaves Data}
    (keeps : Keeps (leaves.alloc ⟨data, key, 0⟩) after) :
    ∀ entry ∈ (v.tree.insert key leaves.next).entries, ∀ leaf',
      after.leaf entry.2 = some leaf' → leaf'.blkid = entry.1 := by
  intro entry member leaf' found
  rcases OrderedMap.mem_insert.mp member with rfl | ⟨earlier, -⟩
  · obtain ⟨own, here, same, -⟩ := keeps.leaf leaves.next leaf' found (Nat.lt_succ_self _)
    rw [alloc_leaf_self] at here
    obtain rfl := Option.some.inj here
    exact same
  · have old := sound.lt_next (List.mem_map_of_mem earlier)
    obtain ⟨own, here, same, -⟩ := (keepsAlloc.trans keeps).leaf entry.2 leaf' found old
    rw [same]
    exact sound.consistent.keyed entry earlier own here

theorem insertLeaf_added (sound : Sound others outstanding (leaves, v))
    (absent : v.tree.lookup key = none) :
    ∃ cache', insertLeaf key data (leaves, v) = some cache' ∧ Sound others outstanding cache' ∧
      Steady (leaves, v) cache' ∧ cache'.2.tree = v.tree.insert key leaves.next := by
  obtain ⟨allocated, keepsAlloc⟩ := @Accounted.alloc _ _ _ _ sound.accounted ⟨data, key, 0⟩ rfl
  have counter : v.cacheNum = BitVec.ofNat 32 v.tree.entries.length := sound.consistent.cacheNum
  have unchanged := OrderedMap.erase_of_absent (OrderedMap.lookup_eq_none.mp absent)
  have added := @OrderedMap.items_insert_perm _ _ _ v.tree key leaves.next
  rw [unchanged] at added
  simp only [insertLeaf, absent]
  refine ⟨_, rfl, ⟨?_, ?_, ?_, sound.keyed_insert keepsAlloc (Keeps.refl _)⟩,
    ⟨keepsAlloc, rfl, rfl⟩, rfl⟩
  · exact allocated.perm (added.append_right others).symm (List.Perm.refl _)
  · exact (sound.consistent.listed.cons leaves.next).trans added.symm
  · change v.cacheNum + 1 = BitVec.ofNat 32 (v.tree.insert key leaves.next).entries.length
    rw [OrderedMap.insert_perm.length_eq, unchanged, List.length_cons, BitVec.ofNat_add, counter]
    rfl

theorem insertLeaf_replaced (sound : Sound others outstanding (leaves, v)) {old : Nat}
    (there : v.tree.lookup key = some old) :
    ∃ cache', insertLeaf key data (leaves, v) = some cache' ∧ Sound others outstanding cache' ∧
      Steady (leaves, v) cache' ∧ cache'.2.tree = v.tree.insert key leaves.next := by
  obtain ⟨allocated, keepsAlloc⟩ := @Accounted.alloc _ _ _ _ sound.accounted ⟨data, key, 0⟩ rfl
  have entry := OrderedMap.lookup_eq_some.mp there
  have oldItems := OrderedMap.items_erase_perm entry
  have items := @OrderedMap.items_insert_perm _ _ _ v.tree key leaves.next
  have linked : (leaves.next :: (v.tree.items ++ others)).Perm
      (old :: ((v.tree.insert key leaves.next).items ++ others)) := by
    calc
      leaves.next :: (v.tree.items ++ others)
      _ |>.Perm (leaves.next :: (old :: (v.tree.erase key).items ++ others)) :=
        (oldItems.append_right others).cons _
      _ |>.Perm (old :: (leaves.next :: (v.tree.erase key).items ++ others)) :=
        List.Perm.swap ..
      _ |>.Perm (old :: ((v.tree.insert key leaves.next).items ++ others)) :=
        (items.symm.append_right others).cons _
  obtain ⟨leaves', retired, kept, keeps⟩ := (allocated.perm linked (List.Perm.refl _)).retire
  simp only [insertLeaf, there]
  rw [retired]
  refine ⟨_, rfl, ⟨kept, ?_, ?_, sound.keyed_insert keepsAlloc keeps⟩,
    ⟨keepsAlloc.trans keeps, rfl, rfl⟩, rfl⟩
  · have listed := ((sound.consistent.listed.trans oldItems).cons leaves.next).trans
      (List.Perm.swap ..)
    have rest := listed.erase old
    rw [List.erase_cons_head] at rest
    exact rest.trans items.symm
  · have same : (v.tree.insert key leaves.next).entries.length = v.tree.entries.length :=
      OrderedMap.insert_perm.length_eq.trans (OrderedMap.erase_perm entry).length_eq.symm
    have counter : v.cacheNum = BitVec.ofNat 32 v.tree.entries.length := sound.consistent.cacheNum
    change v.cacheNum + 1 - 1 = BitVec.ofNat 32 (v.tree.insert key leaves.next).entries.length
    rw [same, counter]
    exact BitVec.add_sub_cancel _ _

/-- An insertion adds an entry, or takes the place of the entry of its key. -/
theorem insertLeaf_sound (sound : Sound others outstanding (leaves, v)) (key : Nat) (data : Data) :
    ∃ cache', insertLeaf key data (leaves, v) = some cache' ∧ Sound others outstanding cache' ∧
      Steady (leaves, v) cache' ∧
      cache'.2.tree.entries.Perm ((key, leaves.next) :: (v.tree.erase key).entries) := by
  have inserted : ∃ cache', insertLeaf key data (leaves, v) = some cache' ∧
      Sound others outstanding cache' ∧ Steady (leaves, v) cache' ∧
      cache'.2.tree = v.tree.insert key leaves.next := by
    cases found : v.tree.lookup key with
    | none => exact insertLeaf_added sound found
    | some old => exact insertLeaf_replaced sound found
  obtain ⟨cache', run, after, steady, tree⟩ := inserted
  refine ⟨cache', run, after, steady, ?_⟩
  rw [tree]
  exact OrderedMap.insert_perm

end Insert

theorem updateLoop_sound (sound : Sound others outstanding cache) (start rounds i : Nat)
    (items : UpdateItems Data) (ret : Int) :
    ∃ result, updateLoop start items rounds i ret cache = some result ∧
      Sound others outstanding result.2 ∧ Steady cache result.2 ∧
      result.2.2.tree.entries.length ≤ cache.2.tree.entries.length + rounds := by
  induction rounds generalizing i ret cache with
  | zero => exact ⟨_, rfl, sound, Steady.refl _, Nat.le_refl _⟩
  | succ rounds inductionHypothesis =>
      rw [updateLoop]
      split
      · exact ⟨_, rfl, sound, Steady.refl _, Nat.le_add_right _ _⟩
      · split
        · exact ⟨_, rfl, sound, Steady.refl _, Nat.le_add_right _ _⟩
        · obtain ⟨between, round, soundBetween, first, inserted⟩ :=
            insertLeaf_sound sound (blockKey start i) (items.basket i)
          obtain ⟨result, rest, soundRest, second, length⟩ :=
            inductionHypothesis soundBetween (i + 1) 0
          refine ⟨result, ?_, soundRest, first.trans second, ?_⟩
          · rw [round]
            exact rest
          · have erased : (cache.2.tree.erase (blockKey start i)).entries.length ≤
                cache.2.tree.entries.length := List.length_filter_le _ _
            rw [inserted.length_eq, List.length_cons] at length
            omega

theorem cacheUpdate_sound (sound : Sound others outstanding cache) (start : Nat)
    (count : BitVec 32) (items : UpdateItems Data) :
    ∃ result, cacheUpdate start count items cache = some result ∧
      Sound others outstanding result.2 ∧ Steady cache result.2 := by
  have kicked : ∃ between, (if 0 < (surplus cache.2 count).toInt then
      kickMetaCache (surplus cache.2 count) none cache else some cache) = some between ∧
      Sound others outstanding between ∧ Steady cache between := by
    split
    · obtain ⟨between, kick, after, steady, -⟩ := kickMetaCache_sound (surplus cache.2 count) none sound
      exact ⟨between, kick, after, steady⟩
    · exact ⟨cache, rfl, sound, Steady.refl _⟩
  obtain ⟨between, kick, soundBetween, first⟩ := kicked
  obtain ⟨result, loop, soundRest, second, -⟩ :=
    updateLoop_sound soundBetween start count.toInt.toNat 0 items noMemory
  refine ⟨result, ?_, soundRest, first.trans second⟩
  simp only [cacheUpdate, kick, Option.bind_some]
  exact loop

end Update

end DmsBlkdev
