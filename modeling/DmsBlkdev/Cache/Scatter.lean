import DmsBlkdev.Cache.Representation

/-!
# Where a find puts what it has looked up

The lookup fills the basket from the front, in the order of the keys.  From
the last slot to the first, each leaf is then moved to the slot of its key,
and that slot lies behind all the slots that are still to be read.
-/

namespace DmsBlkdev

open Lib Lib.Run Leaves

variable {Data : Type}

/-- `++leaf->flag_refcnt`, of the leaf. -/
def TreeLeaf.refer (leaf : TreeLeaf Data) : TreeLeaf Data :=
  { leaf with flagRefcnt := leaf.flagRefcnt + 1 }

theorem TreeLeaf.refCount_toNat (leaf : TreeLeaf Data) :
    leaf.refCount.toNat = leaf.flagRefcnt.toNat % 2 ^ 31 := by
  have mask : ~~~ deleteBit = BitVec.ofNat 32 (2 ^ 31 - 1) := by decide
  rw [refCount, mask, BitVec.toNat_and, BitVec.toNat_ofNat, Nat.mod_eq_of_lt (by decide),
    Nat.and_two_pow_sub_one_eq_mod]

theorem TreeLeaf.refCount_refer (leaf : TreeLeaf Data) (room : leaf.refCount.toNat + 1 < 2 ^ 31) :
    leaf.refer.refCount.toNat = leaf.refCount.toNat + 1 := by
  rw [refCount_toNat] at room ⊢
  rw [refCount_toNat, refer, BitVec.toNat_add]
  change (leaf.flagRefcnt.toNat + 1) % 2 ^ 32 % 2 ^ 31 = _
  omega

def Indexed (leaves : Leaves Data) (tree : OrderedMap Nat Nat) : Prop :=
  ∀ entry ∈ tree.entries, ∃ leaf, leaves.leaf entry.2 = some leaf ∧ leaf.blkid = entry.1

theorem Sound.indexed {others outstanding : List Nat} {cache : VolumeCache Data}
    (sound : Sound others outstanding cache) : Indexed cache.1 cache.2.tree := by
  intro entry member
  obtain ⟨leaf, found⟩ := sound.accounted.leaf_of_linked
    (List.mem_append_left others (List.mem_map_of_mem member))
  exact ⟨leaf, found, sound.consistent.keyed entry member leaf found⟩

def Keyed (leaves : Leaves Data) (tree : OrderedMap Nat Nat) : Prop :=
  ∀ entry ∈ tree.entries, ∀ leaf, leaves.leaf entry.2 = some leaf → leaf.blkid = entry.1

theorem Indexed.keyed {leaves : Leaves Data} {tree : OrderedMap Nat Nat}
    (indexed : Indexed leaves tree) : Keyed leaves tree := by
  intro entry member leaf found
  obtain ⟨own, here, key⟩ := indexed entry member
  obtain rfl := Option.some.inj (here.symm.trans found)
  exact key

/-- Two entries of one leaf would have its block id for their key. -/
theorem Indexed.items_nodup {leaves : Leaves Data} {tree : OrderedMap Nat Nat}
    (indexed : Indexed leaves tree) : tree.items.Nodup := by
  refine List.Nodup.map_on ?_ (List.Nodup.of_map Prod.fst tree.keys_nodup)
  intro one memberOne other memberOther same
  obtain ⟨leaf, found, key⟩ := indexed one memberOne
  obtain ⟨leaf', found', key'⟩ := indexed other memberOther
  rw [← same, found] at found'
  obtain rfl := Option.some.inj found'
  exact Prod.ext (key.symm.trans key') same

/-- Before slot `i - 1` is looked at, with `retOff` as the key taken last and `limit` as the end of
the range: the leaves taken are those of the keys from `retOff` on, in the slots of their keys. -/
structure Finding (start count limit i retOff : Nat) (before now : VolumeCache Data) (rret : Int)
    (basket : List (Option Nat)) : Prop where
  looking : Looking start i retOff (before.2.tree.firstFrom start count) basket
  capacity : basket.length = count
  upper : retOff ≤ limit
  ahead : start + i ≤ retOff ∨ retOff = limit
  below : ∀ p < i, ∀ entry, (before.2.tree.firstFrom start count)[p]? = some entry →
    entry.1 < limit → entry.1 < retOff
  placed : ∀ p < count, retOff ≤ start + p → start + p < limit →
    basket[p]? = some (before.2.tree.lookup (start + p))
  rest : ∀ entry ∈ before.2.tree.entries, start ≤ entry.1 → entry.1 < retOff →
    entry ∈ (before.2.tree.firstFrom start count).take i
  number : rret = (basket.drop i).reduceOption.length
  leaves : ∀ addr, now.1.leaf addr =
    if addr ∈ (basket.drop i).reduceOption then (before.1.leaf addr).map TreeLeaf.refer
    else before.1.leaf addr
  next : now.1.next = before.1.next
  volume : now.2 = (((before.2.tree.firstFrom start count).drop i).filter fun entry =>
    entry.1 < limit).foldr (fun entry v => v.touch entry.2) before.2

section Round

variable {start count limit i retOff : Nat} {before now : VolumeCache Data} {rret : Int}
  {basket : List (Option Nat)} {key addr : Nat}

theorem firstFrom_take_lt {tree : OrderedMap Nat Nat}
    (here : (tree.firstFrom start count)[i]? = some (key, addr)) :
    (tree.firstFrom start count).take (i + 1) =
        (tree.firstFrom start count).take i ++ [(key, addr)] ∧
      ∀ entry ∈ (tree.firstFrom start count).take i, entry.1 < key := by
  have last : (tree.firstFrom start count).take (i + 1) =
      (tree.firstFrom start count).take i ++ [(key, addr)] := by
    rw [List.take_add_one, here]
    rfl
  refine ⟨last, fun entry member => ?_⟩
  have ascending : ((tree.firstFrom start count).take (i + 1)).Pairwise
      fun first second => first.1 < second.1 :=
    (OrderedMap.firstFrom_ascending start count).take
  rw [last, List.pairwise_append] at ascending
  exact ascending.2.2 entry member (key, addr) (List.mem_singleton_self _)

theorem firstFrom_drop {tree : OrderedMap Nat Nat}
    (here : (tree.firstFrom start count)[i]? = some (key, addr)) :
    (tree.firstFrom start count).drop i =
      (key, addr) :: (tree.firstFrom start count).drop (i + 1) := by
  obtain ⟨within, located⟩ := List.getElem?_eq_some_iff.mp here
  rw [List.drop_eq_getElem_cons within, located]

/-- A find changes the words of leaves only. -/
theorem Finding.keeps (finding : Finding start count limit i retOff before now rret basket) :
    Keeps before.1 now.1 := by
  refine ⟨Nat.le_of_eq finding.next.symm, fun other leaf' found _ => ?_⟩
  rw [finding.leaves] at found
  split at found
  · obtain ⟨leaf, here, rfl⟩ := Option.map_eq_some_iff.mp found
    exact ⟨leaf, here, rfl, rfl⟩
  · exact ⟨leaf', found, rfl, rfl⟩

/-- Below the key taken last, the entry of the round and those before it are all that is cached. -/
theorem Finding.earlier (finding : Finding start count limit (i + 1) retOff before now rret basket)
    (here : (before.2.tree.firstFrom start count)[i]? = some (key, addr)) {entry : Nat × Nat}
    (member : entry ∈ before.2.tree.entries) (lower : start ≤ entry.1) (early : entry.1 < retOff)
    (different : entry.1 ≠ key) : entry ∈ (before.2.tree.firstFrom start count).take i := by
  have looked := finding.rest entry member lower early
  rw [(firstFrom_take_lt here).1, List.mem_append, List.mem_singleton] at looked
  refine looked.resolve_right ?_
  rintro rfl
  exact different rfl

theorem Finding.uncached (finding : Finding start count limit (i + 1) retOff before now rret basket)
    (here : (before.2.tree.firstFrom start count)[i]? = some (key, addr)) {position : Nat}
    (lower : start ≤ position) (above : key < position) (early : position < retOff) :
    before.2.tree.lookup position = none := by
  cases located : before.2.tree.lookup position with
  | none => rfl
  | some other =>
      have entry := OrderedMap.lookup_eq_some.mp located
      have low := finding.earlier here entry lower early (Nat.ne_of_gt above)
      exact absurd ((firstFrom_take_lt here).2 _ low) (Nat.lt_asymm above)

/-- A leaf behind the range only leaves its slot. -/
theorem Finding.skip (finding : Finding start count limit (i + 1) retOff before now rret basket)
    (here : (before.2.tree.firstFrom start count)[i]? = some (key, addr))
    (behind : ¬ key < retOff) (inside : i < basket.length) :
    Finding start count limit i retOff before now rret (basket.set i none) := by
  obtain ⟨cleared, slots⟩ := finding.looking.clear inside
  have outside : ¬ key < limit := fun within =>
    behind (finding.below i (Nat.lt_succ_self i) (key, addr) here within)
  refine ⟨cleared, ?_, finding.upper, ?_, ?_, ?_, ?_, ?_, ?_, finding.next, ?_⟩
  · rw [List.length_set]
    exact finding.capacity
  · have ahead := finding.ahead
    omega
  · exact fun p early => finding.below p (Nat.lt_succ_of_lt early)
  · intro p within late early
    have ahead := finding.ahead
    rw [List.getElem?_set_ne (by omega)]
    exact finding.placed p within late early
  · intro entry member lower early
    apply finding.earlier here member lower early
    exact fun same => behind (same ▸ early)
  · rw [slots]
    exact finding.number
  · rw [slots]
    exact finding.leaves
  · rw [firstFrom_drop here, List.filter_cons_of_neg (by simpa using outside)]
    exact finding.volume

/-- A leaf of the range goes to the slot of its key. -/
theorem Finding.take (finding : Finding start count limit (i + 1) retOff before now rret basket)
    (once : before.2.tree.items.Nodup) (ends : limit ≤ start + count)
    (here : (before.2.tree.firstFrom start count)[i]? = some (key, addr))
    (early : key < retOff) (inside : i < basket.length) {leaf : TreeLeaf Data}
    (found : before.1.leaf addr = some leaf) :
    ∃ leaves, now.1.takeRef addr = some leaves ∧
      Finding start count limit i key before (leaves, now.2.touch addr) (rret + 1)
        ((basket.set i none).set (key - start) (some addr)) := by
  obtain ⟨cleared, slots⟩ := finding.looking.clear inside
  obtain ⟨entry, -⟩ := OrderedMap.mem_firstFrom (List.mem_of_getElem? here)
  have late := OrderedMap.firstFrom_position_le here
  have upper := finding.upper
  have capacity := finding.capacity
  have within : key - start < (basket.set i none).length := by
    rw [List.length_set]
    omega
  obtain ⟨looking, perm⟩ := cleared.take here late early within
  have untaken := finding.looking.fresh (before.2.tree.firstFrom_items_nodup start count once) here
  rw [slots] at perm
  -- the leaf has not been taken yet, so it is the one of before
  have now' : now.1.leaf addr = some leaf := by rw [finding.leaves, if_neg untaken, found]
  refine ⟨now.1.store addr leaf.refer, ?_,
    ⟨looking, ?_, ?_, ?_, ?_, ?_, ?_, ?_, ?_, finding.next, ?_⟩⟩
  · rw [takeRef, now']
    rfl
  · rw [List.length_set, List.length_set]
    exact capacity
  · exact Nat.le_of_lt (Nat.lt_of_lt_of_le early upper)
  · exact .inl late
  · intro p earlier other located _
    refine (firstFrom_take_lt here).2 other (List.mem_of_getElem? (i := p) ?_)
    rw [List.getElem?_take_of_lt earlier, located]
  · intro p bounded behind ahead
    by_cases same : key - start = p
    · have own : start + p = key := by omega
      rw [same, List.getElem?_set_self (same ▸ within), own, OrderedMap.lookup_eq_some.mpr entry]
    · rw [List.getElem?_set_ne same, List.getElem?_set_ne (by omega)]
      by_cases free : start + p < retOff
      · have above : key < start + p := by omega
        rw [finding.looking.free p (by omega) (capacity ▸ bounded) free,
          finding.uncached here (Nat.le_add_right _ _) above free]
      · exact finding.placed p bounded (Nat.le_of_not_lt free) ahead
  · intro other member lower before
    apply finding.earlier here member lower (Nat.lt_trans before early)
    exact Nat.ne_of_lt before
  · rw [perm.length_eq, finding.number, List.length_cons]
    rfl
  · intro other
    simp only [perm.mem_iff, List.mem_cons]
    by_cases same : other = addr
    · subst same
      simp [found]
    · rw [store_leaf_of_ne _ _ same, finding.leaves]
      simp [same]
  · have within' : key < limit := Nat.lt_of_lt_of_le early upper
    rw [firstFrom_drop here, List.filter_cons_of_pos (by simpa using within'), List.foldr_cons,
      ← finding.volume]

/-- The loop moves the leaves as it should, and gets through when none of them has been released. -/
theorem cacheFindLoop_finding (keyed : Keyed before.1 before.2.tree)
    (once : before.2.tree.items.Nodup) (ends : limit ≤ start + count)
    (within : i ≤ (before.2.tree.firstFrom start count).length)
    (finding : Finding start count limit i retOff before now rret basket) :
    (∀ result, cacheFindLoop start i retOff rret basket now = some result →
      ∃ retOff', Finding start count limit 0 retOff' before result.2.2 result.1 result.2.1) ∧
    (Indexed before.1 before.2.tree →
      ∃ result, cacheFindLoop start i retOff rret basket now = some result) := by
  induction i generalizing retOff rret basket now with
  | zero =>
      refine ⟨fun result looped => ⟨retOff, ?_⟩, fun _ => ⟨(rret, basket, now), rfl⟩⟩
      obtain rfl := Option.some.inj looped
      exact finding
  | succ i inductionHypothesis =>
      obtain ⟨leaves, v⟩ := now
      obtain ⟨⟨key, addr⟩, here⟩ :
          ∃ entry, (before.2.tree.firstFrom start count)[i]? = some entry :=
        ⟨_, List.getElem?_eq_getElem within⟩
      have slot := finding.looking.lower i (Nat.lt_succ_self i) (key, addr) here
      have inside : i < basket.length := (List.getElem?_eq_some_iff.mp slot).1
      have late := OrderedMap.firstFrom_position_le here
      have entry := (OrderedMap.mem_firstFrom (List.mem_of_getElem? here)).1
      have untaken := finding.looking.fresh
        (before.2.tree.firstFrom_items_nodup start count once) here
      have same : leaves.leaf addr = before.1.leaf addr := by
        have now := finding.leaves addr
        rwa [if_neg untaken] at now
      simp only [cacheFindLoop, slot, Option.join_some, Option.bind_some, same]
      cases found : before.1.leaf addr with
      | none =>
          refine ⟨fun result looped => (by cases looped), fun indexed => ?_⟩
          obtain ⟨leaf, there, -⟩ := indexed (key, addr) entry
          cases found.symm.trans there
      | some leaf =>
          simp only [Option.bind_some, keyed (key, addr) entry leaf found]
          by_cases early : key < retOff
          · obtain ⟨leaves', taken, next⟩ := finding.take once ends here early inside found
            rw [if_pos ⟨by omega, early⟩, taken, Option.bind_some]
            exact inductionHypothesis (Nat.le_of_succ_le within) next
          · rw [if_neg fun both : start ≤ key ∧ key < retOff => early both.2]
            exact inductionHypothesis (Nat.le_of_succ_le within) (finding.skip here early inside)

end Round

section Find

variable {start count limit : Nat} {before : VolumeCache Data}

theorem mem_firstFrom_of_lt {tree : OrderedMap Nat Nat} {entry : Nat × Nat}
    (member : entry ∈ tree.entries) (lower : start ≤ entry.1) (upper : entry.1 < start + count) :
    entry ∈ tree.firstFrom start count := by
  let behind := tree.entries.filter fun entry => start ≤ entry.1
  have passed : entry ∈ behind := List.mem_filter.mpr ⟨member, decide_eq_true lower⟩
  obtain ⟨position, located⟩ := List.mem_iff_getElem?.mp passed
  have place := OrderedMap.add_position_le (tree.ascending.filter _)
    (fun other member => of_decide_eq_true (List.mem_filter.mp member).2) located
  have early : position < count := by omega
  refine List.mem_of_getElem? (i := position) ?_
  rw [OrderedMap.firstFrom, List.getElem?_take_of_lt early]
  exact located

theorem Finding.init (ends : limit ≤ start + count) :
    Finding start count limit (before.2.tree.firstFrom start count).length limit before before 0
      (lookedUp start count before.2.tree) := by
  have none := lookedUp_reduceOption start count before.2.tree
  refine ⟨Looking.init start count before.2.tree limit, lookedUp_length start count before.2.tree,
    Nat.le_refl _, .inr rfl, fun _ _ _ _ early => early, ?_, ?_, ?_, ?_, rfl, ?_⟩
  · exact fun p _ late early => absurd early (Nat.not_lt.mpr late)
  · intro entry member lower upper
    rw [List.take_length]
    exact mem_firstFrom_of_lt member lower (Nat.lt_of_lt_of_le upper ends)
  · rw [none]
    rfl
  · intro addr
    rw [none, if_neg List.not_mem_nil]
  · rw [List.drop_length]
    rfl

theorem foldr_touch_tree (entries : List (Nat × Nat)) (v : Volume) :
    (entries.foldr (fun entry v => v.touch entry.2) v).tree = v.tree := by
  induction entries with
  | nil => rfl
  | cons entry rest inductionHypothesis => exact inductionHypothesis

/-- What a find makes of the basket and of the leaves. -/
structure Scattered (start count : Nat) (before : VolumeCache Data)
    (result : Int × List (Option Nat) × VolumeCache Data) : Prop where
  slots : ∀ k < count, result.2.1[k]? = some (before.2.tree.lookup (start + k))
  capacity : result.2.1.length = count
  number : result.1 = result.2.1.reduceOption.length
  referred : ∀ addr ∈ result.2.1.reduceOption, ∃ leaf, before.1.leaf addr = some leaf ∧
    result.2.2.1.leaf addr = some leaf.refer ∧
      (leaf.refCount.toNat + 1 < 2 ^ 31 → leaf.refer.refCount.toNat = leaf.refCount.toNat + 1)
  others : ∀ addr ∉ result.2.1.reduceOption, result.2.2.1.leaf addr = before.1.leaf addr
  tree : result.2.2.2.tree = before.2.tree

theorem Finding.scattered {retOff : Nat} {result : Int × List (Option Nat) × VolumeCache Data}
    (finding : Finding start count (start + count) 0 retOff before result.2.2 result.1 result.2.1)
    (indexed : Indexed before.1 before.2.tree) : Scattered start count before result := by
  have leaves := finding.leaves
  have taken := finding.looking.taken
  rw [List.drop_zero] at leaves taken
  refine ⟨?_, finding.capacity, finding.number, ?_, ?_, ?_⟩
  · intro k within
    by_cases early : start + k < retOff
    · rw [finding.looking.free k (Nat.zero_le k) (finding.capacity ▸ within) early]
      cases located : before.2.tree.lookup (start + k) with
      | none => rfl
      | some addr =>
          have left := finding.rest (start + k, addr) (OrderedMap.lookup_eq_some.mp located)
            (Nat.le_add_right _ _) early
          exact absurd left List.not_mem_nil
    · exact finding.placed k within (Nat.le_of_not_lt early) (Nat.add_lt_add_left within start)
  · intro addr member
    obtain ⟨entry, looked, rfl⟩ := List.mem_map.mp (taken member)
    obtain ⟨leaf, found, -⟩ := indexed entry (OrderedMap.mem_firstFrom looked).1
    refine ⟨leaf, found, ?_, leaf.refCount_refer⟩
    rw [leaves, if_pos member, found]
    rfl
  · intro addr absent
    rw [leaves, if_neg absent]
  · rw [finding.volume]
    exact foldr_touch_tree _ _

theorem cacheFind_finding (keyed : Keyed before.1 before.2.tree)
    (once : before.2.tree.items.Nodup) :
    (∀ result, cacheFind start count before = some result →
      ∃ retOff, Finding start count (blockKey start count) 0 retOff before result.2.2 result.1
        result.2.1) ∧
    (Indexed before.1 before.2.tree → ∃ result, cacheFind start count before = some result) := by
  have ends : blockKey start count ≤ start + count := Nat.mod_le _ _
  rw [cacheFind_eq]
  exact cacheFindLoop_finding keyed once ends (Nat.le_refl _) (Finding.init ends)

end Find

/-- On a volume that a legal run leaves, a find puts each leaf of the range into the slot of its
key and clears the other slots; it counts those leaves, and refers to them and to no others. -/
theorem cacheFind_scattered (volid : Nat) (cacheSize : BitVec 32) (events : List (CacheEvent Data))
    (legal : Guarded CacheState.Legal CacheState.step (.init volid cacheSize) events)
    {state : CacheState Data}
    (reached : run CacheState.step (.init volid cacheSize) events = some state)
    (start : BitVec 64) {count : Nat} (unwrapped : start.toNat + count < 2 ^ 64) :
    ∃ result, cacheFind start.toNat count state.cache = some result ∧
      Scattered start.toNat count state.cache result := by
  obtain ⟨state', ran, sound⟩ := run_sound volid cacheSize legal
  obtain rfl := Option.some.inj (ran.symm.trans reached)
  have indexed := sound.indexed
  obtain ⟨moved, through⟩ :=
    @cacheFind_finding _ start.toNat count _ indexed.keyed indexed.items_nodup
  obtain ⟨result, found⟩ := through indexed
  obtain ⟨retOff, finding⟩ := moved result found
  rw [blockKey, Nat.mod_eq_of_lt unwrapped] at finding
  exact ⟨result, found, finding.scattered indexed⟩

/-- Six of seven neighbouring blocks were invalidated, and the last is found in its own slot. -/
theorem cacheFind_scattered_sparse :
    ∃ state : CacheState Nat,
      run CacheState.step (.init 7 16)
          [.update 10 7 numberedItems, .invalidate 10 6, .update 11 1 numberedItems] = some state ∧
        ∃ result, cacheFind 10 7 state.cache = some result ∧ Scattered 10 7 state.cache result := by
  have legal : Guarded CacheState.Legal CacheState.step (.init 7 16)
      [.update 10 7 numberedItems, .invalidate 10 6, .update 11 1 numberedItems] := by
    decide
  obtain ⟨state, ran, -⟩ := run_sound 7 16 legal
  exact ⟨state, ran, cacheFind_scattered 7 16 _ legal ran 10 (by decide)⟩

end DmsBlkdev
