import DmsBlkdev.Cache.Invariant

/-!
# The references to cached items

A find takes one reference to every leaf that it puts into the basket, and
the put of a basket gives those references back.  The basket also serves the
find for the leaves it has looked up, so what matters is that a slot is read
before it is written over.
-/

namespace DmsBlkdev

open Lib Leaves

variable {Data : Type} {others outstanding : List Nat} {leaves : Leaves Data} {v : Volume}

theorem reduceOption_set_perm {Item : Type} {slots : List (Option Item)} {position : Nat}
    (item : Item) (free : slots[position]? = some none) :
    (slots.set position (some item)).reduceOption.Perm (item :: slots.reduceOption) := by
  induction slots generalizing position with
  | nil => cases free
  | cons slot rest inductionHypothesis =>
      cases position with
      | zero =>
          obtain rfl : slot = none := by simpa using free
          exact List.Perm.refl _
      | succ position =>
          have tail := @inductionHypothesis position (by simpa using free)
          cases slot with
          | none => exact tail
          | some other => exact (tail.cons other).trans (List.Perm.swap ..)

/-- Before slot `i - 1` is looked at: the slots below `i` hold what was looked up, and those from
`i` on hold leaves that were looked up there, none of them at a place before `retOff`. -/
structure Looking (start i retOff : Nat) (looked : List (Nat × Nat))
    (basket : List (Option Nat)) : Prop where
  lower : ∀ p < i, ∀ entry, looked[p]? = some entry → basket[p]? = some (some entry.2)
  free : ∀ p, i ≤ p → p < basket.length → start + p < retOff → basket[p]? = some none
  taken : (basket.drop i).reduceOption ⊆ (looked.drop i).map Prod.snd

section Slots

variable {start i retOff : Nat} {looked : List (Nat × Nat)} {basket : List (Option Nat)}

theorem Looking.clear (looking : Looking start (i + 1) retOff looked basket)
    (within : i < basket.length) : Looking start i retOff looked (basket.set i none) ∧
      ((basket.set i none).drop i).reduceOption = (basket.drop (i + 1)).reduceOption := by
  have slots : ((basket.set i none).drop i).reduceOption = (basket.drop (i + 1)).reduceOption := by
    rw [List.drop_set, if_neg (Nat.lt_irrefl i), Nat.sub_self, List.drop_eq_getElem_cons within]
    rfl
  refine ⟨⟨?_, ?_, ?_⟩, slots⟩
  · intro p below entry here
    rw [List.getElem?_set_ne (by omega)]
    exact looking.lower p (by omega) entry here
  · intro p above inside early
    rw [List.length_set] at inside
    by_cases same : i = p
    · subst same
      exact List.getElem?_set_self inside
    · rw [List.getElem?_set_ne same]
      exact looking.free p (by omega) inside early
  · rw [slots]
    intro addr member
    have later : (looked.drop (i + 1)).Sublist (looked.drop i) :=
      List.drop_sublist_drop_left looked (Nat.le_succ i)
    exact (later.map Prod.snd).subset (looking.taken member)

theorem Looking.take (looking : Looking start i retOff looked basket) {key addr : Nat}
    (here : looked[i]? = some (key, addr)) (late : start + i ≤ key) (early : key < retOff)
    (within : key - start < basket.length) :
    Looking start i key looked (basket.set (key - start) (some addr)) ∧
      ((basket.set (key - start) (some addr)).drop i).reduceOption.Perm
        (addr :: (basket.drop i).reduceOption) := by
  have free : (basket.drop i)[key - start - i]? = some none := by
    rw [List.getElem?_drop, Nat.add_sub_cancel' (by omega)]
    exact looking.free (key - start) (by omega) within (by omega)
  have slots : ((basket.set (key - start) (some addr)).drop i).reduceOption.Perm
      (addr :: (basket.drop i).reduceOption) := by
    rw [List.drop_set, if_neg (by omega)]
    exact reduceOption_set_perm addr free
  refine ⟨⟨?_, ?_, ?_⟩, slots⟩
  · intro p below entry found
    rw [List.getElem?_set_ne (by omega)]
    exact looking.lower p below entry found
  · intro p above inside before
    rw [List.length_set] at inside
    rw [List.getElem?_set_ne (by omega)]
    exact looking.free p above inside (by omega)
  · intro other member
    rcases List.mem_cons.mp (slots.mem_iff.mp member) with rfl | earlier
    · have first : (looked.drop i)[0]? = some (key, other) := by
        rw [List.getElem?_drop]
        exact here
      exact List.mem_map_of_mem (List.mem_of_getElem? first)
    · exact looking.taken earlier

theorem Looking.fresh (looking : Looking start (i + 1) retOff looked basket)
    (nodup : (looked.map Prod.snd).Nodup) {entry : Nat × Nat} (here : looked[i]? = some entry) :
    entry.2 ∉ (basket.drop (i + 1)).reduceOption := by
  intro member
  obtain ⟨within, located⟩ := List.getElem?_eq_some_iff.mp here
  have split : looked.drop i = entry :: looked.drop (i + 1) := by
    rw [List.drop_eq_getElem_cons within, located]
  have nodupRest : ((looked.drop i).map Prod.snd).Nodup :=
    ((List.drop_sublist i looked).map Prod.snd).nodup nodup
  rw [split, List.map_cons, List.nodup_cons] at nodupRest
  exact nodupRest.1 (looking.taken member)

end Slots

section Find

def Room (start retOff : Nat) (outstanding : List Nat) (tree : OrderedMap Nat Nat) : Prop :=
  ∀ entry ∈ tree.entries, start ≤ entry.1 → entry.1 < retOff →
    outstanding.count entry.2 + 1 < 2 ^ 31

instance (start retOff : Nat) (outstanding : List Nat) (tree : OrderedMap Nat Nat) :
    Decidable (Room start retOff outstanding tree) :=
  inferInstanceAs (Decidable (∀ entry ∈ tree.entries, _ → _ → _))

/-- A leaf of the tree is taken: it gets a reference and becomes the most recently used one. -/
theorem Sound.takeRef (sound : Sound others outstanding (leaves, v)) {addr : Nat}
    (item : addr ∈ v.tree.items) (room : outstanding.count addr + 1 < 2 ^ 31) :
    ∃ leaves', leaves.takeRef addr = some leaves' ∧
      Sound others (addr :: outstanding) (leaves', v.touch addr) ∧ Keeps leaves leaves' := by
  obtain ⟨leaves', taken, accounted, kept⟩ :=
    sound.accounted.takeRef (List.mem_append_left others item) room
  have old : ∀ other ∈ v.tree.items, other < leaves.next := fun other member => sound.lt_next member
  have referred : Sound others (addr :: outstanding) (leaves', v) :=
    ⟨accounted, sound.consistent.keeps kept old⟩
  exact ⟨leaves', taken, referred.touch item, kept⟩

theorem cacheFindLoop_sound {start count i retOff : Nat} {rret : Int} {basket : List (Option Nat)}
    (capacity : basket.length = count) (last : retOff ≤ start + count)
    (room : Room start retOff outstanding v.tree)
    (within : i ≤ (v.tree.firstFrom start count).length)
    (looking : Looking start i retOff (v.tree.firstFrom start count) basket)
    (sound : Sound others ((basket.drop i).reduceOption ++ outstanding) (leaves, v)) :
    ∃ result, cacheFindLoop start i retOff rret basket (leaves, v) = some result ∧
      Sound others (result.2.1.reduceOption ++ outstanding) result.2.2 ∧
      Steady (leaves, v) result.2.2 := by
  induction i generalizing retOff rret basket leaves v with
  | zero => exact ⟨_, rfl, sound, Steady.refl _⟩
  | succ i inductionHypothesis =>
      obtain ⟨⟨key, addr⟩, here⟩ : ∃ entry, (v.tree.firstFrom start count)[i]? = some entry :=
        ⟨_, List.getElem?_eq_getElem (Nat.lt_of_succ_le within)⟩
      have slot := looking.lower i (Nat.lt_succ_self i) (key, addr) here
      obtain ⟨entry, -⟩ := OrderedMap.mem_firstFrom (List.mem_of_getElem? here)
      have late := OrderedMap.firstFrom_position_le here
      have item : addr ∈ v.tree.items := List.mem_map_of_mem entry
      obtain ⟨leaf, found, -⟩ := sound.entry_of_item item
      have own : leaf.blkid = key := sound.consistent.keyed (key, addr) entry leaf found
      have inside : i < basket.length := (List.getElem?_eq_some_iff.mp slot).1
      have untaken := looking.fresh
        (v.tree.firstFrom_items_nodup start count sound.items_nodup) here
      obtain ⟨cleared, slots⟩ := looking.clear inside
      rw [← slots] at sound untaken
      simp only [cacheFindLoop, slot, Option.join_some, Option.bind_some, found, own]
      by_cases early : key < retOff
      · have both : start ≤ key ∧ key < retOff := ⟨by omega, early⟩
        have counted : (((basket.set i none).drop i).reduceOption ++ outstanding).count addr =
            outstanding.count addr := by
          rw [List.count_append, List.count_eq_zero.mpr untaken, Nat.zero_add]
        obtain ⟨leaves', taken, soundTaken, kept⟩ := sound.takeRef item
          (counted ▸ room (key, addr) entry both.1 both.2)
        obtain ⟨looking', basket'⟩ := cleared.take here late early (by rw [List.length_set]; omega)
        rw [if_pos both, taken, Option.bind_some]
        have soundNext := soundTaken.outstanding_perm (basket'.append_right outstanding).symm
        have roomNext : Room start key outstanding v.tree :=
          fun other member lower upper => room other member lower (by omega)
        have step : Steady (leaves, v) (leaves', v.touch addr) := ⟨kept, rfl, rfl⟩
        obtain ⟨result, loop, soundRest, steadyRest⟩ := @inductionHypothesis leaves' (v.touch addr)
          key (rret + 1) _ (by rw [List.length_set, List.length_set, capacity]) (by omega) roomNext
          (Nat.le_of_succ_le within) looking' soundNext
        exact ⟨result, loop, soundRest, step.trans steadyRest⟩
      · rw [if_neg fun both : start ≤ key ∧ key < retOff => early both.2]
        refine inductionHypothesis ?_ last room (Nat.le_of_succ_le within) cleared sound
        rwa [List.length_set]

def lookedUp (start count : Nat) (tree : OrderedMap Nat Nat) : List (Option Nat) :=
  ((tree.firstFrom start count).map Prod.snd).map some ++
    List.replicate (count - ((tree.firstFrom start count).map Prod.snd).length) none

section LookedUp

variable (start count : Nat) (tree : OrderedMap Nat Nat)

theorem lookedUp_length : (lookedUp start count tree).length = count := by
  have few : (tree.firstFrom start count).length ≤ count := List.length_take_le _ _
  simp only [lookedUp, List.length_append, List.length_map, List.length_replicate]
  omega

theorem lookedUp_drop :
    (lookedUp start count tree).drop (tree.firstFrom start count).length =
      List.replicate (count - (tree.firstFrom start count).length) none := by
  rw [lookedUp, List.length_map]
  apply List.drop_left'
  rw [List.length_map, List.length_map]

theorem lookedUp_reduceOption :
    ((lookedUp start count tree).drop (tree.firstFrom start count).length).reduceOption = [] := by
  rw [lookedUp_drop, List.reduceOption_replicate_none]

theorem Looking.init (retOff : Nat) : Looking start (tree.firstFrom start count).length retOff
    (tree.firstFrom start count) (lookedUp start count tree) := by
  refine ⟨?_, ?_, ?_⟩
  · intro p below entry here
    rw [lookedUp, List.getElem?_append_left (by simpa using below), List.getElem?_map,
      List.getElem?_map, here]
    rfl
  · intro p above inside _
    rw [lookedUp_length] at inside
    have slot : ((lookedUp start count tree).drop (tree.firstFrom start count).length)[p -
        (tree.firstFrom start count).length]? = some none := by
      rw [lookedUp_drop, List.getElem?_replicate, if_pos (by omega)]
    rwa [List.getElem?_drop, Nat.add_sub_cancel' above] at slot
  · rw [lookedUp_reduceOption]
    exact List.nil_subset _

theorem cacheFind_eq (cache : VolumeCache Data) :
    cacheFind start count cache =
      cacheFindLoop start (cache.2.tree.firstFrom start count).length (blockKey start count) 0
        (lookedUp start count cache.2.tree) cache := by
  have number : ((cache.2.tree.firstFrom start count).map Prod.snd).length =
      (cache.2.tree.firstFrom start count).length := List.length_map _
  unfold cacheFind
  simp only [number]
  split
  · rw [lookedUp, number]
  · rename_i nothing
    rw [Nat.eq_zero_of_not_pos nothing, lookedUp, number, Nat.eq_zero_of_not_pos nothing]
    rfl

end LookedUp

/-- A find gets through and gives one reference to every leaf of the basket. -/
theorem cacheFind_sound (start count : Nat) (sound : Sound others outstanding (leaves, v))
    (room : Room start (blockKey start count) outstanding v.tree) :
    ∃ result, cacheFind start count (leaves, v) = some result ∧
      Sound others (result.2.1.reduceOption ++ outstanding) result.2.2 ∧
      Steady (leaves, v) result.2.2 := by
  rw [cacheFind_eq]
  refine cacheFindLoop_sound (lookedUp_length start count v.tree) (Nat.mod_le _ _) room
    (Nat.le_refl _) (Looking.init start count v.tree _) ?_
  rw [lookedUp_reduceOption]
  exact sound

end Find

/-- A put of leaves that are referred to gets through and gives their references back. -/
theorem cachePut_sound {basket : List (Option Nat)}
    (sound : Sound others (basket.reduceOption ++ outstanding) (leaves, v)) :
    ∃ leaves', cachePut basket leaves = some leaves' ∧ Sound others outstanding (leaves', v) ∧
      Keeps leaves leaves' := by
  induction basket generalizing leaves with
  | nil => exact ⟨leaves, rfl, sound, Keeps.refl leaves⟩
  | cons slot rest inductionHypothesis =>
      cases slot with
      | none => exact inductionHypothesis sound
      | some addr =>
          obtain ⟨between, put, accounted, first⟩ := sound.accounted.putRef
          have old : ∀ other ∈ v.tree.items, other < leaves.next :=
            fun other member => sound.lt_next member
          obtain ⟨leaves', putRest, soundRest, second⟩ :=
            inductionHypothesis ⟨accounted, sound.consistent.keeps first old⟩
          refine ⟨leaves', ?_, soundRest, first.trans second⟩
          simp only [cachePut, put, Option.bind_some]
          exact putRest

end DmsBlkdev
