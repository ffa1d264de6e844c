import DmsBlkdev.Cache.RadixCache
import DmsBlkdev.Cache.RadixForest
import DmsBlkdev.Lib.Lockstep

/-!
# The cache over the radix tree and the cache over a map

An operation on the radix tree of a volume fails where the operation on a map
fails, and otherwise both come to the same answer and to the same leaves, with
the map of the one represented by the tree of the other.  What a map leaves
open is which insertions the tree refuses.
-/

namespace DmsBlkdev

open Lib Lib.Lockstep

variable {Data : Type}

def Leaves.Keyed64 (leaves : Leaves Data) : Prop :=
  ∀ addr leaf, leaves.leaf addr = some leaf → leaf.blkid < 2 ^ 64

section Keys

variable {leaves leaves' : Leaves Data} {addr : Nat}

theorem Leaves.Keyed64.store (keyed : leaves.Keyed64) {leaf : TreeLeaf Data}
    (small : leaf.blkid < 2 ^ 64) : (leaves.store addr leaf).Keyed64 := by
  intro other kept found
  by_cases same : other = addr
  · subst same
    rw [Leaves.store_leaf_self] at found
    exact Option.some.inj found ▸ small
  · rw [Leaves.store_leaf_of_ne _ _ same] at found
    exact keyed other kept found

theorem Leaves.Keyed64.free (keyed : leaves.Keyed64) : (leaves.free addr).Keyed64 := by
  intro other kept found
  by_cases same : other = addr
  · subst same
    rw [Leaves.free_leaf_self] at found
    cases found
  · rw [Leaves.free_leaf_of_ne _ same] at found
    exact keyed other kept found

theorem Leaves.Keyed64.alloc (keyed : leaves.Keyed64) {leaf : TreeLeaf Data}
    (small : leaf.blkid < 2 ^ 64) : (leaves.alloc leaf).Keyed64 := by
  intro other kept found
  by_cases same : other = leaves.next
  · subst same
    rw [Leaves.alloc_leaf_self] at found
    exact Option.some.inj found ▸ small
  · rw [Leaves.alloc_leaf_of_ne _ _ same] at found
    exact keyed other kept found

theorem Leaves.Keyed64.releaseTreeLeaf (keyed : leaves.Keyed64)
    (released : leaves.releaseTreeLeaf addr = some leaves') : leaves'.Keyed64 := by
  rw [Leaves.releaseTreeLeaf] at released
  cases found : leaves.leaf addr with
  | none =>
      rw [found] at released
      cases released
  | some leaf =>
      simp only [found] at released
      split at released
      · cases released
      · exact Option.some.inj released ▸ keyed.free

theorem Leaves.Keyed64.retire (keyed : leaves.Keyed64)
    (retired : leaves.retire addr = some leaves') : leaves'.Keyed64 := by
  rw [Leaves.retire] at retired
  cases found : leaves.leaf addr with
  | none =>
      rw [found] at retired
      cases retired
  | some leaf =>
      simp only [found] at retired
      split at retired
      · exact Option.some.inj retired ▸ keyed.store (keyed addr leaf found)
      · exact keyed.releaseTreeLeaf retired

theorem Leaves.Keyed64.takeRef (keyed : leaves.Keyed64)
    (taken : leaves.takeRef addr = some leaves') : leaves'.Keyed64 := by
  obtain ⟨leaf, found, rfl⟩ := Option.map_eq_some_iff.mp taken
  exact keyed.store (keyed addr leaf found)

theorem Leaves.Keyed64.putRef (keyed : leaves.Keyed64)
    (put : leaves.putRef addr = some leaves') : leaves'.Keyed64 := by
  obtain ⟨leaf, found, put⟩ := Option.bind_eq_some_iff.mp put
  have stored : (leaves.store addr { leaf with flagRefcnt := leaf.flagRefcnt - 1 }).Keyed64 :=
    keyed.store (keyed addr leaf found)
  dsimp only at put
  split_ifs at put
  · exact Option.some.inj put ▸ stored
  · exact Option.some.inj put ▸ stored
  · exact stored.releaseTreeLeaf put

end Keys

section Relation

structure Backed (others : List Nat) (cache : RadixCache Data) (map : OrderedMap Nat Nat)
    (tree : AnyDigits) : Prop where
  represents : RadixRepresents others cache.tree tree.2
  map : tree.2.toMap = map.mapItems leafPointer
  keyed : cache.leaves.Keyed64

structure Moves (others : List Nat) (before after : RadixCache Data) (tree treeAfter : AnyDigits)
    (refused : Nat) : Prop where
  untouched : Untouched others before.tree after.tree
  counted : after.slab.surplus = before.slab.surplus + BitVec.ofNat 32 refused
  neat : refused = 0 → tree.Neat → treeAfter.Neat
  volid : after.v.volid = before.v.volid

def RadixCache.withMap (cache : RadixCache Data) (map : OrderedMap Nat Nat) : VolumeCache Data :=
  (cache.leaves, cache.v.withMap map)

def ArrivesAt (others : List Nat) (before : RadixCache Data) (tree : AnyDigits)
    (refused : Nat) (after : RadixCache Data) (model : VolumeCache Data) : Prop :=
  ∃ map treeAfter, model = after.withMap map ∧ Backed others after map treeAfter ∧
    Moves others before after tree treeAfter refused

variable {others : List Nat} {cache before mid after : RadixCache Data}
  {map : OrderedMap Nat Nat} {tree treeMid treeAfter : AnyDigits}

theorem Moves.refl (others : List Nat) (cache : RadixCache Data) (tree : AnyDigits) :
    Moves others cache cache tree tree 0 :=
  ⟨fun _ _ => rfl, (BitVec.add_zero _).symm, fun _ neat => neat, rfl⟩

theorem Moves.trans {first second : Nat} (one : Moves others before mid tree treeMid first)
    (two : Moves others mid after treeMid treeAfter second) :
    Moves others before after tree treeAfter (first + second) where
  untouched := one.untouched.trans two.untouched
  counted := by rw [two.counted, one.counted, BitVec.ofNat_add, BitVec.add_assoc]
  neat none neat := by
    obtain ⟨zero, zero'⟩ := Nat.add_eq_zero_iff.mp none
    exact two.neat zero' (one.neat zero neat)
  volid := two.volid.trans one.volid

theorem Backed.arrives (backed : Backed others cache map tree) :
    ArrivesAt others cache tree 0 cache (cache.withMap map) :=
  ⟨map, tree, rfl, backed, Moves.refl others cache tree⟩

theorem ArrivesAt.trans {first second : Nat} {model : VolumeCache Data}
    (one : Moves others before mid tree treeMid first)
    (two : ArrivesAt others mid treeMid second after model) :
    ArrivesAt others before tree (first + second) after model := by
  obtain ⟨map, treeAfter, same, backed, moves⟩ := two
  exact ⟨map, treeAfter, same, backed, one.trans moves⟩

theorem Backed.withShell (backed : Backed others cache map tree) (shell : VolumeCache Data)
    (keyed : shell.1.Keyed64) : Backed others (cache.withShell shell) map tree :=
  ⟨backed.represents, backed.map, keyed⟩

theorem moves_withShell (others : List Nat) (cache : RadixCache Data) (tree : AnyDigits)
    (shell : VolumeCache Data) : Moves others cache (cache.withShell shell) tree tree 0 :=
  ⟨fun _ _ => rfl, (BitVec.add_zero _).symm, fun _ neat => neat, rfl⟩

end Relation

section Delete

variable {others : List Nat} {cache : RadixCache Data} {map : OrderedMap Nat Nat}
  {tree : AnyDigits} {key : Nat}

theorem Backed.delete (backed : Backed others cache map tree) (small : key < 2 ^ 64) :
    ∃ after treeAfter, radixTreeDelete key cache.tree =
        some (((map.lookup key).map leafPointer).getD 0, after) ∧
      Backed others (cache.withTree after) (map.erase key) treeAfter ∧
      Moves others cache (cache.withTree after) tree treeAfter 0 := by
  obtain ⟨heightAfter, treeAfter, after, ran, holds, untouched, erased, neat, counted⟩ :=
    radixTreeDelete_spec backed.represents small
  rw [backed.map, OrderedMap.lookup_mapItems] at ran
  refine ⟨after, ⟨heightAfter, treeAfter⟩, ran, ⟨holds, ?_, backed.keyed⟩, untouched, ?_,
    fun _ tidy => neat tidy.1 tidy.2, rfl⟩
  · rw [erased, backed.map, OrderedMap.erase_mapItems]
  · exact counted.trans (BitVec.add_zero _).symm

theorem Backed.retire (backed : Backed others cache map tree) (addr : Nat) :
    Option.Rel (ArrivesAt others cache tree 0) (cache.retire addr)
      ((cache.leaves.retire addr).map fun leaves => (leaves, (cache.v.withMap map).unlink addr)) := by
  rw [RadixCache.retire]
  cases retired : cache.leaves.retire addr with
  | none => exact .none
  | some leaves =>
      refine .some ⟨map, tree, rfl, backed.withShell _ (backed.keyed.retire retired), ?_⟩
      exact moves_withShell others cache tree (leaves, cache.v.shell.unlink addr)

theorem Backed.invalidateKey (backed : Backed others cache map tree) (small : key < 2 ^ 64) :
    Option.Rel (ArrivesAt others cache tree 0) (cache.invalidateKey key)
      (DmsBlkdev.invalidateKey key (cache.withMap map)) := by
  obtain ⟨after, treeAfter, ran, holds, moves⟩ := backed.delete small
  rw [RadixCache.invalidateKey, ran, Option.bind_some, DmsBlkdev.invalidateKey]
  have same : (cache.withMap map).2.tree.lookup key = map.lookup key := rfl
  rw [same]
  cases found : map.lookup key with
  | none =>
      have unchanged := OrderedMap.erase_of_absent (OrderedMap.lookup_eq_none.mp found)
      rw [unchanged] at holds
      exact .some ⟨map, treeAfter, rfl, holds, moves⟩
  | some addr =>
      have retired := holds.retire addr
      exact rel_imp retired fun one two reached => ArrivesAt.trans moves reached

theorem Backed.cacheInvalidate (backed : Backed others cache map tree) (start rounds i : Nat) :
    Option.Rel (ArrivesAt others cache tree 0) (cache.cacheInvalidate start rounds i)
      (DmsBlkdev.cacheInvalidate start rounds i (cache.withMap map)) := by
  induction rounds generalizing cache map tree i with
  | zero => exact .some backed.arrives
  | succ rounds inductionHypothesis =>
      have small : blockKey start i < 2 ^ 64 := Nat.mod_lt _ (Nat.two_pow_pos 64)
      refine rel_bind (backed.invalidateKey small) fun mid model reached => ?_
      obtain ⟨mapMid, treeMid, rfl, holds, moves⟩ := reached
      exact rel_imp (inductionHypothesis holds (i + 1)) fun one two =>
        ArrivesAt.trans moves

end Delete

section Kick

variable {others : List Nat} {cache : RadixCache Data} {map : OrderedMap Nat Nat}
  {tree : AnyDigits}

/-- A leaf that the walk comes to leaves the tree and the list, and the walk goes on. -/
theorem Backed.kick (backed : Backed others cache map tree) {addr : Nat} {leaf : TreeLeaf Data}
    (found : cache.leaves.leaf addr = some leaf)
    {next : RadixCache Data → Option (RadixCache Data)}
    {nextModel : VolumeCache Data → Option (VolumeCache Data)}
    (rest : ∀ {mid mapMid treeMid}, Backed others mid mapMid treeMid →
      Option.Rel (ArrivesAt others mid treeMid 0) (next mid) (nextModel (mid.withMap mapMid))) :
    Option.Rel (ArrivesAt others cache tree 0)
      ((radixTreeDelete leaf.blkid cache.tree).bind fun deleted =>
        ((cache.withTree deleted.2).retire addr).bind next)
      ((cache.leaves.retire addr).bind fun leaves =>
        nextModel (leaves, (cache.v.withMap (map.erase leaf.blkid)).unlink addr)) := by
  obtain ⟨after, treeAfter, ran, holds, moves⟩ := backed.delete (backed.keyed addr leaf found)
  have retired := holds.retire addr
  have split : ((cache.leaves.retire addr).bind fun leaves =>
      nextModel (leaves, (cache.v.withMap (map.erase leaf.blkid)).unlink addr)) =
        ((cache.leaves.retire addr).map fun leaves =>
          (leaves, (cache.v.withMap (map.erase leaf.blkid)).unlink addr)).bind nextModel :=
    (Option.bind_map ..).symm
  rw [ran, Option.bind_some, split]
  refine rel_bind retired fun mid model reached => ?_
  obtain ⟨mapMid, treeMid, rfl, holdsMid, movesMid⟩ := reached
  exact rel_imp (rest holdsMid) fun one two => ArrivesAt.trans (moves.trans movesMid)

theorem Backed.kickLoop (backed : Backed others cache map tree) (count total : BitVec 32)
    (condition : Option (Data → Bool)) (walk : List Nat) (nr : BitVec 32) :
    Option.Rel (ArrivesAt others cache tree 0)
      (RadixCache.kickLoop count total condition walk nr cache)
      (DmsBlkdev.kickLoop count total condition walk nr (cache.withMap map)) := by
  induction walk generalizing cache map tree nr with
  | nil => exact .some backed.arrives
  | cons addr rest inductionHypothesis =>
      rw [RadixCache.kickLoop, RadixCache.withMap, DmsBlkdev.kickLoop]
      cases found : cache.leaves.leaf addr with
      | none => exact .none
      | some leaf =>
          simp only [Option.bind_some]
          split_ifs with spared limited full
          · exact inductionHypothesis backed nr
          · exact backed.kick found fun holds => .some holds.arrives
          · exact backed.kick found fun holds => inductionHypothesis holds (nr + 1)
          · exact backed.kick found fun holds => inductionHypothesis holds nr

theorem Backed.kickMetaCache (backed : Backed others cache map tree) (count : BitVec 32)
    (condition : Option (Data → Bool)) :
    Option.Rel (ArrivesAt others cache tree 0) (cache.kickMetaCache count condition)
      (DmsBlkdev.kickMetaCache count condition (cache.withMap map)) :=
  backed.kickLoop count (kickTotal count cache.v.shell) condition cache.v.lruList.reverse 0

end Kick

section Update

variable {others : List Nat} {cache : RadixCache Data} {map : OrderedMap Nat Nat}
  {tree : AnyDigits} {key : Nat} {data : Data}

def Refuses (others : List Nat) (cache : RadixCache Data) (map : OrderedMap Nat Nat)
    (tree : AnyDigits) (grants : List (Option Nat)) (result : Int × RadixCache Data) : Prop :=
  ¬ NodesGranted mostNodes grants ∧ result.1 = noMemory ∧ ∃ treeAfter,
    Backed others result.2 map treeAfter ∧ Moves others cache result.2 tree treeAfter 1 ∧
      result.2.withMap map = cache.withMap map

theorem Backed.insertLeaf (backed : Backed others cache map tree) (small : key < 2 ^ 64)
    (grants : List (Option Nat)) :
    (∃ result, cache.insertLeaf key data grants = some result ∧
        Refuses others cache map tree grants result) ∨
      Option.Rel (fun one model => one.1 = 0 ∧ ArrivesAt others cache tree 0 one.2 model)
        (cache.insertLeaf key data grants) (DmsBlkdev.insertLeaf key data (cache.withMap map)) := by
  obtain ⟨heightAfter, treeAfter, ret, replaced, after, ran, holds, untouched, ends⟩ :=
    radixTreeInsert_spec backed.represents small (Nat.succ_ne_zero cache.leaves.next) grants
  rw [RadixCache.insertLeaf]
  cases ends with
  | refused short same counted =>
      refine .inl ⟨(noMemory, cache.withTree after), ?_, ?_, rfl, ⟨heightAfter, treeAfter⟩,
        ⟨holds, same.trans backed.map, backed.keyed⟩, ?_, rfl⟩
      · rw [leafPointer, ran]
        rfl
      · have few := nodesNeeded_le small tree.2 backed.represents.low
        exact fun granted => short (granted.mono few)
      · exact ⟨untouched, counted, fun zero => absurd zero Nat.one_ne_zero, rfl⟩
  | inserted granted same neat counted =>
      have linked : Backed others ((cache.withTree after).link key data)
          (map.insert key cache.leaves.next) ⟨heightAfter, treeAfter⟩ := by
        refine ⟨holds, ?_, backed.keyed.alloc small⟩
        rw [same, backed.map]
        exact OrderedMap.insert_mapItems leafPointer map key cache.leaves.next
      have moves : Moves others cache ((cache.withTree after).link key data) tree
          ⟨heightAfter, treeAfter⟩ 0 :=
        ⟨untouched, counted.trans (BitVec.add_zero _).symm,
          fun _ tidy => neat tidy.1 tidy.2, rfl⟩
      refine .inr ?_
      rw [backed.map, OrderedMap.lookup_mapItems] at ran
      have there : (cache.withMap map).2.tree.lookup key = map.lookup key := rfl
      rw [leafPointer, ran, DmsBlkdev.insertLeaf]
      cases found : map.lookup key with
      | none =>
          simp only [there, found]
          exact .some ⟨rfl, _, _, rfl, linked, moves⟩
      | some old =>
          simp only [there, found]
          have retired := linked.retire old
          exact rel_map_left retired fun one model reached => ⟨rfl, ArrivesAt.trans moves reached⟩

/-- The items with a choice of the insertions that are refused. -/
def RadixItems.resolve (items : RadixItems Data) (nodeGranted : Nat → Bool) : UpdateItems Data :=
  ⟨items.basket, items.leafGranted, nodeGranted⟩

/-- Only insertions that may not get all their nodes are refused. -/
def RadixItems.Resolves (items : RadixItems Data) (nodeGranted : Nat → Bool) : Prop :=
  ∀ i, nodeGranted i = false → ¬ NodesGranted mostNodes (items.nodeGrants i)

theorem RadixItems.resolves_all (items : RadixItems Data) : items.Resolves fun _ => true :=
  fun _ refused => nomatch refused

def Updates (others : List Nat) (before : RadixCache Data) (tree : AnyDigits)
    (items : RadixItems Data) (one : Int × RadixCache Data) (model : Int × VolumeCache Data) : Prop :=
  one.1 = model.1 ∧ ∃ refused, (refused ≠ 0 → ∃ i, ¬ NodesGranted mostNodes (items.nodeGrants i)) ∧
    ArrivesAt others before tree refused one.2 model.2

theorem Updates.trans {items : RadixItems Data} {mid : RadixCache Data} {treeMid : AnyDigits}
    {one : Int × RadixCache Data} {model : Int × VolumeCache Data}
    (first : Moves others cache mid tree treeMid 0)
    (rest : Updates others mid treeMid items one model) :
    Updates others cache tree items one model := by
  obtain ⟨same, refused, why, reached⟩ := rest
  refine ⟨same, refused, why, ?_⟩
  have joined := ArrivesAt.trans first reached
  rwa [Nat.zero_add] at joined

/-- The rounds from `i` on do not depend on what is chosen for those before. -/
theorem Backed.updateLoop (backed : Backed others cache map tree) (start : Nat)
    (items : RadixItems Data) (rounds i : Nat) (ret : Int) :
    ∃ chosen, items.Resolves chosen ∧ ∀ nodeGranted, (∀ j, i ≤ j → nodeGranted j = chosen j) →
      Option.Rel (Updates others cache tree items) (cache.updateLoop start items rounds i ret)
        (DmsBlkdev.updateLoop start (items.resolve nodeGranted) rounds i ret
          (cache.withMap map)) := by
  induction rounds generalizing cache map tree i ret with
  | zero =>
      refine ⟨fun _ => true, items.resolves_all, fun _ _ => ?_⟩
      exact .some ⟨rfl, 0, fun some => absurd rfl some, backed.arrives⟩
  | succ rounds inductionHypothesis =>
      by_cases leaf : items.leafGranted i = false
      · refine ⟨fun _ => true, items.resolves_all, fun nodeGranted _ => ?_⟩
        have leaf' : (items.resolve nodeGranted).leafGranted i = false := leaf
        rw [RadixCache.updateLoop, DmsBlkdev.updateLoop, if_pos leaf, if_pos leaf']
        exact .some ⟨rfl, 0, fun some => absurd rfl some, backed.arrives⟩
      · have small : blockKey start i < 2 ^ 64 := Nat.mod_lt _ (Nat.two_pow_pos 64)
        rw [RadixCache.updateLoop, if_neg leaf]
        rcases @Backed.insertLeaf _ _ _ _ _ _ (items.basket i) backed small (items.nodeGrants i) with
          ⟨⟨ret', after⟩, ran, short, rfl, treeAfter, holds, moves, same⟩ | inserted
        · have refused : items.Resolves (Function.update (fun _ => true) i false) := by
            intro j chosen
            by_cases here : j = i
            · exact here ▸ short
            · rw [Function.update_of_ne here] at chosen
              cases chosen
          refine ⟨_, refused, fun nodeGranted agrees => ?_⟩
          have last : (items.resolve nodeGranted).nodeGranted i = false :=
            (agrees i le_rfl).trans (Function.update_self ..)
          have leaf' : ¬ (items.resolve nodeGranted).leafGranted i = false := leaf
          rw [DmsBlkdev.updateLoop, if_neg leaf', if_pos last, ran]
          exact .some ⟨rfl, 1, fun _ => ⟨i, short⟩, map, treeAfter, same.symm, holds, moves⟩
        · have taken : ∀ nodeGranted, nodeGranted i = true →
              DmsBlkdev.updateLoop start (items.resolve nodeGranted) (rounds + 1) i ret
                  (cache.withMap map) =
                (DmsBlkdev.insertLeaf (blockKey start i) (items.basket i) (cache.withMap map)).bind
                  (DmsBlkdev.updateLoop start (items.resolve nodeGranted) rounds (i + 1) 0) := by
            intro nodeGranted granted
            have leaf' : ¬ (items.resolve nodeGranted).leafGranted i = false := leaf
            have node : ¬ (items.resolve nodeGranted).nodeGranted i = false := by
              rw [Bool.not_eq_false]
              exact granted
            rw [DmsBlkdev.updateLoop, if_neg leaf', if_neg node]
            rfl
          generalize cache.insertLeaf (blockKey start i) (items.basket i) (items.nodeGrants i) = one,
            DmsBlkdev.insertLeaf (blockKey start i) (items.basket i) (cache.withMap map) = model
            at inserted taken
          cases inserted with
          | none =>
              refine ⟨fun _ => true, items.resolves_all, fun nodeGranted agrees => ?_⟩
              rw [taken nodeGranted (agrees i le_rfl)]
              exact .none
          | @some one model inserted =>
              obtain ⟨ret', mid⟩ := one
              obtain ⟨rfl, mapMid, treeMid, rfl, holds, moves⟩ := inserted
              obtain ⟨chosen, resolves, rest⟩ := inductionHypothesis holds (i + 1) 0
              refine ⟨Function.update chosen i true, fun j refused => ?_, fun nodeGranted agrees => ?_⟩
              · by_cases here : j = i
                · subst here
                  rw [Function.update_self] at refused
                  cases refused
                · rw [Function.update_of_ne here] at refused
                  exact resolves j refused
              · rw [taken nodeGranted ((agrees i le_rfl).trans (Function.update_self ..))]
                have later : ∀ j, i + 1 ≤ j → nodeGranted j = chosen j := fun j above =>
                  (agrees j (Nat.le_of_succ_le above)).trans
                    (Function.update_of_ne (Nat.ne_of_gt above) _ _)
                exact rel_imp (rest nodeGranted later) fun _ _ => Updates.trans moves

theorem Backed.cacheUpdate (backed : Backed others cache map tree) (start : Nat)
    (count : BitVec 32) (items : RadixItems Data) :
    ∃ nodeGranted, items.Resolves nodeGranted ∧
      Option.Rel (Updates others cache tree items) (cache.cacheUpdate start count items)
        (DmsBlkdev.cacheUpdate start count (items.resolve nodeGranted) (cache.withMap map)) := by
  have kicked : Option.Rel (ArrivesAt others cache tree 0)
      (if 0 < (surplus cache.v.shell count).toInt then
        cache.kickMetaCache (surplus cache.v.shell count) none else some cache)
      (if 0 < (surplus cache.v.shell count).toInt then
        DmsBlkdev.kickMetaCache (surplus cache.v.shell count) none (cache.withMap map)
        else some (cache.withMap map)) := by
    split_ifs
    · exact backed.kickMetaCache _ none
    · exact .some backed.arrives
  have run : ∀ nodeGranted,
      DmsBlkdev.cacheUpdate start count (items.resolve nodeGranted) (cache.withMap map) =
        (if 0 < (surplus cache.v.shell count).toInt then
          DmsBlkdev.kickMetaCache (surplus cache.v.shell count) none (cache.withMap map)
          else some (cache.withMap map)).bind
            (DmsBlkdev.updateLoop start (items.resolve nodeGranted) count.toInt.toNat 0 noMemory) :=
    fun _ => rfl
  simp only [run, RadixCache.cacheUpdate]
  generalize (if 0 < (surplus cache.v.shell count).toInt then
      cache.kickMetaCache (surplus cache.v.shell count) none else some cache) = one,
    (if 0 < (surplus cache.v.shell count).toInt then
      DmsBlkdev.kickMetaCache (surplus cache.v.shell count) none (cache.withMap map)
      else some (cache.withMap map)) = model at kicked
  cases kicked with
  | none => exact ⟨fun _ => true, items.resolves_all, .none⟩
  | some reached =>
      obtain ⟨mapMid, treeMid, rfl, holds, moves⟩ := reached
      obtain ⟨chosen, resolves, rest⟩ :=
        holds.updateLoop start items count.toInt.toNat 0 noMemory
      exact ⟨chosen, resolves,
        rel_imp (rest chosen fun _ _ => rfl) fun _ _ => Updates.trans moves⟩

end Update

section Find

variable {others : List Nat} {cache : RadixCache Data} {map : OrderedMap Nat Nat}
  {tree : AnyDigits}

theorem cacheFindLoop_withMap (start i retOff : Nat) (rret : Int) (basket : List (Option Nat))
    (cache : RadixCache Data) :
    cacheFindLoop start i retOff rret basket (cache.withMap map) =
      (cacheFindLoop start i retOff rret basket (cache.leaves, cache.v.shell)).map fun found =>
        (found.1, found.2.1, (cache.withShell found.2.2).withMap map) := by
  induction i generalizing retOff rret basket cache with
  | zero => rfl
  | succ i inductionHypothesis =>
      simp only [cacheFindLoop, RadixCache.withMap]
      cases basket[i]?.join with
      | none => rfl
      | some addr =>
          simp only [Option.bind_some]
          cases cache.leaves.leaf addr with
          | none => rfl
          | some leaf =>
              simp only [Option.bind_some]
              split_ifs with taken
              · cases cache.leaves.takeRef addr with
                | none => rfl
                | some leaves =>
                    exact inductionHypothesis leaf.blkid (rret + 1) _
                      (cache.withShell (leaves, cache.v.shell.touch addr))
              · exact inductionHypothesis retOff rret _ cache

theorem cacheFindLoop_keyed64 {start i retOff : Nat} {rret : Int} {basket : List (Option Nat)}
    {before : VolumeCache Data} {found : Int × List (Option Nat) × VolumeCache Data}
    (keyed : before.1.Keyed64)
    (ran : cacheFindLoop start i retOff rret basket before = some found) :
    found.2.2.1.Keyed64 := by
  induction i generalizing retOff rret basket before with
  | zero =>
      obtain rfl := Option.some.inj ran
      exact keyed
  | succ i inductionHypothesis =>
      obtain ⟨leaves, v⟩ := before
      obtain ⟨addr, -, ran⟩ := Option.bind_eq_some_iff.mp ran
      obtain ⟨leaf, -, ran⟩ := Option.bind_eq_some_iff.mp ran
      dsimp only at ran
      split_ifs at ran with taken
      · obtain ⟨leaves', took, ran⟩ := Option.bind_eq_some_iff.mp ran
        exact inductionHypothesis (keyed.takeRef took) ran
      · exact inductionHypothesis keyed ran

/-- A find that does not use a hollow root finds what it finds in the map. -/
theorem Backed.cacheFind (backed : Backed others cache map tree) {start count : Nat}
    (small : start < 2 ^ 64) (solid : ¬ LooksHollow start count cache.tree) :
    Option.Rel (fun one model => one.1 = model.1 ∧ one.2.1 = model.2.1 ∧
        ArrivesAt others cache tree 0 one.2.2 model.2.2)
      (cache.cacheFind start count) (DmsBlkdev.cacheFind start count (cache.withMap map)) := by
  have looked := radixTreeGangLookup_spec backed.represents small count
  rw [if_neg solid, backed.map, OrderedMap.firstFrom_mapItems] at looked
  have there : (cache.withMap map).2.tree = map := rfl
  rw [RadixCache.cacheFind, looked, Option.bind_some, DmsBlkdev.cacheFind, there]
  generalize (map.firstFrom start count).map Prod.snd = items
  have slots : (items.map leafPointer).map (fun pointer => some (leafOf pointer)) =
      items.map some := by
    rw [List.map_map]
    rfl
  simp only [slots, List.length_map]
  split_ifs with some_found
  · rw [cacheFindLoop_withMap]
    cases ran : cacheFindLoop start items.length (blockKey start count) 0
        (items.map some ++ List.replicate (count - items.length) none)
        (cache.leaves, cache.v.shell) with
    | none => exact .none
    | some found =>
        have keyed : found.2.2.1.Keyed64 := cacheFindLoop_keyed64 backed.keyed ran
        exact .some ⟨rfl, rfl, map, tree, rfl, backed.withShell _ keyed,
          moves_withShell others cache tree found.2.2⟩
  · exact .some ⟨rfl, rfl, backed.arrives⟩

/-- On a hollow root the find faults. -/
theorem Backed.cacheFind_hollow (backed : Backed others cache map tree) {start count : Nat}
    (small : start < 2 ^ 64) (hollow : LooksHollow start count cache.tree) :
    cache.cacheFind start count = none := by
  have looked := radixTreeGangLookup_spec backed.represents small count
  rw [if_pos hollow] at looked
  rw [RadixCache.cacheFind, looked]
  rfl

theorem cachePut_keyed64 {basket : List (Option Nat)} {leaves leaves' : Leaves Data}
    (keyed : leaves.Keyed64) (put : cachePut basket leaves = some leaves') : leaves'.Keyed64 := by
  induction basket generalizing leaves with
  | nil =>
      obtain rfl := Option.some.inj put
      exact keyed
  | cons slot rest inductionHypothesis =>
      cases slot with
      | none => exact inductionHypothesis keyed put
      | some addr =>
          obtain ⟨between, first, put⟩ := Option.bind_eq_some_iff.mp put
          exact inductionHypothesis (keyed.putRef first) put

end Find

end DmsBlkdev
