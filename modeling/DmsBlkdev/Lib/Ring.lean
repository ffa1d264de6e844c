import Mathlib.Data.List.Chain
import Mathlib.Data.List.Nodup

/-!
# Rings of doubly linked nodes

Nodes that point to a previous and a next one form a ring when the pointers
lead from a head through the nodes of a list and back, in both directions.
Any node of a ring may be taken for its head; so an insertion is an insertion
behind the head, and a removal is the removal of the head, up to a rotation.
-/

namespace Lib

@[ext] structure Link (Addr : Type*) where
  prev : Addr
  next : Addr
  deriving DecidableEq, Repr

abbrev Links (Addr : Type*) := Addr → Link Addr

namespace Links

variable {Addr : Type*} [DecidableEq Addr]

def setPrev (links : Links Addr) (node prev : Addr) : Links Addr :=
  Function.update links node { links node with prev }

def setNext (links : Links Addr) (node next : Addr) : Links Addr :=
  Function.update links node { links node with next }

def loop (links : Links Addr) (node : Addr) : Links Addr :=
  (links.setNext node node).setPrev node node

def insertBetween (links : Links Addr) (node prev next : Addr) : Links Addr :=
  (((links.setPrev next node).setNext node next).setPrev node prev).setNext prev node

def insertBehind (links : Links Addr) (node place : Addr) : Links Addr :=
  links.insertBetween node place (links place).next

def insertBefore (links : Links Addr) (node place : Addr) : Links Addr :=
  links.insertBetween node (links place).prev place

def unlink (links : Links Addr) (node : Addr) : Links Addr :=
  (links.setPrev (links node).next (links node).prev).setNext (links node).prev (links node).next

/-- The nodes behind the head up to `last` go to a new head. -/
def cut (links : Links Addr) (head last new : Addr) : Links Addr :=
  let links := links.setNext new (links head).next
  let links := links.setPrev (links new).next new
  let links := links.setNext head (links last).next
  let links := links.setPrev (links last).next head
  (links.setPrev new last).setNext last new

section Fields

variable (links : Links Addr) (node other prev next : Addr)

@[simp] theorem setPrev_next : (links.setPrev node prev other).next = (links other).next := by
  by_cases same : other = node
  · subst same
    simp [setPrev]
  · simp [setPrev, same]

@[simp] theorem setNext_prev : (links.setNext node next other).prev = (links other).prev := by
  by_cases same : other = node
  · subst same
    simp [setNext]
  · simp [setNext, same]

theorem setPrev_prev : (links.setPrev node prev other).prev =
    if other = node then prev else (links other).prev := by
  by_cases same : other = node
  · subst same
    simp [setPrev]
  · simp [setPrev, same]

theorem setNext_next : (links.setNext node next other).next =
    if other = node then next else (links other).next := by
  by_cases same : other = node
  · subst same
    simp [setNext]
  · simp [setNext, same]

@[simp] theorem loop_next : (links.loop node node).next = node := by
  simp [loop, setNext_next]

@[simp] theorem loop_prev : (links.loop node node).prev = node := by
  simp [loop, setPrev_prev]

theorem insertBetween_next : (links.insertBetween node prev next other).next =
    if other = prev then node else if other = node then next else (links other).next := by
  simp [insertBetween, setNext_next]

theorem insertBetween_prev : (links.insertBetween node prev next other).prev =
    if other = node then prev else if other = next then node else (links other).prev := by
  simp [insertBetween, setPrev_prev]

theorem unlink_next : (links.unlink node other).next =
    if other = (links node).prev then (links node).next else (links other).next := by
  simp [unlink, setNext_next]

theorem unlink_prev : (links.unlink node other).prev =
    if other = (links node).next then (links node).prev else (links other).prev := by
  simp [unlink, setPrev_prev]

theorem cut_next {head last new first second : Addr} (headNext : (links head).next = first)
    (lastNext : (links last).next = second) (newLast : last ≠ new) (lastHead : last ≠ head) :
    (links.cut head last new other).next =
      if other = last then new else if other = head then second else
        if other = new then first else (links other).next := by
  simp [cut, setNext_next, headNext, lastNext, newLast, lastHead]

theorem cut_prev {head last new first second : Addr} (headNext : (links head).next = first)
    (lastNext : (links last).next = second) (newLast : last ≠ new) (lastHead : last ≠ head) :
    (links.cut head last new other).prev =
      if other = new then last else if other = second then head else
        if other = first then new else (links other).prev := by
  simp [cut, setNext_next, setPrev_prev, headNext, lastNext, newLast, lastHead]

theorem loop_of_ne (different : other ≠ node) : links.loop node other = links other := by
  ext <;> simp [loop, setPrev_prev, setNext_next, different]

theorem insertBetween_of_ne (apart : other ≠ node) (before : other ≠ prev) (behind : other ≠ next) :
    links.insertBetween node prev next other = links other := by
  ext <;> simp [insertBetween_next, insertBetween_prev, apart, before, behind]

theorem unlink_of_ne (before : other ≠ (links node).prev) (behind : other ≠ (links node).next) :
    links.unlink node other = links other := by
  ext <;> simp [unlink_next, unlink_prev, before, behind]

end Fields

end Links

namespace Links

variable {Addr : Type*} {links links' : Links Addr} {path : List Addr}

def Chained (links : Links Addr) (path : List Addr) : Prop :=
  path.IsChain fun first second => (links first).next = second ∧ (links second).prev = first

theorem chained_cons_cons {first second : Addr} : links.Chained (first :: second :: path) ↔
    ((links first).next = second ∧ (links second).prev = first) ∧
      links.Chained (second :: path) :=
  List.isChain_cons_cons

theorem chained_split {early late : List Addr} {node : Addr} :
    links.Chained (early ++ node :: late) ↔
      links.Chained (early ++ [node]) ∧ links.Chained (node :: late) :=
  List.isChain_split

theorem Chained.congr (chained : links.Chained path)
    (nexts : ∀ node ∈ path.dropLast, (links' node).next = (links node).next)
    (prevs : ∀ node ∈ path.tail, (links' node).prev = (links node).prev) :
    links'.Chained path := by
  induction path with
  | nil => exact .nil
  | cons first rest inductionHypothesis =>
      cases rest with
      | nil => exact .singleton _
      | cons second rest =>
          obtain ⟨⟨forth, back⟩, chainedRest⟩ := chained_cons_cons.mp chained
          refine chained_cons_cons.mpr ⟨⟨?_, ?_⟩, ?_⟩
          · rw [nexts first (by simp), forth]
          · rw [prevs second (by simp), back]
          · refine inductionHypothesis chainedRest (fun node member => ?_) (fun node member => ?_)
            · exact nexts node (by simp [member])
            · exact prevs node (by simp [List.mem_of_mem_tail member])

/-- On a path without repetition, only the first node's previous pointer and the last node's next
pointer may change. -/
theorem Chained.inner {first last : Addr} {front early : List Addr} (chained : links.Chained path)
    (begins : path = first :: front) (ends : path = early ++ [last]) (distinct : path.Nodup)
    (nexts : ∀ node ∈ path, node ≠ last → (links' node).next = (links node).next)
    (prevs : ∀ node ∈ path, node ≠ first → (links' node).prev = (links node).prev) :
    links'.Chained path := by
  refine chained.congr (fun node member => ?_) (fun node member => ?_)
  · refine nexts node (List.dropLast_subset path member) ?_
    rintro rfl
    rw [ends, List.nodup_append] at distinct
    rw [ends, List.dropLast_concat] at member
    exact distinct.2.2 node member node (List.mem_singleton_self node) rfl
  · refine prevs node (List.mem_of_mem_tail member) ?_
    rintro rfl
    rw [begins] at distinct member
    exact (List.nodup_cons.mp distinct).1 member

end Links

variable {Addr : Type*}

/-- The pointers lead from the head through the nodes and back, in both directions. -/
structure Ring (links : Links Addr) (head : Addr) (nodes : List Addr) : Prop where
  chained : links.Chained (head :: (nodes ++ [head]))
  distinct : (head :: nodes).Nodup

namespace Ring

variable {links links' : Links Addr} {head node : Addr} {nodes before after : List Addr}

theorem congr (ring : Ring links head nodes)
    (agree : ∀ node ∈ head :: nodes, links' node = links node) : Ring links' head nodes where
  chained := by
    refine ring.chained.congr (fun node member => ?_) (fun node member => ?_)
    · rw [← List.cons_append, List.dropLast_concat] at member
      rw [agree node member]
    · rw [agree node]
      simpa [or_comm] using member
  distinct := ring.distinct

/-- The way to a node of the ring, and from there to the head. -/
theorem split (ring : Ring links head (before ++ node :: after)) :
    links.Chained (head :: before ++ [node]) ∧ links.Chained (node :: after ++ [head]) := by
  have chained := ring.chained
  rw [List.append_assoc, ← List.cons_append, List.cons_append] at chained
  exact Links.chained_split.mp chained

/-- Any node of the ring can be taken for its head. -/
theorem rotate (ring : Ring links head (before ++ node :: after)) :
    Ring links node (after ++ head :: before) where
  chained := by
    rw [List.append_assoc, ← List.cons_append, List.cons_append]
    exact Links.chained_split.mpr ring.split.symm
  distinct := by
    have perm : (node :: (after ++ head :: before)).Perm (head :: (before ++ node :: after)) := by
      rw [← List.cons_append, ← List.cons_append]
      exact List.perm_append_comm
    exact perm.nodup_iff.mpr ring.distinct

theorem next_head (ring : Ring links head nodes) : (links head).next = nodes.headD head := by
  have chained := ring.chained
  cases nodes with
  | nil => exact (Links.chained_cons_cons.mp chained).1.1
  | cons first rest => exact (Links.chained_cons_cons.mp chained).1.1

theorem next_node (ring : Ring links head (before ++ node :: after)) :
    (links node).next = after.headD head := by
  have next := ring.rotate.next_head
  cases after with
  | nil => exact next
  | cons first rest => exact next

theorem prev_head (ring : Ring links head nodes) : (links head).prev = nodes.getLastD head := by
  rcases List.eq_nil_or_concat' nodes with rfl | ⟨early, last, rfl⟩
  · exact (Links.chained_cons_cons.mp ring.chained).1.2
  · have pair := ring.split.2
    rw [List.getLastD_concat]
    exact (Links.chained_cons_cons.mp pair).1.2

section Change

variable [DecidableEq Addr]

theorem loop (links : Links Addr) (head : Addr) : Ring (links.loop head) head [] where
  chained := Links.chained_cons_cons.mpr ⟨⟨links.loop_next head, links.loop_prev head⟩, .singleton _⟩
  distinct := List.nodup_singleton head

theorem insertBehind_head (ring : Ring links head nodes) (fresh : node ∉ head :: nodes) :
    Ring (links.insertBehind node head) head (node :: nodes) where
  chained := by
    obtain ⟨apart, absent⟩ := not_or.mp (List.mem_cons.not.mp fresh)
    obtain ⟨headApart, distinct⟩ := List.nodup_cons.mp ring.distinct
    obtain ⟨next, rest, onward⟩ : ∃ next rest, nodes ++ [head] = next :: rest := by
      cases nodes <;> simp
    have chained := ring.chained
    rw [onward, Links.chained_cons_cons] at chained
    obtain ⟨⟨forth, -⟩, chainedRest⟩ := chained
    have ends : (next :: rest).Nodup := by
      rw [← onward, List.nodup_append]
      refine ⟨distinct, List.nodup_singleton _, ?_⟩
      rintro other member last isLast rfl
      exact headApart (List.mem_singleton.mp isLast ▸ member)
    have among : ∀ other ∈ next :: rest, other ≠ node := by
      rintro other member rfl
      rw [← onward, List.mem_append, List.mem_singleton] at member
      exact member.elim absent apart
    rw [Links.insertBehind, forth, List.cons_append, onward]
    refine Links.chained_cons_cons.mpr ⟨⟨?_, ?_⟩, Links.chained_cons_cons.mpr ⟨⟨?_, ?_⟩, ?_⟩⟩
    · simp [Links.insertBetween_next]
    · simp [Links.insertBetween_prev]
    · simp [Links.insertBetween_next, apart]
    · simp [Links.insertBetween_prev, among next List.mem_cons_self]
    · refine chainedRest.congr (fun other member => ?_) (fun other member => ?_)
      · have inNodes : other ∈ nodes := by
          rwa [← onward, List.dropLast_concat] at member
        have notHead : other ≠ head := fun same => headApart (same ▸ inNodes)
        have notNode : other ≠ node := fun same => absent (same ▸ inNodes)
        simp [Links.insertBetween_next, notHead, notNode]
      · have notNext : other ≠ next := fun same => (List.nodup_cons.mp ends).1 (same ▸ member)
        have notNode := among other (List.mem_cons_of_mem _ member)
        simp [Links.insertBetween_prev, notNext, notNode]
  distinct := by
    obtain ⟨apart, absent⟩ := not_or.mp (List.mem_cons.not.mp fresh)
    obtain ⟨headApart, distinct⟩ := List.nodup_cons.mp ring.distinct
    rw [List.nodup_cons, List.mem_cons, List.nodup_cons]
    exact ⟨not_or.mpr ⟨Ne.symm apart, headApart⟩, absent, distinct⟩

theorem insertBehind (ring : Ring links head (before ++ after))
    (fresh : node ∉ head :: (before ++ after)) :
    Ring (links.insertBehind node (before.getLastD head)) head (before ++ node :: after) := by
  rcases List.eq_nil_or_concat' before with rfl | ⟨early, last, rfl⟩
  · exact ring.insertBehind_head fresh
  · rw [List.getLastD_concat]
    rw [List.append_assoc, List.singleton_append] at ring fresh ⊢
    have apart : node ∉ last :: (after ++ head :: early) := by
      simp only [List.mem_cons, List.mem_append] at fresh ⊢
      tauto
    have inserted := ring.rotate.insertBehind_head apart
    rw [← List.cons_append] at inserted
    exact inserted.rotate

theorem insertBefore_head (ring : Ring links head nodes) (fresh : node ∉ head :: nodes) :
    Ring (links.insertBefore node head) head (nodes ++ [node]) := by
  have last : (links (links head).prev).next = head := by
    rw [ring.prev_head]
    rcases List.eq_nil_or_concat' nodes with rfl | ⟨early, last, rfl⟩
    · exact ring.next_head
    · rw [List.getLastD_concat]
      exact ring.next_node
  have behind : links.insertBefore node head = links.insertBehind node (nodes.getLastD head) := by
    rw [← ring.prev_head, Links.insertBefore, Links.insertBehind, last]
  rw [← List.append_nil nodes] at ring fresh
  rw [behind]
  simpa using ring.insertBehind fresh

theorem unlink_head {first : Addr} (ring : Ring links node (first :: nodes)) :
    Ring (links.unlink node) first nodes where
  chained := by
    have next : (links node).next = first := ring.next_head
    have chained : links.Chained ((first :: nodes) ++ [node]) :=
      (Links.chained_cons_cons.mp ring.chained).2
    obtain ⟨early, last, split⟩ : ∃ early last, first :: nodes = early ++ [last] := by
      rcases List.eq_nil_or_concat' (first :: nodes) with none | split
      · cases none
      · exact split
    have prev : (links node).prev = last := by
      have back := ring.prev_head
      rwa [split, List.getLastD_concat] at back
    rw [split, List.append_assoc, List.singleton_append, Links.chained_split, ← split] at chained
    have kept : (links.unlink node).Chained (first :: nodes) := by
      refine chained.1.inner rfl split (List.nodup_cons.mp ring.distinct).2 ?_ ?_
      · intro other _ notLast
        rw [Links.unlink_next, prev, if_neg notLast]
      · intro other _ notFirst
        rw [Links.unlink_prev, next, if_neg notFirst]
    -- the last node becomes the neighbour of the first
    rw [← List.cons_append, split, List.append_assoc, List.singleton_append, Links.chained_split,
      ← split]
    refine ⟨kept, Links.chained_cons_cons.mpr ⟨⟨?_, ?_⟩, .singleton _⟩⟩
    · rw [Links.unlink_next, prev, if_pos rfl, next]
    · rw [Links.unlink_prev, next, if_pos rfl, prev]
  distinct := (List.nodup_cons.mp ring.distinct).2

theorem unlink (ring : Ring links head (before ++ node :: after)) :
    Ring (links.unlink node) head (before ++ after) := by
  have rotated := ring.rotate
  cases after with
  | nil =>
      rw [List.append_nil]
      exact rotated.unlink_head
  | cons first rest => exact rotated.unlink_head.rotate

/-- The nodes up to `last` and the nodes behind it are two rings then. -/
theorem cut {last new : Addr} (ring : Ring links head (before ++ last :: after))
    (fresh : new ∉ head :: (before ++ last :: after)) :
    Ring (links.cut head last new) new (before ++ [last]) ∧
      Ring (links.cut head last new) head after := by
  obtain ⟨first, front, toLast⟩ : ∃ first front, before ++ [last] = first :: front := by
    cases before <;> simp
  obtain ⟨second, back, toHead⟩ : ∃ second back, after ++ [head] = second :: back := by
    cases after <;> simp
  have distinct : ((first :: front) ++ (second :: back)).Nodup := by
    rw [← toLast, ← toHead, List.append_assoc, List.singleton_append, ← List.cons_append,
      ← List.append_assoc]
    exact List.nodup_append_comm.mp ring.distinct
  obtain ⟨frontDistinct, backDistinct, apart⟩ := List.nodup_append.mp distinct
  have lastIn : last ∈ first :: front := toLast ▸ List.mem_append_right _ List.mem_cons_self
  have headIn : head ∈ second :: back := toHead ▸ List.mem_append_right _ List.mem_cons_self
  have newFront : ∀ node ∈ first :: front, node ≠ new := by
    rintro node member rfl
    rw [← toLast] at member
    apply fresh
    simp only [List.mem_append, List.mem_cons, List.not_mem_nil, or_false] at member ⊢
    tauto
  have newBack : ∀ node ∈ second :: back, node ≠ new := by
    rintro node member rfl
    rw [← toHead] at member
    apply fresh
    simp only [List.mem_append, List.mem_cons, List.not_mem_nil, or_false] at member ⊢
    tauto
  obtain ⟨chainedFront, chainedBack⟩ := ring.split
  rw [List.cons_append, toLast, Links.chained_cons_cons] at chainedFront
  rw [List.cons_append, toHead, Links.chained_cons_cons] at chainedBack
  obtain ⟨⟨headNext, -⟩, chainedFront⟩ := chainedFront
  obtain ⟨⟨lastNext, -⟩, chainedBack⟩ := chainedBack
  have newHead := newBack head headIn
  have newLast := newFront last lastIn
  have newFirst := newFront first List.mem_cons_self
  have newSecond := newBack second List.mem_cons_self
  have lastHead := apart last lastIn head headIn
  have firstSecond := apart first List.mem_cons_self second List.mem_cons_self
  have next (node : Addr) := links.cut_next node headNext lastNext newLast lastHead
  have prev (node : Addr) := links.cut_prev node headNext lastNext newLast lastHead
  have keptFront : (links.cut head last new).Chained (first :: front) := by
    refine chainedFront.inner rfl toLast.symm frontDistinct ?_ ?_
    · intro node member notLast
      rw [next, if_neg notLast, if_neg (apart node member head headIn),
        if_neg (newFront node member)]
    · intro node member notFirst
      rw [prev, if_neg (newFront node member),
        if_neg (apart node member second List.mem_cons_self), if_neg notFirst]
  have keptBack : (links.cut head last new).Chained (second :: back) := by
    refine chainedBack.inner rfl toHead.symm backDistinct ?_ ?_
    · intro node member notHead
      rw [next, if_neg (apart last lastIn node member).symm, if_neg notHead,
        if_neg (newBack node member)]
    · intro node member notSecond
      rw [prev, if_neg (newBack node member), if_neg notSecond,
        if_neg (apart first List.mem_cons_self node member).symm]
  refine ⟨⟨?_, ?_⟩, ⟨?_, ?_⟩⟩
  · rw [List.append_assoc, List.singleton_append, ← List.cons_append]
    refine Links.chained_split.mpr ⟨?_, Links.chained_cons_cons.mpr ⟨⟨?_, ?_⟩, .singleton _⟩⟩
    · rw [List.cons_append, toLast]
      refine Links.chained_cons_cons.mpr ⟨⟨?_, ?_⟩, keptFront⟩
      · rw [next, if_neg newLast.symm, if_neg newHead.symm, if_pos rfl]
      · rw [prev, if_neg newFirst, if_neg firstSecond, if_pos rfl]
    · rw [next, if_pos rfl]
    · rw [prev, if_pos rfl]
  · rw [toLast, List.nodup_cons]
    exact ⟨fun member => newFront new member rfl, frontDistinct⟩
  · rw [toHead]
    refine Links.chained_cons_cons.mpr ⟨⟨?_, ?_⟩, keptBack⟩
    · rw [next, if_neg lastHead.symm, if_pos rfl]
    · rw [prev, if_neg newSecond, if_pos rfl]
  · rw [← toHead] at backDistinct
    exact List.nodup_append_comm.mp backDistinct

end Change

theorem unique_from {first : Addr} {nodes nodes' : List Addr}
    (chained : links.Chained (first :: (nodes ++ [head])))
    (chained' : links.Chained (first :: (nodes' ++ [head]))) (apart : head ∉ nodes)
    (apart' : head ∉ nodes') : nodes = nodes' := by
  induction nodes generalizing first nodes' with
  | nil =>
      cases nodes' with
      | nil => rfl
      | cons node' rest' =>
          have same := (Links.chained_cons_cons.mp chained').1.1.symm.trans
            (Links.chained_cons_cons.mp chained).1.1
          exact absurd (same ▸ List.mem_cons_self) apart'
  | cons node rest inductionHypothesis =>
      cases nodes' with
      | nil =>
          have same := (Links.chained_cons_cons.mp chained).1.1.symm.trans
            (Links.chained_cons_cons.mp chained').1.1
          exact absurd (same ▸ List.mem_cons_self) apart
      | cons node' rest' =>
          obtain ⟨⟨forth, -⟩, onward⟩ := Links.chained_cons_cons.mp chained
          obtain ⟨⟨forth', -⟩, onward'⟩ := Links.chained_cons_cons.mp chained'
          obtain rfl : node = node' := forth.symm.trans forth'
          have same := inductionHypothesis onward onward'
            (fun member => apart (List.mem_cons_of_mem _ member))
            (fun member => apart' (List.mem_cons_of_mem _ member))
          rw [same]

/-- The pointers and the head determine the ring. -/
theorem unique {nodes' : List Addr} (ring : Ring links head nodes)
    (ring' : Ring links head nodes') : nodes = nodes' :=
  unique_from ring.chained ring'.chained (List.nodup_cons.mp ring.distinct).1
    (List.nodup_cons.mp ring'.distinct).1

end Ring

namespace Links

variable {Addr : Type*}

def mirror (links : Links Addr) : Links Addr := fun node => ⟨(links node).next, (links node).prev⟩

@[simp] theorem mirror_next (links : Links Addr) (node : Addr) :
    (links.mirror node).next = (links node).prev := rfl

end Links

theorem Ring.mirror {links : Links Addr} {head : Addr} {nodes : List Addr}
    (ring : Ring links head nodes) : Ring links.mirror head nodes.reverse where
  chained := by
    have turned : (head :: (nodes.reverse ++ [head])) = (head :: (nodes ++ [head])).reverse := by
      simp
    rw [turned, Links.Chained, List.isChain_reverse]
    exact ring.chained.imp fun _ _ linked => ⟨linked.2, linked.1⟩
  distinct := by
    rw [List.nodup_cons, List.mem_reverse, List.nodup_reverse]
    exact List.nodup_cons.mp ring.distinct

section Elsewhere

variable {Addr : Type*} {links : Links Addr} {head node other : Addr} {nodes : List Addr}

theorem Ring.next_mem (ring : Ring links head nodes) (member : node ∈ head :: nodes) :
    (links node).next ∈ head :: nodes := by
  rcases List.mem_cons.mp member with rfl | member
  · rw [ring.next_head]
    cases nodes <;> simp
  · obtain ⟨before, after, rfl⟩ := List.append_of_mem member
    rw [ring.next_node]
    cases after <;> simp

theorem Ring.prev_mem (ring : Ring links head nodes) (member : node ∈ head :: nodes) :
    (links node).prev ∈ head :: nodes := by
  have back : (links.mirror node).next ∈ head :: nodes.reverse :=
    ring.mirror.next_mem (by simpa using member)
  simpa using back

variable [DecidableEq Addr]

theorem Ring.unlink_of_not_mem (ring : Ring links head nodes) (member : node ∈ head :: nodes)
    (elsewhere : other ∉ head :: nodes) : links.unlink node other = links other := by
  apply Links.unlink_of_ne
  · exact (ne_of_mem_of_not_mem (ring.prev_mem member) elsewhere).symm
  · exact (ne_of_mem_of_not_mem (ring.next_mem member) elsewhere).symm

theorem Ring.insertBehind_of_not_mem {place : Addr} (ring : Ring links head nodes)
    (member : place ∈ head :: nodes) (elsewhere : other ∉ head :: nodes) (apart : other ≠ node) :
    links.insertBehind node place other = links other := by
  apply Links.insertBetween_of_ne _ _ _ _ _ apart
  · exact (ne_of_mem_of_not_mem member elsewhere).symm
  · exact (ne_of_mem_of_not_mem (ring.next_mem member) elsewhere).symm

theorem Ring.cut_of_not_mem {last new : Addr} (ring : Ring links head nodes)
    (member : last ∈ nodes) (fresh : new ∉ head :: nodes) (elsewhere : other ∉ head :: nodes)
    (apart : other ≠ new) : links.cut head last new other = links other := by
  have inRing := List.mem_cons_of_mem head member
  have notHead : other ≠ head := (ne_of_mem_of_not_mem List.mem_cons_self elsewhere).symm
  have notLast : other ≠ last := (ne_of_mem_of_not_mem inRing elsewhere).symm
  have notFirst : other ≠ (links head).next :=
    (ne_of_mem_of_not_mem (ring.next_mem List.mem_cons_self) elsewhere).symm
  have notSecond : other ≠ (links last).next :=
    (ne_of_mem_of_not_mem (ring.next_mem inRing) elsewhere).symm
  have lastNew : last ≠ new := ne_of_mem_of_not_mem inRing fresh
  have lastHead : last ≠ head := by
    rintro rfl
    exact (List.nodup_cons.mp ring.distinct).1 member
  ext
  · simp [Links.cut, Links.setNext_next, Links.setPrev_prev, apart, notFirst, notSecond, lastNew,
      lastHead]
  · simp [Links.cut, Links.setNext_next, apart, notHead, notLast]

end Elsewhere

section Walk

variable [DecidableEq Addr]

/-- A walk along the next pointers to the first node that passes the check, or to the head.
Nothing comes of it when a check cannot be made, or after `fuel` rounds without an end. -/
def walk (links : Links Addr) (head : Addr) (check : Addr → Option Bool) : Nat → Addr → Option Addr
  | 0, _ => none
  | fuel + 1, cur =>
      if cur = head then some head
      else (check cur).bind fun passed =>
        if passed then some cur else walk links head check fuel (links cur).next

/-- The same walk with the next node fetched before the check; both nodes where it ends. -/
def walkSafe (links : Links Addr) (head : Addr) (check : Addr → Option Bool) :
    Nat → Addr → Addr → Option (Addr × Addr)
  | 0, _, _ => none
  | fuel + 1, cur, next =>
      if cur = head then some (head, next)
      else (check cur).bind fun passed =>
        if passed then some (cur, next)
        else walkSafe links head check fuel next (links next).next

variable {links : Links Addr} {head : Addr} {check : Addr → Option Bool} {passes : Addr → Bool}

theorem Ring.walk {before after : List Addr} (ring : Ring links head (before ++ after))
    (checked : ∀ node ∈ after, check node = some (passes node)) {fuel : Nat}
    (enough : after.length < fuel) :
    walk links head check fuel (after.headD head) = some ((after.find? passes).getD head) := by
  induction after generalizing before fuel with
  | nil =>
      obtain ⟨fuel, rfl⟩ := Nat.exists_eq_add_one.mpr enough
      simp [Lib.walk]
  | cons node rest inductionHypothesis =>
      obtain ⟨fuel, rfl⟩ := Nat.exists_eq_add_one.mpr (Nat.zero_lt_of_lt enough)
      have apart : node ≠ head := by
        rintro rfl
        exact (List.nodup_cons.mp ring.distinct).1 (by simp)
      have onward : Ring links head (before ++ [node] ++ rest) := by simpa using ring
      have later := inductionHypothesis onward
        (fun other member => checked other (List.mem_cons_of_mem _ member))
        (Nat.lt_of_succ_lt_succ enough)
      rw [List.headD_cons, Lib.walk, if_neg apart, checked node List.mem_cons_self,
        Option.bind_some, List.find?_cons]
      cases passes node with
      | true => rfl
      | false =>
          rw [ring.next_node]
          exact later

theorem walkSafe_eq (fuel : Nat) (cur : Addr) :
    walkSafe links head check fuel cur (links cur).next =
      (walk links head check fuel cur).map fun node => (node, (links node).next) := by
  induction fuel generalizing cur with
  | zero => rfl
  | succ fuel inductionHypothesis =>
      rw [walkSafe, walk]
      by_cases atHead : cur = head
      · rw [if_pos atHead, if_pos atHead, atHead]
        rfl
      · rw [if_neg atHead, if_neg atHead]
        cases check cur with
        | none => rfl
        | some passed =>
            cases passed with
            | true => rfl
            | false => exact inductionHypothesis (links cur).next

theorem Ring.walkSafe {before after : List Addr} (ring : Ring links head (before ++ after))
    (checked : ∀ node ∈ after, check node = some (passes node)) {fuel : Nat}
    (enough : after.length < fuel) :
    walkSafe links head check fuel (after.headD head) (links (after.headD head)).next =
      some ((after.find? passes).getD head, (links ((after.find? passes).getD head)).next) := by
  rw [walkSafe_eq, ring.walk checked enough]
  rfl

end Walk

end Lib
