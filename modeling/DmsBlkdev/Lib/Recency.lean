import Mathlib.Data.List.Nodup
import Mathlib.Data.List.Pairwise
import Mathlib.Data.List.Perm.Basic

/-!
# The order of the last touch

A history has the latest touch in front, so that the last touch of an item is
its first place in the history.  A list of items is in the order of the last
touch when these places ascend.  An item that is touched goes to the front of
such a list, and any items may be taken out of it.
-/

namespace Lib.Recency

variable {Item : Type*} [DecidableEq Item]

/-- The items have been touched, one after the other later than those behind it. -/
structure Recent (history list : List Item) : Prop where
  ordered : list.Pairwise fun one other => history.idxOf one < history.idxOf other
  touched : ∀ item ∈ list, item ∈ history

def moveToFront (item : Item) (list : List Item) : List Item := item :: list.erase item

section Rules

variable {history list : List Item} {item : Item}

theorem Recent.nil : Recent history [] :=
  ⟨List.Pairwise.nil, fun _ member => absurd member List.not_mem_nil⟩

theorem Recent.nodup (recent : Recent history list) : list.Nodup := by
  refine recent.ordered.imp ?_
  rintro one other later rfl
  exact Nat.lt_irrefl _ later

theorem Recent.sublist (recent : Recent history list) {fewer : List Item}
    (sublist : fewer.Sublist list) : Recent history fewer :=
  ⟨recent.ordered.sublist sublist, fun item member => recent.touched item (sublist.subset member)⟩

theorem Recent.moveToFront (recent : Recent history list) (item : Item) :
    Recent (item :: history) (moveToFront item list) := by
  have others : ∀ other ∈ list.erase item, other ≠ item ∧ other ∈ history := by
    intro other member
    have split := recent.nodup.mem_erase_iff.mp member
    exact ⟨split.1, recent.touched other split.2⟩
  have later (other : Item) (member : other ∈ list.erase item) :
      (item :: history).idxOf other = history.idxOf other + 1 :=
    List.idxOf_cons_ne history (Ne.symm (others other member).1)
  refine ⟨List.pairwise_cons.mpr ⟨?_, ?_⟩, ?_⟩
  · intro other member
    rw [List.idxOf_cons_self, later other member]
    exact Nat.succ_pos _
  · refine ((recent.ordered.sublist List.erase_sublist).imp_of_mem ?_)
    intro one other memberOne memberOther before
    rw [later one memberOne, later other memberOther]
    exact Nat.succ_lt_succ before
  · intro other member
    rcases List.mem_cons.mp member with rfl | kept
    · exact List.mem_cons_self
    · exact List.mem_cons_of_mem _ (others other kept).2

/-- Items that are touched from the last one on. -/
theorem Recent.foldr_moveToFront (recent : Recent history list) (items : List Item) :
    Recent (items ++ history) (items.foldr Recency.moveToFront list) := by
  induction items with
  | nil => exact recent
  | cons item rest inductionHypothesis => exact inductionHypothesis.moveToFront item

/-- What is left of a list at its front was touched later than what has gone from its end. -/
theorem Recent.take (recent : Recent history list) {count : Nat} {kept gone : Item}
    (left : kept ∈ list.take count) (out : gone ∈ list.drop count) :
    history.idxOf kept < history.idxOf gone := by
  have split := recent.ordered
  rw [← List.take_append_drop count list, List.pairwise_append] at split
  exact split.2.2 kept left gone out

end Rules

end Lib.Recency
