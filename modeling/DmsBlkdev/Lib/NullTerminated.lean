import Mathlib.Data.List.Nodup
import Mathlib.Logic.Function.Basic

/-!
# Singly linked lists

Every node has a next pointer, which may be NULL.  From a node the pointers lead
through a list of nodes when they end with NULL; they determine that list, so no
node comes up twice.  A node is added behind the last one, and taken out behind
the one before it.
-/

namespace Lib

variable {Addr : Type*}

/-- From the node, the next pointers lead through these nodes to NULL. -/
def Leads (next : Addr → Option Addr) : Addr → List Addr → Prop
  | node, [] => next node = none
  | node, first :: rest => next node = some first ∧ Leads next first rest

namespace Leads

variable {next next' : Addr → Option Addr} {node new victim : Addr}
  {path path' before behind : List Addr}

/-- The pointers determine the nodes that they lead through. -/
theorem unique (leads : Leads next node path) (leads' : Leads next node path') : path = path' := by
  induction path generalizing node path' with
  | nil =>
      cases path' with
      | nil => rfl
      | cons first' rest' => exact absurd (leads.symm.trans leads'.1) (by simp)
  | cons first rest inductionHypothesis =>
      cases path' with
      | nil => exact absurd (leads.1.symm.trans leads') (by simp)
      | cons first' rest' =>
          obtain rfl := Option.some.inj (leads.1.symm.trans leads'.1)
          rw [inductionHypothesis leads.2 leads'.2]

theorem from_node (leads : Leads next node (before ++ victim :: behind)) :
    Leads next victim behind := by
  induction before generalizing node with
  | nil => exact leads.2
  | cons first rest inductionHypothesis => exact inductionHypothesis leads.2

theorem nodup (leads : Leads next node path) : (node :: path).Nodup := by
  induction path generalizing node with
  | nil => exact List.nodup_singleton node
  | cons first rest inductionHypothesis =>
      refine List.nodup_cons.mpr ⟨fun again => ?_, inductionHypothesis leads.2⟩
      obtain ⟨before, behind, split⟩ := List.append_of_mem again
      have shorter := (split ▸ leads : Leads next node (before ++ node :: behind)).from_node
      have longer := congrArg List.length (shorter.unique leads)
      have whole := congrArg List.length split
      rw [List.length_append, List.length_cons (a := node)] at whole
      omega

theorem congr (leads : Leads next node path)
    (agree : ∀ other ∈ node :: path, next' other = next other) : Leads next' node path := by
  induction path generalizing node with
  | nil => exact (agree node List.mem_cons_self).trans leads
  | cons first rest inductionHypothesis =>
      refine ⟨(agree node List.mem_cons_self).trans leads.1, ?_⟩
      exact inductionHypothesis leads.2 fun other member =>
        agree other (List.mem_cons_of_mem _ member)

theorem getLastD_mem (path : List Addr) (node : Addr) : path.getLastD node ∈ node :: path := by
  rcases List.eq_nil_or_concat' path with rfl | ⟨early, last, rfl⟩ <;> simp

section Change

variable [DecidableEq Addr]

theorem concat (leads : Leads next node path) (fresh : new ∉ node :: path) :
    Leads (Function.update (Function.update next (path.getLastD node) (some new)) new none) node
      (path ++ [new]) := by
  induction path generalizing node with
  | nil =>
      have apart : node ≠ new := fun same => fresh (same ▸ List.mem_cons_self)
      refine ⟨?_, Function.update_self ..⟩
      rw [Function.update_of_ne apart]
      exact Function.update_self ..
  | cons first rest inductionHypothesis =>
      obtain ⟨apart, fresh⟩ := not_or.mp (List.mem_cons.not.mp fresh)
      rw [List.getLastD_cons]
      refine ⟨?_, inductionHypothesis leads.2 fresh⟩
      have notLast : node ≠ rest.getLastD first := by
        intro same
        exact (List.nodup_cons.mp leads.nodup).1 (same ▸ getLastD_mem rest first)
      rw [Function.update_of_ne (Ne.symm apart), Function.update_of_ne notLast]
      exact leads.1

theorem remove (leads : Leads next node (before ++ victim :: behind)) :
    Leads (Function.update (Function.update next (before.getLastD node) (next victim)) victim none)
      node (before ++ behind) := by
  induction before generalizing node with
  | nil =>
      have distinct := leads.nodup
      rw [List.nil_append, List.nodup_cons, List.nodup_cons] at distinct
      obtain ⟨notNode, notVictim, -⟩ := distinct
      have apart : node ≠ victim := fun same => notNode (same ▸ List.mem_cons_self)
      have first : Function.update (Function.update next node (next victim)) victim none node =
          next victim := by
        rw [Function.update_of_ne apart, Function.update_self]
      have onward := leads.2
      cases behind with
      | nil => exact first.trans onward
      | cons second rest =>
          refine ⟨first.trans onward.1, onward.2.congr fun other member => ?_⟩
          have notNode' : other ≠ node := fun same =>
            notNode (List.mem_cons_of_mem _ (same ▸ member))
          have notVictim' : other ≠ victim := fun same => notVictim (same ▸ member)
          exact (Function.update_of_ne notVictim' _ _).trans (Function.update_of_ne notNode' _ _)
  | cons first rest inductionHypothesis =>
      rw [List.getLastD_cons]
      refine ⟨?_, inductionHypothesis leads.2⟩
      have absent := (List.nodup_cons.mp leads.nodup).1
      have notLast : node ≠ rest.getLastD first := by
        intro same
        exact absent (List.mem_append_left _ (same ▸ getLastD_mem rest first))
      have notVictim : node ≠ victim := by
        rintro rfl
        exact absent (by simp)
      rw [Function.update_of_ne notVictim, Function.update_of_ne notLast]
      exact leads.1

end Change

end Leads

section Seek

/-- The walk to the first node behind that passes the check: that node and the one before it, or
nothing at the end of the list.  Nothing comes of it when a check cannot be made, or after `fuel`
rounds without an end. -/
def seekNext (next : Addr → Option Addr) (check : Addr → Option Bool) :
    Nat → Addr → Option (Option (Addr × Addr))
  | 0, _ => none
  | fuel + 1, cur =>
      match next cur with
      | none => some none
      | some node => (check node).bind fun passed =>
          if passed then some (some (cur, node)) else seekNext next check fuel node

variable {next : Addr → Option Addr} {check : Addr → Option Bool} {node found : Addr}
  {path before behind : List Addr} {fuel : Nat}

theorem Leads.seekNext_found (leads : Leads next node (before ++ found :: behind))
    (failed : ∀ other ∈ before, check other = some false) (passed : check found = some true)
    (enough : before.length < fuel) :
    seekNext next check fuel node = some (some (before.getLastD node, found)) := by
  induction before generalizing node fuel with
  | nil =>
      obtain ⟨fuel, rfl⟩ := Nat.exists_eq_add_one.mpr enough
      simp [seekNext, leads.1, passed]
  | cons first rest inductionHypothesis =>
      obtain ⟨fuel, rfl⟩ := Nat.exists_eq_add_one.mpr (Nat.zero_lt_of_lt enough)
      have later := inductionHypothesis leads.2
        (fun other member => failed other (List.mem_cons_of_mem _ member))
        (Nat.lt_of_succ_lt_succ enough)
      rw [List.getLastD_cons, ← later, seekNext, leads.1]
      simp [failed first List.mem_cons_self]

theorem Leads.seekNext_absent (leads : Leads next node path)
    (failed : ∀ other ∈ path, check other = some false) (enough : path.length < fuel) :
    seekNext next check fuel node = some none := by
  induction path generalizing node fuel with
  | nil =>
      obtain ⟨fuel, rfl⟩ := Nat.exists_eq_add_one.mpr enough
      have ends : next node = none := leads
      simp [seekNext, ends]
  | cons first rest inductionHypothesis =>
      obtain ⟨fuel, rfl⟩ := Nat.exists_eq_add_one.mpr (Nat.zero_lt_of_lt enough)
      have later := inductionHypothesis leads.2
        (fun other member => failed other (List.mem_cons_of_mem _ member))
        (Nat.lt_of_succ_lt_succ enough)
      rw [← later, seekNext, leads.1]
      simp [failed first List.mem_cons_self]

end Seek

end Lib
