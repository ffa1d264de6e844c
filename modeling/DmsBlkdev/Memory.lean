import Mathlib.Data.List.Count
import Mathlib.Logic.Function.Basic

/-!
# Memory pools

Every pool numbers its allocation attempts.  Which attempts succeed is not the
driver's to decide: `grants` says it for each pool and attempt.  The memory
remembers how many attempts each pool has seen and what was given back.
-/

namespace DmsBlkdev

inductive Pool where
  | ioRequest
  | dList
  | dln
  | dio
  | lbList
  | lbmd
  deriving DecidableEq, Repr

abbrev Grants := Pool → Nat → Bool

structure Memory where
  attempts : Pool → Nat
  released : List (Pool × Nat)

def Memory.fresh : Memory := ⟨fun _ => 0, []⟩

/-- One attempt of a pool; the number of the attempt serves as the address. -/
def malloc (grants : Grants) (pool : Pool) (memory : Memory) : Option Nat × Memory :=
  (if grants pool (memory.attempts pool) then some (memory.attempts pool) else none,
    { memory with
      attempts := Function.update memory.attempts pool (memory.attempts pool + 1) })

def free (pool : Pool) (addr : Nat) (memory : Memory) : Memory :=
  { memory with released := (pool, addr) :: memory.released }

section Malloc

variable (grants : Grants) (pool : Pool) (memory : Memory)

@[simp] theorem malloc_granted (granted : grants pool (memory.attempts pool) = true) :
    (malloc grants pool memory).1 = some (memory.attempts pool) := by
  simp [malloc, granted]

@[simp] theorem malloc_refused (refused : grants pool (memory.attempts pool) = false) :
    (malloc grants pool memory).1 = none := by
  simp [malloc, refused]

@[simp] theorem malloc_attempts_self :
    (malloc grants pool memory).2.attempts pool = memory.attempts pool + 1 := by
  simp [malloc]

theorem malloc_attempts_of_ne {other : Pool} (different : other ≠ pool) :
    (malloc grants pool memory).2.attempts other = memory.attempts other := by
  simp [malloc, Function.update_of_ne different]

end Malloc

@[simp] theorem free_attempts (pool : Pool) (addr : Nat) (memory : Memory) :
    (free pool addr memory).attempts = memory.attempts := rfl

/-- The object of attempt `addr` exists: the attempt was made and it succeeded. -/
def Memory.Created (grants : Grants) (memory : Memory) (pool : Pool) (addr : Nat) : Prop :=
  addr < memory.attempts pool ∧ grants pool addr = true

/-- Every object of the pool that was created has been released exactly once. -/
def Memory.AllReleased (grants : Grants) (memory : Memory) (pool : Pool) : Prop :=
  ∀ addr, memory.Created grants pool addr → memory.released.count (pool, addr) = 1

end DmsBlkdev
