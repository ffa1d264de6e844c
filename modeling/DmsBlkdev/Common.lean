import Mathlib.Data.BitVec

/-!
# Operations, result cells and unit conversions

Logical block ids and sector counts are 64-bit in the driver, and natural
numbers here.  A conversion reduces modulo the word size where a shift can
leave the word; sums of block ids stay far below it.
-/

namespace DmsBlkdev

/-- `DMS_OP_READ`, `DMS_OP_WRITE` and `DMS_OP_OVERWRITE`. -/
inductive DMSOp where
  | read
  | write
  | overwrite
  deriving DecidableEq, Repr

namespace DMSOp

/-- The operation byte, as `if(op)` tests it. -/
def code : DMSOp → Nat
  | read => 0
  | write => 1
  | overwrite => 2

/-- The write operation for blocks whose allocation flag is `allocated`. -/
def ofFlag (allocated : Bool) : DMSOp := if allocated then overwrite else write

theorem ofFlag_ne_read (allocated : Bool) : ofFlag allocated ≠ read := by
  cases allocated <;> decide

theorem ofFlag_injective : Function.Injective ofFlag := by
  intro first second
  cases first <;> cases second <;> decide

end DMSOp

/-- `DMS_OK`. -/
def dmsOK : Int := 0

/-- `-DMS_FAIL`. -/
def dmsFail : Int := -1

/-- The value of `dms_dbg_flag`. -/
def dmsDbgFlag : BitVec 32 := 0xfffff7f5

section Debug

/-! Whether the prints of a part of the driver are on in a flag word. -/

variable (flag : BitVec 32)

def iorDbg : Bool := flag.getLsbD 2
def paloDbg : Bool := flag.getLsbD 7
def dioDbg : Bool := flag.getLsbD 14

@[simp] theorem dioDbg_on : dioDbg dmsDbgFlag = true := by decide

end Debug

def truth (condition : Bool) : Int := if condition then 1 else 0

@[simp] theorem truth_eq_one (condition : Bool) : truth condition = 1 ↔ condition = true := by
  cases condition <;> simp [truth]

/-- Peels the first step off a computation that got through. -/
theorem bind_eq_ok {Fault Value Result : Type} {first : Except Fault Value}
    {next : Value → Except Fault Result} {result : Result} :
    (first >>= next) = .ok result ↔ ∃ value, first = .ok value ∧ next value = .ok result := by
  cases first with
  | error fault => simp [bind, Except.bind]
  | ok value => simp [bind, Except.bind]

/-- `KSECTORS_TO_LBID`, which is also `KSECTORS_TO_DSECTORS`: 512-byte sectors to 4096-byte
blocks. -/
def ksectorsToLBID (ksect : Nat) : Nat := (ksect <<< 9 % 2 ^ 64) >>> 12

theorem ksectorsToLBID_mul {lbid : Nat} (small : lbid < 2 ^ 52) :
    ksectorsToLBID (8 * lbid) = lbid := by
  rw [ksectorsToLBID, Nat.shiftRight_eq_div_pow, Nat.shiftLeft_eq]
  omega

end DmsBlkdev
