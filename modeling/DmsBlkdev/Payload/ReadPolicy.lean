import DmsBlkdev.Namenode.WellFormed

/-!
# The choice of a replica to read

The policy starts at a random location and goes once around the table.  The
place to start at is a random number modulo the number of locations, which is
the one that the response gave.
-/

namespace DmsBlkdev

open Lib.Wire

/-- A division by zero, or a look at a location that is not in the table. -/
inductive PolicyFault where
  | divideByZero
  | oops
  deriving DecidableEq, Repr

/-- A loop of `Default_Read_Policy` from location `i` on. -/
def scanLocations (dnLocs : List DatanodeLocation) (i : Int) :
    Nat → Except PolicyFault (Option Int)
  | 0 => .ok none
  | rounds + 1 =>
      match if i < 0 then none else dnLocs[i.toNat]? with
      | none => .error .oops
      | some dnLoc =>
          if dnLoc.dnResult = 0 then .ok (some i) else scanLocations dnLocs (i + 1) rounds

/-- `Default_Read_Policy`, with `random` as the value of `get_random_int`.  That value is unsigned,
so the remainder is one of unsigned numbers; it is stored in an `int`. -/
def defaultReadPolicy (random : BitVec 32) (lr : LocatedRequest) (nrDnLocs : BitVec 32) :
    Except PolicyFault Int :=
  if nrDnLocs = 0 then .error .divideByZero
  else do
    let index := (random % nrDnLocs).toInt
    match ← scanLocations lr.dnLocs index (lr.nrDnLocs.toInt - index).toNat with
    | some i => return i
    | none =>
        match ← scanLocations lr.dnLocs 0 index.toNat with
        | some i => return i
        | none => return dmsFail

/-- A location without a result so far is chosen if there is one, and else the policy fails. -/
def ChoosesUnused (lr : LocatedRequest) (chosen : Except PolicyFault Int) : Prop :=
  ∃ i, chosen = .ok i ∧
    ((∃ dnLoc ∈ lr.dnLocs, dnLoc.dnResult = 0) →
      0 ≤ i ∧ i < lr.nrDnLocs.toInt ∧
        ∃ dnLoc, lr.dnLocs[i.toNat]? = some dnLoc ∧ dnLoc.dnResult = 0) ∧
    ((∀ dnLoc ∈ lr.dnLocs, dnLoc.dnResult ≠ 0) → i = dmsFail)

def LocatedRequest.withResults (lr : LocatedRequest) (results : Nat → Int) : LocatedRequest :=
  { lr with dnLocs := lr.dnLocs.mapIdx fun i dnLoc => { dnLoc with dnResult := results i } }

section Scan

variable {dnLocs : List DatanodeLocation}

theorem scanLocations_inside {i rounds : Nat} (within : i + rounds ≤ dnLocs.length) :
    ∃ found, scanLocations dnLocs i rounds = .ok found ∧
      (∀ j, found = some j → ∃ (k : Nat) (dnLoc : DatanodeLocation), j = k ∧ k < i + rounds ∧
        dnLocs[k]? = some dnLoc ∧ dnLoc.dnResult = 0) ∧
      (found = none → ∀ k dnLoc, i ≤ k → k < i + rounds → dnLocs[k]? = some dnLoc →
        dnLoc.dnResult ≠ 0) := by
  induction rounds generalizing i with
  | zero => exact ⟨none, rfl, nofun, fun _ k _ late early => absurd early (by omega)⟩
  | succ rounds inductionHypothesis =>
      have inside : i < dnLocs.length := by omega
      have here : (if (i : Int) < 0 then none else dnLocs[(i : Int).toNat]?) =
          some dnLocs[i] := by
        rw [if_neg (by omega), Int.toNat_natCast, List.getElem?_eq_getElem inside]
      rw [scanLocations, here]
      simp only
      by_cases unused : dnLocs[i].dnResult = 0
      · rw [if_pos unused]
        refine ⟨some i, rfl, ?_, nofun⟩
        rintro j found
        obtain rfl := Option.some.inj found
        exact ⟨i, dnLocs[i], rfl, by omega, List.getElem?_eq_getElem inside, unused⟩
      · rw [if_neg unused]
        obtain ⟨found, scanned, hit, missed⟩ := inductionHypothesis (i := i + 1) (by omega)
        refine ⟨found, scanned, ?_, ?_⟩
        · intro j located
          obtain ⟨k, dnLoc, place, early, rest⟩ := hit j located
          exact ⟨k, dnLoc, place, by omega, rest⟩
        · intro nothing k dnLoc late early located
          by_cases first : k = i
          · subst first
            rw [List.getElem?_eq_getElem inside] at located
            obtain rfl := Option.some.inj located
            exact unused
          · exact missed nothing k dnLoc (by omega) (by omega) located

theorem scanLocations_empty (i : Int) {rounds : Nat} (some : 0 < rounds) :
    scanLocations [] i rounds = .error .oops := by
  obtain ⟨rounds, rfl⟩ := Nat.exists_eq_succ_of_ne_zero (Nat.ne_of_gt some)
  rw [scanLocations]
  simp

end Scan

section Policy

variable {lr : LocatedRequest} {random : BitVec 32}

theorem choosesUnused_of_found (table : lr.dnLocs.length = lr.nrDnLocs.toInt.toNat)
    {k : Nat} {dnLoc : DatanodeLocation} (located : lr.dnLocs[k]? = some dnLoc)
    (unused : dnLoc.dnResult = 0) : ChoosesUnused lr (.ok k) := by
  have inside := (List.getElem?_eq_some_iff.mp located).1
  refine ⟨k, rfl, fun _ => ⟨by omega, by omega, dnLoc, located, unused⟩, fun used => ?_⟩
  exact absurd unused (used dnLoc (List.mem_of_getElem? located))

theorem choosesUnused_of_used (used : ∀ dnLoc ∈ lr.dnLocs, dnLoc.dnResult ≠ 0) :
    ChoosesUnused lr (.ok dmsFail) := by
  refine ⟨dmsFail, rfl, ?_, fun _ => rfl⟩
  rintro ⟨dnLoc, member, unused⟩
  exact absurd unused (used dnLoc member)

/-- With as many locations in the table as the request says, at least one, every start is as good
as any other. -/
theorem defaultReadPolicy_positive (table : lr.dnLocs.length = lr.nrDnLocs.toInt.toNat)
    (positive : 0 < lr.nrDnLocs.toInt) :
    ChoosesUnused lr (defaultReadPolicy random lr (lr.nrDnLocs.signExtend 32)) := by
  have signed : (lr.nrDnLocs.signExtend 32).toInt = lr.nrDnLocs.toInt :=
    BitVec.toInt_signExtend_of_le (by decide)
  have bound : lr.nrDnLocs.toInt < 2 ^ 15 := BitVec.toInt_lt
  have count : (lr.nrDnLocs.signExtend 32).toNat = lr.dnLocs.length := by
    have word := BitVec.toInt_eq_toNat_cond (lr.nrDnLocs.signExtend 32)
    have top := (lr.nrDnLocs.signExtend 32).isLt
    split at word <;> omega
  have nonzero : lr.nrDnLocs.signExtend 32 ≠ 0 := by
    intro zero
    rw [zero] at signed
    change (0 : Int) = _ at signed
    omega
  obtain ⟨start, begin, early⟩ : ∃ start : Nat,
      (random % lr.nrDnLocs.signExtend 32).toInt = start ∧ start < lr.dnLocs.length := by
    have less : random.toNat % lr.dnLocs.length < lr.dnLocs.length := Nat.mod_lt _ (by omega)
    refine ⟨random.toNat % lr.dnLocs.length, ?_, less⟩
    rw [BitVec.toInt_eq_toNat_cond, BitVec.toNat_umod, count, if_pos (by omega)]
  have rounds : (lr.nrDnLocs.toInt - start).toNat = lr.dnLocs.length - start := by omega
  obtain ⟨first, scannedFirst, hitFirst, missedFirst⟩ :=
    @scanLocations_inside lr.dnLocs start (lr.dnLocs.length - start) (by omega)
  obtain ⟨second, scannedSecond, hitSecond, missedSecond⟩ :=
    @scanLocations_inside lr.dnLocs 0 start (by omega)
  rw [defaultReadPolicy, if_neg nonzero]
  simp only [begin, rounds, Int.toNat_natCast]
  rw [scannedFirst]
  cases first with
  | some i =>
      obtain ⟨k, dnLoc, rfl, -, located, unused⟩ := hitFirst i rfl
      exact choosesUnused_of_found table located unused
  | none =>
      change ChoosesUnused lr (scanLocations lr.dnLocs (0 : Nat) start >>= _)
      rw [scannedSecond]
      cases second with
      | some i =>
          obtain ⟨k, dnLoc, rfl, -, located, unused⟩ := hitSecond i rfl
          exact choosesUnused_of_found table located unused
      | none =>
          -- the two loops have looked at every location
          refine choosesUnused_of_used fun dnLoc member => ?_
          obtain ⟨k, located⟩ := List.mem_iff_getElem?.mp member
          have inside := (List.getElem?_eq_some_iff.mp located).1
          rcases Nat.lt_or_ge k start with before | behind
          · exact missedSecond rfl k dnLoc (Nat.zero_le k) (by omega) located
          · exact missedFirst rfl k dnLoc behind (by omega) located

/-- With a negative number of locations the policy gets through from location 0 only. -/
theorem defaultReadPolicy_negative (table : lr.dnLocs = [])
    (negative : lr.nrDnLocs.toInt < 0) :
    ChoosesUnused lr (defaultReadPolicy random lr (lr.nrDnLocs.signExtend 32)) ↔
      random % lr.nrDnLocs.signExtend 32 = 0 := by
  have signed : (lr.nrDnLocs.signExtend 32).toInt = lr.nrDnLocs.toInt :=
    BitVec.toInt_signExtend_of_le (by decide)
  have nonzero : lr.nrDnLocs.signExtend 32 ≠ 0 := by
    intro zero
    rw [zero] at signed
    change (0 : Int) = _ at signed
    omega
  rw [defaultReadPolicy, if_neg nonzero, table]
  constructor
  · rintro ⟨i, chosen, -⟩
    by_contra elsewhere
    have place : (random % lr.nrDnLocs.signExtend 32).toInt ≠ 0 := fun zero =>
      elsewhere (BitVec.eq_of_toInt_eq zero)
    have less : (random % lr.nrDnLocs.signExtend 32).toNat < (lr.nrDnLocs.signExtend 32).toNat := by
      rw [BitVec.toNat_umod]
      apply Nat.mod_lt
      exact Nat.pos_of_ne_zero fun zero => nonzero (BitVec.eq_of_toNat_eq zero)
    have divisor := BitVec.toInt_eq_toNat_cond (lr.nrDnLocs.signExtend 32)
    have remainder := BitVec.toInt_eq_toNat_cond (random % lr.nrDnLocs.signExtend 32)
    generalize (random % lr.nrDnLocs.signExtend 32).toInt = index at place remainder chosen
    by_cases ahead : index < lr.nrDnLocs.toInt
    · -- a start before the table
      have rounds : 0 < (lr.nrDnLocs.toInt - index).toNat := by omega
      simp only [scanLocations_empty index rounds] at chosen
      cases chosen
    · have after : 0 < index := by
        split at divisor <;> split at remainder <;> omega
      have none : (lr.nrDnLocs.toInt - index).toNat = 0 := by omega
      simp only [none, scanLocations_empty 0 (show 0 < index.toNat by omega)] at chosen
      cases chosen
  · intro first
    rw [first]
    have none : (lr.nrDnLocs.toInt - (0 : BitVec 32).toInt).toNat = 0 := by
      change (lr.nrDnLocs.toInt - 0).toNat = 0
      omega
    simp only [none]
    refine choosesUnused_of_used ?_
    rw [table]
    exact fun _ member => absurd member List.not_mem_nil

end Policy

theorem parseLocatedRequest_locations {grants : Allocations} {buf : Bytes} {slbid : BitVec 64}
    {attempts attempts' : Nat} {lr : LocatedRequest} {retcode : Int}
    (parsed : parseLocatedRequest grants .zero buf slbid attempts = .ok (lr, retcode, attempts')) :
    lr.dnLocs.length = lr.nrDnLocs.toInt.toNat := by
  obtain ⟨msg, fits, -, -, rfl, -, -⟩ := parseLocatedRequest_eq_ok.mp parsed
  rw [LRMsg.decoded, List.length_map]
  exact fits.count

/-- On a located request that was parsed, with any results since, the policy chooses a location
without a result exactly when there are locations, or when their number is negative and the
remainder is 0. -/
theorem defaultReadPolicy_chooses_iff (grants : Allocations) (buf : Bytes) (slbid : BitVec 64)
    (attempts attempts' : Nat) (lr : LocatedRequest) (retcode : Int)
    (parsed : parseLocatedRequest grants .zero buf slbid attempts = .ok (lr, retcode, attempts'))
    (results : Nat → Int) (random : BitVec 32) :
    ChoosesUnused (lr.withResults results)
        (defaultReadPolicy random (lr.withResults results) (lr.nrDnLocs.signExtend 32)) ↔
      0 < lr.nrDnLocs.toInt ∨
        lr.nrDnLocs.toInt < 0 ∧ random % lr.nrDnLocs.signExtend 32 = 0 := by
  have table : (lr.withResults results).dnLocs.length = lr.nrDnLocs.toInt.toNat := by
    rw [LocatedRequest.withResults, List.length_mapIdx]
    exact parseLocatedRequest_locations parsed
  have same : (lr.withResults results).nrDnLocs = lr.nrDnLocs := rfl
  rcases Int.lt_trichotomy lr.nrDnLocs.toInt 0 with negative | zero | positive
  · have empty : (lr.withResults results).dnLocs = [] :=
      List.eq_nil_of_length_eq_zero (by omega)
    have chooses := @defaultReadPolicy_negative (lr.withResults results) random empty negative
    rw [same] at chooses
    rw [chooses]
    simp [negative, Int.not_lt.mpr (Int.le_of_lt negative)]
  · have none : lr.nrDnLocs.signExtend 32 = 0 := by
      have word : lr.nrDnLocs = 0 := BitVec.eq_of_toInt_eq zero
      rw [word]
      decide
    rw [defaultReadPolicy, if_pos none]
    simp [ChoosesUnused, zero]
  · have chooses := @defaultReadPolicy_positive (lr.withResults results) random table positive
    rw [same] at chooses
    simp [chooses, positive]

def singleMsg : LRMsg := ⟨1, 0, [], 1, [⟨9, 7, 0, []⟩]⟩

theorem singleMsg_parsed :
    parseLocatedRequest (fun _ => true) .zero singleMsg.bytes 5 0 =
      .ok (singleMsg.decoded 5, 16, 2) := by decide +kernel

theorem defaultReadPolicy_chooses_single :
    parseLocatedRequest (fun _ => true) .zero singleMsg.bytes 5 0 =
        .ok (singleMsg.decoded 5, 16, 2) ∧
      (ChoosesUnused ((singleMsg.decoded 5).withResults fun _ => 0)
          (defaultReadPolicy 3 ((singleMsg.decoded 5).withResults fun _ => 0)
            ((singleMsg.decoded 5).nrDnLocs.signExtend 32)) ↔
        0 < (singleMsg.decoded 5).nrDnLocs.toInt ∨
          (singleMsg.decoded 5).nrDnLocs.toInt < 0 ∧
            3 % (singleMsg.decoded 5).nrDnLocs.signExtend 32 = 0) :=
  ⟨singleMsg_parsed,
    defaultReadPolicy_chooses_iff _ _ _ _ _ _ _ singleMsg_parsed (fun _ => 0) 3⟩

/-- A located request without locations makes the policy divide by zero. -/
theorem defaultReadPolicy_divides_by_zero :
    ¬ ∀ (grants : Allocations) (buf : Bytes) (slbid : BitVec 64) (attempts attempts' : Nat)
      (lr : LocatedRequest) (retcode : Int),
      parseLocatedRequest grants .zero buf slbid attempts = .ok (lr, retcode, attempts') →
        ∀ (results : Nat → Int) (random : BitVec 32),
          ChoosesUnused (lr.withResults results)
            (defaultReadPolicy random (lr.withResults results) (lr.nrDnLocs.signExtend 32)) := by
  intro every
  let msg : LRMsg := ⟨0, 0, [], 0, []⟩
  have parsed : parseLocatedRequest (fun _ => true) .zero msg.bytes 5 0 =
      .ok (msg.decoded 5, 0, 0) := by decide +kernel
  obtain ⟨i, chosen, -⟩ := every _ _ _ _ _ _ _ parsed (fun _ => 0) 3
  cases chosen

end DmsBlkdev
