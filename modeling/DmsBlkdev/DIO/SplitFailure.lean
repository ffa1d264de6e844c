import DmsBlkdev.DIO.SetUp

/-!
# A request that cannot be set up

The failure path of `__Make_DIO_Requst` ends the kernel request through
`DMS_End_Request_Handler`, which does nothing unless an IO request is attached
to it.  None is attached before `__Make_DIO_Requst` has returned, so a kernel
request whose set-up fails is never completed.
-/

namespace DmsBlkdev

section Fuel

variable {grants : Grants} {alf : Nat → BitVec 64}

/-- More rounds do not change how a loop ended. -/
theorem splitLoop_mono {fuel more : Nat} (le : fuel ≤ more) {split : Split}
    (ended : splitLoop grants alf fuel split ≠ .error .running) :
    splitLoop grants alf more split = splitLoop grants alf fuel split := by
  induction fuel generalizing more split with
  | zero => exact absurd rfl ended
  | succ fuel inductionHypothesis =>
      obtain ⟨more, rfl⟩ := Nat.exists_eq_add_one.mpr (Nat.lt_of_lt_of_le (Nat.succ_pos fuel) le)
      rw [splitLoop] at ended
      rw [splitLoop, splitLoop]
      by_cases done : split.nrLBIDs = 0
      · rw [if_pos done, if_pos done]
      · rw [if_neg done] at ended
        rw [if_neg done, if_neg done]
        cases round : splitRound grants alf split with
        | error fault => rfl
        | ok progress =>
            cases progress with
            | failed split => rfl
            | next split =>
                simp only [round] at ended
                exact inductionHypothesis (Nat.le_of_succ_le_succ le) ended

theorem makeDIORequst_mono {fuel more : Nat} (le : fuel ≤ more) {kreq : KRequest}
    (ended : makeDIORequst grants alf fuel kreq .fresh ≠ .error .running) :
    makeDIORequst grants alf more kreq .fresh = makeDIORequst grants alf fuel kreq .fresh := by
  cases granted : grants .ioRequest 0 with
  | false => simp [makeDIORequst, createIORequest, malloc, Memory.fresh, granted]
  | true =>
      obtain ⟨ior, lbList, memory, _, unfolds⟩ := @makeDIORequst_started grants alf kreq granted
      rw [unfolds] at ended
      rw [unfolds, unfolds, splitLoop_mono le]
      intro running
      simp [running] at ended

end Fuel

section Completion

variable {grants : Grants} {alf : Nat → BitVec 64}

/-- `__Make_DIO_Requst` never completes a kernel request that nothing is attached to. -/
theorem makeDIORequst_kreq {fuel : Nat} {kreq kreq' : KRequest} {ior : Option IORequest}
    {memory : Memory} (detached : kreq.special = none)
    (returned : makeDIORequst grants alf fuel kreq .fresh = .ok (ior, kreq', memory)) :
    kreq' = kreq := by
  cases granted : grants .ioRequest 0 with
  | false =>
      obtain ⟨_, refused⟩ := @makeDIORequst_refused grants alf kreq granted fuel
      rw [refused] at returned
      cases returned
      rfl
  | true =>
      obtain ⟨start, lbList, first, _, unfolds⟩ := @makeDIORequst_started grants alf kreq granted
      rw [unfolds] at returned
      split at returned
      case h_1 => cases returned
      case h_2 =>
        cases returned
        rfl
      case h_3 =>
        rw [dmsEndRequestHandler_none detached] at returned
        cases returned
        rfl

variable (grants alf)

/-- `__Make_DIO_Requst` ends, and unless it returns an IO request that covers the kernel request,
it has completed the kernel request once with a failure and released all it made for it. -/
def FailsCleanly (kreq : KRequest) : Prop :=
  ∃ fuel ior kreq' memory, makeDIORequst grants alf fuel kreq .fresh = .ok (ior, kreq', memory) ∧
    ((¬ ∃ set, ior = some set ∧ Covers kreq set) →
      kreq'.FailedOnce ∧ memory.AllReleased grants .dio ∧ memory.AllReleased grants .lbList ∧
        memory.AllReleased grants .lbmd)

/-- The set-up of a request fails cleanly only by not failing. -/
theorem makeDIORequst_failsCleanly_iff (kreq : KRequest) (fresh : kreq.Fresh)
    (nonempty : kreq.nrLBIDs ≠ 0) :
    FailsCleanly grants alf kreq ↔ SetUpGranted grants alf kreq := by
  obtain ⟨detached, notCompleted⟩ := fresh
  constructor
  · rintro ⟨fuel, ior, kreq', memory, returned, clean⟩
    have covered : ∃ set, ior = some set ∧ Covers kreq set := by
      by_contra failed
      obtain ⟨⟨result, _, completed⟩, _⟩ := clean failed
      rw [makeDIORequst_kreq detached returned, notCompleted] at completed
      cases completed
    obtain ⟨set, rfl, covers⟩ := covered
    exact setUpGranted_of_covers nonempty returned covers
  · intro granted
    cases isWrite : kreq.isWrite with
    | true =>
        obtain ⟨fuel, ior, memory, returned, serves⟩ := makeDIORequst_write isWrite granted
        obtain ⟨ranges, blocks⟩ := serves_ranges serves
        refine ⟨fuel, some ior, kreq, memory, returned, fun failed => absurd ?_ failed⟩
        refine ⟨ior, rfl, ?_, blocks⟩
        rw [ranges, (scannedRuns_tiles alf _ _).positions, Nat.add_sub_cancel_left]
    | false =>
        obtain ⟨fuel, ior, memory, returned, covers⟩ :=
          makeDIORequst_read isWrite nonempty granted
        exact ⟨fuel, some ior, kreq, memory, returned,
          fun failed => absurd ⟨ior, rfl, covers⟩ failed⟩

def firstBlockRead : KRequest := ⟨0, 8, false, [⟨0, 1⟩], none, []⟩

theorem makeDIORequst_failsCleanly_firstBlockRead :
    FailsCleanly (fun _ _ => true) (fun _ => 0) firstBlockRead := by
  apply (makeDIORequst_failsCleanly_iff _ _ firstBlockRead ⟨rfl, rfl⟩ (by decide)).mpr
  refine ⟨rfl, rfl, fun _ _ => rfl, fun _ _ => rfl, fun _ _ => rfl, ?_, by simp [firstBlockRead]⟩
  intro lbid
  have members : (grantedSegments (fun _ _ => true) 0 (segments firstBlockRead.bios)).map
      Segment.LBID = [0] := by decide
  have start : firstBlockRead.sLBID = 0 := by decide
  have count : firstBlockRead.nrLBIDs = 1 := by decide
  rw [members, start, count, List.mem_singleton]
  omega

/-- Without memory for the IO request the kernel request is dropped, not completed. -/
theorem makeDIORequst_drops_firstBlockRead :
    ¬ FailsCleanly (fun _ _ => false) (fun _ => 0) firstBlockRead := by
  rintro ⟨fuel, ior, kreq', memory, returned, clean⟩
  obtain ⟨_, refused⟩ := @makeDIORequst_refused (fun _ _ => false) (fun _ => 0) firstBlockRead
    rfl fuel
  rw [refused] at returned
  cases returned
  obtain ⟨⟨result, _, completed⟩, _⟩ := clean (by simp)
  cases completed

end Completion

end DmsBlkdev
