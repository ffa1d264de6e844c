import DmsBlkdev.Completion.Interleaving
import DmsBlkdev.Completion.Result

/-!
# Exactly-once completion

However the commits interleave, each DIO is removed and released by one
thread, and the thread that takes the last DIO off the request, after removing
the last blocks of that DIO, ends the kernel request.
-/

namespace DmsBlkdev

open Lib.Interleaving Committer

/-- Commit `who` removed the last blocks of `addr` and took `addr` off the request when all the
others were off. -/
def LastRemoval (dios : List Nat) (log : List (Nat × Event)) (who addr : Nat) : Prop :=
  ∃ earlier later, log = earlier ++ (who, .removed addr) :: later ∧
    (who, .emptied addr) ∈ earlier ∧
    ∀ other ∈ dios, other ≠ addr → ∃ remover, (remover, .removed other) ∈ earlier

theorem LastRemoval.append {dios : List Nat} {log : List (Nat × Event)} {who addr : Nat}
    (last : LastRemoval dios log who addr) (more : List (Nat × Event)) :
    LastRemoval dios (log ++ more) who addr := by
  obtain ⟨earlier, later, rfl, emptied, others⟩ := last
  exact ⟨earlier, later ++ more, by simp, emptied, others⟩

/-- Every end of the kernel request in a log follows the last removal of its thread. -/
def EndsAfterLast (dios : List Nat) (log : List (Nat × Event)) : Prop :=
  ∀ earlier who result later, log = earlier ++ (who, .ended result) :: later →
    ∃ addr ∈ dios, LastRemoval dios earlier who addr

theorem EndsAfterLast.append {dios : List Nat} {log more : List (Nat × Event)}
    (ends : EndsAfterLast dios log)
    (next : ∀ who result, (who, .ended result) ∈ more →
      ∃ addr ∈ dios, LastRemoval dios log who addr) :
    EndsAfterLast dios (log ++ more) := by
  intro earlier who result later split
  rcases List.append_eq_append_iff.mp split with ⟨gap, rfl, rest⟩ | ⟨gap, rfl, rest⟩
  · obtain ⟨addr, member, last⟩ := next who result (by simp [rest])
    exact ⟨addr, member, last.append gap⟩
  · cases gap with
    | nil =>
        rw [List.append_nil] at next
        rw [List.nil_append] at rest
        exact next who result (rest ▸ List.mem_cons_self)
    | cons entry gap =>
        rw [List.cons_append, List.cons.injEq] at rest
        exact ends earlier who result gap (by rw [rest.1])

def Quiet (log : List (Nat × Event)) : Prop := ∀ entry ∈ log, ∀ result, entry.2 ≠ .ended result

theorem Quiet.endedResults {r r' : Request} {more : List (Nat × Event)} (quiet : Quiet more)
    (log : r'.log = r.log ++ more) : r'.endedResults = r.endedResults := by
  unfold Request.endedResults
  rw [log, List.filterMap_append, List.append_right_eq_self, List.filterMap_eq_nil_iff]
  intro entry member
  cases event : entry.2 with
  | ended result => exact absurd event (quiet entry member result)
  | emptied _ => rfl
  | removed _ => rfl
  | released _ => rfl

theorem Request.endedResults_endRequest (who : Nat) (r : Request) :
    (r.endRequest who).endedResults = r.endedResults ++ [r.result] := by
  simp [Request.endedResults, Request.endRequest, Request.emit]

section Invariant

namespace PC

def closing (pc : PC) : Bool := pc.holding || pc.freeing || pc.freed

end PC

/-- Where a request stands: some thread is on its way to end the kernel request exactly when no DIO
is left on the list. -/
structure RequestInv (dios : List Nat) (r : Request) (threads : List Committer) : Prop where
  each : ∀ addr ∈ dios, DIOInv addr r threads
  targets : ∀ t ∈ threads, t.commit.dio ∈ dios ∧ 0 < t.commit.nrLBIDs
  within : ∀ addr ∈ r.diolist, addr ∈ dios
  sound : ∀ t ∈ threads, t.pc ≠ .fault
  ending : threads.countP (fun t => t.pc.ending) = if r.diolist = [] then 1 else 0
  ended : r.endedResults.length = threads.countP (fun t => t.pc.ended)
  emptiers : ∀ t ∈ threads, t.pc.closing = true → (t.id, .emptied t.commit.dio) ∈ r.log
  last : ∀ t ∈ threads, t.pc.ending = true → LastRemoval dios r.log t.id t.commit.dio
  ends : EndsAfterLast dios r.log

variable {dios : List Nat} {r r' : Request} {t t' : Committer} {before after : List Committer}

inductive Kind (r : Request) (t : Committer) (r' : Request) (t' : Committer) : Prop where
  | plain (more : List (Nat × Event)) : r'.diolist = r.diolist → r'.log = r.log ++ more →
      Quiet more → t'.pc.ending = t.pc.ending → t'.pc.ended = t.pc.ended →
      (t'.pc.closing = true → t.pc.closing = true ∨ (t.id, .emptied t.commit.dio) ∈ more) →
      Kind r t r' t'
  | removal : t.pc = .remove → Kind r t r' t'
  | ending : t.pc = .endRequest → Kind r t r' t'

/-- A step that neither removes nor ends and keeps the class of its thread. -/
theorem Kind.silent (diolist : r'.diolist = r.diolist) (log : r'.log = r.log)
    (ending : t'.pc.ending = t.pc.ending) (ended : t'.pc.ended = t.pc.ended)
    (closing : t'.pc.closing = t.pc.closing) : Kind r t r' t' :=
  .plain [] diolist (by rw [log, List.append_nil]) (by simp [Quiet]) ending ended fun closes =>
    .inl (closing ▸ closes)

theorem next_kind (taken : next r t = some (r', t')) (sound : t'.pc ≠ .fault) :
    Kind r t r' t' := by
  cases here : t.pc with
  | setDIOResult =>
      cases found : r.dios t.commit.dio <;>
        simp only [next, here, Request.setDIOResult, found, Option.map_none, Option.map_some,
          Option.some.injEq, Prod.mk.injEq] at taken <;>
        obtain ⟨rfl, rfl⟩ := taken
      · exact absurd rfl sound
      · exact .silent rfl rfl (by rw [here]; rfl) (by rw [here]; rfl) (by rw [here]; rfl)
  | commitLBList =>
      cases found : r.dios t.commit.dio with
      | none =>
          simp only [next, here, Request.commitLBList, found, Option.map_none, Option.some.injEq,
            Prod.mk.injEq] at taken
          obtain ⟨-, rfl⟩ := taken
          exact absurd rfl sound
      | some dio =>
          cases held : dio.lbList with
          | none =>
              simp only [next, here, Request.commitLBList, found, held, Option.map_some,
                Option.some.injEq, Prod.mk.injEq] at taken
              obtain ⟨rfl, rfl⟩ := taken
              exact .silent rfl rfl (by rw [here]; rfl) (by rw [here]; rfl) (by rw [here]; rfl)
          | some list =>
              have moved := commitLBList_eq t.id t.commit.slbid t.commit.nrLBIDs found held
              by_cases empty : (keptBlocks list t.commit.slbid t.commit.nrLBIDs).blocks = []
              · rw [if_pos empty] at moved
                simp only [next, here, moved, if_true] at taken
                cases taken
                exact .plain [(t.id, .emptied t.commit.dio)] rfl rfl (by simp [Quiet])
                  (by rw [here]; rfl) (by rw [here]; rfl) fun _ => .inr (by simp)
              · rw [if_neg empty] at moved
                simp only [next, here, moved, zero_ne_one, if_false] at taken
                cases taken
                exact .silent rfl rfl (by rw [here]; rfl) (by rw [here]; rfl) (by rw [here]; rfl)
  | readDIOResult =>
      cases found : r.dios t.commit.dio <;>
        simp only [next, here, Request.readDIOResult, found, Option.map_none, Option.map_some,
          Option.some.injEq, Prod.mk.injEq] at taken <;>
        obtain ⟨rfl, rfl⟩ := taken
      · exact absurd rfl sound
      · exact .silent rfl rfl (by rw [here]; rfl) (by rw [here]; rfl) (by rw [here]; rfl)
  | setIORResult result =>
      cases found : r.dios t.commit.dio <;>
        simp only [next, here, Request.setIORResult, found, Option.map_none, Option.map_some,
          Option.some.injEq, Prod.mk.injEq] at taken <;>
        obtain ⟨rfl, rfl⟩ := taken
      · exact absurd rfl sound
      · exact .silent rfl rfl (by rw [here]; rfl) (by rw [here]; rfl) (by rw [here]; rfl)
  | remove => exact .removal here
  | release empty =>
      cases found : r.dios t.commit.dio <;>
        simp only [next, here, Request.release, found, Option.map_none, Option.map_some,
          Option.some.injEq, Prod.mk.injEq] at taken <;>
        obtain ⟨rfl, rfl⟩ := taken
      · exact absurd rfl sound
      · cases empty <;>
          exact .plain [(t.id, .released t.commit.dio)] rfl rfl (by simp [Quiet])
            (by rw [here]; rfl) (by rw [here]; rfl) fun _ => .inl (by rw [here]; rfl)
  | endRequest => exact .ending here
  | finished empty retcode => simp [next, here] at taken
  | fault => simp [next, here] at taken

theorem DIOInv.exists_removed {addr : Nat} {threads : List Committer}
    (inv : DIOInv addr r threads) (absent : addr ∉ r.diolist) :
    ∃ remover, (remover, Event.removed addr) ∈ r.log := by
  have listed := inv.listed
  rw [List.count_eq_zero.mpr absent] at listed
  have often : 0 < (r.log.map Prod.snd).count (.removed addr) := by
    have removed := inv.removed
    unfold Request.happened at removed
    omega
  obtain ⟨⟨remover, event⟩, member, equality⟩ := List.mem_map.mp (List.count_pos_iff.mp often)
  exact ⟨remover, equality ▸ member⟩

theorem forall_replaced {property : Committer → Prop}
    (all : ∀ other ∈ before ++ t :: after, property other) (moved : property t') :
    ∀ other ∈ before ++ t' :: after, property other := by
  intro other member
  rcases List.mem_append.mp member with early | late
  · exact all other (List.mem_append_left _ early)
  · rcases List.mem_cons.mp late with rfl | late
    · exact moved
    · exact all other (List.mem_append_right _ (List.mem_cons_of_mem _ late))

section Step

variable (inv : RequestInv dios r (before ++ t :: after)) (taken : next r t = some (r', t'))

include inv taken

theorem RequestInv.step_targets :
    ∀ other ∈ before ++ t' :: after, other.commit.dio ∈ dios ∧ 0 < other.commit.nrLBIDs := by
  have commit : t'.commit = t.commit := by rw [next_goto taken, goto_commit]
  refine forall_replaced inv.targets ?_
  rw [commit]
  exact inv.targets t (by simp)

/-- The DIO of the thread, and so all DIOs, are in order after its step. -/
theorem RequestInv.step_each :
    t'.pc ≠ .fault ∧ ∀ addr ∈ dios, DIOInv addr r' (before ++ t' :: after) := by
  obtain ⟨own, -⟩ := inv.targets t (by simp)
  obtain ⟨ownAfter, sound⟩ :=
    (inv.each _ own).own_step (fun other member => (inv.targets other member).2) taken
  refine ⟨sound, fun addr member => ?_⟩
  by_cases same : addr = t.commit.dio
  · exact same ▸ ownAfter
  · exact (inv.each addr member).other_step same taken

theorem RequestInv.step_emptiers {more : List (Nat × Event)} (log : r'.log = r.log ++ more)
    (closing : t'.pc.closing = true →
      t.pc.closing = true ∨ (t.id, .emptied t.commit.dio) ∈ more) :
    ∀ other ∈ before ++ t' :: after, other.pc.closing = true →
      (other.id, .emptied other.commit.dio) ∈ r'.log := by
  have commit : t'.commit = t.commit := by rw [next_goto taken, goto_commit]
  have id : t'.id = t.id := by rw [next_goto taken, goto_id]
  rw [log]
  refine forall_replaced (fun other member closes =>
    List.mem_append_left _ (inv.emptiers other member closes)) fun closes => ?_
  rw [id, commit]
  rcases closing closes with closes | now
  · exact List.mem_append_left _ (inv.emptiers t (by simp) closes)
  · exact List.mem_append_right _ now

theorem RequestInv.step_last {more : List (Nat × Event)} (log : r'.log = r.log ++ more)
    (own : t'.pc.ending = true → LastRemoval dios r'.log t.id t.commit.dio) :
    ∀ other ∈ before ++ t' :: after, other.pc.ending = true →
      LastRemoval dios r'.log other.id other.commit.dio := by
  have commit : t'.commit = t.commit := by rw [next_goto taken, goto_commit]
  have id : t'.id = t.id := by rw [next_goto taken, goto_id]
  have others : ∀ other ∈ before ++ t :: after, other.pc.ending = true →
      LastRemoval dios r'.log other.id other.commit.dio := by
    intro other member ends
    rw [log]
    exact (inv.last other member ends).append more
  refine forall_replaced others fun ends => ?_
  rw [id, commit]
  exact own ends

theorem RequestInv.step_plain {more : List (Nat × Event)} (diolist : r'.diolist = r.diolist)
    (log : r'.log = r.log ++ more) (quiet : Quiet more) (endingSame : t'.pc.ending = t.pc.ending)
    (endedSame : t'.pc.ended = t.pc.ended)
    (closing : t'.pc.closing = true →
      t.pc.closing = true ∨ (t.id, .emptied t.commit.dio) ∈ more) :
    RequestInv dios r' (before ++ t' :: after) := by
  obtain ⟨sound, each⟩ := inv.step_each taken
  have ending := inv.ending
  have ended := inv.ended
  simp only [List.countP_append, List.countP_cons] at ending ended
  refine ⟨each, inv.step_targets taken, diolist ▸ inv.within, forall_replaced inv.sound sound, ?_,
    ?_, inv.step_emptiers taken log closing, inv.step_last taken log fun ends => ?_, ?_⟩
  · simpa only [List.countP_append, List.countP_cons, endingSame, diolist] using ending
  · rw [quiet.endedResults log]
    simpa only [List.countP_append, List.countP_cons, endedSame] using ended
  · rw [log]
    exact (inv.last t (by simp) (endingSame ▸ ends)).append more
  · rw [log]
    apply inv.ends.append
    intro who result member
    exact absurd rfl (quiet _ member result)

/-- The thread that takes the last DIO off the list is the one to end the kernel request. -/
theorem RequestInv.step_removal (here : t.pc = .remove) :
    RequestInv dios r' (before ++ t' :: after) := by
  obtain ⟨sound, each⟩ := inv.step_each taken
  have targets := inv.step_targets taken
  obtain ⟨own, -⟩ := inv.targets t (by simp)
  have emptiers := @RequestInv.step_emptiers _ _ _ _ _ _ _ inv taken
  have last := @RequestInv.step_last _ _ _ _ _ _ _ inv taken
  obtain ⟨-, listed, rfl, rfl⟩ := (inv.each _ own).remove_step here taken
  have inhabited : r.diolist ≠ [] := List.ne_nil_of_mem listed
  have phases : t.pc.ending = false ∧ t.pc.ended = false := by
    rw [here]
    exact ⟨rfl, rfl⟩
  have ending := inv.ending
  have ended := inv.ended
  simp only [List.countP_append, List.countP_cons, phases, inhabited, Bool.false_eq_true,
    if_false] at ending ended
  have emptied := inv.emptiers t (by simp) (by rw [here]; rfl)
  refine ⟨each, targets, ?_, forall_replaced inv.sound sound, ?_, ?_,
    emptiers rfl fun _ => .inl (by rw [here]; rfl), last rfl fun ends => ?_, ?_⟩
  · intro addr member
    exact inv.within addr (List.mem_of_mem_erase member)
  · have empties : (PC.release (r.diolist.erase t.commit.dio).isEmpty).ending = true ↔
        r.diolist.erase t.commit.dio = [] := List.isEmpty_iff
    simp only [List.countP_append, List.countP_cons, goto_pc, empties]
    change _ = if r.diolist.erase t.commit.dio = [] then 1 else 0
    by_cases none : r.diolist.erase t.commit.dio = []
    · rw [if_pos none]
      omega
    · rw [if_neg none]
      exact ending
  · have quiet : Quiet [(t.id, Event.removed t.commit.dio)] := by simp [Quiet]
    rw [quiet.endedResults rfl]
    simp only [List.countP_append, List.countP_cons]
    exact ended
  · have none : r.diolist.erase t.commit.dio = [] := List.isEmpty_iff.mp ends
    refine ⟨r.log, [], rfl, emptied, fun other member different => ?_⟩
    apply (inv.each other member).exists_removed
    intro stillListed
    have inErase := (List.mem_erase_of_ne different).mpr stillListed
    simp [none] at inErase
  · apply inv.ends.append
    intro who result member
    simp at member

/-- The kernel request is ended by the thread that took the last DIO off the list. -/
theorem RequestInv.step_ending (here : t.pc = .endRequest) :
    RequestInv dios r' (before ++ t' :: after) := by
  obtain ⟨sound, each⟩ := inv.step_each taken
  have targets := inv.step_targets taken
  obtain ⟨own, -⟩ := inv.targets t (by simp)
  have emptiers := @RequestInv.step_emptiers _ _ _ _ _ _ _ inv taken
  have last := @RequestInv.step_last _ _ _ _ _ _ _ inv taken
  simp only [next, here, Option.some.injEq, Prod.mk.injEq] at taken
  obtain ⟨rfl, rfl⟩ := taken
  have phases : t.pc.ending = true ∧ t.pc.ended = false := by
    rw [here]
    exact ⟨rfl, rfl⟩
  have ending := inv.ending
  have ended := inv.ended
  simp only [List.countP_append, List.countP_cons, phases, Bool.false_eq_true, if_false,
    if_true] at ending ended
  have removal := inv.last t (by simp) (by rw [here]; rfl)
  refine ⟨each, targets, inv.within, forall_replaced inv.sound sound, ?_, ?_,
    emptiers rfl fun _ => .inl (by rw [here]; rfl), last rfl fun _ => removal.append _, ?_⟩
  · have still : (PC.finished 1 1).ending = true := rfl
    simp only [List.countP_append, List.countP_cons, goto_pc, still, if_true]
    exact ending
  · rw [Request.endedResults_endRequest, List.length_append, ended]
    simp only [List.countP_append, List.countP_cons, goto_pc]
    rfl
  · apply inv.ends.append
    intro who result member
    obtain ⟨rfl, -⟩ : who = t.id ∧ _ := by simpa using member
    exact ⟨t.commit.dio, own, removal⟩

theorem RequestInv.step : RequestInv dios r' (before ++ t' :: after) := by
  cases next_kind taken (inv.step_each taken).1 with
  | plain more diolist log quiet ending ended closing =>
      exact inv.step_plain taken diolist log quiet ending ended closing
  | removal here => exact inv.step_removal taken here
  | ending here => exact inv.step_ending taken here

end Step

theorem next_rank (taken : next r t = some (r', t')) : t'.pc.rank < t.pc.rank := by
  unfold next at taken
  split at taken <;> rename_i here <;> rw [here] <;> (try split at taken) <;> cases taken <;>
    simp only [goto_pc, apply_ite PC.rank] <;> simp only [PC.rank] <;> (try split) <;> decide

end Invariant

section Run

/-- Every commit is about to call `Commit_LB_to_DMS_IO`. -/
def launch (r : Request) (commits : List Commit) : Config Request Committer :=
  ⟨r, commits.zipIdx.map fun entry => start entry.2 entry.1⟩

def Finished (config : Config Request Committer) : Prop :=
  ∀ t ∈ config.threads, next config.shared t = none

/-- Nothing happened twice, and the kernel request was ended by nobody but the commit that removed
the last blocks of the last DIO. -/
structure Orderly (dios : List Nat) (r : Request) : Prop where
  removed : ∀ addr ∈ dios, r.happened (.removed addr) ≤ 1
  released : ∀ addr ∈ dios, r.happened (.released addr) ≤ 1
  ended : r.endedResults.length ≤ 1
  ends : EndsAfterLast dios r.log

structure CompletedOnce (dios : List Nat) (r : Request) : Prop where
  removed : ∀ addr ∈ dios, r.happened (.removed addr) = 1
  released : ∀ addr ∈ dios, r.happened (.released addr) = 1
  ended : r.endedResults.length = 1

variable {r : Request} {commits : List Commit} {config : Config Request Committer}

theorem launch_waiting : ∀ t ∈ (launch r commits).threads, t.pc = .setDIOResult := by
  intro t member
  obtain ⟨entry, -, rfl⟩ := List.mem_map.mp member
  rfl

theorem launch_commits : (launch r commits).threads.map Committer.commit = commits := by
  simp [launch, start, Function.comp_def]

theorem tally_launch {addr : Nat} {phase : PC → Bool} (absent : phase .setDIOResult = false) :
    tally addr phase (launch r commits).threads = 0 := by
  apply List.countP_eq_zero.mpr
  intro t member
  simp [launch_waiting t member, absent]

theorem waitingCommits_launch : waitingCommits (launch r commits).threads = commits := by
  unfold waitingCommits
  rw [List.filter_eq_self.mpr, launch_commits]
  intro t member
  rw [launch_waiting t member]
  rfl

theorem InFlight.requestInv (inFlight : InFlight r commits) :
    RequestInv r.diolist r (launch r commits).threads := by
  have targets : ∀ t ∈ (launch r commits).threads,
      t.commit.dio ∈ r.diolist ∧ 0 < t.commit.nrLBIDs := by
    intro t member
    have inCommits := List.mem_map_of_mem (f := Committer.commit) member
    rw [launch_commits] at inCommits
    exact inFlight.ranges t.commit inCommits
  have silent : ∀ event, r.happened event = 0 := by
    simp [Request.happened, inFlight.log]
  have noResult : r.endedResults = [] := by simp [Request.endedResults, inFlight.log]
  refine ⟨fun addr listed => ?_, targets, fun _ listed => listed, ?_, ?_, ?_, ?_, ?_, ?_⟩
  · obtain ⟨dio, list, found, -, held, inhabited, sorted, perm⟩ := inFlight.dios addr listed
    have waits : tally addr PC.waiting (launch r commits).threads ≠ 0 := by
      rw [ne_eq, ← covered_waitingCommits_eq_nil_iff fun t member => (targets t member).2,
        waitingCommits_launch]
      intro none
      rw [none] at perm
      exact inhabited (List.map_eq_nil_iff.mp perm.eq_nil)
    have holding := @tally_launch r commits addr PC.holding rfl
    have freeing := @tally_launch r commits addr PC.freeing rfl
    have freed := @tally_launch r commits addr PC.freed rfl
    refine ⟨.inl ⟨by omega, by omega⟩, ?_, ?_, ?_, ?_, fun _ => ?_⟩
    · rw [freeing, freed, List.count_eq_one_of_mem inFlight.nodup listed]
    · rw [holding, freeing, freed, silent]
    · rw [freeing, freed, silent]
    · rw [freed, silent]
    · rw [waitingCommits_launch]
      exact ⟨dio, list, found, held, sorted, perm⟩
  · intro t member
    simp [launch_waiting t member]
  · rw [if_neg inFlight.inhabited, List.countP_eq_zero]
    intro t member
    simp [launch_waiting t member, PC.ending]
  · rw [noResult, eq_comm, List.length_nil, List.countP_eq_zero]
    intro t member
    simp [launch_waiting t member, PC.ended]
  · intro t member closes
    simp [launch_waiting t member, PC.closing, PC.holding, PC.freeing, PC.freed] at closes
  · intro t member ends
    simp [launch_waiting t member, PC.ending] at ends
  · intro earlier who result later split
    rw [inFlight.log] at split
    simp at split

theorem RequestInv.of_reaches {first last : Config Request Committer} {dios : List Nat}
    (inv : RequestInv dios first.shared first.threads) (reached : Reaches next first last) :
    RequestInv dios last.shared last.threads := by
  refine @invariant_of_reachable _ _
    (fun config : Config Request Committer => RequestInv dios config.shared config.threads)
    _ _ ?_ inv reached
  rintro _ _ inv ⟨taken⟩
  exact inv.step taken

theorem RequestInv.orderly {dios : List Nat} {r : Request} {threads : List Committer}
    (inv : RequestInv dios r threads) : Orderly dios r := by
  have freedOnce : ∀ addr ∈ dios, tally addr PC.freeing threads + tally addr PC.freed threads ≤ 1 := by
    intro addr member
    rcases (inv.each addr member).phase with ⟨-, none⟩ | ⟨-, one⟩ <;> omega
  refine ⟨fun addr member => ?_, fun addr member => ?_, ?_, inv.ends⟩
  · rw [(inv.each addr member).removed]
    exact freedOnce addr member
  · rw [(inv.each addr member).released]
    exact Nat.le_trans (Nat.le_add_left _ _) (freedOnce addr member)
  · have among : threads.countP (fun t => t.pc.ended) ≤ threads.countP (fun t => t.pc.ending) := by
      apply List.countP_mono_left
      intro t _ ended
      cases here : t.pc <;> rw [here] at ended <;> first | exact ended | cases ended
    rw [inv.ended]
    have ending := inv.ending
    split at ending <;> omega

theorem finished_of_stuck {r : Request} {t : Committer} (stuck : next r t = none)
    (sound : t.pc ≠ .fault) : ∃ empty retcode, t.pc = .finished empty retcode := by
  unfold next at stuck
  split at stuck <;> rename_i here <;> (try split at stuck) <;>
    first | exact ⟨_, _, here⟩ | exact absurd here sound | cases stuck

theorem RequestInv.completedOnce {dios : List Nat} (inv : RequestInv dios config.shared config.threads)
    (finished : Finished config) : CompletedOnce dios config.shared := by
  have returned : ∀ t ∈ config.threads, ∃ empty retcode, t.pc = .finished empty retcode :=
    fun t member => finished_of_stuck (finished t member) (inv.sound t member)
  have noneIn : ∀ addr, ∀ phase : PC → Bool,
      (∀ empty retcode, phase (.finished empty retcode) = false) →
        tally addr phase config.threads = 0 := by
    intro addr phase never
    apply List.countP_eq_zero.mpr
    intro t member
    obtain ⟨empty, retcode, here⟩ := returned t member
    simp [here, never]
  have freed : ∀ addr ∈ dios, tally addr PC.freeing config.threads = 0 ∧
      tally addr PC.freed config.threads = 1 := by
    intro addr member
    have waiting := noneIn addr PC.waiting fun _ _ => rfl
    have holding := noneIn addr PC.holding fun _ _ => rfl
    have freeing := noneIn addr PC.freeing fun _ _ => rfl
    rcases (inv.each addr member).phase with ⟨some, -⟩ | ⟨-, one⟩ <;> omega
  have unlisted : config.shared.diolist = [] := by
    apply List.eq_nil_iff_forall_not_mem.mpr
    intro addr listed
    have once := (inv.each addr (inv.within addr listed)).listed
    have present := List.count_pos_iff.mpr listed
    have one := (freed addr (inv.within addr listed)).2
    omega
  refine ⟨fun addr member => ?_, fun addr member => ?_, ?_⟩
  · obtain ⟨none, one⟩ := freed addr member
    rw [(inv.each addr member).removed, none, one]
  · rw [(inv.each addr member).released, (freed addr member).2]
  · have ending := inv.ending
    rw [if_pos unlisted] at ending
    rw [inv.ended, ← ending]
    apply List.countP_congr
    intro t member
    obtain ⟨empty, retcode, here⟩ := returned t member
    rw [here]
    rfl

/-- However the commits of a request interleave: no commit meets a released DIO, nothing happens
twice, the kernel request is ended by the commit that removes the last blocks of the last DIO, every
run can be finished, and then everything happened once. -/
theorem commits_complete_once (inFlight : InFlight r commits)
    (reached : Reaches next (launch r commits) config) :
    (∀ t ∈ config.threads, t.pc ≠ .fault) ∧ Orderly r.diolist config.shared ∧
      (∃ last, Reaches next config last ∧ Finished last) ∧
      (Finished config → CompletedOnce r.diolist config.shared) := by
  have inv := inFlight.requestInv.of_reaches reached
  refine ⟨inv.sound, inv.orderly, ?_, inv.completedOnce⟩
  exact @exists_reaches_stuck _ _ next (fun t => t.pc.rank) (fun _ _ _ _ => next_rank) config

theorem commits_complete_once_twoBlocks :
    ∃ last, Reaches next (launch twoBlockRequest [⟨0, 0, 1, 103⟩, ⟨0, 1, 1, -1003⟩]) last ∧
      Finished last ∧ Orderly twoBlockRequest.diolist last.shared ∧
      CompletedOnce twoBlockRequest.diolist last.shared := by
  have inFlight := twoBlockRequest_inFlight 103 (-1003)
  obtain ⟨-, -, ⟨last, reached, finished⟩, -⟩ := commits_complete_once inFlight .refl
  obtain ⟨-, orderly, -, completed⟩ := commits_complete_once inFlight reached
  exact ⟨last, reached, finished, orderly, completed finished⟩

/-- A call of `Commit_LB_to_DMS_IO` without interruption takes the steps of its thread. -/
theorem runThread_commitLBToDMSIO {t : Committer} {r' : Request} {empty : Int}
    (here : t.pc = .setDIOResult)
    (called : r.commitLBToDMSIO t.id t.commit.dio t.commit.slbid t.commit.nrLBIDs t.commit.result =
      some (r', empty)) :
    ∃ retcode, runThread next 7 r t = (r', t.goto (.finished empty retcode)) := by
  obtain ⟨id, ⟨addr, slbid, nrLBIDs, result⟩, pc⟩ := t
  obtain rfl : pc = .setDIOResult := here
  simp only [Request.commitLBToDMSIO, Option.bind_eq_bind, Option.bind_eq_some_iff] at called
  obtain ⟨offered, offer, ⟨committed, left⟩, commit, rest⟩ := called
  by_cases one : left = 1
  · subst one
    simp only [if_true, Request.commitDIOToIORequest, Option.bind_eq_bind,
      Option.bind_eq_some_iff] at rest
    obtain ⟨value, read, ⟨completed, last⟩, ⟨stored, store, ⟨taken, emptied⟩, remove, finish⟩,
      returned⟩ := rest
    obtain ⟨rfl, rfl⟩ := Prod.mk.inj (Option.some.inj returned)
    obtain ⟨rfl, rfl⟩ := Prod.mk.inj (Option.some.inj finish)
    unfold Request.removeAndReleaseDIOFromIORequest at remove
    rcases removal : stored.removeDIOFromIORequest id addr with ⟨off, found, last⟩
    rw [removal] at remove
    cases found with
    | false =>
        obtain ⟨rfl, rfl⟩ := Prod.mk.inj (Option.some.inj remove)
        exact ⟨dmsFail, by
          simp [runThread, next, offer, commit, read, store, removal, goto, dmsFail]⟩
    | true =>
        obtain ⟨freed, release, equality⟩ := Option.map_eq_some_iff.mp remove
        obtain ⟨rfl, rfl⟩ := Prod.mk.inj equality
        cases last with
        | false =>
            exact ⟨0, by
              simp [runThread, next, offer, commit, read, store, removal, release, goto, truth]⟩
        | true =>
            exact ⟨1, by
              simp [runThread, next, offer, commit, read, store, removal, release, goto, truth]⟩
  · rw [if_neg one] at rest
    obtain ⟨rfl, rfl⟩ := Prod.mk.inj (Option.some.inj rest)
    exact ⟨dmsFail, by simp [runThread, next, offer, commit, one, goto]⟩

theorem commitLBToDMSIO_reaches {t : Committer} (before after : List Committer) {r' : Request}
    {empty : Int} (here : t.pc = .setDIOResult)
    (called : r.commitLBToDMSIO t.id t.commit.dio t.commit.slbid t.commit.nrLBIDs t.commit.result =
      some (r', empty)) :
    ∃ retcode, Reaches next ⟨r, before ++ t :: after⟩
      ⟨r', before ++ t.goto (.finished empty retcode) :: after⟩ := by
  obtain ⟨retcode, run⟩ := runThread_commitLBToDMSIO here called
  have reached := @reaches_runThread _ _ next 7 r t before after
  rw [run] at reached
  exact ⟨retcode, reached⟩

end Run

end DmsBlkdev
