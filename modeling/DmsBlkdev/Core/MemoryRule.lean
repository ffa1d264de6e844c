import DmsBlkdev.Core.LocationPrint
import DmsBlkdev.Lib.Multiplicity

/-!
# When memory acks commit a located request

The rule is to commit to the user when every replica has acked to memory.  The
counter counts replies, and an error after a memory ack of the same datanode is
counted once more, if the print that goes before it comes back.
-/

namespace DmsBlkdev

open Lib.Atomic

structure Reply where
  dnlIndex : Nat
  ack : Int
  deriving DecidableEq, Repr

/-- What one datanode delivers, as far as it has come: a memory ack and then a disk ack, or an
error in place of either. -/
def Script : List Int → Prop
  | [] => True
  | [first] => IsMemAck first ∨ IsErrorReply first
  | [first, second] => (IsMemAck first ∨ IsErrorReply first) ∧
      (IsDiskAck second ∨ IsErrorReply second)
  | _ => False

instance : DecidablePred Script
  | [] => inferInstanceAs (Decidable True)
  | [first] => inferInstanceAs (Decidable (IsMemAck first ∨ IsErrorReply first))
  | [first, second] => inferInstanceAs (Decidable ((IsMemAck first ∨ IsErrorReply first) ∧
      (IsDiskAck second ∨ IsErrorReply second)))
  | _ :: _ :: _ :: _ => inferInstanceAs (Decidable False)

theorem Script.length_le {acks : List Int} (script : Script acks) : acks.length ≤ 2 := by
  match acks, script with
  | [], _ => simp
  | [_], _ => simp
  | [_, _], _ => simp

def acksFrom (dnlIndex : Nat) (replies : List Reply) : List Int :=
  (replies.filter fun reply => reply.dnlIndex = dnlIndex).map Reply.ack

/-- An order of the replies of `n` datanodes. -/
structure ReplyOrder (n : Nat) (replies : List Reply) : Prop where
  located : ∀ reply ∈ replies, reply.dnlIndex < n
  scripts : ∀ dnlIndex < n, Script (acksFrom dnlIndex replies)

/-- Both counters of the located request start at its number of locations. -/
structure Awaits (n : Nat) (lr : LocatedRequest) : Prop where
  wmemAck : lr.wmemAck = BitVec.ofNat 32 n
  wdiskAck : lr.wdiskAck = BitVec.ofNat 32 n
  locations : lr.dnLocs.length = n
  positive : 0 < n
  short : n < 2 ^ 15

/-- The located request after some replies; none where the print of one did not come back. -/
def afterReplies (env : PrintSurroundings) (op : DMSOp) (lr : LocatedRequest) (replies : List Reply) :
    Option LocatedRequest :=
  replies.foldlM (fun lr reply =>
    (printAndUpdatePolicy env op lr reply.dnlIndex reply.ack).map Prod.fst) lr

/-- The policy is called for the last of some replies, and asks to commit. -/
def AsksAfter (env : PrintSurroundings) (op : DMSOp) (lr : LocatedRequest) (earlier : List Reply)
    (reply : Reply) : Prop :=
  ∃ before after retcode, afterReplies env op lr earlier = some before ∧
    printAndUpdatePolicy env op before reply.dnlIndex reply.ack = some (after, retcode) ∧
    AsksCommit retcode

/-- Asking to commit before any disk ack waits for a reply of every datanode. -/
def MemoryRule (env : PrintSurroundings) (op : DMSOp) (n : Nat) (lr : LocatedRequest)
    (replies : List Reply) : Prop :=
  ∀ earlier reply later, replies = earlier ++ reply :: later →
    AsksAfter env op lr earlier reply →
    (∀ other ∈ earlier ++ [reply], ¬ IsDiskAck other.ack) →
    ∀ dnlIndex < n, dnlIndex ∈ (earlier ++ [reply]).map Reply.dnlIndex

def Stuck (env : PrintSurroundings) (lr : LocatedRequest) (reply : Reply) : Prop :=
  IsErrorReply reply.ack ∧ lr.prints env reply.dnlIndex = false

instance (env : PrintSurroundings) (lr : LocatedRequest) : DecidablePred (Stuck env lr) :=
  fun _ => inferInstanceAs (Decidable (_ ∧ _))

def countReplies (op : DMSOp) (lr : LocatedRequest) (replies : List Reply) : LocatedRequest :=
  replies.foldl (fun lr reply =>
    (updateAndCommitToUserPolicy op lr reply.dnlIndex reply.ack).1) lr

section Prints

variable {env : PrintSurroundings} {op : DMSOp} {lr after : LocatedRequest} {replies : List Reply}

theorem printAndUpdatePolicy_some {dnlIndex : Nat} {ack : Int} {result : LocatedRequest × Int} :
    printAndUpdatePolicy env op lr dnlIndex ack = some result ↔
      ¬ Stuck env lr ⟨dnlIndex, ack⟩ ∧ updateAndCommitToUserPolicy op lr dnlIndex ack = result := by
  unfold printAndUpdatePolicy Stuck
  split
  · next stuck => simp [stuck]
  · next through => simp [through]

/-- A reply changes nothing that decides about a print. -/
theorem stuck_update (dnlIndex : Nat) (ack : Int) (reply : Reply) :
    Stuck env (updateAndCommitToUserPolicy op lr dnlIndex ack).1 reply ↔ Stuck env lr reply := by
  rw [Stuck, Stuck, updatePolicy_prints]

theorem afterReplies_some : afterReplies env op lr replies = some after ↔
    (∀ reply ∈ replies, ¬ Stuck env lr reply) ∧ countReplies op lr replies = after := by
  induction replies generalizing lr with
  | nil => simp [afterReplies, countReplies]
  | cons reply rest inductionHypothesis =>
      have step : afterReplies env op lr (reply :: rest) = some after ↔
          ∃ next, (∃ retcode,
              printAndUpdatePolicy env op lr reply.dnlIndex reply.ack = some (next, retcode)) ∧
            afterReplies env op next rest = some after := by
        simp [afterReplies, Option.bind_eq_some_iff]
      rw [step]
      simp only [printAndUpdatePolicy_some, inductionHypothesis, List.forall_mem_cons]
      constructor
      · rintro ⟨next, ⟨retcode, here, counted⟩, later, rfl⟩
        have first : (updateAndCommitToUserPolicy op lr reply.dnlIndex reply.ack).1 = next :=
          congrArg Prod.fst counted
        subst first
        exact ⟨⟨here, fun other member => mt (stuck_update _ _ _).mpr (later other member)⟩, rfl⟩
      · rintro ⟨⟨here, later⟩, rfl⟩
        exact ⟨_, ⟨_, here, rfl⟩,
          fun other member => mt (stuck_update _ _ _).mp (later other member), rfl⟩

theorem stuck_countReplies (replies : List Reply) (reply : Reply) :
    Stuck env (countReplies op lr replies) reply ↔ Stuck env lr reply := by
  induction replies generalizing lr with
  | nil => exact Iff.rfl
  | cons first rest inductionHypothesis =>
      rw [countReplies, List.foldl_cons, ← countReplies, inductionHypothesis, stuck_update]

theorem asksAfter_iff (earlier : List Reply) (reply : Reply) :
    AsksAfter env op lr earlier reply ↔
      (∀ other ∈ earlier ++ [reply], ¬ Stuck env lr other) ∧
        AsksCommit (updateAndCommitToUserPolicy op (countReplies op lr earlier) reply.dnlIndex
          reply.ack).2 := by
  simp only [AsksAfter, afterReplies_some, printAndUpdatePolicy_some, List.forall_mem_append,
    List.forall_mem_singleton]
  constructor
  · rintro ⟨_, after, retcode, ⟨through, rfl⟩, ⟨here, counted⟩, asks⟩
    refine ⟨⟨through, mt (stuck_countReplies _ _).mpr here⟩, ?_⟩
    rw [counted]
    exact asks
  · rintro ⟨⟨through, here⟩, asks⟩
    exact ⟨_, _, _, ⟨through, rfl⟩, ⟨mt (stuck_countReplies _ _).mp here, rfl⟩, asks⟩

end Prints

section Counters

variable {op : DMSOp} {n : Nat} {lr : LocatedRequest} {replies : List Reply}

theorem ReplyOrder.length_le (order : ReplyOrder n replies) : replies.length ≤ 2 * n := by
  apply Lib.Multiplicity.length_le order.located
  intro dnlIndex small
  have script := (order.scripts dnlIndex small).length_le
  rwa [acksFrom, List.length_map, ← List.countP_eq_length_filter] at script

theorem Awaits.counters (start : Awaits n lr) (located : ∀ reply ∈ replies, reply.dnlIndex < n) :
    (countReplies op lr replies).wmemAck =
        countdown 32 n (replies.countP fun reply => CountsMem op reply.ack) ∧
      (countReplies op lr replies).wdiskAck =
        countdown 32 n (replies.countP fun reply => CountsDisk op reply.ack) ∧
      (countReplies op lr replies).dnLocs.length = n := by
  induction replies using List.reverseRecOn with
  | nil => simp [countReplies, start.wmemAck, start.wdiskAck, start.locations]
  | append_singleton replies reply inductionHypothesis =>
      obtain ⟨wmemAck, wdiskAck, locations⟩ := inductionHypothesis fun other member =>
        located other (List.mem_append_left _ member)
      have inside : reply.dnlIndex < (countReplies op lr replies).dnLocs.length := by
        rw [locations]
        exact located reply (by simp)
      have step : countReplies op lr (replies ++ [reply]) =
          (countAck op ((countReplies op lr replies).setDnResult reply.dnlIndex reply.ack)
            reply.ack).1 := by
        rw [countReplies, List.foldl_append]
        simp only [List.foldl_cons, List.foldl_nil]
        exact congrArg Prod.fst (if_pos inside)
      have counted := countAck_counted op
        ((countReplies op lr replies).setDnResult reply.dnlIndex reply.ack) reply.ack
      rw [step, counted.wmemAck, counted.wdiskAck, counted.locations, setDnResult_wmemAck,
        setDnResult_wdiskAck, setDnResult_length, wmemAck, wdiskAck, locations]
      simp only [List.countP_append, List.countP_singleton, decide_eq_true_eq]
      refine ⟨?_, ?_, trivial⟩
      · split
        · exact countdown_sub_one ..
        · rfl
      · split
        · exact countdown_sub_one ..
        · rfl

theorem ReplyOrder.kind (order : ReplyOrder n replies) {reply : Reply} (member : reply ∈ replies) :
    IsMemAck reply.ack ∨ IsDiskAck reply.ack ∨ IsErrorReply reply.ack := by
  have script := order.scripts reply.dnlIndex (order.located reply member)
  have delivered : reply.ack ∈ acksFrom reply.dnlIndex replies :=
    List.mem_map_of_mem (List.mem_filter.mpr ⟨member, by simp⟩)
  match acks : acksFrom reply.dnlIndex replies, script with
  | [], _ => simp [acks] at delivered
  | [first], script =>
      obtain rfl : reply.ack = first := by simpa [acks] using delivered
      exact script.imp_right .inr
  | [first, second], ⟨early, late⟩ =>
      rw [acks, List.mem_cons, List.mem_singleton] at delivered
      rcases delivered with here | here <;> rw [here]
      · exact early.imp_right .inr
      · exact .inr late

/-- The counts of the replies stay within one turn of the counters. -/
theorem Awaits.asksCommit_iff (start : Awaits n lr) (order : ReplyOrder n replies)
    {earlier later : List Reply} {reply : Reply} (split : replies = earlier ++ reply :: later) :
    AsksCommit (updateAndCommitToUserPolicy op (countReplies op lr earlier)
        reply.dnlIndex reply.ack).2 ↔
      (CountsDisk op reply.ack ∧
        ((earlier.countP fun reply => CountsDisk op reply.ack) + 1 = n ∨
          ¬ CountsMem op reply.ack)) ∨
      (CountsMem op reply.ack ∧ (earlier.countP fun reply => CountsMem op reply.ack) + 1 = n) := by
  have located : ∀ other ∈ earlier, other.dnlIndex < n := by
    intro other member
    apply order.located
    rw [split]
    exact List.mem_append_left _ member
  obtain ⟨wmemAck, wdiskAck, locations⟩ := @Awaits.counters op _ _ _ start located
  have inside : reply.dnlIndex < (countReplies op lr earlier).dnLocs.length := by
    rw [locations]
    exact order.located reply (by simp [split])
  have last : ∀ count ≤ earlier.length, countdown 32 n count = 1 ↔ count + 1 = n := by
    intro count among
    have long := order.length_le
    have short := start.short
    have positive := start.positive
    rw [split, List.length_append, List.length_cons] at long
    have tested := congrArg Prod.snd (@decAndTest_countdown_of_lt 32 n count (by omega) (by omega))
    rw [decAndTest_snd, decide_eq_decide] at tested
    rw [tested]
    exact eq_comm
  rw [updateAndCommitToUserPolicy, if_pos inside, asksCommit_countAck, setDnResult_wdiskAck,
    setDnResult_wmemAck, wmemAck, wdiskAck, last _ List.countP_le_length,
    last _ List.countP_le_length]

end Counters

section Rule

variable {env : PrintSurroundings} {op : DMSOp} {n : Nat} {lr : LocatedRequest} {replies : List Reply}

theorem ReplyOrder.countsMem (order : ReplyOrder n replies) (writes : op ≠ .read) {reply : Reply}
    (member : reply ∈ replies) (noDisk : ¬ IsDiskAck reply.ack) : CountsMem op reply.ack := by
  rcases order.kind member with mem | disk | error
  · exact .inl mem
  · exact absurd disk noDisk
  · exact .inr ⟨error, writes⟩

theorem Awaits.asksCommit_write (start : Awaits n lr) (order : ReplyOrder n replies)
    (writes : op ≠ .read) {earlier later : List Reply} {reply : Reply}
    (split : replies = earlier ++ reply :: later)
    (noDisk : ∀ other ∈ earlier ++ [reply], ¬ IsDiskAck other.ack) :
    AsksCommit (updateAndCommitToUserPolicy op (countReplies op lr earlier)
        reply.dnlIndex reply.ack).2 ↔
      (CountsDisk op reply.ack ∧ (earlier.countP fun reply => CountsDisk op reply.ack) + 1 = n) ∨
        earlier.length + 1 = n := by
  have counts : ∀ other ∈ earlier ++ [reply], CountsMem op other.ack := by
    intro other member
    refine order.countsMem writes ?_ (noDisk other member)
    rw [split, List.append_cons]
    exact List.mem_append_left _ member
  have own : CountsMem op reply.ack := counts reply (by simp)
  have all : (earlier.countP fun reply => CountsMem op reply.ack) = earlier.length := by
    apply List.countP_eq_length.mpr
    intro other member
    exact decide_eq_true (counts other (List.mem_append_left _ member))
  rw [start.asksCommit_iff order split, all]
  simp [own]

theorem memoryRule_write (start : Awaits n lr) (order : ReplyOrder n replies)
    (writes : op ≠ .read) :
    MemoryRule env op n lr replies ↔ replies.length < n ∨
      (∃ reply ∈ replies.take n, IsDiskAck reply.ack) ∨
        ((replies.take n).map Reply.dnlIndex).Nodup ∨
          ∃ reply ∈ replies.take n, Stuck env lr reply := by
  have bounded : ∀ dnlIndex ∈ (replies.take n).map Reply.dnlIndex, dnlIndex < n := by
    intro dnlIndex member
    obtain ⟨reply, inFirst, rfl⟩ := List.mem_map.mp member
    exact order.located reply (List.mem_of_mem_take inFirst)
  constructor
  · intro rule
    by_contra violated
    simp only [not_or, Nat.not_lt, not_exists, not_and] at violated
    obtain ⟨long, noDisk, repeated, through⟩ := violated
    have positive := start.positive
    obtain ⟨reply, nth⟩ : ∃ reply, replies[n - 1]? = some reply :=
      ⟨_, List.getElem?_eq_getElem (by omega)⟩
    have firstN : replies.take (n - 1) ++ [reply] = replies.take n := by
      have grown := List.take_add_one (l := replies) (i := n - 1)
      rw [nth, Nat.sub_add_cancel positive] at grown
      exact grown.symm
    have split : replies = replies.take (n - 1) ++ reply :: replies.drop n := by
      rw [List.append_cons, firstN, List.take_append_drop]
    apply repeated
    rw [Lib.Multiplicity.nodup_iff_complete (by simp [long]) bounded, ← firstN]
    refine rule _ reply _ split ?_ (by rwa [firstN])
    rw [asksAfter_iff, firstN, start.asksCommit_write order writes split (by rwa [firstN])]
    refine ⟨through, .inr ?_⟩
    rw [List.length_take, Nat.min_eq_left (by omega), Nat.sub_add_cancel positive]
  · intro condition earlier reply later split asks noDisk dnlIndex small
    obtain ⟨through, asks⟩ := (asksAfter_iff ..).mp asks
    have grown : n ≤ earlier.length + 1 := by
      rcases (start.asksCommit_write order writes split noDisk).mp asks with ⟨-, enough⟩ | enough
      · have among := List.countP_le_length (p := fun reply : Reply => CountsDisk op reply.ack)
          (l := earlier)
        omega
      · exact Nat.le_of_eq enough.symm
    have within : replies.take n <+: earlier ++ [reply] := by
      have pre : earlier ++ [reply] <+: replies := ⟨later, by simp [split]⟩
      rw [List.prefix_iff_eq_take.mp pre]
      exact List.take_prefix_take_left (by simpa using grown)
    rcases condition with early | ⟨other, inFirst, disk⟩ | distinct | ⟨other, inFirst, stuck⟩
    · have long := congrArg List.length split
      rw [List.length_append, List.length_cons] at long
      omega
    · exact absurd disk (noDisk other (within.mem inFirst))
    · have long : n ≤ replies.length := by
        rw [split, List.length_append, List.length_cons]
        omega
      have complete := (Lib.Multiplicity.nodup_iff_complete (by simp [long]) bounded).mp distinct
      exact (within.map Reply.dnlIndex).mem (complete dnlIndex small)
    · exact absurd stuck (through other (within.mem inFirst))

theorem Script.countP_isMemAck {acks : List Int} (script : Script acks) :
    (acks.countP fun ack => IsMemAck ack) ≤ 1 := by
  match acks, script with
  | [], _ => simp
  | [first], _ => exact List.countP_le_length
  | [first, second], ⟨_, late⟩ =>
      have notMem : ¬ IsMemAck second := by
        rcases late with (rfl | rfl) | (rfl | rfl | rfl | rfl | rfl) <;> decide
      rw [List.countP_cons, List.countP_singleton, if_neg (by simpa using notMem)]
      split <;> omega

/-- For a read, errors do not count, and a datanode sends one memory ack at most. -/
theorem memoryRule_read (start : Awaits n lr) (order : ReplyOrder n replies) :
    MemoryRule env .read n lr replies := by
  intro earlier reply later split asks noDisk dnlIndex small
  obtain ⟨-, asks⟩ := (asksAfter_iff ..).mp asks
  have pre : earlier ++ [reply] <+: replies := ⟨later, by simp [split]⟩
  have counts : ∀ ack, CountsMem .read ack ↔ IsMemAck ack := by simp [CountsMem]
  have noDiskCount : ¬ CountsDisk .read reply.ack := by
    have notRead : reply.ack ≠ readAck := by
      intro read
      have kind := order.kind (pre.mem (by simp : reply ∈ earlier ++ [reply]))
      rw [read] at kind
      revert kind
      decide
    simp [CountsDisk, noDisk reply (by simp), notRead]
  rw [start.asksCommit_iff order split] at asks
  simp only [noDiskCount, false_and, false_or, counts] at asks
  obtain ⟨mem, enough⟩ := asks
  let acked := (earlier ++ [reply]).filter fun reply => IsMemAck reply.ack
  have long : (acked.map Reply.dnlIndex).length = n := by
    rw [List.length_map, ← List.countP_eq_length_filter, List.countP_append, List.countP_singleton,
      if_pos (by simpa using mem), enough]
  have bounded : ∀ k ∈ acked.map Reply.dnlIndex, k < n := by
    intro k member
    obtain ⟨other, inAcked, rfl⟩ := List.mem_map.mp member
    exact order.located other (pre.mem (List.mem_of_mem_filter inAcked))
  have distinct : (acked.map Reply.dnlIndex).Nodup := by
    rw [List.nodup_iff_count_le_one]
    intro k
    by_cases inside : k < n
    · have once := (order.scripts k inside).countP_isMemAck
      rw [acksFrom, List.countP_map, List.countP_filter] at once
      rw [List.count, List.countP_map, List.countP_filter]
      refine Nat.le_trans pre.sublist.countP_le (Nat.le_trans ?_ once)
      apply List.countP_mono_left
      intro other _ both
      simpa [and_comm] using both
    · rw [List.count_eq_zero_of_not_mem (mt (bounded k) inside)]
      exact Nat.zero_le 1
  have complete := (Lib.Multiplicity.nodup_iff_complete long bounded).mp distinct dnlIndex small
  exact (List.filter_sublist.map Reply.dnlIndex).mem complete

def twoReplicas : LocatedRequest :=
  { LocatedRequest.zero with
    nrLBIDs := 6
    nrDnLocs := 2
    dnLocs := [listLikeLocation, listLikeLocation]
    wmemAck := 2
    wdiskAck := 2 }

theorem twoReplicas_awaits : Awaits 2 twoReplicas := by
  constructor <;> first | rfl | decide

end Rule

end DmsBlkdev
