import DmsBlkdev.LogicalBlock.Parts
import DmsBlkdev.Metadata

/-!
# The blocks of a payload tag

The blocks of a located request are sent one by one, looked up from the block
that was sent before.  The flag for more data is added to the flags of the call
and not taken away for the last block.  With the prints of `PALO_DBG` on, no
block is sent: the first of them reads the located request before it is known.
-/

namespace DmsBlkdev

/-- `MSG_MORE`. -/
def msgMore : BitVec 32 := 0x8000

/-- A call of `Recv_Msg` or of `Send_Msg` for the segment of a block. -/
structure Transfer where
  received : Bool
  lbmd : LBMD
  flags : BitVec 32
  deriving DecidableEq, Repr

/-- `__Xmit_LB_Paylaod`: the call that it makes. -/
def xmitLBPayload (op : DMSOp) (lbmd : LBMD) (flags : BitVec 32) : Transfer :=
  match op with
  | .read => ⟨true, lbmd, flags⟩
  | .write | .overwrite => ⟨false, lbmd, flags⟩

section Model

variable (op : DMSOp) (blocks : List LBMD) (lr : LocatedRequest) (answers : Nat → Int)

/-- The rounds that are left of the loop of `__Xmit_Payload_Tag`: the return code and the calls. -/
def xmitRounds : Nat → Nat → Option Nat → BitVec 32 → Int → Option (Int × List Transfer)
  | 0, _, _, _, retcode => some (retcode, [])
  | rounds + 1, i, lbmd, flags, retcode =>
      (getLBMDFromNodeByLBID blocks lbmd ((lr.slbid.toNat + i) % 2 ^ 64)).bind fun
        | none => xmitRounds rounds (i + 1) none flags retcode
        | some lbmd =>
            let flags := flags ||| if (i : Int) < lr.nrLBIDs.toInt - 1 then msgMore else 0
            let result := answers i
            if result < 0 then some (result, [xmitLBPayload op lbmd flags])
            else (xmitRounds rounds (i + 1) (some lbmd.addr) flags (retcode + result)).map
              fun (retcode, later) => (retcode, xmitLBPayload op lbmd flags :: later)

end Model

/-- `__Xmit_Payload_Tag` under a value of `dms_dbg_flag`, with what the call in each round returns.
A pointer that is not legal is `none`. -/
def xmitPayloadTag (dbg : BitVec 32) (op : DMSOp) (lbList : Option (List LBMD))
    (lr : Option LocatedRequest) (answers : Nat → Int) (flags : BitVec 32) :
    Option (Int × List Transfer) :=
  match lbList, lr with
  | some blocks, some lr =>
      -- The print reads `lr->slbid` while `lr` is still null.
      if paloDbg dbg then none
      else xmitRounds op blocks lr answers lr.nrLBIDs.toInt.toNat 0 lr.privateData flags 0
  | _, _ => some (0, [])

section Lookup

variable {blocks : List LBMD} {cur : Option Nat} {lbid : Nat}

/-- The walk starts at the head of the list, or at a block that is not behind the one sought. -/
def StartsBefore (blocks : List LBMD) (cur : Option Nat) (lbid : Nat) : Prop :=
  ∀ addr ∈ cur, ∃ lbmd ∈ blocks, lbmd.addr = addr ∧ lbmd.LBID ≤ lbid

theorem find?_lbid {walk : List LBMD} (held : ∃ lbmd ∈ walk, lbmd.LBID = lbid) :
    ∃ lbmd ∈ walk, lbmd.LBID = lbid ∧
      walk.find? (fun lbmd => decide (lbmd.LBID = lbid)) = some lbmd := by
  obtain ⟨lbmd, member, same⟩ := held
  have isSome : (walk.find? fun lbmd => decide (lbmd.LBID = lbid)).isSome :=
    List.find?_isSome.mpr ⟨lbmd, member, decide_eq_true same⟩
  obtain ⟨first, found⟩ := Option.isSome_iff_exists.mp isSome
  have sameId := @List.find?_some LBMD (fun lbmd => decide (lbmd.LBID = lbid)) _ _ found
  exact ⟨first, List.mem_of_find?_eq_some found, of_decide_eq_true sameId, found⟩

theorem StartsBefore.found (ascending : Ascending blocks) (distinct : (blocks.map LBMD.addr).Nodup)
    (starts : StartsBefore blocks cur lbid) (held : lbid ∈ blocks.map LBMD.LBID) :
    ∃ lbmd ∈ blocks, lbmd.LBID = lbid ∧
      getLBMDFromNodeByLBID blocks cur lbid = some (some lbmd) := by
  obtain ⟨target, member, same⟩ := List.mem_map.mp held
  cases cur with
  | none =>
      obtain ⟨lbmd, onList, sameId, found⟩ := find?_lbid ⟨target, member, same⟩
      exact ⟨lbmd, onList, sameId, congrArg some found⟩
  | some addr =>
      obtain ⟨start, onList, rfl, before⟩ := starts addr rfl
      obtain ⟨passed, rest, rfl⟩ := List.append_of_mem onList
      simp only [Ascending, List.map_append, List.map_cons] at ascending distinct
      have others : ∀ lbmd ∈ passed, lbmd.addr ≠ start.addr := fun lbmd inPassed =>
        (List.nodup_append.mp distinct).2.2 _ (List.mem_map_of_mem inPassed) _ List.mem_cons_self
      have walk : (passed ++ start :: rest).dropWhile (fun lbmd => lbmd.addr ≠ start.addr) =
          start :: rest := by
        rw [List.dropWhile_append_of_pos fun lbmd inPassed => decide_eq_true (others lbmd inPassed)]
        exact List.dropWhile_cons_of_neg (by simp)
      have behind : target ∈ start :: rest := by
        rcases List.mem_append.mp member with inPassed | inRest
        · have less := (List.pairwise_append.mp ascending).2.2 _ (List.mem_map_of_mem inPassed) _
            List.mem_cons_self
          omega
        · exact inRest
      obtain ⟨lbmd, inRest, sameId, found⟩ := find?_lbid ⟨target, behind, same⟩
      refine ⟨lbmd, List.mem_append_right _ inRest, sameId, ?_⟩
      rw [getLBMDFromNodeByLBID]
      simp only [walk, found]

end Lookup

def carriedFlags (lr : LocatedRequest) (flags : BitVec 32) : BitVec 32 :=
  if 1 < lr.nrLBIDs.toInt then flags ||| msgMore else flags

section Rounds

variable {op : DMSOp} {blocks : List LBMD} {lr : LocatedRequest} {answers : Nat → Int}

structure SentRange (op : DMSOp) (blocks : List LBMD) (slbid count : Nat)
    (transfers : List Transfer) : Prop where
  lbids : transfers.map (·.lbmd.LBID) = List.range' slbid count
  onList : ∀ transfer ∈ transfers, transfer.lbmd ∈ blocks
  direction : ∀ transfer ∈ transfers, transfer.received = decide (op = .read)

theorem SentRange.cons {slbid count : Nat} {later : List Transfer} {lbmd : LBMD}
    (onList : lbmd ∈ blocks) (same : lbmd.LBID = slbid) (flags : BitVec 32)
    (sent : SentRange op blocks (slbid + 1) count later) :
    SentRange op blocks slbid (count + 1) (xmitLBPayload op lbmd flags :: later) := by
  have block : (xmitLBPayload op lbmd flags).lbmd = lbmd := by cases op <;> rfl
  refine ⟨?_, ?_, ?_⟩
  · rw [List.map_cons, sent.lbids, List.range'_succ, block, same]
  · exact List.forall_mem_cons.mpr ⟨by rw [block]; exact onList, sent.onList⟩
  · exact List.forall_mem_cons.mpr ⟨by cases op <;> rfl, sent.direction⟩

/-- From a round on whose flags are the ones carried, the rounds send the blocks that are left. -/
theorem xmitRounds_sent (ascending : Ascending blocks) (distinct : (blocks.map LBMD.addr).Nodup)
    (succeed : ∀ round, 0 ≤ answers round) {carried : BitVec 32}
    (kept : ∀ i : Nat, 0 < i →
      (carried ||| if (i : Int) < lr.nrLBIDs.toInt - 1 then msgMore else 0) = carried)
    (rounds : Nat) {i : Nat} {cur : Option Nat} {flags : BitVec 32} (retcode : Int)
    (held : ∀ lbid ∈ List.range' (lr.slbid.toNat + i) rounds,
      lbid ∈ blocks.map LBMD.LBID ∧ lbid < 2 ^ 64)
    (starts : StartsBefore blocks cur (lr.slbid.toNat + i))
    (now : 0 < rounds →
      (flags ||| if (i : Int) < lr.nrLBIDs.toInt - 1 then msgMore else 0) = carried) :
    ∃ total transfers, xmitRounds op blocks lr answers rounds i cur flags retcode =
        some (total, transfers) ∧
      SentRange op blocks (lr.slbid.toNat + i) rounds transfers ∧
      ∀ transfer ∈ transfers, transfer.flags = carried := by
  induction rounds generalizing i cur flags retcode with
  | zero => exact ⟨retcode, [], rfl, ⟨rfl, by simp, by simp⟩, by simp⟩
  | succ rounds inductionHypothesis =>
      rw [List.range'_succ, List.forall_mem_cons] at held
      obtain ⟨⟨here, small⟩, later⟩ := held
      obtain ⟨lbmd, onList, same, found⟩ := starts.found ascending distinct here
      have next : StartsBefore blocks (some lbmd.addr) (lr.slbid.toNat + (i + 1)) := by
        rintro addr ⟨⟩
        exact ⟨lbmd, onList, rfl, by omega⟩
      obtain ⟨total, transfers, done, sent, sentFlags⟩ := @inductionHypothesis (i + 1) _ carried
        (retcode + answers i) later next fun _ => kept (i + 1) (Nat.succ_pos i)
      refine ⟨total, xmitLBPayload op lbmd carried :: transfers, ?_,
        sent.cons onList same carried,
        List.forall_mem_cons.mpr ⟨by cases op <;> rfl, sentFlags⟩⟩
      rw [xmitRounds, Nat.mod_eq_of_lt small, found]
      simp only [Option.bind_some, now (Nat.succ_pos _), if_neg (Int.not_lt.mpr (succeed i)), done,
        Option.map_some]

theorem carriedFlags_kept (flags : BitVec 32) (i : Nat) (later : 0 < i) :
    (carriedFlags lr flags ||| if (i : Int) < lr.nrLBIDs.toInt - 1 then msgMore else 0) =
      carriedFlags lr flags := by
  by_cases more : (i : Int) < lr.nrLBIDs.toInt - 1
  · rw [if_pos more, carriedFlags, if_pos (by omega), BitVec.or_assoc, BitVec.or_self]
  · rw [if_neg more]
    exact BitVec.or_zero

theorem carriedFlags_first (flags : BitVec 32) :
    (flags ||| if ((0 : Nat) : Int) < lr.nrLBIDs.toInt - 1 then msgMore else 0) =
      carriedFlags lr flags := by
  by_cases several : 1 < lr.nrLBIDs.toInt
  · rw [if_pos (by omega), carriedFlags, if_pos several]
  · rw [if_neg (by omega), carriedFlags, if_neg several]
    exact BitVec.or_zero

/-- What a located request promises: its blocks are on the list, and the walk may start where it
says. -/
structure LocatedRequest.OnList (lr : LocatedRequest) (blocks : List LBMD) : Prop where
  ascending : Ascending blocks
  distinct : (blocks.map LBMD.addr).Nodup
  small : ∀ lbmd ∈ blocks, lbmd.LBID < 2 ^ 64
  nonempty : 1 ≤ lr.nrLBIDs.toInt
  held : ∀ i : Nat, (i : Int) < lr.nrLBIDs.toInt → lr.slbid.toNat + i ∈ blocks.map LBMD.LBID
  starts : StartsBefore blocks lr.privateData lr.slbid.toNat

theorem LocatedRequest.OnList.sent {dbg : BitVec 32} (silent : paloDbg dbg = false)
    (onList : lr.OnList blocks) (succeed : ∀ round, 0 ≤ answers round) (flags : BitVec 32) :
    ∃ total transfers,
      xmitPayloadTag dbg op (some blocks) (some lr) answers flags = some (total, transfers) ∧
      SentRange op blocks lr.slbid.toNat lr.nrLBIDs.toInt.toNat transfers ∧
      ∀ transfer ∈ transfers, transfer.flags = carriedFlags lr flags := by
  simp only [xmitPayloadTag, silent, Bool.false_eq_true, if_false]
  refine xmitRounds_sent onList.ascending onList.distinct succeed (carriedFlags_kept flags) _ 0 ?_
    onList.starts fun _ => carriedFlags_first flags
  intro lbid inRange
  obtain ⟨lower, upper⟩ := List.mem_range'_1.mp inRange
  have held := onList.held (lbid - lr.slbid.toNat) (by omega)
  rw [Nat.add_sub_cancel' (by omega)] at held
  obtain ⟨lbmd, member, same⟩ := List.mem_map.mp held
  exact ⟨held, same ▸ onList.small lbmd member⟩

/-- Every call but the last says that more is to come, and the last one has the flags of the
caller. -/
structure MoreUntilLast (flags : BitVec 32) (transfers : List Transfer) : Prop where
  more : ∀ transfer ∈ transfers.dropLast, transfer.flags &&& msgMore = msgMore
  last : ∀ transfer ∈ transfers.getLast?, transfer.flags = flags

theorem or_eq_left_iff {width : Nat} {flags more : BitVec width} :
    flags ||| more = flags ↔ flags &&& more = more := by
  constructor
  · intro same
    rw [← same]
    ext bit
    simpa using fun held => .inr held
  · intro same
    rw [← same]
    ext bit
    simpa using fun held _ => held

theorem moreUntilLast_iff {flags : BitVec 32} {transfers : List Transfer}
    (nonempty : 1 ≤ lr.nrLBIDs.toInt)
    (sent : SentRange op blocks lr.slbid.toNat lr.nrLBIDs.toInt.toNat transfers)
    (carried : ∀ transfer ∈ transfers, transfer.flags = carriedFlags lr flags) :
    MoreUntilLast flags transfers ↔ lr.nrLBIDs.toInt = 1 ∨ flags &&& msgMore = msgMore := by
  have length : transfers.length = lr.nrLBIDs.toInt.toNat := by
    have lengths := congrArg List.length sent.lbids
    rwa [List.length_map, List.length_range'] at lengths
  have some : transfers ≠ [] := by
    rintro rfl
    rw [List.length_nil] at length
    omega
  constructor
  · intro marked
    have same := marked.last _ (List.getLast_mem_getLast? some)
    rw [carried _ (List.getLast_mem some), carriedFlags] at same
    by_cases several : 1 < lr.nrLBIDs.toInt
    · rw [if_pos several] at same
      exact .inr (or_eq_left_iff.mp same)
    · exact .inl (by omega)
  · rintro (single | already)
    · obtain ⟨transfer, rfl⟩ := List.length_eq_one_iff.mp (length.trans (by rw [single]; rfl))
      refine ⟨by simp, ?_⟩
      rintro last ⟨⟩
      have flagsOf := carried transfer List.mem_cons_self
      rw [carriedFlags, if_neg (by omega)] at flagsOf
      exact flagsOf
    · have same : carriedFlags lr flags = flags := by
        rw [carriedFlags, or_eq_left_iff.mpr already, ite_self]
      refine ⟨fun transfer early => ?_, fun transfer last => ?_⟩
      · rw [carried _ (List.mem_of_mem_dropLast early), same, already]
      · rw [carried _ (List.mem_of_getLast? last), same]

/-- The blocks of the request are sent in order, and the flags are right at the end exactly when the
print is off, and there is one block or the caller asked for more data already. -/
theorem xmitPayloadTag_marked_iff (dbg : BitVec 32) (onList : lr.OnList blocks)
    (succeed : ∀ round, 0 ≤ answers round) (flags : BitVec 32) :
    (∃ total transfers,
      xmitPayloadTag dbg op (some blocks) (some lr) answers flags = some (total, transfers) ∧
        SentRange op blocks lr.slbid.toNat lr.nrLBIDs.toInt.toNat transfers ∧
        MoreUntilLast flags transfers) ↔
    paloDbg dbg = false ∧ (lr.nrLBIDs.toInt = 1 ∨ flags &&& msgMore = msgMore) := by
  cases printed : paloDbg dbg with
  | true => simp [xmitPayloadTag, printed]
  | false =>
      obtain ⟨total, transfers, done, sent, carried⟩ := onList.sent printed succeed flags
      rw [← moreUntilLast_iff onList.nonempty sent carried]
      constructor
      · rintro ⟨_, others, again, _, marked⟩
        obtain ⟨-, rfl⟩ := Prod.mk.inj (Option.some.inj (done.symm.trans again))
        exact ⟨rfl, marked⟩
      · exact fun ⟨_, marked⟩ => ⟨total, transfers, done, sent, marked⟩

end Rounds

def twoBlocksRequest : LocatedRequest := { LocatedRequest.zero with slbid := 5, nrLBIDs := 2 }

theorem twoBlocksRequest_onList : twoBlocksRequest.OnList twoBlocks where
  ascending := by decide
  distinct := by decide
  small := by decide
  nonempty := by decide
  held := by
    intro i inside
    have two : (i : Int) < 2 := inside
    obtain rfl | rfl : i = 0 ∨ i = 1 := by omega
    · decide
    · decide
  starts := by
    rintro addr ⟨⟩

/-- With the prints off, and the flag for more data set by the caller, both blocks are sent as the
caller said. -/
theorem xmitPayloadTag_marked_example :
    (∃ total transfers,
      xmitPayloadTag 0 .write (some twoBlocks) (some twoBlocksRequest) (fun _ => 4096) msgMore =
          some (total, transfers) ∧
        SentRange .write twoBlocks twoBlocksRequest.slbid.toNat
          twoBlocksRequest.nrLBIDs.toInt.toNat transfers ∧
        MoreUntilLast msgMore transfers) ↔
    paloDbg 0 = false ∧
      (twoBlocksRequest.nrLBIDs.toInt = 1 ∨ msgMore &&& msgMore = msgMore) :=
  xmitPayloadTag_marked_iff 0 twoBlocksRequest_onList (fun _ => by decide) msgMore

/-- The second of two blocks is sent as if more were to come; with the prints as they are set, not
even the first one is sent. -/
theorem xmitPayloadTag_lastMarked :
    xmitPayloadTag dmsDbgFlag .write (some twoBlocks) (some twoBlocksRequest) (fun _ => 4096) 0 =
        none ∧
      ¬ ∀ (op : DMSOp) (blocks : List LBMD) (lr : LocatedRequest) (answers : Nat → Int)
        (flags : BitVec 32), lr.OnList blocks → (∀ round, 0 ≤ answers round) →
        ∃ total transfers,
          xmitPayloadTag 0 op (some blocks) (some lr) answers flags = some (total, transfers) ∧
            SentRange op blocks lr.slbid.toNat lr.nrLBIDs.toInt.toNat transfers ∧
            MoreUntilLast flags transfers := by
  refine ⟨rfl, fun all => ?_⟩
  obtain ⟨total, transfers, done, -, marked⟩ := all .write twoBlocks twoBlocksRequest
    (fun _ => 4096) 0 twoBlocksRequest_onList (fun _ => by decide)
  have sent : some (total, transfers) = some (8192,
      [⟨false, ⟨1, 5, 0, 0⟩, msgMore⟩, ⟨false, ⟨2, 6, 0, 1⟩, msgMore⟩]) :=
    done.symm.trans (by decide)
  obtain ⟨-, rfl⟩ := Prod.mk.inj (Option.some.inj sent)
  exact absurd (marked.last _ rfl) (by decide)

end DmsBlkdev
