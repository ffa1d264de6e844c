import DmsBlkdev.Namenode.Parse

/-!
# The response format

A response as the namenode sends it, with the counts as they stand on the
wire.  The parser gets through a buffer exactly when a response that its counts
agree with stands there, up to its first located request without locations.
-/

namespace DmsBlkdev

open Lib.Wire

structure LocationMsg where
  ip : BitVec 32
  port : BitVec 16
  nrTriplets : BitVec 32
  triplets : List (BitVec 64)
  deriving DecidableEq, Repr

structure LRMsg where
  state : BitVec 16
  nrHBIDs : BitVec 16
  hbids : List (BitVec 64)
  nrDnLocs : BitVec 16
  locs : List LocationMsg
  deriving DecidableEq, Repr

structure ResponseMsg where
  volumeID : BitVec 64
  startLBID : BitVec 64
  nrLBIDs : BitVec 16
  commitID : BitVec 64
  nrLRs : BitVec 16
  lrs : List LRMsg
  deriving DecidableEq, Repr

def longBytes (values : List (BitVec 64)) : Bytes := values.flatMap (wordBytes 8)

@[simp] theorem longBytes_length (values : List (BitVec 64)) :
    (longBytes values).length = 8 * values.length := by
  induction values with
  | nil => rfl
  | cons value rest inductionHypothesis =>
      simp only [longBytes, List.flatMap_cons, List.length_append, wordBytes_length,
        List.length_cons] at inductionHypothesis ⊢
      omega

def tableAllocations (count : Int) : Nat := if 0 < count then count.toNat + 1 else 0

/-- The next `count` allocations succeed. -/
def Granted (grants : Allocations) (attempts count : Nat) : Prop :=
  ∀ k < count, grants (attempts + k) = true

namespace LocationMsg

def bytes (msg : LocationMsg) : Bytes :=
  wordBytes 4 msg.ip ++ wordBytes 2 msg.port ++ wordBytes 4 msg.nrTriplets ++
    longBytes msg.triplets

def decoded (msg : LocationMsg) : DatanodeLocation :=
  ⟨msg.ip, msg.port, msg.nrTriplets.setWidth 16, msg.triplets, 0⟩

/-- The triplets are as many as the parser reads, and fit their array. -/
structure Fits (msg : LocationMsg) : Prop where
  triplets : msg.triplets.length = (msg.nrTriplets.setWidth 16).toInt.toNat
  room : msg.triplets.length ≤ arrayLength

@[simp] theorem bytes_length (msg : LocationMsg) :
    msg.bytes.length = 10 + 8 * msg.triplets.length := by
  simp [bytes]
  omega

end LocationMsg

namespace LRMsg

def bytes (msg : LRMsg) : Bytes :=
  wordBytes 2 msg.state ++ wordBytes 2 msg.nrHBIDs ++ longBytes msg.hbids ++
    wordBytes 2 msg.nrDnLocs ++ msg.locs.flatMap LocationMsg.bytes

def decoded (msg : LRMsg) (slbid : BitVec 64) : LocatedRequest :=
  { LocatedRequest.zero with
    slbid := slbid
    nrLBIDs := msg.nrHBIDs
    lrState := msg.state
    nrHBIDs := msg.nrHBIDs
    hbids := msg.hbids
    nrDnLocs := msg.nrDnLocs
    dnLocs := msg.locs.map LocationMsg.decoded }

structure Fits (msg : LRMsg) : Prop where
  hbids : msg.hbids.length = msg.nrHBIDs.toInt.toNat
  room : msg.hbids.length ≤ arrayLength
  count : msg.locs.length = msg.nrDnLocs.toInt.toNat
  locs : ∀ loc ∈ msg.locs, loc.Fits

def allocations (msg : LRMsg) : Nat := tableAllocations msg.nrDnLocs.toInt

end LRMsg

namespace ResponseMsg

def front (msg : ResponseMsg) : Bytes :=
  wordBytes 8 msg.volumeID ++ wordBytes 8 msg.startLBID ++ wordBytes 2 msg.nrLBIDs ++
    wordBytes 8 msg.commitID ++ wordBytes 2 msg.nrLRs

def bytes (msg : ResponseMsg) : Bytes := msg.front ++ msg.lrs.flatMap LRMsg.bytes

@[simp] theorem front_length (msg : ResponseMsg) : msg.front.length = 28 := by
  simp [front]

end ResponseMsg

section Read

variable {buf : Bytes} {offset : Nat}

theorem readNetBuf_eq_ok {width : Nat} (positive : 0 < width) {word : BitVec (8 * width)}
    {offset' : Nat} : readNetBuf buf offset width = .ok (word, offset') ↔
      Stands buf offset (wordBytes width word) ∧ offset' = offset + width := by
  rw [← read_eq_some_iff positive, readNetBuf]
  cases read width buf offset with
  | none => simp
  | some found => simp [eq_comm]

theorem readLongs_eq_ok {rounds : Nat} {stored all : List (BitVec 64)} {offset' : Nat}
    (room : stored.length ≤ arrayLength) :
    readLongs buf rounds offset stored = .ok (all, offset') ↔
      ∃ values, values.length = rounds ∧ Stands buf offset (longBytes values) ∧
        stored.length + rounds ≤ arrayLength ∧ all = stored ++ values ∧
        offset' = offset + 8 * rounds := by
  induction rounds generalizing offset stored with
  | zero =>
      constructor
      · intro done
        cases done
        exact ⟨[], rfl, stands_nil, room, by simp, rfl⟩
      · rintro ⟨values, none, -, -, rfl, rfl⟩
        obtain rfl := List.eq_nil_of_length_eq_zero none
        simp [readLongs]
  | succ rounds inductionHypothesis =>
      simp only [readLongs, bind_eq_ok, Prod.exists]
      constructor
      · rintro ⟨value, behind, taken, rest⟩
        obtain ⟨stands, rfl⟩ := (readNetBuf_eq_ok (by decide)).mp taken
        split at rest
        · next space =>
            have grown : (stored ++ [value]).length ≤ arrayLength := by
              rw [List.length_append]
              exact space
            obtain ⟨values, rfl, standsRest, fits, rfl, rfl⟩ := (inductionHypothesis grown).mp rest
            rw [List.length_append, List.length_singleton] at fits
            refine ⟨value :: values, rfl, ?_, by omega, by simp, by omega⟩
            rw [longBytes, List.flatMap_cons, stands_append, wordBytes_length]
            exact ⟨stands, standsRest⟩
        · cases rest
      · rintro ⟨values, length, stands, fits, rfl, rfl⟩
        obtain ⟨value, values, rfl⟩ := List.exists_cons_of_length_eq_add_one length
        rw [longBytes, List.flatMap_cons, stands_append, wordBytes_length] at stands
        refine ⟨value, offset + 8, (readNetBuf_eq_ok (by decide)).mpr ⟨stands.1, rfl⟩, ?_⟩
        have space : stored.length < arrayLength := by omega
        have grown : (stored ++ [value]).length ≤ arrayLength := by
          rw [List.length_append]
          exact space
        rw [if_pos space, inductionHypothesis grown]
        refine ⟨values, by simpa using length, stands.2, ?_, by simp, by omega⟩
        rw [List.length_append, List.length_singleton]
        omega

theorem parseDatanodeLocation_eq_ok {dnLoc : DatanodeLocation} {offset' : Nat} :
    parseDatanodeLocation buf .zero offset = .ok (dnLoc, offset') ↔
      ∃ msg : LocationMsg, msg.Fits ∧ Stands buf offset msg.bytes ∧ dnLoc = msg.decoded ∧
        offset' = offset + msg.bytes.length := by
  have empty : ([] : List (BitVec 64)).length ≤ arrayLength := Nat.zero_le _
  simp only [parseDatanodeLocation, bind_eq_ok, Prod.exists, LocationMsg.bytes, stands_append]
  constructor
  · rintro ⟨ip, _, readIp, port, _, readPort, nrTriplets, _, readCount, triplets, _, loop, done⟩
    obtain ⟨standsIp, rfl⟩ := (readNetBuf_eq_ok (by decide)).mp readIp
    obtain ⟨standsPort, rfl⟩ := (readNetBuf_eq_ok (by decide)).mp readPort
    obtain ⟨standsCount, rfl⟩ := (readNetBuf_eq_ok (by decide)).mp readCount
    obtain ⟨values, length, standsTriplets, room, all, rfl⟩ := (readLongs_eq_ok empty).mp loop
    rw [List.nil_append] at all
    subst all
    cases done
    refine ⟨⟨ip, port, nrTriplets, triplets⟩, ⟨length, by simpa [length] using room⟩, ?_, rfl, ?_⟩
    · simpa using ⟨⟨⟨standsIp, standsPort⟩, standsCount⟩, standsTriplets⟩
    · simp [length]
      omega
  · rintro ⟨⟨ip, port, nrTriplets, triplets⟩, ⟨length, room⟩, stands, rfl, rfl⟩
    obtain ⟨⟨⟨standsIp, standsPort⟩, standsCount⟩, standsTriplets⟩ := stands
    simp only [List.length_append, wordBytes_length, ← Nat.add_assoc] at *
    refine ⟨ip, _, (readNetBuf_eq_ok (by decide)).mpr ⟨standsIp, rfl⟩, port, _,
      (readNetBuf_eq_ok (by decide)).mpr ⟨standsPort, rfl⟩, nrTriplets, _,
      (readNetBuf_eq_ok (by decide)).mpr ⟨standsCount, rfl⟩, triplets, _,
      (readLongs_eq_ok empty).mpr ⟨triplets, length, standsTriplets, by simpa [length] using room,
        rfl, rfl⟩, ?_⟩
    simp [LocationMsg.decoded, length, DatanodeLocation.zero, pure, Except.pure]

end Read

section Allocate

variable {grants : Allocations} {attempts : Nat}

theorem granted_add {first second : Nat} : Granted grants attempts (first + second) ↔
    Granted grants attempts first ∧ Granted grants (attempts + first) second := by
  constructor
  · intro all
    refine ⟨fun k small => all k (by omega), fun k small => ?_⟩
    rw [Nat.add_assoc]
    exact all (first + k) (by omega)
  · rintro ⟨early, late⟩ k small
    by_cases inFirst : k < first
    · exact early k inFirst
    · have behind := late (k - first) (by omega)
      rwa [Nat.add_assoc, Nat.add_sub_of_le (Nat.le_of_not_lt inFirst)] at behind

@[simp] theorem granted_zero : Granted grants attempts 0 := fun _ small => absurd small (by omega)

theorem granted_succ {count : Nat} : Granted grants attempts (count + 1) ↔
    grants attempts = true ∧ Granted grants (attempts + 1) count := by
  rw [Nat.add_comm, granted_add]
  refine and_congr_left' ⟨fun all => all 0 (by decide), fun granted k small => ?_⟩
  obtain rfl : k = 0 := by omega
  exact granted

theorem createEntries_eq_ok {Entry : Type} {zero : Entry} {table : Bool} {count attempts' : Nat}
    {entries : List Entry} :
    createEntries grants zero table count attempts = .ok (entries, attempts') ↔
      (count = 0 ∨ table = true) ∧ Granted grants attempts count ∧
        entries = List.replicate count zero ∧ attempts' = attempts + count := by
  induction count generalizing attempts attempts' entries with
  | zero => simp [createEntries, eq_comm]
  | succ count inductionHypothesis =>
      rw [granted_succ, createEntries]
      by_cases granted : grants attempts = true ∧ table = true
      · obtain ⟨first, rfl⟩ := granted
        simp only [first, Bool.and_self, if_true, bind_eq_ok, Prod.exists, inductionHypothesis]
        constructor
        · rintro ⟨rest, _, ⟨-, grantedRest, rfl, rfl⟩, done⟩
          cases done
          exact ⟨.inr trivial, ⟨trivial, grantedRest⟩, rfl, by omega⟩
        · rintro ⟨-, ⟨-, grantedRest⟩, rfl, rfl⟩
          refine ⟨_, _, ⟨.inr trivial, grantedRest, rfl, rfl⟩, ?_⟩
          rw [Nat.add_right_comm]
          rfl
      · have refused : (grants attempts && table) = false := by simpa using granted
        simp only [refused, Bool.false_eq_true, if_false]
        constructor
        · nofun
        · rintro ⟨none | there, ⟨first, -⟩, -⟩
          · omega
          · exact absurd ⟨first, there⟩ granted

theorem createTable_eq_ok {Entry : Type} {zero : Entry} {count : Int} {attempts' : Nat}
    {table : Option (List Entry)} :
    createTable grants zero count attempts = .ok (table, attempts') ↔
      Granted grants attempts (tableAllocations count) ∧
        table = (if count < 0 then none else some (List.replicate count.toNat zero)) ∧
        attempts' = attempts + tableAllocations count := by
  unfold createTable tableAllocations
  by_cases negative : count < 0
  · have notPositive : ¬ 0 < count := by omega
    simp [negative, notPositive, eq_comm]
  · by_cases none : count = 0
    · subst none
      simp [eq_comm]
    · have positive : 0 < count := by omega
      simp only [negative, none, positive, if_true, if_false, bind_eq_ok, Prod.exists,
        createEntries_eq_ok]
      rw [granted_succ]
      constructor
      · rintro ⟨entries, _, ⟨there, granted, rfl, rfl⟩, done⟩
        cases done
        exact ⟨⟨there.resolve_left (by omega), granted⟩, rfl, by omega⟩
      · rintro ⟨⟨first, granted⟩, rfl, rfl⟩
        refine ⟨_, _, ⟨.inr first, granted, rfl, rfl⟩, ?_⟩
        rw [Nat.add_right_comm]
        rfl

end Allocate

section LocatedRequest

variable {grants : Allocations} {buf : Bytes} {attempts : Nat}

def LocationMsg.allBytes (locs : List LocationMsg) : Bytes := locs.flatMap LocationMsg.bytes

theorem LocationMsg.allBytes_eq_nil {locs : List LocationMsg} :
    (LocationMsg.allBytes locs).length = 0 ↔ locs = [] := by
  constructor
  · intro empty
    cases locs with
    | nil => rfl
    | cons loc rest =>
        rw [LocationMsg.allBytes, List.flatMap_cons, List.length_append, loc.bytes_length] at empty
        omega
  · rintro rfl
    rfl

theorem parseDatanodeLocationTable_eq_ok {count offset offset' : Nat}
    {dnLocs : List DatanodeLocation} :
    parseDatanodeLocationTable buf (List.replicate count .zero) offset = .ok (dnLocs, offset') ↔
      ∃ locs : List LocationMsg, locs.length = count ∧ (∀ loc ∈ locs, loc.Fits) ∧
        Stands buf offset (LocationMsg.allBytes locs) ∧ dnLocs = locs.map LocationMsg.decoded ∧
        offset' = offset + (LocationMsg.allBytes locs).length := by
  induction count generalizing offset offset' dnLocs with
  | zero =>
      constructor
      · intro done
        cases done
        exact ⟨[], rfl, nofun, stands_nil, rfl, rfl⟩
      · rintro ⟨locs, none, -, -, rfl, rfl⟩
        obtain rfl := List.eq_nil_of_length_eq_zero none
        rfl
  | succ count inductionHypothesis =>
      simp only [List.replicate_succ, parseDatanodeLocationTable, bind_eq_ok, Prod.exists,
        parseDatanodeLocation_eq_ok, inductionHypothesis]
      constructor
      · rintro ⟨dnLoc, _, ⟨loc, fits, stands, rfl, rfl⟩, rest, _,
          ⟨locs, rfl, fitsRest, standsRest, rfl, rfl⟩, done⟩
        cases done
        refine ⟨loc :: locs, rfl, List.forall_mem_cons.mpr ⟨fits, fitsRest⟩,
          stands_append.mpr ⟨stands, standsRest⟩, rfl, ?_⟩
        rw [LocationMsg.allBytes, LocationMsg.allBytes, List.flatMap_cons, List.length_append,
          Nat.add_assoc]
      · rintro ⟨locs, length, fits, stands, rfl, rfl⟩
        obtain ⟨loc, locs, rfl⟩ := List.exists_cons_of_length_eq_add_one length
        obtain ⟨first, fitsRest⟩ := List.forall_mem_cons.mp fits
        obtain ⟨front, behind⟩ := stands_append.mp stands
        refine ⟨_, _, ⟨loc, first, front, rfl, rfl⟩, _, _,
          ⟨locs, by simpa using length, fitsRest, behind, rfl, rfl⟩, ?_⟩
        rw [LocationMsg.allBytes, LocationMsg.allBytes, List.flatMap_cons, List.length_append,
          Nat.add_assoc]
        rfl

theorem parseDatanodeLocations_eq_ok {lr lr' : LocatedRequest} {retcode attempts' : Nat} :
    parseDatanodeLocations grants lr buf attempts = .ok (lr', retcode, attempts') ↔
      ∃ locs : List LocationMsg, locs.length = lr.nrDnLocs.toInt.toNat ∧
        (∀ loc ∈ locs, loc.Fits) ∧ Stands buf 0 (LocationMsg.allBytes locs) ∧
        Granted grants attempts (tableAllocations lr.nrDnLocs.toInt) ∧
        lr' = { lr with dnLocs := locs.map LocationMsg.decoded } ∧
        retcode = (LocationMsg.allBytes locs).length ∧
        attempts' = attempts + tableAllocations lr.nrDnLocs.toInt := by
  -- without a table there is no round, just as for an empty one
  have rounds : (if lr.nrDnLocs.toInt < 0 then (none : Option (List DatanodeLocation))
      else some (List.replicate lr.nrDnLocs.toInt.toNat .zero)).getD [] =
        List.replicate lr.nrDnLocs.toInt.toNat .zero := by
    split
    · next negative => rw [Int.toNat_of_nonpos (Int.le_of_lt negative)]; rfl
    · rfl
  simp only [parseDatanodeLocations, createDatanodeLocations, bind_eq_ok, Prod.exists,
    createTable_eq_ok]
  constructor
  · rintro ⟨table, _, ⟨granted, rfl, rfl⟩, dnLocs, offset, loop, done⟩
    rw [rounds, parseDatanodeLocationTable_eq_ok] at loop
    obtain ⟨locs, length, fits, stands, rfl, rfl⟩ := loop
    cases done
    exact ⟨locs, length, fits, stands, granted, rfl, by rw [Nat.zero_add], rfl⟩
  · rintro ⟨locs, length, fits, stands, granted, rfl, rfl, rfl⟩
    refine ⟨_, _, ⟨granted, rfl, rfl⟩, _, _, ?_, rfl⟩
    rw [rounds, parseDatanodeLocationTable_eq_ok]
    exact ⟨locs, length, fits, stands, rfl, by rw [Nat.zero_add]⟩

theorem LRMsg.stands_bytes {msg : LRMsg} : Stands buf 0 msg.bytes ↔
    Stands buf 0 (wordBytes 2 msg.state) ∧ Stands buf 2 (wordBytes 2 msg.nrHBIDs) ∧
      Stands buf 4 (longBytes msg.hbids) ∧
      Stands buf (4 + 8 * msg.hbids.length) (wordBytes 2 msg.nrDnLocs) ∧
      Stands (buf.drop (4 + 8 * msg.hbids.length + 2)) 0 (LocationMsg.allBytes msg.locs) := by
  simp only [LRMsg.bytes, LocationMsg.allBytes, stands_append, stands_drop, List.length_append,
    wordBytes_length, longBytes_length, Nat.zero_add, Nat.add_zero, Nat.reduceAdd, and_assoc,
    ← Nat.add_assoc]

theorem LRMsg.bytes_length (msg : LRMsg) : msg.bytes.length =
    (LocationMsg.allBytes msg.locs).length + (4 + 8 * msg.hbids.length + 2) := by
  simp only [LRMsg.bytes, LocationMsg.allBytes, List.length_append, wordBytes_length,
    longBytes_length]
  omega

/-- `Parse_Located_Request` gets through exactly where a located request stands; its return code is
not positive when there are no locations. -/
theorem parseLocatedRequest_eq_ok {lr : LocatedRequest} {slbid : BitVec 64} {retcode : Int}
    {attempts' : Nat} :
    parseLocatedRequest grants .zero buf slbid attempts = .ok (lr, retcode, attempts') ↔
      ∃ msg : LRMsg, msg.Fits ∧ Stands buf 0 msg.bytes ∧
        Granted grants attempts msg.allocations ∧ lr = msg.decoded slbid ∧
        retcode = (if msg.locs = [] then 0 else (msg.bytes.length : Int)) ∧
        attempts' = attempts + msg.allocations := by
  have empty : ([] : List (BitVec 64)).length ≤ arrayLength := Nat.zero_le _
  have code : ∀ msg : LRMsg, (if 0 < (LocationMsg.allBytes msg.locs).length then
      ((LocationMsg.allBytes msg.locs).length : Int) + (4 + 8 * msg.hbids.length + 2 : Nat)
      else (LocationMsg.allBytes msg.locs).length) =
        if msg.locs = [] then 0 else (msg.bytes.length : Int) := by
    intro msg
    rw [msg.bytes_length]
    by_cases none : msg.locs = []
    · rw [if_pos none, LocationMsg.allBytes_eq_nil.mpr none]
      rfl
    · have some := mt LocationMsg.allBytes_eq_nil.mp none
      rw [if_neg none, if_pos (Nat.pos_of_ne_zero some)]
      omega
  simp only [parseLocatedRequest, bind_eq_ok, Prod.exists]
  constructor
  · rintro ⟨state, _, readState, nrHBIDs, _, readCount, hbids, _, loop, nrDnLocs, _, readLocs,
      lr', offset, _, table, done⟩
    obtain ⟨standsState, rfl⟩ := (readNetBuf_eq_ok (by decide)).mp readState
    obtain ⟨standsCount, rfl⟩ := (readNetBuf_eq_ok (by decide)).mp readCount
    obtain ⟨values, length, standsHBIDs, room, all, rfl⟩ := (readLongs_eq_ok empty).mp loop
    rw [List.nil_append] at all
    subst all
    obtain ⟨standsLocs, rfl⟩ := (readNetBuf_eq_ok (by decide)).mp readLocs
    obtain ⟨locs, count, fits, stands, granted, rfl, rfl, rfl⟩ :=
      parseDatanodeLocations_eq_ok.mp table
    rw [← length] at standsLocs stands room done
    cases done
    let msg : LRMsg := ⟨state, nrHBIDs, hbids, nrDnLocs, locs⟩
    refine ⟨msg, ⟨length, by simpa using room, count, fits⟩, ?_, granted, rfl, code msg, rfl⟩
    exact LRMsg.stands_bytes.mpr ⟨standsState, standsCount, standsHBIDs, standsLocs, stands⟩
  · rintro ⟨msg, fits, stands, granted, rfl, rfl, rfl⟩
    obtain ⟨standsState, standsCount, standsHBIDs, standsLocs, stands⟩ :=
      LRMsg.stands_bytes.mp stands
    refine ⟨msg.state, _, (readNetBuf_eq_ok (by decide)).mpr ⟨standsState, rfl⟩, msg.nrHBIDs, _,
      (readNetBuf_eq_ok (by decide)).mpr ⟨standsCount, rfl⟩, msg.hbids, _,
      (readLongs_eq_ok empty).mpr ⟨msg.hbids, fits.hbids, standsHBIDs, ?_, rfl, rfl⟩, msg.nrDnLocs,
      _, (readNetBuf_eq_ok (by decide)).mpr ⟨?_, rfl⟩, _, _, _,
      parseDatanodeLocations_eq_ok.mpr ⟨msg.locs, fits.count, fits.locs, ?_, granted, rfl, rfl,
        rfl⟩, ?_⟩
    · rw [← fits.hbids, List.length_nil, Nat.zero_add]
      exact fits.room
    · rw [← fits.hbids]
      exact standsLocs
    · rw [← fits.hbids]
      exact stands
    · rw [← code msg, ← fits.hbids]
      rfl

end LocatedRequest

section LocatedRequests

variable {grants : Allocations} {buf : Bytes}

/-- The located requests that a loop of `rounds` rounds gets to: it ends with the first one that
has no locations. -/
def Reached : Nat → List LRMsg → Prop
  | 0, msgs => msgs = []
  | _ + 1, [] => False
  | rounds + 1, msg :: rest => if msg.locs = [] then rest = [] else Reached rounds rest

def Located (msgs : List LRMsg) : Prop := ∀ msg ∈ msgs, msg.locs ≠ []

instance (msgs : List LRMsg) : Decidable (Located msgs) := by
  unfold Located
  infer_instance

theorem located_cons {msg : LRMsg} {rest : List LRMsg} :
    Located (msg :: rest) ↔ msg.locs ≠ [] ∧ Located rest := List.forall_mem_cons

theorem located_nil : Located [] := nofun

theorem Reached.length_le {rounds : Nat} {msgs : List LRMsg} (reached : Reached rounds msgs) :
    msgs.length ≤ rounds := by
  induction rounds generalizing msgs with
  | zero => simp_all [Reached]
  | succ rounds inductionHypothesis =>
      cases msgs with
      | nil => exact Nat.zero_le _
      | cons msg rest =>
          rw [Reached] at reached
          split at reached
          · simp [reached]
          · exact Nat.succ_le_succ (inductionHypothesis reached)

theorem reached_of_located {msgs : List LRMsg} (located : Located msgs) :
    Reached msgs.length msgs := by
  induction msgs with
  | nil => rfl
  | cons msg rest inductionHypothesis =>
      obtain ⟨some, locatedRest⟩ := located_cons.mp located
      rw [List.length_cons, Reached, if_neg some]
      exact inductionHypothesis locatedRest

theorem Reached.length_eq {rounds : Nat} {msgs : List LRMsg} (reached : Reached rounds msgs)
    (located : Located msgs) : msgs.length = rounds := by
  induction rounds generalizing msgs with
  | zero => simp_all [Reached]
  | succ rounds inductionHypothesis =>
      cases msgs with
      | nil => exact reached.elim
      | cons msg rest =>
          obtain ⟨some, locatedRest⟩ := located_cons.mp located
          rw [Reached, if_neg some] at reached
          rw [List.length_cons, inductionHypothesis reached locatedRest]

def LRMsg.allBytes (msgs : List LRMsg) : Bytes := msgs.flatMap LRMsg.bytes

theorem LRMsg.allBytes_cons {msg : LRMsg} {rest : List LRMsg} :
    LRMsg.allBytes (msg :: rest) = msg.bytes ++ LRMsg.allBytes rest := List.flatMap_cons

def LRMsg.allAllocations (msgs : List LRMsg) : Nat := (msgs.map LRMsg.allocations).sum

/-- The located requests as the loop stores them: each begins where the one before it ended. -/
def LRMsg.decodedFrom (slbid : BitVec 64) : BitVec 16 → List LRMsg → List LocatedRequest
  | _, [] => []
  | lbidOffset, msg :: rest =>
      msg.decoded (slbid + lbidOffset.signExtend 64) ::
        decodedFrom slbid (lbidOffset + msg.nrHBIDs) rest

theorem wrapInt_natCast {value : Nat} (small : value < 2 ^ 31) : wrapInt value = value := by
  unfold wrapInt
  rw [Int.bmod_eq_of_le] <;> omega

/-- One round: the located request that stands at the offset is stored; the loop goes on behind it,
unless it has no locations. -/
theorem parseLocatedRequests_succ (short : buf.length < 2 ^ 31) {slbid : BitVec 64}
    {rounds offset attempts attempts' : Nat} {lbidOffset : BitVec 16} {lrs : List LocatedRequest}
    {retcode : Int} (inside : offset ≤ buf.length) :
    parseLocatedRequests grants slbid buf (List.replicate (rounds + 1) .zero) offset lbidOffset
        attempts = .ok (lrs, retcode, attempts') ↔
      ∃ msg : LRMsg, msg.Fits ∧ Stands buf offset msg.bytes ∧
        Granted grants attempts msg.allocations ∧
        if msg.locs = [] then
          lrs = msg.decoded (slbid + lbidOffset.signExtend 64) :: List.replicate rounds .zero ∧
            retcode = 0 ∧ attempts' = attempts + msg.allocations
        else ∃ rest, parseLocatedRequests grants slbid buf (List.replicate rounds .zero)
              (offset + msg.bytes.length : Nat) (lbidOffset + msg.nrHBIDs)
              (attempts + msg.allocations) = .ok (rest, retcode, attempts') ∧
            lrs = msg.decoded (slbid + lbidOffset.signExtend 64) :: rest := by
  have forward : ¬ (offset : Int) < 0 := by omega
  simp only [List.replicate_succ, parseLocatedRequests, if_neg forward, Int.toNat_natCast,
    bind_eq_ok, Prod.exists, parseLocatedRequest_eq_ok, stands_drop, Nat.add_zero]
  -- what follows the round, for the request that stands there
  have follows (msg : LRMsg) (stands : Stands buf offset msg.bytes) (some : msg.locs ≠ []) :
      0 < (msg.bytes.length : Int) ∧
        wrapInt (offset + msg.bytes.length) = (offset + msg.bytes.length : Nat) := by
    have within : offset + msg.bytes.length ≤ buf.length := stands.inside inside
    refine ⟨?_, ?_⟩
    · rw [msg.bytes_length]
      omega
    · rw [← Nat.cast_add, wrapInt_natCast (by omega)]
  constructor
  · rintro ⟨lr, code, attemptsRest, ⟨msg, fits, stands, granted, rfl, rfl, rfl⟩, rest⟩
    refine ⟨msg, fits, stands, granted, ?_⟩
    by_cases none : msg.locs = []
    · rw [if_pos none, if_neg (by decide)] at rest
      cases rest
      rw [if_pos none]
      exact ⟨rfl, rfl, rfl⟩
    · obtain ⟨positive, next⟩ := follows msg stands none
      rw [if_neg none, if_pos positive, next] at rest
      simp only [bind_eq_ok, Prod.exists] at rest
      obtain ⟨others, code, attemptsEnd, loop, done⟩ := rest
      cases done
      rw [if_neg none]
      exact ⟨others, loop, rfl⟩
  · rintro ⟨msg, fits, stands, granted, rest⟩
    refine ⟨_, _, _, ⟨msg, fits, stands, granted, rfl, rfl, rfl⟩, ?_⟩
    by_cases none : msg.locs = []
    · rw [if_pos none] at rest
      obtain ⟨rfl, rfl, rfl⟩ := rest
      rw [if_pos none, if_neg (by decide)]
      rfl
    · rw [if_neg none] at rest
      obtain ⟨others, loop, rfl⟩ := rest
      obtain ⟨positive, next⟩ := follows msg stands none
      rw [if_neg none, if_pos positive, next]
      simp only [bind_eq_ok, Prod.exists]
      exact ⟨_, _, _, loop, rfl⟩

/-- In a buffer whose offsets fit an `int`, the loop gets through exactly where located requests
stand; its return code is then where they end, unless one without locations stopped it. -/
theorem parseLocatedRequests_eq_ok (short : buf.length < 2 ^ 31) {slbid : BitVec 64}
    {rounds offset attempts attempts' : Nat} {lbidOffset : BitVec 16} {lrs : List LocatedRequest}
    {retcode : Int} (inside : offset ≤ buf.length) :
    parseLocatedRequests grants slbid buf (List.replicate rounds .zero) offset lbidOffset attempts =
        .ok (lrs, retcode, attempts') ↔
      ∃ msgs, Reached rounds msgs ∧ (∀ msg ∈ msgs, msg.Fits) ∧
        Stands buf offset (LRMsg.allBytes msgs) ∧
        Granted grants attempts (LRMsg.allAllocations msgs) ∧
        lrs = LRMsg.decodedFrom slbid lbidOffset msgs ++
          List.replicate (rounds - msgs.length) .zero ∧
        retcode = (if Located msgs then (offset + (LRMsg.allBytes msgs).length : Int) else 0) ∧
        attempts' = attempts + LRMsg.allAllocations msgs := by
  induction rounds generalizing offset lbidOffset attempts lrs retcode attempts' with
  | zero =>
      constructor
      · intro done
        cases done
        refine ⟨[], rfl, nofun, stands_nil, granted_zero, rfl, ?_, rfl⟩
        rw [if_pos located_nil]
        simp [LRMsg.allBytes]
      · rintro ⟨msgs, rfl, -, -, -, rfl, rfl, rfl⟩
        rw [if_pos located_nil]
        simp [LRMsg.allBytes, LRMsg.decodedFrom, parseLocatedRequests]
  | succ rounds inductionHypothesis =>
      rw [parseLocatedRequests_succ short inside]
      constructor
      · rintro ⟨msg, fits, stands, granted, rest⟩
        by_cases none : msg.locs = []
        · rw [if_pos none] at rest
          obtain ⟨rfl, rfl, rfl⟩ := rest
          refine ⟨[msg], by simp [Reached, none], by simpa using fits, ?_, ?_, rfl, ?_, rfl⟩
          · simpa [LRMsg.allBytes] using stands
          · simpa [LRMsg.allAllocations] using granted
          · rw [if_neg (fun located => (located_cons.mp located).1 none)]
        · rw [if_neg none] at rest
          obtain ⟨others, loop, rfl⟩ := rest
          obtain ⟨msgs, reached, fitsRest, standsRest, grantedRest, rfl, rfl, rfl⟩ :=
            (inductionHypothesis (stands.inside inside)).mp loop
          refine ⟨msg :: msgs, by simpa [Reached, none] using reached,
            List.forall_mem_cons.mpr ⟨fits, fitsRest⟩, ?_, ?_, ?_, ?_, ?_⟩
          · rw [LRMsg.allBytes_cons, stands_append]
            exact ⟨stands, standsRest⟩
          · exact granted_add.mpr ⟨granted, grantedRest⟩
          · rw [List.length_cons, Nat.add_sub_add_right]
            rfl
          · simp only [located_cons, ne_eq, none, not_false_eq_true, true_and,
              LRMsg.allBytes_cons, List.length_append, Nat.cast_add, ← Int.add_assoc]
          · simp only [LRMsg.allAllocations, List.map_cons, List.sum_cons, Nat.add_assoc]
      · rintro ⟨msgs, reached, fits, stands, granted, rfl, rfl, rfl⟩
        cases msgs with
        | nil => exact reached.elim
        | cons msg msgs =>
            obtain ⟨fit, fitsRest⟩ := List.forall_mem_cons.mp fits
            rw [LRMsg.allBytes_cons, stands_append] at stands
            obtain ⟨first, grantedRest⟩ := granted_add.mp granted
            refine ⟨msg, fit, stands.1, first, ?_⟩
            rw [Reached] at reached
            by_cases none : msg.locs = []
            · rw [if_pos none] at reached
              subst reached
              rw [if_pos none, if_neg (fun located => (located_cons.mp located).1 none)]
              exact ⟨rfl, rfl, rfl⟩
            · rw [if_neg none] at reached ⊢
              refine ⟨_, (inductionHypothesis (stands.1.inside inside)).mpr
                ⟨msgs, reached, fitsRest, stands.2, grantedRest, rfl, ?_, ?_⟩, ?_⟩
              · simp only [located_cons, ne_eq, none, not_false_eq_true, true_and,
                  LRMsg.allBytes_cons, List.length_append, Nat.cast_add, ← Int.add_assoc]
              · simp only [LRMsg.allAllocations, List.map_cons, List.sum_cons, Nat.add_assoc]
              · rw [List.length_cons, Nat.add_sub_add_right]
                rfl

end LocatedRequests

namespace ResponseMsg

/-- What the parser gets to see of a response: its lists are as long as the counts say, up to the
first located request that has no locations. -/
structure Readable (msg : ResponseMsg) : Prop where
  reached : Reached msg.nrLRs.toNat msg.lrs
  fits : ∀ lr ∈ msg.lrs, lr.Fits

def allocations (msg : ResponseMsg) : Nat :=
  tableAllocations msg.nrLRs.toNat + LRMsg.allAllocations msg.lrs

def decoded (msg : ResponseMsg) : QueryMetadataResponse :=
  ⟨msg.volumeID, msg.startLBID, msg.nrLBIDs, msg.commitID, msg.nrLRs.toNat,
    LRMsg.decodedFrom msg.startLBID 0 msg.lrs ++
      List.replicate (msg.nrLRs.toNat - msg.lrs.length) .zero⟩

/-- The parser counts the bytes of the response as read. -/
def Accepted (msg : ResponseMsg) : Prop := msg.lrs ≠ [] ∧ Located msg.lrs

instance (msg : ResponseMsg) : Decidable msg.Accepted := by
  unfold Accepted
  infer_instance

theorem bytes_length (msg : ResponseMsg) :
    msg.bytes.length = 28 + (LRMsg.allBytes msg.lrs).length := by
  simp [bytes, LRMsg.allBytes]

theorem stands_bytes {buf : Bytes} {msg : ResponseMsg} : Stands buf 0 msg.bytes ↔
    Stands buf 0 (wordBytes 8 msg.volumeID) ∧ Stands buf 8 (wordBytes 8 msg.startLBID) ∧
      Stands buf 16 (wordBytes 2 msg.nrLBIDs) ∧ Stands buf 18 (wordBytes 8 msg.commitID) ∧
      Stands buf 26 (wordBytes 2 msg.nrLRs) ∧
      Stands (buf.drop 28) 0 (LRMsg.allBytes msg.lrs) := by
  simp only [bytes, front, LRMsg.allBytes, stands_append, stands_drop, List.length_append,
    wordBytes_length, Nat.zero_add, Nat.add_zero, Nat.reduceAdd, and_assoc]

end ResponseMsg

theorem LRMsg.allBytes_pos {msgs : List LRMsg} (some : msgs ≠ []) :
    0 < (LRMsg.allBytes msgs).length := by
  obtain ⟨msg, rest, rfl⟩ := List.exists_cons_of_ne_nil some
  rw [LRMsg.allBytes_cons, List.length_append, msg.bytes_length]
  omega

theorem parseMetadataResponse_loop {grants : Allocations} {buf : Bytes} {attempts attempts' : Nat}
    {response : QueryMetadataResponse} {retcode : Int}
    (parsed : parseMetadataResponse grants buf attempts = .ok (response, retcode, attempts')) :
    ∃ (startLBID : BitVec 64) (body : Bytes) (rounds before : Nat) (code front : Int),
      parseLocatedRequests grants startLBID body (List.replicate rounds .zero) 0 0 before =
        .ok (response.lrs, code, attempts') ∧
      retcode = if 0 < code then wrapInt (code + front) else code := by
  simp only [parseMetadataResponse, bind_eq_ok, Prod.exists] at parsed
  obtain ⟨volumeID, _, -, startLBID, _, -, nrLBIDs, _, -, commitID, _, -, nrLRs, offset, -, table,
    _, create, rest⟩ := parsed
  have zeros := (createTable_eq_ok.mp create).2.1
  rw [if_neg (by omega)] at zeros
  obtain rfl := zeros
  simp only [bind_eq_ok, Prod.exists] at rest
  obtain ⟨lrs, code, _, loop, done⟩ := rest
  cases done
  exact ⟨startLBID, _, _, _, code, offset, loop, rfl⟩

/-- `Parse_Metadata_Response` gets through exactly where a response stands that it can read. -/
theorem parseMetadataResponse_eq_ok {grants : Allocations} {buf : Bytes}
    (short : buf.length < 2 ^ 31) {attempts attempts' : Nat} {response : QueryMetadataResponse}
    {retcode : Int} :
    parseMetadataResponse grants buf attempts = .ok (response, retcode, attempts') ↔
      ∃ msg : ResponseMsg, msg.Readable ∧ Stands buf 0 msg.bytes ∧
        Granted grants attempts msg.allocations ∧ response = msg.decoded ∧
        retcode = (if msg.Accepted then (msg.bytes.length : Int) else 0) ∧
        attempts' = attempts + msg.allocations := by
  have notNegative (count : BitVec 16) : ¬ ((count.toNat : Int) < 0) := by omega
  have shortRest : (buf.drop 28).length < 2 ^ 31 := by
    rw [List.length_drop]
    omega
  -- the return code, from that of the loop
  have code (msg : ResponseMsg) (stands : Stands buf 0 msg.bytes) :
      (if (0 : Int) < (if Located msg.lrs then
          ((0 : Nat) + (LRMsg.allBytes msg.lrs).length : Int) else 0) then
        wrapInt ((if Located msg.lrs then
          ((0 : Nat) + (LRMsg.allBytes msg.lrs).length : Int) else 0) + (28 : Nat))
      else (if Located msg.lrs then
          ((0 : Nat) + (LRMsg.allBytes msg.lrs).length : Int) else 0)) =
        if msg.Accepted then (msg.bytes.length : Int) else 0 := by
    have inside := stands.inside (Nat.zero_le _)
    rw [msg.bytes_length] at inside
    by_cases located : Located msg.lrs
    · by_cases none : msg.lrs = []
      · have rejected : ¬ msg.Accepted := fun accepted => accepted.1 none
        simp [none, located_nil, rejected, LRMsg.allBytes]
      · have positive := LRMsg.allBytes_pos none
        have sum : (0 : Nat) + ((LRMsg.allBytes msg.lrs).length : Int) + (28 : Nat) =
            (28 + (LRMsg.allBytes msg.lrs).length : Nat) := by omega
        rw [if_pos located, if_pos (by omega), sum, wrapInt_natCast (by omega),
          if_pos ⟨none, located⟩, msg.bytes_length]
    · have rejected : ¬ msg.Accepted := fun accepted => located accepted.2
      simp [located, rejected]
  simp only [parseMetadataResponse, bind_eq_ok, Prod.exists]
  constructor
  · rintro ⟨volumeID, _, readVolume, startLBID, _, readStart, nrLBIDs, _, readCount, commitID, _,
      readCommit, nrLRs, _, readLRs, table, _, create, rest⟩
    obtain ⟨standsVolume, rfl⟩ := (readNetBuf_eq_ok (by decide)).mp readVolume
    obtain ⟨standsStart, rfl⟩ := (readNetBuf_eq_ok (by decide)).mp readStart
    obtain ⟨standsCount, rfl⟩ := (readNetBuf_eq_ok (by decide)).mp readCount
    obtain ⟨standsCommit, rfl⟩ := (readNetBuf_eq_ok (by decide)).mp readCommit
    obtain ⟨standsLRs, rfl⟩ := (readNetBuf_eq_ok (by decide)).mp readLRs
    obtain ⟨grantedTable, rfl, rfl⟩ := createTable_eq_ok.mp create
    simp only [if_neg (notNegative nrLRs), Int.toNat_natCast, bind_eq_ok, Prod.exists] at rest
    obtain ⟨lrs, _, _, loop, done⟩ := rest
    obtain ⟨msgs, reached, fits, stands, granted, rfl, rfl, rfl⟩ :=
      (parseLocatedRequests_eq_ok shortRest (Nat.zero_le _)).mp loop
    cases done
    let msg : ResponseMsg := ⟨volumeID, startLBID, nrLBIDs, commitID, nrLRs, msgs⟩
    have standsAll : Stands buf 0 msg.bytes := ResponseMsg.stands_bytes.mpr
      ⟨standsVolume, standsStart, standsCount, standsCommit, standsLRs, stands⟩
    exact ⟨msg, ⟨reached, fits⟩, standsAll, granted_add.mpr ⟨grantedTable, granted⟩, rfl,
      code msg standsAll, Nat.add_assoc ..⟩
  · rintro ⟨msg, ⟨reached, fits⟩, standsAll, granted, rfl, rfl, rfl⟩
    obtain ⟨standsVolume, standsStart, standsCount, standsCommit, standsLRs, stands⟩ :=
      ResponseMsg.stands_bytes.mp standsAll
    obtain ⟨grantedTable, grantedRest⟩ := granted_add.mp granted
    refine ⟨msg.volumeID, _, (readNetBuf_eq_ok (by decide)).mpr ⟨standsVolume, rfl⟩, msg.startLBID,
      _, (readNetBuf_eq_ok (by decide)).mpr ⟨standsStart, rfl⟩, msg.nrLBIDs, _,
      (readNetBuf_eq_ok (by decide)).mpr ⟨standsCount, rfl⟩, msg.commitID, _,
      (readNetBuf_eq_ok (by decide)).mpr ⟨standsCommit, rfl⟩, msg.nrLRs, _,
      (readNetBuf_eq_ok (by decide)).mpr ⟨standsLRs, rfl⟩, _, _,
      createTable_eq_ok.mpr ⟨grantedTable, rfl, rfl⟩, ?_⟩
    simp only [if_neg (notNegative msg.nrLRs), Int.toNat_natCast, bind_eq_ok, Prod.exists]
    refine ⟨_, _, _, (parseLocatedRequests_eq_ok shortRest (Nat.zero_le _)).mpr
      ⟨msg.lrs, reached, fits, stands, grantedRest, rfl, rfl, rfl⟩, ?_⟩
    rw [← code msg standsAll, ResponseMsg.allocations, ← Nat.add_assoc]
    rfl

end DmsBlkdev
