import DmsBlkdev.UserDaemon.AttachList

/-!
# The attach list on disk

The list is saved as a line of text for each record and loaded line by line.
The volume id and the instance id that a line is scanned into keep what they had
where the line does not set them; at first the instance id is what the stack
happens to have there.  A word that is too long for it is written past its end.
-/

namespace DmsBlkdev.UserDaemon

open Lib.Wire Lib.Stdio

/-- `"%d %s\n"` for a record: `%d` takes the low half of the volume id. -/
def recordLine (record : VolAttachInfo) : Bytes :=
  printInt (record.volumeID.setWidth 32).toInt ++ space :: (record.instanceID.bytes ++ [newline])

/-- The return value, and the file, if there is one, behind `SaveAttachInfoToFile`. -/
def saveAttachInfoToFile (opened : Bool) (list : List VolAttachInfo) (file : Option Bytes) :
    Int × Option Bytes :=
  if opened then (1, some (list.flatMap recordLine)) else (0, file)

/-- `sizeof(buff)`. -/
def buffSize : Nat := 256

/-- `sizeof(instID)`. -/
def instIDSize : Nat := 64

/-- The `int` that `%d` stores: the number is brought into the range of a `long` first. -/
def storedInt (value : Int) : BitVec 32 := BitVec.ofInt 32 (max (-2 ^ 63) (min value (2 ^ 63 - 1)))

/-- `sscanf(buff, "%d %s\n", &volid, instID)`; nothing when it writes past the end of `instID`. -/
def scanRecord (buff : CString) (volid : BitVec 32) (instID : CString) :
    Option (BitVec 32 × CString) :=
  match scanInt buff.bytes with
  | none => some (volid, instID)
  | some (value, rest) =>
      match scanWord (skipSpace rest) with
      | none => some (storedInt value, instID)
      | some word =>
          if word.length < instIDSize then some (storedInt value, CString.ofArray word) else none

/-- Puts a line and a zero into `buff` and scans it; nothing when that is past the end of `buff`. -/
def scanLine (line : Bytes) (volid : BitVec 32) (instID : CString) :
    Option (BitVec 32 × CString) :=
  if line.length < buffSize then scanRecord (CString.ofArray line) volid instID else none

/-- The loop of `LoadAttachInfoFromFile`, on what is left of the file. -/
def loadRecords (volid : BitVec 32) (instID : CString) : Bytes → Option (List VolAttachInfo)
  | [] => some []
  | byte :: rest =>
      match scanLine (fgets 255 (byte :: rest)).1 volid instID with
      | none => none
      | some (volid, instID) =>
          (loadRecords volid instID (fgets 255 (byte :: rest)).2).map fun later =>
            if volid.toInt > -1 then ⟨extended volid, instID⟩ :: later else later
termination_by file => file.length
decreasing_by exact fgets_length_lt 254 byte rest

/-- `LoadAttachInfoFromFile`: the return value, the list and the file behind it. -/
def loadAttachInfoFromFile (instID : CString) (readable writable : Bool)
    (list : List VolAttachInfo) (file : Option Bytes) :
    Option (Int × List VolAttachInfo × Option Bytes) :=
  match if readable then file else none with
  | none => some (if writable then (1, list, some []) else (0, list, file))
  | some text => (loadRecords (-1) instID text).map fun loaded =>
      (1, if loaded = [] then list else loaded, file)

/-- What is saved is loaded into an empty list again, whatever was on the stack. -/
def Survives (list : List VolAttachInfo) : Prop :=
  ∀ (instID : CString) (file : Option Bytes),
    loadAttachInfoFromFile instID true true [] (saveAttachInfoToFile true list file).2 =
      some (1, list, some (list.flatMap recordLine))

/-- An instance id that `%s` gives back. -/
structure Word (instanceID : CString) : Prop where
  nonempty : instanceID.bytes ≠ []
  solid : ∀ byte ∈ instanceID.bytes, isSpace byte = false
  fits : instanceID.bytes.length < instIDSize

structure VolAttachInfo.Recoverable (record : VolAttachInfo) : Prop where
  nonnegative : record.volumeID.toNat < 2 ^ 31
  word : Word record.instanceID

section Load

variable {volid : BitVec 32} {instID : CString}

theorem loadRecords_of_ne_nil {text : Bytes} (nonempty : text ≠ []) :
    loadRecords volid instID text =
      match scanLine (fgets 255 text).1 volid instID with
      | none => none
      | some (volid, instID) => (loadRecords volid instID (fgets 255 text).2).map fun later =>
          if volid.toInt > -1 then ⟨extended volid, instID⟩ :: later else later := by
  obtain ⟨byte, rest, rfl⟩ := List.exists_cons_of_ne_nil nonempty
  exact loadRecords.eq_2 volid instID byte rest

/-- What `fgets` puts into `buff` stays inside. -/
theorem scanLine_fgets (text : Bytes) : scanLine (fgets 255 text).1 volid instID =
    scanRecord (CString.ofArray (fgets 255 text).1) volid instID := by
  rw [scanLine, if_pos]
  exact Nat.lt_succ_of_le (fgets_taken_le 255 text)

theorem scanRecord_instID {buff : CString} {volid' : BitVec 32} {instID' : CString}
    (scanned : scanRecord buff volid instID = some (volid', instID')) :
    instID' = instID ∨ Word instID' := by
  rw [scanRecord] at scanned
  split at scanned
  · cases scanned
    exact .inl rfl
  · next value rest number =>
      split at scanned
      · cases scanned
        exact .inl rfl
      · next word found =>
          split at scanned
          · next fits =>
              cases scanned
              obtain ⟨part, nonempty, solid⟩ := scanWord_plain found
              have within := List.Subset.trans part
                (List.Subset.trans (skipSpace_subset rest) (scanInt_subset number))
              have same := CString.bytes_ofArray fun zero => buff.terminated (within zero)
              exact .inr ⟨by rwa [same], by rwa [same], by rwa [same]⟩
          · cases scanned

/-- A record that is loaded has a volume id that is not negative and, as instance id, a word or
what was there at first. -/
theorem loadRecords_record {text : Bytes} {loaded : List VolAttachInfo}
    (done : loadRecords volid instID text = some loaded) {record : VolAttachInfo}
    (member : record ∈ loaded) :
    record.volumeID.toNat < 2 ^ 31 ∧ (record.instanceID = instID ∨ Word record.instanceID) := by
  induction volid, instID, text using loadRecords.induct generalizing loaded with
  | case1 volid instID =>
      rw [loadRecords] at done
      obtain rfl := Option.some.inj done
      cases member
  | case2 volid instID byte rest past =>
      rw [loadRecords, past] at done
      cases done
  | case3 volid instID byte rest volid' instID' scanned inductionHypothesis =>
      rw [loadRecords, scanned] at done
      obtain ⟨later, loadedLater, rfl⟩ := Option.map_eq_some_iff.mp done
      rw [scanLine_fgets] at scanned
      have set := scanRecord_instID scanned
      have behind (there : record ∈ later) := inductionHypothesis loadedLater there
      have older : record.instanceID = instID' ∨ Word record.instanceID →
          record.instanceID = instID ∨ Word record.instanceID := by
        rintro (same | word)
        · rw [same]
          exact set
        · exact .inr word
      split at member
      · next nonnegative =>
          rcases List.mem_cons.mp member with rfl | there
          · exact ⟨extended_toNat_lt.mpr (Int.add_one_le_of_lt nonnegative), set⟩
          · exact (behind there).imp_right older
      · exact (behind member).imp_right older

end Load

def VolAttachInfo.text (record : VolAttachInfo) : Bytes :=
  decimal record.volumeID.toNat ++ space :: record.instanceID.bytes

namespace VolAttachInfo

theorem not_mem_text {record : VolAttachInfo} {byte : BitVec 8} (other : isDigit byte = false)
    (notSpace : byte ≠ space) (outside : byte ∉ record.instanceID.bytes) :
    byte ∉ record.text := by
  intro member
  rcases List.mem_append.mp member with digit | later
  · rw [isDigit_decimal digit] at other
    cases other
  · rcases List.mem_cons.mp later with same | inside
    · exact notSpace same
    · exact outside inside

namespace Recoverable

variable {record : VolAttachInfo} (recoverable : record.Recoverable)

include recoverable

theorem recordLine_eq : recordLine record = record.text ++ [newline] := by
  have small := recoverable.nonnegative
  have kept : (record.volumeID.setWidth 32).toNat = record.volumeID.toNat := by
    rw [BitVec.toNat_setWidth]
    omega
  have value : (record.volumeID.setWidth 32).toInt = (record.volumeID.toNat : Int) := by
    rw [BitVec.toInt_eq_toNat_of_lt (by omega), kept]
  have nonnegative : ¬ (record.volumeID.toNat : Int) < 0 := Int.not_lt.mpr (Int.natCast_nonneg _)
  rw [recordLine, value, printInt, if_neg nonnegative, Int.natAbs_natCast, text,
    List.append_assoc, List.cons_append]

theorem text_fits : record.text.length < 255 := by
  have digits : (decimal record.volumeID.toNat).length ≤ 10 :=
    (decimal_length_le (by decide)).mpr (recoverable.nonnegative.trans (by decide))
  have short : record.instanceID.bytes.length < 64 := recoverable.word.fits
  rw [text, List.length_append, List.length_cons]
  omega

theorem extended_storedInt : (storedInt record.volumeID.toNat).toInt > -1 ∧
    extended (storedInt record.volumeID.toNat) = record.volumeID := by
  have small := recoverable.nonnegative
  have stored : storedInt record.volumeID.toNat = BitVec.ofNat 32 record.volumeID.toNat := by
    have range : max (-2 ^ 63) (min (record.volumeID.toNat : Int) (2 ^ 63 - 1)) =
        record.volumeID.toNat := by omega
    rw [storedInt, range, BitVec.ofInt_natCast]
  have kept : (BitVec.ofNat 32 record.volumeID.toNat).toNat = record.volumeID.toNat := by
    rw [BitVec.toNat_ofNat]
    omega
  have nonnegative : 0 ≤ (BitVec.ofNat 32 record.volumeID.toNat).toInt := by
    rw [BitVec.toInt_eq_toNat_of_lt (by omega)]
    exact Int.natCast_nonneg _
  rw [stored]
  refine ⟨Int.lt_of_lt_of_le (by decide) nonnegative, BitVec.eq_of_toNat_eq ?_⟩
  rw [extended_toNat nonnegative, kept]

theorem fgets_recordLine (rest : Bytes) :
    fgets 255 (recordLine record ++ rest) = (record.text ++ [newline], rest) := by
  have oneLine : newline ∉ record.text := by
    apply not_mem_text (by decide) (by decide)
    intro inside
    exact absurd (recoverable.word.solid newline inside) (by decide)
  rw [recoverable.recordLine_eq, List.append_assoc]
  exact fgets_line oneLine recoverable.text_fits rest

theorem scanRecord_text (volid : BitVec 32) (instID : CString) :
    scanRecord (CString.ofArray (record.text ++ [newline])) volid instID =
      some (storedInt record.volumeID.toNat, record.instanceID) := by
  have noZero : 0 ∉ record.text ++ [newline] := by
    have before : 0 ∉ record.text :=
      not_mem_text (by decide) (by decide) record.instanceID.terminated
    simpa [newline] using before
  have number : scanInt (record.text ++ [newline]) =
      some ((record.volumeID.toNat : Int), space :: (record.instanceID.bytes ++ [newline])) := by
    rw [text, List.append_assoc]
    exact scanInt_decimal _ (by decide) _
  have word : scanWord (skipSpace (space :: (record.instanceID.bytes ++ [newline]))) =
      some record.instanceID.bytes := by
    rw [skipSpace, List.dropWhile_cons_of_pos rfl, ← skipSpace,
      skipSpace_append recoverable.word.nonempty recoverable.word.solid]
    exact scanWord_append recoverable.word.nonempty recoverable.word.solid (by decide) []
  rw [scanRecord, CString.bytes_ofArray noZero, number]
  simp only [word, if_pos recoverable.word.fits, CString.ofArray_bytes]

end Recoverable

end VolAttachInfo

/-- Records that their lines give back are all loaded. -/
theorem loadRecords_recoverable {list : List VolAttachInfo}
    (recoverable : ∀ record ∈ list, record.Recoverable) (volid : BitVec 32) (instID : CString) :
    loadRecords volid instID (list.flatMap recordLine) = some list := by
  induction list generalizing volid instID with
  | nil => exact loadRecords.eq_1 volid instID
  | cons record rest inductionHypothesis =>
      have first := recoverable record List.mem_cons_self
      obtain ⟨nonnegative, same⟩ := first.extended_storedInt
      have later := inductionHypothesis fun other member =>
        recoverable other (List.mem_cons_of_mem _ member)
      have nonempty : recordLine record ++ rest.flatMap recordLine ≠ [] := by
        simp [recordLine]
      rw [List.flatMap_cons, loadRecords_of_ne_nil nonempty, scanLine_fgets,
        first.fgets_recordLine, first.scanRecord_text]
      simp only [later, Option.map_some, if_pos nonnegative, same]

/-- A list survives exactly when each of its lines gives its record back. -/
theorem survives_iff {list : List VolAttachInfo} :
    Survives list ↔ ∀ record ∈ list, record.Recoverable := by
  constructor
  · intro survives record member
    have loaded (instID : CString) :
        record.volumeID.toNat < 2 ^ 31 ∧ (record.instanceID = instID ∨ Word record.instanceID) := by
      obtain ⟨loaded, done, same⟩ := Option.map_eq_some_iff.mp (survives instID none)
      have shape : (if loaded = [] then [] else loaded) = list := congrArg (·.2.1) same
      have whole : loaded = list := by
        by_cases empty : loaded = []
        · rwa [if_pos empty, ← empty] at shape
        · rwa [if_neg empty] at shape
      exact loadRecords_record done (whole ▸ member)
    -- what is loaded cannot be two different things that were on the stack
    obtain ⟨small, found⟩ := loaded ⟨[], by decide⟩
    rcases found with empty | word
    · rcases (loaded ⟨[space], by decide⟩).2 with blank | word
      · rw [empty] at blank
        cases blank
      · exact ⟨small, word⟩
    · exact ⟨small, word⟩
  · intro recoverable instID file
    have loaded := loadRecords_recoverable recoverable (-1) instID
    have kept : (if list = [] then [] else list) = list := by
      by_cases empty : list = []
      · rw [if_pos empty, empty]
      · exact if_neg empty
    rw [saveAttachInfoToFile, if_pos rfl, loadAttachInfoFromFile, if_pos rfl]
    simp only [loaded, Option.map_some, kept]

-- the instance id `a b` in a line and what is left of it
example : recordLine ⟨5, ⟨[97, 32, 98], by decide⟩⟩ = [53, 32, 97, 32, 98, 10] := by decide

example : scanLine [53, 32, 97, 32, 98, 10] (-1) ⟨[], by decide⟩ =
    some (5, ⟨[97], by decide⟩) := by decide

end DmsBlkdev.UserDaemon
