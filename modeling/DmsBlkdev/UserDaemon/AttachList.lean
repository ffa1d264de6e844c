import DmsBlkdev.Lib.Stdio
import Mathlib.Data.List.Nodup

/-!
# The attach list of the daemon

The daemon keeps the volumes that it has attached in a linked list behind a
head without a record; `list_last` is the last node.  The list is given by the
records behind its head.  A command has the volume id as an `int`, a record as
an `unsigned long`.
-/

namespace DmsBlkdev.UserDaemon

open Lib.Stdio

/-- A node of the list without its link. -/
@[ext] structure VolAttachInfo where
  volumeID : BitVec 64
  instanceID : CString
  deriving DecidableEq

/-- The volume id of a command as it stands in a record and as the driver gets it. -/
def extended (volid : BitVec 32) : BitVec 64 := volid.signExtend 64

section Extended

variable {volid : BitVec 32}

theorem extended_toInt : (extended volid).toInt = volid.toInt :=
  BitVec.toInt_signExtend_of_le (by decide)

theorem extended_toNat (nonnegative : 0 ≤ volid.toInt) : (extended volid).toNat = volid.toNat := by
  have same := @extended_toInt volid
  have range := volid.isLt
  have rangeExtended := (extended volid).isLt
  rw [BitVec.toInt_eq_toNat_cond] at same nonnegative
  rw [BitVec.toInt_eq_toNat_cond] at same
  split at nonnegative <;> split at same <;> omega

theorem extended_toNat_lt : (extended volid).toNat < 2 ^ 31 ↔ 0 ≤ volid.toInt := by
  have range := volid.isLt
  constructor
  · intro small
    rw [← extended_toInt, BitVec.toInt_eq_toNat_of_lt (by omega)]
    exact Int.natCast_nonneg _
  · intro nonnegative
    rw [extended_toNat nonnegative]
    rw [BitVec.toInt_eq_toNat_cond] at nonnegative
    split at nonnegative <;> omega

end Extended

def queryAttachInfo (volid : BitVec 32) : List VolAttachInfo → Option VolAttachInfo
  | [] => none
  | record :: rest =>
      if record.volumeID = extended volid then some record else queryAttachInfo volid rest

def addAttachToList (list : List VolAttachInfo) (volid : BitVec 32) (instID : CString) :
    List VolAttachInfo :=
  list ++ [⟨extended volid, instID⟩]

def removeAttachFromList (volid : BitVec 32) :
    List VolAttachInfo → List VolAttachInfo × Option VolAttachInfo
  | [] => ([], none)
  | record :: rest =>
      if record.volumeID = extended volid then (rest, some record)
      else (record :: (removeAttachFromList volid rest).1, (removeAttachFromList volid rest).2)

def volumeIDs (list : List VolAttachInfo) : List (BitVec 64) := list.map VolAttachInfo.volumeID

section List

variable {list : List VolAttachInfo} {volid : BitVec 32}

theorem queryAttachInfo_eq_none :
    queryAttachInfo volid list = none ↔ extended volid ∉ volumeIDs list := by
  induction list with
  | nil => simp [queryAttachInfo, volumeIDs]
  | cons record rest inductionHypothesis =>
      rw [queryAttachInfo]
      by_cases same : record.volumeID = extended volid
      · simp [same, volumeIDs]
      · rw [if_neg same, inductionHypothesis, volumeIDs, volumeIDs, List.map_cons, List.mem_cons,
          not_or]
        exact (and_iff_right (Ne.symm same)).symm

@[simp] theorem volumeIDs_addAttachToList (instID : CString) :
    volumeIDs (addAttachToList list volid instID) = volumeIDs list ++ [extended volid] := by
  simp [volumeIDs, addAttachToList]

@[simp] theorem volumeIDs_removeAttachFromList :
    volumeIDs (removeAttachFromList volid list).1 = (volumeIDs list).erase (extended volid) := by
  induction list with
  | nil => rfl
  | cons record rest inductionHypothesis =>
      have split : volumeIDs (record :: rest) = record.volumeID :: volumeIDs rest := rfl
      rw [removeAttachFromList, split, List.erase_cons]
      by_cases same : record.volumeID = extended volid
      · simp [same]
      · rw [if_neg same, if_neg (by simpa using same), ← inductionHypothesis]
        rfl

theorem removeAttachFromList_subset : (removeAttachFromList volid list).1 ⊆ list := by
  induction list with
  | nil => exact List.Subset.refl _
  | cons record rest inductionHypothesis =>
      rw [removeAttachFromList]
      split
      · exact List.subset_cons_self record rest
      · exact List.cons_subset_cons record inductionHypothesis

end List

end DmsBlkdev.UserDaemon
