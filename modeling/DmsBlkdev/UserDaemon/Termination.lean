import DmsBlkdev.UserDaemon.Commands
import DmsBlkdev.UserDaemon.ReadEnds

/-!
# When the commands of the daemon end

What `recv`, `fopen` and `ioctl` return is given by answers, one for each call.
`attach_volume` waits for the capacity and then for the device file, and the
second loop never counts its tries.  `detach_all_volume` stays at the head of
the list, so that it ends only where there is nothing to detach.
-/

namespace DmsBlkdev.UserDaemon

open Lib.Wire Lib.Stdio

/-- What the calls of a command return; the connection to the namenode has come about. -/
structure Answers where
  recv : Nat → Int
  stream : Nat → BitVec 8
  /-- Whether each `fopen` of the device file gets it. -/
  fopen : Nat → Bool
  ioctl : Nat → Int
  connected : Fin 5 → Bool
  update : Int
  opened : Bool

/-- The capacity in the first eight bytes, which are in the order of the network; 0 when there is no
buffer. -/
def capacityOf : ReadResult → BitVec 64
  | .null _ => 0
  | .buffer stored _ => BitVec.ofNat 64 (ofBytes (stored.take 8))

/-- The volume id of the head of the list, as `detach_volume` gets it. -/
def headVolumeID : BitVec 32 := -1

namespace Answers

/-- What a command gets whose first `ioctl` is this call, as long as `fopen` has been tried so
often. -/
def outcome (answers : Answers) (volCap : BitVec 64) (call tries : Nat) : Outcome :=
  ⟨volCap, answers.ioctl call, (List.range tries).map answers.fopen, answers.connected,
    answers.update, answers.opened⟩

/-- `getCapacityFromNamenode`. -/
def getCapacityFromNamenode (answers : Answers) (fuel : Nat) : Option (BitVec 64) :=
  (ccmaBufferRead answers.recv answers.stream 8 fuel).map capacityOf

/-- `attach_volume`, which asks for the capacity only when it has not found the volume; nothing when
it has not returned by then. -/
def attachVolume (answers : Answers) (vol_id : BitVec 32) (instid : CString)
    (updateToRS updateToLocalFile : Int) (daemon : Daemon) (tries fuel : Nat) :
    Option (Int × Daemon) :=
  match if updateToLocalFile = 0 then none else queryAttachInfo vol_id daemon.list with
  | some _ => some (attachOK, daemon)
  | none => (answers.getCapacityFromNamenode fuel).bind fun volCap =>
      UserDaemon.attachVolume vol_id instid updateToRS updateToLocalFile
        (answers.outcome volCap 0 tries) daemon

/-- The loop of `detach_all_volume`, which never leaves the head; `issued` are the volumes that it
has detached. -/
def detachAllLoop (answers : Answers) :
    Nat → Nat → List (BitVec 64) → Daemon → Option (List (BitVec 64) × Daemon)
  | 0, _, _, _ => none
  | fuel + 1, call, issued, daemon =>
      if daemon.list = [] then some (issued, daemon)
      else
        detachAllLoop answers fuel (call + 1) (issued ++ [extended headVolumeID])
          (detachVolume headVolumeID 0 0 (answers.outcome 0 call 0) daemon).2

/-- `detach_all_volume`. -/
def detachAllVolume (answers : Answers) (daemon : Daemon) (fuel : Nat) :
    Option (List (BitVec 64) × Daemon) :=
  answers.detachAllLoop fuel 0 [] daemon

end Answers

/-- `attach_volume` finds the volume on the list. -/
def Known (daemon : Daemon) (vol_id : BitVec 32) (updateToLocalFile : Int) : Prop :=
  updateToLocalFile ≠ 0 ∧ extended vol_id ∈ volumeIDs daemon.list

/-- `attach_volume` comes to wait for the device file: the namenode answers with a capacity, and the
driver attaches the volume. -/
structure WaitsForFile (answers : Answers) (daemon : Daemon) (vol_id : BitVec 32)
    (updateToLocalFile : Int) : Prop where
  unknown : ¬ Known daemon vol_id updateToLocalFile
  left : ¬ RetriesUsedUp answers.recv 8
  enough : EnoughComes answers.recv 8
  capacity : 0 < (capacityOf (.buffer ((List.range 8).map answers.stream) 8)).toInt
  ioctl : answers.ioctl 0 = attachOK

/-- The functions of the daemon with a loop that waits or goes through the list. -/
inductive DaemonCall where
  | ccmaBufferRead (size : Nat)
  | attachVolume (vol_id : BitVec 32) (instid : CString) (updateToRS updateToLocalFile : Int)
  | detachAllVolume

/-- The call returns: the wait for the device file with `ATTACH_FAIL` when 30 tries have not found
it, and `detach_all_volume` with one detach for each volume of the list. -/
def DaemonCall.Finishes (answers : Answers) (daemon : Daemon) : DaemonCall → Prop
  | ccmaBufferRead size => Returns (UserDaemon.ccmaBufferRead answers.recv answers.stream size)
  | attachVolume vol_id instid updateToRS updateToLocalFile =>
      ∃ bound ret after,
        (∀ fuel, bound ≤ fuel →
          answers.attachVolume vol_id instid updateToRS updateToLocalFile daemon 30 fuel =
            some (ret, after)) ∧
        (WaitsForFile answers daemon vol_id updateToLocalFile →
          (∀ count < 30, answers.fopen count = false) → ret = attachFail)
  | detachAllVolume => ∃ bound after, ∀ fuel, bound ≤ fuel →
      answers.detachAllVolume daemon fuel = some (volumeIDs daemon.list, after)

/-- A read has enough bytes or enough errors to come, the device file is there within 30 tries, and
there is no volume to detach. -/
def DaemonCall.Ends (answers : Answers) (daemon : Daemon) : DaemonCall → Prop
  | ccmaBufferRead size => RetriesUsedUp answers.recv size ∨ EnoughComes answers.recv size
  | attachVolume vol_id _ _ updateToLocalFile =>
      Known daemon vol_id updateToLocalFile ∨
        (RetriesUsedUp answers.recv 8 ∨ EnoughComes answers.recv 8) ∧
          (WaitsForFile answers daemon vol_id updateToLocalFile →
            ∃ count < 30, answers.fopen count = true)
  | detachAllVolume => daemon.list = []

section Detach

variable {answers : Answers} {daemon : Daemon}

theorem detachVolume_list (vol_id : BitVec 32) (outcome : Outcome) :
    (detachVolume vol_id 0 0 outcome daemon).2.list = daemon.list := by
  rw [detachVolume]
  by_cases failed : outcome.ioctl ≠ attachOK
  · rw [if_pos failed]
    exact Daemon.ioctlDetach_list ..
  · rw [if_neg failed]
    exact Daemon.ioctlDetach_list ..

/-- While there is a volume on the list, the loop goes on. -/
theorem detachAllLoop_never (listed : daemon.list ≠ []) (fuel call : Nat)
    (issued : List (BitVec 64)) : answers.detachAllLoop fuel call issued daemon = none := by
  induction fuel generalizing call issued daemon with
  | zero => rfl
  | succ fuel inductionHypothesis =>
      rw [Answers.detachAllLoop, if_neg listed]
      apply inductionHypothesis
      rw [detachVolume_list]
      exact listed

theorem detachAllVolume_finishes_iff :
    DaemonCall.detachAllVolume.Finishes answers daemon ↔ daemon.list = [] := by
  constructor
  · rintro ⟨bound, after, returns⟩
    by_contra listed
    have none := @detachAllLoop_never answers daemon listed bound 0 []
    have some := returns bound (Nat.le_refl _)
    rw [Answers.detachAllVolume, none] at some
    cases some
  · intro empty
    refine ⟨1, daemon, fun fuel enough => ?_⟩
    obtain ⟨fuel, rfl⟩ := Nat.exists_eq_add_of_le' enough
    rw [Answers.detachAllVolume, Answers.detachAllLoop, if_pos empty, empty]
    rfl

end Detach

section Attach

variable {answers : Answers} {daemon : Daemon} {vol_id : BitVec 32} {instid : CString}
  {updateToRS updateToLocalFile : Int}

theorem query_eq_none :
    (if updateToLocalFile = 0 then none else queryAttachInfo vol_id daemon.list) = none ↔
      ¬ Known daemon vol_id updateToLocalFile := by
  by_cases unqueried : updateToLocalFile = 0
  · rw [if_pos unqueried]
    exact iff_of_true rfl fun known => known.1 unqueried
  · rw [if_neg unqueried, queryAttachInfo_eq_none, Known, and_iff_right unqueried]

theorem attachVolume_known (known : Known daemon vol_id updateToLocalFile) (tries fuel : Nat) :
    answers.attachVolume vol_id instid updateToRS updateToLocalFile daemon tries fuel =
      some (attachOK, daemon) := by
  obtain ⟨item, found⟩ := Option.ne_none_iff_exists'.mp (query_eq_none.not.mpr (not_not.mpr known))
  rw [Answers.attachVolume, found]

theorem attachVolume_unknown (unknown : ¬ Known daemon vol_id updateToLocalFile)
    (tries fuel : Nat) :
    answers.attachVolume vol_id instid updateToRS updateToLocalFile daemon tries fuel =
      (answers.getCapacityFromNamenode fuel).bind fun volCap =>
        attachVolume vol_id instid updateToRS updateToLocalFile
          (answers.outcome volCap 0 tries) daemon := by
  rw [Answers.attachVolume, query_eq_none.mpr unknown]

/-- Behind the capacity, only the wait for the device file can keep an attach from its return. -/
theorem attachVolume_isSome_iff (unknown : ¬ Known daemon vol_id updateToLocalFile)
    (instid : CString) (updateToRS : Int) (outcome : Outcome) :
    (attachVolume vol_id instid updateToRS updateToLocalFile outcome daemon).isSome ↔
      (0 < outcome.volCap.toInt → outcome.ioctl = attachOK → true ∈ outcome.deviceFile) := by
  simp only [attachVolume, query_eq_none.mpr unknown]
  by_cases capacity : outcome.volCap.toInt ≤ 0
  · rw [if_pos capacity]
    exact iff_of_true rfl fun positive => absurd capacity (Int.not_le.mpr positive)
  · rw [if_neg capacity]
    by_cases failed : outcome.ioctl ≠ attachOK
    · rw [if_pos failed]
      exact iff_of_true rfl fun _ attached => absurd attached failed
    · rw [if_neg failed, checkDeviceFile_eq, Option.isSome_map]
      by_cases appears : true ∈ outcome.deviceFile
      · rw [if_pos appears]
        exact iff_of_true rfl fun _ _ => appears
      · rw [if_neg appears]
        refine iff_of_false Bool.false_ne_true fun waits => appears ?_
        exact waits (Int.not_le.mp capacity) (not_not.mp failed)

theorem mem_deviceFile_iff {volCap : BitVec 64} {call tries : Nat} :
    true ∈ (answers.outcome volCap call tries).deviceFile ↔
      ∃ count < tries, answers.fopen count = true := by
  rw [Answers.outcome, List.mem_map]
  exact exists_congr fun count => and_congr_left' List.mem_range

theorem attachVolume_returns_of_capacity (unknown : ¬ Known daemon vol_id updateToLocalFile)
    {tries bound : Nat} {volCap : BitVec 64}
    (comes : ∀ fuel, bound ≤ fuel → answers.getCapacityFromNamenode fuel = some volCap) :
    Returns (answers.attachVolume vol_id instid updateToRS updateToLocalFile daemon tries) ↔
      (0 < volCap.toInt → answers.ioctl 0 = attachOK →
        ∃ count < tries, answers.fopen count = true) := by
  have calls (fuel : Nat) (enough : bound ≤ fuel) :
      answers.attachVolume vol_id instid updateToRS updateToLocalFile daemon tries fuel =
        attachVolume vol_id instid updateToRS updateToLocalFile
          (answers.outcome volCap 0 tries) daemon := by
    rw [attachVolume_unknown unknown, comes fuel enough]
    rfl
  have waits := attachVolume_isSome_iff unknown instid updateToRS
    (answers.outcome volCap 0 tries)
  rw [mem_deviceFile_iff] at waits
  refine Iff.trans ?_ waits
  rw [Option.isSome_iff_exists]
  constructor
  · rintro ⟨other, result, returns⟩
    refine ⟨result, ?_⟩
    rw [← calls _ (Nat.le_max_left bound other)]
    exact returns _ (Nat.le_max_right bound other)
  · rintro ⟨result, returned⟩
    exact ⟨bound, result, fun fuel enough => (calls fuel enough).trans returned⟩

theorem capacity_usedUp (usedUp : RetriesUsedUp answers.recv 8) :
    ∃ bound, ∀ fuel, bound ≤ fuel → answers.getCapacityFromNamenode fuel = some 0 := by
  obtain ⟨bound, consumed, reads⟩ :=
    (ccmaBufferRead_ends answers.recv answers.stream 8).usedUp usedUp
  refine ⟨bound, fun fuel enough => ?_⟩
  have read : ccmaBufferRead answers.recv answers.stream 8 fuel = some (.null consumed) :=
    reads fuel enough
  rw [Answers.getCapacityFromNamenode, read]
  rfl

theorem capacity_filled (left : ¬ RetriesUsedUp answers.recv 8)
    (enough : EnoughComes answers.recv 8) :
    ∃ bound, ∀ fuel, bound ≤ fuel → answers.getCapacityFromNamenode fuel =
      some (capacityOf (.buffer ((List.range 8).map answers.stream) 8)) := by
  obtain ⟨bound, last, filled, reads⟩ :=
    (ccmaBufferRead_ends answers.recv answers.stream 8).filled left enough
  have full : 8 ≤ brought answers.recv 8 last := filled.full
  refine ⟨bound, fun fuel enough => ?_⟩
  have read : ccmaBufferRead answers.recv answers.stream 8 fuel =
      some (.buffer ((List.range (brought answers.recv 8 last)).map answers.stream)
        (brought answers.recv 8 last)) := reads fuel enough
  have first : ((List.range (brought answers.recv 8 last)).map answers.stream).take 8 =
      (List.range 8).map answers.stream := by
    rw [← List.map_take, List.take_range, Nat.min_eq_left full]
  rw [Answers.getCapacityFromNamenode, read, Option.map_some, capacityOf, first, capacityOf]
  rfl

theorem capacity_never (left : ¬ RetriesUsedUp answers.recv 8)
    (short : ¬ EnoughComes answers.recv 8) (fuel : Nat) :
    answers.getCapacityFromNamenode fuel = none := by
  have never : ccmaBufferRead answers.recv answers.stream 8 fuel = none :=
    (ccmaBufferRead_ends answers.recv answers.stream 8).never left short fuel
  rw [Answers.getCapacityFromNamenode, never]
  rfl

theorem attachVolume_returns_iff (instid : CString) (updateToRS : Int) (tries : Nat) :
    Returns (answers.attachVolume vol_id instid updateToRS updateToLocalFile daemon tries) ↔
      Known daemon vol_id updateToLocalFile ∨
        (RetriesUsedUp answers.recv 8 ∨ EnoughComes answers.recv 8) ∧
          (WaitsForFile answers daemon vol_id updateToLocalFile →
            ∃ count < tries, answers.fopen count = true) := by
  by_cases known : Known daemon vol_id updateToLocalFile
  · refine iff_of_true ?_ (.inl known)
    exact ⟨0, _, fun fuel _ => attachVolume_known known tries fuel⟩
  · rw [or_iff_right known]
    by_cases usedUp : RetriesUsedUp answers.recv 8
    · obtain ⟨bound, comes⟩ := capacity_usedUp usedUp
      rw [attachVolume_returns_of_capacity known comes]
      refine iff_of_true (fun positive => ?_) ⟨.inl usedUp, fun waits => absurd usedUp waits.left⟩
      exact absurd positive (Int.lt_irrefl 0)
    · by_cases enough : EnoughComes answers.recv 8
      · obtain ⟨bound, comes⟩ := capacity_filled usedUp enough
        rw [attachVolume_returns_of_capacity known comes]
        rw [and_iff_right (.inr enough)]
        constructor
        · exact fun returns waits => returns waits.capacity waits.ioctl
        · exact fun returns capacity ioctl => returns ⟨known, usedUp, enough, capacity, ioctl⟩
      · refine iff_of_false (not_returns fun fuel => ?_) fun both => both.1.elim usedUp enough
        rw [attachVolume_unknown known, capacity_never usedUp enough]
        rfl

theorem attachVolume_finishes_iff :
    (DaemonCall.attachVolume vol_id instid updateToRS updateToLocalFile).Finishes answers daemon ↔
      (DaemonCall.attachVolume vol_id instid updateToRS updateToLocalFile).Ends answers daemon := by
  refine Iff.trans ?_ (attachVolume_returns_iff instid updateToRS 30)
  constructor
  · rintro ⟨bound, ret, after, returns, -⟩
    exact ⟨bound, _, returns⟩
  · rintro ⟨bound, ⟨ret, after⟩, returns⟩
    refine ⟨bound, ret, after, returns, fun waits absent => ?_⟩
    rcases (attachVolume_returns_iff instid updateToRS 30).mp ⟨bound, _, returns⟩ with
      known | ⟨-, appears⟩
    · exact absurd known waits.unknown
    · obtain ⟨count, before, found⟩ := appears waits
      rw [absent count before] at found
      cases found

end Attach

/-- Each of the functions returns if and only if it does not come to wait for bytes and errors that
do not come, to wait for a device file that is not there in time, or to a volume to detach. -/
theorem daemonCall_finishes_iff (answers : Answers) (daemon : Daemon) (call : DaemonCall) :
    call.Finishes answers daemon ↔ call.Ends answers daemon := by
  cases call with
  | ccmaBufferRead size => exact ccmaBufferRead_returns_iff answers.recv answers.stream size
  | attachVolume => exact attachVolume_finishes_iff
  | detachAllVolume => exact detachAllVolume_finishes_iff

def closedPeer : Answers :=
  ⟨fun _ => 0, BitVec.ofNat 8, fun _ => true, fun _ => attachOK, fun _ => true, 0, true⟩

def noDeviceFile : Answers :=
  ⟨fun _ => 8, BitVec.ofNat 8, fun _ => false, fun _ => attachOK, fun _ => true, 0, true⟩

def oneVolume : Daemon := ⟨[⟨5, ⟨[], by decide⟩⟩], none, {5}⟩

/-- None of the three returns: a read from a closed connection, an attach whose device file never
appears, and `detach_all_volume` with one volume on the list. -/
theorem daemonCalls_never_finish :
    ¬ (DaemonCall.ccmaBufferRead 2).Finishes closedPeer Daemon.start ∧
      ¬ (DaemonCall.attachVolume 5 ⟨[], by decide⟩ 0 1).Finishes noDeviceFile Daemon.start ∧
      ¬ DaemonCall.detachAllVolume.Finishes noDeviceFile oneVolume := by
  refine ⟨?_, ?_, ?_⟩
  · intro finishes
    rcases (ccmaBufferRead_returns_iff _ _ 2).mp finishes with usedUp | ⟨call, enough⟩
    · obtain ⟨start, -, -, -, gap, -, used⟩ := usedUp
      have none (gap : Nat) : failures closedPeer.recv (start + 1) gap = 0 := by
        induction gap with
        | zero => rfl
        | succ gap inductionHypothesis => exact inductionHypothesis
      rw [none] at used
      exact Nat.not_succ_le_zero 4 used
    · have none (call : Nat) : brought closedPeer.recv (min 2 255) call = 0 := by
        induction call with
        | zero => rfl
        | succ call inductionHypothesis => exact inductionHypothesis
      rw [none] at enough
      exact Nat.not_succ_le_zero 1 enough
  · intro finishes
    have waits : WaitsForFile noDeviceFile Daemon.start 5 1 := by
      refine ⟨fun known => List.not_mem_nil known.2, ?_, ⟨1, Nat.le_refl 8⟩, by decide, rfl⟩
      rintro ⟨start, -, -, -, gap, idle, -⟩
      have data : ¬ (8 : Int) ≤ 0 := by decide
      exact data (idle 0 (Nat.succ_pos gap))
    rcases attachVolume_finishes_iff.mp finishes with known | ⟨-, appears⟩
    · exact waits.unknown known
    · obtain ⟨count, -, found⟩ := appears waits
      cases found
  · intro finishes
    exact List.cons_ne_nil _ _ (detachAllVolume_finishes_iff.mp finishes)

end DmsBlkdev.UserDaemon
