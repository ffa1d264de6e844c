import DmsBlkdev.LogicalBlock
import DmsBlkdev.Memory

/-!
# Kernel requests, IO requests and DIOs

A kernel request is handed to the driver once.  The driver makes an IO request
of it, which lists the DIOs it was split into, and reports the outcome of the
whole request through `DMS_End_Request_Handler`.
-/

namespace DmsBlkdev

/-- Why a function does not return: a null pointer was dereferenced, or it is still running. -/
inductive Fault where
  | oops
  | running
  deriving DecidableEq, Repr

section KernelRequest

/-- `struct bio`: its first sector and its number of segments. -/
structure Bio where
  sector : Nat
  vcnt : Nat
  deriving DecidableEq, Repr

/-- `struct request`: `special` is the address of the IO request attached to it, `completions`
the results `end_that_request_last` was reached with. -/
structure KRequest where
  sector : Nat
  nrSectors : Nat
  isWrite : Bool
  bios : List Bio
  special : Option Nat
  completions : List Int
  deriving DecidableEq, Repr

namespace KRequest

variable (kreq : KRequest)

/-- `rq_data_dir`. -/
def op : DMSOp := if kreq.isWrite then .write else .read

def sLBID : Nat := ksectorsToLBID kreq.sector

def nrLBIDs : Nat := ksectorsToLBID kreq.nrSectors

/-- A request as `DMS_Request_Handler` passes it on: nothing attached, nothing completed. -/
def Fresh : Prop := kreq.special = none ∧ kreq.completions = []

/-- Completed once, with a result that the block layer takes for a failure. -/
def FailedOnce : Prop := ∃ result ≤ 0, kreq.completions = [result]

end KRequest

/-- `DMS_End_Request_Handler`: the request afterwards and the return value.
`end_that_request_first` returns zero when the sectors it is given finish the request. -/
def dmsEndRequestHandler (kreq : KRequest) (nsectors : Nat) (result : Int) : KRequest × Int :=
  match kreq.special with
  | none => (kreq, dmsFail)
  | some _ =>
      if kreq.nrSectors ≤ nsectors then
        ({ kreq with special := none, completions := kreq.completions ++ [result] }, 0)
      else (kreq, 1)

/-- Without an attached IO request the handler leaves the kernel request alone. -/
@[simp] theorem dmsEndRequestHandler_none {kreq : KRequest} (detached : kreq.special = none)
    (nsectors : Nat) (result : Int) :
    dmsEndRequestHandler kreq nsectors result = (kreq, dmsFail) := by
  simp [dmsEndRequestHandler, detached]

end KernelRequest

section IORequest

/-- `struct DMS_IO`. -/
structure DMSIO where
  addr : Nat
  op : DMSOp
  sLBID : Nat
  nrLBIDs : Nat
  lbList : Option LBList
  result : Int
  deriving DecidableEq, Repr

namespace DMSIO

/-- The block ids of `[sLBID, sLBID + nr_LBIDs)`. -/
def range (dio : DMSIO) : List Nat := List.range' dio.sLBID dio.nrLBIDs

def lbids (dio : DMSIO) : List Nat := (dio.lbList.map LBList.lbids).getD []

end DMSIO

/-- `struct DList` of an IO request; each node has its own address. -/
structure DIOList where
  addr : Nat
  nodes : List (Nat × DMSIO)
  deriving DecidableEq, Repr

/-- `struct IO_Request`. -/
structure IORequest where
  addr : Nat
  diolist : Option DIOList
  result : Int
  refCnt : Nat
  deriving DecidableEq, Repr

namespace IORequest

def dios (ior : IORequest) : List DMSIO :=
  ((ior.diolist.map DIOList.nodes).getD []).map Prod.snd

end IORequest

variable (grants : Grants)

/-- `Create_DList`. -/
def createDList (memory : Memory) : Option DIOList × Memory :=
  ((malloc grants .dList memory).1.map fun addr => ⟨addr, []⟩, (malloc grants .dList memory).2)

/-- `Create_IO_Request`; `Init_IO_Request` goes on when `Create_DList` returns null. -/
def createIORequest (memory : Memory) : Option IORequest × Memory :=
  match malloc grants .ioRequest memory with
  | (none, memory) => (none, memory)
  | (some addr, memory) =>
      let created := createDList grants memory
      (some ⟨addr, created.1, 1, 0⟩, created.2)

/-- `Create_DIO`, up to the address: `Init_DIO` succeeds without a DIO, and the print behind it reads
the id of the DIO. -/
def createDIO (memory : Memory) : Except Fault (Option Nat × Memory) :=
  match malloc grants .dio memory with
  | (none, memory) => if dioDbg dmsDbgFlag then .error .oops else .ok (none, memory)
  | (some addr, memory) => .ok (some addr, memory)

theorem createDIO_granted {memory : Memory} (granted : grants .dio (memory.attempts .dio) = true) :
    createDIO grants memory =
      .ok (some (memory.attempts .dio), (malloc grants .dio memory).2) := by
  simp [malloc, createDIO, granted]

theorem createDIO_refused {memory : Memory} (refused : grants .dio (memory.attempts .dio) = false) :
    createDIO grants memory = .error .oops := by
  simp [malloc, createDIO, refused]

/-- `Add_DIO_to_IO_Reqeust`: without a list the DIO is not added; a node that could not be
allocated is dereferenced. -/
def addDIOToIORequest (ior : IORequest) (dio : DMSIO) (memory : Memory) :
    Except Fault (IORequest × Memory) :=
  match ior.diolist with
  | none => .ok (ior, memory)
  | some list =>
      match malloc grants .dln memory with
      | (none, _) => .error .oops
      | (some node, memory) =>
          .ok ({ ior with
            diolist := some { list with nodes := list.nodes ++ [(node, dio)] }
            refCnt := ior.refCnt + 1 }, memory)

theorem addDIOToIORequest_ok {ior ior' : IORequest} {dio : DMSIO} {memory memory' : Memory}
    (added : addDIOToIORequest grants ior dio memory = .ok (ior', memory')) :
    (ior.diolist = none ∧ ior' = ior ∧ memory' = memory) ∨
      (ior.diolist ≠ none ∧ grants .dln (memory.attempts .dln) = true ∧
        memory' = (malloc grants .dln memory).2 ∧ ior'.diolist ≠ none ∧
        ior'.dios = ior.dios ++ [dio]) := by
  unfold addDIOToIORequest at added
  cases attached : ior.diolist with
  | none =>
      rw [attached] at added
      cases added
      exact .inl ⟨rfl, rfl, rfl⟩
  | some list =>
      rw [attached] at added
      cases granted : grants .dln (memory.attempts .dln) with
      | false => simp [malloc, granted] at added
      | true =>
          simp only [malloc, granted, if_true] at added
          cases added
          exact .inr ⟨by simp, rfl, rfl, by simp, by simp [IORequest.dios, attached]⟩

theorem addDIOToIORequest_granted {ior : IORequest} (dio : DMSIO) {memory : Memory}
    (attached : ior.diolist ≠ none) (granted : grants .dln (memory.attempts .dln) = true) :
    ∃ ior', addDIOToIORequest grants ior dio memory = .ok (ior', (malloc grants .dln memory).2) ∧
      ior'.diolist ≠ none ∧ ior'.dios = ior.dios ++ [dio] := by
  obtain ⟨list, attached⟩ := Option.ne_none_iff_exists'.mp attached
  let grown : DIOList := { list with nodes := list.nodes ++ [(memory.attempts .dln, dio)] }
  refine ⟨{ ior with diolist := some grown, refCnt := ior.refCnt + 1 }, ?_, ?_, ?_⟩
  · simp [addDIOToIORequest, attached, malloc, granted, grown]
  · simp
  · simp [IORequest.dios, attached, grown]

/-- `Release_LogicalBlock_List`. -/
def releaseLogicalBlockList (list : Option LBList) (memory : Memory) : Memory :=
  match list with
  | none => memory
  | some list =>
      free .lbList list.addr
        (list.blocks.foldl (fun memory lbmd => free .lbmd lbmd.addr memory) memory)

/-- `Release_DIO`. -/
def releaseDIO (dio : DMSIO) (memory : Memory) : Memory :=
  free .dio dio.addr (releaseLogicalBlockList dio.lbList memory)

/-- `Release_IO_Request`, which releases the DIOs on the list too. -/
def releaseIORequest (ior : IORequest) (memory : Memory) : Memory :=
  let emptied := match ior.diolist with
    | none => memory
    | some list =>
        free .dList list.addr
          (list.nodes.foldl (fun memory node => free .dln node.1 <| releaseDIO node.2 memory) memory)
  free .ioRequest ior.addr emptied

/-- `Add_IO_Reqeust_to_KRequest`; the print at its end reads the id of the IO request. -/
def addIORequestToKRequest (kreq : KRequest) (ior : Option IORequest) : Except Fault KRequest :=
  match ior with
  | none => if iorDbg dmsDbgFlag then .error .oops else .ok kreq
  | some ior => .ok { kreq with special := some ior.addr }

end IORequest

end DmsBlkdev
