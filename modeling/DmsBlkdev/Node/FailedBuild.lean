import DmsBlkdev.Node.Connection
import DmsBlkdev.Node.Table

/-!
# What a failed build of a node leaves behind

`Build_DMS_Node_Container` acquires a container and its socket, a slot of the
table and a place on the queue of the node builder, one after the other.  A
container that cannot be set up is released again.  The exits behind that
release nothing.
-/

namespace DmsBlkdev

/-- `EDNC_RC_OVTIME`. -/
def eDNCRCOvtime : Int := 1603

structure BuildAnswers where
  container : Option Nat
  sockCreate : Int
  sock : Nat
  setTCPOptions : Int
  queueDelayedWork : Int

/-- `struct DMS_Node_Container` while it is built.  It has no status before it is set up. -/
structure BuildingContainer where
  addr : Nat
  ssk : SSocket
  index : Int
  sock : Option Nat
  status : Option DNodeStatus
  retryCount : Nat
  bcWork : Bool
  deriving DecidableEq, Repr

structure NodeResources where
  nodes : DMSNodes
  containers : List Nat
  sockets : List Nat
  deriving DecidableEq, Repr

namespace NodeResources

variable (answers : BuildAnswers)

def sockRelease (resources : NodeResources) (sock : Nat) : NodeResources :=
  { resources with sockets := resources.sockets.erase sock }

/-- `__DNC_Create_Socket`. -/
def dncCreateSocket (resources : NodeResources) (dnc : BuildingContainer) :
    Int × BuildingContainer × NodeResources :=
  if dnc.sock.isNone then
    if 0 ≤ answers.sockCreate then
      let created := { resources with sockets := answers.sock :: resources.sockets }
      if answers.setTCPOptions = 0 then
        (answers.setTCPOptions, { dnc with sock := some answers.sock }, created)
      else (answers.setTCPOptions, dnc, created.sockRelease answers.sock)
    else (answers.sockCreate, dnc, resources)
  else (dmsFail, dnc, resources)

/-- `__DNC_Release_Socket` of a container without a receiver. -/
def dncReleaseSocket (resources : NodeResources) (dnc : BuildingContainer) :
    BuildingContainer × NodeResources :=
  match dnc.sock with
  | some sock => ({ dnc with sock := none }, resources.sockRelease sock)
  | none => (dnc, resources)

/-- `__DNC_State_Transition` to `DNODE_INIT`. -/
def transitInit (resources : NodeResources) (dnc : BuildingContainer) :
    Int × BuildingContainer × NodeResources :=
  match resources.dncCreateSocket answers dnc with
  | (retcode, dnc, resources) =>
      (retcode, { dnc with status := if 0 ≤ retcode then some .init else dnc.status }, resources)

/-- `__DNC_State_Transition` to `DNODE_DISCONNECTED`. -/
def transitDisconnected (resources : NodeResources) (dnc : BuildingContainer) :
    BuildingContainer × NodeResources :=
  resources.dncReleaseSocket { dnc with status := some .disconnected }

/-- `__Cancel_from_Node_Builder_Workq`. -/
def cancelFromNodeBuilderWorkq (dnc : BuildingContainer) : BuildingContainer :=
  { dnc with bcWork := dnc.bcWork && dnc.sock.isNone }

/-- `Release_DMS_Node_Container`. -/
def releaseDMSNodeContainer (resources : NodeResources) (dnc : BuildingContainer) :
    NodeResources :=
  let (dnc, resources) := match dnc.status with
    | some .building => resources.transitDisconnected (cancelFromNodeBuilderWorkq dnc)
    | some .init => resources.transitDisconnected dnc
    | some .connected => resources.transitDisconnected dnc
    | some .disconnected => (dnc, resources)
    | none => (dnc, resources)
  { resources with containers := resources.containers.erase dnc.addr }

/-- `Init_DMS_Node_Container`. -/
def initDMSNodeContainer (resources : NodeResources) (addr : Nat) (ssk : SSocket) :
    Int × BuildingContainer × NodeResources :=
  resources.transitInit answers ⟨addr, ssk, 0, none, none, 0, false⟩

/-- `Create_DMS_Node_Container`. -/
def createDMSNodeContainer (resources : NodeResources) (ssk : SSocket) :
    Option BuildingContainer × NodeResources :=
  match answers.container with
  | none => (none, resources)
  | some addr =>
      let allocated := { resources with containers := addr :: resources.containers }
      match allocated.initDMSNodeContainer answers addr ssk with
      | (retcode, dnc, resources) =>
          if retcode = dmsOK then (some dnc, resources)
          else (none, resources.releaseDMSNodeContainer dnc)

/-- `Destroy_DMS_Node_Container`, for the index of this container. -/
def destroyDMSNodeContainer (resources : NodeResources) (dnc : BuildingContainer) :
    NodeResources :=
  match resources.nodes.cleanOneIndex dnc.index with
  | (some _, nodes) => { resources with nodes }.releaseDMSNodeContainer dnc
  | (none, nodes) => { resources with nodes }

/-- `__Schedule_to_Node_Builder_Workq`. -/
def scheduleToNodeBuilderWorkq (resources : NodeResources) (dnc : BuildingContainer) :
    Int × BuildingContainer × NodeResources :=
  if dnc.sock.isSome then
    if dnc.bcWork then (dmsOK, dnc, resources)
    else if dnc.retryCount ≤ connectionRetryMaxTry then
      (answers.queueDelayedWork, { dnc with
        retryCount := dnc.retryCount + 1
        bcWork := answers.queueDelayedWork ≠ 0 }, resources)
    else (-eDNCRCOvtime, dnc, resources.destroyDMSNodeContainer dnc)
  else (dmsFail, dnc, resources)

/-- `__DNC_State_Transition` to `DNODE_BUILDING`. -/
def transitBuilding (resources : NodeResources) (dnc : BuildingContainer) :
    Int × BuildingContainer × NodeResources :=
  match resources.scheduleToNodeBuilderWorkq answers dnc with
  | (retcode, dnc, resources) =>
      (retcode, { dnc with status := if 0 ≤ retcode then some .building else dnc.status },
        resources)

/-- `Build_Connection`. -/
def buildConnection (resources : NodeResources) (dnc : BuildingContainer) :
    Int × BuildingContainer × NodeResources :=
  if dnc.sock.isSome ∧ dnc.status = some .init then resources.transitBuilding answers dnc
  else (dmsFail, dnc, resources)

/-- `Build_DMS_Node_Container`. -/
def buildDMSNodeContainer (resources : NodeResources) (nodeIP : BitVec 32) (port : BitVec 16) :
    Int × NodeResources :=
  match resources.createDMSNodeContainer answers ⟨nodeIP, port⟩ with
  | (none, resources) => (dmsFail, resources)
  | (some dnc, resources) =>
      match resources.nodes.occupyOneIndex ⟨dnc.ssk, dnc.index⟩ with
      | (index, nodes) =>
          if nodes.dncInRange index then
            let dnc := { dnc with index }
            let indexed := { resources with nodes := nodes.set index.toNat (some ⟨dnc.ssk, index⟩) }
            match indexed.buildConnection answers dnc with
            | (retcode, _, resources) => (if 0 < retcode then index else dmsFail, resources)
          else (dmsFail, { resources with nodes })

end NodeResources

def BuildAnswers.Creates (answers : BuildAnswers) : Prop :=
  answers.container.isSome ∧ 0 ≤ answers.sockCreate ∧ answers.setTCPOptions = 0

instance (answers : BuildAnswers) : Decidable answers.Creates :=
  inferInstanceAs (Decidable (_ ∧ _ ∧ _))

namespace NodeResources

variable {answers : BuildAnswers} (resources : NodeResources)

theorem createDMSNodeContainer_creates (creates : answers.Creates) (ssk : SSocket) :
    ∃ addr, resources.createDMSNodeContainer answers ssk =
      (some ⟨addr, ssk, 0, some answers.sock, some .init, 0, false⟩,
        { resources with
          containers := addr :: resources.containers
          sockets := answers.sock :: resources.sockets }) := by
  obtain ⟨granted, created, options⟩ := creates
  obtain ⟨addr, granted⟩ := Option.isSome_iff_exists.mp granted
  refine ⟨addr, ?_⟩
  simp [createDMSNodeContainer, initDMSNodeContainer, transitInit, dncCreateSocket, granted,
    created, options, dmsOK]

/-- A container that cannot be created or set up leaves nothing behind. -/
theorem createDMSNodeContainer_fails (fails : ¬answers.Creates) (ssk : SSocket) :
    resources.createDMSNodeContainer answers ssk = (none, resources) := by
  rw [createDMSNodeContainer]
  cases granted : answers.container with
  | none => rfl
  | some addr =>
      have granted : answers.container.isSome := by rw [granted]; rfl
      by_cases created : 0 ≤ answers.sockCreate
      · have options : answers.setTCPOptions ≠ 0 := fun options =>
          fails ⟨granted, created, options⟩
        by_cases positive : 0 ≤ answers.setTCPOptions <;>
          simp [initDMSNodeContainer, transitInit, dncCreateSocket, created, options, dmsOK,
            positive, sockRelease, releaseDMSNodeContainer, transitDisconnected, dncReleaseSocket]
      · have failed : answers.sockCreate ≠ 0 := fun zero => created (Int.le_of_eq zero.symm)
        simp [initDMSNodeContainer, transitInit, dncCreateSocket, created, failed, dmsOK,
          releaseDMSNodeContainer]

theorem buildConnection_init (addr : Nat) (ssk : SSocket) (index : Int) (sock : Nat) :
    ∃ dnc, resources.buildConnection answers ⟨addr, ssk, index, some sock, some .init, 0, false⟩ =
      (answers.queueDelayedWork, dnc, resources) :=
  ⟨_, rfl⟩

/-- The build of a container that is set up, from the table on. -/
theorem buildDMSNodeContainer_creates (creates : answers.Creates) (nodeIP : BitVec 32)
    (port : BitVec 16) :
    ∃ addr, resources.buildDMSNodeContainer answers nodeIP port =
      let built := resources.nodes.buildDMSNodeContainer true answers.queueDelayedWork nodeIP port
      (built.1,
        ⟨built.2, addr :: resources.containers, answers.sock :: resources.sockets⟩) := by
  obtain ⟨addr, created⟩ := resources.createDMSNodeContainer_creates creates ⟨nodeIP, port⟩
  refine ⟨addr, ?_⟩
  rw [buildDMSNodeContainer, created, DMSNodes.buildDMSNodeContainer, if_pos rfl]
  dsimp only
  split
  · obtain ⟨dnc, scheduled⟩ := buildConnection_init _ addr ⟨nodeIP, port⟩ _ answers.sock
    rw [scheduled]
  · rfl

theorem buildDMSNodeContainer_nodes (nodeIP : BitVec 32) (port : BitVec 16) :
    let built := resources.buildDMSNodeContainer answers nodeIP port
    (built.1, built.2.nodes) = resources.nodes.buildDMSNodeContainer answers.Creates
      answers.queueDelayedWork nodeIP port := by
  by_cases creates : answers.Creates
  · obtain ⟨addr, built⟩ := resources.buildDMSNodeContainer_creates creates nodeIP port
    rw [built, decide_eq_true creates]
  · rw [buildDMSNodeContainer, resources.createDMSNodeContainer_fails creates,
      decide_eq_false creates]
    rfl

/-- When the call returns a negative code, the table is as before, and no container or socket of the
call is left. -/
def LeavesNoTrace (answers : BuildAnswers) (resources : NodeResources) (nodeIP : BitVec 32)
    (port : BitVec 16) : Prop :=
  (resources.buildDMSNodeContainer answers nodeIP port).1 < 0 →
    (resources.buildDMSNodeContainer answers nodeIP port).2 = resources

/-- The address is new, a slot is empty and the work gets on the queue. -/
def GoesThrough (answers : BuildAnswers) (resources : NodeResources) (nodeIP : BitVec 32)
    (port : BitVec 16) : Prop :=
  (∀ i, resources.nodes.sskAt i ≠ some ⟨nodeIP, port⟩) ∧
    resources.nodes.findIdx? Option.isNone ≠ none ∧ 0 < answers.queueDelayedWork

theorem buildDMSNodeContainer_nonneg_iff {nodes : DMSNodes} {queueDelayedWork : Int}
    {nodeIP : BitVec 32} {port : BitVec 16} :
    0 ≤ (nodes.buildDMSNodeContainer true queueDelayedWork nodeIP port).1 ↔
      (∀ i, nodes.sskAt i ≠ some ⟨nodeIP, port⟩) ∧
        nodes.findIdx? Option.isNone ≠ none ∧ 0 < queueDelayedWork := by
  have negative : ¬0 ≤ dmsFail := by decide
  by_cases fresh : ∀ i, nodes.sskAt i ≠ some ⟨nodeIP, port⟩
  · cases empty : nodes.findIdx? Option.isNone with
    | none =>
        rw [DMSNodes.buildDMSNodeContainer_none true _ (.inr (.inr empty))]
        simp [dmsFail]
    | some index =>
        rw [DMSNodes.buildDMSNodeContainer_some _ fresh empty]
        by_cases queued : 0 < queueDelayedWork
        · rw [if_pos queued]
          exact iff_of_true (Int.natCast_nonneg index) ⟨fresh, Option.some_ne_none _, queued⟩
        · rw [if_neg queued]
          exact iff_of_false negative fun goes => queued goes.2.2
  · obtain ⟨i, there⟩ := not_forall_not.mp fresh
    rw [DMSNodes.buildDMSNodeContainer_none true _ (.inr (.inl ⟨i, there⟩))]
    exact iff_of_false negative fun goes => fresh goes.1

def oneNode : NodeResources := ⟨[some ⟨⟨1, 2⟩, 0⟩, none], [10], [20]⟩

end NodeResources

end DmsBlkdev
