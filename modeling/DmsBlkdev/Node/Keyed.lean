import DmsBlkdev.Node.Table

/-!
# Whether the node table is keyed by ip and port

Node containers are built and destroyed in any order.  The table records the
builds that returned their slot.  No two slots ever have one ip and port, and
both lookups agree on what is not in the table; a node on a port from 32768
on is found by its `struct SSocket` and not by its ip and port.
-/

namespace DmsBlkdev

open Lib.Run

/-- The table with the builds that returned a slot, until the slot is destroyed. -/
structure NodeTable where
  nodes : DMSNodes
  built : List (Nat × SSocket)

inductive NodeTableEvent where
  | build (created : Bool) (buildConnection : Int) (nodeIP : BitVec 32) (port : BitVec 16)
  | destroy (nodeIndex : Int)

namespace NodeTable

/-- `Init_DNCS_Manager`. -/
def init : NodeTable := ⟨List.replicate dmsMaxNodes none, []⟩

def step (table : NodeTable) : NodeTableEvent → Option NodeTable
  | .build created buildConnection nodeIP port =>
      match table.nodes.buildDMSNodeContainer created buildConnection nodeIP port with
      | (retcode, nodes) => some {
          nodes
          built := if 0 ≤ retcode then (retcode.toNat, ⟨nodeIP, port⟩) :: table.built
            else table.built }
  | .destroy nodeIndex => some {
      nodes := table.nodes.destroyDMSNodeContainer nodeIndex
      built := table.built.filter fun entry => (entry.1 : Int) ≠ nodeIndex }

/-- No two slots have one ip and port; both lookups find every node that was built, and nothing
that is not in the table. -/
structure KeyedByIPPort (table : NodeTable) : Prop where
  distinct : table.nodes.Distinct
  found : ∀ entry ∈ table.built,
    table.nodes.getNodeIndexByIPPort entry.2.ip entry.2.port = entry.1 ∧
    table.nodes.getNodeIndexBySSocket entry.2 = entry.1
  absent : ∀ ssk, (∀ i, table.nodes.sskAt i ≠ some ssk) →
    table.nodes.getNodeIndexByIPPort ssk.ip ssk.port = -1 ∧
    table.nodes.getNodeIndexBySSocket ssk = -1

def PortBelow (table : NodeTable) : NodeTableEvent → Prop
  | .build created buildConnection nodeIP port =>
      created = true → 0 < buildConnection → (∀ i, table.nodes.sskAt i ≠ some ⟨nodeIP, port⟩) →
        none ∈ table.nodes → port.toNat < 2 ^ 15
  | .destroy _ => True

structure Kept (table : NodeTable) : Prop where
  distinct : table.nodes.Distinct
  built : ∀ entry ∈ table.built,
    table.nodes.sskAt entry.1 = some entry.2 ∧ entry.2.port.toNat < 2 ^ 15

variable {table after : NodeTable} {event : NodeTableEvent}

theorem Kept.keyedByIPPort (kept : table.Kept) : table.KeyedByIPPort where
  distinct := kept.distinct
  found entry member := by
    obtain ⟨there, below⟩ := kept.built entry member
    exact ⟨DMSNodes.getNodeIndexByIPPort_some kept.distinct there below,
      DMSNodes.getNodeIndexBySSocket_some kept.distinct there⟩
  absent ssk absent := ⟨DMSNodes.getNodeIndexByIPPort_none (.inl absent),
    DMSNodes.getNodeIndexBySSocket_none absent⟩

/-- What a build comes to: a slot for a new node, or nothing. -/
theorem build_cases (table : NodeTable) (created : Bool) (buildConnection : Int)
    (nodeIP : BitVec 32) (port : BitVec 16) :
    (∃ index, created = true ∧ (∀ i, table.nodes.sskAt i ≠ some ⟨nodeIP, port⟩) ∧
      none ∈ table.nodes ∧ table.nodes.sskAt index = none ∧ index < table.nodes.length ∧
      table.step (.build created buildConnection nodeIP port) = some {
        nodes := table.nodes.set index (some ⟨⟨nodeIP, port⟩, index⟩)
        built := if 0 < buildConnection then (index, ⟨nodeIP, port⟩) :: table.built
          else table.built }) ∨
    (created = false ∨ (∃ i, table.nodes.sskAt i = some ⟨nodeIP, port⟩) ∨
        none ∉ table.nodes) ∧
      table.step (.build created buildConnection nodeIP port) = some table := by
  by_cases refused : created = false ∨ (∃ i, table.nodes.sskAt i = some ⟨nodeIP, port⟩) ∨
      none ∉ table.nodes
  · refine .inr ⟨refused, ?_⟩
    have full : none ∉ table.nodes → table.nodes.findIdx? Option.isNone = none := by
      intro full
      rw [List.findIdx?_eq_none_iff]
      intro slot member
      rw [Option.isNone_eq_false_iff, Option.isSome_iff_ne_none]
      rintro rfl
      exact full member
    rw [step, DMSNodes.buildDMSNodeContainer_none created buildConnection
      (refused.imp_right (Or.imp_right full))]
    rfl
  · simp only [not_or, not_exists, not_not, Bool.not_eq_false] at refused
    obtain ⟨rfl, fresh, empty⟩ := refused
    obtain ⟨index, empty'⟩ : ∃ index, table.nodes.findIdx? Option.isNone = some index := by
      apply Option.isSome_iff_exists.mp
      rw [List.findIdx?_isSome, List.any_eq_true]
      exact ⟨none, empty, rfl⟩
    have occupied : table.nodes.occupyOneIndex ⟨⟨nodeIP, port⟩, 0⟩ = _ ∧ _ :=
      DMSNodes.occupyOneIndex_some fresh empty'
    refine .inl ⟨index, rfl, fresh, empty, occupied.2.2, occupied.2.1, ?_⟩
    rw [step, DMSNodes.buildDMSNodeContainer_some buildConnection fresh empty']
    by_cases scheduled : 0 < buildConnection
    · simp [scheduled]
    · simp [scheduled, dmsFail]

theorem Kept.occupy {index : Nat} {dnc : DMSNodeContainer} (kept : table.Kept)
    (fresh : ∀ i, table.nodes.sskAt i ≠ some dnc.ssk) (empty : table.nodes.sskAt index = none)
    (inside : index < table.nodes.length) : Kept ⟨table.nodes.set index (some dnc), table.built⟩ := by
  have setAt (j : Nat) := DMSNodes.sskAt_set (some dnc) inside j
  constructor
  · intro i j ssk first second
    rw [setAt] at first second
    split at first <;> split at second
    · next same same' => rw [same, same']
    · cases first
      exact absurd second (fresh j)
    · cases second
      exact absurd first (fresh i)
    · exact kept.distinct i j ssk first second
  · intro entry member
    obtain ⟨there, below⟩ := kept.built entry member
    refine ⟨?_, below⟩
    rw [setAt, if_neg]
    · exact there
    · intro same
      rw [same, empty] at there
      cases there

theorem Kept.step (kept : table.Kept) (below : table.PortBelow event)
    (taken : table.step event = some after) : after.Kept := by
  cases event with
  | build created buildConnection nodeIP port =>
      rcases table.build_cases created buildConnection nodeIP port with
        ⟨index, isCreated, fresh, some_empty, empty, inside, built⟩ | ⟨-, unchanged⟩
      · obtain rfl := Option.some.inj (built.symm.trans taken)
        have occupied : Kept ⟨table.nodes.set index (some ⟨⟨nodeIP, port⟩, index⟩), table.built⟩ :=
          kept.occupy fresh empty inside
        refine ⟨occupied.distinct, fun entry member => ?_⟩
        split at member
        · next scheduled =>
            rcases List.mem_cons.mp member with rfl | member
            · refine ⟨?_, below isCreated scheduled fresh some_empty⟩
              rw [DMSNodes.sskAt_set _ inside, if_pos rfl]
              rfl
            · exact occupied.built entry member
        · exact occupied.built entry member
      · exact Option.some.inj (unchanged.symm.trans taken) ▸ kept
  | destroy nodeIndex =>
      cases taken
      constructor
      · intro i j ssk first second
        rw [DMSNodes.sskAt_destroy] at first second
        split at first
        · cases first
        · split at second
          · cases second
          · exact kept.distinct i j ssk first second
      · intro entry member
        obtain ⟨member, elsewhere⟩ := List.mem_filter.mp member
        obtain ⟨there, below⟩ := kept.built entry member
        refine ⟨?_, below⟩
        rw [DMSNodes.sskAt_destroy, if_neg (of_decide_eq_true elsewhere)]
        exact there

/-- A node on a higher port is built and not found. -/
theorem missed (above : ¬ table.PortBelow event) :
    ∃ after, table.step event = some after ∧ ¬ after.KeyedByIPPort := by
  cases event with
  | destroy nodeIndex => exact absurd trivial above
  | build created buildConnection nodeIP port =>
      simp only [PortBelow, not_forall, Nat.not_lt] at above
      obtain ⟨isCreated, scheduled, fresh, some_empty, above⟩ := above
      rcases table.build_cases created buildConnection nodeIP port with
        ⟨index, -, -, -, empty, inside, built⟩ | ⟨refused, -⟩
      · refine ⟨_, built, fun keyed => ?_⟩
        rw [if_pos scheduled] at keyed
        have found := (keyed.found _ List.mem_cons_self).1
        rw [@DMSNodes.getNodeIndexByIPPort_none _ ⟨nodeIP, port⟩ (.inr above)] at found
        cases found
      · rcases refused with notCreated | ⟨i, there⟩ | full
        · rw [isCreated] at notCreated
          cases notCreated
        · exact absurd there (fresh i)
        · exact absurd some_empty full

theorem sskAt_init (i : Nat) : init.nodes.sskAt i = none := by
  rw [init, DMSNodes.sskAt, List.getElem?_replicate]
  split <;> rfl

theorem kept_init : init.Kept where
  distinct i j ssk first := by
    rw [sskAt_init] at first
    cases first
  built _ member := absurd member List.not_mem_nil

/-- The table is keyed by ip and port all along exactly when every build that comes to a slot and
schedules its connection is for a port below 32768. -/
theorem keyedByIPPort_always_iff (events : List NodeTableEvent) :
    Always KeyedByIPPort step init events ↔ Guarded PortBelow step init events :=
  always_iff_guarded_of_broken (fun _ _ _ kept below taken => kept.step below taken)
    (fun _ _ _ above => missed above) (fun _ kept => kept.keyedByIPPort) kept_init

/-- The first node is on port 32768. -/
theorem port_32768_missed :
    ¬ ∀ events, Always KeyedByIPPort step init events := by
  intro always
  have above : ¬ init.PortBelow (.build true 1 0 32768) := by
    intro below
    have fresh : ∀ i, init.nodes.sskAt i ≠ some ⟨0, 32768⟩ := by
      intro i there
      rw [sskAt_init] at there
      cases there
    exact absurd (below rfl Int.one_pos fresh List.mem_cons_self) (by decide)
  obtain ⟨after, taken, fails⟩ := missed above
  refine fails (always [.build true 1 0 32768] [.build true 1 0 32768] [] after rfl ?_)
  rw [run, taken]
  rfl

end NodeTable

end DmsBlkdev
