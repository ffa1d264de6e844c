import DmsBlkdev.Node.Connection

/-!
# Whether the work item is initialised while it is pending

`__Schedule_to_Node_Builder_Workq` initialises the item under the lock, when
it has found it not pending.  The callback of the socket takes the lock and
does not look, so a second change of the socket to a state of its shutdown
initialises an item that still waits for its delay.
-/

namespace DmsBlkdev

open Lib Lib.Run

def TCPState.quiet : TCPState → Bool
  | synSent => true
  | synRecv => true
  | established => true
  | _ => false

theorem NodeContainer.socketStateChange_quiet {dnc : NodeContainer} {skState : TCPState}
    (isQuiet : skState.quiet = true) : dnc.socketStateChange skState = dnc.touch := by
  cases skState <;> first | rfl | cases isQuiet

theorem NodeContainer.socketStateChange_shutdown {dnc : NodeContainer} {skState : TCPState}
    (shutdown : skState.quiet = false) :
    dnc.socketStateChange skState = dnc.touch.queueWork .rebuildConnection := by
  cases skState <;> first | rfl | cases shutdown

namespace NodeState

/-- `INIT_WORK` was never applied to an item that was pending. -/
def NotReinitialised (state : NodeState) : Prop := state.dnc.reinitialised = false

def ShutsDownIdle (state : NodeState) : NodeEvent → Prop
  | .stateChange skState => state.dnc.hooked = true → skState.quiet = false →
      state.dnc.bcWork.pending = false
  | _ => True

variable {state after : NodeState} {event : NodeEvent}

/-- A thread initialises the item where it has found it not pending. -/
theorem reinitialised_advance {created : Bool} {connect : ConnectResult} {dnc : NodeContainer}
    {phase : NodePhase} :
    (phase.advance created connect dnc).1.reinitialised = dnc.reinitialised := by
  fun_cases phase.advance created connect dnc <;> simp_all

theorem NotReinitialised.step (intact : state.NotReinitialised) (idle : state.ShutsDownIdle event)
    (run : state.step event = some after) : after.NotReinitialised := by
  cases taken_of_step run with
  | build absent => exact intact
  | destroy absent => exact intact
  | expire delayed => exact intact
  | work queued absent => exact intact
  | @stateChange skState hooked =>
      cases shutdown : skState.quiet with
      | true =>
          rw [NotReinitialised, NodeContainer.socketStateChange_quiet shutdown]
          exact intact
      | false =>
          rw [NotReinitialised, NodeContainer.socketStateChange_shutdown shutdown]
          exact Bool.or_eq_false_iff.mpr ⟨intact, idle hooked shutdown⟩
  | @advance who created connect call here waited =>
      rw [NotReinitialised, reinitialised_advance]
      unfold NodePhase.touched
      split <;> exact intact

/-- Any other callback initialises the pending item. -/
theorem reinitialised (pending : ¬ state.ShutsDownIdle event) :
    ∃ after, state.step event = some after ∧ ¬ after.NotReinitialised := by
  cases event with
  | stateChange skState =>
      simp only [ShutsDownIdle, not_forall, Bool.not_eq_false] at pending
      obtain ⟨hooked, shutdown, pending⟩ := pending
      refine ⟨_, if_pos hooked, ?_⟩
      rw [NotReinitialised, NodeContainer.socketStateChange_shutdown shutdown]
      intro intact
      have idle := (Bool.or_eq_false_iff.mp intact).2
      exact Bool.false_ne_true (idle.symm.trans pending)
  | build who => exact absurd trivial pending
  | destroy who => exact absurd trivial pending
  | expire => exact absurd trivial pending
  | work who => exact absurd trivial pending
  | advance who created connect => exact absurd trivial pending

/-- No pending item is initialised in a run exactly when nothing is pending at each callback of the
run that comes at a state of the shutdown. -/
theorem notReinitialised_always_iff (events : List NodeEvent) :
    Always NotReinitialised step init events ↔ Guarded ShutsDownIdle step init events :=
  always_iff_guarded_of_broken (fun _ _ _ intact idle run => intact.step idle run)
    (fun _ _ _ pending => reinitialised pending) (fun _ intact => intact) rfl

def shutsDownTwice : List NodeEvent :=
  [.build 0] ++ List.replicate 5 (.advance 0 true .failed) ++ [.expire, .work 0] ++
    List.replicate 3 (.advance 0 true .failed) ++
    [.advance 0 true (.ok .established), .stateChange .closeWait, .stateChange .lastAck]

theorem reinitialised_by_second_shutdown :
    ¬ ∀ events, Always NotReinitialised step init events := by
  intro always
  have last := always shutsDownTwice shutsDownTwice [] _ (List.append_nil _).symm rfl
  cases last

end NodeState

end DmsBlkdev
