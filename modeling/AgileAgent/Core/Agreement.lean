import AgileAgent.Core.AgentSlot

/-! # Agreement of a slot with its worker

The slot's status stands for a state of its worker. After an operation the two agree, up to
points in time, exactly when the worker was already where the status went, or the operation
was a transition and the worker's own table allows the move.
-/

namespace AgileAgent.Core

open Machine RuntimeDomain

/-- A state without its point in time. -/
def timeless : WorkerState → WorkerState
  | .resting _ => .resting none
  | state => state

/-- The status an operation writes. -/
def Operation.newStatus : Operation → Moment → AgentSlotStatus
  | .transitionTo newStatus, _ => newStatus
  | .setProviderThread _ _, _ | .setThreadHandle _, _ => .starting
  | .enterResting blockedState, now => .resting now.utc blockedState false
  | .recoverFromResting, _ => .idle
  | .restingToError message, _ => .error message

def Operation.setsThread : Operation → Bool
  | .setProviderThread _ _ | .setThreadHandle _ => true
  | _ => false

def Operation.isTransition : Operation → Bool
  | .transitionTo _ => true
  | _ => false

section

variable [Unicode]

namespace AgentSlot

/-- The worker is in the state that the status stands for. -/
def Agrees (s : AgentSlot) : Prop := timeless s.worker.state = timeless s.status.toWorkerState

/-- The slot's own table refuses the operation. -/
def Refuses (s : AgentSlot) (call : Operation × Moment) : Prop :=
  call.1.setsThread = false ∧ s.status.canTransitionTo (call.1.newStatus call.2) = false

/-- The worker is where the operation takes the status, or the operation moves it there. -/
def Follows (s : AgentSlot) (call : Operation × Moment) : Prop :=
  let target := (call.1.newStatus call.2).toWorkerState
  s.Refuses call ∨ timeless s.worker.state = timeless target ∨
    (call.1.isTransition = true ∧ s.worker.state.canTransitionTo target = true)

theorem writeStatus_agrees_iff (s : AgentSlot) (newStatus : AgentSlotStatus) (refusal : String)
    (now : Moment) :
    ((s.writeStatus newStatus refusal now).1 = .ok () → (s.writeStatus newStatus refusal now).2.Agrees) ↔
      s.status.canTransitionTo newStatus = false ∨
        timeless s.worker.state = timeless newStatus.toWorkerState := by
  unfold writeStatus
  cases allowed : s.status.canTransitionTo newStatus with
  | true => simp [Agrees]
  | false => simp

theorem transitionTo_agrees_iff (s : AgentSlot) (newStatus : AgentSlotStatus) (now : Moment) :
    ((s.transitionTo newStatus now).1 = .ok () → (s.transitionTo newStatus now).2.Agrees) ↔
      s.status.canTransitionTo newStatus = false ∨
        timeless s.worker.state = timeless newStatus.toWorkerState ∨
        s.worker.state.canTransitionTo newStatus.toWorkerState = true := by
  unfold transitionTo Worker.transitionState WorkerState.transitionTo
  cases allowed : s.status.canTransitionTo newStatus with
  | true =>
      cases moved : s.worker.state.canTransitionTo newStatus.toWorkerState with
      | true => simp [Agrees]
      | false => simp [Agrees]
  | false => simp

/-- One operation: it returns `Ok` in agreement exactly when the worker follows. -/
theorem step_agrees_iff (s : AgentSlot) (call : Operation × Moment) :
    ((s.step call).1 = .ok () → (s.step call).2.Agrees) ↔ s.Follows call := by
  obtain ⟨operation, now⟩ := call
  cases operation with
  | transitionTo newStatus =>
      simp [step, transitionTo_agrees_iff, Follows, Refuses, Operation.newStatus,
        Operation.setsThread, Operation.isTransition]
  | setProviderThread =>
      simp [step, setProviderThread, Agrees, Follows, Refuses, Operation.newStatus,
        Operation.setsThread, Operation.isTransition]
  | setThreadHandle =>
      simp [step, setThreadHandle, Agrees, Follows, Refuses, Operation.newStatus,
        Operation.setsThread, Operation.isTransition]
  | enterResting | recoverFromResting | restingToError =>
      simp [step, enterResting, recoverFromResting, restingToError, writeStatus_agrees_iff, Follows,
        Refuses, Operation.newStatus, Operation.setsThread, Operation.isTransition]

/-- In every run, all operations that return `Ok` leave slot and worker in agreement exactly
    when the worker follows every operation. -/
theorem run_agrees_iff (s : AgentSlot) (calls : List (Operation × Moment)) :
    (∀ x ∈ history AgentSlot.step s calls, x.output = .ok () → x.after.Agrees) ↔
      ∀ x ∈ history AgentSlot.step s calls, x.before.Follows x.event := by
  have each := @history_steps AgentSlot (Operation × Moment) _ AgentSlot.step
    (fun x => (x.output = .ok () → x.after.Agrees) ↔ x.before.Follows x.event)
    step_agrees_iff s calls
  constructor
  · intro agree x member
    exact (each x member).mp (agree x member)
  · intro follow x member
    exact (each x member).mpr (follow x member)

end AgentSlot

end

section

/-- Lower case of texts in ASCII. -/
local instance ascii : Unicode := ⟨String.toLower⟩

/-- A transition from `Starting` back to `Idle` is one the worker's table does not have. -/
theorem AgentSlot.starting_to_idle_disagrees : ¬ ∀ (s : AgentSlot) (calls : List (Operation × Moment)),
    s.Built → ∀ x ∈ history AgentSlot.step s calls, x.output = .ok () → x.after.Agrees := by
  intro all
  have agree := all (AgentSlot.create "agent-1" "alpha" ⟨0, 0⟩)
    [(.transitionTo .starting, ⟨1, 1⟩), (.transitionTo .idle, ⟨2, 2⟩)] (.create _ _ _) _
    (List.mem_cons_of_mem _ List.mem_cons_self) rfl
  cases agree

end

end AgileAgent.Core
