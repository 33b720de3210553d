import AgileAgent.Decision.Workflow

/-! # Tasks of the decision layer

A task with its status, its counters and the record of what was decided about it. The status
changes by a table of transitions.
-/

namespace AgileAgent.Decision

inductive DecisionTaskStatus where
  | pending
  | inProgress
  | reflecting
  | pendingConfirmation
  | needsHumanDecision
  | paused
  | completed
  | cancelled
  deriving Repr, DecidableEq

namespace DecisionTaskStatus

def display : DecisionTaskStatus → String
  | .pending => "Pending"
  | .inProgress => "In Progress"
  | .reflecting => "Reflecting"
  | .pendingConfirmation => "Awaiting Confirmation"
  | .needsHumanDecision => "Needs Decision"
  | .paused => "Paused"
  | .completed => "Completed"
  | .cancelled => "Cancelled"

/-- `Task::is_valid_transition`, from the first status to the second. -/
def isValidTransition : DecisionTaskStatus → DecisionTaskStatus → Bool
  | .pending, .inProgress => true
  | .inProgress, .reflecting => true
  | .inProgress, .pendingConfirmation => true
  | .inProgress, .paused => true
  | .inProgress, .cancelled => true
  | .reflecting, .inProgress => true
  | .reflecting, .needsHumanDecision => true
  | .reflecting, .paused => true
  | .pendingConfirmation, .completed => true
  | .pendingConfirmation, .reflecting => true
  | .pendingConfirmation, .paused => true
  | .needsHumanDecision, .inProgress => true
  | .needsHumanDecision, .cancelled => true
  | .paused, .inProgress => true
  | .paused, .cancelled => true
  -- any status but the completed one
  | status, .cancelled => status ≠ .completed
  | _, _ => false

/-- The two statuses that end a task. -/
def isTerminal (status : DecisionTaskStatus) : Bool := status = .completed || status = .cancelled

@[simp] theorem isTerminal_iff (status : DecisionTaskStatus) :
    status.isTerminal ↔ status = .completed ∨ status = .cancelled := by
  simp [isTerminal]

/-- A terminal status leads nowhere, except that a cancelled task can be cancelled again. -/
theorem eq_of_terminal {source target : DecisionTaskStatus} (ended : source.isTerminal)
    (valid : source.isValidTransition target) : target = source := by
  rcases (isTerminal_iff source).mp ended with rfl | rfl
  · cases target <;> cases valid
  · cases target <;> first | rfl | cases valid

end DecisionTaskStatus

/-- `TransitionError::InvalidTransition`. -/
structure TransitionError where
  source : DecisionTaskStatus
  target : DecisionTaskStatus
  deriving Repr, DecidableEq

namespace TransitionError

def message (e : TransitionError) : String :=
  "Invalid transition from " ++ e.source.display ++ " to " ++ e.target.display

end TransitionError

/-- Result of the automatic quality check. -/
inductive AutoCheckResult where
  | pass
  | needsReflection (reason : String)
  | needsHuman (reason : String)
  deriving Repr, DecidableEq

inductive HumanResponse where
  | approve
  | deny (reason : String)
  | custom (feedback : String)
  | cancel
  deriving Repr, DecidableEq

/-- An entry of the execution history. The check result and the human response are kept as values
    where the source keeps their debug texts. -/
structure ExecutionRecord where
  action : WorkflowAction
  stage : StageId
  autoCheckResult : Option AutoCheckResult := none
  humanRequested : Bool := false
  humanResponse : Option HumanResponse := none
  deriving Repr, DecidableEq

/-- `ExecutionRecord::with_auto_check`. -/
def ExecutionRecord.withAutoCheck (action : WorkflowAction) (stage : StageId)
    (result : AutoCheckResult) : ExecutionRecord :=
  { action, stage, autoCheckResult := some result
    humanRequested := match result with
      | .needsHuman _ => true
      | _ => false }

structure DecisionTask where
  id : String
  description : String
  constraints : List String
  status : DecisionTaskStatus := .pending
  reflectionCount : Nat := 0
  confirmationCount : Nat := 0
  maxReflectionRounds : Nat := 2
  retryCount : Nat := 0
  executionHistory : List ExecutionRecord := []
  deriving Repr, DecidableEq

namespace DecisionTask

/-- `Task::new`, with the id that was generated. -/
def create (id description : String) (constraints : List String) : DecisionTask :=
  { id, description, constraints }

def transitionTo (t : DecisionTask) (status : DecisionTaskStatus) :
    Except TransitionError DecisionTask :=
  if t.status.isValidTransition status then .ok { t with status }
  else .error ⟨t.status, status⟩

/-- `let _ = task.transition_to(status)`: a refused transition leaves the task as it is. -/
def tryTransition (t : DecisionTask) (status : DecisionTaskStatus) : DecisionTask :=
  match t.transitionTo status with
  | .ok next => next
  | .error _ => t

theorem tryTransition_eq (t : DecisionTask) (status : DecisionTaskStatus) :
    t.tryTransition status =
      if t.status.isValidTransition status then { t with status } else t := by
  unfold tryTransition transitionTo
  split <;> split <;> simp_all

end DecisionTask

end AgileAgent.Decision
