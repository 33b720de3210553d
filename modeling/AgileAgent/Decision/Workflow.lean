import Mathlib.Data.List.Basic

/-! # Decision workflows

Stages with conditional transitions between them, the process they make up and its validation.
-/

namespace AgileAgent.Decision

/-- `StageId(String)`. -/
structure StageId where
  asStr : String
  deriving Repr, DecidableEq

/-- Conditions of stages and transitions. A custom one is looked up by its name. -/
inductive Condition where
  | testsPass
  | noCompileErrors
  | noSyntaxErrors
  | styleConformant
  | goalsAchieved
  | maxReflectionsReached
  | humanApproved
  | timeoutExceeded
  | all (conditions : List Condition)
  | any (conditions : List Condition)
  | not (condition : Condition)
  | custom (name : String)
  deriving Repr

structure WorkflowConditionContext where
  hasAiResponse : Bool := false
  hasAiOutput : Bool := false
  issueFound : Bool := false
  noIssue : Bool := false
  fixed : Bool := false
  notComplete : Bool := false
  rejected : Bool := false
  humanCancelled : Bool := false
  testsPass : Bool := true
  hasCompileErrors : Bool := false
  hasSyntaxErrors : Bool := false
  reflectionCount : Nat := 0
  maxReflectionRounds : Nat := 2
  humanApproved : Bool := false
  deriving Repr, DecidableEq

/-- The evaluators that were registered, by name. -/
structure WorkflowConditionRegistry where
  evaluators : String → Option (WorkflowConditionContext → Bool) := fun _ => none

namespace WorkflowConditionRegistry

/-- What a name means without an evaluator. -/
def evaluateDefault (name : String) (context : WorkflowConditionContext) : Bool :=
  match name with
  | "ai_response" => context.hasAiResponse
  | "ai_output" => context.hasAiOutput
  | "issue_found" => context.issueFound
  | "no_issue" => context.noIssue
  | "fixed" => context.fixed
  | "not_complete" => context.notComplete
  | "rejected" => context.rejected
  | "human_cancelled" => context.humanCancelled
  | _ => false

def evaluate (registry : WorkflowConditionRegistry) (name : String)
    (context : WorkflowConditionContext) : Bool :=
  match registry.evaluators name with
  | some evaluator => evaluator context
  | none => evaluateDefault name context

end WorkflowConditionRegistry

structure StageTransition where
  target : StageId
  condition : Condition
  prompt : String
  deriving Repr

inductive WorkflowAction where
  | continue
  | reflect (reason : String)
  | confirmCompletion
  | requestHuman (question : String)
  | advanceTo (stage : StageId)
  | returnTo (stage : StageId)
  | cancel (reason : String)
  | retry
  | wait (reason : String)
  deriving Repr, DecidableEq

structure DecisionStage where
  id : StageId
  name : String
  description : String
  entryCondition : Condition := .custom "default"
  exitCondition : Condition := .custom "default"
  transitions : List StageTransition := []
  actions : List WorkflowAction := []
  deriving Repr

/-- Errors of `validate`, with the stages they name. -/
inductive ProcessValidationError where
  | invalidInitialStage (stage : String)
  | invalidFinalStage (stage : String)
  | invalidTransition (source target : String)
  deriving Repr, DecidableEq

structure DecisionProcess where
  name : String
  description : String
  stages : List DecisionStage
  initialStage : StageId
  finalStage : StageId
  deriving Repr

namespace DecisionProcess

def hasStage (p : DecisionProcess) (id : StageId) : Bool := p.stages.any (·.id = id)

def getStage (p : DecisionProcess) (id : StageId) : Option DecisionStage := p.stages.find? (·.id = id)

/-- The first transition, stage by stage, whose target is no stage. -/
def danglingTransition (p : DecisionProcess) : Option (StageId × StageId) :=
  p.stages.findSome? fun stage =>
    (stage.transitions.find? fun t => !p.hasStage t.target).map fun t => (stage.id, t.target)

def validate (p : DecisionProcess) : Except ProcessValidationError Unit :=
  if !p.hasStage p.initialStage then .error (.invalidInitialStage p.initialStage.asStr)
  else if !p.hasStage p.finalStage then .error (.invalidFinalStage p.finalStage.asStr)
  else
    match p.danglingTransition with
    | some (stage, target) => .error (.invalidTransition stage.asStr target.asStr)
    | none => .ok ()

/-- What validation accepts: the two named stages and every target are stages of the process. -/
theorem validate_ok {p : DecisionProcess} (valid : p.validate = .ok ()) :
    p.hasStage p.initialStage ∧ p.hasStage p.finalStage ∧
      ∀ stage ∈ p.stages, ∀ t ∈ stage.transitions, p.hasStage t.target := by
  unfold validate at valid
  split at valid
  · cases valid
  · rename_i initial
    split at valid
    · cases valid
    · rename_i final
      split at valid
      · cases valid
      · rename_i dangling
        refine ⟨by simpa using initial, by simpa using final, ?_⟩
        intro stage member t transition
        have none_here := List.findSome?_eq_none_iff.mp dangling stage member
        rw [Option.map_eq_none_iff, List.find?_eq_none] at none_here
        simpa using none_here t transition

theorem nonempty_of_valid {p : DecisionProcess} (valid : p.validate = .ok ()) :
    ∃ first rest, p.stages = first :: rest := by
  have initial := (validate_ok valid).1
  cases stages : p.stages with
  | nil => simp [hasStage, stages] at initial
  | cons first rest => exact ⟨first, rest, rfl⟩

end DecisionProcess

/-- The process "Simple Agile". -/
def defaultProcess : DecisionProcess where
  name := "Simple Agile"
  description := "Default agile development workflow"
  stages := [
    { id := ⟨"start"⟩, name := "Start Development"
      description := "Task starts, AI begins execution"
      transitions := [⟨⟨"developing"⟩, .custom "ai_response", "Begin implementing task"⟩]
      actions := [.continue] },
    { id := ⟨"developing"⟩, name := "Developing"
      description := "AI developing, needs continuous decisions"
      transitions := [⟨⟨"check_quality"⟩, .custom "ai_output", "Check AI output for issues"⟩]
      actions := [.continue, .reflect "Issue found"] },
    { id := ⟨"check_quality"⟩, name := "Quality Check"
      description := "Check output quality"
      transitions := [
        ⟨⟨"reflecting"⟩, .custom "issue_found", "Issue found, reflect and fix"⟩,
        ⟨⟨"check_completion"⟩, .custom "no_issue", "No issues, check completion"⟩]
      actions := [.reflect "Quality issue", .advanceTo ⟨"check_completion"⟩] },
    { id := ⟨"reflecting"⟩, name := "Reflecting"
      description := "Reflect and fix issues"
      transitions := [
        ⟨⟨"developing"⟩, .custom "fixed", "Issue fixed, continue development"⟩,
        ⟨⟨"human_decision"⟩, .maxReflectionsReached, "Reflection limit reached, need human"⟩]
      actions := [.reflect "Fix issue", .requestHuman "Reflection limit"] },
    { id := ⟨"check_completion"⟩, name := "Completion Check"
      description := "Check if task fully completed"
      transitions := [
        ⟨⟨"developing"⟩, .custom "not_complete", "Not fully complete, continue"⟩,
        ⟨⟨"confirming"⟩, .goalsAchieved, "Goals achieved, confirm completion"⟩]
      actions := [.continue, .confirmCompletion] },
    { id := ⟨"confirming"⟩, name := "Confirming Completion"
      description := "Final confirmation of completion"
      transitions := [
        ⟨⟨"completed"⟩, .humanApproved, "Completion confirmed"⟩,
        ⟨⟨"reflecting"⟩, .custom "rejected", "Confirmation rejected, reflect"⟩]
      actions := [.confirmCompletion, .requestHuman "Confirm completion?"] },
    { id := ⟨"human_decision"⟩, name := "Human Decision"
      description := "Wait for human decision"
      transitions := [
        ⟨⟨"developing"⟩, .humanApproved, "Human approved, continue"⟩,
        ⟨⟨"cancelled"⟩, .custom "human_cancelled", "Human cancelled"⟩]
      actions := [.requestHuman "Decision needed"] },
    { id := ⟨"completed"⟩, name := "Completed", description := "Task completed" },
    { id := ⟨"cancelled"⟩, name := "Cancelled", description := "Task cancelled" }]
  initialStage := ⟨"start"⟩
  finalStage := ⟨"completed"⟩

theorem defaultProcess_valid : defaultProcess.validate = .ok () := by decide

end AgileAgent.Decision
