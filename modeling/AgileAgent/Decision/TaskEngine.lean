import AgileAgent.Decision.Automation
import AgileAgent.Machine

/-! # The task decision engine

The engine answers the outputs of an agent and the responses of a human. It keeps the stage of the
process and the status of the task; a transition that the task refuses is passed over in silence.
-/

namespace AgileAgent.Decision

inductive TaskDecisionAction where
  | continue
  | reflect (reason : String)
  | confirmCompletion
  | requestHuman (question : String)
  | advanceTo (stage : StageId)
  | returnTo (stage : StageId)
  | cancel (reason : String)
  | retry
  | wait
  deriving Repr, DecidableEq

/-- An output: its text and what the checks see of it (`to_simulated`). -/
structure AgentOutput extends SimulatedOutput where
  content : String
  deriving Repr, DecidableEq

/-- `AgentOutput::clean`. -/
def AgentOutput.clean (content : String) : AgentOutput := { content }

def decisionToWorkflow : TaskDecisionAction → WorkflowAction
  | .continue => .continue
  | .reflect reason => .reflect reason
  | .confirmCompletion => .confirmCompletion
  | .requestHuman question => .requestHuman question
  | .advanceTo stage => .advanceTo stage
  | .returnTo stage => .returnTo stage
  | .cancel reason => .cancel reason
  | .retry => .retry
  | .wait => .wait "Waiting"

def workflowToDecision : WorkflowAction → TaskDecisionAction
  | .continue => .continue
  | .reflect reason => .reflect reason
  | .confirmCompletion => .confirmCompletion
  | .requestHuman question => .requestHuman question
  | .advanceTo stage => .advanceTo stage
  | .returnTo stage => .returnTo stage
  | .cancel reason => .cancel reason
  | .retry => .retry
  | .wait _ => .wait

structure TaskDecisionEngine where
  process : DecisionProcess
  currentStage : StageId
  task : DecisionTask
  checker : AutoChecker
  filter : DecisionFilter
  conditionRegistry : WorkflowConditionRegistry
  conditionContext : WorkflowConditionContext

namespace TaskDecisionEngine

/-- `TaskDecisionEngine::new`: it starts in the first stage of the list. -/
def create (process : DecisionProcess) (task : DecisionTask) : TaskDecisionEngine where
  process
  currentStage := (process.stages.head?.map (·.id)).getD ⟨"start"⟩
  task
  checker := .default
  filter := .default
  conditionRegistry := {}
  conditionContext := {}

def withConditionRegistry (e : TaskDecisionEngine) (registry : WorkflowConditionRegistry) :
    TaskDecisionEngine :=
  { e with conditionRegistry := registry }

/-- `stage_cloned`. -/
def stage (e : TaskDecisionEngine) : Option DecisionStage := e.process.getStage e.currentStage

/-! ## Transitions between stages -/

mutual
def checkTransitionCondition (e : TaskDecisionEngine) (output : AgentOutput) : Condition → Bool
  | .testsPass => output.testsPass && !output.hasCompileErrors
  | .noCompileErrors => !output.hasCompileErrors && !output.hasSyntaxErrors
  | .noSyntaxErrors => !output.hasSyntaxErrors
  | .styleConformant => !output.hasStyleIssues
  | .goalsAchieved => output.testsPass && !output.hasSyntaxErrors && !output.hasCompileErrors &&
      output.riskyOperations.isEmpty
  | .maxReflectionsReached => e.task.maxReflectionRounds ≤ e.task.reflectionCount
  | .humanApproved => e.task.status = .inProgress
  | .timeoutExceeded => false
  | .all conditions => checkAll e output conditions
  | .any conditions => checkAny e output conditions
  | .not condition => !checkTransitionCondition e output condition
  | .custom name => e.conditionRegistry.evaluate name e.conditionContext

def checkAll (e : TaskDecisionEngine) (output : AgentOutput) : List Condition → Bool
  | [] => true
  | c :: rest => checkTransitionCondition e output c && checkAll e output rest

def checkAny (e : TaskDecisionEngine) (output : AgentOutput) : List Condition → Bool
  | [] => false
  | c :: rest => checkTransitionCondition e output c || checkAny e output rest
end

/-- The target of the first transition of a stage whose condition is met. -/
def matchedTarget (e : TaskDecisionEngine) (output : AgentOutput) (stage : Option DecisionStage) :
    Option StageId :=
  stage.bind fun stage =>
    (stage.transitions.find? fun t => e.checkTransitionCondition output t.condition).map (·.target)

def evaluateTransition (e : TaskDecisionEngine) (output : AgentOutput)
    (stage : Option DecisionStage) : TaskDecisionAction × TaskDecisionEngine :=
  match e.matchedTarget output stage with
  | some target => (.advanceTo target, { e with currentStage := target })
  | none => (.continue, e)

def updateConditionContext (e : TaskDecisionEngine) (output : AgentOutput) : TaskDecisionEngine :=
  let issueFound := output.hasSyntaxErrors || output.hasCompileErrors || !output.testsPass
  { e with conditionContext := { e.conditionContext with
      hasAiResponse := !output.content.isEmpty
      hasAiOutput := !output.content.isEmpty
      issueFound
      noIssue := !issueFound
      testsPass := output.testsPass
      hasCompileErrors := output.hasCompileErrors
      hasSyntaxErrors := output.hasSyntaxErrors
      reflectionCount := e.task.reflectionCount
      maxReflectionRounds := e.task.maxReflectionRounds } }

def markFixed (e : TaskDecisionEngine) : TaskDecisionEngine :=
  { e with conditionContext := { e.conditionContext with fixed := true, issueFound := false } }

def markNotComplete (e : TaskDecisionEngine) : TaskDecisionEngine :=
  { e with conditionContext := { e.conditionContext with notComplete := true } }

def markRejected (e : TaskDecisionEngine) : TaskDecisionEngine :=
  { e with conditionContext := { e.conditionContext with rejected := true } }

def markHumanCancelled (e : TaskDecisionEngine) : TaskDecisionEngine :=
  { e with conditionContext := { e.conditionContext with humanCancelled := true } }

def markHumanApproved (e : TaskDecisionEngine) : TaskDecisionEngine :=
  { e with conditionContext := { e.conditionContext with humanApproved := true } }

/-! ## Decisions and their effects -/

/-- `let _ = self.task.transition_to(status)`. -/
def tryTransition (e : TaskDecisionEngine) (status : DecisionTaskStatus) : TaskDecisionEngine :=
  { e with task := e.task.tryTransition status }

/-- One more reflection in the counter. -/
def countReflection (e : TaskDecisionEngine) : TaskDecisionEngine :=
  { e with task := { e.task with reflectionCount := e.task.reflectionCount + 1 } }

/-- The status that the name of a stage stands for, the current one for any other name. -/
def statusOfStage (stage : StageId) (current : DecisionTaskStatus) : DecisionTaskStatus :=
  match stage.asStr with
  | "start" => .pending
  | "developing" => .inProgress
  | "reflecting" => .reflecting
  | "confirming" => .pendingConfirmation
  | "check_completion" => .pendingConfirmation
  | "completed" => .completed
  | _ => current

def updateStatusForStage (e : TaskDecisionEngine) (stage : StageId) : TaskDecisionEngine :=
  let status := statusOfStage stage e.task.status
  if status ≠ e.task.status then e.tryTransition status else e

def executeDecision (e : TaskDecisionEngine) : TaskDecisionAction → TaskDecisionEngine
  | .reflect _ => e.tryTransition .reflecting
  | .confirmCompletion =>
      { e with task := { e.task with confirmationCount := e.task.confirmationCount + 1 } }
        |>.tryTransition .pendingConfirmation
  | .requestHuman _ => e.tryTransition .needsHumanDecision
  | .advanceTo stage => { e with currentStage := stage }.updateStatusForStage stage
  | .cancel _ => e.tryTransition .cancelled
  | .returnTo stage => { e with currentStage := stage }
  | _ => e

/-- A record at the end of the history of the task. -/
def record (e : TaskDecisionEngine) (entry : ExecutionRecord) : TaskDecisionEngine :=
  { e with task := { e.task with executionHistory := e.task.executionHistory ++ [entry] } }

def logDecision (e : TaskDecisionEngine) (decision : TaskDecisionAction)
    (checkResult : AutoCheckResult) : TaskDecisionEngine :=
  e.record (.withAutoCheck (decisionToWorkflow decision) e.currentStage checkResult)

/-- The decision for a check result. -/
def decisionFor (e : TaskDecisionEngine) (output : AgentOutput) (stage : Option DecisionStage) :
    AutoCheckResult → TaskDecisionAction × TaskDecisionEngine
  | .pass => e.evaluateTransition output stage
  | .needsReflection reason =>
      if e.task.reflectionCount < e.task.maxReflectionRounds then (.reflect reason, e.countReflection)
      else (.requestHuman ("Max reflections reached: " ++ reason), e)
  | .needsHuman reason =>
      if (e.filter.needsHumanDecision e.task output.toSimulatedOutput).isSome then
        (.requestHuman reason, e)
      else (workflowToDecision (e.filter.autoDecide e.task output.toSimulatedOutput), e)

def processOutput (e : TaskDecisionEngine) (output : AgentOutput) :
    TaskDecisionAction × TaskDecisionEngine :=
  let stage := e.stage
  let updated := e.updateConditionContext output
  let checkResult := updated.checker.check updated.task output.toSimulatedOutput
  let (decision, decided) := updated.decisionFor output stage checkResult
  (decision, (decided.logDecision decision checkResult).executeDecision decision)

/-- The answer to a human response, before it is logged. -/
def respond (e : TaskDecisionEngine) : HumanResponse → TaskDecisionAction × TaskDecisionEngine
  | .approve => (.continue, e.tryTransition .inProgress)
  | .deny reason =>
      if e.task.reflectionCount < e.task.maxReflectionRounds then
        (.reflect reason, e.countReflection.tryTransition .reflecting)
      else (.cancel "Human denied after max reflections", e.tryTransition .cancelled)
  | .custom feedback => (.reflect feedback, e.countReflection.tryTransition .reflecting)
  | .cancel => (.cancel "Human cancelled", e.tryTransition .cancelled)

def handleHumanResponse (e : TaskDecisionEngine) (response : HumanResponse) :
    TaskDecisionAction × TaskDecisionEngine :=
  let (decision, responded) := e.respond response
  (decision, responded.record
    { action := decisionToWorkflow decision, stage := responded.currentStage, humanRequested := true
      humanResponse := some response })

/-! ## Calls -/

inductive Call where
  | processOutput (output : AgentOutput)
  | handleHumanResponse (response : HumanResponse)
  | markFixed
  | markNotComplete
  | markRejected
  | markHumanCancelled
  | markHumanApproved
  deriving Repr, DecidableEq

/-- A call with what it returns, if it returns a decision. -/
def call (e : TaskDecisionEngine) : Call → Option TaskDecisionAction × TaskDecisionEngine
  | .processOutput output => (some (e.processOutput output).1, (e.processOutput output).2)
  | .handleHumanResponse response =>
      (some (e.handleHumanResponse response).1, (e.handleHumanResponse response).2)
  | .markFixed => (none, e.markFixed)
  | .markNotComplete => (none, e.markNotComplete)
  | .markRejected => (none, e.markRejected)
  | .markHumanCancelled => (none, e.markHumanCancelled)
  | .markHumanApproved => (none, e.markHumanApproved)

end TaskDecisionEngine

/-! ## What a decision does to status, stage and counters -/

/-- The status after a transition that may be refused. -/
def DecisionTaskStatus.go (status target : DecisionTaskStatus) : DecisionTaskStatus :=
  if status.isValidTransition target then target else status

namespace TaskDecisionAction

def statusAfter (status : DecisionTaskStatus) : TaskDecisionAction → DecisionTaskStatus
  | .reflect _ => status.go .reflecting
  | .confirmCompletion => status.go .pendingConfirmation
  | .requestHuman _ => status.go .needsHumanDecision
  | .advanceTo stage => status.go (TaskDecisionEngine.statusOfStage stage status)
  | .cancel _ => status.go .cancelled
  | _ => status

def stageAfter (stage : StageId) : TaskDecisionAction → StageId
  | .advanceTo target => target
  | .returnTo target => target
  | _ => stage

def confirmations : TaskDecisionAction → Nat
  | .confirmCompletion => 1
  | _ => 0

end TaskDecisionAction

namespace TaskDecisionEngine

theorem tryTransition_task (e : TaskDecisionEngine) (status : DecisionTaskStatus) :
    (e.tryTransition status).task = { e.task with status := e.task.status.go status } := by
  unfold tryTransition DecisionTaskStatus.go
  rw [DecisionTask.tryTransition_eq]
  split <;> rfl

theorem go_self (status : DecisionTaskStatus) : status.go status = status := by
  unfold DecisionTaskStatus.go
  split <;> rfl

theorem updateStatusForStage_task (e : TaskDecisionEngine) (stage : StageId) :
    (e.updateStatusForStage stage).task =
      { e.task with status := e.task.status.go (statusOfStage stage e.task.status) } := by
  simp only [updateStatusForStage]
  split
  · exact tryTransition_task e _
  · rename_i same
    rw [not_not.mp same, go_self]

/-- What no call changes. -/
structure SameFrame (e f : TaskDecisionEngine) : Prop where
  process : f.process = e.process
  checker : f.checker = e.checker
  filter : f.filter = e.filter
  conditionRegistry : f.conditionRegistry = e.conditionRegistry

theorem SameFrame.trans {e f g : TaskDecisionEngine} (first : SameFrame e f) (second : SameFrame f g) :
    SameFrame e g where
  process := second.process.trans first.process
  checker := second.checker.trans first.checker
  filter := second.filter.trans first.filter
  conditionRegistry := second.conditionRegistry.trans first.conditionRegistry

theorem executeDecision_frame (e : TaskDecisionEngine) (d : TaskDecisionAction) :
    SameFrame e (e.executeDecision d) := by
  cases d with
  | advanceTo stage =>
      simp only [executeDecision, updateStatusForStage]
      split <;> exact ⟨rfl, rfl, rfl, rfl⟩
  | _ => exact ⟨rfl, rfl, rfl, rfl⟩

theorem executeDecision_stage (e : TaskDecisionEngine) (d : TaskDecisionAction) :
    (e.executeDecision d).currentStage = d.stageAfter e.currentStage := by
  cases d with
  | advanceTo stage =>
      simp only [executeDecision, updateStatusForStage]
      split <;> rfl
  | _ => rfl

theorem executeDecision_task (e : TaskDecisionEngine) (d : TaskDecisionAction) :
    (e.executeDecision d).task = { e.task with
      status := d.statusAfter e.task.status
      confirmationCount := e.task.confirmationCount + d.confirmations } := by
  cases d with
  | advanceTo stage => exact updateStatusForStage_task _ stage
  | reflect reason => exact tryTransition_task e _
  | confirmCompletion => exact tryTransition_task _ _
  | requestHuman question => exact tryTransition_task e _
  | cancel reason => exact tryTransition_task e _
  | _ => rfl

/-! ## What an output does -/

@[simp] theorem updateConditionContext_task (e : TaskDecisionEngine) (output : AgentOutput) :
    (e.updateConditionContext output).task = e.task := rfl

/-- What the checker says of an output. -/
def verdict (e : TaskDecisionEngine) (output : AgentOutput) : AutoCheckResult :=
  e.checker.check e.task output.toSimulatedOutput

/-- The stage that an output without objections leads to. -/
def target (e : TaskDecisionEngine) (output : AgentOutput) : Option StageId :=
  (e.updateConditionContext output).matchedTarget output e.stage

/-- Whether a further reflection round is left (`reflection_count < max_reflection_rounds`). -/
def hasRoom (e : TaskDecisionEngine) : Bool := e.task.reflectionCount < e.task.maxReflectionRounds

/-- The decision of an output by the verdict of the checker. -/
def decision (e : TaskDecisionEngine) (output : AgentOutput) : TaskDecisionAction :=
  match e.verdict output with
  | .pass =>
      match e.target output with
      | some target => .advanceTo target
      | none => .continue
  | .needsReflection reason =>
      if e.hasRoom then .reflect reason else .requestHuman ("Max reflections reached: " ++ reason)
  | .needsHuman reason =>
      if (e.filter.needsHumanDecision e.task output.toSimulatedOutput).isSome then
        .requestHuman reason
      else workflowToDecision (e.filter.autoDecide e.task output.toSimulatedOutput)

/-- How many reflections an output adds to the counter. -/
def reflections (e : TaskDecisionEngine) (output : AgentOutput) : Nat :=
  match e.verdict output with
  | .needsReflection _ => if e.hasRoom then 1 else 0
  | _ => 0

/-- What an output leaves behind, in terms of its decision. -/
structure Outcome (e : TaskDecisionEngine) (output : AgentOutput) : Prop where
  decides : (e.processOutput output).1 = e.decision output
  frame : SameFrame e (e.processOutput output).2
  stage : (e.processOutput output).2.currentStage = (e.decision output).stageAfter e.currentStage
  status : (e.processOutput output).2.task.status = (e.decision output).statusAfter e.task.status
  reflections : (e.processOutput output).2.task.reflectionCount =
    e.task.reflectionCount + e.reflections output
  confirmations : (e.processOutput output).2.task.confirmationCount =
    e.task.confirmationCount + (e.decision output).confirmations
  rounds : (e.processOutput output).2.task.maxReflectionRounds = e.task.maxReflectionRounds
  retries : (e.processOutput output).2.task.retryCount = e.task.retryCount

/-- An engine that decided on what `e` saw and has not executed the decision. -/
structure Decided (e : TaskDecisionEngine) (output : AgentOutput) (f : TaskDecisionEngine) : Prop where
  frame : SameFrame e f
  stage : (e.decision output).stageAfter f.currentStage = (e.decision output).stageAfter e.currentStage
  status : f.task.status = e.task.status
  reflections : f.task.reflectionCount = e.task.reflectionCount + e.reflections output
  confirmations : f.task.confirmationCount = e.task.confirmationCount
  rounds : f.task.maxReflectionRounds = e.task.maxReflectionRounds
  retries : f.task.retryCount = e.task.retryCount

theorem decisionFor_decides (e : TaskDecisionEngine) (output : AgentOutput) :
    ((e.updateConditionContext output).decisionFor output e.stage (e.verdict output)).1 =
        e.decision output ∧
      Decided e output
        ((e.updateConditionContext output).decisionFor output e.stage (e.verdict output)).2 := by
  cases verdict : e.verdict output with
  | pass =>
      cases target : e.target output with
      | some stage =>
          have evaluated : (e.updateConditionContext output).evaluateTransition output e.stage =
              (.advanceTo stage, { e.updateConditionContext output with currentStage := stage }) := by
            unfold evaluateTransition
            rw [show matchedTarget _ output e.stage = some stage from target]
          have decided : e.decision output = .advanceTo stage := by simp [decision, verdict, target]
          simp only [decisionFor, evaluated, decided]
          refine ⟨trivial, ⟨rfl, rfl, rfl, rfl⟩, ?_, rfl, ?_, rfl, rfl, rfl⟩
          · rw [decided]
            rfl
          · simp [reflections, verdict, updateConditionContext]
      | none =>
          have evaluated : (e.updateConditionContext output).evaluateTransition output e.stage =
              (.continue, e.updateConditionContext output) := by
            unfold evaluateTransition
            rw [show matchedTarget _ output e.stage = none from target]
          have decided : e.decision output = .continue := by simp [decision, verdict, target]
          simp only [decisionFor, evaluated, decided]
          refine ⟨trivial, ⟨rfl, rfl, rfl, rfl⟩, rfl, rfl, ?_, rfl, rfl, rfl⟩
          simp [reflections, verdict, updateConditionContext]
  | needsReflection reason =>
      cases room : e.hasRoom with
      | true =>
          have below : (e.updateConditionContext output).task.reflectionCount <
              (e.updateConditionContext output).task.maxReflectionRounds := by
            simpa [hasRoom] using room
          have decided : e.decision output = .reflect reason := by simp [decision, verdict, room]
          simp only [decisionFor, if_pos below, decided]
          refine ⟨trivial, ⟨rfl, rfl, rfl, rfl⟩, rfl, rfl, ?_, rfl, rfl, rfl⟩
          simp [reflections, verdict, room, countReflection, updateConditionContext]
      | false =>
          have full : ¬ (e.updateConditionContext output).task.reflectionCount <
              (e.updateConditionContext output).task.maxReflectionRounds := by
            simpa [hasRoom] using room
          have decided : e.decision output = .requestHuman ("Max reflections reached: " ++ reason) := by
            simp [decision, verdict, room]
          simp only [decisionFor, if_neg full, decided]
          refine ⟨trivial, ⟨rfl, rfl, rfl, rfl⟩, rfl, rfl, ?_, rfl, rfl, rfl⟩
          simp [reflections, verdict, room, updateConditionContext]
  | needsHuman reason =>
      have counted : e.reflections output = 0 := by simp [reflections, verdict]
      have same : (e.updateConditionContext output).decisionFor output e.stage (.needsHuman reason) =
          (e.decision output, e.updateConditionContext output) := by
        simp only [decisionFor, decision, verdict]
        split <;> simp_all [updateConditionContext]
      rw [same]
      refine ⟨rfl, ⟨rfl, rfl, rfl, rfl⟩, rfl, rfl, ?_, rfl, rfl, rfl⟩
      rw [counted]
      rfl

theorem processOutput_outcome (e : TaskDecisionEngine) (output : AgentOutput) :
    Outcome e output := by
  obtain ⟨decides, decided⟩ := decisionFor_decides e output
  generalize decision_eq :
    (e.updateConditionContext output).decisionFor output e.stage (e.verdict output) = made
    at decides decided
  have whole : e.processOutput output =
      (e.decision output, (made.2.logDecision (e.decision output) (e.verdict output)).executeDecision
        (e.decision output)) := by
    rw [← decides, ← decision_eq]
    rfl
  have task := executeDecision_task (made.2.logDecision (e.decision output) (e.verdict output))
    (e.decision output)
  constructor
  case decides => rw [whole]
  case frame =>
    have logged : SameFrame made.2 (made.2.logDecision (e.decision output) (e.verdict output)) :=
      ⟨rfl, rfl, rfl, rfl⟩
    rw [whole]
    exact decided.frame.trans (logged.trans (executeDecision_frame _ _))
  case stage =>
    rw [whole, executeDecision_stage]
    exact decided.stage
  case status =>
    rw [whole, task]
    exact congrArg (fun s => (e.decision output).statusAfter s) decided.status
  case reflections =>
    rw [whole, task]
    exact decided.reflections
  case confirmations =>
    rw [whole, task]
    exact congrArg (· + (e.decision output).confirmations) decided.confirmations
  case rounds =>
    rw [whole, task]
    exact decided.rounds
  case retries =>
    rw [whole, task]
    exact decided.retries

/-! ## What a human response does -/

/-- The decision of a response and the status it attempts. -/
def answer (e : TaskDecisionEngine) : HumanResponse → TaskDecisionAction × DecisionTaskStatus
  | .approve => (.continue, .inProgress)
  | .deny reason =>
      if e.hasRoom then (.reflect reason, .reflecting)
      else (.cancel "Human denied after max reflections", .cancelled)
  | .custom feedback => (.reflect feedback, .reflecting)
  | .cancel => (.cancel "Human cancelled", .cancelled)

/-- How many reflections a response adds to the counter. -/
def answerReflections (e : TaskDecisionEngine) : HumanResponse → Nat
  | .deny _ => if e.hasRoom then 1 else 0
  | .custom _ => 1
  | _ => 0

structure Answered (e : TaskDecisionEngine) (response : HumanResponse) : Prop where
  decides : (e.handleHumanResponse response).1 = (e.answer response).1
  frame : SameFrame e (e.handleHumanResponse response).2
  stage : (e.handleHumanResponse response).2.currentStage = e.currentStage
  status : (e.handleHumanResponse response).2.task.status = e.task.status.go (e.answer response).2
  reflections : (e.handleHumanResponse response).2.task.reflectionCount =
    e.task.reflectionCount + e.answerReflections response
  confirmations : (e.handleHumanResponse response).2.task.confirmationCount = e.task.confirmationCount
  rounds : (e.handleHumanResponse response).2.task.maxReflectionRounds = e.task.maxReflectionRounds
  retries : (e.handleHumanResponse response).2.task.retryCount = e.task.retryCount

/-- A response is a transition of the task that may have been counted as a reflection. -/
theorem respond_task (e : TaskDecisionEngine) (response : HumanResponse) :
    (e.respond response).1 = (e.answer response).1 ∧
      SameFrame e (e.respond response).2 ∧
      (e.respond response).2.currentStage = e.currentStage ∧
      (e.respond response).2.task = { e.task with
        status := e.task.status.go (e.answer response).2
        reflectionCount := e.task.reflectionCount + e.answerReflections response } := by
  cases response with
  | approve => exact ⟨rfl, ⟨rfl, rfl, rfl, rfl⟩, rfl, tryTransition_task e _⟩
  | cancel => exact ⟨rfl, ⟨rfl, rfl, rfl, rfl⟩, rfl, tryTransition_task e _⟩
  | custom feedback =>
      exact ⟨rfl, ⟨rfl, rfl, rfl, rfl⟩, rfl, tryTransition_task e.countReflection _⟩
  | deny reason =>
      simp only [respond, answer, answerReflections, hasRoom, decide_eq_true_eq]
      split
      · exact ⟨rfl, ⟨rfl, rfl, rfl, rfl⟩, rfl, tryTransition_task e.countReflection _⟩
      · exact ⟨rfl, ⟨rfl, rfl, rfl, rfl⟩, rfl, tryTransition_task e _⟩

theorem handleHumanResponse_answered (e : TaskDecisionEngine) (response : HumanResponse) :
    Answered e response := by
  obtain ⟨decides, frame, stage, task⟩ := respond_task e response
  have recorded : (e.handleHumanResponse response).2.task = { (e.respond response).2.task with
      executionHistory := (e.handleHumanResponse response).2.task.executionHistory } := rfl
  rw [task] at recorded
  exact {
    decides, stage
    frame := frame.trans ⟨rfl, rfl, rfl, rfl⟩
    status := by rw [recorded]
    reflections := by rw [recorded]
    confirmations := by rw [recorded]
    rounds := by rw [recorded]
    retries := by rw [recorded] }

end TaskDecisionEngine

end AgileAgent.Decision
