import AgileAgent.Core.Loop.Host

/-! # The task engine

How a turn of the provider is judged: by its error, by the last text of the assistant in the
transcript, and by the checks of the workspace.
-/

namespace AgileAgent.Core.Loop

open Backlog
open DecisionDsl (strContains trim)

structure ExecutionGuardrails where
  maxContinuationsPerTask : UInt8 := 3
  deriving Repr, DecidableEq

inductive TurnResolution where
  | continue (prompt : String)
  | completed
  | failed (verificationFailed : Bool)
  | escalated
  | idle
  deriving Repr, DecidableEq

/-! ## Judging a text -/

section

variable [Unicode]

def unfinishedMarks : List String :=
  ["not tested", "have not tested", "haven't tested", "need to test", "should test", "remaining",
    "next step", "next steps", "still need", "still have to", "follow-up", "todo"]

def continuationPrompt (text : String) : Option String :=
  if trim text = "" then some "Continue the task. No meaningful result was produced yet."
  else if unfinishedMarks.any (strContains (Unicode.toLowercase text)) then
    some ("Continue the same task. Finish the remaining implementation and testing work " ++
      "before stopping.")
  else none

inductive CompletionDecision where
  | readyForVerification
  | incomplete (reason : String)
  deriving Repr, DecidableEq

def judgeCompletion (task : TaskItem) (text : String) : CompletionDecision :=
  if trim text = "" then .incomplete "provider returned no assistant result"
  else if (continuationPrompt text).isSome then
    .incomplete "assistant output still implies remaining work"
  else if trim task.objective = "" then .incomplete "task objective is empty"
  else if task.verificationPlan = [] then .incomplete "task is missing a verification plan"
  else .readyForVerification

end

/-! ## Tasks -/

/-- A heading with an item to each line, unless there are none. -/
def promptSection (heading : String) (items : List String) : String :=
  if items = [] then "" else heading ++ String.join (items.map fun item => "- " ++ item ++ "\n")

def buildTaskPrompt (task : TaskItem) : String :=
  "Execute the following task.\n\nObjective: " ++ task.objective ++ "\nScope: " ++ task.scope ++ "\n" ++
    promptSection "Constraints:\n" task.constraints ++
    promptSection "\nVerification plan:\n" task.verificationPlan

def currentActiveTask (s : AppState) : Option TaskItem := s.activeTaskId.bind s.backlog.findTask

variable (host : Host)

def saveTaskArtifact (task : TaskItem) (outcome : TaskArtifactOutcome) (reason : Option String)
    (verification : Option VerificationResult) (escalationPath : Option String) :
    LoopM (Except String String) := do
  let calls ← nextCall
  let s ← get
  return host.saveTaskArtifact calls s.app.agentStorageRoot
    { taskId := task.id
      todoId := task.todoId
      objective := task.objective
      provider := s.app.selectedProvider
      outcome := outcome
      assistantSummary := s.app.activeTaskSummary
      verification := verification
      reason := reason
      escalationPath := escalationPath }

def escalateActiveTask (reason : String) : LoopM (Option String) := do
  let calls ← nextCall
  let s ← get
  let taskId := s.app.activeTaskId.getD "unknown-task"
  let record : EscalationRecord :=
    { taskId := taskId
      reason := reason
      contextSummary := s.app.activeTaskSummary.getD "no assistant summary"
      recommendedActions := ["inspect task output", "review verification evidence"] }
  let underRoot := s.app.agentStorageRoot.bind fun root =>
    (host.saveEscalation calls (some root) record).toOption
  let artifactPath := underRoot.or (host.saveEscalation calls none record).toOption
  update fun s => (s.blockActiveTask reason).pushErrorMessage
    ("escalated task: " ++ taskId ++ " (" ++ reason ++ ")")
  if let some path := artifactPath then
    update (·.pushStatusMessage ("escalation artifact: " ++ path))
  return artifactPath

def handleProviderStartFailure (reason : String) : LoopM Unit := do
  let s ← get
  match currentActiveTask s.app with
  | some task =>
      update (·.setLoopPhase .escalating)
      let escalationPath ← escalateActiveTask host ("provider start failed: " ++ reason)
      let artifactPath ← saveTaskArtifact host task .escalated (some reason) none escalationPath
      update (·.pushErrorMessage ("failed to start provider: " ++ reason))
      if let .ok path := artifactPath then
        update (·.pushStatusMessage ("task artifact: " ++ path))
  | none =>
      update (·.pushErrorMessage ("failed to start provider: " ++ reason))
      update (·.setLoopPhase .idle)

/-- `u8 += 1`, which panics where a release build wraps around. -/
def addOne (n : UInt8) : Option UInt8 := if n.toNat + 1 < UInt8.size then some (n + 1) else none

def recordVerificationMessages (s : AppState) (result : VerificationResult) : AppState :=
  result.evidence.foldl (fun s evidence => s.pushStatusMessage ("evidence: " ++ evidence))
    (s.pushStatusMessage result.summary)

/-- Fail the active task, save its artifact and say so. -/
def failWith (task : TaskItem) (reason : String) (verification : Option VerificationResult) :
    LoopM TurnResolution := do
  update fun s => (s.setLoopPhase .idle).failActiveTask reason
  let artifactPath ← orFail (← saveTaskArtifact host task .failed (some reason) verification none)
  update (·.pushErrorMessage ("failed task: " ++ task.id ++ " (" ++ reason ++ ")"))
  update (·.pushStatusMessage ("task artifact: " ++ artifactPath))
  return .failed verification.isSome

/-- Escalate the active task, save its artifact and say so. -/
def escalateWith (task : TaskItem) (reason : String) : LoopM TurnResolution := do
  update (·.setLoopPhase .escalating)
  let escalationPath ← escalateActiveTask host reason
  let artifactPath ← orFail (← saveTaskArtifact host task .escalated (some reason) none escalationPath)
  update (·.pushStatusMessage ("task artifact: " ++ artifactPath))
  return .escalated

/-- The part of `resolve_active_task_after_turn` that verifies. -/
def verifyActiveTask (task : TaskItem) (summaryText : String) : LoopM TurnResolution := do
  update fun s => (s.setLoopPhase .verifying).markActiveTaskVerifying
  let calls ← nextCall
  let s ← get
  let plan := buildVerificationPlan host calls s.app.cwd
  let result := executeVerification host calls plan s.app.cwd (some summaryText)
  update (recordVerificationMessages · result)
  match result.outcome with
  | .passed =>
      update fun s => (s.completeActiveTask (some summaryText)).setLoopPhase .idle
      let artifactPath ← orFail (← saveTaskArtifact host task .completed none (some result) none)
      update (·.pushStatusMessage ("task artifact: " ++ artifactPath))
      return .completed
  | .failed | .notRunnable => failWith host task result.summary (some result)

def resolveActiveTaskAfterTurn [Unicode] (guardrails : ExecutionGuardrails) : LoopM TurnResolution := do
  let s ← get
  match currentActiveTask s.app with
  | none =>
      update (·.setLoopPhase .idle)
      return .idle
  | some task =>
      if s.app.activeTaskHadError then failWith host task "provider execution failed" none
      else
        match s.app.activeTaskSummary with
        | none => failWith host task "provider returned no assistant summary" none
        | some summaryText =>
            match continuationPrompt summaryText with
            | some nextPrompt =>
                if s.app.continuationAttempts ≥ guardrails.maxContinuationsPerTask then
                  escalateWith host task "continuation limit reached"
                else
                  match addOne s.app.continuationAttempts with
                  | none => throw .overflow
                  | some attempts =>
                      update ({ · with continuationAttempts := attempts })
                      update (·.setLoopPhase .executing)
                      update (·.pushStatusMessage
                        ("continuing active task automatically (attempt " ++ toString attempts.toNat ++ ")"))
                      return .continue nextPrompt
            | none =>
                match judgeCompletion task summaryText with
                | .readyForVerification => verifyActiveTask host task summaryText
                | .incomplete reason => escalateWith host task reason

end AgileAgent.Core.Loop
