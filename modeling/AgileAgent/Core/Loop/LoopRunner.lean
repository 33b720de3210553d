import AgileAgent.Core.Loop.TaskEngine

/-! # The loop

Tasks are taken up one after the other, and each is given turns of the provider until one
resolves it. A loop that is given too few steps ends unfinished.
-/

namespace AgileAgent.Core.Loop

open Backlog RuntimeDomain
open DecisionDsl (strContains)

structure LoopGuardrails where
  maxIterations : Nat := 5
  maxContinuationsPerTask : UInt8 := 3
  maxVerificationFailures : Nat := 1
  deriving Repr, DecidableEq

structure LoopRunSummary where
  iterations : Nat
  verificationFailures : Nat
  stoppedReason : String
  deriving Repr, DecidableEq

/-! ## The turn of a provider -/

def isSessionExpiredError (error : String) : Bool :=
  strContains error "No conversation found with session ID" ||
    strContains error "No conversation found" ||
    strContains error "thread not found" ||
    strContains error "session not found"

/-- What an event does to the state. -/
def AppState.take (s : AppState) : DomainEvent → AppState
  | .status text => s.pushStatusMessage text
  | .assistantChunk chunk => s.appendAssistantChunk chunk
  | .thinkingChunk chunk => s.appendThinkingChunk chunk
  | .execCommandStarted callId inputPreview source =>
      s.pushExecCommandStarted callId inputPreview source
  | .execCommandFinished callId outputPreview status exitCode durationMs source =>
      s.pushExecCommandFinished callId outputPreview status exitCode durationMs source
  | .execCommandOutputDelta callId delta => s.appendExecCommandOutput callId delta
  | .genericToolCallStarted name callId inputPreview =>
      s.pushGenericToolCallStarted name callId inputPreview
  | .genericToolCallFinished name callId outputPreview success exitCode durationMs =>
      s.pushGenericToolCallFinished name callId outputPreview success exitCode durationMs
  | .webSearchStarted callId query => s.pushWebSearchStarted callId query
  | .webSearchFinished callId query => s.pushWebSearchFinished callId query
  | .viewImage callId path => s.pushViewImage callId path
  | .imageGenerationFinished callId => s.pushImageGeneration callId
  | .mcpToolCallStarted callId => s.pushMcpToolCallStarted callId
  | .mcpToolCallFinished callId error status isError =>
      s.pushMcpToolCallFinished callId error status isError
  | .patchApplyStarted callId => s.pushPatchApplyStarted callId
  | .patchApplyOutputDelta callId delta => s.appendPatchApplyOutput callId delta
  | .patchApplyFinished callId status => s.pushPatchApplyFinished callId status
  | .sessionHandle handle => s.applySessionHandle handle
  | .error error =>
      if isSessionExpiredError error then
        s.markActiveTaskError.clearSession.pushErrorMessage
          "session expired - starting fresh conversation. Please retry your request."
      else s.markActiveTaskError.pushErrorMessage error
  | .providerPid _ => s
  | .finished => s.finishProviderResponse

/-- The stream was closed before it was finished. -/
def AppState.disconnect (s : AppState) : AppState :=
  (s.markActiveTaskError.pushErrorMessage "provider event stream disconnected").finishProviderResponse

section

variable (host : Host)

/-- The hook is called on a session handle, on an error and at the end. A poll that times out only
    waits on. -/
def consumeProviderUntilFinished : List DomainEvent → LoopM Unit
  | [] => do
      update (·.disconnect)
      onStateChange host
  | event :: rest => do
      update (·.take event)
      match event with
      | .sessionHandle _ | .error _ =>
          onStateChange host
          consumeProviderUntilFinished rest
      | .finished => onStateChange host
      | _ => consumeProviderUntilFinished rest

/-- `start_provider` for the task at a place of the backlog. -/
def startProvider (position : Nat) (prompt : String) : LoopM (Except String (List DomainEvent)) := do
  let calls ← nextCall
  let s ← get
  let stream := host.startProvider calls s.app.selectedProvider prompt s.app.cwd s.app.currentSessionHandle
  record (.started position s.app stream)
  return stream

variable [Unicode]

/-- The turns of the task that is under way. -/
def takeTurns (position : Nat) (guardrails : ExecutionGuardrails) : Nat → String → LoopM LoopExecutionOutcome
  | 0, _ => throw .unfinished
  | steps + 1, prompt => do
      update (·.setLoopPhase .executing)
      update (·.markActiveTaskRunning)
      update (·.beginProviderResponse)
      onStateChange host
      match ← startProvider host position prompt with
      | .error err =>
          update (·.finishProviderResponse)
          handleProviderStartFailure host err
          onStateChange host
          return .escalated
      | .ok events =>
          consumeProviderUntilFinished host events
          let resolution ← resolveActiveTaskAfterTurn host guardrails
          onStateChange host
          match resolution with
          | .continue nextPrompt => takeTurns position guardrails steps nextPrompt
          | .completed => return .completed
          | .failed true => return .verificationFailed
          | .failed false => return .completed
          | .escalated => return .escalated
          | .idle => return .completed

def executeTaskUntilResolution (position : Nat) (task : TaskItem) (guardrails : LoopGuardrails)
    (steps : Nat) : LoopM LoopExecutionOutcome :=
  takeTurns host position { maxContinuationsPerTask := guardrails.maxContinuationsPerTask } steps
    (buildTaskPrompt task)

/-! ## Taking up tasks -/

omit [Unicode] in
/-- `AppState::add_todo`. -/
def addTodo (title : String) : LoopM String := do
  let s ← get
  let id := "todo-" ++ toString (s.app.backlog.todos.length + 1)
  match addOne (UInt8.ofNat s.app.backlog.todos.length) with
  | none => throw .overflow
  | some priority =>
      let todo : TodoItem :=
        { id := id
          title := title
          description := title
          priority := priority.toNat
          status := .ready
          acceptanceCriteria := []
          dependencies := []
          source := "manual" }
      update fun s => { s with backlog := s.backlog.pushTodo todo }
      return id

omit [Unicode] in
/-- `AppState::begin_task_from_todo`. -/
def beginTaskFromTodo (todoId : String) : LoopM (Option TaskItem) := do
  let calls ← nextCall
  let s ← get
  match s.app.backlog.findTodo todoId with
  | none => return none
  | some todo =>
      let task : TaskItem :=
        { id := "task-" ++ toString (s.app.backlog.tasks.length + 1)
          todoId := todo.id
          objective := todo.title
          scope := "current workspace: " ++ s.app.cwd
          constraints := []
          verificationPlan := describeVerificationPlan (buildVerificationPlan host calls s.app.cwd)
          status := .ready
          resultSummary := none }
      update fun s =>
        { s with
          activeTaskId := some task.id
          activeTaskHadError := false
          continuationAttempts := 0
          backlog := (s.backlog.updateTodo todoId ({ · with status := .inProgress })).pushTask task }
      return some task

/-- `run_single_iteration`, which begins a task whether another one is active or not. -/
def runSingleIteration (steps : Nat) : LoopM (Option LoopRunSummary) := do
  let s ← get
  match s.app.nextReadyTodoId with
  | none =>
      update (·.pushStatusMessage "no ready todo available")
      update (·.setLoopPhase .idle)
      return none
  | some todoId =>
      update (·.setLoopPhase .planning)
      match ← beginTaskFromTodo host todoId with
      | none => throw (.failed ("failed to start task from todo: " ++ todoId))
      | some task =>
          update (·.pushStatusMessage ("running task: " ++ task.id))
          onStateChange host
          let _ ← executeTaskUntilResolution host s.app.backlog.tasks.length task {} steps
          return some ⟨1, 0, "single iteration completed"⟩

omit [Unicode] in
/-- The active task or one that is begun, with its place in the backlog. -/
def takeTask : LoopM (Option (TaskItem × Nat)) := do
  let s ← get
  match currentActiveTask s.app with
  | some task =>
      let position := s.app.backlog.tasks.findIdx (·.id = task.id)
      record (.tookUp position)
      update (·.pushStatusMessage ("resuming task: " ++ task.id))
      return some (task, position)
  | none =>
      match s.app.nextReadyTodoId with
      | none =>
          update (·.setLoopPhase .idle)
          return none
      | some todoId =>
          update (·.setLoopPhase .planning)
          match ← beginTaskFromTodo host todoId with
          | none => throw (.failed ("failed to start task from todo: " ++ todoId))
          | some task =>
              let position := s.app.backlog.tasks.length
              record (.tookUp position)
              update (·.pushStatusMessage ("running task: " ++ task.id))
              onStateChange host
              return some (task, position)

/-- The loop with its two counters. Each task may take `turns` turns. -/
def runLoopFrom (guardrails : LoopGuardrails) (turns : Nat) : Nat → Nat → Nat → LoopM LoopRunSummary
  | 0, _, _ => throw .unfinished
  | steps + 1, iterations, verificationFailures =>
      if iterations ≥ guardrails.maxIterations then do
        update (·.setLoopPhase .escalating)
        update (·.pushErrorMessage "loop guardrail reached: max iterations")
        return ⟨iterations, verificationFailures, "max iterations reached"⟩
      else do
        match ← takeTask host with
        | none => return ⟨iterations, verificationFailures, "no ready todo available"⟩
        | some (task, position) =>
            let outcome ← executeTaskUntilResolution host position task guardrails turns
            record (.resolved outcome)
            if outcome = .verificationFailed then
              if verificationFailures + 1 ≥ guardrails.maxVerificationFailures then
                update (·.setLoopPhase .escalating)
                update (·.pushErrorMessage "loop guardrail reached: max verification failures")
                return ⟨iterations + 1, verificationFailures + 1, "max verification failures reached"⟩
              else runLoopFrom guardrails turns steps (iterations + 1) (verificationFailures + 1)
            else runLoopFrom guardrails turns steps (iterations + 1) verificationFailures

/-- `run_loop`. -/
def runLoop (guardrails : LoopGuardrails) (steps : Nat) : LoopM LoopRunSummary :=
  runLoopFrom host guardrails steps steps 0 0

end

end AgileAgent.Core.Loop
