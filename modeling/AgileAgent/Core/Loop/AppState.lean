import AgileAgent.FirstMatch
import AgileAgent.Backlog.BacklogState
import AgileAgent.RuntimeDomain.DomainEvent

/-! # The state of the loop

The transcript that the terminal shows, the backlog and the active task. The input line and the
skills, which only the terminal reads, are left out.
-/

namespace AgileAgent.Core.Loop

open Backlog RuntimeDomain

inductive AppStatus where
  | idle
  | responding
  deriving Repr, DecidableEq

inductive LoopPhase where
  | idle
  | planning
  | executing
  | verifying
  | escalating
  deriving Repr, DecidableEq

inductive ProviderKind where
  | mock
  | claude
  | codex
  | acp
  | unknown
  deriving Repr, DecidableEq

inductive TranscriptEntry where
  | user (text : String)
  | assistant (text : String)
  | thinking (text : String)
  | decision (agentId situationType actionType reasoning : String) (confidence : UInt8)
      (tier : String) (decisionPrompt thinking : Option String)
  | execCommand (callId source : Option String) (allowExploringGroup : Bool)
      (inputPreview outputPreview : Option String) (status : ExecCommandStatus)
      (exitCode : Option Int32) (durationMs : Option UInt64)
  | patchApply (callId : Option String) (status : PatchApplyStatus) (outputPreview : Option String)
  | webSearch (callId : Option String) (query : String) (started : Bool)
  | viewImage (callId : Option String) (path : String)
  | imageGeneration (callId : Option String)
  | mcpToolCall (callId error : Option String) (status : McpToolCallStatus) (isError : Bool)
  | genericToolCall (name : String) (callId inputPreview outputPreview : Option String)
      (success started : Bool) (exitCode : Option Int32) (durationMs : Option UInt64)
  | status (text : String)
  | error (text : String)
  deriving Repr, DecidableEq

structure AppState where
  transcript : List TranscriptEntry := []
  cwd : String := "."
  agentStorageRoot : Option String := none
  backlog : BacklogState := {}
  selectedProvider : ProviderKind := .mock
  activeTaskId : Option String := none
  activeTaskHadError : Bool := false
  continuationAttempts : UInt8 := 0
  claudeSessionId : Option String := none
  codexThreadId : Option String := none
  status : AppStatus := .idle
  loopPhase : LoopPhase := .idle
  deriving Repr, DecidableEq

/-- Replace the last entry that can be revised. -/
def reviseLast (revise : TranscriptEntry → Option TranscriptEntry) :
    List TranscriptEntry → Option (List TranscriptEntry)
  | [] => none
  | entry :: rest =>
      match reviseLast revise rest with
      | some revised => some (entry :: revised)
      | none => (revise entry).map (· :: rest)

namespace AppState

/-! ## The transcript -/

def push (s : AppState) (entry : TranscriptEntry) : AppState :=
  { s with transcript := s.transcript ++ [entry] }

def pushStatusMessage (s : AppState) (text : String) : AppState := s.push (.status text)

def pushErrorMessage (s : AppState) (text : String) : AppState := s.push (.error text)

def appendAssistantChunk (s : AppState) (chunk : String) : AppState :=
  match s.transcript.getLast? with
  | some (.assistant text) =>
      { s with transcript := s.transcript.dropLast ++ [.assistant (text ++ chunk)] }
  | _ => s.push (.assistant chunk)

def appendThinkingChunk (s : AppState) (chunk : String) : AppState :=
  match s.transcript.getLast? with
  | some (.thinking text) =>
      { s with transcript := s.transcript.dropLast ++ [.thinking (text ++ chunk)] }
  | _ => s.push (.thinking chunk)

/-- Revise the last entry that can be, or push an entry of its own. -/
def reviseOrPush (s : AppState) (revise : TranscriptEntry → Option TranscriptEntry)
    (entry : TranscriptEntry) : AppState :=
  match reviseLast revise s.transcript with
  | some transcript => { s with transcript }
  | none => s.push entry

/-- `matches_call_id`. -/
def sameCall (callId existing : Option String) : Bool := callId.isSome && existing == callId

def pushExecCommandStarted (s : AppState) (callId inputPreview source : Option String) : AppState :=
  s.push (.execCommand callId source true inputPreview none .inProgress none none)

def pushExecCommandFinished (s : AppState) (callId outputPreview : Option String)
    (status : ExecCommandStatus) (exitCode : Option Int32) (durationMs : Option UInt64)
    (source : Option String) : AppState :=
  let revise : TranscriptEntry → Option TranscriptEntry
    | .execCommand existing existingSource allowExploringGroup inputPreview _ .inProgress _ _ =>
        if sameCall callId existing || existing.isNone then
          some (.execCommand (existing.or callId) (existingSource.or source) allowExploringGroup
            inputPreview outputPreview status exitCode durationMs)
        else none
    | _ => none
  s.reviseOrPush revise
    (.execCommand callId source false none outputPreview status exitCode durationMs)

def appendExecCommandOutput (s : AppState) (callId : Option String) (delta : String) : AppState :=
  if delta = "" then s
  else
    let revise : TranscriptEntry → Option TranscriptEntry
      | .execCommand existing source allowExploringGroup inputPreview outputPreview status exitCode
          durationMs =>
          if sameCall callId existing || callId.isNone then
            some (.execCommand existing source allowExploringGroup inputPreview
              (some (outputPreview.getD "" ++ delta)) status exitCode durationMs)
          else none
      | _ => none
    s.reviseOrPush revise
      (.execCommand callId none false none (some delta) .inProgress none none)

def pushGenericToolCallStarted (s : AppState) (name : String) (callId inputPreview : Option String) :
    AppState :=
  s.push (.genericToolCall name callId inputPreview none true true none none)

def pushGenericToolCallFinished (s : AppState) (name : String) (callId outputPreview : Option String)
    (success : Bool) (exitCode : Option Int32) (durationMs : Option UInt64) : AppState :=
  let revise : TranscriptEntry → Option TranscriptEntry
    | .genericToolCall existingName existing inputPreview _ _ true _ _ =>
        if sameCall callId existing || existingName == name then
          some (.genericToolCall existingName (existing.or callId) inputPreview outputPreview success
            false exitCode durationMs)
        else none
    | _ => none
  s.reviseOrPush revise
    (.genericToolCall name callId none outputPreview success false exitCode durationMs)

def pushPatchApplyStarted (s : AppState) (callId : Option String) : AppState :=
  s.push (.patchApply callId .inProgress none)

def pushPatchApplyFinished (s : AppState) (callId : Option String) (status : PatchApplyStatus) :
    AppState :=
  let revise : TranscriptEntry → Option TranscriptEntry
    | .patchApply existing .inProgress outputPreview =>
        if sameCall callId existing || existing.isNone then
          some (.patchApply (existing.or callId) status outputPreview)
        else none
    | _ => none
  s.reviseOrPush revise (.patchApply callId status none)

/-- Unlike the output of a command, that of a patch nobody knows is dropped. -/
def appendPatchApplyOutput (s : AppState) (callId : Option String) (delta : String) : AppState :=
  if delta = "" then s
  else
    let revise : TranscriptEntry → Option TranscriptEntry
      | .patchApply existing status outputPreview =>
          if sameCall callId existing || callId.isNone then
            some (.patchApply existing status (some (outputPreview.getD "" ++ delta)))
          else none
      | _ => none
    match reviseLast revise s.transcript with
    | some transcript => { s with transcript }
    | none => s

def pushWebSearchStarted (s : AppState) (callId : Option String) (query : String) : AppState :=
  s.push (.webSearch callId query true)

def pushWebSearchFinished (s : AppState) (callId : Option String) (query : String) : AppState :=
  let revise : TranscriptEntry → Option TranscriptEntry
    | .webSearch existing _ true =>
        if sameCall callId existing || existing.isNone then
          some (.webSearch (existing.or callId) query false)
        else none
    | _ => none
  s.reviseOrPush revise (.webSearch callId query false)

def pushViewImage (s : AppState) (callId : Option String) (path : String) : AppState :=
  s.push (.viewImage callId path)

def pushImageGeneration (s : AppState) (callId : Option String) : AppState :=
  s.push (.imageGeneration callId)

def pushMcpToolCallStarted (s : AppState) (callId : Option String) : AppState :=
  s.push (.mcpToolCall callId none .inProgress false)

def pushMcpToolCallFinished (s : AppState) (callId error : Option String) (status : McpToolCallStatus)
    (isError : Bool) : AppState :=
  let revise : TranscriptEntry → Option TranscriptEntry
    | .mcpToolCall existing _ .inProgress _ =>
        if sameCall callId existing || existing.isNone then
          some (.mcpToolCall (existing.or callId) error status isError)
        else none
    | _ => none
  s.reviseOrPush revise (.mcpToolCall callId error status isError)

/-! ## Sessions and phases -/

def beginProviderResponse (s : AppState) : AppState := { s with status := .responding }

def finishProviderResponse (s : AppState) : AppState := { s with status := .idle }

def setLoopPhase (s : AppState) (phase : LoopPhase) : AppState := { s with loopPhase := phase }

def currentSessionHandle (s : AppState) : Option SessionHandle :=
  match s.selectedProvider with
  | .claude => s.claudeSessionId.map .claudeSession
  | .codex => s.codexThreadId.map .codexThread
  | .mock | .acp | .unknown => none

def applySessionHandle (s : AppState) : SessionHandle → AppState
  | .claudeSession sessionId => { s with claudeSessionId := some sessionId }
  | .codexThread threadId => { s with codexThreadId := some threadId }

def clearSession (s : AppState) : AppState :=
  { s with claudeSessionId := none, codexThreadId := none, transcript := [] }

/-! ## The active task -/

def nextReadyTodoId (s : AppState) : Option String := s.backlog.readyTodos.head?.map TodoItem.id

def markActiveTaskError (s : AppState) : AppState := { s with activeTaskHadError := true }

/-- Change the status of the active task, if there is one and the backlog has it. -/
def markActiveTask (s : AppState) (status : TaskStatus) : AppState :=
  match s.activeTaskId with
  | some taskId =>
      { s with
        backlog.tasks := BacklogState.updateTask taskId ({ · with status := status }) s.backlog.tasks }
  | none => s

def markActiveTaskRunning (s : AppState) : AppState := s.markActiveTask .running

def markActiveTaskVerifying (s : AppState) : AppState := s.markActiveTask .verifying

def activeTaskSummary (s : AppState) : Option String :=
  s.transcript.reverse.findSome? fun
    | .assistant text => if text = "" then none else some text
    | _ => none

/-- Let go of the active task: its status and result change, and its todo's status. -/
def endActiveTask (s : AppState) (status : TaskStatus) (resultSummary : Option String)
    (todoChange : TodoItem → TodoItem) : AppState :=
  match s.activeTaskId with
  | none => s
  | some taskId =>
      let ended := { s.backlog with
        tasks := BacklogState.updateTask taskId
          (fun task => { task with status := status, resultSummary := resultSummary }) s.backlog.tasks }
      { s with
        activeTaskId := none
        backlog :=
          match s.backlog.findTask taskId with
          | some task => ended.updateTodo task.todoId todoChange
          | none => ended
        activeTaskHadError := false
        continuationAttempts := 0 }

def completeActiveTask (s : AppState) (summary : Option String) : AppState :=
  s.endActiveTask .done summary ({ · with status := .done })

def failActiveTask (s : AppState) (reason : String) : AppState :=
  s.endActiveTask .failed (some reason) fun todo =>
    if todo.status = .inProgress then { todo with status := .ready } else todo

def blockActiveTask (s : AppState) (reason : String) : AppState :=
  s.endActiveTask .blocked (some reason) ({ · with status := .blocked })

end AppState

end AgileAgent.Core.Loop
