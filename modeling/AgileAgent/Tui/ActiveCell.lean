import AgileAgent.Core.Loop.SlotTranscript
import AgileAgent.Tui.Streaming

/-! # The active cell of the terminal

What the provider is at work on is shown below the transcript: the text that streams in, or the
tools that run. It goes over to the transcript when it is done.
-/

namespace AgileAgent.Tui

open Core.Loop RuntimeDomain

inductive StreamTextKind where
  | assistant
  | thinking
  deriving Repr, DecidableEq

/-- The text up to its last line break, and the rest. -/
def splitLine (text : String) : Option (String × String) :=
  match text.toList.reverse.span (· != '\n') with
  | (_, []) => none
  | (rest, finished) => some (String.ofList finished.reverse, String.ofList rest.reverse)

/-! ## Rendering -/

/-- `append_markdown`: for each line that a source is rendered to, whether it is blank. -/
abbrev Markdown := String → Option Nat → String → List Bool

structure MarkdownStreamCollector where
  buffer : String := ""
  committedLineCount : Nat := 0
  width : Option Nat
  cwd : String
  deriving Repr, DecidableEq

namespace MarkdownStreamCollector

def pushDelta (collector : MarkdownStreamCollector) (delta : String) : MarkdownStreamCollector :=
  { collector with buffer := collector.buffer ++ delta }

/-- The number of lines that are newly complete. -/
def commitCompleteLines (markdown : Markdown) (collector : MarkdownStreamCollector) :
    Nat × MarkdownStreamCollector :=
  match splitLine collector.buffer with
  | none => (0, collector)
  | some (source, _) =>
      let rendered := markdown source collector.width collector.cwd
      let complete := if rendered.getLast? = some true then rendered.length - 1 else rendered.length
      if complete ≤ collector.committedLineCount then (0, collector)
      else
        (complete - collector.committedLineCount, { collector with committedLineCount := complete })

end MarkdownStreamCollector

/-! ## Streams -/

structure QueuedStreamCommit where
  text : String
  renderedLines : Nat
  enqueuedAt : Nat
  deriving Repr, DecidableEq

structure ActiveStream where
  kind : StreamTextKind
  tail : String := ""
  pendingCommits : List QueuedStreamCommit := []
  collector : MarkdownStreamCollector
  policy : AdaptiveChunkingPolicy := {}
  deriving Repr, DecidableEq

namespace ActiveStream

def oldestQueuedAge (stream : ActiveStream) (now : Nat) : Option Nat :=
  stream.pendingCommits.head?.map fun commit => now - commit.enqueuedAt

def queueSnapshot (stream : ActiveStream) (now : Nat) : QueueSnapshot :=
  ⟨(stream.pendingCommits.map (·.renderedLines)).sum, stream.oldestQueuedAge now⟩

/-- A chunk comes in. Its complete lines are queued at once. -/
def push (markdown : Markdown) (now : Nat) (chunk : String) (stream : ActiveStream) : ActiveStream :=
  let collector := stream.collector.pushDelta chunk
  match splitLine (stream.tail ++ chunk) with
  | none => { stream with tail := stream.tail ++ chunk, collector := collector }
  | some (finished, rest) =>
      let committed := collector.commitCompleteLines markdown
      { stream with
        tail := rest
        collector := committed.2
        pendingCommits := stream.pendingCommits ++ [⟨finished, max committed.1 1, now⟩] }

end ActiveStream

/-- The queued commits that a number of lines takes, and those that stay. The last one that is
    taken may have more lines than are left. -/
def popCommits : Nat → List QueuedStreamCommit → List QueuedStreamCommit × List QueuedStreamCommit
  | _, [] => ([], [])
  | remaining, commit :: queue =>
      if remaining = 0 then ([], commit :: queue)
      else
        let popped := popCommits (remaining - commit.renderedLines) queue
        (commit :: popped.1, popped.2)

/-! ## Tools -/

structure ActiveExecCall where
  callId : Option String
  source : Option String
  allowExploringGroup : Bool
  inputPreview : Option String
  outputPreview : Option String
  status : ExecCommandStatus
  exitCode : Option Int32
  durationMs : Option UInt64
  deriving Repr, DecidableEq

structure ActiveGenericToolCall where
  name : String
  callId : Option String
  inputPreview : Option String
  outputPreview : Option String
  success : Bool
  started : Bool
  exitCode : Option Int32
  durationMs : Option UInt64
  deriving Repr, DecidableEq

structure ActivePatchApply where
  callId : Option String
  status : PatchApplyStatus
  outputPreview : Option String
  deriving Repr, DecidableEq

structure ActiveWebSearch where
  callId : Option String
  query : String
  started : Bool
  deriving Repr, DecidableEq

structure ActiveMcpToolCall where
  callId : Option String
  error : Option String
  status : McpToolCallStatus
  isError : Bool
  deriving Repr, DecidableEq

inductive ActiveTool where
  | exec (group : List ActiveExecCall)
  | generic (call : ActiveGenericToolCall)
  | patch (patch : ActivePatchApply)
  | webSearch (search : ActiveWebSearch)
  | mcp (call : ActiveMcpToolCall)
  deriving Repr, DecidableEq

namespace ActiveTool

def asTranscriptEntries : ActiveTool → List TranscriptEntry
  | exec group => group.map fun entry =>
      .execCommand entry.callId entry.source entry.allowExploringGroup entry.inputPreview
        entry.outputPreview entry.status entry.exitCode entry.durationMs
  | generic entry =>
      [.genericToolCall entry.name entry.callId entry.inputPreview entry.outputPreview entry.success
        entry.started entry.exitCode entry.durationMs]
  | patch entry => [.patchApply entry.callId entry.status entry.outputPreview]
  | webSearch entry => [.webSearch entry.callId entry.query entry.started]
  | mcp entry => [.mcpToolCall entry.callId entry.error entry.status entry.isError]

/-- The entries of a tool that is drained with a reason for its failure. -/
def failedEntries (reason : String) : ActiveTool → List TranscriptEntry
  | exec group => group.map fun entry =>
      .execCommand entry.callId entry.source entry.allowExploringGroup entry.inputPreview
        entry.outputPreview .failed entry.exitCode entry.durationMs
  | generic entry =>
      [.genericToolCall entry.name entry.callId entry.inputPreview entry.outputPreview false false
        none none]
  | patch entry => [.patchApply entry.callId .failed entry.outputPreview]
  | webSearch entry => [.webSearch entry.callId entry.query false]
  | mcp entry => [.mcpToolCall entry.callId (entry.error.or (some reason)) .failed true]

end ActiveTool

/-- `mark_in_progress_transcript_entries_failed`, for one entry. -/
def markFailed (reason : Option String) : TranscriptEntry → TranscriptEntry
  | .execCommand callId source allowExploringGroup inputPreview outputPreview .inProgress exitCode
      durationMs =>
      .execCommand callId source allowExploringGroup inputPreview outputPreview .failed exitCode
        durationMs
  | .genericToolCall name callId inputPreview outputPreview _ true exitCode durationMs =>
      .genericToolCall name callId inputPreview outputPreview false false exitCode durationMs
  | .patchApply callId .inProgress outputPreview => .patchApply callId .failed outputPreview
  | .webSearch callId query true => .webSearch callId query false
  | .mcpToolCall callId error .inProgress _ => .mcpToolCall callId (error.or reason) .failed true
  | entry => entry

inductive ActiveCell where
  | tool (tool : ActiveTool)
  | stream (stream : ActiveStream)
  deriving Repr, DecidableEq

def ActiveStream.asTranscriptEntry (stream : ActiveStream) : TranscriptEntry :=
  match stream.kind with
  | .assistant => .assistant stream.tail
  | .thinking => .thinking stream.tail

/-- Of a stream only the line that has begun. -/
def ActiveCell.asTranscriptEntries : ActiveCell → List TranscriptEntry
  | .tool active => active.asTranscriptEntries
  | .stream active => [active.asTranscriptEntry]

/-! ## The terminal -/

structure TuiState where
  app : AppState
  activeCell : Option ActiveCell := none
  activeEntriesRevision : UInt64 := 0
  transcriptRenderWidth : Option Nat := none
  deriving Repr, DecidableEq

def commitStreamText (kind : StreamTextKind) (text : String) (app : AppState) : AppState :=
  match kind with
  | .assistant => app.appendAssistantChunk text
  | .thinking => app.appendThinkingChunk text

def commitAll (kind : StreamTextKind) (commits : List QueuedStreamCommit) (app : AppState) : AppState :=
  commits.foldl (fun app commit => commitStreamText kind commit.text app) app

/-- `ActiveToolStart`. -/
inductive ActiveToolStart where
  | exec
  | other
  deriving Repr, DecidableEq

/-- What the end of a call makes of the active tool. -/
inductive ToolEnd where
  /-- The call becomes an entry, and a tool may stay. -/
  | recorded (entry : TranscriptEntry) (rest : Option ActiveTool)
  /-- Another call is under way and stays so. -/
  | kept
  /-- The tool was taken and is not put back. -/
  | dropped

namespace TuiState

variable (s : TuiState)

def withApp (change : AppState → AppState) : TuiState := { s with app := change s.app }

def bumpActiveEntriesRevision : TuiState :=
  { s with activeEntriesRevision := s.activeEntriesRevision + 1 }

def flushStreamToTranscript (stream : ActiveStream) : TuiState :=
  s.withApp fun app =>
    let app := commitAll stream.kind stream.pendingCommits app
    if stream.tail = "" then app else commitStreamText stream.kind stream.tail app

def pushEntries (entries : List TranscriptEntry) : TuiState :=
  s.withApp fun app => { app with transcript := app.transcript ++ entries }

def drainActiveEntries (failureReason : Option String) : TuiState :=
  match s.activeCell with
  | none => s
  | some cell =>
      let rest := { s with activeCell := none }
      bumpActiveEntriesRevision (match cell with
        | .stream stream => rest.flushStreamToTranscript stream
        | .tool tool =>
            match failureReason with
            | some reason => rest.pushEntries (tool.failedEntries reason)
            | none => rest.pushEntries tool.asTranscriptEntries)

def flushActiveEntriesToTranscript : TuiState := s.drainActiveEntries none

def finalizeActiveEntriesAfterFailure (reason : Option String) : TuiState :=
  (s.drainActiveEntries reason).withApp fun app =>
    { app with transcript := app.transcript.map (markFailed reason) }

def flushActiveStreamToTranscript : TuiState :=
  match s.activeCell with
  | some (.stream stream) =>
      ({ s with activeCell := none }.flushStreamToTranscript stream).bumpActiveEntriesRevision
  | _ => s

/-! ### Text -/

def newStream (kind : StreamTextKind) : ActiveStream where
  kind := kind
  collector := { width := s.transcriptRenderWidth, cwd := s.app.cwd }

/-- The stream for text of a kind. A line that has only begun is not continued in another kind. -/
def ensureActiveStream (kind : StreamTextKind) : ActiveStream × TuiState :=
  match s.activeCell with
  | some (.stream stream) =>
      if stream.kind ≠ kind ∧ stream.tail ≠ "" then
        let flushed := { s with activeCell := none }.flushStreamToTranscript stream
        (flushed.newStream kind, flushed)
      else ({ stream with kind := kind }, s)
  | _ => (s.newStream kind, s)

/-- `drop_empty_active_stream`. -/
def setActiveStream (stream : ActiveStream) : TuiState :=
  { s with
    activeCell :=
      if stream.tail = "" ∧ stream.pendingCommits = [] then none else some (.stream stream) }

def appendStreamingTextChunk (markdown : Markdown) (now : Nat) (kind : StreamTextKind)
    (chunk : String) : TuiState :=
  if chunk = "" then s
  else
    let flushed := match s.activeCell with
      | some (.tool _) => s.flushActiveEntriesToTranscript
      | _ => s
    let ensured := flushed.ensureActiveStream kind
    (ensured.2.setActiveStream (ensured.1.push markdown now chunk)).bumpActiveEntriesRevision

/-- Whether there was something to show, and the state after it. -/
def drainActiveStreamCommitTick (now : Nat) : Bool × TuiState :=
  match s.activeCell with
  | some (.stream stream) =>
      let decided := stream.policy.decide (stream.queueSnapshot now) now
      let popped := popCommits decided.1.drainLines stream.pendingCommits
      let drained := { stream with policy := decided.2, pendingCommits := popped.2 }
      if popped.1 = [] then (false, { s with activeCell := some (.stream drained) })
      else
        (true, ((s.withApp (commitAll stream.kind popped.1)).setActiveStream
          drained).bumpActiveEntriesRevision)
  | _ => (false, s)

/-! ### Tools -/

def prepareForActiveToolStart (start : ActiveToolStart) : TuiState :=
  match start, s.activeCell with
  | .exec, some (.tool (.exec _)) => s
  | _, some (.tool _) => s.flushActiveEntriesToTranscript
  | _, _ => s

/-- A tool other than a command starts. -/
def startTool (tool : ActiveTool) : TuiState :=
  { (s.prepareForActiveToolStart .other).flushActiveStreamToTranscript with
    activeCell := some (.tool tool) }.bumpActiveEntriesRevision

/-- The active tool is taken, and the end of a call is recorded with it or without it. -/
def finishTool (ends : ActiveTool → ToolEnd) (record : AppState → AppState) : TuiState :=
  match s.activeCell with
  | some (.tool tool) =>
      match ends tool with
      | .recorded entry rest =>
          { s.withApp (·.push entry) with activeCell := rest.map .tool }.bumpActiveEntriesRevision
      | .kept => s.withApp record
      | .dropped => { s with activeCell := none }.withApp record
  | _ => s.withApp record

def pushActiveExecStarted (callId inputPreview source : Option String) : TuiState :=
  let flushed := (s.prepareForActiveToolStart .exec).flushActiveStreamToTranscript
  let call : ActiveExecCall :=
    { callId := callId
      source := source
      allowExploringGroup := true
      inputPreview := inputPreview
      outputPreview := none
      status := .inProgress
      exitCode := none
      durationMs := none }
  let group := match flushed.activeCell with
    | some (.tool (.exec group)) =>
        group.filter (fun existing => !(callId.isSome && existing.callId == callId)) ++ [call]
    | _ => [call]
  { flushed with activeCell := some (.tool (.exec group)) }.bumpActiveEntriesRevision

/-- Unlike that of a patch, the output of a command that is not active goes nowhere. -/
def appendActiveExecOutput (callId : Option String) (delta : String) : TuiState :=
  if delta = "" then s
  else
    match s.activeCell with
    | some (.tool (.exec group)) =>
        let takes (entry : ActiveExecCall) : Bool :=
          AppState.sameCall callId entry.callId || callId.isNone
        let append (entry : ActiveExecCall) : ActiveExecCall :=
          { entry with outputPreview := some (entry.outputPreview.getD "" ++ delta) }
        if group.any takes then
          { s with
            activeCell :=
              some (.tool (.exec (FirstMatch.modify takes append group.reverse).reverse))
          }.bumpActiveEntriesRevision
        else s
    | _ => s

def finishActiveExec (callId outputPreview : Option String) (status : ExecCommandStatus)
    (exitCode : Option Int32) (durationMs : Option UInt64) (source : Option String) : TuiState :=
  s.finishTool
    (fun
      | .exec group =>
          match group.reverse.find? (AppState.sameCall callId ·.callId) with
          | some entry =>
              let rest := (group.reverse.eraseP (AppState.sameCall callId ·.callId)).reverse
              .recorded
                (.execCommand entry.callId (entry.source.or source) entry.allowExploringGroup
                  entry.inputPreview (outputPreview.or entry.outputPreview) status exitCode durationMs)
                (if rest = [] then none else some (.exec rest))
          | none => .dropped
      | _ => .dropped)
    (·.pushExecCommandFinished callId outputPreview status exitCode durationMs source)

def pushActiveGenericToolCallStarted (name : String) (callId inputPreview : Option String) : TuiState :=
  s.startTool (.generic
    { name := name
      callId := callId
      inputPreview := inputPreview
      outputPreview := none
      success := true
      started := true
      exitCode := none
      durationMs := none })

def finishActiveGenericToolCall (name : String) (callId outputPreview : Option String) (success : Bool)
    (exitCode : Option Int32) (durationMs : Option UInt64) : TuiState :=
  s.finishTool
    (fun
      | .generic entry =>
          if AppState.sameCall callId entry.callId || entry.name == name then
            .recorded
              (.genericToolCall entry.name (entry.callId.or callId) entry.inputPreview
                (outputPreview.or entry.outputPreview) success false exitCode durationMs)
              none
          else .kept
      | _ => .dropped)
    (·.pushGenericToolCallFinished name callId outputPreview success exitCode durationMs)

def pushActivePatchApplyStarted (callId : Option String) : TuiState :=
  s.startTool (.patch { callId := callId, status := .inProgress, outputPreview := none })

def appendActivePatchApplyOutput (callId : Option String) (delta : String) : TuiState :=
  if delta = "" then s
  else
    let elsewhere := s.withApp (·.appendPatchApplyOutput callId delta)
    match s.activeCell with
    | some (.tool (.patch entry)) =>
        if AppState.sameCall callId entry.callId || callId.isNone then
          { s with
            activeCell :=
              some (.tool (.patch
                { entry with outputPreview := some (entry.outputPreview.getD "" ++ delta) }))
          }.bumpActiveEntriesRevision
        else elsewhere
    | _ => elsewhere

def finishActivePatchApply (callId : Option String) (status : PatchApplyStatus) : TuiState :=
  s.finishTool
    (fun
      | .patch entry =>
          if AppState.sameCall callId entry.callId || entry.callId.isNone then
            .recorded (.patchApply (entry.callId.or callId) status entry.outputPreview) none
          else .kept
      | _ => .dropped)
    (·.pushPatchApplyFinished callId status)

def pushActiveWebSearchStarted (callId : Option String) (query : String) : TuiState :=
  s.startTool (.webSearch { callId := callId, query := query, started := true })

def finishActiveWebSearch (callId : Option String) (query : String) : TuiState :=
  s.finishTool
    (fun
      | .webSearch entry =>
          if AppState.sameCall callId entry.callId || entry.callId.isNone then
            .recorded (.webSearch (entry.callId.or callId) query false) none
          else .kept
      | _ => .dropped)
    (·.pushWebSearchFinished callId query)

def pushActiveMcpToolCallStarted (callId : Option String) : TuiState :=
  s.startTool (.mcp { callId := callId, error := none, status := .inProgress, isError := false })

def finishActiveMcpToolCall (callId error : Option String) (status : McpToolCallStatus)
    (isError : Bool) : TuiState :=
  s.finishTool
    (fun
      | .mcp entry =>
          if AppState.sameCall callId entry.callId || entry.callId.isNone then
            .recorded (.mcpToolCall (entry.callId.or callId) error status isError) none
          else .kept
      | _ => .dropped)
    (·.pushMcpToolCallFinished callId error status isError)

/-! ### Events -/

/-- The phase of the loop after a turn without a task. -/
def settlePhase (app : AppState) : AppState :=
  if app.activeTaskId.isNone && app.loopPhase != .escalating then app.setLoopPhase .idle else app

def handleProviderTerminalError (error : String) : TuiState :=
  (s.finalizeActiveEntriesAfterFailure (some error)).withApp fun app =>
    let app := app.markActiveTaskError
    let app :=
      if isSessionExpiredError error then
        app.clearSession.pushErrorMessage
          "session expired - starting fresh conversation. Please retry your request."
      else app.pushErrorMessage error
    settlePhase app.finishProviderResponse

/-- What an event of the provider does. What the task engine makes of a finished turn comes after it. -/
def take (markdown : Markdown) (now : Nat) : DomainEvent → TuiState
  | .status text => s.withApp (·.pushStatusMessage text)
  | .assistantChunk chunk => s.appendStreamingTextChunk markdown now .assistant chunk
  | .thinkingChunk chunk => s.appendStreamingTextChunk markdown now .thinking chunk
  | .execCommandStarted callId inputPreview source =>
      s.pushActiveExecStarted callId inputPreview source
  | .execCommandFinished callId outputPreview status exitCode durationMs source =>
      s.finishActiveExec callId outputPreview status exitCode durationMs source
  | .execCommandOutputDelta callId delta => s.appendActiveExecOutput callId delta
  | .genericToolCallStarted name callId inputPreview =>
      s.pushActiveGenericToolCallStarted name callId inputPreview
  | .genericToolCallFinished name callId outputPreview success exitCode durationMs =>
      s.finishActiveGenericToolCall name callId outputPreview success exitCode durationMs
  | .webSearchStarted callId query => s.pushActiveWebSearchStarted callId query
  | .webSearchFinished callId query => s.finishActiveWebSearch callId query
  | .viewImage callId path => s.withApp (·.pushViewImage callId path)
  | .imageGenerationFinished callId => s.withApp (·.pushImageGeneration callId)
  | .mcpToolCallStarted callId => s.pushActiveMcpToolCallStarted callId
  | .mcpToolCallFinished callId error status isError =>
      s.finishActiveMcpToolCall callId error status isError
  | .patchApplyStarted callId => s.pushActivePatchApplyStarted callId
  | .patchApplyOutputDelta callId delta => s.appendActivePatchApplyOutput callId delta
  | .patchApplyFinished callId status => s.finishActivePatchApply callId status
  | .sessionHandle handle => s.withApp (·.applySessionHandle handle)
  | .error error => s.handleProviderTerminalError error
  | .providerPid _ => s
  | .finished =>
      s.flushActiveEntriesToTranscript.withApp fun app => settlePhase app.finishProviderResponse

end TuiState

/-- An event of the provider, the end of its stream, or the tick that drains complete lines. -/
inductive TuiInput where
  | event (event : DomainEvent)
  | disconnect
  | tick
  deriving Repr, DecidableEq

def TuiState.takeInput (markdown : Markdown) (now : Nat) (s : TuiState) : TuiInput → TuiState
  | .event event => s.take markdown now event
  | .disconnect => s.handleProviderTerminalError "provider event stream disconnected"
  | .tick => (s.drainActiveStreamCommitTick now).2

end AgileAgent.Tui
