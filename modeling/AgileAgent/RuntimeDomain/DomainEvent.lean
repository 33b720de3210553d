/-! # Domain events

Everything a provider reports about its work. What nothing reads but to display it (the changes
of a patch, the arguments and result of an MCP call, the action of a search) is left out.
-/

namespace AgileAgent.RuntimeDomain

inductive SessionHandle where
  | claudeSession (sessionId : String)
  | codexThread (threadId : String)
  deriving Repr, DecidableEq

inductive ExecCommandStatus where
  | inProgress
  | completed
  | failed
  | declined
  deriving Repr, DecidableEq

inductive PatchApplyStatus where
  | inProgress
  | completed
  | failed
  | declined
  deriving Repr, DecidableEq

inductive McpToolCallStatus where
  | inProgress
  | completed
  | failed
  deriving Repr, DecidableEq

inductive DomainEvent where
  | sessionHandle (handle : SessionHandle)
  | assistantChunk (text : String)
  | thinkingChunk (text : String)
  | status (text : String)
  | execCommandStarted (callId inputPreview : Option String) (source : Option String := none)
  | execCommandFinished (callId outputPreview : Option String) (status : ExecCommandStatus)
      (exitCode : Option Int32 := none) (durationMs : Option UInt64 := none)
      (source : Option String := none)
  | execCommandOutputDelta (callId : Option String) (delta : String)
  | genericToolCallStarted (name : String) (callId inputPreview : Option String)
  | genericToolCallFinished (name : String) (callId outputPreview : Option String) (success : Bool)
      (exitCode : Option Int32 := none) (durationMs : Option UInt64 := none)
  | webSearchStarted (callId : Option String) (query : String)
  | webSearchFinished (callId : Option String) (query : String)
  | viewImage (callId : Option String) (path : String)
  | imageGenerationFinished (callId : Option String)
  | mcpToolCallStarted (callId : Option String)
  | mcpToolCallFinished (callId error : Option String) (status : McpToolCallStatus) (isError : Bool)
  | patchApplyStarted (callId : Option String)
  | patchApplyFinished (callId : Option String) (status : PatchApplyStatus)
  | patchApplyOutputDelta (callId : Option String) (delta : String)
  | providerPid (pid : UInt32)
  | error (message : String)
  | finished
  deriving Repr, DecidableEq

end AgileAgent.RuntimeDomain
