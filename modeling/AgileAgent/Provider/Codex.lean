import Mathlib.Data.Finset.Basic
import AgileAgent.DecisionDsl.Host
import AgileAgent.RuntimeDomain.DomainEvent

/-! # The Codex provider

From the lines of `codex exec --json` to provider events. What a domain event leaves out (the
changes of a patch, the arguments of an MCP call, the action of a search) is not parsed here.
-/

namespace AgileAgent.DecisionDsl.Json

/-- `Value::get` with a key. -/
def get (key : String) : Json → Option Json
  | .object fields => fields.lookup key
  | _ => none

def asStr : Json → Option String
  | .string s => some s
  | _ => none

def asArray : Json → Option (List Json)
  | .array items => some items
  | _ => none

def asBool : Json → Option Bool
  | .bool b => some b
  | _ => none

def asI64 : Json → Option Int
  | .integer i => some i
  | _ => none

def asU64 : Json → Option UInt64
  | .integer i => if 0 ≤ i then some (UInt64.ofNat i.toNat) else none
  | _ => none

/-- A field that holds a text. -/
def str (key : String) (value : Json) : Option String := (value.get key).bind asStr

end AgileAgent.DecisionDsl.Json

namespace AgileAgent.Provider

open DecisionDsl (Json trim)
open RuntimeDomain

/-- One line of the output. -/
structure ExecEvent where
  eventType : String
  threadId : Option String := none
  item : Option Json := none

/-- `serde_json`. -/
class SerdeJson where
  /-- `from_str` of an `ExecEvent`. -/
  fromStr : String → Except String ExecEvent
  /-- `to_string` of a `Value`. -/
  toString : Json → Option String

/-- The `type` of an item, as far as the provider tells them apart. -/
inductive ItemKind where
  | commandExecution | fileChange | webSearch | imageView | imageGeneration | mcpToolCall
  | userMessage | agentMessage | other
  deriving Repr, DecidableEq

def ItemKind.ofType : String → ItemKind
  | "command_execution" => .commandExecution
  | "file_change" => .fileChange
  | "web_search" => .webSearch
  | "image_view" => .imageView
  | "image_generation" => .imageGeneration
  | "mcp_tool_call" => .mcpToolCall
  | "user_message" => .userMessage
  | "agent_message" => .agentMessage
  | _ => .other

/-- `item.started` or `item.completed`. -/
inductive Method where
  | started | completed
  deriving Repr, DecidableEq

/-! ## Items -/

def itemKind (item : Json) : ItemKind := .ofType ((item.str "type").getD "")

/-- `i32::try_from`. -/
def toI32 (i : Int) : Option Int32 :=
  if -2147483648 ≤ i ∧ i ≤ 2147483647 then some (Int32.ofInt i) else none

def parseExecCommandStatus (item : Json) (exitCode : Option Int32) : ExecCommandStatus :=
  match (item.str "status").getD (if exitCode.getD 0 = 0 then "completed" else "failed") with
  | "declined" => .declined
  | "failed" => .failed
  | "in_progress" | "inProgress" => .inProgress
  | _ => .completed

def parsePatchApplyStatus (item : Json) : PatchApplyStatus :=
  match (item.str "status").getD "completed" with
  | "failed" => .failed
  | "declined" => .declined
  | "in_progress" | "inProgress" => .inProgress
  | _ => .completed

def parseMcpToolCallStatus (item : Json) : McpToolCallStatus :=
  match (item.str "status").getD "completed" with
  | "failed" => .failed
  | "in_progress" | "inProgress" => .inProgress
  | _ => .completed

/-- The server and the tool. -/
def parseMcpInvocation (item : Json) : Option (String × String) := do
  return (← item.str "server", ← item.str "tool")

/-- The error, and whether the result is one. -/
def parseMcpToolCallResult (item : Json) : Option String × Bool :=
  let isError := (item.get "result").bind fun result =>
    ((result.get "isError").or (result.get "is_error")).bind Json.asBool
  let error := (item.get "error").bind fun value =>
    ((value.get "message").or (value.asStr.map fun _ => value)).bind Json.asStr
  (error, isError.getD false)

section

variable [SerdeJson]

/-- The event for one block of a content, if there is one. -/
def blockEvent (itemStatus : String) (itemId : Option String) (streamed : Finset String)
    (block : Json) : Option DomainEvent :=
  match (block.str "type").getD "" with
  | "text" => do
      let text ← block.str "text"
      let alreadyStreamed := itemId.any (· ∈ streamed)
      if text ≠ "" ∧ !alreadyStreamed then some (.assistantChunk text) else none
  | "thinking" => do
      let thinking ← block.str "thinking"
      if thinking ≠ "" then some (.thinkingChunk thinking) else none
  | "tool_use" => some (.genericToolCallStarted ((block.str "name").getD "tool_use") (block.str "id")
      ((block.get "arguments").bind SerdeJson.toString))
  | "tool_result" => some (.genericToolCallFinished ((block.str "name").getD "tool_result")
      (block.str "id") (block.str "output") (itemStatus != "error"))
  | _ => none

def parseContentBlocks (item : Json) (streamed : Finset String) : List DomainEvent :=
  if itemKind item = .userMessage then []
  else
    let itemStatus := (item.str "status").getD "completed"
    (((item.get "content").bind Json.asArray).getD []).filterMap
      (blockEvent itemStatus (item.str "id") streamed)

def parseItemEvent (method : Method) (item : Json) (streamed : Finset String) : List DomainEvent :=
  let itemId := item.str "id"
  match method, itemKind item with
  | .started, .commandExecution => [.execCommandStarted itemId (item.str "command") (item.str "source")]
  | .completed, .commandExecution =>
      let exitCode := ((item.get "exit_code").bind Json.asI64).bind toI32
      let durationMs := (item.get "duration_ms").bind Json.asU64
      [.execCommandFinished itemId (item.str "aggregated_output")
        (parseExecCommandStatus item exitCode) exitCode durationMs (item.str "source")]
  | .started, .fileChange => [.patchApplyStarted itemId]
  | .completed, .fileChange => [.patchApplyFinished itemId (parsePatchApplyStatus item)]
  | .started, .webSearch => ((item.str "query").map (.webSearchStarted itemId)).toList
  | .completed, .webSearch => ((item.str "query").map (.webSearchFinished itemId)).toList
  | .completed, .imageView => ((item.str "path").map (.viewImage itemId)).toList
  | .completed, .imageGeneration => [.imageGenerationFinished itemId]
  | .started, .mcpToolCall =>
      ((parseMcpInvocation item).map fun _ => DomainEvent.mcpToolCallStarted itemId).toList
  | .completed, .mcpToolCall =>
      ((parseMcpInvocation item).map fun _ =>
        let (error, isError) := parseMcpToolCallResult item
        DomainEvent.mcpToolCallFinished itemId error (parseMcpToolCallStatus item) isError).toList
  | _, .userMessage => []
  | .completed, .agentMessage =>
      ((item.str "text").filter fun text => text ≠ "" && !itemId.any (· ∈ streamed)).map
        DomainEvent.assistantChunk |>.toList
  | _, _ => parseContentBlocks item streamed

/-! ## The stream -/

/-- What is sent, the ids of the messages that were streamed, and whether the turn is over. -/
def handleExecEvent (event : ExecEvent) (streamed : Finset String) :
    List DomainEvent × Finset String × Bool :=
  match event.eventType with
  | "thread.started" =>
      ((event.threadId.map fun threadId => DomainEvent.sessionHandle (.codexThread threadId)).toList ++
        [.status "codex thread started"], streamed, false)
  | "turn.started" => ([.status "codex turn started"], streamed, false)
  | "turn.completed" => ([.status "codex turn completed"], streamed, true)
  | "item.started" =>
      ((event.item.map (parseItemEvent .started · streamed)).getD [], streamed, false)
  | "item.completed" =>
      ((event.item.map (parseItemEvent .completed · streamed)).getD [], streamed, false)
  | eventType => ([.status ("ignored codex event: " ++ eventType)], streamed, false)

/-- What is sent for each line, and the error of the line that is not an event. -/
def handleLines : List String → Finset String → List (List DomainEvent) × Except String Unit
  | [], _ => ([], .ok ())
  | line :: rest, streamed =>
      if trim line = "" then
        let (sent, outcome) := handleLines rest streamed
        ([] :: sent, outcome)
      else match SerdeJson.fromStr (trim line) with
        | .error _ => ([], .error ("invalid codex JSONL event: " ++ trim line))
        | .ok event =>
            let (events, streamed, finished) := handleExecEvent event streamed
            if finished then ([events], .ok ())
            else
              let (sent, outcome) := handleLines rest streamed
              (events :: sent, outcome)

/-- A process that was spawned: its lines, how it shuts down and its errors. -/
structure Child where
  pid : UInt32
  stdout : List String
  shutdown : Except String Unit := .ok ()
  stderr : String := ""

def runCodex (child : Child) : List DomainEvent × Except String Unit :=
  let opening := [.providerPid child.pid, .status "codex provider started"]
  match handleLines child.stdout ∅ with
  | (sent, .error e) => (opening ++ sent.flatten, .error e)
  | (sent, .ok ()) =>
      match child.shutdown with
      | .error e => (opening ++ sent.flatten, .error e)
      | .ok () =>
          let closing := if trim child.stderr = "" then []
            else [.status ("codex stderr: " ++ trim child.stderr)]
          (opening ++ sent.flatten ++ closing, .ok ())

/-- All that the thread of the provider sends. -/
def start (child : Child) : List DomainEvent :=
  match runCodex child with
  | (events, .error e) => events ++ [.error e, .finished]
  | (events, .ok ()) => events ++ [.finished]

end

end AgileAgent.Provider
