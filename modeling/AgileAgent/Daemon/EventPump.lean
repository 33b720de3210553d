import Mathlib.Logic.Function.Basic
import AgileAgent.Numeral
import AgileAgent.RuntimeDomain.DomainEvent

/-! # The event pump

Turns what providers report into numbered events of the protocol. The pump remembers the item that
is open for each agent and call.
-/

namespace AgileAgent.Daemon

open RuntimeDomain

/-! ## Events of the protocol -/

inductive ItemKind where
  | userInput
  | assistantOutput
  | toolCall
  | toolResult
  | systemMessage
  deriving Repr, DecidableEq

/-- The protocol's `AgentSlotStatus`. -/
inductive AgentStatus where
  | idle
  | running
  | stopped
  | error
  deriving Repr, DecidableEq

inductive ItemDelta where
  | text (text : String)
  | markdown (text : String)
  deriving Repr, DecidableEq

/-- The metadata of a finished command; its `type` is `exec_command`. -/
structure ExecMetadata where
  status : ExecCommandStatus
  exitCode : Option Int32
  durationMs : Option UInt64
  source : Option String
  deriving Repr, DecidableEq

/-- A completed item, less its times. -/
structure TranscriptItem where
  id : String
  kind : ItemKind
  agentId : Option String
  content : String
  metadata : ExecMetadata
  deriving Repr, DecidableEq

/-- The payloads that the pump makes. -/
inductive EventPayload where
  | agentStatusChanged (agentId : String) (status : AgentStatus)
  | itemStarted (itemId : String) (kind : ItemKind) (agentId : String)
  | itemDelta (itemId : String) (delta : ItemDelta)
  | itemCompleted (itemId : String) (item : TranscriptItem)
  | error (message : String) (source : Option String)
  deriving Repr, DecidableEq

structure Event where
  seq : Nat
  payload : EventPayload
  deriving Repr, DecidableEq

def mapStatus (status : String) : AgentStatus :=
  if status = "idle" then .idle
  else if status = "running" ∨ status = "responding" ∨ status = "thinking" then .running
  else if status = "stopped" then .stopped
  else if status = "error" then .error
  else .running

/-! ## The pump -/

structure EventPump where
  seqCounter : Nat := 0
  currentItems : String × Option String → Option String := fun _ => none
  nextItemIndex : Nat := 1

namespace EventPump

def itemName (index : Nat) : String := "item-" ++ toString index

theorem itemName_injective : Function.Injective itemName := Numeral.named_injective "item-"

/-- `mk_event`, for a call that makes this one event. -/
def mkEvent (pump : EventPump) (payload : EventPayload) : List Event × EventPump :=
  ([⟨pump.seqCounter + 1, payload⟩], { pump with seqCounter := pump.seqCounter + 1 })

/-- The kind of the item is not kept. -/
def createItem (pump : EventPump) (agentId : String) (callId : Option String) (_kind : ItemKind) :
    String × EventPump :=
  (itemName pump.nextItemIndex,
    { pump with
      nextItemIndex := pump.nextItemIndex + 1
      currentItems := Function.update pump.currentItems (agentId, callId)
        (some (itemName pump.nextItemIndex)) })

def getOrCreateItem (pump : EventPump) (agentId : String) (callId : Option String)
    (kind : ItemKind) : String × EventPump :=
  match pump.currentItems (agentId, callId) with
  | some id => (id, pump)
  | none => pump.createItem agentId callId kind

def currentItemId (pump : EventPump) (agentId : String) (callId : Option String) : Option String :=
  pump.currentItems (agentId, callId)

def finishItem (pump : EventPump) (agentId : String) (callId : Option String) :
    Option String × EventPump :=
  (pump.currentItems (agentId, callId),
    { pump with currentItems := Function.update pump.currentItems (agentId, callId) none })

/-- A piece of text for the item of the agent that has no call. -/
def chunk (pump : EventPump) (agentId : String) (kind : ItemKind) (delta : ItemDelta) :
    List Event × EventPump :=
  let (itemId, pump) := pump.getOrCreateItem agentId none kind
  pump.mkEvent (.itemDelta itemId delta)

def process (pump : EventPump) (agentId : String) : DomainEvent → List Event × EventPump
  | .status status => pump.mkEvent (.agentStatusChanged agentId (mapStatus status))
  | .assistantChunk text => pump.chunk agentId .assistantOutput (.text text)
  | .thinkingChunk text => pump.chunk agentId .systemMessage (.markdown text)
  | .execCommandStarted callId _ _ =>
      let (itemId, pump) := pump.createItem agentId callId .toolCall
      pump.mkEvent (.itemStarted itemId .toolCall agentId)
  | .execCommandFinished callId outputPreview status exitCode durationMs source =>
      let (itemId, pump) := pump.finishItem agentId callId
      match itemId with
      | some itemId => pump.mkEvent (.itemCompleted itemId
          { id := itemName pump.nextItemIndex ++ "-exec", kind := .toolResult
            agentId := some agentId, content := outputPreview.getD ""
            metadata := { status, exitCode, durationMs, source } })
      | none => ([], pump)
  | .execCommandOutputDelta callId delta =>
      match pump.currentItemId agentId callId with
      | some itemId => pump.mkEvent (.itemDelta itemId (.text delta))
      | none => ([], pump)
  | .error message => pump.mkEvent (.error message (some agentId))
  | .finished => pump.mkEvent (.agentStatusChanged agentId .idle)
  | _ => ([], pump)

end EventPump

end AgileAgent.Daemon
