import AgileAgent.Machine
import AgileAgent.RuntimeDomain.Worker

/-! # The decision agent of a work agent

The slot takes requests from its mail channel and spawns a background thread for each. The
thread decides, leaves the engine's reflection round and sends the response; the pool's poll
collects responses and sets the slot idle. Times, which only a display reads, are left out.
-/

namespace AgileAgent.Core

open RuntimeDomain (AgentId)

structure SituationType where
  name : String
  subtype : Option String := none
  deriving Repr, DecidableEq

structure DecisionRequest (Context : Type) where
  workAgentId : AgentId
  situationType : SituationType
  context : Context
  deriving Repr, DecidableEq

structure DecisionResponse (Output : Type) where
  workAgentId : AgentId
  situationType : Option SituationType := none
  tier : Option String := none
  output : Option Output := none
  error : Option String := none
  decisionPrompt : Option String := none
  thinking : Option String := none
  deriving Repr, DecidableEq

namespace DecisionResponse

variable {Output : Type}

def successWithDetails (workAgentId : AgentId) (output : Output) (situationType : SituationType)
    (tier : String) (decisionPrompt thinking : Option String) : DecisionResponse Output where
  workAgentId := workAgentId
  situationType := some situationType
  tier := some tier
  output := some output
  decisionPrompt := decisionPrompt
  thinking := thinking

/-- `DecisionResponse::error`. -/
def failure (workAgentId : AgentId) (errorMessage : String) : DecisionResponse Output where
  workAgentId := workAgentId
  error := some errorMessage

def isError (r : DecisionResponse Output) : Bool := r.error.isSome

end DecisionResponse

inductive DecisionAgentStatus where
  | idle
  | thinking
  | responding
  | error (message : String)
  | stopped (reason : String)
  deriving Repr, DecidableEq

namespace DecisionAgentStatus

def isIdle : DecisionAgentStatus → Bool
  | .idle => true
  | .thinking | .responding | .error _ | .stopped _ => false

def isThinking : DecisionAgentStatus → Bool
  | .thinking => true
  | .idle | .responding | .error _ | .stopped _ => false

end DecisionAgentStatus

/-- What the engine computes from a request. Its decision is no function of the request, and
    comes with the event that ends it. -/
structure DecisionEngine (Context Output : Type) where
  requiresHuman : Context → Bool
  buildPrompt : Context → String
  reasoning : Output → String

def computeTierFromSituation (situationType : String) (requiresHuman : Bool) : String :=
  if requiresHuman then "Critical"
  else if situationType = "error" then "Complex"
  else if situationType = "partial_completion" then "Complex"
  else if situationType = "claims_completion" then "Medium"
  else if situationType = "waiting_for_choice" ∨ situationType = "agent_idle" ∨
      situationType = "rate_limit_recovery" then "Simple"
  else if situationType = "task_starting" then "High"
  else "Medium"

/-- A decision that a thread ended: what `engine.decide` returned, and the engine's
    reflection round after it. -/
structure Decision (Context Output : Type) where
  request : DecisionRequest Context
  result : Except String Output
  updatedReflection : UInt8

def Decision.response {Context Output : Type} (engine : DecisionEngine Context Output)
    (d : Decision Context Output) : DecisionResponse Output :=
  match d.result with
  | .ok output => .successWithDetails d.request.workAgentId output d.request.situationType
      (computeTierFromSituation d.request.situationType.name (engine.requiresHuman d.request.context))
      (some (engine.buildPrompt d.request.context)) (some (engine.reasoning output))
  | .error message => .failure d.request.workAgentId message

/-- A background thread: deciding with the slot's round, with its round to be synced, or with
    its response to be sent. -/
inductive DecisionThread (Context Output : Type) where
  | deciding (request : DecisionRequest Context) (reflectionRound : UInt8)
  | decided (d : Decision Context Output)
  | synced (d : Decision Context Output)

def DecisionThread.isDeciding {Context Output : Type} : DecisionThread Context Output → Bool
  | .deciding _ _ => true
  | .decided _ | .synced _ => false

structure DecisionAgentSlot (Output : Type) where
  status : DecisionAgentStatus := .idle
  decisionCount : Nat := 0
  errorCount : Nat := 0
  reflectionRound : UInt8 := 0
  /-- `engine.reflection_round()` of the slot's own engine. -/
  engineRound : UInt8 := 0
  pendingReflectionRound : Option UInt8 := none
  pendingFallbackResponse : Option (DecisionResponse Output) := none

namespace DecisionAgentSlot

variable {Output : Type}

def clearThinkingStatus (s : DecisionAgentSlot Output) (hadError : Bool) : DecisionAgentSlot Output :=
  if s.status.isThinking then
    { s with
      reflectionRound := s.pendingReflectionRound.getD s.reflectionRound
      engineRound := s.pendingReflectionRound.getD s.engineRound
      pendingReflectionRound := none
      errorCount := s.errorCount + if hadError then 1 else 0
      status := .idle }
  else s

def takeFallbackResponse (s : DecisionAgentSlot Output) :
    Option (DecisionResponse Output) × DecisionAgentSlot Output :=
  (s.pendingFallbackResponse, { s with pendingFallbackResponse := none })

end DecisionAgentSlot

/-- A slot with its two mail channels, its threads, and what a poll under way has received. The
    last three fields only record the run. -/
structure DecisionAgent (Context Output : Type) where
  slot : DecisionAgentSlot Output := {}
  requests : List (DecisionRequest Context) := []
  responses : List (DecisionResponse Output) := []
  threads : List (DecisionThread Context Output) := []
  polling : Option (List (DecisionResponse Output)) := none
  sent : List (DecisionRequest Context) := []
  decided : List (Decision Context Output) := []
  returned : List (DecisionResponse Output) := []

/-- How a thread's decision ends. -/
inductive DecisionEnd (Output : Type) where
  | finished (result : Except String Output) (updatedReflection : UInt8)
  | panicked

/-- Events of a run: the work agent sends, the main thread calls `poll_and_process` alone or
    takes the next step of `poll_decision_agents`, a thread takes its next step. The end is read
    by a deciding thread, and `delivered` by a sending one. -/
inductive DecisionEvent (Context Output : Type) where
  | sendRequest (request : DecisionRequest Context)
  | pollAndProcess
  | poll
  | thread (index : Nat) (ending : DecisionEnd Output) (delivered : Bool)

namespace DecisionAgent

variable {Context Output : Type} (engine : DecisionEngine Context Output)

def sendRequest (a : DecisionAgent Context Output) (request : DecisionRequest Context) :
    DecisionAgent Context Output :=
  { a with requests := a.requests ++ [request], sent := a.sent ++ [request] }

def spawnAsyncProcessing (a : DecisionAgent Context Output) (request : DecisionRequest Context) :
    DecisionAgent Context Output :=
  { a with
    slot := { a.slot with status := .thinking }
    threads := a.threads ++ [.deciding request a.slot.reflectionRound] }

def pollAndProcess (a : DecisionAgent Context Output) : Nat × DecisionAgent Context Output :=
  if a.slot.status.isIdle then
    match a.requests with
    | [] => (0, a)
    | request :: rest =>
        (1, spawnAsyncProcessing
          { a with requests := rest, slot := { a.slot with decisionCount := a.slot.decisionCount + 1 } }
          request)
  else (0, a)

/-- The poll found the response channel empty: it looks for a fallback if it has received
    nothing, and sets the slot idle if it has a response. -/
def finishPoll (a : DecisionAgent Context Output) (received : List (DecisionResponse Output)) :
    List (DecisionResponse Output) × DecisionAgent Context Output :=
  let collected := if received.isEmpty then a.slot.pendingFallbackResponse.toList else received
  let slot := if received.isEmpty then a.slot.takeFallbackResponse.2 else a.slot
  (collected,
    { a with
      slot := if collected.isEmpty then slot else
        slot.clearThinkingStatus (collected.any DecisionResponse.isError)
      polling := none
      returned := a.returned ++ collected })

/-- The next step of `poll_decision_agents` at this agent, and the responses that it returns. -/
def pollStep (a : DecisionAgent Context Output) :
    List (DecisionResponse Output) × DecisionAgent Context Output :=
  match a.polling, a.responses with
  | none, _ => ([], { a.pollAndProcess.2 with polling := some [] })
  | some received, response :: rest =>
      ([], { a with responses := rest, polling := some (received ++ [response]) })
  | some received, [] => a.finishPoll received

/-- The next step of a thread. A thread that panics is gone and has left nothing. -/
def threadStep (a : DecisionAgent Context Output) (index : Nat) (ending : DecisionEnd Output)
    (delivered : Bool) : DecisionAgent Context Output :=
  match a.threads[index]?, ending with
  | none, _ => a
  | some (.deciding request _), .finished result updatedReflection =>
      let d : Decision Context Output := ⟨request, result, updatedReflection⟩
      { a with threads := a.threads.set index (.decided d), decided := a.decided ++ [d] }
  | some (.deciding _ _), .panicked => { a with threads := a.threads.eraseIdx index }
  | some (.decided d), _ =>
      { a with
        threads := a.threads.set index (.synced d)
        slot := { a.slot with pendingReflectionRound := some d.updatedReflection } }
  | some (.synced d), _ =>
      if delivered then
        { a with threads := a.threads.eraseIdx index, responses := a.responses ++ [d.response engine] }
      else
        { a with
          threads := a.threads.eraseIdx index
          slot := { a.slot with pendingFallbackResponse := some (d.response engine) } }

def step (a : DecisionAgent Context Output) :
    DecisionEvent Context Output → List (DecisionResponse Output) × DecisionAgent Context Output
  | .sendRequest request => ([], a.sendRequest request)
  -- the main thread is in one call at a time
  | .pollAndProcess => ([], if a.polling.isSome then a else a.pollAndProcess.2)
  | .poll => a.pollStep
  | .thread index ending delivered => ([], a.threadStep engine index ending delivered)

/-- A thread of the agent ends its decision in a panic. -/
def Panics (a : DecisionAgent Context Output) : DecisionEvent Context Output → Prop
  | .thread index .panicked _ => ∃ request round, a.threads[index]? = some (.deciding request round)
  | .thread _ (.finished ..) _ | .sendRequest _ | .pollAndProcess | .poll => False

end DecisionAgent

end AgileAgent.Core
