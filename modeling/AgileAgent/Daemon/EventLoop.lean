import AgileAgent.Machine
import AgileAgent.Core.Pool.DecisionCommands
import AgileAgent.Daemon.Items

/-! # The event loop

A tick works under the lock on what providers and decision agents have sent, and collects the
commands of the workers. They are dispatched one by one when the lock is released, so that the
input of a client can come between them.
-/

namespace AgileAgent.Core

open RuntimeDomain

namespace PoolSlot

variable [Unicode]

def hasProviderThread (s : PoolSlot) : Bool := s.eventRx.isSome && s.threadHandle.isSome

def clearProviderThread (s : PoolSlot) : PoolSlot := { s with eventRx := none, threadHandle := none }

/-- Polled events are a sign of life. -/
def awaken (s : PoolSlot) (now : Moment) : PoolSlot :=
  let s := { s with lastActivity := now.instant }
  if s.status.isWaitingForInput then s.tryTransition (.responding now.instant) now else s

/-- What an event does to the slot itself. Of the transcript only the entries of the pool are known. -/
def updateState (s : PoolSlot) (now : Moment) : DomainEvent → PoolSlot
  | .finished =>
      (if s.status.isActive then s.tryTransition .idle now else s).clearProviderThread
  | .error e => (s.tryTransition (.blocked e) now).clearProviderThread
  | .status text => s.appendTranscript (.status text) now
  | _ => s

/-- The commands that the worker emits for an event; an event it rejects emits none. -/
def emitted (s : PoolSlot) (event : DomainEvent) (now : Moment) : List RuntimeCommand :=
  match ((s.awaken now).worker.apply event).1 with
  | .ok commands => commands
  | .error _ => []

/-- An event that was polled, first for the worker and then for the slot. -/
def poll (s : PoolSlot) (event : DomainEvent) (now : Moment) : PoolSlot :=
  let s := s.awaken now
  { s with worker := (s.worker.apply event).2 }.updateState now event

/-- The channel of the provider is gone. -/
def disconnect (s : PoolSlot) (now : Moment) : PoolSlot :=
  let s := s.clearProviderThread
  if s.status.isActive then s.tryTransition .idle now else s

/-- A provider was started for the slot. -/
def begin (s : PoolSlot) (prompt : Option String) (threadHandle : Nat) (now : Moment) : PoolSlot :=
  let s := match prompt with
    | some text => s.appendTranscript (.user text) now
    | none => s
  let s := { s with toAgentSlot := s.toAgentSlot.setThreadHandle threadHandle now }
  if s.status.isIdle then (s.tryTransition .starting now).tryTransition (.responding now.instant) now
  else if s.status.isActive || s.status.isBlocked || s.status.isWaitingForInput then
    s.tryTransition (.responding now.instant) now
  else s

end PoolSlot

end AgileAgent.Core

namespace AgileAgent.Daemon

open AgileAgent.Core RuntimeDomain

/-! ## The loop -/

/-- A command with the turn of its agent that it comes from. What a decision asks for comes from
    none. -/
structure Command where
  command : RuntimeCommand
  turn : Option Nat

def agentOf : RuntimeCommand → AgentId
  | .notifyUser agentId _ | .terminate agentId _ | .transitionState agentId _ => agentId

/-- What is behind the lock, and the pump and the commands of ticks. Nothing in the source keeps
    which turn an agent is on, and whether it has done nothing since it finished one. -/
structure EventLoop where
  agentPool : WorkerPool
  commandQueue : AgentId → List Command := fun _ => []
  /-- The agents with a receiver in the aggregator. -/
  receivers : AgentId → Bool := fun _ => false
  pump : EventPump := {}
  pendingCmds : List RuntimeCommand := []
  commands : List Command := []
  turn : AgentId → Nat := fun _ => 0
  rested : AgentId → Bool := fun _ => false

namespace EventLoop

variable [Unicode]

def startProviderForAgentInner (l : EventLoop) (agentId : AgentId) (text : String)
    (recordUserPrompt : Bool) (thread : Option Nat) (now : Moment) : Except String Unit × EventLoop :=
  match l.agentPool.getSlotById agentId, thread with
  | none, _ => (.error "agent not found", l)
  | some slot, thread =>
      if slot.hasProviderThread then (.error ("agent " ++ agentId ++ " is already busy"), l)
      else
        match thread with
        | none => (.error "failed to start provider thread", l)
        | some threadHandle =>
            let prompt := if recordUserPrompt then some text else none
            (.ok (), { l with
              agentPool := l.agentPool.modifySlot agentId (·.begin prompt threadHandle now)
              receivers := Function.update l.receivers agentId true
              turn := Function.update l.turn agentId (l.turn agentId + 1)
              rested := Function.update l.rested agentId false })

/-! ### The phases of a tick -/

/-- Phase 1 for one event. Whether the slot is there or not, the pump converts it. -/
def pollProviderEvent (l : EventLoop) (agentId : AgentId) (event : DomainEvent) (now : Moment) :
    List Event × EventLoop :=
  let emitted := (l.agentPool.getSlotById agentId).elim [] (·.emitted event now)
  let processed := l.pump.process agentId event
  (processed.1, { l with
    agentPool := l.agentPool.modifySlot agentId (·.poll event now)
    commandQueue := Function.update l.commandQueue agentId
      (l.commandQueue agentId ++ emitted.map fun command => ⟨command, some (l.turn agentId)⟩)
    receivers := if endsTurn event then Function.update l.receivers agentId false else l.receivers
    pump := processed.2
    rested :=
      if event = .finished ∧ l.receivers agentId then Function.update l.rested agentId true
      else if event = .finished ∨ !endsTurn event then l.rested
      else Function.update l.rested agentId false })

def cleanUpChannel (l : EventLoop) (agentId : AgentId) (now : Moment) : EventLoop :=
  { l with
    agentPool := l.agentPool.modifySlot agentId (·.disconnect now)
    receivers := Function.update l.receivers agentId false }

/-- The status of the agent allows a custom instruction. -/
def takesInstruction (l : EventLoop) (agentId : AgentId) (now : Moment) : Bool :=
  (l.agentPool.getSlotById agentId).any fun slot =>
    let status := slot.status.label now.utc
    status = "responding" || status = "starting" || status = "idle" ||
      "blocked:".toList.isPrefixOf status.toList || status = "waiting_for_input"

/-- What the loop does with one result of the legacy path. -/
def followUp (agentId : AgentId) (threads : Nat → Option Nat) (now : Moment) (l : EventLoop)
    (result : DecisionExecutionResult × Nat) : EventLoop :=
  match result.1 with
  | .customInstruction instruction =>
      if l.takesInstruction agentId now then
        (l.startProviderForAgentInner agentId instruction false (threads result.2) now).2
      else l
  | _ => l

def executeLegacy (l : EventLoop) (agentId : AgentId) (actions : List DecisionAction)
    (threads : Nat → Option Nat) (now : Moment) : EventLoop :=
  let executed := l.agentPool.executeDecisionAction agentId actions now
  executed.1.zipIdx.foldl (followUp agentId threads now)
    { l with agentPool := executed.2, rested := Function.update l.rested agentId false }

/-- Phase 3 for one response. -/
def handleDecision (l : EventLoop) (agentId : AgentId) (actions : List DecisionAction)
    (threads : Nat → Option Nat) (now : Moment) : EventLoop :=
  match interpretAll agentId (translate agentId actions) with
  | some commands =>
      if actions.isEmpty then l.executeLegacy agentId actions threads now
      else { l with pendingCmds := l.pendingCmds ++ commands }
  | none => l.executeLegacy agentId actions threads now

/-- Take the queues of the slots, one after another. -/
def drainCommands (queue : AgentId → List Command) :
    List AgentId → List Command × (AgentId → List Command)
  | [] => ([], queue)
  | agentId :: rest =>
      let others := drainCommands (Function.update queue agentId []) rest
      (queue agentId ++ others.1, others.2)

/-- Phase 7. -/
def collectCommands (l : EventLoop) : EventLoop :=
  let drained := drainCommands l.commandQueue (l.agentPool.slots.map fun slot => slot.agentId)
  { l with
    pendingCmds := []
    commandQueue := drained.2
    commands := l.commands ++ l.pendingCmds.map (⟨·, none⟩) ++ drained.1 }

/-! ### The handlers of the daemon -/

/-- The status that a `TransitionState` names. -/
def targetStatus (newStatus : String) (now : Moment) : AgentSlotStatus :=
  match newStatus with
  | "idle" => .idle
  | "starting" => .starting
  | "responding" => .responding now.instant
  | "blocked" => .blocked "decision"
  | "stopped" => .stopped "decision"
  | _ => .idle

def handle (l : EventLoop) (command : RuntimeCommand) (now : Moment) : EventLoop :=
  match command with
  | .notifyUser agentId message =>
      { l with
        agentPool := l.agentPool.modifySlot agentId
          (·.appendTranscript (.status ("Notification: " ++ message)) now) }
  | .terminate agentId _ =>
      let stopped := l.agentPool.stopAgent agentId now
      match stopped.1 with
      | .ok _ =>
          { l with
            agentPool := stopped.2
            receivers := Function.update l.receivers agentId false }
      | .error _ => { l with agentPool := stopped.2 }
  | .transitionState agentId newStatus =>
      { l with
        agentPool := l.agentPool.modifySlot agentId
          (·.tryTransition (targetStatus newStatus now) now) }

/-- Dispatch the next command. A handler takes the lock by blocking on it, and where the runtime does
    not allow that, it panics and the tick with it. -/
def dispatch (blocking : Bool) (l : EventLoop) (now : Moment) : EventLoop :=
  match l.commands with
  | [] => l
  | ⟨command, turn⟩ :: rest =>
      if blocking then
        let rested := match turn with
          | some _ => l.rested
          | none => Function.update l.rested (agentOf command) false
        { l with commands := rest, rested }.handle command now
      else { l with commands := [] }

/-! ### Runs -/

inductive Step where
  | lock
  | event (agentId : AgentId) (event : DomainEvent)
  | disconnected (agentId : AgentId)
  | decision (agentId : AgentId) (actions : List DecisionAction) (threads : Nat → Option Nat)
  | release
  | dispatch
  | sendInput (agentId : AgentId) (text : String) (thread : Option Nat)

inductive Output where
  | done
  | events (events : List Event)
  | accepted (result : Except String Unit)

/-- One step at a moment. A tick starts with a new pump. -/
def step (blocking : Bool) (l : EventLoop) (call : Step × Moment) : Output × EventLoop :=
  match call with
  | (.lock, _) => (.done, { l with pump := {} })
  | (.event agentId event, now) =>
      let polled := l.pollProviderEvent agentId event now
      (.events polled.1, polled.2)
  | (.disconnected agentId, now) => (.done, l.cleanUpChannel agentId now)
  | (.decision agentId actions threads, now) => (.done, l.handleDecision agentId actions threads now)
  | (.release, _) => (.done, l.collectCommands)
  | (.dispatch, now) => (.done, l.dispatch blocking now)
  | (.sendInput agentId text thread, now) =>
      let started := l.startProviderForAgentInner agentId text true thread now
      (.accepted started.1, started.2)

/-- What the decision agents answered: the actions for an agent, and what starting a provider for
    each of them gives. -/
structure DecisionResponse where
  agentId : AgentId
  actions : List DecisionAction
  threads : Nat → Option Nat

/-- A tick up to the end of its lock, the dispatch of one command, or an input of a client. -/
inductive Operation where
  | tick (polled : List (AgentId × DomainEvent)) (disconnected : List AgentId)
      (responses : List DecisionResponse)
  | dispatch
  | sendInput (agentId : AgentId) (text : String) (thread : Option Nat)

/-- The steps of an operation. Nothing comes between those of a tick, which has the lock. -/
def Operation.steps : Operation → List Step
  | .tick polled disconnected responses =>
      .lock :: polled.map (fun event => .event event.1 event.2) ++ disconnected.map .disconnected ++
        responses.map (fun response => .decision response.agentId response.actions response.threads) ++
        [.release]
  | .dispatch => [.dispatch]
  | .sendInput agentId text thread => [.sendInput agentId text thread]

/-- The steps of a run. -/
def steps (operations : List (Operation × Moment)) : List (Step × Moment) :=
  operations.flatMap fun operation => operation.1.steps.map fun step => (step, operation.2)

end EventLoop

end AgileAgent.Daemon
