import AgileAgent.Backlog.BacklogState
import AgileAgent.Core.Pool.WorkerPool

/-! # Tasks and decisions of the pool

Assigning and completing tasks of the backlog, blocked agents and their requests, the answers
of humans and of the decision layer, and requests that expire.
-/

namespace AgileAgent.Core

open Backlog RuntimeDomain
open DecisionDsl (strContains)

inductive TaskCompletionResult where
  | success
  | failure (error : String)
  deriving Repr, DecidableEq

inductive DecisionExecutionResult where
  | executed (optionId : String)
  | acceptedRecommendation
  | customInstruction (instruction : String)
  | skipped
  | cancelled
  | agentNotFound
  | notBlocked
  | taskPrepared (branch worktreePath : String)
  | preparationFailed (reason : String)
  deriving Repr, DecidableEq

/-- A task prepared by the git flow. -/
structure TaskPreparation where
  branchName : String
  worktreePath : String
  contextMessage : String
  deriving Repr, DecidableEq

/-- An action of a decision: its type, the texts and the flags among its parameters, and what
    the git flow answers, if there is one. -/
structure DecisionAction where
  actionType : String
  params : Finmap (fun _ : String => String) := ∅
  flags : Finmap (fun _ : String => Bool) := ∅
  gitFlow : Option (Except String TaskPreparation) := none

/-- `params[name].as_str().unwrap_or(default)`. -/
def DecisionAction.param (a : DecisionAction) (name default : String) : String :=
  (a.params.lookup name).getD default

/-- `params[name].as_bool().unwrap_or(default)`. -/
def DecisionAction.flag (a : DecisionAction) (name : String) (default : Bool) : Bool :=
  (a.flags.lookup name).getD default

/-- The id of a request of an agent. -/
def requestId (agentId : AgentId) (uuid : String) : String := "req-" ++ agentId ++ "-" ++ uuid

namespace WorkerPool

/-! ## Tasks -/

def assignTaskWithBacklog (p : WorkerPool) (agentId : AgentId) (taskId : TaskId) (b : BacklogState)
    (now : Moment) : Except String Unit × WorkerPool × BacklogState :=
  if b.canAssignTask taskId then
    match p.getSlotById agentId with
    | none => (.error (notFound agentId), p, b)
    | some slot =>
        match (slot.assignTask taskId now).1 with
        | .error e => (.error e, p, b)
        | .ok _ =>
            (.ok (), p.modifySlot agentId (·.tryAssign taskId now), (b.startTask taskId).2)
  else (.error ("Task " ++ taskId ++ " cannot be assigned (not found or not ready)"), p, b)

/-- What the completion of a task does to the backlog. -/
def finishTask (b : BacklogState) (taskId : TaskId) : TaskCompletionResult → BacklogState
  | .success => (b.completeTask taskId (some "Task completed successfully")).2
  | .failure error => (b.failTask taskId error).2

def completeTaskWithBacklog (p : WorkerPool) (agentId : AgentId) (result : TaskCompletionResult)
    (b : BacklogState) : Except String TaskId × WorkerPool × BacklogState :=
  match p.getSlotById agentId with
  | none => (.error (notFound agentId), p, b)
  | some slot =>
      match slot.assignedTaskId with
      | none => (.error ("Agent " ++ agentId ++ " has no assigned task"), p, b)
      | some taskId =>
          (.ok taskId, p.modifySlot agentId PoolSlot.clearTask, finishTask b taskId result)

def findIdleAgentId (p : WorkerPool) : Option AgentId :=
  (p.slots.find? fun slot => slot.status.eq .idle).map fun slot => slot.agentId

def autoAssignTask (p : WorkerPool) (b : BacklogState) (now : Moment) :
    Option (AgentId × TaskId) × WorkerPool × BacklogState :=
  match p.findIdleAgentId, b.readyTasks.head? with
  | some agentId, some task =>
      let attempt := p.assignTaskWithBacklog agentId task.id b now
      (attempt.1.toOption.map fun _ => (agentId, task.id), attempt.2)
  | _, _ => (none, p, b)

/-! ## Blocked agents -/

/-- The agent is told to slow down (HTTP 429). -/
def isRateLimit (blockedState : BlockedState) (description : String) : Bool :=
  blockedState.reasonType = "rate_limit" ||
    (blockedState.reasonType = "error" && strContains description "429")

def buildHumanRequest (p : WorkerPool) (agentId : AgentId) (blockedState : BlockedState)
    (description uuid : String) (now : Moment) : HumanDecisionRequest :=
  (HumanDecisionRequest.create (requestId agentId uuid) agentId blockedState.reasonType []
    blockedState.urgency
    (p.blockedHandler.config.timeoutConfig.timeoutForUrgency blockedState.urgency)
    now.utc).withDescription description

/-- Give a running task to the first idle agent. -/
def reassignTask (p : WorkerPool) (agentId : AgentId) (taskId : TaskId) (b : BacklogState)
    (now : Moment) : WorkerPool :=
  match p.findIdleAgentId with
  | none => p
  | some idleAgent =>
      if (b.findTask taskId).any fun task => task.status = .running then
        match p.getSlotById idleAgent with
        | none => p
        | some slot =>
            match (slot.assignTask taskId now).1 with
            -- the task stays with the blocked agent
            | .error _ => p
            | .ok _ =>
                (p.modifySlot idleAgent (·.tryAssign taskId now)).modifySlot agentId PoolSlot.clearTask
      else p

def handleBlockedTask (p : WorkerPool) (agentId : AgentId) (b : BacklogState) (now : Moment) :
    WorkerPool × BacklogState :=
  match (p.getSlotById agentId).bind fun slot => slot.assignedTaskId with
  | none => (p, b)
  | some taskId =>
      match p.blockedHandler.config.taskPolicy with
      | .keepAssigned => (p, b)
      | .reassignIfPossible => (p.reassignTask agentId taskId b now, b)
      | .markWaiting => (p, (b.blockTask taskId "agent_blocked").2)

/-- The request and the entry in the history of an agent that got blocked. -/
def registerBlocked (p : WorkerPool) (agentId : AgentId) (blockedState : BlockedState)
    (description uuid : String) (now : Moment) : WorkerPool :=
  { p with
    humanQueue :=
      if blockedState.reasonType = "human_decision" then
        p.humanQueue.push (p.buildHumanRequest agentId blockedState description uuid now)
      else p.humanQueue
    blockedHandler := p.blockedHandler.recordBlocked
      { agentId, reasonType := blockedState.reasonType, description } }

/-- `process_agent_blocked`. The description is what the reason says of itself, and the uuid
    becomes part of the id of the request. -/
def processAgentBlocked [Unicode] (p : WorkerPool) (agentId : AgentId) (blockedState : BlockedState)
    (description uuid : String) (b : Option BacklogState) (now : Moment) :
    Except String Unit × WorkerPool × Option BacklogState :=
  match p.getSlotById agentId with
  | none => (.error (notFound agentId), p, b)
  | some slot =>
      let limited := isRateLimit blockedState description
      let newStatus :=
        if limited then .resting now.utc blockedState false else .blockedForDecision blockedState
      match (slot.transitionTo newStatus now).1 with
      | .error e =>
          (.error ((if limited then "Failed to transition to resting: "
            else "Failed to transition to blocked: ") ++ e), p, b)
      | .ok _ =>
          let pool := (p.modifySlot agentId (·.tryTransition newStatus now)).registerBlocked agentId
            blockedState description uuid now
          match b with
          | none => (.ok (), pool, none)
          | some backlog =>
              let handled := pool.handleBlockedTask agentId backlog now
              (.ok (), handled.1, some handled.2)

/-! ## Human responses -/

def executeDecision [Unicode] (p : WorkerPool) (agentId : AgentId) (selection : HumanSelection)
    (now : Moment) : Except String DecisionExecutionResult × WorkerPool :=
  match p.getSlotById agentId with
  | none => (.ok .agentNotFound, p)
  | some slot =>
      match selection with
      | .selected optionId => (.ok (.executed optionId), p)
      | .acceptedRecommendation => (.ok .acceptedRecommendation, p)
      | .custom instruction => (.ok (.customInstruction instruction), p)
      | .skipped => (.ok .skipped, p.modifySlot agentId PoolSlot.clearTask)
      | .cancelled =>
          match (slot.transitionTo .idle now).1 with
          | .error e => (.error ("Failed to cancel: " ++ e), p)
          | .ok _ => (.ok .cancelled, p.modifySlot agentId (·.tryTransition .idle now))

/-- The agent of the first request goes on and gets the decision. -/
def unblockAgent [Unicode] (p : WorkerPool) (agentId : AgentId) (selection : HumanSelection)
    (now : Moment) : Except String DecisionExecutionResult × WorkerPool :=
  match p.getSlotById agentId with
  | none => (.ok .agentNotFound, p)
  | some slot =>
      if slot.status.isBlocked then
        match (slot.transitionTo (.responding now.instant) now).1 with
        | .error e => (.error ("Failed to unblock agent: " ++ e), p)
        | .ok _ =>
            (p.modifySlot agentId (·.tryTransition (.responding now.instant) now)).executeDecision
              agentId selection now
      else (.ok .notBlocked, p)

def processHumanResponse [Unicode] (p : WorkerPool) (response : HumanDecisionResponse) (now : Moment) :
    Except String DecisionExecutionResult × WorkerPool :=
  -- the request at the head, whichever the response answers
  let request := p.humanQueue.peek
  match p.humanQueue.complete response with
  | (false, humanQueue) =>
      (.error ("Request " ++ response.requestId ++ " not found in queue"), { p with humanQueue })
  | (true, humanQueue) =>
      let agentId := request.elim "unknown" (·.agentId)
      { p with
        humanQueue
        blockedHandler := p.blockedHandler.recordResolution agentId
          (.selection response.selection) }.unblockAgent agentId response.selection now

/-! ## Clearing -/

/-- Unblock the slots, one after another. -/
def clearSlots [Unicode] (now : Moment) : BlockedHandler → List PoolSlot → BlockedHandler × List PoolSlot
  | handler, [] => (handler, [])
  | handler, slot :: rest =>
      if slot.status.isBlocked then
        let cleared := clearSlots now (handler.recordResolution slot.agentId .clearedOnShutdown) rest
        (cleared.1, slot.tryTransition .idle now :: cleared.2)
      else
        let cleared := clearSlots now handler rest
        (cleared.1, slot :: cleared.2)

/-- `clear_all_blocked`. Of the queue only expired requests go. -/
def clearAllBlocked [Unicode] (p : WorkerPool) (now : Moment) : WorkerPool :=
  let cleared := clearSlots now p.blockedHandler p.slots
  { p with
    slots := cleared.2
    blockedHandler := cleared.1
    humanQueue := (p.humanQueue.checkExpired now.utc).2 }

def clearAgentContext [Unicode] (p : WorkerPool) (agentId : AgentId) (now : Moment) :
    Except String Unit × WorkerPool :=
  match p.getSlotById agentId with
  | none => (.error ("agent " ++ agentId ++ " not found"), p)
  | some slot =>
      let pool := p.modifySlot agentId (·.clearTranscript.clearSessionHandle.clearTask)
      if slot.status.isIdle then (.ok (), pool)
      else ((slot.transitionTo .idle now).1, pool.modifySlot agentId (·.tryTransition .idle now))

/-! ## Expired requests -/

def selectDefaultOption (request : HumanDecisionRequest) : HumanSelection :=
  match request.options.head? with
  | some first => .selected first.id
  | none => .skipped

def timeoutActionForRequest (p : WorkerPool) (request : HumanDecisionRequest) : HumanSelection :=
  match p.blockedHandler.config.timeoutConfig.timeoutDefault with
  | .followRecommendation =>
      if request.recommendation.isSome then .acceptedRecommendation else selectDefaultOption request
  | .selectDefault => selectDefaultOption request
  | .cancel | .markTaskFailed | .releaseResource => .cancelled

/-- What a timeout does to a blocked slot. -/
def timeOut [Unicode] (selection : HumanSelection) (now : Moment) (slot : PoolSlot) : PoolSlot :=
  match selection with
  | .cancelled => slot.tryTransition .idle now
  | .skipped => slot.clearTask.tryTransition .idle now
  | _ => slot.tryTransition (.responding now.instant) now

def executeTimeoutAction [Unicode] (p : WorkerPool) (agentId : AgentId) (selection : HumanSelection)
    (now : Moment) : WorkerPool :=
  match p.getSlotById agentId with
  | none => p
  | some slot =>
      if slot.status.isBlocked then p.modifySlot agentId (timeOut selection now) else p

/-- The timeout of one request that is no longer in the queue. -/
def expireRequest [Unicode] (now : Moment) (p : WorkerPool) (request : HumanDecisionRequest) :
    WorkerPool :=
  let selection := p.timeoutActionForRequest request
  { p with
    blockedHandler := p.blockedHandler.recordResolution request.agentId
      (.timeout selection) }.executeTimeoutAction request.agentId selection now

def processExpiredRequests [Unicode] (p : WorkerPool) (now : Moment) : Nat × WorkerPool :=
  let checked := p.humanQueue.checkExpired now.utc
  (checked.1.length, checked.1.foldl (expireRequest now) { p with humanQueue := checked.2 })

/-! ## Actions of the decision layer -/

/-- A response of the decision layer to a request of the agent. -/
def processHumanResponseInternal [Unicode] (p : WorkerPool) (response : HumanDecisionResponse)
    (workAgentId : AgentId) (now : Moment) : WorkerPool :=
  -- every selection sends the agent back to idle
  { p.modifySlot workAgentId (·.tryTransition .idle now) with
    humanQueue := (p.humanQueue.complete response).2 }

def executeSelectOption [Unicode] (p : WorkerPool) (workAgentId : AgentId) (action : DecisionAction)
    (now : Moment) : DecisionExecutionResult × WorkerPool :=
  let optionId := action.param "option_id" "a"
  match p.humanQueue.findByAgentId workAgentId with
  | some request =>
      (.executed optionId, p.processHumanResponseInternal
        (.create request.id (.selected optionId) now.utc) workAgentId now)
  | none => (.notBlocked, p)

def executeSkip [Unicode] (p : WorkerPool) (workAgentId : AgentId) (now : Moment) :
    DecisionExecutionResult × WorkerPool :=
  match p.humanQueue.findByAgentId workAgentId with
  | some request =>
      (.skipped, p.processHumanResponseInternal (.create request.id .skipped now.utc) workAgentId now)
  | none => (.skipped, p)

def executeRequestHuman (p : WorkerPool) : DecisionExecutionResult × WorkerPool :=
  (.acceptedRecommendation, p)

def executeCustomInstruction (p : WorkerPool) (workAgentId : AgentId) (action : DecisionAction)
    (now : Moment) : DecisionExecutionResult × WorkerPool :=
  let instruction := action.param "instruction" ""
  (.customInstruction instruction, p.modifySlot workAgentId fun slot =>
    if instruction = "" then slot else slot.appendTranscript (.user instruction) now)

/-- Send a blocked slot back to idle. -/
def goIdle [Unicode] (now : Moment) (slot : PoolSlot) : PoolSlot :=
  if slot.status.isBlocked then slot.tryTransition .idle now else slot

def executeContinue [Unicode] (p : WorkerPool) (workAgentId : AgentId) (now : Moment) :
    DecisionExecutionResult × WorkerPool :=
  (.acceptedRecommendation, p.modifySlot workAgentId (goIdle now))

def executeReflect [Unicode] (p : WorkerPool) (workAgentId : AgentId) (action : DecisionAction)
    (now : Moment) : DecisionExecutionResult × WorkerPool :=
  let prompt := action.param "prompt" "Please verify your work is complete."
  (.customInstruction prompt, p.modifySlot workAgentId fun slot =>
    goIdle now (slot.appendTranscript (.user ("Reflect: " ++ prompt)) now))

def executeConfirmCompletion [Unicode] (p : WorkerPool) (workAgentId : AgentId) (now : Moment) :
    DecisionExecutionResult × WorkerPool :=
  (.executed "confirm_completion", p.modifySlot workAgentId fun slot => (goIdle now slot).clearTask)

def executeRetry [Unicode] (p : WorkerPool) (workAgentId : AgentId) (action : DecisionAction)
    (now : Moment) : DecisionExecutionResult × WorkerPool :=
  let prompt := action.param "prompt" "Please retry the previous action."
  (.customInstruction prompt, p.modifySlot workAgentId fun slot =>
    let told := slot.appendTranscript (.user prompt) now
    -- a resting slot goes on resting until it is told to continue
    if told.status.isResting then told else goIdle now told)

def executeContinueAllTasks (p : WorkerPool) (workAgentId : AgentId) (action : DecisionAction)
    (now : Moment) : DecisionExecutionResult × WorkerPool :=
  let instruction := action.param "instruction" "continue finish all tasks"
  match p.getSlotById workAgentId with
  | none => (.agentNotFound, p)
  | some slot =>
      if slot.status.isIdle && slot.assignedTaskId.isNone then (.acceptedRecommendation, p)
      else (.customInstruction instruction, p.modifySlot workAgentId fun slot =>
        slot.appendTranscript (.user instruction) now)

def executeStopIfComplete [Unicode] (p : WorkerPool) (workAgentId : AgentId) (action : DecisionAction)
    (now : Moment) : DecisionExecutionResult × WorkerPool :=
  let reason := action.param "reason" "All tasks complete"
  (.executed "stop_if_complete", p.modifySlot workAgentId (·.tryTransition (.stopped reason) now))

def executePrepareTaskStart (p : WorkerPool) (workAgentId : AgentId) (action : DecisionAction)
    (now : Moment) : DecisionExecutionResult × WorkerPool :=
  match action.gitFlow with
  | none => (.cancelled, p)
  | some (.ok prepared) =>
      (.taskPrepared prepared.branchName prepared.worktreePath, p.modifySlot workAgentId fun slot =>
        slot.appendTranscript (.status prepared.contextMessage) now)
  | some (.error e) =>
      (.preparationFailed e, p.modifySlot workAgentId fun slot => slot.appendTranscript
        (.status ("Task preparation failed: " ++ e ++ ". Please resolve issues manually.")) now)

def executeAction [Unicode] (p : WorkerPool) (workAgentId : AgentId) (action : DecisionAction)
    (now : Moment) : DecisionExecutionResult × WorkerPool :=
  match action.actionType with
  | "select_option" => p.executeSelectOption workAgentId action now
  | "skip" => p.executeSkip workAgentId now
  | "request_human" => p.executeRequestHuman
  | "custom_instruction" => p.executeCustomInstruction workAgentId action now
  | "continue" => p.executeContinue workAgentId now
  | "reflect" => p.executeReflect workAgentId action now
  | "confirm_completion" => p.executeConfirmCompletion workAgentId now
  | "retry" => p.executeRetry workAgentId action now
  | "continue_all_tasks" => p.executeContinueAllTasks workAgentId action now
  | "stop_if_complete" => p.executeStopIfComplete workAgentId action now
  | "prepare_task_start" => p.executePrepareTaskStart workAgentId action now
  | _ => (.cancelled, p)

def executeActions [Unicode] (workAgentId : AgentId) (now : Moment) :
    WorkerPool → List DecisionAction → List DecisionExecutionResult × WorkerPool
  | p, [] => ([], p)
  | p, action :: rest =>
      let first := p.executeAction workAgentId action now
      let others := executeActions workAgentId now first.2 rest
      (first.1 :: others.1, others.2)

def executeDecisionAction [Unicode] (p : WorkerPool) (workAgentId : AgentId)
    (actions : List DecisionAction) (now : Moment) : List DecisionExecutionResult × WorkerPool :=
  match p.getSlotById workAgentId with
  | none => ([.agentNotFound], p)
  | some slot =>
      if !slot.status.isBlocked && !slot.status.isIdle && !slot.status.isWaitingForInput then
        ([.notBlocked], p)
      else if actions.isEmpty then ([.cancelled], p)
      else executeActions workAgentId now p actions

end WorkerPool

end AgileAgent.Core
