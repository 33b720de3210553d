import AgileAgent.FirstMatch
import AgileAgent.Numeral
import AgileAgent.Core.AgentSlot
import AgileAgent.Core.Pool.HumanDecisionQueue

/-! # The worker pool

The pool owns the slots of its agents, the queue of human decisions, the history of blocked
agents and the index of the focused slot. An operation returns its result and the pool it
leaves. Counters are numbers; one that leaves its type panics in the source.
-/

namespace AgileAgent.Core

open RuntimeDomain

namespace AgentSlotStatus

def isIdle : AgentSlotStatus → Bool
  | .idle => true
  | _ => false

def isActive : AgentSlotStatus → Bool
  | .starting | .responding _ | .toolExecuting _ | .finishing => true
  | _ => false

/-- Resting counts as blocked. -/
def isBlocked : AgentSlotStatus → Bool
  | .blocked _ | .blockedForDecision _ | .resting _ _ _ => true
  | _ => false

def isResting : AgentSlotStatus → Bool
  | .resting _ _ _ => true
  | _ => false

def isTerminal : AgentSlotStatus → Bool
  | .stopped _ => true
  | _ => false

def isWaitingForInput : AgentSlotStatus → Bool
  | .waitingForInput _ => true
  | _ => false

end AgentSlotStatus

/-! ## Slots -/

inductive TranscriptEntry where
  | user (text : String)
  | status (text : String)
  deriving Repr, DecidableEq

/-- An agent slot with what the pool keeps in it. Of the transcript only the entries of the
    pool are known. -/
structure PoolSlot extends AgentSlot where
  assignedTaskId : Option TaskId := none
  transcript : List TranscriptEntry := []
  sessionHandle : Option SessionHandle := none
  profileId : Option String := none

namespace PoolSlot

def transitionTo [Unicode] (s : PoolSlot) (newStatus : AgentSlotStatus) (now : Moment) :
    Except String Unit × PoolSlot :=
  let moved := s.toAgentSlot.transitionTo newStatus now
  (moved.1, { s with toAgentSlot := moved.2 })

/-- What `transition_to` leaves. -/
def tryTransition [Unicode] (s : PoolSlot) (newStatus : AgentSlotStatus) (now : Moment) : PoolSlot :=
  (s.transitionTo newStatus now).2

def assignTask (s : PoolSlot) (taskId : TaskId) (now : Moment) : Except String Unit × PoolSlot :=
  if s.status.eq .idle then
    (.ok (), { s with assignedTaskId := some taskId, lastActivity := now.instant })
  else (.error ("Cannot assign task to agent with status " ++ s.status.label now.utc), s)

/-- What `assign_task` leaves. -/
def tryAssign (s : PoolSlot) (taskId : TaskId) (now : Moment) : PoolSlot := (s.assignTask taskId now).2

def clearTask (s : PoolSlot) : PoolSlot := { s with assignedTaskId := none }

def clearTranscript (s : PoolSlot) : PoolSlot := { s with transcript := [] }

def clearSessionHandle (s : PoolSlot) : PoolSlot := { s with sessionHandle := none }

def appendTranscript (s : PoolSlot) (entry : TranscriptEntry) (now : Moment) : PoolSlot :=
  { s with transcript := s.transcript ++ [entry], lastActivity := now.instant }

def setProfileId (s : PoolSlot) (profileId : String) (now : Moment) : PoolSlot :=
  { s with profileId := some profileId, lastActivity := now.instant }

end PoolSlot

/-! ## The history of blocked agents -/

/-- What to do with the task of an agent that is blocked. -/
inductive BlockedTaskPolicy where
  | keepAssigned
  | reassignIfPossible
  | markWaiting
  deriving Repr, DecidableEq

structure BlockedHandlingConfig where
  taskPolicy : BlockedTaskPolicy := .reassignIfPossible
  timeoutConfig : HumanDecisionTimeoutConfig := {}
  recordHistory : Bool := true
  maxHistoryEntries : Nat := 1000
  deriving Repr, DecidableEq

/-- The text of a resolution: a selection, `timeout: ` and a selection, or
    `cleared_on_shutdown`. -/
inductive Resolution where
  | selection (selection : HumanSelection)
  | timeout (selection : HumanSelection)
  | clearedOnShutdown
  deriving Repr, DecidableEq

structure BlockedHistoryEntry where
  agentId : AgentId
  reasonType : String
  description : String
  durationMs : Nat := 0
  resolved : Bool := false
  resolution : Option Resolution := none
  deriving Repr, DecidableEq

/-- The handler, less its notifier. -/
structure BlockedHandler where
  config : BlockedHandlingConfig := {}
  history : List BlockedHistoryEntry := []

namespace BlockedHandler

/-- Drop entries until there are at most `max`: resolved ones first, then the oldest. -/
def prune (max : Nat) : Nat → List BlockedHistoryEntry → List BlockedHistoryEntry
  | 0, history => history
  | rounds + 1, history =>
      if history.length ≤ max then history
      else if history.any (·.resolved) then prune max rounds (history.eraseP (·.resolved))
      else prune max rounds history.tail

/-- `prune_history`; each round of its loop drops one entry. -/
def pruneHistory (h : BlockedHandler) : BlockedHandler :=
  if h.config.maxHistoryEntries = 0 then h
  else { h with history := prune h.config.maxHistoryEntries h.history.length h.history }

def recordBlocked (h : BlockedHandler) (entry : BlockedHistoryEntry) : BlockedHandler :=
  if h.config.recordHistory then { h with history := h.history ++ [entry] }.pruneHistory else h

/-- Resolve the last entry of an agent that is not resolved. -/
def recordResolution (h : BlockedHandler) (agentId : AgentId) (resolution : Resolution) :
    BlockedHandler :=
  { h with history :=
      (FirstMatch.modify (fun entry => entry.agentId = agentId && !entry.resolved)
        (fun entry => { entry with resolved := true, resolution := some resolution })
        h.history.reverse).reverse }

end BlockedHandler

/-! ## Profiles -/

inductive CliBaseType where
  | mock
  | claude
  | codex
  | openCode
  deriving Repr, DecidableEq

namespace CliBaseType

def label : CliBaseType → String
  | .mock => "mock"
  | .claude => "claude"
  | .codex => "codex"
  | .openCode => "opencode"

/-- `to_provider_kind` is `Some`. -/
def hasProviderKind : CliBaseType → Bool
  | .openCode => false
  | _ => true

end CliBaseType

inductive ProfileError where
  | profileNotFound (id : String)
  | noProfileStore
  | persistenceError (message : String)
  | unsupportedCliType (label : String)
  deriving Repr, DecidableEq

/-- The CLI type of each profile. -/
abbrev ProfileStore := Finmap (fun _ : String => CliBaseType)

/-! ## The pool -/

structure WorkerPool where
  slots : List PoolSlot := []
  maxSlots : Nat
  nextAgentIndex : Nat := 1
  humanQueue : HumanDecisionQueue := {}
  blockedHandler : BlockedHandler := {}
  focusedSlot : Nat := 0
  profileStore : Option ProfileStore := none

/-- The id of a worker (`agent_{:03}`). -/
def agentName (index : Nat) : AgentId := "agent_" ++ String.ofList (Numeral.padded 3 index)

def parseAgentIndex (agentId : AgentId) : Option Nat :=
  ("agent_".toList.isPrefixOf? agentId.toList).bind (Numeral.parse (2 ^ 64))

def generateCodename (index : Nat) : AgentCodename :=
  let names := ["alpha", "bravo", "charlie", "delta", "echo", "foxtrot", "golf", "hotel", "india",
    "juliet", "kilo", "lima", "mike", "november", "oscar", "papa", "quebec", "romeo", "sierra",
    "tango", "uniform", "victor", "whiskey", "xray", "yankee", "zulu"]
  let zeroBased := index - 1
  let base := names.getD (zeroBased % names.length) ""
  let round := zeroBased / names.length
  if round = 0 then base else base ++ "-" ++ toString (round + 1)

namespace WorkerPool

/-- `WorkerPool::new`. -/
def create (maxSlots : Nat) : WorkerPool := { maxSlots }

def withBlockedConfig (maxSlots : Nat) (config : BlockedHandlingConfig) : WorkerPool :=
  { maxSlots, blockedHandler := { config } }

/-- `new_with_worktrees`, by the highest index of an agent found on disk. -/
def newWithWorktrees (maxSlots : Nat) (maxExistingIndex : Option Nat) : WorkerPool :=
  { maxSlots, nextAgentIndex := maxExistingIndex.elim 1 (· + 1) }

/-- The pool comes from one of the constructors. -/
inductive New : WorkerPool → Prop where
  | create (maxSlots) : New (create maxSlots)
  | withBlockedConfig (maxSlots config) : New (withBlockedConfig maxSlots config)
  | newWithWorktrees (maxSlots maxExistingIndex) : New (newWithWorktrees maxSlots maxExistingIndex)

def canSpawn (p : WorkerPool) : Bool := p.slots.length < p.maxSlots

def getSlotById (p : WorkerPool) (agentId : AgentId) : Option PoolSlot :=
  p.slots.find? fun slot => slot.agentId = agentId

def findSlotIndex (p : WorkerPool) (agentId : AgentId) : Nat :=
  p.slots.findIdx fun slot => slot.agentId = agentId

/-- Change the slot that `get_slot_mut_by_id` finds. -/
def modifySlot (p : WorkerPool) (agentId : AgentId) (change : PoolSlot → PoolSlot) : WorkerPool :=
  { p with slots := FirstMatch.modify (fun slot => slot.agentId = agentId) change p.slots }

def notFound (agentId : AgentId) : String := "Agent " ++ agentId ++ " not found in pool"

/-! ### Spawning -/

/-- A new worker at the end of the pool. The first one is focused. -/
def pushWorker (p : WorkerPool) (setUp : PoolSlot → PoolSlot) (now : Moment) : AgentId × WorkerPool :=
  let agentId := agentName p.nextAgentIndex
  let slot := setUp { AgentSlot.create agentId (generateCodename p.nextAgentIndex) now with }
  (agentId, { p with
    slots := p.slots ++ [slot]
    nextAgentIndex := p.nextAgentIndex + 1
    focusedSlot := if p.slots.length + 1 = 1 then 0 else p.focusedSlot })

def spawnWorker (p : WorkerPool) (now : Moment) : Except String AgentId × WorkerPool :=
  if p.canSpawn then
    let pushed := p.pushWorker id now
    (.ok pushed.1, pushed.2)
  else (.error "Agent pool is full", p)

/-- The profile an agent gets, by its id. -/
def getEffectiveProfile (p : WorkerPool) (profileId : String) : Except ProfileError CliBaseType :=
  match p.profileStore with
  | none => .error .noProfileStore
  | some store =>
      match store.lookup profileId with
      | none => .error (.profileNotFound profileId)
      | some baseCli => .ok baseCli

def spawnWorkerWithProfile (p : WorkerPool) (profileId : String) (now : Moment) :
    Except ProfileError AgentId × WorkerPool :=
  match p.getEffectiveProfile profileId with
  | .error e => (.error e, p)
  | .ok baseCli =>
      if !baseCli.hasProviderKind then (.error (.unsupportedCliType baseCli.label), p)
      else if p.canSpawn then
        let pushed := p.pushWorker (·.setProfileId profileId now) now
        (.ok pushed.1, pushed.2)
      else (.error (.persistenceError "Agent pool is full"), p)

def hasOverview (p : WorkerPool) : Bool := p.slots.any fun slot => slot.role = .productOwner

/-- `spawn_overview_agent`: the agent goes to the front and is focused. -/
def spawnOverviewAgent (p : WorkerPool) (now : Moment) : Except String AgentId × WorkerPool :=
  if p.hasOverview then (.error "OVERVIEW agent already exists", p)
  else if p.canSpawn then
    let slot : PoolSlot := { AgentSlot.withRole "OVERVIEW" "OVERVIEW" .productOwner now with }
    (.ok "OVERVIEW", { p with slots := slot :: p.slots, focusedSlot := 0 })
  else (.error "Agent pool is full", p)

/-! ### Restoring -/

/-- The next index after an agent came back to a pool that now has these agents: the last one
    counts, and all of them when the last one has no index. -/
def restoredIndex (agentIds : List AgentId) (next : Nat) : Nat :=
  match agentIds.getLast?.bind parseAgentIndex with
  | some restored => max next (restored + 1)
  | none =>
      match (agentIds.filterMap parseAgentIndex).max? with
      | some restored => max next (restored + 1)
      | none => next

def restoreSlot (p : WorkerPool) (slot : PoolSlot) : Except String Unit × WorkerPool :=
  if !p.canSpawn then (.error "Agent pool is full", p)
  else if p.slots.any fun existing => existing.agentId = slot.agentId then
    (.error ("Agent " ++ slot.agentId ++ " already exists in pool"), p)
  else if slot.role = .productOwner && p.hasOverview then
    (.error "OVERVIEW agent already exists", p)
  else
    let slots := if slot.role = .productOwner then slot :: p.slots else p.slots ++ [slot]
    (.ok (), { p with
      slots
      nextAgentIndex := restoredIndex (slots.map fun slot => slot.agentId) p.nextAgentIndex })

/-! ### Stopping and removing -/

def stopAgent [Unicode] (p : WorkerPool) (agentId : AgentId) (now : Moment) :
    Except String Nat × WorkerPool :=
  match p.getSlotById agentId with
  | none => (.error (notFound agentId), p)
  | some slot =>
      match (slot.transitionTo (.stopped "user requested") now).1 with
      | .error e => (.error ("Failed to stop agent: " ++ e), p)
      | .ok _ =>
          (.ok (p.findSlotIndex agentId),
            p.modifySlot agentId (·.tryTransition (.stopped "user requested") now))

/-- `adjust_on_remove`, after which the pool has `slotsLen` slots. -/
def adjustOnRemove (focusedSlot removedIndex slotsLen : Nat) : Nat :=
  let adjusted :=
    if removedIndex < focusedSlot then focusedSlot - 1
    else if focusedSlot = removedIndex ∧ 0 < slotsLen then slotsLen - 1
    else if slotsLen = 0 then 0
    else focusedSlot
  if slotsLen ≤ adjusted ∧ 0 < slotsLen then slotsLen - 1 else adjusted

/-- Why a slot cannot be removed. -/
def notStopped (slot : PoolSlot) (now : Moment) : String :=
  "Cannot remove agent with status " ++ slot.status.label now.utc ++ " (must be stopped)"

def removeAgent (p : WorkerPool) (agentId : AgentId) (now : Moment) : Except String Unit × WorkerPool :=
  match p.getSlotById agentId with
  | none => (.error (notFound agentId), p)
  | some slot =>
      if slot.status.isTerminal then
        let index := p.findSlotIndex agentId
        (.ok (), { p with
          slots := p.slots.eraseIdx index
          focusedSlot := adjustOnRemove p.focusedSlot index (p.slots.length - 1) })
      else (.error (notStopped slot now), p)

/-! ### Focus -/

def focusAgentByIndex (p : WorkerPool) (index : Nat) : Except String Unit × WorkerPool :=
  if index < p.slots.length then (.ok (), { p with focusedSlot := index })
  else (.error ("Invalid focus index " ++ toString index ++ " (only " ++ toString p.slots.length ++
    " agents)"), p)

def focusAgent (p : WorkerPool) (agentId : AgentId) : Except String Unit × WorkerPool :=
  match p.getSlotById agentId with
  | none => (.error ("Agent " ++ agentId ++ " not found"), p)
  | some _ => p.focusAgentByIndex (p.findSlotIndex agentId)

end WorkerPool

end AgileAgent.Core
