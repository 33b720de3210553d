import AgileAgent.Core.Pool.WorkerPool

/-! # Shutdown snapshots

What is saved of the agents when the daemon stops, and the pool that is built from it when it
starts again. A status is saved as one of three, next to two flags that nothing reads.
-/

namespace AgileAgent.Daemon

open AgileAgent.Core RuntimeDomain

universe u

inductive ProviderType where
  | mock
  | claude
  | codex
  | opencode
  deriving Repr, DecidableEq

inductive WorkerStatus where
  | idle
  | running
  | stopped
  deriving Repr, DecidableEq

/-- An agent slot with everything that a snapshot keeps. The entries of transcripts are only handed
    on. -/
structure SessionSlot (Entry : Type u) extends AgentSlot where
  providerType : ProviderType
  sessionHandle : Option SessionHandle := none
  transcript : List Entry := []
  assignedTaskId : Option TaskId := none
  worktreePath : Option String := none
  worktreeBranch : Option String := none
  worktreeId : Option String := none

/-- The agent's own metadata, less its times. -/
structure AgentMeta where
  agentId : AgentId
  codename : AgentCodename
  providerType : ProviderType
  providerSessionId : Option String
  status : WorkerStatus
  role : AgentRole
  deriving Repr, DecidableEq

structure AgentShutdownSnapshot (Entry : Type u) where
  agentMeta : AgentMeta
  assignedTaskId : Option String
  wasActive : Bool
  hadError : Bool
  transcript : List Entry
  worktreePath : Option String
  worktreeBranch : Option String
  worktreeId : Option String

/-- The files of the workplace: the snapshot, and the transcript of each agent. -/
structure Workplace (Entry : Type u) where
  snapshot : Option (List (AgentShutdownSnapshot Entry)) := none
  transcripts : AgentId → Option (List Entry) := fun _ => none

/-- The pool, as far as restoring goes. -/
structure SessionPool (Entry : Type u) where
  slots : List (SessionSlot Entry) := []
  maxSlots : Nat
  nextAgentIndex : Nat := 1

variable {Entry : Type u}

/-! ## Saving -/

def sessionId : SessionHandle → String
  | .claudeSession sessionId => sessionId
  | .codexThread threadId => threadId

def workerStatus (status : AgentSlotStatus) : WorkerStatus :=
  if status.isTerminal then .stopped else if status.isActive then .running else .idle

def SessionSlot.snapshot (slot : SessionSlot Entry) : AgentShutdownSnapshot Entry where
  agentMeta :=
    { agentId := slot.agentId
      codename := slot.codename
      providerType := slot.providerType
      providerSessionId := slot.sessionHandle.map sessionId
      status := workerStatus slot.status
      role := slot.role }
  assignedTaskId := slot.assignedTaskId
  wasActive := slot.status.isActive
  hadError := slot.status.isBlocked
  transcript := slot.transcript
  worktreePath := slot.worktreePath
  worktreeBranch := slot.worktreeBranch
  worktreeId := slot.worktreeId

/-- Write the transcripts of the agents into their files, one after another. -/
def saveTranscripts (transcripts : AgentId → Option (List Entry)) :
    List (SessionSlot Entry) → AgentId → Option (List Entry)
  | [] => transcripts
  | slot :: rest =>
      saveTranscripts (Function.update transcripts slot.agentId (some slot.transcript)) rest

/-- The transcripts are also written one by one, in case the snapshot gets lost. -/
def saveShutdownSnapshot (workplace : Workplace Entry) (pool : SessionPool Entry) : Workplace Entry where
  snapshot := some (pool.slots.map SessionSlot.snapshot)
  transcripts := saveTranscripts workplace.transcripts pool.slots

/-! ## Restoring -/

namespace SessionPool

def canSpawn (p : SessionPool Entry) : Bool := p.slots.length < p.maxSlots

def hasOverview (p : SessionPool Entry) : Bool := p.slots.any fun slot => slot.role = .productOwner

def restoreSlot (p : SessionPool Entry) (slot : SessionSlot Entry) : Except String Unit × SessionPool Entry :=
  if !p.canSpawn then (.error "Agent pool is full", p)
  else if p.slots.any fun existing => existing.agentId = slot.agentId then
    (.error ("Agent " ++ slot.agentId ++ " already exists in pool"), p)
  else if slot.role = .productOwner && p.hasOverview then
    (.error "OVERVIEW agent already exists", p)
  else
    let slots := if slot.role = .productOwner then slot :: p.slots else p.slots ++ [slot]
    (.ok (), { p with
      slots
      nextAgentIndex := WorkerPool.restoredIndex (slots.map fun slot => slot.agentId) p.nextAgentIndex })

end SessionPool

/-- The session id of a provider without sessions of its own is taken for one of Claude. -/
def sessionHandle (providerType : ProviderType) (sessionId : String) : SessionHandle :=
  match providerType with
  | .claude => .claudeSession sessionId
  | .codex => .codexThread sessionId
  | _ => .claudeSession sessionId

/-- A slot with what was saved of it. An empty transcript is looked up in the agent's own file. -/
def restoredSlot (workplace : Workplace Entry) (now : Moment) (saved : AgentShutdownSnapshot Entry) :
    SessionSlot Entry :=
  let status := match saved.agentMeta.status with
    | .stopped => .stopped "restored from snapshot"
    | _ => .idle
  let transcript :=
    if saved.transcript.isEmpty then (workplace.transcripts saved.agentMeta.agentId).getD []
    else saved.transcript
  { AgentSlot.restoredWithWorktree saved.agentMeta.agentId saved.agentMeta.codename saved.agentMeta.role
      status now with
    providerType := saved.agentMeta.providerType
    sessionHandle := saved.agentMeta.providerSessionId.map (sessionHandle saved.agentMeta.providerType)
    transcript
    assignedTaskId := saved.assignedTaskId
    worktreePath := saved.worktreePath
    worktreeBranch := saved.worktreeBranch
    worktreeId := saved.worktreeId }

/-- The pool of a new session. A slot that cannot be restored is only logged. -/
def restoreFromShutdownSnapshot (workplace : Workplace Entry) (maxAgents : Nat) (now : Moment) :
    SessionPool Entry :=
  match workplace.snapshot with
  | none => { maxSlots := 4 }
  | some agents =>
      agents.foldl (fun pool saved => (pool.restoreSlot (restoredSlot workplace now saved)).2)
        { maxSlots := maxAgents }

end AgileAgent.Daemon
