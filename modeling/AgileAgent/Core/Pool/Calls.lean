import AgileAgent.Machine
import AgileAgent.Core.Pool.Decisions

/-! # Runs of the pool

The operations of the pool as the steps of a machine, beside one backlog. Slots also move by
themselves, through their own operations.
-/

namespace AgileAgent.Core

open Backlog RuntimeDomain

/-- A pool and the backlog its operations are given. -/
structure PoolState where
  pool : WorkerPool
  backlog : BacklogState

inductive PoolCall where
  | setProfileStore (store : ProfileStore)
  | spawnWorker
  | spawnWorkerWithProfile (profileId : String)
  | spawnOverviewAgent
  | restoreSlot (slot : PoolSlot)
  | stopAgent (agentId : AgentId)
  | removeAgent (agentId : AgentId)
  | focusAgentByIndex (index : Nat)
  | focusAgent (agentId : AgentId)
  | slotOperation (agentId : AgentId) (operation : Operation)
  | assignTaskWithBacklog (agentId : AgentId) (taskId : TaskId)
  | completeTaskWithBacklog (agentId : AgentId) (result : TaskCompletionResult)
  | autoAssignTask
  | processAgentBlocked (agentId : AgentId) (blockedState : BlockedState) (description uuid : String)
      (withBacklog : Bool)
  | processHumanResponse (response : HumanDecisionResponse)
  | executeDecisionAction (agentId : AgentId) (actions : List DecisionAction)
  | clearAllBlocked
  | clearAgentContext (agentId : AgentId)
  | processExpiredRequests

/-- What a call returns. -/
inductive PoolReply where
  | nothing
  | result (result : Except String Unit)
  | agentId (result : Except String AgentId)
  | profiled (result : Except ProfileError AgentId)
  | index (result : Except String Nat)
  | taskId (result : Except String TaskId)
  | assigned (result : Option (AgentId × TaskId))
  | executed (result : Except String DecisionExecutionResult)
  | executedAll (results : List DecisionExecutionResult)
  | count (n : Nat)

namespace WorkerPool

/-- An operation of a slot itself (`slots_mut`). -/
def slotOperation [Unicode] (p : WorkerPool) (agentId : AgentId) (operation : Operation)
    (now : Moment) : Except String Unit × WorkerPool :=
  match p.getSlotById agentId with
  | none => (.error (notFound agentId), p)
  | some slot =>
      ((slot.toAgentSlot.step (operation, now)).1, p.modifySlot agentId fun slot =>
        { slot with toAgentSlot := (slot.toAgentSlot.step (operation, now)).2 })

end WorkerPool

namespace PoolState

/-- A call that leaves the backlog alone. -/
def onPool {ρ : Type} (s : PoolState) (reply : ρ → PoolReply) (outcome : ρ × WorkerPool) :
    PoolReply × PoolState :=
  (reply outcome.1, { s with pool := outcome.2 })

def onBoth {ρ : Type} (reply : ρ → PoolReply) (outcome : ρ × WorkerPool × BacklogState) :
    PoolReply × PoolState :=
  (reply outcome.1, ⟨outcome.2.1, outcome.2.2⟩)

def step [Unicode] (s : PoolState) (event : PoolCall × Moment) : PoolReply × PoolState :=
  let now := event.2
  match event.1 with
  | .setProfileStore store => (.nothing, { s with pool := { s.pool with profileStore := some store } })
  | .spawnWorker => s.onPool .agentId (s.pool.spawnWorker now)
  | .spawnWorkerWithProfile profileId =>
      s.onPool .profiled (s.pool.spawnWorkerWithProfile profileId now)
  | .spawnOverviewAgent => s.onPool .agentId (s.pool.spawnOverviewAgent now)
  | .restoreSlot slot => s.onPool .result (s.pool.restoreSlot slot)
  | .stopAgent agentId => s.onPool .index (s.pool.stopAgent agentId now)
  | .removeAgent agentId => s.onPool .result (s.pool.removeAgent agentId now)
  | .focusAgentByIndex index => s.onPool .result (s.pool.focusAgentByIndex index)
  | .focusAgent agentId => s.onPool .result (s.pool.focusAgent agentId)
  | .slotOperation agentId operation =>
      s.onPool .result (s.pool.slotOperation agentId operation now)
  | .assignTaskWithBacklog agentId taskId =>
      onBoth .result (s.pool.assignTaskWithBacklog agentId taskId s.backlog now)
  | .completeTaskWithBacklog agentId result =>
      onBoth .taskId (s.pool.completeTaskWithBacklog agentId result s.backlog)
  | .autoAssignTask => onBoth .assigned (s.pool.autoAssignTask s.backlog now)
  | .processAgentBlocked agentId blockedState description uuid withBacklog =>
      let backlog := if withBacklog then some s.backlog else none
      let outcome := s.pool.processAgentBlocked agentId blockedState description uuid backlog now
      (.result outcome.1, ⟨outcome.2.1, outcome.2.2.getD s.backlog⟩)
  | .processHumanResponse response =>
      s.onPool .executed (s.pool.processHumanResponse response now)
  | .executeDecisionAction agentId actions =>
      s.onPool .executedAll (s.pool.executeDecisionAction agentId actions now)
  | .clearAllBlocked => (.nothing, { s with pool := s.pool.clearAllBlocked now })
  | .clearAgentContext agentId => s.onPool .result (s.pool.clearAgentContext agentId now)
  | .processExpiredRequests => s.onPool .count (s.pool.processExpiredRequests now)

end PoolState

namespace Plain

/-- Lower case of texts in ASCII. -/
scoped instance lowerCase : Unicode := ⟨String.toLower⟩

/-- A slot as `AgentSlot::restored` builds it. -/
def restoredSlot (agentId : AgentId) (role : AgentRole) (status : AgentSlotStatus) : PoolSlot :=
  { AgentSlot.restored agentId agentId role status ⟨0, 0⟩ with }

end Plain

end AgileAgent.Core
