import AgileAgent.Core.Pool.Calls

/-! # The agents of the pool

The roster of a pool is the list of its agents. Apart from the calls that spawn, restore,
remove or focus agents, a call changes slots in their place and keeps the roster.
-/

namespace AgileAgent.Core

open Backlog RuntimeDomain

/-- The agent of a slot. -/
def PoolSlot.agent (s : PoolSlot) : AgentId × AgentRole := (s.agentId, s.role)

/-- The agent of the slot and the one of its worker. -/
def PoolSlot.identity (s : PoolSlot) : AgentId × AgentId := (s.agentId, s.worker.agentId)

/-- The change leaves a slot its agent and its role, and the worker its own agent. -/
def PoolSlot.KeepsAgent (change : PoolSlot → PoolSlot) : Prop :=
  ∀ slot, (change slot).agent = slot.agent ∧ (change slot).identity = slot.identity

theorem PoolSlot.tryAssign_agent (s : PoolSlot) (taskId : TaskId) (now : Moment) :
    (s.tryAssign taskId now).agent = s.agent := by
  unfold tryAssign assignTask
  split <;> rfl

/-- What a pool is as far as its agents go: who they are, in which order, how they are numbered
    and which one is focused. -/
structure Roster where
  agents : List (AgentId × AgentRole)
  maxSlots : Nat
  nextAgentIndex : Nat
  focusedSlot : Nat

def WorkerPool.roster (p : WorkerPool) : Roster where
  agents := p.slots.map PoolSlot.agent
  maxSlots := p.maxSlots
  nextAgentIndex := p.nextAgentIndex
  focusedSlot := p.focusedSlot

def WorkerPool.SameAgents (before after : WorkerPool) : Prop := after.roster = before.roster

namespace WorkerPool

variable {p : WorkerPool} {agentId : AgentId} {now : Moment} {change : PoolSlot → PoolSlot}

theorem SameAgents.refl (p : WorkerPool) : p.SameAgents p := rfl

theorem SameAgents.trans {first second third : WorkerPool} (left : first.SameAgents second)
    (right : second.SameAgents third) : first.SameAgents third :=
  Eq.trans right left

theorem sameAgents_modifySlot (same : ∀ slot, (change slot).agent = slot.agent) :
    p.SameAgents (p.modifySlot agentId change) := by
  unfold SameAgents roster modifySlot
  rw [FirstMatch.map_modify same]

theorem sameAgents_queue (p : WorkerPool) (humanQueue : HumanDecisionQueue)
    (blockedHandler : BlockedHandler) : p.SameAgents { p with humanQueue, blockedHandler } :=
  rfl

theorem sameAgents_clearTask : p.SameAgents (p.modifySlot agentId PoolSlot.clearTask) :=
  sameAgents_modifySlot fun _ => rfl

theorem sameAgents_tryAssign (taskId : TaskId) :
    p.SameAgents (p.modifySlot agentId (·.tryAssign taskId now)) :=
  sameAgents_modifySlot fun slot => slot.tryAssign_agent taskId now

theorem assignTaskWithBacklog_sameAgents (p : WorkerPool) (agentId : AgentId) (taskId : TaskId)
    (b : BacklogState) (now : Moment) :
    p.SameAgents (p.assignTaskWithBacklog agentId taskId b now).2.1 := by
  unfold assignTaskWithBacklog
  split
  · split
    · exact .refl p
    · split
      · exact .refl p
      · exact sameAgents_tryAssign taskId
  · exact .refl p

theorem completeTaskWithBacklog_sameAgents (p : WorkerPool) (agentId : AgentId)
    (result : TaskCompletionResult) (b : BacklogState) :
    p.SameAgents (p.completeTaskWithBacklog agentId result b).2.1 := by
  unfold completeTaskWithBacklog
  split
  · exact .refl p
  · split
    · exact .refl p
    · exact sameAgents_clearTask

theorem autoAssignTask_sameAgents (p : WorkerPool) (b : BacklogState) (now : Moment) :
    p.SameAgents (p.autoAssignTask b now).2.1 := by
  unfold autoAssignTask
  split
  · exact assignTaskWithBacklog_sameAgents ..
  · exact .refl p

theorem handleBlockedTask_sameAgents (p : WorkerPool) (agentId : AgentId) (b : BacklogState)
    (now : Moment) : p.SameAgents (p.handleBlockedTask agentId b now).1 := by
  unfold handleBlockedTask reassignTask
  split
  · exact .refl p
  · split
    · exact .refl p
    · dsimp only
      split
      · exact .refl p
      · split
        · split
          · exact .refl p
          · split
            · exact .refl p
            · exact (sameAgents_tryAssign _).trans sameAgents_clearTask
        · exact .refl p
    · exact .refl p

end WorkerPool

namespace AgentSlot

theorem step_agent [Unicode] (s : AgentSlot) (call : Operation × Moment) :
    (s.step call).2.agentId = s.agentId ∧ (s.step call).2.role = s.role := by
  obtain ⟨operation, now⟩ := call
  cases operation with
  | transitionTo =>
      simp only [step, transitionTo]
      split <;> exact ⟨rfl, rfl⟩
  | enterResting | recoverFromResting | restingToError =>
      simp only [step, enterResting, recoverFromResting, restingToError, writeStatus]
      split <;> exact ⟨rfl, rfl⟩
  | _ => exact ⟨rfl, rfl⟩

end AgentSlot

namespace PoolSlot

variable [Unicode]

theorem transitionTo_eq (s : PoolSlot) (newStatus : AgentSlotStatus) (now : Moment) :
    s.transitionTo newStatus now =
      if s.status.canTransitionTo newStatus then (.ok (), s.tryTransition newStatus now)
      else (.error ("Invalid transition from " ++ s.status.label now.utc ++ " to " ++
        newStatus.label now.utc), s) := by
  unfold tryTransition transitionTo AgentSlot.transitionTo
  split <;> rfl

@[simp] theorem tryTransition_agent (s : PoolSlot) (newStatus : AgentSlotStatus) (now : Moment) :
    (s.tryTransition newStatus now).agent = s.agent := by
  unfold tryTransition transitionTo AgentSlot.transitionTo
  split <;> rfl

@[simp] theorem tryTransition_identity (s : PoolSlot) (newStatus : AgentSlotStatus) (now : Moment) :
    (s.tryTransition newStatus now).identity = s.identity := by
  unfold tryTransition transitionTo AgentSlot.transitionTo identity
  split
  · simp [Worker.transitionState_agentId]
  · rfl

theorem keepsAgent_tryTransition (newStatus : AgentSlotStatus) (now : Moment) :
    KeepsAgent (·.tryTransition newStatus now) := fun slot =>
  ⟨slot.tryTransition_agent newStatus now, slot.tryTransition_identity newStatus now⟩

@[simp] theorem tryTransition_assignedTaskId (s : PoolSlot) (newStatus : AgentSlotStatus) (now : Moment) :
    (s.tryTransition newStatus now).assignedTaskId = s.assignedTaskId := rfl

theorem tryTransition_status (s : PoolSlot) (newStatus : AgentSlotStatus) (now : Moment) :
    (s.tryTransition newStatus now).status =
      if s.status.canTransitionTo newStatus then newStatus else s.status := by
  unfold tryTransition transitionTo AgentSlot.transitionTo
  split <;> rfl

end PoolSlot

namespace WorkerPool

variable [Unicode] {p : WorkerPool} {agentId : AgentId} {now : Moment}

theorem sameAgents_tryTransition (newStatus : AgentSlotStatus) :
    p.SameAgents (p.modifySlot agentId (·.tryTransition newStatus now)) :=
  sameAgents_modifySlot fun slot => slot.tryTransition_agent newStatus now

theorem stopAgent_sameAgents (p : WorkerPool) (agentId : AgentId) (now : Moment) :
    p.SameAgents (p.stopAgent agentId now).2 := by
  unfold stopAgent
  split
  · exact .refl p
  · split
    · exact .refl p
    · exact sameAgents_tryTransition _

theorem slotOperation_sameAgents (p : WorkerPool) (agentId : AgentId) (operation : Operation)
    (now : Moment) : p.SameAgents (p.slotOperation agentId operation now).2 := by
  unfold slotOperation
  split
  · exact .refl p
  · exact sameAgents_modifySlot fun slot => by
      simp [PoolSlot.agent, AgentSlot.step_agent]

theorem processAgentBlocked_sameAgents (p : WorkerPool) (agentId : AgentId)
    (blockedState : BlockedState) (description uuid : String) (b : Option BacklogState) (now : Moment) :
    p.SameAgents (p.processAgentBlocked agentId blockedState description uuid b now).2.1 := by
  unfold processAgentBlocked
  split
  · exact .refl p
  · dsimp only
    split
    · exact .refl p
    · have registered : p.SameAgents ((p.modifySlot agentId (·.tryTransition
          (if isRateLimit blockedState description then .resting now.utc blockedState false
            else .blockedForDecision blockedState) now)).registerBlocked agentId blockedState
          description uuid now) :=
        (sameAgents_tryTransition _).trans (sameAgents_queue _ _ _)
      split
      · exact registered
      · exact registered.trans (handleBlockedTask_sameAgents ..)

theorem executeDecision_sameAgents (p : WorkerPool) (agentId : AgentId) (selection : HumanSelection)
    (now : Moment) : p.SameAgents (p.executeDecision agentId selection now).2 := by
  unfold executeDecision
  split
  · exact .refl p
  · cases selection with
    | skipped => exact sameAgents_clearTask
    | cancelled =>
        dsimp only
        split
        · exact .refl p
        · exact sameAgents_tryTransition _
    | _ => exact .refl p

theorem unblockAgent_sameAgents (p : WorkerPool) (agentId : AgentId) (selection : HumanSelection)
    (now : Moment) : p.SameAgents (p.unblockAgent agentId selection now).2 := by
  unfold unblockAgent
  split
  · exact .refl p
  · split
    · split
      · exact .refl p
      · exact (sameAgents_tryTransition _).trans (executeDecision_sameAgents ..)
    · exact .refl p

theorem processHumanResponse_sameAgents (p : WorkerPool) (response : HumanDecisionResponse)
    (now : Moment) : p.SameAgents (p.processHumanResponse response now).2 := by
  unfold processHumanResponse
  split
  · exact sameAgents_queue p _ _
  · exact (sameAgents_queue p _ _).trans (unblockAgent_sameAgents ..)

theorem clearSlots_agents (now : Moment) (handler : BlockedHandler) (slots : List PoolSlot) :
    (clearSlots now handler slots).2.map PoolSlot.agent = slots.map PoolSlot.agent := by
  induction slots generalizing handler with
  | nil => rfl
  | cons slot rest ih =>
      rw [clearSlots]
      split <;> simp [ih]

theorem clearAllBlocked_sameAgents (p : WorkerPool) (now : Moment) :
    p.SameAgents (p.clearAllBlocked now) := by
  unfold SameAgents roster clearAllBlocked
  rw [clearSlots_agents]

theorem clearAgentContext_sameAgents (p : WorkerPool) (agentId : AgentId) (now : Moment) :
    p.SameAgents (p.clearAgentContext agentId now).2 := by
  have cleared : p.SameAgents (p.modifySlot agentId
      (·.clearTranscript.clearSessionHandle.clearTask)) := sameAgents_modifySlot fun _ => rfl
  unfold clearAgentContext
  split
  · exact .refl p
  · dsimp only
    split
    · exact cleared
    · exact cleared.trans (sameAgents_tryTransition _)

theorem timeOut_agent (selection : HumanSelection) (now : Moment) (slot : PoolSlot) :
    (timeOut selection now slot).agent = slot.agent := by
  cases selection with
  | skipped => exact PoolSlot.tryTransition_agent ..
  | _ => exact PoolSlot.tryTransition_agent ..

theorem expireRequest_sameAgents (now : Moment) (p : WorkerPool) (request : HumanDecisionRequest) :
    p.SameAgents (expireRequest now p request) := by
  refine (sameAgents_queue p p.humanQueue (p.blockedHandler.recordResolution request.agentId
    (.timeout (p.timeoutActionForRequest request)))).trans ?_
  unfold expireRequest executeTimeoutAction
  dsimp only
  split
  · exact .refl _
  · split
    · exact sameAgents_modifySlot (timeOut_agent _ _)
    · exact .refl _

theorem processExpiredRequests_sameAgents (p : WorkerPool) (now : Moment) :
    p.SameAgents (p.processExpiredRequests now).2 := by
  have expiring (requests : List HumanDecisionRequest) (start : WorkerPool) :
      start.SameAgents (requests.foldl (expireRequest now) start) := by
    induction requests generalizing start with
    | nil => exact .refl start
    | cons request rest ih => exact (expireRequest_sameAgents now start request).trans (ih _)
  exact (sameAgents_queue p _ p.blockedHandler).trans (expiring _ _)

theorem goIdle_keepsAgent (now : Moment) : PoolSlot.KeepsAgent (goIdle now) := by
  intro slot
  unfold goIdle
  split
  · exact PoolSlot.keepsAgent_tryTransition .idle now slot
  · exact ⟨rfl, rfl⟩

theorem goIdle_agent (now : Moment) (slot : PoolSlot) : (goIdle now slot).agent = slot.agent :=
  (goIdle_keepsAgent now slot).1

/-- An action of a decision changes the slot of its agent at most, and the queue of requests. -/
theorem executeAction_modifies (p : WorkerPool) (workAgentId : AgentId) (action : DecisionAction)
    (now : Moment) : ∃ change humanQueue, PoolSlot.KeepsAgent change ∧
      (p.executeAction workAgentId action now).2 = { p.modifySlot workAgentId change with humanQueue } := by
  have nothing : ∃ change humanQueue, PoolSlot.KeepsAgent change ∧
      p = { p.modifySlot workAgentId change with humanQueue } :=
    ⟨id, p.humanQueue, fun _ => ⟨rfl, rfl⟩, by simp [modifySlot]⟩
  have answered (response : HumanDecisionResponse) :
      ∃ change humanQueue, PoolSlot.KeepsAgent change ∧
        p.processHumanResponseInternal response workAgentId now =
          { p.modifySlot workAgentId change with humanQueue } :=
    ⟨_, _, PoolSlot.keepsAgent_tryTransition .idle now, rfl⟩
  have modified {change : PoolSlot → PoolSlot} (keeps : PoolSlot.KeepsAgent change) :
      ∃ change' humanQueue, PoolSlot.KeepsAgent change' ∧
        p.modifySlot workAgentId change = { p.modifySlot workAgentId change' with humanQueue } :=
    ⟨change, p.humanQueue, keeps, rfl⟩
  unfold executeAction
  split
  · unfold executeSelectOption
    split
    · exact answered _
    · exact nothing
  · unfold executeSkip
    split
    · exact answered _
    · exact nothing
  · exact nothing
  · refine modified fun slot => ?_
    split <;> exact ⟨rfl, rfl⟩
  · exact modified (goIdle_keepsAgent now)
  · exact modified fun slot => goIdle_keepsAgent now _
  · exact modified fun slot => goIdle_keepsAgent now slot
  · refine modified fun slot => ?_
    dsimp only
    split
    · exact ⟨rfl, rfl⟩
    · exact goIdle_keepsAgent now _
  · unfold executeContinueAllTasks
    split
    · exact nothing
    · dsimp only
      split
      · exact nothing
      · exact modified fun _ => ⟨rfl, rfl⟩
  · exact modified (PoolSlot.keepsAgent_tryTransition _ now)
  · unfold executePrepareTaskStart
    split
    · exact nothing
    · exact modified fun _ => ⟨rfl, rfl⟩
    · exact modified fun _ => ⟨rfl, rfl⟩
  · exact nothing

theorem executeAction_sameAgents (p : WorkerPool) (workAgentId : AgentId) (action : DecisionAction)
    (now : Moment) : p.SameAgents (p.executeAction workAgentId action now).2 := by
  obtain ⟨change, humanQueue, keeps, result⟩ := p.executeAction_modifies workAgentId action now
  rw [result]
  exact (sameAgents_modifySlot fun slot => (keeps slot).1).trans (sameAgents_queue _ humanQueue _)

theorem executeActions_sameAgents (workAgentId : AgentId) (now : Moment) (p : WorkerPool)
    (actions : List DecisionAction) :
    p.SameAgents (executeActions workAgentId now p actions).2 := by
  induction actions generalizing p with
  | nil => exact .refl p
  | cons action rest ih => exact (executeAction_sameAgents ..).trans (ih _)

theorem executeDecisionAction_sameAgents (p : WorkerPool) (workAgentId : AgentId)
    (actions : List DecisionAction) (now : Moment) :
    p.SameAgents (p.executeDecisionAction workAgentId actions now).2 := by
  unfold executeDecisionAction
  split
  · exact .refl p
  · split
    · exact .refl p
    · split
      · exact .refl p
      · exact executeActions_sameAgents ..

end WorkerPool

/-- The calls that change which agents there are, or which one is focused. -/
def PoolCall.changesAgents : PoolCall → Bool
  | .spawnWorker | .spawnWorkerWithProfile _ | .spawnOverviewAgent | .restoreSlot _ | .removeAgent _
  | .focusAgentByIndex _ | .focusAgent _ => true
  | _ => false

theorem PoolState.step_sameAgents [Unicode] (s : PoolState) {call : PoolCall} (now : Moment)
    (kept : call.changesAgents = false) : s.pool.SameAgents (s.step (call, now)).2.pool := by
  cases call with
  | spawnWorker | spawnWorkerWithProfile | spawnOverviewAgent | restoreSlot | removeAgent
  | focusAgentByIndex | focusAgent => cases kept
  | setProfileStore => rfl
  | stopAgent => exact WorkerPool.stopAgent_sameAgents ..
  | slotOperation => exact WorkerPool.slotOperation_sameAgents ..
  | assignTaskWithBacklog => exact WorkerPool.assignTaskWithBacklog_sameAgents ..
  | completeTaskWithBacklog => exact WorkerPool.completeTaskWithBacklog_sameAgents ..
  | autoAssignTask => exact WorkerPool.autoAssignTask_sameAgents ..
  | processAgentBlocked => exact WorkerPool.processAgentBlocked_sameAgents ..
  | processHumanResponse => exact WorkerPool.processHumanResponse_sameAgents ..
  | executeDecisionAction => exact WorkerPool.executeDecisionAction_sameAgents ..
  | clearAllBlocked => exact WorkerPool.clearAllBlocked_sameAgents ..
  | clearAgentContext => exact WorkerPool.clearAgentContext_sameAgents ..
  | processExpiredRequests => exact WorkerPool.processExpiredRequests_sameAgents ..

/-! ## Moves of the roster -/

namespace Roster

def ids (r : Roster) : List AgentId := r.agents.map Prod.fst

def HasRoom (r : Roster) : Prop := r.agents.length < r.maxSlots

def HasOverview (r : Roster) : Prop := ∃ agent ∈ r.agents, agent.2 = .productOwner

def spawn (r : Roster) : Roster :=
  { r with
    agents := r.agents ++ [(agentName r.nextAgentIndex, .developer)]
    nextAgentIndex := r.nextAgentIndex + 1
    focusedSlot := if r.agents.length + 1 = 1 then 0 else r.focusedSlot }

def spawnOverview (r : Roster) : Roster :=
  { r with agents := ("OVERVIEW", .productOwner) :: r.agents, focusedSlot := 0 }

def insert (r : Roster) (agent : AgentId × AgentRole) : List (AgentId × AgentRole) :=
  if agent.2 = .productOwner then agent :: r.agents else r.agents ++ [agent]

theorem insert_perm (r : Roster) (agent : AgentId × AgentRole) :
    (r.insert agent).Perm (agent :: r.agents) := by
  unfold insert
  split
  · exact .refl _
  · exact List.perm_append_singleton agent r.agents

def restore (r : Roster) (agent : AgentId × AgentRole) : Roster :=
  { r with
    agents := r.insert agent
    nextAgentIndex := WorkerPool.restoredIndex ((r.insert agent).map Prod.fst) r.nextAgentIndex }

/-- What `restore_slot` asks of an agent. -/
structure Restorable (r : Roster) (agent : AgentId × AgentRole) : Prop where
  room : r.HasRoom
  absent : agent.1 ∉ r.ids
  single : agent.2 = .productOwner → ¬ r.HasOverview

def remove (r : Roster) (index : Nat) : Roster :=
  { r with
    agents := r.agents.eraseIdx index
    focusedSlot := WorkerPool.adjustOnRemove r.focusedSlot index (r.agents.length - 1) }

/-- What a call can do to the roster. -/
inductive Step (r : Roster) : PoolCall → Roster → Prop where
  | same {call} (refused : ∀ slot, call = .restoreSlot slot → ¬ r.Restorable slot.agent) : Step r call r
  | spawned {call} (spawns : call = .spawnWorker ∨ ∃ profileId, call = .spawnWorkerWithProfile profileId)
      (room : r.HasRoom) : Step r call r.spawn
  | overview (room : r.HasRoom) (single : ¬ r.HasOverview) : Step r .spawnOverviewAgent r.spawnOverview
  | restored {slot : PoolSlot} (restorable : r.Restorable slot.agent) :
      Step r (.restoreSlot slot) (r.restore slot.agent)
  | removed {agentId : AgentId} {index : Nat} {agent : AgentId × AgentRole}
      (here : r.agents[index]? = some agent) (isAgent : agent.1 = agentId) :
      Step r (.removeAgent agentId) (r.remove index)
  | focused {call} (focuses : (∃ index, call = .focusAgentByIndex index) ∨ ∃ agentId, call = .focusAgent agentId)
      {index : Nat} (inRange : index < r.agents.length) : Step r call { r with focusedSlot := index }

theorem Step.restore_inv {r r' : Roster} {slot : PoolSlot} (step : r.Step (.restoreSlot slot) r') :
    (r.Restorable slot.agent ∧ r' = r.restore slot.agent) ∨ (¬ r.Restorable slot.agent ∧ r' = r) := by
  cases step with
  | same refused => exact .inr ⟨refused slot rfl, rfl⟩
  | restored restorable => exact .inl ⟨restorable, rfl⟩
  | spawned spawns => simp at spawns
  | focused focuses => simp at focuses

end Roster

namespace WorkerPool

@[simp] theorem roster_ids (p : WorkerPool) : p.roster.ids = p.slots.map fun slot => slot.agentId := by
  simp [Roster.ids, roster, PoolSlot.agent]

theorem hasRoom_iff (p : WorkerPool) : p.roster.HasRoom ↔ p.canSpawn := by
  simp [Roster.HasRoom, roster, canSpawn]

theorem hasOverview_iff (p : WorkerPool) : p.roster.HasOverview ↔ p.hasOverview := by
  simp [Roster.HasOverview, roster, hasOverview, PoolSlot.agent]

theorem roster_pushWorker (p : WorkerPool) (setUp : PoolSlot → PoolSlot) (now : Moment)
    (same : ∀ slot, (setUp slot).agent = slot.agent) :
    (p.pushWorker setUp now).2.roster = p.roster.spawn := by
  simp only [pushWorker, roster, Roster.spawn, List.map_append, List.map_cons, List.map_nil, same,
    List.length_map]
  rfl

theorem remove_roster (p : WorkerPool) (index : Nat) : p.roster.remove index =
    { p with
      slots := p.slots.eraseIdx index
      focusedSlot := adjustOnRemove p.focusedSlot index (p.slots.length - 1) }.roster := by
  simp [Roster.remove, roster, List.eraseIdx_map]

theorem restoreSlot_step (p : WorkerPool) (slot : PoolSlot) :
    p.roster.Step (.restoreSlot slot) (p.restoreSlot slot).2.roster := by
  have refused (reason : ¬ p.roster.Restorable slot.agent) :
      p.roster.Step (.restoreSlot slot) p.roster :=
    .same fun other isSame => by
      cases isSame
      exact reason
  unfold restoreSlot
  split
  · next full => exact refused fun restorable => by simp [(hasRoom_iff p).mp restorable.room] at full
  · next room =>
      split
      · next present =>
          refine refused fun restorable => restorable.absent ?_
          simpa [PoolSlot.agent] using present
      · next absent =>
          split
          · next double =>
              rw [Bool.and_eq_true, decide_eq_true_eq, ← hasOverview_iff] at double
              exact refused fun restorable => restorable.single double.1 double.2
          · next single =>
              have restorable : p.roster.Restorable slot.agent := by
                refine ⟨(hasRoom_iff p).mpr (by simpa using room), by simpa [PoolSlot.agent] using absent, ?_⟩
                intro isOwner
                rw [hasOverview_iff]
                intro hasOverview
                exact single (by simpa [hasOverview, PoolSlot.agent] using isOwner)
              have inserted : p.roster.insert slot.agent =
                  (if slot.role = .productOwner then slot :: p.slots else p.slots ++ [slot]).map
                    PoolSlot.agent := by
                unfold Roster.insert
                by_cases isOwner : slot.role = .productOwner <;>
                  simp [PoolSlot.agent, roster, isOwner]
              have restored := Roster.Step.restored restorable
              simp only [Roster.restore, inserted, List.map_map] at restored
              exact restored

theorem getSlotById_index {p : WorkerPool} {agentId : AgentId} {slot : PoolSlot}
    (found : p.getSlotById agentId = some slot) :
    p.slots[p.findSlotIndex agentId]? = some slot ∧ slot.agentId = agentId := by
  constructor
  · rw [getSlotById, List.find?_eq_getElem?_findIdx] at found
    exact found
  · simpa using List.find?_some found

end WorkerPool

open WorkerPool

theorem PoolState.step_roster [Unicode] (s : PoolState) (call : PoolCall) (now : Moment) :
    s.pool.roster.Step call (s.step (call, now)).2.pool.roster := by
  have unchanged {call : PoolCall} (others : ∀ slot, call ≠ .restoreSlot slot) :
      s.pool.roster.Step call s.pool.roster :=
    .same fun slot isRestore => absurd isRestore (others slot)
  by_cases kept : call.changesAgents = false
  · rw [s.step_sameAgents now kept]
    exact unchanged fun slot isRestore => by simp [isRestore, PoolCall.changesAgents] at kept
  · cases call with
    | spawnWorker =>
        simp only [step, onPool, spawnWorker]
        split
        · next room =>
            dsimp only
            rw [roster_pushWorker s.pool id now fun _ => rfl]
            exact .spawned (.inl rfl) ((hasRoom_iff _).mpr room)
        · exact unchanged (by simp)
    | spawnWorkerWithProfile profileId =>
        simp only [step, onPool, spawnWorkerWithProfile]
        split
        · exact unchanged (by simp)
        · split
          · exact unchanged (by simp)
          · split
            · next room =>
                dsimp only
                rw [roster_pushWorker s.pool (·.setProfileId profileId now) now fun _ => rfl]
                exact .spawned (.inr ⟨profileId, rfl⟩) ((hasRoom_iff _).mpr room)
            · exact unchanged (by simp)
    | spawnOverviewAgent =>
        simp only [step, onPool, spawnOverviewAgent]
        split
        · exact unchanged (by simp)
        · next single =>
            split
            · next room => exact .overview ((hasRoom_iff _).mpr room) (by rwa [hasOverview_iff])
            · exact unchanged (by simp)
    | restoreSlot slot => exact restoreSlot_step s.pool slot
    | removeAgent agentId =>
        simp only [step, onPool, removeAgent]
        split
        · exact unchanged (by simp)
        · next slot found =>
            split
            · obtain ⟨here, isAgent⟩ := getSlotById_index found
              have listed : s.pool.roster.agents[s.pool.findSlotIndex agentId]? = some slot.agent := by
                simp [roster, here]
              have removed : s.pool.roster.Step (.removeAgent agentId) _ := .removed listed isAgent
              rwa [remove_roster] at removed
            · exact unchanged (by simp)
    | focusAgentByIndex index =>
        simp only [step, onPool, focusAgentByIndex]
        split
        · next inRange => exact .focused (.inl ⟨index, rfl⟩) (by simpa [roster] using inRange)
        · exact unchanged (by simp)
    | focusAgent agentId =>
        simp only [step, onPool, focusAgent]
        split
        · exact unchanged (by simp)
        · simp only [focusAgentByIndex]
          split
          · next inRange => exact .focused (.inr ⟨agentId, rfl⟩) (by simpa [roster] using inRange)
          · exact unchanged (by simp)
    | _ => exact absurd rfl kept

/-- The call makes a new agent. -/
def PoolCall.spawns : PoolCall → Bool
  | .spawnWorker | .spawnWorkerWithProfile _ | .spawnOverviewAgent => true
  | _ => false

theorem PoolState.step_distinct [Unicode] {s : PoolState} {call : PoolCall} (old : call.spawns = false)
    (now : Moment) (distinct : s.pool.roster.ids.Nodup) :
    (s.step (call, now)).2.pool.roster.ids.Nodup := by
  have step := s.step_roster call now
  generalize (s.step (call, now)).2.pool.roster = after at step
  cases step with
  | same | focused => exact distinct
  | spawned spawns => rcases spawns with rfl | ⟨_, rfl⟩ <;> cases old
  | overview => cases old
  | @restored slot restorable =>
      have inserted := (s.pool.roster.insert_perm slot.agent).map Prod.fst
      exact inserted.nodup_iff.mpr (List.nodup_cons.mpr ⟨restorable.absent, distinct⟩)
  | removed => exact distinct.sublist ((List.eraseIdx_sublist _ _).map _)

end AgileAgent.Core
