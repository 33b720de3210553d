import AgileAgent.Core.Pool.Roster

/-! # What operations do to slots

Most operations change the slot of one agent, whatever they return. Each is put here as that
change.
-/

namespace AgileAgent.Core

open Backlog RuntimeDomain

/-- The agent waits for the decision of a human. -/
def AgentSlotStatus.awaitsHuman : AgentSlotStatus → Bool
  | .blockedForDecision blockedState => blockedState.reasonType = "human_decision"
  | _ => false

theorem AgentSlotStatus.awaitsHuman_blocked {status : AgentSlotStatus} (awaits : status.awaitsHuman) :
    status.isBlocked ∧ status.isResting = false := by
  cases status with
  | blockedForDecision => exact ⟨rfl, rfl⟩
  | _ => cases awaits

theorem AgentSlotStatus.not_awaitsHuman {status : AgentSlotStatus} (free : ¬ status.isBlocked) :
    status.awaitsHuman = false :=
  Bool.eq_false_iff.mpr fun awaits => free (awaitsHuman_blocked awaits).1

/-- A blocked agent that does not rest can respond. -/
theorem AgentSlotStatus.responds {status : AgentSlotStatus} (isBlocked : status.isBlocked)
    (notResting : status.isResting = false) (startedAt : Nat) :
    status.canTransitionTo (.responding startedAt) := by
  cases status with
  | blocked | blockedForDecision => rfl
  | resting => cases notResting
  | _ => cases isBlocked

theorem AgentSlotStatus.resting_silent {status : AgentSlotStatus} (resting : status.isResting)
    (startedAt : Nat) : status.canTransitionTo (.responding startedAt) = false := by
  cases status with
  | resting => rfl
  | _ => cases resting

namespace PoolSlot

@[simp] theorem tryAssign_agentId (s : PoolSlot) (taskId : TaskId) (now : Moment) :
    (s.tryAssign taskId now).agentId = s.agentId :=
  congrArg Prod.fst (s.tryAssign_agent taskId now)

theorem assignTask_ok {s : PoolSlot} {taskId : TaskId} {now : Moment}
    (assigned : (s.assignTask taskId now).1 = .ok ()) : s.status.eq .idle := by
  unfold assignTask at assigned
  split at assigned
  · assumption
  · cases assigned

theorem tryAssign_assignedTaskId {s : PoolSlot} (isIdle : s.status.eq .idle) (taskId : TaskId)
    (now : Moment) :
    (s.tryAssign taskId now).assignedTaskId = some taskId := by
  simp [tryAssign, assignTask, isIdle]

@[simp] theorem tryAssign_status (s : PoolSlot) (taskId : TaskId) (now : Moment) :
    (s.tryAssign taskId now).status = s.status := by
  unfold tryAssign assignTask
  split <;> rfl

variable [Unicode] {s : PoolSlot} {newStatus : AgentSlotStatus} {now : Moment}

theorem tryTransition_refused (refused : s.status.canTransitionTo newStatus = false) :
    s.tryTransition newStatus now = s := by
  unfold tryTransition transitionTo AgentSlot.transitionTo
  simp [refused]

@[simp] theorem tryTransition_agentId (s : PoolSlot) (newStatus : AgentSlotStatus) (now : Moment) :
    (s.tryTransition newStatus now).agentId = s.agentId :=
  congrArg Prod.fst (s.tryTransition_agent newStatus now)

theorem tryTransition_awaitsHuman (quiet : newStatus.awaitsHuman = false)
    (leaves : ∀ blockedState, (AgentSlotStatus.blockedForDecision blockedState).canTransitionTo newStatus) :
    (s.tryTransition newStatus now).status.awaitsHuman = false := by
  rw [tryTransition_status]
  split
  · exact quiet
  · next refused =>
      cases isStatus : s.status with
      | blockedForDecision blockedState => exact absurd (isStatus ▸ leaves blockedState) refused
      | _ => rfl

end PoolSlot

namespace WorkerPool

variable {p : WorkerPool} {agentId other : AgentId} {slot : PoolSlot} {change next : PoolSlot → PoolSlot}

theorem getSlotById_agentId (found : p.getSlotById agentId = some slot) : slot.agentId = agentId :=
  (getSlotById_index found).2

theorem getSlotById_isSome : (p.getSlotById agentId).isSome ↔ agentId ∈ p.roster.ids := by
  simp [getSlotById]

theorem getSlotById_of_mem (distinct : p.roster.ids.Nodup) (member : slot ∈ p.slots) :
    p.getSlotById slot.agentId = some slot := by
  rw [roster_ids] at distinct
  obtain ⟨found, isFound⟩ : ∃ found, p.getSlotById slot.agentId = some found := by
    rw [← Option.isSome_iff_exists, getSlotById_isSome, roster_ids]
    exact List.mem_map_of_mem member
  rw [isFound, List.inj_on_of_nodup_map distinct (List.mem_of_find?_eq_some isFound) member
    (getSlotById_agentId isFound)]

theorem getSlotById_modifySlot (same : ∀ slot, (change slot).agentId = slot.agentId) (other : AgentId) :
    (p.modifySlot agentId change).getSlotById other =
      if other = agentId then (p.getSlotById agentId).map change else p.getSlotById other := by
  unfold getSlotById modifySlot
  split
  · next isAgent =>
      rw [isAgent]
      exact FirstMatch.find?_modify (by simp [same])
  · next differs =>
      refine FirstMatch.find?_modify_of_ne fun slot isSlot => ?_
      rw [decide_eq_true_eq] at isSlot
      simp [same, isSlot, Ne.symm differs]

theorem modifySlot_congr (same : ∀ slot, p.getSlotById agentId = some slot → change slot = next slot) :
    p.modifySlot agentId change = p.modifySlot agentId next := by
  have slots : FirstMatch.modify (fun slot : PoolSlot => slot.agentId = agentId) change p.slots =
      FirstMatch.modify (fun slot => slot.agentId = agentId) next p.slots :=
    FirstMatch.modify_congr same
  rw [modifySlot, slots, modifySlot]

/-- A change that leaves the slot as it is leaves the pool as it is. -/
theorem modifySlot_eq_self (same : ∀ slot, p.getSlotById agentId = some slot → change slot = slot) :
    p.modifySlot agentId change = p := by
  have kept : p.modifySlot agentId change = p.modifySlot agentId id := modifySlot_congr same
  rw [kept, modifySlot, FirstMatch.modify_id]

theorem modifySlot_none (missing : p.getSlotById agentId = none) : p.modifySlot agentId change = p :=
  modifySlot_eq_self fun slot found => by simp [missing] at found

theorem modifySlot_modifySlot (same : ∀ slot, (change slot).agentId = slot.agentId) :
    (p.modifySlot agentId change).modifySlot agentId next =
      p.modifySlot agentId fun slot => next (change slot) := by
  have slots : FirstMatch.modify (fun slot : PoolSlot => slot.agentId = agentId) next
      (FirstMatch.modify (fun slot => slot.agentId = agentId) change p.slots) =
        FirstMatch.modify (fun slot => slot.agentId = agentId) (fun slot => next (change slot)) p.slots :=
    FirstMatch.modify_modify (by simp [same])
  unfold modifySlot
  dsimp only
  rw [slots]

/-! ### Tasks -/

theorem assignTaskWithBacklog_cases (p : WorkerPool) (agentId : AgentId) (taskId : TaskId)
    (b : BacklogState) (now : Moment) :
    (p.assignTaskWithBacklog agentId taskId b now).2 = (p, b) ∨
      b.canAssignTask taskId ∧ ∃ slot, p.getSlotById agentId = some slot ∧ slot.status.eq .idle ∧
        (p.assignTaskWithBacklog agentId taskId b now).2 =
          (p.modifySlot agentId (·.tryAssign taskId now), (b.startTask taskId).2) := by
  unfold assignTaskWithBacklog
  split
  · next ready =>
      split
      · exact .inl rfl
      · next slot found =>
          split
          · exact .inl rfl
          · next assigned => exact .inr ⟨ready, slot, found, PoolSlot.assignTask_ok assigned, rfl⟩
  · exact .inl rfl

/-- The first idle agent gets the task of a blocked one, or nothing happens. -/
theorem reassignTask_cases (p : WorkerPool) (agentId : AgentId) (taskId : TaskId) (b : BacklogState)
    (now : Moment) :
    p.reassignTask agentId taskId b now = p ∨
      (b.findTask taskId).any (fun task => task.status = .running) ∧
      ∃ idleAgent slot, p.findIdleAgentId = some idleAgent ∧ p.getSlotById idleAgent = some slot ∧
        slot.status.eq .idle ∧ p.reassignTask agentId taskId b now =
          (p.modifySlot idleAgent (·.tryAssign taskId now)).modifySlot agentId PoolSlot.clearTask := by
  unfold reassignTask
  split
  · exact .inl rfl
  · next idleAgent isIdle =>
      split
      · next running =>
          split
          · exact .inl rfl
          · next slot found =>
              split
              · exact .inl rfl
              · next assigned =>
                  exact .inr ⟨running, idleAgent, slot, isIdle, found, PoolSlot.assignTask_ok assigned, rfl⟩
      · exact .inl rfl

/-- The task of a blocked agent stays with it, goes to an idle agent, or waits. -/
theorem handleBlockedTask_cases (p : WorkerPool) (agentId : AgentId) (b : BacklogState) (now : Moment) :
    p.handleBlockedTask agentId b now = (p, b) ∨ ∃ slot taskId, p.getSlotById agentId = some slot ∧
      slot.assignedTaskId = some taskId ∧
      ((p.blockedHandler.config.taskPolicy = .reassignIfPossible ∧
        (b.findTask taskId).any (fun task => task.status = .running) ∧
        ∃ idleAgent idle, p.findIdleAgentId = some idleAgent ∧ p.getSlotById idleAgent = some idle ∧
          idle.status.eq .idle ∧ p.handleBlockedTask agentId b now =
            ((p.modifySlot idleAgent (·.tryAssign taskId now)).modifySlot agentId PoolSlot.clearTask, b)) ∨
      p.handleBlockedTask agentId b now = (p, (b.blockTask taskId "agent_blocked").2)) := by
  unfold handleBlockedTask
  split
  · exact .inl rfl
  · next taskId holds =>
      obtain ⟨slot, found, assigned⟩ := Option.bind_eq_some_iff.mp holds
      split
      · exact .inl rfl
      · next policy =>
          rcases p.reassignTask_cases agentId taskId b now with
            same | ⟨running, idleAgent, idle, first, isFound, isIdle, handedOver⟩
          · exact .inl (by rw [same])
          · exact .inr ⟨slot, taskId, found, assigned, .inl ⟨policy, running, idleAgent, idle, first,
              isFound, isIdle, by rw [handedOver]⟩⟩
      · exact .inr ⟨slot, taskId, found, assigned, .inr rfl⟩

/-! ### Agents that go and come -/

/-- With distinct ids, a removed agent is gone. -/
theorem removeAgent_cases (distinct : p.roster.ids.Nodup) (agentId : AgentId) (now : Moment) :
    (p.removeAgent agentId now).2 = p ∨ ∃ slot, p.getSlotById agentId = some slot ∧ slot.status.isTerminal ∧
      (p.removeAgent agentId now).2.humanQueue = p.humanQueue ∧
      ∀ other, (p.removeAgent agentId now).2.getSlotById other =
        if other = agentId then none else p.getSlotById other := by
  unfold removeAgent
  split
  · exact .inl rfl
  · next slot found =>
      split
      · next terminal =>
          refine .inr ⟨slot, found, terminal, rfl, fun other => ?_⟩
          have erased : p.slots.eraseIdx (p.findSlotIndex agentId) =
              p.slots.filter fun slot => slot.agentId ≠ agentId := by
            rw [findSlotIndex, FirstMatch.eraseIdx_findIdx]
            exact FirstMatch.eraseP_eq_filter (by simpa using distinct)
          simp only [getSlotById, erased, List.find?_filter]
          split
          · next isAgent => simp [isAgent]
          · next differs =>
              congr 1
              funext slot
              grind
      · exact .inl rfl

/-- Only an agent that is not in the pool comes back. -/
theorem restoreSlot_cases (p : WorkerPool) (slot : PoolSlot) :
    (p.restoreSlot slot).2 = p ∨ p.getSlotById slot.agentId = none ∧
      (p.restoreSlot slot).2.humanQueue = p.humanQueue ∧
      ∀ other, (p.restoreSlot slot).2.getSlotById other =
        if other = slot.agentId then some slot else p.getSlotById other := by
  unfold restoreSlot
  split
  · exact .inl rfl
  · split
    · exact .inl rfl
    · next absent =>
        split
        · exact .inl rfl
        · have missing : p.getSlotById slot.agentId = none := by
            simpa [getSlotById] using absent
          refine .inr ⟨missing, rfl, fun other => ?_⟩
          unfold getSlotById at missing ⊢
          dsimp only
          by_cases isAgent : other = slot.agentId
          · subst isAgent
            rw [if_pos rfl]
            split <;> simp [missing]
          · rw [if_neg isAgent]
            split <;> simp [Ne.symm isAgent]

variable [Unicode] {now : Moment}

theorem modifySlot_refused {newStatus : AgentSlotStatus} (found : p.getSlotById agentId = some slot)
    (refused : slot.status.canTransitionTo newStatus = false) :
    p.modifySlot agentId (·.tryTransition newStatus now) = p :=
  modifySlot_eq_self fun other isSlot => by
    rw [found, Option.some.injEq] at isSlot
    exact isSlot ▸ PoolSlot.tryTransition_refused refused

theorem stopAgent_eq (p : WorkerPool) (agentId : AgentId) (now : Moment) :
    (p.stopAgent agentId now).2 = p.modifySlot agentId (·.tryTransition (.stopped "user requested") now) := by
  unfold stopAgent
  cases found : p.getSlotById agentId with
  | none => exact (modifySlot_none found).symm
  | some slot =>
      dsimp only
      rw [PoolSlot.transitionTo_eq]
      cases allowed : slot.status.canTransitionTo (.stopped "user requested") with
      | true => rfl
      | false => exact (modifySlot_refused found allowed).symm

/-- What a decision does to the slot of a human's agent. -/
def decided (selection : HumanSelection) (now : Moment) (slot : PoolSlot) : PoolSlot :=
  match selection with
  | .skipped => slot.clearTask
  | .cancelled => slot.tryTransition .idle now
  | _ => slot

theorem executeDecision_eq (p : WorkerPool) (agentId : AgentId) (selection : HumanSelection)
    (now : Moment) :
    (p.executeDecision agentId selection now).2 = p.modifySlot agentId (decided selection now) := by
  unfold executeDecision
  cases found : p.getSlotById agentId with
  | none => exact (modifySlot_none found).symm
  | some slot =>
      cases selection with
      | selected | acceptedRecommendation | custom => exact (modifySlot_eq_self fun _ _ => rfl).symm
      | skipped => rfl
      | cancelled =>
          dsimp only
          rw [PoolSlot.transitionTo_eq]
          cases allowed : slot.status.canTransitionTo .idle with
          | true => rfl
          | false => exact (modifySlot_refused found allowed).symm

/-- What an answer does to the slot of the agent of the first request. -/
def answered (selection : HumanSelection) (now : Moment) (slot : PoolSlot) : PoolSlot :=
  if slot.status.isBlocked && slot.status.canTransitionTo (.responding now.instant) then
    decided selection now (slot.tryTransition (.responding now.instant) now)
  else slot

section

variable {selection : HumanSelection}

@[simp] theorem answered_agentId (slot : PoolSlot) :
    (answered selection now slot).agentId = slot.agentId := by
  unfold answered
  split
  · cases selection <;> simp [decided, PoolSlot.clearTask]
  · rfl

theorem answered_resting (resting : slot.status.isBlocked → slot.status.isResting) :
    answered selection now slot = slot := by
  rw [answered, if_neg]
  rw [Bool.and_eq_true, not_and]
  intro isBlocked
  rw [AgentSlotStatus.resting_silent (resting isBlocked)]
  exact Bool.false_ne_true

theorem answered_status (isBlocked : slot.status.isBlocked) (notResting : slot.status.isResting = false) :
    (answered selection now slot).status.isBlocked = false := by
  have allowed := AgentSlotStatus.responds isBlocked notResting now.instant
  have responding : (slot.tryTransition (.responding now.instant) now).status = .responding now.instant := by
    rw [PoolSlot.tryTransition_status, if_pos allowed]
  rw [answered, if_pos (by simp [isBlocked, allowed])]
  cases selection with
  | selected | acceptedRecommendation | custom => simp [decided, responding, AgentSlotStatus.isBlocked]
  | skipped => simp [decided, PoolSlot.clearTask, responding, AgentSlotStatus.isBlocked]
  | cancelled =>
      rw [decided, PoolSlot.tryTransition_status, responding]
      rfl

/-- Only an agent that is skipped loses its task. A resting slot does not respond. -/
theorem answered_assignedTaskId (selection : HumanSelection) (now : Moment) (slot : PoolSlot) :
    (answered selection now slot).assignedTaskId =
      if selection = .skipped ∧ slot.status.isBlocked ∧ slot.status.isResting = false then none
      else slot.assignedTaskId := by
  by_cases active : slot.status.isBlocked ∧ slot.status.isResting = false
  · have allowed := AgentSlotStatus.responds active.1 active.2 now.instant
    rw [answered, if_pos (by simp [active.1, allowed])]
    cases selection <;> simp [decided, active, PoolSlot.clearTask]
  · rw [answered_resting fun isBlocked => by simpa [isBlocked] using active]
    simp only [active, and_false, if_false]

end

theorem unblockAgent_eq (p : WorkerPool) (agentId : AgentId) (selection : HumanSelection) (now : Moment) :
    (p.unblockAgent agentId selection now).2 = p.modifySlot agentId (answered selection now) := by
  unfold unblockAgent
  cases found : p.getSlotById agentId with
  | none => exact (modifySlot_none found).symm
  | some slot =>
      have stays (refused : (slot.status.isBlocked &&
          slot.status.canTransitionTo (.responding now.instant)) = false) :
          p.modifySlot agentId (answered selection now) = p :=
        modifySlot_eq_self fun other isSlot => by
          rw [found, Option.some.injEq] at isSlot
          simp [answered, ← isSlot, refused]
      dsimp only
      rw [PoolSlot.transitionTo_eq]
      cases isBlocked : slot.status.isBlocked with
      | false => exact (stays (by simp [isBlocked])).symm
      | true =>
          cases allowed : slot.status.canTransitionTo (.responding now.instant) with
          | false => exact (stays (by simp [allowed])).symm
          | true =>
              simp only [if_true]
              rw [executeDecision_eq, modifySlot_modifySlot fun slot => slot.tryTransition_agentId _ _]
              refine modifySlot_congr fun other isSlot => ?_
              rw [found, Option.some.injEq] at isSlot
              simp [answered, ← isSlot, isBlocked, allowed]

/-- The status of an agent that gets blocked. -/
def blockedStatus (blockedState : BlockedState) (description : String) (now : Moment) : AgentSlotStatus :=
  if isRateLimit blockedState description then .resting now.utc blockedState false
  else .blockedForDecision blockedState

/-- The task of a blocked agent, if there is a backlog. -/
def handleTask (p : WorkerPool) (agentId : AgentId) (b : Option BacklogState) (now : Moment) :
    WorkerPool × Option BacklogState :=
  match b with
  | none => (p, none)
  | some backlog =>
      ((p.handleBlockedTask agentId backlog now).1, some (p.handleBlockedTask agentId backlog now).2)

/-- An agent gets blocked, or nothing happens. -/
theorem processAgentBlocked_cases (p : WorkerPool) (agentId : AgentId) (blockedState : BlockedState)
    (description uuid : String) (b : Option BacklogState) (now : Moment) :
    (∃ e, p.processAgentBlocked agentId blockedState description uuid b now = (.error e, p, b)) ∨
      ∃ slot, p.getSlotById agentId = some slot ∧
        slot.status.canTransitionTo (blockedStatus blockedState description now) ∧
        p.processAgentBlocked agentId blockedState description uuid b now =
          (.ok (), ((p.modifySlot agentId (·.tryTransition (blockedStatus blockedState description now)
            now)).registerBlocked agentId blockedState description uuid now).handleTask agentId b now) := by
  unfold processAgentBlocked
  cases found : p.getSlotById agentId with
  | none => exact .inl ⟨_, rfl⟩
  | some slot =>
      dsimp only
      rw [← blockedStatus, PoolSlot.transitionTo_eq]
      cases allowed : slot.status.canTransitionTo (blockedStatus blockedState description now) with
      | false => exact .inl ⟨_, rfl⟩
      | true =>
          refine .inr ⟨slot, rfl, allowed, ?_⟩
          cases b <;> rfl

/-- What clearing the context of an agent does to its slot. -/
def contextCleared (now : Moment) (slot : PoolSlot) : PoolSlot :=
  let cleared := slot.clearTranscript.clearSessionHandle.clearTask
  if slot.status.isIdle then cleared else cleared.tryTransition .idle now

theorem contextCleared_agentId (now : Moment) (slot : PoolSlot) :
    (contextCleared now slot).agentId = slot.agentId := by
  unfold contextCleared
  dsimp only
  split
  · rfl
  · exact PoolSlot.tryTransition_agentId ..

theorem clearAgentContext_eq (p : WorkerPool) (agentId : AgentId) (now : Moment) :
    (p.clearAgentContext agentId now).2 = p.modifySlot agentId (contextCleared now) := by
  unfold clearAgentContext
  cases found : p.getSlotById agentId with
  | none => exact (modifySlot_none found).symm
  | some slot =>
      dsimp only
      split
      · next isIdle =>
          refine modifySlot_congr fun other isSlot => ?_
          rw [found, Option.some.injEq] at isSlot
          simp [contextCleared, ← isSlot, isIdle]
      · next busy =>
          dsimp only
          rw [modifySlot_modifySlot]
          · refine modifySlot_congr fun other isSlot => ?_
            rw [found, Option.some.injEq] at isSlot
            simp [contextCleared, ← isSlot, busy]
          · exact fun _ => rfl

/-- What the timeout of a request does to the slot of its agent. -/
def expired (selection : HumanSelection) (now : Moment) (slot : PoolSlot) : PoolSlot :=
  if slot.status.isBlocked then timeOut selection now slot else slot

theorem expired_agentId (selection : HumanSelection) (now : Moment) (slot : PoolSlot) :
    (expired selection now slot).agentId = slot.agentId := by
  unfold expired
  split
  · exact congrArg Prod.fst (timeOut_agent selection now slot)
  · rfl

theorem executeTimeoutAction_eq (p : WorkerPool) (agentId : AgentId) (selection : HumanSelection)
    (now : Moment) :
    p.executeTimeoutAction agentId selection now = p.modifySlot agentId (expired selection now) := by
  unfold executeTimeoutAction
  cases found : p.getSlotById agentId with
  | none => exact (modifySlot_none found).symm
  | some slot =>
      dsimp only
      split
      · next isBlocked =>
          refine modifySlot_congr fun other isSlot => ?_
          rw [found, Option.some.injEq] at isSlot
          simp [expired, ← isSlot, isBlocked]
      · next free =>
          refine (modifySlot_eq_self fun other isSlot => ?_).symm
          rw [found, Option.some.injEq] at isSlot
          simp [expired, ← isSlot, free]

theorem expireRequest_eq (p : WorkerPool) (request : HumanDecisionRequest) (now : Moment) :
    expireRequest now p request =
      { p with
        blockedHandler := p.blockedHandler.recordResolution request.agentId
          (.timeout (p.timeoutActionForRequest request)) }.modifySlot request.agentId
        (expired (p.timeoutActionForRequest request) now) :=
  executeTimeoutAction_eq ..

end WorkerPool

/-! ## Actions of the decision layer -/

namespace DecisionAction

/-- The action answers the request of the agent. -/
def answersRequest (action : DecisionAction) : Bool :=
  action.actionType = "select_option" || action.actionType = "skip"

/-- The action takes a blocked agent on, whatever is in the queue. -/
def movesOn (action : DecisionAction) : Bool :=
  action.actionType = "continue" || action.actionType = "reflect" ||
    action.actionType = "confirm_completion" || action.actionType = "retry" ||
    action.actionType = "stop_if_complete"

end DecisionAction

namespace WorkerPool

open DecisionAction

variable [Unicode] {p : WorkerPool} {agentId : AgentId} {action : DecisionAction} {now : Moment}

theorem goIdle_awaitsHuman (slot : PoolSlot) : (goIdle now slot).status.awaitsHuman = false := by
  unfold goIdle
  split
  · exact PoolSlot.tryTransition_awaitsHuman rfl fun _ => rfl
  · next free => exact AgentSlotStatus.not_awaitsHuman free

@[simp] theorem goIdle_agentId (slot : PoolSlot) : (goIdle now slot).agentId = slot.agentId :=
  congrArg Prod.fst (goIdle_agent now slot)

@[simp] theorem goIdle_assignedTaskId (slot : PoolSlot) :
    (goIdle now slot).assignedTaskId = slot.assignedTaskId := by
  unfold goIdle
  split <;> rfl

/-- What an action of a decision can do to the pool. -/
inductive ActionEffect (p : WorkerPool) (agentId : AgentId) (action : DecisionAction) (now : Moment) :
    WorkerPool → Prop where
  | told {change : PoolSlot → PoolSlot} (answers : action.answersRequest = false)
      (moves : action.movesOn = false) (agent : ∀ slot, (change slot).agentId = slot.agentId)
      (status : ∀ slot, (change slot).status = slot.status)
      (task : ∀ slot, (change slot).assignedTaskId = slot.assignedTaskId) :
      ActionEffect p agentId action now (p.modifySlot agentId change)
  | nothing (noRequest : action.answersRequest → p.humanQueue.findByAgentId agentId = none)
      (moves : action.movesOn = false) : ActionEffect p agentId action now p
  | answered {request : HumanDecisionRequest} {selection : HumanSelection} (answers : action.answersRequest)
      (found : p.humanQueue.findByAgentId agentId = some request) :
      ActionEffect p agentId action now
        (p.processHumanResponseInternal (.create request.id selection now.utc) agentId now)
  | moved {change : PoolSlot → PoolSlot} (answers : action.answersRequest = false)
      (moves : action.movesOn) (agent : ∀ slot, (change slot).agentId = slot.agentId)
      (status : ∀ slot, (change slot).status.awaitsHuman = false)
      (task : (action.actionType = "confirm_completion" ∧ ∀ slot, (change slot).assignedTaskId = none) ∨
        ∀ slot, (change slot).assignedTaskId = slot.assignedTaskId) :
      ActionEffect p agentId action now (p.modifySlot agentId change)

theorem executeAction_effect (p : WorkerPool) (agentId : AgentId) (action : DecisionAction) (now : Moment) :
    ActionEffect p agentId action now (p.executeAction agentId action now).2 := by
  unfold executeAction
  split
  · next isType =>
      unfold executeSelectOption
      split
      · next request found => exact .answered (by simp [answersRequest, isType]) found
      · next noRequest => exact .nothing (fun _ => noRequest) (by simp [movesOn, isType])
  · next isType =>
      unfold executeSkip
      split
      · next request found => exact .answered (by simp [answersRequest, isType]) found
      · next noRequest => exact .nothing (fun _ => noRequest) (by simp [movesOn, isType])
  · next isType => exact .nothing (by simp [answersRequest, isType]) (by simp [movesOn, isType])
  · next isType =>
      refine .told (by simp [answersRequest, isType]) (by simp [movesOn, isType]) (fun slot => ?_)
        (fun slot => ?_) fun slot => ?_ <;> split <;> rfl
  · next isType =>
      exact .moved (by simp [answersRequest, isType]) (by simp [movesOn, isType]) goIdle_agentId
        goIdle_awaitsHuman (.inr goIdle_assignedTaskId)
  · next isType =>
      exact .moved (by simp [answersRequest, isType]) (by simp [movesOn, isType])
        (fun slot => goIdle_agentId _) (fun slot => goIdle_awaitsHuman _)
        (.inr fun slot => goIdle_assignedTaskId _)
  · next isType =>
      exact .moved (by simp [answersRequest, isType]) (by simp [movesOn, isType])
        (fun slot => goIdle_agentId slot) (fun slot => goIdle_awaitsHuman slot) (.inl ⟨isType, fun _ => rfl⟩)
  · next isType =>
      refine .moved (by simp [answersRequest, isType]) (by simp [movesOn, isType]) (fun slot => ?_)
        (fun slot => ?_) (.inr fun slot => ?_)
      · dsimp only
        split
        · rfl
        · exact goIdle_agentId _
      · dsimp only
        split
        · next resting =>
            by_contra awaits
            have active := (AgentSlotStatus.awaitsHuman_blocked (by simpa using awaits)).2
            rw [active] at resting
            cases resting
        · exact goIdle_awaitsHuman _
      · dsimp only
        split
        · rfl
        · exact goIdle_assignedTaskId _
  · next isType =>
      unfold executeContinueAllTasks
      split
      · exact .nothing (by simp [answersRequest, isType]) (by simp [movesOn, isType])
      · dsimp only
        split
        · exact .nothing (by simp [answersRequest, isType]) (by simp [movesOn, isType])
        · exact .told (by simp [answersRequest, isType]) (by simp [movesOn, isType]) (fun _ => rfl)
            (fun _ => rfl) fun _ => rfl
  · next isType =>
      exact .moved (by simp [answersRequest, isType]) (by simp [movesOn, isType])
        (fun slot => slot.tryTransition_agentId _ _)
        (fun slot => PoolSlot.tryTransition_awaitsHuman rfl fun _ => rfl) (.inr fun _ => rfl)
  · next isType =>
      unfold executePrepareTaskStart
      split
      · exact .nothing (by simp [answersRequest, isType]) (by simp [movesOn, isType])
      · exact .told (by simp [answersRequest, isType]) (by simp [movesOn, isType]) (fun _ => rfl)
          (fun _ => rfl) fun _ => rfl
      · exact .told (by simp [answersRequest, isType]) (by simp [movesOn, isType]) (fun _ => rfl)
          (fun _ => rfl) fun _ => rfl
  · exact .nothing (by simp_all [answersRequest]) (by simp_all [movesOn])

end WorkerPool

end AgileAgent.Core
