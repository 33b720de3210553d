import AgileAgent.Custody
import AgileAgent.Backlog.Moves
import AgileAgent.Core.Pool.Effects

/-! # Custody of tasks

Who holds a task is written in the slots, and whether it runs in the backlog. Each call moves
tasks between agents and ends some of them, one after another.
-/

namespace AgileAgent.Core

open Backlog RuntimeDomain
open Custody (Move Moves Phase)
open Machine (final final_invariant history)

/-- Only ready and running tasks matter for who holds them. -/
def phaseOf : Option TaskStatus → Phase
  | some .ready => .ready
  | some .running => .running
  | _ => .away

def taskPhase (b : BacklogState) (taskId : TaskId) : Phase :=
  phaseOf ((b.findTask taskId).map fun task => task.status)

theorem canAssignTask_found {b : BacklogState} {taskId : TaskId} (ready : b.canAssignTask taskId) :
    ∃ task, b.findTask taskId = some task ∧ task.status = .ready := by
  unfold BacklogState.canAssignTask at ready
  split at ready
  · next task found => exact ⟨task, found, by simpa using ready⟩
  · cases ready

/-- A move of a task that is allowed. -/
theorem taskPhase_moved {b : BacklogState} {taskId : TaskId} {allowed : List TaskStatus}
    {change : TaskItem → TaskItem} (same : ∀ task, (change task).id = task.id) {task : TaskItem}
    (found : b.findTask taskId = some task) (isAllowed : task.status ∈ allowed) :
    taskPhase (b.moveTask taskId allowed change).2 =
      Function.update (taskPhase b) taskId (phaseOf (some (change task).status)) := by
  funext other
  rw [Function.update_apply]
  unfold taskPhase
  split
  · next isTask => simp [isTask, BacklogState.findTask_moveTask same, found, isAllowed]
  · next differs => rw [BacklogState.findTask_moveTask_ne same differs]

/-- A move that ends a task, if it is allowed. -/
theorem taskPhase_ended {b : BacklogState} {taskId : TaskId} {allowed : List TaskStatus}
    {change : TaskItem → TaskItem} (same : ∀ task, (change task).id = task.id)
    (ends : ∀ task, phaseOf (some (change task).status) = .away) :
    taskPhase (b.moveTask taskId allowed change).2 = Function.update (taskPhase b) taskId .away ∨
      taskPhase (b.moveTask taskId allowed change).2 = taskPhase b ∧
        ∀ task, b.findTask taskId = some task → task.status ∉ allowed := by
  cases found : b.findTask taskId with
  | none => exact .inr ⟨by simp [BacklogState.moveTask, found], by simp⟩
  | some task =>
      by_cases isAllowed : task.status ∈ allowed
      · rw [taskPhase_moved same found isAllowed, ends]
        exact .inl rfl
      · exact .inr ⟨by simp [BacklogState.moveTask, found, isAllowed], by simpa using isAllowed⟩

theorem startTask_phase {b : BacklogState} {taskId : TaskId} (ready : b.canAssignTask taskId) :
    taskPhase (b.startTask taskId).2 = Function.update (taskPhase b) taskId .running := by
  obtain ⟨task, found, isReady⟩ := canAssignTask_found ready
  exact @taskPhase_moved b taskId [.ready] (fun task => { task with status := .running }) (fun _ => rfl)
    task found (by simp [isReady])

theorem taskPhase_running {b : BacklogState} {taskId : TaskId} :
    taskPhase b taskId = .running ↔ ∃ task, b.findTask taskId = some task ∧ task.status = .running := by
  unfold taskPhase
  cases found : b.findTask taskId with
  | none => simp [phaseOf]
  | some task => cases isStatus : task.status <;> simp [isStatus, phaseOf]

/-- A finished task does not run. -/
theorem finishTask_phase (b : BacklogState) (taskId : TaskId) (result : TaskCompletionResult) :
    taskPhase (WorkerPool.finishTask b taskId result) = Function.update (taskPhase b) taskId .away ∨
      taskPhase (WorkerPool.finishTask b taskId result) = taskPhase b ∧ taskPhase b taskId ≠ .running := by
  have idle {allowed : List TaskStatus} (runs : .running ∈ allowed)
      (barred : ∀ task, b.findTask taskId = some task → task.status ∉ allowed) :
      taskPhase b taskId ≠ .running := by
    intro isRunning
    obtain ⟨task, found, status⟩ := taskPhase_running.mp isRunning
    exact barred task found (status ▸ runs)
  cases result with
  | success =>
      rcases @taskPhase_ended b taskId [.running, .verifying]
        (fun task => { task with
          status := .done
          resultSummary := some "Task completed successfully" }) (fun _ => rfl) (fun _ => rfl) with ended | kept
      · exact .inl ended
      · exact .inr ⟨kept.1, idle (by simp) kept.2⟩
  | failure error =>
      rcases @taskPhase_ended b taskId [.running]
        (fun task => { task with status := .failed, resultSummary := some error })
        (fun _ => rfl) (fun _ => rfl) with ended | kept
      · exact .inl ended
      · exact .inr ⟨kept.1, idle (by simp) kept.2⟩

namespace WorkerPool

def held (p : WorkerPool) (agentId : AgentId) : Option TaskId :=
  (p.getSlotById agentId).bind fun slot => slot.assignedTaskId

/-- What the agents hold and which tasks run. -/
def custody (p : WorkerPool) (b : BacklogState) : Custody.State AgentId TaskId := ⟨p.held, taskPhase b⟩

variable {p : WorkerPool} {b : BacklogState} {agentId : AgentId} {taskId : TaskId}
  {change : PoolSlot → PoolSlot} {slot : PoolSlot}

theorem held_modifySlot (agent : ∀ slot, (change slot).agentId = slot.agentId) (other : AgentId) :
    (p.modifySlot agentId change).held other =
      if other = agentId then (p.getSlotById agentId).bind fun slot => (change slot).assignedTaskId
      else p.held other := by
  rw [held, getSlotById_modifySlot agent]
  split
  · exact Option.bind_map ..
  · rfl

theorem custody_same (agent : ∀ slot, (change slot).agentId = slot.agentId)
    (task : ∀ slot, p.getSlotById agentId = some slot → (change slot).assignedTaskId = slot.assignedTaskId) :
    (p.modifySlot agentId change).custody b = p.custody b := by
  ext1
  · funext other
    refine (held_modifySlot agent other).trans ?_
    split
    · next isAgent =>
        cases found : p.getSlotById agentId with
        | none => simp [isAgent, custody, held, found]
        | some slot => simp [isAgent, custody, held, found, task slot found]
    · rfl
  · rfl

theorem custody_drop (agent : ∀ slot, (change slot).agentId = slot.agentId)
    (task : ∀ slot, p.getSlotById agentId = some slot → (change slot).assignedTaskId = none) :
    (p.modifySlot agentId change).custody b = (p.custody b).drop agentId := by
  ext1
  · funext other
    refine (held_modifySlot agent other).trans ?_
    rw [Custody.State.drop_held]
    split
    · cases found : p.getSlotById agentId with
      | none => rfl
      | some slot => exact task slot found
    · rfl
  · rfl

theorem custody_take (found : p.getSlotById agentId = some slot) (isIdle : slot.status.eq .idle) (now : Moment)
    (ready : b.canAssignTask taskId) :
    (p.modifySlot agentId (·.tryAssign taskId now)).custody (b.startTask taskId).2 =
      (p.custody b).take agentId taskId := by
  ext1
  · funext other
    refine (held_modifySlot (fun slot => slot.tryAssign_agentId taskId now) other).trans ?_
    simp [found, PoolSlot.tryAssign_assignedTaskId isIdle, custody]
  · exact startTask_phase ready

theorem custody_handOver {other : AgentId} (found : p.getSlotById other = some slot)
    (isIdle : slot.status.eq .idle) (now : Moment) :
    ((p.modifySlot other (·.tryAssign taskId now)).modifySlot agentId PoolSlot.clearTask).custody b =
      (p.custody b).handOver agentId other taskId := by
  ext1
  · funext holder
    have cleared := @held_modifySlot (p.modifySlot other (·.tryAssign taskId now)) agentId
      PoolSlot.clearTask (fun _ => rfl) holder
    refine cleared.trans ?_
    rw [Custody.State.handOver_held]
    split
    · exact Option.bind_eq_none_iff.mpr fun _ _ => rfl
    · refine (held_modifySlot (fun slot => slot.tryAssign_agentId taskId now) holder).trans ?_
      simp [found, PoolSlot.tryAssign_assignedTaskId isIdle, custody]
  · rfl

/-- A change that clears a task at most. -/
theorem modifySlot_moves (agent : ∀ slot, (change slot).agentId = slot.agentId)
    (task : ∀ slot, p.getSlotById agentId = some slot → (change slot).assignedTaskId = slot.assignedTaskId ∨
      (change slot).assignedTaskId = none ∧ ¬ (p.custody b).Works agentId) :
    Moves (p.custody b) ((p.modifySlot agentId change).custody b) := by
  cases found : p.getSlotById agentId with
  | none => rw [modifySlot_none found]
  | some slot =>
      have isSlot {other : PoolSlot} (isOther : p.getSlotById agentId = some other) : slot = other :=
        Option.some.inj (found.symm.trans isOther)
      rcases task slot found with same | ⟨cleared, free⟩
      · rw [custody_same agent fun other isOther => isSlot isOther ▸ same]
      · rw [custody_drop agent fun other isOther => isSlot isOther ▸ cleared]
        exact .single (.drop free)

/-- A change that assigns no task puts nobody to work. -/
theorem works_of_modifySlot (agent : ∀ slot, (change slot).agentId = slot.agentId)
    (task : ∀ slot taskId, (change slot).assignedTaskId = some taskId → slot.assignedTaskId = some taskId)
    {other : AgentId} (works : ((p.modifySlot agentId change).custody b).Works other) :
    (p.custody b).Works other := by
  obtain ⟨taskId, holds, runs⟩ := works
  refine ⟨taskId, ?_, runs⟩
  have after := (held_modifySlot agent other).symm.trans holds
  split at after
  · next isAgent =>
      obtain ⟨slot, found, assigned⟩ := Option.bind_eq_some_iff.mp after
      exact Option.bind_eq_some_iff.mpr ⟨slot, isAgent ▸ found, task slot taskId assigned⟩
  · exact after

/-! ## The operations -/

variable {now : Moment}

theorem assignTaskWithBacklog_moves
    (careful : b.canAssignTask taskId → ∀ slot, p.getSlotById agentId = some slot → slot.status.eq .idle →
      ¬ (p.custody b).Works agentId) :
    let outcome := p.assignTaskWithBacklog agentId taskId b now
    Moves (p.custody b) (outcome.2.1.custody outcome.2.2) := by
  intro outcome
  rcases p.assignTaskWithBacklog_cases agentId taskId b now with same | ⟨ready, slot, found, isIdle, assigned⟩
  · simp only [outcome, same]
    exact .refl
  · simp only [outcome, assigned]
    rw [custody_take found isIdle now ready]
    obtain ⟨task, isTask, isReady⟩ := canAssignTask_found ready
    refine .single (.take ?_ (careful ready slot found isIdle))
    simp [custody, taskPhase, isTask, isReady, phaseOf]

theorem autoAssignTask_moves
    (careful : ∀ agentId task, p.findIdleAgentId = some agentId → b.readyTasks.head? = some task →
      ¬ (p.custody b).Works agentId) :
    let outcome := p.autoAssignTask b now
    Moves (p.custody b) (outcome.2.1.custody outcome.2.2) := by
  unfold autoAssignTask
  split
  · next agentId task isIdle isFirst =>
      exact assignTaskWithBacklog_moves fun _ _ _ _ => careful agentId task isIdle isFirst
  · exact .refl

theorem removeAgent_moves (distinct : p.roster.ids.Nodup)
    (careful : ∀ slot, p.getSlotById agentId = some slot → slot.status.isTerminal →
      ¬ (p.custody b).Works agentId) :
    Moves (p.custody b) ((p.removeAgent agentId now).2.custody b) := by
  rcases removeAgent_cases distinct agentId now with same | ⟨slot, found, terminal, -, left⟩
  · rw [same]
  · have dropped : (p.removeAgent agentId now).2.custody b = (p.custody b).drop agentId := by
      ext1
      · funext other
        rw [Custody.State.drop_held]
        simp only [custody, held, left]
        split <;> rfl
      · rfl
    rw [dropped]
    exact .single (.drop (careful slot found terminal))

theorem completeTaskWithBacklog_moves (p : WorkerPool) (agentId : AgentId) (result : TaskCompletionResult)
    (b : BacklogState) :
    let outcome := p.completeTaskWithBacklog agentId result b
    Moves (p.custody b) (outcome.2.1.custody outcome.2.2) := by
  unfold completeTaskWithBacklog
  cases found : p.getSlotById agentId with
  | none => exact .refl
  | some slot =>
      cases assigned : slot.assignedTaskId with
      | none =>
          dsimp only
          rw [assigned]
      | some taskId =>
          dsimp only
          rw [assigned]
          dsimp only
          have dropped : (p.modifySlot agentId PoolSlot.clearTask).custody (finishTask b taskId result) =
              (p.custody (finishTask b taskId result)).drop agentId :=
            custody_drop (fun _ => rfl) fun _ _ => rfl
          rw [dropped]
          have holds : (p.custody b).held agentId = some taskId := by simp [custody, held, found, assigned]
          rcases finishTask_phase b taskId result with ended | ⟨same, notRunning⟩
          · have settled : p.custody (finishTask b taskId result) = (p.custody b).settle taskId := by
              rw [custody, ended]
              rfl
            rw [settled]
            refine (Relation.ReflTransGen.single (.settle taskId)).tail (.drop ?_)
            rintro ⟨other, holdsOther, runs⟩
            rw [Custody.State.settle_held, holds, Option.some.injEq] at holdsOther
            simp [← holdsOther] at runs
          · have kept : p.custody (finishTask b taskId result) = p.custody b := by rw [custody, same, custody]
            rw [kept]
            refine .single (.drop ?_)
            rintro ⟨other, holdsOther, runs⟩
            rw [holds, Option.some.injEq] at holdsOther
            exact notRunning (holdsOther ▸ runs)

theorem handleBlockedTask_moves (p : WorkerPool) (agentId : AgentId) (b : BacklogState) (now : Moment)
    (busy : ∀ slot, p.getSlotById agentId = some slot → slot.status.eq .idle = false)
    (careful : p.blockedHandler.config.taskPolicy = .reassignIfPossible → (p.custody b).Works agentId →
      ∀ idleAgent, p.findIdleAgentId = some idleAgent → ¬ (p.custody b).Works idleAgent) :
    let outcome := p.handleBlockedTask agentId b now
    Moves (p.custody b) (outcome.1.custody outcome.2) := by
  intro outcome
  rcases p.handleBlockedTask_cases agentId b now with same | ⟨slot, taskId, found, assigned, handedOver | waits⟩
  · simp only [outcome, same]
    exact .refl
  · obtain ⟨policy, running, idleAgent, idle, first, isFound, isIdle, handedOver⟩ := handedOver
    simp only [outcome, handedOver]
    rw [custody_handOver isFound isIdle now]
    have holds : (p.custody b).held agentId = some taskId := by simp [custody, held, found, assigned]
    refine .single (.handOver holds ?_ (careful policy ⟨taskId, holds, ?_⟩ idleAgent first))
    · intro same
      rw [busy idle (same ▸ isFound)] at isIdle
      cases isIdle
    · obtain ⟨task, isTask, isRunning⟩ := (Option.any_eq_true _ _).mp running
      exact taskPhase_running.mpr ⟨task, isTask, by simpa using isRunning⟩
  · simp only [outcome, waits]
    rcases @taskPhase_ended b taskId [.running]
      (fun task => { task with status := .blocked, resultSummary := some "agent_blocked" }) (fun _ => rfl)
      (fun _ => rfl) with ended | kept
    · have settled : p.custody (b.blockTask taskId "agent_blocked").2 = (p.custody b).settle taskId :=
        Custody.State.ext rfl ended
      rw [settled]
      exact .single (.settle taskId)
    · have same : p.custody (b.blockTask taskId "agent_blocked").2 = p.custody b :=
        Custody.State.ext rfl kept.1
      rw [same]

theorem recordBlocked_config (h : BlockedHandler) (entry : BlockedHistoryEntry) :
    (h.recordBlocked entry).config = h.config := by
  unfold BlockedHandler.recordBlocked BlockedHandler.pruneHistory
  split
  · split <;> rfl
  · rfl

theorem blockedStatus_busy (blockedState : BlockedState) (description : String) (now : Moment) :
    (blockedStatus blockedState description now).eq .idle = false := by
  unfold blockedStatus
  split <;> rfl

variable [Unicode]

theorem processAgentBlocked_moves (distinct : p.roster.ids.Nodup) (agentId : AgentId)
    (blockedState : BlockedState) (description uuid : String) (b : BacklogState) (withBacklog : Bool)
    (careful : withBacklog → p.blockedHandler.config.taskPolicy = .reassignIfPossible →
      (p.custody b).Works agentId → ∀ slot, p.getSlotById agentId = some slot →
      slot.status.canTransitionTo (blockedStatus blockedState description now) →
      ∀ idle, (p.slots.find? fun slot => slot.agentId ≠ agentId && slot.status.eq .idle) = some idle →
        ¬ (p.custody b).Works idle.agentId) :
    let outcome := p.processAgentBlocked agentId blockedState description uuid
      (if withBacklog then some b else none) now
    Moves (p.custody b) (outcome.2.1.custody (outcome.2.2.getD b)) := by
  intro outcome
  rcases p.processAgentBlocked_cases agentId blockedState description uuid
    (if withBacklog then some b else none) now with ⟨e, refused⟩ | ⟨slot, found, allowed, blocked⟩
  · simp only [outcome, refused]
    cases withBacklog <;> exact .refl
  · let moved := p.modifySlot agentId (·.tryTransition (blockedStatus blockedState description now) now)
    have same : moved.custody b = p.custody b :=
      custody_same (fun slot => slot.tryTransition_agentId _ _) fun _ _ => rfl
    have here : moved.getSlotById agentId =
        some (slot.tryTransition (blockedStatus blockedState description now) now) := by
      simp [moved, getSlotById_modifySlot, found]
    have status : (slot.tryTransition (blockedStatus blockedState description now) now).status =
        blockedStatus blockedState description now := by rw [PoolSlot.tryTransition_status, if_pos allowed]
    simp only [outcome, blocked]
    cases withBacklog with
    | false =>
        have kept : Moves (p.custody b) (moved.custody b) := same ▸ .refl
        exact kept
    | true =>
        let registered := moved.registerBlocked agentId blockedState description uuid now
        have custody : registered.custody b = p.custody b := same
        have config : registered.blockedHandler.config = p.blockedHandler.config := recordBlocked_config _ _
        have handled : Moves (registered.custody b) ((registered.handleBlockedTask agentId b now).1.custody
            (registered.handleBlockedTask agentId b now).2) := by
          refine handleBlockedTask_moves registered agentId b now (fun other isOther => ?_)
            fun policy works idleAgent first => ?_
          · obtain rfl := Option.some.inj (here.symm.trans isOther)
            rw [status]
            exact blockedStatus_busy ..
          · obtain ⟨idle, isIdle, rfl⟩ := Option.map_eq_some_iff.mp first
            have besides : (p.slots.find? fun slot => slot.agentId ≠ agentId && slot.status.eq .idle) =
                some idle := by
              rw [← isIdle]
              refine (FirstMatch.find?_modify_gone (by simpa using distinct) fun other isOther => ?_).symm
              obtain rfl := Option.some.inj (found.symm.trans isOther)
              rw [status]
              exact blockedStatus_busy ..
            rw [custody] at works ⊢
            exact careful rfl (config ▸ policy) works slot found allowed idle besides
        rw [custody] at handled
        exact handled

/-- The agent at the head of the queue, which an answer goes to. -/
def headAgent (p : WorkerPool) : AgentId := p.humanQueue.peek.elim "unknown" (·.agentId)

theorem processHumanResponse_moves (b : BacklogState) {response : HumanDecisionResponse}
    (careful : response.selection = .skipped → (p.humanQueue.findAndRemove response.requestId).1.isSome →
      ∀ slot, p.getSlotById p.headAgent = some slot → slot.status.isBlocked → slot.status.isResting = false →
        ¬ (p.custody b).Works p.headAgent) :
    Moves (p.custody b) ((p.processHumanResponse response now).2.custody b) := by
  have removed : (p.humanQueue.complete response).1 =
      (p.humanQueue.findAndRemove response.requestId).1.isSome := by
    unfold HumanDecisionQueue.complete
    dsimp only
    split
    · next known => exact known.symm
    · next unknown => simpa using unknown
  unfold processHumanResponse
  split
  · exact .refl
  · next completed =>
      rw [completed] at removed
      rw [unblockAgent_eq]
      refine modifySlot_moves answered_agentId fun slot found => ?_
      rw [answered_assignedTaskId]
      split
      · next clears => exact .inr ⟨rfl, careful clears.1 removed.symm slot found clears.2.1 clears.2.2⟩
      · exact .inl rfl

theorem clearAgentContext_moves (careful : ¬ (p.custody b).Works agentId) :
    Moves (p.custody b) ((p.clearAgentContext agentId now).2.custody b) := by
  rw [clearAgentContext_eq]
  refine modifySlot_moves (contextCleared_agentId now) fun slot _ => .inr ⟨?_, careful⟩
  unfold contextCleared
  dsimp only
  split <;> rfl

theorem stopAgent_moves (p : WorkerPool) (b : BacklogState) (agentId : AgentId) (now : Moment) :
    Moves (p.custody b) ((p.stopAgent agentId now).2.custody b) := by
  rw [stopAgent_eq]
  exact modifySlot_moves (fun slot => slot.tryTransition_agentId _ _) fun _ _ => .inl rfl

/-! ### Expired requests -/

theorem expired_assignedTaskId (selection : HumanSelection) (now : Moment) (slot : PoolSlot) :
    (expired selection now slot).assignedTaskId =
      if selection = .skipped ∧ slot.status.isBlocked then none else slot.assignedTaskId := by
  unfold expired
  by_cases isBlocked : slot.status.isBlocked
  · rw [if_pos isBlocked]
    cases selection <;> simp [timeOut, isBlocked, PoolSlot.clearTask]
  · simp [isBlocked]

theorem expired_task (selection : HumanSelection) (now : Moment) (slot : PoolSlot) (taskId : TaskId)
    (assigned : (expired selection now slot).assignedTaskId = some taskId) :
    slot.assignedTaskId = some taskId := by
  rw [expired_assignedTaskId] at assigned
  split at assigned
  · cases assigned
  · exact assigned

theorem expired_isBlocked {selection : HumanSelection} {now : Moment} {slot : PoolSlot}
    (isBlocked : (expired selection now slot).status.isBlocked) : slot.status.isBlocked := by
  by_contra free
  rw [expired, if_neg free] at isBlocked
  exact free isBlocked

/-- The timeouts of these requests take no running task from a blocked agent. -/
def Spares (p : WorkerPool) (b : BacklogState) (requests : List HumanDecisionRequest) : Prop :=
  ∀ r ∈ requests, p.timeoutActionForRequest r = .skipped →
    ∀ slot, p.getSlotById r.agentId = some slot → slot.status.isBlocked → ¬ (p.custody b).Works r.agentId

variable {request : HumanDecisionRequest} {requests : List HumanDecisionRequest}

theorem expireRequest_moves (spares : p.Spares b (request :: requests)) :
    Moves (p.custody b) ((expireRequest now p request).custody b) := by
  rw [expireRequest_eq]
  refine modifySlot_moves (expired_agentId _ now) fun slot found => ?_
  rw [expired_assignedTaskId]
  split
  · next clears => exact .inr ⟨rfl, spares request List.mem_cons_self clears.1 slot found clears.2⟩
  · exact .inl rfl

theorem expireRequest_spares (spares : p.Spares b (request :: requests)) :
    (expireRequest now p request).Spares b requests := by
  intro r member skips slot found isBlocked works
  rw [expireRequest_eq] at skips found works
  have was : (p.custody b).Works r.agentId :=
    works_of_modifySlot (expired_agentId _ now) (expired_task _ now) works
  rw [getSlotById_modifySlot (expired_agentId _ now)] at found
  split at found
  · next isAgent =>
      obtain ⟨before, isBefore, rfl⟩ := Option.map_eq_some_iff.mp found
      exact spares r (List.mem_cons_of_mem _ member) skips before (isAgent ▸ isBefore)
        (expired_isBlocked isBlocked) was
  · exact spares r (List.mem_cons_of_mem _ member) skips slot found isBlocked was

theorem expireAll_moves (spares : p.Spares b requests) :
    Moves (p.custody b) ((requests.foldl (expireRequest now) p).custody b) := by
  induction requests generalizing p with
  | nil => exact .refl
  | cons request rest ih => exact (expireRequest_moves spares).trans (ih (expireRequest_spares spares))

theorem processExpiredRequests_moves
    (spares : p.Spares b (p.humanQueue.allRequests.filter fun r => r.expiresAt < now.utc)) :
    Moves (p.custody b) ((p.processExpiredRequests now).2.custody b) :=
  expireAll_moves (p := { p with humanQueue := (p.humanQueue.checkExpired now.utc).2 }) spares

/-! ### Actions of the decision layer -/

variable {action : DecisionAction} {actions : List DecisionAction}

theorem ActionEffect.moves {p' : WorkerPool} (effect : p.ActionEffect agentId action now p')
    (careful : action.actionType = "confirm_completion" → ¬ (p.custody b).Works agentId) :
    Moves (p.custody b) (p'.custody b) ∧ ((p'.custody b).Works agentId → (p.custody b).Works agentId) := by
  cases effect with
  | told _ _ agent _ task =>
      have same : (p.modifySlot agentId _).custody b = p.custody b :=
          custody_same agent fun slot _ => task slot
      rw [same]
      exact ⟨.refl, id⟩
  | nothing => exact ⟨.refl, id⟩
  | answered =>
      have same : (p.modifySlot agentId (·.tryTransition .idle now)).custody b = p.custody b :=
        custody_same (fun slot => slot.tryTransition_agentId _ _) fun _ _ => rfl
      exact ⟨same ▸ .refl, fun works => same ▸ works⟩
  | moved _ _ agent _ task =>
      rcases task with ⟨isConfirm, cleared⟩ | task
      · exact ⟨modifySlot_moves agent fun slot _ => .inr ⟨cleared slot, careful isConfirm⟩,
          works_of_modifySlot agent fun slot taskId assigned => by simp [cleared] at assigned⟩
      · have same : (p.modifySlot agentId _).custody b = p.custody b :=
          custody_same agent fun slot _ => task slot
        rw [same]
        exact ⟨.refl, id⟩

theorem executeActions_moves
    (careful : (∃ action ∈ actions, action.actionType = "confirm_completion") → ¬ (p.custody b).Works agentId) :
    Moves (p.custody b) ((executeActions agentId now p actions).2.custody b) := by
  induction actions generalizing p with
  | nil => exact .refl
  | cons action rest ih =>
      obtain ⟨moves, works⟩ := (p.executeAction_effect agentId action now).moves fun isConfirm =>
        careful ⟨action, List.mem_cons_self, isConfirm⟩
      refine moves.trans (ih ?_)
      rintro ⟨other, member, isConfirm⟩ worksAfter
      exact careful ⟨other, List.mem_cons_of_mem _ member, isConfirm⟩ (works worksAfter)

theorem executeDecisionAction_moves
    (careful : ∀ slot, p.getSlotById agentId = some slot →
      slot.status.isBlocked ∨ slot.status.isIdle ∨ slot.status.isWaitingForInput →
      (∃ action ∈ actions, action.actionType = "confirm_completion") → ¬ (p.custody b).Works agentId) :
    Moves (p.custody b) ((p.executeDecisionAction agentId actions now).2.custody b) := by
  unfold executeDecisionAction
  split
  · exact .refl
  · next slot found =>
      split
      · exact .refl
      · next gate =>
          split
          · exact .refl
          · refine executeActions_moves (careful slot found ?_)
            cases isBlocked : slot.status.isBlocked <;> cases isIdle : slot.status.isIdle <;> simp_all

end WorkerPool

open WorkerPool

/-! ## Runs -/

/-- The calls that assign tasks, end them, or change an agent that may hold one. -/
def PoolCall.handlesTasks : PoolCall → Bool
  | .assignTaskWithBacklog .. | .autoAssignTask | .completeTaskWithBacklog .. | .processAgentBlocked ..
  | .processHumanResponse _ | .processExpiredRequests | .executeDecisionAction .. | .clearAgentContext _
  | .stopAgent _ | .removeAgent _ => true
  | _ => false

namespace PoolState

/-- The agent holds a task that runs. -/
def Works (s : PoolState) (agentId : AgentId) : Prop :=
  ∃ slot task, s.pool.getSlotById agentId = some slot ∧ slot.assignedTaskId = some task.id ∧
    s.backlog.findTask task.id = some task ∧ task.status = .running

/-- The call clears, overwrites or removes no slot with a task that runs. -/
def Careful (s : PoolState) (event : PoolCall × Moment) : Prop :=
  match event.1 with
  | .assignTaskWithBacklog agentId taskId => s.backlog.canAssignTask taskId →
      ∀ slot, s.pool.getSlotById agentId = some slot → slot.status.eq .idle → ¬ s.Works agentId
  | .autoAssignTask => ∀ agentId task, s.pool.findIdleAgentId = some agentId →
      s.backlog.readyTasks.head? = some task → ¬ s.Works agentId
  -- the task of the blocked agent goes to the first other agent that is idle
  | .processAgentBlocked agentId blockedState description _ withBacklog => withBacklog →
      s.pool.blockedHandler.config.taskPolicy = .reassignIfPossible → s.Works agentId →
      ∀ slot, s.pool.getSlotById agentId = some slot →
      slot.status.canTransitionTo (blockedStatus blockedState description event.2) →
      ∀ idle, (s.pool.slots.find? fun slot => slot.agentId ≠ agentId && slot.status.eq .idle) = some idle →
        ¬ s.Works idle.agentId
  | .processHumanResponse response => response.selection = .skipped →
      (s.pool.humanQueue.findAndRemove response.requestId).1.isSome →
      ∀ slot, s.pool.getSlotById s.pool.headAgent = some slot → slot.status.isBlocked →
        slot.status.isResting = false → ¬ s.Works s.pool.headAgent
  | .processExpiredRequests => ∀ r ∈ s.pool.humanQueue.allRequests, r.expiresAt < event.2.utc →
      s.pool.timeoutActionForRequest r = .skipped →
      ∀ slot, s.pool.getSlotById r.agentId = some slot → slot.status.isBlocked → ¬ s.Works r.agentId
  | .executeDecisionAction agentId actions => ∀ slot, s.pool.getSlotById agentId = some slot →
      slot.status.isBlocked ∨ slot.status.isIdle ∨ slot.status.isWaitingForInput →
      (∃ action ∈ actions, action.actionType = "confirm_completion") → ¬ s.Works agentId
  | .clearAgentContext agentId => ¬ s.Works agentId
  | .removeAgent agentId => ∀ slot, s.pool.getSlotById agentId = some slot → slot.status.isTerminal →
      ¬ s.Works agentId
  | _ => True

def custody (s : PoolState) : Custody.State AgentId TaskId := s.pool.custody s.backlog

theorem works_iff (s : PoolState) (agentId : AgentId) :
    (s.pool.custody s.backlog).Works agentId ↔ s.Works agentId := by
  constructor
  · rintro ⟨taskId, holds, runs⟩
    obtain ⟨slot, found, assigned⟩ := Option.bind_eq_some_iff.mp holds
    obtain ⟨task, isTask, isRunning⟩ := taskPhase_running.mp runs
    obtain rfl := BacklogState.findTask_id isTask
    exact ⟨slot, task, found, assigned, isTask, isRunning⟩
  · rintro ⟨slot, task, found, assigned, isTask, isRunning⟩
    exact ⟨task.id, Option.bind_eq_some_iff.mpr ⟨slot, found, assigned⟩,
      taskPhase_running.mpr ⟨task, isTask, isRunning⟩⟩

variable [Unicode] {s : PoolState}

theorem step_moves {call : PoolCall} {now : Moment} (listed : call.handlesTasks)
    (careful : s.Careful (call, now))
    (distinct : s.pool.roster.ids.Nodup) : Moves s.custody (s.step (call, now)).2.custody := by
  unfold Careful at careful
  simp only [← works_iff] at careful
  cases call with
  | assignTaskWithBacklog => exact assignTaskWithBacklog_moves careful
  | autoAssignTask => exact autoAssignTask_moves careful
  | completeTaskWithBacklog agentId result =>
      exact completeTaskWithBacklog_moves s.pool agentId result s.backlog
  | processAgentBlocked agentId blockedState description uuid withBacklog =>
      exact processAgentBlocked_moves distinct agentId blockedState description uuid s.backlog
        withBacklog careful
  | processHumanResponse => exact processHumanResponse_moves s.backlog careful
  | processExpiredRequests =>
      refine processExpiredRequests_moves fun r member => ?_
      obtain ⟨inQueue, expired⟩ := List.mem_filter.mp member
      exact careful r inQueue (by simpa using expired)
  | executeDecisionAction => exact executeDecisionAction_moves careful
  | clearAgentContext => exact clearAgentContext_moves careful
  | stopAgent agentId => exact stopAgent_moves s.pool s.backlog agentId now
  | removeAgent => exact removeAgent_moves distinct careful
  | setProfileStore | spawnWorker | spawnWorkerWithProfile | spawnOverviewAgent | restoreSlot
  | focusAgentByIndex | focusAgent | slotOperation | clearAllBlocked => cases listed

theorem step_taskIds (s : PoolState) (event : PoolCall × Moment) :
    (s.step event).2.backlog.tasks.map TaskItem.id = s.backlog.tasks.map TaskItem.id := by
  have assigning (p : WorkerPool) (agentId : AgentId) (taskId : TaskId) (b : BacklogState) (now : Moment) :
      (p.assignTaskWithBacklog agentId taskId b now).2.2.tasks.map TaskItem.id = b.tasks.map TaskItem.id := by
    rcases p.assignTaskWithBacklog_cases agentId taskId b now with same | ⟨-, slot, -, -, assigned⟩
    · rw [same]
    · rw [assigned]
      exact BacklogState.moveTask_ids fun _ => rfl
  obtain ⟨call, now⟩ := event
  cases call with
  | assignTaskWithBacklog => exact assigning ..
  | autoAssignTask =>
      simp only [step, onBoth, autoAssignTask]
      split
      · exact assigning ..
      · rfl
  | completeTaskWithBacklog agentId result =>
      simp only [step, onBoth, completeTaskWithBacklog]
      split
      · rfl
      · split
        · rfl
        · cases result <;> exact BacklogState.moveTask_ids fun _ => rfl
  | processAgentBlocked agentId blockedState description uuid withBacklog =>
      simp only [step]
      rcases s.pool.processAgentBlocked_cases agentId blockedState description uuid
        (if withBacklog then some s.backlog else none) now with ⟨e, refused⟩ | ⟨slot, -, -, blocked⟩
      · rw [refused]
        cases withBacklog <;> rfl
      · rw [blocked]
        cases withBacklog with
        | false => rfl
        | true =>
            simp only [if_true, handleTask, Option.getD_some]
            rcases handleBlockedTask_cases _ agentId s.backlog now with
              same | ⟨_, taskId, -, -, ⟨-, -, _, _, -, -, -, handedOver⟩ | waits⟩
            · rw [same]
            · rw [handedOver]
            · rw [waits]
              exact BacklogState.moveTask_ids fun _ => rfl
  | _ => rfl

/-- Agents and tasks are told apart, and custody is sound. -/
structure Owned (s : PoolState) : Prop where
  agents : s.pool.roster.ids.Nodup
  tasks : (s.backlog.tasks.map TaskItem.id).Nodup
  sound : s.custody.Sound

theorem step_owned (s : PoolState) (event : PoolCall × Moment)
    (meets : event.1.handlesTasks ∧ s.Careful event) (owned : s.Owned) : (s.step event).2.Owned := by
  obtain ⟨call, now⟩ := event
  obtain ⟨listed, careful⟩ := meets
  have old : call.spawns = false := by cases call <;> first | rfl | cases listed
  exact ⟨step_distinct old now owned.agents, step_taskIds s (call, now) ▸ owned.tasks,
    (step_moves listed careful owned.agents).sound owned.sound⟩

end PoolState

/-- In every run whose calls clear, overwrite and remove no slot with a task that runs, each running
    task is assigned to exactly one slot, and no task to two. -/
theorem running_assigned [Unicode] (start : PoolState) (distinct : start.pool.roster.ids.Nodup)
    (fresh : ∀ slot ∈ start.pool.slots, slot.assignedTaskId = none)
    (tasks : (start.backlog.tasks.map TaskItem.id).Nodup)
    (waiting : ∀ task ∈ start.backlog.tasks, task.status ≠ .running) (calls : List (PoolCall × Moment))
    (careful : ∀ x ∈ history PoolState.step start calls, x.event.1.handlesTasks ∧ x.before.Careful x.event) :
    let s := final PoolState.step start calls
    (∀ task ∈ s.backlog.tasks, task.status = .running →
      ∃! i : Nat, ∃ slot, s.pool.slots[i]? = some slot ∧ slot.assignedTaskId = some task.id) ∧
    ∀ (i j : Nat) (slot slot' : PoolSlot) (taskId : TaskId), s.pool.slots[i]? = some slot →
      s.pool.slots[j]? = some slot' → slot.assignedTaskId = some taskId →
      slot'.assignedTaskId = some taskId → i = j := by
  intro s
  have free (agentId : AgentId) : start.pool.held agentId = none := by
    cases found : start.pool.getSlotById agentId with
    | none => simp [held, found]
    | some slot => simp [held, found, fresh slot (List.mem_of_find?_eq_some found)]
  have sound : start.custody.Sound := by
    refine ⟨fun taskId runs => ?_, fun agentId _ taskId holds => ?_, fun agentId taskId holds => ?_⟩
    · obtain ⟨task, found, isRunning⟩ := taskPhase_running.mp runs
      exact absurd isRunning (waiting task (List.mem_of_find?_eq_some found))
    · exact absurd ((free agentId).symm.trans holds) (by simp)
    · exact absurd ((free agentId).symm.trans holds) (by simp)
  obtain ⟨apart, ids, isSound⟩ : s.Owned :=
    final_invariant PoolState.step_owned ⟨distinct, tasks, sound⟩ careful
  have holds {i : Nat} {slot : PoolSlot} {taskId : TaskId} (here : s.pool.slots[i]? = some slot)
      (assigned : slot.assignedTaskId = some taskId) : s.custody.held slot.agentId = some taskId :=
    Option.bind_eq_some_iff.mpr ⟨slot, getSlotById_of_mem apart (List.mem_of_getElem? here), assigned⟩
  have single : ∀ (i j : Nat) (slot slot' : PoolSlot) (taskId : TaskId), s.pool.slots[i]? = some slot →
      s.pool.slots[j]? = some slot' → slot.assignedTaskId = some taskId →
      slot'.assignedTaskId = some taskId → i = j := by
    intro i j slot slot' taskId here there assigned assigned'
    have same := isSound.single _ _ taskId (holds here assigned) (holds there assigned')
    rw [roster_ids] at apart
    have bound : i < (s.pool.slots.map fun slot => slot.agentId).length := by
      simpa using (List.getElem?_eq_some_iff.mp here).1
    exact (List.getElem?_inj bound apart).mp (by simp [here, there, same])
  refine ⟨fun task member isRunning => ?_, single⟩
  obtain ⟨agentId, held⟩ := isSound.owned task.id
    (taskPhase_running.mpr ⟨task, BacklogState.findTask_of_mem ids member, isRunning⟩)
  obtain ⟨slot, found, assigned⟩ := Option.bind_eq_some_iff.mp held
  have here := (getSlotById_index found).1
  refine ⟨_, ⟨slot, here, assigned⟩, ?_⟩
  rintro j ⟨slot', there, assigned'⟩
  exact single j _ slot' slot task.id there here assigned' assigned

section

open Plain

/-- A pool with one new agent, and one task that is ready. -/
def oneAgent : PoolState :=
  ⟨((WorkerPool.create 4).spawnWorker ⟨0, 0⟩).2,
    { tasks := [⟨"task-1", "todo-1", "", "", [], [], .ready, none⟩] }⟩

/-- The agent gets the task. -/
def oneAssigned : List (PoolCall × Moment) := [(.assignTaskWithBacklog "agent_001" "task-1", ⟨1, 1⟩)]

theorem oneAgent_free : ∀ slot ∈ oneAgent.pool.slots, slot.assignedTaskId = none := by decide

theorem oneAssigned_assigned :
    let s := final PoolState.step oneAgent oneAssigned
    (∀ task ∈ s.backlog.tasks, task.status = .running →
      ∃! i : Nat, ∃ slot, s.pool.slots[i]? = some slot ∧ slot.assignedTaskId = some task.id) ∧
    ∀ (i j : Nat) (slot slot' : PoolSlot) (taskId : TaskId), s.pool.slots[i]? = some slot →
      s.pool.slots[j]? = some slot' → slot.assignedTaskId = some taskId →
      slot'.assignedTaskId = some taskId → i = j := by
  refine running_assigned oneAgent (by decide) oneAgent_free (by decide) (by decide) oneAssigned
    fun x member => ?_
  obtain rfl := List.mem_singleton.mp member
  refine ⟨rfl, fun _ _ _ _ => ?_⟩
  rintro ⟨slot, task, found, assigned, -⟩
  rw [oneAgent_free slot (List.mem_of_find?_eq_some found)] at assigned
  cases assigned

/-- The agent is blocked for a human, who skips the decision: nobody has the running task. -/
theorem skipped_task_lost : ¬ ∀ (start : PoolState) (calls : List (PoolCall × Moment)),
    start.pool.roster.ids.Nodup → (∀ slot ∈ start.pool.slots, slot.assignedTaskId = none) →
    (start.backlog.tasks.map TaskItem.id).Nodup → (∀ task ∈ start.backlog.tasks, task.status ≠ .running) →
    (∀ x ∈ history PoolState.step start calls, x.event.1.handlesTasks) →
    let s := final PoolState.step start calls
    (∀ task ∈ s.backlog.tasks, task.status = .running →
      ∃! i : Nat, ∃ slot, s.pool.slots[i]? = some slot ∧ slot.assignedTaskId = some task.id) ∧
    ∀ (i j : Nat) (slot slot' : PoolSlot) (taskId : TaskId), s.pool.slots[i]? = some slot →
      s.pool.slots[j]? = some slot' → slot.assignedTaskId = some taskId →
      slot'.assignedTaskId = some taskId → i = j := by
  intro all
  let calls := oneAssigned ++
    [(.processAgentBlocked "agent_001" ⟨"human_decision", .high, none, {}, none⟩ "" "1" true, ⟨2, 2⟩),
      (.processHumanResponse ⟨"req-agent_001-1", .skipped, 3, 0⟩, ⟨3, 3⟩)]
  have assigned := (all oneAgent calls (by decide) oneAgent_free (by decide) (by decide) (by decide)).1
  have runs : ∃ task ∈ (final PoolState.step oneAgent calls).backlog.tasks,
      task.status = .running := by decide
  have lost : ∀ slot ∈ (final PoolState.step oneAgent calls).pool.slots,
      slot.assignedTaskId = none := by decide
  obtain ⟨task, member, isRunning⟩ := runs
  obtain ⟨i, ⟨slot, here, holds⟩, -⟩ := assigned task member isRunning
  rw [lost slot (List.mem_of_getElem? here)] at holds
  cases holds

end

end AgileAgent.Core
