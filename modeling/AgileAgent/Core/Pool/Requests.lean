import AgileAgent.Core.Pool.Effects

/-! # Requests in a run

Requests enter the queue when an agent is blocked and leave it otherwise. As uuids differ, so
do the ids of the requests, and the index of the queue leads to all of them.
-/

namespace AgileAgent.Core

open Backlog RuntimeDomain
open Machine (final final_snoc)

namespace HumanDecisionQueue

/-- Requests only leave. -/
structure Shrinks (before after : HumanDecisionQueue) : Prop where
  indexed : before.Indexed → after.Indexed
  sublist : before.Indexed → after.allRequests.Sublist before.allRequests

theorem Shrinks.refl (q : HumanDecisionQueue) : q.Shrinks q := ⟨id, fun _ => .refl _⟩

theorem Shrinks.of_eq {q q' : HumanDecisionQueue} (same : q' = q) : q.Shrinks q' := same ▸ .refl q

theorem Shrinks.trans {first second third : HumanDecisionQueue} (left : first.Shrinks second)
    (right : second.Shrinks third) : first.Shrinks third where
  indexed := fun indexed => right.indexed (left.indexed indexed)
  sublist := fun indexed => (right.sublist (left.indexed indexed)).trans (left.sublist indexed)

theorem complete_shrinks (q : HumanDecisionQueue) (response : HumanDecisionResponse) :
    q.Shrinks (q.complete response).2 where
  indexed := fun indexed => complete_indexed indexed response
  sublist := fun indexed => by
    rw [complete_allRequests indexed]
    exact List.filter_sublist

theorem checkExpired_shrinks (q : HumanDecisionQueue) (now : Int) : q.Shrinks (q.checkExpired now).2 where
  indexed := fun indexed => checkExpired_indexed indexed now
  sublist := fun indexed => by
    rw [checkExpired_allRequests indexed]
    exact List.filter_sublist

end HumanDecisionQueue

open HumanDecisionQueue

namespace WorkerPool

theorem assignTaskWithBacklog_queue (p : WorkerPool) (agentId : AgentId) (taskId : TaskId)
    (b : BacklogState) (now : Moment) :
    (p.assignTaskWithBacklog agentId taskId b now).2.1.humanQueue = p.humanQueue := by
  unfold assignTaskWithBacklog
  split
  · split
    · rfl
    · split <;> rfl
  · rfl

theorem reassignTask_queue (p : WorkerPool) (agentId : AgentId) (taskId : TaskId) (b : BacklogState)
    (now : Moment) : (p.reassignTask agentId taskId b now).humanQueue = p.humanQueue := by
  unfold reassignTask
  split
  · rfl
  · split
    · split
      · rfl
      · split <;> rfl
    · rfl

theorem handleBlockedTask_queue (p : WorkerPool) (agentId : AgentId) (b : BacklogState) (now : Moment) :
    (p.handleBlockedTask agentId b now).1.humanQueue = p.humanQueue := by
  unfold handleBlockedTask
  split
  · rfl
  · split
    · rfl
    · exact reassignTask_queue ..
    · rfl

variable [Unicode]

theorem processHumanResponse_queue (p : WorkerPool) (response : HumanDecisionResponse) (now : Moment) :
    (p.processHumanResponse response now).2.humanQueue = (p.humanQueue.complete response).2 := by
  unfold processHumanResponse
  split
  · next completed => rw [completed]
  · next completed =>
      rw [unblockAgent_eq, completed]
      rfl

theorem executeAction_shrinks (p : WorkerPool) (workAgentId : AgentId) (action : DecisionAction)
    (now : Moment) : p.humanQueue.Shrinks (p.executeAction workAgentId action now).2.humanQueue := by
  unfold executeAction
  split
  · unfold executeSelectOption
    split
    · exact complete_shrinks _ _
    · exact .refl _
  · unfold executeSkip
    split
    · exact complete_shrinks _ _
    · exact .refl _
  · exact .refl _
  · exact .refl _
  · exact .refl _
  · exact .refl _
  · exact .refl _
  · exact .refl _
  · unfold executeContinueAllTasks
    split
    · exact .refl _
    · dsimp only
      split <;> exact .refl _
  · exact .refl _
  · unfold executePrepareTaskStart
    split <;> exact .refl _
  · exact .refl _

theorem executeDecisionAction_shrinks (p : WorkerPool) (workAgentId : AgentId)
    (actions : List DecisionAction) (now : Moment) :
    p.humanQueue.Shrinks (p.executeDecisionAction workAgentId actions now).2.humanQueue := by
  have executing (actions : List DecisionAction) (start : WorkerPool) :
      start.humanQueue.Shrinks (executeActions workAgentId now start actions).2.humanQueue := by
    induction actions generalizing start with
    | nil => exact .refl _
    | cons action rest ih => exact (executeAction_shrinks start workAgentId action now).trans (ih _)
  unfold executeDecisionAction
  split
  · exact .refl _
  · split
    · exact .refl _
    · split
      · exact .refl _
      · exact executing actions p

theorem expireRequest_queue (now : Moment) (p : WorkerPool) (request : HumanDecisionRequest) :
    (expireRequest now p request).humanQueue = p.humanQueue := by
  unfold expireRequest executeTimeoutAction
  dsimp only
  split
  · rfl
  · split <;> rfl

theorem processExpiredRequests_queue (p : WorkerPool) (now : Moment) :
    (p.processExpiredRequests now).2.humanQueue = (p.humanQueue.checkExpired now.utc).2 := by
  have expiring (requests : List HumanDecisionRequest) (start : WorkerPool) :
      (requests.foldl (expireRequest now) start).humanQueue = start.humanQueue := by
    induction requests generalizing start with
    | nil => rfl
    | cons request rest ih => exact (ih _).trans (expireRequest_queue now start request)
  exact expiring _ _

/-- An agent that is blocked files a request, if a human is to decide. -/
theorem processAgentBlocked_queue (p : WorkerPool) (agentId : AgentId) (blockedState : BlockedState)
    (description uuid : String) (b : Option BacklogState) (now : Moment) :
    (p.processAgentBlocked agentId blockedState description uuid b now).2.1.humanQueue = p.humanQueue ∨
      (p.processAgentBlocked agentId blockedState description uuid b now).2.1.humanQueue =
        p.humanQueue.push (p.buildHumanRequest agentId blockedState description uuid now) := by
  unfold processAgentBlocked
  split
  · exact .inl rfl
  · dsimp only
    split
    · exact .inl rfl
    · split <;> (try rw [handleBlockedTask_queue]) <;> dsimp only [registerBlocked] <;> split
      · exact .inr rfl
      · exact .inl rfl
      · exact .inr rfl
      · exact .inl rfl

end WorkerPool

open WorkerPool

theorem PoolState.step_queue [Unicode] (s : PoolState) (call : PoolCall) (now : Moment) :
    s.pool.humanQueue.Shrinks (s.step (call, now)).2.pool.humanQueue ∨
      ∃ agentId blockedState description uuid withBacklog,
        call = .processAgentBlocked agentId blockedState description uuid withBacklog ∧
        (s.step (call, now)).2.pool.humanQueue = s.pool.humanQueue.push
          (s.pool.buildHumanRequest agentId blockedState description uuid now) := by
  cases call with
  | setProfileStore => exact .inl (.refl _)
  | spawnWorker =>
      refine .inl (.of_eq ?_)
      simp only [step, onPool, spawnWorker]
      split <;> rfl
  | spawnWorkerWithProfile =>
      refine .inl (.of_eq ?_)
      simp only [step, onPool, spawnWorkerWithProfile]
      split
      · rfl
      · split
        · rfl
        · split <;> rfl
  | spawnOverviewAgent =>
      refine .inl (.of_eq ?_)
      simp only [step, onPool, spawnOverviewAgent]
      split
      · rfl
      · split <;> rfl
  | restoreSlot =>
      refine .inl (.of_eq ?_)
      simp only [step, onPool, restoreSlot]
      split
      · rfl
      · split
        · rfl
        · split <;> rfl
  | stopAgent =>
      refine .inl (.of_eq ?_)
      simp only [step, onPool, stopAgent_eq]
      rfl
  | removeAgent =>
      refine .inl (.of_eq ?_)
      simp only [step, onPool, removeAgent]
      split
      · rfl
      · split <;> rfl
  | focusAgentByIndex =>
      refine .inl (.of_eq ?_)
      simp only [step, onPool, focusAgentByIndex]
      split <;> rfl
  | focusAgent =>
      refine .inl (.of_eq ?_)
      simp only [step, onPool, focusAgent, focusAgentByIndex]
      split
      · rfl
      · split <;> rfl
  | slotOperation =>
      refine .inl (.of_eq ?_)
      simp only [step, onPool, slotOperation]
      split <;> rfl
  | assignTaskWithBacklog => exact .inl (.of_eq (assignTaskWithBacklog_queue ..))
  | completeTaskWithBacklog =>
      refine .inl (.of_eq ?_)
      simp only [step, onBoth, completeTaskWithBacklog]
      split
      · rfl
      · split <;> rfl
  | autoAssignTask =>
      refine .inl (.of_eq ?_)
      simp only [step, onBoth, autoAssignTask]
      split
      · exact assignTaskWithBacklog_queue ..
      · rfl
  | processAgentBlocked agentId blockedState description uuid withBacklog =>
      rcases processAgentBlocked_queue s.pool agentId blockedState description uuid
        (if withBacklog then some s.backlog else none) now with same | pushed
      · exact .inl (.of_eq same)
      · exact .inr ⟨agentId, blockedState, description, uuid, withBacklog, rfl, pushed⟩
  | processHumanResponse response =>
      refine .inl ?_
      simp only [step, onPool, processHumanResponse_queue]
      exact complete_shrinks _ _
  | executeDecisionAction => exact .inl (executeDecisionAction_shrinks ..)
  | clearAllBlocked => exact .inl (checkExpired_shrinks _ _)
  | clearAgentContext =>
      refine .inl (.of_eq ?_)
      simp only [step, onPool, clearAgentContext]
      split
      · rfl
      · split <;> rfl
  | processExpiredRequests =>
      refine .inl ?_
      simp only [step, onPool, processExpiredRequests_queue]
      exact checkExpired_shrinks _ _

/-! ## Ids of requests -/

/-- The uuid a call is given. -/
def PoolCall.uuid : PoolCall → Option String
  | .processAgentBlocked _ _ _ uuid _ => some uuid
  | _ => none

def uuids (calls : List (PoolCall × Moment)) : List String := calls.filterMap fun event => event.1.uuid

/-- Generated uuids have the same length and do not repeat. -/
structure UniqueUuids (calls : List (PoolCall × Moment)) : Prop where
  distinct : (uuids calls).Nodup
  length : ∀ uuid ∈ uuids calls, uuid.length = 36

theorem uuids_append (first second : List (PoolCall × Moment)) :
    uuids (first ++ second) = uuids first ++ uuids second :=
  List.filterMap_append

theorem UniqueUuids.snoc {calls : List (PoolCall × Moment)} {event : PoolCall × Moment}
    (unique : UniqueUuids (calls ++ [event])) :
    UniqueUuids calls ∧ ∀ uuid ∈ uuids [event], uuid ∉ uuids calls := by
  have distinct := unique.distinct
  rw [uuids_append] at distinct
  refine ⟨⟨distinct.of_append_left, fun uuid member => unique.length uuid ?_⟩, ?_⟩
  · rw [uuids_append]
    exact List.mem_append_left _ member
  · intro uuid member earlier
    exact List.disjoint_of_nodup_append distinct earlier member

theorem requestId_injective {first second : AgentId} {uuid uuid' : String}
    (length : uuid.length = uuid'.length) (same : requestId first uuid = requestId second uuid') :
    uuid = uuid' := by
  have letters := congrArg String.toList same
  simp only [requestId, String.toList_append] at letters
  exact String.toList_injective (List.append_inj_right' letters length)

/-- The index is right, and every request has its id from a uuid of the run. -/
theorem PoolState.final_indexed [Unicode] {start : PoolState} (empty : start.pool.humanQueue = {})
    (calls : List (PoolCall × Moment)) (unique : UniqueUuids calls) :
    (final step start calls).pool.humanQueue.Indexed ∧
      ∀ r ∈ (final step start calls).pool.humanQueue.allRequests,
        ∃ agentId, ∃ uuid ∈ uuids calls, r.id = requestId agentId uuid := by
  induction calls using List.reverseRecOn with
  | nil =>
      have none : (final step start []).pool.humanQueue = {} := empty
      rw [none]
      exact ⟨indexed_empty, fun r member => by simp [allRequests] at member⟩
  | append_singleton calls event ih =>
      obtain ⟨earlier, new⟩ := unique.snoc
      obtain ⟨indexed, named⟩ := ih earlier
      have kept : ∀ r ∈ (final step start calls).pool.humanQueue.allRequests,
          ∃ agentId, ∃ uuid ∈ uuids (calls ++ [event]), r.id = requestId agentId uuid := by
        intro r member
        obtain ⟨agentId, uuid, listed, isId⟩ := named r member
        exact ⟨agentId, uuid, by simp [uuids_append, listed], isId⟩
      obtain ⟨call, now⟩ := event
      rw [final_snoc]
      rcases step_queue (final step start calls) call now with shrinks | pushed
      · exact ⟨shrinks.indexed indexed, fun r member => kept r ((shrinks.sublist indexed).subset member)⟩
      · obtain ⟨agentId, blockedState, description, uuid, withBacklog, rfl, pushed⟩ := pushed
        have listed : uuid ∈ uuids (calls ++ [(.processAgentBlocked agentId blockedState description
            uuid withBacklog, now)]) := by simp [uuids, PoolCall.uuid]
        have fresh : ∀ r ∈ (final step start calls).pool.humanQueue.allRequests,
            r.id ≠ requestId agentId uuid := by
          intro r member same
          obtain ⟨other, uuid', earlier, isId⟩ := named r member
          have length := (unique.length uuid' (by simp [uuids_append, earlier])).trans
            (unique.length uuid listed).symm
          have isUuid := requestId_injective length (isId.symm.trans same)
          exact new uuid (by simp [uuids, PoolCall.uuid]) (isUuid ▸ earlier)
        rw [pushed]
        refine ⟨push_indexed indexed fresh, fun r member => ?_⟩
        rcases List.mem_cons.mp ((push_perm _ _).mem_iff.mp member) with rfl | inQueue
        · exact ⟨agentId, uuid, listed, rfl⟩
        · exact kept r inQueue

end AgileAgent.Core
