import Mathlib.Data.List.Count
import AgileAgent.Core.Pool.Responses

/-! # Pending requests

A request waits for its agent's decision while the agent is blocked for it. Slots and queue are
changed by different calls, and most of those that take an agent on leave the queue alone.
-/

namespace AgileAgent.Core

open Backlog RuntimeDomain
open Machine (final final_snoc history history_snoc)

namespace HumanDecisionQueue

/-- How many requests of an agent are pending. -/
def pendingOf (q : HumanDecisionQueue) (agentId : AgentId) : Nat :=
  q.allRequests.countP fun r => r.agentId = agentId

variable {q : HumanDecisionQueue} {r : HumanDecisionRequest} {agentId : AgentId}

theorem pendingOf_pos : 0 < q.pendingOf agentId ↔ ∃ r ∈ q.allRequests, r.agentId = agentId := by
  simp [pendingOf]

theorem pendingOf_push (q : HumanDecisionQueue) (request : HumanDecisionRequest) (agentId : AgentId) :
    (q.push request).pendingOf agentId =
      q.pendingOf agentId + if request.agentId = agentId then 1 else 0 := by
  simp [pendingOf, (q.push_perm request).countP_eq, List.countP_cons]

theorem pendingOf_complete (indexed : q.Indexed) {response : HumanDecisionResponse}
    (member : r ∈ q.allRequests) (isId : r.id = response.requestId) (agentId : AgentId) :
    (q.complete response).2.pendingOf agentId =
      q.pendingOf agentId - if r.agentId = agentId then 1 else 0 := by
  rw [pendingOf, complete_erase indexed member isId, List.countP_erase]
  simp [pendingOf, member]

theorem findByAgentId_none : q.findByAgentId agentId = none ↔ q.pendingOf agentId = 0 := by
  simp [findByAgentId_eq, pendingOf]

theorem findByAgentId_some (found : q.findByAgentId agentId = some r) :
    r ∈ q.allRequests ∧ r.agentId = agentId := by
  rw [findByAgentId_eq] at found
  exact ⟨List.mem_of_find?_eq_some found, by simpa using List.find?_some found⟩

end HumanDecisionQueue

open HumanDecisionQueue

namespace WorkerPool

/-- The agent's slot waits for the decision of a human. -/
def awaitsHuman (p : WorkerPool) (agentId : AgentId) : Bool :=
  (p.getSlotById agentId).any fun slot => slot.status.awaitsHuman

variable {p : WorkerPool} {agentId other : AgentId} {change : PoolSlot → PoolSlot}

theorem awaitsHuman_modifySlot (agent : ∀ slot, (change slot).agentId = slot.agentId) (other : AgentId) :
    (p.modifySlot agentId change).awaitsHuman other =
      if other = agentId then (p.getSlotById agentId).any fun slot => (change slot).status.awaitsHuman
      else p.awaitsHuman other := by
  rw [awaitsHuman, getSlotById_modifySlot agent]
  split
  · rw [Option.any_map]
  · rfl

theorem awaitsHuman_same (agent : ∀ slot, (change slot).agentId = slot.agentId)
    (status : ∀ slot, (change slot).status = slot.status) (other : AgentId) :
    (p.modifySlot agentId change).awaitsHuman other = p.awaitsHuman other := by
  rw [awaitsHuman_modifySlot agent]
  split
  · next isAgent => simp [isAgent, awaitsHuman, status]
  · rfl

/-- A change after which the slot waits no more. -/
theorem awaitsHuman_released (agent : ∀ slot, (change slot).agentId = slot.agentId)
    (released : ∀ slot, (change slot).status.awaitsHuman = false) (other : AgentId) :
    (p.modifySlot agentId change).awaitsHuman other = (p.awaitsHuman other && other ≠ agentId) := by
  rw [awaitsHuman_modifySlot agent]
  split
  · next isAgent => cases found : p.getSlotById agentId <;> simp [isAgent, released]
  · next differs => simp [differs]

/-- What a call can leave of the requests of an agent and of its wait for an answer. -/
inductive Outcome (p : WorkerPool) (agentId : AgentId) (p' : WorkerPool) : Prop where
  | same (pending : p'.humanQueue.pendingOf agentId = p.humanQueue.pendingOf agentId)
      (awaits : p'.awaitsHuman agentId = p.awaitsHuman agentId)
  | settled (pending : p'.humanQueue.pendingOf agentId = 0) (awaits : p'.awaitsHuman agentId = false)

/-- An agent has one request at most, and waits if it has one. -/
structure Matched (p : WorkerPool) (agentId : AgentId) : Prop where
  single : p.humanQueue.pendingOf agentId ≤ 1
  awaits : 0 < p.humanQueue.pendingOf agentId → p.awaitsHuman agentId

variable {p' : WorkerPool}

/-- A slot waits no more, and has no request. -/
theorem outcome_modifySlot (noRequest : p.humanQueue.pendingOf agentId = 0)
    (agent : ∀ slot, (change slot).agentId = slot.agentId)
    (released : ∀ slot, (change slot).status.awaitsHuman = false) (other : AgentId) :
    p.Outcome other (p.modifySlot agentId change) := by
  have awaits : ∀ other, (p.modifySlot agentId change).awaitsHuman other =
      (p.awaitsHuman other && other ≠ agentId) := awaitsHuman_released agent released
  by_cases isAgent : other = agentId
  · exact .settled (isAgent ▸ noRequest) ((awaits other).trans (by simp [isAgent]))
  · exact .same rfl ((awaits other).trans (by simp [isAgent]))

theorem Matched.outcome (matched : p.Matched agentId) (outcome : p.Outcome agentId p') :
    p'.Matched agentId := by
  cases outcome with
  | same pending awaits =>
      exact ⟨pending ▸ matched.single, fun some => awaits ▸ matched.awaits (pending ▸ some)⟩
  | settled pending => exact ⟨by omega, fun some => by omega⟩

/-! ## The operations -/

theorem removeAgent_outcome (distinct : p.roster.ids.Nodup) (matched : p.Matched agentId) (now : Moment)
    (other : AgentId) : p.Outcome other (p.removeAgent agentId now).2 := by
  rcases removeAgent_cases distinct agentId now with same | ⟨slot, found, terminal, queue, left⟩
  · rw [same]
    exact .same rfl rfl
  · by_cases isAgent : other = agentId
    · have stopped : p.awaitsHuman agentId = false := by
        cases isStatus : slot.status <;>
          simp_all [awaitsHuman, AgentSlotStatus.isTerminal, AgentSlotStatus.awaitsHuman]
      have none : ¬ 0 < p.humanQueue.pendingOf agentId := fun some => by
        simp [matched.awaits some] at stopped
      exact .settled (by rw [queue, isAgent]; omega) (by simp [awaitsHuman, left, isAgent])
    · exact .same (by rw [queue]) (by simp [awaitsHuman, left, isAgent])

theorem restoreSlot_outcome (slot : PoolSlot) (other : AgentId) :
    p.Outcome other (p.restoreSlot slot).2 ∨ p.getSlotById other = none ∧
      (p.restoreSlot slot).2.humanQueue = p.humanQueue := by
  rcases p.restoreSlot_cases slot with same | ⟨missing, queue, found⟩
  · rw [same]
    exact .inl (.same rfl rfl)
  · by_cases isAgent : other = slot.agentId
    · exact .inr ⟨isAgent ▸ missing, queue⟩
    · exact .inl (.same (by rw [queue]) (by simp [awaitsHuman, found, isAgent]))

theorem handleBlockedTask_awaitsHuman (p : WorkerPool) (agentId : AgentId) (b : BacklogState) (now : Moment)
    (other : AgentId) : (p.handleBlockedTask agentId b now).1.awaitsHuman other = p.awaitsHuman other := by
  rcases p.handleBlockedTask_cases agentId b now with same | ⟨slot, taskId, -, -, handedOver | waits⟩
  · rw [same]
  · obtain ⟨-, -, idleAgent, idle, -, -, -, handedOver⟩ := handedOver
    rw [handedOver, awaitsHuman_same, awaitsHuman_same] <;> intro slot
    · exact slot.tryAssign_agentId taskId now
    · exact slot.tryAssign_status taskId now
    · rfl
    · rfl
  · rw [waits]

theorem blockedStatus_awaitsHuman (blockedState : BlockedState) (description : String) (now : Moment) :
    (blockedStatus blockedState description now).awaitsHuman =
      decide (blockedState.reasonType = "human_decision") := by
  unfold blockedStatus
  split
  · next limited =>
      have other : blockedState.reasonType ≠ "human_decision" := by
        intro isHuman
        simp [isRateLimit, isHuman] at limited
      simp [AgentSlotStatus.awaitsHuman, other]
  · simp [AgentSlotStatus.awaitsHuman]

variable [Unicode] {now : Moment} {response : HumanDecisionResponse}

/-- An agent without a request gets one when it is blocked for a human's decision. -/
theorem processAgentBlocked_outcome (agentId : AgentId) (blockedState : BlockedState)
    (description uuid : String) (b : Option BacklogState)
    (tidy : ∀ slot, p.getSlotById agentId = some slot →
      slot.status.canTransitionTo (blockedStatus blockedState description now) →
      p.humanQueue.pendingOf agentId = 0) :
    let outcome := p.processAgentBlocked agentId blockedState description uuid b now
    ((∃ e, outcome.1 = .error e) ∧ outcome.2.1 = p) ∨
      ((∀ other ≠ agentId, p.Outcome other outcome.2.1) ∧
        (outcome.2.1.humanQueue.pendingOf agentId = 1 ∧ outcome.2.1.awaitsHuman agentId ∨
          outcome.2.1.humanQueue.pendingOf agentId = 0 ∧ outcome.2.1.awaitsHuman agentId = false)) := by
  intro outcome
  rcases p.processAgentBlocked_cases agentId blockedState description uuid b now with
    ⟨e, refused⟩ | ⟨slot, found, allowed, blocked⟩
  · exact .inl ⟨⟨e, by simp [outcome, refused]⟩, by simp [outcome, refused]⟩
  · have none := tidy slot found allowed
    have queue : outcome.2.1.humanQueue =
        (p.registerBlocked agentId blockedState description uuid now).humanQueue := by
      simp only [outcome, blocked, handleTask]
      cases b with
      | none => rfl
      | some backlog => exact handleBlockedTask_queue ..
    have pending (other : AgentId) : outcome.2.1.humanQueue.pendingOf other = p.humanQueue.pendingOf other +
        if agentId = other ∧ blockedState.reasonType = "human_decision" then 1 else 0 := by
      rw [queue, registerBlocked]
      by_cases isHuman : blockedState.reasonType = "human_decision"
      · simp only [isHuman, if_true, and_true]
        exact pendingOf_push ..
      · simp [isHuman]
    have awaits (other : AgentId) : outcome.2.1.awaitsHuman other =
        if other = agentId then decide (blockedState.reasonType = "human_decision")
        else p.awaitsHuman other := by
      have handled : outcome.2.1.awaitsHuman other = (p.modifySlot agentId
          (·.tryTransition (blockedStatus blockedState description now) now)).awaitsHuman other := by
        simp only [outcome, blocked, handleTask]
        cases b with
        | none => rfl
        | some backlog => exact handleBlockedTask_awaitsHuman ..
      rw [handled, awaitsHuman_modifySlot fun slot => slot.tryTransition_agentId _ _]
      simp [found, PoolSlot.tryTransition_status, allowed, blockedStatus_awaitsHuman]
    refine .inr ⟨fun other differs => .same ?_ ?_, ?_⟩
    · simp [pending, Ne.symm differs]
    · simp [awaits, differs]
    · by_cases isHuman : blockedState.reasonType = "human_decision"
      · exact .inl ⟨by simp [pending, none, isHuman], by simp [awaits, isHuman]⟩
      · exact .inr ⟨by simp [pending, none, isHuman], by simp [awaits, isHuman]⟩

theorem answered_awaitsHuman (selection : HumanSelection) (now : Moment) (slot : PoolSlot) :
    (answered selection now slot).status.awaitsHuman = false := by
  by_contra awaits
  rw [Bool.not_eq_false] at awaits
  have ⟨isBlocked, active⟩ := AgentSlotStatus.awaitsHuman_blocked awaits
  by_cases was : slot.status.isBlocked ∧ slot.status.isResting = false
  · rw [answered_status was.1 was.2] at isBlocked
    cases isBlocked
  · rw [answered_resting fun blocked => by simpa [blocked] using was] at isBlocked active
    exact was ⟨isBlocked, active⟩

theorem processHumanResponse_outcome (indexed : p.humanQueue.Indexed)
    (matched : ∀ agentId, p.Matched agentId)
    (tidy : ∀ r ∈ p.humanQueue.allRequests, r.id = response.requestId →
      ∀ head, p.humanQueue.peek = some head → head.agentId = r.agentId) (other : AgentId) :
    p.Outcome other (p.processHumanResponse response now).2 := by
  by_cases known : ∃ r ∈ p.humanQueue.allRequests, r.id = response.requestId
  · obtain ⟨r, member, isId⟩ := known
    obtain ⟨head, first⟩ : ∃ head, p.humanQueue.peek = some head := by
      rw [peek_eq, ← Option.isSome_iff_exists, List.isSome_head?]
      exact List.ne_nil_of_mem member
    have pending := pendingOf_complete indexed member isId other
    have awaits : (p.answer head.agentId response.selection now).awaitsHuman other =
        (p.awaitsHuman other && other ≠ head.agentId) :=
      awaitsHuman_released answered_agentId (answered_awaitsHuman response.selection now) other
    rw [processHumanResponse_known indexed member isId first]
    have sameAgent := tidy r member isId head first
    rw [sameAgent] at awaits ⊢
    have single := (matched other).single
    by_cases isAgent : r.agentId = other
    · refine .settled ?_ (awaits.trans (by simp [isAgent]))
      dsimp only
      rw [pending, if_pos isAgent]
      omega
    · exact .same (pending.trans (by simp [isAgent])) (awaits.trans (by simp [Ne.symm isAgent]))
  · rw [processHumanResponse_unknown indexed fun r member isId => known ⟨r, member, isId⟩]
    exact .same rfl rfl

/-! ### Actions of the decision layer -/

variable {action : DecisionAction}

/-- What an action of a decision leaves of requests and waits. -/
structure ActionOutcome (p : WorkerPool) (agentId : AgentId) (action : DecisionAction) (p' : WorkerPool) :
    Prop where
  others : ∀ other ≠ agentId, p'.humanQueue.pendingOf other = p.humanQueue.pendingOf other ∧
    p'.awaitsHuman other = p.awaitsHuman other
  pending : p'.humanQueue.pendingOf agentId =
    p.humanQueue.pendingOf agentId - if action.answersRequest then 1 else 0
  awaits : p'.awaitsHuman agentId → p.awaitsHuman agentId
  answered : action.answersRequest → 0 < p.humanQueue.pendingOf agentId → p'.awaitsHuman agentId = false
  kept : action.answersRequest = false → action.movesOn = false →
    p'.awaitsHuman agentId = p.awaitsHuman agentId

theorem ActionEffect.outcome (indexed : p.humanQueue.Indexed)
    (effect : p.ActionEffect agentId action now p') :
    p.ActionOutcome agentId action p' := by
  cases effect with
  | @told change answers moves agent status task =>
      have same : ∀ other, (p.modifySlot agentId change).awaitsHuman other = p.awaitsHuman other :=
        awaitsHuman_same agent status
      exact ⟨fun other _ => ⟨rfl, same other⟩, by simp [answers, modifySlot],
        fun waits => same agentId ▸ waits,
        by simp [answers], fun _ _ => same agentId⟩
  | nothing noRequest moves =>
      refine ⟨fun _ _ => ⟨rfl, rfl⟩, ?_, id, fun answers some => ?_, fun _ _ => rfl⟩
      · split
        · next answers => simp [findByAgentId_none.mp (noRequest answers)]
        · rfl
      · have none := findByAgentId_none.mp (noRequest answers)
        omega
  | @answered r selection answers found =>
      obtain ⟨member, isAgent⟩ := findByAgentId_some found
      have isId : r.id = (HumanDecisionResponse.create r.id selection now.utc).requestId := rfl
      have pending := pendingOf_complete indexed member isId
      have awaits : ∀ other, (p.modifySlot agentId (·.tryTransition .idle now)).awaitsHuman other =
          (p.awaitsHuman other && other ≠ agentId) :=
        awaitsHuman_released (fun slot => slot.tryTransition_agentId _ _)
          fun slot => PoolSlot.tryTransition_awaitsHuman rfl fun _ => rfl
      have gone : (p.processHumanResponseInternal (.create r.id selection now.utc) agentId now).awaitsHuman
          agentId = false := (awaits agentId).trans (by simp)
      refine ⟨fun other differs => ⟨(pending other).trans ?_, (awaits other).trans (by simp [differs])⟩,
        (pending agentId).trans (by simp [isAgent, answers]), fun waits => ?_, fun _ _ => gone, fun no => ?_⟩
      · simp [isAgent, Ne.symm differs]
      · rw [gone] at waits
        cases waits
      · rw [answers] at no
        cases no
  | @moved change answers moves agent status task =>
      have awaits : ∀ other, (p.modifySlot agentId change).awaitsHuman other =
          (p.awaitsHuman other && other ≠ agentId) := awaitsHuman_released agent status
      refine ⟨fun other differs => ⟨rfl, (awaits other).trans (by simp [differs])⟩,
        by simp [answers, modifySlot], fun waits => ?_, by simp [answers], by simp [moves]⟩
      rw [awaits] at waits
      simp at waits

variable {actions : List DecisionAction}

theorem executeActions_others (indexed : p.humanQueue.Indexed) (differs : other ≠ agentId) :
    (executeActions agentId now p actions).2.humanQueue.pendingOf other = p.humanQueue.pendingOf other ∧
      (executeActions agentId now p actions).2.awaitsHuman other = p.awaitsHuman other := by
  induction actions generalizing p with
  | nil => exact ⟨rfl, rfl⟩
  | cons action rest ih =>
      have first := ((p.executeAction_effect agentId action now).outcome indexed).others other differs
      obtain ⟨pending, awaits⟩ := ih ((executeAction_shrinks p agentId action now).indexed indexed)
      exact ⟨pending.trans first.1, awaits.trans first.2⟩

/-- Requests and waits of the agent only go. -/
theorem executeActions_goes (indexed : p.humanQueue.Indexed) (agentId : AgentId) (now : Moment)
    (actions : List DecisionAction) :
    (executeActions agentId now p actions).2.humanQueue.pendingOf agentId ≤ p.humanQueue.pendingOf agentId ∧
      ((executeActions agentId now p actions).2.awaitsHuman agentId → p.awaitsHuman agentId) := by
  induction actions generalizing p with
  | nil => exact ⟨Nat.le_refl _, id⟩
  | cons action rest ih =>
      have first := (p.executeAction_effect agentId action now).outcome indexed
      obtain ⟨pending, awaits⟩ := ih ((executeAction_shrinks p agentId action now).indexed indexed)
      refine ⟨pending.trans ?_, fun waits => first.awaits (awaits waits)⟩
      rw [first.pending]
      exact Nat.sub_le _ _

theorem executeActions_kept (indexed : p.humanQueue.Indexed)
    (quiet : ∀ action ∈ actions, action.answersRequest = false ∧ action.movesOn = false) :
    (executeActions agentId now p actions).2.humanQueue.pendingOf agentId = p.humanQueue.pendingOf agentId ∧
      (executeActions agentId now p actions).2.awaitsHuman agentId = p.awaitsHuman agentId := by
  induction actions generalizing p with
  | nil => exact ⟨rfl, rfl⟩
  | cons action rest ih =>
      have first := (p.executeAction_effect agentId action now).outcome indexed
      have ⟨answers, moves⟩ := quiet action List.mem_cons_self
      have pending := first.pending
      rw [answers] at pending
      obtain ⟨rest_pending, awaits⟩ := ih ((executeAction_shrinks p agentId action now).indexed indexed)
        fun other member => quiet other (List.mem_cons_of_mem _ member)
      exact ⟨rest_pending.trans pending, awaits.trans (first.kept answers moves)⟩

/-- The first answer settles the one request of the agent. -/
theorem executeActions_answered (indexed : p.humanQueue.Indexed)
    (one : p.humanQueue.pendingOf agentId = 1) (answers : ∃ action ∈ actions, action.answersRequest) :
    (executeActions agentId now p actions).2.humanQueue.pendingOf agentId = 0 ∧
      (executeActions agentId now p actions).2.awaitsHuman agentId = false := by
  induction actions generalizing p with
  | nil => simp at answers
  | cons action rest ih =>
      have first := (p.executeAction_effect agentId action now).outcome indexed
      have stays := (executeAction_shrinks p agentId action now).indexed indexed
      have pending := first.pending
      cases isAnswer : action.answersRequest with
      | true =>
          rw [isAnswer, one] at pending
          have gone := first.answered isAnswer (by omega)
          obtain ⟨fewer, waits⟩ := executeActions_goes stays agentId now rest
          rw [pending] at fewer
          refine ⟨Nat.le_zero.mp fewer, Bool.eq_false_iff.mpr fun awaits => ?_⟩
          rw [waits awaits] at gone
          cases gone
      | false =>
          rw [isAnswer, one] at pending
          refine ih stays pending ?_
          simpa [isAnswer] using answers

theorem executeDecisionAction_outcome (indexed : p.humanQueue.Indexed) (matched : p.Matched agentId)
    (tidy : 0 < p.humanQueue.pendingOf agentId → (∃ action ∈ actions, action.movesOn) →
      ∃ action ∈ actions, action.answersRequest) (other : AgentId) :
    p.Outcome other (p.executeDecisionAction agentId actions now).2 := by
  have executed : p.Outcome other (executeActions agentId now p actions).2 := by
    by_cases isAgent : other = agentId
    · subst isAgent
      obtain ⟨fewer, waits⟩ := executeActions_goes indexed other now actions
      have single := matched.single
      by_cases some : 0 < p.humanQueue.pendingOf other
      · have one : p.humanQueue.pendingOf other = 1 := by omega
        by_cases answers : ∃ action ∈ actions, action.answersRequest
        · obtain ⟨pending, awaits⟩ := executeActions_answered indexed one answers
          exact .settled pending awaits
        · have quiet : ∀ action ∈ actions, action.answersRequest = false ∧ action.movesOn = false :=
            fun action member => ⟨by simpa using fun isAnswer => answers ⟨action, member, isAnswer⟩,
              by simpa using fun moves => answers (tidy some ⟨action, member, moves⟩)⟩
          obtain ⟨pending, awaits⟩ := executeActions_kept indexed quiet
          exact .same pending awaits
      · cases awaits : (executeActions other now p actions).2.awaitsHuman other with
        | true => exact .same (by omega) (awaits.trans (waits awaits).symm)
        | false => exact .settled (by omega) awaits
    · obtain ⟨pending, awaits⟩ := executeActions_others indexed isAgent
      exact .same pending awaits
  unfold executeDecisionAction
  split
  · exact .same rfl rfl
  · split
    · exact .same rfl rfl
    · split
      · exact .same rfl rfl
      · exact executed

/-! ### Expired requests -/

theorem expired_awaitsHuman (selection : HumanSelection) (now : Moment) (slot : PoolSlot) :
    (expired selection now slot).status.awaitsHuman = false := by
  unfold expired
  split
  · cases selection <;> exact PoolSlot.tryTransition_awaitsHuman rfl fun _ => rfl
  · next free => exact AgentSlotStatus.not_awaitsHuman free

theorem expireRequest_awaitsHuman (p : WorkerPool) (request : HumanDecisionRequest) (other : AgentId) :
    (expireRequest now p request).awaitsHuman other = (p.awaitsHuman other && other ≠ request.agentId) := by
  rw [expireRequest_eq]
  exact awaitsHuman_released (expired_agentId _ now) (expired_awaitsHuman _ now) other

theorem expireAll_awaitsHuman (requests : List HumanDecisionRequest) (p : WorkerPool) (other : AgentId) :
    (requests.foldl (expireRequest now) p).awaitsHuman other =
      (p.awaitsHuman other && requests.all fun request => other ≠ request.agentId) := by
  induction requests generalizing p with
  | nil => simp
  | cons request rest ih => rw [List.foldl_cons, ih, expireRequest_awaitsHuman, List.all_cons, Bool.and_assoc]

theorem processExpiredRequests_outcome (indexed : p.humanQueue.Indexed) (matched : p.Matched other) :
    p.Outcome other (p.processExpiredRequests now).2 := by
  have parts : p.humanQueue.pendingOf other =
      (p.humanQueue.allRequests.filter fun r => r.expiresAt < now.utc).countP (fun r => r.agentId = other) +
        (p.processExpiredRequests now).2.humanQueue.pendingOf other := by
    rw [processExpiredRequests_queue, pendingOf, pendingOf, checkExpired_allRequests indexed,
      List.countP_eq_countP_filter_add _ _ fun r => decide (r.expiresAt < now.utc)]
    simp only [decide_not]
  have awaits : (p.processExpiredRequests now).2.awaitsHuman other = (p.awaitsHuman other &&
      (p.humanQueue.allRequests.filter fun r => r.expiresAt < now.utc).all fun r => other ≠ r.agentId) :=
    expireAll_awaitsHuman _ _ other
  have single := matched.single
  by_cases timesOut :
      ∃ r ∈ p.humanQueue.allRequests.filter (fun r => r.expiresAt < now.utc), r.agentId = other
  · have some : 0 < (p.humanQueue.allRequests.filter fun r => r.expiresAt < now.utc).countP
        (fun r => r.agentId = other) := List.countP_pos_iff.mpr (by simpa using timesOut)
    refine .settled (by omega) ?_
    obtain ⟨r, member, isAgent⟩ := timesOut
    rw [awaits, Bool.and_eq_false_iff, List.all_eq_false]
    exact .inr ⟨r, member, by simp [isAgent]⟩
  · have none : (p.humanQueue.allRequests.filter fun r => r.expiresAt < now.utc).countP
        (fun r => r.agentId = other) = 0 := by
      rw [List.countP_eq_zero]
      exact fun r member isAgent => timesOut ⟨r, member, by simpa using isAgent⟩
    refine .same (by omega) ?_
    rw [awaits, List.all_eq_true.mpr fun r member => ?_, Bool.and_true]
    simpa using fun isAgent => timesOut ⟨r, member, isAgent.symm⟩

/-! ### Clearing and stopping -/

theorem clearSlots_awaitsHuman (handler : BlockedHandler) (slots : List PoolSlot) :
    ∀ slot ∈ (clearSlots now handler slots).2, slot.status.awaitsHuman = false := by
  induction slots generalizing handler with
  | nil => simp [clearSlots]
  | cons slot rest ih =>
      unfold clearSlots
      split
      · intro other member
        rcases List.mem_cons.mp member with rfl | later
        · exact PoolSlot.tryTransition_awaitsHuman rfl fun _ => rfl
        · exact ih _ other later
      · next free =>
          intro other member
          rcases List.mem_cons.mp member with rfl | later
          · exact AgentSlotStatus.not_awaitsHuman free
          · exact ih _ other later

theorem clearAllBlocked_outcome (indexed : p.humanQueue.Indexed)
    (tidy : ∀ r ∈ p.humanQueue.allRequests, r.expiresAt < now.utc) (other : AgentId) :
    p.Outcome other (p.clearAllBlocked now) := by
  have none : (p.clearAllBlocked now).humanQueue.allRequests = [] := by
    rw [clearAllBlocked, checkExpired_allRequests indexed, List.filter_eq_nil_iff]
    simpa using tidy
  refine .settled (by simp [pendingOf, none]) ?_
  unfold awaitsHuman
  cases found : (p.clearAllBlocked now).getSlotById other with
  | none => rfl
  | some slot => exact clearSlots_awaitsHuman _ _ slot (List.mem_of_find?_eq_some found)

theorem contextCleared_awaitsHuman (now : Moment) (slot : PoolSlot) :
    (contextCleared now slot).status.awaitsHuman = false := by
  unfold contextCleared
  dsimp only
  split
  · next isIdle =>
      cases isStatus : slot.status <;> simp_all [AgentSlotStatus.isIdle, AgentSlotStatus.awaitsHuman,
        PoolSlot.clearTask, PoolSlot.clearSessionHandle, PoolSlot.clearTranscript]
  · exact PoolSlot.tryTransition_awaitsHuman rfl fun _ => rfl

theorem clearAgentContext_outcome (noRequest : p.humanQueue.pendingOf agentId = 0) (other : AgentId) :
    p.Outcome other (p.clearAgentContext agentId now).2 := by
  rw [clearAgentContext_eq]
  exact outcome_modifySlot noRequest (contextCleared_agentId now) (contextCleared_awaitsHuman now) other

theorem stopAgent_outcome (noRequest : p.humanQueue.pendingOf agentId = 0) (other : AgentId) :
    p.Outcome other (p.stopAgent agentId now).2 := by
  rw [stopAgent_eq]
  exact outcome_modifySlot noRequest (fun slot => slot.tryTransition_agentId _ _)
    (fun slot => PoolSlot.tryTransition_awaitsHuman rfl fun _ => rfl) other

end WorkerPool

open WorkerPool

/-! ## Runs -/

/-- The calls that block agents, release them, or take them in or out. -/
def PoolCall.handlesRequests : PoolCall → Bool
  | .processAgentBlocked .. | .processHumanResponse _ | .executeDecisionAction .. | .processExpiredRequests
  | .clearAllBlocked | .clearAgentContext _ | .stopAgent _ | .removeAgent _ | .restoreSlot _ => true
  | _ => false

/-- The call files no second request of an agent and leaves none behind. -/
def PoolState.Tidy (s : PoolState) (event : PoolCall × Moment) : Prop :=
  let q := s.pool.humanQueue
  match event.1 with
  | .processAgentBlocked agentId blockedState description _ _ =>
      ∀ slot, s.pool.getSlotById agentId = some slot →
        slot.status.canTransitionTo (blockedStatus blockedState description event.2) → q.pendingOf agentId = 0
  | .processHumanResponse response =>
      ∀ r ∈ q.allRequests, r.id = response.requestId → ∀ head, q.peek = some head → head.agentId = r.agentId
  | .executeDecisionAction agentId actions =>
      0 < q.pendingOf agentId → (∃ action ∈ actions, action.movesOn) →
        ∃ action ∈ actions, action.answersRequest
  | .clearAllBlocked => ∀ r ∈ q.allRequests, r.expiresAt < event.2.utc
  | .clearAgentContext agentId | .stopAgent agentId => q.pendingOf agentId = 0
  | _ => True

/-- The call blocked the agent. -/
def PoolCall.Blocks (call : PoolCall) (reply : PoolReply) (agentId : AgentId) : Prop :=
  (∃ blockedState description uuid withBacklog,
    call = .processAgentBlocked agentId blockedState description uuid withBacklog) ∧ reply = .result (.ok ())

/-- What a call does to the request of an agent. -/
inductive PoolState.StepOutcome (s : PoolState) (call : PoolCall) (agentId : AgentId)
    (next : PoolReply × PoolState) : Prop where
  | same (blocks : ¬ call.Blocks next.1 agentId)
      (pending : next.2.pool.humanQueue.pendingOf agentId = s.pool.humanQueue.pendingOf agentId)
      (awaits : next.2.pool.awaitsHuman agentId = s.pool.awaitsHuman agentId)
  | settled (pending : next.2.pool.humanQueue.pendingOf agentId = 0)
      (awaits : next.2.pool.awaitsHuman agentId = false)
  | filed (pending : next.2.pool.humanQueue.pendingOf agentId = 1)
      (awaits : next.2.pool.awaitsHuman agentId)
  | returned (blocks : ¬ call.Blocks next.1 agentId) (absent : s.pool.getSlotById agentId = none)
      (pending : next.2.pool.humanQueue = s.pool.humanQueue)

namespace PoolState

variable [Unicode] {start s : PoolState} {calls : List (PoolCall × Moment)} {agentId : AgentId}

theorem step_outcome {call : PoolCall} {now : Moment} (listed : call.handlesRequests)
    (tidy : s.Tidy (call, now))
    (indexed : s.pool.humanQueue.Indexed) (distinct : s.pool.roster.ids.Nodup)
    (matched : ∀ agentId, s.pool.Matched agentId) (agentId : AgentId) :
    s.StepOutcome call agentId (s.step (call, now)) := by
  have of_outcome {next : PoolReply × PoolState} (blocks : ¬ call.Blocks next.1 agentId)
      (outcome : s.pool.Outcome agentId next.2.pool) : s.StepOutcome call agentId next := by
    cases outcome with
    | same pending awaits => exact .same blocks pending awaits
    | settled pending awaits => exact .settled pending awaits
  cases call with
  | processAgentBlocked target blockedState description uuid withBacklog =>
      rcases processAgentBlocked_outcome target blockedState description uuid
        (if withBacklog then some s.backlog else none) tidy with ⟨⟨e, failed⟩, same⟩ | ⟨others, own⟩
      · refine .same ?_ (congrArg (pendingOf ·.humanQueue agentId) same)
          (congrArg (awaitsHuman · agentId) same)
        rintro ⟨-, succeeded⟩
        simp [step, failed] at succeeded
      · by_cases isTarget : agentId = target
        · subst isTarget
          rcases own with ⟨pending, awaits⟩ | ⟨pending, awaits⟩
          · exact .filed pending awaits
          · exact .settled pending awaits
        · refine of_outcome ?_ (others agentId isTarget)
          rintro ⟨⟨_, _, _, _, isCall⟩, -⟩
          simp [Ne.symm isTarget] at isCall
  | processHumanResponse response =>
      exact of_outcome (by simp [PoolCall.Blocks]) (processHumanResponse_outcome indexed matched tidy agentId)
  | executeDecisionAction target actions =>
      exact of_outcome (by simp [PoolCall.Blocks])
        (executeDecisionAction_outcome indexed (matched target) tidy agentId)
  | processExpiredRequests =>
      exact of_outcome (by simp [PoolCall.Blocks]) (processExpiredRequests_outcome indexed (matched agentId))
  | clearAllBlocked =>
      exact of_outcome (by simp [PoolCall.Blocks]) (clearAllBlocked_outcome indexed tidy agentId)
  | clearAgentContext target =>
      exact of_outcome (by simp [PoolCall.Blocks]) (clearAgentContext_outcome tidy agentId)
  | stopAgent target => exact of_outcome (by simp [PoolCall.Blocks]) (stopAgent_outcome tidy agentId)
  | removeAgent target =>
      exact of_outcome (by simp [PoolCall.Blocks]) (removeAgent_outcome distinct (matched target) now agentId)
  | restoreSlot slot =>
      rcases restoreSlot_outcome slot agentId with outcome | ⟨absent, queue⟩
      · exact of_outcome (by simp [PoolCall.Blocks]) outcome
      · exact .returned (by simp [PoolCall.Blocks]) absent queue
  | setProfileStore | spawnWorker | spawnWorkerWithProfile | spawnOverviewAgent | focusAgentByIndex
  | focusAgent | slotOperation | assignTaskWithBacklog | completeTaskWithBacklog | autoAssignTask => cases listed

/-- The agent was blocked by a call and has been in the pool ever since. -/
def BlockedByCall (start : PoolState) (calls : List (PoolCall × Moment)) (agentId : AgentId) : Prop :=
  ∃ earlier x later, history step start calls = earlier ++ x :: later ∧
    x.event.1.Blocks x.output agentId ∧ ∀ y ∈ later, (y.after.pool.getSlotById agentId).isSome

theorem blockedByCall_snoc {event : PoolCall × Moment}
    (blocked : BlockedByCall start (calls ++ [event]) agentId) :
    event.1.Blocks ((final step start calls).step event).1 agentId ∨
      BlockedByCall start calls agentId ∧
        (((final step start calls).step event).2.pool.getSlotById agentId).isSome := by
  obtain ⟨earlier, x, later, parts, blocks, present⟩ := blocked
  rw [history_snoc] at parts
  rcases List.eq_nil_or_concat later with rfl | ⟨front, last, rfl⟩
  · obtain ⟨-, isLast⟩ := List.append_inj' parts rfl
    cases isLast
    exact .inl blocks
  · rw [List.concat_eq_append, ← List.cons_append, ← List.append_assoc] at parts
    obtain ⟨before, isLast⟩ := List.append_inj' parts rfl
    cases isLast
    refine .inr ⟨⟨earlier, x, front, before, blocks, fun y member => present y (by simp [member])⟩, ?_⟩
    exact present ⟨final step start calls, event, ((final step start calls).step event).1, _⟩ (by simp)

theorem blocks_present {event : PoolCall × Moment} (blocks : event.1.Blocks (s.step event).1 agentId) :
    ((s.step event).2.pool.getSlotById agentId).isSome := by
  obtain ⟨call, now⟩ := event
  obtain ⟨⟨blockedState, description, uuid, withBacklog, rfl⟩, succeeded⟩ := blocks
  have same : (s.step (.processAgentBlocked agentId blockedState description uuid withBacklog, now)).2.pool.roster =
      s.pool.roster := s.step_sameAgents now rfl
  rw [getSlotById_isSome, same, ← getSlotById_isSome]
  rcases s.pool.processAgentBlocked_cases agentId blockedState description uuid
    (if withBacklog then some s.backlog else none) now with ⟨e, failed⟩ | ⟨slot, found, -⟩
  · simp [step, failed] at succeeded
  · simp [found]

theorem blockedByCall_present (blocked : BlockedByCall start calls agentId) :
    ((final step start calls).pool.getSlotById agentId).isSome := by
  rcases List.eq_nil_or_concat calls with rfl | ⟨front, last, rfl⟩
  · obtain ⟨earlier, x, later, parts, -⟩ := blocked
    simp at parts
  · rw [List.concat_eq_append] at blocked ⊢
    rw [final_snoc]
    rcases blockedByCall_snoc blocked with blocks | ⟨-, present⟩
    · exact blocks_present blocks
    · exact present

/-- Requests and waits of an agent go together in a run. -/
structure InOrder (start : PoolState) (calls : List (PoolCall × Moment)) (agentId : AgentId) : Prop where
  matched : (final step start calls).pool.Matched agentId
  filed : BlockedByCall start calls agentId → (final step start calls).pool.awaitsHuman agentId →
    0 < (final step start calls).pool.humanQueue.pendingOf agentId

theorem InOrder.snoc {call : PoolCall} {now : Moment} (inOrder : InOrder start calls agentId)
    (outcome : (final step start calls).StepOutcome call agentId ((final step start calls).step (call, now))) :
    InOrder start (calls ++ [(call, now)]) agentId := by
  have blocked (blocks : ¬ call.Blocks ((final step start calls).step (call, now)).1 agentId)
      (blocked : BlockedByCall start (calls ++ [(call, now)]) agentId) : BlockedByCall start calls agentId := by
    rcases blockedByCall_snoc blocked with now | ⟨earlier, -⟩
    · exact absurd now blocks
    · exact earlier
  have single := inOrder.matched.single
  constructor
  · rw [final_snoc]
    cases outcome with
    | same _ pending awaits => exact inOrder.matched.outcome (.same pending awaits)
    | settled pending awaits => exact inOrder.matched.outcome (.settled pending awaits)
    | filed pending awaits => exact ⟨by omega, fun _ => awaits⟩
    | returned _ absent queue =>
        have none : ¬ 0 < (final step start calls).pool.humanQueue.pendingOf agentId := fun some => by
          have awaits := inOrder.matched.awaits some
          simp [awaitsHuman, absent] at awaits
        exact ⟨by rw [queue]; exact single, fun some => absurd (queue ▸ some) none⟩
  · intro isBlocked
    rw [final_snoc]
    cases outcome with
    | same blocks pending awaits =>
        rw [pending, awaits]
        exact inOrder.filed (blocked blocks isBlocked)
    | settled pending awaits => simp [awaits]
    | filed pending awaits =>
        intro _
        omega
    | returned blocks absent queue =>
        have present := blockedByCall_present (blocked blocks isBlocked)
        simp [absent] at present

theorem final_inOrder (empty : start.pool.humanQueue = {}) (distinct : start.pool.roster.ids.Nodup)
    (unique : UniqueUuids calls)
    (tidy : ∀ x ∈ history step start calls, x.event.1.handlesRequests ∧ x.before.Tidy x.event) :
    (final step start calls).pool.roster.ids.Nodup ∧ ∀ agentId, InOrder start calls agentId := by
  induction calls using List.reverseRecOn with
  | nil =>
      have none (agentId : AgentId) : start.pool.humanQueue.pendingOf agentId = 0 := by
        simp [empty, pendingOf, HumanDecisionQueue.allRequests]
      refine ⟨distinct, fun agentId => ⟨⟨by simp [none], by simp [none]⟩, ?_⟩⟩
      rintro ⟨earlier, x, later, parts, -⟩
      simp at parts
  | append_singleton calls event ih =>
      obtain ⟨call, now⟩ := event
      rw [history_snoc] at tidy
      obtain ⟨listed, isTidy⟩ := tidy _ (List.mem_append_right _ (List.mem_singleton_self _))
      obtain ⟨apart, inOrder⟩ := ih unique.snoc.1 fun x member => tidy x (List.mem_append_left _ member)
      have indexed := (final_indexed empty calls unique.snoc.1).1
      rw [final_snoc]
      have spawns : call.spawns = false := by cases call <;> first | rfl | cases listed
      refine ⟨step_distinct spawns now apart, fun agentId => ?_⟩
      have outcome := step_outcome listed isTidy indexed apart (fun agentId => (inOrder agentId).matched) agentId
      exact (inOrder agentId).snoc outcome

end PoolState

/-- In every run whose calls file no second request of an agent and leave none behind, every request
    is waited for, and every agent that a call blocked for a human's decision has exactly one. -/
theorem requests_awaited [Unicode] (start : PoolState) (empty : start.pool.humanQueue = {})
    (distinct : start.pool.roster.ids.Nodup) (calls : List (PoolCall × Moment)) (unique : UniqueUuids calls)
    (tidy : ∀ x ∈ history PoolState.step start calls, x.event.1.handlesRequests ∧ x.before.Tidy x.event) :
    let s := final PoolState.step start calls
    (∀ r ∈ s.pool.humanQueue.allRequests,
      ∃ slot ∈ s.pool.slots, slot.agentId = r.agentId ∧ slot.status.awaitsHuman) ∧
    ∀ slot ∈ s.pool.slots, slot.status.awaitsHuman → PoolState.BlockedByCall start calls slot.agentId →
      s.pool.humanQueue.pendingOf slot.agentId = 1 := by
  intro s
  obtain ⟨apart, inOrder⟩ := PoolState.final_inOrder empty distinct unique tidy
  constructor
  · intro r member
    have awaits := (inOrder r.agentId).matched.awaits (pendingOf_pos.mpr ⟨r, member, rfl⟩)
    obtain ⟨slot, found, awaits⟩ := (Option.any_eq_true _ _).mp awaits
    exact ⟨slot, List.mem_of_find?_eq_some found, getSlotById_agentId found, awaits⟩
  · intro slot member awaits blocked
    have single := (inOrder slot.agentId).matched.single
    have filed := (inOrder slot.agentId).filed blocked (by
      simp [awaitsHuman, getSlotById_of_mem apart member, awaits])
    exact Nat.le_antisymm single filed

section

open Plain

/-- A pool of two idle agents. -/
def twoIdle : PoolState :=
  ⟨{ maxSlots := 4
     slots := [restoredSlot "agent_001" .developer .idle, restoredSlot "agent_002" .developer .idle] }, {}⟩

/-- One of them is blocked for a human's decision. -/
def oneBlocked : List (PoolCall × Moment) :=
  [(.processAgentBlocked "agent_001" ⟨"human_decision", .high, none, {}, none⟩ ""
    "00000000-0000-4000-8000-000000000001" false, ⟨1, 1⟩)]

theorem oneBlocked_unique : UniqueUuids oneBlocked := ⟨by decide, by decide⟩

theorem oneBlocked_awaited :
    let s := final PoolState.step twoIdle oneBlocked
    (∀ r ∈ s.pool.humanQueue.allRequests,
      ∃ slot ∈ s.pool.slots, slot.agentId = r.agentId ∧ slot.status.awaitsHuman) ∧
    ∀ slot ∈ s.pool.slots, slot.status.awaitsHuman → PoolState.BlockedByCall twoIdle oneBlocked slot.agentId →
      s.pool.humanQueue.pendingOf slot.agentId = 1 := by
  refine requests_awaited twoIdle rfl (by decide) oneBlocked oneBlocked_unique fun x member => ?_
  obtain rfl := List.mem_singleton.mp member
  exact ⟨rfl, fun _ _ _ => rfl⟩

/-- Clearing all blocked agents keeps the requests that have not expired. -/
theorem cleared_agent_pending : ¬ ∀ (start : PoolState) (calls : List (PoolCall × Moment)),
    start.pool.humanQueue = {} → start.pool.roster.ids.Nodup → UniqueUuids calls →
    (∀ x ∈ history PoolState.step start calls, x.event.1.handlesRequests) →
    let s := final PoolState.step start calls
    (∀ r ∈ s.pool.humanQueue.allRequests,
      ∃ slot ∈ s.pool.slots, slot.agentId = r.agentId ∧ slot.status.awaitsHuman) ∧
    ∀ slot ∈ s.pool.slots, slot.status.awaitsHuman → PoolState.BlockedByCall start calls slot.agentId →
      s.pool.humanQueue.pendingOf slot.agentId = 1 := by
  intro all
  have awaited := (all twoIdle (oneBlocked ++ [(.clearAllBlocked, ⟨2, 2⟩)]) rfl (by decide)
    ⟨by decide, by decide⟩ (by decide)).1
  exact absurd awaited (by decide)

end

end AgileAgent.Core
