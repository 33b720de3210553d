import AgileAgent.Core.Pool.Requests

/-! # Answers to requests

An answer takes the request it names out of the queue, but the agent that goes on is the one of
the request at the head.
-/

namespace AgileAgent.Core

open Backlog RuntimeDomain
open Machine (final)

theorem HumanDecisionQueue.complete_erase {q : HumanDecisionQueue} (indexed : q.Indexed)
    {response : HumanDecisionResponse} {r : HumanDecisionRequest} (member : r ∈ q.allRequests)
    (isId : r.id = response.requestId) : (q.complete response).2.allRequests = q.allRequests.erase r := by
  rw [(complete_known indexed member isId).2,
    (List.Nodup.of_map _ indexed.distinct).erase_eq_filter]
  refine List.filter_congr fun other otherMember => ?_
  by_cases same : other = r
  · simp [same]
  · have differs : other.id ≠ r.id := fun sameId =>
      same (List.inj_on_of_nodup_map indexed.distinct otherMember member sameId)
    simp [same, differs]

namespace BlockedHandler

variable {h : BlockedHandler} {agentId : AgentId} {resolution : Resolution} {entry : BlockedHistoryEntry}

@[simp] theorem recordResolution_length :
    (h.recordResolution agentId resolution).history.length = h.history.length := by
  simp [recordResolution]

theorem recordResolution_resolved (resolved : ∀ entry ∈ h.history, entry.agentId = agentId → entry.resolved) :
    h.recordResolution agentId resolution = h := by
  have none : h.history.reverse.find? (fun entry => entry.agentId = agentId && !entry.resolved) = none := by
    rw [List.find?_eq_none]
    intro entry member
    simpa using resolved entry (List.mem_reverse.mp member)
  simp [recordResolution, FirstMatch.modify_of_none none]

/-- The entries of other agents stay where they are. -/
theorem recordResolution_other {i : Nat} (here : h.history[i]? = some entry)
    (other : entry.agentId ≠ agentId) :
    (h.recordResolution agentId resolution).history[i]? = some entry := by
  have bound : i < h.history.length := (List.getElem?_eq_some_iff.mp here).1
  have reversed : h.history.reverse[h.history.length - 1 - i]? = some entry := by
    rw [List.getElem?_reverse (by omega), ← here]
    congr 1
    omega
  have kept := @FirstMatch.getElem?_modify _ (fun entry => entry.agentId = agentId && !entry.resolved)
    (fun entry => { entry with resolved := true, resolution := some resolution }) _ _ _ reversed
    (by simp [other])
  have last : h.history.length - 1 - (h.history.length - 1 - i) = i := by omega
  rw [recordResolution, List.getElem?_reverse (by simpa using bound), FirstMatch.length_modify,
    List.length_reverse]
  exact kept

/-- An entry that is not resolved yet is there to be resolved. -/
theorem recordResolution_open (resolution : Resolution) (member : entry ∈ h.history)
    (isAgent : entry.agentId = agentId) (isOpen : entry.resolved = false) :
    ∃ i : Nat, ∃ last, h.history[i]? = some last ∧ last.agentId = agentId ∧
      (h.recordResolution agentId resolution).history[i]? ≠ some last := by
  have found : (h.history.reverse.find? fun entry => entry.agentId = agentId && !entry.resolved).isSome := by
    rw [List.find?_isSome]
    exact ⟨entry, List.mem_reverse.mpr member, by simp [isAgent, isOpen]⟩
  obtain ⟨last, found⟩ := Option.isSome_iff_exists.mp found
  obtain ⟨lastAgent, lastOpen⟩ : last.agentId = agentId ∧ last.resolved = false := by
    simpa using List.find?_some found
  obtain ⟨i, here, changed⟩ := @FirstMatch.getElem?_modify_found _ _
    (fun entry => { entry with resolved := true, resolution := some resolution }) _ _ found
  have bound : i < h.history.length := by simpa using (List.getElem?_eq_some_iff.mp here).1
  have reversed : h.history.length - 1 - i < h.history.length := by omega
  refine ⟨h.history.length - 1 - i, last, ?_, lastAgent, ?_⟩
  · rwa [List.getElem?_reverse bound] at here
  · have back : h.history.length - 1 - (h.history.length - 1 - i) = i := by omega
    rw [recordResolution, List.getElem?_reverse (by simpa using reversed), FirstMatch.length_modify,
      List.length_reverse, back, changed]
    intro same
    have resolved := congrArg BlockedHistoryEntry.resolved (Option.some.inj same)
    rw [lastOpen] at resolved
    cases resolved

end BlockedHandler

namespace WorkerPool

/-- Only this agent's status, task and entries in the history of blocked agents may differ. -/
structure OnlyAgent (agentId : AgentId) (before after : WorkerPool) : Prop where
  size : after.slots.length = before.slots.length
  slots : ∀ (i : Nat) (slot : PoolSlot), before.slots[i]? = some slot → slot.agentId ≠ agentId →
    ∃ slot', after.slots[i]? = some slot' ∧ slot'.agentId = slot.agentId ∧
      slot'.status = slot.status ∧ slot'.assignedTaskId = slot.assignedTaskId
  recorded : after.blockedHandler.history.length = before.blockedHandler.history.length
  history : ∀ (i : Nat) (entry : BlockedHistoryEntry), before.blockedHandler.history[i]? = some entry →
    entry.agentId ≠ agentId → after.blockedHandler.history[i]? = some entry

theorem OnlyAgent.refl (agentId : AgentId) (p : WorkerPool) : OnlyAgent agentId p p where
  size := rfl
  slots := fun _ slot here _ => ⟨slot, here, rfl, rfl, rfl⟩
  recorded := rfl
  history := fun _ _ here _ => here

/-- An answer for this agent would find nothing to resolve and nothing to unblock. A resting slot
    does not respond. -/
structure Untouched (p : WorkerPool) (agentId : AgentId) : Prop where
  resolved : ∀ entry ∈ p.blockedHandler.history, entry.agentId = agentId → entry.resolved
  resting : ∀ slot, p.getSlotById agentId = some slot → slot.status.isBlocked → slot.status.isResting

variable [Unicode] {p : WorkerPool} {agentId other : AgentId} {selection : HumanSelection} {now : Moment}
  {slot : PoolSlot} {response : HumanDecisionResponse} {r head : HumanDecisionRequest}

/-- The pool after the agent of the first request got the answer. -/
def answer (p : WorkerPool) (agentId : AgentId) (selection : HumanSelection) (now : Moment) : WorkerPool :=
  { p with blockedHandler := p.blockedHandler.recordResolution agentId (.selection selection) }.modifySlot
    agentId (answered selection now)

theorem answer_untouched (untouched : p.Untouched agentId) : p.answer agentId selection now = p := by
  rw [answer, BlockedHandler.recordResolution_resolved untouched.resolved]
  exact modifySlot_eq_self fun slot found => answered_resting (untouched.resting slot found)

theorem answer_onlyAgent (p : WorkerPool) (agentId : AgentId) (selection : HumanSelection) (now : Moment) :
    OnlyAgent agentId p (p.answer agentId selection now) where
  size := by simp [answer, modifySlot]
  slots := by
    intro i slot here differs
    refine ⟨slot, ?_, rfl, rfl, rfl⟩
    exact FirstMatch.getElem?_modify here (by simp [differs])
  recorded := BlockedHandler.recordResolution_length
  history := fun _ _ here differs => BlockedHandler.recordResolution_other here differs

/-- Whoever gets the answer is touched, unless there is nothing to do for it. -/
theorem answer_onlyAgent_iff :
    OnlyAgent other p (p.answer agentId selection now) ↔ agentId = other ∨ p.Untouched agentId := by
  constructor
  · intro only
    by_cases same : agentId = other
    · exact .inl same
    refine .inr ⟨fun entry member isAgent => ?_, fun slot found isBlocked => ?_⟩
    · by_contra isOpen
      obtain ⟨i, last, here, lastAgent, changed⟩ := BlockedHandler.recordResolution_open
        (.selection selection) member isAgent (by simpa using isOpen)
      exact changed (only.history i last here (lastAgent ▸ same))
    · by_contra notResting
      obtain ⟨i, here, changed⟩ := @FirstMatch.getElem?_modify_found _ _ (answered selection now) _ _ found
      have isAgent : slot.agentId ≠ other := getSlotById_agentId found ▸ same
      obtain ⟨slot', here', -, status, -⟩ := only.slots i slot here isAgent
      obtain rfl := Option.some.inj (changed.symm.trans here')
      have released : (answered selection now slot).status.isBlocked = false :=
        answered_status isBlocked (by simpa using notResting)
      rw [status, isBlocked] at released
      cases released
  · rintro (rfl | untouched)
    · exact answer_onlyAgent ..
    · rw [answer_untouched untouched]
      exact .refl ..

theorem processHumanResponse_known (indexed : p.humanQueue.Indexed) (member : r ∈ p.humanQueue.allRequests)
    (isId : r.id = response.requestId) (first : p.humanQueue.peek = some head) :
    (p.processHumanResponse response now).2 =
      { p.answer head.agentId response.selection now with humanQueue := (p.humanQueue.complete response).2 } := by
  have known := (HumanDecisionQueue.complete_known indexed member isId).1
  unfold processHumanResponse
  split
  · next completed => simp [completed] at known
  · next completed =>
      rw [unblockAgent_eq, first, completed]
      rfl

theorem processHumanResponse_unknown (indexed : p.humanQueue.Indexed)
    (unknown : ∀ r ∈ p.humanQueue.allRequests, r.id ≠ response.requestId) :
    p.processHumanResponse response now =
      (.error ("Request " ++ response.requestId ++ " not found in queue"), p) := by
  rw [processHumanResponse, HumanDecisionQueue.complete_unknown indexed unknown]

/-- An answer takes out the request it names and touches its agent only, and one that names none
    is an error without effect. -/
def Answers (p : WorkerPool) (response : HumanDecisionResponse) (now : Moment) : Prop :=
  let outcome := p.processHumanResponse response now
  (∀ r ∈ p.humanQueue.allRequests, r.id = response.requestId →
    outcome.2.humanQueue.allRequests = p.humanQueue.allRequests.erase r ∧
      OnlyAgent r.agentId p outcome.2) ∧
  ((∀ r ∈ p.humanQueue.allRequests, r.id ≠ response.requestId) →
    (∃ e, outcome.1 = .error e) ∧ outcome.2 = p)

theorem answers_indexed (indexed : p.humanQueue.Indexed) :
    p.Answers response now ↔ ∀ r ∈ p.humanQueue.allRequests, r.id = response.requestId →
      ∀ head, p.humanQueue.peek = some head → head.agentId = r.agentId ∨ p.Untouched head.agentId := by
  constructor
  · rintro ⟨known, -⟩ r member isId head first
    have only := (known r member isId).2
    rw [processHumanResponse_known indexed member isId first] at only
    exact answer_onlyAgent_iff.mp ⟨only.size, only.slots, only.recorded, only.history⟩
  · refine fun agrees => ⟨fun r member isId => ?_, fun unknown => ?_⟩
    · obtain ⟨head, first⟩ : ∃ head, p.humanQueue.peek = some head := by
        rw [HumanDecisionQueue.peek_eq, ← Option.isSome_iff_exists, List.isSome_head?]
        exact List.ne_nil_of_mem member
      have only : OnlyAgent r.agentId p (p.answer head.agentId response.selection now) :=
        answer_onlyAgent_iff.mpr (agrees r member isId head first)
      rw [processHumanResponse_known indexed member isId first]
      exact ⟨HumanDecisionQueue.complete_erase indexed member isId, only.size, only.slots,
        only.recorded, only.history⟩
    · rw [processHumanResponse_unknown indexed unknown]
      exact ⟨⟨_, rfl⟩, rfl⟩

end WorkerPool

/-- In every state of every run, an answer does what it says exactly when the request it names and
    the one at the head have the same agent, or the agent at the head is not touched by it. -/
theorem answers_iff [Unicode] (p : WorkerPool) (new : p.New) (b : BacklogState)
    (calls : List (PoolCall × Moment)) (unique : UniqueUuids calls) (response : HumanDecisionResponse)
    (now : Moment) :
    let s := final PoolState.step ⟨p, b⟩ calls
    s.pool.Answers response now ↔ ∀ r ∈ s.pool.humanQueue.allRequests, r.id = response.requestId →
      ∀ head, s.pool.humanQueue.peek = some head →
        head.agentId = r.agentId ∨ s.pool.Untouched head.agentId := by
  have empty : p.humanQueue = {} := by cases new <;> rfl
  have indexed : (final PoolState.step ⟨p, b⟩ calls).pool.humanQueue.Indexed :=
    (PoolState.final_indexed empty calls unique).1
  exact WorkerPool.answers_indexed indexed

section

open Plain

/-- Two agents are blocked, the second more urgently. -/
def twoBlocked : List (PoolCall × Moment) :=
  [(.spawnWorker, ⟨0, 0⟩), (.spawnWorker, ⟨0, 0⟩),
    (.processAgentBlocked "agent_001" ⟨"human_decision", .low, none, {}, none⟩ ""
      "00000000-0000-4000-8000-000000000001" false, ⟨1, 1⟩),
    (.processAgentBlocked "agent_002" ⟨"human_decision", .critical, none, {}, none⟩ ""
      "00000000-0000-4000-8000-000000000002" false, ⟨2, 2⟩)]

theorem twoBlocked_unique : UniqueUuids twoBlocked := ⟨by decide, by decide⟩

/-- The answer to one of them. -/
def answerTo (requestId : String) : HumanDecisionResponse := ⟨requestId, .acceptedRecommendation, 3, 0⟩

theorem answers_urgent :
    let s := final PoolState.step ⟨.create 4, {}⟩ twoBlocked
    s.pool.Answers (answerTo "req-agent_002-00000000-0000-4000-8000-000000000002") ⟨3, 3⟩ := by
  refine (answers_iff _ (.create 4) {} twoBlocked twoBlocked_unique _ _).mpr ?_
  have answered : ∀ r ∈ (final PoolState.step ⟨.create 4, {}⟩ twoBlocked).pool.humanQueue.allRequests,
      r.id = "req-agent_002-00000000-0000-4000-8000-000000000002" → r.agentId = "agent_002" := by decide
  have first : (final PoolState.step ⟨.create 4, {}⟩ twoBlocked).pool.humanQueue.peek.map
      (·.agentId) = some "agent_002" := by decide
  intro r member isId head isHead
  rw [isHead, Option.map_some, Option.some.injEq] at first
  exact .inl (first.trans (answered r member isId).symm)

/-- Answering the other one lets the agent at the head go on. -/
theorem other_agent_answered : ¬ ∀ (p : WorkerPool) (b : BacklogState) (calls : List (PoolCall × Moment))
    (response : HumanDecisionResponse) (now : Moment), p.New → UniqueUuids calls →
    (final PoolState.step ⟨p, b⟩ calls).pool.Answers response now := by
  intro all
  have answers := (all _ {} _ (answerTo "req-agent_001-00000000-0000-4000-8000-000000000001") ⟨3, 3⟩
    (.create 4) twoBlocked_unique).1
  have pending : ∃ r ∈ (final PoolState.step ⟨.create 4, {}⟩ twoBlocked).pool.humanQueue.allRequests,
      r.id = "req-agent_001-00000000-0000-4000-8000-000000000001" ∧ r.agentId = "agent_001" := by decide
  obtain ⟨r, member, isId, isAgent⟩ := pending
  have only := (answers r member isId).2
  have before : (final PoolState.step ⟨.create 4, {}⟩ twoBlocked).pool.slots[1]?.map (·.agentId) =
      some "agent_002" := by decide
  have statuses : (final PoolState.step ⟨.create 4, {}⟩ twoBlocked).pool.slots[1]?.map (·.status.isBlocked) ≠
      ((final PoolState.step ⟨.create 4, {}⟩ twoBlocked).pool.processHumanResponse
        (answerTo "req-agent_001-00000000-0000-4000-8000-000000000001") ⟨3, 3⟩).2.slots[1]?.map
          (·.status.isBlocked) := by decide
  obtain ⟨slot, here, agentId⟩ := Option.map_eq_some_iff.mp before
  obtain ⟨slot', here', -, status, -⟩ := only.slots 1 slot here (by simp [agentId, isAgent])
  rw [here, here'] at statuses
  simp [status] at statuses

end

end AgileAgent.Core
