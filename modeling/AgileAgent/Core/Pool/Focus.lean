import AgileAgent.Core.Pool.Roster

/-! # The focused agent

Focus is an index into the slots. It stays in range, and whoever is focused stays focused,
unless a slot that goes to the front moves the others along. `remove_stopped` of the lifecycle
manager removes an agent as the pool does, but adjusts the focus its own way.
-/

namespace AgileAgent.Core

open Backlog RuntimeDomain
open Machine (final final_snoc)

/-- `AgentLifecycleManager::remove_stopped`, less the decision agent. -/
def removeStopped (slots : List PoolSlot) (focusedSlot : Nat) (agentId : AgentId) (now : Moment) :
    Except String Unit × List PoolSlot × Nat :=
  match slots.find? fun slot => slot.agentId = agentId with
  | none => (.error ("Agent not found: " ++ agentId), slots, focusedSlot)
  | some slot =>
      if slot.status.isTerminal then
        let left := slots.eraseIdx (slots.findIdx fun slot => slot.agentId = agentId)
        (.ok (), left, if left.length ≤ focusedSlot ∧ left ≠ [] then left.length - 1 else focusedSlot)
      else (.error (WorkerPool.notStopped slot now), slots, focusedSlot)

/-- The id of the focused agent. -/
def WorkerPool.focusedId (p : WorkerPool) : Option AgentId :=
  p.slots[p.focusedSlot]?.map fun slot => slot.agentId

/-- The calls that choose a focus, and the removal of the focused agent. -/
def PoolCall.SelectsFocus (p : WorkerPool) : PoolCall → Prop
  | .spawnOverviewAgent | .focusAgentByIndex _ | .focusAgent _ => True
  | .removeAgent agentId => p.focusedId = some agentId
  | _ => False

/-- Whoever is focused before a call is focused after it. -/
def PoolState.KeepsFocus [Unicode] (s : PoolState) (event : PoolCall × Moment) : Prop :=
  ∀ agentId, s.pool.focusedId = some agentId → (s.step event).2.pool.focusedId = some agentId

/-- Both removals leave the same slots and the same focus. -/
def WorkerPool.RemovalsAgree (p : WorkerPool) (agentId : AgentId) (now : Moment) : Prop :=
  (removeStopped p.slots p.focusedSlot agentId now).2 =
    ((p.removeAgent agentId now).2.slots, (p.removeAgent agentId now).2.focusedSlot)

/-- The removal of an agent moves the focus the same way in both. -/
def FocusAgrees (focusedSlot removedIndex slotsLen : Nat) : Prop :=
  focusedSlot < removedIndex ∨ (0 < slotsLen ∧ slotsLen ≤ focusedSlot) ∨
    (slotsLen = 0 ∧ focusedSlot = 0) ∨ (focusedSlot = removedIndex ∧ removedIndex + 1 = slotsLen)

namespace Roster

variable {r r' : Roster} {call : PoolCall} {agentId : AgentId} {agent : AgentId × AgentRole}

/-- The focus of a roster names an agent, if there is one. -/
def InRange (r : Roster) : Prop := r.focusedSlot ≤ r.agents.length - 1

def focusedId (r : Roster) : Option AgentId := r.agents[r.focusedSlot]?.map Prod.fst

/-- An agent that comes back to the front, where the one that moves to the focused place is
    another agent than the focused one. -/
structure Displaces (r : Roster) (agent : AgentId × AgentRole) : Prop where
  restorable : r.Restorable agent
  front : agent.2 = .productOwner
  other : ∃ focused ∈ r.agents[r.focusedSlot]?, ∃ neighbour ∈ (agent :: r.agents)[r.focusedSlot]?,
    neighbour.1 ≠ focused.1

theorem focusedId_eq_some :
    r.focusedId = some agentId ↔ ∃ agent, r.agents[r.focusedSlot]? = some agent ∧ agent.1 = agentId := by
  simp [focusedId]

theorem adjustOnRemove_le {focusedSlot index slotsLen : Nat} (inRange : focusedSlot ≤ slotsLen) :
    WorkerPool.adjustOnRemove focusedSlot index slotsLen ≤ slotsLen - 1 := by
  grind [WorkerPool.adjustOnRemove]

theorem step_inRange (inRange : r.InRange) (step : r.Step call r') : r'.InRange := by
  unfold InRange at inRange ⊢
  cases step with
  | same => exact inRange
  | spawned =>
      simp only [spawn, List.length_append, List.length_singleton]
      split <;> omega
  | overview => simp [spawnOverview]
  | restored =>
      simp only [restore, insert]
      split <;> simp only [List.length_cons, List.length_append, List.length_nil] <;> omega
  | removed here =>
      have inside := (List.getElem?_eq_some_iff.mp here).1
      simp only [remove, List.length_eraseIdx, inside, if_true]
      exact adjustOnRemove_le (by omega)
  | focused _ inside =>
      dsimp only
      omega

/-- Removing another agent moves the focus along with the focused one. -/
theorem focusedId_remove {index : Nat} (here : r.agents[index]? = some agent)
    (focused : r.focusedId = some agentId) (other : agent.1 ≠ agentId) :
    (r.remove index).focusedId = some agentId := by
  obtain ⟨current, atFocus, isId⟩ := focusedId_eq_some.mp focused
  have apart : r.focusedSlot ≠ index := by
    rintro same
    rw [same, here] at atFocus
    cases atFocus
    exact other isId
  have insideFocus := (List.getElem?_eq_some_iff.mp atFocus).1
  have inside := (List.getElem?_eq_some_iff.mp here).1
  refine focusedId_eq_some.mpr ⟨current, ?_, isId⟩
  simp only [remove]
  by_cases before : r.focusedSlot < index
  · have stays : WorkerPool.adjustOnRemove r.focusedSlot index (r.agents.length - 1) = r.focusedSlot := by
      grind [WorkerPool.adjustOnRemove]
    rw [stays, List.getElem?_eraseIdx_of_lt before, atFocus]
  · have moves : WorkerPool.adjustOnRemove r.focusedSlot index (r.agents.length - 1) = r.focusedSlot - 1 := by
      grind [WorkerPool.adjustOnRemove]
    rw [moves, List.getElem?_eraseIdx_of_ge (by omega), Nat.sub_add_cancel (by omega), atFocus]

/-- What coming back does to the focused agent. -/
theorem focusedId_restore (restorable : r.Restorable agent) (focused : r.focusedId = some agentId) :
    (r.restore agent).focusedId = some agentId ↔ ¬ r.Displaces agent := by
  obtain ⟨current, atFocus, isId⟩ := focusedId_eq_some.mp focused
  have inside := (List.getElem?_eq_some_iff.mp atFocus).1
  by_cases front : agent.2 = .productOwner
  · have restored : (r.restore agent).focusedId = (agent :: r.agents)[r.focusedSlot]?.map Prod.fst := by
      simp [restore, insert, front, focusedId]
    rw [restored]
    constructor
    · rintro kept ⟨-, -, focused, isFocused, neighbour, isNeighbour, apart⟩
      rw [atFocus] at isFocused
      cases isFocused
      rw [isNeighbour] at kept
      exact apart (isId ▸ Option.some.inj kept)
    · intro still
      have occupied : r.focusedSlot < (agent :: r.agents).length := by
        rw [List.length_cons]
        omega
      rw [List.getElem?_eq_getElem occupied, Option.map_some, Option.some.injEq]
      by_contra apart
      exact still ⟨restorable, front, current, atFocus, _, List.getElem?_eq_getElem occupied,
        isId ▸ apart⟩
  · constructor
    · rintro - displaces
      exact front displaces.front
    · intro _
      refine focusedId_eq_some.mpr ⟨current, ?_, isId⟩
      simp only [restore, insert, front, if_false]
      rw [List.getElem?_append_left inside, atFocus]

theorem roster_focusedId (p : WorkerPool) : p.roster.focusedId = p.focusedId := by
  simp [focusedId, WorkerPool.focusedId, WorkerPool.roster, PoolSlot.agent, Function.comp_def]

/-- Other calls leave the focused agent focused. -/
theorem step_focusedId {p : WorkerPool} (isRoster : p.roster = r) (step : r.Step call r')
    (focused : r.focusedId = some agentId) (keeps : ¬ call.SelectsFocus p)
    (others : ∀ slot, call ≠ .restoreSlot slot) : r'.focusedId = some agentId := by
  cases step with
  | same => exact focused
  | spawned =>
      obtain ⟨current, atFocus, isId⟩ := focusedId_eq_some.mp focused
      have inside := (List.getElem?_eq_some_iff.mp atFocus).1
      refine focusedId_eq_some.mpr ⟨current, ?_, isId⟩
      simp only [spawn, Nat.add_eq_right]
      split
      · omega
      · rw [List.getElem?_append_left inside, atFocus]
  | overview => exact absurd trivial keeps
  | restored => exact absurd rfl (others _)
  | removed here isAgent =>
      refine focusedId_remove here focused fun same => keeps ?_
      rw [← isRoster, roster_focusedId] at focused
      rw [PoolCall.SelectsFocus, focused, ← same, isAgent]
  | focused focuses =>
      obtain ⟨index, rfl⟩ | ⟨agentId, rfl⟩ := focuses
      · exact absurd trivial keeps
      · exact absurd trivial keeps

end Roster

/-- The two adjustments, for a removal that leaves `slotsLen` slots. -/
theorem adjustments_agree_iff (focusedSlot index slotsLen : Nat) (inside : index ≤ slotsLen) :
    (if slotsLen ≤ focusedSlot ∧ 0 < slotsLen then slotsLen - 1 else focusedSlot) =
        WorkerPool.adjustOnRemove focusedSlot index slotsLen ↔
      FocusAgrees focusedSlot index slotsLen := by
  grind [WorkerPool.adjustOnRemove, FocusAgrees]

theorem WorkerPool.removalsAgree_iff (p : WorkerPool) (agentId : AgentId) (now : Moment) :
    p.RemovalsAgree agentId now ↔ ∀ slot, p.getSlotById agentId = some slot → slot.status.isTerminal →
      FocusAgrees p.focusedSlot (p.findSlotIndex agentId) (p.slots.length - 1) := by
  unfold RemovalsAgree removeStopped removeAgent
  rw [← getSlotById]
  cases found : p.getSlotById agentId with
  | none => simp
  | some slot =>
      obtain ⟨here, -⟩ := getSlotById_index found
      have inside := (List.getElem?_eq_some_iff.mp here).1
      have left : (p.slots.eraseIdx (p.findSlotIndex agentId)).length = p.slots.length - 1 := by
        rw [List.length_eraseIdx, if_pos inside]
      have filled : p.slots.eraseIdx (p.findSlotIndex agentId) ≠ [] ↔ 0 < p.slots.length - 1 := by
        rw [← left, List.length_pos_iff]
      have agree := adjustments_agree_iff p.focusedSlot (p.findSlotIndex agentId) (p.slots.length - 1)
        (by omega)
      cases terminal : slot.status.isTerminal with
      | false => simp [terminal]
      | true =>
          simp only [terminal, if_true, Option.some.injEq, forall_eq', Prod.mk.injEq, ← agree]
          simp only [← findSlotIndex.eq_1, left, filled, forall_const, true_and]

namespace PoolState

variable [Unicode]

theorem final_inRange {p : WorkerPool} (new : p.New) (b : BacklogState)
    (calls : List (PoolCall × Moment)) : (final step ⟨p, b⟩ calls).pool.roster.InRange := by
  induction calls using List.reverseRecOn with
  | nil => cases new <;> exact Nat.le_refl 0
  | append_singleton calls event ih =>
      rw [final_snoc]
      exact Roster.step_inRange ih (step_roster _ event.1 event.2)

theorem keepsFocus_iff (s : PoolState) (event : PoolCall × Moment)
    (elsewhere : ¬ event.1.SelectsFocus s.pool) :
    s.KeepsFocus event ↔ ∀ slot, event.1 = .restoreSlot slot → ¬ s.pool.roster.Displaces slot.agent := by
  obtain ⟨call, now⟩ := event
  have step := s.step_roster call now
  unfold KeepsFocus
  simp only [← Roster.roster_focusedId]
  by_cases restores : ∃ slot, call = .restoreSlot slot
  · obtain ⟨slot, rfl⟩ := restores
    simp only [PoolCall.restoreSlot.injEq, forall_eq']
    rcases step.restore_inv with ⟨restorable, restored⟩ | ⟨refused, same⟩
    · rw [restored]
      constructor
      · rintro kept displaces
        obtain ⟨current, atFocus, -⟩ := displaces.other
        have focused : s.pool.roster.focusedId = some current.1 :=
          Roster.focusedId_eq_some.mpr ⟨current, atFocus, rfl⟩
        exact (Roster.focusedId_restore restorable focused).mp (kept _ focused) displaces
      · intro still agentId focused
        exact (Roster.focusedId_restore restorable focused).mpr still
    · rw [same]
      constructor
      · rintro - displaces
        exact refused displaces.restorable
      · exact fun _ _ focused => focused
  · have others : ∀ slot, call ≠ .restoreSlot slot := fun slot same => restores ⟨slot, same⟩
    constructor
    · intro _ slot same
      exact absurd same (others slot)
    · intro _ agentId focused
      exact Roster.step_focusedId rfl step focused elsewhere others

end PoolState

/-- In every state of every run the focus is in range. A call that selects no focus keeps the
    focused agent unless it restores one in front of others, and the two removals agree exactly
    when they adjust the focus the same way. -/
theorem focus_iff [Unicode] (p : WorkerPool) (new : p.New) (b : BacklogState)
    (calls : List (PoolCall × Moment)) :
    let s := final PoolState.step ⟨p, b⟩ calls
    (s.pool.slots ≠ [] → s.pool.focusedSlot < s.pool.slots.length) ∧
    (∀ event : PoolCall × Moment, ¬ event.1.SelectsFocus s.pool → (s.KeepsFocus event ↔
      ∀ slot, event.1 = .restoreSlot slot → ¬ s.pool.roster.Displaces slot.agent)) ∧
    ∀ (q : WorkerPool) (agentId : AgentId) (now : Moment), q.RemovalsAgree agentId now ↔
      ∀ slot, q.getSlotById agentId = some slot → slot.status.isTerminal →
        FocusAgrees q.focusedSlot (q.findSlotIndex agentId) (q.slots.length - 1) := by
  have inRange := PoolState.final_inRange new b calls
  refine ⟨fun occupied => ?_, fun event elsewhere => PoolState.keepsFocus_iff _ event elsewhere,
    fun q agentId now => q.removalsAgree_iff agentId now⟩
  have some := List.length_pos_iff.mpr occupied
  simp only [Roster.InRange, WorkerPool.roster, List.length_map] at inRange
  omega

section

open Plain

theorem focus_create :
    let s := final PoolState.step ⟨.create 4, {}⟩ [(.spawnWorker, ⟨0, 0⟩)]
    s.pool.slots ≠ [] → s.pool.focusedSlot < s.pool.slots.length :=
  (focus_iff _ (.create 4) {} _).1

/-- OVERVIEW comes back in front of the focused worker and takes its focus; of three agents the
    first is removed while it is focused, and the two removals focus different agents. -/
theorem focus_lost :
    ¬ (∀ (p : WorkerPool) (b : BacklogState) (calls : List (PoolCall × Moment)) (event : PoolCall × Moment),
      p.New → ¬ event.1.SelectsFocus (final PoolState.step ⟨p, b⟩ calls).pool →
      (final PoolState.step ⟨p, b⟩ calls).KeepsFocus event) ∧
    ¬ ∀ (q : WorkerPool) (agentId : AgentId) (now : Moment), q.RemovalsAgree agentId now := by
  constructor
  · intro all
    have kept := all (.create 4) {} [(.restoreSlot (restoredSlot "agent_001" .developer .idle), ⟨0, 0⟩)]
      (.restoreSlot (restoredSlot "OVERVIEW" .productOwner .idle), ⟨0, 0⟩) (.create 4)
      (by simp [PoolCall.SelectsFocus])
    have lost := kept "agent_001" (by decide)
    exact absurd lost (by decide)
  · intro all
    have agree := all
      { maxSlots := 4
        slots := [restoredSlot "agent_001" .developer (.stopped "user requested"),
          restoredSlot "agent_002" .developer .idle, restoredSlot "agent_003" .developer .idle] }
      "agent_001" ⟨0, 0⟩
    have focus := congrArg Prod.snd agree
    exact absurd focus (by decide)

end

end AgileAgent.Core
