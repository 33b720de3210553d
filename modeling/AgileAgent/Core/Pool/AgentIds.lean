import AgileAgent.Core.Pool.Roster

/-! # Agent ids

The pool numbers its workers. The counter stays above the number of every agent that was ever
in the pool, as long as no product owner comes back under a number the counter has not reached.
-/

namespace AgileAgent.Core

open Backlog RuntimeDomain
open Machine (final final_snoc)

theorem parseAgentIndex_agentName (n : Nat) :
    parseAgentIndex (agentName n) = if n < 2 ^ 64 then some n else none := by
  have stripped : "agent_".toList.isPrefixOf? (agentName n).toList = some (Numeral.padded 3 n) := by
    simp [agentName, List.isPrefixOf?]
  rw [parseAgentIndex, stripped, Option.bind_some, Numeral.parse_padded]

theorem agentName_injective {n m : Nat} (same : agentName n = agentName m) : n = m := by
  have letters : (agentName n).toList = (agentName m).toList := congrArg String.toList same
  have digits : Numeral.padded 3 n = Numeral.padded 3 m := by simpa [agentName] using letters
  exact Numeral.padded_injective digits

theorem agentName_ne_overview (n : Nat) : agentName n ≠ "OVERVIEW" := by
  intro same
  have letters := congrArg String.toList same
  simp [agentName] at letters

/-- The ids pools give to agents. -/
def Issued (agentId : AgentId) : Prop := agentId = "OVERVIEW" ∨ ∃ n < 2 ^ 64, agentId = agentName n

/-- A slot that may come back: its id was issued, OVERVIEW is the product owner, and a product
    owner with a number is one the counter has passed or will see. -/
structure Returns (r : Roster) (agent : AgentId × AgentRole) : Prop where
  issued : Issued agent.1
  overview : agent.1 = "OVERVIEW" → agent.2 = .productOwner
  counted : agent.2 = .productOwner → ∀ n, parseAgentIndex agent.1 = some n →
    n < r.nextAgentIndex ∨ r.ids.getLast?.bind parseAgentIndex = none

/-- The agent was in the pool at some time of the run. -/
def EverPresent [Unicode] (start : PoolState) (calls : List (PoolCall × Moment)) (agentId : AgentId) :
    Prop :=
  ∃ front, front <+: calls ∧ agentId ∈ (final PoolState.step start front).pool.roster.ids

/-- A call brings back only slots that may come back. -/
def PoolCall.InOrder (r : Roster) (call : PoolCall) : Prop :=
  ∀ slot, call = .restoreSlot slot → r.Restorable slot.agent → Returns r slot.agent

def Orderly [Unicode] (start : PoolState) (calls : List (PoolCall × Moment)) : Prop :=
  ∀ front event, front ++ [event] <+: calls →
    event.1.InOrder (final PoolState.step start front).pool.roster

/-- The id of the agent a call spawned. -/
def PoolReply.spawned : PoolReply → Option AgentId
  | .agentId (.ok spawned) | .profiled (.ok spawned) => some spawned
  | _ => none

def PoolCall.spawnsWorker : PoolCall → Bool
  | .spawnWorker | .spawnWorkerWithProfile _ => true
  | _ => false

namespace Roster

variable {r r' : Roster} {call : PoolCall} {agent : AgentId × AgentRole} {seen : AgentId → Prop}

/-- The pool is not too full, and only the first agent may be a product owner. -/
structure Sized (r : Roster) : Prop where
  room : r.agents.length ≤ r.maxSlots
  owner : ∀ i agent, r.agents[i]? = some agent → agent.2 = .productOwner → i = 0

/-- The agents differ, and the counter is above every worker that was ever seen. -/
structure Numbered (r : Roster) (seen : AgentId → Prop) : Prop where
  distinct : r.ids.Nodup
  overview : ∀ agent ∈ r.agents, agent.1 = "OVERVIEW" → agent.2 = .productOwner
  present : ∀ agentId ∈ r.ids, seen agentId
  below : ∀ n, seen (agentName n) → n < r.nextAgentIndex

end Roster

theorem WorkerPool.le_restoredIndex (ids : List AgentId) (next : Nat) : next ≤ restoredIndex ids next := by
  unfold restoredIndex
  split
  · exact Nat.le_max_left _ _
  · split
    · exact Nat.le_max_left _ _
    · exact Nat.le_refl _

/-- The counter passes the number of the last agent, and every number when the last agent has
    none. -/
theorem WorkerPool.lt_restoredIndex {ids : List AgentId} {agentId : AgentId} {n : Nat} (next : Nat)
    (number : parseAgentIndex agentId = some n) (member : agentId ∈ ids)
    (visible : ids.getLast? = some agentId ∨ ids.getLast?.bind parseAgentIndex = none) :
    n < restoredIndex ids next := by
  unfold restoredIndex
  rcases visible with last | unnumbered
  · rw [last, Option.bind_some, number]
    exact Nat.lt_of_succ_le (Nat.le_max_right _ _)
  · rw [unnumbered]
    have listed : n ∈ ids.filterMap parseAgentIndex := List.mem_filterMap.mpr ⟨agentId, member, number⟩
    cases largest : (ids.filterMap parseAgentIndex).max? with
    | none =>
        rw [List.max?_eq_none_iff] at largest
        rw [largest] at listed
        cases listed
    | some m =>
        have above : n ≤ (ids.filterMap parseAgentIndex).max?.getD 0 := List.le_max?_getD_of_mem listed
        rw [largest, Option.getD_some] at above
        exact Nat.lt_of_le_of_lt above (Nat.lt_of_succ_le (Nat.le_max_right _ _))

namespace Roster

variable {r r' : Roster} {call : PoolCall} {agent : AgentId × AgentRole} {seen : AgentId → Prop}

theorem not_mem_of_not_hasOverview (single : ¬ r.HasOverview) {i : Nat}
    (here : r.agents[i]? = some agent) : agent.2 ≠ .productOwner :=
  fun isOwner => single ⟨agent, List.mem_of_getElem? here, isOwner⟩

/-- A product owner at the front of a roster without one. -/
theorem owner_cons (single : ¬ r.HasOverview) {i : Nat} {other : AgentId × AgentRole}
    (here : (agent :: r.agents)[i]? = some other) (isOwner : other.2 = .productOwner) : i = 0 := by
  cases i with
  | zero => rfl
  | succ i => exact absurd isOwner (not_mem_of_not_hasOverview single (by simpa using here))

/-- Somebody else at the end. -/
theorem owner_append (sized : r.Sized) (notOwner : agent.2 ≠ .productOwner) {i : Nat}
    {other : AgentId × AgentRole} (here : (r.agents ++ [agent])[i]? = some other)
    (isOwner : other.2 = .productOwner) : i = 0 := by
  rcases Nat.lt_or_ge i r.agents.length with inside | after
  · rw [List.getElem?_append_left inside] at here
    exact sized.owner i other here isOwner
  · rw [List.getElem?_append_right after] at here
    have same : other = agent := by simpa using List.mem_of_getElem? here
    exact absurd isOwner (same ▸ notOwner)

theorem sized_step (sized : r.Sized) (step : r.Step call r') : r'.Sized := by
  cases step with
  | same => exact sized
  | spawned _ room =>
      refine ⟨?_, fun i other here => owner_append sized (by simp) here⟩
      simp only [spawn, List.length_append, List.length_singleton]
      exact room
  | overview room single =>
      refine ⟨?_, fun i other here => owner_cons single here⟩
      simp only [spawnOverview, List.length_cons]
      exact room
  | restored restorable =>
      refine ⟨?_, ?_⟩
      · simp only [restore, (insert_perm r _).length_eq, List.length_cons]
        exact restorable.room
      · intro i other here
        simp only [restore, insert] at here
        split at here
        · next isOwner => exact owner_cons (restorable.single isOwner) here
        · next notOwner => exact owner_append sized notOwner here
  | removed here =>
      refine ⟨(List.length_eraseIdx_le _ _).trans sized.room, ?_⟩
      intro i other there isOwner
      simp only [remove, List.getElem?_eraseIdx] at there
      split at there
      · exact sized.owner i other there isOwner
      · exact absurd (sized.owner (i + 1) other there isOwner) (by omega)
  | focused => exact ⟨sized.room, sized.owner⟩

theorem maxSlots_step (step : r.Step call r') : r'.maxSlots = r.maxSlots := by
  cases step <;> rfl

/-- A number that comes back is below the counter it leaves. -/
theorem lt_restore (returns : Returns r agent) {n : Nat} (isName : agent.1 = agentName n) :
    n < (r.restore agent).nextAgentIndex := by
  have number : parseAgentIndex agent.1 = some n := by
    rcases returns.issued with isOverview | ⟨m, small, isNumber⟩
    · exact absurd (isName.symm.trans isOverview) (agentName_ne_overview n)
    · obtain rfl := agentName_injective (isName.symm.trans isNumber)
      rw [isName, parseAgentIndex_agentName, if_pos small]
  have member : agent.1 ∈ (r.insert agent).map Prod.fst :=
    List.mem_map_of_mem ((insert_perm r agent).mem_iff.mpr List.mem_cons_self)
  simp only [restore]
  by_cases isOwner : agent.2 = .productOwner
  · rcases returns.counted isOwner n number with passed | unnumbered
    · exact Nat.lt_of_lt_of_le passed (WorkerPool.le_restoredIndex _ _)
    · refine WorkerPool.lt_restoredIndex _ number member ?_
      simp only [insert, isOwner, if_true, List.map_cons]
      cases others : r.agents with
      | nil => exact .inl rfl
      | cons other rest => simpa [ids, others, List.getLast?_cons_cons] using Or.inr unnumbered
  · refine WorkerPool.lt_restoredIndex _ number member (.inl ?_)
    simp [insert, isOwner]

theorem numbered_step (numbered : r.Numbered seen) (step : r.Step call r') (inOrder : call.InOrder r) :
    r'.Numbered fun agentId => seen agentId ∨ agentId ∈ r'.ids := by
  have old : ∀ n, agentName n ∈ r.ids → n < r.nextAgentIndex := fun n member =>
    numbered.below n (numbered.present _ member)
  cases step with
  | same =>
      exact ⟨numbered.distinct, numbered.overview, fun _ => .inr, fun n known =>
        known.elim (numbered.below n) (old n)⟩
  | spawned =>
      have fresh : agentName r.nextAgentIndex ∉ r.ids := fun member =>
        Nat.lt_irrefl _ (old _ member)
      have spawned : r.spawn.ids = r.ids ++ [agentName r.nextAgentIndex] := by simp [ids, spawn]
      refine ⟨?_, ?_, fun _ => .inr, ?_⟩
      · rw [spawned, (List.perm_append_singleton _ r.ids).nodup_iff]
        exact List.nodup_cons.mpr ⟨fresh, numbered.distinct⟩
      · intro agent member isOverview
        rcases List.mem_append.mp member with inside | last
        · exact numbered.overview agent inside isOverview
        · rw [List.mem_singleton] at last
          exact absurd isOverview (last ▸ agentName_ne_overview _)
      · intro n known
        rw [spawned, List.mem_append, List.mem_singleton] at known
        have next : r.spawn.nextAgentIndex = r.nextAgentIndex + 1 := rfl
        rw [next]
        rcases known with before | inside | last
        · exact Nat.lt_succ_of_lt (numbered.below n before)
        · exact Nat.lt_succ_of_lt (old n inside)
        · exact Nat.lt_succ_of_le (agentName_injective last).le
  | overview _ single =>
      have fresh : "OVERVIEW" ∉ r.ids := by
        intro member
        obtain ⟨agent, inside, isOverview⟩ := List.mem_map.mp member
        exact single ⟨agent, inside, numbered.overview agent inside isOverview⟩
      refine ⟨?_, ?_, fun _ => .inr, ?_⟩
      · exact List.nodup_cons.mpr ⟨fresh, numbered.distinct⟩
      · intro agent member isOverview
        rcases List.mem_cons.mp member with rfl | inside
        · rfl
        · exact numbered.overview agent inside isOverview
      · rintro n (before | present)
        · exact numbered.below n before
        · rcases List.mem_cons.mp present with isOverview | inside
          · exact absurd isOverview (agentName_ne_overview n)
          · exact old n inside
  | @restored slot restorable =>
      have returns := inOrder slot rfl restorable
      have perm := insert_perm r slot.agent
      have idsPerm : (r.restore slot.agent).ids.Perm (slot.agent.1 :: r.ids) := perm.map Prod.fst
      have counts : r.nextAgentIndex ≤ (r.restore slot.agent).nextAgentIndex :=
        WorkerPool.le_restoredIndex _ _
      refine ⟨?_, ?_, fun _ => .inr, ?_⟩
      · rw [idsPerm.nodup_iff]
        exact List.nodup_cons.mpr ⟨restorable.absent, numbered.distinct⟩
      · intro agent member isOverview
        rcases List.mem_cons.mp (perm.mem_iff.mp member) with rfl | inside
        · exact returns.overview isOverview
        · exact numbered.overview agent inside isOverview
      · rintro n (before | present)
        · exact Nat.lt_of_lt_of_le (numbered.below n before) counts
        · rcases List.mem_cons.mp (idsPerm.mem_iff.mp present) with isName | inside
          · exact lt_restore returns isName.symm
          · exact Nat.lt_of_lt_of_le (old n inside) counts
  | @removed _ index =>
      have left : (r.agents.eraseIdx index).Sublist r.agents := List.eraseIdx_sublist _ _
      refine ⟨numbered.distinct.sublist (left.map _), fun agent member =>
        numbered.overview agent (left.subset member), fun _ => .inr, ?_⟩
      rintro n (before | present)
      · exact numbered.below n before
      · exact old n ((left.map _).subset present)
  | focused =>
      exact ⟨numbered.distinct, numbered.overview, fun _ => .inr, fun n known =>
        known.elim (numbered.below n) (old n)⟩

end Roster

namespace PoolState

variable [Unicode] {p : WorkerPool} {b : BacklogState}

theorem everPresent_snoc (start : PoolState) (calls : List (PoolCall × Moment))
    (event : PoolCall × Moment) (agentId : AgentId) :
    EverPresent start (calls ++ [event]) agentId ↔ EverPresent start calls agentId ∨
      agentId ∈ (final step start (calls ++ [event])).pool.roster.ids := by
  constructor
  · rintro ⟨front, inside, present⟩
    rcases List.prefix_concat_iff.mp inside with rfl | earlier
    · exact .inr present
    · exact .inl ⟨front, earlier, present⟩
  · rintro (⟨front, inside, present⟩ | present)
    · exact ⟨front, inside.trans (List.prefix_append _ _), present⟩
    · exact ⟨calls ++ [event], List.prefix_rfl, present⟩

theorem orderly_snoc (start : PoolState) (calls : List (PoolCall × Moment)) (event : PoolCall × Moment) :
    Orderly start (calls ++ [event]) ↔
      Orderly start calls ∧ event.1.InOrder (final step start calls).pool.roster := by
  constructor
  · intro orderly
    exact ⟨fun front call inside => orderly front call (inside.trans (List.prefix_append _ _)),
      orderly calls event List.prefix_rfl⟩
  · rintro ⟨orderly, inOrder⟩ front call inside
    rcases List.prefix_concat_iff.mp inside with last | earlier
    · obtain ⟨rfl, same⟩ := List.append_inj' last rfl
      cases same
      exact inOrder
    · exact orderly front call earlier

theorem orderly_nil (start : PoolState) : Orderly start [] := by
  intro front event inside
  simp at inside

theorem final_sized (new : p.New) (calls : List (PoolCall × Moment)) :
    (final step ⟨p, b⟩ calls).pool.roster.Sized ∧
      (final step ⟨p, b⟩ calls).pool.roster.maxSlots = p.maxSlots := by
  induction calls using List.reverseRecOn with
  | nil => cases new <;> exact ⟨⟨Nat.zero_le _, by simp [WorkerPool.roster,
      WorkerPool.create, WorkerPool.withBlockedConfig, WorkerPool.newWithWorktrees]⟩, rfl⟩
  | append_singleton calls event ih =>
      have next := step_roster (final step ⟨p, b⟩ calls) event.1 event.2
      rw [final_snoc]
      exact ⟨Roster.sized_step ih.1 next, (Roster.maxSlots_step next).trans ih.2⟩

theorem final_numbered (new : p.New) (calls : List (PoolCall × Moment)) (orderly : Orderly ⟨p, b⟩ calls) :
    (final step ⟨p, b⟩ calls).pool.roster.Numbered (EverPresent ⟨p, b⟩ calls) := by
  induction calls using List.reverseRecOn with
  | nil =>
      have empty : p.roster.agents = [] := by cases new <;> rfl
      have nobody : ∀ agentId, ¬ EverPresent ⟨p, b⟩ [] agentId := by
        rintro agentId ⟨front, inside, present⟩
        rw [List.prefix_nil.mp inside] at present
        simp [Roster.ids, final, empty] at present
      exact ⟨by simp [Roster.ids, final, empty], by simp [final, empty],
        by simp [Roster.ids, final, empty], fun n known => absurd known (nobody _)⟩
  | append_singleton calls event ih =>
      obtain ⟨earlier, inOrder⟩ := (orderly_snoc _ _ _).mp orderly
      have next := Roster.numbered_step (ih earlier) (step_roster _ event.1 event.2) inOrder
      have seen : EverPresent ⟨p, b⟩ (calls ++ [event]) = fun agentId => EverPresent ⟨p, b⟩ calls agentId ∨
          agentId ∈ ((final step ⟨p, b⟩ calls).step event).2.pool.roster.ids := by
        funext agentId
        rw [eq_iff_iff, everPresent_snoc, final_snoc]
      rw [seen, final_snoc]
      exact next

/-- A worker is named by the counter. -/
theorem spawned_worker {s : PoolState} {call : PoolCall} {now : Moment} {agentId : AgentId}
    (spawns : call.spawnsWorker) (spawned : (s.step (call, now)).1.spawned = some agentId) :
    agentId = agentName s.pool.nextAgentIndex := by
  cases call with
  | spawnWorker =>
      simp only [step, onPool, WorkerPool.spawnWorker] at spawned
      split at spawned
      · exact (Option.some.inj spawned).symm
      · cases spawned
  | spawnWorkerWithProfile =>
      simp only [step, onPool, WorkerPool.spawnWorkerWithProfile] at spawned
      split at spawned
      · cases spawned
      · split at spawned
        · cases spawned
        · split at spawned
          · exact (Option.some.inj spawned).symm
          · cases spawned
  | _ => cases spawns

end PoolState

/-- In every state of every run the pool keeps its size and its order. As long as every slot that
    comes back may do so, agents differ, and a worker gets an id no agent of the pool ever had. -/
theorem agents_distinct [Unicode] (p : WorkerPool) (new : p.New) (b : BacklogState)
    (calls : List (PoolCall × Moment)) :
    let s := final PoolState.step ⟨p, b⟩ calls
    s.pool.slots.length ≤ p.maxSlots ∧ s.pool.maxSlots = p.maxSlots ∧
    (∀ i slot, s.pool.slots[i]? = some slot → slot.role = .productOwner → i = 0) ∧
    (Orderly ⟨p, b⟩ calls → (s.pool.slots.map fun slot => slot.agentId).Nodup ∧
      ∀ (call : PoolCall) (now : Moment) (agentId : AgentId), call.spawnsWorker →
        (s.step (call, now)).1.spawned = some agentId → ¬ EverPresent ⟨p, b⟩ calls agentId) := by
  obtain ⟨sized, kept⟩ := PoolState.final_sized (b := b) new calls
  refine ⟨?_, kept, ?_, ?_⟩
  · have room := sized.room
    rw [kept] at room
    simpa [WorkerPool.roster] using room
  · intro i slot here isOwner
    exact sized.owner i slot.agent (by simp [WorkerPool.roster, here]) isOwner
  · intro orderly
    have numbered := PoolState.final_numbered new calls orderly
    refine ⟨by simpa using numbered.distinct, ?_⟩
    intro call now agentId spawns spawned present
    rw [PoolState.spawned_worker spawns spawned] at present
    exact Nat.lt_irrefl _ (numbered.below _ present)

section

open Plain

/-- A worker is spawned, OVERVIEW comes back, and the next worker is a new one. -/
theorem overview_returns :
    ¬ EverPresent ⟨.create 4, {}⟩ [(.spawnWorker, ⟨0, 0⟩),
      (.restoreSlot (restoredSlot "OVERVIEW" .productOwner .idle), ⟨0, 0⟩)] (agentName 2) := by
  have distinct := agents_distinct _ (.create 4) {} [(.spawnWorker, ⟨0, 0⟩),
    (.restoreSlot (restoredSlot "OVERVIEW" .productOwner .idle), ⟨0, 0⟩)]
  have orderly : Orderly ⟨.create 4, {}⟩ [(.spawnWorker, ⟨0, 0⟩),
      (.restoreSlot (restoredSlot "OVERVIEW" .productOwner .idle), ⟨0, 0⟩)] := by
    refine (PoolState.orderly_snoc _ [_] _).mpr ⟨(PoolState.orderly_snoc _ [] _).mpr
      ⟨PoolState.orderly_nil _, by simp [PoolCall.InOrder]⟩, ?_⟩
    rintro slot ⟨⟩ -
    exact ⟨.inl rfl, fun _ => rfl, fun _ n number => absurd number (by
      have unnumbered : parseAgentIndex "OVERVIEW" = none := by decide
      simp [restoredSlot, PoolSlot.agent, AgentSlot.restored, AgentSlot.restoredWithWorktree,
        AgentSlot.build, unnumbered])⟩
  exact (distinct.2.2.2 orderly).2 .spawnWorker ⟨0, 0⟩ (agentName 2) rfl (by decide)

/-- OVERVIEW is stopped, removed and spawned again, under its one name. -/
theorem overview_respawned : ¬ ∀ (p : WorkerPool) (b : BacklogState) (calls : List (PoolCall × Moment)),
    p.New → (∀ slot now, (.restoreSlot slot, now) ∈ calls → Issued slot.agentId) →
    ∀ (call : PoolCall) (now : Moment) (agentId : AgentId),
      ((final PoolState.step ⟨p, b⟩ calls).step (call, now)).1.spawned = some agentId →
      ¬ EverPresent ⟨p, b⟩ calls agentId := by
  intro all
  have fresh := all (.create 4) {} [(.spawnOverviewAgent, ⟨0, 0⟩), (.stopAgent "OVERVIEW", ⟨1, 1⟩),
    (.removeAgent "OVERVIEW", ⟨2, 2⟩)] (.create 4) (by simp) .spawnOverviewAgent ⟨3, 3⟩ "OVERVIEW" (by decide)
  exact fresh ⟨[(.spawnOverviewAgent, ⟨0, 0⟩)], by simp, by decide⟩

end

end AgileAgent.Core
