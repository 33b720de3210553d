import AgileAgent.Daemon.EventLoop
import AgileAgent.Daemon.ShutdownSnapshot

/-! # What comes back after a shutdown

The agents of a pool that is saved and restored, compared with those before.
-/

namespace AgileAgent.Core

/-- Blocked or in error. -/
def AgentSlotStatus.inTrouble : AgentSlotStatus → Bool
  | .error _ => true
  | status => status.isBlocked

theorem AgentSlotStatus.inTrouble_running {status : AgentSlotStatus} (trouble : status.inTrouble = true) :
    status.isTerminal = false := by
  cases status with
  | stopped => cases trouble
  | _ => rfl

end AgileAgent.Core

namespace AgileAgent.Daemon

open AgileAgent.Core RuntimeDomain

universe u

variable {Entry : Type u}

/-- An agent before the shutdown and the one that came back for it. -/
structure Recovered (old new : SessionSlot Entry) : Prop where
  agentId : new.agentId = old.agentId
  codename : new.codename = old.codename
  role : new.role = old.role
  transcript : new.transcript = old.transcript
  assignedTaskId : new.assignedTaskId = old.assignedTaskId
  worktreePath : new.worktreePath = old.worktreePath
  worktreeBranch : new.worktreeBranch = old.worktreeBranch
  worktreeId : new.worktreeId = old.worktreeId
  sessionHandle : new.sessionHandle = old.sessionHandle
  stopped : new.status.isTerminal = old.status.isTerminal
  troubled : old.status.inTrouble = true → ¬ (new.status = .idle ∧ new.assignedTaskId.isSome = true)

/-- A thread of Codex belongs to Codex, and a session of Claude to any other provider. -/
def SessionSlot.OwnHandle (slot : SessionSlot Entry) : Prop :=
  ∀ handle, slot.sessionHandle = some handle →
    (slot.providerType = .codex ↔ ∃ threadId, handle = .codexThread threadId)

/-- What a snapshot can bring back: a product owner at the front only, handles of the agent's own
    provider, and no task with an agent that is blocked or in error. -/
structure Restorable (slots : List (SessionSlot Entry)) : Prop where
  owner : ∀ slot ∈ slots.tail, slot.role ≠ .productOwner
  handles : ∀ slot ∈ slots, slot.OwnHandle
  tasks : ∀ slot ∈ slots, slot.status.inTrouble = true → slot.assignedTaskId = none

theorem recovered_roles {before after : List (SessionSlot Entry)}
    (recovered : List.Forall₂ Recovered before after) :
    after.map (fun slot => slot.role) = before.map fun slot => slot.role := by
  induction recovered with
  | nil => rfl
  | cons first _ ih => rw [List.map_cons, List.map_cons, first.role, ih]

/-! ## One agent -/

theorem sessionHandle_sessionId_iff (providerType : ProviderType) (handle : SessionHandle) :
    sessionHandle providerType (sessionId handle) = handle ↔
      (providerType = .codex ↔ ∃ threadId, handle = .codexThread threadId) := by
  cases handle with
  | claudeSession sessionId => cases providerType <;> simp [sessionHandle, Daemon.sessionId]
  | codexThread threadId => cases providerType <;> simp [sessionHandle, Daemon.sessionId]

theorem restored_status (workplace : Workplace Entry) (now : Moment) (slot : SessionSlot Entry) :
    (restoredSlot workplace now slot.snapshot).status =
      if slot.status.isTerminal then .stopped "restored from snapshot" else .idle := by
  unfold restoredSlot SessionSlot.snapshot workerStatus
  cases slot.status.isTerminal with
  | true => rfl
  | false => cases slot.status.isActive <;> rfl

theorem restored_transcript {workplace : Workplace Entry} {slot : SessionSlot Entry}
    (saved : workplace.transcripts slot.agentId = some slot.transcript) (now : Moment) :
    (restoredSlot workplace now slot.snapshot).transcript = slot.transcript := by
  unfold restoredSlot SessionSlot.snapshot
  dsimp only
  rw [saved]
  cases slot.transcript <;> rfl

/-- With its transcript in its file, an agent comes back apart from its handle and its trouble. -/
theorem recovered_iff {workplace : Workplace Entry} {slot : SessionSlot Entry}
    (saved : workplace.transcripts slot.agentId = some slot.transcript) (now : Moment) :
    Recovered slot (restoredSlot workplace now slot.snapshot) ↔
      slot.OwnHandle ∧ (slot.status.inTrouble = true → slot.assignedTaskId = none) := by
  have handle_iff : (restoredSlot workplace now slot.snapshot).sessionHandle = slot.sessionHandle ↔
      slot.OwnHandle := by
    unfold SessionSlot.OwnHandle
    cases isHandle : slot.sessionHandle with
    | none => simp [restoredSlot, SessionSlot.snapshot, isHandle]
    | some handle =>
        simp [restoredSlot, SessionSlot.snapshot, isHandle, sessionHandle_sessionId_iff]
  have task : (restoredSlot workplace now slot.snapshot).assignedTaskId = slot.assignedTaskId := rfl
  have status := restored_status workplace now slot
  constructor
  · intro recovered
    refine ⟨handle_iff.mp recovered.sessionHandle, fun trouble => ?_⟩
    have idle := status.trans (if_neg (by simp [AgentSlotStatus.inTrouble_running trouble]))
    by_contra holds
    exact recovered.troubled trouble ⟨idle, task ▸ Option.isSome_iff_ne_none.mpr holds⟩
  · rintro ⟨own, noTask⟩
    refine ⟨rfl, rfl, rfl, restored_transcript saved now, rfl, rfl, rfl, rfl, handle_iff.mpr own, ?_, ?_⟩
    · rw [status]
      cases slot.status.isTerminal <;> rfl
    · rintro trouble ⟨-, holds⟩
      rw [task, noTask trouble] at holds
      cases holds

/-! ## The files -/

theorem transcripts_other {slots : List (SessionSlot Entry)} {agentId : AgentId}
    (absent : agentId ∉ slots.map fun slot => slot.agentId)
    (transcripts : AgentId → Option (List Entry)) :
    saveTranscripts transcripts slots agentId = transcripts agentId := by
  induction slots generalizing transcripts with
  | nil => rfl
  | cons slot rest ih =>
      rw [List.map_cons, List.mem_cons, not_or] at absent
      rw [saveTranscripts, ih absent.2, Function.update_of_ne absent.1]

/-- Agents with ids of their own do not overwrite each other's files. -/
theorem saved_transcript {slots : List (SessionSlot Entry)} {slot : SessionSlot Entry}
    (distinct : (slots.map fun slot => slot.agentId).Nodup) (member : slot ∈ slots)
    (transcripts : AgentId → Option (List Entry)) :
    saveTranscripts transcripts slots slot.agentId = some slot.transcript := by
  induction slots generalizing transcripts with
  | nil => cases member
  | cons first rest ih =>
      rw [List.map_cons, List.nodup_cons] at distinct
      rw [saveTranscripts]
      rcases List.mem_cons.mp member with rfl | later
      · rw [transcripts_other distinct.1, Function.update_self]
      · exact ih distinct.2 later _

/-! ## The pool -/

namespace SessionPool

/-- Restore one slot after another. -/
def restoreAll (p : SessionPool Entry) (slots : List (SessionSlot Entry)) : SessionPool Entry :=
  slots.foldl (fun p slot => (p.restoreSlot slot).2) p

/-- A product owner goes to the front, and there is only one. -/
theorem restoreSlot_owner {p : SessionPool Entry} (first : ∀ slot ∈ p.slots.tail, slot.role ≠ .productOwner)
    (slot : SessionSlot Entry) : ∀ other ∈ (p.restoreSlot slot).2.slots.tail, other.role ≠ .productOwner := by
  unfold restoreSlot
  split
  · exact first
  · split
    · exact first
    · split
      · exact first
      · next alone =>
          intro other member
          by_cases owner : slot.role = .productOwner
          · simp only [owner, ↓reduceIte, List.tail_cons] at member
            simp only [owner, decide_true, Bool.true_and, hasOverview, List.any_eq_true,
              decide_eq_true_eq, not_exists, not_and] at alone
            exact alone other member
          · simp only [owner, ↓reduceIte] at member
            cases slots : p.slots with
            | nil => simp [slots] at member
            | cons head rest =>
                rw [slots, List.cons_append, List.tail_cons, List.mem_append] at member
                rcases member with before | last
                · exact first other (slots ▸ before)
                · rwa [List.mem_singleton.mp last]

theorem restoreAll_owner {p : SessionPool Entry} (first : ∀ slot ∈ p.slots.tail, slot.role ≠ .productOwner)
    (slots : List (SessionSlot Entry)) :
    ∀ slot ∈ (p.restoreAll slots).slots.tail, slot.role ≠ .productOwner := by
  unfold restoreAll
  induction slots generalizing p with
  | nil => exact first
  | cons slot rest ih => exact ih (restoreSlot_owner first slot)

theorem restoreSlot_mem {p : SessionPool Entry} {slot other : SessionSlot Entry}
    (member : other ∈ (p.restoreSlot slot).2.slots) : other ∈ p.slots ∨ other = slot := by
  unfold restoreSlot at member
  split at member
  · exact .inl member
  · split at member
    · exact .inl member
    · split at member
      · exact .inl member
      · by_cases owner : slot.role = .productOwner
        · simpa [owner, or_comm] using member
        · simpa [owner] using member

theorem restoreAll_mem {p : SessionPool Entry} {slots : List (SessionSlot Entry)}
    {other : SessionSlot Entry} (member : other ∈ (p.restoreAll slots).slots) :
    other ∈ p.slots ∨ other ∈ slots := by
  unfold restoreAll at member
  induction slots generalizing p with
  | nil => exact .inl member
  | cons slot rest ih =>
      rcases ih member with restored | later
      · rcases restoreSlot_mem restored with before | rfl
        · exact .inl before
        · exact .inr List.mem_cons_self
      · exact .inr (List.mem_cons_of_mem _ later)

/-- Every agent has an id of its own, and there are no more than the pool takes. -/
structure Fits (p : SessionPool Entry) : Prop where
  distinct : (p.slots.map fun slot => slot.agentId).Nodup
  few : p.slots.length ≤ p.maxSlots

theorem restoreSlot_fits {p : SessionPool Entry} (fits : p.Fits) (slot : SessionSlot Entry) :
    (p.restoreSlot slot).2.Fits ∧ (p.restoreSlot slot).2.maxSlots = p.maxSlots := by
  unfold restoreSlot
  split
  · exact ⟨fits, rfl⟩
  · next room =>
      split
      · exact ⟨fits, rfl⟩
      · next new =>
          split
          · exact ⟨fits, rfl⟩
          · simp only [canSpawn, Bool.not_eq_true', decide_eq_false_iff_not, not_not] at room
            simp only [List.any_eq_true, decide_eq_true_eq, not_exists, not_and] at new
            have all : ((slot :: p.slots).map fun slot => slot.agentId).Nodup :=
              List.nodup_cons.mpr ⟨by simpa using new, fits.distinct⟩
            refine ⟨⟨?_, ?_⟩, rfl⟩
            · dsimp only
              split
              · exact all
              · exact ((List.perm_append_singleton slot p.slots).map _).nodup_iff.mpr all
            · dsimp only
              split <;> simpa using Nat.succ_le_of_lt room

theorem restoreAll_fits {p : SessionPool Entry} (fits : p.Fits) (slots : List (SessionSlot Entry)) :
    (p.restoreAll slots).Fits ∧ (p.restoreAll slots).maxSlots = p.maxSlots := by
  unfold restoreAll
  induction slots generalizing p with
  | nil => exact ⟨fits, rfl⟩
  | cons slot rest ih =>
      obtain ⟨next, same⟩ := restoreSlot_fits fits slot
      exact (ih next).imp_right (·.trans same)

/-- There is room for a new agent at the end, if it is no product owner or the first one. -/
theorem restoreSlot_slots {p : SessionPool Entry} {slot : SessionSlot Entry}
    (room : p.slots.length < p.maxSlots) (new : ∀ other ∈ p.slots, other.agentId ≠ slot.agentId)
    (owner : p.slots = [] ∨ slot.role ≠ .productOwner) :
    (p.restoreSlot slot).2.slots = p.slots ++ [slot] ∧
      (p.restoreSlot slot).2.maxSlots = p.maxSlots := by
  have known : (p.slots.any fun existing => existing.agentId = slot.agentId) = false := by
    simpa using new
  unfold restoreSlot
  rw [known]
  simp only [canSpawn, room, decide_true, Bool.not_true, Bool.false_eq_true, ↓reduceIte]
  rcases owner with empty | worker
  · have alone : p.hasOverview = false := by simp [hasOverview, empty]
    rw [alone]
    simp [empty]
  · simp [worker]

theorem restoreAll_slots {p : SessionPool Entry} {slots : List (SessionSlot Entry)}
    (room : (p.slots ++ slots).length ≤ p.maxSlots)
    (distinct : ((p.slots ++ slots).map fun slot => slot.agentId).Nodup)
    (owner : ∀ slot ∈ (p.slots ++ slots).tail, slot.role ≠ .productOwner) :
    (p.restoreAll slots).slots = p.slots ++ slots := by
  unfold restoreAll
  induction slots generalizing p with
  | nil => exact (List.append_nil _).symm
  | cons slot rest ih =>
      have new : ∀ other ∈ p.slots, other.agentId ≠ slot.agentId := by
        intro other member same
        rw [List.map_append, List.nodup_append] at distinct
        exact distinct.2.2 _ (List.mem_map_of_mem member) _ List.mem_cons_self same
      have first : p.slots = [] ∨ slot.role ≠ .productOwner := by
        cases slots : p.slots with
        | nil => exact .inl rfl
        | cons head others => exact .inr (owner slot (by simp [slots]))
      have fits : p.slots.length < p.maxSlots := by
        rw [List.length_append, List.length_cons] at room
        omega
      obtain ⟨restored, sameMax⟩ := restoreSlot_slots fits new first
      have moved : p.slots ++ slot :: rest = (p.restoreSlot slot).2.slots ++ rest := by
        rw [restored, List.append_assoc, List.singleton_append]
      rw [moved] at room distinct owner ⊢
      exact ih (sameMax ▸ room) distinct owner

end SessionPool

/-! ## Saving and restoring -/

/-- All agents of a snapshot are restored, one after another. -/
theorem restoreFrom_slots {workplace : Workplace Entry} {agents : List (AgentShutdownSnapshot Entry)}
    (isSnapshot : workplace.snapshot = some agents) (maxAgents : Nat) (now : Moment) :
    restoreFromShutdownSnapshot workplace maxAgents now =
      SessionPool.restoreAll { maxSlots := maxAgents } (agents.map (restoredSlot workplace now)) := by
  simp only [restoreFromShutdownSnapshot, isSnapshot, SessionPool.restoreAll, List.foldl_map]

/-- Agents that come back where no product owner stands behind the first place had none there. -/
theorem recovered_owner {slots new : List (SessionSlot Entry)} (recovered : List.Forall₂ Recovered slots new)
    (front : ∀ slot ∈ new.tail, slot.role ≠ .productOwner) :
    ∀ slot ∈ slots.tail, slot.role ≠ .productOwner := by
  have roles := congrArg List.tail (recovered_roles recovered)
  rw [← List.map_tail, ← List.map_tail] at roles
  intro slot member isOwner
  have inRoles : AgentRole.productOwner ∈ slots.tail.map fun slot => slot.role :=
    List.mem_map.mpr ⟨slot, member, isOwner⟩
  rw [← roles] at inRoles
  obtain ⟨other, inside, again⟩ := List.mem_map.mp inRoles
  exact front other inside again

/-- The agents of a saved pool come back as they were, in their order, exactly if a snapshot can
    bring them back. -/
theorem recovered_iff_restorable (workplace : Workplace Entry) (pool : SessionPool Entry) (maxAgents : Nat)
    (now : Moment) (distinct : (pool.slots.map fun slot => slot.agentId).Nodup)
    (few : pool.slots.length ≤ maxAgents) :
    List.Forall₂ Recovered pool.slots (restoreFromShutdownSnapshot
      (saveShutdownSnapshot workplace pool) maxAgents now).slots ↔ Restorable pool.slots := by
  let saved := saveShutdownSnapshot workplace pool
  let back (slot : SessionSlot Entry) := restoredSlot saved now slot.snapshot
  have restored : restoreFromShutdownSnapshot saved maxAgents now =
      SessionPool.restoreAll { maxSlots := maxAgents } (pool.slots.map back) := by
    have isSnapshot : saved.snapshot = some (pool.slots.map SessionSlot.snapshot) := rfl
    rw [restoreFrom_slots isSnapshot, List.map_map]
    rfl
  have each : ∀ slot ∈ pool.slots, Recovered slot (back slot) ↔
      slot.OwnHandle ∧ (slot.status.inTrouble = true → slot.assignedTaskId = none) :=
    fun slot member => recovered_iff (saved_transcript distinct member workplace.transcripts) now
  have inOrder (owner : ∀ slot ∈ pool.slots.tail, slot.role ≠ .productOwner) :
      (restoreFromShutdownSnapshot saved maxAgents now).slots = pool.slots.map back := by
    rw [restored]
    refine SessionPool.restoreAll_slots ?_ ?_ ?_
    · simpa using few
    · simpa [back, restoredSlot, SessionSlot.snapshot, AgentSlot.restoredWithWorktree, AgentSlot.build,
        Function.comp_def] using distinct
    · simp only [List.nil_append, ← List.map_tail, List.forall_mem_map]
      exact owner
  constructor
  · intro recovered
    have front := @SessionPool.restoreAll_owner Entry { maxSlots := maxAgents } (by simp)
      (pool.slots.map back)
    rw [← restored] at front
    have owner := recovered_owner recovered front
    have all := recovered
    rw [inOrder owner, List.forall₂_map_right_iff, List.forall₂_same] at all
    refine ⟨owner, fun slot member => ?_, fun slot member => ?_⟩
    · exact ((each slot member).mp (all slot member)).1
    · exact ((each slot member).mp (all slot member)).2
  · intro restorable
    have slots := inOrder restorable.owner
    rw [slots, List.forall₂_map_right_iff, List.forall₂_same]
    exact fun slot member => (each slot member).mpr
      ⟨restorable.handles slot member, restorable.tasks slot member⟩

/-- A product owner, and a worker on Codex that has a thread and a task. -/
def ownerAndWorker : SessionPool String where
  slots :=
    [{ AgentSlot.withRole "OVERVIEW" "OVERVIEW" .productOwner ⟨0, 0⟩ with
        providerType := .claude
        transcript := ["plan"] },
      { AgentSlot.create "agent_001" "alpha" ⟨0, 0⟩ with
        providerType := .codex
        sessionHandle := some (.codexThread "thread-7")
        assignedTaskId := some "task-1" }]
  maxSlots := 4
  nextAgentIndex := 2

theorem ownerAndWorker_recovered : List.Forall₂ Recovered ownerAndWorker.slots
    (restoreFromShutdownSnapshot (saveShutdownSnapshot {} ownerAndWorker) 4 ⟨9, 0⟩).slots := by
  refine (recovered_iff_restorable {} ownerAndWorker 4 ⟨9, 0⟩ (by decide) (by decide)).mpr
    ⟨by decide, ?_, by decide⟩
  simp [ownerAndWorker, SessionSlot.OwnHandle]

/-- Whatever was saved, what comes back can be saved and restored again. -/
theorem restored_restorable (workplace : Workplace Entry) (maxAgents : Nat) (now : Moment) :
    let pool := restoreFromShutdownSnapshot workplace maxAgents now
    (pool.slots.map fun slot => slot.agentId).Nodup ∧ pool.slots.length ≤ maxAgents ∧
      Restorable pool.slots := by
  cases isSnapshot : workplace.snapshot with
  | none =>
      simp only [restoreFromShutdownSnapshot, isSnapshot]
      exact ⟨by simp, by simp, by simp, by simp, by simp⟩
  | some agents =>
      have restored := restoreFrom_slots isSnapshot maxAgents now
      have empty : ({ maxSlots := maxAgents } : SessionPool Entry).Fits := ⟨by simp, by simp⟩
      obtain ⟨fits, same⟩ := SessionPool.restoreAll_fits empty (agents.map (restoredSlot workplace now))
      rw [← restored] at fits same
      have saved : ∀ slot ∈ (restoreFromShutdownSnapshot workplace maxAgents now).slots,
          ∃ agent, slot = restoredSlot workplace now agent := by
        intro slot member
        rw [restored] at member
        rcases SessionPool.restoreAll_mem member with none | here
        · cases none
        · obtain ⟨agent, -, rfl⟩ := List.mem_map.mp here
          exact ⟨agent, rfl⟩
      refine ⟨fits.distinct, fits.few.trans_eq same, ?_, fun slot member => ?_, fun slot member trouble => ?_⟩
      · rw [restored]
        exact SessionPool.restoreAll_owner (by simp) _
      · obtain ⟨agent, rfl⟩ := saved slot member
        intro handle isHandle
        obtain ⟨id, -, rfl⟩ := Option.map_eq_some_iff.mp isHandle
        rw [← sessionHandle_sessionId_iff]
        simp only [restoredSlot]
        cases agent.agentMeta.providerType <;> rfl
      · obtain ⟨agent, rfl⟩ := saved slot member
        cases status : agent.agentMeta.status <;>
          simp [restoredSlot, status, AgentSlot.restoredWithWorktree, AgentSlot.build,
            AgentSlotStatus.inTrouble, AgentSlotStatus.isBlocked] at trouble

end AgileAgent.Daemon

namespace AgileAgent.Daemon

open AgileAgent.Core RuntimeDomain

local instance reasonsLowered : Unicode := ⟨String.toLower⟩

/-- A worker with a task whose provider fails. -/
def failedPool : SessionPool String where
  slots := (Machine.final (EventLoop.step true)
    { agentPool := ((WorkerPool.create 4).spawnWorker ⟨0, 0⟩).2.modifySlot "agent_001"
        (·.tryAssign "task-1" ⟨0, 0⟩) }
    (EventLoop.steps [(.sendInput "agent_001" "hello" (some 1), ⟨1, 0⟩),
      (.tick [("agent_001", .error "overloaded")] [] [], ⟨2, 0⟩)])).agentPool.slots.map fun slot =>
        { slot.toAgentSlot with
          providerType := .mock
          assignedTaskId := slot.assignedTaskId
          transcript := ["hello", "overloaded"] }
  maxSlots := 4
  nextAgentIndex := 2

/-- The blocked worker comes back idle, and still has its task. -/
theorem blocked_worker_idle : ¬ ∀ (Entry : Type) (workplace : Workplace Entry) (pool : SessionPool Entry)
    (maxAgents : Nat) (now : Moment), (pool.slots.map fun slot => slot.agentId).Nodup →
    pool.slots.length ≤ maxAgents →
    List.Forall₂ Recovered pool.slots (restoreFromShutdownSnapshot
      (saveShutdownSnapshot workplace pool) maxAgents now).slots := by
  intro all
  have recovered := all String {} failedPool 4 ⟨9, 0⟩ (by decide +kernel) (by decide +kernel)
  have worker := (List.forall₂_iff_get.mp recovered).2 0 (by decide +kernel) (by decide +kernel)
  exact worker.troubled (by decide +kernel) (by decide +kernel)

end AgileAgent.Daemon
