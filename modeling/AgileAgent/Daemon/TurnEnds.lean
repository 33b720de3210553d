import AgileAgent.RuntimeDomain.Lifecycle
import AgileAgent.Core.Pool.Effects
import AgileAgent.Daemon.EventLoop

/-! # The ends of turns

A worker that completes or fails asks for its termination, and the loop carries that out after the
lock is released. Whether the agent is left idle and its next turn alone is a question of the
commands that wait.
-/

namespace AgileAgent.RuntimeDomain.Worker

theorem moveTo_agentId (w : Worker) (target : WorkerState) (commands : List RuntimeCommand) :
    (w.moveTo target commands).2.agentId = w.agentId := by
  cases allowed : w.state.canTransitionTo target with
  | true => rw [moveTo_allowed allowed]
  | false => rw [moveTo_barred allowed]

theorem respond_agentId (w : Worker) (commands : List RuntimeCommand) :
    (w.respond commands).2.agentId = w.agentId := by
  unfold respond
  split
  · rfl
  · exact moveTo_agentId ..

theorem apply_agentId (w : Worker) (event : DomainEvent) : (w.apply event).2.agentId = w.agentId := by
  unfold apply
  cases event with
  | status text =>
      simp only [handle]
      split
      · exact moveTo_agentId ..
      · rfl
  | finished | error | execCommandStarted | genericToolCallStarted | webSearchStarted
  | mcpToolCallStarted | patchApplyStarted => exact moveTo_agentId ..
  | assistantChunk | thinkingChunk | execCommandFinished | genericToolCallFinished
  | webSearchFinished | mcpToolCallFinished | patchApplyFinished => exact respond_agentId ..
  | _ => rfl

theorem notifyIf_mem {w : Worker} {condition : Bool} {message : String} {command : RuntimeCommand}
    (member : command ∈ w.notifyIf condition message) : command = .notifyUser w.agentId message := by
  unfold notifyIf at member
  split at member
  · exact List.mem_singleton.mp member
  · cases member

/-- A worker only notifies the user and, at the end of its work, asks for its own termination. -/
theorem handle_emits {w : Worker} {event : DomainEvent} {commands : List RuntimeCommand}
    {command : RuntimeCommand} (accepted : (w.handle event).1 = .ok commands) (member : command ∈ commands) :
    (∃ message, command = .notifyUser w.agentId message) ∨
      ∃ reason, command = .terminate w.agentId reason ∧
        (event = .finished ∧ w.state.canTransitionTo .completed = true ∨
          ∃ message, event = .error message) := by
  cases event with
  | finished =>
      obtain ⟨allowed, rfl, -⟩ := moveTo_inv accepted
      exact .inr ⟨_, List.mem_singleton.mp member, .inl ⟨rfl, allowed⟩⟩
  | error message =>
      obtain ⟨-, rfl, -⟩ := moveTo_inv accepted
      rcases List.mem_cons.mp member with rfl | last
      · exact .inl ⟨_, rfl⟩
      · exact .inr ⟨_, List.mem_singleton.mp last, .inr ⟨_, rfl⟩⟩
  | status text =>
      simp only [handle] at accepted
      split at accepted
      · obtain ⟨-, rfl, -⟩ := moveTo_inv accepted
        cases member
      · cases accepted
        exact .inl ⟨_, notifyIf_mem member⟩
  | execCommandStarted | genericToolCallStarted | webSearchStarted | mcpToolCallStarted
  | patchApplyStarted =>
      obtain ⟨-, rfl, -⟩ := moveTo_inv accepted
      cases member
  | assistantChunk | thinkingChunk | webSearchFinished =>
      obtain ⟨rfl, -⟩ := respond_inv accepted
      cases member
  | execCommandFinished | genericToolCallFinished | mcpToolCallFinished | patchApplyFinished =>
      obtain ⟨rfl, -⟩ := respond_inv accepted
      exact .inl ⟨_, notifyIf_mem member⟩
  | _ =>
      cases accepted
      cases member

theorem apply_emits {w : Worker} {event : DomainEvent} {commands : List RuntimeCommand}
    {command : RuntimeCommand} (accepted : (w.apply event).1 = .ok commands) (member : command ∈ commands) :
    (∃ message, command = .notifyUser w.agentId message) ∨
      ∃ reason, command = .terminate w.agentId reason ∧
        (event = .finished ∧ w.state.canTransitionTo .completed = true ∨
          ∃ message, event = .error message) := by
  exact handle_emits (w := { w with transcript := w.transcript.append event }) accepted member

end AgileAgent.RuntimeDomain.Worker

namespace AgileAgent.Core

open RuntimeDomain

/-- Every constructor gives the slot a worker of its own. -/
theorem AgentSlot.Built.owns {s : AgentSlot} (built : s.Built) : s.worker.agentId = s.agentId := by
  cases built <;> rfl

/-- From this status a turn ends in `idle`. -/
def AgentSlotStatus.finishes (s : AgentSlotStatus) : Bool :=
  s.isActive || s.isIdle || s.isWaitingForInput

theorem AgentSlotStatus.active_idles {s : AgentSlotStatus} (active : s.isActive = true) :
    s.canTransitionTo .idle = true := by
  cases s with
  | starting | responding | toolExecuting | finishing => rfl
  | _ => cases active

namespace PoolSlot

variable [Unicode] {s : PoolSlot} {event : DomainEvent} {now : Moment}

@[simp] theorem awaken_identity (s : PoolSlot) (now : Moment) : (s.awaken now).identity = s.identity := by
  unfold awaken
  dsimp only
  split
  · exact tryTransition_identity ..
  · rfl

@[simp] theorem updateState_identity (s : PoolSlot) (now : Moment) (event : DomainEvent) :
    (s.updateState now event).identity = s.identity := by
  unfold updateState
  split
  · split
    · exact tryTransition_identity ..
    · rfl
  · exact tryTransition_identity ..
  · rfl
  · rfl

@[simp] theorem poll_identity (s : PoolSlot) (event : DomainEvent) (now : Moment) :
    (s.poll event now).identity = s.identity := by
  unfold poll
  rw [updateState_identity, ← awaken_identity s now]
  simp [identity, Worker.apply_agentId]

@[simp] theorem disconnect_identity (s : PoolSlot) (now : Moment) :
    (s.disconnect now).identity = s.identity := by
  unfold disconnect
  dsimp only
  split
  · exact tryTransition_identity ..
  · rfl

@[simp] theorem begin_identity (s : PoolSlot) (prompt : Option String) (threadHandle : Nat)
    (now : Moment) : (s.begin prompt threadHandle now).identity = s.identity := by
  unfold begin
  cases prompt with
  | none => exact tryTransition_identity ..
  | some text => exact tryTransition_identity ..

/-- An idle slot stays idle under all events but errors. -/
theorem poll_idle (idle : s.status = .idle) (free : s.eventRx = none) (noError : ∀ e, event ≠ .error e)
    (now : Moment) : (s.poll event now).status = .idle ∧ (s.poll event now).eventRx = none := by
  have awake : s.awaken now = { s with lastActivity := now.instant } := by
    simp [awaken, idle, AgentSlotStatus.isWaitingForInput]
  unfold poll
  rw [awake]
  cases event with
  | finished => simp [updateState, idle, AgentSlotStatus.isActive, clearProviderThread]
  | error e => exact absurd rfl (noError e)
  | _ => exact ⟨idle, free⟩

/-- The end of a turn leaves the slot idle and without a thread. -/
theorem poll_finished (finishes : s.status.finishes = true) (now : Moment) :
    (s.poll .finished now).status = .idle ∧ (s.poll .finished now).eventRx = none := by
  refine ⟨?_, rfl⟩
  have awake : (s.awaken now).status.isActive = true ∨ (s.awaken now).status = .idle := by
    unfold awaken
    dsimp only
    cases status : s.status with
    | waitingForInput since =>
        simp [AgentSlotStatus.isWaitingForInput, tryTransition_status,
          AgentSlotStatus.canTransitionTo, AgentSlotStatus.isActive]
    | idle | starting | responding | toolExecuting | finishing =>
        simp [AgentSlotStatus.isWaitingForInput, AgentSlotStatus.isActive]
    | _ => simp [AgentSlotStatus.finishes, status, AgentSlotStatus.isActive, AgentSlotStatus.isIdle,
        AgentSlotStatus.isWaitingForInput] at finishes
  unfold poll updateState clearProviderThread
  dsimp only
  rcases awake with active | idle
  · rw [if_pos active]
    exact (tryTransition_status ..).trans (if_pos (AgentSlotStatus.active_idles active))
  · rw [if_neg (by simp [idle, AgentSlotStatus.isActive])]
    exact idle

/-- A slot without a receiver of its own takes a provider and responds. -/
theorem begin_status (s : PoolSlot) (prompt : Option String) (threadHandle : Nat) (now : Moment) :
    (s.begin prompt threadHandle now).status = .responding now.instant := by
  unfold begin
  cases prompt with
  | none => rfl
  | some text => rfl

end PoolSlot

/-- The action may lead to an instruction, which starts a provider. -/
def DecisionAction.instructs (a : DecisionAction) : Bool :=
  a.actionType = "custom_instruction" || a.actionType = "reflect" || a.actionType = "retry" ||
    a.actionType = "continue_all_tasks"

namespace WorkerPool

variable {p q r : WorkerPool} {agentId : AgentId} {now : Moment} {change : PoolSlot → PoolSlot}

/-- Between the two pools only the slot of the agent has changed, and no slot its owner. -/
structure OnlyChanges (agentId : AgentId) (p q : WorkerPool) : Prop where
  owners : q.slots.map PoolSlot.identity = p.slots.map PoolSlot.identity
  others : ∀ other, other ≠ agentId → q.getSlotById other = p.getSlotById other

theorem OnlyChanges.refl (agentId : AgentId) (p : WorkerPool) : OnlyChanges agentId p p :=
  ⟨rfl, fun _ _ => rfl⟩

theorem OnlyChanges.trans (first : OnlyChanges agentId p q) (second : OnlyChanges agentId q r) :
    OnlyChanges agentId p r :=
  ⟨second.owners.trans first.owners, fun other differs =>
    (second.others other differs).trans (first.others other differs)⟩

theorem modifySlot_onlyChanges (same : ∀ slot, (change slot).identity = slot.identity) :
    OnlyChanges agentId p (p.modifySlot agentId change) where
  owners := FirstMatch.map_modify same
  others other differs := by
    rw [getSlotById_modifySlot (fun slot => congrArg Prod.fst (same slot)), if_neg differs]

theorem spawnWorker_owners (owners : ∀ owner ∈ p.slots.map PoolSlot.identity, owner.2 = owner.1)
    (now : Moment) :
    ∀ owner ∈ (p.spawnWorker now).2.slots.map PoolSlot.identity, owner.2 = owner.1 := by
  unfold spawnWorker
  split
  · intro owner member
    rw [pushWorker, List.map_append, List.mem_append] at member
    rcases member with before | new
    · exact owners owner before
    · rw [List.mem_singleton.mp new]
      exact AgentSlot.Built.owns (.create _ _ _)
  · exact owners

variable [Unicode]

theorem executeAction_onlyChanges (p : WorkerPool) (agentId : AgentId) (action : DecisionAction)
    (now : Moment) : OnlyChanges agentId p (p.executeAction agentId action now).2 := by
  obtain ⟨change, humanQueue, keeps, result⟩ := p.executeAction_modifies agentId action now
  rw [result]
  have modified : OnlyChanges agentId p (p.modifySlot agentId change) :=
    modifySlot_onlyChanges fun slot => (keeps slot).2
  exact ⟨modified.owners, modified.others⟩

theorem executeActions_onlyChanges (p : WorkerPool) (agentId : AgentId) (actions : List DecisionAction)
    (now : Moment) : OnlyChanges agentId p (executeActions agentId now p actions).2 := by
  induction actions generalizing p with
  | nil => exact .refl ..
  | cons action rest ih => exact (p.executeAction_onlyChanges agentId action now).trans (ih _)

theorem executeDecisionAction_onlyChanges (p : WorkerPool) (agentId : AgentId)
    (actions : List DecisionAction) (now : Moment) :
    OnlyChanges agentId p (p.executeDecisionAction agentId actions now).2 := by
  unfold executeDecisionAction
  split
  · exact .refl ..
  · split
    · exact .refl ..
    · split
      · exact .refl ..
      · exact p.executeActions_onlyChanges agentId actions now

theorem stopAgent_onlyChanges (p : WorkerPool) (agentId : AgentId) (now : Moment) :
    OnlyChanges agentId p (p.stopAgent agentId now).2 := by
  unfold stopAgent
  split
  · exact .refl ..
  · split
    · exact .refl ..
    · exact modifySlot_onlyChanges fun slot => slot.tryTransition_identity _ _

theorem executeAction_instructs {action : DecisionAction} {instruction : String}
    (result : (p.executeAction agentId action now).1 = .customInstruction instruction) :
    action.instructs = true := by
  unfold executeAction at result
  split at result
  · unfold executeSelectOption at result
    split at result <;> cases result
  · unfold executeSkip at result
    split at result <;> cases result
  · cases result
  · next isType => simp [DecisionAction.instructs, isType]
  · cases result
  · next isType => simp [DecisionAction.instructs, isType]
  · cases result
  · next isType => simp [DecisionAction.instructs, isType]
  · next isType => simp [DecisionAction.instructs, isType]
  · cases result
  · unfold executePrepareTaskStart at result
    split at result <;> cases result
  · cases result

/-- An instruction comes from an action that gives one. -/
theorem executeDecisionAction_instructs {actions : List DecisionAction} {instruction : String}
    (result : .customInstruction instruction ∈ (p.executeDecisionAction agentId actions now).1) :
    actions.any (·.instructs) = true := by
  have each (p : WorkerPool) (actions : List DecisionAction)
      (result : .customInstruction instruction ∈ (executeActions agentId now p actions).1) :
      actions.any (·.instructs) = true := by
    induction actions generalizing p with
    | nil => cases result
    | cons action rest ih =>
        rw [List.any_cons, Bool.or_eq_true]
        rcases List.mem_cons.mp result with first | later
        · exact .inl (executeAction_instructs first.symm)
        · exact .inr (ih _ later)
  unfold executeDecisionAction at result
  split at result
  · simp at result
  · split at result
    · simp at result
    · split at result
      · simp at result
      · exact each p actions result

end WorkerPool

end AgileAgent.Core

namespace AgileAgent.Daemon.EventLoop

open AgileAgent.Core RuntimeDomain

/-! ## Commands that wait -/

/-- The command was emitted, and has not been dispatched. -/
def Waits (l : EventLoop) (command : Command) : Prop :=
  command ∈ l.commands ∨ ∃ agentId, command ∈ l.commandQueue agentId

/-- No turn of the agent has left a termination that waits. -/
def Calm (l : EventLoop) (agentId : AgentId) : Prop :=
  ∀ reason turn, ¬ l.Waits ⟨.terminate agentId reason, some turn⟩

/-- A termination spares an agent that has started another turn. Who finished a turn, and has got
    neither an input nor a decision since, is idle and accepts the next input. -/
structure Sound (x : Machine.Step EventLoop (Step × Moment) Output) : Prop where
  spared : ∀ agentId reason turn rest, x.event.1 = .dispatch →
    x.before.commands = ⟨.terminate agentId reason, some turn⟩ :: rest →
    turn < x.before.turn agentId → x.after.agentPool = x.before.agentPool
  idle : ∀ agentId slot, x.after.rested agentId = true →
    x.after.agentPool.getSlotById agentId = some slot → slot.status = .idle
  accepted : ∀ agentId text thread slot, x.event.1 = .sendInput agentId text (some thread) →
    x.before.rested agentId = true → x.before.agentPool.getSlotById agentId = some slot →
    x.output = .accepted (.ok ()) ∧ ∃ started, x.after.agentPool.getSlotById agentId = some started ∧
      started.status = .responding x.event.2.instant

variable [Unicode]

/-- The end of a turn does harm only if commands can be dispatched: if the worker completes with it,
    or if the agent gets on while the termination of a failed turn waits. A turn that ends for an
    agent that is not at work does not make it idle. -/
def Harmless (blocking : Bool) (l : EventLoop) (call : Step × Moment) : Prop :=
  match call.1 with
  | .event agentId .finished => ∀ slot, l.agentPool.getSlotById agentId = some slot →
      (blocking = true → (slot.awaken call.2).worker.state.canTransitionTo .completed = false) ∧
      (l.receivers agentId = true → slot.status.finishes = true)
  | .decision agentId actions _ =>
      blocking = true → actions.any (·.instructs) = true → l.Calm agentId
  | .sendInput agentId _ _ => blocking = true → l.Calm agentId
  | _ => True

/-- What harmless steps keep. -/
structure Kept (blocking : Bool) (l : EventLoop) : Prop where
  owners : ∀ owner ∈ l.agentPool.slots.map PoolSlot.identity, owner.2 = owner.1
  idle : ∀ agentId slot, l.rested agentId = true → l.agentPool.getSlotById agentId = some slot →
    slot.status = .idle ∧ slot.eventRx = none
  waiting : ∀ command turn, l.Waits ⟨command, some turn⟩ →
    (∃ agentId message, command = .notifyUser agentId message) ∨
    ∃ agentId reason, command = .terminate agentId reason ∧
      (blocking = true → turn = l.turn agentId ∧ l.rested agentId = false ∧ l.receivers agentId = false)

variable {blocking : Bool} {l l' : EventLoop} {agentId : AgentId} {now : Moment}

omit [Unicode] in
/-- A change of one agent, in which agents with a termination that waits do not get on. -/
theorem Kept.change (kept : l.Kept blocking)
    (pool : WorkerPool.OnlyChanges agentId l.agentPool l'.agentPool)
    (waits : ∀ command turn, l'.Waits ⟨command, some turn⟩ → l.Waits ⟨command, some turn⟩)
    (others : ∀ other, other ≠ agentId → l'.rested other = true → l.rested other = true)
    (idle : ∀ slot, l'.rested agentId = true → l'.agentPool.getSlotById agentId = some slot →
      slot.status = .idle ∧ slot.eventRx = none)
    (stays : blocking = true → ∀ other, ¬ l.Calm other → l'.turn other = l.turn other ∧
      (l'.rested other = true → l.rested other = true) ∧
      (l'.receivers other = true → l.receivers other = true)) : l'.Kept blocking where
  owners := by
    rw [pool.owners]
    exact kept.owners
  idle other slot rested found := by
    by_cases same : other = agentId
    · subst same
      exact idle slot rested found
    · rw [pool.others other same] at found
      exact kept.idle other slot (others other same rested) found
  waiting command turn waits' := by
    have waited := waits command turn waits'
    rcases kept.waiting command turn waited with notify | ⟨other, reason, rfl, facts⟩
    · exact .inl notify
    · refine .inr ⟨other, reason, rfl, fun blocks => ?_⟩
      obtain ⟨isTurn, notRested, noReceiver⟩ := facts blocks
      obtain ⟨turns, rested, receivers⟩ := stays blocks other fun calm => calm reason turn waited
      refine ⟨isTurn.trans turns.symm, ?_, ?_⟩
      · rw [← Bool.not_eq_true]
        exact fun rests => absurd (rested rests) (by simp [notRested])
      · rw [← Bool.not_eq_true]
        exact fun receives => absurd (receivers receives) (by simp [noReceiver])

omit [Unicode] in
theorem Kept.slot_owner (kept : l.Kept blocking) {slot : PoolSlot}
    (found : l.agentPool.getSlotById agentId = some slot) : slot.worker.agentId = agentId :=
  (kept.owners slot.identity (List.mem_map_of_mem (List.mem_of_find?_eq_some found))).trans
    (WorkerPool.getSlotById_agentId found)

theorem emitted_mem {slot : PoolSlot} {event : DomainEvent} {command : RuntimeCommand}
    (member : command ∈ slot.emitted event now) :
    (∃ message, command = .notifyUser slot.worker.agentId message) ∨
      ∃ reason, command = .terminate slot.worker.agentId reason ∧
        (event = .finished ∧ (slot.awaken now).worker.state.canTransitionTo .completed = true ∨
          ∃ message, event = .error message) := by
  have owner : (slot.awaken now).worker.agentId = slot.worker.agentId :=
    congrArg Prod.snd (slot.awaken_identity now)
  unfold PoolSlot.emitted at member
  split at member
  · next commands accepted =>
      rw [← owner]
      exact Worker.apply_emits accepted member
  · cases member

omit [Unicode] in
/-- Who is in a set that one agent was taken out of, was in it and is another one. -/
theorem of_update_false {agents : AgentId → Bool} {other : AgentId}
    (isIn : Function.update agents agentId false other = true) :
    other ≠ agentId ∧ agents other = true := by
  by_cases same : other = agentId
  · subst same
    rw [Function.update_self] at isIn
    cases isIn
  · exact ⟨same, by rwa [Function.update_of_ne same] at isIn⟩

/-- Who rests after an event rested before it and does not fail, or finishes a turn with it. -/
theorem pollProviderEvent_rested {event : DomainEvent} {other : AgentId} (now : Moment)
    (rested : (l.pollProviderEvent agentId event now).2.rested other = true) :
    l.rested other = true ∧ (other = agentId → ∀ e, event ≠ .error e) ∨
      other = agentId ∧ event = .finished ∧ l.receivers agentId = true := by
  simp only [pollProviderEvent] at rested
  split at rested
  · next ends =>
      by_cases same : other = agentId
      · exact .inr ⟨same, ends⟩
      · rw [Function.update_of_ne same] at rested
        exact .inl ⟨rested, fun isAgent => absurd isAgent same⟩
  · split at rested
    · next quiet =>
        refine .inl ⟨rested, fun _ e isError => ?_⟩
        subst isError
        simp [endsTurn] at quiet
    · obtain ⟨differs, before⟩ := of_update_false rested
      exact .inl ⟨before, fun isAgent => absurd isAgent differs⟩

theorem pollProviderEvent_receivers {event : DomainEvent} {other : AgentId} (now : Moment)
    (receives : (l.pollProviderEvent agentId event now).2.receivers other = true) :
    l.receivers other = true := by
  simp only [pollProviderEvent] at receives
  split at receives
  · exact (of_update_false receives).2
  · exact receives

/-- What waits after an event waited before, or the worker has just emitted it. -/
theorem pollProviderEvent_waits {event : DomainEvent} {command : RuntimeCommand} {turn : Nat}
    (waits : (l.pollProviderEvent agentId event now).2.Waits ⟨command, some turn⟩) :
    l.Waits ⟨command, some turn⟩ ∨
      turn = l.turn agentId ∧ ∃ slot, l.agentPool.getSlotById agentId = some slot ∧
        command ∈ slot.emitted event now := by
  rcases waits with inCommands | ⟨other, inQueue⟩
  · exact .inl (.inl inCommands)
  · by_cases same : other = agentId
    · subst same
      simp only [pollProviderEvent, Function.update_self, List.mem_append, List.mem_map,
        Command.mk.injEq, Option.some.injEq] at inQueue
      rcases inQueue with before | ⟨_, emitted, rfl, isTurn⟩
      · exact .inl (.inr ⟨other, before⟩)
      · cases found : l.agentPool.getSlotById other with
        | none => simp [found] at emitted
        | some slot => exact .inr ⟨isTurn.symm, slot, rfl, by rwa [found] at emitted⟩
    · simp only [pollProviderEvent, Function.update_of_ne same] at inQueue
      exact .inl (.inr ⟨other, inQueue⟩)

omit [Unicode] in
/-- An agent whose termination waits has no receiver, so that no turn of it ends. -/
theorem Kept.no_receiver (kept : l.Kept blocking) (blocks : blocking = true) (waits : ¬ l.Calm agentId) :
    l.receivers agentId = false := by
  obtain ⟨reason, turn, waiting⟩ : ∃ reason turn, l.Waits ⟨.terminate agentId reason, some turn⟩ := by
    simpa [Calm] using waits
  rcases kept.waiting _ _ waiting with ⟨_, _, notify⟩ | ⟨_, _, isCommand, facts⟩
  · cases notify
  · cases isCommand
    exact (facts blocks).2.2

/-- The event with its commands left out. -/
theorem pollProviderEvent_slots_kept (kept : l.Kept blocking) (event : DomainEvent)
    (harmless : Harmless blocking l (.event agentId event, now)) :
    ({ (l.pollProviderEvent agentId event now).2 with
      commandQueue := l.commandQueue } : EventLoop).Kept blocking := by
  refine kept.change (WorkerPool.modifySlot_onlyChanges fun slot => slot.poll_identity event now)
    (fun _ _ waits => waits) (fun other differs rested => ?_) (fun slot rested found => ?_)
    fun blocks other waits => ⟨rfl, fun rested => ?_, fun receives =>
      pollProviderEvent_receivers now receives⟩
  · rcases pollProviderEvent_rested now rested with ⟨before, -⟩ | ⟨isAgent, -⟩
    · exact before
    · exact absurd isAgent differs
  · simp only [pollProviderEvent] at found
    rw [WorkerPool.getSlotById_modifySlot (fun slot => congrArg Prod.fst (slot.poll_identity event now)),
      if_pos rfl, Option.map_eq_some_iff] at found
    obtain ⟨before, found, rfl⟩ := found
    rcases pollProviderEvent_rested now rested with ⟨rested, noError⟩ | ⟨-, rfl, receives⟩
    · obtain ⟨idle, free⟩ := kept.idle agentId before rested found
      exact PoolSlot.poll_idle idle free (noError rfl) now
    · exact PoolSlot.poll_finished ((harmless before found).2 receives) now
  · rcases pollProviderEvent_rested now rested with ⟨before, -⟩ | ⟨rfl, -, receives⟩
    · exact before
    · rw [kept.no_receiver blocks waits] at receives
      cases receives

theorem pollProviderEvent_kept (kept : l.Kept blocking) (event : DomainEvent)
    (harmless : Harmless blocking l (.event agentId event, now)) :
    (l.pollProviderEvent agentId event now).2.Kept blocking := by
  have polled := pollProviderEvent_slots_kept kept event harmless
  refine ⟨polled.owners, polled.idle, fun command turn waits => ?_⟩
  rcases pollProviderEvent_waits waits with before | ⟨rfl, slot, found, emitted⟩
  · exact polled.waiting command turn before
  · rcases emitted_mem emitted with ⟨message, rfl⟩ | ⟨reason, rfl, ⟨rfl, completes⟩ | ⟨message, rfl⟩⟩
    · exact .inl ⟨_, _, rfl⟩
    · refine .inr ⟨_, _, rfl, fun blocks => ?_⟩
      rw [(harmless slot found).1 blocks] at completes
      cases completes
    · refine .inr ⟨_, _, rfl, fun _ => ?_⟩
      rw [kept.slot_owner found]
      simp [pollProviderEvent, endsTurn]

theorem cleanUpChannel_kept (kept : l.Kept blocking) (agentId : AgentId) (now : Moment) :
    (l.cleanUpChannel agentId now).Kept blocking := by
  refine kept.change (WorkerPool.modifySlot_onlyChanges fun slot => slot.disconnect_identity now)
    (fun _ _ waits => waits) (fun _ _ rested => rested) (fun slot rested found => ?_)
    fun _ other _ => ⟨rfl, fun rested => rested, fun receives => (of_update_false receives).2⟩
  simp only [cleanUpChannel] at found
  rw [WorkerPool.getSlotById_modifySlot (fun slot => congrArg Prod.fst (slot.disconnect_identity now)),
    if_pos rfl, Option.map_eq_some_iff] at found
  obtain ⟨before, found, rfl⟩ := found
  obtain ⟨idle, -⟩ := kept.idle agentId before rested found
  simp [PoolSlot.disconnect, PoolSlot.clearProviderThread, idle, AgentSlotStatus.isActive]

/-! ## Starting a provider -/

/-- A provider is not started, or the agent is on its next turn. -/
theorem startProviderForAgentInner_cases (l : EventLoop) (agentId : AgentId) (text : String)
    (recordUserPrompt : Bool) (thread : Option Nat) (now : Moment) :
    (l.startProviderForAgentInner agentId text recordUserPrompt thread now).2 = l ∨
      ∃ prompt threadHandle, (l.startProviderForAgentInner agentId text recordUserPrompt thread now).2 =
        { l with
          agentPool := l.agentPool.modifySlot agentId (·.begin prompt threadHandle now)
          receivers := Function.update l.receivers agentId true
          turn := Function.update l.turn agentId (l.turn agentId + 1)
          rested := Function.update l.rested agentId false } := by
  unfold startProviderForAgentInner
  split
  · exact .inl rfl
  · split
    · exact .inl rfl
    · split
      · exact .inl rfl
      · exact .inr ⟨_, _, rfl⟩

theorem startProviderForAgentInner_kept (kept : l.Kept blocking)
    (calm : blocking = true → l.Calm agentId) (text : String) (recordUserPrompt : Bool)
    (thread : Option Nat) (now : Moment) :
    (l.startProviderForAgentInner agentId text recordUserPrompt thread now).2.Kept blocking := by
  rcases l.startProviderForAgentInner_cases agentId text recordUserPrompt thread now with
    same | ⟨prompt, threadHandle, started⟩
  · rwa [same]
  · rw [started]
    refine kept.change
      (WorkerPool.modifySlot_onlyChanges fun slot => slot.begin_identity prompt threadHandle now)
      (fun _ _ waits => waits) (fun other _ rested => (of_update_false rested).2)
      (fun slot rested _ => absurd rfl (of_update_false rested).1) fun blocks other waits => ?_
    have differs : other ≠ agentId := fun same => waits (same ▸ calm blocks)
    simp [Function.update_of_ne differs]

/-- The commands that wait are those of before. -/
theorem startProviderForAgentInner_waits (l : EventLoop) (agentId : AgentId) (text : String)
    (recordUserPrompt : Bool) (thread : Option Nat) (now : Moment) :
    (l.startProviderForAgentInner agentId text recordUserPrompt thread now).2.Waits = l.Waits := by
  rcases l.startProviderForAgentInner_cases agentId text recordUserPrompt thread now with
    same | ⟨prompt, threadHandle, started⟩
  · rw [same]
  · rw [started]
    rfl

/-! ## Decisions -/

/-- Only instructions have an effect on the loop, and no result has one on the commands. -/
theorem followUp_kept {threads : Nat → Option Nat} (kept : l.Kept blocking)
    (result : DecisionExecutionResult × Nat)
    (calm : (∃ instruction, result.1 = .customInstruction instruction) → blocking = true →
      l.Calm agentId) :
    (followUp agentId threads now l result).Kept blocking ∧
      (followUp agentId threads now l result).Waits = l.Waits := by
  unfold followUp
  split
  · next instruction instructs =>
      split
      · exact ⟨startProviderForAgentInner_kept kept (calm ⟨instruction, instructs⟩) ..,
          l.startProviderForAgentInner_waits ..⟩
      · exact ⟨kept, rfl⟩
  · exact ⟨kept, rfl⟩

theorem followUps_kept {threads : Nat → Option Nat} {results : List (DecisionExecutionResult × Nat)}
    (kept : l.Kept blocking)
    (calm : (∃ result ∈ results, ∃ instruction, result.1 = .customInstruction instruction) →
      blocking = true → l.Calm agentId) :
    (results.foldl (followUp agentId threads now) l).Kept blocking := by
  induction results generalizing l with
  | nil => exact kept
  | cons result rest ih =>
      obtain ⟨next, waits⟩ : (followUp agentId threads now l result).Kept blocking ∧
          (followUp agentId threads now l result).Waits = l.Waits :=
        followUp_kept kept result fun instructs => calm ⟨result, List.mem_cons_self, instructs⟩
      refine ih next fun ⟨later, member, instructs⟩ blocks => ?_
      unfold Calm
      rw [waits]
      exact calm ⟨later, List.mem_cons_of_mem _ member, instructs⟩ blocks

theorem executeLegacy_kept (kept : l.Kept blocking) (actions : List DecisionAction)
    (threads : Nat → Option Nat) (now : Moment)
    (calm : blocking = true → actions.any (·.instructs) = true → l.Calm agentId) :
    (l.executeLegacy agentId actions threads now).Kept blocking := by
  refine followUps_kept ?_ ?_
  · exact kept.change (l.agentPool.executeDecisionAction_onlyChanges agentId actions now)
      (fun _ _ waits => waits) (fun _ _ rested => (of_update_false rested).2)
      (fun _ rested _ => absurd rfl (of_update_false rested).1)
      fun _ _ _ => ⟨rfl, fun rested => (of_update_false rested).2, fun receives => receives⟩
  · intro ⟨result, member, instruction, instructs⟩ blocks
    have given := List.fst_mem_of_mem_zipIdx member
    rw [instructs] at given
    exact calm blocks (WorkerPool.executeDecisionAction_instructs given)

theorem handleDecision_kept (kept : l.Kept blocking) (actions : List DecisionAction)
    (threads : Nat → Option Nat) (now : Moment)
    (calm : blocking = true → actions.any (·.instructs) = true → l.Calm agentId) :
    (l.handleDecision agentId actions threads now).Kept blocking := by
  unfold handleDecision
  split
  · split
    · exact executeLegacy_kept kept actions threads now calm
    · exact ⟨kept.owners, kept.idle, kept.waiting⟩
  · exact executeLegacy_kept kept actions threads now calm

/-! ## Collecting and dispatching -/

omit [Unicode] in
theorem drainCommands_mem {queue : AgentId → List Command} {agents : List AgentId} {command : Command} :
    (command ∈ (drainCommands queue agents).1 → ∃ agentId, command ∈ queue agentId) ∧
      ∀ agentId, command ∈ (drainCommands queue agents).2 agentId → command ∈ queue agentId := by
  induction agents generalizing queue with
  | nil =>
      refine ⟨fun member => ?_, fun _ member => member⟩
      cases member
  | cons first rest ih =>
      obtain ⟨drained, left⟩ := @ih (Function.update queue first [])
      have before {agentId : AgentId} (member : command ∈ Function.update queue first [] agentId) :
          command ∈ queue agentId := by
        by_cases same : agentId = first
        · subst same
          simp at member
        · rwa [Function.update_of_ne same] at member
      refine ⟨fun member => ?_, fun agentId member => before (left agentId member)⟩
      rcases List.mem_append.mp member with here | later
      · exact ⟨first, here⟩
      · obtain ⟨agentId, inQueue⟩ := drained later
        exact ⟨agentId, before inQueue⟩

omit [Unicode] in
theorem collectCommands_kept (kept : l.Kept blocking) : l.collectCommands.Kept blocking := by
  refine ⟨kept.owners, kept.idle, fun command turn waits => kept.waiting command turn ?_⟩
  rcases waits with inCommands | ⟨agentId, inQueue⟩
  · simp only [collectCommands, List.mem_append, List.mem_map, Command.mk.injEq, reduceCtorEq,
      and_false, exists_false, or_false] at inCommands
    rcases inCommands with before | drained
    · exact .inl before
    · exact .inr (drainCommands_mem.1 drained)
  · exact .inr ⟨agentId, drainCommands_mem.2 agentId inQueue⟩

/-- A handler changes the agent of its command, and starts nothing. -/
theorem handle_onlyChanges (l : EventLoop) (command : RuntimeCommand) (now : Moment) :
    WorkerPool.OnlyChanges (agentOf command) l.agentPool (l.handle command now).agentPool ∧
      (l.handle command now).Waits = l.Waits ∧ (l.handle command now).turn = l.turn ∧
      (l.handle command now).rested = l.rested ∧
      ∀ other, (l.handle command now).receivers other = true → l.receivers other = true := by
  cases command with
  | notifyUser agentId message =>
      exact ⟨WorkerPool.modifySlot_onlyChanges fun _ => rfl, rfl, rfl, rfl, fun _ receives => receives⟩
  | transitionState agentId newStatus =>
      exact ⟨WorkerPool.modifySlot_onlyChanges fun slot => slot.tryTransition_identity _ _, rfl, rfl, rfl,
        fun _ receives => receives⟩
  | terminate agentId reason =>
      have stopped := l.agentPool.stopAgent_onlyChanges agentId now
      unfold handle
      dsimp only
      split
      · exact ⟨stopped, rfl, rfl, rfl, fun _ receives => (of_update_false receives).2⟩
      · exact ⟨stopped, rfl, rfl, rfl, fun _ receives => receives⟩

/-- An agent that is idle after its turn is only told about. -/
theorem handle_kept (kept : l.Kept blocking) {command : RuntimeCommand}
    (tells : l.rested (agentOf command) = true → ∃ agentId message, command = .notifyUser agentId message)
    (now : Moment) : (l.handle command now).Kept blocking := by
  obtain ⟨pool, waits, turn, rested, receivers⟩ := l.handle_onlyChanges command now
  refine kept.change pool (fun _ _ waits' => by rwa [waits] at waits') (fun other _ rests => ?_)
    (fun slot rests found => ?_) fun _ other _ => ⟨congrFun turn other, fun rests => ?_, receivers other⟩
  · rwa [rested] at rests
  · rw [rested] at rests
    obtain ⟨agentId, message, rfl⟩ := tells rests
    have told : ∀ slot : PoolSlot,
        (slot.appendTranscript (.status ("Notification: " ++ message)) now).agentId = slot.agentId :=
      fun _ => rfl
    simp only [handle, agentOf] at found
    rw [WorkerPool.getSlotById_modifySlot told, if_pos rfl, Option.map_eq_some_iff] at found
    obtain ⟨before, found, rfl⟩ := found
    exact kept.idle agentId before rests found
  · rwa [rested] at rests

theorem dispatch_kept (kept : l.Kept blocking) (now : Moment) :
    (l.dispatch blocking now).Kept blocking := by
  unfold dispatch
  split
  · exact kept
  · next command turn rest isNext =>
      have left (command : RuntimeCommand) (turn : Nat) :
          ⟨command, some turn⟩ ∈ rest ∨ (∃ agentId, ⟨command, some turn⟩ ∈ l.commandQueue agentId) →
            l.Waits ⟨command, some turn⟩ :=
        Or.imp (fun member => isNext ▸ List.mem_cons_of_mem _ member) id
      split
      · next blocks =>
          cases turn with
          | none =>
              have popped : ({ l with
                  commands := rest
                  rested := Function.update l.rested (agentOf command) false } : EventLoop).Kept
                  blocking := by
                exact kept.change (.refl (agentOf command) _) left
                  (fun _ _ rested => (of_update_false rested).2)
                  (fun _ rested _ => absurd rfl (of_update_false rested).1)
                  fun _ _ _ => ⟨rfl, fun rested => (of_update_false rested).2, fun receives => receives⟩
              exact handle_kept popped (fun rested => absurd rfl (of_update_false rested).1) now
          | some turn =>
              have popped : ({ l with commands := rest } : EventLoop).Kept blocking :=
                ⟨kept.owners, kept.idle, fun command turn waits => kept.waiting command turn
                  (left command turn waits)⟩
              refine handle_kept popped (fun rested => ?_) now
              have here : l.Waits ⟨command, some turn⟩ := .inl (isNext ▸ List.mem_cons_self)
              rcases kept.waiting command turn here with notify | ⟨agentId, reason, rfl, facts⟩
              · exact notify
              · rw [agentOf, (facts blocks).2.1] at rested
                cases rested
      · refine ⟨kept.owners, kept.idle, fun command turn waits => kept.waiting command turn ?_⟩
        rcases waits with inCommands | inQueue
        · cases inCommands
        · exact .inr inQueue

/-! ## Runs of the loop -/

theorem step_kept (kept : l.Kept blocking) (call : Step × Moment) (harmless : Harmless blocking l call) :
    (l.step blocking call).2.Kept blocking := by
  obtain ⟨step, now⟩ := call
  cases step with
  | lock => exact ⟨kept.owners, kept.idle, kept.waiting⟩
  | event agentId event => exact pollProviderEvent_kept kept event harmless
  | disconnected agentId => exact cleanUpChannel_kept kept agentId now
  | decision agentId actions threads => exact handleDecision_kept kept actions threads now harmless
  | release => exact collectCommands_kept kept
  | dispatch => exact dispatch_kept kept now
  | sendInput agentId text thread => exact startProviderForAgentInner_kept kept harmless text true thread now

theorem step_sound (kept : l.Kept blocking) (call : Step × Moment) (harmless : Harmless blocking l call) :
    Sound ⟨l, call, (l.step blocking call).1, (l.step blocking call).2⟩ where
  spared agentId reason turn rest isDispatch isNext earlier := by
    obtain ⟨step, now⟩ := call
    cases isDispatch
    cases blocking with
    | true =>
        have here : l.Waits ⟨.terminate agentId reason, some turn⟩ := .inl (isNext ▸ List.mem_cons_self)
        rcases kept.waiting _ _ here with ⟨_, _, notify⟩ | ⟨_, _, isCommand, facts⟩
        · cases notify
        · cases isCommand
          have isTurn := (facts rfl).1
          exact absurd earlier (by simp [isTurn])
    | false =>
        have before : l.commands = ⟨.terminate agentId reason, some turn⟩ :: rest := isNext
        simp [step, dispatch, before]
  idle agentId slot rested found := ((step_kept kept call harmless).idle agentId slot rested found).1
  accepted agentId text thread slot isInput rested found := by
    obtain ⟨step, now⟩ := call
    cases isInput
    obtain ⟨-, free⟩ := kept.idle agentId slot rested found
    have idle : slot.hasProviderThread = false := by simp [PoolSlot.hasProviderThread, free]
    have isSlot : l.agentPool.getSlotById agentId = some slot := found
    simp only [step, startProviderForAgentInner, isSlot, idle]
    refine ⟨rfl, slot.begin (some text) thread now, ?_, slot.begin_status ..⟩
    simp only [Bool.false_eq_true, ↓reduceIte]
    rw [WorkerPool.getSlotById_modifySlot fun slot => congrArg Prod.fst (slot.begin_identity _ _ now),
      if_pos rfl, isSlot, Option.map_some]

/-- In every run of the loop whose steps are harmless, all terminations spare later turns, and all
    agents that finished a turn are idle and accept the next input. -/
theorem run_sound (blocking : Bool) (agentPool : WorkerPool)
    (owners : ∀ owner ∈ agentPool.slots.map PoolSlot.identity, owner.2 = owner.1)
    (operations : List (Operation × Moment))
    (harmless : ∀ x ∈ Machine.history (step blocking) { agentPool } (steps operations),
      Harmless blocking x.before x.event) :
    ∀ x ∈ Machine.history (step blocking) { agentPool } (steps operations), Sound x := by
  refine Machine.history_right (fun l call meets kept => step_kept kept call meets)
    (fun l call meets kept => step_sound kept call meets) ⟨owners, fun _ _ rested => ?_, ?_⟩ harmless
  · cases rested
  · rintro command turn (inCommands | ⟨agentId, inQueue⟩)
    · cases inCommands
    · cases inQueue

end AgileAgent.Daemon.EventLoop

namespace AgileAgent.Daemon.EventLoop

open AgileAgent.Core RuntimeDomain

local instance textLowered : Unicode := ⟨String.toLower⟩

/-- A pool with one worker, which is idle. -/
def onePool : WorkerPool := ((WorkerPool.create 4).spawnWorker ⟨0, 0⟩).2

/-- The provider of the agent answers and finishes. -/
def answered : List (Operation × Moment) :=
  [(.sendInput "agent_001" "hello" (some 1), ⟨1, 0⟩),
    (.tick [("agent_001", .assistantChunk "hi"), ("agent_001", .finished)] [] [], ⟨2, 0⟩),
    (.dispatch, ⟨3, 0⟩)]

theorem answered_sound :
    (Machine.final (step true) { agentPool := onePool } (steps answered)).rested "agent_001" = true ∧
      ∀ x ∈ Machine.history (step true) { agentPool := onePool } (steps answered), Sound x := by
  refine ⟨by decide +kernel, run_sound true onePool
    (WorkerPool.spawnWorker_owners (by simp [WorkerPool.create]) _) answered ?_⟩
  refine List.forall_mem_cons.mpr ⟨fun _ reason turn waits => ?_, List.forall_mem_cons.mpr ⟨trivial,
    List.forall_mem_cons.mpr ⟨trivial, List.forall_mem_cons.mpr ⟨fun slot found => ?_,
      List.forall_mem_cons.mpr ⟨trivial, List.forall_mem_cons.mpr ⟨trivial, by simp⟩⟩⟩⟩⟩⟩
  · rcases waits with inCommands | ⟨agentId, inQueue⟩
    · cases inCommands
    · cases inQueue
  · have fits : ∀ slot ∈ (Machine.final (step true) { agentPool := onePool }
        ((steps answered).take 3)).agentPool.getSlotById "agent_001",
        (slot.awaken ⟨2, 0⟩).worker.state.canTransitionTo .completed = false ∧
          slot.status.finishes = true := by decide +kernel
    obtain ⟨works, finishes⟩ := fits slot found
    exact ⟨fun _ => works, fun _ => finishes⟩

/-- The turn that fails first, and the next one. -/
def failedBefore : List (Step × Moment) :=
  steps [(.sendInput "agent_001" "hello" (some 1), ⟨1, 0⟩),
    (.tick [("agent_001", .error "overloaded"), ("agent_001", .finished)] ["agent_001"] [], ⟨2, 0⟩),
    (.sendInput "agent_001" "again" (some 2), ⟨3, 0⟩),
    (.tick [("agent_001", .finished)] ["agent_001"] [], ⟨4, 0⟩)]

/-- After a turn that failed, the agent is stopped at the end of the next turn, which did not. -/
theorem finished_agent_stopped : ¬ ∀ (blocking : Bool) (agentPool : WorkerPool),
    (∀ owner ∈ agentPool.slots.map PoolSlot.identity, owner.2 = owner.1) →
    ∀ operations : List (Operation × Moment),
    ∀ x ∈ Machine.history (step blocking) { agentPool } (steps operations), Sound x := by
  intro all
  have sound := all true onePool (by decide +kernel)
    [(.sendInput "agent_001" "hello" (some 1), ⟨1, 0⟩),
      (.tick [("agent_001", .error "overloaded"), ("agent_001", .finished)] ["agent_001"] [], ⟨2, 0⟩),
      (.sendInput "agent_001" "again" (some 2), ⟨3, 0⟩),
      (.tick [("agent_001", .finished)] ["agent_001"] [], ⟨4, 0⟩), (.dispatch, ⟨5, 0⟩)]
  have isRun : ∀ x ∈ Machine.history (step true) { agentPool := onePool }
      (failedBefore ++ [(.dispatch, ⟨5, 0⟩)]), Sound x := sound
  rw [Machine.history_snoc] at isRun
  have last := isRun _ (List.mem_append_right _ List.mem_cons_self)
  have stopped : ((step true (Machine.final (step true) { agentPool := onePool } failedBefore)
      (.dispatch, ⟨5, 0⟩)).2.agentPool.getSlotById "agent_001").map (fun slot => slot.status) =
        some (.stopped "user requested") := by decide +kernel
  obtain ⟨slot, found, isStopped⟩ := Option.map_eq_some_iff.mp stopped
  have idle := last.idle "agent_001" slot (by decide +kernel) found
  rw [isStopped] at idle
  cases idle

end AgileAgent.Daemon.EventLoop
