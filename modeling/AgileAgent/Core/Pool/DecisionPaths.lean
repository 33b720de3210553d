import AgileAgent.Core.Pool.DecisionCommands
import AgileAgent.Core.Pool.Effects

/-! # The two paths of a decision

Only four types of actions have commands that are interpreted. On them the paths are compared by
what they make of the status of the slot; on all others the legacy path is taken, and the
question is which actions it executes.
-/

namespace AgileAgent.Core

open RuntimeDomain

/-- The actions that are interpreted, and all others. -/
inductive ActionKind where
  | human
  | resume (wakes : Bool)
  | stop (reason : String)
  | other
  deriving Repr, DecidableEq

namespace ActionKind

def of (a : DecisionAction) : ActionKind :=
  match a.actionType with
  | "request_human" => .human
  | "continue" => .resume false
  | "wake_up" => .resume true
  | "stop_if_complete" => .stop (a.param "reason" "All tasks complete")
  | _ => .other

theorem of_cases {a : DecisionAction} (known : of a ≠ .other) :
    a.actionType = "request_human" ∧ of a = .human ∨
      a.actionType = "continue" ∧ of a = .resume false ∨
      a.actionType = "wake_up" ∧ of a = .resume true ∨
      a.actionType = "stop_if_complete" ∧ of a = .stop (a.param "reason" "All tasks complete") := by
  unfold of at known ⊢
  split at known <;> simp_all

/-- The effect of the command of an action. -/
def effect (agentId : AgentId) : ActionKind → Option RuntimeCommand
  | .human => some (.notifyUser agentId "awaiting_human")
  | .resume _ => some (.transitionState agentId "idle")
  | .stop reason => some (.terminate agentId reason)
  | .other => none

end ActionKind

theorem interpret_translate (agentId : AgentId) (a : DecisionAction) :
    interpret agentId (translateAction agentId a) = ((ActionKind.of a).effect agentId).map ([·]) := by
  unfold translateAction ActionKind.of
  split <;> simp_all [interpret, ActionKind.effect]

/-- All actions are interpreted. -/
def Interpretable (actions : List DecisionAction) : Prop := ∀ a ∈ actions, ActionKind.of a ≠ .other

instance (actions : List DecisionAction) : Decidable (Interpretable actions) :=
  inferInstanceAs (Decidable (∀ a ∈ actions, ActionKind.of a ≠ .other))

@[simp] theorem interpretable_cons (a : DecisionAction) (rest : List DecisionAction) :
    Interpretable (a :: rest) ↔ ActionKind.of a ≠ .other ∧ Interpretable rest :=
  List.forall_mem_cons

theorem ActionKind.effect_eq_none {agentId : AgentId} {kind : ActionKind} :
    kind.effect agentId = none ↔ kind = .other := by
  cases kind <;> simp [effect]

theorem interpretAll_translate (agentId : AgentId) (actions : List DecisionAction) :
    interpretAll agentId (translate agentId actions) =
      if Interpretable actions then
        some ((actions.map ActionKind.of).filterMap (ActionKind.effect agentId))
      else none := by
  induction actions with
  | nil => rfl
  | cons a rest ih =>
      rw [translate, List.map_cons, interpretAll, interpret_translate, ← translate, ih]
      cases effect : (ActionKind.of a).effect agentId with
      | none => simp [ActionKind.effect_eq_none.mp effect]
      | some command =>
          have known : ActionKind.of a ≠ .other := fun other => by
            rw [ActionKind.effect_eq_none.mpr other] at effect
            cases effect
          by_cases others : Interpretable rest <;> simp [known, others, effect]

/-! ## Statuses -/

namespace AgentSlotStatus

/-- What `transition_to` makes of a status. -/
def moved (s target : AgentSlotStatus) : AgentSlotStatus := if s.canTransitionTo target then target else s

/-- A status from which the legacy path executes anything. -/
def isReady (s : AgentSlotStatus) : Bool := s.isBlocked || s.isIdle || s.isWaitingForInput

theorem moved_stopped (reason reason' : String) :
    (stopped reason).moved (stopped reason') = stopped reason := by
  by_cases same : reason = reason'
  · subst same
    simp [moved]
  · simp [moved, canTransitionTo, eq, same]

theorem moved_ends {s : AgentSlotStatus} (running : s.isTerminal = false) (reason : String) :
    s.moved (.stopped reason) = .stopped reason := by
  cases s <;> first | rfl | cases running

theorem not_terminal_of_ready {s : AgentSlotStatus} (ready : s.isReady) : s.isTerminal = false := by
  cases s <;> first | rfl | cases ready

end AgentSlotStatus

namespace ActionKind

/-- What the dispatched command of an action makes of a status. -/
def dispatched (s : AgentSlotStatus) : ActionKind → AgentSlotStatus
  | .human | .other => s
  | .resume _ => s.moved .idle
  | .stop _ => s.moved (.stopped "user requested")

/-- What the legacy path makes of a status by an action. -/
def executed (s : AgentSlotStatus) : ActionKind → AgentSlotStatus
  | .human | .resume true | .other => s
  | .resume false => if s.isBlocked then s.moved .idle else s
  | .stop reason => s.moved (.stopped reason)

theorem dispatched_stopped (reason : String) (kinds : List ActionKind) :
    kinds.foldl dispatched (.stopped reason) = .stopped reason := by
  refine List.foldl_fixed' (fun kind => ?_) kinds
  cases kind with
  | human | other => rfl
  | resume => rfl
  | stop => exact AgentSlotStatus.moved_stopped ..

theorem executed_stopped (reason : String) (kinds : List ActionKind) :
    kinds.foldl executed (.stopped reason) = .stopped reason := by
  refine List.foldl_fixed' (fun kind => ?_) kinds
  cases kind with
  | human | other => rfl
  | resume wakes => cases wakes <;> rfl
  | stop => exact AgentSlotStatus.moved_stopped ..

/-- The reason of the first action that stops. -/
def stops : List ActionKind → Option String
  | [] => none
  | .stop reason :: _ => some reason
  | .human :: rest | .resume _ :: rest | .other :: rest => stops rest

def resumes : List ActionKind → Bool
  | [] => false
  | .resume _ :: _ => true
  | .human :: rest | .stop _ :: rest | .other :: rest => resumes rest

/-- The commands stop a slot for the user, or send it back to idle. -/
theorem dispatched_all {s : AgentSlotStatus} (running : s.isTerminal = false) (kinds : List ActionKind) :
    kinds.foldl dispatched s =
      if (stops kinds).isSome then .stopped "user requested"
      else if resumes kinds ∧ s ≠ .stopping then .idle
      else s := by
  induction kinds generalizing s with
  | nil => simp [stops, resumes]
  | cons kind rest ih =>
      rw [List.foldl_cons]
      cases kind with
      | human | other => exact ih running
      | resume wakes =>
          by_cases stopping : s = .stopping
          · subst stopping
            have stays : dispatched .stopping (.resume wakes) = .stopping := rfl
            rw [stays]
            simpa [stops] using ih running
          · have idles : dispatched s (.resume wakes) = .idle := by
              cases s <;> simp_all [dispatched, AgentSlotStatus.moved, AgentSlotStatus.canTransitionTo,
                AgentSlotStatus.isTerminal, AgentSlotStatus.eq]
            rw [idles, ih rfl]
            simp [stops, resumes, stopping]
      | stop reason =>
          have ends : dispatched s (.stop reason) = .stopped "user requested" :=
            AgentSlotStatus.moved_ends running _
          rw [ends, dispatched_stopped]
          simp [stops]

/-- The legacy path stops a slot for the first reason, or sends a blocked one back to idle. -/
theorem executed_all {s : AgentSlotStatus} (ready : s.isReady) (kinds : List ActionKind) :
    kinds.foldl executed s =
      match stops kinds with
      | some reason => .stopped reason
      | none => if .resume false ∈ kinds ∧ s.isBlocked then .idle else s := by
  induction kinds generalizing s with
  | nil => simp [stops]
  | cons kind rest ih =>
      rw [List.foldl_cons]
      cases kind with
      | human | other => simpa [stops, executed] using ih ready
      | resume wakes =>
          cases wakes with
          | true => simpa [stops, executed] using ih ready
          | false =>
              cases blocked : s.isBlocked with
              | false => simpa [stops, executed, blocked] using ih ready
              | true =>
                  have idles : executed s (.resume false) = .idle := by
                    cases s <;> simp_all [executed, AgentSlotStatus.moved,
                      AgentSlotStatus.canTransitionTo, AgentSlotStatus.isBlocked]
                  rw [idles, ih rfl]
                  simp [stops, AgentSlotStatus.isBlocked]
      | stop reason =>
          have ends : executed s (.stop reason) = .stopped reason :=
            AgentSlotStatus.moved_ends (AgentSlotStatus.not_terminal_of_ready ready) reason
          rw [ends, executed_stopped]
          simp [stops]

end ActionKind

/-! ## The slot on both paths -/

namespace WorkerPool

variable {p : WorkerPool} {agentId : AgentId}

def statusAt (p : WorkerPool) (agentId : AgentId) : Option AgentSlotStatus :=
  (p.getSlotById agentId).map fun slot => slot.status

theorem statusAt_modifySlot {change : PoolSlot → PoolSlot} {becomes : AgentSlotStatus → AgentSlotStatus}
    (same : ∀ slot, (change slot).agentId = slot.agentId)
    (moves : ∀ slot, (change slot).status = becomes slot.status) :
    (p.modifySlot agentId change).statusAt agentId = (p.statusAt agentId).map becomes := by
  rw [statusAt, getSlotById_modifySlot same, if_pos rfl, statusAt, Option.map_map, Option.map_map]
  exact congrArg (Option.map · (p.getSlotById agentId)) (funext moves)

variable [Unicode]

theorem statusAt_tryTransition (target : AgentSlotStatus) (now : Moment) :
    (p.modifySlot agentId (·.tryTransition target now)).statusAt agentId =
      (p.statusAt agentId).map (·.moved target) :=
  statusAt_modifySlot (fun slot => slot.tryTransition_agentId target now)
    fun slot => slot.tryTransition_status target now

theorem statusAt_executeAction (a : DecisionAction) (now : Moment) (known : ActionKind.of a ≠ .other) :
    (p.executeAction agentId a now).2.statusAt agentId =
      (p.statusAt agentId).map fun s => (ActionKind.of a).executed s := by
  obtain ⟨type, kind⟩ | ⟨type, kind⟩ | ⟨type, kind⟩ | ⟨type, kind⟩ := ActionKind.of_cases known
  · simp [executeAction, type, kind, executeRequestHuman, ActionKind.executed]
  · have goes : (p.executeAction agentId a now).2 = p.modifySlot agentId (goIdle now) := by
      simp [executeAction, type, executeContinue]
    rw [goes, kind]
    refine statusAt_modifySlot (fun slot => ?_) fun slot => ?_
    · exact congrArg Prod.fst (goIdle_agent now slot)
    · unfold goIdle ActionKind.executed
      split
      · exact slot.tryTransition_status .idle now
      · rfl
  · simp [executeAction, type, kind, ActionKind.executed]
  · have stops : (p.executeAction agentId a now).2 = p.modifySlot agentId
        (·.tryTransition (.stopped (a.param "reason" "All tasks complete")) now) := by
      simp [executeAction, type, executeStopIfComplete]
    rw [stops, kind]
    exact statusAt_tryTransition _ now

theorem statusAt_executeActions (now : Moment) {actions : List DecisionAction}
    (known : Interpretable actions) :
    (executeActions agentId now p actions).2.statusAt agentId =
      (p.statusAt agentId).map fun s => (actions.map ActionKind.of).foldl ActionKind.executed s := by
  induction actions generalizing p with
  | nil => simp [executeActions]
  | cons a rest ih =>
      rw [interpretable_cons] at known
      rw [executeActions, ih known.2, statusAt_executeAction a now known.1, Option.map_map]
      rfl

end WorkerPool

namespace TuiState

variable [Unicode] {t : TuiState} {agentId : AgentId}

theorem statusAt_dispatch {kind : ActionKind} {command : RuntimeCommand}
    (effect : kind.effect agentId = some command) (now : Moment) :
    (t.dispatchRuntimeCommand now command).agentPool.statusAt agentId =
      (t.agentPool.statusAt agentId).map fun s => kind.dispatched s := by
  cases kind with
  | other => cases effect
  | human =>
      obtain rfl := Option.some.inj effect
      simp [dispatchRuntimeCommand, pushStatusMessage, ActionKind.dispatched]
  | resume =>
      obtain rfl := Option.some.inj effect
      exact WorkerPool.statusAt_tryTransition .idle now
  | stop =>
      obtain rfl := Option.some.inj effect
      simp only [dispatchRuntimeCommand, WorkerPool.stopAgent_eq]
      exact WorkerPool.statusAt_tryTransition _ now

theorem statusAt_dispatchAll (now : Moment) (kinds : List ActionKind) :
    (t.dispatchRuntimeCommands now (kinds.filterMap (ActionKind.effect agentId))).agentPool.statusAt agentId =
      (t.agentPool.statusAt agentId).map fun s => kinds.foldl ActionKind.dispatched s := by
  induction kinds generalizing t with
  | nil => simp [dispatchRuntimeCommands]
  | cons kind rest ih =>
      cases effect : kind.effect agentId with
      | none =>
          rw [List.filterMap_cons_none effect, ih, ActionKind.effect_eq_none.mp effect]
          rfl
      | some command =>
          rw [List.filterMap_cons_some effect, dispatchRuntimeCommands, List.foldl_cons,
            ← dispatchRuntimeCommands, ih, statusAt_dispatch effect, Option.map_map]
          rfl

end TuiState

/-! ## The actions that are executed -/

namespace WorkerPool

variable {p : WorkerPool} {agentId : AgentId}

/-- The types that the legacy path has a function for. -/
def legacyTypes : List String :=
  ["select_option", "skip", "request_human", "custom_instruction", "continue", "reflect",
    "confirm_completion", "retry", "continue_all_tasks", "stop_if_complete", "prepare_task_start"]

/-- The commands of a decision are taken. -/
def isInterpreted (agentId : AgentId) (actions : List DecisionAction) : Bool :=
  (interpretAll agentId (translate agentId actions)).isSome

/-- The actions of a decision that are executed on the path it takes: commands reach a slot that
    is there, or the user, and the legacy path has its own conditions. -/
def executed (p : WorkerPool) (agentId : AgentId) (actions : List DecisionAction) : List DecisionAction :=
  if isInterpreted agentId actions then
    actions.filter fun a => (p.statusAt agentId).isSome || a.actionType = "request_human"
  else actions.filter fun a =>
    (p.statusAt agentId).any AgentSlotStatus.isReady && a.actionType ∈ legacyTypes

theorem isInterpreted_iff (agentId : AgentId) (actions : List DecisionAction) :
    isInterpreted agentId actions ↔ Interpretable actions := by
  rw [isInterpreted, interpretAll_translate]
  by_cases known : Interpretable actions <;> simp [known]

variable [Unicode]

/-- What one action does to the pool on a path. -/
def perform (interpreted : Bool) (agentId : AgentId) (now : Moment) (p : WorkerPool)
    (a : DecisionAction) : WorkerPool :=
  if interpreted then
    (TuiState.dispatchRuntimeCommands now { agentPool := p }
      ((interpret agentId (translateAction agentId a)).getD [])).agentPool
  else (p.executeAction agentId a now).2

theorem executeAction_unknown {a : DecisionAction} (unknown : a.actionType ∉ legacyTypes) (now : Moment) :
    p.executeAction agentId a now = (.cancelled, p) := by
  unfold executeAction
  split <;> simp_all [legacyTypes]

theorem executeActions_eq (now : Moment) (actions : List DecisionAction) :
    (executeActions agentId now p actions).2 =
      (actions.filter (·.actionType ∈ legacyTypes)).foldl (perform false agentId now) p := by
  induction actions generalizing p with
  | nil => rfl
  | cons a rest ih =>
      by_cases known : a.actionType ∈ legacyTypes
      · rw [executeActions, ih, List.filter_cons_of_pos (by simpa using known), List.foldl_cons]
        rfl
      · rw [executeActions, ih, List.filter_cons_of_neg (by simpa using known),
          executeAction_unknown known]

theorem executeDecisionAction_eq (p : WorkerPool) (agentId : AgentId) (actions : List DecisionAction)
    (now : Moment) :
    (p.executeDecisionAction agentId actions now).2 =
      if (p.statusAt agentId).any AgentSlotStatus.isReady then (executeActions agentId now p actions).2
      else p := by
  unfold executeDecisionAction statusAt
  cases p.getSlotById agentId with
  | none => rfl
  | some slot =>
      cases actions with
      | nil =>
          simp only [executeActions, ite_self]
          split <;> rfl
      | cons a rest =>
          cases blocked : slot.status.isBlocked <;> cases idle : slot.status.isIdle <;>
            cases waiting : slot.status.isWaitingForInput <;>
            simp [AgentSlotStatus.isReady, blocked, idle, waiting]

end WorkerPool

namespace TuiState

variable [Unicode] {t : TuiState} {agentId : AgentId}

/-- Messages have no effect on the pool. -/
theorem dispatch_agentPool (now : Moment) (commands : List RuntimeCommand) :
    (t.dispatchRuntimeCommands now commands).agentPool =
      (dispatchRuntimeCommands now { agentPool := t.agentPool } commands).agentPool := by
  have one (t t' : TuiState) (same : t.agentPool = t'.agentPool) (command : RuntimeCommand) :
      (t.dispatchRuntimeCommand now command).agentPool =
        (t'.dispatchRuntimeCommand now command).agentPool := by
    cases command <;> simp [dispatchRuntimeCommand, pushStatusMessage, same]
  have all (t t' : TuiState) (same : t.agentPool = t'.agentPool) :
      (t.dispatchRuntimeCommands now commands).agentPool =
        (t'.dispatchRuntimeCommands now commands).agentPool := by
    induction commands generalizing t t' with
    | nil => exact same
    | cons command rest ih => exact ih _ _ (one t t' same command)
  exact all t { agentPool := t.agentPool } rfl

/-- What does not reach a slot leaves the pool as it is. -/
theorem perform_missing {p : WorkerPool} (missing : p.statusAt agentId = none) (now : Moment)
    (a : DecisionAction) : p.perform true agentId now a = p := by
  have absent : p.getSlotById agentId = none := by simpa [WorkerPool.statusAt] using missing
  have effectless (command : RuntimeCommand) (kind : ActionKind)
      (effect : kind.effect agentId = some command) :
      (dispatchRuntimeCommand now { agentPool := p } command).agentPool = p := by
    cases kind with
    | other => cases effect
    | human =>
        obtain rfl := Option.some.inj effect
        rfl
    | resume =>
        obtain rfl := Option.some.inj effect
        exact WorkerPool.modifySlot_none absent
    | stop =>
        obtain rfl := Option.some.inj effect
        exact (WorkerPool.stopAgent_eq ..).trans (WorkerPool.modifySlot_none absent)
  unfold WorkerPool.perform
  rw [if_pos rfl, interpret_translate]
  cases effect : (ActionKind.of a).effect agentId with
  | none => rfl
  | some command => exact effectless command _ effect

theorem dispatch_performs (now : Moment) {actions : List DecisionAction} {commands : List RuntimeCommand}
    (interpreted : interpretAll agentId (translate agentId actions) = some commands) :
    (t.dispatchRuntimeCommands now commands).agentPool =
      actions.foldl (WorkerPool.perform true agentId now) t.agentPool := by
  induction actions generalizing t commands with
  | nil =>
      obtain rfl : [] = commands := Option.some.inj interpreted
      rfl
  | cons a rest ih =>
      rw [translate, List.map_cons, interpretAll, ← translate] at interpreted
      cases first : interpret agentId (translateAction agentId a) with
      | none => simp [first] at interpreted
      | some effects =>
          rw [first] at interpreted
          obtain ⟨others, later, rfl⟩ := Option.map_eq_some_iff.mp interpreted
          have performed : (t.dispatchRuntimeCommands now effects).agentPool =
              t.agentPool.perform true agentId now a := by
            rw [dispatch_agentPool, WorkerPool.perform, if_pos rfl, first, Option.getD_some]
          rw [dispatchRuntimeCommands, List.foldl_append, ← dispatchRuntimeCommands,
            ← dispatchRuntimeCommands, ih later, performed, List.foldl_cons]

/-- The pool after a decision is what the executed actions make of it, each of them once and one
    after another. -/
theorem runDecision_executes (t : TuiState) (agentId : AgentId) (actions : List DecisionAction)
    (now : Moment) :
    (t.runDecision agentId actions now).agentPool =
      (t.agentPool.executed agentId actions).foldl
        (WorkerPool.perform (WorkerPool.isInterpreted agentId actions) agentId now) t.agentPool := by
  unfold WorkerPool.executed
  cases interpreted : interpretAll agentId (translate agentId actions) with
  | none =>
      have legacy : WorkerPool.isInterpreted agentId actions = false := by
        simp [WorkerPool.isInterpreted, interpreted]
      simp only [runDecision, interpreted, legacy, executeLegacy, WorkerPool.executeDecisionAction_eq,
        Bool.false_eq_true, if_false]
      cases ready : (t.agentPool.statusAt agentId).any AgentSlotStatus.isReady with
      | true => simpa using WorkerPool.executeActions_eq now actions
      | false => simp
  | some commands =>
      have taken : WorkerPool.isInterpreted agentId actions = true := by
        simp [WorkerPool.isInterpreted, interpreted]
      rw [taken, if_pos rfl]
      have dispatched : (t.runDecision agentId actions now).agentPool =
          actions.foldl (WorkerPool.perform true agentId now) t.agentPool := by
        simp only [runDecision, interpreted]
        cases actions with
        | nil => simp [executeLegacy, WorkerPool.executeDecisionAction_eq, WorkerPool.executeActions]
        | cons a rest => exact dispatch_performs now interpreted
      rw [dispatched]
      cases status : t.agentPool.statusAt agentId with
      | some s => simp
      | none =>
          have idle (list : List DecisionAction) :
              list.foldl (WorkerPool.perform true agentId now) t.agentPool = t.agentPool :=
            List.foldl_fixed' (perform_missing status now) list
          rw [idle, idle]

end TuiState

/-- The condition of the status, if all actions are interpreted: no action changes it on one path
    only, and a stop gives the reason that the commands give. -/
def SameMoves (s : AgentSlotStatus) (kinds : List ActionKind) : Prop :=
  s.isTerminal ∨
    if s.isReady then
      match ActionKind.stops kinds with
      | some reason => reason = "user requested"
      | none => ActionKind.resumes kinds → s.isIdle ∨ s.isBlocked ∧ .resume false ∈ kinds
    else ActionKind.stops kinds = none ∧ (ActionKind.resumes kinds → s = .stopping)

/-- The condition under which the paths agree and every action is executed. -/
def Agreeable (status : Option AgentSlotStatus) (actions : List DecisionAction) : Prop :=
  match status with
  | none => ∀ a ∈ actions, a.actionType = "request_human"
  | some s =>
      if Interpretable actions then SameMoves s (actions.map ActionKind.of)
      else s.isReady ∧ ∀ a ∈ actions, a.actionType ∈ WorkerPool.legacyTypes

/-- A decision leaves the slot with one status on both paths, and the path that it takes executes
    each of its actions. -/
structure PathsAgree [Unicode] (t : TuiState) (agentId : AgentId) (actions : List DecisionAction)
    (now : Moment) : Prop where
  sameStatus : ∀ commands, interpretAll agentId (translate agentId actions) = some commands →
    (t.dispatchRuntimeCommands now commands).agentPool.statusAt agentId =
      (t.executeLegacy agentId actions now).agentPool.statusAt agentId
  executes : t.agentPool.executed agentId actions = actions

namespace ActionKind

theorem resumes_of_mem {kinds : List ActionKind} {wakes : Bool} (member : .resume wakes ∈ kinds) :
    resumes kinds := by
  induction kinds with
  | nil => cases member
  | cons kind rest ih => cases kind <;> simp_all [resumes]

theorem sameMoves_iff (s : AgentSlotStatus) (kinds : List ActionKind) :
    (kinds.foldl dispatched s = if s.isReady then kinds.foldl executed s else s) ↔
      SameMoves s kinds := by
  unfold SameMoves
  by_cases terminal : s.isTerminal
  · obtain ⟨reason, rfl⟩ : ∃ reason, s = .stopped reason := by
      cases s <;> simp_all [AgentSlotStatus.isTerminal]
    simp [dispatched_stopped, executed_stopped, AgentSlotStatus.isTerminal]
  · have running : s.isTerminal = false := by simpa using terminal
    rw [dispatched_all running]
    by_cases ready : s.isReady
    · rw [if_pos ready, if_pos ready, executed_all ready]
      cases stops kinds with
      | some reason => simp [running, eq_comm]
      | none =>
          have resumed : .resume false ∈ kinds → resumes kinds := resumes_of_mem
          cases woken : resumes kinds <;> by_cases continues : .resume false ∈ kinds <;>
            cases s <;> simp_all [AgentSlotStatus.isReady, AgentSlotStatus.isBlocked,
              AgentSlotStatus.isIdle, AgentSlotStatus.isWaitingForInput]
    · rw [if_neg ready, if_neg ready]
      cases stops kinds with
      | some reason => cases s <;> simp_all [AgentSlotStatus.isTerminal]
      | none =>
          cases s <;> simp_all [AgentSlotStatus.isReady, AgentSlotStatus.isBlocked,
            AgentSlotStatus.isIdle, AgentSlotStatus.isWaitingForInput]

end ActionKind

section

variable [Unicode] {t : TuiState} {agentId : AgentId} {actions : List DecisionAction} {now : Moment}

theorem statusAt_executeLegacy (known : Interpretable actions) :
    (t.executeLegacy agentId actions now).agentPool.statusAt agentId =
      (t.agentPool.statusAt agentId).map fun s =>
        if s.isReady then (actions.map ActionKind.of).foldl ActionKind.executed s else s := by
  rw [TuiState.executeLegacy, WorkerPool.executeDecisionAction_eq]
  cases status : t.agentPool.statusAt agentId with
  | none => simp [status]
  | some s =>
      cases ready : s.isReady with
      | true => simp [ready, WorkerPool.statusAt_executeActions now known, status]
      | false => simp [ready, status]

/-- The paths agree on the status if every action that is interpreted moves it on both. -/
theorem sameStatus_iff (known : Interpretable actions) :
    (∀ commands, interpretAll agentId (translate agentId actions) = some commands →
      (t.dispatchRuntimeCommands now commands).agentPool.statusAt agentId =
        (t.executeLegacy agentId actions now).agentPool.statusAt agentId) ↔
      ∀ s ∈ t.agentPool.statusAt agentId, SameMoves s (actions.map ActionKind.of) := by
  rw [interpretAll_translate, if_pos known]
  simp only [Option.some.injEq, forall_eq', TuiState.statusAt_dispatchAll, statusAt_executeLegacy known]
  cases t.agentPool.statusAt agentId with
  | none => simp
  | some s => simpa using ActionKind.sameMoves_iff s (actions.map ActionKind.of)

omit [Unicode] in
theorem executed_iff {p : WorkerPool} : p.executed agentId actions = actions ↔
    ∀ a ∈ actions, if Interpretable actions then
        (p.statusAt agentId).isSome ∨ a.actionType = "request_human"
      else (p.statusAt agentId).any AgentSlotStatus.isReady ∧ a.actionType ∈ WorkerPool.legacyTypes := by
  unfold WorkerPool.executed
  by_cases known : Interpretable actions
  · simp [(WorkerPool.isInterpreted_iff agentId actions).mpr known, known, List.filter_eq_self]
  · have legacy : WorkerPool.isInterpreted agentId actions = false := by
      rw [Bool.eq_false_iff]
      exact fun taken => known ((WorkerPool.isInterpreted_iff agentId actions).mp taken)
    simp [legacy, known, List.filter_eq_self]

/-- Both paths of a decision agree exactly on agreeable decisions. -/
theorem pathsAgree_iff : PathsAgree t agentId actions now ↔
    Agreeable (t.agentPool.statusAt agentId) actions := by
  have both : PathsAgree t agentId actions now ↔
      (∀ commands, interpretAll agentId (translate agentId actions) = some commands →
        (t.dispatchRuntimeCommands now commands).agentPool.statusAt agentId =
          (t.executeLegacy agentId actions now).agentPool.statusAt agentId) ∧
      t.agentPool.executed agentId actions = actions :=
    ⟨fun agree => ⟨agree.sameStatus, agree.executes⟩, fun agree => ⟨agree.1, agree.2⟩⟩
  rw [both, executed_iff]
  unfold Agreeable
  by_cases known : Interpretable actions
  · rw [sameStatus_iff known]
    cases t.agentPool.statusAt agentId with
    | none => simp [known]
    | some s => simp [known]
  · have unread : interpretAll agentId (translate agentId actions) = none := by
      rw [interpretAll_translate, if_neg known]
    obtain ⟨a, member, other⟩ : ∃ a ∈ actions, ActionKind.of a = .other := by
      simpa [Interpretable] using known
    simp only [unread, reduceCtorEq, false_implies, implies_true, true_and, known, if_false]
    cases t.agentPool.statusAt agentId with
    | none =>
        refine ⟨fun none => absurd (none a member).1 (by simp), fun human => ?_⟩
        have isHuman : ActionKind.of a = .human := by simp [ActionKind.of, human a member]
        rw [isHuman] at other
        cases other
    | some s =>
        refine ⟨fun all => ⟨by simpa using (all a member).1, fun b isAction => (all b isAction).2⟩,
          fun ready b isAction => ⟨by simpa using ready.1, ready.2 b isAction⟩⟩

end

/-! ## Decisions that differ -/

/-- The types of the builtin actions. -/
def builtinTypes : List String :=
  ["select_option", "reflect", "confirm_completion", "continue", "retry", "request_human",
    "custom_instruction", "continue_all_tasks", "stop_if_complete", "wake_up", "create_task_branch",
    "rebase_to_main", "prepare_task_start", "commit_changes", "stash_changes", "discard_changes",
    "suggest_commit", "prepare_pr"]

section

local instance lowered : Unicode := ⟨String.toLower⟩

/-- An agent that is blocked. -/
def blockedState : TuiState :=
  { agentPool := (((WorkerPool.create 1).spawnWorker ⟨0, 0⟩).2.modifySlot "agent_001"
      (·.tryTransition (.blocked "choice") ⟨1, 1⟩)) }

def stopAction : DecisionAction := { actionType := "stop_if_complete" }

/-- `WakeUp` alone has a command; with a reflection it has nothing. -/
def wakeAndReflect : List DecisionAction := [{ actionType := "wake_up" }, { actionType := "reflect" }]

/-- A stop leaves another reason on the other path, and a decision that wakes up and reflects
    drops the first of its actions. -/
theorem stop_and_wakeUp_differ :
    (∀ a ∈ stopAction :: wakeAndReflect, a.actionType ∈ builtinTypes) ∧
      ¬ PathsAgree blockedState "agent_001" [stopAction] ⟨2, 2⟩ ∧
      ¬ PathsAgree blockedState "agent_001" wakeAndReflect ⟨2, 2⟩ := by
  refine ⟨by decide, fun agree => ?_, fun agree => ?_⟩
  · have same := agree.sameStatus [.terminate "agent_001" "All tasks complete"] rfl
    exact absurd same (by decide)
  · exact absurd (congrArg List.length agree.executes) (by decide)

end

end AgileAgent.Core
