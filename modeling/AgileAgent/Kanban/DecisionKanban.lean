import AgileAgent.Backlog.Moves
import AgileAgent.Kanban.MemoryRepository
import AgileAgent.Machine

/-! # Decisions and the kanban board

Tasks are selected from the board into the backlog, and what becomes of them is reported to both.
A report finds the element of a task by a mapping or by its title, moves it, and then moves the
task without asking whether it could be moved.
-/

namespace AgileAgent.Kanban

open KanbanElementRepository KanbanService AgileAgent.Backlog

inductive KanbanSyncResult where
  | synced (taskId : String) (kanbanId : ElementId)
  | notFound (taskId : String)
  | failed (taskId error : String)
  | noKanbanService
  deriving Repr, DecidableEq

inductive NextTaskResult where
  | selected (kanbanElement : KanbanElement) (backlogTask : TaskItem)
  | noTasksAvailable
  | noKanbanService
  | failed (error : String)
  deriving Repr, DecidableEq

/-- The repository of the service, if there is one, and the mappings in their order. -/
structure DecisionKanbanIntegration (R : Type) where
  kanban : Option R
  mappings : List (String × ElementId) := []

namespace DecisionKanbanIntegration

variable {R : Type} [KanbanElementRepository R]

def findKanbanId (integration : DecisionKanbanIntegration R) (taskId : String) : Option ElementId :=
  (integration.mappings.find? fun mapping => mapping.1 = taskId).map Prod.snd

/-- The ids of the tasks that have the title of a backlog task. -/
def titled (task : TaskItem) (elements : List KanbanElement) : List ElementId :=
  (elements.filter fun e => e.elementType = .task ∧ e.title = task.objective).filterMap KanbanElement.id

/-- The loop of `sync_task_completion`: the first of some elements that can be moved. -/
def firstMoved (registry : TransitionRegistry) (newStatus : Status) : List ElementId → R → Option ElementId × R
  | [], r => (none, r)
  | id :: rest, r =>
      match updateStatus registry id newStatus r with
      | .ok _ next => (some id, next)
      | .error _ next => firstMoved registry newStatus rest next

def syncTaskCompletion (registry : TransitionRegistry) (taskId : String)
    (integration : DecisionKanbanIntegration R) (backlog : BacklogState) :
    KanbanSyncResult × DecisionKanbanIntegration R × BacklogState :=
  let completed := (backlog.completeTask taskId (some "Completed successfully")).2
  match integration.kanban with
  | none => (.noKanbanService, integration, completed)
  | some r =>
      match integration.findKanbanId taskId with
      | some kanbanId =>
          match updateStatus registry kanbanId .done r with
          | .ok _ next => (.synced taskId kanbanId, { integration with kanban := some next }, completed)
          | .error error next =>
              (.failed taskId error.display, { integration with kanban := some next }, backlog)
      | none =>
          match backlog.findTask taskId with
          | none => (.notFound taskId, integration, backlog)
          | some task =>
              match list r with
              | .error _ next => (.notFound taskId, { integration with kanban := some next }, backlog)
              | .ok elements next =>
                  match firstMoved registry .done (titled task elements) next with
                  | (some kanbanId, last) =>
                      (.synced taskId kanbanId,
                        { kanban := some last, mappings := integration.mappings ++ [(taskId, kanbanId)] },
                        completed)
                  | (none, last) =>
                      (.notFound taskId, { integration with kanban := some last }, backlog)

def syncTaskFailure (registry : TransitionRegistry) (taskId error : String)
    (integration : DecisionKanbanIntegration R) (backlog : BacklogState) :
    KanbanSyncResult × DecisionKanbanIntegration R × BacklogState :=
  let failed := (backlog.failTask taskId error).2
  match integration.kanban with
  | none => (.noKanbanService, integration, failed)
  | some r =>
      match integration.findKanbanId taskId with
      | some kanbanId =>
          match updateStatus registry kanbanId .todo r with
          | .ok _ next => (.synced taskId kanbanId, { integration with kanban := some next }, failed)
          | .error error next =>
              (.failed taskId error.display, { integration with kanban := some next }, backlog)
      | none => (.notFound taskId, integration, backlog)

/-- The backlog task of an element. -/
def taskOf (kanbanId : ElementId) (e : KanbanElement) : TaskItem where
  id := kanbanId.text
  todoId := (e.parent.map ElementId.text).getD ""
  objective := e.title
  scope := e.content
  constraints := []
  verificationPlan := []
  status := .ready
  resultSummary := none

def selectNextTask (integration : DecisionKanbanIntegration R) (backlog : BacklogState) :
    NextTaskResult × DecisionKanbanIntegration R × BacklogState :=
  match integration.kanban with
  | none =>
      match backlog.readyTasks.head? with
      | some task => (.selected (.task { title := task.objective }) task, integration, backlog)
      | none => (.noKanbanService, integration, backlog)
  | some r =>
      match list r with
      | .error error next => (.failed error.display, { integration with kanban := some next }, backlog)
      | .ok elements next =>
          let todo := (elements.filter fun e => e.status = .todo ∧ e.elementType = .task).filterMap
            fun e => e.id.map fun id => (id, e)
          let integration := { integration with kanban := some next }
          match todo.find? fun found => (backlog.findTask found.1.text).isNone with
          | some (kanbanId, e) =>
              (.selected e (taskOf kanbanId e), integration, backlog.pushTask (taskOf kanbanId e))
          | none => (.noTasksAvailable, integration, backlog)

end DecisionKanbanIntegration

/-! ## Runs -/

/-- What is reported of a task. -/
inductive Report where
  | completion
  | failure (error : String)
  deriving Repr, DecidableEq

namespace Report

/-- The status that the element is moved to. -/
def status : Report → Status
  | .completion => .done
  | .failure _ => .todo

/-- The status that the backlog task is moved to. -/
def taskStatus : Report → TaskStatus
  | .completion => .done
  | .failure _ => .failed

/-- The statuses that the backlog moves a task from. -/
def movable : Report → List TaskStatus
  | .completion => [.running, .verifying]
  | .failure _ => [.running]

end Report

/-- The integration, the backlog, and the tasks selected so far with the elements they are from;
    without a service a task is selected from no element. -/
structure Selection (R : Type) where
  integration : DecisionKanbanIntegration R
  backlog : BacklogState
  selected : List (String × Option ElementId) := []

inductive SelectionEvent where
  | select
  | start (taskId : String)
  | report (taskId : String) (report : Report)
  /-- Somebody uses the service. -/
  | kanban (command : Command)
  /-- Somebody changes the backlog. -/
  | backlog (backlog : BacklogState)

namespace Selection

variable {R : Type} [KanbanElementRepository R]

open DecisionKanbanIntegration

def sync (registry : TransitionRegistry) (taskId : String) : Report →
    DecisionKanbanIntegration R → BacklogState → KanbanSyncResult × DecisionKanbanIntegration R × BacklogState
  | .completion => syncTaskCompletion registry taskId
  | .failure error => syncTaskFailure registry taskId error

def step (registry : TransitionRegistry) (s : Selection R) : SelectionEvent → Option KanbanSyncResult × Selection R
  | .select =>
      match selectNextTask s.integration s.backlog with
      | (.selected e task, integration, backlog) =>
          (none, ⟨integration, backlog, s.selected ++ [(task.id, e.id)]⟩)
      | (_, integration, backlog) => (none, { s with integration, backlog })
  | .start taskId => (none, { s with backlog := (s.backlog.startTask taskId).2 })
  | .report taskId report =>
      match sync registry taskId report s.integration s.backlog with
      | (result, integration, backlog) => (some result, { s with integration, backlog })
  | .kanban command =>
      let kanban := s.integration.kanban.map fun r => after registry r command
      (none, { s with integration := { s.integration with kanban } })
  | .backlog backlog => (none, { s with backlog })

end Selection

end AgileAgent.Kanban
