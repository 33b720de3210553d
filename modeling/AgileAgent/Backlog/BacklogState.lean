import Mathlib.Data.List.Sort
import AgileAgent.FirstMatch

/-! # The backlog

Todos and the tasks derived from them. Only some moves between the statuses of a task are
offered; one that does not apply returns `false` and changes nothing.
-/

namespace AgileAgent.Backlog

inductive TodoStatus where
  | candidate
  | ready
  | inProgress
  | blocked
  | done
  | dropped
  deriving Repr, DecidableEq

inductive TaskStatus where
  | draft
  | ready
  | running
  | verifying
  | done
  | blocked
  | failed
  deriving Repr, DecidableEq

structure TodoItem where
  id : String
  title : String
  description : String
  priority : Nat
  status : TodoStatus
  acceptanceCriteria : List String
  dependencies : List String
  source : String
  deriving Repr, DecidableEq

structure TaskItem where
  id : String
  todoId : String
  objective : String
  scope : String
  constraints : List String
  verificationPlan : List String
  status : TaskStatus
  resultSummary : Option String
  deriving Repr, DecidableEq

structure BacklogState where
  todos : List TodoItem := []
  tasks : List TaskItem := []
  deriving Repr, DecidableEq

namespace BacklogState

/-- By priority, then by title. -/
def before (a b : TodoItem) : Bool :=
  a.priority < b.priority || a.priority = b.priority && a.title ≤ b.title

def pushTodo (b : BacklogState) (todo : TodoItem) : BacklogState :=
  { b with todos := (b.todos ++ [todo]).insertionSort fun a b => before a b }

def pushTask (b : BacklogState) (task : TaskItem) : BacklogState := { b with tasks := b.tasks ++ [task] }

def findTask (b : BacklogState) (taskId : String) : Option TaskItem :=
  b.tasks.find? fun task => task.id = taskId

def canAssignTask (b : BacklogState) (taskId : String) : Bool :=
  match b.findTask taskId with
  | some task => task.status = .ready
  | none => false

def readyTodos (b : BacklogState) : List TodoItem :=
  b.todos.filter fun todo => todo.status = .ready

def findTodo (b : BacklogState) (todoId : String) : Option TodoItem :=
  b.todos.find? fun todo => todo.id = todoId

/-- `find_todo_mut`: change the first todo with an id. -/
def updateTodo (b : BacklogState) (todoId : String) (change : TodoItem → TodoItem) : BacklogState :=
  { b with todos := FirstMatch.modify (fun todo => todo.id = todoId) change b.todos }

def readyTasks (b : BacklogState) : List TaskItem :=
  b.tasks.filter fun task => task.status = .ready

/-- Change the first task with an id. -/
def updateTask (taskId : String) (change : TaskItem → TaskItem) : List TaskItem → List TaskItem
  | [] => []
  | task :: tasks =>
      if task.id = taskId then change task :: tasks else task :: updateTask taskId change tasks

/-- Change a task if it has one of some statuses. -/
def moveTask (b : BacklogState) (taskId : String) (allowed : List TaskStatus)
    (change : TaskItem → TaskItem) : Bool × BacklogState :=
  match b.findTask taskId with
  | some task =>
      if task.status ∈ allowed then (true, { b with tasks := updateTask taskId change b.tasks })
      else (false, b)
  | none => (false, b)

def startTask (b : BacklogState) (taskId : String) : Bool × BacklogState :=
  b.moveTask taskId [.ready] fun task => { task with status := .running }

def completeTask (b : BacklogState) (taskId : String) (summary : Option String) :
    Bool × BacklogState :=
  b.moveTask taskId [.running, .verifying] fun task =>
    { task with status := .done, resultSummary := summary }

def failTask (b : BacklogState) (taskId error : String) : Bool × BacklogState :=
  b.moveTask taskId [.running] fun task =>
    { task with status := .failed, resultSummary := some error }

def blockTask (b : BacklogState) (taskId reason : String) : Bool × BacklogState :=
  b.moveTask taskId [.running] fun task =>
    { task with status := .blocked, resultSummary := some reason }

end BacklogState

end AgileAgent.Backlog
