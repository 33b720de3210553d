import AgileAgent.Kanban.Repository

/-! # The kanban service

The commands of the service over any repository. Events are not modelled, and neither are the
queries, which only read.
-/

namespace AgileAgent.Kanban

open KanbanElementRepository

/-- `TransitionRegistry::can_transition`, if the service has a registry. -/
def TransitionRegistry := Option (Status → Status → Bool)

/-- The rules of the registry, or else those of the statuses. -/
def TransitionRegistry.allows (registry : TransitionRegistry) (element : KanbanElement)
    (newStatus : Status) : Bool :=
  match registry with
  | some canTransition => canTransition element.status newStatus
  | none => element.canTransitionTo newStatus

/-- The changes that `update_element` is asked for. -/
structure Edit where
  title : Option String := none
  content : Option String := none
  priority : Option Priority := none
  assignee : Option String := none
  effort : Option Nat := none
  deriving Repr, DecidableEq

def Edit.apply (edit : Edit) (base : BaseElement) : BaseElement :=
  { base with
    title := edit.title.getD base.title
    content := edit.content.getD base.content
    priority := edit.priority.getD base.priority
    assignee := edit.assignee.or base.assignee
    effort := edit.effort.or base.effort }

namespace KanbanService

variable {R : Type} [KanbanElementRepository R]

def createElement (element : KanbanElement) : Call R KanbanElement := do
  let id ← newId element.elementType
  let element := element.setId id
  save element
  return element

/-- The element with an id, or `NotFound`. -/
def require (id : ElementId) : Call R KanbanElement := do
  match ← get id with
  | some element => return element
  | none => throw (.notFound id.text)

/-- Whether a dependency is missing, or neither done nor verified. -/
def isBlocking (dependency : ElementId) : Call R Bool := do
  match ← get dependency with
  | some element => return element.status ≠ .done ∧ element.status ≠ .verified
  | none => return true

/-- The loop of `find_blocking_dependencies`. -/
def blockersAmong : List ElementId → Call R (List ElementId)
  | [] => return []
  | dependency :: rest => do
      let blocks ← isBlocking dependency
      let blockers ← blockersAmong rest
      return if blocks then dependency :: blockers else blockers

def findBlockingDependencies (id : ElementId) : Call R (List ElementId) := do
  let element ← require id
  blockersAmong element.dependencies

/-- The end of `update_status`: move the element and save it. -/
def moveTo (element : KanbanElement) (newStatus : Status) : Call R KanbanElement := do
  match element.transition newStatus with
  | some moved =>
      save moved
      return moved
  | none => throw (.invalidStatusTransition element.status.display newStatus.display)

def updateStatus (registry : TransitionRegistry) (id : ElementId) (newStatus : Status) :
    Call R KanbanElement := do
  let element ← require id
  let oldStatus := element.status
  if !registry.allows element newStatus then
    throw (.invalidStatusTransition oldStatus.display newStatus.display)
  if newStatus = .inProgress ∨ newStatus = .done then
    let blockers ← findBlockingDependencies id
    if blockers ≠ [] then
      throw (.dependenciesNotMet (blockers.map ElementId.text))
  moveTo element newStatus

def updateStatusWithType (registry : TransitionRegistry) (id : ElementId) (newStatusType : String) :
    Call R KanbanElement := do
  match Status.ofName newStatusType with
  | some newStatus => updateStatus registry id newStatus
  | none => throw (.conversionError ("unknown status type: " ++ newStatusType))

def addDependency (id dependency : ElementId) : Call R Unit := do
  if id = dependency then
    throw (.invalidInput "element cannot depend on itself")
  let element ← require id
  if dependency ∉ element.dependencies then
    save (element.setDependencies (element.dependencies ++ [dependency]))

def removeDependency (id dependency : ElementId) : Call R Unit := do
  let element ← require id
  save (element.setDependencies (element.dependencies.filter (· ≠ dependency)))

def delete (id : ElementId) : Call R Unit := do
  let all ← list
  let dependents := (all.filter fun e => id ∈ e.dependencies).filterMap fun e => e.id.map ElementId.text
  if dependents ≠ [] then
    throw (.hasDependents dependents)
  KanbanElementRepository.delete id

def updateElement (id : ElementId) (edit : Edit) : Call R KanbanElement := do
  let element ← require id
  let edited := element.setBase (edit.apply element.base)
  if edit ≠ {} then
    save edited
  return edited

def appendTip (taskId : ElementId) (agentId content : String) : Call R KanbanElement := do
  let task ← require taskId
  if task.elementType ≠ .task then
    throw (.invalidInput "append_tip can only be called on Task elements")
  let tips := KanbanElement.newTips content taskId agentId
  let tipId ← newId .tips
  let tips := tips.setId tipId
  save tips
  return tips

end KanbanService

inductive Command where
  | createElement (element : KanbanElement)
  | updateStatus (id : ElementId) (newStatus : Status)
  | updateStatusWithType (id : ElementId) (newStatusType : String)
  | addDependency (id dependency : ElementId)
  | removeDependency (id dependency : ElementId)
  | delete (id : ElementId)
  | updateElement (id : ElementId) (edit : Edit)
  | appendTip (taskId : ElementId) (agentId content : String)
  deriving Repr

namespace KanbanService

variable {R : Type} [KanbanElementRepository R]

/-- One command; the elements that some of them return are dropped. -/
def perform (registry : TransitionRegistry) : Command → Call R Unit
  | .createElement element => do let _ ← createElement element
  | .updateStatus id newStatus => do let _ ← updateStatus registry id newStatus
  | .updateStatusWithType id newStatusType => do
      let _ ← updateStatusWithType registry id newStatusType
  | .addDependency id dependency => addDependency id dependency
  | .removeDependency id dependency => removeDependency id dependency
  | .delete id => delete id
  | .updateElement id edit => do let _ ← updateElement id edit
  | .appendTip taskId agentId content => do let _ ← appendTip taskId agentId content

/-- The repository after a command, whether it succeeds or not. -/
def after (registry : TransitionRegistry) (r : R) (command : Command) : R :=
  match perform registry command r with
  | .ok _ next | .error _ next => next

def run (registry : TransitionRegistry) (r : R) (commands : List Command) : R :=
  commands.foldl (after registry) r

end KanbanService

end AgileAgent.Kanban
