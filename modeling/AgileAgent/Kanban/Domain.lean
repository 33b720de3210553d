import AgileAgent.Numeral

/-! # The kanban domain

Statuses with the moves between them, and the elements of a board. Timestamps, tags, keywords
and the dates of sprints are left out, as no modelled function reads them.
-/

namespace AgileAgent.Kanban

inductive Status where
  | plan
  | backlog
  | blocked
  | ready
  | todo
  | inProgress
  | done
  | verified
  deriving Repr, DecidableEq

namespace Status

def validTransitions : Status → List Status
  | .plan => [.backlog]
  | .backlog => [.blocked, .ready, .todo, .plan]
  | .blocked => [.backlog]
  | .ready => [.todo, .backlog]
  | .todo => [.inProgress, .ready]
  | .inProgress => [.done, .todo]
  | .done => [.verified, .todo]
  | .verified => []

def canTransitionTo (s target : Status) : Bool := target ∈ s.validTransitions

/-- `Display`. -/
def display : Status → String
  | .plan => "Plan"
  | .backlog => "Backlog"
  | .blocked => "Blocked"
  | .ready => "Ready"
  | .todo => "Todo"
  | .inProgress => "InProgress"
  | .done => "Done"
  | .verified => "Verified"

/-- `Status::try_from` on the name of a status type. -/
def ofName : String → Option Status
  | "plan" => some .plan
  | "backlog" => some .backlog
  | "blocked" => some .blocked
  | "ready" => some .ready
  | "todo" => some .todo
  | "in_progress" => some .inProgress
  | "done" => some .done
  | "verified" => some .verified
  | _ => none

end Status

inductive Priority where
  | critical
  | high
  | medium
  | low
  deriving Repr, DecidableEq

inductive ElementType where
  | sprint
  | story
  | task
  | idea
  | issue
  | tips
  deriving Repr, DecidableEq

def ElementType.asStr : ElementType → String
  | .sprint => "sprint"
  | .story => "story"
  | .task => "task"
  | .idea => "idea"
  | .issue => "issue"
  | .tips => "tips"

structure ElementId where
  text : String
  deriving Repr, DecidableEq

/-- `ElementId::new`. -/
def ElementId.create (elementType : ElementType) (number : Nat) : ElementId :=
  ⟨elementType.asStr ++ "-" ++ String.ofList (Numeral.padded 3 number)⟩

theorem ElementId.create_inj {t t' : ElementType} {n n' : Nat} (same : create t n = create t' n') :
    t = t' ∧ n = n' := by
  have texts := congrArg String.toList (ElementId.mk.inj same)
  simp only [String.toList_append, String.toList_ofList] at texts
  cases t <;> cases t' <;> simp [ElementType.asStr] at texts ⊢
  all_goals exact Numeral.padded_injective texts

inductive KanbanError where
  | notFound (id : String)
  | invalidStatusTransition (source target : String)
  | dependenciesNotMet (dependencies : List String)
  | repositoryError (message : String)
  | serializationError (message : String)
  | invalidInput (message : String)
  | hasDependents (dependents : List String)
  | conversionError (message : String)
  deriving Repr, DecidableEq

/-- `Display`. -/
def KanbanError.display : KanbanError → String
  | .notFound id => "element not found: " ++ id
  | .invalidStatusTransition source target =>
      "invalid status transition from " ++ source ++ " to " ++ target
  | .dependenciesNotMet dependencies => "dependencies not met: " ++ ", ".intercalate dependencies
  | .repositoryError message => "repository error: " ++ message
  | .serializationError message => "serialization error: " ++ message
  | .invalidInput message => "invalid input: " ++ message
  | .hasDependents dependents => "element has dependents: " ++ ", ".intercalate dependents
  | .conversionError message => "conversion error: " ++ message

structure BaseElement where
  id : Option ElementId := none
  title : String
  content : String := ""
  status : Status := .plan
  dependencies : List ElementId := []
  references : List ElementId := []
  parent : Option ElementId := none
  priority : Priority := .medium
  assignee : Option String := none
  effort : Option Nat := none
  blockedReason : Option String := none
  deriving Repr, DecidableEq

/-- `KanbanElement`: what only tips have beside the common fields. -/
inductive KanbanElement where
  | sprint (base : BaseElement)
  | story (base : BaseElement)
  | task (base : BaseElement)
  | idea (base : BaseElement)
  | issue (base : BaseElement)
  | tips (base : BaseElement) (targetTask : ElementId) (agentId : String)
  deriving Repr, DecidableEq

namespace KanbanElement

def newTips (title : String) (targetTask : ElementId) (agentId : String) : KanbanElement :=
  .tips { title } targetTask agentId

def elementType : KanbanElement → ElementType
  | .sprint _ => .sprint
  | .story _ => .story
  | .task _ => .task
  | .idea _ => .idea
  | .issue _ => .issue
  | .tips _ _ _ => .tips

def base : KanbanElement → BaseElement
  | .sprint base | .story base | .task base | .idea base | .issue base | .tips base _ _ => base

/-- `base_mut`. -/
def setBase (base : BaseElement) : KanbanElement → KanbanElement
  | .sprint _ => .sprint base
  | .story _ => .story base
  | .task _ => .task base
  | .idea _ => .idea base
  | .issue _ => .issue base
  | .tips _ targetTask agentId => .tips base targetTask agentId

@[simp] theorem base_setBase (base : BaseElement) (e : KanbanElement) : (e.setBase base).base = base := by
  cases e <;> rfl

@[simp] theorem setBase_base (e : KanbanElement) : e.setBase e.base = e := by
  cases e <;> rfl

def id (e : KanbanElement) : Option ElementId := e.base.id

def status (e : KanbanElement) : Status := e.base.status

def dependencies (e : KanbanElement) : List ElementId := e.base.dependencies

def references (e : KanbanElement) : List ElementId := e.base.references

def parent (e : KanbanElement) : Option ElementId := e.base.parent

def title (e : KanbanElement) : String := e.base.title

def content (e : KanbanElement) : String := e.base.content

/-- The task of a tip. -/
def targetTask : KanbanElement → Option ElementId
  | .tips _ targetTask _ => some targetTask
  | _ => none

def setId (e : KanbanElement) (id : ElementId) : KanbanElement :=
  e.setBase { e.base with id := some id }

def setDependencies (e : KanbanElement) (dependencies : List ElementId) : KanbanElement :=
  e.setBase { e.base with dependencies }

def canTransitionTo (e : KanbanElement) (target : Status) : Bool := e.status.canTransitionTo target

def transition (e : KanbanElement) (newStatus : Status) : Option KanbanElement :=
  if e.canTransitionTo newStatus then some (e.setBase { e.base with status := newStatus }) else none

@[simp] theorem id_setId (e : KanbanElement) (id : ElementId) : (e.setId id).id = some id := by
  simp [setId, KanbanElement.id]

@[simp] theorem dependencies_setId (e : KanbanElement) (id : ElementId) :
    (e.setId id).dependencies = e.dependencies := by
  simp [setId, dependencies]

@[simp] theorem status_setId (e : KanbanElement) (id : ElementId) : (e.setId id).status = e.status := by
  simp [setId, status]

@[simp] theorem status_setDependencies (e : KanbanElement) (dependencies : List ElementId) :
    (e.setDependencies dependencies).status = e.status := by
  simp [setDependencies, status]

@[simp] theorem id_setDependencies (e : KanbanElement) (dependencies : List ElementId) :
    (e.setDependencies dependencies).id = e.id := by
  simp [setDependencies, KanbanElement.id]

@[simp] theorem dependencies_setDependencies (e : KanbanElement) (dependencies : List ElementId) :
    (e.setDependencies dependencies).dependencies = dependencies := by
  simp [setDependencies, KanbanElement.dependencies]

theorem transition_keeps {e moved : KanbanElement} {newStatus : Status}
    (made : e.transition newStatus = some moved) :
    moved.id = e.id ∧ moved.dependencies = e.dependencies := by
  unfold transition at made
  split at made
  · cases made
    simp [KanbanElement.id, KanbanElement.dependencies]
  · cases made

theorem transition_status {e moved : KanbanElement} {newStatus : Status}
    (made : e.transition newStatus = some moved) :
    newStatus ∈ e.status.validTransitions ∧ moved.status = newStatus := by
  unfold transition at made
  split at made
  · rename_i allowed
    cases made
    exact ⟨by simpa [canTransitionTo, Status.canTransitionTo] using allowed, by simp [KanbanElement.status]⟩
  · cases made

end KanbanElement

end AgileAgent.Kanban
