import AgileAgent.Kanban.MemoryRepository

/-! # Elements that have started

Dependencies are looked at when an element is moved to InProgress or Done, and not when they are
added to one that is there already, nor when a dependency is opened again.
-/

namespace AgileAgent.Kanban

open KanbanElementRepository

/-- The statuses that `update_status` guards. -/
def KanbanElement.Started (e : KanbanElement) : Prop := e.status = .inProgress ∨ e.status = .done

/-- What has started depends only on what is done or verified. -/
def Founded (board : Board) : Prop :=
  ∀ id e, board id = some e → e.Started → ∀ d ∈ e.dependencies, Met board d

/-- An element that has started depends on it. -/
def Needed (board : Board) (d : ElementId) : Prop := ∃ a x, board a = some x ∧ x.Started ∧ d ∈ x.dependencies

section

variable {board : Board} {id : ElementId}

theorem Met.elsewhere {d : ElementId} {entry : Option KanbanElement} (met : Met board d) (other : d ≠ id) :
    Met (Function.update board id entry) d := by
  rw [Met, Function.update_of_ne other]
  exact met

theorem Met.put {d : ElementId} {e : KanbanElement} (met : Met board d)
    (still : d = id → e.status = .done ∨ e.status = .verified) :
    Met (Function.update board id (some e)) d := by
  by_cases same : d = id
  · exact ⟨e, by rw [same, Function.update_self], still same⟩
  · exact met.elsewhere same

/-- Saving an element needs its own dependencies met, and those of others kept. -/
theorem Founded.put {e : KanbanElement} (founded : Founded board)
    (own : e.Started → ∀ d ∈ e.dependencies, Met (Function.update board id (some e)) d)
    (others : ∀ d, Needed board d → Met board d → Met (Function.update board id (some e)) d) :
    Founded (Function.update board id (some e)) := by
  intro a x found started
  by_cases here : a = id
  · subst here
    rw [Function.update_self] at found
    cases found
    exact own started
  · rw [Function.update_of_ne here] at found
    exact fun d member => others d ⟨a, x, found, started, member⟩ (founded a x found started d member)

/-- An element that keeps its status, and gets only dependencies that it may have. -/
theorem Founded.keep {e e' : KanbanElement} (founded : Founded board) (found : board id = some e)
    (same : e'.status = e.status)
    (fewer : e'.Started → ∀ d ∈ e'.dependencies, d ∈ e.dependencies ∨ Met board d) :
    Founded (Function.update board id (some e')) := by
  have kept (d : ElementId) (met : Met board d) : Met (Function.update board id (some e')) d := by
    refine met.put fun here => ?_
    obtain ⟨x, isX, finished⟩ := met
    cases (here ▸ isX).symm.trans found
    rwa [same]
  refine founded.put (fun started d member => kept d ?_) fun d _ => kept d
  have before : e.Started := by rwa [KanbanElement.Started, ← same]
  exact (fewer started d member).elim (founded id e found before d) fun met => met

theorem Founded.move {e moved : KanbanElement} {newStatus : Status} (founded : Founded board)
    (found : board id = some e) (made : e.transition newStatus = some moved)
    (met : newStatus = .inProgress ∨ newStatus = .done → ∀ d ∈ e.dependencies, Met board d)
    (free : newStatus = .todo → e.status = .done → ¬ Needed board id) :
    Founded (Function.update board id (some moved)) := by
  obtain ⟨allowed, isNew⟩ := KanbanElement.transition_status made
  have sameDependencies := (KanbanElement.transition_keeps made).2
  have finished {d : ElementId} (old : Met board d) (here : d = id) : e.status = .done ∨ e.status = .verified := by
    obtain ⟨x, isX, finished⟩ := old
    cases (here ▸ isX).symm.trans found
    exact finished
  refine founded.put (fun started d member => ?_) fun d needed old => ?_
  · rw [KanbanElement.Started, isNew] at started
    have old := met started d (sameDependencies ▸ member)
    -- nothing that is done or verified moves forward into a guarded status
    refine old.elsewhere fun here => ?_
    rcases started with rfl | rfl <;> rcases finished old here with status | status <;>
      simp [status, Status.validTransitions] at allowed
  · refine old.put fun here => ?_
    subst here
    rcases finished old rfl with status | status
    · rw [status] at allowed
      simp only [Status.validTransitions, List.mem_cons, List.not_mem_nil, or_false] at allowed
      rcases allowed with rfl | rfl
      · exact .inr isNew
      · exact absurd needed (free rfl status)
    · simp [status, Status.validTransitions] at allowed

theorem Founded.remove (founded : Founded board) (unused : ∀ a e, board a = some e → id ∉ e.dependencies) :
    Founded (Function.update board id none) := by
  intro a x found started d member
  by_cases here : a = id
  · simp [here] at found
  · rw [Function.update_of_ne here] at found
    refine (founded a x found started d member).elsewhere ?_
    rintro rfl
    exact unused a x found member

end

variable {R : Type} [KanbanElementRepository R] [numbered : NumberedRepository R]

open LawfulRepository KanbanService

/-- The changes that the service makes without looking at dependencies leave met what has to be. -/
def Command.Grounded (r : R) : Command → Prop
  | .createElement element => element.Started → ∀ d ∈ element.dependencies, Met (board r) d
  | .addDependency id dependency =>
      ∀ e, board r id = some e → e.Started → Met (board r) dependency
  | .updateStatus id newStatus =>
      newStatus = .todo → ∀ e, board r id = some e → e.status = .done → ¬ Needed (board r) id
  | .updateStatusWithType id name => Status.ofName name = some .todo →
      ∀ e, board r id = some e → e.status = .done → ¬ Needed (board r) id
  | _ => True

theorem effect_founded {r : R} {command : Command} {b : Board} (effect : Effect r command b)
    (known : Known r) (founded : Founded (board r)) (grounded : command.Grounded r) : Founded b := by
  cases effect with
  | @created element id s given =>
      have new := known.new (fun _ member => member) given
      have kept (d : ElementId) (met : Met (board r) d) :
          Met (Function.update (board r) id (some (element.setId id))) d := by
        refine met.elsewhere ?_
        rintro rfl
        obtain ⟨e, found, -⟩ := met
        simp [new] at found
      refine founded.put (fun started d member => kept d ?_) fun d _ => kept d
      rw [KanbanElement.Started, KanbanElement.status_setId] at started
      exact grounded started d (by simpa using member)
  | moved found made met => exact founded.move found made met fun toTodo => grounded toTodo _ found
  | movedByType named effect =>
      cases effect with
      | moved found made met =>
          exact founded.move found made met fun toTodo => grounded (toTodo ▸ named) _ found
  | depends found new =>
      refine founded.keep found (by simp) fun started d member => ?_
      rw [KanbanElement.Started, KanbanElement.status_setDependencies] at started
      rw [KanbanElement.dependencies_setDependencies, List.mem_append, List.mem_singleton] at member
      rcases member with old | rfl
      · exact .inl old
      · exact .inr (grounded _ found started)
  | depended _ _ => exact founded
  | freed found =>
      refine founded.keep found (by simp) fun _ d member => .inl ?_
      rw [KanbanElement.dependencies_setDependencies] at member
      exact (List.mem_filter.mp member).1
  | deleted unused => exact founded.remove unused
  | @edited id edit e found =>
      obtain ⟨-, sameDependencies, sameStatus⟩ := e.edited_keeps edit
      exact founded.keep found sameStatus fun _ d member => .inl (sameDependencies ▸ member)
  | @tipped taskId tipId agentId content task s t found isTask required given =>
      have new := known.new (require_left required) given
      refine founded.put (fun _ d member => ?_) fun d _ met => met.elsewhere ?_
      · rw [KanbanElement.dependencies_setId] at member
        cases member
      · rintro rfl
        obtain ⟨e, present, -⟩ := met
        simp [new] at present

theorem after_founded (registry : TransitionRegistry) {r : R} {command : Command} (known : Known r)
    (founded : Founded (board r)) (grounded : command.Grounded r) :
    Founded (board (after registry r command)) := by
  rcases after_effect r registry command with effect | failed
  · exact effect_founded effect known founded grounded
  · exact failed ▸ founded

/-- What has started keeps resting on what is done or verified, as long as nothing unmet is put
    under it from outside of `update_status`. -/
theorem grounded_run_founded (registry : TransitionRegistry) (r : R) (commands : List Command)
    (empty : ∀ id, board r id = none)
    (grounded : Along (fun r command => command.Grounded r) registry r commands) :
    Founded (board (run registry r commands)) := by
  have start : Known r ∧ Founded (board r) :=
    ⟨fun id present => by simp [empty] at present, fun id e found => by simp [empty] at found⟩
  have keeps (r : R) (command : Command) (grounded : command.Grounded r) (kept : Known r ∧ Founded (board r)) :
      Known (after registry r command) ∧ Founded (board (after registry r command)) :=
    ⟨after_known registry command kept.1, after_founded registry kept.1 kept.2 grounded⟩
  exact (grounded.invariant keeps start).2

/-- A task that starts when what it depends on is done. -/
theorem start_after_done_founded : Founded (run none MemoryRepository.empty
    [.createElement (.task { title := "build", status := .done }),
      .createElement (.task { title := "test", status := .todo, dependencies := [⟨"task-001"⟩] }),
      .updateStatus ⟨"task-002"⟩ .inProgress]).board := by
  refine grounded_run_founded (R := MemoryRepository) none MemoryRepository.empty _ (fun _ => rfl) ?_
  refine ⟨fun _ d none => (List.not_mem_nil none).elim, fun started => ?_, fun toTodo => ?_, trivial⟩
  · rcases started with status | status <;> cases status
  · cases toTodo

/-- A task that has started is given a dependency that has not. -/
def startedTooEarly : List Command :=
  [.createElement (.task { title := "build" }), .createElement (.task { title := "test" }),
    .updateStatus ⟨"task-001"⟩ .backlog, .updateStatus ⟨"task-001"⟩ .todo,
    .updateStatus ⟨"task-001"⟩ .inProgress, .addDependency ⟨"task-001"⟩ ⟨"task-002"⟩]

/-- What has started does not always rest on what is done. -/
theorem started_not_founded :
    ¬ ∀ commands : List Command, Founded (run none MemoryRepository.empty commands).board := by
  intro all
  obtain ⟨e, ⟨⟩, status⟩ := all startedTooEarly ⟨"task-001"⟩ _ rfl (.inl rfl) ⟨"task-002"⟩ (by decide)
  rcases status with status | status <;> cases status

end AgileAgent.Kanban
