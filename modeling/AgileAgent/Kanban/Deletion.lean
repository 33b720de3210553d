import AgileAgent.Kanban.MemoryRepository

/-! # Deleted elements

A deletion looks for elements that depend on the one deleted. Parents, references and the tasks
of tips are not looked at, so that these may name what is gone.
-/

namespace AgileAgent.Kanban

open KanbanElementRepository

/-- An element names an id in a place that a deletion does not look at. -/
def KanbanElement.Cites (e : KanbanElement) (id : ElementId) : Prop :=
  e.parent = some id ∨ id ∈ e.references ∨ e.targetTask = some id

def KanbanElement.Names (e : KanbanElement) (id : ElementId) : Prop := id ∈ e.dependencies ∨ e.Cites id

@[simp] theorem KanbanElement.targetTask_setBase (e : KanbanElement) (base : BaseElement) :
    (e.setBase base).targetTask = e.targetTask := by
  cases e <;> rfl

theorem KanbanElement.names_setBase {e : KanbanElement} {base : BaseElement} {id : ElementId}
    (sameParent : base.parent = e.base.parent) (sameReferences : base.references = e.base.references) :
    (e.setBase base).Names id ↔ id ∈ base.dependencies ∨ e.Cites id := by
  simp [Names, Cites, dependencies, parent, references, sameParent, sameReferences]

@[simp] theorem KanbanElement.names_setId {e : KanbanElement} {id d : ElementId} :
    (e.setId id).Names d ↔ e.Names d :=
  names_setBase rfl rfl

/-- Every id that an element names is the id of an element. -/
def Linked (board : Board) : Prop := ∀ a e, board a = some e → ∀ d, e.Names d → (board d).isSome

section

variable {board : Board} {id : ElementId}

theorem Linked.put {e : KanbanElement} (linked : Linked board)
    (named : ∀ d, e.Names d → (board d).isSome) : Linked (Function.update board id (some e)) := by
  have grown (d : ElementId) (present : (board d).isSome) : (Function.update board id (some e) d).isSome := by
    by_cases here : d = id
    · simp [here]
    · rwa [Function.update_of_ne here]
  intro a x found d names
  refine grown d ?_
  by_cases here : a = id
  · rw [here, Function.update_self] at found
    cases found
    exact named d names
  · rw [Function.update_of_ne here] at found
    exact linked a x found d names

/-- Saving an element that only changed in other places, or in its dependencies. -/
theorem Linked.setBase {e : KanbanElement} {base : BaseElement} (linked : Linked board)
    (found : board id = some e) (sameParent : base.parent = e.base.parent)
    (sameReferences : base.references = e.base.references)
    (named : ∀ d ∈ base.dependencies, d ∈ e.dependencies ∨ (board d).isSome) :
    Linked (Function.update board id (some (e.setBase base))) := by
  refine linked.put fun d names => ?_
  rcases (KanbanElement.names_setBase sameParent sameReferences).mp names with depends | cites
  · exact (named d depends).elim (fun old => linked id e found d (.inl old)) fun present => present
  · exact linked id e found d (.inr cites)

theorem Linked.remove (linked : Linked board) (unused : ∀ a e, board a = some e → id ∉ e.dependencies)
    (uncited : ∀ a e, a ≠ id → board a = some e → ¬ e.Cites id) :
    Linked (Function.update board id none) := by
  intro a x found d names
  by_cases here : a = id
  · simp [here] at found
  rw [Function.update_of_ne here] at found
  have other : d ≠ id := by
    rintro rfl
    exact names.elim (unused a x found) (uncited a x here found)
  rw [Function.update_of_ne other]
  exact linked a x found d names

end

variable {R : Type} [KanbanElementRepository R] [lawful : LawfulRepository R]

open LawfulRepository KanbanService

/-- Created elements refer to existing ones. -/
def Command.Refers (r : R) : Command → Prop
  | .createElement element => ∀ d, element.Names d → (board r d).isSome
  | _ => True

/-- Added dependencies exist, and nothing that an element cites is deleted. -/
def Command.Spares (r : R) : Command → Prop
  | .addDependency _ dependency => (board r dependency).isSome
  | .delete id => ∀ a e, a ≠ id → board r a = some e → ¬ e.Cites id
  | _ => True

theorem effect_linked {r : R} {command : Command} {b : Board} (effect : Effect r command b)
    (linked : Linked (board r)) (refers : command.Refers r) (spares : command.Spares r) : Linked b := by
  have move {id : ElementId} {e moved : KanbanElement} {newStatus : Status} (found : board r id = some e)
      (made : e.transition newStatus = some moved) : Linked (Function.update (board r) id (some moved)) := by
    unfold KanbanElement.transition at made
    split at made
    · cases made
      exact linked.setBase found rfl rfl fun d member => .inl member
    · cases made
  cases effect with
  | @created element id s given =>
      exact linked.put fun d names => refers d (KanbanElement.names_setId.mp names)
  | moved found made _ => exact move found made
  | movedByType _ effect =>
      cases effect with
      | moved found made _ => exact move found made
  | depends found _ =>
      refine linked.setBase found rfl rfl fun d member => ?_
      rcases List.mem_append.mp member with old | new
      · exact .inl old
      · exact .inr (List.mem_singleton.mp new ▸ spares)
  | depended _ _ => exact linked
  | freed found => exact linked.setBase found rfl rfl fun d member => .inl (List.mem_filter.mp member).1
  | deleted unused => exact linked.remove unused spares
  | edited found => exact linked.setBase found rfl rfl fun d member => .inl member
  | @tipped taskId tipId agentId content task s t found _ _ _ =>
      refine linked.put fun d names => ?_
      rcases KanbanElement.names_setId.mp names with depends | none | none | target
      · cases depends
      · cases none
      · cases none
      · cases target
        simp [found]

/-- What a deletion that succeeds leaves. -/
structure Deleted (before after : Board) (id : ElementId) : Prop where
  gone : after id = none
  others : ∀ a, a ≠ id → after a = before a
  independent : ∀ a e, after a = some e → id ∉ e.dependencies
  cited : (∃ a e, after a = some e ∧ e.Names id) ↔ ∃ a e, a ≠ id ∧ before a = some e ∧ e.Cites id

theorem Deleted.of_unused {board : Board} {id : ElementId}
    (unused : ∀ a e, board a = some e → id ∉ e.dependencies) :
    Deleted board (Function.update board id none) id := by
  have old {a : ElementId} {e : KanbanElement} (found : Function.update board id none a = some e) :
      a ≠ id ∧ board a = some e := by
    by_cases here : a = id
    · simp [here] at found
    · rw [Function.update_of_ne here] at found
      exact ⟨here, found⟩
  refine ⟨by simp, fun a other => Function.update_of_ne other _ _, fun a e found => ?_, ?_, ?_⟩
  · exact unused a e (old found).2
  · rintro ⟨a, e, found, depends | cites⟩
    · exact absurd depends (unused a e (old found).2)
    · exact ⟨a, e, (old found).1, (old found).2, cites⟩
  · rintro ⟨a, e, other, found, cites⟩
    exact ⟨a, e, by rwa [Function.update_of_ne other], .inr cites⟩

/-- A deletion fails and changes nothing, or leaves no dependency on what it deleted and only the
    citations that were there. Where nothing cited is deleted and no dependency added on what is
    not there, every id that an element names is the id of an element. -/
theorem delete_run_linked (registry : TransitionRegistry) (r : R) (commands : List Command)
    (empty : ∀ id, board r id = none)
    (refers : Along (fun r command => command.Refers r) registry r commands) :
    let reached := run registry r commands
    (∀ id, Performs board (perform registry (.delete id)) reached fun _ after =>
      Deleted (board reached) after id) ∧
    (Along (fun r command => command.Spares r) registry r commands → Linked (board reached)) := by
  refine ⟨fun id => ?_, fun spares => ?_⟩
  · refine (perform_effect _ registry (.delete id)).mono fun _ after effect => ?_
    cases effect with
    | deleted unused => exact .of_unused unused
  · have start : Linked (board r) := fun a e found => by simp [empty] at found
    refine (refers.and spares).invariant (fun r command careful (linked : Linked (board r)) => ?_) start
    rcases after_effect r registry command with effect | failed
    · exact effect_linked effect linked careful.1 careful.2
    · exact failed ▸ linked

/-- A story and a task of it. -/
def storyAndTask : List Command :=
  [.createElement (.story { title := "login" }),
    .createElement (.task { title := "form", parent := some ⟨"story-001"⟩ })]

theorem storyAndTask_refers :
    Along (fun r command => command.Refers r) none MemoryRepository.empty storyAndTask := by
  refine ⟨fun d names => ?_, fun d names => ?_, trivial⟩
  · rcases names with none | none | none | none <;> cases none
  · rcases names with none | parent | none | none
    · cases none
    · cases parent
      rfl
    · cases none
    · cases none

theorem storyAndTask_linked :
    let reached := run none MemoryRepository.empty storyAndTask
    (∀ id, Performs board (perform none (.delete id)) reached fun _ after =>
      Deleted (board reached) after id) ∧
    (Along (fun r command => command.Spares r) none MemoryRepository.empty storyAndTask →
      Linked (board reached)) :=
  delete_run_linked (R := MemoryRepository) none MemoryRepository.empty storyAndTask (fun _ => rfl)
    storyAndTask_refers

/-- The story is deleted although its task names it. -/
theorem deleted_is_cited : ¬ ∀ (commands : List Command) (id : ElementId),
    Along (fun r command => command.Refers r) none MemoryRepository.empty commands →
    let reached := run none MemoryRepository.empty commands
    let after := (KanbanService.after none reached (.delete id)).board
    after = reached.board ∨ ∀ a e, after a = some e → ¬ e.Names id := by
  intro all
  rcases all storyAndTask ⟨"story-001"⟩ storyAndTask_refers with unchanged | unnamed
  · have gone := congrFun unchanged ⟨"story-001"⟩
    cases gone
  · exact unnamed ⟨"task-001"⟩ _ rfl (.inr (.inl rfl))

end AgileAgent.Kanban
