import AgileAgent.Acyclic
import AgileAgent.Kanban.Effects

/-! # Dependencies between elements

No command looks for a way back before it adds a dependency, and none asks whether the element
it names exists. Commands that only add what is safe keep the board free of cycles and of
dangling dependencies.
-/

namespace AgileAgent.Kanban

open Relation KanbanElementRepository

def DependsOn (board : Board) (a b : ElementId) : Prop :=
  ∃ e, board a = some e ∧ b ∈ e.dependencies

/-- Dependencies name elements and have no cycles, so that of every set of elements one waits
    for none of the others. -/
structure Unblocked (board : Board) : Prop where
  acyclic : Acyclic (DependsOn board)
  existing : ∀ a b, DependsOn board a b → (board b).isSome

theorem Unblocked.free {board : Board} (unblocked : Unblocked board) (s : Finset ElementId)
    (nonempty : s.Nonempty) : ∃ a ∈ s, ∀ b ∈ s, ¬ DependsOn board a b :=
  unblocked.acyclic.exists_free s nonempty

/-- A new dependency of `id` names an element that does not wait for `id`. -/
def Safe (board : Board) (id dependency : ElementId) : Prop :=
  (board dependency).isSome ∧ ¬ ReflTransGen (DependsOn board) dependency id

section

variable {board : Board} {id : ElementId}

theorem dependsOn_update_ne {entry : Option KanbanElement} {a b : ElementId} (elsewhere : a ≠ id) :
    DependsOn (Function.update board id entry) a b ↔ DependsOn board a b := by
  simp [DependsOn, Function.update_of_ne elsewhere]

theorem dependsOn_put {e : KanbanElement} {b : ElementId} :
    DependsOn (Function.update board id (some e)) id b ↔ b ∈ e.dependencies := by
  simp [DependsOn]

/-- Saving an element is safe when what is new among its dependencies is. -/
theorem Unblocked.put {e : KanbanElement} (unblocked : Unblocked board)
    (safe : ∀ d ∈ e.dependencies, ¬ DependsOn board id d → Safe board id d) :
    Unblocked (Function.update board id (some e)) := by
  constructor
  · refine unblocked.acyclic.redirect (x := id) ?_ ?_
    · exact fun a b arrow elsewhere => (dependsOn_update_ne elsewhere).mp arrow
    · exact fun b arrow fresh => (safe b (dependsOn_put.mp arrow) fresh).2
  · intro a b arrow
    by_cases target : b = id
    · simp [target]
    rw [Function.update_of_ne target]
    by_cases here : a = id
    · subst here
      by_cases old : DependsOn board a b
      · exact unblocked.existing a b old
      · exact (safe b (dependsOn_put.mp arrow) old).1
    · exact unblocked.existing a b ((dependsOn_update_ne here).mp arrow)

theorem Unblocked.remove (unblocked : Unblocked board) (unused : ∀ a, ¬ DependsOn board a id) :
    Unblocked (Function.update board id none) := by
  have fewer : ∀ a b, DependsOn (Function.update board id none) a b → DependsOn board a b := by
    intro a b arrow
    by_cases here : a = id
    · simp [here, DependsOn] at arrow
    · exact (dependsOn_update_ne here).mp arrow
  refine ⟨unblocked.acyclic.mono fewer, fun a b arrow => ?_⟩
  have target : b ≠ id := by
    rintro rfl
    exact unused a (fewer a b arrow)
  rw [Function.update_of_ne target]
  exact unblocked.existing a b (fewer a b arrow)

end

variable {R : Type} [KanbanElementRepository R] [lawful : LawfulRepository R]

open LawfulRepository KanbanService

/-- Every dependency that a command adds is safe. -/
def Command.Careful (r : R) : Command → Prop
  | .createElement element => ∀ id s, newId element.elementType r = .ok id s →
      ∀ d ∈ element.dependencies, Safe (board r) id d
  | .addDependency id dependency => ¬ DependsOn (board r) id dependency → Safe (board r) id dependency
  | _ => True

theorem effect_unblocked {r : R} {command : Command} {after : Board} (effect : Effect r command after)
    (unblocked : Unblocked (board r)) (careful : command.Careful r) : Unblocked after := by
  -- an element whose dependencies are old ones is safe to save
  have keeps {id : ElementId} {e e' : KanbanElement} (found : board r id = some e)
      (fewer : ∀ d ∈ e'.dependencies, d ∈ e.dependencies) :
      Unblocked (Function.update (board r) id (some e')) :=
    unblocked.put fun d member fresh => absurd ⟨e, found, fewer d member⟩ fresh
  induction effect with
  | created given =>
      exact unblocked.put fun d member _ => careful _ _ given d (by simpa using member)
  | moved found made _ => exact keeps found fun d member => (KanbanElement.transition_keeps made).2 ▸ member
  | movedByType _ _ ih => exact ih trivial
  | depends found _ =>
      refine unblocked.put fun d member fresh => ?_
      rw [KanbanElement.dependencies_setDependencies, List.mem_append, List.mem_singleton] at member
      rcases member with old | rfl
      · exact absurd ⟨_, found, old⟩ fresh
      · exact careful fresh
  | depended _ _ => exact unblocked
  | freed found => exact keeps found fun d member => by simp at member; exact member.1
  | deleted unused => exact unblocked.remove fun a ⟨e, found, depends⟩ => unused a e found depends
  | @edited id edit e found => exact keeps found fun d member => (e.edited_keeps edit).2.1 ▸ member
  | tipped _ _ _ _ =>
      refine unblocked.put fun d member _ => ?_
      rw [KanbanElement.dependencies_setId] at member
      cases member

theorem after_unblocked (r : R) (registry : TransitionRegistry) (command : Command)
    (unblocked : Unblocked (board r)) (careful : command.Careful r) :
    Unblocked (board (after registry r command)) := by
  rcases after_effect r registry command with effect | failed
  · exact effect_unblocked effect unblocked careful
  · exact failed ▸ unblocked

/-- Every command of a run is careful where it is run. -/
def CarefulRun (registry : TransitionRegistry) : R → List Command → Prop
  | _, [] => True
  | r, command :: commands => command.Careful r ∧ CarefulRun registry (after registry r command) commands

/-- Dependencies stay sound, and never block a set of elements for good, as long as each one
    that is added names an element that does not wait for the one that gets it. -/
theorem careful_run_unblocked (registry : TransitionRegistry) (r : R) (commands : List Command)
    (empty : ∀ id, board r id = none) (careful : CarefulRun registry r commands) :
    let reached := board (run registry r commands)
    Unblocked reached ∧ ∀ s : Finset ElementId, s.Nonempty → ∃ a ∈ s, ∀ b ∈ s, ¬ DependsOn reached a b := by
  suffices unblocked : ∀ r : R, Unblocked (board r) → CarefulRun registry r commands →
      Unblocked (board (run registry r commands)) by
    have start : Unblocked (board r) :=
      ⟨Acyclic.empty fun a b => by simp [DependsOn, empty], fun a b => by simp [DependsOn, empty]⟩
    exact ⟨unblocked r start careful, (unblocked r start careful).free⟩
  clear careful empty r
  induction commands with
  | nil => exact fun r start _ => start
  | cons command commands ih =>
      exact fun r start careful =>
        ih _ (after_unblocked r registry command start careful.1) careful.2

end AgileAgent.Kanban
