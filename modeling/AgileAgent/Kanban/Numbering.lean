import AgileAgent.Kanban.Effects

/-! # New ids

A repository that never issues an id twice keeps a new element apart from those on the board,
as long as every element got there under an id that was issued.
-/

namespace AgileAgent.Kanban

open KanbanElementRepository LawfulRepository KanbanService

section

variable {R α β : Type}

theorem left_return (call : Call R α) (r : R) : left (do let _ ← call; return ()) r = left call r := by
  cases called : call r with
  | ok result s =>
      rw [left_bind called]
      simp [left, called, pure, EStateM.pure]
  | error error s => simp [left, bind_error called, called]

theorem after_left [KanbanElementRepository R] (registry : TransitionRegistry) (r : R) (command : Command) :
    after registry r command = left (perform registry command) r := by
  unfold after left
  cases perform registry command r <;> rfl

/-- No id that was issued is forgotten. -/
def Grows (issued : R → Set ElementId) (call : Call R α) : Prop := ∀ r, issued r ⊆ issued (left call r)

variable {issued : R → Set ElementId}

theorem Grows.pure (result : α) : Grows issued (Pure.pure result : Call R α) := fun _ _ member => member

theorem Grows.throw (error : KanbanError) : Grows issued (MonadExcept.throw error : Call R α) :=
  fun _ _ member => member

theorem Grows.bind {first : Call R α} {next : α → Call R β} (grows : Grows issued first)
    (rest : ∀ result, Grows issued (next result)) : Grows issued (first >>= next) := by
  intro r
  have step := grows r
  cases called : first r with
  | ok result s =>
      rw [left_bind called]
      simp only [left, called] at step
      exact fun _ member => rest result s (step member)
  | error error s =>
      have stopped : (first >>= next) r = .error error s := bind_error called
      simpa only [left, stopped, called] using step

theorem Grows.thrown (error : KanbanError) {next : α → Call R β} :
    Grows issued (MonadExcept.throw error >>= next) := fun _ _ member => member

end

/-- A repository that issues every id once. -/
class NumberedRepository (R : Type) [KanbanElementRepository R] extends LawfulRepository R where
  issued : R → Set ElementId
  get_grows : ∀ id, Grows issued (get id)
  list_grows : Grows issued list
  save_grows : ∀ e, Grows issued (save e)
  delete_grows : ∀ id, Grows issued (KanbanElementRepository.delete id)
  newId_grows : ∀ elementType, Grows issued (newId elementType)
  newId_fresh : ∀ elementType r id s, newId elementType r = .ok id s → id ∉ issued r ∧ id ∈ issued s

open NumberedRepository

variable {R : Type} [KanbanElementRepository R] [numbered : NumberedRepository R]

theorem require_grows (id : ElementId) : Grows (issued : R → Set ElementId) (require id) := by
  refine (get_grows id).bind fun found => ?_
  cases found with
  | none => exact .throw _
  | some e => exact .pure e

theorem createElement_grows (element : KanbanElement) : Grows (issued : R → Set ElementId) (createElement element) :=
  (newId_grows _).bind fun _ => (save_grows _).bind fun _ => .pure _

theorem isBlocking_grows (dependency : ElementId) : Grows (issued : R → Set ElementId) (isBlocking dependency) := by
  refine (get_grows dependency).bind fun found => ?_
  cases found with
  | none => exact .pure _
  | some e => exact .pure _

theorem blockersAmong_grows (dependencies : List ElementId) :
    Grows (issued : R → Set ElementId) (blockersAmong dependencies) := by
  induction dependencies with
  | nil => exact .pure _
  | cons dependency rest ih => exact (isBlocking_grows dependency).bind fun _ => ih.bind fun _ => .pure _

theorem moveTo_grows (element : KanbanElement) (newStatus : Status) :
    Grows (issued : R → Set ElementId) (moveTo element newStatus) := by
  unfold moveTo
  split
  · exact (save_grows _).bind fun _ => .pure _
  · exact .throw _

theorem updateStatus_grows (registry : TransitionRegistry) (id : ElementId) (newStatus : Status) :
    Grows (issued : R → Set ElementId) (updateStatus registry id newStatus) := by
  refine (require_grows id).bind fun element => ?_
  dsimp only
  split
  · exact .thrown _
  split
  · refine ((require_grows id).bind fun _ => blockersAmong_grows _).bind fun blockers => ?_
    split
    · exact .thrown _
    · exact moveTo_grows element newStatus
  · exact moveTo_grows element newStatus

theorem perform_grows (registry : TransitionRegistry) (command : Command) :
    Grows (issued : R → Set ElementId) (perform registry command) := by
  cases command with
  | createElement element => exact (createElement_grows element).bind fun _ => .pure _
  | updateStatus id newStatus => exact (updateStatus_grows registry id newStatus).bind fun _ => .pure _
  | updateStatusWithType id name =>
      refine Grows.bind ?_ fun _ => .pure _
      unfold updateStatusWithType
      split
      · exact updateStatus_grows registry id _
      · exact .throw _
  | addDependency id dependency =>
      simp only [perform, addDependency]
      split
      · exact .thrown _
      · refine (require_grows id).bind fun element => ?_
        split
        · exact save_grows _
        · exact .pure _
  | removeDependency id dependency => exact (require_grows id).bind fun _ => save_grows _
  | delete id =>
      refine list_grows.bind fun all => ?_
      dsimp only
      split
      · exact .thrown _
      · exact delete_grows id
  | updateElement id edit =>
      refine Grows.bind ((require_grows id).bind fun element => ?_) fun _ => .pure _
      dsimp only
      split
      · exact (save_grows _).bind fun _ => .pure _
      · exact .pure _
  | appendTip taskId agentId content =>
      refine Grows.bind ((require_grows taskId).bind fun task => ?_) fun _ => .pure _
      dsimp only
      split
      · exact .thrown _
      · exact (newId_grows _).bind fun _ => (save_grows _).bind fun _ => .pure _

/-- Every element is on the board under an id that was issued. -/
def Known (r : R) : Prop := ∀ id, (board r id).isSome → id ∈ issued r

/-- An id that is new to the repository is new to the board. -/
theorem Known.new {r s t : R} (known : Known r) (grows : issued r ⊆ issued s) {elementType : ElementType}
    {id : ElementId} (given : newId elementType s = .ok id t) : board r id = none := by
  by_contra present
  exact (newId_fresh elementType s id t given).1 (grows (known id (Option.isSome_iff_ne_none.mpr present)))

theorem require_left {r s : R} {id : ElementId} {e : KanbanElement} (required : require id r = .ok e s) :
    issued r ⊆ issued s := by
  have grows := require_grows id r
  simpa only [left, required] using grows

theorem createElement_issues {r s : R} {element : KanbanElement} {id : ElementId}
    (given : newId element.elementType r = .ok id s) : id ∈ issued (left (createElement element) r) := by
  have issuedId := (newId_fresh _ r id s given).2
  have later : Grows (issued : R → Set ElementId) (do save (element.setId id); return element.setId id) :=
    (save_grows _).bind fun _ => .pure _
  rw [createElement, left_bind given]
  exact later s issuedId

theorem appendTip_issues {r s t : R} {taskId tipId : ElementId} {agentId content : String}
    {task : KanbanElement} (isTask : task.elementType = .task) (required : require taskId r = .ok task s)
    (given : newId .tips s = .ok tipId t) : tipId ∈ issued (left (appendTip taskId agentId content) r) := by
  have issuedId := (newId_fresh _ s tipId t given).2
  have later (tips : KanbanElement) : Grows (issued : R → Set ElementId) (do save tips; return tips) :=
    (save_grows _).bind fun _ => .pure _
  rw [appendTip, left_bind required]
  simp only [isTask, ne_eq, not_true_eq_false, ↓reduceIte]
  rw [left_bind given]
  exact later _ t issuedId

/-- What is new on the board after a command was issued by it. -/
theorem Effect.issues {r : R} {command : Command} {b : Board} (effect : Effect r command b)
    (registry : TransitionRegistry) {id : ElementId} (old : board r id = none) (present : (b id).isSome) :
    id ∈ issued (after registry r command) := by
  have elsewhere {id' : ElementId} {entry : Option KanbanElement}
      (found : (Function.update (board r) id' entry id).isSome) : id = id' := by
    by_contra other
    simp [Function.update_of_ne other, old] at found
  have impossible {id' : ElementId} {e : KanbanElement} {entry : Option KanbanElement}
      (found : board r id' = some e) (changed : (Function.update (board r) id' entry id).isSome) : False := by
    cases elsewhere changed
    simp [old] at found
  rw [after_left]
  cases effect with
  | created given =>
      cases elsewhere present
      rw [perform, left_return]
      exact createElement_issues given
  | tipped _ isTask required given =>
      cases elsewhere present
      rw [perform, left_return]
      exact appendTip_issues isTask required given
  | moved found _ _ => exact (impossible found present).elim
  | movedByType _ effect =>
      cases effect with
      | moved found _ _ => exact (impossible found present).elim
  | depends found _ => exact (impossible found present).elim
  | depended _ _ => simp [old] at present
  | freed found => exact (impossible found present).elim
  | deleted _ =>
      cases elsewhere present
      simp at present
  | edited found => exact (impossible found present).elim

theorem after_known (registry : TransitionRegistry) {r : R} (command : Command) (known : Known r) :
    Known (after registry r command) := by
  intro id present
  have grows : issued r ⊆ issued (after registry r command) :=
    after_left registry r command ▸ perform_grows registry command r
  by_cases old : (board r id).isSome
  · exact grows (known id old)
  rcases after_effect r registry command with effect | failed
  · exact effect.issues registry (Option.not_isSome_iff_eq_none.mp old) present
  · rw [failed] at present
    exact absurd present old

end AgileAgent.Kanban
