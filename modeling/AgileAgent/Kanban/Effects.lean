import AgileAgent.Kanban.Service

/-! # What commands do to the board

One inversion lemma for all commands. What a run keeps of the board is proved from it, one case
for each effect, and never from the commands themselves.
-/

namespace AgileAgent.Kanban

open KanbanElementRepository LawfulRepository KanbanService

/-- A dependency that blocks nothing. -/
def Met (board : Board) (dependency : ElementId) : Prop :=
  ∃ e, board dependency = some e ∧ (e.status = .done ∨ e.status = .verified)

@[simp] theorem Edit.apply_nothing (base : BaseElement) : Edit.apply {} base = base := rfl

theorem KanbanElement.edited_keeps (e : KanbanElement) (edit : Edit) :
    let edited := e.setBase (edit.apply e.base)
    edited.id = e.id ∧ edited.dependencies = e.dependencies ∧ edited.status = e.status := by
  simp [KanbanElement.id, KanbanElement.dependencies, KanbanElement.status, Edit.apply]

variable {R : Type} [KanbanElementRepository R] [lawful : LawfulRepository R]

/-- What a command that succeeds does to the board. -/
inductive Effect (r : R) : Command → Board → Prop
  | created {element : KanbanElement} {id : ElementId} {s : R}
      (given : newId element.elementType r = .ok id s) :
      Effect r (.createElement element) (Function.update (board r) id (some (element.setId id)))
  | moved {id : ElementId} {newStatus : Status} {e moved : KanbanElement} (found : board r id = some e)
      (made : e.transition newStatus = some moved)
      (met : newStatus = .inProgress ∨ newStatus = .done → ∀ d ∈ e.dependencies, Met (board r) d) :
      Effect r (.updateStatus id newStatus) (Function.update (board r) id (some moved))
  | movedByType {id : ElementId} {name : String} {newStatus : Status} {after : Board}
      (named : Status.ofName name = some newStatus)
      (effect : Effect r (.updateStatus id newStatus) after) :
      Effect r (.updateStatusWithType id name) after
  | depends {id dependency : ElementId} {e : KanbanElement} (found : board r id = some e)
      (new : dependency ∉ e.dependencies) :
      Effect r (.addDependency id dependency)
        (Function.update (board r) id (some (e.setDependencies (e.dependencies ++ [dependency]))))
  | depended {id dependency : ElementId} {e : KanbanElement} (found : board r id = some e)
      (old : dependency ∈ e.dependencies) :
      Effect r (.addDependency id dependency) (board r)
  | freed {id dependency : ElementId} {e : KanbanElement} (found : board r id = some e) :
      Effect r (.removeDependency id dependency)
        (Function.update (board r) id (some (e.setDependencies (e.dependencies.filter (· ≠ dependency)))))
  | deleted {id : ElementId} (unused : ∀ a e, board r a = some e → id ∉ e.dependencies) :
      Effect r (.delete id) (Function.update (board r) id none)
  | edited {id : ElementId} {edit : Edit} {e : KanbanElement} (found : board r id = some e) :
      Effect r (.updateElement id edit)
        (Function.update (board r) id (some (e.setBase (edit.apply e.base))))
  | tipped {taskId tipId : ElementId} {agentId content : String} {task : KanbanElement} {s t : R}
      (found : board r taskId = some task) (isTask : task.elementType = .task)
      (required : require taskId r = .ok task s) (given : newId .tips s = .ok tipId t) :
      Effect r (.appendTip taskId agentId content)
        (Function.update (board r) tipId (some ((KanbanElement.newTips content taskId agentId).setId tipId)))

section

variable (r : R)

theorem require_reads (id : ElementId) : Reads board (require id) r fun e => board r id = some e := by
  refine (get_reads id r).andThen fun found s isFound kept => ?_
  cases found with
  | none => exact Performs.throw _
  | some e => exact Performs.pure e ⟨isFound.symm, kept⟩

theorem isBlocking_reads (dependency : ElementId) :
    Reads board (isBlocking dependency) r fun blocks => blocks = true ↔ ¬ Met (board r) dependency := by
  refine (get_reads dependency r).andThen fun found s isFound kept => ?_
  cases found with
  | none => exact Performs.pure _ ⟨by simp [Met, ← isFound], kept⟩
  | some e => exact Performs.pure _ ⟨by simp [Met, ← isFound], kept⟩

theorem blockersAmong_reads (dependencies : List ElementId) :
    Reads board (blockersAmong dependencies) r fun blockers =>
      blockers = [] → ∀ d ∈ dependencies, Met (board r) d := by
  induction dependencies generalizing r with
  | nil => exact Performs.pure _ ⟨fun _ d none => (List.not_mem_nil none).elim, rfl⟩
  | cons dependency rest ih =>
      refine (isBlocking_reads r dependency).andThen fun blocks s isBlocking kept => ?_
      refine (ih s).andThen fun blockers t found kept' => ?_
      refine Performs.pure _ ⟨fun nothing => ?_, kept'.trans kept⟩
      rw [kept] at found
      cases blocks with
      | true => cases nothing
      | false => exact List.forall_mem_cons.mpr ⟨by simpa using isBlocking, found nothing⟩

theorem findBlockingDependencies_reads (id : ElementId) :
    Reads board (findBlockingDependencies id) r fun blockers => blockers = [] →
      ∀ e, board r id = some e → ∀ d ∈ e.dependencies, Met (board r) d := by
  refine (require_reads r id).andThen fun element s found kept => ?_
  refine (blockersAmong_reads s element.dependencies).mono fun blockers _ listed => ?_
  refine ⟨fun nothing e same => ?_, listed.2.trans kept⟩
  cases found.symm.trans same
  exact kept ▸ listed.1 nothing

/-- Saving an element under its own id. -/
theorem save_puts {id : ElementId} {e : KanbanElement} (named : e.id = some id) :
    Performs board (save e) r fun _ after => after = Function.update (board r) id (some e) := by
  refine (save_performs e r).mono fun _ after saved => ?_
  obtain ⟨id', named', rfl⟩ := saved
  rw [Option.some.inj (named'.symm.trans named)]

theorem setDependencies_named {id : ElementId} {e : KanbanElement} (found : board r id = some e)
    (dependencies : List ElementId) : (e.setDependencies dependencies).id = some id :=
  (e.id_setDependencies dependencies).trans (board_id r id e found)

theorem createElement_effect (element : KanbanElement) :
    Performs board (createElement element) r fun _ after => Effect r (.createElement element) after := by
  refine (newId_reads element.elementType r).followed fun id s given _ kept => ?_
  refine ((save_puts s (element.id_setId id)).mono fun _ after saved => ?_).return
  rw [saved, kept]
  exact .created given

theorem moveTo_puts {id : ElementId} {element : KanbanElement} (newStatus : Status)
    (found : board r id = some element) :
    Performs board (moveTo element newStatus) r fun _ after => ∃ moved,
      element.transition newStatus = some moved ∧ after = Function.update (board r) id (some moved) := by
  unfold moveTo
  cases made : element.transition newStatus with
  | none => exact Performs.throw _
  | some moved =>
      have named := (KanbanElement.transition_keeps made).1.trans (board_id r id element found)
      exact ((save_puts r named).mono fun _ after saved => ⟨moved, rfl, saved⟩).return

theorem updateStatus_effect (registry : TransitionRegistry) (id : ElementId) (newStatus : Status) :
    Performs board (updateStatus registry id newStatus) r fun _ after =>
      Effect r (.updateStatus id newStatus) after := by
  refine (require_reads r id).andThen fun element s found kept => ?_
  dsimp only
  split
  · exact Performs.thrown _
  split
  · refine (findBlockingDependencies_reads s id).andThen fun blockers t free kept' => ?_
    have same := kept'.trans kept
    split
    · exact Performs.thrown _
    · rename_i unblocked
      refine (moveTo_puts t newStatus (same ▸ found)).mono fun _ after moves => ?_
      obtain ⟨moved, made, rfl⟩ := moves
      have met := free (not_not.mp unblocked) element (kept ▸ found)
      rw [same]
      exact .moved found made fun _ => kept ▸ met
  · rename_i backward
    refine (moveTo_puts s newStatus (kept ▸ found)).mono fun _ after moves => ?_
    obtain ⟨moved, made, rfl⟩ := moves
    rw [kept]
    exact .moved found made fun forward => absurd forward backward

theorem updateStatusWithType_effect (registry : TransitionRegistry) (id : ElementId) (name : String) :
    Performs board (updateStatusWithType registry id name) r fun _ after =>
      Effect r (.updateStatusWithType id name) after := by
  unfold updateStatusWithType
  cases named : Status.ofName name with
  | none => exact Performs.throw _
  | some newStatus =>
      exact (updateStatus_effect r registry id newStatus).mono fun _ _ effect => .movedByType named effect

theorem addDependency_effect (id dependency : ElementId) :
    Performs board (addDependency id dependency) r fun _ after =>
      Effect r (.addDependency id dependency) after := by
  unfold addDependency
  split
  · exact Performs.thrown _
  refine (require_reads r id).andThen fun element s found kept => ?_
  split
  · rename_i new
    refine (save_puts s (setDependencies_named r found _)).mono fun _ after saved => ?_
    rw [saved, kept]
    exact .depends found new
  · rename_i old
    exact Performs.pure _ (kept ▸ .depended found (not_not.mp old))

theorem removeDependency_effect (id dependency : ElementId) :
    Performs board (removeDependency id dependency) r fun _ after =>
      Effect r (.removeDependency id dependency) after := by
  refine (require_reads r id).andThen fun element s found kept => ?_
  refine (save_puts s (setDependencies_named r found _)).mono fun _ after saved => ?_
  rw [saved, kept]
  exact .freed found

theorem delete_effect (id : ElementId) :
    Performs board (KanbanService.delete id) r fun _ after => Effect r (.delete id) after := by
  refine (list_reads r).andThen fun all s listed kept => ?_
  dsimp only
  split
  · exact Performs.thrown _
  · rename_i none
    refine (delete_performs id s).mono fun _ after deleted => ?_
    rw [deleted, kept]
    refine .deleted fun a e found depends => ?_
    have member : e ∈ all.filter fun e => id ∈ e.dependencies :=
      List.mem_filter.mpr ⟨(listed e).mpr ⟨a, found⟩, by simpa using depends⟩
    refine none (List.ne_nil_of_mem (a := a.text) (List.mem_filterMap.mpr ⟨e, member, ?_⟩))
    rw [board_id r a e found, Option.map_some]

theorem updateElement_effect (id : ElementId) (edit : Edit) :
    Performs board (updateElement id edit) r fun _ after => Effect r (.updateElement id edit) after := by
  refine (require_reads r id).andThen fun element s found kept => ?_
  dsimp only
  have named : (element.setBase (edit.apply element.base)).id = some id :=
    (element.edited_keeps edit).1.trans (board_id r id element found)
  split
  · refine ((save_puts s named).mono fun _ after saved => ?_).return
    rw [saved, kept]
    exact .edited found
  · rename_i nothing
    refine Performs.pure _ ?_
    have edited : Effect r (.updateElement id edit) _ := .edited found
    rw [not_not.mp nothing] at edited ⊢
    rw [Edit.apply_nothing, element.setBase_base, ← found, Function.update_eq_self] at edited
    exact kept ▸ edited

theorem appendTip_effect (taskId : ElementId) (agentId content : String) :
    Performs board (appendTip taskId agentId content) r fun _ after =>
      Effect r (.appendTip taskId agentId content) after := by
  refine (require_reads r taskId).followed fun task s required found kept => ?_
  dsimp only
  split
  · exact Performs.thrown _
  rename_i isTask
  refine (newId_reads .tips s).followed fun tipId t given _ kept' => ?_
  refine ((save_puts t (KanbanElement.id_setId _ tipId)).mono fun _ after saved => ?_).return
  rw [saved, kept', kept]
  exact .tipped found (not_not.mp isTask) required given

theorem perform_effect (registry : TransitionRegistry) (command : Command) :
    Performs board (perform registry command) r fun _ after => Effect r command after := by
  cases command with
  | createElement element => exact (createElement_effect r element).return
  | updateStatus id newStatus => exact (updateStatus_effect r registry id newStatus).return
  | updateStatusWithType id name => exact (updateStatusWithType_effect r registry id name).return
  | addDependency id dependency => exact addDependency_effect r id dependency
  | removeDependency id dependency => exact removeDependency_effect r id dependency
  | delete id => exact delete_effect r id
  | updateElement id edit => exact (updateElement_effect r id edit).return
  | appendTip taskId agentId content => exact (appendTip_effect r taskId agentId content).return

/-- A command that fails leaves the board alone. -/
theorem after_effect (registry : TransitionRegistry) (command : Command) :
    Effect r command (board (after registry r command)) ∨
      board (after registry r command) = board r := by
  have performs := perform_effect r registry command
  unfold Performs at performs
  unfold after
  cases called : perform registry command r with
  | ok result next =>
      rw [called] at performs
      exact .inl performs
  | error error next =>
      rw [called] at performs
      exact .inr performs

end

/-- Every command of a run meets a condition where it is run. -/
def Along (condition : R → Command → Prop) (registry : TransitionRegistry) : R → List Command → Prop
  | _, [] => True
  | r, command :: commands =>
      condition r command ∧ Along condition registry (after registry r command) commands

omit lawful in
theorem Along.and {first second : R → Command → Prop} {registry : TransitionRegistry} {r : R}
    {commands : List Command} (along : Along first registry r commands)
    (along' : Along second registry r commands) :
    Along (fun r command => first r command ∧ second r command) registry r commands := by
  induction commands generalizing r with
  | nil => trivial
  | cons command commands ih => exact ⟨⟨along.1, along'.1⟩, ih along.2 along'.2⟩

omit lawful in
/-- What each command keeps holds at the end of a run. -/
theorem Along.invariant {condition : R → Command → Prop} {registry : TransitionRegistry} {holds : R → Prop}
    (keeps : ∀ r command, condition r command → holds r → holds (after registry r command)) {r : R}
    {commands : List Command} (along : Along condition registry r commands) (start : holds r) :
    holds (run registry r commands) := by
  induction commands generalizing r with
  | nil => exact start
  | cons command commands ih => exact ih along.2 (keeps r command along.1 start)

end AgileAgent.Kanban
