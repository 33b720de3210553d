import Mathlib.Data.List.Perm.Basic
import AgileAgent.Machine
import AgileAgent.Numeral
import AgileAgent.Core.Loop.Turns

/-! # The active task

Which todos are in progress, which tasks are open and which one is active. Every part of the loop
changes these in one of two ways: the status of the active task moves, or the task is ended with its
todo.
-/

namespace AgileAgent.Core.Loop

open Backlog RuntimeDomain Fallible

/-- Neither done, failed nor blocked. -/
def isOpen : TaskStatus → Bool
  | .done | .failed | .blocked => false
  | .draft | .ready | .running | .verifying => true

/-- Each todo in progress has one open task, and that is the active one. -/
def AppState.Kept (s : AppState) : Prop :=
  ∀ todo ∈ s.backlog.todos, todo.status = .inProgress →
    ∃ task, s.backlog.tasks.filter (fun task => task.todoId = todo.id && isOpen task.status) = [task] ∧
      s.activeTaskId = some task.id

/-! ## What the loop keeps -/

/-- A change that ends a todo keeps its id and takes it out of progress. -/
structure Releases (change : TodoItem → TodoItem) : Prop where
  id : ∀ todo, (change todo).id = todo.id
  released : ∀ todo, (change todo).status ≠ .inProgress

/-- A property of the backlog and the active task that both changes keep. -/
structure Stable (P : AppState → Prop) : Prop where
  same : ∀ {s s' : AppState}, P s → s'.backlog = s.backlog → s'.activeTaskId = s.activeTaskId → P s'
  moves : ∀ {s : AppState} {status : TaskStatus}, P s → isOpen status = true → P (s.markActiveTask status)
  ends : ∀ {s : AppState} {status : TaskStatus} {resultSummary : Option String}
    {change : TodoItem → TodoItem}, P s → isOpen status = false → Releases change →
    P (s.endActiveTask status resultSummary change)

/-- A computation that keeps a property of the state, whether it returns or fails. -/
def Keeps {α : Type} (P : AppState → Prop) (m : LoopM α) : Prop :=
  ∀ s : LoopState, P s.app → Ends m s (fun _ s' => P s'.app) fun _ s' => P s'.app

section

variable {P : AppState → Prop} {α β : Type} {m : LoopM α}

theorem Keeps.pure (result : α) : Keeps P (pure result) := fun _ holds => holds

theorem Keeps.throw (error : LoopError) : Keeps P (throw error : LoopM α) := fun _ holds => holds

theorem Keeps.get : Keeps P (get : LoopM LoopState) := fun _ holds => holds

theorem Keeps.nextCall : Keeps P nextCall := fun _ holds => holds

theorem Keeps.record (event : LoopEvent) : Keeps P (record event) := fun _ holds => holds

theorem Keeps.update {change : AppState → AppState} (keeps : ∀ s, P s → P (change s)) :
    Keeps P (update change) := fun s holds => keeps s.app holds

theorem Keeps.orFail (result : Except String α) : Keeps P (orFail result) := by
  intro s holds
  cases result with
  | ok result => exact holds
  | error message => exact holds

theorem Keeps.bind {next : α → LoopM β} (first : Keeps P m) (second : ∀ result, Keeps P (next result)) :
    Keeps P (m >>= next) := fun s holds =>
  (first s holds).andThen (fun result s' holds' => second result s' holds') fun _ _ holds' => holds'

end

/-! ## The loop

All it does is made of changes that a stable property survives.
-/

namespace Stable

variable {P : AppState → Prop}

theorem update (stable : Stable P) {change : AppState → AppState}
    (backlog : ∀ s, (change s).backlog = s.backlog)
    (active : ∀ s, (change s).activeTaskId = s.activeTaskId) : Keeps P (update change) :=
  .update fun s holds => stable.same holds (backlog s) (active s)

theorem push (stable : Stable P) (entry : TranscriptEntry) : Keeps P (Loop.update (·.push entry)) :=
  stable.update (fun _ => rfl) fun _ => rfl

theorem setLoopPhase (stable : Stable P) (phase : LoopPhase) :
    Keeps P (Loop.update (·.setLoopPhase phase)) :=
  stable.update (fun _ => rfl) fun _ => rfl

theorem beginProviderResponse (stable : Stable P) : Keeps P (Loop.update (·.beginProviderResponse)) :=
  stable.update (fun _ => rfl) fun _ => rfl

theorem finishProviderResponse (stable : Stable P) : Keeps P (Loop.update (·.finishProviderResponse)) :=
  stable.update (fun _ => rfl) fun _ => rfl

theorem onStateChange (_ : Stable P) (host : Host) : Keeps P (onStateChange host) :=
  .bind .nextCall fun _ => .bind .get fun _ => .orFail _

theorem take (stable : Stable P) (event : DomainEvent) : Keeps P (Loop.update (·.take event)) :=
  stable.update (fun s => (s.take_keepsTask event).backlog) fun s => (s.take_keepsTask event).activeTaskId

theorem consume (stable : Stable P) (host : Host) (events : List DomainEvent) :
    Keeps P (consumeProviderUntilFinished host events) := by
  induction events with
  | nil => exact .bind (stable.update (fun _ => rfl) fun _ => rfl) fun _ => stable.onStateChange host
  | cons event rest ih =>
      cases event with
      | sessionHandle | error =>
          rw [consumeProviderUntilFinished]
          exact .bind (stable.take _) fun _ => .bind (stable.onStateChange host) fun _ => ih
      | finished =>
          rw [consumeProviderUntilFinished]
          exact .bind (stable.take _) fun _ => stable.onStateChange host
      | _ =>
          simp only [consumeProviderUntilFinished]
          exact .bind (stable.take _) fun _ => ih

theorem startProvider (_ : Stable P) (host : Host) (position : Nat) (prompt : String) :
    Keeps P (startProvider host position prompt) :=
  .bind .nextCall fun _ => .bind .get fun _ => .bind (.record _) fun _ => .pure _

theorem saveTaskArtifact (_ : Stable P) (host : Host) (task : TaskItem) (outcome : TaskArtifactOutcome)
    (reason : Option String) (verification : Option VerificationResult) (escalationPath : Option String) :
    Keeps P (saveTaskArtifact host task outcome reason verification escalationPath) :=
  .bind .nextCall fun _ => .bind .get fun _ => .pure _

/-- An artifact is saved, and then its path is told. -/
theorem saved (stable : Stable P) (host : Host) {task : TaskItem} {outcome : TaskArtifactOutcome}
    {reason : Option String} {verification : Option VerificationResult} {escalationPath : Option String}
    {told : String → LoopM TurnResolution} (tells : ∀ path, Keeps P (told path)) :
    Keeps P (do
      told (← orFail (← Loop.saveTaskArtifact host task outcome reason verification escalationPath))) :=
  .bind (stable.saveTaskArtifact host _ _ _ _ _) fun saved => .bind (.orFail saved) tells

theorem blocks (stable : Stable P) {s : AppState} (holds : P s) (reason : String) :
    P (s.blockActiveTask reason) :=
  stable.ends holds rfl ⟨fun _ => rfl, fun _ => TodoStatus.noConfusion⟩

theorem fails (stable : Stable P) {s : AppState} (holds : P s) (reason : String) :
    P (s.failActiveTask reason) := by
  apply stable.ends holds rfl
  constructor
  · intro todo
    split
    · rfl
    · rfl
  · intro todo
    split
    · exact TodoStatus.noConfusion
    · next other => exact other

theorem completes (stable : Stable P) {s : AppState} (holds : P s) (summary : Option String) :
    P (s.completeActiveTask summary) :=
  stable.ends holds rfl ⟨fun _ => rfl, fun _ => TodoStatus.noConfusion⟩

theorem escalateActiveTask (stable : Stable P) (host : Host) (reason : String) :
    Keeps P (escalateActiveTask host reason) := by
  refine .bind .nextCall fun calls => .bind .get fun s => .bind (.update fun s holds => ?_) fun _ => ?_
  · exact stable.same (stable.blocks holds reason) rfl rfl
  · split
    · exact .bind (stable.push _) fun _ => .pure _
    · exact .pure _

theorem handleProviderStartFailure (stable : Stable P) (host : Host) (reason : String) :
    Keeps P (handleProviderStartFailure host reason) := by
  refine .bind .get fun s => ?_
  split
  · next task _ =>
    apply Keeps.bind (stable.setLoopPhase _)
    intro _
    apply Keeps.bind (stable.escalateActiveTask host _)
    intro escalationPath
    apply Keeps.bind (stable.saveTaskArtifact host task _ _ _ _)
    intro saved
    apply Keeps.bind (stable.push _)
    intro _
    cases saved with
    | ok path => exact stable.push _
    | error message => exact .pure _
  · exact .bind (stable.push _) fun _ => stable.setLoopPhase _

theorem failWith (stable : Stable P) (host : Host) (task : TaskItem) (reason : String)
    (verification : Option VerificationResult) : Keeps P (failWith host task reason verification) := by
  refine .bind (.update fun s holds => ?_) fun _ => ?_
  · have idle : P (s.setLoopPhase .idle) := stable.same holds rfl rfl
    exact stable.fails idle reason
  · exact stable.saved host fun _ => .bind (stable.push _) fun _ => .bind (stable.push _) fun _ => .pure _

theorem escalateWith (stable : Stable P) (host : Host) (task : TaskItem) (reason : String) :
    Keeps P (escalateWith host task reason) := by
  apply Keeps.bind (stable.setLoopPhase _)
  intro _
  apply Keeps.bind (stable.escalateActiveTask host reason)
  intro _
  exact stable.saved host fun _ => .bind (stable.push _) fun _ => .pure _

theorem records (stable : Stable P) {s : AppState} (holds : P s) (result : VerificationResult) :
    P (recordVerificationMessages s result) := by
  have backlog := congrArg AppState.backlog (s.quiet_recordVerificationMessages result)
  have active := congrArg AppState.activeTaskId (s.quiet_recordVerificationMessages result)
  exact stable.same holds backlog active

theorem verifyActiveTask (stable : Stable P) (host : Host) (task : TaskItem) (text : String) :
    Keeps P (verifyActiveTask host task text) := by
  have verifying {s : AppState} (holds : P s) : P (s.setLoopPhase .verifying) :=
    stable.same holds rfl rfl
  refine .bind (.update fun s holds => stable.moves (verifying holds) rfl) fun _ => ?_
  refine .bind .nextCall fun calls => .bind .get fun s => .bind ?_ fun _ => ?_
  · exact .update fun s holds => stable.records holds _
  · split
    · refine .bind (.update fun s holds => ?_) fun _ => ?_
      · exact stable.same (stable.completes holds (some text)) rfl rfl
      · exact stable.saved host fun _ => .bind (stable.push _) fun _ => .pure _
    · exact stable.failWith host task _ _
    · exact stable.failWith host task _ _

variable [Unicode]

theorem resolve (stable : Stable P) (host : Host) (guardrails : ExecutionGuardrails) :
    Keeps P (resolveActiveTaskAfterTurn host guardrails) := by
  refine .bind .get fun s => ?_
  split
  · exact .bind (stable.setLoopPhase _) fun _ => .pure _
  · next task _ =>
      split
      · exact stable.failWith host task _ _
      · split
        · exact stable.failWith host task _ _
        · split
          · split
            · exact stable.escalateWith host task _
            · split
              · exact .throw _
              · refine .bind (stable.update (fun _ => rfl) fun _ => rfl) fun _ => ?_
                exact .bind (stable.setLoopPhase _) fun _ => .bind (stable.push _) fun _ => .pure _
          · split
            · exact stable.verifyActiveTask host task _
            · exact stable.escalateWith host task _

theorem takeTurns (stable : Stable P) (host : Host) (position : Nat) (guardrails : ExecutionGuardrails)
    (steps : Nat) (prompt : String) : Keeps P (takeTurns host position guardrails steps prompt) := by
  induction steps generalizing prompt with
  | zero => exact .throw _
  | succ steps ih =>
      rw [Loop.takeTurns]
      apply Keeps.bind (stable.setLoopPhase _)
      intro _
      apply Keeps.bind (.update fun s holds => stable.moves holds rfl)
      intro _
      apply Keeps.bind stable.beginProviderResponse
      intro _
      apply Keeps.bind (stable.onStateChange host)
      intro _
      apply Keeps.bind (stable.startProvider host position prompt)
      intro stream
      cases stream with
      | error err =>
          apply Keeps.bind stable.finishProviderResponse
          intro _
          apply Keeps.bind (stable.handleProviderStartFailure host err)
          intro _
          exact .bind (stable.onStateChange host) fun _ => .pure _
      | ok events =>
          apply Keeps.bind (stable.consume host events)
          intro _
          apply Keeps.bind (stable.resolve host guardrails)
          intro resolution
          apply Keeps.bind (stable.onStateChange host)
          intro _
          cases resolution with
          | «continue» next => exact ih next
          | completed | escalated | idle => exact .pure _
          | failed verificationFailed =>
              cases verificationFailed with
              | true => exact .pure _
              | false => exact .pure _

end Stable

/-! ## The order that the loop keeps -/

/-- Ids count up, and either nothing is under way or one task is, with its todo. -/
structure Tidy (b : BacklogState) (active : Option String) : Prop where
  taskIds : b.tasks.map TaskItem.id =
    (List.range b.tasks.length).map fun i => "task-" ++ toString (i + 1)
  todoIds : (b.todos.map TodoItem.id).Perm
    ((List.range b.todos.length).map fun i => "todo-" ++ toString (i + 1))
  idle : active = none → (∀ task ∈ b.tasks, isOpen task.status = false) ∧
    ∀ todo ∈ b.todos, todo.status ≠ .inProgress
  busy : ∀ taskId, active = some taskId → ∃ task ∈ b.tasks, task.id = taskId ∧
    (∀ other ∈ b.tasks, isOpen other.status = true ↔ other.id = taskId) ∧
      (∃ todo ∈ b.todos, todo.id = task.todoId) ∧
      ∀ todo ∈ b.todos, todo.status = .inProgress ↔ todo.id = task.todoId

namespace Tidy

variable {b : BacklogState} {active : Option String}

theorem tasks_distinct (tidy : Tidy b active) : (b.tasks.map TaskItem.id).Nodup := by
  rw [tidy.taskIds]
  exact List.nodup_range.map fun i j same => Nat.succ.inj (Numeral.named_injective "task-" same)

theorem todos_distinct (tidy : Tidy b active) : (b.todos.map TodoItem.id).Nodup := by
  rw [tidy.todoIds.nodup_iff]
  exact List.nodup_range.map fun i j same => Nat.succ.inj (Numeral.named_injective "todo-" same)

theorem start : Tidy {} none where
  taskIds := rfl
  todoIds := List.Perm.refl []
  idle := by simp
  busy := by simp

theorem kept {s : AppState} (tidy : Tidy s.backlog s.activeTaskId) : s.Kept := by
  intro todo member inProgress
  cases active : s.activeTaskId with
  | none => exact absurd inProgress ((tidy.idle active).2 todo member)
  | some taskId =>
      obtain ⟨task, task_mem, rfl, only, _, todos⟩ := tidy.busy taskId active
      have its := (todos todo member).mp inProgress
      refine ⟨task, ?_, rfl⟩
      apply FirstMatch.filter_eq_singleton tidy.tasks_distinct task_mem
      intro other inside
      rw [Bool.and_eq_true, decide_eq_true_eq, only other inside]
      refine ⟨fun both => both.2, fun same => ⟨?_, same⟩⟩
      rw [List.inj_on_of_nodup_map tidy.tasks_distinct inside task_mem same, its]

/-! ### Changes -/

theorem updateTask_eq_map (tidy : Tidy b active) (taskId : String) (change : TaskItem → TaskItem) :
    BacklogState.updateTask taskId change b.tasks =
      b.tasks.map fun task => if task.id = taskId then change task else task := by
  rw [BacklogState.updateTask_eq_modify]
  exact FirstMatch.modify_eq_map tidy.tasks_distinct

/-- A change of one task keeps the ids. -/
theorem map_taskIds (tidy : Tidy b active) {taskId : String} {change : TaskItem → TaskItem}
    (keeps : ∀ task, (change task).id = task.id) :
    (b.tasks.map fun task => if task.id = taskId then change task else task).map TaskItem.id =
      (List.range (b.tasks.map fun task => if task.id = taskId then change task else task).length).map
        fun i => "task-" ++ toString (i + 1) := by
  rw [List.length_map, ← tidy.taskIds, List.map_map]
  apply List.map_congr_left
  intro task _
  simp only [Function.comp_apply]
  split
  · exact keeps task
  · rfl

theorem map_todoIds (tidy : Tidy b active) {todoId : String} {change : TodoItem → TodoItem}
    (keeps : ∀ todo, (change todo).id = todo.id) :
    ((b.todos.map fun todo => if todo.id = todoId then change todo else todo).map TodoItem.id).Perm
      ((List.range (b.todos.map fun todo => if todo.id = todoId then change todo else todo).length).map
        fun i => "todo-" ++ toString (i + 1)) := by
  rw [List.length_map, List.map_map]
  have same : (TodoItem.id ∘ fun todo => if todo.id = todoId then change todo else todo) =
      TodoItem.id := by
    funext todo
    simp only [Function.comp_apply]
    split
    · exact keeps todo
    · rfl
  rw [same]
  exact tidy.todoIds

theorem moves {taskId : String} {status : TaskStatus} (tidy : Tidy b (some taskId))
    (opened : isOpen status = true) :
    Tidy { b with tasks := BacklogState.updateTask taskId ({ · with status := status }) b.tasks }
      (some taskId) := by
  obtain ⟨task, task_mem, rfl, only, todos⟩ := tidy.busy taskId rfl
  rw [tidy.updateTask_eq_map]
  refine ⟨tidy.map_taskIds fun _ => rfl, tidy.todoIds, fun none => ?_, fun taskId same => ?_⟩
  · cases none
  · obtain rfl := Option.some.inj same
    refine ⟨{ task with status := status }, List.mem_map.mpr ⟨task, task_mem, if_pos rfl⟩, rfl, ?_, todos⟩
    intro other inside
    obtain ⟨before, before_mem, rfl⟩ := List.mem_map.mp inside
    split
    · next same => exact iff_of_true opened same
    · exact only before before_mem

theorem ends {taskId : String} {status : TaskStatus} {resultSummary : Option String}
    {change : TodoItem → TodoItem} (tidy : Tidy b (some taskId)) (closed : isOpen status = false)
    (releases : Releases change) :
    ∃ task, b.findTask taskId = some task ∧
      Tidy ({ b with
        tasks := BacklogState.updateTask taskId
          (fun task => { task with status := status, resultSummary := resultSummary }) b.tasks }.updateTodo
            task.todoId change) none := by
  obtain ⟨task, task_mem, rfl, only, _, todos⟩ := tidy.busy taskId rfl
  refine ⟨task, BacklogState.findTask_of_mem tidy.tasks_distinct task_mem, ?_⟩
  rw [tidy.updateTask_eq_map, BacklogState.updateTodo, FirstMatch.modify_eq_map tidy.todos_distinct]
  refine ⟨tidy.map_taskIds fun _ => rfl, tidy.map_todoIds releases.id, fun _ => ⟨?_, ?_⟩, ?_⟩
  · intro other inside
    obtain ⟨before, before_mem, rfl⟩ := List.mem_map.mp inside
    split
    · exact closed
    · next apart =>
        by_contra opened
        rw [Bool.not_eq_false] at opened
        exact apart ((only before before_mem).mp opened)
  · intro todo inside
    obtain ⟨before, before_mem, rfl⟩ := List.mem_map.mp inside
    split
    · exact releases.released before
    · next apart => exact fun inProgress => apart ((todos before before_mem).mp inProgress)
  · intro taskId none
    cases none

theorem fresh_task (tidy : Tidy b active) {task : TaskItem}
    (id : task.id = "task-" ++ toString (b.tasks.length + 1)) :
    ∀ other ∈ b.tasks, other.id ≠ task.id := by
  intro other inside same
  have listed := List.mem_map_of_mem (f := TaskItem.id) inside
  rw [tidy.taskIds, same, id] at listed
  obtain ⟨i, below, named⟩ := List.mem_map.mp listed
  have := Numeral.named_injective "task-" named
  rw [List.mem_range] at below
  omega

/-- A task for a todo, where nothing is under way. -/
theorem begins (tidy : Tidy b none) {task : TaskItem} {todo : TodoItem}
    (id : task.id = "task-" ++ toString (b.tasks.length + 1)) (opened : isOpen task.status = true)
    (found : todo ∈ b.todos) (its : task.todoId = todo.id) :
    Tidy ((b.updateTodo todo.id ({ · with status := .inProgress })).pushTask task) (some task.id) := by
  obtain ⟨ended, resting⟩ := tidy.idle rfl
  have todos : (b.updateTodo todo.id ({ · with status := .inProgress })).todos =
      b.todos.map fun other =>
        if other.id = todo.id then { other with status := .inProgress } else other :=
    FirstMatch.modify_eq_map tidy.todos_distinct
  refine ⟨?_, ?_, fun none => ?_, fun taskId same => ?_⟩
  · simp only [BacklogState.pushTask, BacklogState.updateTodo, List.map_append, tidy.taskIds,
      List.length_append, List.length_singleton, List.range_succ, List.map_cons, List.map_nil, id]
  · simp only [BacklogState.pushTask, todos]
    exact tidy.map_todoIds fun _ => rfl
  · cases none
  · obtain rfl := Option.some.inj same
    refine ⟨task, List.mem_append_right _ List.mem_cons_self, rfl, fun other inside => ?_, ?_, ?_⟩
    · rcases List.mem_append.mp inside with before | new
      · rw [ended other before]
        exact iff_of_false Bool.false_ne_true (tidy.fresh_task id other before)
      · obtain rfl := List.mem_singleton.mp new
        exact iff_of_true opened rfl
    · rw [its]
      simp only [BacklogState.pushTask, todos]
      exact ⟨_, List.mem_map.mpr ⟨todo, found, if_pos rfl⟩, rfl⟩
    · simp only [BacklogState.pushTask, todos, its]
      intro other inside
      obtain ⟨before, before_mem, rfl⟩ := List.mem_map.mp inside
      split
      · next same => exact iff_of_true rfl same
      · next apart => exact iff_of_false (resting before before_mem) apart

/-- A new todo has a number of its own. -/
theorem adds (tidy : Tidy b active) {todo : TodoItem}
    (id : todo.id = "todo-" ++ toString (b.todos.length + 1)) (ready : todo.status = .ready) :
    Tidy (b.pushTodo todo) active := by
  have perm : (b.pushTodo todo).todos.Perm (b.todos ++ [todo]) := List.perm_insertionSort _ _
  have mem (other : TodoItem) : other ∈ (b.pushTodo todo).todos ↔ other ∈ b.todos ∨ other = todo := by
    rw [perm.mem_iff, List.mem_append, List.mem_singleton]
  have fresh : ∀ other ∈ b.todos, other.id ≠ todo.id := by
    intro other inside same
    have listed := tidy.todoIds.mem_iff.mp (List.mem_map_of_mem inside)
    rw [same, id] at listed
    obtain ⟨i, below, named⟩ := List.mem_map.mp listed
    have := Numeral.named_injective "todo-" named
    rw [List.mem_range] at below
    omega
  refine ⟨tidy.taskIds, ?_, fun none => ⟨(tidy.idle none).1, fun other inside => ?_⟩,
    fun taskId same => ?_⟩
  · refine (perm.map TodoItem.id).trans ?_
    rw [perm.length_eq, List.map_append, List.length_append, List.length_singleton, List.range_succ,
      List.map_append]
    exact tidy.todoIds.append (by rw [List.map_singleton, List.map_singleton, id])
  · rcases (mem other).mp inside with before | rfl
    · exact (tidy.idle none).2 other before
    · rw [ready]
      exact TodoStatus.noConfusion
  · obtain ⟨task, task_mem, named, only, ⟨its, its_mem, same_id⟩, todos⟩ := tidy.busy taskId same
    refine ⟨task, task_mem, named, only, ⟨its, (mem its).mpr (.inl its_mem), same_id⟩, ?_⟩
    intro other inside
    rcases (mem other).mp inside with before | rfl
    · exact todos other before
    · rw [ready, ← same_id]
      exact iff_of_false TodoStatus.noConfusion fun same => fresh its its_mem same.symm

theorem stable : Stable fun s => Tidy s.backlog s.activeTaskId where
  same tidy backlog active := by
    rw [backlog, active]
    exact tidy
  moves {s status} tidy opened := by
    unfold AppState.markActiveTask
    cases active : s.activeTaskId with
    | none =>
        dsimp only
        exact tidy
    | some taskId =>
        rw [active] at tidy
        exact tidy.moves opened
  ends {s status resultSummary change} tidy closed releases := by
    unfold AppState.endActiveTask
    cases active : s.activeTaskId with
    | none =>
        dsimp only
        exact tidy
    | some taskId =>
        rw [active] at tidy
        obtain ⟨task, found, ended⟩ := @ends _ taskId status resultSummary change tidy closed releases
        dsimp only
        rw [found]
        exact ended

end Tidy

/-! ## A task that was left behind -/

/-- An open task that is not the active one, with a todo in progress that the active one is not about. -/
def LeftBehind (taskId todoId : String) (s : AppState) : Prop :=
  (∃ task ∈ s.backlog.tasks, task.id = taskId ∧ task.todoId = todoId ∧ isOpen task.status = true) ∧
    (∃ todo ∈ s.backlog.todos, todo.id = todoId ∧ todo.status = .inProgress) ∧
    s.activeTaskId ≠ some taskId ∧ ∀ task, currentActiveTask s = some task → task.todoId ≠ todoId

namespace LeftBehind

variable {taskId todoId : String}

theorem not_kept {s : AppState} (left : LeftBehind taskId todoId s) : ¬ s.Kept := by
  obtain ⟨⟨task, task_mem, rfl, its, opened⟩, ⟨todo, todo_mem, rfl, inProgress⟩, inactive, -⟩ := left
  intro kept
  obtain ⟨only, filtered, active⟩ := kept todo todo_mem inProgress
  have listed : task ∈ [only] := by
    rw [← filtered, List.mem_filter, its, opened]
    exact ⟨task_mem, by simp⟩
  rw [List.mem_singleton.mp listed] at inactive
  exact inactive active

theorem stable : Stable (LeftBehind taskId todoId) where
  same {s s'} left backlog active := by
    unfold LeftBehind currentActiveTask at left ⊢
    rw [backlog, active]
    exact left
  moves {s status} left opened := by
    obtain ⟨⟨task, task_mem, rfl, rfl, open_⟩, todo, inactive, others⟩ := left
    unfold AppState.markActiveTask
    cases active : s.activeTaskId with
    | none => exact ⟨⟨task, task_mem, rfl, rfl, open_⟩, todo, inactive, others⟩
    | some activeId =>
        have apart : task.id ≠ activeId := fun same => inactive (same ▸ active)
        refine ⟨⟨task, ?_, rfl, rfl, open_⟩, todo, fun same => apart (Option.some.inj same).symm, ?_⟩
        · dsimp only
          rw [BacklogState.updateTask_eq_modify]
          exact FirstMatch.mem_modify task_mem (decide_eq_false apart)
        · intro marked found
          have changed :
              (s.backlog.findTask activeId).map ({ · with status := status }) = some marked := by
            rw [← found]
            simp only [currentActiveTask, Option.bind_some, BacklogState.findTask,
              BacklogState.updateTask_eq_modify]
            rw [FirstMatch.find?_modify]
            exact fun task isTask => isTask
          obtain ⟨before, found', rfl⟩ := Option.map_eq_some_iff.mp changed
          exact others before (by rw [currentActiveTask, active, Option.bind_some, found'])
  ends {s status resultSummary change} left closed releases := by
    unfold AppState.endActiveTask
    cases active : s.activeTaskId with
    | none => exact left
    | some activeId =>
        obtain ⟨⟨task, task_mem, rfl, rfl, open_⟩, ⟨todo, todo_mem, its, inProgress⟩, inactive, others⟩ :=
          left
        have apart : task.id ≠ activeId := fun same => inactive (same ▸ active)
        have still : task ∈ BacklogState.updateTask activeId
            (fun task => { task with status := status, resultSummary := resultSummary })
            s.backlog.tasks := by
          rw [BacklogState.updateTask_eq_modify]
          exact FirstMatch.mem_modify task_mem (decide_eq_false apart)
        have none_active : ∀ other : TaskItem, (none : Option TaskItem) = some other →
            other.todoId ≠ task.todoId := by
          intro other found
          cases found
        dsimp only
        cases found : s.backlog.findTask activeId with
        | none =>
            exact ⟨⟨task, still, rfl, rfl, open_⟩, ⟨todo, todo_mem, its, inProgress⟩,
              (Option.some_ne_none _).symm, none_active⟩
        | some ended =>
            have elsewhere : todo.id ≠ ended.todoId := by
              rw [its]
              exact (others ended (by rw [currentActiveTask, active, Option.bind_some, found])).symm
            refine ⟨⟨task, still, rfl, rfl, open_⟩, ⟨todo, ?_, its, inProgress⟩,
              (Option.some_ne_none _).symm, none_active⟩
            exact FirstMatch.mem_modify todo_mem (decide_eq_false elsewhere)

theorem stable_some : Stable fun s => ∃ todoId, LeftBehind taskId todoId s where
  same := fun ⟨todoId, left⟩ backlog active => ⟨todoId, stable.same left backlog active⟩
  moves := fun ⟨todoId, left⟩ opened => ⟨todoId, stable.moves left opened⟩
  ends := fun ⟨todoId, left⟩ closed releases => ⟨todoId, stable.ends left closed releases⟩

end LeftBehind

/-! ## Beginning a task -/

/-- The state after a task was begun. -/
structure Begun (s : AppState) (todo : TodoItem) (task : TaskItem) (s' : AppState) : Prop where
  id : task.id = "task-" ++ toString (s.backlog.tasks.length + 1)
  its : task.todoId = todo.id
  opened : isOpen task.status = true
  backlog : s'.backlog =
    (s.backlog.updateTodo todo.id ({ · with status := .inProgress })).pushTask task
  active : s'.activeTaskId = some task.id
  attempts : s'.continuationAttempts = 0

theorem begin_ends (host : Host) (todoId : String) (s : LoopState) :
    Ends (beginTaskFromTodo host todoId) s
      (fun begun s' => match s.app.backlog.findTodo todoId with
        | none => begun = none ∧ s'.app = s.app
        | some todo => ∃ task, begun = some task ∧ Begun s.app todo task s'.app)
      fun _ _ => False := by
  rw [beginTaskFromTodo, ends_bind, ends_nextCall, ends_bind, ends_get]
  cases found : s.app.backlog.findTodo todoId with
  | none => exact ⟨rfl, rfl⟩
  | some todo =>
      have named : todo.id = todoId := by simpa using List.find?_some found
      dsimp only
      rw [ends_bind, ends_update]
      refine ⟨_, rfl, rfl, rfl, rfl, ?_, rfl, rfl⟩
      rw [named]

theorem Begun.tidy {s s' : AppState} {todo : TodoItem} {task : TaskItem} (begun : Begun s todo task s')
    (tidy : Tidy s.backlog s.activeTaskId) (free : s.activeTaskId = none)
    (found : todo ∈ s.backlog.todos) : Tidy s'.backlog s'.activeTaskId := by
  rw [begun.backlog, begun.active]
  rw [free] at tidy
  exact tidy.begins begun.id begun.opened found begun.its

/-- A task that is begun while another one is active leaves that one behind. -/
theorem Begun.leaves {s s' : AppState} {todo : TodoItem} {task : TaskItem} {taskId : String}
    (begun : Begun s todo task s') (tidy : Tidy s.backlog s.activeTaskId)
    (busy : s.activeTaskId = some taskId) (found : todo ∈ s.backlog.todos)
    (resting : todo.status ≠ .inProgress) : ∃ todoId, LeftBehind taskId todoId s' := by
  obtain ⟨old, old_mem, rfl, only, ⟨its, its_mem, named⟩, todos⟩ := tidy.busy taskId busy
  have apart : its.id ≠ todo.id := fun same => resting ((todos todo found).mpr (same ▸ named))
  have fresh := tidy.fresh_task begun.id
  have active : currentActiveTask s' = some task := by
    simp only [currentActiveTask, begun.active, begun.backlog, Option.bind_some, BacklogState.findTask,
      BacklogState.pushTask, BacklogState.updateTodo]
    rw [List.find?_append, List.find?_eq_none.mpr]
    · simp
    · intro other inside
      simpa using fresh other inside
  refine ⟨its.id, ⟨old, ?_, rfl, named.symm, (only old old_mem).mpr rfl⟩, ⟨its, ?_, rfl, ?_⟩, ?_, ?_⟩
  · rw [begun.backlog]
    exact List.mem_append_left _ old_mem
  · rw [begun.backlog]
    exact FirstMatch.mem_modify its_mem (decide_eq_false apart)
  · exact (todos its its_mem).mpr named
  · rw [begun.active]
    exact fun same => fresh old old_mem (Option.some.inj same).symm
  · intro other active'
    obtain rfl := Option.some.inj (active.symm.trans active')
    rw [begun.its]
    exact apart.symm

theorem Begun.not_kept {s s' : AppState} {todo : TodoItem} {task : TaskItem} {taskId : String}
    (begun : Begun s todo task s') (tidy : Tidy s.backlog s.activeTaskId)
    (busy : s.activeTaskId = some taskId) (found : todo ∈ s.backlog.todos) : ¬ s'.Kept := by
  by_cases inProgress : todo.status = .inProgress
  · obtain ⟨old, old_mem, rfl, only, -, todos⟩ := tidy.busy taskId busy
    have its := (todos todo found).mp inProgress
    have still : { todo with status := .inProgress } ∈ s'.backlog.todos := by
      rw [begun.backlog, BacklogState.pushTask, BacklogState.updateTodo,
        FirstMatch.modify_eq_map tidy.todos_distinct]
      exact List.mem_map.mpr ⟨todo, found, if_pos rfl⟩
    intro kept
    obtain ⟨one, filtered, -⟩ := kept _ still rfl
    -- both the old task and the new one are open for this todo
    have old_one : old ∈ [one] := by
      rw [← filtered, List.mem_filter, begun.backlog]
      exact ⟨List.mem_append_left _ old_mem, by simp [its, (only old old_mem).mpr rfl]⟩
    have new_one : task ∈ [one] := by
      rw [← filtered, List.mem_filter, begun.backlog]
      exact ⟨List.mem_append_right _ List.mem_cons_self, by simp [begun.its, begun.opened]⟩
    have same : old = task := (List.mem_singleton.mp old_one).trans (List.mem_singleton.mp new_one).symm
    exact tidy.fresh_task begun.id old old_mem (congrArg TaskItem.id same)
  · obtain ⟨todoId, left⟩ := begun.leaves tidy busy found inProgress
    exact left.not_kept

/-! ## Iterations -/

theorem findTodo_of_next {s : AppState} {active : Option String} (tidy : Tidy s.backlog active)
    {todoId : String} (next : s.nextReadyTodoId = some todoId) :
    ∃ todo ∈ s.backlog.todos, s.backlog.findTodo todoId = some todo ∧ todo.status = .ready := by
  obtain ⟨todo, first, rfl⟩ := Option.map_eq_some_iff.mp next
  obtain ⟨member, ready⟩ := List.mem_filter.mp (List.mem_of_head? first)
  refine ⟨todo, member, ?_, of_decide_eq_true ready⟩
  cases found : s.backlog.findTodo todo.id with
  | none =>
      have none := List.find?_eq_none.mp found todo member
      simp at none
  | some other =>
      have same : other.id = todo.id := by simpa using List.find?_some found
      rw [List.inj_on_of_nodup_map tidy.todos_distinct (List.mem_of_find?_eq_some found) member same]

section

variable [Unicode] (host : Host)

/-- What holds after the task is begun and is stable holds at the end of the iteration. -/
theorem runSingleIteration_ends {P : AppState → Prop} (stable : Stable P) {s : LoopState}
    (tidy : Tidy s.app.backlog s.app.activeTaskId) {todoId : String}
    (next : s.app.nextReadyTodoId = some todoId) (steps : Nat)
    (starts : ∀ todo ∈ s.app.backlog.todos, todo.status = .ready → ∀ task s',
      Begun (s.app.setLoopPhase .planning) todo task s' → P s') :
    Ends (runSingleIteration host steps) s (fun _ s' => P s'.app) fun _ s' => P s'.app := by
  obtain ⟨todo, member, found, ready⟩ := findTodo_of_next tidy next
  rw [runSingleIteration, ends_bind, ends_get, next]
  dsimp only
  rw [ends_bind, ends_update]
  refine (begin_ends host todoId _).andThen (fun begun s₁ started => ?_) fun _ _ never => never.elim
  have found' : (s.app.setLoopPhase .planning).backlog.findTodo todoId = some todo := found
  dsimp only at started
  rw [found'] at started
  obtain ⟨task, rfl, begun⟩ := started
  have turns : Keeps P (do
      update (·.pushStatusMessage ("running task: " ++ task.id))
      onStateChange host
      let _ ← executeTaskUntilResolution host s.app.backlog.tasks.length task {} steps
      return some (⟨1, 0, "single iteration completed"⟩ : LoopRunSummary)) := by
    apply Keeps.bind (stable.push _)
    intro _
    apply Keeps.bind (stable.onStateChange host)
    intro _
    apply Keeps.bind (stable.takeTurns host _ _ _ _)
    intro _
    exact .pure _
  exact turns s₁ (starts todo member ready task s₁.app begun)

/-! ## Runs -/

/-- What is done with the backlog and the active task. The steps that a loop is given bound it. -/
inductive TaskOperation where
  | addTodo (title : String)
  | beginTaskFromTodo (todoId : String)
  | runSingleIteration
  | runLoop (guardrails : LoopGuardrails) (steps : Nat)
  | event (event : DomainEvent)
  | resolve (guardrails : ExecutionGuardrails)
  | complete (summary : Option String)
  | fail (reason : String)
  | block (reason : String)

namespace TaskOperation

def run : TaskOperation → LoopM Unit
  | .addTodo title => discard <| Loop.addTodo title
  | .beginTaskFromTodo todoId => discard <| Loop.beginTaskFromTodo host todoId
  | .runSingleIteration => discard <| Loop.runSingleIteration host 4
  | .runLoop guardrails steps => discard <| Loop.runLoop host guardrails steps
  | .event e => update (·.take e)
  | .resolve guardrails => discard <| resolveActiveTaskAfterTurn host guardrails
  | .complete summary => update (·.completeActiveTask summary)
  | .fail reason => update (·.failActiveTask reason)
  | .block reason => update (·.blockActiveTask reason)

/-- One operation, which may fail. -/
def step (s : LoopState) (operation : TaskOperation) : Unit × LoopState :=
  ((), stateAfter (operation.run host) s)

/-- Where an operation begins a task, none is active. -/
def Waits (s : LoopState) : TaskOperation → Prop
  | .beginTaskFromTodo todoId => s.app.activeTaskId = none ∨ s.app.backlog.findTodo todoId = none
  | .runSingleIteration => s.app.activeTaskId = none ∨ s.app.nextReadyTodoId = none
  | .addTodo _ | .runLoop _ _ | .event _ | .resolve _ | .complete _ | .fail _ | .block _ => True

/-! ### Steps -/

omit [Unicode] in
theorem addTodo_keeps (title : String) :
    Keeps (fun s => Tidy s.backlog s.activeTaskId) (Loop.addTodo title) := by
  intro s tidy
  rw [Loop.addTodo, ends_bind, ends_get]
  dsimp only
  split
  · exact tidy
  · rw [ends_bind, ends_update]
    exact tidy.adds rfl rfl

omit [Unicode] in
theorem beginTaskFromTodo_tidy {s : LoopState} (tidy : Tidy s.app.backlog s.app.activeTaskId)
    {todoId : String} (waits : s.app.activeTaskId = none ∨ s.app.backlog.findTodo todoId = none) :
    Ends (Loop.beginTaskFromTodo host todoId) s (fun _ s' => Tidy s'.app.backlog s'.app.activeTaskId)
      fun _ _ => False := by
  refine (begin_ends host todoId s).mono (fun begun s' started => ?_) fun _ _ never => never
  cases found : s.app.backlog.findTodo todoId with
  | none =>
      rw [found] at started
      rw [started.2]
      exact tidy
  | some todo =>
      rw [found] at started waits
      obtain ⟨task, -, begun⟩ := started
      have free := waits.resolve_right (Option.some_ne_none todo)
      exact begun.tidy tidy free (List.mem_of_find?_eq_some found)

omit [Unicode] in
/-- The loop takes up the active task, or begins one where none is active. -/
theorem takeTask_keeps : Keeps (fun s => Tidy s.backlog s.activeTaskId) (takeTask host) := by
  intro s tidy
  rw [takeTask, ends_bind, ends_get]
  cases active : currentActiveTask s.app with
  | some task =>
      dsimp only
      rw [ends_bind, ends_record, ends_bind, ends_update]
      exact tidy
  | none =>
      have free : s.app.activeTaskId = none := by
        cases busy : s.app.activeTaskId with
        | none => rfl
        | some taskId =>
            obtain ⟨task, member, rfl, -⟩ := tidy.busy taskId busy
            rw [currentActiveTask, busy, Option.bind_some,
              BacklogState.findTask_of_mem tidy.tasks_distinct member] at active
            cases active
      dsimp only
      cases s.app.nextReadyTodoId with
      | none =>
          dsimp only
          rw [ends_bind, ends_update]
          exact tidy
      | some todoId =>
          dsimp only
          rw [ends_bind, ends_update]
          refine (beginTaskFromTodo_tidy host ?_ (.inl ?_)).andThen (fun begun s₁ tidy₁ => ?_)
            fun _ _ never => never.elim
          · exact tidy
          · exact free
          · cases begun with
            | none => exact tidy₁
            | some task =>
                dsimp only
                rw [ends_bind, ends_record, ends_bind, ends_update]
                exact (Tidy.stable.onStateChange host).bind (fun _ => .pure _) _ tidy₁

theorem runLoopFrom_keeps (guardrails : LoopGuardrails) (turns steps iterations failures : Nat) :
    Keeps (fun s => Tidy s.backlog s.activeTaskId)
      (runLoopFrom host guardrails turns steps iterations failures) := by
  induction steps generalizing iterations failures with
  | zero => exact .throw _
  | succ steps ih =>
      rw [runLoopFrom]
      split
      · exact .bind (Tidy.stable.setLoopPhase _) fun _ => .bind (Tidy.stable.push _) fun _ => .pure _
      · apply Keeps.bind (takeTask_keeps host)
        intro found
        cases found with
        | none => exact .pure _
        | some taken =>
            obtain ⟨task, position⟩ := taken
            apply Keeps.bind (Tidy.stable.takeTurns host _ _ _ _)
            intro outcome
            apply Keeps.bind (.record _)
            intro _
            split
            · split
              · exact .bind (Tidy.stable.setLoopPhase _) fun _ =>
                  .bind (Tidy.stable.push _) fun _ => .pure _
              · exact ih _ _
            · exact ih _ _

/-- An operation that begins no task while another one is active keeps the order. -/
theorem run_tidy {s : LoopState} (tidy : Tidy s.app.backlog s.app.activeTaskId)
    (operation : TaskOperation) (waits : Waits s operation) :
    Ends (operation.run host) s (fun _ s' => Tidy s'.app.backlog s'.app.activeTaskId)
      fun _ s' => Tidy s'.app.backlog s'.app.activeTaskId := by
  cases operation with
  | addTodo title => exact ends_discard.mpr (addTodo_keeps title s tidy)
  | beginTaskFromTodo todoId =>
      exact ends_discard.mpr ((beginTaskFromTodo_tidy host tidy waits).mono (fun _ _ kept => kept)
        fun _ _ never => never.elim)
  | runSingleIteration =>
      apply ends_discard.mpr
      cases next : s.app.nextReadyTodoId with
      | none =>
          rw [Loop.runSingleIteration, ends_bind, ends_get, next]
          exact tidy
      | some todoId =>
          have free : s.app.activeTaskId = none :=
            waits.resolve_right (by rw [next]; exact Option.some_ne_none todoId)
          apply runSingleIteration_ends host Tidy.stable tidy next
          intro todo member _ task s' begun
          exact begun.tidy tidy free member
  | runLoop guardrails steps =>
      exact ends_discard.mpr (runLoopFrom_keeps host guardrails steps steps 0 0 s tidy)
  | event e => exact Tidy.stable.take e s tidy
  | resolve guardrails => exact ends_discard.mpr (Tidy.stable.resolve host guardrails s tidy)
  | complete summary => exact Tidy.stable.completes tidy summary
  | fail reason => exact Tidy.stable.fails tidy reason
  | block reason => exact Tidy.stable.blocks tidy reason

/-- One that does leaves a todo in progress whose task is not active. -/
theorem run_not_kept {s : LoopState} (tidy : Tidy s.app.backlog s.app.activeTaskId)
    (operation : TaskOperation) (overtakes : ¬ Waits s operation) :
    Ends (operation.run host) s (fun _ s' => ¬ s'.app.Kept) fun _ s' => ¬ s'.app.Kept := by
  cases operation with
  | beginTaskFromTodo todoId =>
      rw [Waits, not_or] at overtakes
      obtain ⟨taskId, busy⟩ := Option.ne_none_iff_exists'.mp overtakes.1
      obtain ⟨todo, found⟩ := Option.ne_none_iff_exists'.mp overtakes.2
      apply ends_discard.mpr
      refine (begin_ends host todoId s).mono (fun begun s' started => ?_) fun _ _ never => never.elim
      rw [found] at started
      obtain ⟨task, -, begun⟩ := started
      exact begun.not_kept tidy busy (List.mem_of_find?_eq_some found)
  | runSingleIteration =>
      rw [Waits, not_or] at overtakes
      obtain ⟨taskId, busy⟩ := Option.ne_none_iff_exists'.mp overtakes.1
      obtain ⟨todoId, next⟩ := Option.ne_none_iff_exists'.mp overtakes.2
      apply ends_discard.mpr
      have left := runSingleIteration_ends host (@LeftBehind.stable_some taskId) tidy next 4
        fun todo member ready task s' begun =>
          begun.leaves tidy busy member (by rw [ready]; exact TodoStatus.noConfusion)
      exact left.mono (fun _ s' behind => behind.choose_spec.not_kept)
        fun _ s' behind => behind.choose_spec.not_kept
  | addTodo | runLoop | event | resolve | complete | fail | block => exact absurd trivial overtakes

/-! ### Whole runs -/

theorem step_kept_iff (s : LoopState) (operation : TaskOperation)
    (tidy : Tidy s.app.backlog s.app.activeTaskId) :
    (operation.step host s).2.app.Kept ↔ Waits s operation := by
  constructor
  · intro kept
    by_contra overtakes
    exact (run_not_kept host tidy operation overtakes).stateAfter kept
  · intro waits
    exact Tidy.kept (run_tidy host tidy operation waits).stateAfter

/-- In every run from an empty backlog, each todo in progress has its task active throughout exactly
    if no task is begun while another one is active. -/
theorem run_kept_iff (app : AppState) (operations : List TaskOperation) :
    (∀ x ∈ Machine.history (fun s operation => step host s operation)
        { app := { app with backlog := {}, activeTaskId := none } } operations, x.after.app.Kept) ↔
      ∀ x ∈ Machine.history (fun s operation => step host s operation)
        { app := { app with backlog := {}, activeTaskId := none } } operations,
        Waits x.before x.event :=
  @Machine.history_exact LoopState TaskOperation Unit (fun s operation => step host s operation)
    (fun s => Tidy s.app.backlog s.app.activeTaskId) Waits (fun x => x.after.app.Kept)
    (fun s operation tidy => step_kept_iff host s operation tidy)
    (fun s operation tidy kept =>
      (run_tidy host tidy operation ((step_kept_iff host s operation tidy).mp kept)).stateAfter)
    _ Tidy.start operations

end TaskOperation

end

/-- It has no provider, and nothing else fails. -/
def bareHost : Host where
  startProvider _ _ _ _ _ := .error "no provider"
  onStateChange _ _ := .ok ()
  hasManifest _ _ := false
  cargoCheck _ _ := .error "cargo is not called"
  saveTaskArtifact _ _ artifact := .ok (artifact.taskId ++ ".json")
  saveEscalation _ _ record := .ok (record.taskId ++ ".json")

section

local instance lettersLowered : Unicode := ⟨String.toLower⟩

/-- Two todos, and the first one is begun. -/
def firstBegun : LoopState :=
  Machine.final (fun s operation => TaskOperation.step bareHost s operation) { app := {} }
    [.addTodo "Rename", .addTodo "Test", .beginTaskFromTodo "todo-1"]

/-- When the second todo is begun, the first one stays in progress, and its task is not active. -/
theorem second_task_forgets_first : ¬ ∀ [Unicode] (host : Host) (app : AppState)
    (operations : List TaskOperation),
    ∀ x ∈ Machine.history (fun s operation => TaskOperation.step host s operation)
      { app := { app with backlog := {}, activeTaskId := none } } operations, x.after.app.Kept := by
  intro all
  have runs := all bareHost {}
    ([.addTodo "Rename", .addTodo "Test", .beginTaskFromTodo "todo-1"] ++ [.beginTaskFromTodo "todo-2"])
  rw [Machine.history_snoc] at runs
  have kept : (TaskOperation.step bareHost firstBegun (.beginTaskFromTodo "todo-2")).2.app.Kept :=
    runs _ (List.mem_append_right _ List.mem_cons_self)
  have first :
      ((TaskOperation.step bareHost firstBegun (.beginTaskFromTodo "todo-2")).2.app.backlog.tasks.filter
        fun task => task.todoId = "todo-1" && isOpen task.status).map TaskItem.id = ["task-1"] := by
    decide +kernel
  have active :
      (TaskOperation.step bareHost firstBegun (.beginTaskFromTodo "todo-2")).2.app.activeTaskId =
        some "task-2" := by
    decide +kernel
  obtain ⟨task, filtered, same⟩ := kept
    { id := "todo-1", title := "Rename", description := "Rename", priority := 1, status := .inProgress,
      acceptanceCriteria := [], dependencies := [], source := "manual" } (by decide +kernel) rfl
  rw [filtered] at first
  rw [active] at same
  have named : task.id = "task-1" := (List.cons.inj first).1
  rw [named] at same
  exact absurd same (by decide)

end

end AgileAgent.Core.Loop
