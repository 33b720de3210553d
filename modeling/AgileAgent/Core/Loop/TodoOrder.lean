import Mathlib.Data.List.Find
import AgileAgent.Core.Loop.ActiveTask

/-! # The order of the todos

A todo is numbered when it is added, and the todos are sorted by their numbers. The numbers are kept
in a byte, so there is none for the 256th todo.
-/

namespace AgileAgent.Core.Loop

open Backlog Fallible Machine

/-- What is done with todos: one is added, one is started, or the active one is finished. -/
inductive TodoOperation where
  | add (title : String)
  | start (todoId : String)
  | complete (summary : Option String)
  | fail (reason : String)
  | block (reason : String)

namespace TodoOperation

/-- The id of the todo that is added, if one is. -/
def run (host : Host) : TodoOperation → LoopM (Option String)
  | .add title => some <$> addTodo title
  | .start todoId => (fun _ => none) <$> beginTaskFromTodo host todoId
  | .complete summary => (fun _ => none) <$> update (·.completeActiveTask summary)
  | .fail reason => (fun _ => none) <$> update (·.failActiveTask reason)
  | .block reason => (fun _ => none) <$> update (·.blockActiveTask reason)

def step (host : Host) (s : LoopState) (operation : TodoOperation) :
    Except LoopError (Option String) × LoopState :=
  match operation.run host s with
  | .ok added s' => (.ok added, s')
  | .error error s' => (.error error, s')

def isAdd : TodoOperation → Bool
  | .add _ => true
  | .start _ | .complete _ | .fail _ | .block _ => false

end TodoOperation

abbrev TodoStep := Step LoopState TodoOperation (Except LoopError (Option String))

def addedId : Except LoopError (Option String) → Option String
  | .ok added => added
  | .error _ => none

/-- The ids of the todos that were added, the first one first. -/
def addedIds (steps : List TodoStep) : List String := steps.filterMap fun x => addedId x.output

theorem addedIds_snoc (steps : List TodoStep) (x : TodoStep) :
    addedIds (steps ++ [x]) = addedIds steps ++ (addedId x.output).toList := by
  rw [addedIds, List.filterMap_append, List.filterMap_cons]
  cases addedId x.output <;> rfl

def AppState.isReady (s : AppState) (todoId : String) : Bool :=
  match s.backlog.findTodo todoId with
  | some todo => todo.status = .ready
  | none => false

/-- Every todo is added under an id of its own, and the first ready todo is always the one among those
    that are ready that was added first. -/
structure AddsInOrder (steps : List TodoStep) : Prop where
  adds : ∀ earlier x later title, steps = earlier ++ x :: later → x.event = .add title →
    ∃ id, x.output = .ok (some id) ∧ id ∉ addedIds earlier
  first : ∀ earlier x later, steps = earlier ++ x :: later →
    x.after.app.nextReadyTodoId = (addedIds (earlier ++ [x])).find? x.after.app.isReady

/-! ## Numbered todos -/

def todoName (number : Nat) : String := "todo-" ++ toString number

def labels (todos : List TodoItem) : List (String × Nat) := todos.map fun todo => (todo.id, todo.priority)

/-- The todos have the numbers from 1 on, as ids and as priorities, and no more than a byte has. -/
structure Numbered (todos : List TodoItem) : Prop where
  fits : todos.length ≤ 255
  numbered : labels todos = (List.range todos.length).map fun i => (todoName (i + 1), i + 1)

namespace Numbered

variable {todos todos' : List TodoItem} {b : BacklogState} {s : AppState}

theorem nil : Numbered [] := ⟨Nat.zero_le _, rfl⟩

theorem length_of_labels (same : labels todos' = labels todos) : todos'.length = todos.length := by
  simpa [labels] using congrArg List.length same

theorem of_labels (numbered : Numbered todos) (same : labels todos' = labels todos) : Numbered todos' := by
  have length := length_of_labels same
  constructor
  · have := numbered.fits
    omega
  · rw [same, length]
    exact numbered.numbered

theorem ids (numbered : Numbered todos) :
    todos.map TodoItem.id = (List.range todos.length).map fun i => todoName (i + 1) := by
  have named := congrArg (List.map Prod.fst) numbered.numbered
  simpa [labels, Function.comp_def] using named

theorem todoName_injective : Function.Injective todoName := Numeral.named_injective "todo-"

theorem distinct (numbered : Numbered todos) : (todos.map TodoItem.id).Nodup := by
  rw [numbered.ids]
  apply List.nodup_range.map
  intro i j same
  have := todoName_injective same
  omega

/-- The next number is a new one. -/
theorem fresh (numbered : Numbered todos) : todoName (todos.length + 1) ∉ todos.map TodoItem.id := by
  rw [numbered.ids]
  intro listed
  obtain ⟨i, below, same⟩ := List.mem_map.mp listed
  have := todoName_injective same
  have := List.mem_range.mp below
  omega

theorem snoc (numbered : Numbered todos) (room : todos.length < 255) {todo : TodoItem}
    (id : todo.id = todoName (todos.length + 1)) (priority : todo.priority = todos.length + 1) :
    Numbered (todos ++ [todo]) := by
  constructor
  · rw [List.length_append, List.length_singleton]
    omega
  · have before := numbered.numbered
    simp only [labels] at before
    simp [labels, before, List.range_succ, id, priority]

/-- Numbered todos are in order, so sorting them moves none. -/
theorem sorted (numbered : Numbered todos) :
    todos.insertionSort (fun a b => BacklogState.before a b) = todos := by
  have priorities : todos.map TodoItem.priority = (List.range todos.length).map (· + 1) := by
    have listed := congrArg (List.map Prod.snd) numbered.numbered
    simpa [labels, Function.comp_def] using listed
  have rising : (todos.map TodoItem.priority).Pairwise (· < ·) := by
    rw [priorities, List.pairwise_map]
    apply List.pairwise_lt_range.imp
    intro i j below
    omega
  apply List.Pairwise.insertionSort_eq
  apply (List.pairwise_map.mp rising).imp
  intro a b below
  simp [BacklogState.before, below]

/-- A new todo comes last. -/
theorem pushTodo (numbered : Numbered b.todos) (room : b.todos.length < 255) {todo : TodoItem}
    (id : todo.id = todoName (b.todos.length + 1)) (priority : todo.priority = b.todos.length + 1) :
    (b.pushTodo todo).todos = b.todos ++ [todo] :=
  (numbered.snoc room id priority).sorted

theorem findTodo (numbered : Numbered b.todos) {todo : TodoItem} (member : todo ∈ b.todos) :
    b.findTodo todo.id = some todo := by
  cases found : b.findTodo todo.id with
  | none =>
      have none := List.find?_eq_none.mp found todo member
      simp at none
  | some other =>
      have same : other.id = todo.id := by simpa using List.find?_some found
      rw [List.inj_on_of_nodup_map numbered.distinct (List.mem_of_find?_eq_some found) member same]

/-- The first ready todo is the first id whose todo is ready. -/
theorem nextReadyTodoId (numbered : Numbered s.backlog.todos) :
    s.nextReadyTodoId = (s.backlog.todos.map TodoItem.id).find? s.isReady := by
  rw [AppState.nextReadyTodoId, BacklogState.readyTodos, List.head?_filter, List.find?_map]
  congr 1
  apply List.find?_congr
  intro todo member
  simp [AppState.isReady, numbered.findTodo member]

end Numbered

/-! ## One operation -/

/-- What an operation tells and what it leaves of the todos. -/
inductive TodosMove (todos : List TodoItem) :
    TodoOperation → Except LoopError (Option String) → List TodoItem → Prop
  | added {title : String} {todo : TodoItem} (room : todos.length < 255)
      (id : todo.id = todoName (todos.length + 1)) (priority : todo.priority = todos.length + 1) :
      TodosMove todos (.add title) (.ok (some (todoName (todos.length + 1)))) (todos ++ [todo])
  | full {title : String} (full : todos.length = 255) :
      TodosMove todos (.add title) (.error .overflow) todos
  | kept {operation : TodoOperation} {todos' : List TodoItem} (adds : operation.isAdd = false)
      (same : labels todos' = labels todos) : TodosMove todos operation (.ok none) todos'

theorem labels_updateTodo (b : BacklogState) (todoId : String) {change : TodoItem → TodoItem}
    (keeps : ∀ todo, (change todo).id = todo.id ∧ (change todo).priority = todo.priority) :
    labels (b.updateTodo todoId change).todos = labels b.todos :=
  FirstMatch.map_modify fun todo => Prod.ext (keeps todo).1 (keeps todo).2

theorem AppState.labels_endActiveTask (s : AppState) (status : TaskStatus) (resultSummary : Option String)
    {change : TodoItem → TodoItem}
    (keeps : ∀ todo, (change todo).id = todo.id ∧ (change todo).priority = todo.priority) :
    labels (s.endActiveTask status resultSummary change).backlog.todos = labels s.backlog.todos := by
  rw [AppState.endActiveTask]
  cases s.activeTaskId with
  | none => rfl
  | some taskId =>
      dsimp only
      cases s.backlog.findTask taskId with
      | none => rfl
      | some task => exact labels_updateTodo _ _ keeps

/-- There is a next number for every byte but the last one. -/
theorem addOne_ofNat {n : Nat} (fits : n ≤ 255) :
    (addOne (UInt8.ofNat n)).map UInt8.toNat = if n < 255 then some (n + 1) else none := by
  have value : (UInt8.ofNat n).toNat = n := UInt8.toNat_ofNat_of_lt' (Nat.lt_succ_of_le fits)
  rw [addOne, value]
  by_cases room : n < 255
  · have below : n + 1 < UInt8.size := Nat.succ_lt_succ room
    rw [if_pos below, if_pos room, Option.map_some, UInt8.toNat_add, value]
    exact congrArg some (Nat.mod_eq_of_lt below)
  · have above : ¬ n + 1 < UInt8.size := fun below => room (Nat.lt_of_succ_lt_succ below)
    rw [if_neg above, if_neg room, Option.map_none]

theorem addTodo_ends {s : LoopState} (numbered : Numbered s.app.backlog.todos) (title : String) :
    Ends (addTodo title) s
      (fun id s' => TodosMove s.app.backlog.todos (.add title) (.ok (some id)) s'.app.backlog.todos)
      fun error s' => TodosMove s.app.backlog.todos (.add title) (.error error) s'.app.backlog.todos := by
  have next := addOne_ofNat numbered.fits
  rw [addTodo, ends_bind, ends_get]
  dsimp only
  cases counted : addOne (UInt8.ofNat s.app.backlog.todos.length) with
  | none =>
      rw [counted, Option.map_none] at next
      apply TodosMove.full
      have := numbered.fits
      by_contra below
      rw [if_pos (by omega)] at next
      cases next
  | some priority =>
      rw [counted, Option.map_some] at next
      dsimp only
      rw [ends_bind, ends_update]
      split at next
      · next room =>
          have value : priority.toNat = s.app.backlog.todos.length + 1 := Option.some.inj next
          apply (ends_pure _).mpr
          dsimp only
          rw [numbered.pushTodo room rfl value]
          exact TodosMove.added room rfl value
      · cases next

namespace TodoOperation

variable (host : Host)

/-- One operation on numbered todos. -/
theorem run_ends {s : LoopState} (numbered : Numbered s.app.backlog.todos) (operation : TodoOperation) :
    Ends (operation.run host) s
      (fun added s' => TodosMove s.app.backlog.todos operation (.ok added) s'.app.backlog.todos)
      fun error s' => TodosMove s.app.backlog.todos operation (.error error) s'.app.backlog.todos := by
  cases operation with
  | add title => exact ends_map.mpr (addTodo_ends numbered title)
  | start todoId =>
      apply ends_map.mpr
      apply (begin_ends host todoId s).mono
      · intro begun s' started
        apply TodosMove.kept rfl
        cases found : s.app.backlog.findTodo todoId with
        | none =>
            rw [found] at started
            rw [started.2]
        | some todo =>
            rw [found] at started
            obtain ⟨task, -, begun⟩ := started
            rw [begun.backlog]
            exact labels_updateTodo _ _ fun _ => ⟨rfl, rfl⟩
      · intro _ _ never
        exact never.elim
  | complete summary =>
      exact TodosMove.kept rfl (s.app.labels_endActiveTask _ _ fun _ => ⟨rfl, rfl⟩)
  | fail reason =>
      apply TodosMove.kept rfl
      apply s.app.labels_endActiveTask
      intro todo
      split <;> exact ⟨rfl, rfl⟩
  | block reason =>
      exact TodosMove.kept rfl (s.app.labels_endActiveTask _ _ fun _ => ⟨rfl, rfl⟩)

theorem step_moves {s : LoopState} (numbered : Numbered s.app.backlog.todos)
    (operation : TodoOperation) :
    TodosMove s.app.backlog.todos operation (operation.step host s).1
      (operation.step host s).2.app.backlog.todos := by
  have ends := run_ends host numbered operation
  rw [step]
  cases ran : operation.run host s with
  | ok added s' => exact ends.returned ran
  | error error s' => exact ends.failed ran

end TodoOperation

namespace TodosMove

variable {todos todos' : List TodoItem} {operation : TodoOperation}
  {output : Except LoopError (Option String)}

theorem numbered (moves : TodosMove todos operation output todos') (numbered : Numbered todos) :
    Numbered todos' := by
  cases moves with
  | added room id priority => exact numbered.snoc room id priority
  | full => exact numbered
  | kept _ same => exact numbered.of_labels same

/-- An operation leaves the todos in their places, and a new one comes last. -/
theorem ids (moves : TodosMove todos operation output todos') :
    todos'.map TodoItem.id = todos.map TodoItem.id ++ (addedId output).toList := by
  cases moves with
  | added _ id => simp [addedId, id]
  | full => simp [addedId]
  | kept _ same =>
      have kept := congrArg (List.map Prod.fst) same
      simpa [labels, addedId, Function.comp_def] using kept

/-- A new todo has an id of its own. -/
theorem fresh {title id : String} (moves : TodosMove todos (.add title) (.ok (some id)) todos')
    (numbered : Numbered todos) : id ∉ todos.map TodoItem.id := by
  cases moves with
  | added => exact numbered.fresh

/-- A todo is added exactly if there is room for it, and then there is less. -/
theorem adds_iff (moves : TodosMove todos operation output todos') (count : Nat) :
    ((∀ title, operation = .add title → ∃ id, output = .ok (some id)) ∧ todos'.length + count ≤ 255) ↔
      todos.length + (count + if operation.isAdd then 1 else 0) ≤ 255 := by
  cases moves with
  | added =>
      rw [TodoOperation.isAdd, if_pos rfl, List.length_append, List.length_singleton]
      constructor
      · intro fits
        omega
      · intro fits
        exact ⟨fun _ _ => ⟨_, rfl⟩, by omega⟩
  | full full =>
      rw [TodoOperation.isAdd, if_pos rfl]
      constructor
      · intro fits
        obtain ⟨id, told⟩ := fits.1 _ rfl
        cases told
      · intro fits
        omega
  | kept adds same =>
      have length := Numbered.length_of_labels same
      rw [adds, length]
      constructor
      · intro fits
        exact fits.2
      · intro fits
        refine ⟨?_, fits⟩
        intro title isAdd
        rw [isAdd] at adds
        cases adds

end TodosMove

/-! ## Runs -/

section

variable (host : Host) {s : LoopState} {operations : List TodoOperation}

def todoSteps (s : LoopState) (operations : List TodoOperation) : List TodoStep :=
  history (fun s operation => operation.step host s) s operations

/-- Before each step of a run the todos are those that were added, in their order. -/
theorem todos_before (numbered : Numbered s.app.backlog.todos) {earlier later : List TodoStep}
    {x : TodoStep} (whole : todoSteps host s operations = earlier ++ x :: later) :
    Numbered x.before.app.backlog.todos ∧
      x.before.app.backlog.todos.map TodoItem.id =
        s.app.backlog.todos.map TodoItem.id ++ addedIds earlier ∧
      TodosMove x.before.app.backlog.todos x.event x.output x.after.app.backlog.todos := by
  induction earlier generalizing s operations with
  | nil =>
      cases operations with
      | nil => cases whole
      | cons operation rest =>
          rw [todoSteps, history_cons, List.nil_append, List.cons.injEq] at whole
          obtain ⟨rfl, -⟩ := whole
          exact ⟨numbered, (List.append_nil _).symm, operation.step_moves host numbered⟩
  | cons y earlier ih =>
      cases operations with
      | nil => cases whole
      | cons operation rest =>
          rw [todoSteps, history_cons, List.cons_append, List.cons.injEq] at whole
          obtain ⟨rfl, whole⟩ := whole
          have moves := operation.step_moves host numbered
          obtain ⟨numbered', ids, move⟩ := ih (moves.numbered numbered) whole
          refine ⟨numbered', ?_, move⟩
          rw [ids, moves.ids, List.append_assoc]
          congr 1
          simp only [addedIds, List.filterMap_cons]
          cases addedId (operation.step host s).1 <;> rfl

/-- Every todo is added exactly if no more than 255 are. -/
theorem todos_added_iff (numbered : Numbered s.app.backlog.todos) :
    (∀ x ∈ todoSteps host s operations, ∀ title, x.event = .add title →
        ∃ id, x.output = .ok (some id)) ↔
      s.app.backlog.todos.length + operations.countP TodoOperation.isAdd ≤ 255 := by
  induction operations generalizing s with
  | nil => simpa [todoSteps] using numbered.fits
  | cons operation rest ih =>
      have moves := operation.step_moves host numbered
      rw [todoSteps, history_cons, List.forall_mem_cons, List.countP_cons]
      exact (and_congr_right fun _ => ih (moves.numbered numbered)).trans (moves.adds_iff _)

theorem AddsInOrder.fits (inOrder : AddsInOrder (todoSteps host s operations))
    (numbered : Numbered s.app.backlog.todos) :
    s.app.backlog.todos.length + operations.countP TodoOperation.isAdd ≤ 255 := by
  apply (todos_added_iff host numbered).mp
  intro x member title added
  obtain ⟨earlier, later, whole⟩ := List.append_of_mem member
  obtain ⟨id, told, -⟩ := inOrder.adds earlier x later title whole added
  exact ⟨id, told⟩

/-- In every run from an empty backlog, no addition overflows, the ids differ and the first ready todo
    is the first of the ready ones that was added, exactly if no more than 255 todos are added. -/
theorem adds_in_order_iff (app : AppState) (operations : List TodoOperation) :
    AddsInOrder (todoSteps host { app := { app with backlog := {} } } operations) ↔
      operations.countP TodoOperation.isAdd ≤ 255 := by
  constructor
  · intro inOrder
    have fits := inOrder.fits host Numbered.nil
    rwa [List.length_nil, Nat.zero_add] at fits
  · intro fits
    have told := (todos_added_iff host (s := { app := { app with backlog := {} } }) Numbered.nil).mpr
      ((Nat.zero_add _).trans_le fits)
    constructor
    · intro earlier x later title whole added
      obtain ⟨numbered, ids, moves⟩ := todos_before host Numbered.nil whole
      obtain ⟨id, output⟩ := told x (whole ▸ List.mem_append_right _ List.mem_cons_self) title added
      refine ⟨id, output, ?_⟩
      rw [List.map_nil, List.nil_append] at ids
      rw [← ids]
      rw [added, output] at moves
      exact moves.fresh numbered
    · intro earlier x later whole
      obtain ⟨numbered, ids, moves⟩ := todos_before host Numbered.nil whole
      rw [List.map_nil, List.nil_append] at ids
      rw [(moves.numbered numbered).nextReadyTodoId, moves.ids, ids, ← addedIds_snoc]

end

/-- The addition of the 256th todo overflows. -/
theorem full_backlog_overflows : ¬ ∀ (host : Host) (app : AppState) (operations : List TodoOperation),
    AddsInOrder (todoSteps host { app := { app with backlog := {} } } operations) := by
  intro all
  have fits := (all bareHost {} (List.replicate 256 (.add "Rename"))).fits bareHost Numbered.nil
  rw [List.countP_replicate, TodoOperation.isAdd, if_pos rfl, List.length_nil] at fits
  omega

end AgileAgent.Core.Loop
