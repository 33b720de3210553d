import Mathlib.Data.List.Induction
import Mathlib.Data.List.Nodup
import Mathlib.Logic.Function.Basic

/-! # Task contexts of a decision agent

One context for each task that the agent has worked at. The task before is marked complete when another
is switched to, and nothing takes the mark off again when its context is restored.
-/

namespace AgileAgent.Decision

abbrev DecisionTaskId := String

/-- Points in time are numbers; `Record` is what is stored of a decision. -/
structure TaskDecisionContext (Record : Type) where
  taskId : DecisionTaskId
  decisions : List Record
  reflectionRounds : UInt8
  retryCount : UInt8
  startedAt : Nat
  completedAt : Option Nat
  deriving Repr, DecidableEq

namespace TaskDecisionContext

variable {Record : Type}

def new (taskId : DecisionTaskId) (now : Nat) : TaskDecisionContext Record where
  taskId
  decisions := []
  reflectionRounds := 0
  retryCount := 0
  startedAt := now
  completedAt := none

def addDecision (c : TaskDecisionContext Record) (record : Record) : TaskDecisionContext Record :=
  { c with decisions := c.decisions ++ [record] }

def incrementReflection (c : TaskDecisionContext Record) : TaskDecisionContext Record :=
  { c with reflectionRounds := c.reflectionRounds + 1 }

def incrementRetry (c : TaskDecisionContext Record) : TaskDecisionContext Record :=
  { c with retryCount := c.retryCount + 1 }

def markComplete (c : TaskDecisionContext Record) (now : Nat) : TaskDecisionContext Record :=
  { c with completedAt := some now }

def isComplete (c : TaskDecisionContext Record) : Bool := c.completedAt.isSome

@[simp] theorem isComplete_new (taskId : DecisionTaskId) (now : Nat) :
    (new taskId now : TaskDecisionContext Record).isComplete = false := rfl

@[simp] theorem isComplete_markComplete (c : TaskDecisionContext Record) (now : Nat) :
    (c.markComplete now).isComplete = true := rfl

end TaskDecisionContext

/-- The counters are of one byte and wrap; where overflow is checked the run ends there. -/
structure DecisionAgentState (Record : Type) where
  currentTaskId : Option DecisionTaskId
  currentStoryId : Option String
  taskContexts : DecisionTaskId → Option (TaskDecisionContext Record)
  lastActivity : Nat
  reflectionRounds : UInt8
  retryCount : UInt8

namespace DecisionAgentState

variable {Record : Type}

def new (now : Nat) : DecisionAgentState Record where
  currentTaskId := none
  currentStoryId := none
  taskContexts := fun _ => none
  lastActivity := now
  reflectionRounds := 0
  retryCount := 0

/-- `if let Some(ctx) = task_contexts.get_mut(current)`. -/
def updateCurrent (s : DecisionAgentState Record)
    (update : TaskDecisionContext Record → TaskDecisionContext Record) : DecisionAgentState Record :=
  match s.currentTaskId with
  | some current =>
      { s with taskContexts := Function.update s.taskContexts current ((s.taskContexts current).map update) }
  | none => s

def switchTask (s : DecisionAgentState Record) (newTask : DecisionTaskId) (now : Nat) :
    DecisionAgentState Record :=
  let archived := s.updateCurrent (·.markComplete now)
  -- create or restore
  let context := (archived.taskContexts newTask).getD (.new newTask now)
  { archived with
    taskContexts := Function.update archived.taskContexts newTask (some context)
    currentTaskId := some newTask
    lastActivity := now }

def recordDecision (s : DecisionAgentState Record) (record : Record) (now : Nat) :
    DecisionAgentState Record :=
  { s.updateCurrent (·.addDecision record) with lastActivity := now }

def incrementReflection (s : DecisionAgentState Record) (now : Nat) : DecisionAgentState Record :=
  { s.updateCurrent (·.incrementReflection) with
    reflectionRounds := s.reflectionRounds + 1
    lastActivity := now }

def incrementRetry (s : DecisionAgentState Record) (now : Nat) : DecisionAgentState Record :=
  { s.updateCurrent (·.incrementRetry) with
    retryCount := s.retryCount + 1
    lastActivity := now }

def destroy (s : DecisionAgentState Record) (now : Nat) : DecisionAgentState Record :=
  { s with
    taskContexts := fun id => (s.taskContexts id).map fun c => if c.isComplete then c else c.markComplete now
    currentTaskId := none
    currentStoryId := none }

end DecisionAgentState

/-- An operation with the time it is called at. -/
inductive ContextOperation (Record : Type) where
  | switchTask (newTask : DecisionTaskId) (now : Nat)
  | recordDecision (record : Record) (now : Nat)
  | incrementReflection (now : Nat)
  | incrementRetry (now : Nat)
  | destroy (now : Nat)
  deriving Repr, DecidableEq

namespace ContextOperation

variable {Record : Type}

def apply (s : DecisionAgentState Record) : ContextOperation Record → DecisionAgentState Record
  | switchTask newTask now => s.switchTask newTask now
  | recordDecision record now => s.recordDecision record now
  | incrementReflection now => s.incrementReflection now
  | incrementRetry now => s.incrementRetry now
  | destroy now => s.destroy now

/-- The task that is switched to. -/
def target : ContextOperation Record → Option DecisionTaskId
  | switchTask newTask _ => some newTask
  | _ => none

end ContextOperation

namespace DecisionAgentState

variable {Record : Type}

/-- The state after a sequence of operations. -/
def run (started : Nat) (operations : List (ContextOperation Record)) : DecisionAgentState Record :=
  operations.foldl ContextOperation.apply (new started)

theorem run_concat (started : Nat) (operations : List (ContextOperation Record))
    (operation : ContextOperation Record) :
    run started (operations ++ [operation]) = operation.apply (run started operations) := by
  rw [run, List.foldl_append]
  rfl

/-- Work goes on in the context of the current task and in no other. -/
structure Attended (s : DecisionAgentState Record) : Prop where
  current : ∀ task, s.currentTaskId = some task → ∃ c, s.taskContexts task = some c ∧ c.isComplete = false
  others : ∀ task c, s.taskContexts task = some c → s.currentTaskId ≠ some task → c.isComplete = true

/-- After some operations, every decision is where it was recorded. -/
structure Orderly (started : Nat) (operations : List (ContextOperation Record)) : Prop extends
    Attended (run started operations) where
  recorded : ∀ front record now rest task, operations = front ++ .recordDecision record now :: rest →
    (run started front).currentTaskId = some task →
      ∃ c, (run started operations).taskContexts task = some c ∧ record ∈ c.decisions

/-! ## One operation -/

variable {s : DecisionAgentState Record} {update : TaskDecisionContext Record → TaskDecisionContext Record}

@[simp] theorem currentTaskId_updateCurrent : (s.updateCurrent update).currentTaskId = s.currentTaskId := by
  rw [updateCurrent]
  split <;> rfl

theorem taskContexts_updateCurrent (task : DecisionTaskId) : (s.updateCurrent update).taskContexts task =
    if s.currentTaskId = some task then (s.taskContexts task).map update else s.taskContexts task := by
  rw [updateCurrent]
  split
  · next current same =>
      rw [same]
      by_cases here : task = current
      · subst here
        rw [if_pos rfl]
        exact Function.update_self task _ _
      · rw [if_neg (fun other => here (Option.some.inj other).symm)]
        exact Function.update_of_ne here _ _
  · next none =>
      rw [none, if_neg (by simp)]

theorem taskContexts_switchTask (newTask : DecisionTaskId) (now : Nat) (task : DecisionTaskId) :
    (s.switchTask newTask now).taskContexts task =
      if task = newTask then
        some (((s.updateCurrent (·.markComplete now)).taskContexts newTask).getD (.new newTask now))
      else (s.updateCurrent (·.markComplete now)).taskContexts task := by
  rw [switchTask]
  split
  · next same =>
      subst same
      exact Function.update_self task _ _
  · next other => exact Function.update_of_ne other _ _

/-- No context is removed, and one is made for a task that is switched to. -/
theorem isSome_apply (operation : ContextOperation Record) (task : DecisionTaskId) :
    ((operation.apply s).taskContexts task).isSome = true ↔
      (s.taskContexts task).isSome = true ∨ operation.target = some task := by
  have updated (update : TaskDecisionContext Record → TaskDecisionContext Record) :
      ((s.updateCurrent update).taskContexts task).isSome = (s.taskContexts task).isSome := by
    rw [taskContexts_updateCurrent]
    split
    · exact Option.isSome_map
    · rfl
  have unchanged {s' : DecisionAgentState Record}
      (same : (s'.taskContexts task).isSome = (s.taskContexts task).isSome) :
      (s'.taskContexts task).isSome = true ↔
        (s.taskContexts task).isSome = true ∨ (none : Option DecisionTaskId) = some task := by
    rw [same]
    simp
  cases operation with
  | switchTask newTask now =>
      rw [ContextOperation.apply, taskContexts_switchTask, ContextOperation.target]
      split
      · next same => simp [same]
      · next other => simp [updated, Ne.symm other]
  | recordDecision record now => exact unchanged (updated _)
  | incrementReflection now => exact unchanged (updated _)
  | incrementRetry now => exact unchanged (updated _)
  | destroy now => simp [ContextOperation.apply, destroy, ContextOperation.target]

/-- What an operation keeps of the decisions. -/
theorem decisions_apply (operation : ContextOperation Record) {task : DecisionTaskId}
    {c : TaskDecisionContext Record} (found : s.taskContexts task = some c) :
    ∃ c', (operation.apply s).taskContexts task = some c' ∧ c.decisions <+: c'.decisions := by
  have updated {update : TaskDecisionContext Record → TaskDecisionContext Record}
      (keeps : c.decisions <+: (update c).decisions) :
      ∃ c', (s.updateCurrent update).taskContexts task = some c' ∧ c.decisions <+: c'.decisions := by
    rw [taskContexts_updateCurrent, found]
    split
    · exact ⟨update c, rfl, keeps⟩
    · exact ⟨c, rfl, List.prefix_rfl⟩
  cases operation with
  | switchTask newTask now =>
      obtain ⟨c', there, kept⟩ := @updated (·.markComplete now) List.prefix_rfl
      rw [ContextOperation.apply, taskContexts_switchTask]
      split
      · next same =>
          rw [← same, there]
          exact ⟨c', rfl, kept⟩
      · exact ⟨c', there, kept⟩
  | recordDecision record now => exact updated (List.prefix_append c.decisions [record])
  | incrementReflection now => exact updated List.prefix_rfl
  | incrementRetry now => exact updated List.prefix_rfl
  | destroy now =>
      refine ⟨if c.isComplete then c else c.markComplete now, ?_, ?_⟩
      · exact congrArg (Option.map _) found
      · split <;> exact List.prefix_rfl

theorem Attended.updateCurrent (attended : Attended s)
    (same : ∀ c : TaskDecisionContext Record, (update c).isComplete = c.isComplete) :
    Attended (s.updateCurrent update) where
  current := by
    intro task isCurrent
    rw [currentTaskId_updateCurrent] at isCurrent
    obtain ⟨c, found, open_⟩ := attended.current task isCurrent
    exact ⟨update c, by rw [taskContexts_updateCurrent, if_pos isCurrent, found]; rfl, (same c).trans open_⟩
  others := by
    intro task c found other
    rw [currentTaskId_updateCurrent] at other
    rw [taskContexts_updateCurrent, if_neg other] at found
    exact attended.others task c found other

/-- The context that is restored for a task is complete, whichever task it was. -/
theorem Attended.restored (attended : Attended s) {task : DecisionTaskId} {c : TaskDecisionContext Record}
    (found : s.taskContexts task = some c) (now : Nat) :
    ∃ c', (s.updateCurrent (·.markComplete now)).taskContexts task = some c' ∧ c'.isComplete = true := by
  rw [taskContexts_updateCurrent, found]
  split
  · exact ⟨c.markComplete now, rfl, rfl⟩
  · next other => exact ⟨c, rfl, attended.others task c found other⟩

theorem Attended.switchTask_iff (attended : Attended s) (newTask : DecisionTaskId) (now : Nat) :
    Attended (s.switchTask newTask now) ↔ s.taskContexts newTask = none := by
  have archived (task : DecisionTaskId) (c : TaskDecisionContext Record)
      (found : (s.updateCurrent (·.markComplete now)).taskContexts task = some c) : c.isComplete = true := by
    cases before : s.taskContexts task with
    | some c₀ =>
        obtain ⟨c', there, complete⟩ := attended.restored before now
        cases there.symm.trans found
        exact complete
    | none =>
        rw [taskContexts_updateCurrent, before] at found
        split at found <;> cases found
  constructor
  · intro attended'
    by_contra known
    obtain ⟨c, found⟩ := Option.ne_none_iff_exists'.mp known
    obtain ⟨c', there, complete⟩ := attended.restored found now
    obtain ⟨c'', restored, open_⟩ := attended'.current newTask rfl
    rw [taskContexts_switchTask, if_pos rfl, there] at restored
    cases restored
    exact Bool.false_ne_true (open_.symm.trans complete)
  · intro unknown
    have absent : (s.updateCurrent (·.markComplete now)).taskContexts newTask = none := by
      rw [taskContexts_updateCurrent, unknown]
      split <;> rfl
    constructor
    · intro task isCurrent
      cases isCurrent
      exact ⟨.new newTask now, by rw [taskContexts_switchTask, if_pos rfl, absent]; rfl, rfl⟩
    · intro task c found other
      rw [taskContexts_switchTask, if_neg (fun same => other (congrArg some same.symm))] at found
      exact archived task c found

/-- An operation keeps the work in the current context exactly if it switches to no task that is known. -/
theorem Attended.apply_iff (attended : Attended s) (operation : ContextOperation Record) :
    Attended (operation.apply s) ↔ ∀ task, operation.target = some task → s.taskContexts task = none := by
  have kept {s' : DecisionAgentState Record} (attended' : Attended s') :
      Attended s' ↔ ∀ task, (none : Option DecisionTaskId) = some task → s.taskContexts task = none :=
    iff_of_true attended' fun task impossible => by cases impossible
  have updated {update : TaskDecisionContext Record → TaskDecisionContext Record}
      (same : ∀ c : TaskDecisionContext Record, (update c).isComplete = c.isComplete) :=
    attended.updateCurrent same
  cases operation with
  | switchTask newTask now =>
      rw [ContextOperation.apply, attended.switchTask_iff]
      exact ⟨fun unknown task same => Option.some.inj same ▸ unknown, fun all => all newTask rfl⟩
  | recordDecision record now =>
      have after := @updated (·.addDecision record) fun _ => rfl
      exact kept ⟨after.current, after.others⟩
  | incrementReflection now =>
      have after := @updated (·.incrementReflection) fun _ => rfl
      exact kept ⟨after.current, after.others⟩
  | incrementRetry now =>
      have after := @updated (·.incrementRetry) fun _ => rfl
      exact kept ⟨after.current, after.others⟩
  | destroy now =>
      refine kept ⟨fun _ isCurrent => absurd isCurrent.symm (Option.some_ne_none _), ?_⟩
      intro task c found _
      obtain ⟨c₀, _, rfl⟩ := Option.map_eq_some_iff.mp found
      cases complete : c₀.isComplete with
      | true => simp [complete]
      | false => simp

/-! ## Runs -/

/-- The tasks that are switched to. -/
def targets (operations : List (ContextOperation Record)) : List DecisionTaskId :=
  operations.filterMap ContextOperation.target

theorem isSome_run (started : Nat) (operations : List (ContextOperation Record)) (task : DecisionTaskId) :
    ((run started operations).taskContexts task).isSome = true ↔ task ∈ targets operations := by
  induction operations using List.reverseRecOn with
  | nil => simp [run, new, targets]
  | append_singleton operations operation ih =>
      rw [run_concat, isSome_apply, ih, targets, targets, List.filterMap_append, List.mem_append]
      simp [eq_comm]

/-- The current task has been switched to. -/
theorem current_run {started : Nat} {operations : List (ContextOperation Record)} {task : DecisionTaskId}
    (isCurrent : (run started operations).currentTaskId = some task) : task ∈ targets operations := by
  induction operations using List.reverseRecOn with
  | nil => cases isCurrent
  | append_singleton operations operation ih =>
      rw [run_concat] at isCurrent
      rw [targets, List.filterMap_append, List.mem_append]
      cases operation with
      | switchTask newTask now =>
          cases isCurrent
          exact .inr (by simp [ContextOperation.target])
      | recordDecision record now =>
          exact .inl (ih (by simpa [ContextOperation.apply, recordDecision] using isCurrent))
      | incrementReflection now =>
          exact .inl (ih (by simpa [ContextOperation.apply, incrementReflection] using isCurrent))
      | incrementRetry now => exact .inl (ih (by simpa [ContextOperation.apply, incrementRetry] using isCurrent))
      | destroy now => cases isCurrent

theorem recorded_run (started : Nat) (front : List (ContextOperation Record)) (record : Record) (now : Nat)
    (rest : List (ContextOperation Record)) {task : DecisionTaskId}
    (isCurrent : (run started front).currentTaskId = some task) :
    ∃ c, (run started (front ++ .recordDecision record now :: rest)).taskContexts task = some c ∧
      record ∈ c.decisions := by
  induction rest using List.reverseRecOn with
  | nil =>
      have known := (isSome_run started front task).mpr (current_run isCurrent)
      obtain ⟨c, found⟩ := Option.isSome_iff_exists.mp known
      refine ⟨c.addDecision record, ?_, List.mem_append_right c.decisions List.mem_cons_self⟩
      rw [run_concat]
      change ((run started front).updateCurrent (·.addDecision record)).taskContexts task = _
      rw [taskContexts_updateCurrent, if_pos isCurrent, found]
      rfl
  | append_singleton rest operation ih =>
      obtain ⟨c, found, member⟩ := ih
      rw [← List.cons_append, ← List.append_assoc, run_concat]
      obtain ⟨c', found', kept⟩ := decisions_apply operation found
      exact ⟨c', found', kept.subset member⟩

theorem orderly_iff (started : Nat) (operations : List (ContextOperation Record)) :
    Orderly started operations ↔ Attended (run started operations) := by
  constructor
  · exact fun orderly => orderly.toAttended
  · intro attended
    refine ⟨attended, ?_⟩
    rintro front record now rest task rfl isCurrent
    exact recorded_run started front record now rest isCurrent

/-- The contexts are in order throughout a run exactly if no task is switched to twice. -/
theorem run_orderly_iff (started : Nat) (operations : List (ContextOperation Record)) :
    (∀ front, front <+: operations → Orderly started front) ↔ (targets operations).Nodup := by
  induction operations using List.reverseRecOn with
  | nil =>
      refine iff_of_true ?_ List.nodup_nil
      intro front isPrefix
      rw [List.prefix_nil.mp isPrefix, orderly_iff]
      exact ⟨fun _ isCurrent => absurd isCurrent.symm (Option.some_ne_none _),
        fun _ _ found => absurd found.symm (Option.some_ne_none _)⟩
  | append_singleton operations operation ih =>
      have split : (∀ front, front <+: operations ++ [operation] → Orderly started front) ↔
          (∀ front, front <+: operations → Orderly started front) ∧
            Orderly started (operations ++ [operation]) := by
        simp only [List.prefix_concat_iff]
        exact ⟨fun all => ⟨fun front inside => all front (.inr inside), all _ (.inl rfl)⟩,
          fun both front isPrefix => isPrefix.elim (fun whole => whole ▸ both.2) (both.1 front)⟩
      have unknown (task : DecisionTaskId) : (run started operations).taskContexts task = none ↔
          task ∉ targets operations := by
        rw [← isSome_run started operations task]
        simp
      have distinct : (targets (operations ++ [operation])).Nodup ↔ (targets operations).Nodup ∧
          ∀ task, operation.target = some task → task ∉ targets operations := by
        cases target : operation.target with
        | none => simp [targets, target]
        | some task =>
            have appended : targets (operations ++ [operation]) = targets operations ++ [task] := by
              simp [targets, target]
            rw [appended, List.nodup_append_comm, List.singleton_append, List.nodup_cons, and_comm]
            simp
      rw [split, ih, distinct]
      refine and_congr_right fun nodup => ?_
      have before := (ih.mpr nodup) operations List.prefix_rfl
      rw [orderly_iff, run_concat, before.toAttended.apply_iff]
      simp only [unknown]

/-- The task at hand is switched to again, and its context is closed. -/
theorem same_task_closed :
    ¬ ∀ operations : List (ContextOperation Unit), ∀ front, front <+: operations → Orderly 0 front := by
  intro always
  have orderly := always [.switchTask "task-1" 0, .switchTask "task-1" 1] _ List.prefix_rfl
  obtain ⟨c, found, open_⟩ := orderly.current "task-1" rfl
  cases found
  exact Bool.noConfusion open_

end DecisionAgentState

end AgileAgent.Decision
