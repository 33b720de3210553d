import Mathlib.Data.List.Nodup
import Mathlib.Data.List.Count
import AgileAgent.Core.Loop.Turns

/-! # The guardrails of the loop

How many tasks a run takes up, how often it starts the provider for each, and after which failed
verification it stops. Every run ends within steps that depend on the guardrails alone.
-/

namespace AgileAgent.Core.Loop

open Backlog RuntimeDomain Fallible

/-! ## Logs -/

namespace LoopEvent

def taken? : LoopEvent → Option Nat
  | tookUp task => some task
  | started _ _ _ | resolved _ => none

def started? : LoopEvent → Option Nat
  | started task _ _ => some task
  | tookUp _ | resolved _ => none

def isFailure : LoopEvent → Bool
  | resolved .verificationFailed => true
  | resolved _ | tookUp _ | started _ _ _ => false

end LoopEvent

/-- The tasks that were taken up, by their places in the backlog. -/
def tasksTaken (log : List LoopEvent) : List Nat := log.filterMap LoopEvent.taken?

/-- The tasks for which the provider was started, each as often as it was. -/
def tasksStarted (log : List LoopEvent) : List Nat := log.filterMap LoopEvent.started?

def verificationFailures (log : List LoopEvent) : Nat := log.countP LoopEvent.isFailure

/-- No task is taken up twice, and the provider is started only for tasks that are, for each no
    more often than it has continuations and once. -/
structure Counted (guardrails : LoopGuardrails) (log : List LoopEvent) : Prop where
  distinct : (tasksTaken log).Nodup
  taken : ∀ task ∈ tasksStarted log, task ∈ tasksTaken log
  started : ∀ task, (tasksStarted log).count task ≤ guardrails.maxContinuationsPerTask.toNat + 1

/-- Nothing follows the failed verification that reaches the limit. -/
def Stops (limit : Nat) (log : List LoopEvent) : Prop :=
  ∀ before after, log = before ++ .resolved .verificationFailed :: after →
    limit ≤ verificationFailures before + 1 → after = []

structure Guarded (guardrails : LoopGuardrails) (log : List LoopEvent) : Prop
    extends Counted guardrails log where
  tasks : (tasksTaken log).length ≤ guardrails.maxIterations
  stops : Stops guardrails.maxVerificationFailures log

/-- The provider is started only for a task that is under way, after a message of the loop. -/
def AllReady (log : List LoopEvent) : Prop :=
  ∀ task before stream, .started task before stream ∈ log → Ready before

section

variable {guardrails : LoopGuardrails} {log log' : List LoopEvent} {task limit : Nat}

theorem AllReady.concat (ready : AllReady log) {event : LoopEvent} (other : event.started? = none) :
    AllReady (log ++ [event]) := by
  intro task before stream member
  rcases List.mem_append.mp member with old | new
  · exact ready task before stream old
  · obtain rfl := List.mem_singleton.mp new
    cases other

theorem AllReady.turns (ready : AllReady log) {bound : Nat} (turns : Starts task bound log log') :
    AllReady log' := by
  obtain ⟨events, rfl, -, each⟩ := turns
  intro task' before stream member
  rcases List.mem_append.mp member with old | new
  · exact ready task' before stream old
  · obtain ⟨before', stream', same, isReady⟩ := each _ new
    cases same
    exact isReady

theorem Counted.nil : Counted guardrails [] := ⟨by simp [tasksTaken], by simp [tasksStarted], by simp [tasksStarted]⟩

theorem Counted.tookUp (counted : Counted guardrails log) (new : task ∉ tasksTaken log) :
    Counted guardrails (log ++ [.tookUp task]) := by
  have taken : tasksTaken (log ++ [.tookUp task]) = tasksTaken log ++ [task] := by
    simp [tasksTaken, LoopEvent.taken?]
  have started : tasksStarted (log ++ [.tookUp task]) = tasksStarted log := by
    simp [tasksStarted, LoopEvent.started?]
  refine ⟨?_, fun other member => ?_, fun other => started ▸ counted.started other⟩
  · rw [taken]
    exact counted.distinct.append (List.nodup_singleton task) (by simpa using new)
  · rw [taken]
    exact List.mem_append_left _ (counted.taken other (started ▸ member))

theorem Counted.resolved (counted : Counted guardrails log) (outcome : LoopExecutionOutcome) :
    Counted guardrails (log ++ [.resolved outcome]) := by
  have taken : tasksTaken (log ++ [.resolved outcome]) = tasksTaken log := by
    simp [tasksTaken, LoopEvent.taken?]
  have started : tasksStarted (log ++ [.resolved outcome]) = tasksStarted log := by
    simp [tasksStarted, LoopEvent.started?]
  exact ⟨taken ▸ counted.distinct, taken ▸ started ▸ counted.taken, started ▸ counted.started⟩

/-- The starts of a task that was just taken up. -/
theorem Counted.turns (counted : Counted guardrails log) {bound : Nat}
    (few : bound ≤ guardrails.maxContinuationsPerTask.toNat + 1) (isTaken : task ∈ tasksTaken log)
    (fresh : task ∉ tasksStarted log) (turns : Starts task bound log log') :
    Counted guardrails log' ∧ tasksTaken log' = tasksTaken log ∧
      verificationFailures log' = verificationFailures log := by
  obtain ⟨events, rfl, bounded, each⟩ := turns
  have taken : tasksTaken (log ++ events) = tasksTaken log := by
    have none : events.filterMap LoopEvent.taken? = [] :=
      List.filterMap_eq_nil_iff.mpr fun event member => by
        obtain ⟨before, stream, rfl, -⟩ := each event member
        rfl
    simp [tasksTaken, none]
  have failures : verificationFailures (log ++ events) = verificationFailures log := by
    have none : events.countP LoopEvent.isFailure = 0 :=
      List.countP_eq_zero.mpr fun event member => by
        obtain ⟨before, stream, rfl, -⟩ := each event member
        simp [LoopEvent.isFailure]
    simp [verificationFailures, none]
  have started : tasksStarted (log ++ events) = tasksStarted log ++ List.replicate events.length task := by
    have all : events.filterMap LoopEvent.started? = List.replicate events.length task := by
      rw [← List.map_const', ← List.filterMap_eq_map]
      refine List.filterMap_congr fun event member => ?_
      obtain ⟨before, stream, rfl, -⟩ := each event member
      rfl
    simp [tasksStarted, all]
  refine ⟨⟨taken ▸ counted.distinct, fun other member => ?_, fun other => ?_⟩, taken, failures⟩
  · rw [started, List.mem_append] at member
    rw [taken]
    rcases member with old | new
    · exact counted.taken other old
    · exact List.eq_of_mem_replicate new ▸ isTaken
  · rw [started, List.count_append, List.count_replicate]
    by_cases same : task = other
    · subst same
      simpa [List.count_eq_zero.mpr fresh] using bounded.trans few
    · simpa [same] using counted.started other

theorem Counted.fresh (counted : Counted guardrails log) (new : task ∉ tasksTaken log) :
    task ∉ tasksStarted log := fun started => new (counted.taken task started)

/-! ## The limit of failures -/

/-- No failed verification has reached the limit so far. -/
def Below (limit : Nat) (log : List LoopEvent) : Prop :=
  verificationFailures log = 0 ∨ verificationFailures log < limit

theorem Below.absurd (below : Below limit log) {before after : List LoopEvent}
    (split : log = before ++ .resolved .verificationFailed :: after)
    (reached : limit ≤ verificationFailures before + 1) : False := by
  have counts : verificationFailures log = verificationFailures before + 1 + verificationFailures after := by
    rw [split, verificationFailures, List.countP_append, List.countP_cons]
    simp [verificationFailures, LoopEvent.isFailure]
    omega
  rcases below with none | less
  · omega
  · omega

theorem Below.stops (below : Below limit log) : Stops limit log := fun _ _ split reached =>
  (below.absurd split reached).elim

theorem Below.stops_last (below : Below limit log) (event : LoopEvent) : Stops limit (log ++ [event]) := by
  intro before after split reached
  rcases List.eq_nil_or_concat after with none | ⟨after', last, rfl⟩
  · exact none
  · have earlier : log = before ++ .resolved .verificationFailed :: after' := by
      rw [List.concat_eq_append, ← List.cons_append, ← List.append_assoc] at split
      exact (List.append_inj' split rfl).1
    exact (below.absurd earlier reached).elim

end

/-! ## Taking up tasks -/

variable (host : Host)

theorem beginTaskFromTodo_ends (todoId : String) (s : LoopState) :
    Ends (beginTaskFromTodo host todoId) s
      (fun begun s' => s'.log = s.log ∧ ∀ task, begun = some task →
        currentActiveTask s'.app ≠ none ∧
          s'.app.backlog.tasks.length = s.app.backlog.tasks.length + 1)
      fun _ _ => False := by
  rw [beginTaskFromTodo, ends_bind, ends_nextCall, ends_bind, ends_get]
  cases s.app.backlog.findTodo todoId with
  | none => exact ⟨rfl, by simp⟩
  | some todo =>
      dsimp only
      rw [ends_bind, ends_update]
      refine ⟨rfl, fun task begun => ⟨?_, ?_⟩⟩
      · simp [currentActiveTask, BacklogState.findTask, BacklogState.pushTask, BacklogState.updateTodo]
      · simp [BacklogState.pushTask, BacklogState.updateTodo]

/-- The task that is taken up: the active one, or else one that is new in the backlog. -/
theorem takeTask_ends (s : LoopState) :
    Ends (takeTask host) s
      (fun found s' => match found with
        | none => s'.log = s.log
        | some (_, position) => s'.log = s.log ++ [.tookUp position] ∧ Ready s'.app ∧
            position < s'.app.backlog.tasks.length ∧
            s.app.backlog.tasks.length ≤ s'.app.backlog.tasks.length ∧
            (currentActiveTask s.app = none → position = s.app.backlog.tasks.length))
      fun error s' => (∃ message, error = .failed message) ∧
        (s'.log = s.log ∨ currentActiveTask s.app = none ∧
          s'.log = s.log ++ [.tookUp s.app.backlog.tasks.length]) := by
  rw [takeTask, ends_bind, ends_get]
  cases active : currentActiveTask s.app with
  | some task =>
      dsimp only
      rw [ends_bind, ends_record, ends_bind, ends_update]
      obtain ⟨taskId, -, found⟩ := Option.bind_eq_some_iff.mp active
      refine ⟨rfl, ⟨⟨task, active⟩, AppState.endsSaying_push _ _⟩, ?_, Nat.le_refl _, by simp⟩
      exact List.findIdx_lt_length_of_exists ⟨task, List.mem_of_find?_eq_some found, by simp⟩
  | none =>
      dsimp only
      cases s.app.nextReadyTodoId with
      | none =>
          dsimp only
          rw [ends_bind, ends_update]
          exact rfl
      | some todoId =>
          dsimp only
          rw [ends_bind, ends_update]
          refine (beginTaskFromTodo_ends host todoId _).andThen (fun begun s₁ started => ?_)
            fun _ _ never => never.elim
          cases begun with
          | none => exact ⟨⟨_, rfl⟩, .inl started.1⟩
          | some task =>
              obtain ⟨some_active, longer⟩ := started.2 task rfl
              dsimp only
              rw [ends_bind, ends_record, ends_bind, ends_update]
              refine (onStateChange_ends host).andThen (fun _ s₂ hooked => ?_)
                fun error s₂ failed => ⟨failed.1, .inr ⟨rfl, ?_⟩⟩
              · refine ⟨by rw [hooked.2, started.1], ?_, ?_, ?_, fun _ => rfl⟩
                · rw [hooked.1]
                  exact ⟨Option.ne_none_iff_exists'.mp some_active, AppState.endsSaying_push _ _⟩
                · rw [hooked.1]
                  exact Nat.lt_of_lt_of_eq (Nat.lt_succ_self _) longer.symm
                · rw [hooked.1]
                  exact Nat.le_of_lt (Nat.lt_of_lt_of_eq (Nat.lt_succ_self _) longer.symm)
              · rw [failed.2.2, started.1]

/-! ## Runs -/

/-- The log of a run that has not reached a limit. -/
structure Tally (guardrails : LoopGuardrails) (log : List LoopEvent) (iterations failures : Nat) : Prop
    extends Counted guardrails log where
  count : (tasksTaken log).length = iterations
  few : iterations ≤ guardrails.maxIterations
  failures : verificationFailures log = failures
  below : Below guardrails.maxVerificationFailures log
  ready : AllReady log

/-- The loop between two tasks. -/
structure Between (s : LoopState) : Prop where
  resolved : tasksTaken s.log ≠ [] → currentActiveTask s.app = none
  placed : ∀ task ∈ tasksTaken s.log, task < s.app.backlog.tasks.length

/-- The task that is taken up next is a new one. -/
theorem Between.new {s : LoopState} {position : Nat} (between : Between s)
    (placed : currentActiveTask s.app = none → position = s.app.backlog.tasks.length) :
    position ∉ tasksTaken s.log := by
  intro taken
  have none := between.resolved (List.ne_nil_of_mem taken)
  exact absurd (between.placed position taken) (by simp [placed none])

@[simp] theorem tasksTaken_tookUp (log : List LoopEvent) (task : Nat) :
    tasksTaken (log ++ [.tookUp task]) = tasksTaken log ++ [task] := by
  simp [tasksTaken, LoopEvent.taken?]

@[simp] theorem tasksTaken_resolved (log : List LoopEvent) (outcome : LoopExecutionOutcome) :
    tasksTaken (log ++ [.resolved outcome]) = tasksTaken log := by
  simp [tasksTaken, LoopEvent.taken?]

@[simp] theorem verificationFailures_concat (log : List LoopEvent) (event : LoopEvent) :
    verificationFailures (log ++ [event]) =
      verificationFailures log + if event.isFailure then 1 else 0 := by
  simp [verificationFailures, List.countP_append, List.countP_cons]

namespace Tally

variable {guardrails : LoopGuardrails} {log log' : List LoopEvent}
  {iterations failures bound position : Nat}

theorem guarded (tally : Tally guardrails log iterations failures) :
    Guarded guardrails log ∧ AllReady log :=
  ⟨⟨tally.toCounted, tally.count ▸ tally.few, tally.below.stops⟩, tally.ready⟩

theorem tookUp (tally : Tally guardrails log iterations failures)
    (less : iterations < guardrails.maxIterations) (new : position ∉ tasksTaken log) :
    Tally guardrails (log ++ [.tookUp position]) (iterations + 1) failures where
  toCounted := tally.toCounted.tookUp new
  count := by simp [tally.count]
  few := less
  failures := by simp [LoopEvent.isFailure, tally.failures]
  below := by simpa [Below, LoopEvent.isFailure] using tally.below
  ready := tally.ready.concat rfl

theorem turns (tally : Tally guardrails log iterations failures)
    (few : bound ≤ guardrails.maxContinuationsPerTask.toNat + 1) (isTaken : position ∈ tasksTaken log)
    (fresh : position ∉ tasksStarted log) (turns : Starts position bound log log') :
    Tally guardrails log' iterations failures ∧ tasksTaken log' = tasksTaken log := by
  obtain ⟨counted, taken, same⟩ := tally.toCounted.turns few isTaken fresh turns
  refine ⟨⟨counted, taken ▸ tally.count, tally.few, same.trans tally.failures, ?_,
    tally.ready.turns turns⟩, taken⟩
  simpa [Below, same] using tally.below

theorem resolved (tally : Tally guardrails log iterations failures) {outcome : LoopExecutionOutcome}
    (failures' : Nat) (counts : verificationFailures (log ++ [.resolved outcome]) = failures')
    (below : Below guardrails.maxVerificationFailures (log ++ [.resolved outcome])) :
    Tally guardrails (log ++ [.resolved outcome]) iterations failures' where
  toCounted := tally.toCounted.resolved outcome
  count := by simp [tally.count]
  few := tally.few
  failures := counts
  below := below
  ready := tally.ready.concat rfl

/-- The limit of failures ends the log. -/
theorem guarded_resolved (tally : Tally guardrails log iterations failures)
    (outcome : LoopExecutionOutcome) :
    Guarded guardrails (log ++ [.resolved outcome]) ∧ AllReady (log ++ [.resolved outcome]) :=
  ⟨⟨tally.toCounted.resolved outcome, by simpa [tally.count] using tally.few,
    tally.below.stops_last _⟩, tally.ready.concat rfl⟩

end Tally

variable [Unicode]

/-- A task that was just taken up. -/
theorem executeTask_ends {guardrails : LoopGuardrails} {turns iterations failures position : Nat}
    {s : LoopState} (task : TaskItem) (enoughTurns : guardrails.maxContinuationsPerTask.toNat + 1 ≤ turns)
    (ready : Ready s.app) (tally : Tally guardrails s.log iterations failures)
    (isTaken : position ∈ tasksTaken s.log) (fresh : position ∉ tasksStarted s.log) :
    Ends (executeTaskUntilResolution host position task guardrails turns) s
      (fun _ s' => Tally guardrails s'.log iterations failures ∧ tasksTaken s'.log = tasksTaken s.log ∧
        currentActiveTask s'.app = none ∧
        s'.app.backlog.tasks.length = s.app.backlog.tasks.length)
      fun error s' => (∃ message, error = .failed message) ∧
        Guarded guardrails s'.log ∧ AllReady s'.log := by
  have few : turnsLeft { maxContinuationsPerTask := guardrails.maxContinuationsPerTask } s.app ≤
      guardrails.maxContinuationsPerTask.toNat + 1 := by
    simp [turnsLeft]
  refine (takeTurns_ends host position _ turns _ s ready (few.trans enoughTurns)).mono
    (fun _ s' ended => ?_) fun error s' failed => ⟨failed.1, ?_⟩
  · obtain ⟨tally', taken⟩ := tally.turns few isTaken fresh ended.1
    exact ⟨tally', taken, ended.2⟩
  · exact (tally.turns few isTaken fresh failed.2).1.guarded

theorem runLoopFrom_ends (guardrails : LoopGuardrails) (turns steps iterations failures : Nat)
    (s : LoopState) (enoughTurns : guardrails.maxContinuationsPerTask.toNat + 1 ≤ turns)
    (enough : guardrails.maxIterations - iterations + 1 ≤ steps) (between : Between s)
    (tally : Tally guardrails s.log iterations failures) :
    Ends (runLoopFrom host guardrails turns steps iterations failures) s
      (fun summary s' => (Guarded guardrails s'.log ∧ AllReady s'.log) ∧
        summary.iterations = (tasksTaken s'.log).length ∧
        summary.verificationFailures = verificationFailures s'.log)
      fun error s' => (∃ message, error = .failed message) ∧
        Guarded guardrails s'.log ∧ AllReady s'.log := by
  induction steps generalizing iterations failures s with
  | zero => omega
  | succ steps ih =>
      rw [runLoopFrom]
      by_cases limit : iterations ≥ guardrails.maxIterations
      · rw [if_pos limit, ends_bind, ends_update, ends_bind, ends_update]
        exact ⟨tally.guarded, tally.count.symm, tally.failures.symm⟩
      · have less : iterations < guardrails.maxIterations := Nat.lt_of_not_ge limit
        rw [if_neg limit]
        refine (takeTask_ends host s).andThen (fun found s₁ took => ?_) fun error s₁ failed => ⟨failed.1, ?_⟩
        · cases found with
          | none =>
              dsimp only at took ⊢
              rw [ends_pure, took]
              exact ⟨tally.guarded, tally.count.symm, tally.failures.symm⟩
          | some found =>
              obtain ⟨task, position⟩ := found
              dsimp only at took ⊢
              obtain ⟨log₁, ready, placed, longer, newest⟩ := took
              have new := between.new newest
              have tally₁ := log₁ ▸ tally.tookUp less new
              have isTaken : position ∈ tasksTaken s₁.log := by simp [log₁]
              have fresh : position ∉ tasksStarted s₁.log := by
                simpa [log₁, tasksStarted, LoopEvent.started?] using tally.toCounted.fresh new
              refine (executeTask_ends host task enoughTurns ready tally₁ isTaken fresh).andThen
                (fun outcome s₂ executed => ?_) fun error s₂ failed => failed
              obtain ⟨tally₂, taken, done, length⟩ := executed
              rw [ends_bind, ends_record]
              have between₂ (outcome : LoopExecutionOutcome) :
                  Between { s₂ with log := s₂.log ++ [.resolved outcome] } := by
                refine ⟨fun _ => done, fun other member => ?_⟩
                rw [tasksTaken_resolved, taken, log₁, tasksTaken_tookUp, List.mem_append] at member
                rw [length]
                rcases member with old | new
                · exact (between.placed other old).trans_le longer
                · exact List.mem_singleton.mp new ▸ placed
              have counts : verificationFailures (s₂.log ++ [.resolved outcome]) =
                  failures + if outcome = .verificationFailed then 1 else 0 := by
                rw [verificationFailures_concat, tally₂.failures]
                cases outcome <;> rfl
              have iterated : iterations + 1 =
                  (tasksTaken (s₂.log ++ [.resolved outcome])).length := by
                rw [tasksTaken_resolved, tally₂.count]
              by_cases failed : outcome = .verificationFailed
              · rw [if_pos failed] at counts ⊢
                by_cases reached : failures + 1 ≥ guardrails.maxVerificationFailures
                · rw [if_pos reached, ends_bind, ends_update, ends_bind, ends_update]
                  exact ⟨tally₂.guarded_resolved outcome, iterated, counts.symm⟩
                · rw [if_neg reached]
                  refine ih (iterations + 1) (failures + 1) _ (by omega) (between₂ outcome) ?_
                  exact tally₂.resolved _ counts (.inr (by omega))
              · rw [if_neg failed] at counts ⊢
                refine ih (iterations + 1) failures _ (by omega) (between₂ outcome) ?_
                refine tally₂.resolved _ counts ?_
                simpa [Below, counts, ← tally₂.failures] using tally₂.below
        · rcases failed.2 with same | ⟨none, log₁⟩
          · exact same ▸ tally.guarded
          · exact log₁ ▸ (tally.tookUp less (between.new fun _ => rfl)).guarded

/-! ## More steps -/

theorem takeTurns_outlasts (position : Nat) (guardrails : ExecutionGuardrails) {steps steps' : Nat}
    (more : steps ≤ steps') (prompt : String) :
    Outlasts .unfinished (takeTurns host position guardrails steps prompt)
      (takeTurns host position guardrails steps' prompt) := by
  induction steps generalizing steps' prompt with
  | zero => exact .stopped _
  | succ steps ih =>
      obtain ⟨steps', rfl⟩ := Nat.exists_eq_add_of_le' (Nat.le_trans (Nat.le_add_left 1 steps) more)
      rw [takeTurns, takeTurns]
      refine .andThen _ fun _ => .andThen _ fun _ => .andThen _ fun _ => .andThen _ fun _ => ?_
      refine .andThen _ fun stream => ?_
      cases stream with
      | error err => exact .refl _
      | ok events =>
          refine .andThen _ fun _ => .andThen _ fun resolution => .andThen _ fun _ => ?_
          cases resolution with
          | «continue» prompt' => exact ih (Nat.le_of_succ_le_succ more) prompt'
          | failed verificationFailed => cases verificationFailed <;> exact .refl _
          | completed | escalated | idle => exact .refl _

theorem runLoopFrom_outlasts (guardrails : LoopGuardrails) {turns turns' steps steps' : Nat}
    (moreTurns : turns ≤ turns') (more : steps ≤ steps') (iterations failures : Nat) :
    Outlasts .unfinished (runLoopFrom host guardrails turns steps iterations failures)
      (runLoopFrom host guardrails turns' steps' iterations failures) := by
  induction steps generalizing steps' iterations failures with
  | zero => exact .stopped _
  | succ steps ih =>
      obtain ⟨steps', rfl⟩ := Nat.exists_eq_add_of_le' (Nat.le_trans (Nat.le_add_left 1 steps) more)
      have fewer := Nat.le_of_succ_le_succ more
      rw [runLoopFrom, runLoopFrom]
      split
      · exact .refl _
      · refine .andThen _ fun found => ?_
        cases found with
        | none => exact .refl _
        | some found =>
            refine .bind (takeTurns_outlasts host found.2 _ moreTurns _) fun outcome => .andThen _ fun _ => ?_
            split
            · split
              · exact .refl _
              · exact ih fewer _ _
            · exact ih fewer _ _

/-- Steps that every run of the loop ends within. -/
def neededSteps (guardrails : LoopGuardrails) : Nat :=
  max guardrails.maxIterations guardrails.maxContinuationsPerTask.toNat + 1

/-- The complete run of the loop. -/
theorem runLoop_ends (guardrails : LoopGuardrails) (app : AppState) :
    Ends (runLoop host guardrails (neededSteps guardrails)) { app }
      (fun summary s' => (Guarded guardrails s'.log ∧ AllReady s'.log) ∧
        summary.iterations = (tasksTaken s'.log).length ∧
        summary.verificationFailures = verificationFailures s'.log)
      fun error s' => (∃ message, error = .failed message) ∧
        Guarded guardrails s'.log ∧ AllReady s'.log :=
  runLoopFrom_ends host guardrails (neededSteps guardrails) (neededSteps guardrails) 0 0 { app }
    (by simp [neededSteps]) (by simp [neededSteps]) ⟨by simp [tasksTaken], by simp [tasksTaken]⟩
    ⟨.nil, rfl, Nat.zero_le _, rfl, .inl rfl, by simp [AllReady]⟩

/-- Every run ends within its guardrails, whatever the host answers. It fails only by an error
    that it passes on, never by a counter, and more steps change nothing. -/
theorem runLoop_guarded (guardrails : LoopGuardrails) (app : AppState) (steps : Nat) :
    runLoop host guardrails (neededSteps guardrails + steps) { app } =
        runLoop host guardrails (neededSteps guardrails) { app } ∧
      Ends (runLoop host guardrails (neededSteps guardrails)) { app }
        (fun summary s' => Guarded guardrails s'.log ∧
          summary.iterations = (tasksTaken s'.log).length ∧
          summary.verificationFailures = verificationFailures s'.log)
        fun error s' => (∃ message, error = .failed message) ∧ Guarded guardrails s'.log := by
  have ends := runLoop_ends host guardrails app
  have more := Nat.le_add_right (neededSteps guardrails) steps
  refine ⟨(runLoopFrom_outlasts host guardrails more more 0 0).eq_of_ends ends (by simp), ?_⟩
  exact ends.mono (fun summary s' ended => ⟨ended.1.1, ended.2⟩) fun error s' failed => ⟨failed.1, failed.2.1⟩

end AgileAgent.Core.Loop
