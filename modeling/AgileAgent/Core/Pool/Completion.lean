import AgileAgent.Backlog.Moves
import AgileAgent.Core.Pool.Calls

/-! # Completing tasks

Completing a task clears the slot and asks the backlog to move the task, but not whether it did.
The backlog moves running tasks only.
-/

namespace AgileAgent.Core

open Backlog RuntimeDomain
open Machine (final)

namespace TaskCompletionResult

/-- The task carries the result. -/
def Recorded (task : TaskItem) : TaskCompletionResult → Prop
  | .success => task.status = .done ∧ task.resultSummary.isSome
  | .failure error => task.status = .failed ∧ task.resultSummary = some error

/-- A task the backlog moves to the result, or one that is there already. -/
def Recordable (task : TaskItem) : TaskCompletionResult → Prop
  | .success => task.status = .running ∨ task.status = .verifying ∨ Recorded task .success
  | .failure error => task.status = .running ∨ Recorded task (.failure error)

end TaskCompletionResult

/-- A completion that returns a task records its result, and one that fails changes nothing. -/
def PoolState.Completes (s : PoolState) (agentId : AgentId) (result : TaskCompletionResult) : Prop :=
  let outcome := s.pool.completeTaskWithBacklog agentId result s.backlog
  match outcome.1 with
  | .ok taskId => ∃ task, outcome.2.2.findTask taskId = some task ∧ result.Recorded task
  | .error _ => outcome.2 = (s.pool, s.backlog)

theorem finishTask_recorded_iff (b : BacklogState) (taskId : TaskId) (result : TaskCompletionResult) :
    (∃ task, (WorkerPool.finishTask b taskId result).findTask taskId = some task ∧ result.Recorded task) ↔
      ∃ task, b.findTask taskId = some task ∧ result.Recordable task := by
  cases result with
  | success =>
      have moved := @BacklogState.findTask_moveTask b taskId [.running, .verifying]
        (fun task => { task with
          status := .done
          resultSummary := some "Task completed successfully" }) fun _ => rfl
      rw [WorkerPool.finishTask, BacklogState.completeTask, moved]
      cases found : b.findTask taskId with
      | none => simp
      | some task =>
          simp only [Option.map_some, Option.some.injEq, exists_eq_left', TaskCompletionResult.Recorded,
            TaskCompletionResult.Recordable]
          split
          · next moves =>
              rcases List.mem_cons.mp moves with running | verifying
              · simp [running]
              · simp [List.mem_singleton.mp verifying]
          · next stays =>
              rw [List.mem_cons, List.mem_singleton, not_or] at stays
              simp [stays]
  | failure error =>
      have moved := @BacklogState.findTask_moveTask b taskId [.running]
        (fun task => { task with status := .failed, resultSummary := some error }) fun _ => rfl
      rw [WorkerPool.finishTask, BacklogState.failTask, moved]
      cases found : b.findTask taskId with
      | none => simp
      | some task =>
          simp only [Option.map_some, Option.some.injEq, exists_eq_left', TaskCompletionResult.Recorded,
            TaskCompletionResult.Recordable]
          split
          · next moves => simp [List.mem_singleton.mp moves]
          · next stays =>
              rw [List.mem_singleton] at stays
              simp [stays]

/-- In every state of every run, a completion does what it returns exactly when the agent has no
    task or the backlog has that task running, or has its result already. -/
theorem completes_iff [Unicode] (p : WorkerPool) (b : BacklogState) (calls : List (PoolCall × Moment))
    (agentId : AgentId) (result : TaskCompletionResult) :
    let s := final PoolState.step ⟨p, b⟩ calls
    s.Completes agentId result ↔
      ∀ slot taskId, s.pool.getSlotById agentId = some slot → slot.assignedTaskId = some taskId →
        ∃ task, s.backlog.findTask taskId = some task ∧ result.Recordable task := by
  intro s
  unfold PoolState.Completes WorkerPool.completeTaskWithBacklog
  cases found : s.pool.getSlotById agentId with
  | none => simp
  | some slot =>
      cases assigned : slot.assignedTaskId with
      | none =>
          dsimp only
          rw [assigned]
          constructor
          · rintro - other taskId ⟨⟩ holds
            rw [assigned] at holds
            cases holds
          · exact fun _ => rfl
      | some taskId =>
          dsimp only
          rw [assigned]
          constructor
          · rintro recorded other taskId ⟨⟩ holds
            rw [assigned] at holds
            cases holds
            exact (finishTask_recorded_iff ..).mp recorded
          · intro records
            exact (finishTask_recorded_iff ..).mpr (records slot taskId rfl assigned)

section

open Plain

/-- The run of a task whose agent is blocked under `MarkWaiting` and goes on after the answer. -/
def waitingRun : PoolState :=
  final PoolState.step
    ⟨.withBlockedConfig 2 { taskPolicy := .markWaiting },
      { tasks := [⟨"task-1", "todo-1", "", "", [], [], .ready, none⟩] }⟩
    [(.spawnWorker, ⟨0, 0⟩), (.assignTaskWithBacklog "agent_001" "task-1", ⟨1, 1⟩),
      (.processAgentBlocked "agent_001" ⟨"human_decision", .high, none, {}, none⟩ "" "1" true, ⟨2, 2⟩),
      (.processHumanResponse ⟨"req-agent_001-1", .acceptedRecommendation, 3, 0⟩, ⟨3, 3⟩)]

/-- Its task is blocked in the backlog, and the completion is lost. -/
theorem waiting_task_not_completed : ¬ ∀ (p : WorkerPool) (b : BacklogState)
    (calls : List (PoolCall × Moment)) (agentId : AgentId) (result : TaskCompletionResult), p.New →
    (final PoolState.step ⟨p, b⟩ calls).Completes agentId result := by
  intro all
  have completes : waitingRun.Completes "agent_001" .success := by
    simp only [waitingRun, all, WorkerPool.New.withBlockedConfig]
  have returned : (waitingRun.pool.completeTaskWithBacklog "agent_001" .success waitingRun.backlog).1 =
      .ok "task-1" := by decide
  have lost : (waitingRun.pool.completeTaskWithBacklog "agent_001" .success
      waitingRun.backlog).2.2.findTask "task-1" =
        some ⟨"task-1", "todo-1", "", "", [], [], .blocked, some "agent_blocked"⟩ := by decide
  simp only [PoolState.Completes, returned] at completes
  obtain ⟨task, found, isDone, -⟩ := completes
  rw [lost] at found
  cases found
  cases isDone

end

end AgileAgent.Core
