import Mathlib.Data.List.Nodup
import AgileAgent.FirstMatch
import AgileAgent.Backlog.BacklogState

/-! # Moves of tasks

What the four moves of a task do to the task that is found under its id, and to the others.
-/

namespace AgileAgent.Backlog.BacklogState

variable {b : BacklogState} {taskId other : String} {allowed : List TaskStatus}
  {change : TaskItem → TaskItem}

theorem updateTask_eq_modify (taskId : String) (change : TaskItem → TaskItem) (tasks : List TaskItem) :
    updateTask taskId change tasks = FirstMatch.modify (fun task => task.id = taskId) change tasks := by
  induction tasks with
  | nil => rfl
  | cons task tasks ih => simp [updateTask, FirstMatch.modify, ih]

theorem findTask_id {task : TaskItem} (found : b.findTask taskId = some task) : task.id = taskId := by
  simpa using List.find?_some found

theorem findTask_moveTask (same : ∀ task, (change task).id = task.id) :
    (b.moveTask taskId allowed change).2.findTask taskId =
      (b.findTask taskId).map fun task => if task.status ∈ allowed then change task else task := by
  unfold moveTask
  cases found : b.findTask taskId with
  | none => simpa using found
  | some task =>
      dsimp only
      split
      · next isAllowed =>
          simp only [findTask, updateTask_eq_modify]
          rw [FirstMatch.find?_modify (by simp [same])]
          have := found
          rw [findTask] at this
          simp [this, isAllowed]
      · next barred => simpa [barred] using found

theorem findTask_moveTask_ne (same : ∀ task, (change task).id = task.id) (differs : other ≠ taskId) :
    (b.moveTask taskId allowed change).2.findTask other = b.findTask other := by
  unfold moveTask
  split
  · split
    · simp only [findTask, updateTask_eq_modify]
      refine FirstMatch.find?_modify_of_ne fun task isTask => ?_
      simp only [decide_eq_true_eq] at isTask
      simp [same, isTask, Ne.symm differs]
    · rfl
  · rfl

theorem moveTask_ids (same : ∀ task, (change task).id = task.id) :
    (b.moveTask taskId allowed change).2.tasks.map TaskItem.id = b.tasks.map TaskItem.id := by
  unfold moveTask
  split
  · split
    · rw [updateTask_eq_modify, FirstMatch.map_modify same]
    · rfl
  · rfl

theorem findTask_of_mem (distinct : (b.tasks.map TaskItem.id).Nodup) {task : TaskItem}
    (member : task ∈ b.tasks) : b.findTask task.id = some task := by
  cases found : b.findTask task.id with
  | none =>
      rw [findTask, List.find?_eq_none] at found
      exact absurd (found task member) (by simp)
  | some other =>
      rw [List.inj_on_of_nodup_map distinct (List.mem_of_find?_eq_some found) member (findTask_id found)]

end AgileAgent.Backlog.BacklogState
