import AgileAgent.Kanban.DecisionKanban

/-! # Reports on selected tasks

A report that says it synced has moved the element that it was linked to, and has asked the
backlog to move the task. Both are the ones that were meant when the link leads to the element
the task was selected from and the backlog allows the move.
-/

namespace AgileAgent.Kanban

open KanbanElementRepository LawfulRepository KanbanService AgileAgent.Backlog DecisionKanbanIntegration

variable {R : Type} [KanbanElementRepository R]

/-- The first of some elements that `update_status` moves. -/
inductive MovesFirst (registry : TransitionRegistry) (newStatus : Status) : List ElementId → R → ElementId → Prop
  | here {id : ElementId} {rest : List ElementId} {r next : R} {e : KanbanElement}
      (moves : updateStatus registry id newStatus r = .ok e next) :
      MovesFirst registry newStatus (id :: rest) r id
  | later {id other : ElementId} {rest : List ElementId} {r next : R} {error : KanbanError}
      (stays : updateStatus registry id newStatus r = .error error next)
      (first : MovesFirst registry newStatus rest next other) :
      MovesFirst registry newStatus (id :: rest) r other

section

variable {registry : TransitionRegistry} {newStatus : Status} {id other : ElementId} {rest : List ElementId}
  {r next : R}

theorem MovesFirst.nil : ¬ MovesFirst registry newStatus [] r other := by
  intro first
  cases first

theorem MovesFirst.ok {e : KanbanElement} (called : updateStatus registry id newStatus r = .ok e next) :
    MovesFirst registry newStatus (id :: rest) r other ↔ other = id := by
  refine ⟨fun first => ?_, fun same => ?_⟩
  · cases first with
    | here _ => rfl
    | later stays _ => cases called.symm.trans stays
  · rw [same]
    exact .here called

theorem MovesFirst.error {error : KanbanError}
    (called : updateStatus registry id newStatus r = .error error next) :
    MovesFirst registry newStatus (id :: rest) r other ↔ MovesFirst registry newStatus rest next other := by
  refine ⟨fun first => ?_, .later called⟩
  cases first with
  | here moves => cases called.symm.trans moves
  | later stays first =>
      cases called.symm.trans stays
      exact first

end

/-- One element gets a status and all others stay as they are. -/
def Shifts (id : ElementId) (newStatus : Status) (before after : Board) : Prop :=
  (∃ e, after id = some e ∧ e.status = newStatus) ∧ ∀ other, other ≠ id → after other = before other

section

variable [lawful : LawfulRepository R] (registry : TransitionRegistry) (newStatus : Status)

theorem updateStatus_shifts {id : ElementId} {r next : R} {e : KanbanElement}
    (moves : updateStatus registry id newStatus r = .ok e next) : Shifts id newStatus (board r) (board next) := by
  have effect : Effect r (.updateStatus id newStatus) (board next) := by
    have performs := updateStatus_effect r registry id newStatus
    rwa [Performs, moves] at performs
  generalize board next = b at effect ⊢
  cases effect with
  | moved found made _ =>
      exact ⟨⟨_, by simp, (KanbanElement.transition_status made).2⟩, fun other differs => by simp [differs]⟩

theorem updateStatus_stays {id : ElementId} {r next : R} {error : KanbanError}
    (stays : updateStatus registry id newStatus r = .error error next) : board next = board r := by
  have effect := updateStatus_effect r registry id newStatus
  rwa [Performs, stays] at effect

/-- The loop of a completion, told by the first element that moves. -/
theorem firstMoved_cases (ids : List ElementId) (r : R) :
    (∃ id next, firstMoved registry newStatus ids r = (some id, next) ∧
      Shifts id newStatus (board r) (board next) ∧
      ∀ other, MovesFirst registry newStatus ids r other ↔ other = id) ∨
    ∃ next, firstMoved registry newStatus ids r = (none, next) ∧ board next = board r ∧
      ∀ other, ¬ MovesFirst registry newStatus ids r other := by
  induction ids generalizing r with
  | nil =>
      exact .inr ⟨r, rfl, rfl, fun _ => MovesFirst.nil⟩
  | cons id rest ih =>
      cases called : updateStatus registry id newStatus r with
      | ok e next =>
          exact .inl ⟨id, next, by simp [firstMoved, called], updateStatus_shifts registry newStatus called,
            fun _ => MovesFirst.ok called⟩
      | error error next =>
          have same := updateStatus_stays registry newStatus called
          rcases ih next with ⟨moved, last, found, shifts, only⟩ | ⟨last, none, kept, never⟩
          · refine .inl ⟨moved, last, by simp [firstMoved, called, found], same ▸ shifts, fun other => ?_⟩
            rw [MovesFirst.error called, only]
          · refine .inr ⟨last, by simp [firstMoved, called, none], kept.trans same, fun other => ?_⟩
            rw [MovesFirst.error called]
            exact never other

end

/-- The element that a report is linked to can be moved: the one the task is mapped to, or for a
    completion the first task with its title that can. -/
def Links (registry : TransitionRegistry) (report : Report) (taskId : String) (s : Selection R)
    (kanbanId : ElementId) : Prop :=
  ∃ r, s.integration.kanban = some r ∧
    match s.integration.findKanbanId taskId, report with
    | some linked, _ => MovesFirst registry report.status [linked] r kanbanId
    | none, .completion => ∃ task elements next, s.backlog.findTask taskId = some task ∧
        list r = .ok elements next ∧ MovesFirst registry .done (titled task elements) next kanbanId
    | none, .failure _ => False

namespace Report

/-- The backlog after it was asked to move a task. -/
def move (report : Report) (backlog : BacklogState) (taskId : String) : BacklogState :=
  match report with
  | .completion => (backlog.completeTask taskId (some "Completed successfully")).2
  | .failure error => (backlog.failTask taskId error).2

/-- What the backlog does to a task that it moves. -/
def change : Report → TaskItem → TaskItem
  | .completion, task => { task with status := .done, resultSummary := some "Completed successfully" }
  | .failure error, task => { task with status := .failed, resultSummary := some error }

theorem move_eq (report : Report) (backlog : BacklogState) (taskId : String) :
    report.move backlog taskId = (backlog.moveTask taskId report.movable report.change).2 := by
  cases report <;> rfl

@[simp] theorem change_id (report : Report) (task : TaskItem) : (report.change task).id = task.id := by
  cases report <;> rfl

@[simp] theorem change_status (report : Report) (task : TaskItem) :
    (report.change task).status = report.taskStatus := by
  cases report <;> rfl

theorem taskStatus_not_movable (report : Report) : report.taskStatus ∉ report.movable := by
  cases report <;> simp [taskStatus, movable]

/-- The task ends in the reported status if it was allowed to move there, or was there. -/
theorem findTask_move (report : Report) (backlog : BacklogState) (taskId : String) :
    (∃ task, (report.move backlog taskId).findTask taskId = some task ∧ task.status = report.taskStatus) ↔
      ∃ task, backlog.findTask taskId = some task ∧
        (task.status ∈ report.movable ∨ task.status = report.taskStatus) := by
  rw [move_eq, BacklogState.findTask_moveTask report.change_id]
  cases backlog.findTask taskId with
  | none => simp
  | some task => by_cases allowed : task.status ∈ report.movable <;> simp [allowed]

theorem move_eq_self (report : Report) (backlog : BacklogState) (taskId : String) :
    report.move backlog taskId = backlog ↔
      ∀ task, backlog.findTask taskId = some task → task.status ∉ report.movable := by
  constructor
  · intro same task found allowed
    have moved : (backlog.moveTask taskId report.movable report.change).2.findTask taskId = _ :=
      BacklogState.findTask_moveTask report.change_id
    rw [← move_eq, same, found] at moved
    have status := congrArg TaskItem.status (Option.some.inj moved)
    simp only [allowed, ↓reduceIte, change_status] at status
    exact report.taskStatus_not_movable (status ▸ allowed)
  · intro barred
    rw [move_eq, BacklogState.moveTask]
    cases found : backlog.findTask taskId with
    | none => rfl
    | some task => simp [barred task found]

end Report

namespace Selection

variable [lawful : LawfulRepository R]

def board (s : Selection R) : Option Board := s.integration.kanban.map LawfulRepository.board

/-- What a report does, told by the element that it is linked to. -/
inductive Reported (registry : TransitionRegistry) (taskId : String) (report : Report) (s : Selection R) :
    KanbanSyncResult × DecisionKanbanIntegration R × BacklogState → Prop
  | backlogOnly (noService : s.integration.kanban = none) :
      Reported registry taskId report s (.noKanbanService, s.integration, report.move s.backlog taskId)
  | synced {r next : R} {kanbanId : ElementId} {mappings : List (String × ElementId)}
      (service : s.integration.kanban = some r)
      (shifts : Shifts kanbanId report.status (LawfulRepository.board r) (LawfulRepository.board next))
      (linked : ∀ other, Links registry report taskId s other ↔ other = kanbanId) :
      Reported registry taskId report s
        (.synced taskId kanbanId, ⟨some next, mappings⟩, report.move s.backlog taskId)
  | unsynced {r next : R} {result : KanbanSyncResult} (service : s.integration.kanban = some r)
      (kept : LawfulRepository.board next = LawfulRepository.board r)
      (notSynced : ∀ taskId kanbanId, result ≠ .synced taskId kanbanId)
      (unlinked : ∀ other, ¬ Links registry report taskId s other) :
      Reported registry taskId report s (result, { s.integration with kanban := some next }, s.backlog)

variable {registry : TransitionRegistry} {taskId : String} {report : Report} {s : Selection R} {r : R}

theorem reported_mapped {linked : ElementId} (service : s.integration.kanban = some r)
    (mapped : s.integration.findKanbanId taskId = some linked) :
    Reported registry taskId report s (sync registry taskId report s.integration s.backlog) := by
  have links (other : ElementId) : Links registry report taskId s other ↔
      MovesFirst registry report.status [linked] r other := by
    simp [Links, service, mapped]
  cases called : updateStatus registry linked report.status r with
  | ok e next =>
      have moved : sync registry taskId report s.integration s.backlog =
          (.synced taskId linked, { s.integration with kanban := some next }, report.move s.backlog taskId) := by
        cases report <;>
          simp_all [sync, syncTaskCompletion, syncTaskFailure, Report.status, Report.move]
      rw [moved]
      refine .synced service (updateStatus_shifts registry _ called) fun other => ?_
      rw [links, MovesFirst.ok called]
  | error error next =>
      have failed : sync registry taskId report s.integration s.backlog =
          (.failed taskId error.display, { s.integration with kanban := some next }, s.backlog) := by
        cases report <;>
          simp_all [sync, syncTaskCompletion, syncTaskFailure, Report.status]
      rw [failed]
      refine .unsynced service (updateStatus_stays registry _ called) (by simp) fun other => ?_
      rw [links, MovesFirst.error called]
      exact MovesFirst.nil

theorem reported_unmapped (service : s.integration.kanban = some r)
    (unmapped : s.integration.findKanbanId taskId = none) :
    Reported registry taskId report s (sync registry taskId report s.integration s.backlog) := by
  have same : { s.integration with kanban := some r } = s.integration := by rw [← service]
  cases report with
  | failure error =>
      have notFound : sync registry taskId (.failure error) s.integration s.backlog =
          (.notFound taskId, { s.integration with kanban := some r }, s.backlog) := by
        simp [same, sync, syncTaskFailure, service, unmapped]
      rw [notFound]
      exact .unsynced service rfl (by simp) fun other => by simp [Links, unmapped]
  | completion =>
      cases found : s.backlog.findTask taskId with
      | none =>
          have notFound : sync registry taskId .completion s.integration s.backlog =
              (.notFound taskId, { s.integration with kanban := some r }, s.backlog) := by
            simp [same, sync, syncTaskCompletion, service, unmapped, found]
          rw [notFound]
          exact .unsynced service rfl (by simp) fun other => by simp [Links, unmapped, found]
      | some task =>
          have listing := list_reads r
          cases listed : list r with
          | error error next =>
              have notFound : sync registry taskId .completion s.integration s.backlog =
                  (.notFound taskId, { s.integration with kanban := some next }, s.backlog) := by
                simp [sync, syncTaskCompletion, service, unmapped, found, listed]
              simp only [Performs, listed] at listing
              rw [notFound]
              refine .unsynced service listing (by simp) fun other => ?_
              simp [Links, unmapped, service, listed]
          | ok elements next =>
              simp only [Performs, listed] at listing
              have links (other : ElementId) : Links registry .completion taskId s other ↔
                  MovesFirst registry .done (titled task elements) next other := by
                simp [Links, unmapped, service, found, listed]
              rcases firstMoved_cases registry .done (titled task elements) next with
                ⟨kanbanId, last, moved, shifts, only⟩ | ⟨last, none, kept, never⟩
              · have synced : sync registry taskId .completion s.integration s.backlog =
                    (.synced taskId kanbanId, ⟨some last, s.integration.mappings ++ [(taskId, kanbanId)]⟩,
                      Report.completion.move s.backlog taskId) := by
                  simp [sync, syncTaskCompletion, service, unmapped, found, listed, moved, Report.move]
                rw [synced]
                exact .synced service (listing.2 ▸ shifts) fun other => (links other).trans (only other)
              · have notFound : sync registry taskId .completion s.integration s.backlog =
                    (.notFound taskId, { s.integration with kanban := some last }, s.backlog) := by
                  simp [sync, syncTaskCompletion, service, unmapped, found, listed, none]
                rw [notFound]
                exact .unsynced service (kept.trans listing.2) (by simp) fun other first =>
                  never other ((links other).mp first)

theorem reported (registry : TransitionRegistry) (taskId : String) (report : Report) (s : Selection R) :
    Reported registry taskId report s (sync registry taskId report s.integration s.backlog) := by
  cases service : s.integration.kanban with
  | none =>
      have moved : sync registry taskId report s.integration s.backlog =
          (.noKanbanService, s.integration, report.move s.backlog taskId) := by
        cases report <;> simp [sync, syncTaskCompletion, syncTaskFailure, service, Report.move]
      exact moved ▸ .backlogOnly service
  | some r =>
      cases mapped : s.integration.findKanbanId taskId with
      | some linked => exact reported_mapped service mapped
      | none => exact reported_unmapped service mapped

/-- A report on a task that was selected from `source` moves both of them if it says so, and
    otherwise nothing. -/
def Accurate (taskId : String) (report : Report) (source : Option ElementId) (before : Selection R)
    (result : KanbanSyncResult) (after : Selection R) : Prop :=
  match result with
  | .synced _ kanbanId => source = some kanbanId ∧
      (∃ old new, before.board = some old ∧ after.board = some new ∧ Shifts kanbanId report.status old new) ∧
      ∃ task, after.backlog.findTask taskId = some task ∧ task.status = report.taskStatus
  | _ => after.board = before.board ∧ after.backlog = before.backlog

/-- The element that the report is linked to, if it can be moved, is the one the task was selected
    from, and then the backlog lets the task follow; without a service it holds the task. -/
def WellLinked (registry : TransitionRegistry) (taskId : String) (report : Report)
    (source : Option ElementId) (s : Selection R) : Prop :=
  (s.integration.kanban = none →
    ∀ task, s.backlog.findTask taskId = some task → task.status ∉ report.movable) ∧
  ∀ kanbanId, Links registry report taskId s kanbanId → source = some kanbanId ∧
    ∃ task, s.backlog.findTask taskId = some task ∧
      (task.status ∈ report.movable ∨ task.status = report.taskStatus)

theorem accurate_iff_of_reported {source : Option ElementId}
    {outcome : KanbanSyncResult × DecisionKanbanIntegration R × BacklogState}
    (reported : Reported registry taskId report s outcome) :
    Accurate taskId report source s outcome.1 { s with integration := outcome.2.1, backlog := outcome.2.2 } ↔
      WellLinked registry taskId report source s := by
  cases reported with
  | backlogOnly noService =>
      have unlinked (other : ElementId) : ¬ Links registry report taskId s other := by
        rintro ⟨r, service, -⟩
        cases noService.symm.trans service
      simp only [Accurate, WellLinked, noService, unlinked]
      simp [board, noService, Report.move_eq_self]
  | synced service shifts linked =>
      simp only [Accurate, WellLinked, linked, service]
      simp only [board, service, Option.map_some, Option.some.injEq, Report.findTask_move]
      simp [shifts]
  | @unsynced r next result service kept notSynced unlinked =>
      have nothing : Accurate taskId report source s result
          { s with integration := { s.integration with kanban := some next } } := by
        have sameBoard : (some next).map LawfulRepository.board = s.board := by simp [board, service, kept]
        cases result with
        | synced taskId kanbanId => exact absurd rfl (notSynced taskId kanbanId)
        | notFound taskId => exact ⟨sameBoard, rfl⟩
        | failed taskId error => exact ⟨sameBoard, rfl⟩
        | noKanbanService => exact ⟨sameBoard, rfl⟩
      refine iff_of_true nothing ⟨fun none => ?_, fun kanbanId linked => absurd linked (unlinked kanbanId)⟩
      cases none.symm.trans service

omit lawful in
/-- A task is selected under the id of its element. -/
theorem selectNextTask_id {integration integration' : DecisionKanbanIntegration R}
    {backlog backlog' : BacklogState} {e : KanbanElement} {task : TaskItem}
    (selects : selectNextTask integration backlog = (.selected e task, integration', backlog')) :
    ∀ x, e.id = some x → task.id = x.text := by
  unfold selectNextTask at selects
  cases service : integration.kanban with
  | none =>
      simp only [service] at selects
      split at selects
      · cases selects
        intro x none
        cases none
      · cases selects
  | some r =>
      simp only [service] at selects
      cases listed : list r with
      | error error next =>
          simp only [listed] at selects
          cases selects
      | ok elements next =>
          simp only [listed] at selects
          split at selects
          · next kanbanId found first =>
            cases selects
            obtain ⟨x, -, paired⟩ := List.mem_filterMap.mp (List.mem_of_find?_eq_some first)
            obtain ⟨id, isId, same⟩ := Option.map_eq_some_iff.mp paired
            cases same
            intro y isY
            cases isId.symm.trans isY
            rfl
          · cases selects

omit lawful in
theorem selected_ids (registry : TransitionRegistry) {s : Selection R} (events : List SelectionEvent)
    (start : ∀ found ∈ s.selected, ∀ x, found.2 = some x → found.1 = x.text) :
    ∀ found ∈ (Machine.final (step registry) s events).selected, ∀ x, found.2 = some x → found.1 = x.text := by
  induction events generalizing s with
  | nil => exact start
  | cons event events ih =>
      refine ih ?_
      cases event with
      | select =>
          simp only [step]
          split
          · next e task integration backlog selects =>
            intro found member
            rcases List.mem_append.mp member with old | new
            · exact start found old
            · cases List.mem_singleton.mp new
              exact selectNextTask_id selects
          · exact start
      | start _ => exact start
      | report _ _ => exact start
      | kanban _ => exact start
      | backlog _ => exact start

/-- Two tasks with the same title, of which the first is in progress and the second is to do. -/
def twoBuilds : List SelectionEvent :=
  [.kanban (.createElement (.task { title := "build", status := .inProgress })),
    .kanban (.createElement (.task { title := "build", status := .todo })), .select, .start "task-002"]

end Selection

end AgileAgent.Kanban
