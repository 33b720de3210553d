import AgileAgent.Kanban.Effects
import AgileAgent.Kanban.MemoryRepository

/-! # Blocked elements

An element is blocked for a reason. The reason and the status are written by `block` and `unblock`,
and the status alone by a move, which may be to or from the blocked status as well. And `block` writes
the reason before it knows whether the element may move.
-/

namespace AgileAgent.Kanban

open KanbanElementRepository LawfulRepository KanbanService

/-! ## The operations of an element -/

structure KanbanTransitionError where
  source : Status
  target : Status

/-- The operations change the element in place, also where they fail. -/
abbrev Changed := Except KanbanTransitionError Unit × KanbanElement

namespace KanbanElement

def blockedReason (e : KanbanElement) : Option String := e.base.blockedReason

def setBlockedReason (e : KanbanElement) (blockedReason : Option String) : KanbanElement :=
  e.setBase { e.base with blockedReason }

/-- `transition`, on the element itself. -/
def move (e : KanbanElement) (newStatus : Status) : Changed :=
  match e.transition newStatus with
  | some moved => (.ok (), moved)
  | none => (.error ⟨e.status, newStatus⟩, e)

def block (e : KanbanElement) (reason : String) : Changed :=
  (e.setBlockedReason (some reason)).move .blocked

def unblock (e : KanbanElement) : Changed :=
  if e.status ≠ .blocked then (.error ⟨e.status, .backlog⟩, e)
  else (e.setBlockedReason none).move .backlog

end KanbanElement

/-! ## Runs of an element -/

inductive ElementOperation (R : Type) where
  | transition (newStatus : Status)
  | block (reason : String)
  | unblock
  | updateStatus (registry : TransitionRegistry) (id : ElementId) (newStatus : Status) (r : R)

structure ElementStep (R : Type) where
  before : KanbanElement
  operation : ElementOperation R
  fails : Bool
  after : KanbanElement

def failed {α : Type} : Except KanbanTransitionError α → Bool
  | .ok _ => false
  | .error _ => true

variable {R : Type} [KanbanElementRepository R] [lawful : LawfulRepository R]

namespace ElementStep

def Does (x : ElementStep R) (changed : Changed) : Prop :=
  x.fails = failed changed.1 ∧ x.after = changed.2

/-- The service is called on a repository with the element, and leaves one with what became of it. -/
def Updates (x : ElementStep R) (id : ElementId) (call : Call R KanbanElement) (r : R) : Prop :=
  board r id = some x.before ∧ board (left call r) id = some x.after ∧
    (x.fails = true ↔ ∃ error next, call r = .error error next)

/-- The step is one of the operation on the element. -/
def Valid (x : ElementStep R) : Prop :=
  match x.operation with
  | .transition newStatus => x.Does (x.before.move newStatus)
  | .block reason => x.Does (x.before.block reason)
  | .unblock => x.Does x.before.unblock
  | .updateStatus registry id newStatus r => x.Updates id (updateStatus registry id newStatus) r

end ElementStep

/-- The steps of an element from its creation on. It may have been given an id. -/
inductive Run : List (ElementStep R) → KanbanElement → Prop
  | created {e : KanbanElement} {title : String} {id : Option ElementId} (new : e.base = { id, title }) :
      Run [] e
  | step {steps : List (ElementStep R)} {x : ElementStep R} (earlier : Run steps x.before)
      (valid : x.Valid) : Run (steps ++ [x]) x.after

/-! ## What is wanted -/

/-- There is a reason exactly for a blocked element. -/
def Consistent (e : KanbanElement) : Prop := e.blockedReason.isSome ↔ e.status = .blocked

structure ElementStep.Right (x : ElementStep R) : Prop where
  consistent : Consistent x.after
  unchanged : x.fails = true → x.after = x.before

/-- The repository reads the element with the id and then saves what is to become of it. -/
def Stores (id : ElementId) (e moved : KanbanElement) (r : R) : Prop :=
  ∃ read saved, get id r = .ok (some e) read ∧ save moved read = .ok () saved

/-- A move neither enters nor leaves the blocked status, and `block` is not called where the element may
    not move there, unless it has that reason already. -/
def ElementStep.Meets (x : ElementStep R) : Prop :=
  match x.operation with
  | .transition newStatus =>
      x.before.canTransitionTo newStatus = true → (x.before.status = .blocked ↔ newStatus = .blocked)
  | .block reason =>
      x.before.canTransitionTo .blocked = true ∨ x.before.blockedReason = some reason
  | .unblock => True
  | .updateStatus registry id newStatus r =>
      registry.allows x.before newStatus = true →
        ∀ moved, x.before.transition newStatus = some moved → Stores id x.before moved r →
          (x.before.status = .blocked ↔ newStatus = .blocked)

/-! ## Moves -/

section

variable {e moved : KanbanElement} {newStatus : Status}

@[simp] theorem status_setBlockedReason (e : KanbanElement) (reason : Option String) :
    (e.setBlockedReason reason).status = e.status := by
  simp [KanbanElement.setBlockedReason, KanbanElement.status]

@[simp] theorem blockedReason_setBlockedReason (e : KanbanElement) (reason : Option String) :
    (e.setBlockedReason reason).blockedReason = reason := by
  simp [KanbanElement.setBlockedReason, KanbanElement.blockedReason]

theorem setBlockedReason_same {reason : Option String} :
    e.setBlockedReason reason = e ↔ e.blockedReason = reason := by
  constructor
  · intro same
    rw [← same, blockedReason_setBlockedReason]
  · intro same
    subst same
    exact e.setBase_base

theorem transition_reason (made : e.transition newStatus = some moved) :
    moved.blockedReason = e.blockedReason := by
  unfold KanbanElement.transition at made
  split at made
  · cases made
    simp [KanbanElement.blockedReason]
  · cases made

/-- A move is right where it keeps the blocked apart from the others. -/
theorem moved_consistent (consistent : Consistent e) (made : e.transition newStatus = some moved) :
    Consistent moved ↔ (e.status = .blocked ↔ newStatus = .blocked) := by
  unfold Consistent at consistent ⊢
  rw [transition_reason made, (KanbanElement.transition_status made).2, consistent]

theorem transition_allowed (allowed : e.canTransitionTo newStatus = true) :
    ∃ moved, e.transition newStatus = some moved := by
  simp [KanbanElement.transition, allowed]

theorem move_allowed (made : e.transition newStatus = some moved) : e.move newStatus = (.ok (), moved) := by
  rw [KanbanElement.move, made]

theorem move_refused (refused : e.canTransitionTo newStatus = false) :
    e.move newStatus = (.error ⟨e.status, newStatus⟩, e) := by
  simp [KanbanElement.move, KanbanElement.transition, refused]

end

/-! ## The service -/

section

variable {registry : TransitionRegistry} {id : ElementId} {newStatus : Status} {r : R}
  {e moved : KanbanElement}

omit lawful in
/-- Where no dependencies are asked for, the element is read, moved and saved. -/
theorem updateStatus_stores (blocking : newStatus ≠ .inProgress ∧ newStatus ≠ .done)
    (allowed : registry.allows e newStatus = true) (made : e.transition newStatus = some moved)
    (stores : Stores id e moved r) : ∃ next, updateStatus registry id newStatus r = .ok moved next := by
  obtain ⟨read, saved, reads, saves⟩ := stores
  have found : require id r = .ok e read := by
    rw [require, bind_ok reads]
    rfl
  rw [updateStatus, bind_ok found]
  simp only [allowed, blocking.1, blocking.2, or_self, if_false, Bool.not_true, moveTo, made]
  exact ⟨saved, bind_ok saves⟩

/-- What an update that succeeds has read and saved. -/
theorem updateStatus_stored (blocking : newStatus ≠ .inProgress ∧ newStatus ≠ .done)
    (stored : board r id = some e) {result : KanbanElement} {next : R}
    (called : updateStatus registry id newStatus r = .ok result next) :
    registry.allows e newStatus = true ∧ ∃ moved, e.transition newStatus = some moved ∧ Stores id e moved r := by
  have reads := get_reads id r
  rw [updateStatus] at called
  cases found : get id r with
  | error error read =>
      have fails : require id r = .error error read := bind_error found
      rw [bind_error fails] at called
      cases called
  | ok result' read =>
      rw [Reads, Performs, found] at reads
      rw [reads.1, stored] at found
      have required : require id r = .ok e read := by
        rw [require, bind_ok found]
        rfl
      rw [bind_ok required] at called
      cases allowed : registry.allows e newStatus with
      | false =>
          simp only [allowed, Bool.not_false, if_true] at called
          cases called
      | true =>
          simp only [allowed, blocking.1, blocking.2, or_self, if_false, Bool.not_true, moveTo] at called
          cases made : e.transition newStatus with
          | none =>
              rw [made] at called
              cases called
          | some moved =>
              rw [made] at called
              cases saves : save moved read with
              | ok _ saved => exact ⟨rfl, moved, rfl, read, saved, found, saves⟩
              | error error saved =>
                  have fails : (do save moved; return moved) read = .error error saved := bind_error saves
                  cases fails.symm.trans called

theorem blocked_moves (made : e.transition newStatus = some moved)
    (differ : ¬ (e.status = .blocked ↔ newStatus = .blocked)) :
    newStatus ≠ .inProgress ∧ newStatus ≠ .done := by
  have allowed := (KanbanElement.transition_status made).1
  cases newStatus with
  | inProgress | done =>
      exfalso
      apply differ
      cases status : e.status <;> simp_all [Status.validTransitions]
  | _ => simp

/-- An update that succeeds is a move, and one that fails leaves the element. -/
theorem update_cases {x : ElementStep R} (updates : x.Updates id (updateStatus registry id newStatus) r) :
    (x.fails = true ∧ x.after = x.before) ∨
      (x.fails = false ∧ x.before.transition newStatus = some x.after ∧
        ∃ result next, updateStatus registry id newStatus r = .ok result next) := by
  obtain ⟨stored, leaves, fails⟩ := updates
  have effect := updateStatus_effect r registry id newStatus
  cases called : updateStatus registry id newStatus r with
  | error error next =>
      rw [Performs, called] at effect
      rw [left, called] at leaves
      dsimp only at effect leaves
      rw [effect, stored] at leaves
      exact .inl ⟨fails.mpr ⟨error, next, called⟩, (Option.some.inj leaves).symm⟩
  | ok result next =>
      rw [Performs, called] at effect
      rw [left, called] at leaves
      dsimp only at effect leaves
      generalize board next = after at effect leaves
      cases effect with
      | moved found made _ =>
          cases found.symm.trans stored
          rw [Function.update_self] at leaves
          cases leaves
          refine .inr ⟨?_, made, result, next, rfl⟩
          cases isFailed : x.fails with
          | false => rfl
          | true =>
              obtain ⟨error, next', other⟩ := fails.mp isFailed
              cases called.symm.trans other

end

/-! ## One step -/

section

variable {x : ElementStep R}

omit [KanbanElementRepository R] lawful in
theorem right_of_moved {newStatus : Status} {changed : Changed} (does : x.Does changed)
    (refused : x.before.canTransitionTo newStatus = false →
      changed = (.error ⟨x.before.status, newStatus⟩, x.before))
    (made : ∀ moved, x.before.transition newStatus = some moved → changed = (.ok (), moved))
    (consistent : Consistent x.before) :
    x.Right ↔ (x.before.canTransitionTo newStatus = true →
      (x.before.status = .blocked ↔ newStatus = .blocked)) := by
  obtain ⟨fails, after⟩ := does
  cases allowed : x.before.canTransitionTo newStatus with
  | false =>
      rw [refused allowed] at fails after
      refine iff_of_true ⟨?_, fun _ => after⟩ (fun never => by cases never)
      rwa [after]
  | true =>
      obtain ⟨moved, isMoved⟩ := transition_allowed allowed
      rw [made moved isMoved] at fails after
      have decides := moved_consistent consistent isMoved
      constructor
      · intro right _
        have consistent' := right.consistent
        rw [after] at consistent'
        exact decides.mp consistent'
      · intro meets
        refine ⟨?_, fun failed => ?_⟩
        · rw [after]
          exact decides.mpr (meets rfl)
        · rw [fails] at failed
          cases failed

omit [KanbanElementRepository R] lawful in
theorem block_right {reason : String} (does : x.Does (x.before.block reason)) (consistent : Consistent x.before) :
    x.Right ↔ x.before.canTransitionTo .blocked = true ∨ x.before.blockedReason = some reason := by
  obtain ⟨fails, after⟩ := does
  have same : (x.before.setBlockedReason (some reason)).canTransitionTo .blocked =
      x.before.canTransitionTo .blocked := by
    rw [KanbanElement.canTransitionTo, KanbanElement.canTransitionTo, status_setBlockedReason]
  cases allowed : x.before.canTransitionTo .blocked with
  | true =>
      obtain ⟨moved, made⟩ := transition_allowed (same.trans allowed)
      rw [KanbanElement.block, move_allowed made] at fails after
      refine iff_of_true ⟨?_, fun failed => ?_⟩ (.inl rfl)
      · rw [after, Consistent, transition_reason made, (KanbanElement.transition_status made).2]
        simp
      · rw [fails] at failed
        cases failed
  | false =>
      rw [KanbanElement.block, move_refused (same.trans allowed)] at fails after
      have kept : x.after = x.before ↔ x.before.blockedReason = some reason := by
        rw [after]
        exact setBlockedReason_same
      constructor
      · intro right
        exact .inr (kept.mp (right.unchanged fails))
      · rintro (never | already)
        · cases never
        · have unchanged := kept.mpr already
          exact ⟨unchanged ▸ consistent, fun _ => unchanged⟩

omit [KanbanElementRepository R] lawful in
theorem unblock_right (does : x.Does x.before.unblock) (consistent : Consistent x.before) : x.Right := by
  obtain ⟨fails, after⟩ := does
  by_cases blocked : x.before.status = .blocked
  · have allowed : (x.before.setBlockedReason none).canTransitionTo .backlog = true := by
      rw [KanbanElement.canTransitionTo, status_setBlockedReason, blocked]
      decide
    obtain ⟨moved, made⟩ := transition_allowed allowed
    rw [KanbanElement.unblock, if_neg (by simp [blocked]), move_allowed made] at fails after
    refine ⟨?_, fun failed => ?_⟩
    · rw [after, Consistent, transition_reason made, (KanbanElement.transition_status made).2]
      simp
    · rw [fails] at failed
      cases failed
  · rw [KanbanElement.unblock, if_pos blocked] at after
    exact ⟨after ▸ consistent, fun _ => after⟩

theorem update_right {registry : TransitionRegistry} {id : ElementId} {newStatus : Status} {r : R}
    (updates : x.Updates id (updateStatus registry id newStatus) r) (consistent : Consistent x.before) :
    x.Right ↔ (registry.allows x.before newStatus = true →
      ∀ moved, x.before.transition newStatus = some moved → Stores id x.before moved r →
        (x.before.status = .blocked ↔ newStatus = .blocked)) := by
  rcases update_cases updates with ⟨fails, same⟩ | ⟨done, made, result, next, called⟩
  · refine iff_of_true ⟨same ▸ consistent, fun _ => same⟩ fun allowed moved made stores => ?_
    by_contra differ
    obtain ⟨next, called⟩ := updateStatus_stores (blocked_moves made differ) allowed made stores
    obtain ⟨error, next', other⟩ := updates.2.2.mp fails
    cases called.symm.trans other
  · have decides := moved_consistent consistent made
    constructor
    · intro right _ _ _ _
      exact decides.mp right.consistent
    · intro meets
      refine ⟨decides.mpr ?_, fun failed => ?_⟩
      · by_contra differ
        obtain ⟨allowed, moved, made', stores⟩ :=
          updateStatus_stored (blocked_moves made differ) updates.1 called
        exact differ (meets allowed moved made' stores)
      · rw [done] at failed
        cases failed

theorem right_iff_meets (valid : x.Valid) (consistent : Consistent x.before) : x.Right ↔ x.Meets := by
  obtain ⟨before, operation, fails, after⟩ := x
  cases operation with
  | transition newStatus => exact right_of_moved valid move_refused (fun _ => move_allowed) consistent
  | block reason => exact block_right valid consistent
  | unblock => exact iff_of_true (unblock_right valid consistent) trivial
  | updateStatus registry id newStatus r => exact update_right valid consistent

end

/-! ## Runs -/

/-- While all steps are right, the element is consistent. -/
theorem run_consistent {steps : List (ElementStep R)} {e : KanbanElement} (run : Run steps e)
    (right : ∀ x ∈ steps, x.Right) : Consistent e := by
  cases run with
  | created new => simp [Consistent, KanbanElement.blockedReason, KanbanElement.status, new]
  | step _ _ => exact (right _ (by simp)).consistent

/-- In every run the reason goes with the status and failures change nothing exactly as long as every
    step meets its condition. -/
theorem blocking_iff {steps : List (ElementStep R)} {e : KanbanElement} (run : Run steps e) :
    (∀ x ∈ steps, x.Right) ↔ ∀ x ∈ steps, x.Meets := by
  induction run with
  | created _ => simp
  | @step steps x earlier valid ih =>
      rw [List.forall_mem_append, List.forall_mem_append, List.forall_mem_singleton,
        List.forall_mem_singleton, ← ih]
      constructor
      · intro right
        exact ⟨right.1, (right_iff_meets valid (run_consistent earlier right.1)).mp right.2⟩
      · intro meets
        exact ⟨meets.1, (right_iff_meets valid (run_consistent earlier meets.1)).mpr meets.2⟩

/-! ## A task -/

def newTask (status : Status) (blockedReason : Option String) : KanbanElement :=
  .task { title := "Build", status, blockedReason }

/-- The move of the task to the backlog. -/
def toBacklog : ElementStep MemoryRepository :=
  ⟨newTask .plan none, .transition .backlog, false, newTask .backlog none⟩

theorem newTask_run : Run [toBacklog] (newTask .backlog none) := by
  have created : Run ([] : List (ElementStep MemoryRepository)) toBacklog.before := .created rfl
  have moved : Run ([] ++ [toBacklog]) toBacklog.after := .step created ⟨rfl, rfl⟩
  exact moved

theorem newTask_blocking : Run [toBacklog] (newTask .backlog none) ∧
    ((∀ x ∈ [toBacklog], x.Right) ↔ ∀ x ∈ [toBacklog], x.Meets) :=
  ⟨newTask_run, blocking_iff newTask_run⟩

/-- A task that is moved to the blocked status has no reason. -/
theorem blocked_without_reason : ¬ ∀ (steps : List (ElementStep MemoryRepository)) (e : KanbanElement),
    Run steps e → ∀ x ∈ steps, x.Right := by
  intro all
  let toBlocked : ElementStep MemoryRepository :=
    ⟨newTask .backlog none, .transition .blocked, false, newTask .blocked none⟩
  have run : Run ([toBacklog] ++ [toBlocked]) (newTask .blocked none) := .step newTask_run ⟨rfl, rfl⟩
  have right := all _ _ run toBlocked (by simp)
  have reasoned := right.consistent.mpr rfl
  cases reasoned

end AgileAgent.Kanban
