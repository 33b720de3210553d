import AgileAgent.Decision.Task
import AgileAgent.Insertions
import AgileAgent.Machine

/-! # The registry of tasks

Active and completed tasks in memory and a file for each of them in one of two directories. Every
operation of the store may fail; a write that is torn leaves a file that cannot be read back. What
`serde_json` writes it reads back. The ids of new tasks come with the calls, and times are left out.
-/

namespace AgileAgent.Decision

open Insertions (Map insertAll pairs)
open Machine

/-! ## The store -/

inductive StoreError where
  | io (text : String)
  | serialization (text : String)
  | notFound (text : String)
  | corrupted (text : String)
  deriving Repr, DecidableEq

def StoreError.message : StoreError → String
  | .io text => "IO error: " ++ text
  | .serialization text => "Serialization error: " ++ text
  | .notFound text => "Task not found: " ++ text
  | .corrupted text => "Corrupted data: " ++ text

/-- How an operation of the store ends. -/
inductive StoreOutcome where
  | done
  | fails (text : String)
  | torn (text : String)
  deriving Repr, DecidableEq

inductive StoreStep where
  | save (id : String)
  | listPending
  | listCompleted
  | moveToCompleted
  deriving Repr, DecidableEq

abbrev StoreFaults := StoreStep → StoreOutcome

/-- The files of the two directories by the ids that they are named after; none stands for a file that
    cannot be read back. -/
structure FileTaskStore where
  tasks : Map String (Option DecisionTask) := ∅
  completed : Map String (Option DecisionTask) := ∅

namespace FileTaskStore

def save (s : FileTaskStore) (faults : StoreFaults) (task : DecisionTask) :
    Except StoreError Unit × FileTaskStore :=
  match faults (.save task.id) with
  | .done => (.ok (), { s with tasks := s.tasks.insert task.id (some task) })
  | .fails text => (.error (.io text), s)
  | .torn text => (.error (.io text), { s with tasks := s.tasks.insert task.id none })

/-- The tasks in a directory, less the files that cannot be read. -/
def readable (files : Map String (Option DecisionTask)) : List DecisionTask :=
  (pairs files).filterMap (·.2)

def listed (outcome : StoreOutcome) (files : Map String (Option DecisionTask)) :
    Except StoreError (List DecisionTask) :=
  match outcome with
  | .done => .ok (readable files)
  | .fails text => .error (.io text)
  | .torn text => .error (.io text)

def listPending (s : FileTaskStore) (faults : StoreFaults) : Except StoreError (List DecisionTask) :=
  listed (faults .listPending) s.tasks

def listCompleted (s : FileTaskStore) (faults : StoreFaults) :
    Except StoreError (List DecisionTask) :=
  listed (faults .listCompleted) s.completed

/-- `move_to_completed`: a file that is there is renamed as it is. -/
def moveToCompleted (s : FileTaskStore) (faults : StoreFaults) (task : DecisionTask) :
    Except StoreError Unit × FileTaskStore :=
  match s.tasks.lookup task.id with
  | some file =>
    match faults .moveToCompleted with
    | .done => (.ok (),
        { s with tasks := s.tasks.erase task.id, completed := s.completed.insert task.id file })
    | .fails text => (.error (.io text), s)
    | .torn text => (.error (.io text), s)
  | none =>
    match faults .moveToCompleted with
    | .done => (.ok (), { s with completed := s.completed.insert task.id (some task) })
    | .fails text => (.error (.io text), s)
    | .torn text => (.error (.io text), { s with completed := s.completed.insert task.id none })

end FileTaskStore

/-! ## The registry -/

inductive RegistryError where
  | notFound (text : String)
  | invalidTransition (text : String)
  | store (error : StoreError)
  deriving Repr, DecidableEq

def RegistryError.message : RegistryError → String
  | .notFound text => "Task not found: " ++ text
  | .invalidTransition text => "Invalid transition: " ++ text
  | .store error => "Store error: " ++ error.message

inductive RecoveryError where
  | transition (text : String)
  | store (error : StoreError)
  deriving Repr, DecidableEq

def RecoveryError.message : RecoveryError → String
  | .transition text => "Transition error: " ++ text
  | .store error => "Store error: " ++ error.message

structure TaskUpdate where
  status : Option DecisionTaskStatus := none
  reflectionCount : Option Nat := none
  confirmationCount : Option Nat := none
  addHistory : Option ExecutionRecord := none
  deriving Repr, DecidableEq

def TaskUpdate.apply (update : TaskUpdate) (task : DecisionTask) : DecisionTask :=
  { task with
    status := update.status.getD task.status
    reflectionCount := update.reflectionCount.getD task.reflectionCount
    confirmationCount := update.confirmationCount.getD task.confirmationCount
    executionHistory := task.executionHistory ++ update.addHistory.toList }

structure TaskRegistry where
  active : Map String DecisionTask := ∅
  completed : List DecisionTask := []
  store : FileTaskStore := {}

/-- The task was worked on when the process ended. -/
def DecisionTask.needsRecovery (task : DecisionTask) : Bool :=
  task.status = .inProgress || task.status = .reflecting

namespace TaskRegistry

def storeResult (result : Except StoreError Unit) : Except RegistryError Unit :=
  result.mapError .store

def create (r : TaskRegistry) (faults : StoreFaults) (description : String)
    (constraints : List String) (id : String) : Except RegistryError String × TaskRegistry :=
  let task := DecisionTask.create id description constraints
  let saved := r.store.save faults task
  ((storeResult saved.1).map fun _ => id,
    { r with active := r.active.insert id task, store := saved.2 })

def update (r : TaskRegistry) (faults : StoreFaults) (id : String) (update : TaskUpdate) :
    Except RegistryError Unit × TaskRegistry :=
  match r.active.lookup id with
  | none => (.error (.notFound id), r)
  | some task =>
      let saved := r.store.save faults (update.apply task)
      (storeResult saved.1,
        { r with active := r.active.insert id (update.apply task), store := saved.2 })

def complete (r : TaskRegistry) (faults : StoreFaults) (id : String) :
    Except RegistryError Unit × TaskRegistry :=
  match r.active.lookup id with
  | none => (.error (.notFound id), r)
  | some task =>
      let r := { r with active := r.active.erase id }
      match task.transitionTo .completed with
      | .error error => (.error (.invalidTransition error.message), r)
      | .ok task =>
          let moved := r.store.moveToCompleted faults task
          (storeResult moved.1, { r with completed := r.completed ++ [task], store := moved.2 })

def cancel (r : TaskRegistry) (faults : StoreFaults) (id reason : String) :
    Except RegistryError Unit × TaskRegistry :=
  match r.active.lookup id with
  | none => (.error (.notFound id), r)
  | some task =>
      match task.transitionTo .cancelled with
      | .error error => (.error (.invalidTransition error.message), r)
      | .ok task =>
          let record : ExecutionRecord := { action := .cancel reason, stage := ⟨"cancelled"⟩ }
          let task := { task with executionHistory := task.executionHistory ++ [record] }
          let moved := r.store.moveToCompleted faults task
          (storeResult moved.1,
            { r with
              active := r.active.erase id
              completed := r.completed ++ [task]
              store := moved.2 })

/-- The loop of `recover`, with the ids that are recovered so far. -/
def pauseAll : List String → Map String DecisionTask → List String →
    Except RecoveryError (List String) × Map String DecisionTask
  | [], active, recovered => (.ok recovered, active)
  | id :: rest, active, recovered =>
    match active.lookup id with
    | none => pauseAll rest active recovered
    | some task =>
      if task.needsRecovery then
        match task.transitionTo .paused with
        | .error error => (.error (.transition error.message), active)
        | .ok paused => pauseAll rest (active.insert id paused) (recovered ++ [id])
      else pauseAll rest active recovered

/-- The loop of `save_all`. -/
def saveAll (faults : StoreFaults) : List DecisionTask → FileTaskStore →
    Except StoreError Unit × FileTaskStore
  | [], s => (.ok (), s)
  | task :: rest, s =>
    match s.save faults task with
    | (.ok (), s) => saveAll faults rest s
    | (.error error, s) => (.error error, s)

def recover (r : TaskRegistry) (faults : StoreFaults) :
    Except RecoveryError (List String) × TaskRegistry :=
  match pauseAll r.active.keys r.active [] with
  | (.error error, active) => (.error error, { r with active })
  | (.ok recovered, active) =>
      let saved := saveAll faults ((pairs active).map (·.2)) r.store
      ((saved.1.mapError .store).map fun _ => recovered, { r with active, store := saved.2 })

def load (r : TaskRegistry) (faults : StoreFaults) : Except StoreError Unit × TaskRegistry :=
  match r.store.listPending faults with
  | .error error => (.error error, r)
  | .ok pending =>
      let r := { r with active := insertAll r.active (pending.map fun task : DecisionTask => (task.id, task)) }
      match r.store.listCompleted faults with
      | .error error => (.error error, r)
      | .ok completed => (.ok (), { r with completed := r.completed ++ completed })

/-- A new registry over the same store, which loads once. -/
def restart (r : TaskRegistry) (faults : StoreFaults) : Except StoreError Unit × TaskRegistry :=
  load { store := r.store } faults

inductive Op where
  | create (description : String) (constraints : List String) (id : String)
  | update (id : String) (update : TaskUpdate)
  | complete (id : String)
  | cancel (id reason : String)
  | recover
  | restart
  deriving Repr, DecidableEq

/-- An operation, with the operations of the store that fail in it. -/
structure Call where
  op : Op
  faults : StoreFaults := fun _ => .done

inductive Answer where
  | created (result : Except RegistryError String)
  | changed (result : Except RegistryError Unit)
  | recovered (result : Except RecoveryError (List String))
  | loaded (result : Except StoreError Unit)

def call (r : TaskRegistry) (c : Call) : Answer × TaskRegistry :=
  match c.op with
  | .create description constraints id =>
      ((.created (r.create c.faults description constraints id).1),
        (r.create c.faults description constraints id).2)
  | .update id update => (.changed (r.update c.faults id update).1, (r.update c.faults id update).2)
  | .complete id => (.changed (r.complete c.faults id).1, (r.complete c.faults id).2)
  | .cancel id reason => (.changed (r.cancel c.faults id reason).1, (r.cancel c.faults id reason).2)
  | .recover => (.recovered (r.recover c.faults).1, (r.recover c.faults).2)
  | .restart => (.loaded (r.restart c.faults).1, (r.restart c.faults).2)

/-- The operation returned an error. -/
def Answer.failed : Answer → Bool
  | .created (.error _) | .changed (.error _) | .recovered (.error _) | .loaded (.error _) => true
  | _ => false

/-- The id of the task that a call creates. -/
def Call.creates (c : Call) : Option String :=
  match c.op with
  | .create _ _ id => some id
  | _ => none

/-! ## What the files are for -/

/-- The registries have the same tasks. -/
structure Same (r r' : TaskRegistry) : Prop where
  active : ∀ id, r'.active.lookup id = r.active.lookup id
  completed : r'.completed.Perm r.completed

def Known (r : TaskRegistry) (id : String) : Prop :=
  (r.active.lookup id).isSome ∨ ∃ task ∈ r.completed, task.id = id

/-- Every task is in one of the two sets, by its status. -/
structure Parted (r : TaskRegistry) : Prop where
  ongoing : ∀ id task, r.active.lookup id = some task → ¬ task.status.isTerminal
  ended : ∀ task ∈ r.completed, task.status.isTerminal
  once : (r.completed.map DecisionTask.id).Nodup
  apart : ∀ task ∈ r.completed, r.active.lookup task.id = none

/-- The files say what the registry says. -/
structure Settled (r : TaskRegistry) : Prop extends Parted r where
  keys : ∀ id task, r.active.lookup id = some task → task.id = id
  files : ∀ id, r.store.tasks.lookup id = (r.active.lookup id).map some
  archive : ∀ id file, r.store.completed.lookup id = some file ↔
    ∃ task ∈ r.completed, task.id = id ∧ file = some task

/-- A step after which a restart changes nothing, every task is in one of the two sets and none is
    lost, and that changes nothing if it returns an error. -/
structure Right (x : Step TaskRegistry Call Answer) : Prop where
  restarts : (x.after.restart fun _ => .done).1 = .ok () ∧
    Same x.after (x.after.restart fun _ => .done).2
  parted : Parted x.after
  keeps : ∀ id, Known x.before id → Known x.after id
  creates : ∀ id, x.event.creates = some id → x.output.failed = false → Known x.after id
  unchanged : x.output.failed → Same x.before x.after

/-- No operation of the store fails in the step, no update ends a task, and no active task is completed
    or cancelled; a failure does no harm where there is nothing to save or to load. -/
def Harmless (r : TaskRegistry) (c : Call) : Prop :=
  match c.op with
  | .create _ _ id => c.faults (.save id) = .done
  | .update id update => r.active.lookup id = none ∨
      c.faults (.save id) = .done ∧ ∀ status, update.status = some status → ¬ status.isTerminal
  | .complete id => r.active.lookup id = none
  | .cancel id _ => r.active.lookup id = none
  | .recover => ∀ id task, r.active.lookup id = some task → c.faults (.save id) = .done ∨
      (∀ id task, r.active.lookup id = some task → task.needsRecovery = false) ∧
        ∀ text, c.faults (.save id) ≠ .torn text
  | .restart =>
      (c.faults .listPending = .done ∨ (∀ id, r.active.lookup id = none) ∧ r.completed = []) ∧
        (c.faults .listCompleted = .done ∨ r.completed = [])

theorem Same.refl (r : TaskRegistry) : Same r r := ⟨fun _ => rfl, List.Perm.refl _⟩

theorem empty_settled : Settled {} := by
  constructor
  case toParted => constructor <;> simp
  all_goals simp

variable {r r' : TaskRegistry}

/-! ## Restarts -/

theorem mem_readable {files : Map String (Option DecisionTask)} {task : DecisionTask} :
    task ∈ FileTaskStore.readable files ↔ ∃ id, files.lookup id = some (some task) := by
  simp only [FileTaskStore.readable, List.mem_filterMap]
  constructor
  · rintro ⟨⟨id, file⟩, member, rfl⟩
    exact ⟨id, Insertions.mem_pairs.mp member⟩
  · rintro ⟨id, found⟩
    exact ⟨(id, some task), Insertions.mem_pairs.mpr found, rfl⟩

/-- What is loaded from the first directory. -/
theorem Settled.loaded_active (settled : Settled r) :
    ∀ id, (insertAll ∅ ((FileTaskStore.readable r.store.tasks).map fun task : DecisionTask =>
      (task.id, task))).lookup id = r.active.lookup id := by
  have filed : ∀ id task, r.store.tasks.lookup id = some (some task) ↔
      r.active.lookup id = some task := by
    intro id task
    rw [settled.files]
    simp
  refine Insertions.lookup_insertAll_eq ?_ ?_ ?_
  · intro e member
    obtain ⟨task, inFiles, rfl⟩ := List.mem_map.mp member
    obtain ⟨id, found⟩ := mem_readable.mp inFiles
    have active := (filed id task).mp found
    rwa [settled.keys id task active]
  · intro id task active
    refine List.mem_map.mpr ⟨task, mem_readable.mpr ⟨id, (filed id task).mpr active⟩, ?_⟩
    rw [settled.keys id task active]
  · intro id _
    rfl

/-- What is loaded from the second directory. -/
theorem Settled.loaded_completed (settled : Settled r) :
    (FileTaskStore.readable r.store.completed).Perm r.completed := by
  have ids : ∀ e ∈ pairs r.store.completed, e.2.map DecisionTask.id = some e.1 := by
    rintro ⟨id, file⟩ member
    obtain ⟨task, -, rfl, rfl⟩ := (settled.archive id file).mp (Insertions.mem_pairs.mp member)
    rfl
  have distinct : ((FileTaskStore.readable r.store.completed).map DecisionTask.id).Nodup := by
    have keys : (FileTaskStore.readable r.store.completed).map DecisionTask.id =
        (pairs r.store.completed).map Prod.fst := by
      rw [FileTaskStore.readable, List.map_filterMap, ← List.filterMap_eq_map]
      exact List.filterMap_congr ids
    rw [keys, Insertions.pairs_keys]
    exact AList.nodupKeys _
  rw [List.perm_ext_iff_of_nodup (List.Nodup.of_map _ distinct) (List.Nodup.of_map _ settled.once)]
  intro task
  rw [mem_readable]
  constructor
  · rintro ⟨id, found⟩
    obtain ⟨other, member, -, same⟩ := (settled.archive id _).mp found
    rwa [Option.some.inj same]
  · intro member
    exact ⟨task.id, (settled.archive _ _).mpr ⟨task, member, rfl, rfl⟩⟩

theorem Same.settled (settled : Settled r) (same : Same r r') (store : r'.store = r.store) :
    Settled r' := by
  obtain ⟨active, completed⟩ := same
  have members : ∀ task, task ∈ r'.completed ↔ task ∈ r.completed := fun _ => completed.mem_iff
  constructor
  case toParted =>
    constructor
    case ongoing => simpa only [active] using settled.ongoing
    case ended => simpa only [members] using settled.ended
    case once => exact (completed.map _).nodup_iff.mpr settled.once
    case apart => simpa only [active, members] using settled.apart
  case keys => simpa only [active] using settled.keys
  case files => simpa only [active, store] using settled.files
  case archive => simpa only [members, store] using settled.archive

theorem Same.known (same : Same r r') (id : String) : Known r' id ↔ Known r id := by
  simp only [Known, same.active, same.completed.mem_iff]

theorem restart_store (r : TaskRegistry) (faults : StoreFaults) :
    (r.restart faults).2.store = r.store := by
  unfold restart load
  split
  · rfl
  · simp only
    split <;> rfl

/-- A restart that loads all there is gives the same tasks. -/
theorem restart_same (settled : Settled r) {faults : StoreFaults}
    (pending : faults .listPending = .done ∨ (∀ id, r.active.lookup id = none) ∧ r.completed = [])
    (completed : faults .listCompleted = .done ∨ r.completed = []) :
    Same r (r.restart faults).2 := by
  unfold restart load
  cases first : ({ store := r.store } : TaskRegistry).store.listPending faults with
  | error error =>
      have empty := pending.resolve_left fun done => by
        simp [FileTaskStore.listPending, FileTaskStore.listed, done] at first
      exact ⟨fun id => (empty.1 id).symm, by rw [empty.2]⟩
  | ok tasks =>
      have isRead : tasks = FileTaskStore.readable r.store.tasks := by
        unfold FileTaskStore.listPending FileTaskStore.listed at first
        split at first <;> cases first
        rfl
      subst isRead
      simp only
      cases second : ({ store := r.store } : TaskRegistry).store.listCompleted faults with
      | error error =>
          have empty := completed.resolve_left fun done => by
            simp [FileTaskStore.listCompleted, FileTaskStore.listed, done] at second
          exact ⟨settled.loaded_active, by rw [empty]⟩
      | ok archived =>
          have isRead : archived = FileTaskStore.readable r.store.completed := by
            unfold FileTaskStore.listCompleted FileTaskStore.listed at second
            split at second <;> cases second
            rfl
          subst isRead
          exact ⟨settled.loaded_active, settled.loaded_completed⟩

theorem restart_ok (r : TaskRegistry) : (r.restart fun _ => .done).1 = .ok () := rfl

/-! ## What a call preserves -/

/-- A task of the active set that is saved as it is. -/
theorem put_settled (settled : Settled r) {id : String} {task : DecisionTask} (isId : task.id = id)
    (ongoing : ¬ task.status.isTerminal) (apart : ∀ other ∈ r.completed, other.id ≠ id) :
    Settled { r with
      active := r.active.insert id task
      store := { r.store with tasks := r.store.tasks.insert task.id (some task) } } := by
  subst isId
  have lookup : ∀ id, (r.active.insert task.id task).lookup id =
      if id = task.id then some task else r.active.lookup id := by
    intro id
    split
    · rename_i same
      rw [same, AList.lookup_insert]
    · rename_i other
      rw [AList.lookup_insert_ne other]
  constructor
  case toParted =>
    constructor
    case ongoing =>
      intro id other found
      simp only [lookup] at found
      split at found
      · rw [← Option.some.inj found]
        exact ongoing
      · exact settled.ongoing id other found
    case ended => exact settled.ended
    case once => exact settled.once
    case apart =>
      intro other member
      simp only [lookup]
      rw [if_neg (apart other member)]
      exact settled.apart other member
  case keys =>
    intro id other found
    simp only [lookup] at found
    split at found
    · rename_i same
      rw [← Option.some.inj found, same]
    · exact settled.keys id other found
  case files =>
    intro id
    simp only [lookup]
    split
    · rename_i same
      rw [same, AList.lookup_insert]
      rfl
    · rename_i other
      rw [AList.lookup_insert_ne other]
      exact settled.files id
  case archive => exact settled.archive

/-- What a call does to a registry that agrees with its files. -/
structure Preserved (r : TaskRegistry) (c : Call) (answer : Answer) (after : TaskRegistry) : Prop where
  settled : Settled after
  known : ∀ id, Known after id ↔ Known r id ∨ c.creates = some id
  unchanged : answer.failed → Same r after

theorem Preserved.of_same (settled : Settled r) (same : Same r r') (store : r'.store = r.store)
    {c : Call} (nothing : c.creates = none) (answer : Answer) : Preserved r c answer r' where
  settled := same.settled settled store
  known id := by
    rw [same.known, nothing]
    simp
  unchanged _ := same

theorem known_insert (r : TaskRegistry) (id : String) (task : DecisionTask) (store : FileTaskStore)
    (other : String) :
    Known { r with active := r.active.insert id task, store } other ↔ Known r other ∨ id = other := by
  unfold Known
  by_cases same : id = other
  · subst same
    simp
  · rw [AList.lookup_insert_ne (Ne.symm same)]
    simp [same]

theorem create_preserved (settled : Settled r) {faults : StoreFaults} {description id : String}
    {constraints : List String} (harmless : Harmless r ⟨.create description constraints id, faults⟩)
    (fresh : ¬ Known r id) :
    Preserved r ⟨.create description constraints id, faults⟩
      (r.call ⟨.create description constraints id, faults⟩).1
      (r.call ⟨.create description constraints id, faults⟩).2 := by
  have saved : faults (.save id) = .done := harmless
  have save : r.store.save faults (.create id description constraints) =
      (.ok (), { r.store with
        tasks := r.store.tasks.insert id (some (.create id description constraints)) }) := by
    simp only [FileTaskStore.save, DecisionTask.create, saved]
  have apart : ∀ other ∈ r.completed, other.id ≠ id := fun other member same =>
    fresh (Or.inr ⟨other, member, same⟩)
  simp only [call, TaskRegistry.create, save]
  constructor
  case settled => exact put_settled settled rfl (by simp [DecisionTask.create]) apart
  case known =>
    intro other
    rw [known_insert]
    simp [Call.creates]
  case unchanged => rintro ⟨⟩

theorem update_preserved (settled : Settled r) {faults : StoreFaults} {id : String}
    {update : TaskUpdate} (harmless : Harmless r ⟨.update id update, faults⟩) :
    Preserved r ⟨.update id update, faults⟩ (r.call ⟨.update id update, faults⟩).1
      (r.call ⟨.update id update, faults⟩).2 := by
  cases found : r.active.lookup id with
  | none =>
      simp only [call, TaskRegistry.update, found]
      exact Preserved.of_same settled (.refl r) rfl rfl _
  | some task =>
      obtain ⟨saved, ongoing⟩ : faults (.save id) = .done ∧
          ∀ status, update.status = some status → ¬ status.isTerminal :=
        harmless.resolve_left (by simp [found])
      have isId : (update.apply task).id = id := settled.keys id task found
      have save : r.store.save faults (update.apply task) =
          (.ok (), { r.store with
            tasks := r.store.tasks.insert (update.apply task).id (some (update.apply task)) }) := by
        simp only [FileTaskStore.save, isId, saved]
      have notEnded : ¬ (update.apply task).status.isTerminal := by
        simp only [TaskUpdate.apply]
        cases change : update.status with
        | none => exact settled.ongoing id task found
        | some status => exact ongoing status change
      have apart : ∀ other ∈ r.completed, other.id ≠ id := by
        rintro other member rfl
        rw [settled.apart other member] at found
        cases found
      simp only [call, TaskRegistry.update, found, save]
      constructor
      case settled => exact put_settled settled isId notEnded apart
      case known =>
        intro other
        rw [known_insert]
        simp only [Call.creates, reduceCtorEq, or_false, or_iff_left_iff_imp]
        rintro rfl
        exact Or.inl (by rw [found]; rfl)
      case unchanged => rintro ⟨⟩

/-! ## Recovery -/

/-- What `recover` does to a task. -/
def pauseTask (task : DecisionTask) : DecisionTask :=
  if task.needsRecovery then { task with status := .paused } else task

theorem transitionTo_paused {task : DecisionTask} (needs : task.needsRecovery) :
    task.transitionTo .paused = .ok (pauseTask task) := by
  rw [pauseTask, if_pos needs]
  unfold DecisionTask.needsRecovery at needs
  rcases (Bool.or_eq_true _ _).mp needs with status | status
  · simp [DecisionTask.transitionTo, of_decide_eq_true status, DecisionTaskStatus.isValidTransition]
  · simp [DecisionTask.transitionTo, of_decide_eq_true status, DecisionTaskStatus.isValidTransition]

theorem pauseTask_pauseTask (task : DecisionTask) : pauseTask (pauseTask task) = pauseTask task := by
  unfold pauseTask
  split <;> simp_all [DecisionTask.needsRecovery]

/-- The loop never stops early, and pauses what is on its list. -/
theorem pauseAll_paused (ids : List String) (active : Map String DecisionTask)
    (recovered : List String) :
    (∃ all, (pauseAll ids active recovered).1 = .ok all) ∧
      ∀ id, (pauseAll ids active recovered).2.lookup id =
        if id ∈ ids then (active.lookup id).map pauseTask else active.lookup id := by
  induction ids generalizing active recovered with
  | nil => exact ⟨⟨recovered, rfl⟩, fun id => by simp [pauseAll]⟩
  | cons first rest ih =>
      unfold pauseAll
      cases found : active.lookup first with
      | none =>
          obtain ⟨ok, paused⟩ := ih active recovered
          refine ⟨ok, fun id => ?_⟩
          rw [paused]
          by_cases same : id = first
          · subst same
            simp [found]
          · simp [same]
      | some task =>
          cases needs : task.needsRecovery with
          | true =>
              simp only [needs, if_true, transitionTo_paused needs]
              obtain ⟨ok, paused⟩ := ih (active.insert first (pauseTask task)) (recovered ++ [first])
              refine ⟨ok, fun id => ?_⟩
              rw [paused]
              by_cases same : id = first
              · subst same
                simp [found, pauseTask_pauseTask]
              · simp [same, AList.lookup_insert_ne same]
          | false =>
              simp only [needs, Bool.false_eq_true, if_false]
              obtain ⟨ok, paused⟩ := ih active recovered
              refine ⟨ok, fun id => ?_⟩
              rw [paused]
              by_cases same : id = first
              · subst same
                simp [found, pauseTask, needs]
              · simp [same]

theorem saveAll_done {faults : StoreFaults} {tasks : List DecisionTask}
    (done : ∀ task ∈ tasks, faults (.save task.id) = .done) (s : FileTaskStore) :
    saveAll faults tasks s = (.ok (), { s with
      tasks := insertAll s.tasks (tasks.map fun task => (task.id, some task)) }) := by
  induction tasks generalizing s with
  | nil => rfl
  | cons task rest ih =>
      rw [List.forall_mem_cons] at done
      unfold saveAll
      simp only [FileTaskStore.save, done.1, ih done.2, List.map_cons, Insertions.insertAll_cons]

/-- Saving what is saved already changes nothing, however far it gets. -/
theorem saveAll_again {faults : StoreFaults} {tasks : List DecisionTask} {s : FileTaskStore}
    (whole : ∀ task ∈ tasks, ∀ text, faults (.save task.id) ≠ .torn text)
    (saved : ∀ task ∈ tasks, s.tasks.lookup task.id = some (some task)) :
    (saveAll faults tasks s).2.completed = s.completed ∧
      ∀ id, (saveAll faults tasks s).2.tasks.lookup id = s.tasks.lookup id := by
  induction tasks generalizing s with
  | nil => exact ⟨rfl, fun _ => rfl⟩
  | cons task rest ih =>
      rw [List.forall_mem_cons] at saved whole
      unfold saveAll FileTaskStore.save
      cases outcome : faults (.save task.id) with
      | done =>
          simp only
          have same : ∀ id, (s.tasks.insert task.id (some task)).lookup id = s.tasks.lookup id := by
            intro id
            by_cases isId : id = task.id
            · rw [isId, AList.lookup_insert, saved.1]
            · rw [AList.lookup_insert_ne isId]
          have later := ih (s := { s with tasks := s.tasks.insert task.id (some task) }) whole.2
            fun other member => (same _).trans (saved.2 other member)
          exact ⟨later.1, fun id => (later.2 id).trans (same id)⟩
      | fails text => exact ⟨rfl, fun _ => rfl⟩
      | torn text => exact absurd outcome (whole.1 text)

/-- The active tasks after the loop of `recover`, and what is saved of them. -/
theorem recover_eq (r : TaskRegistry) (faults : StoreFaults) :
    ∃ all active, (∀ id, active.lookup id = (r.active.lookup id).map pauseTask) ∧
      r.recover faults =
        (((saveAll faults ((pairs active).map (·.2)) r.store).1.mapError .store).map fun _ => all,
          { r with active, store := (saveAll faults ((pairs active).map (·.2)) r.store).2 }) := by
  obtain ⟨⟨all, ok⟩, paused⟩ := pauseAll_paused r.active.keys r.active []
  refine ⟨all, (pauseAll r.active.keys r.active []).2, fun id => ?_, ?_⟩
  · rw [paused]
    split
    · rfl
    · rename_i absent
      rw [AList.lookup_eq_none.mpr absent]
      rfl
  · unfold recover
    generalize pauseAll r.active.keys r.active [] = result at ok
    obtain ⟨_, active⟩ := result
    subst ok
    rfl

theorem pauseTask_id (task : DecisionTask) : (pauseTask task).id = task.id := by
  unfold pauseTask
  split <;> rfl

theorem pauseTask_ongoing {task : DecisionTask} (ongoing : ¬ task.status.isTerminal) :
    ¬ (pauseTask task).status.isTerminal := by
  unfold pauseTask
  split
  · simp
  · exact ongoing

section

variable {active : Map String DecisionTask}

theorem recovered_settled (settled : Settled r)
    (paused : ∀ id, active.lookup id = (r.active.lookup id).map pauseTask) {store : FileTaskStore}
    (files : ∀ id, store.tasks.lookup id = (active.lookup id).map some)
    (archive : store.completed = r.store.completed) : Settled { r with active, store } := by
  constructor
  case toParted =>
    constructor
    case ongoing =>
      intro id other found
      simp only [paused] at found
      obtain ⟨task, before, rfl⟩ := Option.map_eq_some_iff.mp found
      exact pauseTask_ongoing (settled.ongoing id task before)
    case ended => exact settled.ended
    case once => exact settled.once
    case apart =>
      intro task member
      simp only [paused, settled.apart task member, Option.map_none]
  case keys =>
    intro id other found
    simp only [paused] at found
    obtain ⟨task, before, rfl⟩ := Option.map_eq_some_iff.mp found
    rw [pauseTask_id]
    exact settled.keys id task before
  case files => exact files
  case archive =>
    simp only [archive]
    exact settled.archive

/-- A task that is saved after the loop was active before it. -/
theorem recovered_active (settled : Settled r)
    (paused : ∀ id, active.lookup id = (r.active.lookup id).map pauseTask) {task : DecisionTask}
    (listed : task ∈ (pairs active).map (·.2)) :
    active.lookup task.id = some task ∧ ∃ old, r.active.lookup task.id = some old := by
  obtain ⟨⟨id, _⟩, isPair, rfl⟩ := List.mem_map.mp listed
  have found := Insertions.mem_pairs.mp isPair
  have isActive := found
  rw [paused] at found
  obtain ⟨old, wasActive, rfl⟩ := Option.map_eq_some_iff.mp found
  have isId : (pauseTask old).id = id := (pauseTask_id old).trans (settled.keys id old wasActive)
  rw [isId]
  exact ⟨isActive, old, wasActive⟩

/-- Every active task is saved. -/
theorem recovered_files (settled : Settled r)
    (paused : ∀ id, active.lookup id = (r.active.lookup id).map pauseTask) :
    ∀ id, (insertAll r.store.tasks
      (((pairs active).map (·.2)).map fun task => (task.id, some task))).lookup id =
        (active.lookup id).map some := by
  refine Insertions.lookup_insertAll_eq ?_ ?_ ?_
  · intro e member
    obtain ⟨task, listed, rfl⟩ := List.mem_map.mp member
    rw [(recovered_active settled paused listed).1]
    rfl
  · intro id file found
    obtain ⟨task, isActive, rfl⟩ := Option.map_eq_some_iff.mp found
    have listed : task ∈ (pairs active).map (·.2) :=
      List.mem_map.mpr ⟨(id, task), Insertions.mem_pairs.mpr isActive, rfl⟩
    have isId : task.id = id := by
      rw [paused] at isActive
      obtain ⟨old, wasActive, rfl⟩ := Option.map_eq_some_iff.mp isActive
      rw [pauseTask_id, settled.keys id old wasActive]
    exact List.mem_map.mpr ⟨task, listed, by rw [isId]⟩
  · intro id absent
    rw [settled.files]
    simpa [paused] using absent

end

theorem pauseTask_idle (idle : ∀ id task, r.active.lookup id = some task → task.needsRecovery = false)
    (id : String) : (r.active.lookup id).map pauseTask = r.active.lookup id := by
  cases found : r.active.lookup id with
  | none => rfl
  | some task => simp [pauseTask, idle id task found]

theorem recover_preserved (settled : Settled r) {faults : StoreFaults}
    (harmless : Harmless r ⟨.recover, faults⟩) :
    Preserved r ⟨.recover, faults⟩ (r.call ⟨.recover, faults⟩).1 (r.call ⟨.recover, faults⟩).2 := by
  obtain ⟨all, active, paused, recovered⟩ := recover_eq r faults
  have known : ∀ (store : FileTaskStore) id, Known { r with active, store } id ↔
      Known r id ∨ (⟨.recover, faults⟩ : Call).creates = some id := by
    intro store id
    simp only [Known, paused, Option.isSome_map, Call.creates, reduceCtorEq, or_false]
  simp only [call, recovered]
  by_cases saves : ∀ task ∈ (pairs active).map (·.2), faults (.save task.id) = .done
  · rw [saveAll_done saves]
    constructor
    case settled => exact recovered_settled settled paused (recovered_files settled paused) rfl
    case known => exact known _
    case unchanged => rintro ⟨⟩
  · -- where a save fails, nothing was to be paused, and the files say already what is saved
    obtain ⟨other, listed, fails⟩ :
        ∃ task ∈ (pairs active).map (·.2), faults (.save task.id) ≠ .done := by
      simpa only [not_forall, exists_prop] using saves
    have idle : ∀ id task, r.active.lookup id = some task → task.needsRecovery = false := by
      obtain ⟨-, old, wasActive⟩ := recovered_active settled paused listed
      exact ((harmless other.id old wasActive).resolve_left fails).1
    have same : ∀ id, active.lookup id = r.active.lookup id := fun id =>
      (paused id).trans (pauseTask_idle idle id)
    have whole : ∀ task ∈ (pairs active).map (·.2), ∀ text, faults (.save task.id) ≠ .torn text := by
      intro task member text torn
      obtain ⟨-, old, wasActive⟩ := recovered_active settled paused member
      rcases harmless task.id old wasActive with done | ⟨-, notTorn⟩
      · cases done.symm.trans torn
      · exact notTorn text torn
    have saved : ∀ task ∈ (pairs active).map (·.2),
        r.store.tasks.lookup task.id = some (some task) := by
      intro task member
      rw [settled.files, ← same, (recovered_active settled paused member).1]
      rfl
    obtain ⟨archive, files⟩ := saveAll_again whole saved
    constructor
    case settled =>
      refine recovered_settled settled paused (fun id => ?_) archive
      rw [files, settled.files, same]
    case known => exact known _
    case unchanged => exact fun _ => ⟨same, List.Perm.refl _⟩

/-! ## Runs -/

theorem call_preserved (settled : Settled r) {c : Call} (harmless : Harmless r c)
    (fresh : ∀ id, c.creates = some id → ¬ Known r id) :
    Preserved r c (r.call c).1 (r.call c).2 := by
  obtain ⟨op, faults⟩ := c
  cases op with
  | create description constraints id => exact create_preserved settled harmless (fresh id rfl)
  | update id update => exact update_preserved settled harmless
  | complete id =>
      have absent : r.active.lookup id = none := harmless
      simp only [call, TaskRegistry.complete, absent]
      exact Preserved.of_same settled (.refl r) rfl rfl _
  | cancel id reason =>
      have absent : r.active.lookup id = none := harmless
      simp only [call, TaskRegistry.cancel, absent]
      exact Preserved.of_same settled (.refl r) rfl rfl _
  | recover => exact recover_preserved settled harmless
  | restart =>
      exact Preserved.of_same settled (restart_same settled harmless.1 harmless.2)
        (restart_store r faults) rfl _

theorem Preserved.right {c : Call} {answer : Answer} (preserved : Preserved r c answer r') :
    Right ⟨r, c, answer, r'⟩ where
  restarts := ⟨restart_ok r', restart_same preserved.settled (Or.inl rfl) (Or.inl rfl)⟩
  parted := preserved.settled.toParted
  keeps id known := (preserved.known id).mpr (Or.inl known)
  creates id created _ := (preserved.known id).mpr (Or.inr created)
  unchanged := preserved.unchanged

/-- The registry agrees with its files, and the ids still to come are new. -/
structure Ready (r : TaskRegistry) (calls : List Call) : Prop where
  settled : Settled r
  once : (calls.filterMap Call.creates).Nodup
  fresh : ∀ id ∈ calls.filterMap Call.creates, ¬ Known r id

theorem Ready.preserved {c : Call} {rest : List Call} (ready : Ready r (c :: rest))
    (harmless : Harmless r c) : Preserved r c (r.call c).1 (r.call c).2 :=
  call_preserved ready.settled harmless fun id created =>
    ready.fresh id (List.mem_filterMap.mpr ⟨c, List.mem_cons_self, created⟩)

theorem Ready.next {c : Call} {rest : List Call} (ready : Ready r (c :: rest))
    (harmless : Harmless r c) : Ready (r.call c).2 rest := by
  have preserved := ready.preserved harmless
  obtain ⟨-, once, fresh⟩ := ready
  constructor
  case settled => exact preserved.settled
  case once => exact once.sublist ((List.sublist_cons_self c rest).filterMap _)
  case fresh =>
    intro id later known
    rcases (preserved.known id).mp known with before | created
    · exact fresh id (((List.sublist_cons_self c rest).filterMap _).subset later) before
    · rw [List.filterMap_cons_some created] at once
      exact (List.nodup_cons.mp once).1 later

theorem Ready.right {calls : List Call} (ready : Ready r calls)
    (harmless : ∀ x ∈ history call r calls, Harmless x.before x.event) :
    ∀ x ∈ history call r calls, Right x := by
  refine history_right_ahead ?_ ?_ ready harmless
  · intro r c rest meets ready
    exact ready.next meets
  · intro r c rest meets ready
    exact (ready.preserved meets).right

/-- In a run of harmless calls, which create tasks of different ids, every step is right. -/
theorem registry_right {calls : List Call} (once : (calls.filterMap Call.creates).Nodup)
    (harmless : ∀ x ∈ history call {} calls, Harmless x.before x.event) :
    ∀ x ∈ history call {} calls, Right x :=
  Ready.right ⟨empty_settled, once, fun id _ known => by simp [Known] at known⟩ harmless

/-- A task is in progress when its process ends, and is paused before it is loaded again. -/
def interruptedCalls : List Call :=
  [{ op := .create "fix the build" [] "t1" }, { op := .update "t1" { status := some .inProgress } },
    { op := .recover }, { op := .restart }]

theorem registry_right_interrupted :
    ((final call {} interruptedCalls).active.lookup "t1").map DecisionTask.status = some .paused ∧
      ∀ x ∈ history call {} interruptedCalls, Right x := by
  refine ⟨by decide, registry_right (by decide) ?_⟩
  simp only [interruptedCalls, history_cons, history_nil, List.forall_mem_cons]
  refine ⟨rfl, Or.inr ⟨rfl, ?_⟩, fun _ _ _ => Or.inl rfl, ⟨Or.inl rfl, Or.inl rfl⟩, ?_⟩
  · intro status change
    cases change
    decide
  · intro x member
    cases member

/-- A completed task comes back with the status that it was last saved with. -/
theorem completed_task_reverts :
    ¬ ∀ calls : List Call, (calls.filterMap Call.creates).Nodup →
      ∀ x ∈ history call {} calls, Right x := by
  intro always
  have right := always [{ op := .create "fix the build" [] "t1" },
    { op := .update "t1" { status := some .pendingConfirmation } }, { op := .complete "t1" }]
    (by decide)
  simp only [history_cons, history_nil, List.forall_mem_cons] at right
  have same := (right.2.2.1.restarts.2.completed.map DecisionTask.status)
  have differ : ¬ ([.pendingConfirmation] : List DecisionTaskStatus).Perm [.completed] := by decide
  exact differ same

end TaskRegistry

end AgileAgent.Decision
