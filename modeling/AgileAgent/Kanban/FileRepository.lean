import Mathlib.Data.List.AList
import Mathlib.Data.List.Sort
import AgileAgent.Kanban.ElementIds
import AgileAgent.Kanban.Repository
import AgileAgent.Machine

/-! # The file repository

A file for each element, an index of their ids, and counters in memory that are read off the
file names when the repository is opened. Each step on a file may fail; `Path::exists` gives no
error and is not such a step. What `serde_json` writes it reads back.
-/

namespace AgileAgent.Kanban

/-- How a step on a file ends. A write that is torn leaves a file that cannot be read back. -/
inductive Outcome where
  | done
  | fails (message : String)
  | torn (message : String) (reading : KanbanError)
  deriving Repr, DecidableEq

inductive Stored (α : Type) where
  | intact (content : α)
  | broken (reading : KanbanError)
  deriving Repr, DecidableEq

/-- What reading a file gives. -/
def Stored.read {α : Type} : Stored α → Except KanbanError α
  | .intact content => .ok content
  | .broken reading => .error reading

/-- What a write puts in the place of a file, if anything. -/
def Outcome.stores {α : Type} (content : α) : Outcome → Option (Stored α)
  | .done => some (.intact content)
  | .fails _ => none
  | .torn _ reading => some (.broken reading)

/-- The steps of an operation that may fail; no operation takes one of them twice. -/
inductive FileStep where
  | createDir
  | readDir
  | readEntry (id : ElementId)
  | readElement (id : ElementId)
  | writeElement
  | removeElement
  | readIndex
  | writeIndex
  deriving Repr, DecidableEq

abbrev Faults := FileStep → Outcome

structure FileKanbanRepository where
  /-- The files of `elements/`, by their stems. -/
  elements : AList fun _ : ElementId => Stored KanbanElement
  index : Option (Stored (List String))
  counters : ElementType → Nat

namespace FileKanbanRepository

def attempt {R : Type} (faults : Faults) (step : FileStep) (context : String) : Call R Unit :=
  match faults step with
  | .done => return
  | .fails message | .torn message _ => throw (.repositoryError (context ++ message))

/-- A file name in `load_counters`. -/
def count (counters : ElementType → Nat) (stem : ElementId) : ElementType → Nat :=
  match ElementId.parse stem.text with
  | .ok id => if counters id.typeOf < id.number then Function.update counters id.typeOf id.number else counters
  | .error _ => counters

/-- The loop of `load_counters`. -/
def countEntries (faults : Faults) : List ElementId → (ElementType → Nat) →
    Call FileKanbanRepository (ElementType → Nat)
  | [], counters => return counters
  | stem :: rest, counters => do
      attempt faults (.readEntry stem) "failed to read entry: "
      countEntries faults rest (count counters stem)

/-- `FileKanbanRepository::new` on the directory; what was open before stays open if it fails. -/
def reopen (faults : Faults) : Call FileKanbanRepository Unit := do
  attempt faults .createDir "failed to create elements dir: "
  attempt faults .readDir "failed to read elements dir: "
  let counters ← countEntries faults (← MonadState.get).elements.keys fun _ => 0
  modify fun r => { r with counters }

def updateIndex (faults : Faults) (ids : List ElementId) : Call FileKanbanRepository Unit := do
  modify fun r =>
    { r with index := ((faults .writeIndex).stores (ids.map ElementId.text)).or r.index }
  attempt faults .writeIndex "failed to write index: "

/-- The ids of an index file. -/
def parseIndex : List String → Except KanbanError (List ElementId)
  | [] => .ok []
  | text :: rest =>
      match ElementId.parse text with
      | .ok id => (parseIndex rest).map (id :: ·)
      | .error error => .error (.serializationError ("invalid index: " ++ error.display))

def readIndex (faults : Faults) : Call FileKanbanRepository (List ElementId) := do
  match (← MonadState.get).index with
  | none => return []
  | some stored =>
      attempt faults .readIndex "failed to read index: "
      ofExcept (stored.read >>= parseIndex)

def get (faults : Faults) (id : ElementId) : Call FileKanbanRepository (Option KanbanElement) := do
  match (← MonadState.get).elements.lookup id with
  | none => return none
  | some stored =>
      attempt faults (.readElement id) "failed to read element: "
      ofExcept (stored.read.map some)

/-- The loop of `list`. -/
def gather (faults : Faults) : List ElementId → Call FileKanbanRepository (List KanbanElement)
  | [] => return []
  | id :: rest => do
      let found ← get faults id
      let elements ← gather faults rest
      return found.toList ++ elements

/-- The text that `list` sorts by. -/
def sortKey (element : KanbanElement) : String := (element.id.map ElementId.text).getD ""

def list (faults : Faults) : Call FileKanbanRepository (List KanbanElement) := do
  let ids ← readIndex faults
  let elements ← gather faults ids
  return elements.insertionSort fun a b => sortKey a ≤ sortKey b

def writeElement (faults : Faults) (id : ElementId) (element : KanbanElement) :
    Call FileKanbanRepository Unit := do
  modify fun r =>
    match (faults .writeElement).stores element with
    | some stored => { r with elements := r.elements.insert id stored }
    | none => r
  attempt faults .writeElement "failed to write element: "

def save (faults : Faults) (element : KanbanElement) : Call FileKanbanRepository Unit :=
  match element.id with
  | none => throw (.repositoryError "element has no ID")
  | some id => do
      writeElement faults id element
      let ids ← readIndex faults
      if id ∉ ids then
        updateIndex faults ((ids ++ [id]).insertionSort fun a b => a.text ≤ b.text)

def removeElement (faults : Faults) (id : ElementId) : Call FileKanbanRepository Unit := do
  if ((← MonadState.get).elements.lookup id).isSome then
    attempt faults .removeElement "failed to delete element: "
    modify fun r => { r with elements := r.elements.erase id }

def delete (faults : Faults) (id : ElementId) : Call FileKanbanRepository Unit := do
  removeElement faults id
  let ids ← readIndex faults
  updateIndex faults (ids.filter (· ≠ id))

/-- The counters are 32 bits wide. -/
def newId (elementType : ElementType) : Call FileKanbanRepository ElementId := do
  let next := ((← MonadState.get).counters elementType + 1) % 2 ^ 32
  modify fun r => { r with counters := Function.update r.counters elementType next }
  return .create elementType next

/-- No step fails. -/
def calm : Faults := fun _ => .done

instance : KanbanElementRepository FileKanbanRepository where
  get := get calm
  list := list calm
  save := save calm
  delete := delete calm
  newId := newId

def empty : FileKanbanRepository := ⟨∅, none, fun _ => 0⟩

end FileKanbanRepository

/-- An operation on a directory. The ids of saved elements were made by `new` or `parse`. -/
inductive FileOp where
  | newId (elementType : ElementType)
  | save (element : KanbanElement) (formed : ∀ id, element.id = some id → id.WellFormed)
  | delete (id : ElementId)
  | reopen

structure FileEvent where
  op : FileOp
  faults : Faults := FileKanbanRepository.calm

/-- A repository, and the ids that it has issued. -/
structure FileRun where
  repository : FileKanbanRepository
  issued : List ElementId

namespace FileRun

open FileKanbanRepository

def perform (faults : Faults) : FileOp → Call FileKanbanRepository (Option ElementId)
  | .newId elementType => do return some (← newId elementType)
  | .save element _ => do
      save faults element
      return none
  | .delete id => do
      delete faults id
      return none
  | .reopen => do
      reopen faults
      return none

def step (run : FileRun) (event : FileEvent) : Except KanbanError (Option ElementId) × FileRun :=
  match perform event.faults event.op run.repository with
  | .ok issued next => (.ok issued, ⟨next, run.issued ++ issued.toList⟩)
  | .error error next => (.error error, ⟨next, run.issued⟩)

def start : FileRun := ⟨.empty, []⟩

end FileRun

end AgileAgent.Kanban
