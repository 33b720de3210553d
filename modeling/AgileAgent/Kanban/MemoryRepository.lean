import Mathlib.Data.List.AList
import AgileAgent.Kanban.Dependencies
import AgileAgent.Kanban.Numbering

/-! # A repository in memory

Elements by their ids and a counter for each type, as the file repository keeps them when no
file operation fails.
-/

namespace AgileAgent.Kanban

structure MemoryRepository where
  elements : AList fun _ : ElementId => KanbanElement
  counters : ElementType → Nat
  named : ∀ id e, elements.lookup id = some e → e.id = some id

namespace MemoryRepository

def empty : MemoryRepository := ⟨∅, fun _ => 0, by simp⟩

def put (r : MemoryRepository) (id : ElementId) (e : KanbanElement) (named : e.id = some id) :
    MemoryRepository :=
  { r with
    elements := r.elements.insert id e
    named := by
      intro other x found
      by_cases same : other = id
      · subst same
        rw [AList.lookup_insert] at found
        exact Option.some.inj found ▸ named
      · rw [AList.lookup_insert_ne same] at found
        exact r.named other x found }

def remove (r : MemoryRepository) (id : ElementId) : MemoryRepository :=
  { r with
    elements := r.elements.erase id
    named := by
      intro other x found
      by_cases same : other = id
      · subst same
        simp at found
      · rw [AList.lookup_erase_ne same] at found
        exact r.named other x found }

instance : KanbanElementRepository MemoryRepository where
  get id := fun r => .ok (r.elements.lookup id) r
  list := fun r => .ok (r.elements.entries.map Sigma.snd) r
  save e := fun r =>
    if named : e.id.isSome then
      .ok () (r.put (e.id.get named) e (Option.some_get named).symm)
    else .error (.repositoryError "element has no ID") r
  delete id := fun r => .ok () (r.remove id)
  newId elementType := fun r =>
    let next := r.counters elementType + 1
    .ok (.create elementType next) { r with counters := Function.update r.counters elementType next }

def board (r : MemoryRepository) : Board := fun id => r.elements.lookup id

theorem board_put (r : MemoryRepository) {id : ElementId} {e : KanbanElement} (named : e.id = some id) :
    (r.put id e named).board = Function.update r.board id (some e) := by
  funext other
  by_cases same : other = id
  · subst same
    simp [board, put]
  · simp [board, put, same]

theorem board_remove (r : MemoryRepository) (id : ElementId) :
    (r.remove id).board = Function.update r.board id none := by
  funext other
  by_cases same : other = id
  · subst same
    simp [board, remove]
  · simp [board, remove, same]

instance : LawfulRepository MemoryRepository where
  board := board
  board_id := MemoryRepository.named
  get_reads id r := ⟨rfl, rfl⟩
  list_reads r := by
    refine ⟨fun e => ?_, rfl⟩
    simp [board, ← AList.mem_lookup_iff]
  save_performs e r := by
    by_cases named : e.id.isSome
    · have saved : KanbanElementRepository.save e r =
          .ok () (r.put (e.id.get named) e (Option.some_get named).symm) := dif_pos named
      rw [Performs, saved]
      exact ⟨_, (Option.some_get named).symm, r.board_put _⟩
    · simp [Performs, KanbanElementRepository.save, named]
  delete_performs id r := r.board_remove id
  newId_reads elementType r := ⟨trivial, rfl⟩

/-- The ids that the counters have passed. -/
def issued (r : MemoryRepository) : Set ElementId :=
  { id | ∃ elementType number, id = .create elementType number ∧ number ≤ r.counters elementType }

theorem save_issued (e : KanbanElement) : Grows issued (KanbanElementRepository.save e) := by
  rintro r id ⟨elementType, number, rfl, passed⟩
  have counters : (left (KanbanElementRepository.save e) r).counters = r.counters := by
    by_cases named : e.id.isSome <;> simp [left, KanbanElementRepository.save, named, put]
  exact ⟨elementType, number, rfl, counters ▸ passed⟩

theorem newId_issued (elementType : ElementType) : Grows issued (KanbanElementRepository.newId elementType) := by
  rintro r id ⟨other, number, rfl, passed⟩
  refine ⟨other, number, rfl, ?_⟩
  by_cases same : other = elementType
  · subst same
    simpa [left, KanbanElementRepository.newId] using Nat.le_succ_of_le passed
  · simpa [left, KanbanElementRepository.newId, Function.update_of_ne same] using passed

theorem newId_new {elementType : ElementType} {r s : MemoryRepository} {id : ElementId}
    (given : KanbanElementRepository.newId elementType r = .ok id s) : id ∉ issued r ∧ id ∈ issued s := by
  cases given
  refine ⟨?_, elementType, _, rfl, by simp⟩
  rintro ⟨other, number, same, passed⟩
  obtain ⟨rfl, rfl⟩ := ElementId.create_inj same
  omega

instance : NumberedRepository MemoryRepository where
  issued := issued
  get_grows _ _ _ member := member
  list_grows _ _ member := member
  save_grows := save_issued
  delete_grows _ _ _ member := member
  newId_grows := newId_issued
  newId_fresh _ _ _ _ given := newId_new given

/-- Two tasks, and a command that makes each wait for the other. -/
def deadlock : List Command :=
  [.createElement (.task { title := "build" }), .createElement (.task { title := "test" }),
    .addDependency ⟨"task-001"⟩ ⟨"task-002"⟩, .addDependency ⟨"task-002"⟩ ⟨"task-001"⟩]

/-- Commands of the service make elements wait for each other. -/
theorem deadlock_not_unblocked : ¬ ∀ commands : List Command,
    Unblocked (KanbanService.run none MemoryRepository.empty commands).board := by
  intro all
  have first : DependsOn (KanbanService.run none MemoryRepository.empty deadlock).board
      ⟨"task-001"⟩ ⟨"task-002"⟩ := ⟨_, rfl, by decide⟩
  have second : DependsOn (KanbanService.run none MemoryRepository.empty deadlock).board
      ⟨"task-002"⟩ ⟨"task-001"⟩ := ⟨_, rfl, by decide⟩
  exact (all deadlock).acyclic _ (.tail (.single first) second)

/-- A task that depends on another, and a tip for it. -/
theorem build_then_test_unblocked :
    let commands : List Command := [.createElement (.task { title := "build" }),
      .createElement (.task { title := "test", dependencies := [⟨"task-001"⟩] }),
      .appendTip ⟨"task-002"⟩ "agent_001" "slow"]
    let reached := (KanbanService.run none MemoryRepository.empty commands).board
    Unblocked reached ∧ ∀ s : Finset ElementId, s.Nonempty → ∃ a ∈ s, ∀ b ∈ s, ¬ DependsOn reached a b := by
  refine careful_run_unblocked (R := MemoryRepository) none MemoryRepository.empty _ (fun _ => rfl) ?_
  refine ⟨fun _ _ _ _ none => (List.not_mem_nil none).elim, ?_, trivial, trivial⟩
  rintro id s ⟨⟩ d isBuild
  cases List.mem_singleton.mp isBuild
  refine ⟨rfl, fun path => ?_⟩
  obtain same | ⟨next, ⟨e, ⟨⟩, depends⟩, -⟩ := Relation.ReflTransGen.cases_head path
  · exact absurd same (by decide)
  · cases depends

end MemoryRepository

end AgileAgent.Kanban
