import Mathlib.Logic.Function.Basic
import AgileAgent.Kanban.Domain

/-! # Repositories of kanban elements

What the service asks of a repository, and the laws it relies on: a call that fails leaves the
elements alone, and one that succeeds does what its name says.
-/

namespace AgileAgent.Kanban

/-- A call on a repository. -/
abbrev Call (R α : Type) := EStateM KanbanError R α

/-- `KanbanElementRepository`, as far as the service's commands use it. -/
class KanbanElementRepository (R : Type) where
  get : ElementId → Call R (Option KanbanElement)
  list : Call R (List KanbanElement)
  save : KanbanElement → Call R Unit
  delete : ElementId → Call R Unit
  newId : ElementType → Call R ElementId

/-- The repository that a call leaves. -/
def left {R α : Type} (call : Call R α) (r : R) : R :=
  match call r with
  | .ok _ next | .error _ next => next

/-- The elements of a repository, by the id they are saved under. -/
abbrev Board := ElementId → Option KanbanElement

/-- A call that returns takes the board to one that `returns` allows; one that fails leaves it. -/
def Performs {R α : Type} (board : R → Board) (call : Call R α) (r : R) (returns : α → Board → Prop) :
    Prop :=
  match call r with
  | .ok result after => returns result (board after)
  | .error _ after => board after = board r

/-- A call that leaves the board alone. -/
abbrev Reads {R α : Type} (board : R → Board) (call : Call R α) (r : R) (found : α → Prop) : Prop :=
  Performs board call r fun result after => found result ∧ after = board r

open KanbanElementRepository in
class LawfulRepository (R : Type) [KanbanElementRepository R] where
  board : R → Board
  board_id : ∀ r id e, board r id = some e → e.id = some id
  get_reads : ∀ id r, Reads board (get id) r fun found => found = board r id
  list_reads : ∀ r, Reads board list r fun all => ∀ e, e ∈ all ↔ ∃ id, board r id = some e
  save_performs : ∀ e r, Performs board (save e) r fun _ after =>
    ∃ id, e.id = some id ∧ after = Function.update (board r) id (some e)
  delete_performs : ∀ id r, Performs board (delete id) r fun _ after =>
    after = Function.update (board r) id none
  newId_reads : ∀ elementType r, Reads board (newId elementType) r fun _ => True

section

variable {R α β : Type} {board : R → Board} {r : R}

theorem bind_ok {first : Call R α} {next : α → Call R β} {result : α} {s : R}
    (called : first r = .ok result s) : (first >>= next) r = next result s := by
  simp [bind, EStateM.bind, called]

theorem bind_error {first : Call R α} {next : α → Call R β} {error : KanbanError} {s : R}
    (called : first r = .error error s) : (first >>= next) r = .error error s := by
  simp [bind, EStateM.bind, called]

theorem left_bind {first : Call R α} {next : α → Call R β} {result : α} {s : R}
    (called : first r = .ok result s) : left (first >>= next) r = left (next result) s := by
  simp [left, bind_ok called]

theorem left_stopped {first : Call R α} {next : α → Call R β} {error : KanbanError} {s : R}
    (called : first r = .error error s) : left (first >>= next) r = s := by
  simp [left, bind_error called]

theorem Performs.mono {call : Call R α} {strong weak : α → Board → Prop}
    (performs : Performs board call r strong) (implies : ∀ a b, strong a b → weak a b) :
    Performs board call r weak := by
  unfold Performs at performs ⊢
  split
  · rename_i called
    rw [called] at performs
    exact implies _ _ performs
  · rename_i called
    rw [called] at performs
    exact performs

theorem Performs.pure (result : α) {returns : α → Board → Prop} (holds : returns result (board r)) :
    Performs board (Pure.pure result : Call R α) r returns := holds

theorem Performs.throw (error : KanbanError) {returns : α → Board → Prop} :
    Performs board (throw error : Call R α) r returns := rfl

/-- What follows an error does not run. -/
theorem Performs.thrown (error : KanbanError) {next : α → Call R β} {returns : β → Board → Prop} :
    Performs board (MonadExcept.throw error >>= next : Call R β) r returns := rfl

/-- A call whose result is used without a further call. -/
theorem Performs.return {call : Call R α} {f : α → β} {returns : Board → Prop}
    (performs : Performs board call r fun _ after => returns after) :
    Performs board (do let result ← call; return f result) r fun _ after => returns after := by
  unfold Performs at performs ⊢
  cases called : call r <;> simp_all [bind, EStateM.bind, Pure.pure, EStateM.pure]

/-- A call that leaves the board alone, and then another from the state it returned in. -/
theorem Reads.followed {first : Call R α} {next : α → Call R β} {found : α → Prop}
    {returns : β → Board → Prop} (reads : Reads board first r found)
    (rest : ∀ result s, first r = .ok result s → found result → board s = board r →
      Performs board (next result) s returns) :
    Performs board (first >>= next) r returns := by
  cases called : first r with
  | ok result s =>
      have step : (first >>= next) r = next result s := bind_ok called
      simp only [Reads, Performs, called] at reads
      have performs := rest result s called reads.1 reads.2
      simp only [Performs, step, ← reads.2]
      exact performs
  | error error s =>
      have step : (first >>= next) r = .error error s := bind_error called
      simp only [Reads, Performs, called] at reads
      simpa only [Performs, step] using reads

theorem Reads.andThen {first : Call R α} {next : α → Call R β} {found : α → Prop}
    {returns : β → Board → Prop} (reads : Reads board first r found)
    (rest : ∀ result s, found result → board s = board r → Performs board (next result) s returns) :
    Performs board (first >>= next) r returns :=
  reads.followed fun result s _ => rest result s

end

end AgileAgent.Kanban
