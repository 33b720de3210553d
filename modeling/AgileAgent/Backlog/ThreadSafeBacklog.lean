import AgileAgent.Mutex
import AgileAgent.Backlog.BacklogState

/-! # The shared backlog

Four ways into a backlog behind a lock. They differ in what they make of a lock that another
thread holds, and of one that is poisoned.
-/

namespace AgileAgent.Backlog

open Mutex (TryLock Step)

/-- `ThreadSafeBacklog`, shared by threads `τ`. -/
structure ThreadSafeBacklog (τ : Type) where
  inner : Mutex τ BacklogState

namespace ThreadSafeBacklog

variable {τ : Type} [DecidableEq τ]

def create (state : BacklogState) : ThreadSafeBacklog τ := ⟨Mutex.create state⟩

/-- `read_with_timeout`: one try for each time the deadline has not passed, and what other
    threads do before it. -/
def readWithTimeout (b : ThreadSafeBacklog τ) :
    List (List (Step τ BacklogState)) → Option BacklogState
  | [] => none
  | others :: tries =>
      let inner := b.inner.run others
      match inner.tryLock with
      | .ok state => some state
      | .wouldBlock => readWithTimeout ⟨inner⟩ tries
      | .poisoned state => some state

def intoInner (b : ThreadSafeBacklog τ) : BacklogState := b.inner.contents

def cloneInner (b : ThreadSafeBacklog τ) : BacklogState :=
  match b.inner.tryLock with
  | .ok state => state
  | .wouldBlock => {}
  | .poisoned state => state

def update (b : ThreadSafeBacklog τ) (f : BacklogState → BacklogState) :
    Bool × ThreadSafeBacklog τ :=
  match b.inner.tryLock with
  | .ok state => (true, ⟨{ b.inner with contents := f state }⟩)
  | _ => (false, b)

def clone (b : ThreadSafeBacklog τ) : ThreadSafeBacklog τ := create b.cloneInner

/-- The backlog after steps of other threads. -/
def after (b : ThreadSafeBacklog τ) (steps : List (Step τ BacklogState)) : ThreadSafeBacklog τ :=
  ⟨b.inner.run steps⟩

end ThreadSafeBacklog

open ThreadSafeBacklog

/-- Copies show the contents, and `update` and `read_with_timeout` agree on a poisoned lock,
    whatever other threads do while the reader waits. -/
structure Accessible {τ : Type} [DecidableEq τ] (b : ThreadSafeBacklog τ) : Prop where
  cloneInner : b.cloneInner = b.inner.contents
  clone : b.clone.inner.contents = b.inner.contents
  agree : b.inner.poisoned → ∀ f tries, (b.update f).1 = (b.readWithTimeout tries).isSome

/-- Nobody holds the lock of a backlog that is not empty, and nobody has panicked with it. -/
structure Undisturbed {τ : Type} [DecidableEq τ] (b : ThreadSafeBacklog τ)
    (steps : List (Step τ BacklogState)) : Prop where
  free : ∀ front, front <+: steps →
    (b.after front).inner.holder = none ∨ (b.after front).inner.contents = {}
  calm : ¬ b.inner.Panics steps

section

variable {τ : Type}

theorem cloneInner_eq_iff (b : ThreadSafeBacklog τ) :
    b.cloneInner = b.inner.contents ↔ b.inner.holder = none ∨ b.inner.contents = {} := by
  cases held : b.inner.holder <;> cases poisoned : b.inner.poisoned <;>
    simp [ThreadSafeBacklog.cloneInner, Mutex.tryLock, held, poisoned, eq_comm]

theorem update_of_poisoned (b : ThreadSafeBacklog τ) (poisoned : b.inner.poisoned)
    (f : BacklogState → BacklogState) : (b.update f).1 = false := by
  cases held : b.inner.holder <;> simp [ThreadSafeBacklog.update, Mutex.tryLock, held, poisoned]

end

variable {τ : Type} [DecidableEq τ]

/-- A reader gets into a poisoned backlog once its lock is released. -/
theorem exists_read_of_poisoned (b : ThreadSafeBacklog τ) (poisoned : b.inner.poisoned) :
    ∃ tries, (b.readWithTimeout tries).isSome := by
  obtain ⟨others, released, kept⟩ := b.inner.exists_release
  exact ⟨[others], by simp [readWithTimeout, Mutex.tryLock, released, kept, poisoned]⟩

theorem accessible_iff (b : ThreadSafeBacklog τ) :
    Accessible b ↔ (b.inner.holder = none ∨ b.inner.contents = {}) ∧ ¬ b.inner.poisoned := by
  constructor
  · rintro ⟨inner, -, agree⟩
    refine ⟨(cloneInner_eq_iff b).mp inner, fun poisoned => ?_⟩
    obtain ⟨tries, reads⟩ := exists_read_of_poisoned b poisoned
    have same := agree poisoned id tries
    rw [update_of_poisoned b poisoned, reads] at same
    cases same
  · rintro ⟨free, clean⟩
    have inner := (cloneInner_eq_iff b).mpr free
    exact ⟨inner, inner, fun poisoned => absurd poisoned clean⟩

/-- The ways into a shared backlog keep their promises throughout a run exactly when no thread
    ever holds the lock of a backlog that is not empty and none panics while it holds it. -/
theorem accessible_throughout_iff (state : BacklogState) (steps : List (Step τ BacklogState)) :
    (∀ front, front <+: steps → Accessible ((create state).after front)) ↔
      Undisturbed (create state) steps := by
  have poisoned (front : List (Step τ BacklogState)) :
      ((create state).after front).inner.poisoned ↔ (create state).inner.Panics front := by
    simp [after, Mutex.poisoned_run, create, Mutex.create]
  constructor
  · intro accessible
    refine ⟨fun front inside => ((accessible_iff _).mp (accessible front inside)).1, ?_⟩
    rw [← poisoned]
    exact ((accessible_iff _).mp (accessible steps List.prefix_rfl)).2
  · rintro ⟨free, calm⟩ front inside
    rw [accessible_iff, poisoned]
    exact ⟨free front inside, fun panics => calm (panics.mono inside)⟩

/-- A clone made while another thread holds the lock is empty, and after a panic `update` gives
    up where `read_with_timeout` still reads. -/
theorem disturbed_not_accessible :
    let state : BacklogState := { tasks := [⟨"task-1", "todo-1", "", "", [], [], .running, none⟩] }
    let shared : ThreadSafeBacklog Nat := create state
    (shared.after [.acquire 1]).cloneInner ≠ (shared.after [.acquire 1]).inner.contents ∧
      (shared.after [.acquire 1, .panic 1]).inner.poisoned ∧
      ((shared.after [.acquire 1, .panic 1]).update id).1 = false ∧
      ((shared.after [.acquire 1, .panic 1]).readWithTimeout [[]]).isSome := by
  decide

end AgileAgent.Backlog
