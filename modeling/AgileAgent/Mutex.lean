import Mathlib.Data.List.Induction
import Mathlib.Data.List.Infix

/-! # A lock that can be poisoned

A thread that panics while it holds the lock gives it up and poisons it for good. Trying the
lock does not wait.
-/

structure Mutex (τ α : Type) where
  contents : α
  holder : Option τ
  poisoned : Bool

namespace Mutex

variable {τ α : Type} [DecidableEq τ]

def create (contents : α) : Mutex τ α := ⟨contents, none, false⟩

/-- What threads do with the lock. -/
inductive Step (τ α : Type) where
  | acquire (thread : τ)
  | write (thread : τ) (contents : α)
  | release (thread : τ)
  | panic (thread : τ)

/-- Threads wait for a lock that is held, and only its holder can do the rest. -/
def step (m : Mutex τ α) : Step τ α → Mutex τ α
  | .acquire thread => if m.holder.isNone then { m with holder := some thread } else m
  | .write thread contents => if m.holder = some thread then { m with contents } else m
  | .release thread => if m.holder = some thread then { m with holder := none } else m
  | .panic thread =>
      if m.holder = some thread then { m with holder := none, poisoned := true } else m

def run (m : Mutex τ α) (steps : List (Step τ α)) : Mutex τ α := steps.foldl step m

inductive TryLock (α : Type) where
  | ok (contents : α)
  | wouldBlock
  | poisoned (contents : α)

def tryLock (m : Mutex τ α) : TryLock α :=
  if m.holder.isSome then .wouldBlock
  else if m.poisoned then .poisoned m.contents
  else .ok m.contents

theorem run_append (m : Mutex τ α) (first second : List (Step τ α)) :
    m.run (first ++ second) = (m.run first).run second := List.foldl_append

/-- Some thread panics while it holds the lock. -/
def Panics (m : Mutex τ α) (steps : List (Step τ α)) : Prop :=
  ∃ front thread, front ++ [.panic thread] <+: steps ∧ (m.run front).holder = some thread

theorem Panics.mono {m : Mutex τ α} {front steps : List (Step τ α)} (panics : m.Panics front)
    (inside : front <+: steps) : m.Panics steps := by
  obtain ⟨earlier, thread, first, held⟩ := panics
  exact ⟨earlier, thread, first.trans inside, held⟩

theorem panics_nil (m : Mutex τ α) : ¬ m.Panics [] := by
  rintro ⟨front, thread, inside, -⟩
  simp at inside

theorem panics_snoc (m : Mutex τ α) (steps : List (Step τ α)) (s : Step τ α) :
    m.Panics (steps ++ [s]) ↔
      m.Panics steps ∨ ∃ thread, s = .panic thread ∧ (m.run steps).holder = some thread := by
  constructor
  · rintro ⟨front, thread, inside, held⟩
    rcases List.prefix_concat_iff.mp inside with last | earlier
    · obtain ⟨rfl, same⟩ := List.append_inj' last rfl
      exact .inr ⟨thread, by simpa using same.symm, held⟩
    · exact .inl ⟨front, thread, earlier, held⟩
  · rintro (⟨front, thread, inside, held⟩ | ⟨thread, rfl, held⟩)
    · exact ⟨front, thread, inside.trans (List.prefix_append _ _), held⟩
    · exact ⟨steps, thread, List.prefix_rfl, held⟩

theorem poisoned_step (m : Mutex τ α) (s : Step τ α) :
    (m.step s).poisoned ↔ m.poisoned ∨ ∃ thread, s = .panic thread ∧ m.holder = some thread := by
  cases s with
  | panic thread => by_cases held : m.holder = some thread <;> simp [step, held]
  | _ => simp only [step]; split <;> simp

theorem poisoned_run (m : Mutex τ α) (steps : List (Step τ α)) :
    (m.run steps).poisoned ↔ m.poisoned ∨ m.Panics steps := by
  induction steps using List.reverseRecOn with
  | nil => simp [run, panics_nil]
  | append_singleton steps s ih =>
      have last : m.run (steps ++ [s]) = (m.run steps).step s := run_append m steps [s]
      rw [last, poisoned_step, ih, panics_snoc, or_assoc]

/-- Whoever holds the lock can release it. -/
theorem exists_release (m : Mutex τ α) : ∃ steps : List (Step τ α),
    (m.run steps).holder = none ∧ (m.run steps).poisoned = m.poisoned := by
  cases held : m.holder with
  | none => exact ⟨[], held, rfl⟩
  | some thread => exact ⟨[.release thread], by simp [run, step, held]⟩

end Mutex
