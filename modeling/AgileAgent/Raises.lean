import Mathlib.Data.List.Basic

/-! # Which errors a computation can raise

A bound on the errors of a computation is put together from those of its steps.
-/

universe u v w

/-- Every error the computation can end in is allowed. -/
def Raises {ε : Type u} {α : Type v} (allowed : ε → Prop) (x : Except ε α) : Prop :=
  ∀ e, x = .error e → allowed e

namespace Raises

variable {ε : Type u} {α β : Type v} {allowed : ε → Prop}

@[simp] theorem ok {a : α} : Raises allowed (.ok a) := nofun

@[simp] theorem error {e : ε} : Raises allowed (.error e : Except ε α) ↔ allowed e :=
  ⟨fun raises => raises e rfl, fun here _ same => Except.error.inj same ▸ here⟩

@[simp] theorem bind_iff {x : Except ε α} {f : α → Except ε β} : Raises allowed (x >>= f) ↔
    Raises allowed x ∧ ∀ a, x = .ok a → Raises allowed (f a) := by
  cases x <;> simp [Bind.bind, Except.bind]

@[simp] theorem map_iff {x : Except ε α} {f : α → β} :
    Raises allowed (x.map f) ↔ Raises allowed x := by
  cases x <;> simp [Except.map]

end Raises
