import Mathlib.Data.Fintype.Card
import Mathlib.Data.Set.Finite.Basic
import Mathlib.Logic.Relation
import Mathlib.Order.WellFounded

/-! # Relations without cycles

What keeps a relation free of cycles when all arrows that leave one point are drawn anew.
-/

open Relation

universe u

variable {α : Type u} {r r' : α → α → Prop}

def Acyclic (r : α → α → Prop) : Prop := ∀ a, ¬ TransGen r a a

namespace Acyclic

theorem empty (none : ∀ a b, ¬ r a b) : Acyclic r := by
  intro a cycle
  obtain ⟨b, first, -⟩ := TransGen.head'_iff.mp cycle
  exact none a b first

theorem mono (acyclic : Acyclic r) (fewer : ∀ a b, r' a b → r a b) : Acyclic r' :=
  fun a cycle => acyclic a (TransGen.mono fewer a a cycle)

/-- A path to `x` needs no arrow that leaves `x`. -/
theorem path_to {x : α} (others : ∀ a b, r' a b → a ≠ x → r a b) {a : α}
    (path : ReflTransGen r' a x) : ReflTransGen r a x := by
  induction path using ReflTransGen.head_induction_on with
  | refl => exact .refl
  | @head a b first _ ih =>
      by_cases here : a = x
      · exact here ▸ .refl
      · exact ih.head (others a b first here)

/-- A path that is none of the old relation takes one of the new arrows, which all leave `x`. -/
theorem path_through {x : α} (others : ∀ a b, r' a b → a ≠ x → r a b) {a b : α}
    (path : TransGen r' a b) :
    TransGen r a b ∨ ∃ y, r' x y ∧ ¬ r x y ∧ ReflTransGen r' a x ∧ ReflTransGen r' y b := by
  induction path with
  | @single b first =>
      by_cases old : r a b
      · exact .inl (.single old)
      · have here : a = x := by
          by_contra elsewhere
          exact old (others a b first elsewhere)
        subst here
        exact .inr ⟨b, first, old, .refl, .refl⟩
  | @tail b c path last ih =>
      rcases ih with before | ⟨y, leaves, fresh, toX, fromY⟩
      · by_cases old : r b c
        · exact .inl (before.tail old)
        · have here : b = x := by
            by_contra elsewhere
            exact old (others b c last elsewhere)
          subst here
          exact .inr ⟨c, last, old, path.to_reflTransGen, .refl⟩
      · exact .inr ⟨y, leaves, fresh, toX, fromY.tail last⟩

/-- Arrows that leave `x` for points without a way back to `x` close no cycle. -/
theorem redirect {x : α} (acyclic : Acyclic r) (others : ∀ a b, r' a b → a ≠ x → r a b)
    (safe : ∀ b, r' x b → ¬ r x b → ¬ ReflTransGen r b x) : Acyclic r' := by
  intro a cycle
  rcases path_through others cycle with old | ⟨y, leaves, fresh, toX, fromY⟩
  · exact acyclic a old
  · exact safe y leaves fresh (path_to others (fromY.trans toX))

/-- Some point of a finite set has no arrow into it. -/
theorem exists_free (acyclic : Acyclic r) (s : Finset α) (nonempty : s.Nonempty) :
    ∃ a ∈ s, ∀ b ∈ s, ¬ r a b := by
  let below : s → s → Prop := fun b a => TransGen r a b
  have trans : IsTrans s below := ⟨fun _ _ _ first second => TransGen.trans second first⟩
  have irrefl : Std.Irrefl below := ⟨fun a => acyclic a⟩
  obtain ⟨first, member⟩ := nonempty
  obtain ⟨a, -, least⟩ :=
    (Finite.wellFounded_of_trans_of_irrefl below).has_min Set.univ ⟨⟨first, member⟩, trivial⟩
  exact ⟨a, a.2, fun b inside arrow => least ⟨b, inside⟩ trivial (.single arrow)⟩

end Acyclic
