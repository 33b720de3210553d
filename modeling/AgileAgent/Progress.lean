import AgileAgent.Machine

/-! # Progress of runs without end

The states of a run that takes events forever, and the rule by which it reaches what a rank
measures: no event raises the rank, and one that helps lowers it.
-/

namespace Machine

universe u v w

variable {S : Type u} {E : Type v} {O : Type w} {step : S → E → O × S}

/-- The state after the first events of a run. -/
def stateAt (step : S → E → O × S) (s : S) (events : Nat → E) : Nat → S
  | 0 => s
  | n + 1 => (step (stateAt step s events n) (events n)).2

@[simp] theorem stateAt_zero (s : S) (events : Nat → E) : stateAt step s events 0 = s := rfl

@[simp] theorem stateAt_succ (s : S) (events : Nat → E) (n : Nat) :
    stateAt step s events (n + 1) = (step (stateAt step s events n) (events n)).2 := rfl

/-- What every step keeps, if it meets its condition, holds all along. -/
theorem stateAt_invariant {invariant : S → Prop} {meets : S → E → Prop}
    (keeps : ∀ s e, meets s e → invariant s → invariant (step s e).2) {s : S} (starts : invariant s)
    {events : Nat → E} (all : ∀ n, meets (stateAt step s events n) (events n)) (n : Nat) :
    invariant (stateAt step s events n) := by
  induction n with
  | zero => exact starts
  | succ n ih => exact keeps _ _ (all n) ih

/-- An event that helps at a rank comes again and again, and until it does the rank stays or
    falls. So the rank falls to zero. -/
theorem rank_reaches_zero {rank : Nat → Nat} {helps : Nat → Nat → Prop}
    (steady : ∀ n, rank (n + 1) ≤ rank n)
    (falls : ∀ n, rank n ≠ 0 → helps (rank n) n → rank (n + 1) < rank n)
    (fair : ∀ r n, ∃ m, n ≤ m ∧ helps r m) (n : Nat) : ∃ m, n ≤ m ∧ rank m = 0 := by
  have waits (n k : Nat) : rank (n + k) = rank n ∨ ∃ m, n ≤ m ∧ rank m < rank n := by
    induction k with
    | zero => exact .inl rfl
    | succ k ih =>
        rcases ih with same | lower
        · rcases Nat.lt_or_eq_of_le (steady (n + k)) with less | equal
          · exact .inr ⟨n + k + 1, by omega, same ▸ less⟩
          · exact .inl (equal.trans same)
        · exact .inr lower
  induction low : rank n using Nat.strongRecOn generalizing n with
  | _ r ih =>
      by_cases done : rank n = 0
      · exact ⟨n, Nat.le_refl n, done⟩
      · obtain ⟨m, later, helping⟩ := fair (rank n) n
        obtain ⟨m', after, less⟩ : ∃ m, n ≤ m ∧ rank m < rank n := by
          rcases waits n (m - n) with same | lower
          · rw [Nat.add_sub_cancel' later] at same
            exact ⟨m + 1, by omega, same ▸ falls m (same ▸ done) (same ▸ helping)⟩
          · exact lower
        obtain ⟨last, beyond, zero⟩ := ih (rank m') (low ▸ less) m' rfl
        exact ⟨last, Nat.le_trans after beyond, zero⟩

end Machine
