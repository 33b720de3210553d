import Mathlib.Data.List.Basic
import Mathlib.Data.List.Perm.Basic

/-! # Loops over inputs that may fail to load

A loop that loads one input after another and stops at the first failure does the same
as loading all of them first. The loaded values come in the order of the inputs.
-/

namespace Loading

variable {ε α β σ : Type}

theorem bind_eq_ok {x : Except ε α} {f : α → Except ε β} {b : β} :
    x >>= f = .ok b ↔ ∃ a, x = .ok a ∧ f a = .ok b := by
  cases x <;> simp [bind, Except.bind]

theorem mapM_cons_eq_ok {load : α → Except ε β} {a : α} {rest : List α} {loaded : List β} :
    (a :: rest).mapM load = .ok loaded ↔
      ∃ b later, load a = .ok b ∧ rest.mapM load = .ok later ∧ loaded = b :: later := by
  rw [List.mapM_cons]
  cases first : load a with
  | error e => simp [bind, Except.bind]
  | ok b =>
      cases tail : rest.mapM load with
      | error e => simp [bind, Except.bind]
      | ok later => simp [bind, Except.bind, pure, Except.pure, eq_comm]

theorem foldlM_eq {load : α → Except ε β} {add : σ → β → σ} {turn : σ → α → Except ε σ}
    (turns : ∀ s a, turn s a = (load a).map (add s)) (inputs : List α) (s : σ) :
    inputs.foldlM turn s = (inputs.mapM load).map fun loaded => loaded.foldl add s := by
  induction inputs generalizing s with
  | nil => rfl
  | cons a rest ih =>
      rw [List.foldlM_cons, List.mapM_cons, turns]
      cases load a with
      | error e => rfl
      | ok b =>
          change rest.foldlM turn (add s b) = _
          rw [ih]
          change _ = Except.map _ (Except.bind _ _)
          cases rest.mapM load <;> rfl

theorem foldlM_eq_ok {load : α → Except ε β} {add : σ → β → σ} {turn : σ → α → Except ε σ}
    (turns : ∀ s a, turn s a = (load a).map (add s)) {inputs : List α} {s s' : σ} :
    inputs.foldlM turn s = .ok s' ↔ ∃ loaded, inputs.mapM load = .ok loaded ∧ s' = loaded.foldl add s := by
  rw [foldlM_eq turns]
  cases inputs.mapM load <;> simp [Except.map, eq_comm]

/-- Every input loads, to the value at its place. -/
theorem mem_of_mapM {load : α → Except ε β} {inputs : List α} {loaded : List β}
    (all : inputs.mapM load = .ok loaded) {b : β} (member : b ∈ loaded) :
    ∃ a ∈ inputs, load a = .ok b := by
  induction inputs generalizing loaded with
  | nil =>
      obtain rfl : [] = loaded := Except.ok.inj all
      cases member
  | cons a rest ih =>
      obtain ⟨first, later, here, tail, rfl⟩ := mapM_cons_eq_ok.mp all
      rcases List.mem_cons.mp member with rfl | below
      · exact ⟨a, List.mem_cons_self, here⟩
      · obtain ⟨a', inside, loads⟩ := ih tail below
        exact ⟨a', List.mem_cons_of_mem _ inside, loads⟩

/-- Load an input and check what was loaded. -/
def checked (load : α → Except ε β) (check : β → Except ε Unit) (a : α) : Except ε β := do
  let b ← load a
  check b
  .ok b

theorem checked_eq_ok {load : α → Except ε β} {check : β → Except ε Unit} {a : α} {b : β} :
    checked load check a = .ok b ↔ load a = .ok b ∧ check b = .ok () := by
  unfold checked
  cases load a with
  | error e => simp [bind, Except.bind]
  | ok b' =>
      cases passed : check b' <;> simp [bind, Except.bind, passed]
      · rintro rfl
        simp [passed]
      · rintro rfl
        exact passed

theorem mapM_checked_eq_ok {load : α → Except ε β} {check : β → Except ε Unit} {inputs : List α}
    {loaded : List β} : inputs.mapM (checked load check) = .ok loaded ↔
      inputs.mapM load = .ok loaded ∧ ∀ b ∈ loaded, check b = .ok () := by
  induction inputs generalizing loaded with
  | nil =>
      simp only [List.mapM_nil, pure, Except.pure, Except.ok.injEq]
      constructor
      · rintro rfl
        simp
      · exact fun all => all.1
  | cons a rest ih =>
      simp only [mapM_cons_eq_ok, ih, checked_eq_ok]
      constructor
      · rintro ⟨b, later, ⟨here, passed⟩, ⟨tail, rest⟩, rfl⟩
        exact ⟨⟨b, later, here, tail, rfl⟩, List.forall_mem_cons.mpr ⟨passed, rest⟩⟩
      · rintro ⟨⟨b, later, here, tail, rfl⟩, all⟩
        obtain ⟨passed, rest⟩ := List.forall_mem_cons.mp all
        exact ⟨b, later, ⟨here, passed⟩, ⟨tail, rest⟩, rfl⟩

theorem mapM_perm {load : α → Except ε β} {left right : List α} (perm : left.Perm right)
    {loaded : List β} (all : left.mapM load = .ok loaded) :
    ∃ loaded', right.mapM load = .ok loaded' ∧ loaded.Perm loaded' := by
  induction perm generalizing loaded with
  | nil => exact ⟨loaded, all, .refl _⟩
  | cons a _ ih =>
      obtain ⟨b, later, here, tail, rfl⟩ := mapM_cons_eq_ok.mp all
      obtain ⟨later', tail', perm⟩ := ih tail
      exact ⟨b :: later', mapM_cons_eq_ok.mpr ⟨b, later', here, tail', rfl⟩, perm.cons b⟩
  | swap a a' rest =>
      obtain ⟨b, later, here, tail, rfl⟩ := mapM_cons_eq_ok.mp all
      obtain ⟨b', later', there, tail', rfl⟩ := mapM_cons_eq_ok.mp tail
      refine ⟨b' :: b :: later', ?_, .swap b' b later'⟩
      exact mapM_cons_eq_ok.mpr ⟨b', _, there, mapM_cons_eq_ok.mpr ⟨b, _, here, tail', rfl⟩, rfl⟩
  | trans _ _ ih ih' =>
      obtain ⟨middle, first, perm⟩ := ih all
      obtain ⟨last, second, perm'⟩ := ih' first
      exact ⟨last, second, perm.trans perm'⟩

end Loading
