/-! # Computations that change a state and may fail

What was done before a failure stays done. A statement about such a computation says what
holds where it returns and what holds where it fails, and is put together along its steps.
-/

namespace Fallible

universe u

variable {ε σ α β : Type u} {m : EStateM ε σ α} {s : σ} {returns : α → σ → Prop}
  {fails : ε → σ → Prop}

/-- What holds of the result and the state where a computation returns, and of the error and
    the state where it fails. -/
def Ends (m : EStateM ε σ α) (s : σ) (returns : α → σ → Prop) (fails : ε → σ → Prop) : Prop :=
  match m s with
  | .ok result s' => returns result s'
  | .error error s' => fails error s'

/-- The state at the end, however it ends. -/
def stateAfter (m : EStateM ε σ α) (s : σ) : σ :=
  match m s with
  | .ok _ s' | .error _ s' => s'

@[simp] theorem ends_pure (result : α) : Ends (pure result) s returns fails ↔ returns result s := Iff.rfl

@[simp] theorem ends_throw (error : ε) :
    Ends (throw error : EStateM ε σ α) s returns fails ↔ fails error s := Iff.rfl

@[simp] theorem ends_get {returns : σ → σ → Prop} :
    Ends (get : EStateM ε σ σ) s returns fails ↔ returns s s := Iff.rfl

@[simp] theorem ends_modify {returns : PUnit → σ → Prop} (change : σ → σ) :
    Ends (modify change : EStateM ε σ PUnit) s returns fails ↔ returns ⟨⟩ (change s) := Iff.rfl

@[simp] theorem ends_bind {next : α → EStateM ε σ β} {returns : β → σ → Prop} :
    Ends (m >>= next) s returns fails ↔
      Ends m s (fun result s' => Ends (next result) s' returns fails) fails := by
  simp only [Ends, bind, EStateM.bind]
  cases m s <;> rfl

@[simp] theorem ends_map {f : α → β} {returns : β → σ → Prop} :
    Ends (f <$> m) s returns fails ↔ Ends m s (fun result s' => returns (f result) s') fails := by
  simp only [Ends, Functor.map, EStateM.map]
  cases m s <;> rfl

/-- A computation whose result is not needed. -/
theorem ends_discard {returns : PUnit → σ → Prop} :
    Ends (discard m) s returns fails ↔ Ends m s (fun _ s' => returns ⟨⟩ s') fails :=
  ends_map

theorem Ends.mono {returns' : α → σ → Prop} {fails' : ε → σ → Prop} (ends : Ends m s returns fails)
    (returned : ∀ result s', returns result s' → returns' result s')
    (failed : ∀ error s', fails error s' → fails' error s') : Ends m s returns' fails' := by
  unfold Ends at ends ⊢
  cases h : m s with
  | ok result s' => exact returned _ _ (by simpa [h] using ends)
  | error error s' => exact failed _ _ (by simpa [h] using ends)

theorem Ends.returned {result : α} {s' : σ} (ends : Ends m s returns fails)
    (ran : m s = .ok result s') : returns result s' := by
  simpa [Ends, ran] using ends

theorem Ends.failed {error : ε} {s' : σ} (ends : Ends m s returns fails)
    (ran : m s = .error error s') : fails error s' := by
  simpa [Ends, ran] using ends

/-- What is known of the ends of a computation decides another statement about them. -/
theorem Ends.iff {returns' : α → σ → Prop} {fails' : ε → σ → Prop} {holds : Prop}
    (ends : Ends m s returns fails)
    (returned : ∀ result s', returns result s' → (returns' result s' ↔ holds))
    (failed : ∀ error s', fails error s' → (fails' error s' ↔ holds)) :
    Ends m s returns' fails' ↔ holds := by
  unfold Ends at ends ⊢
  cases h : m s with
  | ok result s' => exact returned _ _ (by simpa [h] using ends)
  | error error s' => exact failed _ _ (by simpa [h] using ends)

@[simp] theorem ends_adaptExcept {ε' : Type u} {f : ε → ε'} {fails : ε' → σ → Prop} :
    Ends (m.adaptExcept f) s returns fails ↔ Ends m s returns fun error s' => fails (f error) s' := by
  simp only [Ends, EStateM.adaptExcept]
  cases m s <;> rfl

/-- A computation followed by another one. -/
theorem Ends.andThen {next : α → EStateM ε σ β} {returns' : β → σ → Prop} {fails' : ε → σ → Prop}
    (first : Ends m s returns fails)
    (second : ∀ result s', returns result s' → Ends (next result) s' returns' fails')
    (failed : ∀ error s', fails error s' → fails' error s') : Ends (m >>= next) s returns' fails' :=
  ends_bind.mpr (first.mono second failed)

theorem Ends.stateAfter {holds : σ → Prop}
    (ends : Ends m s (fun _ s' => holds s') fun _ s' => holds s') : holds (stateAfter m s) := by
  unfold Ends at ends
  unfold Fallible.stateAfter
  cases h : m s <;> simpa [h] using ends

/-! ## More steps

A computation that is stopped after some steps and one that may take more: they agree where the
first one is not stopped.
-/

/-- The second computation does what the first one does, unless the first one is stopped. -/
def Outlasts (stop : ε) (m m' : EStateM ε σ α) : Prop := ∀ s, (∃ s', m s = .error stop s') ∨ m s = m' s

namespace Outlasts

variable {stop : ε} {m' : EStateM ε σ α} {next next' : α → EStateM ε σ β}

theorem refl (m : EStateM ε σ α) : Outlasts stop m m := fun _ => .inr rfl

theorem stopped (m : EStateM ε σ α) : Outlasts stop (throw stop) m := fun s => .inl ⟨s, rfl⟩

theorem bind (first : Outlasts stop m m') (then' : ∀ result, Outlasts stop (next result) (next' result)) :
    Outlasts stop (m >>= next) (m' >>= next') := by
  intro s
  simp only [Bind.bind, EStateM.bind]
  rcases first s with ⟨s', stopped⟩ | same
  · exact .inl ⟨s', by rw [stopped]⟩
  · rw [← same]
    cases m s with
    | ok result s' => exact then' result s'
    | error error s' => exact .inr rfl

theorem andThen (m : EStateM ε σ α) (then' : ∀ result, Outlasts stop (next result) (next' result)) :
    Outlasts stop (m >>= next) (m >>= next') :=
  (refl m).bind then'

/-- Where the first computation is not stopped the second one is the same. -/
theorem eq_of_ends (outlasts : Outlasts stop m m') (ends : Ends m s returns fails)
    (runs : ∀ s', ¬ fails stop s') : m' s = m s := by
  rcases outlasts s with ⟨s', stopped⟩ | same
  · simp only [Ends, stopped] at ends
    exact absurd ends (runs s')
  · exact same.symm

end Outlasts

end Fallible
