import Mathlib.Data.List.MinMax

/-! # Selecting from a list by a key

`List.argmax` takes the first of the elements with the greatest key; here it is said where in the
list that element stands, and the same for a search that takes the last one.
-/

namespace Selection

universe u v

variable {α : Type u} {κ : Type v} [LinearOrder κ] {key : α → κ} {xs : List α} {x y : α}

/-- The first of the elements with the greatest key. -/
def FirstMax (key : α → κ) (xs : List α) (x : α) : Prop :=
  ∃ before after, xs = before ++ x :: after ∧
    (∀ y ∈ before, key y < key x) ∧ ∀ y ∈ after, key y ≤ key x

/-- The last of the elements with the greatest key. -/
def LastMax (key : α → κ) (xs : List α) (x : α) : Prop :=
  ∃ before after, xs = before ++ x :: after ∧
    (∀ y ∈ before, key y ≤ key x) ∧ ∀ y ∈ after, key y < key x

/-- The search that lets a later element of the same key win. -/
def maxByKey (key : α → κ) : List α → Option α
  | [] => none
  | x :: xs => some (xs.foldl (fun best y => if key best ≤ key y then y else best) x)

theorem FirstMax.mem (first : FirstMax key xs x) : x ∈ xs := by
  obtain ⟨before, after, rfl, -, -⟩ := first
  exact List.mem_append_right _ List.mem_cons_self

theorem argmax_eq_some_iff : xs.argmax key = some x ↔ FirstMax key xs x := by
  constructor
  · induction xs generalizing x with
    | nil =>
        intro found
        cases found
    | cons a l ih =>
        rw [List.argmax_cons]
        cases rest : l.argmax key with
        | none =>
            rintro ⟨⟩
            rw [List.argmax_eq_none.mp rest]
            exact ⟨[], [], rfl, by simp, by simp⟩
        | some c =>
            simp only
            split
            · rename_i less
              rintro ⟨⟩
              obtain ⟨before, after, rfl, lower, most⟩ := ih rest
              refine ⟨a :: before, after, rfl, ?_, most⟩
              exact List.forall_mem_cons.mpr ⟨less, lower⟩
            · rename_i most
              rintro ⟨⟩
              refine ⟨[], l, rfl, by simp, fun y member => ?_⟩
              exact (List.le_of_mem_argmax member rest).trans (not_lt.mp most)
  · rintro ⟨before, after, rfl, lower, most⟩
    induction before with
    | nil =>
        rw [List.nil_append, List.argmax_cons]
        cases rest : after.argmax key with
        | none => rfl
        | some c =>
            have below := most c (List.argmax_mem rest)
            exact if_neg (not_lt.mpr below)
    | cons b before ih =>
        rw [List.forall_mem_cons] at lower
        rw [List.cons_append, List.argmax_cons, ih lower.2]
        exact if_pos lower.1

/-- There is one first element with the greatest key. -/
theorem FirstMax.unique (first : FirstMax key xs x) (other : FirstMax key xs y) : x = y := by
  rw [← argmax_eq_some_iff] at first other
  exact Option.some.inj (first.symm.trans other)

/-- What the search keeps while it goes through the list. -/
theorem foldl_lastMax (x : α) (xs : List α) :
    LastMax key (x :: xs) (xs.foldl (fun best y => if key best ≤ key y then y else best) x) := by
  induction xs using List.reverseRecOn with
  | nil => exact ⟨[], [], rfl, by simp, by simp⟩
  | append_singleton xs y ih =>
      rw [List.foldl_append, List.foldl_cons, List.foldl_nil]
      obtain ⟨before, after, whole, most, lower⟩ := ih
      split
      · rename_i wins
        refine ⟨x :: xs, [], rfl, ?_, by simp⟩
        rw [whole]
        intro z member
        rcases List.mem_append.mp member with front | tail
        · exact (most z front).trans wins
        · rcases List.mem_cons.mp tail with rfl | back
          · exact wins
          · exact (lower z back).le.trans wins
      · rename_i loses
        refine ⟨before, after ++ [y], ?_, most, ?_⟩
        · rw [← List.cons_append, whole]
          simp
        · intro z member
          rcases List.mem_append.mp member with back | last
          · exact lower z back
          · rw [List.mem_singleton.mp last]
            exact not_le.mp loses

/-- The last one is the first one from behind. -/
theorem lastMax_iff_reverse : LastMax key xs x ↔ FirstMax key xs.reverse x := by
  constructor
  · rintro ⟨before, after, rfl, most, lower⟩
    refine ⟨after.reverse, before.reverse, by simp, ?_, ?_⟩
    · exact fun y member => lower y (List.mem_reverse.mp member)
    · exact fun y member => most y (List.mem_reverse.mp member)
  · rintro ⟨before, after, whole, lower, most⟩
    refine ⟨after.reverse, before.reverse, ?_, ?_, ?_⟩
    · rw [← List.reverse_reverse xs, whole]
      simp
    · exact fun y member => most y (List.mem_reverse.mp member)
    · exact fun y member => lower y (List.mem_reverse.mp member)

theorem LastMax.unique (last : LastMax key xs x) (other : LastMax key xs y) : x = y :=
  (lastMax_iff_reverse.mp last).unique (lastMax_iff_reverse.mp other)

theorem maxByKey_lastMax (found : maxByKey key xs = some x) : LastMax key xs x := by
  cases xs with
  | nil => cases found
  | cons y xs =>
      rw [← Option.some.inj found]
      exact foldl_lastMax y xs

theorem maxByKey_eq_none : maxByKey key xs = none ↔ xs = [] := by
  cases xs <;> simp [maxByKey]

theorem LastMax.mem (last : LastMax key xs x) : x ∈ xs := by
  obtain ⟨before, after, rfl, -, -⟩ := last
  exact List.mem_append_right _ List.mem_cons_self

theorem LastMax.most (last : LastMax key xs x) (member : y ∈ xs) : key y ≤ key x := by
  obtain ⟨before, after, rfl, most, lower⟩ := last
  cases List.mem_append.mp member with
  | inl front => exact most y front
  | inr back =>
      cases List.mem_cons.mp back with
      | inl same => exact same ▸ le_refl _
      | inr behind => exact (lower y behind).le

/-- The one with the greatest key in every order: it is the only one. -/
theorem maxByKey_stable_iff [DecidableEq α] {p : α → Bool} :
    (∀ order : List α, order.Perm xs → maxByKey key (order.filter p) = some x) ↔
      (x ∈ xs ∧ p x) ∧ ∀ y ∈ xs, p y → y ≠ x → key y < key x := by
  constructor
  · intro stable
    have last := maxByKey_lastMax (stable xs (List.Perm.refl xs))
    refine ⟨List.mem_filter.mp last.mem, ?_⟩
    intro y inside kept other
    have most := last.most (List.mem_filter.mpr ⟨inside, kept⟩)
    refine lt_of_le_of_ne most fun same => other ?_
    -- asked last, it wins with the same key
    have order : (xs.erase y ++ [y]).Perm xs :=
      List.perm_append_comm.trans (List.perm_cons_erase inside).symm
    have wins := maxByKey_lastMax (stable _ order)
    have final : LastMax key ((xs.erase y ++ [y]).filter p) y := by
      refine ⟨(xs.erase y).filter p, [], by simp [kept], ?_, by simp⟩
      intro z front
      have here : z ∈ xs.filter p :=
        List.mem_filter.mpr ⟨List.mem_of_mem_erase (List.mem_filter.mp front).1, (List.mem_filter.mp front).2⟩
      exact same ▸ last.most here
    exact final.unique wins
  · intro only order perm
    obtain ⟨⟨inside, kept⟩, lower⟩ := only
    have member : x ∈ order.filter p := List.mem_filter.mpr ⟨perm.mem_iff.mpr inside, kept⟩
    cases found : maxByKey key (order.filter p) with
    | none => exact absurd (maxByKey_eq_none.mp found ▸ member) List.not_mem_nil
    | some y =>
        have last := maxByKey_lastMax found
        obtain ⟨there, kept'⟩ := List.mem_filter.mp last.mem
        by_contra differ
        have less := lower y (perm.mem_iff.mp there) kept' fun same => differ (congrArg some same)
        exact absurd (last.most member) (not_le.mpr less)

end Selection
