import Mathlib.Data.List.Nodup
import Mathlib.Data.List.Basic
import Mathlib.Data.List.Find

/-! # The first match in a list

Collections that are searched from the front: what a change of the first match does to the
rest of the list and to later searches.
-/

namespace FirstMatch

universe u v

variable {α : Type u} {β : Type v} {p q : α → Bool} {change : α → α} {xs : List α} {x : α}

/-- Change the first element that matches. -/
def modify (p : α → Bool) (change : α → α) : List α → List α
  | [] => []
  | x :: xs => if p x then change x :: xs else x :: modify p change xs

@[simp] theorem modify_nil : modify p change [] = [] := rfl

theorem modify_cons : modify p change (x :: xs) =
    if p x then change x :: xs else x :: modify p change xs := rfl

theorem modify_of_none (none : xs.find? p = none) : modify p change xs = xs := by
  induction xs with
  | nil => rfl
  | cons x xs ih =>
      rw [List.find?_cons] at none
      cases match_x : p x with
      | true => simp [match_x] at none
      | false => simp [modify_cons, match_x, ih (by simpa [match_x] using none)]

theorem modify_append_of_none {ys : List α} (none : xs.find? p = none) :
    modify p change (xs ++ ys) = xs ++ modify p change ys := by
  induction xs with
  | nil => rfl
  | cons x xs ih =>
      rw [List.find?_cons] at none
      cases match_x : p x with
      | true => simp [match_x] at none
      | false => simp [modify_cons, match_x, ih (by simpa [match_x] using none)]

theorem modify_congr {other : α → α} (same : ∀ x, xs.find? p = some x → change x = other x) :
    modify p change xs = modify p other xs := by
  induction xs with
  | nil => rfl
  | cons x xs ih =>
      cases match_x : p x with
      | true => simp [modify_cons, match_x, same x (by simp [match_x])]
      | false => simp [modify_cons, match_x, ih fun y found => same y (by simp [match_x, found])]

@[simp] theorem modify_id : modify p id xs = xs := by
  induction xs with
  | nil => rfl
  | cons x xs ih => simp [modify_cons, ih]

theorem modify_modify {next : α → α} (keeps : ∀ x, p x → p (change x)) :
    modify p next (modify p change xs) = modify p (fun x => next (change x)) xs := by
  induction xs with
  | nil => rfl
  | cons x xs ih =>
      cases match_x : p x with
      | true => simp [modify_cons, match_x, keeps x match_x]
      | false => simp [modify_cons, match_x, ih]

/-- The matches of `q` that the change does not touch. -/
theorem find?_modify_of_ne (apart : ∀ x, p x → q x = false ∧ q (change x) = false) :
    (modify p change xs).find? q = xs.find? q := by
  induction xs with
  | nil => rfl
  | cons x xs ih =>
      cases match_x : p x with
      | true => simp [modify_cons, match_x, apart x match_x]
      | false => simp [modify_cons, match_x, List.find?_cons, ih]

theorem find?_modify (keeps : ∀ x, p x → p (change x)) :
    (modify p change xs).find? p = (xs.find? p).map change := by
  induction xs with
  | nil => rfl
  | cons x xs ih =>
      cases match_x : p x with
      | true => simp [modify_cons, match_x, keeps x match_x]
      | false => simp [modify_cons, match_x, ih]

theorem map_modify {f : α → β} (same : ∀ x, f (change x) = f x) :
    (modify p change xs).map f = xs.map f := by
  induction xs with
  | nil => rfl
  | cons x xs ih =>
      rw [modify_cons]
      split <;> simp [same, ih]

@[simp] theorem length_modify : (modify p change xs).length = xs.length := by
  induction xs with
  | nil => rfl
  | cons x xs ih =>
      rw [modify_cons]
      split <;> simp [ih]

/-- Whatever does not match is left as it was, in its place. -/
theorem getElem?_modify {i : Nat} (here : xs[i]? = some x) (not : p x = false) :
    (modify p change xs)[i]? = some x := by
  induction xs generalizing i with
  | nil => cases here
  | cons y xs ih =>
      cases i with
      | zero =>
          cases here
          simp [modify_cons, not]
      | succ i =>
          rw [modify_cons]
          split
          · simpa using here
          · simpa using ih (by simpa using here)

/-- The first match is changed in its place. -/
theorem getElem?_modify_found (found : xs.find? p = some x) :
    ∃ i : Nat, xs[i]? = some x ∧ (modify p change xs)[i]? = some (change x) := by
  induction xs with
  | nil => cases found
  | cons y xs ih =>
      cases match_y : p y with
      | true =>
          rw [List.find?_cons, match_y] at found
          cases found
          exact ⟨0, by simp, by simp [modify_cons, match_y]⟩
      | false =>
          rw [List.find?_cons, match_y] at found
          obtain ⟨i, here, changed⟩ := ih found
          exact ⟨i + 1, by simpa using here, by simpa [modify_cons, match_y] using changed⟩

/-- Elements that are told apart by a key: taking out the first one with a key leaves none. -/
theorem eraseP_eq_filter [DecidableEq β] {key : α → β} {k : β} (distinct : (xs.map key).Nodup) :
    xs.eraseP (fun x => key x = k) = xs.filter fun x => key x ≠ k := by
  induction xs with
  | nil => rfl
  | cons x xs ih =>
      rw [List.map_cons, List.nodup_cons] at distinct
      by_cases isKey : key x = k
      · have others : ∀ y ∈ xs, key y ≠ k := by
          rintro y member rfl
          exact distinct.1 (isKey ▸ List.mem_map_of_mem member)
        simpa [isKey] using (List.filter_eq_self.mpr (by simpa using others)).symm
      · simp [isKey, ih distinct.2]

/-- Elements that are told apart by a key: a search for what the changed element is not. -/
theorem find?_modify_gone [DecidableEq β] {key : α → β} {k : β} (distinct : (xs.map key).Nodup)
    (gone : ∀ x, xs.find? (fun x => key x = k) = some x → q (change x) = false) :
    (modify (fun x => key x = k) change xs).find? q = xs.find? fun x => key x ≠ k && q x := by
  induction xs with
  | nil => rfl
  | cons x xs ih =>
      rw [List.map_cons, List.nodup_cons] at distinct
      by_cases isKey : key x = k
      · have others : ∀ y ∈ xs, key y ≠ k := by
          rintro y member rfl
          exact distinct.1 (isKey ▸ List.mem_map_of_mem member)
        have rest : (xs.find? fun x => key x ≠ k && q x) = xs.find? q :=
          List.find?_congr fun y member => by simp [others y member]
        simpa [modify_cons, isKey, gone x (by simp [isKey])] using rest.symm
      · have later := ih distinct.2 fun y found => gone y (by simpa [isKey] using found)
        simp [modify_cons, isKey, List.find?_cons, later]

/-- Elements that are told apart by a key: the first one with a key is the only one. -/
theorem modify_eq_map [DecidableEq β] {key : α → β} {k : β} (distinct : (xs.map key).Nodup) :
    modify (fun x => key x = k) change xs = xs.map fun x => if key x = k then change x else x := by
  induction xs with
  | nil => rfl
  | cons x xs ih =>
      rw [List.map_cons, List.nodup_cons] at distinct
      by_cases isKey : key x = k
      · have others : ∀ y ∈ xs, (if key y = k then change y else y) = y := by
          intro y member
          refine if_neg fun same => distinct.1 ?_
          rw [isKey, ← same]
          exact List.mem_map_of_mem member
        have rest : (xs.map fun y => if key y = k then change y else y) = xs :=
          (List.map_congr_left others).trans (List.map_id xs)
        simp [modify_cons, isKey, rest]
      · simp [modify_cons, isKey, ih distinct.2]

/-- Elements that are told apart by a key: the one that is asked for. -/
theorem filter_eq_singleton {key : α → β} (distinct : (xs.map key).Nodup) (member : x ∈ xs)
    (only : ∀ y ∈ xs, p y = true ↔ key y = key x) : xs.filter p = [x] := by
  by_contra other
  have kept : (xs.filter p).Nodup := (List.Nodup.of_map key distinct).filter p
  rcases (kept.ne_singleton_iff x).mp other with empty | ⟨y, found, apart⟩
  · have kept := List.mem_filter.mpr ⟨member, (only x member).mpr rfl⟩
    rw [empty] at kept
    cases kept
  · obtain ⟨inside, passes⟩ := List.mem_filter.mp found
    exact apart (List.inj_on_of_nodup_map distinct inside member ((only y inside).mp passes))

/-- Elements that are told apart by a key: one of them and all that have another key. -/
theorem perm_cons_filter [DecidableEq β] {key : α → β} (distinct : (xs.map key).Nodup) (member : x ∈ xs) :
    xs.Perm (x :: xs.filter fun y => key y ≠ key x) := by
  have mine : xs.filter (fun y => key y = key x) = [x] :=
    filter_eq_singleton distinct member fun y _ => decide_eq_true_iff
  have parts := List.filter_append_perm (fun y => decide (key y = key x)) xs
  rw [mine] at parts
  simpa using parts.symm

theorem filter_ne_self [DecidableEq β] {key : α → β} {k : β} (other : ∀ y ∈ xs, key y ≠ k) :
    (xs.filter fun y => key y ≠ k) = xs :=
  List.filter_eq_self.mpr fun y member => decide_eq_true (other y member)

/-- What does not match stays. -/
theorem mem_modify (member : x ∈ xs) (not : p x = false) : x ∈ modify p change xs := by
  obtain ⟨i, here⟩ := List.mem_iff_getElem?.mp member
  exact List.mem_of_getElem? (getElem?_modify here not)

theorem eraseIdx_findIdx : xs.eraseIdx (xs.findIdx p) = xs.eraseP p := by
  induction xs with
  | nil => rfl
  | cons x xs ih =>
      cases match_x : p x with
      | true => simp [List.findIdx_cons, match_x]
      | false => simp [List.findIdx_cons, match_x, ih]

end FirstMatch
