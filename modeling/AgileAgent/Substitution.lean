import Mathlib.Data.List.Induction
import Mathlib.Data.List.Infix
import Mathlib.Logic.Function.Basic
import Mathlib.Tactic.Linarith

/-! # Substitution in sequences

A pattern is replaced from left to right, each time behind what was replaced before. Several patterns
are substituted at once by filling the holes of a template. To replace them one after the other comes
to the same as long as none is found but in its own holes.
-/

namespace Substitution

variable {α ι : Type}

/-! ## Replacing a pattern -/

section

variable [DecidableEq α] {p q : List α}

/-- The elements of an occurrence that are still to be passed over are counted. -/
def replaceFrom (p q : List α) : Nat → List α → List α
  | _, [] => []
  | skip + 1, _ :: rest => replaceFrom p q skip rest
  | 0, a :: rest =>
      if p <+: a :: rest then q ++ replaceFrom p q (p.length - 1) rest
      else a :: replaceFrom p q 0 rest

/-- Every occurrence of a pattern, from left to right and without overlaps (`str::replace`). -/
def replace (p q text : List α) : List α := replaceFrom p q 0 text

theorem replaceFrom_skip (w rest : List α) : replaceFrom p q w.length (w ++ rest) = replace p q rest := by
  induction w with
  | nil => rfl
  | cons a w ih =>
      rw [List.length_cons, List.cons_append, replaceFrom]
      exact ih

theorem replace_nil : replace p q [] = [] := rfl

theorem replace_found (nonempty : p ≠ []) (rest : List α) :
    replace p q (p ++ rest) = q ++ replace p q rest := by
  cases p with
  | nil => exact absurd rfl nonempty
  | cons a p =>
      have here : a :: p <+: a :: (p ++ rest) := List.prefix_append (a :: p) rest
      rw [List.cons_append, replace, replaceFrom, if_pos here]
      exact congrArg (q ++ ·) (replaceFrom_skip p rest)

theorem replace_cons {a : α} {rest : List α} (other : ¬ p <+: a :: rest) :
    replace p q (a :: rest) = a :: replace p q rest := by
  rw [replace, replaceFrom, if_neg other]
  rfl

/-- What can be shown of a text along the way of `replace`. -/
theorem replace_induction {motive : List α → Prop} (nonempty : p ≠ []) (nil : motive [])
    (found : ∀ rest, motive rest → motive (p ++ rest))
    (cons : ∀ a rest, ¬ p <+: a :: rest → motive rest → motive (a :: rest)) (text : List α) :
    motive text := by
  induction length : text.length using Nat.strongRecOn generalizing text with
  | ind n ih =>
      cases text with
      | nil => exact nil
      | cons a rest =>
          by_cases here : p <+: a :: rest
          · obtain ⟨behind, whole⟩ := here
            have positive := List.length_pos_of_ne_nil nonempty
            have shorter := congrArg List.length whole
            rw [List.length_append] at shorter
            rw [← whole]
            exact found behind (ih behind.length (by omega) behind rfl)
          · exact cons a rest here (ih rest.length (by rw [List.length_cons] at length; omega) rest rfl)

theorem replace_self (nonempty : p ≠ []) (text : List α) : replace p p text = text := by
  induction text using replace_induction nonempty with
  | nil => rfl
  | found rest ih => rw [replace_found nonempty, ih]
  | cons a rest other ih => rw [replace_cons other, ih]

/-- Where no occurrence begins nothing happens. -/
theorem replace_append {w rest : List α}
    (outside : ∀ front back, w ++ rest = front ++ p ++ back → w.length ≤ front.length) :
    replace p q (w ++ rest) = w ++ replace p q rest := by
  induction w with
  | nil => rfl
  | cons a w ih =>
      have other : ¬ p <+: a :: (w ++ rest) := by
        intro here
        obtain ⟨back, whole⟩ := here
        have long := outside [] back whole.symm
        exact absurd long (by simp)
      rw [List.cons_append, replace_cons other, ih, List.cons_append]
      intro front back whole
      have long := outside (a :: front) back (congrArg (a :: ·) whole)
      rw [List.length_cons, List.length_cons] at long
      omega

theorem replace_absent {w : List α} (absent : ¬ p <:+: w) : replace p q w = w := by
  have whole := @replace_append α _ p q w [] fun front back found =>
    absurd ⟨front, back, by rw [← found, List.append_nil]⟩ absent
  rwa [List.append_nil, replace_nil, List.append_nil] at whole

end

/-! ## The first occurrence -/

section

variable [DecidableEq α] {p : List α}

/-- A text on both sides of the first occurrence of a pattern (`str::find`). -/
def splitFirst (p : List α) : List α → Option (List α × List α)
  | [] => none
  | a :: rest =>
      if p <+: a :: rest then some ([], (a :: rest).drop p.length)
      else (splitFirst p rest).map fun sides => (a :: sides.1, sides.2)

theorem splitFirst_cons {a : α} {rest : List α} (other : ¬ p <+: a :: rest) :
    splitFirst p (a :: rest) = (splitFirst p rest).map fun sides => (a :: sides.1, sides.2) := by
  rw [splitFirst, if_neg other]

theorem splitFirst_found (nonempty : p ≠ []) (rest : List α) : splitFirst p (p ++ rest) = some ([], rest) := by
  cases p with
  | nil => exact absurd rfl nonempty
  | cons a p =>
      have here : a :: p <+: a :: (p ++ rest) := List.prefix_append (a :: p) rest
      rw [List.cons_append, splitFirst, if_pos here]
      exact congrArg (fun back => some ([], back)) List.drop_left

theorem splitFirst_text {text front back : List α} (found : splitFirst p text = some (front, back)) :
    text = front ++ (p ++ back) := by
  induction text generalizing front with
  | nil => cases found
  | cons a rest ih =>
      rw [splitFirst] at found
      split at found
      · next here =>
          obtain ⟨rfl, rfl⟩ := Prod.mk.inj (Option.some.inj found)
          exact (List.prefix_iff_eq_append.mp here).symm
      · obtain ⟨sides, tail, same⟩ := Option.map_eq_some_iff.mp found
        obtain ⟨rfl, rfl⟩ := Prod.mk.inj same
        exact congrArg (a :: ·) (ih tail)

theorem splitFirst_element {a : α} {w : List α} (absent : a ∉ w) (rest : List α) :
    splitFirst [a] (w ++ a :: rest) = some (w, rest) := by
  induction w with
  | nil => exact splitFirst_found (List.cons_ne_nil a []) rest
  | cons b w ih =>
      obtain ⟨other, absent⟩ := not_or.mp (mt List.mem_cons.mpr absent)
      have differs : ¬ [a] <+: b :: (w ++ a :: rest) := by
        intro here
        exact other (List.cons_prefix_cons.mp here).1
      rw [List.cons_append, splitFirst_cons differs, ih absent, Option.map_some]

/-- A list is split in one way at the first of an element. -/
theorem split_unique {a : α} {w w' rest rest' : List α} (absent : a ∉ w) (absent' : a ∉ w')
    (same : w ++ a :: rest = w' ++ a :: rest') : w = w' ∧ rest = rest' := by
  have sides := splitFirst_element absent rest
  rw [same, splitFirst_element absent' rest'] at sides
  obtain ⟨front, back⟩ := Prod.mk.inj (Option.some.inj sides)
  exact ⟨front.symm, back.symm⟩

theorem splitFirst_absent {a : α} {w : List α} (absent : a ∉ w) : splitFirst [a] w = none := by
  induction w with
  | nil => rfl
  | cons b w ih =>
      obtain ⟨other, absent⟩ := not_or.mp (mt List.mem_cons.mpr absent)
      have differs : ¬ [a] <+: b :: w := by
        intro here
        exact other (List.cons_prefix_cons.mp here).1
      rw [splitFirst_cons differs, ih absent, Option.map_none]

end

/-! ## Templates -/

/-- A part of a template: an element as it is, or a hole with a name. -/
inductive Piece (α ι : Type) where
  | text (a : α)
  | hole (i : ι)
  deriving Repr, DecidableEq

open Piece

def fill (value : ι → List α) : List (Piece α ι) → List α
  | [] => []
  | text a :: rest => a :: fill value rest
  | hole i :: rest => value i ++ fill value rest

theorem fill_append (value : ι → List α) (X Y : List (Piece α ι)) :
    fill value (X ++ Y) = fill value X ++ fill value Y := by
  induction X with
  | nil => rfl
  | cons x X ih => cases x <;> simp [fill, ih]

theorem fill_cons (value : ι → List α) (x : Piece α ι) (X : List (Piece α ι)) :
    fill value (x :: X) = fill value [x] ++ fill value X := fill_append value [x] X

theorem fill_texts (value : ι → List α) (w : List α) (X : List (Piece α ι)) :
    fill value (w.map text ++ X) = w ++ fill value X := by
  induction w with
  | nil => rfl
  | cons a w ih => simp [fill, ih]

theorem fill_congr {value value' : ι → List α} {X : List (Piece α ι)}
    (same : ∀ i, hole i ∈ X → value i = value' i) : fill value X = fill value' X := by
  induction X with
  | nil => rfl
  | cons x X ih =>
      have others := ih fun i member => same i (List.mem_cons_of_mem x member)
      cases x with
      | text a => rw [fill, fill, others]
      | hole i => rw [fill, fill, others, same i List.mem_cons_self]

/-- A pattern is found in the filled template where a hole of a name is, and nowhere else. -/
def OnlyInHoles (value : ι → List α) (X : List (Piece α ι)) (i : ι) (p : List α) : Prop :=
  ∀ front back, fill value X = front ++ p ++ back →
    ∃ Y Z, X = Y ++ hole i :: Z ∧ fill value Y = front ∧ fill value Z = back

theorem OnlyInHoles.tail {value : ι → List α} {x : Piece α ι} {X : List (Piece α ι)} {i : ι} {p : List α}
    (only : OnlyInHoles value (x :: X) i p) (nonempty : p ≠ []) : OnlyInHoles value X i p := by
  intro front back whole
  have longer : fill value (x :: X) = (fill value [x] ++ front) ++ p ++ back := by
    rw [fill_cons, whole]
    simp only [List.append_assoc]
  obtain ⟨Y, Z, split, filled, filled'⟩ := only _ _ longer
  cases Y with
  | nil =>
      -- the hole would be empty, with nothing to find in it
      obtain ⟨rfl, rfl⟩ := List.cons.inj split
      rw [fill, eq_comm, List.append_eq_nil_iff] at filled
      rw [whole, filled.2, List.nil_append] at filled'
      exact absurd (List.append_left_eq_self.mp filled') nonempty
  | cons y Y =>
      obtain ⟨rfl, inner⟩ := List.cons.inj split
      rw [fill_cons, List.append_cancel_left_eq] at filled
      exact ⟨Y, Z, inner, filled, filled'⟩

section

variable [DecidableEq α] [DecidableEq ι] {value : ι → List α} {i : ι} {p q : List α}

omit [DecidableEq α] in
/-- Only a hole with the pattern in it gets another value. -/
theorem update_other {j : ι} (current : value i = p ∨ value i = q) (other : ¬ (j = i ∧ value i = p)) :
    Function.update value i q j = value j := by
  by_cases same : j = i
  · subst same
    rw [Function.update_self]
    rcases current with isPattern | isValue
    · exact absurd ⟨rfl, isPattern⟩ other
    · exact isValue.symm
  · exact Function.update_of_ne same q value

/-- To replace a pattern that is found in its holes only is to fill the holes. -/
theorem replace_fill (nonempty : p ≠ []) (current : value i = p ∨ value i = q) {X : List (Piece α ι)}
    (only : OnlyInHoles value X i p) :
    replace p q (fill value X) = fill (Function.update value i q) X := by
  induction X with
  | nil => rfl
  | cons x X ih =>
      have rest := ih (only.tail nonempty)
      cases x with
      | text a =>
          have other : ¬ p <+: a :: fill value X := by
            intro here
            obtain ⟨back, whole⟩ := here
            obtain ⟨Y, Z, split, filled, -⟩ := only [] back whole.symm
            cases Y with
            | nil => cases split
            | cons y Y =>
                obtain ⟨rfl, -⟩ := List.cons.inj split
                cases filled
          rw [fill, replace_cons other, rest, fill]
      | hole j =>
          by_cases mine : j = i ∧ value i = p
          · obtain ⟨rfl, isPattern⟩ := mine
            rw [fill, isPattern, replace_found nonempty, rest, fill, Function.update_self]
          · -- an occurrence cannot begin in the value of another hole
            have outside : ∀ front back, value j ++ fill value X = front ++ p ++ back →
                (value j).length ≤ front.length := by
              intro front back whole
              obtain ⟨Y, Z, split, filled, filled'⟩ := only front back whole
              cases Y with
              | nil =>
                  obtain ⟨same, rfl⟩ := List.cons.inj split
                  cases same
                  rw [fill] at filled
                  rw [← filled, ← filled', List.nil_append, List.append_cancel_right_eq] at whole
                  exact absurd ⟨rfl, whole⟩ mine
              | cons y Y =>
                  obtain ⟨rfl, -⟩ := List.cons.inj split
                  rw [← filled, fill, List.length_append]
                  omega
            rw [fill, replace_append outside, rest, fill, update_other current mine]

end

/-! ## One after the other -/

/-- The placeholders of some names are replaced in their order. -/
def substituteAll [DecidableEq α] (placeholder value : ι → List α) (names : List ι) (content : List α) :
    List α :=
  names.foldl (fun content i => replace (placeholder i) (value i) content) content

theorem substituteAll_concat [DecidableEq α] (placeholder value : ι → List α) (done : List ι) (i : ι)
    (content : List α) : substituteAll placeholder value (done ++ [i]) content =
      replace (placeholder i) (value i) (substituteAll placeholder value done content) := by
  rw [substituteAll, List.foldl_append]
  rfl

section

variable [DecidableEq ι] (placeholder value : ι → List α)

/-- What stands in the holes after some names: their values, and the placeholders of the others. -/
def soFar (done : List ι) (i : ι) : List α := if i ∈ done then value i else placeholder i

/-- The placeholder of each name is found only where the template has it, with the values of the names
    before put in, or it stands for itself. -/
def Settled (names : List ι) (X : List (Piece α ι)) : Prop :=
  ∀ done i rest, names = done ++ i :: rest →
    value i = placeholder i ∨ OnlyInHoles (soFar placeholder value done) X i (placeholder i)

theorem soFar_concat (done : List ι) (i : ι) :
    soFar placeholder value (done ++ [i]) = Function.update (soFar placeholder value done) i (value i) := by
  funext j
  by_cases same : j = i
  · subst same
    rw [Function.update_self, soFar, if_pos (by simp)]
  · rw [Function.update_of_ne same, soFar, soFar]
    simp [same]

theorem soFar_current (done : List ι) (i : ι) : soFar placeholder value done i = placeholder i ∨
    soFar placeholder value done i = value i := by
  rw [soFar]
  split
  · exact .inr rfl
  · exact .inl rfl

theorem soFar_nil (X : List (Piece α ι)) : fill (soFar placeholder value []) X = fill placeholder X :=
  fill_congr fun i _ => if_neg (by simp)

variable [DecidableEq α] {placeholder value}

/-- One name: the holes of the name are filled, whether there is anything to fill in them or not. -/
theorem replace_soFar (nonempty : ∀ i, placeholder i ≠ []) {done : List ι} {i : ι} {X : List (Piece α ι)}
    (settled : value i = placeholder i ∨
      OnlyInHoles (soFar placeholder value done) X i (placeholder i)) :
    replace (placeholder i) (value i) (fill (soFar placeholder value done) X) =
      fill (soFar placeholder value (done ++ [i])) X := by
  rw [soFar_concat]
  rcases settled with itself | only
  · have unchanged : Function.update (soFar placeholder value done) i (value i) =
        soFar placeholder value done := by
      rw [Function.update_eq_self_iff]
      rcases soFar_current placeholder value done i with current | current
      · rw [current, itself]
      · exact current.symm
    rw [unchanged, itself, replace_self (nonempty i)]
  · exact replace_fill (nonempty i) (soFar_current placeholder value done i) only

theorem substituteAll_fill (nonempty : ∀ i, placeholder i ≠ []) {names : List ι} {X : List (Piece α ι)}
    (settled : Settled placeholder value names X) {done : List ι} (front : done <+: names) :
    substituteAll placeholder value done (fill placeholder X) = fill (soFar placeholder value done) X := by
  induction done using List.reverseRecOn with
  | nil => exact (soFar_nil placeholder value X).symm
  | append_singleton done i ih =>
      obtain ⟨rest, whole⟩ := front
      have before := ih ⟨i :: rest, by rw [← whole]; simp⟩
      rw [substituteAll_concat, before]
      exact replace_soFar nonempty (settled done i rest (by rw [← whole]; simp))

end

/-! ## Patterns that do not overlap themselves -/

/-- No part stands both at the beginning and at the end, but the whole. -/
def Unbordered (p : List α) : Prop := ∀ part, part <+: p → part <:+ p → part = [] ∨ part = p

theorem Unbordered.apart {p : List α} (unbordered : Unbordered p) {rest front back : List α}
    (whole : p ++ rest = front ++ p ++ back) : front = [] ∨ p.length ≤ front.length := by
  by_contra overlap
  rw [not_or, not_le] at overlap
  have inside : front <+: p := by
    refine List.prefix_of_prefix_length_le ?_ (List.prefix_append p rest) (Nat.le_of_lt overlap.2)
    rw [whole, List.append_assoc]
    exact List.prefix_append front _
  obtain ⟨part, rfl⟩ := inside
  rw [List.append_assoc, List.append_assoc, List.append_cancel_left_eq] at whole
  have starts : part <+: front ++ part := by
    refine List.prefix_of_prefix_length_le (List.prefix_append part rest) ?_ (by simp)
    rw [whole]
    exact List.prefix_append _ back
  rcases unbordered part starts (List.suffix_append front part) with empty | same
  · rw [empty] at overlap
    simp at overlap
  · exact overlap.1 (List.append_left_eq_self.mp same.symm)

/-- The text in front of the first hole. -/
theorem texts_before (X : List (Piece α Unit)) :
    ∃ w : List α, X = w.map text ∨ ∃ Z, X = w.map text ++ hole () :: Z := by
  induction X with
  | nil => exact ⟨[], .inl rfl⟩
  | cons x X ih =>
      cases x with
      | hole i => exact ⟨[], .inr ⟨X, rfl⟩⟩
      | text a =>
          obtain ⟨w, rfl | ⟨Z, rfl⟩⟩ := ih
          · exact ⟨a :: w, .inl rfl⟩
          · exact ⟨a :: w, .inr ⟨Z, rfl⟩⟩

/-- A pattern that begins with text of the template is all text. -/
theorem Unbordered.all_text {p : List α} (unbordered : Unbordered p) {a : α} {X : List (Piece α Unit)}
    (here : p <+: fill (fun _ => p) (text a :: X)) : ∃ Z, text a :: X = p.map text ++ Z := by
  obtain ⟨w, whole | ⟨Z, whole⟩⟩ := texts_before (text a :: X)
  · have filled := fill_texts (fun _ : Unit => p) w []
    rw [List.append_nil, ← whole, fill, List.append_nil] at filled
    rw [filled] at here
    obtain ⟨rest, rfl⟩ := here
    exact ⟨rest.map text, by rw [whole, List.map_append]⟩
  · rw [whole, fill_texts, fill] at here
    obtain ⟨rest, same⟩ := here
    have something : w ≠ [] := by
      intro none
      rw [none] at whole
      cases whole
    rw [← List.append_assoc] at same
    rcases unbordered.apart same with none | long
    · exact absurd none something
    · have inside : p <+: w := by
        refine List.prefix_of_prefix_length_le (List.prefix_append p rest) ?_ long
        rw [same, List.append_assoc]
        exact List.prefix_append w _
      obtain ⟨more, rfl⟩ := inside
      exact ⟨more.map text ++ hole () :: Z, by rw [whole, List.map_append, List.append_assoc]⟩

section

variable [DecidableEq α] {p q : List α}

/-- How often a pattern is replaced. -/
def countFrom (p : List α) : Nat → List α → Nat
  | _, [] => 0
  | skip + 1, _ :: rest => countFrom p skip rest
  | 0, a :: rest => if p <+: a :: rest then 1 + countFrom p (p.length - 1) rest else countFrom p 0 rest

def count (p text : List α) : Nat := countFrom p 0 text

theorem countFrom_skip (w rest : List α) : countFrom p w.length (w ++ rest) = count p rest := by
  induction w with
  | nil => rfl
  | cons a w ih =>
      rw [List.length_cons, List.cons_append, countFrom]
      exact ih

theorem count_found (nonempty : p ≠ []) (rest : List α) : count p (p ++ rest) = 1 + count p rest := by
  cases p with
  | nil => exact absurd rfl nonempty
  | cons a p =>
      have here : a :: p <+: a :: (p ++ rest) := List.prefix_append (a :: p) rest
      rw [List.cons_append, count, countFrom, if_pos here]
      exact congrArg (1 + ·) (countFrom_skip p rest)

theorem count_cons {a : α} {rest : List α} (other : ¬ p <+: a :: rest) :
    count p (a :: rest) = count p rest := by
  rw [count, countFrom, if_neg other]
  rfl

theorem replace_length (nonempty : p ≠ []) (text : List α) :
    (replace p q text).length + count p text * p.length = text.length + count p text * q.length := by
  induction text using replace_induction nonempty with
  | nil => simp [replace, replaceFrom, count, countFrom]
  | found rest ih =>
      rw [replace_found nonempty, count_found nonempty, List.length_append, List.length_append]
      linarith
  | cons a rest other ih =>
      rw [replace_cons other, count_cons other, List.length_cons, List.length_cons]
      omega

/-- Every hole is among the occurrences that are replaced. -/
theorem Unbordered.holes_le (unbordered : Unbordered p) (nonempty : p ≠ []) (X : List (Piece α Unit)) :
    X.count (hole ()) ≤ count p (fill (fun _ => p) X) := by
  induction length : X.length using Nat.strongRecOn generalizing X with
  | ind n ih =>
      cases X with
      | nil => exact Nat.zero_le _
      | cons x X =>
          rw [List.length_cons] at length
          cases x with
          | hole i =>
              have rest := ih X.length (by omega) X rfl
              rw [fill, count_found nonempty, List.count_cons]
              grind
          | text a =>
              by_cases here : p <+: fill (fun _ => p) (text a :: X)
              · obtain ⟨Z, split⟩ := unbordered.all_text here
                have lengths := congrArg List.length split
                have positive := List.length_pos_of_ne_nil nonempty
                rw [List.length_cons, List.length_append, List.length_map] at lengths
                have rest := ih Z.length (by omega) Z rfl
                have none : (p.map text).count (hole () : Piece α Unit) = 0 := by
                  rw [List.count_eq_zero]
                  simp
                rw [split, fill_texts, count_found nonempty, List.count_append]
                omega
              · have rest := ih X.length (by omega) X rfl
                rw [fill] at here ⊢
                rw [count_cons here, List.count_cons]
                grind

theorem fill_length (X : List (Piece α Unit)) :
    (fill (fun _ => q) X).length + X.count (hole ()) * p.length =
      (fill (fun _ => p) X).length + X.count (hole ()) * q.length := by
  induction X with
  | nil => simp [fill]
  | cons x X ih =>
      cases x with
      | text a =>
          rw [List.count_cons_of_ne (by simp), fill, fill, List.length_cons, List.length_cons]
          omega
      | hole i =>
          rw [List.count_cons_self, fill, fill, List.length_append, List.length_append]
          linarith

/-- If it comes to filling the holes, nothing but them was replaced, unless by itself. -/
theorem Unbordered.only_of_replace (unbordered : Unbordered p) (nonempty : p ≠ [])
    (X : List (Piece α Unit)) (same : replace p q (fill (fun _ => p) X) = fill (fun _ => q) X) :
    q = p ∨ OnlyInHoles (fun _ => p) X () p := by
  induction length : X.length using Nat.strongRecOn generalizing X with
  | ind n ih =>
      cases X with
      | nil =>
          refine .inr fun front back whole => ?_
          rw [fill, eq_comm, List.append_eq_nil_iff, List.append_eq_nil_iff] at whole
          exact absurd whole.1.2 nonempty
      | cons x X =>
          rw [List.length_cons] at length
          cases x with
          | hole i =>
              rw [fill, fill, replace_found nonempty, List.append_cancel_left_eq] at same
              rcases ih X.length (by omega) X same rfl with itself | only
              · exact .inl itself
              · refine .inr fun front back whole => ?_
                rw [fill] at whole
                rcases unbordered.apart whole with none | long
                · rw [none, List.nil_append, List.append_cancel_left_eq] at whole
                  exact ⟨[], X, rfl, none.symm, whole⟩
                · have inside : p <+: front := by
                    refine List.prefix_of_prefix_length_le (List.prefix_append p (fill (fun _ => p) X)) ?_ long
                    rw [whole, List.append_assoc]
                    exact List.prefix_append front _
                  obtain ⟨front, rfl⟩ := inside
                  rw [List.append_assoc, List.append_assoc, List.append_cancel_left_eq,
                    ← List.append_assoc] at whole
                  obtain ⟨Y, Z, split, filled, filled'⟩ := only front back whole
                  exact ⟨hole i :: Y, Z, by rw [split]; rfl, by rw [fill, filled], filled'⟩
          | text a =>
              by_cases here : p <+: fill (fun _ => p) (text a :: X)
              · -- what is replaced here is not a hole, and there are too many for the lengths
                left
                obtain ⟨Z, split⟩ := unbordered.all_text here
                rw [split, fill_texts, fill_texts, replace_found nonempty] at same
                by_contra other
                have lengths := congrArg List.length same
                rw [List.length_append, List.length_append] at lengths
                have replaced := @replace_length _ _ p q nonempty (fill (fun _ => p) Z)
                have filled := @fill_length _ _ p q Z
                have many := unbordered.holes_le nonempty Z
                obtain ⟨more, counted⟩ := Nat.exists_eq_add_of_le many
                rw [counted] at replaced
                have scaled : (more + 1) * q.length = (more + 1) * p.length := by linarith
                exact other (List.append_inj_left same (Nat.eq_of_mul_eq_mul_left (by omega) scaled))
              · rw [fill] at here
                rw [fill, fill, replace_cons here, List.cons.injEq] at same
                rcases ih X.length (by omega) X same.2 rfl with itself | only
                · exact .inl itself
                · refine .inr fun front back whole => ?_
                  rw [fill] at whole
                  cases front with
                  | nil => exact absurd ⟨back, by rw [whole]; rfl⟩ here
                  | cons b front =>
                      obtain ⟨rfl, inner⟩ := List.cons.inj whole
                      obtain ⟨Y, Z, split, filled, filled'⟩ := only front back inner
                      exact ⟨text a :: Y, Z, by rw [split]; rfl, by rw [fill, filled], filled'⟩

end

/-! ## Templates with one name -/

section

variable [DecidableEq α] [DecidableEq ι] {value : ι → List α} {i : ι} {p q : List α}

/-- The holes of one name, as far as the pattern is in them; all else is text. -/
def only (value : ι → List α) (i : ι) (p : List α) : List (Piece α ι) → List (Piece α Unit)
  | [] => []
  | text a :: X => text a :: only value i p X
  | hole j :: X =>
      if j = i ∧ value i = p then hole () :: only value i p X
      else (value j).map text ++ only value i p X

theorem fill_only (X : List (Piece α ι)) : fill (fun _ => p) (only value i p X) = fill value X := by
  induction X with
  | nil => rfl
  | cons x X ih =>
      cases x with
      | text a => rw [only, fill, fill, ih]
      | hole j =>
          rw [only, fill]
          split
          · next mine => rw [fill, ih, mine.1, mine.2]
          · rw [fill_texts, ih]

theorem fill_only_update (current : value i = p ∨ value i = q) (X : List (Piece α ι)) :
    fill (fun _ => q) (only value i p X) = fill (Function.update value i q) X := by
  induction X with
  | nil => rfl
  | cons x X ih =>
      cases x with
      | text a => rw [only, fill, fill, ih]
      | hole j =>
          rw [only, fill]
          split
          · next mine => rw [fill, ih, mine.1, Function.update_self]
          · next other =>
              rw [fill_texts, ih, update_other current other]

omit [DecidableEq α] [DecidableEq ι] in
theorem hole_behind {w : List α} {R Y Z : List (Piece α Unit)}
    (whole : w.map text ++ R = Y ++ hole () :: Z) :
    ∃ Y', Y = w.map text ++ Y' ∧ R = Y' ++ hole () :: Z := by
  induction w generalizing Y with
  | nil => exact ⟨Y, rfl, whole⟩
  | cons a w ih =>
      cases Y with
      | nil => cases whole
      | cons y Y =>
          obtain ⟨rfl, inner⟩ := List.cons.inj whole
          obtain ⟨Y', rfl, rest⟩ := ih inner
          exact ⟨Y', rfl, rest⟩

/-- A hole that is left comes from a hole of the name. -/
theorem only_split {X : List (Piece α ι)} {Y Z : List (Piece α Unit)}
    (split : only value i p X = Y ++ hole () :: Z) :
    ∃ Y' Z', X = Y' ++ hole i :: Z' ∧ only value i p Y' = Y ∧ only value i p Z' = Z := by
  induction X generalizing Y with
  | nil => exact absurd split (by simp [only])
  | cons x X ih =>
      cases x with
      | text a =>
          cases Y with
          | nil => cases split
          | cons y Y =>
              obtain ⟨rfl, inner⟩ := List.cons.inj split
              obtain ⟨Y', Z', rfl, front, back⟩ := ih inner
              exact ⟨text a :: Y', Z', rfl, by rw [only, front], back⟩
      | hole j =>
          rw [only] at split
          by_cases mine : j = i ∧ value i = p
          · rw [if_pos mine] at split
            cases Y with
            | nil => exact ⟨[], X, by rw [mine.1]; rfl, rfl, (List.cons.inj split).2⟩
            | cons y Y =>
                obtain ⟨rfl, inner⟩ := List.cons.inj split
                obtain ⟨Y', Z', rfl, front, back⟩ := ih inner
                exact ⟨hole j :: Y', Z', rfl, by rw [only, if_pos mine, front], back⟩
          · rw [if_neg mine] at split
            obtain ⟨Y, rfl, inner⟩ := hole_behind split
            obtain ⟨Y', Z', rfl, front, back⟩ := ih inner
            exact ⟨hole j :: Y', Z', rfl, by rw [only, if_neg mine, front], back⟩

/-- Where replacing comes to filling the holes of a name, the pattern is found in them only, or it is
    replaced by itself. -/
theorem Unbordered.only_in_holes (unbordered : Unbordered p) (nonempty : p ≠ [])
    (current : value i = p ∨ value i = q) {X : List (Piece α ι)}
    (same : replace p q (fill value X) = fill (Function.update value i q) X) :
    q = p ∨ OnlyInHoles value X i p := by
  rw [← @fill_only _ _ _ _ value i p X, ← @fill_only_update _ _ _ _ value i p q current X] at same
  rcases unbordered.only_of_replace nonempty _ same with itself | found
  · exact .inl itself
  · refine .inr fun front back whole => ?_
    rw [← @fill_only _ _ _ _ value i p X] at whole
    obtain ⟨Y, Z, split, filled, filled'⟩ := found front back whole
    obtain ⟨Y', Z', rfl, rfl, rfl⟩ := only_split split
    rw [fill_only] at filled filled'
    exact ⟨Y', Z', rfl, filled, filled'⟩

end

section

variable [DecidableEq α] [DecidableEq ι] {placeholder value : ι → List α}

/-- Name after name the holes are filled, exactly if each placeholder is found in its holes only. -/
theorem substituteAll_fill_iff {names : List ι} (nonempty : ∀ i, placeholder i ≠ [])
    (unbordered : ∀ i ∈ names, Unbordered (placeholder i)) (X : List (Piece α ι)) :
    (∀ done, done <+: names → substituteAll placeholder value done (fill placeholder X) =
      fill (soFar placeholder value done) X) ↔ Settled placeholder value names X := by
  constructor
  · intro same done i rest whole
    have before := same done ⟨i :: rest, whole.symm⟩
    have after := same (done ++ [i]) ⟨rest, by rw [whole]; simp⟩
    rw [substituteAll_concat, before, soFar_concat] at after
    exact (unbordered i (by rw [whole]; simp)).only_in_holes (nonempty i)
      (soFar_current placeholder value done i) after
  · exact fun settled done front => substituteAll_fill nonempty settled front

end

/-! ## One pass over a content -/

section

variable [DecidableEq α] (placeholder : ι → List α) (names : List ι)

/-- The holes of a content are the placeholders of the names, from left to right. -/
def segmentFrom : Nat → List α → List (Piece α ι)
  | _, [] => []
  | skip + 1, _ :: rest => segmentFrom skip rest
  | 0, a :: rest =>
      match names.find? fun i => placeholder i <+: a :: rest with
      | some i => hole i :: segmentFrom ((placeholder i).length - 1) rest
      | none => text a :: segmentFrom 0 rest

def segment (content : List α) : List (Piece α ι) := segmentFrom placeholder names 0 content

/-- All placeholders of a content are substituted at once. -/
def simultaneous (value : ι → List α) (content : List α) : List α :=
  fill value (segment placeholder names content)

variable {placeholder names}

theorem segmentFrom_skip (w rest : List α) :
    segmentFrom placeholder names w.length (w ++ rest) = segment placeholder names rest := by
  induction w with
  | nil => rfl
  | cons a w ih =>
      rw [List.length_cons, List.cons_append, segmentFrom]
      exact ih

theorem segment_found {i : ι} {behind : List α} (nonempty : placeholder i ≠ [])
    (found : names.find? (fun j => placeholder j <+: placeholder i ++ behind) = some i) :
    segment placeholder names (placeholder i ++ behind) = hole i :: segment placeholder names behind := by
  cases whole : placeholder i with
  | nil => exact absurd whole nonempty
  | cons a w =>
      rw [whole, List.cons_append] at found
      rw [List.cons_append, segment, segmentFrom, found]
      simp only [whole]
      exact congrArg (hole i :: ·) (segmentFrom_skip w behind)

theorem segment_none {a : α} {rest : List α}
    (none : names.find? (fun j => placeholder j <+: a :: rest) = none) :
    segment placeholder names (a :: rest) = text a :: segment placeholder names rest := by
  rw [segment, segmentFrom, none]
  rfl

theorem fill_segment (nonempty : ∀ i, placeholder i ≠ []) (content : List α) :
    fill placeholder (segment placeholder names content) = content := by
  induction length : content.length using Nat.strongRecOn generalizing content with
  | ind n ih =>
      cases content with
      | nil => rfl
      | cons a rest =>
          cases found : names.find? (fun j => placeholder j <+: a :: rest) with
          | none =>
              rw [segment_none found, fill, ih rest.length (by rw [List.length_cons] at length; omega) rest rfl]
          | some i =>
              have here := List.find?_some found
              obtain ⟨behind, whole⟩ := of_decide_eq_true here
              have positive := List.length_pos_of_ne_nil (nonempty i)
              have shorter := congrArg List.length whole
              rw [List.length_append] at shorter
              rw [← whole] at found ⊢
              rw [segment_found (nonempty i) found, fill, ih behind.length (by omega) behind rfl]

theorem mem_of_holeFrom {i : ι} {content : List α} {skip : Nat}
    (member : hole i ∈ segmentFrom placeholder names skip content) : i ∈ names := by
  induction content generalizing skip with
  | nil => exact absurd member (by cases skip <;> simp [segmentFrom])
  | cons a rest ih =>
      cases skip with
      | succ skip => exact ih member
      | zero =>
          rw [segmentFrom] at member
          split at member
          · next j found =>
              rcases List.mem_cons.mp member with same | behind
              · cases same
                exact List.mem_of_find?_eq_some found
              · exact ih behind
          · rcases List.mem_cons.mp member with same | behind
            · cases same
            · exact ih behind

theorem find?_perm {l l' : List ι} {p : ι → Bool} (same : l.Perm l')
    (unique : ∀ i ∈ l, ∀ j ∈ l, p i → p j → i = j) : l.find? p = l'.find? p := by
  cases found : l.find? p with
  | none =>
      rw [eq_comm, List.find?_eq_none]
      exact fun i member => List.find?_eq_none.mp found i (same.mem_iff.mpr member)
  | some i =>
      have holds := List.find?_some found
      have member := same.mem_iff.mp (List.mem_of_find?_eq_some found)
      cases found' : l'.find? p with
      | none => exact absurd holds (List.find?_eq_none.mp found' i member)
      | some j =>
          have member' := same.mem_iff.mpr (List.mem_of_find?_eq_some found')
          rw [unique i (List.mem_of_find?_eq_some found) j member' holds (List.find?_some found')]

/-- No placeholder is the beginning of another's. -/
def PrefixFree (placeholder : ι → List α) (names : List ι) : Prop :=
  ∀ i ∈ names, ∀ j ∈ names, placeholder i <+: placeholder j → i = j

/-- The order of the names does not matter. -/
theorem simultaneous_perm (free : PrefixFree placeholder names) {names' : List ι} (same : names.Perm names')
    (value : ι → List α) (content : List α) :
    simultaneous placeholder names value content = simultaneous placeholder names' value content := by
  have unique (content : List α) (i : ι) (member : i ∈ names) (j : ι) (member' : j ∈ names)
      (here : decide (placeholder i <+: content) = true)
      (here' : decide (placeholder j <+: content) = true) : i = j := by
    rcases List.prefix_or_prefix_of_prefix (of_decide_eq_true here) (of_decide_eq_true here') with
      first | second
    · exact free i member j member' first
    · exact (free j member' i member second).symm
  have segments (skip : Nat) :
      segmentFrom placeholder names skip content = segmentFrom placeholder names' skip content := by
    induction content generalizing skip with
    | nil => cases skip <;> rfl
    | cons a rest ih =>
        cases skip with
        | succ skip => exact ih skip
        | zero =>
            rw [segmentFrom, segmentFrom, find?_perm same (unique (a :: rest))]
            split
            · rw [ih]
            · rw [ih]
  rw [simultaneous, simultaneous, segment, segment, segments]

end

section

variable [DecidableEq α] [DecidableEq ι] {placeholder value : ι → List α}

/-- After all names the values are in all holes. -/
theorem fill_soFar (names : List ι) (content : List α) :
    fill (soFar placeholder value names) (segment placeholder names content) =
      simultaneous placeholder names value content :=
  fill_congr fun _ member => if_pos (mem_of_holeFrom member)

end

end Substitution
