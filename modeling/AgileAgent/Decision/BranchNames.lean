import AgileAgent.Numeral
import Mathlib.Data.List.Nodup

/-! # Branch names that are not taken

A name that is taken gets a number behind it, or the next number if it has one. The number is read back
from the text each time, into eight bits; what cannot be read counts as part of the name.
-/

namespace AgileAgent.Decision

/-- What stands before and behind the last hyphen (`rsplitn`). -/
def rsplitHyphen (cs : List Char) : Option (List Char × List Char) :=
  match cs.reverse.dropWhile (· != '-') with
  | [] => none
  | _ :: before => some (before.reverse, (cs.reverse.takeWhile (· != '-')).reverse)

def hasNumericSuffix (branchName : String) : Option Nat :=
  match rsplitHyphen branchName.toList with
  | some (_, suffix) => Numeral.parse 256 suffix
  | none => none

/-- `none` if the number overflows. -/
def incrementBranchSuffix (branchName : String) : Option String :=
  match rsplitHyphen branchName.toList with
  | some (before, suffix) =>
      match Numeral.parse 256 suffix with
      | some suffix =>
          if suffix + 1 < 256 then some (String.ofList before ++ "-" ++ toString (suffix + 1)) else none
      | none => some (branchName ++ "-2")
  | none => some (branchName ++ "-2")

def generateUniqueBranchName (baseName : String) : Option String :=
  if hasNumericSuffix baseName = none then some (baseName ++ "-2") else incrementBranchSuffix baseName

/-- A name and what a number of calls make of it, one after the other. -/
def candidates : Nat → String → Option (List String)
  | 0, name => some [name]
  | calls + 1, name =>
      (generateUniqueBranchName name).bind fun next => (candidates calls next).map (name :: ·)

/-- No call overflows, and every name is another one. -/
def MakesProgress (base : String) (calls : Nat) : Prop :=
  ∃ names, candidates calls base = some names ∧ names.length = calls + 1 ∧ names.Nodup

/-- There is room for the numbers up to the limit of the type. -/
def HasRoom (base : String) (calls : Nat) : Prop :=
  match hasNumericSuffix base with
  | some suffix => suffix + calls ≤ 255
  | none => calls ≤ 254

/-! ## The number of a name -/

theorem rsplitHyphen_append (before : List Char) {suffix : List Char} (plain : '-' ∉ suffix) :
    rsplitHyphen (before ++ '-' :: suffix) = some (before, suffix) := by
  have kept : ∀ c ∈ suffix.reverse, (c != '-') = true := by
    intro c member
    rw [bne_iff_ne]
    rintro rfl
    exact plain (List.mem_reverse.mp member)
  have turned : (before ++ '-' :: suffix).reverse = suffix.reverse ++ '-' :: before.reverse := by simp
  rw [rsplitHyphen, turned, List.dropWhile_append_of_pos kept, List.takeWhile_append_of_pos kept]
  simp

theorem hasNumericSuffix_numbered (before : String) (n : Nat) :
    hasNumericSuffix (before ++ "-" ++ toString n) = if n < 256 then some n else none := by
  have digits : (toString n).toList = Numeral.padded 0 n := by
    simp [toString, Nat.repr, Numeral.padded]
  have plain : '-' ∉ Numeral.padded 0 n := by
    intro member
    exact absurd (Numeral.isDigit_of_mem_padded member) (by decide)
  have split : (before ++ "-" ++ toString n).toList = before.toList ++ '-' :: Numeral.padded 0 n := by
    simp only [String.toList_append, digits, List.append_assoc]
    rfl
  rw [hasNumericSuffix, split, rsplitHyphen_append before.toList plain]
  exact Numeral.parse_padded 256 0 n

theorem hasNumericSuffix_lt {name : String} {n : Nat} (suffix : hasNumericSuffix name = some n) :
    n < 256 := by
  rw [hasNumericSuffix] at suffix
  split at suffix
  · exact Numeral.parse_lt suffix
  · cases suffix

/-- The number of a name; one that has none is the first of its kind. -/
def number (name : String) : Nat := (hasNumericSuffix name).getD 1

theorem number_le (name : String) : number name ≤ 255 := by
  rw [number]
  cases suffix : hasNumericSuffix name with
  | none => exact Nat.le_of_ble_eq_true rfl
  | some n => exact Nat.le_of_lt_succ (hasNumericSuffix_lt suffix)

theorem number_numbered (before : String) {n : Nat} (small : n < 256) :
    number (before ++ "-" ++ toString n) = n := by
  rw [number, hasNumericSuffix_numbered, if_pos small, Option.getD_some]

/-- A call counts one up, as far as the type reaches. -/
theorem generate_cases (name : String) :
    (number name = 255 ∧ generateUniqueBranchName name = none) ∨
      ∃ next, generateUniqueBranchName name = some next ∧ number next = number name + 1 := by
  cases suffix : hasNumericSuffix name with
  | none =>
      have first : number name = 1 := by rw [number, suffix, Option.getD_none]
      have text : name ++ "-2" = name ++ "-" ++ toString 2 := by
        rw [String.append_assoc]
        rfl
      have second : number (name ++ "-2") = 2 := by
        rw [text, number_numbered name (by decide)]
      exact .inr ⟨name ++ "-2", if_pos suffix, by omega⟩
  | some n =>
      have mine : number name = n := by rw [number, suffix, Option.getD_some]
      have small := hasNumericSuffix_lt suffix
      have made : generateUniqueBranchName name = incrementBranchSuffix name :=
        if_neg (by rw [suffix]; exact Option.some_ne_none n)
      rw [hasNumericSuffix] at suffix
      split at suffix
      · next before text split =>
          rw [made, incrementBranchSuffix, split]
          simp only [suffix]
          by_cases room : n + 1 < 256
          · have next := number_numbered (String.ofList before) room
            exact .inr ⟨_, if_pos room, by omega⟩
          · exact .inl ⟨by omega, if_neg room⟩
      · cases suffix

/-! ## Many calls -/

theorem candidates_succ {calls : Nat} {name next : String}
    (made : generateUniqueBranchName name = some next) :
    candidates (calls + 1) name = (candidates calls next).map (name :: ·) := by
  rw [candidates, made, Option.bind_some]

/-- The names carry consecutive numbers. -/
theorem candidates_numbers {calls : Nat} {name : String} {names : List String}
    (made : candidates calls name = some names) :
    names.map number = List.range' (number name) (calls + 1) := by
  induction calls generalizing name names with
  | zero =>
      cases made
      rfl
  | succ calls ih =>
      rcases generate_cases name with ⟨-, overflow⟩ | ⟨next, called, counted⟩
      · rw [candidates, overflow] at made
        cases made
      · rw [candidates_succ called] at made
        obtain ⟨rest, more, rfl⟩ := Option.map_eq_some_iff.mp made
        rw [List.map_cons, ih more, counted, ← List.range'_succ]

theorem candidates_isSome_iff (calls : Nat) (name : String) :
    (candidates calls name).isSome ↔ number name + calls ≤ 255 := by
  induction calls generalizing name with
  | zero =>
      have := number_le name
      grind [candidates]
  | succ calls ih =>
      rcases generate_cases name with ⟨last, overflow⟩ | ⟨next, called, counted⟩
      · rw [candidates, overflow]
        exact iff_of_false Bool.false_ne_true (by omega)
      · rw [candidates_succ called, Option.isSome_map, ih next, counted]
        omega

theorem hasRoom_iff (base : String) (calls : Nat) : HasRoom base calls ↔ number base + calls ≤ 255 := by
  rw [HasRoom, number]
  cases hasNumericSuffix base with
  | some suffix => exact Iff.rfl
  | none =>
      rw [Option.getD_none]
      omega

theorem makesProgress_iff (base : String) (calls : Nat) : MakesProgress base calls ↔ HasRoom base calls := by
  rw [hasRoom_iff, ← candidates_isSome_iff]
  constructor
  · intro progress
    obtain ⟨names, made, -⟩ := progress
    exact Option.isSome_of_eq_some made
  · intro made
    obtain ⟨names, made⟩ := Option.isSome_iff_exists.mp made
    have numbers := candidates_numbers made
    have length := congrArg List.length numbers
    rw [List.length_map, List.length_range'] at length
    have apart : (names.map number).Nodup := by
      rw [numbers]
      exact List.nodup_range'
    exact ⟨names, made, length, List.Nodup.of_map number apart⟩

/-- After the numbers 2 to 255 the next call adds one to the largest of them. -/
theorem auth_overflows : ¬ MakesProgress "feature/PROJ-123/add-auth" 255 := by
  intro progress
  obtain ⟨names, made, -⟩ := progress
  have some_names := (candidates_isSome_iff _ _).mp (Option.isSome_of_eq_some made)
  have first : number "feature/PROJ-123/add-auth" = 1 := by decide +kernel
  omega

/-- The number of a ticket behind the last hyphen is taken for one of the loop's, and one too large for
    the type is not. -/
example : generateUniqueBranchName "fix/PROJ-123" = some "fix/PROJ-124" ∧
    generateUniqueBranchName "fix/PROJ-255" = none ∧
    generateUniqueBranchName "fix/PROJ-256" = some "fix/PROJ-256-2" := by
  decide +kernel

end AgileAgent.Decision
