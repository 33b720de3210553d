import Mathlib.Algebra.Group.Nat.Defs
import AgileAgent.Kanban.Domain

/-! # Texts of ids

The ids of elements as file names and index entries, and what is read back from them.
-/

namespace AgileAgent.Kanban

/-- `str::to_lowercase`, as far as it can give a letter of a type's name: besides the capital
    letters only the Kelvin sign becomes one. -/
def lower (c : Char) : Char := if c = '\u212A' then 'k' else c.toLower

/-- `ElementType::from_str`. -/
def ElementType.fromStr (text : List Char) : Option ElementType :=
  match String.ofList (text.map lower) with
  | "sprint" => some .sprint
  | "story" => some .story
  | "task" => some .task
  | "idea" => some .idea
  | "issue" => some .issue
  | "tips" | "tip" => some .tips
  | _ => none

inductive ElementIdParseError where
  | invalidFormat (text : String)
  | invalidType (text : String)
  | invalidNumber (text : String)
  deriving Repr, DecidableEq

/-- `Display`. -/
def ElementIdParseError.display : ElementIdParseError → String
  | .invalidFormat text => "invalid element ID format: " ++ text
  | .invalidType text => "invalid element type: " ++ text
  | .invalidNumber text => "invalid element number: " ++ text

namespace ElementId

def parts (text : String) : List (List Char) := text.toList.splitOn '-'

/-- `str::parse::<u32>`. -/
def parseNumber (text : List Char) : Option Nat := Numeral.parse (2 ^ 32) text

def parse (text : String) : Except ElementIdParseError ElementId :=
  match parts text with
  | [typeText, numberText] =>
      match ElementType.fromStr typeText with
      | none => .error (.invalidType (String.ofList typeText))
      | some _ =>
          match parseNumber numberText with
          | none => .error (.invalidNumber (String.ofList numberText))
          | some number =>
              .ok ⟨String.ofList typeText ++ "-" ++ String.ofList (Numeral.padded 3 number)⟩
  | _ => .error (.invalidFormat text)

def number (id : ElementId) : Nat := (((parts id.text)[1]?).bind parseNumber).getD 0

/-- `type_`. -/
def typeOf (id : ElementId) : ElementType := (((parts id.text)[0]?).bind ElementType.fromStr).getD .task

/-- Ids are made by `new` and `parse` only, and so are what `parse` reads them as. -/
def WellFormed (id : ElementId) : Prop := parse id.text = .ok id

theorem parts_eq {typeText numberText : List Char} (inType : '-' ∉ typeText) (inNumber : '-' ∉ numberText) :
    parts (String.ofList typeText ++ "-" ++ String.ofList numberText) = [typeText, numberText] := by
  have text : (String.ofList typeText ++ "-" ++ String.ofList numberText).toList =
      typeText ++ '-' :: numberText := by simp
  rw [parts, text, List.splitOn_eq_splitOnP]
  rw [List.splitOnP_append_cons_of_forall_mem _ _ (by simp), List.splitOnP_eq_singleton]
  · intro c member
    simpa using fun same : c = '-' => inNumber (same ▸ member)
  · intro c member
    simpa using fun same : c = '-' => inType (same ▸ member)

section

variable (elementType : ElementType) (n : Nat)

theorem fromStr_asStr : ElementType.fromStr elementType.asStr.toList = some elementType := by
  cases elementType <;> decide

theorem parts_create :
    parts (create elementType n).text = [elementType.asStr.toList, Numeral.padded 3 n] := by
  have inType : '-' ∉ elementType.asStr.toList := by cases elementType <;> decide
  have inNumber : '-' ∉ Numeral.padded 3 n := fun member =>
    absurd (Numeral.isDigit_of_mem_padded member) (by decide)
  rw [create, ← parts_eq inType inNumber, String.ofList_toList]

theorem typeOf_create : (create elementType n).typeOf = elementType := by
  simp [typeOf, parts_create, fromStr_asStr]

variable {n} (small : n < 2 ^ 32)

include small

theorem number_create : (create elementType n).number = n := by
  have parsed : parseNumber (Numeral.padded 3 n) = some n := by
    rw [parseNumber, Numeral.parse_padded, if_pos small]
  simp [number, parts_create, parsed]

theorem create_wellFormed : (create elementType n).WellFormed := by
  rw [WellFormed, parse, parts_create]
  simp only [fromStr_asStr, parseNumber, Numeral.parse_padded, if_pos small]
  rw [create, String.ofList_toList]

end

/-! ## Spellings

A number is written anew when an id is parsed, a type is kept as it was spelled. So one element has
several ids if its type is spelled differently.
-/

/-- The name of a type has no hyphen in it, however it is spelled. -/
theorem fromStr_hyphen {typeText : List Char} {elementType : ElementType}
    (known : ElementType.fromStr typeText = some elementType) : '-' ∉ typeText := by
  intro inside
  have lowered : '-' ∈ (String.ofList (typeText.map lower)).toList := by
    rw [String.toList_ofList]
    exact List.mem_map.mpr ⟨'-', inside, by decide⟩
  unfold ElementType.fromStr at known
  split at known
  all_goals first
    | (next same => rw [same] at lowered; revert lowered; decide)
    | cases known

/-- What an id that was parsed is made of. -/
theorem parse_ok {text : String} {id : ElementId} (parsed : parse text = .ok id) :
    ∃ typeText numberText elementType n, parts text = [typeText, numberText] ∧
      ElementType.fromStr typeText = some elementType ∧ parseNumber numberText = some n ∧
      id = ⟨String.ofList typeText ++ "-" ++ String.ofList (Numeral.padded 3 n)⟩ ∧
      id.typeOf = elementType ∧ id.number = n := by
  unfold parse at parsed
  split at parsed
  · next typeText numberText whole =>
      cases known : ElementType.fromStr typeText with
      | none =>
          rw [known] at parsed
          cases parsed
      | some elementType =>
          cases read : parseNumber numberText with
          | none =>
              rw [known, read] at parsed
              cases parsed
          | some n =>
              rw [known, read] at parsed
              cases parsed
              have inNumber : '-' ∉ Numeral.padded 3 n := fun member =>
                absurd (Numeral.isDigit_of_mem_padded member) (by decide)
              have again := parts_eq (fromStr_hyphen known) inNumber
              have number : parseNumber (Numeral.padded 3 n) = some n := by
                rw [parseNumber, Numeral.parse_padded, if_pos (Numeral.parse_lt read)]
              refine ⟨typeText, numberText, elementType, n, whole, known, read, rfl, ?_, ?_⟩
              · simp [typeOf, again, known]
              · simp [ElementId.number, again, number]
  · cases parsed

/-- A new id is read back as it is. -/
def ReadsBack (elementType : ElementType) (n : UInt32) : Prop :=
  ∃ id, parse (create elementType n.toNat).text = .ok id ∧ id = create elementType n.toNat ∧
    id.typeOf = elementType ∧ id.number = n.toNat

/-- Texts that name the same element are parsed to the same id. -/
def OneId (text text' : String) : Prop :=
  ∀ id id', parse text = .ok id → parse text' = .ok id' → id.typeOf = id'.typeOf →
    id.number = id'.number → id = id'

/-- If the texts name the same type and number, then they spell the type alike. -/
def SpelledAlike (text text' : String) : Prop :=
  ∀ typeText numberText typeText' numberText', parts text = [typeText, numberText] →
    parts text' = [typeText', numberText'] → ∀ elementType n,
      ElementType.fromStr typeText = some elementType → ElementType.fromStr typeText' = some elementType →
      parseNumber numberText = some n → parseNumber numberText' = some n → typeText = typeText'

theorem reads_back (elementType : ElementType) (n : UInt32) : ReadsBack elementType n := by
  have small : n.toNat < 2 ^ 32 := n.toNat_lt
  exact ⟨_, create_wellFormed elementType small, rfl, typeOf_create elementType n.toNat,
    number_create elementType small⟩

theorem parse_eq_ok {text : String} {typeText numberText : List Char} {elementType : ElementType} {n : Nat}
    (whole : parts text = [typeText, numberText]) (known : ElementType.fromStr typeText = some elementType)
    (read : parseNumber numberText = some n) :
    parse text = .ok ⟨String.ofList typeText ++ "-" ++ String.ofList (Numeral.padded 3 n)⟩ := by
  simp only [parse, whole, known, read]

theorem oneId_iff {text text' : String} : OneId text text' ↔ SpelledAlike text text' := by
  constructor
  · intro one typeText numberText typeText' numberText' whole whole' elementType n known known' read read'
    have parsed := parse_eq_ok whole known read
    have parsed' := parse_eq_ok whole' known' read'
    obtain ⟨_, _, _, _, split, known₁, read₁, -, type, number⟩ := parse_ok parsed
    obtain ⟨_, _, _, _, split', known₂, read₂, -, type', number'⟩ := parse_ok parsed'
    cases whole.symm.trans split
    cases whole'.symm.trans split'
    cases known.symm.trans known₁
    cases known'.symm.trans known₂
    cases read.symm.trans read₁
    cases read'.symm.trans read₂
    have same := one _ _ parsed parsed' (type.trans type'.symm) (number.trans number'.symm)
    have texts := congrArg String.toList (ElementId.mk.inj same)
    simpa using texts
  · intro alike id id' parsed parsed' type number
    obtain ⟨typeText, numberText, elementType, n, whole, known, read, rfl, isType, isNumber⟩ :=
      parse_ok parsed
    obtain ⟨typeText', numberText', elementType', n', whole', known', read', rfl, isType', isNumber'⟩ :=
      parse_ok parsed'
    have sameType : elementType = elementType' := isType.symm.trans (type.trans isType')
    have sameNumber : n = n' := isNumber.symm.trans (number.trans isNumber')
    subst sameType sameNumber
    rw [alike _ _ _ _ whole whole' elementType n known known' read read']

/-- A new id is read back, and two texts give one id, exactly where they spell the type alike. -/
theorem ids_agree_iff (elementType : ElementType) (n : UInt32) (text text' : String) :
    ReadsBack elementType n ∧ OneId text text' ↔ SpelledAlike text text' := by
  rw [oneId_iff]
  exact and_iff_right (reads_back elementType n)

/-- The first task has two ids. -/
theorem ids_differ : ¬ ∀ (elementType : ElementType) (n : UInt32) (text text' : String),
    ReadsBack elementType n ∧ OneId text text' := by
  intro all
  have one := (all .task 1 "TASK-1" "task-1").2
  have alike := oneId_iff.mp one "TASK".toList "1".toList "task".toList "1".toList (by decide) (by decide)
    .task 1 (by decide) (by decide) (by decide) (by decide)
  exact absurd alike (by decide)

end ElementId

end AgileAgent.Kanban
