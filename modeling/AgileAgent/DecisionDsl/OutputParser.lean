import AgileAgent.DecisionDsl.Host

/-! # Output parsers

Turning the raw reply of a prompt into blackboard values.
-/

namespace AgileAgent.DecisionDsl

inductive FieldType where
  | string | integer | float | boolean
  deriving Repr, DecidableEq

structure StructuredField where
  name : String
  fieldType : FieldType
  group : Nat

/-- The values a parser extracts, by field. -/
abbrev ParsedValues := AList fun _ : String => BlackboardValue

inductive OutputParser where
  | enum (values : List String) (caseSensitive : Bool)
  | structured (pattern : String) (fields : List StructuredField)
  | json
  | command (mapping : AList fun _ : String => DecisionCommand)
  | custom (name : String)

mutual
def jsonToBlackboard : Json → BlackboardValue
  | .string s => .string s
  | .integer i => .integer i
  | .float f => .float f
  | .bool b => .boolean b
  | .array items => .list (jsonItemsToBlackboard items)
  | .object fields => .map (jsonFieldsToBlackboard fields)
  | .null => .null

def jsonItemsToBlackboard : List Json → List BlackboardValue
  | [] => []
  | v :: rest => jsonToBlackboard v :: jsonItemsToBlackboard rest

def jsonFieldsToBlackboard : List (String × Json) → List (String × BlackboardValue)
  | [] => []
  | (key, v) :: rest => (key, jsonToBlackboard v) :: jsonFieldsToBlackboard rest
end

namespace OutputParser

variable [Crates]

/-- One field of a structured match. -/
def structuredValue (field : StructuredField) (text : String) :
    Except RuntimeError BlackboardValue :=
  let failed (kind : String) : RuntimeError := .filterError
    ("cannot parse " ++ kind ++ " from '" ++ text ++ "' for field '" ++ field.name ++ "'")
  match field.fieldType with
  | .string => .ok (.string text)
  | .integer => match parseI64 text with
      | .ok i => .ok (.integer i)
      | .error _ => .error (failed "integer")
  | .float => match Crates.parseFloat text with
      | .ok f => .ok (.float f)
      | .error _ => .error (failed "float")
  | .boolean =>
      if text = "true" then .ok (.boolean true)
      else if text = "false" then .ok (.boolean false)
      else .error (failed "boolean")

def structuredValues (groups : List (Option String)) :
    List StructuredField → ParsedValues → Except RuntimeError ParsedValues
  | [], values => .ok values
  | field :: rest, values =>
      match groups[field.group]?.join with
      | none => .error (.filterError ("capture group " ++ toString field.group ++
          " not found for field '" ++ field.name ++ "'"))
      | some text => do
          structuredValues groups rest (values.insert field.name (← structuredValue field text))

def parse (parser : OutputParser) (raw : String) : Except RuntimeError ParsedValues :=
  match parser with
  | .enum values caseSensitive =>
      let trimmed := trim raw
      let matched := if caseSensitive then values.any (· == trimmed)
        else values.any (Crates.toLowercase · == Crates.toLowercase trimmed)
      if matched then .ok (AList.insert "value" (.string trimmed) ∅)
      else .error (.filterError ("input '" ++ trimmed ++ "' did not match any enum value"))
  | .structured pattern fields =>
      match Crates.regexCaptures pattern raw with
      | .error e => .error (.filterError ("invalid regex pattern: " ++ e))
      | .ok none => .error (.filterError "input did not match structured pattern")
      | .ok (some groups) => structuredValues groups fields ∅
  | .json =>
      match Crates.jsonFromStr raw with
      | .error e => .error (.filterError ("invalid JSON: " ++ e))
      | .ok (.object fields) =>
          .ok (fields.foldl (fun m e => m.insert e.1 (jsonToBlackboard e.2)) ∅)
      | .ok _ => .error (.filterError "JSON parser expects a top-level object")
  | .command mapping =>
      let trimmed := trim raw
      match mapping.lookup trimmed with
      | none => .error (.filterError ("unknown command key '" ++ trimmed ++ "'"))
      | some cmd => .ok (AList.insert "__command" (.command cmd) ∅)
  | .custom name => .error (.filterError
      ("custom parser '" ++ name ++ "' cannot be evaluated without registry"))

end OutputParser

end AgileAgent.DecisionDsl
