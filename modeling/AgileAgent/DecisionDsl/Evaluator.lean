import AgileAgent.DecisionDsl.Script

/-! # Evaluators

The conditions of the DSL. Evaluation only reads the blackboard.
-/

namespace AgileAgent.DecisionDsl

inductive Evaluator where
  | outputContains (pattern : String) (caseSensitive : Bool)
  | situationIs (situationType : String)
  | reflectionRoundUnder (max : UInt8)
  | variableIs (key : String) (expected : BlackboardValue)
  | regexMatch (pattern : String)
  | script (expression : String)
  | or (conditions : List Evaluator)
  | and (conditions : List Evaluator)
  | not (condition : Evaluator)
  | custom (name : String) (params : List (String × BlackboardValue))

namespace Evaluator

variable [Crates]

mutual
def evaluate : Evaluator → Blackboard → Except RuntimeError Bool
  | .outputContains pattern caseSensitive, bb =>
      if caseSensitive then .ok (strContains bb.providerOutput pattern)
      else .ok (strContains (Crates.toLowercase bb.providerOutput) (Crates.toLowercase pattern))
  | .situationIs situationType, bb => .ok (bb.taskDescription == situationType)
  | .reflectionRoundUnder max, bb => .ok (bb.reflectionRound < max)
  | .variableIs key expected, bb =>
      match bb.getPath key with
      | none => .error (.missingVariable key)
      | some actual => .ok (actual.eq expected)
  | .regexMatch pattern, bb =>
      match Crates.regexIsMatch pattern bb.providerOutput with
      | .ok found => .ok found
      | .error e => .error (.filterError ("RegexMatch: " ++ e))
  | .script expression, bb => evaluateScript expression bb
  | .or conditions, bb => evaluateOr conditions bb
  | .and conditions, bb => evaluateAnd conditions bb
  | .not condition, bb => do .ok (!(← evaluate condition bb))
  | .custom name _, _ => .error (.filterError ("custom evaluator '" ++ name ++ "' not registered"))

def evaluateOr : List Evaluator → Blackboard → Except RuntimeError Bool
  | [], _ => .ok false
  | cond :: rest, bb => do if ← evaluate cond bb then .ok true else evaluateOr rest bb

def evaluateAnd : List Evaluator → Blackboard → Except RuntimeError Bool
  | [], _ => .ok true
  | cond :: rest, bb => do if !(← evaluate cond bb) then .ok false else evaluateAnd rest bb
end

mutual
/-- A condition does not look at the commands on the blackboard. -/
theorem evaluate_commands (bb : Blackboard) (commands : List DecisionCommand) :
    ∀ e : Evaluator, e.evaluate { bb with commands } = e.evaluate bb
  | .outputContains .. | .situationIs _ | .reflectionRoundUnder _ | .regexMatch _ | .custom .. => by
      simp only [evaluate]
  | .variableIs .. => by simp only [evaluate]; rfl
  | .script expr => by
      simp only [evaluate]
      have same : ∀ path, ({ bb with commands } : Blackboard).getPath path = bb.getPath path :=
        fun _ => rfl
      exact evaluateScript_congr same expr
  | .or conditions => by simp only [evaluate, evaluateOr_commands bb commands conditions]
  | .and conditions => by simp only [evaluate, evaluateAnd_commands bb commands conditions]
  | .not condition => by simp only [evaluate, evaluate_commands bb commands condition]

theorem evaluateOr_commands (bb : Blackboard) (commands : List DecisionCommand) :
    ∀ es : List Evaluator, evaluateOr es { bb with commands } = evaluateOr es bb
  | [] => rfl
  | e :: rest => by
      simp only [evaluateOr, evaluate_commands bb commands e, evaluateOr_commands bb commands rest]

theorem evaluateAnd_commands (bb : Blackboard) (commands : List DecisionCommand) :
    ∀ es : List Evaluator, evaluateAnd es { bb with commands } = evaluateAnd es bb
  | [] => rfl
  | e :: rest => by
      simp only [evaluateAnd, evaluate_commands bb commands e, evaluateAnd_commands bb commands rest]
end

end Evaluator

end AgileAgent.DecisionDsl
