import AgileAgent.Decision.Task
import AgileAgent.Decision.Text

/-! # Checks of an output and the escalation to a human

The checker runs its rules in their order and the first that objects decides. The filter says by
criteria of its own whether a human has to decide.
-/

namespace AgileAgent.Decision

open DecisionDsl (strContains)

/-- What an agent's output looks like to the checks. -/
structure SimulatedOutput where
  hasSyntaxErrors : Bool := false
  testsPass : Bool := true
  hasCompileErrors : Bool := false
  hasStyleIssues : Bool := false
  modifiedFiles : List String := []
  riskyOperations : List String := []
  hasDependencyConflict : Bool := false
  hasMultipleSolutions : Bool := false
  deriving Repr, DecidableEq

namespace SimulatedOutput

def containsOperation (output : SimulatedOutput) (op : String) : Bool :=
  output.riskyOperations.any (strContains · op)

end SimulatedOutput

/-! ## The checker -/

/-- The trait `CheckRule`. -/
structure CheckRule where
  name : String
  check : DecisionTask → SimulatedOutput → Option AutoCheckResult

def syntaxCheckRule : CheckRule where
  name := "syntax_check"
  check _ output :=
    if output.hasSyntaxErrors then some (.needsReflection "Syntax errors found") else none

def testCheckRule : CheckRule where
  name := "test_check"
  check _ output := if !output.testsPass then some (.needsReflection "Tests failed") else none

def compileCheckRule : CheckRule where
  name := "compile_check"
  check _ output :=
    if output.hasCompileErrors then some (.needsReflection "Compilation errors") else none

/-- `BoundaryCheckRule::new(allowed_files)`: without files of its own it takes the constraints of
    the task. -/
def boundaryCheckRule (allowedFiles : List String) : CheckRule where
  name := "boundary_check"
  check task output :=
    let allowed := if allowedFiles.isEmpty then task.constraints else allowedFiles
    let violates (file : String) : Bool :=
      !(allowed.any fun pattern => strContains file pattern || strContains pattern file) &&
        !allowed.isEmpty
    (output.modifiedFiles.find? violates).map fun file =>
      .needsHuman ("Boundary violation: modified " ++ file)

/-- `RiskCheckRule::default_patterns`. -/
def defaultPatterns : List String := ["DROP TABLE", "DELETE FROM", "rm -rf", "chmod 777", "sudo"]

def riskCheckRule (riskyPatterns : List String) : CheckRule where
  name := "risk_check"
  check _ output :=
    ((riskyPatterns.find? output.containsOperation).or output.riskyOperations.head?).map fun op =>
      .needsHuman ("High-risk operation: " ++ op)

structure AutoChecker where
  rules : List CheckRule

namespace AutoChecker

/-- `AutoChecker::default`. -/
def default : AutoChecker :=
  ⟨[syntaxCheckRule, testCheckRule, compileCheckRule, boundaryCheckRule [],
    riskCheckRule defaultPatterns]⟩

def check (c : AutoChecker) (task : DecisionTask) (output : SimulatedOutput) : AutoCheckResult :=
  (c.rules.findSome? fun rule => rule.check task output).getD .pass

end AutoChecker

/-! ## The filter -/

structure BoundaryRule where
  pattern : String
  description : String
  deriving Repr, DecidableEq

/-- Whether one of the constraints allows a file. -/
def isAllowed (constraints : List String) (file : String) : Bool :=
  constraints.any fun c => strContains file c || strContains c file || file == c

namespace BoundaryRule

/-- With constraints of the task these count, else the pattern of the rule. -/
def isViolated (rule : BoundaryRule) (output : SimulatedOutput) (constraints : List String) : Bool :=
  if !constraints.isEmpty then output.modifiedFiles.any (!isAllowed constraints ·)
  else output.modifiedFiles.any fun file => !strContains file rule.pattern && rule.pattern != file

end BoundaryRule

structure DecisionFilter where
  riskyOperations : List String
  boundaryRules : List BoundaryRule
  deriving Repr, DecidableEq

namespace DecisionFilter

/-- `DecisionFilter::default`. -/
def default : DecisionFilter := ⟨defaultPatterns, [⟨"allowed", "Task boundary"⟩]⟩

/-- The first reason why a human has to decide. -/
def needsHumanDecision (f : DecisionFilter) (task : DecisionTask) (output : SimulatedOutput) :
    Option String :=
  let rule := (f.boundaryRules.find? (·.isViolated output task.constraints)).map fun rule =>
    "Boundary violation: " ++ rule.description
  let file := if task.constraints.isEmpty then none
    else (output.modifiedFiles.find? (!isAllowed task.constraints ·)).map fun file =>
      "Boundary violation: modified " ++ file
  let risk := ((f.riskyOperations.find? output.containsOperation).or
    output.riskyOperations.head?).map ("High-risk: " ++ ·)
  let design := if output.hasMultipleSolutions then some "Design decision required" else none
  let conflict := if output.hasDependencyConflict then some "Dependency conflict" else none
  let limit := if task.maxReflectionRounds ≤ task.reflectionCount then
    some "Reflection limit reached" else none
  rule.or <| file.or <| risk.or <| design.or <| conflict.or limit

/-- The action for an output that the filter decides by itself. -/
def autoDecide (f : DecisionFilter) (task : DecisionTask) (output : SimulatedOutput) :
    WorkflowAction :=
  if (f.needsHumanDecision task output).isSome then .requestHuman "Human decision required"
  else if !output.testsPass then .reflect "Tests failed"
  else if output.hasSyntaxErrors then .reflect "Syntax errors"
  else if output.hasCompileErrors then .reflect "Compile errors"
  else if output.hasStyleIssues then .reflect "Style issues"
  else if task.status = .pendingConfirmation then .confirmCompletion
  else .continue

end DecisionFilter

/-! ## What the default rules object to -/

/-- Some modified file is outside the constraints of the task. -/
def OutsideConstraints (task : DecisionTask) (output : SimulatedOutput) : Prop :=
  task.constraints ≠ [] ∧
    ∃ file ∈ output.modifiedFiles, ∀ c ∈ task.constraints, ¬ strContains file c ∧ ¬ strContains c file

/-- Its syntax, its tests or its compilation is wrong. -/
def SimulatedOutput.faulty (output : SimulatedOutput) : Bool :=
  output.hasSyntaxErrors || !output.testsPass || output.hasCompileErrors

instance (task : DecisionTask) (output : SimulatedOutput) :
    Decidable (OutsideConstraints task output) :=
  inferInstanceAs (Decidable (_ ∧ _))

section

variable {task : DecisionTask} {output : SimulatedOutput}

theorem boundaryCheckRule_none :
    (boundaryCheckRule []).check task output = none ↔ ¬ OutsideConstraints task output := by
  simp only [boundaryCheckRule, OutsideConstraints]
  cases task.constraints with
  | nil => simp
  | cons c rest => simp

theorem riskCheckRule_none (patterns : List String) :
    (riskCheckRule patterns).check task output = none ↔ output.riskyOperations = [] := by
  simp only [riskCheckRule, Option.map_eq_none_iff, Option.or_eq_none_iff, List.head?_eq_none_iff]
  constructor
  · exact And.right
  · intro nothing
    refine ⟨?_, nothing⟩
    simp [SimulatedOutput.containsOperation, nothing]

/-- Faults are found before anything that needs a human. -/
theorem check_faulty (task : DecisionTask) (faulty : output.faulty) :
    ∃ reason, AutoChecker.default.check task output = .needsReflection reason := by
  cases syntax_wrong : output.hasSyntaxErrors with
  | true => exact ⟨"Syntax errors found", by
      simp [AutoChecker.check, AutoChecker.default, syntaxCheckRule, syntax_wrong]⟩
  | false =>
      cases tests : output.testsPass with
      | false => exact ⟨"Tests failed", by
          simp [AutoChecker.check, AutoChecker.default, syntaxCheckRule, testCheckRule, syntax_wrong,
            tests]⟩
      | true =>
          have compile_wrong : output.hasCompileErrors := by
            simpa [SimulatedOutput.faulty, syntax_wrong, tests] using faulty
          exact ⟨"Compilation errors", by
            simp [AutoChecker.check, AutoChecker.default, syntaxCheckRule, testCheckRule,
              compileCheckRule, syntax_wrong, tests, compile_wrong]⟩

theorem check_sound (sound : output.faulty = false) : AutoChecker.default.check task output =
    (((boundaryCheckRule []).check task output).or
      ((riskCheckRule defaultPatterns).check task output)).getD .pass := by
  simp only [SimulatedOutput.faulty, Bool.or_eq_false_iff] at sound
  obtain ⟨⟨syntax_right, tests⟩, compiles⟩ := sound
  simp only [AutoChecker.check, AutoChecker.default, List.findSome?_cons, List.findSome?_nil,
    syntaxCheckRule, testCheckRule, compileCheckRule, syntax_right, tests, compiles]
  cases (boundaryCheckRule []).check task output <;>
    cases (riskCheckRule defaultPatterns).check task output <;> rfl

/-- Every objection of a rule is passed on as it is: the boundary and the risk ask for a human. -/
theorem check_human (sound : output.faulty = false)
    (objection : OutsideConstraints task output ∨ output.riskyOperations ≠ []) :
    ∃ reason, AutoChecker.default.check task output = .needsHuman reason := by
  rw [check_sound sound]
  cases boundary : (boundaryCheckRule []).check task output with
  | some result =>
      obtain ⟨file, -, rfl⟩ := Option.map_eq_some_iff.mp boundary
      exact ⟨_, rfl⟩
  | none =>
      have risky := objection.resolve_left (boundaryCheckRule_none.mp boundary)
      cases risk : (riskCheckRule defaultPatterns).check task output with
      | none => exact absurd ((riskCheckRule_none _).mp risk) risky
      | some result =>
          obtain ⟨op, -, rfl⟩ := Option.map_eq_some_iff.mp risk
          exact ⟨_, rfl⟩

theorem check_pass (sound : output.faulty = false) (inside : ¬ OutsideConstraints task output)
    (harmless : output.riskyOperations = []) : AutoChecker.default.check task output = .pass := by
  rw [check_sound sound, boundaryCheckRule_none.mpr inside, (riskCheckRule_none _).mpr harmless]
  rfl

theorem isAllowed_false {constraints : List String} {file : String} :
    isAllowed constraints file = false ↔
      ∀ c ∈ constraints, ¬ strContains file c ∧ ¬ strContains c file := by
  simp only [isAllowed, List.any_eq_false]
  constructor
  · intro refused c member
    have apart := refused c member
    simp only [Bool.or_eq_true, not_or] at apart
    exact apart.1
  · intro refused c member
    obtain ⟨first, second⟩ := refused c member
    have other : file ≠ c := by
      rintro rfl
      exact first (strContains_self file)
    simp [first, second, other]

/-- Whatever its own lists are, the filter has a reason where the boundary or the risk objects. -/
theorem needsHumanDecision_objection (f : DecisionFilter)
    (objection : OutsideConstraints task output ∨ output.riskyOperations ≠ []) :
    f.needsHumanDecision task output ≠ none := by
  intro no_reason
  simp only [DecisionFilter.needsHumanDecision, Option.or_eq_none_iff, Option.map_eq_none_iff,
    List.head?_eq_none_iff] at no_reason
  obtain ⟨-, file, ⟨-, harmless⟩, -⟩ := no_reason
  rcases objection with ⟨constrained, outside, modified, refused⟩ | risky
  · have bounded : task.constraints.isEmpty = false := by simpa using constrained
    rw [bounded, if_neg Bool.false_ne_true, Option.map_eq_none_iff, List.find?_eq_none] at file
    exact absurd (isAllowed_false.mpr refused) (by simpa using file outside modified)
  · exact risky harmless

end

end AgileAgent.Decision
