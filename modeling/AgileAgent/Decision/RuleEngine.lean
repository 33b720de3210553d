import AgileAgent.Selection
import AgileAgent.Decision.Engine

/-! # The rule-based engine

Rules with nested conditions, searched for one that matches. Confidences (floating point) are left out.
-/

namespace AgileAgent.Decision

open Selection

/-! ## Conditions -/

/-- A single condition; the thresholds that no evaluation reads are left out. -/
inductive RuleCondition where
  | situationType (typeName : String)
  | projectKeyword (keyword : String)
  | reflectionRounds (min max : Nat)
  | confidenceBelow
  | timeSinceLastAction
  | custom (name : String) (params : List (String × String))
  deriving Repr, DecidableEq

inductive ConditionExpr where
  | single (condition : RuleCondition)
  | and (exprs : List ConditionExpr)
  | or (exprs : List ConditionExpr)
  | not (expr : ConditionExpr)
  deriving Repr

/-- The registered evaluators by name. -/
structure ConditionEvaluatorRegistry where
  evaluators : String → Option (DecisionContext → List (String × String) → Bool) := fun _ => none

def ConditionEvaluatorRegistry.evaluate (r : ConditionEvaluatorRegistry) (name : String)
    (context : DecisionContext) (params : List (String × String)) : Bool :=
  ((r.evaluators name).map (· context params)).getD false

def RuleCondition.evaluate (context : DecisionContext) (registry : ConditionEvaluatorRegistry) :
    RuleCondition → Bool
  | .situationType typeName => context.triggerSituation.situationType.name = typeName
  | .projectKeyword keyword => keyword ∈ context.keywords
  | .reflectionRounds min max => min ≤ context.reflectionRound ∧ context.reflectionRound ≤ max
  | .confidenceBelow => false
  | .timeSinceLastAction => false
  | .custom name params => registry.evaluate name context params

section

variable (context : DecisionContext) (registry : ConditionEvaluatorRegistry)

mutual

def ConditionExpr.evaluate : ConditionExpr → Bool
  | .single condition => condition.evaluate context registry
  | .and exprs => ConditionExpr.evaluateAll exprs
  | .or exprs => ConditionExpr.evaluateAny exprs
  | .not expr => !expr.evaluate

def ConditionExpr.evaluateAll : List ConditionExpr → Bool
  | [] => true
  | expr :: rest => expr.evaluate && ConditionExpr.evaluateAll rest

def ConditionExpr.evaluateAny : List ConditionExpr → Bool
  | [] => false
  | expr :: rest => expr.evaluate || ConditionExpr.evaluateAny rest

end

end

/-! ## Rules -/

inductive RulePriority where
  | low
  | medium
  | high
  | critical
  deriving Repr, DecidableEq

/-- The place of a priority in the derived order. -/
def RulePriority.rank : RulePriority → Nat
  | .low => 0
  | .medium => 1
  | .high => 2
  | .critical => 3

/-- The number that a priority is searched by. -/
def RulePriority.sortKey : RulePriority → Nat
  | .critical => 0
  | .high => 1
  | .medium => 2
  | .low => 3

structure ActionSpec where
  typeName : String
  params : List (String × String) := []
  deriving Repr, DecidableEq

namespace ActionSpec

def param (spec : ActionSpec) (key default : String) : String := (spec.params.lookup key).getD default

def buildAction (spec : ActionSpec) : Option DecisionAction :=
  match spec.typeName with
  | "select_first" => some { actionType := ⟨"select_first"⟩ }
  | "select_option" => some
      { actionType := ⟨"select_option"⟩
        params := [("option_id", spec.param "option_id" ""), ("reason", spec.param "reason" "")] }
  | "reflect" => some
      { actionType := ⟨"reflect"⟩, params := [("prompt", spec.param "prompt" "")] }
  | "retry" => some
      { actionType := ⟨"retry"⟩
        params := [("prompt", "retry"), ("cooldown_ms", "1000"), ("adjusted", "false")] }
  | "confirm_completion" => some
      { actionType := ⟨"confirm_completion"⟩, params := [("submit_pr", "false")] }
  | "continue" => some
      { actionType := ⟨"continue"⟩, params := [("instruction", spec.param "instruction" "")] }
  | "custom_instruction" => some
      { actionType := ⟨"custom_instruction"⟩
        params := [("instruction", spec.param "instruction" "")] }
  | "continue_all_tasks" => some
      { actionType := ⟨"continue_all_tasks"⟩
        params := [("instruction", spec.param "instruction" "continue finish all tasks")] }
  | "stop_if_complete" => some
      { actionType := ⟨"stop_if_complete"⟩
        params := [("reason", spec.param "reason" "All tasks complete")] }
  | "create_task_branch" => some
      { actionType := ⟨"create_task_branch"⟩
        params := [("branch_name", spec.param "branch_name" ""),
          ("base_branch", spec.param "base_branch" "main")] }
  | "rebase_to_main" => some
      { actionType := ⟨"rebase_to_main"⟩
        params := [("base_branch", spec.param "base_branch" "main")] }
  | "prepare_task_start" => some
      { actionType := ⟨"prepare_task_start"⟩
        params := [("task_id", spec.param "task_id" "task-001"),
          ("task_description", spec.param "task_description" "")] }
  | _ => none

end ActionSpec

structure DecisionRule where
  name : String
  condition : ConditionExpr
  actions : List ActionSpec
  priority : RulePriority
  deriving Repr

namespace DecisionRule

/-- The actions of a rule that can be built. -/
def builtActions (rule : DecisionRule) : List DecisionAction :=
  rule.actions.filterMap ActionSpec.buildAction

end DecisionRule

/-! ## The engine -/

def builtinRules : List DecisionRule :=
  [{ name := "approve-first"
     condition := .single (.situationType "waiting_for_choice")
     actions := [{ typeName := "select_first" }]
     priority := .medium },
   { name := "reflect-first"
     condition := .and [.single (.situationType "claims_completion"), .single (.reflectionRounds 0 1)]
     actions := [{ typeName := "reflect" }]
     priority := .high },
   { name := "confirm-when-max-reflections"
     condition := .and [.single (.situationType "claims_completion"), .single (.reflectionRounds 2 10)]
     actions := [{ typeName := "confirm_completion" }]
     priority := .high },
   { name := "retry-error"
     condition := .single (.situationType "error")
     actions := [{ typeName := "retry" }]
     priority := .medium },
   { name := "retry-rate-limit"
     condition := .single (.situationType "rate_limit_recovery")
     actions := [{ typeName := "retry" }]
     priority := .medium },
   { name := "continue-on-idle"
     condition := .single (.situationType "agent_idle")
     actions := [{ typeName := "continue_all_tasks" }]
     priority := .medium },
   { name := "prepare-task-start"
     condition := .single (.situationType "task_starting")
     actions := [{ typeName := "prepare_task_start" }]
     priority := .high }]

structure RuleBasedDecisionEngine where
  rules : List DecisionRule := []
  defaultRules : List DecisionRule := builtinRules
  evaluatorRegistry : ConditionEvaluatorRegistry := {}

namespace RuleBasedDecisionEngine

/-- The rules whose conditions hold, the custom ones first. -/
def matchingRules (engine : RuleBasedDecisionEngine) (context : DecisionContext) : List DecisionRule :=
  (engine.rules ++ engine.defaultRules).filter
    fun rule => rule.condition.evaluate context engine.evaluatorRegistry

def findMatchingRule (engine : RuleBasedDecisionEngine) (context : DecisionContext) :
    Option DecisionRule :=
  maxByKey (fun rule => rule.priority.sortKey) (engine.matchingRules context)

def decide (engine : RuleBasedDecisionEngine) (context : DecisionContext) :
    Except DecisionError DecisionOutput :=
  let situationType := context.triggerSituation.situationType.name
  match engine.findMatchingRule context with
  | some rule =>
      .ok
        { actions := rule.builtActions
          reasoning := "Rule '" ++ rule.name ++ "' matched for situation '" ++ situationType ++
            "'. Condition satisfied, executing action: " ++
            (rule.builtActions.head?.map (·.actionType.name)).getD "unknown" }
  | none =>
      .ok
        { actions := [{ actionType := ⟨"custom_instruction"⟩
                        params := [("instruction", "Continue with current task")] }]
          reasoning := "No rule matched for situation '" ++ situationType ++
            "', using default action" }

/-! ## The selected rule -/

/-- The first rule of the highest priority. -/
def HighestFirst (rules : List DecisionRule) (rule : DecisionRule) : Prop :=
  FirstMax (fun rule => rule.priority.rank) rules rule

/-- The last rule of the lowest priority. -/
def LowestLast (rules : List DecisionRule) (rule : DecisionRule) : Prop :=
  ∃ before after, rules = before ++ rule :: after ∧
    (∀ other ∈ before, rule.priority.rank ≤ other.priority.rank) ∧
    ∀ other ∈ after, rule.priority.rank < other.priority.rank

/-- The search goes by the reverse of the order. -/
theorem sortKey_add_rank (priority : RulePriority) : priority.sortKey + priority.rank = 3 := by
  cases priority <;> rfl

variable {engine : RuleBasedDecisionEngine} {context : DecisionContext} {rule : DecisionRule}

theorem sortKey_le_iff (p q : RulePriority) : p.sortKey ≤ q.sortKey ↔ q.rank ≤ p.rank := by
  have ofP := sortKey_add_rank p
  have ofQ := sortKey_add_rank q
  omega

theorem sortKey_lt_iff (p q : RulePriority) : p.sortKey < q.sortKey ↔ q.rank < p.rank := by
  have ofP := sortKey_add_rank p
  have ofQ := sortKey_add_rank q
  omega

theorem lowestLast_iff (rules : List DecisionRule) (rule : DecisionRule) :
    LowestLast rules rule ↔ LastMax (fun rule => rule.priority.sortKey) rules rule := by
  simp only [LowestLast, LastMax, sortKey_le_iff, sortKey_lt_iff]

theorem findMatchingRule_eq_some (lowest : LowestLast (engine.matchingRules context) rule) :
    engine.findMatchingRule context = some rule := by
  rw [lowestLast_iff] at lowest
  cases found : engine.findMatchingRule context with
  | none =>
      obtain ⟨before, after, whole, -, -⟩ := lowest
      rw [maxByKey_eq_none.mp found] at whole
      exact absurd whole.symm (List.append_ne_nil_of_right_ne_nil _ (List.cons_ne_nil _ _))
  | some other => rw [lowest.unique (maxByKey_lastMax found)]

theorem exists_lowestLast (some_match : engine.matchingRules context ≠ []) :
    ∃ rule, LowestLast (engine.matchingRules context) rule := by
  cases found : engine.findMatchingRule context with
  | none => exact absurd (maxByKey_eq_none.mp found) some_match
  | some rule => exact ⟨rule, (lowestLast_iff _ _).mpr (maxByKey_lastMax found)⟩

/-- The engine executes the last matching rule of the lowest priority. -/
theorem decide_actions (lowest : LowestLast (engine.matchingRules context) rule) :
    (engine.decide context).map (·.actions) = .ok rule.builtActions := by
  rw [decide, findMatchingRule_eq_some lowest]
  rfl

/-- The engine executes what the first matching rule of the highest priority says exactly if the last
    one of the lowest priority says the same. -/
theorem highest_rule_executed_iff (engine : RuleBasedDecisionEngine) (context : DecisionContext) :
    (∀ rule, HighestFirst (engine.matchingRules context) rule →
        (engine.decide context).map (·.actions) = .ok rule.builtActions) ↔
      ∀ highest lowest, HighestFirst (engine.matchingRules context) highest →
        LowestLast (engine.matchingRules context) lowest →
          highest.builtActions = lowest.builtActions := by
  constructor
  · intro executed highest lowest isHighest isLowest
    have first := executed highest isHighest
    rw [decide_actions isLowest] at first
    exact (Except.ok.inj first).symm
  · intro same rule isHighest
    obtain ⟨lowest, isLowest⟩ := exists_lowestLast (List.ne_nil_of_mem isHighest.mem)
    rw [decide_actions isLowest, same rule lowest isHighest isLowest]

/-- A custom rule for a choice, of the highest priority. -/
def pickRule : DecisionRule where
  name := "pick-b"
  condition := .single (.situationType "waiting_for_choice")
  actions := [{ typeName := "select_option", params := [("option_id", "B")] }]
  priority := .critical

/-- A critical rule loses against the built-in rule for the same situation. -/
theorem critical_rule_not_executed :
    ¬ ∀ (engine : RuleBasedDecisionEngine) (context : DecisionContext) (rule : DecisionRule),
      HighestFirst (engine.matchingRules context) rule →
        (engine.decide context).map (·.actions) = .ok rule.builtActions := by
  intro always
  have matching : ({ rules := [pickRule] } : RuleBasedDecisionEngine).matchingRules
      { triggerSituation := .waitingForChoice false, mainAgentId := "test-agent" } =
      [] ++ pickRule :: builtinRules.take 1 := rfl
  have first := always { rules := [pickRule] }
    { triggerSituation := .waitingForChoice false, mainAgentId := "test-agent" } pickRule
    ⟨[], _, matching, by simp, by simp [builtinRules, pickRule, RulePriority.rank]⟩
  exact absurd first (by decide)

/-! ## The built-in rules -/

/-- No two built-in rules match at once: they are about different situations, or about different
    numbers of rounds. -/
theorem builtinRules_exclusive (context : DecisionContext) (registry : ConditionEvaluatorRegistry) :
    (builtinRules.filter fun rule => rule.condition.evaluate context registry).length ≤ 1 := by
  simp only [builtinRules, List.filter_cons, List.filter_nil, ConditionExpr.evaluate,
    ConditionExpr.evaluateAll, RuleCondition.evaluate]
  by_cases choice : context.triggerSituation.situationType.name = "waiting_for_choice"
  · simp [choice]
  by_cases error : context.triggerSituation.situationType.name = "error"
  · simp [error]
  by_cases rateLimit : context.triggerSituation.situationType.name = "rate_limit_recovery"
  · simp [rateLimit]
  by_cases idle : context.triggerSituation.situationType.name = "agent_idle"
  · simp [idle]
  by_cases starting : context.triggerSituation.situationType.name = "task_starting"
  · simp [starting]
  by_cases completion : context.triggerSituation.situationType.name = "claims_completion"
  · by_cases early : context.reflectionRound ≤ 1
    · have notLate : ¬ 2 ≤ context.reflectionRound := by omega
      simp [completion, early, notLate]
    · by_cases late : 2 ≤ context.reflectionRound ∧ context.reflectionRound ≤ 10 <;>
        simp [completion, early, late]
  · simp [choice, error, rateLimit, idle, starting, completion]

end RuleBasedDecisionEngine

end AgileAgent.Decision
