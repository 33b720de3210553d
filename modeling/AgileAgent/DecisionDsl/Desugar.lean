import AgileAgent.DecisionDsl.Document

/-! # Desugaring

From documents to trees. The functions of the source return a `Result`, but none of
them can fail; the registry they are passed is not used.
-/

namespace AgileAgent.DecisionDsl

/-- The command of the fallback that `on_error: escalate` adds. -/
def escalation (form name : String) : DecisionCommand :=
  .human (.escalate (form ++ " '" ++ name ++ "' failed — escalating to human") none)

def escalateFallback (form name : String) : ActionNode :=
  { name := name ++ "_escalate_fallback", command := escalation form name, when := none }

/-- The innermost wrapper of a rule or `when`: what its `on_error` asks for. -/
def handleError (form name : String) (onError : Option OnError) (node : Node) : Node :=
  match onError with
  | some .escalate => .selector
      { name := name ++ "_error_handler", children := [node, .action (escalateFallback form name)] }
  | some .retry => .repeater { name := name ++ "_retry", maxAttempts := 2, child := node }
  | some .skip | none => node

def desugarStep (name : String) : PipelineStep → Node
  | .guard condition => .condition { name := name ++ "_step", evaluator := condition }
  | .action command => .action { name := name ++ "_emit", command, when := none }

def desugarPipeline (pipeline : PipelineSpec) : Node := .sequence
  { name := pipeline.name, children := pipeline.steps.map (desugarStep pipeline.name) }

section

variable [Crates]

/-- The node of one case of a `switch` on the variable `key`. -/
def caseNode (switchName key value : String) (action : Node) : Node := .when
  { name := switchName ++ "_" ++ Crates.toLowercase value
    condition := .variableIs key (.string value)
    action }

/-- A `switch` with these case nodes. -/
def switchNode (name : String) (on : SwitchOn) (caseNodes : List Node) : Node :=
  let branch : Node := .selector { name := name ++ "_branch", children := caseNodes }
  match on with
  | .prompt model timeoutMs template parser resultKey => .sequence
      { name
        children := [.prompt
          { name := name ++ "_prompt", model, template, parser
            sets := [{ key := resultKey.getD "decision", field := "value" }]
            timeoutMs := timeoutMs.getD 30000 }, branch] }
  | .variable _ => branch

/-- The variable the cases of a `switch` look at. -/
def SwitchOn.key : SwitchOn → String
  | .prompt _ _ _ _ resultKey => resultKey.getD "decision"
  | .variable key => key

mutual
def desugarThen : ThenSpec → Node
  | .inlineCommand command => .action { name := "emit", command, when := none }
  | .switch spec => desugarSwitch spec
  | .when spec => desugarWhen spec
  | .pipeline spec => desugarPipeline spec
  | .subTree refName => .subTree { name := refName, refName }

def desugarSwitch : SwitchSpec ThenSpec → Node
  | { name, on, cases, default } =>
      switchNode name on (desugarCases name on.key cases ++ desugarDefault default)

def desugarCases (name key : String) : List (SwitchCase ThenSpec) → List Node
  | [] => []
  | { value, action } :: rest =>
      caseNode name key value (desugarThen action) :: desugarCases name key rest

def desugarDefault : Option ThenSpec → List Node
  | none => []
  | some action => [desugarThen action]

def desugarWhen : WhenSpec ThenSpec → Node
  | { name, condition, «then», onError } =>
      handleError "When" name onError (.when { name, condition, action := desugarThen «then» })
end

/-- The action of a rule behind its condition. -/
def guardRule (name : String) (condition : Option Evaluator) (inner : Node) : Node :=
  match condition with
  | some evaluator => .sequence
      { name := name ++ "_guard"
        children := [.condition { name := name ++ "_cond", evaluator }, inner] }
  | none => inner

def limitReflection (name : String) (reflectionMaxRounds : Option UInt8) (node : Node) : Node :=
  match reflectionMaxRounds with
  | some maxRounds => .reflectionGuard { name := name ++ "_reflection", maxRounds, child := node }
  | none => node

def coolDown (name : String) (cooldownMs : Option Nat) (node : Node) : Node :=
  match cooldownMs with
  | some durationMs => .cooldown { name := name ++ "_cooldown", durationMs, child := node }
  | none => node

def desugarRule (rule : RuleSpec) : Node :=
  coolDown rule.name rule.cooldownMs
    (limitReflection rule.name rule.reflectionMaxRounds
      (handleError "Rule" rule.name rule.onError
        (guardRule rule.name rule.condition (desugarThen rule.action))))

/-- The last child of a rule selector. -/
def noMatch : Node := .action
  { name := "no_match", command := .agent .approveAndContinue, when := none }

/-- The root of a list of rules, in the order of the document. -/
def rulesRoot (metadata : Metadata) (rules : List RuleSpec) : SelectorNode Node :=
  { name := metadata.name ++ "_root"
    children := rules.map desugarRule ++ [noMatch]
    ruleName := some metadata.name }

def DslDocument.desugar : DslDocument → Tree
  | .decisionRules apiVersion metadata rules =>
      { apiVersion, kind := .behaviorTree, metadata, spec := ⟨.selector (rulesRoot metadata rules)⟩ }
  | .behaviorTree apiVersion metadata root =>
      { apiVersion, kind := .behaviorTree, metadata, spec := ⟨root⟩ }
  | .subTree apiVersion metadata root =>
      { apiVersion, kind := .subTree, metadata, spec := ⟨root⟩ }

end

end AgileAgent.DecisionDsl
