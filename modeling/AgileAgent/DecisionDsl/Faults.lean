import AgileAgent.Raises
import AgileAgent.DecisionDsl.Steps

/-! # Which errors a tick can raise

Conditions, templates and sessions raise errors of their own. Only a subtree node says
that a subtree is not resolved.
-/

namespace AgileAgent.DecisionDsl

open CallTree

/-- Any error but that of a subtree which is not resolved. -/
def RuntimeError.Ordinary : RuntimeError → Prop
  | .subTreeNotResolved _ => False
  | _ => True

def Fault.Ordinary : Fault → Prop
  | .error e => e.Ordinary
  | .panic => True

attribute [simp] RuntimeError.Ordinary Fault.Ordinary

section

variable [Crates]

/-! ## Scripts -/

omit [Crates] in
@[simp] theorem getBbValue_raises (bb : Blackboard) (path : List String) :
    Raises RuntimeError.Ordinary (getBbValue bb path) := by
  simp only [getBbValue]
  split <;> simp

@[simp] theorem valueAsString_raises (v : BlackboardValue) :
    Raises RuntimeError.Ordinary (valueAsString v) := by
  cases v <;> simp [valueAsString]

@[simp] theorem compareValues_raises (left : BlackboardValue) (op : CompareOp)
    (right : BlackboardValue) : Raises RuntimeError.Ordinary (compareValues left op right) := by
  unfold compareValues
  split <;> try simp
  split <;> simp

namespace Script

@[simp] theorem parseIdentifier_raises (input : List Char) :
    Raises RuntimeError.Ordinary (parseIdentifier input) := by
  unfold parseIdentifier
  split
  · simp
  · split <;> simp

omit [Crates] in
@[simp] theorem parseStringChars_raises (input : List Char) :
    Raises RuntimeError.Ordinary (parseStringChars input) := by
  fun_induction parseStringChars input <;> simp_all +zetaDelta

@[simp] theorem parseString_raises (input : List Char) :
    Raises RuntimeError.Ordinary (parseString input) := by
  unfold parseString
  split
  · simp
  · simp only [Raises.bind_iff, parseStringChars_raises, true_and]
    intro parsed _
    split <;> simp

@[simp] theorem parseNumber_raises (input : List Char) :
    Raises RuntimeError.Ordinary (parseNumber input) := by
  simp only [parseNumber]
  repeat' split
  all_goals simp

@[simp] theorem parseLiteral_raises (input : List Char) :
    Raises RuntimeError.Ordinary (parseLiteral input) := by
  unfold parseLiteral
  split
  · simp
  · split
    · simp
    · simp
    · split
      · simp
      · split <;> simp

@[simp] theorem parsePath_raises (bound : Nat) (input : List Char) :
    Raises RuntimeError.Ordinary (parsePath bound input) := by
  induction bound generalizing input with
  | zero => simp [parsePath_zero]
  | succ bound ih =>
      simp only [parsePath_succ, Raises.bind_iff, parseIdentifier_raises, true_and]
      intro first _
      split <;> simp [ih]

@[simp] theorem parseOperator_raises (input : List Char) :
    Raises RuntimeError.Ordinary (parseOperator input) := by
  have go (ops : List CompareOp) : ∀ input, Raises RuntimeError.Ordinary (parseOperator.go ops input) := by
    induction ops with
    | nil => simp [parseOperator.go]
    | cons op rest ih =>
        intro input
        simp only [parseOperator.go]
        split <;> simp [ih]
  exact go _ input

@[simp] theorem parseComparisonTail_raises (bb : Blackboard) (bound : Nat) (path : List String)
    (input : List Char) : Raises RuntimeError.Ordinary (parseComparisonTail bb bound path input) := by
  fun_induction parseComparisonTail bb bound path input with
  | case1 path input bound rest dot ih =>
      simp only [Raises.bind_iff, parseIdentifier_raises, true_and]
      intro parsed _
      split
      · split
        · simp
        · simp only [Raises.bind_iff, parseString_raises, true_and]
          intro needle _
          split <;> simp
      · exact ih _ _
  | case2 => simp

@[simp] theorem parseComparison_raises (bb : Blackboard) (input : List Char) :
    Raises RuntimeError.Ordinary (parseComparison bb input) := by
  unfold parseComparison
  split
  · split
    · simp
    · simp only [Raises.bind_iff, parsePath_raises, true_and]
      intro parsed _
      split <;> simp
  · simp

@[simp] theorem parseExprTail_raises (bb : Blackboard) (bound : Nat) (result : Bool)
    (input : List Char) : Raises RuntimeError.Ordinary (parseExprTail bb bound result input) := by
  fun_induction parseExprTail bb bound result input <;> simp_all

end Script

@[simp] theorem evaluateScript_raises (expr : String) (bb : Blackboard) :
    Raises RuntimeError.Ordinary (evaluateScript expr bb) := by
  simp [evaluateScript, Script.parseExpr]

/-! ## Conditions -/

mutual
theorem evaluate_raises (bb : Blackboard) :
    ∀ e : Evaluator, Raises RuntimeError.Ordinary (e.evaluate bb)
  | .outputContains .. => by simp only [Evaluator.evaluate]; split <;> simp
  | .situationIs _ | .reflectionRoundUnder _ | .custom .. | .script _ => by
      simp [Evaluator.evaluate]
  | .variableIs .. | .regexMatch _ => by simp only [Evaluator.evaluate]; split <;> simp
  | .or conditions => by simp only [Evaluator.evaluate]; exact evaluateOr_raises bb conditions
  | .and conditions => by simp only [Evaluator.evaluate]; exact evaluateAnd_raises bb conditions
  | .not condition => by simp [Evaluator.evaluate, evaluate_raises bb condition]

theorem evaluateOr_raises (bb : Blackboard) :
    ∀ es : List Evaluator, Raises RuntimeError.Ordinary (Evaluator.evaluateOr es bb)
  | [] => by simp [Evaluator.evaluateOr]
  | e :: rest => by
      simp only [Evaluator.evaluateOr, Raises.bind_iff, evaluate_raises bb e, true_and]
      intro fired _
      cases fired <;> simp [evaluateOr_raises bb rest]

theorem evaluateAnd_raises (bb : Blackboard) :
    ∀ es : List Evaluator, Raises RuntimeError.Ordinary (Evaluator.evaluateAnd es bb)
  | [] => by simp [Evaluator.evaluateAnd]
  | e :: rest => by
      simp only [Evaluator.evaluateAnd, Raises.bind_iff, evaluate_raises bb e, true_and]
      intro fired _
      cases fired <;> simp [evaluateAnd_raises bb rest]
end

/-! ## Templates -/

@[simp] theorem renderPromptTemplate_raises (template : String) (context : TemplateContext) :
    Raises Fault.Ordinary (renderPromptTemplate template context) := by
  unfold renderPromptTemplate
  split
  · simp only [Raises.bind_iff, Raises.error, Fault.Ordinary, RuntimeError.Ordinary, implies_true,
      and_true]
    unfold templateSnippet
    split
    · split <;> simp
    · simp
  · split <;> simp

@[simp] theorem renderOptional_raises (context : TemplateContext) (field : Option String) :
    Raises Fault.Ordinary (renderOptional context field) := by
  cases field <;> simp [renderOptional, Functor.map]

theorem renderCommandTemplates_raises (command : DecisionCommand) (bb : Blackboard) :
    Raises Fault.Ordinary (renderCommandTemplates command bb) := by
  rcases command with (_ | _ | _ | _ | _) | ⟨_ | _ | _ | _ | _, extra⟩ | (_ | _ | _) |
    (_ | _ | _) | (_ | _ | _ | _)
  all_goals simp [renderCommandTemplates]

end

/-! ## Routines -/

section

variable {σ κ ν μ : Type}

/-- Given calls that raise only ordinary errors, the routine raises only such. -/
def OrdinaryErrors (routine : Routine σ κ ν) : Prop :=
  routine.Guarded (fun _ a => Raises Fault.Ordinary a.result) (fun _ => True)
    fun r => Raises Fault.Ordinary r.result

theorem OrdinaryErrors.ret {r : Run σ κ ν} (raises : Raises Fault.Ordinary r.result) :
    OrdinaryErrors (.ret r : Routine σ κ ν) := raises

theorem OrdinaryErrors.map {f : ν → μ} {routine : Routine σ κ ν} (ordinary : OrdinaryErrors routine) :
    OrdinaryErrors (Body.map (Run.map f) routine) := Body.Guarded.map ordinary

/-- A routine that calls once and then returns. -/
theorem OrdinaryErrors.single {q : Request σ κ} {next : Answer σ κ → Routine σ κ ν}
    (done : ∀ a, Raises Fault.Ordinary a.result → OrdinaryErrors (next a)) : OrdinaryErrors (.call q next) :=
  ⟨trivial, done⟩

theorem visitChild_ordinary {name : String} {children : List Node} {i : Nat} {ask : Ask}
    {w : World σ κ} {failed : Fault → List Node → World σ κ → Run σ κ ν}
    {next : NodeStatus → List Node → World σ κ → Routine σ κ ν}
    (stopped : ∀ e ns w, (failed e ns w).result = .error e)
    (continued : ∀ status ns w, OrdinaryErrors (next status ns w)) :
    OrdinaryErrors (visitChild name children i ask w failed next) := by
  unfold visitChild
  split
  · apply OrdinaryErrors.ret
    simp [stopped]
  · apply OrdinaryErrors.single
    intro a raises
    split
    · next e result =>
        apply OrdinaryErrors.ret
        simpa [stopped, result] using raises
    · exact continued _ _ _

theorem selectorLoop_ordinary {visits : List (Nat × Ask)} : ∀ (node : SelectorNode Node)
    (w : World σ κ), OrdinaryErrors (selectorLoop visits node w) := by
  induction visits with
  | nil => intro node w; exact .ret .ok
  | cons visit rest ih =>
      intro node w
      apply visitChild_ordinary (fun _ _ _ => rfl)
      intro status ns w
      cases status with
      | success =>
          apply OrdinaryErrors.ret
          simp only [selectorSucceeded]
          split <;> simp
      | running => exact .ret .ok
      | failure => exact ih _ _

theorem sequenceLoop_ordinary {visits : List (Nat × Ask)} : ∀ (node : SequenceNode Node)
    (w : World σ κ), OrdinaryErrors (sequenceLoop visits node w) := by
  induction visits with
  | nil => intro node w; exact .ret .ok
  | cons visit rest ih =>
      intro node w
      apply visitChild_ordinary (fun _ _ _ => rfl)
      intro status ns w
      cases status with
      | success => exact ih _ _
      | running | failure => exact .ret .ok

theorem parallelLoop_ordinary {visits : List (Nat × Ask)} : ∀ (s f r : Nat)
    (node : ParallelNode Node) (w : World σ κ), OrdinaryErrors (parallelLoop visits s f r node w) := by
  induction visits with
  | nil => intro s f r node w; exact .ret .ok
  | cons visit rest ih =>
      intro s f r node w
      apply visitChild_ordinary (fun _ _ _ => rfl)
      intro status ns w
      cases status <;> exact ih _ _ _ _ _

theorem parallelWith_ordinary (asks : Nat → Ask) (node : ParallelNode Node) (w : World σ κ) :
    OrdinaryErrors (parallelWith asks node w) := by
  unfold parallelWith
  split
  · exact .ret .ok
  · exact parallelLoop_ordinary _ _ _ _ _

theorem inverterWith_ordinary (ask : Ask) (node : InverterNode Node) (w : World σ κ) :
    OrdinaryErrors (inverterWith ask node w) := by
  apply OrdinaryErrors.single
  intro a raises
  apply OrdinaryErrors.ret
  simpa using raises

theorem repeaterLoop_ordinary {asks : List Ask} : ∀ (node : RepeaterNode Node) (w : World σ κ),
    OrdinaryErrors (repeaterLoop asks node w) := by
  induction asks with
  | nil => intro node w; exact .ret .ok
  | cons ask rest ih =>
      intro node w
      apply OrdinaryErrors.single
      intro a raises
      have counted (status : NodeStatus) (n : RepeaterNode Node) :
          OrdinaryErrors (repeaterCount n status a.world (repeaterLoop rest)) := by
        unfold repeaterCount
        split
        · exact .ret (by simp)
        · split
          · exact .ret .ok
          · exact ih _ _
      unfold repeaterAttempt
      split
      · next e result =>
          apply OrdinaryErrors.ret
          simpa [result] using raises
      · exact counted _ _
      · exact .ret .ok
      · exact counted _ _

theorem cooldownWith_ordinary [Clock κ] (ask : Ask) (node : CooldownNode Node) (w : World σ κ) :
    OrdinaryErrors (cooldownWith ask node w) := by
  simp only [cooldownWith]
  split
  · exact .ret .ok
  · apply OrdinaryErrors.single
    intro a raises
    split <;> exact .ret raises

theorem reflectionGuardWith_ordinary (ask : Ask) (node : ReflectionGuardNode Node) (w : World σ κ) :
    OrdinaryErrors (reflectionGuardWith ask node w) := by
  unfold reflectionGuardWith
  split
  · exact .ret .ok
  · apply OrdinaryErrors.single
    intro a raises
    dsimp only
    split
    · split
      · exact .ret (by simp)
      · exact .ret raises
    · exact .ret raises

theorem forceHumanWith_ordinary (ask : Ask) (node : ForceHumanNode Node) (w : World σ κ) :
    OrdinaryErrors (forceHumanWith ask node w) := by
  apply OrdinaryErrors.single
  intro a raises
  dsimp only
  split <;> exact .ret raises

section

variable [Crates]

theorem whenWith_ordinary (ask : Ask) (node : WhenNode Node) (w : World σ κ) :
    OrdinaryErrors (whenWith ask node w) := by
  unfold whenWith
  split
  · next e failed =>
      apply OrdinaryErrors.ret
      simpa using evaluate_raises _ _ e failed
  · exact .ret .ok
  · apply OrdinaryErrors.single
    intro a raises
    exact .ret raises

theorem tickCondition_raises (node : ConditionNode) (w : World σ κ) :
    Raises Fault.Ordinary (tickCondition node w).result := by
  unfold tickCondition
  split
  · next e failed => simpa using evaluate_raises _ _ e failed
  · simp
  · simp

theorem emitCommand_raises (node : ActionNode) (w : World σ κ) :
    Raises Fault.Ordinary (emitCommand node w).result := by
  unfold emitCommand
  split
  · next e failed => simpa using renderCommandTemplates_raises _ _ e failed
  · simp

theorem tickAction_raises (node : ActionNode) (w : World σ κ) :
    Raises Fault.Ordinary (tickAction node w).result := by
  unfold tickAction
  split
  · exact emitCommand_raises node w
  · split
    · next e failed => simpa using evaluate_raises _ _ e failed
    · simp
    · exact emitCommand_raises node w

theorem consumeReply_raises (node : PromptNode) (reply : String) (w : World σ κ) :
    Raises Fault.Ordinary (consumeReply node reply w).result := by
  simp only [consumeReply]
  split <;> simp

variable [Session σ] [Clock κ]

theorem tickPrompt_raises (node : PromptNode) (w : World σ κ) :
    Raises Fault.Ordinary (tickPrompt node w).result := by
  unfold tickPrompt
  split
  · simp only [awaitReply]
    split
    · simp
    · split
      · simp
      · split
        · simp [RuntimeError.ofSession]
        · exact consumeReply_raises _ _ _
  · unfold sendPrompt
    split
    · next e failed => simpa using renderPromptTemplate_raises _ _ e failed
    · dsimp only
      split
      · simp [RuntimeError.ofSession]
      · simp

/-- Every request but that of a subtree ordinary errors. -/
theorem requestBody_ordinary (q : Request σ κ) :
    (∃ n, q.node = .subTree n) ∨ OrdinaryErrors (requestBody q) := by
  cases q using requestBody_cases with
  | selector => exact .inr (selectorLoop_ordinary _ _).map
  | sequence => exact .inr (sequenceLoop_ordinary _ _).map
  | parallel => exact .inr (parallelWith_ordinary _ _ _).map
  | inverter => exact .inr (inverterWith_ordinary _ _ _).map
  | repeaterOff => exact .inr (.ret .ok)
  | repeater => exact .inr (repeaterLoop_ordinary _ _).map
  | cooldown => exact .inr (cooldownWith_ordinary _ _ _).map
  | reflectionGuard => exact .inr (reflectionGuardWith_ordinary _ _ _).map
  | forceHuman => exact .inr (forceHumanWith_ordinary _ _ _).map
  | when => exact .inr (whenWith_ordinary _ _ _).map
  | condition => exact .inr (.ret (tickCondition_raises _ _))
  | action => exact .inr (.ret (tickAction_raises _ _))
  | prompt => exact .inr (.ret (tickPrompt_raises _ _))
  | setVar => exact .inr (.ret .ok)
  | subTree _ n => exact .inl ⟨n, rfl⟩

end

end

end AgileAgent.DecisionDsl
