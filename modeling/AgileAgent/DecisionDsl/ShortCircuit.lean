import AgileAgent.DecisionDsl.Grammar

/-! # Short-circuit evaluation

The parser evaluates both sides of every connective. On an expression of the grammar this is the
evaluation that short-circuits unless a comparison fails that is never reached, or that the parser
refuses.
-/

namespace AgileAgent.DecisionDsl.Script

section

variable [Crates] (bb : Blackboard)

/-- The comparisons of a chain, from left to right. -/
def Expr.comparisons (e : Expr) : List Comparison := e.first :: e.rest.map (·.2)

/-- The comparisons that are evaluated when a chain is left as soon as its result is known, up to the
    first one that fails. -/
def reachedTail (result : Bool) : List (Connective × Comparison) → List Comparison
  | [] => []
  | (.and, c) :: rest =>
      if result then c :: (match c.value bb with
        | .ok value => reachedTail value rest
        | .error _ => [])
      else reachedTail false rest
  | (.or, c) :: rest =>
      if result then reachedTail true rest
      else c :: (match c.value bb with
        | .ok value => reachedTail value rest
        | .error _ => [])

def Expr.reached (e : Expr) : List Comparison :=
  e.first :: (match e.first.value bb with
    | .ok value => reachedTail bb value e.rest
    | .error _ => [])

def failure {α : Type} : Except RuntimeError α → Option RuntimeError
  | .ok _ => none
  | .error error => some error

/-- Why a comparison fails in the parser: it is refused, or it cannot be evaluated. -/
def Comparison.parserFailure (c : Comparison) : Option RuntimeError := c.refusal.or (failure (c.value bb))

theorem outcome_failure (c : Comparison) : failure (c.outcome bb) = c.parserFailure bb := by
  rw [Comparison.outcome, Comparison.parserFailure]
  cases c.refusal <;> rfl

theorem strictTail_failure (result : Bool) (rest : List (Connective × Comparison)) :
    failure (strictTail bb result rest) = (rest.map (·.2)).findSome? (·.parserFailure bb) := by
  induction rest generalizing result with
  | nil => rfl
  | cons head rest ih =>
      obtain ⟨connective, c⟩ := head
      rw [strictTail, List.map_cons, List.findSome?_cons, ← outcome_failure]
      cases c.outcome bb with
      | error error => rfl
      | ok value => exact ih (connective.apply result value)

theorem strict_failure (e : Expr) : failure (e.strict bb) = e.comparisons.findSome? (·.parserFailure bb) := by
  rw [Expr.strict, Expr.comparisons, List.findSome?_cons, ← outcome_failure]
  cases e.first.outcome bb with
  | error error => rfl
  | ok value => exact strictTail_failure bb value e.rest

theorem shortCircuitTail_failure (result : Bool) (rest : List (Connective × Comparison)) :
    failure (shortCircuitTail bb result rest) = (reachedTail bb result rest).findSome? fun c => failure (c.value bb) := by
  induction rest generalizing result with
  | nil => rfl
  | cons head rest ih =>
      obtain ⟨connective, c⟩ := head
      cases connective <;> cases result
      · exact ih false
      · rw [shortCircuitTail, reachedTail, if_pos rfl, if_pos rfl, List.findSome?_cons]
        cases c.value bb with
        | error error => rfl
        | ok value => exact ih value
      · rw [shortCircuitTail, reachedTail, if_neg Bool.false_ne_true, if_neg Bool.false_ne_true,
          List.findSome?_cons]
        cases c.value bb with
        | error error => rfl
        | ok value => exact ih value
      · exact ih true

theorem shortCircuit_failure (e : Expr) :
    failure (e.shortCircuit bb) = (e.reached bb).findSome? fun c => failure (c.value bb) := by
  rw [Expr.shortCircuit, Expr.reached, List.findSome?_cons]
  cases e.first.value bb with
  | error error => rfl
  | ok value => exact shortCircuitTail_failure bb value e.rest

/-- A comparison that does not fail has its value. -/
theorem outcome_of_fine {c : Comparison} (fine : c.parserFailure bb = none) :
    ∃ value, c.value bb = .ok value ∧ c.outcome bb = .ok value := by
  obtain ⟨accepted, evaluates⟩ := Option.or_eq_none_iff.mp fine
  rw [Comparison.outcome, accepted]
  cases value : c.value bb with
  | error error =>
      rw [value] at evaluates
      cases evaluates
  | ok result => exact ⟨result, rfl, rfl⟩

/-- Where no comparison fails, what is skipped does not change the result. -/
theorem strictTail_eq (result : Bool) {rest : List (Connective × Comparison)}
    (fine : ∀ c ∈ rest.map (·.2), c.parserFailure bb = none) :
    strictTail bb result rest = shortCircuitTail bb result rest := by
  induction rest generalizing result with
  | nil => rfl
  | cons head rest ih =>
      obtain ⟨connective, c⟩ := head
      rw [List.map_cons, List.forall_mem_cons] at fine
      obtain ⟨value, here, outcome⟩ := outcome_of_fine bb fine.1
      rw [strictTail, outcome, ok_bind, ih _ fine.2]
      cases connective <;> cases result <;> simp [Connective.apply, shortCircuitTail, here]

theorem strict_eq {e : Expr} (fine : ∀ c ∈ e.comparisons, c.parserFailure bb = none) :
    e.strict bb = e.shortCircuit bb := by
  rw [Expr.comparisons, List.forall_mem_cons] at fine
  obtain ⟨value, here, outcome⟩ := outcome_of_fine bb fine.1
  rw [Expr.strict, Expr.shortCircuit, here, outcome, ok_bind, ok_bind, strictTail_eq bb value fine.2]

/-- Strict evaluation is short-circuit evaluation if the first comparison that fails is as the first
    one that fails among those that are reached. -/
theorem strict_eq_shortCircuit_iff (e : Expr) : e.strict bb = e.shortCircuit bb ↔
    e.comparisons.findSome? (·.parserFailure bb) = (e.reached bb).findSome? fun c => failure (c.value bb) := by
  rw [← strict_failure, ← shortCircuit_failure]
  constructor
  · exact congrArg failure
  · intro same
    cases strict : e.strict bb with
    | error error =>
        rw [strict] at same
        cases short : e.shortCircuit bb with
        | error other =>
            rw [short] at same
            rw [Option.some.inj same]
        | ok value =>
            rw [short] at same
            cases same
    | ok value =>
        rw [← strict]
        refine strict_eq bb (List.findSome?_eq_none_iff.mp ?_)
        rw [← strict_failure, strict]
        rfl

variable [CharTables]

/-- The parser reads the whole of an expression of the grammar. -/
theorem parseExpr_derives {text : List Char} {e : Expr} (derives : Derives text e) :
    parseExpr bb text = (e.strict bb).map (·, []) := by
  obtain ⟨a, front, b, before, after, written, rfl⟩ := derives
  have nothing : skipWs b = [] := skipWs_eq_nil.mpr after
  have ends : ¬ GoesOn b := by
    rw [GoesOn, nothing]
    simp
  rw [parseExpr_text bb before written (closed_blank _ after) ends, nothing]

theorem evaluateScript_derives {expr : String} {e : Expr} (derives : Derives expr.toList e) :
    evaluateScript expr bb = e.strict bb := by
  rw [evaluateScript, parseExpr_derives bb derives]
  cases e.strict bb <;> rfl

/-- The evaluator short-circuits exactly if the first comparison that fails in the parser, if there
    is one, fails as the first one does among those that short-circuiting reaches. -/
theorem evaluateScript_shortCircuit {expr : String} {e : Expr} (derives : Derives expr.toList e) :
    evaluateScript expr bb = e.shortCircuit bb ↔
      e.comparisons.findSome? (·.parserFailure bb) =
        (e.reached bb).findSome? fun c => failure (c.value bb) := by
  rw [evaluateScript_derives bb derives, strict_eq_shortCircuit_iff]

end

open Plain

/-- `name == 1`. -/
def isOne (name : String) : Comparison := .compare [name] .eq (.number (.integer 1))

def sampleExpr (second : String) : Expr := ⟨isOne "reflection_round", [(.and, isOne second)]⟩

theorem isOne_text {name : List Char} (identifier : IsIdentifier name) :
    ComparisonText (name ++ [] ++ ([' '] ++ (CompareOp.eq.text.toList ++ ([' '] ++ ['1'])))) (isOne (String.ofList name)) := by
  have blank : Blank [' '] := by
    rw [Blank, List.forall_mem_singleton]
    rfl
  have number : NumberText ['1'] (.integer 1) := .positive rfl (List.forall_mem_nil _) rfl
  exact .compare .eq (.mk identifier .nil) blank blank (.number number)

theorem sample_derives (second : String) (identifier : IsIdentifier second.toList) :
    Derives ("reflection_round == 1 && " ++ second ++ " == 1").toList (sampleExpr second) := by
  have blank : Blank [' '] := by
    rw [Blank, List.forall_mem_singleton]
    rfl
  have first : IsIdentifier "reflection_round".toList := ⟨'r', "eflection_round".toList, rfl, by decide,
    List.all_eq_true.mp (by decide)⟩
  have right := isOne_text identifier
  rw [String.ofList_toList] at right
  refine ⟨[], _, [], List.forall_mem_nil _, List.forall_mem_nil _,
    .mk (isOne_text first) (.cons .and blank blank right .nil), ?_⟩
  simp only [String.toList_append, Connective.symbol, CompareOp.text, List.append_nil, List.nil_append,
    List.append_assoc]
  rfl

/-- On expressions whose comparisons all have values the two evaluations agree. -/
theorem evaluateScript_sample : evaluateScript ("reflection_round == 1 && " ++ "max_reflection_rounds" ++ " == 1") {} =
    (sampleExpr "max_reflection_rounds").shortCircuit {} :=
  (evaluateScript_shortCircuit {} (sample_derives "max_reflection_rounds"
    ⟨'m', "ax_reflection_rounds".toList, rfl, by decide,
    List.all_eq_true.mp (by decide)⟩)).mpr (by decide +kernel)

/-- `false && missing == 1` is false, and the evaluator misses the variable. -/
theorem skipped_comparison_fails :
    Derives ("reflection_round == 1 && " ++ "missing" ++ " == 1").toList (sampleExpr "missing") ∧
      (sampleExpr "missing").shortCircuit {} = .ok false ∧
      evaluateScript ("reflection_round == 1 && " ++ "missing" ++ " == 1") {} = .error (.missingVariable "missing") :=
  ⟨sample_derives "missing" ⟨'m', "issing".toList, rfl, by decide,
    List.all_eq_true.mp (by decide)⟩, by decide +kernel, by decide +kernel⟩

end AgileAgent.DecisionDsl.Script
