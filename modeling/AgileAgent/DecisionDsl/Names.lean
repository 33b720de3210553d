import AgileAgent.DecisionDsl.Listing

/-! # Names of desugared rules

Every node of a desugared rule is named after the form that it comes from, with an ending
that says what the node is for. The exceptions are inline commands, which are all called
`emit`, and references, which are called as the subtree.
-/

namespace AgileAgent.DecisionDsl

/-- What a node is for, in the form that it is named after. -/
inductive Role where
  | itself
  | root
  | guard
  | condition
  | errorHandler
  | escalateFallback
  | retry
  | reflection
  | cooldown
  | prompt
  | branch
  | step
  | emit
  | caseOf (value : String)
  deriving DecidableEq

def Role.ending : Role → String
  | .itself => ""
  | .root => "_root"
  | .guard => "_guard"
  | .condition => "_cond"
  | .errorHandler => "_error_handler"
  | .escalateFallback => "_escalate_fallback"
  | .retry => "_retry"
  | .reflection => "_reflection"
  | .cooldown => "_cooldown"
  | .prompt => "_prompt"
  | .branch => "_branch"
  | .step => "_step"
  | .emit => "_emit"
  | .caseOf value => "_" ++ value

inductive Label where
  | of (name : String) (role : Role)
  | reference (refName : String)
  | inlineCommand
  | noMatch
  deriving DecidableEq

def Label.text : Label → String
  | .of name role => name ++ role.ending
  | .reference refName => refName
  | .inlineCommand => "emit"
  | .noMatch => "no_match"

/-- The forms that rules are made of, without the forms inside them. -/
inductive Form where
  | rule (spec : RuleSpec)
  | switch (name : String) (on : SwitchOn) (values : List String)
  | when (name : String) (onError : Option OnError)
  | pipeline (spec : PipelineSpec)
  | inlineCommand (command : DecisionCommand)
  | subTree (refName : String)

mutual
/-- The forms of an action, each before those inside it. -/
def ThenSpec.forms : ThenSpec → List Form
  | .inlineCommand command => [.inlineCommand command]
  | .switch { name, on, cases, default } =>
      .switch name on (cases.map SwitchCase.value) :: (caseForms cases ++ defaultForms default)
  | .when { name, «then», onError, .. } => .when name onError :: «then».forms
  | .pipeline spec => [.pipeline spec]
  | .subTree refName => [.subTree refName]

def caseForms : List (SwitchCase ThenSpec) → List Form
  | [] => []
  | { action, .. } :: rest => action.forms ++ caseForms rest

def defaultForms : Option ThenSpec → List Form
  | none => []
  | some action => action.forms
end

/-- All forms of some rules. -/
def forms (rules : List RuleSpec) : List Form :=
  rules.flatMap fun rule => .rule rule :: rule.action.forms

namespace Form

/-- The names that the author gives in a form. -/
def given : Form → List String
  | .rule spec => [spec.name]
  | .switch name _ values => name :: values
  | .when name _ => [name]
  | .pipeline spec => [spec.name]
  | .inlineCommand _ | .subTree _ => []

def inlineCommand? : Form → Option DecisionCommand
  | .inlineCommand command => some command
  | _ => none

def reference? : Form → Option String
  | .subTree refName => some refName
  | _ => none

end Form

def PipelineStep.isGuard : PipelineStep → Bool
  | .guard _ => true
  | .action _ => false

def PipelineStep.role : PipelineStep → Role
  | .guard _ => .step
  | .action _ => .emit

def errorRoles : Option OnError → List Role
  | some .escalate => [.errorHandler, .escalateFallback]
  | some .retry => [.retry]
  | some .skip | none => []

def ruleRoles (rule : RuleSpec) : List Role :=
  rule.cooldownMs.toList.map (fun _ => .cooldown) ++
    rule.reflectionMaxRounds.toList.map (fun _ => .reflection) ++
    errorRoles rule.onError ++
    rule.condition.toList.flatMap fun _ => [.guard, .condition]

theorem Node.names_eq (n : Node) : n.names = n.name :: n.children.flatMap Node.names := by
  rw [names, preorder_eq, List.map_cons, List.map_flatMap]
  rfl

/-- The names with these roles in the form `name`. -/
def ownNames (name : String) (roles : List Role) : List String := roles.map fun r => name ++ r.ending

@[simp] theorem ownNames_cons (name : String) (r : Role) (roles : List Role) :
    ownNames name (r :: roles) = (name ++ r.ending) :: ownNames name roles := rfl

@[simp] theorem ownNames_append (name : String) (left right : List Role) :
    ownNames name (left ++ right) = ownNames name left ++ ownNames name right := List.map_append

@[simp] theorem append_itself (name : String) : name ++ Role.itself.ending = name :=
  String.append_empty

@[simp] theorem map_text_of (name : String) (roles : List Role) :
    (roles.map (Label.of name)).map Label.text = ownNames name roles := by
  rw [List.map_map]
  rfl

section

variable [Crates]

def switchRoles (on : SwitchOn) (values : List String) : List Role :=
  let branches := .branch :: values.map fun value => .caseOf (Crates.toLowercase value)
  match on with
  | .prompt .. => .itself :: .prompt :: branches
  | .variable _ => branches

/-- The labels of the nodes that a form adds. -/
def Form.labels : Form → List Label
  | .rule spec => (ruleRoles spec).map (.of spec.name)
  | .switch name on values => (switchRoles on values).map (.of name)
  | .when name onError => (.itself :: errorRoles onError).map (.of name)
  | .pipeline spec => (.itself :: spec.steps.map PipelineStep.role).map (.of spec.name)
  | .inlineCommand _ => [.inlineCommand]
  | .subTree refName => [.reference refName]

/-- The labels of all nodes of a document of rules. -/
def labels (metadata : Metadata) (rules : List RuleSpec) : List Label :=
  .of metadata.name .root :: .noMatch :: (forms rules).flatMap Form.labels

/-! ## Desugaring names nodes by their labels -/

/-- The names that some forms account for. -/
def written (forms : List Form) : List String := (forms.flatMap Form.labels).map Label.text

@[simp] theorem written_nil : written [] = [] := rfl

@[simp] theorem written_cons (form : Form) (rest : List Form) :
    written (form :: rest) = form.labels.map Label.text ++ written rest := by
  simp [written]

@[simp] theorem written_append (left right : List Form) :
    written (left ++ right) = written left ++ written right := by
  simp [written]

omit [Crates] in
theorem handleError_names (form name : String) (onError : Option OnError) (node : Node) :
    (handleError form name onError node).names.Perm
      (ownNames name (errorRoles onError) ++ node.names) := by
  rcases onError with _ | (_ | _ | _)
  · exact .refl _
  · exact .refl _
  · have fallback : (Node.action (escalateFallback form name)).names = [name ++ "_escalate_fallback"] := rfl
    simp only [handleError, Node.names_eq (.selector _), Node.children, List.flatMap_cons, fallback]
    exact List.perm_append_comm.cons _
  · simp only [handleError, Node.names_eq (.repeater _), Node.children, List.flatMap_singleton]
    exact .refl _

omit [Crates] in
theorem desugarPipeline_names (pipeline : PipelineSpec) : (desugarPipeline pipeline).names =
    ownNames pipeline.name (.itself :: pipeline.steps.map PipelineStep.role) := by
  have one (step : PipelineStep) :
      (desugarStep pipeline.name step).names = [pipeline.name ++ step.role.ending] := by
    cases step <;> rfl
  have steps : (pipeline.steps.map (desugarStep pipeline.name)).flatMap Node.names =
      ownNames pipeline.name (pipeline.steps.map PipelineStep.role) := by
    simp [ownNames, List.flatMap_map, one, ← List.map_eq_flatMap]
  rw [desugarPipeline, Node.names_eq, ownNames_cons, append_itself]
  exact congrArg _ steps

omit [Crates] in
theorem guardRule_names (name : String) (condition : Option Evaluator) (inner : Node) :
    (guardRule name condition inner).names =
      ownNames name (condition.toList.flatMap fun _ => [.guard, .condition]) ++ inner.names := by
  cases condition with
  | none => rfl
  | some evaluator =>
      simp [guardRule, Node.names_eq (.sequence _), Node.names_eq (.condition _), Node.children,
        Node.name, ownNames, Role.ending]

omit [Crates] in
theorem limitReflection_names (name : String) (maxRounds : Option UInt8) (node : Node) :
    (limitReflection name maxRounds node).names =
      ownNames name (maxRounds.toList.map fun _ => .reflection) ++ node.names := by
  cases maxRounds with
  | none => rfl
  | some =>
      simp [limitReflection, Node.names_eq (.reflectionGuard _), Node.children, Node.name, ownNames,
        Role.ending]

omit [Crates] in
theorem coolDown_names (name : String) (cooldownMs : Option Nat) (node : Node) :
    (coolDown name cooldownMs node).names =
      ownNames name (cooldownMs.toList.map fun _ => .cooldown) ++ node.names := by
  cases cooldownMs with
  | none => rfl
  | some =>
      simp [coolDown, Node.names_eq (.cooldown _), Node.children, Node.name, ownNames, Role.ending]

theorem switchNode_names (name : String) (on : SwitchOn) {caseNodes : List Node} {values inside : List String}
    (names : (caseNodes.flatMap Node.names).Perm
      (ownNames name (values.map fun value => .caseOf (Crates.toLowercase value)) ++ inside)) :
    (switchNode name on caseNodes).names.Perm (ownNames name (switchRoles on values) ++ inside) := by
  have branch : (Node.selector { name := name ++ "_branch", children := caseNodes }).names.Perm
      (ownNames name (.branch :: values.map fun value => .caseOf (Crates.toLowercase value)) ++ inside) := by
    rw [Node.names_eq]
    exact names.cons _
  cases on with
  | «variable» => exact branch
  | prompt =>
      simp only [switchNode, Node.names_eq (.sequence _), Node.names_eq (.prompt _), Node.children,
        List.flatMap_cons, List.flatMap_nil, List.append_nil, switchRoles, ownNames_cons, append_itself]
      exact (branch.cons _).cons _

mutual
theorem desugarThen_names : ∀ action : ThenSpec, (desugarThen action).names.Perm (written action.forms)
  | .inlineCommand _ => .refl _
  | .switch { name, on, cases, default } => by
      have inside : ((desugarCases name on.key cases ++ desugarDefault default).flatMap Node.names).Perm
          (ownNames name ((cases.map SwitchCase.value).map fun value => .caseOf (Crates.toLowercase value)) ++
            (written (caseForms cases) ++ written (defaultForms default))) := by
        rw [List.flatMap_append, ← List.append_assoc]
        exact (desugarCases_names name on.key cases).append (desugarDefault_names default)
      have perm := switchNode_names name on inside
      rw [ThenSpec.forms, written_cons, written_append, Form.labels, map_text_of]
      exact perm
  | .when { name, condition, «then», onError } => by
      have own : (Node.when { name, condition, action := desugarThen «then» }).names.Perm
          (name :: written «then».forms) := by
        rw [Node.names_eq, Node.children, List.flatMap_singleton]
        exact (desugarThen_names «then»).cons _
      have perm := (handleError_names "When" name onError _).trans (own.append_left _)
      rw [ThenSpec.forms, written_cons, Form.labels, map_text_of, ownNames_cons, append_itself]
      exact perm.trans List.perm_middle
  | .pipeline spec => by
      rw [desugarThen, desugarPipeline_names, ThenSpec.forms, written_cons, Form.labels, map_text_of,
        written_nil, List.append_nil]
  | .subTree _ => .refl _

theorem desugarCases_names (name key : String) : ∀ cases : List (SwitchCase ThenSpec),
    ((desugarCases name key cases).flatMap Node.names).Perm
      (ownNames name ((cases.map SwitchCase.value).map fun value => .caseOf (Crates.toLowercase value)) ++
        written (caseForms cases))
  | [] => .refl _
  | { value, action } :: rest => by
      have first : (caseNode name key value (desugarThen action)).names.Perm
          ((name ++ (Role.caseOf (Crates.toLowercase value)).ending) :: written action.forms) := by
        rw [caseNode, Node.names_eq, Node.children, List.flatMap_singleton, Node.name, Role.ending,
          String.append_assoc]
        exact (desugarThen_names action).cons _
      have both := first.append (desugarCases_names name key rest)
      rw [desugarCases, List.flatMap_cons, List.map_cons, List.map_cons, ownNames_cons, caseForms,
        written_append]
      exact both.trans ((List.perm_append_comm_assoc _ _ _).cons _)

theorem desugarDefault_names : ∀ default : Option ThenSpec,
    ((desugarDefault default).flatMap Node.names).Perm (written (defaultForms default))
  | none => .refl _
  | some action => by
      rw [desugarDefault, List.flatMap_singleton]
      exact desugarThen_names action
end

theorem desugarRule_names (rule : RuleSpec) :
    (desugarRule rule).names.Perm (written (.rule rule :: rule.action.forms)) := by
  have guarded : (guardRule rule.name rule.condition (desugarThen rule.action)).names.Perm
      (ownNames rule.name (rule.condition.toList.flatMap fun _ => [.guard, .condition]) ++
        written rule.action.forms) := by
    rw [guardRule_names]
    exact (desugarThen_names rule.action).append_left _
  have handled := (handleError_names "Rule" rule.name rule.onError _).trans (guarded.append_left _)
  rw [desugarRule, coolDown_names, limitReflection_names, written_cons, Form.labels, map_text_of]
  simp only [ruleRoles, ownNames_append, List.append_assoc]
  exact (handled.append_left _).append_left _

theorem root_names (metadata : Metadata) (rules : List RuleSpec) :
    (Node.selector (rulesRoot metadata rules)).names.Perm
      ((labels metadata rules).map Label.text) := by
  have inside : ((rules.map desugarRule).flatMap Node.names).Perm (written (forms rules)) := by
    induction rules with
    | nil => exact .refl _
    | cons rule rest ih =>
        rw [List.map_cons, List.flatMap_cons, forms, List.flatMap_cons, written_append]
        exact (desugarRule_names rule).append ih
  have last : [noMatch].flatMap Node.names = [Label.text .noMatch] := rfl
  rw [Node.names_eq, rulesRoot, Node.children, List.flatMap_append, last]
  exact ((inside.append_right _).trans List.perm_append_comm).cons _

/-! ## When the labels differ -/

/-- The names of a document of rules are told apart. -/
structure ToldApart (metadata : Metadata) (rules : List RuleSpec) : Prop where
  /-- One command at most is written in place of an action. -/
  commands : ((forms rules).filterMap Form.inlineCommand?).length ≤ 1
  /-- No subtree is referred to twice. -/
  references : ((forms rules).filterMap Form.reference?).Nodup
  /-- A pipeline has one guard and one action at most. -/
  pipelines : ∀ spec, Form.pipeline spec ∈ forms rules →
    spec.steps.countP PipelineStep.isGuard ≤ 1 ∧ spec.steps.countP (! ·.isGuard) ≤ 1
  /-- The values of a switch differ in more than their case. -/
  values : ∀ name on values, Form.switch name on values ∈ forms rules →
    (values.map Crates.toLowercase).Nodup
  /-- Names with different endings, or of different forms, are not spelled alike. -/
  spelling : ∀ l ∈ labels metadata rules, ∀ l' ∈ labels metadata rules, l.text = l'.text → l = l'

theorem label_cases {form : Form} {l : Label} (member : l ∈ form.labels) :
    (∃ name role, l = .of name role ∧ name ∈ form.given) ∨
      (l = .inlineCommand ∧ form.inlineCommand?.isSome) ∨
        ∃ refName, l = .reference refName ∧ form.reference? = some refName := by
  cases form <;>
    simp_all only [Form.labels, List.mem_map, List.mem_singleton, Form.given, Form.inlineCommand?, Form.reference?] <;>
    grind

omit [Crates] in
theorem ruleRoles_nodup (rule : RuleSpec) : (ruleRoles rule).Nodup := by
  obtain ⟨_, _, condition, _, cooldownMs, reflectionMaxRounds, onError⟩ := rule
  rcases onError with _ | (_ | _ | _) <;> cases condition <;> cases cooldownMs <;>
    cases reflectionMaxRounds <;> simp [ruleRoles, errorRoles]

omit [Crates] in
theorem pipelineRoles_nodup {steps : List PipelineStep} :
    (Role.itself :: steps.map PipelineStep.role).Nodup ↔
      steps.countP PipelineStep.isGuard ≤ 1 ∧ steps.countP (! ·.isGuard) ≤ 1 := by
  have guards : (steps.map PipelineStep.role).count .step = steps.countP PipelineStep.isGuard := by
    rw [List.count, List.countP_map]
    congr 1
    funext step
    cases step <;> rfl
  have actions : (steps.map PipelineStep.role).count .emit = steps.countP (! ·.isGuard) := by
    rw [List.count, List.countP_map]
    congr 1
    funext step
    cases step <;> rfl
  have others (r : Role) (not_step : r ≠ .step) (not_emit : r ≠ .emit) :
      r ∉ steps.map PipelineStep.role := by
    rintro member
    obtain ⟨step, -, rfl⟩ := List.mem_map.mp member
    cases step <;> simp_all [PipelineStep.role]
  rw [List.nodup_cons, List.nodup_iff_count_le_one, ← guards, ← actions]
  constructor
  · rintro ⟨-, once⟩
    exact ⟨once .step, once .emit⟩
  · rintro ⟨step, emit⟩
    refine ⟨others .itself (by decide) (by decide), fun r => ?_⟩
    by_cases not_step : r = .step
    · exact not_step ▸ step
    by_cases not_emit : r = .emit
    · exact not_emit ▸ emit
    · simp [List.count_eq_zero_of_not_mem (others r not_step not_emit)]

theorem switchRoles_nodup {on : SwitchOn} {values : List String} :
    (switchRoles on values).Nodup ↔ (values.map Crates.toLowercase).Nodup := by
  have cases_nodup : (values.map fun value => Role.caseOf (Crates.toLowercase value)).Nodup ↔
      (values.map Crates.toLowercase).Nodup := by
    have injective : Function.Injective Role.caseOf := fun _ _ same => Role.caseOf.inj same
    rw [← List.nodup_map_iff injective, List.map_map]
    rfl
  cases on <;> simp [switchRoles, cases_nodup]

theorem labels_nodup_iff {form : Form} : form.labels.Nodup ↔
    (∀ spec, form = .pipeline spec →
      spec.steps.countP PipelineStep.isGuard ≤ 1 ∧ spec.steps.countP (! ·.isGuard) ≤ 1) ∧
    ∀ name on values, form = .switch name on values → (values.map Crates.toLowercase).Nodup := by
  have injective (name : String) : Function.Injective (Label.of name) := fun _ _ same => (Label.of.inj same).2
  cases form with
  | rule spec => simp [Form.labels, List.nodup_map_iff (injective _), ruleRoles_nodup]
  | switch name on values => simp [Form.labels, List.nodup_map_iff (injective _), switchRoles_nodup]
  | when name onError =>
      rcases onError with _ | (_ | _ | _) <;> simp [Form.labels, errorRoles]
  | pipeline spec =>
      rw [Form.labels, List.nodup_map_iff (injective _), pipelineRoles_nodup]
      simp
  | inlineCommand | subTree => simp [Form.labels]

theorem root_not_mem (name : String) (form : Form) : Label.of name .root ∉ form.labels := by
  cases form with
  | rule spec =>
      rcases spec with ⟨_, _, _, _, _, _, _ | (_ | _ | _)⟩ <;> simp [Form.labels, ruleRoles, errorRoles]
  | switch name on values => cases on <;> simp [Form.labels, switchRoles]
  | when name onError => rcases onError with _ | (_ | _ | _) <;> simp [Form.labels, errorRoles]
  | pipeline spec =>
      simp only [Form.labels, List.mem_map, List.mem_cons, not_exists, not_and]
      rintro r (rfl | ⟨step, -, rfl⟩)
      · simp
      · cases step <;> simp [PipelineStep.role]
  | inlineCommand | subTree => simp [Form.labels]

theorem command_label {form : Form} {c : DecisionCommand} (command : form.inlineCommand? = some c) :
    .inlineCommand ∈ form.labels := by
  cases form <;> simp_all [Form.inlineCommand?, Form.labels]

theorem reference_label {form : Form} {r : String} (reference : form.reference? = some r) :
    .reference r ∈ form.labels := by
  cases form <;> simp_all [Form.reference?, Form.labels]

/-- Forms with different names share a label when both are commands or the same reference. -/
theorem disjoint_labels_iff {left right : Form} (names : left.given.Disjoint right.given) :
    left.labels.Disjoint right.labels ↔
      (∀ c, left.inlineCommand? = some c → ∀ c', right.inlineCommand? = some c' → False) ∧
      ∀ r, left.reference? = some r → ∀ r', right.reference? = some r' → r ≠ r' := by
  constructor
  · intro apart
    refine ⟨fun c command c' command' => ?_, fun r reference r' reference' same => ?_⟩
    · exact apart (command_label command) (command_label command')
    · exact apart (reference_label reference) (same ▸ reference_label reference')
  · rintro ⟨commands, references⟩ l here there
    rcases label_cases here with ⟨name, role, rfl, own⟩ | ⟨rfl, command⟩ | ⟨r, rfl, reference⟩
    · obtain ⟨name', role', same, own'⟩ | ⟨⟨⟩, -⟩ | ⟨r', ⟨⟩, -⟩ := label_cases there
      obtain ⟨rfl, rfl⟩ := Label.of.inj same
      exact names own own'
    · obtain ⟨name', role', ⟨⟩, -⟩ | ⟨-, command'⟩ | ⟨r', ⟨⟩, -⟩ := label_cases there
      obtain ⟨c, command⟩ := Option.isSome_iff_exists.mp command
      obtain ⟨c', command'⟩ := Option.isSome_iff_exists.mp command'
      exact commands c command c' command'
    · obtain ⟨name', role', ⟨⟩, -⟩ | ⟨⟨⟩, -⟩ | ⟨r', same, reference'⟩ := label_cases there
      exact references r reference r' reference' (Label.reference.inj same)

omit [Crates] in
theorem length_le_one_iff {α : Type} {l : List α} : l.length ≤ 1 ↔ l.Pairwise fun _ _ => False := by
  match l with
  | [] | [_] => simp
  | a :: b :: _ =>
      simp only [List.length_cons, List.pairwise_cons]
      constructor
      · omega
      · intro apart
        exact (apart.1 b List.mem_cons_self).elim

/-- With names of their own, forms have labels of their own but for commands and references. -/
theorem flatMap_labels_nodup_iff {forms : List Form} (given : (forms.flatMap Form.given).Nodup) :
    (forms.flatMap Form.labels).Nodup ↔
      (∀ form ∈ forms, form.labels.Nodup) ∧ (forms.filterMap Form.inlineCommand?).length ≤ 1 ∧
        (forms.filterMap Form.reference?).Nodup := by
  have names := (List.nodup_flatMap.mp given).2
  have references : (forms.filterMap Form.reference?).Nodup ↔ forms.Pairwise fun left right =>
      ∀ r, left.reference? = some r → ∀ r', right.reference? = some r' → r ≠ r' :=
    List.pairwise_filterMap
  rw [List.nodup_flatMap, length_le_one_iff, references, List.pairwise_filterMap,
    ← List.pairwise_and_iff]
  refine and_congr_right fun _ => ⟨fun apart => ?_, fun apart => ?_⟩
  · exact (names.and apart).imp fun both => (disjoint_labels_iff both.1).mp both.2
  · exact (names.and apart).imp fun both => (disjoint_labels_iff both.1).mpr both.2

omit [Crates] in
/-- The names that the author gives in a document: those of rules, of their forms and of cases. -/
def givenNames (rules : List RuleSpec) : List String := (forms rules).flatMap Form.given

theorem labels_nodup {metadata : Metadata} {rules : List RuleSpec} :
    (labels metadata rules).Nodup ↔ ((forms rules).flatMap Form.labels).Nodup := by
  have root : Label.of metadata.name .root ∉ (forms rules).flatMap Form.labels := by
    simp [root_not_mem]
  have last : Label.noMatch ∉ (forms rules).flatMap Form.labels := by
    rintro member
    obtain ⟨form, -, member⟩ := List.mem_flatMap.mp member
    obtain ⟨_, _, ⟨⟩, -⟩ | ⟨⟨⟩, -⟩ | ⟨_, ⟨⟩, -⟩ := label_cases member
  simp [labels, root, last]

theorem names_nodup_iff {metadata : Metadata} {rules : List RuleSpec} (given : (givenNames rules).Nodup) :
    (Node.selector (rulesRoot metadata rules)).names.Nodup ↔ ToldApart metadata rules := by
  rw [(root_names metadata rules).nodup_iff]
  constructor
  · intro distinct
    obtain ⟨own, commands, references⟩ :=
      (flatMap_labels_nodup_iff given).mp (labels_nodup.mp (List.Nodup.of_map _ distinct))
    refine ⟨commands, references, fun spec member => ?_, fun name on values member => ?_, ?_⟩
    · exact (labels_nodup_iff.mp (own _ member)).1 spec rfl
    · exact (labels_nodup_iff.mp (own _ member)).2 name on values rfl
    · exact List.inj_on_of_nodup_map distinct
  · intro apart
    have own (form : Form) (member : form ∈ forms rules) : form.labels.Nodup := by
      refine labels_nodup_iff.mpr ⟨?_, ?_⟩
      · rintro spec rfl
        exact apart.pipelines spec member
      · rintro name on values rfl
        exact apart.values name on values member
    have distinct := (flatMap_labels_nodup_iff given).mpr ⟨own, apart.commands, apart.references⟩
    exact (labels_nodup.mpr distinct).map_on apart.spelling

variable [Yaml]

/-- A document with names of its own and ranked rules passes the check of names exactly when
    the names that it gives its nodes are told apart; it is then accepted from a directory
    where validation has nothing else to object to. -/
theorem desugared_names_unique_iff {apiVersion : String} {metadata : Metadata} {rules : List RuleSpec}
    (given : (givenNames rules).Nodup) (ranked : (rules.map RuleSpec.priority).Nodup) :
    let doc := DslDocument.decisionRules apiVersion metadata rules
    (validateUniqueNames doc.desugar = .ok () ↔ ToldApart metadata rules) ∧
      ∀ dir fs subtrees, Contents.Of dir fs ⟨[doc], subtrees, []⟩ →
        (doc.desugar.spec.root.names.Nodup → Contents.Sound ⟨[doc], subtrees, []⟩) →
        ((∃ bundle, parseBundle dir fs = .ok bundle) ↔ ToldApart metadata rules) := by
  intro doc
  have unique : doc.desugar.spec.root.names.Nodup ↔ ToldApart metadata rules := names_nodup_iff given
  refine ⟨validateUniqueNames_iff.trans unique, ?_⟩
  intro dir fs subtrees of others
  have ranked : Contents.Ranked ⟨[doc], subtrees, []⟩ :=
    ⟨List.forall_mem_singleton.mpr ranked, List.nodup_nil⟩
  have found : Contents.tree ⟨[doc], subtrees, []⟩ metadata.name = some doc.desugar := by
    simp [Contents.tree, Contents.treeEntries, DslDocument.treeEntries, doc, Contents.merged,
      MergedRules.entries]
  rw [← unique]
  rcases parseBundle_of of ranked with ⟨sound, result⟩ | ⟨unsound, e, result⟩
  · have valid := sound metadata.name doc.desugar (.inl found)
    exact ⟨fun _ => valid.names, fun _ => ⟨_, result⟩⟩
  · simp only [result, reduceCtorEq, exists_false, false_iff]
    exact fun names => unsound (others names)

end

/-! ## Two commands, and one -/

namespace Names

def stopText : String :=
  "priority: 3\nname: stop\nthen:\n  kind: InlineCommand\n  payload:\n    command:\n" ++
    "      kind: Agent\n      payload:\n        kind: Terminate\n        payload:\n          reason: done\n"

def stop : RuleSpec where
  priority := 3
  name := "stop"
  condition := none
  action := .inlineCommand (.agent (.terminate "done"))
  cooldownMs := none
  reflectionMaxRounds := none
  onError := none

def stopRule : String :=
  "- priority: 3\n  name: stop\n  then:\n    kind: InlineCommand\n    payload:\n      command:\n" ++
    "        kind: Agent\n        payload:\n          kind: Terminate\n          payload:\n            reason: done\n"

/-- Two rules with a command each. -/
def twoFile : String := Listing.wakeUpFile ++ stopRule

/-- Two rules, one of them with a command. -/
def oneFile : String := Listing.reviewFile ++ stopRule

def samples : Samples where
  documents :=
    [(twoFile, [Listing.wakeUpText, stopText]), (oneFile, [Listing.reviewText, stopText])].map
      fun (file, rules) =>
        (file, ⟨"decision.agile-agent.io/v1", "DecisionRules", ⟨"default", none⟩, rules, none⟩)
  rules := [(Listing.wakeUpText, Listing.wakeUp), (Listing.reviewText, Listing.review), (stopText, stop)]

scoped instance yaml : Yaml := samples.yaml

def files (text : String) : List (Path × String) := [(["bundle", "trees", "default.yaml"], text)]

def doc (rules : List RuleSpec) : DslDocument :=
  .decisionRules "decision.agile-agent.io/v1" ⟨"default", none⟩ rules

open Plain

set_option maxRecDepth 20000 in
theorem one_of : Contents.Of ["bundle"] (memoryFs (files oneFile)) ⟨[doc [Listing.review, stop]], [], []⟩ :=
  ⟨rfl, rfl, rfl⟩

theorem one_apart : ToldApart ⟨"default", none⟩ [Listing.review, stop] where
  commands := by decide
  references := by decide
  pipelines spec member := by
    simp [forms, Listing.review, stop, ThenSpec.forms] at member
    simp [member]
  values name on values member := by
    simp [forms, Listing.review, stop, ThenSpec.forms] at member
  spelling := by decide

end Names

section

open Names Plain

set_option maxRecDepth 20000 in
/-- A rule that wakes an agent up and a rule that stops it cannot be loaded together. -/
theorem two_commands_rejected :
    (givenNames [Listing.wakeUp, stop]).Nodup ∧
      ([Listing.wakeUp, stop].map RuleSpec.priority).Nodup ∧
      validateUniqueNames (doc [Listing.wakeUp, stop]).desugar = .error (.duplicateName "emit") ∧
      parseBundle ["bundle"] (memoryFs (Names.files twoFile)) = .error (.duplicateName "emit") := by
  exact ⟨by decide, by decide, by decide, rfl⟩

/-- With one command the rules are accepted. -/
theorem one_command_accepted :
    validateUniqueNames (doc [Listing.review, stop]).desugar = .ok () ∧
      ∃ bundle, parseBundle ["bundle"] (memoryFs (Names.files oneFile)) = .ok bundle := by
  obtain ⟨unique, accepted⟩ := @desugared_names_unique_iff _ _ "decision.agile-agent.io/v1"
    ⟨"default", none⟩ [Listing.review, stop] (by decide) (by decide)
  refine ⟨unique.mpr one_apart, (accepted _ _ _ one_of fun names => ?_).mpr one_apart⟩
  apply Contents.sound_of
  intro e member
  obtain rfl := List.mem_singleton.mp member
  exact .of_no_references (by decide) names (by decide)

end

end AgileAgent.DecisionDsl
