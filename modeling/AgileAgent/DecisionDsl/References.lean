import AgileAgent.DecisionDsl.Faults
import AgileAgent.DecisionDsl.Idle
import AgileAgent.DecisionDsl.Listing

/-! # References are validated but never resolved

`resolved_root` is not read from the documents, desugaring leaves it empty and no code
fills it in. So a tick fails as soon as it reaches a subtree node with room for its scope.
-/

namespace AgileAgent.DecisionDsl

open CallTree

/-- A subtree node of it would have no root to call. -/
def Node.Unresolved : Node → Prop
  | .subTree n => n.resolvedRoot = none
  | _ => True

theorem Node.unresolved_of_reset {m n : Node} (same : m.reset = n.reset) (unresolved : n.Unresolved) :
    m.Unresolved := by
  cases m with
  | subTree m =>
      cases n with
      | subTree n =>
          rw [reset_subTree, reset_subTree] at same
          have roots : m.resolvedRoot.map reset = n.resolvedRoot.map reset := by
            simpa using congrArg (fun n : SubTreeNode Node => n.resolvedRoot) (Node.subTree.inj same)
          have empty : n.resolvedRoot = none := unresolved
          change m.resolvedRoot = none
          simpa [empty] using roots
      | _ => rw [reset_subTree] at same; cases same
  | _ => trivial

section

variable {σ κ : Type}

/-- The request reaches a subtree node, and its scope can be opened. -/
def Request.OpensSubTree (q : Request σ κ) : Prop :=
  ∃ n, q.node = .subTree n ∧ ∃ scopes, q.world.blackboard.scopes.push = .ok scopes

/-- An error of a call is the error of the routine. -/
theorem Threaded.call_error {ν : Type} {own : World σ κ → World σ κ → Prop} {w : World σ κ}
    {routine : Routine σ κ ν} (threaded : Threaded own w routine) {answer : Request σ κ → Answer σ κ}
    {q : Request σ κ} (called : q ∈ routine.calls answer) {e : Fault}
    (failed : (answer q).result = .error e) : (routine.run answer).result = .error e := by
  have all := threaded.run (fun _ r _ log => q ∈ log → r = .error e) answer (fun q => [q])
    (fun _ _ _ _ => nofun) (fun _ _ _ _ _ _ rest => rest) ?_ ?_
  · exact all (List.mem_flatMap.mpr ⟨q, called, List.mem_singleton.mpr rfl⟩)
  · intro v u s v' r v'' l l' _ first rest member
    rcases List.mem_append.mp member with now | later
    · cases first now
    · exact rest later
  · intro q' _ member
    rw [← List.mem_singleton.mp member]
    exact failed

variable [Crates] [Session σ] [Clock κ]

theorem requestBody_unresolved {q : Request σ κ} {n : SubTreeNode Node} (node : q.node = .subTree n)
    (none : n.resolvedRoot = none) : ((requestBody q).run interpreter.solve).result =
      match q.world.blackboard.scopes.push with
      | .ok _ => .error (.error (.subTreeNotResolved n.refName))
      | .error _ => .error (.error .scopeDepthExceeded) := by
  obtain ⟨ask, body⟩ := requestBody_subTree node
  rw [body, Body.run_map]
  simp only [Run.map, subTreeWith, World.withTracer, Blackboard.pushScope]
  cases pushed : q.world.blackboard.scopes.push <;> simp [none]

omit [Crates] [Session σ] [Clock κ] in
theorem All.unresolved {n : SubTreeNode Node} (all : (Node.subTree n).All Node.Unresolved) :
    n.resolvedRoot = none := by
  cases all with
  | mk here _ => exact here

/-- As long as no subtree node is reached with room for a scope, nothing is said to be
    unresolved. -/
theorem solve_ordinary (q : Request σ κ) (all : q.node.All Node.Unresolved)
    (closed : ∀ v ∈ interpreter.trail q, ¬ v.OpensSubTree) :
    Raises Fault.Ordinary (interpreter.solve q).result := by
  refine interpreter.induct (motive := fun q => q.node.All Node.Unresolved →
    (∀ v ∈ interpreter.trail q, ¬ v.OpensSubTree) →
      Raises Fault.Ordinary (interpreter.solve q).result) (fun q ih all closed => ?_) q all closed
  rw [interpreter_solve]
  rcases requestBody_ordinary q with ⟨n, node⟩ | ordinary
  · rw [requestBody_unresolved node (All.unresolved (node ▸ all))]
    cases pushed : q.world.blackboard.scopes.push with
    | error => simp
    | ok scopes => exact absurd ⟨n, node, scopes, pushed⟩ (closed q (interpreter.mem_trail_self q))
  · apply ordinary.run_post_of_calls
    intro q' called
    exact ih q' called (all_of_call Node.unresolved_of_reset all called) fun v below =>
      closed v (Procedure.mem_trail_of_call called below)

/-- A subtree node that is reached with room for its scope fails the whole request. -/
theorem solve_unresolved (q : Request σ κ) (all : q.node.All Node.Unresolved) {v : Request σ κ}
    (visited : v ∈ interpreter.trail q) (opens : v.OpensSubTree) :
    ∃ ref, (interpreter.solve q).result = .error (.error (.subTreeNotResolved ref)) := by
  refine interpreter.induct (motive := fun q => q.node.All Node.Unresolved → v ∈ interpreter.trail q →
    ∃ ref, (interpreter.solve q).result = .error (.error (.subTreeNotResolved ref)))
    (fun q ih all visited => ?_) q all visited
  rcases Procedure.mem_trail_cases visited with rfl | ⟨q', called, below⟩
  · obtain ⟨n, node, scopes, pushed⟩ := opens
    refine ⟨n.refName, ?_⟩
    rw [interpreter_solve, requestBody_unresolved node (All.unresolved (node ▸ all)), pushed]
  · obtain ⟨ref, failed⟩ := ih q' called (all_of_call Node.unresolved_of_reset all called) below
    have threaded : Threaded (fun _ _ => True) q.world (requestBody q) :=
      requestBody_threaded_of (fun _ _ _ => trivial) (fun _ _ _ => trivial) q
    refine ⟨ref, ?_⟩
    rw [interpreter_solve]
    exact threaded.call_error called failed

end

/-! ## Loaded trees -/

section

variable [Crates]

omit [Crates] in
theorem handleError_unresolved {form name : String} {onError : Option OnError} {node : Node}
    (node_all : node.All Node.Unresolved) : (handleError form name onError node).All Node.Unresolved := by
  rcases onError with _ | (_ | _ | _)
  · exact node_all
  · exact node_all
  · have fallback : (Node.action (escalateFallback form name)).All Node.Unresolved := .mk trivial nofun
    exact .mk trivial (List.forall_mem_cons.mpr ⟨node_all, List.forall_mem_singleton.mpr fallback⟩)
  · exact .mk trivial (List.forall_mem_singleton.mpr node_all)

omit [Crates] in
theorem switchNode_unresolved {name : String} {on : SwitchOn} {caseNodes : List Node}
    (all : ∀ node ∈ caseNodes, node.All Node.Unresolved) :
    (switchNode name on caseNodes).All Node.Unresolved := by
  have branch : (Node.selector { name := name ++ "_branch", children := caseNodes }).All
      Node.Unresolved := .mk trivial all
  cases on with
  | «variable» => exact branch
  | prompt =>
      exact .mk trivial (List.forall_mem_cons.mpr
        ⟨.mk trivial nofun, List.forall_mem_singleton.mpr branch⟩)

mutual
theorem desugarThen_unresolved : ∀ action : ThenSpec, (desugarThen action).All Node.Unresolved
  | .inlineCommand _ => .mk trivial nofun
  | .switch spec => desugarSwitch_unresolved spec
  | .when spec => desugarWhen_unresolved spec
  | .pipeline spec => by
      refine .mk trivial (List.forall_mem_map.mpr fun step _ => ?_)
      cases step <;> exact .mk trivial nofun
  | .subTree _ => .mk rfl nofun

theorem desugarSwitch_unresolved :
    ∀ spec : SwitchSpec ThenSpec, (desugarSwitch spec).All Node.Unresolved
  | { name, on, cases, default } => by
      apply switchNode_unresolved
      intro node member
      rcases List.mem_append.mp member with inside | inside
      · exact desugarCases_unresolved name on.key cases node inside
      · exact desugarDefault_unresolved default node inside

theorem desugarCases_unresolved (name key : String) : ∀ cases : List (SwitchCase ThenSpec),
    ∀ node ∈ desugarCases name key cases, node.All Node.Unresolved
  | [] => nofun
  | { value, action } :: rest => by
      simp only [desugarCases, List.forall_mem_cons]
      exact ⟨.mk trivial (List.forall_mem_singleton.mpr (desugarThen_unresolved action)),
        desugarCases_unresolved name key rest⟩

theorem desugarDefault_unresolved :
    ∀ default : Option ThenSpec, ∀ node ∈ desugarDefault default, node.All Node.Unresolved
  | none => nofun
  | some action => List.forall_mem_singleton.mpr (desugarThen_unresolved action)

theorem desugarWhen_unresolved : ∀ spec : WhenSpec ThenSpec, (desugarWhen spec).All Node.Unresolved
  | { «then», .. } =>
      handleError_unresolved (.mk trivial (List.forall_mem_singleton.mpr (desugarThen_unresolved «then»)))
end

omit [Crates] in
theorem guardRule_unresolved {name : String} {condition : Option Evaluator} {inner : Node}
    (all : inner.All Node.Unresolved) : (guardRule name condition inner).All Node.Unresolved := by
  cases condition with
  | none => exact all
  | some evaluator =>
      exact .mk trivial (List.forall_mem_cons.mpr
        ⟨.mk trivial nofun, List.forall_mem_singleton.mpr all⟩)

omit [Crates] in
theorem limitReflection_unresolved {name : String} {maxRounds : Option UInt8} {node : Node}
    (all : node.All Node.Unresolved) : (limitReflection name maxRounds node).All Node.Unresolved := by
  cases maxRounds with
  | none => exact all
  | some => exact .mk trivial (List.forall_mem_singleton.mpr all)

omit [Crates] in
theorem coolDown_unresolved {name : String} {cooldownMs : Option Nat} {node : Node}
    (all : node.All Node.Unresolved) : (coolDown name cooldownMs node).All Node.Unresolved := by
  cases cooldownMs with
  | none => exact all
  | some => exact .mk trivial (List.forall_mem_singleton.mpr all)

theorem desugarRule_unresolved (rule : RuleSpec) : (desugarRule rule).All Node.Unresolved :=
  coolDown_unresolved (limitReflection_unresolved (handleError_unresolved
    (guardRule_unresolved (desugarThen_unresolved rule.action))))

theorem rules_unresolved (apiVersion : String) (metadata : Metadata) (rules : List RuleSpec) :
    (DslDocument.decisionRules apiVersion metadata rules).desugar.spec.root.All Node.Unresolved := by
  refine .mk trivial (List.forall_mem_append.mpr ⟨?_, ?_⟩)
  · exact List.forall_mem_map.mpr fun rule _ => desugarRule_unresolved rule
  · exact List.forall_mem_singleton.mpr (.mk trivial nofun)

variable [Yaml]

/-- `resolved_root` is `#[serde(skip)]`: a node that is read has it empty, throughout. -/
def SkipsResolvedRoot : Prop :=
  ∀ value root, Yaml.nodeFromValue value = .ok root → root.All Node.Unresolved

omit [Crates] in
theorem specRoot_unresolved (skips : SkipsResolvedRoot) {spec : Option (RawSpec Yaml.Value)} {root : Node}
    (read : specRoot spec = .ok root) : root.All Node.Unresolved := by
  cases spec with
  | none => cases read
  | some spec =>
      simp only [specRoot, ofYaml] at read
      cases value : Yaml.nodeFromValue spec.root with
      | error e => simp [value, Except.mapError] at read
      | ok root' =>
          simp only [value, Except.mapError, Except.ok.injEq] at read
          exact read ▸ skips _ _ value

theorem parseDocument_unresolved (skips : SkipsResolvedRoot) {yaml : String} {doc : DslDocument}
    (read : parseDocument yaml = .ok doc) : doc.desugar.spec.root.All Node.Unresolved := by
  simp only [parseDocument, Loading.bind_eq_ok] at read
  obtain ⟨raw, -, read⟩ := read
  split at read
  · obtain ⟨rules, -, same⟩ := Loading.bind_eq_ok.mp read
    obtain rfl := Except.ok.inj same
    exact rules_unresolved _ _ _
  · split at read
    · obtain ⟨root, inside, same⟩ := Loading.bind_eq_ok.mp read
      obtain rfl := Except.ok.inj same
      exact specRoot_unresolved skips inside
    · split at read
      · obtain ⟨root, inside, same⟩ := Loading.bind_eq_ok.mp read
        obtain rfl := Except.ok.inj same
        exact specRoot_unresolved skips inside
      · cases read

theorem loadDocument_unresolved (skips : SkipsResolvedRoot) {fs : Fs} {path : Path} {doc : DslDocument}
    (read : loadDocument fs path = .ok doc) : doc.desugar.spec.root.All Node.Unresolved := by
  obtain ⟨text, -, parsed⟩ := Loading.bind_eq_ok.mp read
  exact parseDocument_unresolved skips parsed

theorem Contents.Of.unresolved (skips : SkipsResolvedRoot) {dir : Path} {fs : Fs} {c : Contents}
    (of : c.Of dir fs) :
    ∀ e ∈ c.treeEntries ++ c.subtreeEntries, e.2.spec.root.All Node.Unresolved := by
  simp only [List.forall_mem_append, treeEntries, subtreeEntries, List.forall_mem_flatMap]
  refine ⟨⟨fun doc member e inside => ?_, fun e inside => ?_⟩, fun doc member e inside => ?_⟩
  · obtain ⟨path, -, loaded⟩ := Loading.mem_of_mapM of.trees member
    have all := loadDocument_unresolved skips loaded
    cases doc with
    | behaviorTree | decisionRules =>
        obtain rfl := List.mem_singleton.mp inside
        exact all
    | subTree => cases inside
  · simp only [MergedRules.entries] at inside
    split at inside
    · obtain rfl := List.mem_singleton.mp inside
      exact rules_unresolved _ _ _
    · cases inside
  · obtain ⟨path, -, loaded⟩ := Loading.mem_of_mapM of.subtrees member
    have all := loadDocument_unresolved skips loaded
    cases doc with
    | subTree =>
        obtain rfl := List.mem_singleton.mp inside
        exact all
    | behaviorTree | decisionRules => cases inside

/-! ## Runs of loaded trees -/

variable {σ κ : Type} [Session σ] [Clock κ]

/-- In runs of a loaded tree no reference is found unresolved exactly when no subtree node
    is reached with room for its scope. -/
theorem loaded_tree_resolved_iff (skips : SkipsResolvedRoot) {dir : Path} {fs : Fs} {bundle : Bundle}
    (accepted : parseBundle dir fs = .ok bundle) {name : String} {tree : Tree}
    (inside : bundle.trees.lookup name = some tree ∨ bundle.subtrees.lookup name = some tree)
    {s : Instance σ κ} (root : s.root = tree.spec.root) (steps : List (HostStep σ κ)) :
    (∀ t ∈ s.run steps, ∀ ref, t.ticked.result ≠ .error (.error (.subTreeNotResolved ref))) ↔
      ∀ t ∈ s.run steps, ∀ v ∈ interpreter.trail t.start.request, ¬ v.OpensSubTree := by
  obtain ⟨c, of, -, rfl, -⟩ := parseBundle_eq_ok.mp accepted
  rw [c.lookup_trees, c.lookup_subtrees] at inside
  have member : (name, tree) ∈ c.treeEntries ++ c.subtreeEntries := by
    rcases inside with found | found
    · simp [List.mem_reverse.mp (Insertions.mem_of_lookup found)]
    · simp [List.mem_reverse.mp (Insertions.mem_of_lookup found)]
  have all : s.root.All Node.Unresolved := by
    rw [root]
    exact of.unresolved skips (name, tree) member
  have turn {t : Turn σ κ} (member : t ∈ s.run steps) : t.start.root.All Node.Unresolved ∧
      ∀ e, t.ticked.result = .error e ↔ (interpreter.solve t.start.request).result = .error e := by
    obtain ⟨same, ticked⟩ := Instance.run_turn member
    have tick : t.ticked = t.start.tick.ticked := congrArg Turn.ticked ticked
    refine ⟨all.of_reset Node.unresolved_of_reset same, fun e => ?_⟩
    rw [tick]
    exact Instance.tick_error_iff
  constructor
  · intro resolved t member v visited opens
    obtain ⟨below, error_iff⟩ := turn member
    obtain ⟨ref, failed⟩ := solve_unresolved t.start.request below visited opens
    exact resolved t member ref ((error_iff _).mpr failed)
  · intro closed t member ref failed
    obtain ⟨below, error_iff⟩ := turn member
    exact solve_ordinary t.start.request below (closed t member) _ ((error_iff _).mp failed)

end

/-! ## A tree and the subtree it refers to -/

namespace References

def mainText : String := "kind: SubTree\npayload:\n  name: call_helper\n  ref: helper\n"

def helperText : String := "kind: Action\npayload:\n  name: act\n  command:\n    kind: Agent\n" ++
  "    payload:\n      kind: WakeUp\n  when: null\n"

def mainFile : String := "kind: BehaviorTree\napiVersion: decision.agile-agent.io/v1\nmetadata:\n" ++
  "  name: main\nspec:\n  root:\n    kind: SubTree\n    payload:\n      name: call_helper\n      ref: helper\n"

def helperFile : String := "kind: SubTree\napiVersion: decision.agile-agent.io/v1\nmetadata:\n" ++
  "  name: helper\nspec:\n  root:\n    kind: Action\n    payload:\n      name: act\n      command:\n" ++
  "        kind: Agent\n        payload:\n          kind: WakeUp\n      when: null\n"

def callHelper : Node := .subTree { name := "call_helper", refName := "helper" }

def act : Node := .action { name := "act", command := .agent .wakeUp, when := none }

def samples : Samples where
  documents :=
    [(mainFile, ⟨"decision.agile-agent.io/v1", "BehaviorTree", ⟨"main", none⟩, [], some ⟨mainText⟩⟩),
      (helperFile, ⟨"decision.agile-agent.io/v1", "SubTree", ⟨"helper", none⟩, [], some ⟨helperText⟩⟩)]
  nodes := [(mainText, callHelper), (helperText, act)]

scoped instance yaml : Yaml := samples.yaml

theorem skips : SkipsResolvedRoot := by
  intro (value : String) root read
  change (samples.nodes.lookup value).elim (.error "invalid node") .ok =
    (Except.ok root : Except String Node) at read
  cases known : samples.nodes.lookup value with
  | none => simp [known] at read
  | some node =>
      obtain rfl : node = root := by simpa [known] using read
      have member := Insertions.mem_of_lookup known
      simp only [samples, List.mem_cons, Prod.mk.injEq, List.not_mem_nil, or_false] at member
      rcases member with ⟨-, rfl⟩ | ⟨-, rfl⟩
      · exact .mk rfl nofun
      · exact .mk trivial nofun

def files : List (Path × String) :=
  [(["bundle", "trees", "main.yaml"], mainFile), (["bundle", "subtrees", "helper.yaml"], helperFile)]

def contents : Contents where
  trees := [.behaviorTree "decision.agile-agent.io/v1" ⟨"main", none⟩ callHelper]
  subtrees := [.subTree "decision.agile-agent.io/v1" ⟨"helper", none⟩ act]
  rules := []

def mainTree : Tree := ⟨"decision.agile-agent.io/v1", .behaviorTree, ⟨"main", none⟩, ⟨callHelper⟩⟩

def helperTree : Tree := ⟨"decision.agile-agent.io/v1", .subTree, ⟨"helper", none⟩, ⟨act⟩⟩

open Plain

set_option maxRecDepth 20000 in
theorem files_hold : contents.Of ["bundle"] (memoryFs files) := ⟨rfl, rfl, rfl⟩

/-- The subtree `helper` refers to nothing. -/
theorem not_refers (name ref : String) : ¬ Refers contents.subtree name ref := by
  rintro ⟨tree, found, member⟩
  have inside := List.mem_reverse.mp (Insertions.mem_of_lookup found)
  obtain ⟨-, rfl⟩ := Prod.mk.inj (List.mem_singleton.mp inside)
  cases member

theorem contents_sound : contents.Sound := by
  apply Contents.sound_of
  intro e member
  have acyclic (ref : String) (_ : ref ∈ e.2.spec.root.subTreeRefs) (name : String)
      (_ : Relation.ReflTransGen (Refers contents.subtree) ref name) :
      ¬ Relation.TransGen (Refers contents.subtree) name name := by
    intro cycle
    obtain ⟨next, refers, -⟩ := Relation.TransGen.head'_iff.mp cycle
    exact not_refers name next refers
  simp only [List.mem_append] at member
  rcases member with inside | inside
  · obtain rfl := List.mem_singleton.mp inside
    exact ⟨by decide, by decide, by decide, acyclic⟩
  · obtain rfl := List.mem_singleton.mp inside
    exact ⟨by decide, by decide, by decide, acyclic⟩

theorem accepted : parseBundle ["bundle"] (memoryFs files) = .ok contents.bundle := by
  obtain ⟨-, result⟩ | ⟨unsound, -⟩ := parseBundle_of files_hold ⟨by decide, by decide⟩
  · exact result
  · exact absurd contents_sound unsound

end References

section

open References Plain

/-- The bundle is accepted, and the first tick of its tree fails. -/
theorem validated_reference_fails :
    (∃ bundle, parseBundle ["bundle"] (memoryFs References.files) = .ok bundle ∧
      bundle.trees.lookup "main" = some mainTree) ∧
    (Executor.tick {} mainTree.spec.root Plain.ctx).result =
      .error (.error (.subTreeNotResolved "helper")) := by
  refine ⟨⟨_, accepted, ?_⟩, rfl⟩
  rw [Contents.lookup_trees]
  rfl

/-- The subtree itself has no references and runs. -/
theorem helper_runs : ¬ ∃ t ∈ (Instance.launch helperTree.spec.root Plain.ctx).run [id],
    ∃ ref, t.ticked.result = .error (.error (.subTreeNotResolved ref)) := by
  have inside : contents.bundle.subtrees.lookup "helper" = some helperTree := by
    rw [Contents.lookup_subtrees]
    rfl
  let s : Instance Silent Frozen := Instance.launch helperTree.spec.root Plain.ctx
  have root : s.root = helperTree.spec.root := rfl
  rintro ⟨t, ticked, ref, failed⟩
  refine (loaded_tree_resolved_iff skips accepted (.inr inside) root [id]).mpr ?_ t ticked ref failed
  intro t member v visited
  obtain rfl := List.mem_singleton.mp member
  obtain rfl := List.mem_singleton.mp visited
  rintro ⟨n, node, -⟩
  cases node

end

end AgileAgent.DecisionDsl
