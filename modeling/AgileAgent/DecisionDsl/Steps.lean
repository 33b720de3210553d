import AgileAgent.DecisionDsl.Executor

/-! # What a routine does by itself

Between its calls a routine changes the world only by a few kinds of step
(`WorldStep`), and it passes an error of a call on at once, with the world that
call left (`Threaded`). The scope pushed and popped around a subtree is the one
exception. Invariants of whole ticks are derived from these two facts.
-/

namespace AgileAgent.DecisionDsl

open CallTree

variable {σ κ ν μ : Type}

/-- One change a routine makes outside its calls and outside subtrees. -/
inductive WorldStep : World σ κ → World σ κ → Prop where
  | trace (w : World σ κ) (tracer : Tracer) : WorldStep w { w with tracer }
  | clock (w : World σ κ) (clock : κ) : WorldStep w { w with clock }
  | session (w : World σ κ) (session : σ) : WorldStep w { w with session }
  | command (w : World σ κ) (c : DecisionCommand) :
      WorldStep w (w.withBlackboard (w.blackboard.pushCommand c))
  | assign (w : World σ κ) (key : String) (value : BlackboardValue) :
      WorldStep w (w.withBlackboard (w.blackboard.set key value))
  | response (w : World σ κ) (key value : String) :
      WorldStep w (w.withBlackboard (w.blackboard.storeLlmResponse key value))
  | round (w : World σ κ) (reflectionRound : UInt8) :
      WorldStep w (w.withBlackboard { w.blackboard with reflectionRound })

/-- Any number of them. -/
abbrev WorldSteps : World σ κ → World σ κ → Prop := Relation.ReflTransGen WorldStep

/-- From world `w` the routine moves by `own` up to each call and to its return,
    continues from the world a successful call leaves, and returns an error at once. -/
def Threaded (own : World σ κ → World σ κ → Prop) : World σ κ → Routine σ κ ν → Prop
  | w, .ret r => own w r.world
  | w, .call q next => own w q.world ∧ ∀ a : Answer σ κ,
      match a.result with
      | .error e => ∃ node, next a = .ret ⟨.error e, node, a.world⟩
      | .ok _ => Threaded own a.world (next a)

namespace Threaded

variable {own : World σ κ → World σ κ → Prop} {w : World σ κ}

theorem map {f : ν → μ} {routine : Routine σ κ ν} (threaded : Threaded own w routine) :
    Threaded own w (Body.map (Run.map f) routine) := by
  induction routine generalizing w with
  | ret r => exact threaded
  | call q next ih =>
      refine ⟨threaded.1, fun a => ?_⟩
      have rest := threaded.2 a
      cases result : a.result with
      | error e =>
          simp only [result] at rest ⊢
          obtain ⟨node, returned⟩ := rest
          exact ⟨f node, by rw [returned]; rfl⟩
      | ok status =>
          simp only [result] at rest ⊢
          exact ih a rest

theorem mono {own' : World σ κ → World σ κ → Prop} {routine : Routine σ κ ν}
    (threaded : Threaded own w routine) (weaker : ∀ v v', own v v' → own' v v') :
    Threaded own' w routine := by
  induction routine generalizing w with
  | ret r => exact weaker _ _ threaded
  | call q next ih =>
      refine ⟨weaker _ _ threaded.1, fun a => ?_⟩
      have rest := threaded.2 a
      cases result : a.result with
      | error e => simpa only [result] using rest
      | ok status =>
          simp only [result] at rest ⊢
          exact ih a rest

/-- Steps before a threaded routine are threaded with it. -/
theorem after {v : World σ κ} {routine : Routine σ κ ν}
    (trans : ∀ u v w, own u v → own v w → own u w) (steps : own v w)
    (threaded : Threaded own w routine) : Threaded own v routine := by
  cases routine with
  | ret r => exact trans _ _ _ steps threaded
  | call q next => exact ⟨trans _ _ _ steps threaded.1, threaded.2⟩

/-- A routine that calls once and then returns what it was given, perhaps after
    steps of its own. -/
theorem single {q : Request σ κ} {next : Answer σ κ → Routine σ κ ν}
    (before : own w q.world)
    (failed : ∀ a e, a.result = .error e → ∃ node, next a = .ret ⟨.error e, node, a.world⟩)
    (done : ∀ a, ∃ r, next a = .ret r ∧ own a.world r.world) :
    Threaded own w (.call q next) := by
  refine ⟨before, fun a => ?_⟩
  cases result : a.result with
  | error e => exact failed a e result
  | ok status =>
      obtain ⟨r, returned, steps⟩ := done a
      simp only [returned]
      exact steps

/-- What holds of a routine's own steps and of its calls holds of the whole routine:
    `related` is to be closed under continuing after a successful call and under
    passing on an error. -/
theorem run (related : World σ κ → Except Fault NodeStatus → World σ κ → List (Request σ κ) → Prop)
    (answer : Request σ κ → Answer σ κ) (log : Request σ κ → List (Request σ κ))
    (stop : ∀ v r v', own v v' → related v r v' [])
    (abort : ∀ v u e v' l, own v u → related u (.error e) v' l → related v (.error e) v' l)
    (go : ∀ v u s v' r v'' l l', own v u → related u (.ok s) v' l → related v' r v'' l' →
      related v r v'' (l ++ l'))
    {routine : Routine σ κ ν} (threaded : Threaded own w routine)
    (calls : ∀ q ∈ routine.calls answer, related q.world (answer q).result (answer q).world (log q)) :
    related w (routine.run answer).result (routine.run answer).world
      ((routine.calls answer).flatMap log) := by
  induction routine generalizing w with
  | ret r => exact stop _ _ _ threaded
  | call q next ih =>
      have called := calls q (by simp only [Body.calls_call, List.mem_cons_self])
      have rest := threaded.2 (answer q)
      simp only [Body.run_call, Body.calls_call, List.flatMap_cons]
      cases result : (answer q).result with
      | error e =>
          simp only [result] at rest called
          obtain ⟨node, returned⟩ := rest
          simp only [returned, Body.run_ret, Body.calls_ret, List.flatMap_nil, List.append_nil]
          exact abort _ _ _ _ _ threaded.1 called
      | ok status =>
          simp only [result] at rest called
          refine go _ _ _ _ _ _ _ _ threaded.1 called (ih _ rest fun q later => calls q ?_)
          simp only [Body.calls_call, List.mem_cons, later, or_true]

end Threaded

/-- A preorder that contains the steps of a routine, those of a counted round apart. -/
structure Absorbs (own : World σ κ → World σ κ → Prop) : Prop where
  refl (w : World σ κ) : own w w
  trans {u v w : World σ κ} (first : own u v) (second : own v w) : own u w
  trace (w : World σ κ) (tracer : Tracer) : own w { w with tracer }
  clock (w : World σ κ) (clock : κ) : own w { w with clock }
  session (w : World σ κ) (session : σ) : own w { w with session }
  command (w : World σ κ) (c : DecisionCommand) :
    own w (w.withBlackboard (w.blackboard.pushCommand c))
  assign (w : World σ κ) (key : String) (value : BlackboardValue) :
    own w (w.withBlackboard (w.blackboard.set key value))
  response (w : World σ κ) (key value : String) :
    own w (w.withBlackboard (w.blackboard.storeLlmResponse key value))

theorem WorldSteps.absorbs : Absorbs (WorldSteps : World σ κ → World σ κ → Prop) where
  refl _ := .refl
  trans := .trans
  trace w tracer := .single (.trace w tracer)
  clock w clock := .single (.clock w clock)
  session w session := .single (.session w session)
  command w c := .single (.command w c)
  assign w key value := .single (.assign w key value)
  response w key value := .single (.response w key value)

/-! ## The routines -/

section

variable {own : World σ κ → World σ κ → Prop} (absorbs : Absorbs own)
include absorbs

theorem visitChild_threaded {name : String} {children : List Node} {i : Nat} {ask : Ask}
    {w : World σ κ} {failed : Fault → List Node → World σ κ → Run σ κ ν}
    {next : NodeStatus → List Node → World σ κ → Routine σ κ ν}
    (stopped : ∀ e ns w, ∃ node, failed e ns w = ⟨.error e, node, w⟩)
    (continued : ∀ status ns w, Threaded own w (next status ns w)) :
    Threaded own w (visitChild name children i ask w failed next) := by
  have entered : own w (w.enter name i) := absorbs.trace w _
  unfold visitChild
  split
  · obtain ⟨node, returned⟩ := stopped .panic children (w.enter name i)
    rw [returned]
    exact entered
  · refine ⟨entered, fun a => ?_⟩
    cases result : a.result with
    | error e =>
        obtain ⟨node, returned⟩ := stopped e (children.set i a.node) a.world
        simp only [result, returned]
        exact ⟨node, rfl⟩
    | ok status =>
        simp only [result]
        exact (continued _ _ _).after (fun _ _ _ => absorbs.trans) (absorbs.trace a.world _)

theorem selectorSucceeded_steps (node : SelectorNode Node) (i : Nat) (w : World σ κ) :
    own w (selectorSucceeded node i w).world := by
  cases rule : node.ruleName with
  | none => simp only [selectorSucceeded, rule]; exact absorbs.refl _
  | some ruleName =>
      simp only [selectorSucceeded, rule]
      exact absorbs.trace w _

theorem selectorLoop_threaded {visits : List (Nat × Ask)} : ∀ (node : SelectorNode Node)
    (w : World σ κ), Threaded own w (selectorLoop visits node w) := by
  induction visits with
  | nil => intro node w; exact absorbs.refl _
  | cons visit rest ih =>
      intro node w
      refine visitChild_threaded absorbs (fun _ _ _ => ⟨_, rfl⟩) fun status ns w => ?_
      cases status with
      | success => exact selectorSucceeded_steps absorbs _ _ _
      | running => exact absorbs.refl _
      | failure => exact ih _ _

theorem sequenceLoop_threaded {visits : List (Nat × Ask)} : ∀ (node : SequenceNode Node)
    (w : World σ κ), Threaded own w (sequenceLoop visits node w) := by
  induction visits with
  | nil => intro node w; exact absorbs.refl _
  | cons visit rest ih =>
      intro node w
      refine visitChild_threaded absorbs (fun _ _ _ => ⟨_, rfl⟩) fun status ns w => ?_
      cases status with
      | success => exact ih _ _
      | running => exact absorbs.refl _
      | failure => exact absorbs.refl _

theorem parallelLoop_threaded {visits : List (Nat × Ask)} : ∀ (s f r : Nat)
    (node : ParallelNode Node) (w : World σ κ),
    Threaded own w (parallelLoop visits s f r node w) := by
  induction visits with
  | nil => intro s f r node w; exact absorbs.refl _
  | cons visit rest ih =>
      intro s f r node w
      refine visitChild_threaded absorbs (fun _ _ _ => ⟨_, rfl⟩) fun status ns w => ?_
      cases status <;> exact ih _ _ _ _ _

theorem parallelWith_threaded (asks : Nat → Ask) (node : ParallelNode Node) (w : World σ κ) :
    Threaded own w (parallelWith asks node w) := by
  unfold parallelWith
  split
  · exact absorbs.refl _
  · exact parallelLoop_threaded absorbs _ _ _ _ _

theorem inverterWith_threaded (ask : Ask) (node : InverterNode Node) (w : World σ κ) :
    Threaded own w (inverterWith ask node w) := by
  refine .single (absorbs.refl _) (fun a e failed => ⟨{ node with child := a.node }, ?_⟩)
    fun a => ⟨_, rfl, absorbs.refl _⟩
  simp only [failed]
  rfl

theorem repeaterCount_threaded {node : RepeaterNode Node} {status : NodeStatus} {w : World σ κ}
    {again : RepeaterNode Node → World σ κ → Routine σ κ (RepeaterNode Node)}
    (rest : ∀ n, Threaded own w (again n w)) :
    Threaded own w (repeaterCount node status w again) := by
  unfold repeaterCount
  split
  · exact absorbs.refl _
  · split
    · exact absorbs.refl _
    · exact rest _

theorem repeaterLoop_threaded {asks : List Ask} : ∀ (node : RepeaterNode Node) (w : World σ κ),
    Threaded own w (repeaterLoop asks node w) := by
  induction asks with
  | nil => intro node w; exact absorbs.refl _
  | cons ask rest ih =>
      intro node w
      refine ⟨absorbs.refl _, fun a => ?_⟩
      cases result : a.result with
      | error e => simp only [repeaterAttempt, result]; exact ⟨_, rfl⟩
      | ok status =>
          simp only [repeaterAttempt, result]
          cases status with
          | success | failure => exact repeaterCount_threaded absorbs fun n => ih n _
          | running => exact absorbs.refl _

theorem World.now_steps [Clock κ] (w : World σ κ) : own w w.now.2 :=
  absorbs.clock w _

theorem cooldownClosed_steps [Clock κ] (node : CooldownNode ν) (w : World σ κ) :
    own w (cooldownClosed node w).2 := by
  unfold cooldownClosed
  split
  · exact absorbs.refl _
  · exact World.now_steps absorbs w

theorem cooldownWith_threaded [Clock κ] (ask : Ask) (node : CooldownNode Node) (w : World σ κ) :
    Threaded own w (cooldownWith ask node w) := by
  have checked := cooldownClosed_steps absorbs node w
  simp only [cooldownWith]
  split
  · exact checked
  · refine .single checked (fun a e failed => ?_) fun a => ?_
    · simp only [failed, reduceCtorEq, if_false]
      exact ⟨_, rfl⟩
    · split
      · exact ⟨_, rfl, World.now_steps absorbs a.world⟩
      · exact ⟨_, rfl, absorbs.refl _⟩

theorem reflectionGuardWith_threaded
    (round : ∀ (w : World σ κ) (reflectionRound : UInt8),
      own w (w.withBlackboard { w.blackboard with reflectionRound })) (ask : Ask) (node : ReflectionGuardNode Node)
    (w : World σ κ) : Threaded own w (reflectionGuardWith ask node w) := by
  unfold reflectionGuardWith
  split
  · exact absorbs.refl _
  · refine .single (absorbs.refl _) (fun a e failed => ?_) fun a => ?_
    · simp only [failed, reduceCtorEq, if_false]
      exact ⟨_, rfl⟩
    · dsimp only
      split
      · split
        · exact ⟨_, rfl, absorbs.refl _⟩
        · exact ⟨_, rfl, round a.world _⟩
      · exact ⟨_, rfl, absorbs.refl _⟩

theorem forceHumanWith_threaded (ask : Ask) (node : ForceHumanNode Node) (w : World σ κ) :
    Threaded own w (forceHumanWith ask node w) := by
  refine .single (absorbs.refl _) (fun a e failed => ?_) fun a => ?_
  · simp only [failed, reduceCtorEq, if_false]
    exact ⟨_, rfl⟩
  · dsimp only
    split
    · exact ⟨_, rfl, absorbs.command a.world _⟩
    · exact ⟨_, rfl, absorbs.refl _⟩

section

variable [Crates]

theorem whenWith_threaded (ask : Ask) (node : WhenNode Node) (w : World σ κ) :
    Threaded own w (whenWith ask node w) := by
  unfold whenWith
  split
  · exact absorbs.refl _
  · exact absorbs.refl _
  · refine .single (absorbs.refl _) (fun a e failed => ⟨{ node with action := a.node }, ?_⟩)
      fun a => ⟨_, rfl, absorbs.refl _⟩
    simp only [failed]

theorem tickCondition_steps (node : ConditionNode) (w : World σ κ) :
    own w (tickCondition node w).world := by
  unfold tickCondition
  split <;> exact absorbs.refl _

theorem emitCommand_steps (node : ActionNode) (w : World σ κ) :
    own w (emitCommand node w).world := by
  unfold emitCommand
  split
  · exact absorbs.refl _
  · next rendered _ =>
      exact absorbs.trans (absorbs.command w rendered) (absorbs.trace _ _)

theorem tickAction_steps (node : ActionNode) (w : World σ κ) :
    own w (tickAction node w).world := by
  unfold tickAction
  split
  · exact emitCommand_steps absorbs node w
  · split
    · exact absorbs.refl _
    · exact absorbs.refl _
    · exact emitCommand_steps absorbs node w

omit [Crates] in
theorem applySets_steps {values : ParsedValues} {sets : List SetMapping} : ∀ (w : World σ κ),
    own w (w.withBlackboard (applySets values sets w.blackboard)) := by
  induction sets with
  | nil => intro w; exact absorbs.refl _
  | cons mapping rest ih =>
      intro w
      simp only [applySets, List.foldl_cons]
      split
      · next value _ => exact absorbs.trans (absorbs.assign w mapping.key value) (ih _)
      · exact ih w

omit [Crates] in
theorem pushParsedCommand_steps (values : ParsedValues) (w : World σ κ) :
    own w (w.withBlackboard (pushParsedCommand values w.blackboard)) := by
  unfold pushParsedCommand
  split
  · exact absorbs.command w _
  · exact absorbs.refl _

theorem consumeReply_steps (node : PromptNode) (reply : String) (w : World σ κ) :
    own w (consumeReply node reply w).world := by
  have stored : own w { w with
      blackboard := w.blackboard.storeLlmResponse node.name reply
      tracer := w.tracer.recordPromptSuccess node.name reply } :=
    absorbs.trans (absorbs.response w node.name reply) (absorbs.trace _ _)
  simp only [consumeReply]
  split
  · exact absorbs.trans (absorbs.trans stored (pushParsedCommand_steps absorbs _ _)) (applySets_steps absorbs _)
  · exact absorbs.trans stored (absorbs.trace _ _)

section

variable [Session σ] [Clock κ]

omit [Crates] [Session σ] in
theorem promptTimedOut_steps (node : PromptNode) (w : World σ κ) :
    own w (promptTimedOut node w).2 := by
  unfold promptTimedOut
  split
  · exact absorbs.refl _
  · exact World.now_steps absorbs w

theorem awaitReply_steps (node : PromptNode) (w : World σ κ) :
    own w (awaitReply node w).world := by
  have checked := promptTimedOut_steps absorbs node w
  simp only [awaitReply]
  split
  · exact absorbs.trans checked (absorbs.trace _ _)
  · split
    · exact absorbs.trans checked (absorbs.session _ _)
    · split
      · exact absorbs.trans checked (absorbs.session _ _)
      · exact absorbs.trans (absorbs.trans checked (absorbs.session _ _)) (consumeReply_steps absorbs _ _ _)

theorem sendPrompt_steps (node : PromptNode) (w : World σ κ) :
    own w (sendPrompt node w).world := by
  unfold sendPrompt
  split
  · exact absorbs.refl _
  · have sent (session : σ) : own w
        ((w.withTracer (w.tracer.recordPromptSent node.name)).withSession session) :=
      absorbs.trans (absorbs.trace w _) (absorbs.session _ _)
    dsimp only
    split
    · exact sent _
    · exact absorbs.trans (sent _) (World.now_steps absorbs _)

theorem tickPrompt_steps (node : PromptNode) (w : World σ κ) :
    own w (tickPrompt node w).world := by
  unfold tickPrompt
  split
  · exact awaitReply_steps absorbs node w
  · exact sendPrompt_steps absorbs node w

end

end

theorem tickSetVar_steps (node : SetVarNode) (w : World σ κ) :
    own w (tickSetVar node w).world := absorbs.assign w _ _

end

/-! ## All requests -/

/-- The indices of the children a composite visits, each at most once and in order. -/
def Ascending (visits : List (Nat × Ask)) : Prop := (visits.map (·.1)).Pairwise (· < ·)

theorem ticks_indices (start stop : Nat) :
    (ticks start stop).map (·.1) = List.range' start (stop - start) := by
  simp only [ticks, List.map_map]
  exact List.map_id _

theorem ticks_eq_cons {start stop : Nat} (inside : start < stop) :
    ticks start stop = (start, .tick) :: ticks (start + 1) stop := by
  have count : stop - start = (stop - (start + 1)) + 1 := by omega
  simp only [ticks]
  rw [count, List.range'_succ, List.map_cons]

theorem ticks_ascending (start stop : Nat) : Ascending (ticks start stop) := by
  simp only [Ascending, ticks_indices]
  exact List.pairwise_lt_range'

theorem cons_ticks_ascending (i stop : Nat) (ask : Ask) :
    Ascending ((i, ask) :: ticks (i + 1) stop) := by
  simp only [Ascending, List.map_cons, List.pairwise_cons, ticks_indices]
  refine ⟨fun j later => ?_, List.pairwise_lt_range'⟩
  have := (List.mem_range'_1.mp later).1
  omega

/-- The world in which the root of a subtree is called. -/
def SubTreeNode.enter (node : SubTreeNode Node) (w : World σ κ) (scopes : ScopeStack) :
    World σ κ :=
  { w with
    blackboard := { w.blackboard with scopes }
    tracer := w.tracer.enterSubTree node.name node.refName }

/-- The world a subtree leaves, given what the call of its root left. -/
def SubTreeNode.leave (node : SubTreeNode Node) (r : Answer σ κ) : World σ κ :=
  match r.result with
  | .error _ => r.world
  | .ok status =>
      { r.world with
        blackboard := r.world.blackboard.popScope
        tracer := r.world.tracer.exitSubTree node.name node.refName status }

/-- A subtree returns at once, when it is unresolved or has no room for its scope, or
    calls its root in a new scope and returns what the root returned. -/
theorem subTreeWith_cases (ask : Ask) (node : SubTreeNode Node) (w : World σ κ) :
    (∃ e, subTreeWith ask node w =
        .ret ⟨.error (.error e), node, node.enter w w.blackboard.scopes⟩ ∧
      (node.resolvedRoot = none ∨ w.blackboard.scopes.push = .error .maxDepthExceeded)) ∨
    ∃ root scopes, node.resolvedRoot = some root ∧ w.blackboard.scopes.push = .ok scopes ∧
      subTreeWith ask node w = .call ⟨ask, root, node.enter w scopes⟩ fun r =>
        .ret ⟨r.result, { node with resolvedRoot := some r.node }, node.leave r⟩ := by
  cases pushed : w.blackboard.scopes.push with
  | error e =>
      refine .inl ⟨.scopeDepthExceeded, ?_, .inr rfl⟩
      simp only [subTreeWith, World.withTracer, Blackboard.pushScope, pushed]
      rfl
  | ok scopes =>
      cases resolved : node.resolvedRoot with
      | none =>
          refine .inl ⟨.subTreeNotResolved node.refName, ?_, .inl rfl⟩
          have popped : scopes.pop = w.blackboard.scopes := ScopeStack.pop_push pushed
          simp only [subTreeWith, World.withTracer, World.withBlackboard, Blackboard.pushScope,
            pushed, resolved, Blackboard.popScope, popped]
          rfl
      | some root =>
          refine .inr ⟨root, scopes, rfl, rfl, ?_⟩
          simp only [subTreeWith, World.withTracer, World.withBlackboard, Blackboard.pushScope,
            pushed, resolved]
          refine congrArg (Body.call _) (funext fun r => ?_)
          cases result : r.result <;> simp only [SubTreeNode.leave, result]

/-- A subtree also moves the scopes and the tracer around its call. -/
theorem subTreeWith_threaded {own : World σ κ → World σ κ → Prop}
    (moved : ∀ (w : World σ κ) scopes tracer,
      own w { w with blackboard := { w.blackboard with scopes }, tracer })
    (ask : Ask) (node : SubTreeNode Node) (w : World σ κ) :
    Threaded own w (subTreeWith ask node w) := by
  rcases subTreeWith_cases ask node w with ⟨e, body, -⟩ | ⟨root, scopes, -, -, body⟩
  · rw [body]
    exact moved w _ _
  · rw [body]
    refine .single (moved w _ _) (fun a e failed => ?_) fun a => ⟨_, rfl, ?_⟩
    · simp only [SubTreeNode.leave, failed]
      exact ⟨_, rfl⟩
    · unfold SubTreeNode.leave
      split
      · exact moved a.world a.world.blackboard.scopes a.world.tracer
      · exact moved a.world _ _

section

variable [Crates] [Session σ] [Clock κ]

/-- The body of a request by node kind; `tick` and `resume_at` differ in which
    children they visit and in how they call them. -/
@[elab_as_elim]
theorem requestBody_cases {motive : Request σ κ → Routine σ κ Node → Prop}
    (selector : ∀ ask n w visits, Ascending visits →
      motive ⟨ask, .selector n, w⟩ ((selectorLoop visits n w).map (.map .selector)))
    (sequence : ∀ ask n w visits, Ascending visits →
      motive ⟨ask, .sequence n, w⟩ ((sequenceLoop visits n w).map (.map .sequence)))
    (parallel : ∀ ask n w asks,
      motive ⟨ask, .parallel n, w⟩ ((parallelWith asks n w).map (.map .parallel)))
    (inverter : ∀ ask n w ask',
      motive ⟨ask, .inverter n, w⟩ ((inverterWith ask' n w).map (.map .inverter)))
    (repeaterOff : ∀ ask n w, n.maxAttempts = 0 →
      motive ⟨ask, .repeater n, w⟩ (.ret ⟨.ok .failure, .repeater n, w⟩))
    (repeater : ∀ ask n w asks, n.maxAttempts ≠ 0 →
      motive ⟨ask, .repeater n, w⟩ ((repeaterLoop asks n w).map (.map .repeater)))
    (cooldown : ∀ ask n w ask',
      motive ⟨ask, .cooldown n, w⟩ ((cooldownWith ask' n w).map (.map .cooldown)))
    (reflectionGuard : ∀ ask n w ask', motive ⟨ask, .reflectionGuard n, w⟩
      ((reflectionGuardWith ask' n w).map (.map .reflectionGuard)))
    (forceHuman : ∀ ask n w ask',
      motive ⟨ask, .forceHuman n, w⟩ ((forceHumanWith ask' n w).map (.map .forceHuman)))
    (when : ∀ ask n w ask', motive ⟨ask, .when n, w⟩ ((whenWith ask' n w).map (.map .when)))
    (condition : ∀ ask n w, motive ⟨ask, .condition n, w⟩ (.ret ((tickCondition n w).map .condition)))
    (action : ∀ ask n w, motive ⟨ask, .action n, w⟩ (.ret ((tickAction n w).map .action)))
    (prompt : ∀ ask n w, motive ⟨ask, .prompt n, w⟩ (.ret ((tickPrompt n w).map .prompt)))
    (setVar : ∀ ask n w, motive ⟨ask, .setVar n, w⟩ (.ret ((tickSetVar n w).map .setVar)))
    (subTree : ∀ ask n w ask',
      motive ⟨ask, .subTree n, w⟩ ((subTreeWith ask' n w).map (.map .subTree)))
    (q : Request σ κ) : motive q (requestBody q) := by
  have ticked (ask : Ask) (n : Node) (w : World σ κ) : motive ⟨ask, n, w⟩ (tickBody n w) := by
    cases n with
    | selector n => exact selector _ _ _ _ (ticks_ascending _ _)
    | sequence n => exact sequence _ _ _ _ (ticks_ascending _ _)
    | parallel n => exact parallel _ _ _ _
    | inverter n => exact inverter _ _ _ _
    | repeater n =>
        simp only [tickBody, tickRepeater]
        split
        · next off => exact repeaterOff _ _ _ off
        · next on => exact repeater _ _ _ _ on
    | cooldown n => exact cooldown _ _ _ _
    | reflectionGuard n => exact reflectionGuard _ _ _ _
    | forceHuman n => exact forceHuman _ _ _ _
    | when n => exact when _ _ _ _
    | condition n => exact condition _ _ _
    | action n => exact action _ _ _
    | prompt n => exact prompt _ _ _
    | setVar n => exact setVar _ _ _
    | subTree n => exact subTree _ _ _ _
  obtain ⟨ask, n, w⟩ := q
  cases ask with
  | tick => exact ticked _ n w
  | resumeAt path depth =>
      simp only [requestBody, resumeAtBody]
      split
      · exact ticked _ n w
      · next inside =>
          have at_depth : path[depth]? = some path[depth] := List.getElem?_eq_getElem _
          cases n with
          | selector n =>
              simp only [resumeSelector, at_depth]
              exact selector _ _ _ _ (cons_ticks_ascending _ _ _)
          | sequence n =>
              simp only [resumeSequence, at_depth]
              exact sequence _ _ _ _ (cons_ticks_ascending _ _ _)
          | parallel n => exact parallel _ _ _ _
          | inverter n => exact inverter _ _ _ _
          | repeater n =>
              simp only [resumeRepeater]
              split
              · next off => exact repeaterOff _ _ _ off
              · next on => exact repeater _ _ _ _ on
          | cooldown n => exact cooldown _ _ _ _
          | reflectionGuard n => exact reflectionGuard _ _ _ _
          | forceHuman n => exact forceHuman _ _ _ _
          | when n => exact when _ _ _ _
          | condition n => exact condition _ _ _
          | action n => exact action _ _ _
          | prompt n => exact prompt _ _ _
          | setVar n => exact setVar _ _ _
          | subTree n => exact subTree _ _ _ _

/-- Every request but that of a subtree or a reflection guard is threaded by the steps above. -/
theorem requestBody_absorbed {own : World σ κ → World σ κ → Prop} (absorbs : Absorbs own)
    (q : Request σ κ) : (∃ n, q.node = .subTree n) ∨ (∃ n, q.node = .reflectionGuard n) ∨
      Threaded own q.world (requestBody q) := by
  cases q using requestBody_cases with
  | selector => exact .inr (.inr (selectorLoop_threaded absorbs _ _).map)
  | sequence => exact .inr (.inr (sequenceLoop_threaded absorbs _ _).map)
  | parallel => exact .inr (.inr (parallelWith_threaded absorbs _ _ _).map)
  | inverter => exact .inr (.inr (inverterWith_threaded absorbs _ _ _).map)
  | repeaterOff => exact .inr (.inr (absorbs.refl _))
  | repeater => exact .inr (.inr (repeaterLoop_threaded absorbs _ _).map)
  | cooldown => exact .inr (.inr (cooldownWith_threaded absorbs _ _ _).map)
  | reflectionGuard _ n => exact .inr (.inl ⟨n, rfl⟩)
  | forceHuman => exact .inr (.inr (forceHumanWith_threaded absorbs _ _ _).map)
  | when => exact .inr (.inr (whenWith_threaded absorbs _ _ _).map)
  | condition => exact .inr (.inr (tickCondition_steps absorbs _ _))
  | action => exact .inr (.inr (tickAction_steps absorbs _ _))
  | prompt => exact .inr (.inr (tickPrompt_steps absorbs _ _))
  | setVar => exact .inr (.inr (tickSetVar_steps absorbs _ _))
  | subTree _ n => exact .inl ⟨n, rfl⟩

theorem requestBody_reflectionGuard {q : Request σ κ} {n : ReflectionGuardNode Node}
    (node : q.node = .reflectionGuard n) :
    ∃ ask, requestBody q = (reflectionGuardWith ask n q.world).map (.map .reflectionGuard) := by
  cases q using requestBody_cases with
  | reflectionGuard ask m w ask' =>
      obtain rfl := Node.reflectionGuard.inj node
      exact ⟨ask', rfl⟩
  | _ => cases node

/-- Every request but that of a subtree is threaded by the steps above. -/
theorem requestBody_threaded (q : Request σ κ) :
    (∃ n, q.node = .subTree n) ∨ Threaded WorldSteps q.world (requestBody q) := by
  rcases requestBody_absorbed WorldSteps.absorbs q with subTree | ⟨n, node⟩ | threaded
  · exact .inl subTree
  · obtain ⟨ask, body⟩ := requestBody_reflectionGuard node
    rw [body]
    exact .inr (reflectionGuardWith_threaded WorldSteps.absorbs
      (fun w round => .single (.round w round)) ask n q.world).map
  · exact .inr threaded

/-- A repeater with attempts left makes at most that many calls, on `tick` and `resume_at`. -/
theorem requestBody_repeater {q : Request σ κ} {n : RepeaterNode Node}
    (node : q.node = .repeater n) (left : n.current < n.maxAttempts) :
    ∃ asks, asks.length = n.maxAttempts.toNat - n.current.toNat ∧
      requestBody q = (repeaterLoop asks n q.world).map (.map .repeater) := by
  have less : n.current.toNat < n.maxAttempts.toNat := left
  have on : n.maxAttempts ≠ 0 := by
    intro off
    rw [off] at less
    exact absurd less (Nat.not_lt_zero _)
  have ticked : tickBody (.repeater n) q.world = (repeaterLoop
      (.replicate (n.maxAttempts.toNat - n.current.toNat) .tick) n q.world).map (.map .repeater) := by
    simp only [tickBody, tickRepeater, on, if_false]
  obtain ⟨ask, node', w⟩ := q
  obtain rfl : node' = .repeater n := node
  cases ask with
  | tick => exact ⟨.replicate _ .tick, List.length_replicate, ticked⟩
  | resumeAt path depth =>
      by_cases done : depth ≥ path.length
      · refine ⟨.replicate _ .tick, List.length_replicate, ?_⟩
        simp only [requestBody, resumeAtBody, done, if_true]
        exact ticked
      · refine ⟨.resumeAt path depth ::
          .replicate (n.maxAttempts.toNat - (n.current.toNat + 1)) .tick, ?_, ?_⟩
        · rw [List.length_cons, List.length_replicate]
          omega
        · simp only [requestBody, resumeAtBody, done, if_false, resumeRepeater, on]

theorem requestBody_subTree {q : Request σ κ} {n : SubTreeNode Node} (node : q.node = .subTree n) :
    ∃ ask, requestBody q = (subTreeWith ask n q.world).map (.map .subTree) := by
  cases q using requestBody_cases with
  | subTree ask m w ask' =>
      obtain rfl := Node.subTree.inj node
      exact ⟨ask', rfl⟩
  | _ => cases node

/-- A relation that contains the steps and the moves of the scopes threads every request. -/
theorem requestBody_threaded_of {own : World σ κ → World σ κ → Prop}
    (steps : ∀ v w, WorldSteps v w → own v w)
    (moved : ∀ (w : World σ κ) scopes tracer,
      own w { w with blackboard := { w.blackboard with scopes }, tracer })
    (q : Request σ κ) : Threaded own q.world (requestBody q) := by
  rcases requestBody_threaded q with ⟨n, subTree⟩ | threaded
  · cases q using requestBody_cases with
    | subTree _ n w ask' => exact (subTreeWith_threaded moved ask' n w).map
    | _ => cases subTree
  · exact threaded.mono steps

/-- A preorder that threads every request relates the worlds around every call. -/
theorem Threaded.solve (own : World σ κ → World σ κ → Prop)
    (trans : ∀ u v w, own u v → own v w → own u w)
    (threaded : ∀ q : Request σ κ, Threaded own q.world (requestBody q)) (q : Request σ κ) :
    own q.world (interpreter.solve q).world := by
  refine interpreter_induct (fun q a _ => own q.world a.world) (fun q ih => ?_) q
  exact (threaded q).run (fun v _ w _ => own v w) interpreter.solve (fun _ => [])
    (fun _ _ _ moved => moved) (fun _ _ _ _ _ moved called => trans _ _ _ moved called)
    (fun _ _ _ _ _ _ _ _ moved called rest => trans _ _ _ (trans _ _ _ moved called) rest) ih

end

end AgileAgent.DecisionDsl
