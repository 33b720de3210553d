import AgileAgent.DecisionDsl.Commands
import AgileAgent.DecisionDsl.Desugar
import Mathlib.Data.List.MinMax

/-! # Rules

What one tick of a freshly desugared rule does, wrapper by wrapper, and what the
selector over a list of rules makes of it.
-/

namespace AgileAgent.DecisionDsl

open CallTree

namespace RuleSpec

/-- The reflection guard is absent or lets the rule through. -/
def guardOpen (rule : RuleSpec) (bb : Blackboard) : Bool :=
  match rule.reflectionMaxRounds with
  | none => true
  | some maxRounds => bb.reflectionRound < maxRounds

/-- The command of an inline rule. -/
def command? (rule : RuleSpec) : Option DecisionCommand :=
  match rule.action with
  | .inlineCommand command => some command
  | _ => none

section

variable [Crates]

/-- The condition is absent or true. -/
def holds (rule : RuleSpec) (bb : Blackboard) : Bool :=
  match rule.condition with
  | none => true
  | some evaluator =>
      match evaluator.evaluate bb with
      | .ok holds => holds
      | .error _ => false

/-- The rule does not step aside. -/
def fires (rule : RuleSpec) (bb : Blackboard) : Bool :=
  rule.guardOpen bb && (rule.holds bb || rule.onError == some .escalate)

end

end RuleSpec

section

variable {σ κ : Type} [Crates] [Session σ] [Clock κ]

/-! ## Ticks of single nodes -/

theorem Node.tick_eq (n : Node) (w : World σ κ) :
    n.tick w = (tickBody n w).run interpreter.solve := interpreter_solve _

theorem Node.solve_tick (n : Node) (w : World σ κ) : interpreter.solve ⟨.tick, n, w⟩ = n.tick w := rfl

/-- One turn of a composite's loop, with the answer of the child. -/
theorem visitChild_run {ν : Type} {name : String} {children : List Node} {i : Nat} {child : Node}
    {w : World σ κ} {failed : Fault → List Node → World σ κ → Run σ κ ν}
    {next : NodeStatus → List Node → World σ κ → Routine σ κ ν} {a : Answer σ κ}
    (at_i : children[i]? = some child) (called : child.tick (w.enter name i) = a) :
    (visitChild name children i .tick w failed next).run interpreter.solve =
      match a.result with
      | .error e => failed e (children.set i a.node) a.world
      | .ok status =>
          (next status (children.set i a.node) (a.world.exit name status)).run interpreter.solve := by
  subst called
  simp only [visitChild, at_i, Body.run_call]
  split <;> simp_all [Node.tick]

omit [Crates] in
theorem ticks_pair (a b : Node) : ticks 0 [a, b].length = [(0, .tick), (1, .tick)] := rfl

theorem condition_tick {node : ConditionNode} {w : World σ κ} {holds : Bool}
    (evaluated : node.evaluator.evaluate w.blackboard = .ok holds) :
    (Node.condition node).tick w =
      ⟨.ok (if holds then .success else .failure), .condition node, w⟩ := by
  rw [Node.tick_eq]
  cases holds <;> simp [tickBody, tickCondition, evaluated, Run.map]

/-- An unconditional action renders its command and pushes it. -/
theorem action_tick {node : ActionNode} {w : World σ κ} (unconditional : node.when = none) :
    (Node.action node).tick w = (emitCommand node w).map .action := by
  rw [Node.tick_eq]
  simp only [tickBody, tickAction, unconditional, Body.run_ret]

/-- Two attempts that end. -/
theorem retry_tick {name : String} {n : Node} {w : World σ κ} {a b : Answer σ κ}
    {first second : NodeStatus} (called : n.tick w = a) (done : a.result = .ok first)
    (ended : first ≠ .running) (again : a.node.tick a.world = b) (done' : b.result = .ok second)
    (ended' : second ≠ .running) :
    (Node.repeater { name, maxAttempts := 2, child := n }).tick w =
      ⟨.ok second, .repeater { name, maxAttempts := 2, child := b.node }, b.world⟩ := by
  have attempt (node : RepeaterNode Node) (r : Answer σ κ) (status : NodeStatus)
      (result : r.result = .ok status) (other : status ≠ .running)
      (next : RepeaterNode Node → World σ κ → Routine σ κ (RepeaterNode Node)) :
      repeaterAttempt node r next =
        repeaterCount { node with child := r.node } status r.world next := by
    cases status with
    | running => exact absurd rfl other
    | success | failure => simp only [repeaterAttempt, result]
  rw [Node.tick_eq]
  have turns : (2 : UInt32).toNat - (0 : UInt32).toNat = 2 := by decide
  simp only [tickBody, tickRepeater, show ¬ (2 : UInt32) = 0 by decide, if_false, Body.run_map,
    turns, List.replicate, repeaterLoop, Body.run_call, Node.solve_tick, called,
    attempt _ _ _ done ended, repeaterCount, show ¬ (0 : UInt32).toNat + 1 = UInt32.size by decide,
    show ¬ (0 : UInt32) + 1 ≥ 2 by decide, again, attempt _ _ _ done' ended',
    show ¬ ((0 : UInt32) + 1).toNat + 1 = UInt32.size by decide,
    show (0 : UInt32) + 1 + 1 ≥ 2 by decide, if_true, Body.run_ret]
  rfl

theorem reflectionGuard_tick (node : ReflectionGuardNode Node) {w : World σ κ} {a : Answer σ κ}
    (isOpen : w.blackboard.reflectionRound < node.maxRounds) (called : node.child.tick w = a) :
    (Node.reflectionGuard node).tick w =
      if a.result = .ok .success then
        if a.world.blackboard.reflectionRound.toNat + 1 = UInt8.size then
          ⟨.error .panic, .reflectionGuard { node with child := a.node }, a.world⟩
        else ⟨a.result, .reflectionGuard { node with child := a.node }, a.world.withBlackboard
          { a.world.blackboard with reflectionRound := a.world.blackboard.reflectionRound + 1 }⟩
      else ⟨a.result, .reflectionGuard { node with child := a.node }, a.world⟩ := by
  have inside : ¬ w.blackboard.reflectionRound ≥ node.maxRounds := by
    simpa only [ge_iff_le, UInt8.not_le] using isOpen
  rw [Node.tick_eq]
  simp only [tickBody, tickReflectionGuard, reflectionGuardWith, inside, if_false, Body.run_map,
    Body.run_call, Node.solve_tick, called]
  split_ifs <;> rfl

theorem cooldown_tick (name : String) (durationMs : Nat) {n : Node} {w : World σ κ}
    {a : Answer σ κ} (called : n.tick w = a) :
    ∃ lastSuccess clock, (Node.cooldown { name, durationMs, child := n }).tick w =
      ⟨a.result, .cooldown { name, durationMs, child := a.node, lastSuccess },
        { a.world with clock }⟩ ∧
      (a.result ≠ .ok .success → lastSuccess = none ∧ clock = a.world.clock) := by
  rw [Node.tick_eq]
  simp only [tickBody, tickCooldown, cooldownWith, cooldownClosed, Bool.false_eq_true, if_false,
    Body.run_map, Body.run_call, Node.solve_tick, called]
  split_ifs with success
  · exact ⟨_, _, rfl, fun other => absurd success other⟩
  · exact ⟨_, _, rfl, fun _ => ⟨rfl, rfl⟩⟩

/-! ## Nodes that fail -/

variable (σ κ) in
/-- On this blackboard the node fails, unchanged, and leaves a trace in the tracer only. -/
def Fails (n : Node) (bb : Blackboard) : Prop :=
  ∀ w : World σ κ, w.blackboard = bb →
    ∃ tracer, n.tick w = ⟨.ok .failure, n, w.withTracer tracer⟩

theorem guardRule_fails {name : String} {evaluator : Evaluator} {inner : Node} {bb : Blackboard}
    (fails : evaluator.evaluate bb = .ok false) :
    Fails σ κ (guardRule name (some evaluator) inner) bb := by
  intro w same
  subst same
  have first : (Node.condition { name := name ++ "_cond", evaluator }).tick
      (w.enter (name ++ "_guard") 0) = _ := condition_tick fails
  rw [Node.tick_eq]
  simp only [guardRule, tickBody, Body.run_map, tickSequence, Option.getD_none, ticks_pair,
    sequenceLoop]
  rw [visitChild_run rfl first]
  exact ⟨_, rfl⟩

theorem retry_fails {form name : String} {n : Node} {bb : Blackboard} (fails : Fails σ κ n bb) :
    Fails σ κ (handleError form name (some .retry) n) bb := by
  intro w same
  obtain ⟨tracer, first⟩ := fails w same
  obtain ⟨tracer', second⟩ := fails (w.withTracer tracer) same
  refine ⟨tracer', ?_⟩
  exact retry_tick first rfl (by decide) second rfl (by decide)

theorem limitReflection_fails {name : String} {maxRounds : Option UInt8} {n : Node}
    {bb : Blackboard} (fails : (∀ m, maxRounds = some m → bb.reflectionRound < m) → Fails σ κ n bb) :
    Fails σ κ (limitReflection name maxRounds n) bb := by
  cases maxRounds with
  | none => exact fails (fun _ none => by cases none)
  | some m =>
      intro w same
      subst same
      by_cases isOpen : w.blackboard.reflectionRound < m
      · obtain ⟨tracer, ticked⟩ := fails (fun _ same => Option.some.inj same ▸ isOpen) w rfl
        exact ⟨tracer, reflectionGuard_tick
          { name := name ++ "_reflection", maxRounds := m, child := n } isOpen ticked⟩
      · have closed : w.blackboard.reflectionRound ≥ m := by
          simpa only [ge_iff_le, UInt8.not_lt] using isOpen
        rw [Node.tick_eq]
        simp only [limitReflection, tickBody, tickReflectionGuard, reflectionGuardWith, closed,
          if_true, Body.run_map, Body.run_ret]
        exact ⟨w.tracer, rfl⟩

theorem coolDown_fails {name : String} {cooldownMs : Option Nat} {n : Node} {bb : Blackboard}
    (fails : Fails σ κ n bb) : Fails σ κ (coolDown name cooldownMs n) bb := by
  cases cooldownMs with
  | none => exact fails
  | some durationMs =>
      intro w same
      obtain ⟨tracer, ticked⟩ := fails w same
      obtain ⟨lastSuccess, clock, cooled, kept⟩ :=
        cooldown_tick (name ++ "_cooldown") durationMs ticked
      obtain ⟨rfl, rfl⟩ := kept nofun
      exact ⟨tracer, cooled⟩

/-- Behind a closed reflection guard nothing is tried. -/
theorem desugarRule_closed {rule : RuleSpec} {bb : Blackboard}
    (closed : rule.guardOpen bb = false) : Fails σ κ (desugarRule rule) bb := by
  refine coolDown_fails (limitReflection_fails fun isOpen => ?_)
  cases limit : rule.reflectionMaxRounds with
  | none => simp only [RuleSpec.guardOpen, limit, Bool.true_eq_false] at closed
  | some m =>
      simp only [RuleSpec.guardOpen, limit, decide_eq_false_iff_not] at closed
      exact absurd (isOpen m limit) closed

/-- A rule that fails behind its error handling fails. -/
theorem desugarRule_fails {rule : RuleSpec} {bb : Blackboard}
    (fails : Fails σ κ (handleError "Rule" rule.name rule.onError
      (guardRule rule.name rule.condition (desugarThen rule.action))) bb) :
    Fails σ κ (desugarRule rule) bb :=
  coolDown_fails (limitReflection_fails fun _ => fails)

/-- A false condition under any error handling but escalation. -/
theorem desugarRule_false {rule : RuleSpec} {evaluator : Evaluator} {bb : Blackboard}
    (condition : rule.condition = some evaluator) (fails : evaluator.evaluate bb = .ok false)
    (handling : rule.onError ≠ some .escalate) : Fails σ κ (desugarRule rule) bb := by
  have guarded : Fails σ κ (guardRule rule.name rule.condition (desugarThen rule.action)) bb := by
    rw [condition]
    exact guardRule_fails fails
  apply desugarRule_fails
  cases handler : rule.onError with
  | none => exact guarded
  | some onError =>
      cases onError with
      | skip => exact guarded
      | retry => exact retry_fails guarded
      | escalate => exact absurd handler handling

/-! ## Nodes that answer -/

/-- The tick ended in an error, or in success after pushing these commands. -/
def Pushed (before : List DecisionCommand) : Except Fault (List DecisionCommand) →
    Answer σ κ → Prop
  | .error e, a => a.result = .error e
  | .ok pushed, a => a.result = .ok .success ∧ a.world.blackboard.commands = before ++ pushed

variable (σ κ) in
/-- On this blackboard the node answers so. -/
def Answers (n : Node) (bb : Blackboard) (r : Except Fault (List DecisionCommand)) : Prop :=
  ∀ w : World σ κ, w.blackboard = bb → Pushed bb.commands r (n.tick w)

variable (σ κ) in
/-- The same, and the rounds of reflection do not move. -/
def Yields (n : Node) (bb : Blackboard) (r : Except Fault (List DecisionCommand)) : Prop :=
  ∀ w : World σ κ, w.blackboard = bb → Pushed bb.commands r (n.tick w) ∧
    (n.tick w).world.blackboard.reflectionRound = bb.reflectionRound

theorem limitReflection_answers {name : String} {maxRounds : Option UInt8} {n : Node}
    {bb : Blackboard} {r : Except Fault (List DecisionCommand)}
    (isOpen : ∀ m, maxRounds = some m → bb.reflectionRound < m) (yields : Yields σ κ n bb r) :
    Answers σ κ (limitReflection name maxRounds n) bb r := by
  cases maxRounds with
  | none => exact fun w same => (yields w same).1
  | some m =>
      intro w same
      obtain ⟨pushed, round⟩ := yields w same
      have inside : w.blackboard.reflectionRound < m := same ▸ isOpen m rfl
      have ticked : (limitReflection name (some m) n).tick w = _ := reflectionGuard_tick
        { name := name ++ "_reflection", maxRounds := m, child := n } inside rfl
      rw [ticked]
      cases r with
      | error e =>
          have failed : (n.tick w).result = .error e := pushed
          simp only [failed, reduceCtorEq, if_false]
          rfl
      | ok cs =>
          obtain ⟨done, commands⟩ := pushed
          have room : ¬ bb.reflectionRound.toNat + 1 = UInt8.size := by
            have below : bb.reflectionRound.toNat < m.toNat := isOpen m rfl
            have := m.toNat_lt_size
            omega
          simp only [done, round, room, if_true, if_false]
          exact ⟨rfl, commands⟩

theorem coolDown_answers {name : String} {cooldownMs : Option Nat} {n : Node} {bb : Blackboard}
    {r : Except Fault (List DecisionCommand)} (answers : Answers σ κ n bb r) :
    Answers σ κ (coolDown name cooldownMs n) bb r := by
  cases cooldownMs with
  | none => exact answers
  | some durationMs =>
      intro w same
      have pushed := answers w same
      obtain ⟨lastSuccess, clock, cooled, -⟩ := cooldown_tick (name ++ "_cooldown") durationMs
        (n := n) (w := w) rfl
      rw [show (coolDown name (some durationMs) n).tick w = _ from cooled]
      cases r with
      | error e => exact pushed
      | ok cs => exact pushed

/-- Behind an open reflection guard a rule answers as its handled action does. -/
theorem desugarRule_answers {rule : RuleSpec} {bb : Blackboard}
    {r : Except Fault (List DecisionCommand)} (isOpen : rule.guardOpen bb = true)
    (yields : Yields σ κ (handleError "Rule" rule.name rule.onError
      (guardRule rule.name rule.condition (desugarThen rule.action))) bb r) :
    Answers σ κ (desugarRule rule) bb r := by
  refine coolDown_answers (limitReflection_answers (fun m limit => ?_) yields)
  simpa only [RuleSpec.guardOpen, limit, decide_eq_true_eq] using isOpen

/-- What the fallback of an error handler returns and pushes. -/
def escalated (form name : String) (bb : Blackboard) : Except Fault (List DecisionCommand) :=
  (renderCommandTemplates (escalation form name) bb).map ([·])

/-- Over a failing node the error handler answers as its fallback action does. -/
theorem escalate_yields {form name : String} {n : Node} {bb : Blackboard}
    (fails : Fails σ κ n bb) :
    Yields σ κ (handleError form name (some .escalate) n) bb (escalated form name bb) := by
  intro w same
  subst same
  obtain ⟨tracer, first⟩ := fails (w.enter (name ++ "_error_handler") 0) rfl
  let v := ((w.enter (name ++ "_error_handler") 0).withTracer tracer).exit
    (name ++ "_error_handler") .failure
  have second : (Node.action (escalateFallback form name)).tick
      (v.enter (name ++ "_error_handler") 1) = _ := action_tick rfl
  have same : (v.enter (name ++ "_error_handler") 1).blackboard = w.blackboard := rfl
  have command : (escalateFallback form name).command = escalation form name := rfl
  rw [Node.tick_eq]
  simp only [handleError, tickBody, Body.run_map, tickSelector, Option.getD_none, ticks_pair,
    selectorLoop]
  rw [visitChild_run rfl first]
  simp only
  rw [visitChild_run rfl second]
  cases rendered : renderCommandTemplates (escalation form name) w.blackboard with
  | error e =>
      simp only [emitCommand, same, command, rendered, Run.map, escalated, Except.map, Pushed,
        true_and]
  | ok c =>
      simp only [emitCommand, same, command, rendered, Run.map, selectorSucceeded, Body.run_ret,
        escalated, Except.map]
      exact ⟨⟨rfl, rfl⟩, rfl⟩

/-! ## A false condition -/

/-- The rule steps aside: it fails and changes neither the blackboard nor the session. -/
def StepsAside (rule : RuleSpec) (w : World σ κ) : Prop :=
  ((desugarRule rule).tick w).result = .ok .failure ∧
    ((desugarRule rule).tick w).world.blackboard = w.blackboard ∧
    ((desugarRule rule).tick w).world.session = w.session

/-- A rule whose condition is false steps aside if and only if it does not escalate
    errors or its reflection guard is closed. -/
theorem false_condition_steps_aside {rule : RuleSpec} {evaluator : Evaluator} {w : World σ κ}
    (condition : rule.condition = some evaluator)
    (fails : evaluator.evaluate w.blackboard = .ok false) :
    StepsAside rule w ↔ rule.onError ≠ some .escalate ∨ rule.guardOpen w.blackboard = false := by
  have aside (failing : Fails σ κ (desugarRule rule) w.blackboard) : StepsAside rule w := by
    obtain ⟨tracer, ticked⟩ := failing w rfl
    rw [StepsAside, ticked]
    exact ⟨rfl, rfl, rfl⟩
  constructor
  · intro stepped
    by_contra escalates
    obtain ⟨handling, isOpen⟩ := not_or.mp escalates
    rw [not_not] at handling
    rw [Bool.not_eq_false] at isOpen
    have guarded : Fails σ κ (guardRule rule.name rule.condition (desugarThen rule.action))
        w.blackboard := by
      rw [condition]
      exact guardRule_fails fails
    have handled : Yields σ κ (handleError "Rule" rule.name rule.onError
        (guardRule rule.name rule.condition (desugarThen rule.action))) w.blackboard
        (escalated "Rule" rule.name w.blackboard) := by
      rw [handling]
      exact escalate_yields guarded
    have answered := desugarRule_answers isOpen handled w rfl
    cases outcome : escalated "Rule" rule.name w.blackboard with
    | error e =>
        rw [outcome, Pushed, stepped.1] at answered
        cases answered
    | ok cs =>
        rw [outcome, Pushed, stepped.1] at answered
        cases answered.1
  · rintro (handling | closed)
    · exact aside (desugarRule_false condition fails handling)
    · exact aside (desugarRule_closed closed)

/-! ## Rules that emit -/

variable (σ κ) in
/-- On this blackboard, whatever commands are on it, the node succeeds, unchanged, and
    pushes one command. -/
def Emits (n : Node) (bb : Blackboard) (c : DecisionCommand) : Prop :=
  ∀ (w : World σ κ) (cs : List DecisionCommand), w.blackboard = { bb with commands := cs } →
    ∃ tracer, n.tick w =
      ⟨.ok .success, n, { w with blackboard := w.blackboard.pushCommand c, tracer }⟩

theorem action_emits {node : ActionNode} {bb : Blackboard} (unconditional : node.when = none)
    (rendered : ∀ cs, renderCommandTemplates node.command { bb with commands := cs } =
      .ok node.command) : Emits σ κ (.action node) bb node.command := by
  intro w cs same
  rw [action_tick unconditional, emitCommand, same, rendered cs]
  exact ⟨w.tracer.recordAction node.name node.command, by rw [← same]; rfl⟩

theorem guardRule_emits {name : String} {condition : Option Evaluator} {inner : Node}
    {bb : Blackboard} {c : DecisionCommand}
    (holds : ∀ evaluator, condition = some evaluator → evaluator.evaluate bb = .ok true)
    (emits : Emits σ κ inner bb c) : Emits σ κ (guardRule name condition inner) bb c := by
  cases condition with
  | none => exact emits
  | some evaluator =>
      intro w cs same
      have evaluated : evaluator.evaluate w.blackboard = .ok true := by
        rw [same, Evaluator.evaluate_commands]
        exact holds evaluator rfl
      have first : (Node.condition { name := name ++ "_cond", evaluator }).tick
          (w.enter (name ++ "_guard") 0) = _ := condition_tick evaluated
      obtain ⟨tracer, second⟩ := emits
        (((w.enter (name ++ "_guard") 0).exit (name ++ "_guard") .success).enter
          (name ++ "_guard") 1) cs same
      rw [Node.tick_eq]
      simp only [guardRule, tickBody, Body.run_map, tickSequence, Option.getD_none, ticks_pair,
        sequenceLoop]
      rw [visitChild_run rfl first]
      simp only [if_true]
      rw [visitChild_run rfl second]
      exact ⟨_, rfl⟩

/-- One emission, under any error handling but retry. -/
theorem handleError_yields {form name : String} {onError : Option OnError} {n : Node}
    {bb : Blackboard} {c : DecisionCommand} (once : onError ≠ some .retry)
    (emits : Emits σ κ n bb c) : Yields σ κ (handleError form name onError n) bb (.ok [c]) := by
  intro w same
  subst same
  have plain : Pushed w.blackboard.commands (.ok [c]) (n.tick w) ∧
      (n.tick w).world.blackboard.reflectionRound = w.blackboard.reflectionRound := by
    obtain ⟨tracer, ticked⟩ := emits w _ rfl
    rw [ticked]
    exact ⟨⟨rfl, rfl⟩, rfl⟩
  cases onError with
  | none => exact plain
  | some onError =>
      cases onError with
      | skip => exact plain
      | retry => exact absurd rfl once
      | escalate =>
          obtain ⟨tracer, ticked⟩ := emits (w.enter (name ++ "_error_handler") 0) _ rfl
          rw [Node.tick_eq]
          simp only [handleError, tickBody, Body.run_map, tickSelector, Option.getD_none,
            ticks_pair, selectorLoop]
          rw [visitChild_run rfl ticked]
          exact ⟨⟨rfl, rfl⟩, rfl⟩

/-- A retried emission happens twice. -/
theorem retry_yields {form name : String} {n : Node} {bb : Blackboard} {c : DecisionCommand}
    (emits : Emits σ κ n bb c) :
    Yields σ κ (handleError form name (some .retry) n) bb (.ok [c, c]) := by
  intro w same
  subst same
  obtain ⟨tracer, first⟩ := emits w _ rfl
  obtain ⟨tracer', second⟩ := emits
    { w with blackboard := w.blackboard.pushCommand c, tracer } (w.blackboard.commands ++ [c]) rfl
  rw [show (handleError form name (some .retry) n).tick w = _ from
    retry_tick first rfl (by decide) second rfl (by decide)]
  refine ⟨⟨rfl, ?_⟩, rfl⟩
  simp only [Blackboard.pushCommand_commands, List.append_assoc, List.singleton_append]

/-! ## Lists of rules -/

/-- The texts of the commands are left alone by the template engine. -/
def InlinePlain (rule : RuleSpec) : Prop :=
  ∃ c, rule.action = .inlineCommand c ∧ ∀ s ∈ c.texts, IsPlain s

/-- What an inline rule that fires on this blackboard pushes. -/
def RuleSpec.verdict (rule : RuleSpec) (bb : Blackboard) : Except Fault (List DecisionCommand) :=
  if rule.holds bb then
    .ok (rule.command?.toList ++ if rule.onError = some .retry then rule.command?.toList else [])
  else escalated "Rule" rule.name bb

theorem RuleSpec.evaluate_of_holds {rule : RuleSpec} {bb : Blackboard} {evaluator : Evaluator}
    {holds : Bool} (condition : rule.condition = some evaluator)
    (evaluated : evaluator.evaluate bb = .ok holds) : rule.holds bb = holds := by
  simp only [RuleSpec.holds, condition, evaluated]

variable (σ κ) in
/-- An inline rule that does not fire fails, and one that fires answers its verdict. -/
theorem inline_rule {rule : RuleSpec} {bb : Blackboard} (engine : LeavesPlainText)
    (inline : InlinePlain rule)
    (defined : ∀ evaluator, rule.condition = some evaluator → ∃ holds, evaluator.evaluate bb = .ok holds) :
    (rule.fires bb = false → Fails σ κ (desugarRule rule) bb) ∧
      (rule.fires bb = true → Answers σ κ (desugarRule rule) bb (rule.verdict bb)) := by
  obtain ⟨c, action, plain⟩ := inline
  have command : rule.command? = some c := by simp only [RuleSpec.command?, action]
  have emits : Emits σ κ (desugarThen rule.action) bb c := by
    rw [action, desugarThen]
    exact action_emits rfl fun cs => renderCommandTemplates_of_texts fun s text =>
      renderPromptTemplate_plain engine (plain s text)
  constructor
  · intro silent
    cases isOpen : rule.guardOpen bb with
    | false => exact desugarRule_closed isOpen
    | true =>
        simp only [RuleSpec.fires, isOpen, Bool.true_and, Bool.or_eq_false_iff, beq_eq_false_iff_ne]
          at silent
        obtain ⟨not_holding, handling⟩ := silent
        cases condition : rule.condition with
        | none => simp only [RuleSpec.holds, condition, Bool.true_eq_false] at not_holding
        | some evaluator =>
            obtain ⟨holds, evaluated⟩ := defined evaluator condition
            rw [RuleSpec.evaluate_of_holds condition evaluated] at not_holding
            subst not_holding
            exact desugarRule_false condition evaluated handling
  · intro fires
    simp only [RuleSpec.fires, Bool.and_eq_true, Bool.or_eq_true, beq_iff_eq] at fires
    obtain ⟨isOpen, reason⟩ := fires
    refine desugarRule_answers isOpen ?_
    cases holding : rule.holds bb with
    | true =>
        have guarded : Emits σ κ (guardRule rule.name rule.condition (desugarThen rule.action)) bb c := by
          refine guardRule_emits (fun evaluator condition => ?_) emits
          obtain ⟨holds, evaluated⟩ := defined evaluator condition
          rw [RuleSpec.evaluate_of_holds condition evaluated] at holding
          rw [evaluated, holding]
        simp only [RuleSpec.verdict, holding, if_true, command, Option.toList_some]
        split_ifs with handling
        · rw [handling]
          exact retry_yields guarded
        · exact handleError_yields handling guarded
    | false =>
        have handling : rule.onError = some .escalate := by
          simpa only [holding, Bool.false_eq_true, false_or] using reason
        cases condition : rule.condition with
        | none => simp only [RuleSpec.holds, condition, Bool.true_eq_false] at holding
        | some evaluator =>
            obtain ⟨holds, evaluated⟩ := defined evaluator condition
            rw [RuleSpec.evaluate_of_holds condition evaluated] at holding
            subst holding
            have silent : rule.holds bb = false := RuleSpec.evaluate_of_holds condition evaluated
            simp only [RuleSpec.verdict, silent, Bool.false_eq_true, if_false, handling]
            exact escalate_yields (guardRule_fails evaluated)

theorem noMatch_answers (bb : Blackboard) :
    Answers σ κ noMatch bb (.ok [.agent .approveAndContinue]) := by
  intro w same
  rw [noMatch, action_tick rfl, emitCommand, ← same]
  exact ⟨rfl, rfl⟩

/-- The selector passes over children that fail. -/
theorem selectorLoop_skips {node : SelectorNode Node} {bb : Blackboard} {front : List Node} :
    ∀ (done back : List Node) {w : World σ κ}, node.children = done ++ front ++ back →
      (∀ n ∈ front, Fails σ κ n bb) → w.blackboard = bb →
      ∃ tracer, (selectorLoop (ticks done.length node.children.length) node w).run interpreter.solve =
        (selectorLoop (ticks (done.length + front.length) node.children.length) node
          (w.withTracer tracer)).run interpreter.solve := by
  induction front with
  | nil => intro done back w _ _ _; exact ⟨w.tracer, rfl⟩
  | cons n front ih =>
      intro done back w children fails same
      have at_n : node.children[done.length]? = some n := by
        rw [children, List.append_assoc, List.getElem?_append_right (Nat.le_refl _), Nat.sub_self]
        rfl
      have inside : done.length < node.children.length := (List.getElem?_eq_some_iff.mp at_n).1
      have unchanged : node.children.set done.length n = node.children := by
        obtain ⟨_, found⟩ := List.getElem?_eq_some_iff.mp at_n
        rw [← found, List.set_getElem_self]
      obtain ⟨tracer, failed⟩ := fails n List.mem_cons_self (w.enter node.name done.length) same
      obtain ⟨tracer', rest⟩ := ih (done ++ [n]) back
        (w := (((w.enter node.name done.length).withTracer tracer).exit node.name .failure))
        (by rw [children]; simp only [List.append_assoc, List.cons_append, List.nil_append])
        (fun m later => fails m (List.mem_cons_of_mem _ later)) same
      refine ⟨tracer', ?_⟩
      rw [ticks_eq_cons inside, selectorLoop, visitChild_run at_n failed]
      simp only [unchanged]
      rw [List.length_append, List.length_singleton] at rest
      rw [rest, List.length_cons, Nat.add_assoc, Nat.add_comm 1]
      rfl

/-- The selector answers as the first child that does not fail. -/
theorem selector_answers {node : SelectorNode Node} {bb : Blackboard} {front back : List Node}
    {n : Node} {r : Except Fault (List DecisionCommand)} (fresh : node.activeChild = none)
    (children : node.children = front ++ n :: back) (fails : ∀ m ∈ front, Fails σ κ m bb)
    (answers : Answers σ κ n bb r) : Answers σ κ (.selector node) bb r := by
  intro w same
  have at_n : node.children[front.length]? = some n := by
    rw [children, List.getElem?_append_right (Nat.le_refl _), Nat.sub_self]
    rfl
  have inside : front.length < node.children.length := (List.getElem?_eq_some_iff.mp at_n).1
  obtain ⟨tracer, skipped⟩ := selectorLoop_skips [] (n :: back) (w := w) (by rw [children]; rfl) fails same
  have pushed := answers ((w.withTracer tracer).enter node.name front.length) same
  rw [Node.tick_eq]
  simp only [tickBody, Body.run_map, tickSelector, fresh, Option.getD_none]
  rw [List.length_nil, Nat.zero_add] at skipped
  rw [skipped, ticks_eq_cons inside, selectorLoop, visitChild_run at_n rfl]
  cases r with
  | error e =>
      have failed : (n.tick ((w.withTracer tracer).enter node.name front.length)).result =
        .error e := pushed
      rw [failed]
      rfl
  | ok cs =>
      obtain ⟨done, commands⟩ := pushed
      rw [done]
      have blackboard (m : SelectorNode Node) (i : Nat) (v : World σ κ) :
          (selectorSucceeded m i v).result = .ok .success ∧
            (selectorSucceeded m i v).world.blackboard = v.blackboard := by
        cases rule : m.ruleName <;> simp only [selectorSucceeded, rule, and_self]
      simp only [Body.run_ret, Run.map, Pushed, blackboard]
      exact ⟨trivial, commands⟩

/-- What the tree of a list of inline rules pushes: what the first rule that fires does. -/
def verdict (rules : List RuleSpec) (bb : Blackboard) : Except Fault (List DecisionCommand) :=
  match rules.find? (·.fires bb) with
  | none => .ok [.agent .approveAndContinue]
  | some rule => rule.verdict bb

theorem rulesRoot_answers {metadata : Metadata} {rules : List RuleSpec} {bb : Blackboard}
    (engine : LeavesPlainText) (inline : ∀ rule ∈ rules, InlinePlain rule)
    (defined : ∀ rule ∈ rules, ∀ evaluator, rule.condition = some evaluator →
      ∃ holds, evaluator.evaluate bb = .ok holds) :
    Answers σ κ (.selector (rulesRoot metadata rules)) bb (verdict rules bb) := by
  have rule_cases {rule : RuleSpec} (member : rule ∈ rules) :=
    inline_rule σ κ engine (inline rule member) (defined rule member)
  have failing {front : List RuleSpec} (inside : ∀ rule ∈ front, rule ∈ rules)
      (silent : ∀ rule ∈ front, rule.fires bb = false) :
      ∀ n ∈ front.map desugarRule, Fails σ κ n bb := by
    intro n member
    obtain ⟨rule, in_front, rfl⟩ := List.mem_map.mp member
    exact (rule_cases (inside rule in_front)).1 (silent rule in_front)
  unfold verdict
  split
  · next none =>
      have silent : ∀ rule ∈ rules, rule.fires bb = false := fun rule member => by
        simpa using List.find?_eq_none.mp none rule member
      exact selector_answers rfl rfl (failing (fun _ => id) silent) (noMatch_answers bb)
  · next rule found =>
      obtain ⟨fires, front, back, split, silent⟩ := List.find?_eq_some_iff_append.mp found
      have silent : ∀ rule ∈ front, rule.fires bb = false := fun rule member => by
        simpa using silent rule member
      have member : rule ∈ rules := by rw [split]; exact List.mem_append_right _ List.mem_cons_self
      have inside : ∀ rule ∈ front, rule ∈ rules := fun rule in_front => by
        rw [split]
        exact List.mem_append_left _ in_front
      have children : (rulesRoot metadata rules).children =
          front.map desugarRule ++ desugarRule rule :: (back.map desugarRule ++ [noMatch]) := by
        rw [rulesRoot, split, List.map_append, List.map_cons, List.append_assoc]
        rfl
      exact selector_answers rfl children (failing inside silent) ((rule_cases member).2 fires)

/-- The command the documentation promises: that of the rule with the lowest priority
    number among those whose condition is absent or true. -/
def documented (rules : List RuleSpec) (bb : Blackboard) : DecisionCommand :=
  (((rules.filter (·.holds bb)).argmin (·.priority.toNat)).bind RuleSpec.command?).getD
    (.agent .approveAndContinue)

/-- With distinct priorities the documented command does not depend on the order. -/
theorem documented_perm {rules rules' : List RuleSpec} (bb : Blackboard)
    (perm : rules.Perm rules') (distinct : (rules.map (·.priority)).Nodup) :
    documented rules bb = documented rules' bb := by
  have filtered := perm.filter (·.holds bb)
  unfold documented
  congr 2
  cases left : (rules.filter (·.holds bb)).argmin (·.priority.toNat) with
  | none =>
      rw [List.argmin_eq_none] at left
      rw [left] at filtered
      rw [← filtered.nil_eq, List.argmin_nil]
  | some rule =>
      cases right : (rules'.filter (·.holds bb)).argmin (·.priority.toNat) with
      | none =>
          rw [List.argmin_eq_none] at right
          rw [right] at filtered
          rw [filtered.eq_nil, List.argmin_nil] at left
          cases left
      | some rule' =>
          have member := List.argmin_mem left
          have member' := filtered.mem_iff.mpr (List.argmin_mem right)
          have below := List.le_of_mem_argmin member' left
          have above := List.le_of_mem_argmin (filtered.mem_iff.mp member) right
          have same : rule.priority = rule'.priority :=
            UInt32.toNat_inj.mp (Nat.le_antisymm below above)
          rw [List.inj_on_of_nodup_map distinct (List.mem_of_mem_filter member)
            (List.mem_of_mem_filter member') same]

/-- The tick returned `Ok` after pushing exactly the documented command. -/
def EmitsDocumented (rules : List RuleSpec) (t : Turn σ κ) : Prop :=
  ∃ r, t.ticked.result = .ok r ∧ r.commands = t.start.ctx.blackboard.commands ++
    [documented rules t.start.ctx.blackboard]

/-- The first rule in the order of the document that fires carries the documented command,
    has a true condition and is not retried; or it has a false condition and its escalation
    happens to be that command; or no rule fires and none is expected to. -/
def OrderAgrees (rules : List RuleSpec) (bb : Blackboard) : Prop :=
  match rules.find? (·.fires bb) with
  | none => documented rules bb = .agent .approveAndContinue
  | some rule =>
      if rule.holds bb then
        rule.onError ≠ some .retry ∧ rule.command? = some (documented rules bb)
      else renderCommandTemplates (escalation "Rule" rule.name) bb = .ok (documented rules bb)

theorem verdict_documented {rules : List RuleSpec} {bb : Blackboard}
    (inline : ∀ rule ∈ rules, InlinePlain rule) :
    verdict rules bb = .ok [documented rules bb] ↔ OrderAgrees rules bb := by
  unfold verdict OrderAgrees
  split
  · simp only [Except.ok.injEq, List.cons.injEq, and_true]
    exact eq_comm
  · next rule found =>
      obtain ⟨c, action, -⟩ := inline rule (List.mem_of_find?_eq_some found)
      have command : rule.command? = some c := by simp only [RuleSpec.command?, action]
      unfold RuleSpec.verdict
      split
      · simp only [command, Option.toList_some, Option.some.injEq, Except.ok.injEq]
        split_ifs with retried
        · simp [retried]
        · simp [retried]
      · simp only [escalated]
        cases renderCommandTemplates (escalation "Rule" rule.name) bb with
        | error e => simp [Except.map]
        | ok c => simp [Except.map]

/-- Ticking the tree of a list of inline rules emits exactly the command of the rule with
    the lowest priority number among the applicable ones if and only if the first rule in
    the order of the document that fires is to the same effect. -/
theorem emits_documented_iff (apiVersion : String) (metadata : Metadata) (rules : List RuleSpec)
    (ctx : TickContext σ κ) (engine : LeavesPlainText)
    (inline : ∀ rule ∈ rules, InlinePlain rule)
    (defined : ∀ rule ∈ rules, ∀ evaluator, rule.condition = some evaluator →
      ∃ holds, evaluator.evaluate ctx.blackboard = .ok holds) :
    EmitsDocumented rules (Instance.launch
        (DslDocument.decisionRules apiVersion metadata rules).desugar.spec.root ctx).tick ↔
      OrderAgrees rules ctx.blackboard := by
  let s := Instance.launch (σ := σ) (.selector (rulesRoot metadata rules)) ctx
  have pushed : Pushed ctx.blackboard.commands (verdict rules ctx.blackboard) s.answer :=
    rulesRoot_answers engine inline defined s.request.world rfl
  rw [← verdict_documented inline]
  show EmitsDocumented rules s.tick ↔ _
  cases outcome : verdict rules ctx.blackboard with
  | error e =>
      rw [outcome] at pushed
      simp only [EmitsDocumented, Instance.tick_error pushed, reduceCtorEq, false_and, exists_false]
  | ok cs =>
      rw [outcome] at pushed
      obtain ⟨done, commands⟩ := pushed
      simp only [EmitsDocumented, Instance.tick_ok done, Except.ok.injEq, exists_eq_left', commands]
      exact List.append_cancel_left_eq _ _ _ |>.to_iff

end

section

open Plain

/-- A rule that wakes the agent up when `condition` holds. -/
def wakeUpRule (condition : Evaluator) (onError : OnError) : RuleSpec :=
  { priority := 1, name := "wake", condition := some condition
    action := .inlineCommand (.agent .wakeUp)
    cooldownMs := none, reflectionMaxRounds := none, onError := some onError }

/-- A condition that is false, and an escalation. -/
theorem wakeUpRule_escalates : ¬ ∀ (rule : RuleSpec) (evaluator : Evaluator) (w : World Silent Frozen),
    rule.condition = some evaluator → evaluator.evaluate w.blackboard = .ok false →
      StepsAside rule w := by
  intro all
  have stepped := all (wakeUpRule (.or []) .escalate) (.or []) { Plain.ctx with tracer := {} } rfl rfl
  exact absurd stepped.1 (by decide)

/-- The same condition, retried. -/
theorem wakeUpRule_skipped :
    let w : World Silent Frozen := { Plain.ctx with tracer := {} }
    let rule := wakeUpRule (.or []) .retry
    StepsAside rule w ↔ rule.onError ≠ some .escalate ∨ rule.guardOpen w.blackboard = false :=
  false_condition_steps_aside rfl rfl

/-- A rule without a condition. -/
def always (priority : UInt32) (command : DecisionCommand) : RuleSpec :=
  { priority, name := "always", condition := none, action := .inlineCommand command
    cooldownMs := none, reflectionMaxRounds := none, onError := none }

theorem always_inline {priority : UInt32} {command : DecisionCommand} (bare : command.texts = []) :
    InlinePlain (always priority command) := ⟨command, rfl, by rw [bare]; nofun⟩

/-- The rule written first wins, not the rule with the lowest priority number. -/
theorem order_of_document_wins : ¬ ∀ (rules : List RuleSpec) (ctx : TickContext Silent Frozen),
    (rules.map (·.priority)).Nodup → (∀ rule ∈ rules, InlinePlain rule) →
    (∀ rule ∈ rules, ∀ evaluator, rule.condition = some evaluator →
      ∃ holds, evaluator.evaluate ctx.blackboard = .ok holds) →
    EmitsDocumented rules (Instance.launch
      (DslDocument.decisionRules "v1" ⟨"rules", none⟩ rules).desugar.spec.root ctx).tick := by
  intro all
  let rules := [always 2 (.task .confirmCompletion), always 1 (.agent .wakeUp)]
  obtain ⟨r, returned, commands⟩ := all rules Plain.ctx (by decide)
    (by
      intro rule member
      simp only [rules, List.mem_cons, List.not_mem_nil, or_false] at member
      rcases member with rfl | rfl <;> exact always_inline rfl)
    (by
      intro rule member evaluator condition
      simp only [rules, List.mem_cons, List.not_mem_nil, or_false] at member
      rcases member with rfl | rfl <;> cases condition)
  obtain rfl := Except.ok.inj returned
  exact absurd commands (by decide)

/-- A single rule. -/
theorem single_rule_agrees :
    EmitsDocumented [always 1 (.agent .wakeUp)] (Instance.launch
        (DslDocument.decisionRules "v1" ⟨"rules", none⟩
          [always 1 (.agent .wakeUp)]).desugar.spec.root Plain.ctx).tick ↔
      OrderAgrees [always 1 (.agent .wakeUp)] Plain.ctx.blackboard := by
  refine emits_documented_iff _ _ _ _ (fun s _ => ⟨rfl, fun _ => rfl⟩) ?_ ?_
  · intro rule member
    obtain rfl := List.mem_singleton.mp member
    exact always_inline rfl
  · intro rule member evaluator condition
    obtain rfl := List.mem_singleton.mp member
    cases condition

end

end AgileAgent.DecisionDsl
