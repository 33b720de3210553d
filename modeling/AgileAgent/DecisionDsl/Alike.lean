import Mathlib.Data.List.Forall2
import AgileAgent.DecisionDsl.Fresh

/-! # Trees that behave alike

Some of the run state of a tree decides nothing: whether a rule was matched before, the marker of
a parallel node, the instant of a prompt that does not wait, and whether a marker names the first
child or none. Trees that differ in this alone return the same in the same context and stay alike;
their traces may differ.
-/

namespace AgileAgent.DecisionDsl

open CallTree

variable {σ κ ν μ : Type}

/-- The trees differ in nothing that a tick decides by. -/
inductive Node.Alike : Node → Node → Prop
  | selector (n : SelectorNode Node) {children : List Node} {activeChild : Option Nat} {matched : Bool}
      (below : List.Forall₂ Node.Alike n.children children)
      (place : activeChild.getD 0 = n.activeChild.getD 0) :
      Node.Alike (.selector n) (.selector { n with children, activeChild, matched })
  | sequence (n : SequenceNode Node) {children : List Node} {activeChild : Option Nat}
      (below : List.Forall₂ Node.Alike n.children children)
      (place : activeChild.getD 0 = n.activeChild.getD 0) :
      Node.Alike (.sequence n) (.sequence { n with children, activeChild })
  | parallel (n : ParallelNode Node) {children : List Node} {activeChild : Option Nat}
      (below : List.Forall₂ Node.Alike n.children children) :
      Node.Alike (.parallel n) (.parallel { n with children, activeChild })
  | inverter (n : InverterNode Node) {child : Node} (below : Node.Alike n.child child) :
      Node.Alike (.inverter n) (.inverter { n with child })
  | repeater (n : RepeaterNode Node) {child : Node} (below : Node.Alike n.child child) :
      Node.Alike (.repeater n) (.repeater { n with child })
  | cooldown (n : CooldownNode Node) {child : Node} (below : Node.Alike n.child child) :
      Node.Alike (.cooldown n) (.cooldown { n with child })
  | reflectionGuard (n : ReflectionGuardNode Node) {child : Node} (below : Node.Alike n.child child) :
      Node.Alike (.reflectionGuard n) (.reflectionGuard { n with child })
  | forceHuman (n : ForceHumanNode Node) {child : Node} (below : Node.Alike n.child child) :
      Node.Alike (.forceHuman n) (.forceHuman { n with child })
  | when (n : WhenNode Node) {action : Node} (below : Node.Alike n.action action) :
      Node.Alike (.when n) (.when { n with action })
  | condition (n : ConditionNode) : Node.Alike (.condition n) (.condition n)
  | action (n : ActionNode) : Node.Alike (.action n) (.action n)
  | prompt (n : PromptNode) {sentAt : Option Nat} (waits : n.pending = true → sentAt = n.sentAt) :
      Node.Alike (.prompt n) (.prompt { n with sentAt })
  | setVar (n : SetVarNode) : Node.Alike (.setVar n) (.setVar n)
  | unresolved (name refName : String) :
      Node.Alike (.subTree ⟨name, refName, none⟩) (.subTree ⟨name, refName, none⟩)
  | subTree (name refName : String) {root root' : Node} (below : Node.Alike root root') :
      Node.Alike (.subTree ⟨name, refName, some root⟩) (.subTree ⟨name, refName, some root'⟩)

theorem Node.Alike.refl (n : Node) : n.Alike n := by
  induction n using Node.children_induction with
  | step n ih =>
      have siblings : List.Forall₂ Node.Alike n.children n.children := List.forall₂_same.mpr ih
      cases n with
      | selector n => exact .selector n siblings rfl
      | sequence n => exact .sequence n siblings rfl
      | parallel n => exact .parallel n siblings
      | inverter n => exact .inverter n (ih _ List.mem_cons_self)
      | repeater n => exact .repeater n (ih _ List.mem_cons_self)
      | cooldown n => exact .cooldown n (ih _ List.mem_cons_self)
      | reflectionGuard n => exact .reflectionGuard n (ih _ List.mem_cons_self)
      | forceHuman n => exact .forceHuman n (ih _ List.mem_cons_self)
      | when n => exact .when n (ih _ List.mem_cons_self)
      | condition n => exact .condition n
      | action n => exact .action n
      | prompt n => exact .prompt n fun _ => rfl
      | setVar n => exact .setVar n
      | subTree n =>
          obtain ⟨name, refName, root⟩ := n
          cases root with
          | none => exact .unresolved name refName
          | some root => exact .subTree name refName (ih root List.mem_cons_self)

/-- The worlds differ in the entries of the trace, and in its depth, only. -/
structure World.Alike (w w' : World σ κ) : Prop where
  context : w'.toTickContext = w.toTickContext
  pathStack : w'.tracer.pathStack = w.tracer.pathStack
  runningPath : w'.tracer.runningPath = w.tracer.runningPath

structure Request.Alike (q q' : Request σ κ) : Prop where
  ask : q'.ask = q.ask
  node : q.node.Alike q'.node
  world : q.world.Alike q'.world

/-- The same is returned, and what is left is alike. -/
structure Run.Alike (alike : ν → ν → Prop) (r r' : Run σ κ ν) : Prop where
  result : r'.result = r.result
  node : alike r.node r'.node
  world : r.world.Alike r'.world

/-- Two routines on records of nodes make the same calls, and return the same if these do. -/
abbrev Matches (wrap : ν → Node) : Routine σ κ ν → Routine σ κ ν → Prop :=
  Body.Follows Request.Alike (fun _ => Run.Alike Node.Alike)
    (Run.Alike fun n m => (wrap n).Alike (wrap m)) fun _ => False

/-! ## Siblings -/

section

variable {R : Node → Node → Prop} {ns ms : List Node} {n m : Node}

theorem siblings_getElem? (related : List.Forall₂ R ns ms) (i : Nat) : Option.Rel R ns[i]? ms[i]? := by
  induction related generalizing i with
  | nil => exact .none
  | cons first _ ih =>
      cases i with
      | zero => exact .some first
      | succ i => exact ih i

theorem siblings_set (related : List.Forall₂ R ns ms) (i : Nat) (new : R n m) :
    List.Forall₂ R (ns.set i n) (ms.set i m) := by
  induction related generalizing i with
  | nil => exact .nil
  | cons first rest ih =>
      cases i with
      | zero => exact .cons new rest
      | succ i => exact .cons first (ih i)

end

/-! ## Composites -/

namespace World.Alike

variable {w w' : World σ κ}

theorem enter (alike : w.Alike w') (name : String) (i : Nat) : (w.enter name i).Alike (w'.enter name i) := by
  constructor
  · exact alike.context
  · exact congrArg (· ++ [i]) alike.pathStack
  · exact alike.runningPath

theorem exit (alike : w.Alike w') (name : String) (status : NodeStatus) :
    (w.exit name status).Alike (w'.exit name status) := by
  have stack : w'.tracer.pathStack.dropLast = w.tracer.pathStack.dropLast :=
    congrArg List.dropLast alike.pathStack
  constructor
  · exact alike.context
  · exact stack
  · simp only [World.exit, Tracer.exit_runningPath, stack, alike.runningPath]

/-- The trace may be continued in different ways. -/
theorem retrace {t t' : Tracer} (alike : w.Alike w') (pathStack : t.pathStack = w.tracer.pathStack)
    (runningPath : t.runningPath = w.tracer.runningPath)
    (pathStack' : t'.pathStack = w'.tracer.pathStack)
    (runningPath' : t'.runningPath = w'.tracer.runningPath) :
    (w.withTracer t).Alike (w'.withTracer t') := by
  constructor
  · exact alike.context
  · exact pathStack'.trans (alike.pathStack.trans pathStack.symm)
  · exact runningPath'.trans (alike.runningPath.trans runningPath.symm)

end World.Alike

namespace Matches

variable {wrap : ν → Node}

theorem visitChild {name : String} {children children' : List Node} {i : Nat} {ask : Ask}
    {w w' : World σ κ} {failed failed' : Fault → List Node → World σ κ → Run σ κ ν}
    {next next' : NodeStatus → List Node → World σ κ → Routine σ κ ν}
    (below : List.Forall₂ Node.Alike children children') (world : w.Alike w')
    (stopped : ∀ e ns ns' v v', List.Forall₂ Node.Alike ns ns' → World.Alike v v' →
      Run.Alike (fun n m => (wrap n).Alike (wrap m)) (failed e ns v) (failed' e ns' v'))
    (continued : ∀ status ns ns' v v', List.Forall₂ Node.Alike ns ns' → World.Alike v v' →
      Matches wrap (next status ns v) (next' status ns' v')) :
    Matches wrap (visitChild name children i ask w failed next)
      (DecisionDsl.visitChild name children' i ask w' failed' next') := by
  unfold DecisionDsl.visitChild
  have child := siblings_getElem? below i
  generalize children[i]? = old at child ⊢
  generalize children'[i]? = new at child ⊢
  cases child with
  | none => exact .ret (stopped _ _ _ _ _ below (world.enter name i))
  | some alike =>
      apply Body.Follows.call ⟨rfl, alike, world.enter name i⟩
      intro a a' answered
      have set := siblings_set below i answered.node
      rw [answered.result]
      cases a.result with
      | error e => exact .ret (stopped _ _ _ _ _ set answered.world)
      | ok status => exact continued _ _ _ _ _ set (answered.world.exit name status)

end Matches

theorem selectorSucceeded_context (n : SelectorNode Node) (i : Nat) (w : World σ κ) :
    (selectorSucceeded n i w).world = w.withTracer (selectorSucceeded n i w).world.tracer := by
  cases rule : n.ruleName <;> simp only [selectorSucceeded, rule, World.withTracer]

theorem selectorSucceeded_alike {n m : SelectorNode Node} {w w' : World σ κ}
    (alike : (Node.selector n).Alike (.selector m)) (world : w.Alike w') (i : Nat) :
    Run.Alike (fun n m => (Node.selector n).Alike (.selector m)) (selectorSucceeded n i w)
      (selectorSucceeded m i w') := by
  constructor
  · rw [(selectorSucceeded_leaves n i w).1, (selectorSucceeded_leaves m i w').1]
  · obtain ⟨name, children, activeChild, ruleName, rulePriority, matched⟩ := n
    cases alike with
    | selector _ below =>
        cases ruleName with
        | none => exact .selector ⟨name, children, none, none, rulePriority, matched⟩ below rfl
        | some ruleName =>
            exact .selector ⟨name, children, none, some ruleName, rulePriority, true⟩ below rfl
  · rw [selectorSucceeded_context n i w, selectorSucceeded_context m i w']
    apply world.retrace
    · exact (selectorSucceeded_traced n i w (.selector n)).pathStack
    · exact (selectorSucceeded_keeps n i w).runningPath
    · exact (selectorSucceeded_traced m i w' (.selector m)).pathStack
    · exact (selectorSucceeded_keeps m i w').runningPath

theorem selectorLoop_matches (visits : List (Nat × Ask)) {n m : SelectorNode Node} {w w' : World σ κ}
    (alike : (Node.selector n).Alike (.selector m)) (world : w.Alike w') :
    Matches .selector (selectorLoop visits n w) (selectorLoop visits m w') := by
  induction visits generalizing n m w w' with
  | nil =>
      cases alike with
      | selector _ below => exact .ret ⟨rfl, .selector { n with activeChild := none } below rfl, world⟩
  | cons visit rest ih =>
      cases alike with
      | @selector _ children activeChild matched below place =>
          have with_children {ns ns' : List Node} (below' : List.Forall₂ Node.Alike ns ns') :
              (Node.selector { n with children := ns }).Alike
                (.selector { n with children := ns', activeChild, matched }) :=
            .selector { n with children := ns } below' place
          apply Matches.visitChild below world
          · intro e ns ns' v v' below' world'
            exact ⟨rfl, with_children below', world'⟩
          · intro status ns ns' v v' below' world'
            cases status with
            | success => exact .ret (selectorSucceeded_alike (with_children below') world' _)
            | running =>
                exact .ret ⟨rfl, .selector { n with children := ns, activeChild := some visit.1 } below' rfl,
                  world'⟩
            | failure => exact ih (with_children below') world'

theorem sequenceLoop_matches (visits : List (Nat × Ask)) {n m : SequenceNode Node} {w w' : World σ κ}
    (alike : (Node.sequence n).Alike (.sequence m)) (world : w.Alike w') :
    Matches .sequence (sequenceLoop visits n w) (sequenceLoop visits m w') := by
  induction visits generalizing n m w w' with
  | nil =>
      cases alike with
      | sequence _ below => exact .ret ⟨rfl, .sequence { n with activeChild := none } below rfl, world⟩
  | cons visit rest ih =>
      cases alike with
      | @sequence _ children activeChild below place =>
          have with_children {ns ns' : List Node} (below' : List.Forall₂ Node.Alike ns ns') :
              (Node.sequence { n with children := ns }).Alike
                (.sequence { n with children := ns', activeChild }) :=
            .sequence { n with children := ns } below' place
          apply Matches.visitChild below world
          · intro e ns ns' v v' below' world'
            exact ⟨rfl, with_children below', world'⟩
          · intro status ns ns' v v' below' world'
            cases status with
            | success => exact ih (with_children below') world'
            | running =>
                exact .ret ⟨rfl, .sequence { n with children := ns, activeChild := some visit.1 } below' rfl,
                  world'⟩
            | failure =>
                exact .ret ⟨rfl, .sequence { n with children := ns, activeChild := none } below' rfl, world'⟩

theorem parallelLoop_matches (visits : List (Nat × Ask)) {s f k : Nat} {n m : ParallelNode Node}
    {w w' : World σ κ} (alike : (Node.parallel n).Alike (.parallel m)) (world : w.Alike w') :
    Matches .parallel (parallelLoop visits s f k n w) (parallelLoop visits s f k m w') := by
  induction visits generalizing s f k n m w w' with
  | nil =>
      cases alike with
      | parallel _ below =>
          apply Body.Follows.ret
          constructor
          · rw [below.length_eq]
          · exact .parallel { n with activeChild := none } below
          · exact world
  | cons visit rest ih =>
      cases alike with
      | @parallel _ children activeChild below =>
          have with_children {ns ns' : List Node} (below' : List.Forall₂ Node.Alike ns ns') :
              (Node.parallel { n with children := ns }).Alike
                (.parallel { n with children := ns', activeChild }) :=
            .parallel { n with children := ns } below'
          apply Matches.visitChild below world
          · intro e ns ns' v v' below' world'
            exact ⟨rfl, with_children below', world'⟩
          · intro status ns ns' v v' below' world'
            cases status with
            | success => exact ih (with_children below') world'
            | failure => exact ih (with_children below') world'
            | running => exact ih (with_children below') world'

theorem parallelWith_matches (asks : Nat → Ask) {n m : ParallelNode Node} {w w' : World σ κ}
    (alike : (Node.parallel n).Alike (.parallel m)) (world : w.Alike w') :
    Matches .parallel (parallelWith asks n w) (parallelWith asks m w') := by
  have loop := parallelLoop_matches ((List.range n.children.length).map fun i => (i, asks i))
    (s := 0) (f := 0) (k := 0) alike world
  cases alike with
  | parallel _ below =>
      unfold parallelWith
      rw [← below.length_eq]
      split
      · exact .ret ⟨rfl, .parallel { n with activeChild := none } below, world⟩
      · exact loop

/-! ## Decorators -/

theorem World.Alike.eq {w w' : World σ κ} (alike : w.Alike w') : w' = w.withTracer w'.tracer := by
  obtain ⟨context', tracer'⟩ := w'
  obtain rfl : context' = w.toTickContext := alike.context
  rfl

/-- One call, after which the context is the same. -/
theorem Matches.call {wrap : ν → Node} {ask : Ask} {child child' : Node} {w w' : World σ κ}
    {next next' : Answer σ κ → Routine σ κ ν} (below : child.Alike child') (world : w.Alike w')
    (rest : ∀ (a : Answer σ κ) (node' : Node) (t : Tracer), a.node.Alike node' →
      a.world.Alike (a.world.withTracer t) →
      Matches wrap (next a) (next' ⟨a.result, node', a.world.withTracer t⟩)) :
    Matches wrap (.call ⟨ask, child, w⟩ next) (.call ⟨ask, child', w'⟩ next') := by
  apply Body.Follows.call ⟨rfl, below, world⟩
  intro a a' answered
  obtain ⟨result', node', world'⟩ := a'
  obtain rfl : result' = a.result := answered.result
  have same : world' = a.world.withTracer world'.tracer := answered.world.eq
  rw [same]
  exact rest a node' world'.tracer answered.node (same ▸ answered.world)

theorem inverterWith_matches (ask : Ask) {n m : InverterNode Node} {w w' : World σ κ}
    (alike : (Node.inverter n).Alike (.inverter m)) (world : w.Alike w') :
    Matches .inverter (inverterWith ask n w) (inverterWith ask m w') := by
  cases alike with
  | inverter _ below =>
      apply Matches.call below world
      intro a node' t below' world'
      exact .ret ⟨rfl, .inverter { n with child := a.node } below', world'⟩

theorem forceHumanWith_matches (ask : Ask) {n m : ForceHumanNode Node} {w w' : World σ κ}
    (alike : (Node.forceHuman n).Alike (.forceHuman m)) (world : w.Alike w') :
    Matches .forceHuman (forceHumanWith ask n w) (forceHumanWith ask m w') := by
  cases alike with
  | forceHuman _ below =>
      apply Matches.call below world
      intro a node' t below' world'
      have node : (Node.forceHuman { n with child := a.node }).Alike
          (.forceHuman { n with child := node' }) := .forceHuman { n with child := a.node } below'
      by_cases success : a.result = .ok .success
      · simp only [success, if_true]
        exact .ret ⟨rfl, node, rfl, world'.pathStack, world'.runningPath⟩
      · simp only [success, if_false]
        exact .ret ⟨rfl, node, world'⟩

theorem reflectionGuardWith_matches (ask : Ask) {n m : ReflectionGuardNode Node} {w w' : World σ κ}
    (alike : (Node.reflectionGuard n).Alike (.reflectionGuard m)) (world : w.Alike w') :
    Matches .reflectionGuard (reflectionGuardWith ask n w) (reflectionGuardWith ask m w') := by
  cases alike with
  | reflectionGuard _ below =>
      unfold reflectionGuardWith
      rw [world.eq]
      by_cases reached : w.blackboard.reflectionRound ≥ n.maxRounds
      · simp only [World.withTracer, reached, if_true]
        exact .ret ⟨rfl, .reflectionGuard n below, rfl, world.pathStack, world.runningPath⟩
      · simp only [World.withTracer, reached, if_false]
        have traced : w.Alike (w.withTracer w'.tracer) := ⟨rfl, world.pathStack, world.runningPath⟩
        apply Matches.call below traced
        intro a node' t below' world'
        have node : (Node.reflectionGuard { n with child := a.node }).Alike
            (.reflectionGuard { n with child := node' }) :=
          .reflectionGuard { n with child := a.node } below'
        by_cases success : a.result = .ok .success
        · simp only [World.withTracer, success, if_true]
          by_cases full : a.world.blackboard.reflectionRound.toNat + 1 = UInt8.size
          · simp only [full, if_true]
            exact .ret ⟨rfl, node, world'⟩
          · simp only [full, if_false]
            exact .ret ⟨rfl, node, rfl, world'.pathStack, world'.runningPath⟩
        · simp only [World.withTracer, success, if_false]
          exact .ret ⟨rfl, node, world'⟩

theorem repeaterLoop_matches (asks : List Ask) {n m : RepeaterNode Node} {w w' : World σ κ}
    (alike : (Node.repeater n).Alike (.repeater m)) (world : w.Alike w') :
    Matches .repeater (repeaterLoop asks n w) (repeaterLoop asks m w') := by
  induction asks generalizing n m w w' with
  | nil =>
      cases alike with
      | repeater _ below => exact .ret ⟨rfl, .repeater { n with current := 0 } below, world⟩
  | cons ask rest ih =>
      cases alike with
      | repeater _ below =>
          apply Matches.call below world
          intro a node' t below' world'
          have counted (status : NodeStatus) : Matches .repeater
              (repeaterCount { n with child := a.node } status a.world (repeaterLoop rest))
              (repeaterCount { n with child := node' } status (a.world.withTracer t)
                (repeaterLoop rest)) := by
            unfold repeaterCount
            by_cases full : n.current.toNat + 1 = UInt32.size
            · simp only [full, if_true]
              exact .ret ⟨rfl, .repeater { n with child := a.node } below', world'⟩
            · simp only [full, if_false]
              by_cases spent : n.current + 1 ≥ n.maxAttempts
              · simp only [spent, if_true]
                exact .ret ⟨rfl, .repeater { n with child := a.node, current := 0 } below', world'⟩
              · simp only [spent, if_false]
                exact ih (.repeater { n with child := a.node, current := n.current + 1 } below') world'
          unfold repeaterAttempt
          cases a.result with
          | error e => exact .ret ⟨rfl, .repeater { n with child := a.node } below', world'⟩
          | ok status =>
              cases status with
              | success => exact counted .success
              | failure => exact counted .failure
              | running => exact .ret ⟨rfl, .repeater { n with child := a.node } below', world'⟩

theorem subTreeWith_matches (ask : Ask) {n m : SubTreeNode Node} {w w' : World σ κ}
    (alike : (Node.subTree n).Alike (.subTree m)) (world : w.Alike w') :
    Matches .subTree (subTreeWith ask n w) (subTreeWith ask m w') := by
  unfold subTreeWith
  rw [world.eq]
  simp only [World.withTracer, World.withBlackboard]
  cases alike with
  | unresolved name refName =>
      cases w.blackboard.pushScope with
      | error e => exact .ret ⟨rfl, .unresolved name refName, rfl, world.pathStack, world.runningPath⟩
      | ok blackboard =>
          exact .ret ⟨rfl, .unresolved name refName, rfl, world.pathStack, world.runningPath⟩
  | subTree name refName below =>
      cases w.blackboard.pushScope with
      | error e => exact .ret ⟨rfl, .subTree name refName below, rfl, world.pathStack, world.runningPath⟩
      | ok blackboard =>
          have entered : World.Alike ⟨{ w.toTickContext with blackboard }, w.tracer.enterSubTree name refName⟩
              ⟨{ w.toTickContext with blackboard }, w'.tracer.enterSubTree name refName⟩ :=
            ⟨rfl, world.pathStack, world.runningPath⟩
          dsimp only
          apply Matches.call below entered
          intro a node' t below' world'
          cases a.result with
          | error e => exact .ret ⟨rfl, .subTree name refName below', world'⟩
          | ok status =>
              exact .ret ⟨rfl, .subTree name refName below', rfl, world'.pathStack, world'.runningPath⟩

section

variable [Clock κ]

theorem cooldownClosed_withTracer (n : CooldownNode Node) (child : Node) (w : World σ κ) (t : Tracer) :
    cooldownClosed { n with child } (w.withTracer t) =
      ((cooldownClosed n w).1, (cooldownClosed n w).2.withTracer t) := by
  obtain ⟨name, durationMs, old, lastSuccess⟩ := n
  cases lastSuccess <;> rfl

theorem cooldownClosed_tracer (n : CooldownNode Node) (w : World σ κ) :
    (cooldownClosed n w).2.tracer = w.tracer := by
  unfold cooldownClosed
  split <;> rfl

theorem cooldownWith_matches (ask : Ask) {n m : CooldownNode Node} {w w' : World σ κ}
    (alike : (Node.cooldown n).Alike (.cooldown m)) (world : w.Alike w') :
    Matches .cooldown (cooldownWith ask n w) (cooldownWith ask m w') := by
  cases alike with
  | @cooldown _ child below =>
      have tracer := cooldownClosed_tracer n w
      unfold cooldownWith
      rw [world.eq, cooldownClosed_withTracer]
      generalize cooldownClosed n w = checked at tracer ⊢
      obtain ⟨closed, v⟩ := checked
      have checked : v.Alike (v.withTracer w'.tracer) := by
        constructor
        · rfl
        · exact world.pathStack.trans (congrArg Tracer.pathStack tracer).symm
        · exact world.runningPath.trans (congrArg Tracer.runningPath tracer).symm
      cases closed with
      | true => exact .ret ⟨rfl, .cooldown n below, checked⟩
      | false =>
          apply Matches.call below checked
          intro a node' t below' world'
          by_cases success : a.result = .ok .success
          · simp only [success, if_true]
            exact .ret ⟨rfl, .cooldown { n with child := a.node, lastSuccess := some a.world.now.1 } below',
              rfl, world'.pathStack, world'.runningPath⟩
          · simp only [success, if_false]
            exact .ret ⟨rfl, .cooldown { n with child := a.node } below', world'⟩

end

section

variable [Crates]

theorem whenWith_matches (ask : Ask) {n m : WhenNode Node} {w w' : World σ κ}
    (alike : (Node.when n).Alike (.when m)) (world : w.Alike w') :
    Matches .when (whenWith ask n w) (whenWith ask m w') := by
  cases alike with
  | when _ below =>
      unfold whenWith
      rw [world.eq]
      simp only [World.withTracer]
      cases n.condition.evaluate w.blackboard with
      | error e => exact .ret ⟨rfl, .when n below, rfl, world.pathStack, world.runningPath⟩
      | ok holds =>
          cases holds with
          | false => exact .ret ⟨rfl, .when n below, rfl, world.pathStack, world.runningPath⟩
          | true =>
              have traced : w.Alike (w.withTracer w'.tracer) := ⟨rfl, world.pathStack, world.runningPath⟩
              apply Matches.call below traced
              intro a node' t below' world'
              exact .ret ⟨rfl, .when { n with action := a.node } below', world'⟩

/-! ## Leaves -/

theorem tickCondition_alike (n : ConditionNode) {w w' : World σ κ} (world : w.Alike w') :
    Run.Alike (fun n m => (Node.condition n).Alike (.condition m)) (tickCondition n w)
      (tickCondition n w') := by
  rw [world.eq, tickCondition, tickCondition]
  simp only [World.withTracer]
  split <;> exact ⟨rfl, .condition n, rfl, world.pathStack, world.runningPath⟩

theorem emitCommand_alike (n : ActionNode) {w w' : World σ κ} (world : w.Alike w') :
    Run.Alike (fun n m => (Node.action n).Alike (.action m)) (emitCommand n w) (emitCommand n w') := by
  rw [world.eq, emitCommand, emitCommand]
  simp only [World.withTracer]
  split <;> exact ⟨rfl, .action n, rfl, world.pathStack, world.runningPath⟩

theorem tickAction_alike (n : ActionNode) {w w' : World σ κ} (world : w.Alike w') :
    Run.Alike (fun n m => (Node.action n).Alike (.action m)) (tickAction n w) (tickAction n w') := by
  have emits := emitCommand_alike n world
  rw [world.eq] at emits ⊢
  rw [tickAction, tickAction]
  cases n.when with
  | none => exact emits
  | some evaluator =>
      simp only [World.withTracer]
      split
      · exact ⟨rfl, .action n, rfl, world.pathStack, world.runningPath⟩
      · exact ⟨rfl, .action n, rfl, world.pathStack, world.runningPath⟩
      · exact emits

theorem consumeReply_alike (n : PromptNode) (reply : String) {w w' : World σ κ} (world : w.Alike w') :
    Run.Alike (fun n m => (Node.prompt n).Alike (.prompt m)) (consumeReply n reply w)
      (consumeReply n reply w') := by
  rw [world.eq, consumeReply, consumeReply]
  simp only [World.withTracer]
  split <;> exact ⟨rfl, .refl _, rfl, world.pathStack, world.runningPath⟩

section

variable [Session σ] [Clock κ]

omit [Crates] [Session σ] in
theorem promptTimedOut_withTracer (n : PromptNode) (w : World σ κ) (t : Tracer) :
    promptTimedOut n (w.withTracer t) =
      ((promptTimedOut n w).1, (promptTimedOut n w).2.withTracer t) := by
  unfold promptTimedOut
  split <;> rfl

omit [Crates] [Session σ] in
theorem promptTimedOut_tracer (n : PromptNode) (w : World σ κ) :
    (promptTimedOut n w).2.tracer = w.tracer := by
  unfold promptTimedOut
  split <;> rfl

theorem awaitReply_alike (n : PromptNode) {w w' : World σ κ} (world : w.Alike w') :
    Run.Alike (fun n m => (Node.prompt n).Alike (.prompt m)) (awaitReply n w) (awaitReply n w') := by
  have tracer := promptTimedOut_tracer n w
  unfold awaitReply
  rw [world.eq, promptTimedOut_withTracer]
  generalize promptTimedOut n w = timed at tracer ⊢
  obtain ⟨timedOut, v⟩ := timed
  have stack : w'.tracer.pathStack = v.tracer.pathStack := by rw [world.pathStack, tracer]
  have path : w'.tracer.runningPath = v.tracer.runningPath := by rw [world.runningPath, tracer]
  simp only [World.withTracer, World.withSession]
  split
  · exact ⟨rfl, .refl _, rfl, stack, path⟩
  · split
    · exact ⟨rfl, .refl _, rfl, stack, path⟩
    · split
      · exact ⟨rfl, .refl _, rfl, stack, path⟩
      · exact consumeReply_alike n _ ⟨rfl, stack, path⟩

theorem sendPrompt_alike (n : PromptNode) {sentAt : Option Nat}
    (waits : n.pending = true → sentAt = n.sentAt) {w w' : World σ κ} (world : w.Alike w') :
    Run.Alike (fun n m => (Node.prompt n).Alike (.prompt m)) (sendPrompt n w)
      (sendPrompt { n with sentAt } w') := by
  rw [world.eq, sendPrompt, sendPrompt]
  simp only [World.withTracer, World.withSession]
  split
  · exact ⟨rfl, .prompt n waits, rfl, world.pathStack, world.runningPath⟩
  · split
    · exact ⟨rfl, .prompt n waits, rfl, world.pathStack, world.runningPath⟩
    · exact ⟨rfl, .refl _, rfl, world.pathStack, world.runningPath⟩

theorem tickPrompt_alike {n m : PromptNode} {w w' : World σ κ}
    (alike : (Node.prompt n).Alike (.prompt m)) (world : w.Alike w') :
    Run.Alike (fun n m => (Node.prompt n).Alike (.prompt m)) (tickPrompt n w) (tickPrompt m w') := by
  cases alike with
  | prompt _ waits =>
      unfold tickPrompt
      by_cases pending : n.pending = true
      · rw [if_pos pending, if_pos pending, waits pending]
        exact awaitReply_alike n world
      · rw [if_neg pending, if_neg pending]
        exact sendPrompt_alike n waits world

/-! ## Ticks -/

omit [Crates] [Session σ] [Clock κ] in
/-- What is shown of records holds of the nodes that they are the records of. -/
theorem Matches.wrap {wrap : ν → Node} {body body' : Routine σ κ ν} (matched : Matches wrap body body') :
    Matches id (body.map (.map wrap)) (body'.map (.map wrap)) := by
  apply Body.Follows.map
  exact matched.mono (fun _ _ alike => ⟨alike.result, alike.node, alike.world⟩) fun _ => id

theorem tickBody_matches {n m : Node} {w w' : World σ κ} (alike : n.Alike m) (world : w.Alike w') :
    Matches id (tickBody n w) (tickBody m w') := by
  cases alike with
  | selector n below place =>
      simp only [tickBody, tickSelector, place, ← below.length_eq]
      exact (selectorLoop_matches _ (.selector n below place) world).wrap
  | sequence n below place =>
      simp only [tickBody, tickSequence, place, ← below.length_eq]
      exact (sequenceLoop_matches _ (.sequence n below place) world).wrap
  | parallel n below => exact (parallelWith_matches _ (.parallel n below) world).wrap
  | inverter n below => exact (inverterWith_matches _ (.inverter n below) world).wrap
  | repeater n below =>
      apply Matches.wrap
      unfold tickRepeater
      split
      · exact .ret ⟨rfl, .repeater n below, world⟩
      · exact repeaterLoop_matches _ (.repeater n below) world
  | cooldown n below => exact (cooldownWith_matches _ (.cooldown n below) world).wrap
  | reflectionGuard n below =>
      exact (reflectionGuardWith_matches _ (.reflectionGuard n below) world).wrap
  | forceHuman n below => exact (forceHumanWith_matches _ (.forceHuman n below) world).wrap
  | when n below => exact (whenWith_matches _ (.when n below) world).wrap
  | condition n =>
      have leaf := tickCondition_alike n world
      exact .ret ⟨leaf.result, leaf.node, leaf.world⟩
  | action n =>
      have leaf := tickAction_alike n world
      exact .ret ⟨leaf.result, leaf.node, leaf.world⟩
  | prompt n waits =>
      have leaf := tickPrompt_alike (.prompt n waits) world
      exact .ret ⟨leaf.result, leaf.node, leaf.world⟩
  | setVar n =>
      rw [world.eq]
      exact .ret ⟨rfl, .setVar n, rfl, world.pathStack, world.runningPath⟩
  | unresolved name refName => exact (subTreeWith_matches _ (.unresolved name refName) world).wrap
  | subTree name refName below =>
      exact (subTreeWith_matches _ (.subTree name refName below) world).wrap

theorem resumeAtBody_matches (path : List Nat) (depth : Nat) {n m : Node} {w w' : World σ κ}
    (alike : n.Alike m) (world : w.Alike w') :
    Matches id (resumeAtBody path depth n w) (resumeAtBody path depth m w') := by
  have ticked := tickBody_matches alike world
  unfold resumeAtBody
  by_cases done : depth ≥ path.length
  · rw [if_pos done, if_pos done]
    exact ticked
  · rw [if_neg done, if_neg done]
    cases alike with
    | selector n below place =>
        apply Matches.wrap
        unfold resumeSelector
        rw [← below.length_eq]
        cases path[depth]? with
        | none => exact .ret ⟨rfl, .selector n below place, world⟩
        | some i => exact selectorLoop_matches _ (.selector n below place) world
    | sequence n below place =>
        apply Matches.wrap
        unfold resumeSequence
        rw [← below.length_eq]
        cases path[depth]? with
        | none => exact .ret ⟨rfl, .sequence n below place, world⟩
        | some i => exact sequenceLoop_matches _ (.sequence n below place) world
    | parallel n below => exact (parallelWith_matches _ (.parallel n below) world).wrap
    | inverter n below => exact (inverterWith_matches _ (.inverter n below) world).wrap
    | repeater n below =>
        apply Matches.wrap
        unfold resumeRepeater
        split
        · exact .ret ⟨rfl, .repeater n below, world⟩
        · exact repeaterLoop_matches _ (.repeater n below) world
    | cooldown n below => exact (cooldownWith_matches _ (.cooldown n below) world).wrap
    | reflectionGuard n below =>
        exact (reflectionGuardWith_matches _ (.reflectionGuard n below) world).wrap
    | forceHuman n below => exact (forceHumanWith_matches _ (.forceHuman n below) world).wrap
    | when n below => exact (whenWith_matches _ (.when n below) world).wrap
    | condition | action | prompt | setVar => exact ticked
    | unresolved name refName => exact (subTreeWith_matches _ (.unresolved name refName) world).wrap
    | subTree name refName below =>
        exact (subTreeWith_matches _ (.subTree name refName below) world).wrap

theorem requestBody_matches {q q' : Request σ κ} (alike : q.Alike q') :
    Matches id (requestBody q) (requestBody q') := by
  obtain ⟨ask, n, w⟩ := q
  obtain ⟨ask', n', w'⟩ := q'
  obtain rfl : ask' = ask := alike.ask
  cases ask' with
  | tick => exact tickBody_matches alike.node alike.world
  | resumeAt path depth => exact resumeAtBody_matches path depth alike.node alike.world

/-- Requests to alike trees are answered alike. -/
theorem solve_alike {q q' : Request σ κ} (alike : q.Alike q') :
    Run.Alike Node.Alike (interpreter.solve q) (interpreter.solve q') := by
  refine interpreter.induct (motive := fun q : Request σ κ => ∀ q', q.Alike q' →
    Run.Alike Node.Alike (interpreter.solve q) (interpreter.solve q')) (fun q ih q' alike => ?_) q q' alike
  have follows := requestBody_matches alike
  rw [interpreter_solve, interpreter_solve q']
  have answers := Body.Follows.run follows fun q₁ called q₂ asked => ih q₁ called q₂ asked
  exact answers.resolve_right id

/-! ## Executors -/

/-- The same status and commands are returned, and what is left is alike. -/
structure Ticked.Alike (t t' : Ticked σ κ) : Prop where
  decided : t'.result.map (fun r => (r.status, r.commands)) = t.result.map fun r => (r.status, r.commands)
  executor : t'.executor = t.executor
  root : t.root.Alike t'.root
  ctx : t'.ctx = t.ctx

/-- One executor on alike trees. -/
theorem Executor.tick_alike (ex : Executor) {n m : Node} (alike : n.Alike m) (ctx : TickContext σ κ) :
    (ex.tick n ctx).Alike (ex.tick m ctx) := by
  have request : (ex.request n ctx).Alike (ex.request m ctx) := ⟨rfl, alike, rfl, rfl, rfl⟩
  obtain ⟨result, node, world⟩ := solve_alike request
  unfold Executor.tick Executor.finish
  generalize interpreter.solve (ex.request n ctx) = r at result node world ⊢
  generalize interpreter.solve (ex.request m ctx) = r' at result node world ⊢
  rw [result]
  cases r.result with
  | error e => exact ⟨rfl, rfl, node, world.context⟩
  | ok status =>
      have blackboard : r'.world.blackboard = r.world.blackboard :=
        congrArg TickContext.blackboard world.context
      have next : Executor.next status r'.world.tracer = Executor.next status r.world.tracer := by
        rw [Executor.next, Executor.next, world.runningPath]
      constructor
      · exact congrArg (fun bb : Blackboard => Except.ok (status, bb.commands)) blackboard
      · exact next
      · exact node
      · simp only [Blackboard.drainCommands, world.context]

end

end

end AgileAgent.DecisionDsl
