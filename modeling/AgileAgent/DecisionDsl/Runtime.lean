import AgileAgent.CallTree
import AgileAgent.DecisionDsl.Template
import AgileAgent.DecisionDsl.Tracer

/-! # The interpreter

`Node::tick` and `Node::resume_at` with the routines of the fourteen node kinds.
Both functions and all their helpers recurse through each other, so each routine
is a `CallTree.Body`: a call of `children[i].tick` or `children[i].resume_at` is
a request, and the interpreter is the procedure that answers the requests.

A routine returns the mutated node and world also when it fails: what a failing
call has done to its arguments stays done.
-/

namespace AgileAgent.DecisionDsl

open CallTree

/-- `TickContext`, less the logger, which the interpreter never uses. -/
structure TickContext (σ κ : Type) where
  blackboard : Blackboard
  session : σ
  clock : κ

/-- Everything a routine mutates besides its node. -/
structure World (σ κ : Type) extends TickContext σ κ where
  tracer : Tracer

/-- Which of the two entry points is called. -/
inductive Ask where
  | tick
  | resumeAt (path : List Nat) (depth : Nat)
  deriving Repr, DecidableEq

structure Request (σ κ : Type) where
  ask : Ask
  node : Node
  world : World σ κ

/-- What a call returns and what it leaves behind. -/
structure Run (σ κ ν : Type) where
  result : Except Fault NodeStatus
  node : ν
  world : World σ κ

abbrev Answer (σ κ : Type) := Run σ κ Node

/-- A routine on a node record of type `ν`. -/
abbrev Routine (σ κ ν : Type) := Body (Request σ κ) (Answer σ κ) (Run σ κ ν)

variable {σ κ ν μ : Type}

/-- Rewrap the node of a run. -/
def Run.map (f : ν → μ) (r : Run σ κ ν) : Run σ κ μ := ⟨r.result, f r.node, r.world⟩

namespace World

def enter (w : World σ κ) (name : String) (i : Nat) : World σ κ :=
  { w with tracer := w.tracer.enter name i }

def exit (w : World σ κ) (name : String) (status : NodeStatus) : World σ κ :=
  { w with tracer := w.tracer.exit name status }

def withBlackboard (w : World σ κ) (blackboard : Blackboard) : World σ κ := { w with blackboard }

def withTracer (w : World σ κ) (tracer : Tracer) : World σ κ := { w with tracer }

def withSession (w : World σ κ) (session : σ) : World σ κ := { w with session }

/-- Read the clock. -/
def now [Clock κ] (w : World σ κ) : Nat × World σ κ :=
  let (instant, clock) := Clock.now w.clock
  (instant, { w with clock })

end World

/-! ## Composites -/

/-- The loop `for i in start..stop`, in which every child is ticked. -/
def ticks (start stop : Nat) : List (Nat × Ask) :=
  (List.range' start (stop - start)).map (·, Ask.tick)

/-- One turn of a composite's loop: enter, call child `i`, leave on an error,
    exit, continue with the status. -/
def visitChild (name : String) (children : List Node) (i : Nat) (ask : Ask) (w : World σ κ)
    (failed : Fault → List Node → World σ κ → Run σ κ ν)
    (next : NodeStatus → List Node → World σ κ → Routine σ κ ν) : Routine σ κ ν :=
  match children[i]? with
  | none => .ret (failed .panic children (w.enter name i))
  | some child => .call ⟨ask, child, w.enter name i⟩ fun r =>
      match r.result with
      | .error e => .ret (failed e (children.set i r.node) r.world)
      | .ok status => next status (children.set i r.node) (r.world.exit name status)

/-- Child `i` of a selector succeeded: report a matched rule and the skipped ones. -/
def selectorSucceeded (node : SelectorNode Node) (i : Nat) (w : World σ κ) :
    Run σ κ (SelectorNode Node) :=
  let node := { node with activeChild := none }
  match node.ruleName with
  | none => ⟨.ok .success, node, w⟩
  | some ruleName =>
      let matchedTracer := if node.matched then w.tracer
        else w.tracer.recordRuleMatched ruleName (node.rulePriority.getD 0)
      let tracer := (List.range' (i + 1) (node.children.length - (i + 1))).foldl
        (fun t _ => t.recordRuleSkipped ruleName "lower priority rule not evaluated") matchedTracer
      ⟨.ok .success, { node with matched := true }, { w with tracer }⟩

def selectorLoop :
    List (Nat × Ask) → SelectorNode Node → World σ κ → Routine σ κ (SelectorNode Node)
  | [], node, w => .ret ⟨.ok .failure, { node with activeChild := none }, w⟩
  | (i, ask) :: rest, node, w =>
      visitChild node.name node.children i ask w
        (fun e children w => ⟨.error e, { node with children }, w⟩)
        fun status children w =>
          let node := { node with children }
          match status with
          | .success => .ret (selectorSucceeded node i w)
          | .running => .ret ⟨.ok .running, { node with activeChild := some i }, w⟩
          | .failure => selectorLoop rest node w

def tickSelector (node : SelectorNode Node) (w : World σ κ) : Routine σ κ (SelectorNode Node) :=
  selectorLoop (ticks (node.activeChild.getD 0) node.children.length) node w

/-- The call the child on the path gets from `resume_selector` and `resume_sequence`. -/
def resumedChild (path : List Nat) (depth : Nat) : Ask :=
  if depth + 1 ≥ path.length then .tick else .resumeAt path (depth + 1)

def resumeSelector (node : SelectorNode Node) (path : List Nat) (depth : Nat) (w : World σ κ) :
    Routine σ κ (SelectorNode Node) :=
  match path[depth]? with
  | none => .ret ⟨.error .panic, node, w⟩
  | some childIdx => selectorLoop
      ((childIdx, resumedChild path depth) :: ticks (childIdx + 1) node.children.length) node w

def sequenceLoop :
    List (Nat × Ask) → SequenceNode Node → World σ κ → Routine σ κ (SequenceNode Node)
  | [], node, w => .ret ⟨.ok .success, { node with activeChild := none }, w⟩
  | (i, ask) :: rest, node, w =>
      visitChild node.name node.children i ask w
        (fun e children w => ⟨.error e, { node with children }, w⟩)
        fun status children w =>
          let node := { node with children }
          match status with
          | .success => sequenceLoop rest node w
          | .running => .ret ⟨.ok .running, { node with activeChild := some i }, w⟩
          | .failure => .ret ⟨.ok .failure, { node with activeChild := none }, w⟩

def tickSequence (node : SequenceNode Node) (w : World σ κ) : Routine σ κ (SequenceNode Node) :=
  sequenceLoop (ticks (node.activeChild.getD 0) node.children.length) node w

def resumeSequence (node : SequenceNode Node) (path : List Nat) (depth : Nat) (w : World σ κ) :
    Routine σ κ (SequenceNode Node) :=
  match path[depth]? with
  | none => .ret ⟨.error .panic, node, w⟩
  | some childIdx => sequenceLoop
      ((childIdx, resumedChild path depth) :: ticks (childIdx + 1) node.children.length) node w

/-- The status of a parallel node without children. -/
def ParallelPolicy.emptyVerdict : ParallelPolicy → NodeStatus
  | .allSuccess => .success
  | .anySuccess => .failure
  | .majority => .failure

/-- The status of a parallel node whose `total` children returned these counts. -/
def ParallelPolicy.verdict (policy : ParallelPolicy) (total successes failures running : Nat) :
    NodeStatus :=
  match policy with
  | .allSuccess =>
      if successes = total then .success
      else if failures > 0 then .failure
      else if running > 0 then .running
      else .failure
  | .anySuccess =>
      if successes > 0 then .success
      else if failures = total then .failure
      else if running > 0 then .running
      else .failure
  | .majority =>
      let threshold := total / 2 + 1
      if successes ≥ threshold then .success
      else if failures > total / 2 then .failure
      else if running > 0 then .running
      else .failure

def parallelLoop : List (Nat × Ask) → Nat → Nat → Nat → ParallelNode Node → World σ κ →
    Routine σ κ (ParallelNode Node)
  | [], successes, failures, running, node, w =>
      .ret ⟨.ok (node.policy.verdict node.children.length successes failures running),
        { node with activeChild := none }, w⟩
  | (i, ask) :: rest, successes, failures, running, node, w =>
      visitChild node.name node.children i ask w
        (fun e children w => ⟨.error e, { node with children }, w⟩)
        fun status children w =>
          let node := { node with children }
          match status with
          | .success => parallelLoop rest (successes + 1) failures running node w
          | .failure => parallelLoop rest successes (failures + 1) running node w
          | .running => parallelLoop rest successes failures (running + 1) node w

/-- The common text of `tick_parallel` and `resume_parallel`. -/
def parallelWith (asks : Nat → Ask) (node : ParallelNode Node) (w : World σ κ) :
    Routine σ κ (ParallelNode Node) :=
  if node.children.length = 0 then
    .ret ⟨.ok node.policy.emptyVerdict, { node with activeChild := none }, w⟩
  else parallelLoop ((List.range node.children.length).map fun i => (i, asks i)) 0 0 0 node w

def tickParallel (node : ParallelNode Node) (w : World σ κ) : Routine σ κ (ParallelNode Node) :=
  parallelWith (fun _ => .tick) node w

/-- The call child `i` gets from `resume_parallel`. -/
def resumedSibling (path : List Nat) (depth i : Nat) : Ask :=
  if i = (path[depth]?).getD 0 ∧ depth + 1 < path.length then .resumeAt path (depth + 1) else .tick

def resumeParallel (node : ParallelNode Node) (path : List Nat) (depth : Nat) (w : World σ κ) :
    Routine σ κ (ParallelNode Node) :=
  parallelWith (resumedSibling path depth) node w

/-! ## Decorators -/

/-- The status an inverter returns for its child's. -/
def NodeStatus.invert : NodeStatus → NodeStatus
  | .success => .failure
  | .failure => .success
  | .running => .running

def inverterWith (ask : Ask) (node : InverterNode Node) (w : World σ κ) :
    Routine σ κ (InverterNode Node) :=
  .call ⟨ask, node.child, w⟩ fun r =>
    .ret ⟨r.result.map NodeStatus.invert, { node with child := r.node }, r.world⟩

def tickInverter (node : InverterNode Node) (w : World σ κ) := inverterWith .tick node w

def resumeInverter (node : InverterNode Node) (path : List Nat) (depth : Nat) (w : World σ κ) :=
  inverterWith (.resumeAt path depth) node w

/-- An attempt of a repeater ended in `status`: count it, then stop or run `again`,
    the rest of the loop. -/
def repeaterCount (node : RepeaterNode Node) (status : NodeStatus) (w : World σ κ)
    (again : RepeaterNode Node → World σ κ → Routine σ κ (RepeaterNode Node)) :
    Routine σ κ (RepeaterNode Node) :=
  if node.current.toNat + 1 = UInt32.size then .ret ⟨.error .panic, node, w⟩
  else if node.current + 1 ≥ node.maxAttempts then .ret ⟨.ok status, { node with current := 0 }, w⟩
  else again { node with current := node.current + 1 } w

/-- The body of a repeater returned `r`. -/
def repeaterAttempt (node : RepeaterNode Node) (r : Answer σ κ)
    (again : RepeaterNode Node → World σ κ → Routine σ κ (RepeaterNode Node)) :
    Routine σ κ (RepeaterNode Node) :=
  match r.result with
  | .error e => .ret ⟨.error e, { node with child := r.node }, r.world⟩
  | .ok .success => repeaterCount { node with child := r.node } .success r.world again
  | .ok .running => .ret ⟨.ok .running, { node with child := r.node }, r.world⟩
  | .ok .failure => repeaterCount { node with child := r.node } .failure r.world again

/-- `while current < max_attempts`: one turn for each listed call. -/
def repeaterLoop : List Ask → RepeaterNode Node → World σ κ → Routine σ κ (RepeaterNode Node)
  | [], node, w => .ret ⟨.ok .success, { node with current := 0 }, w⟩
  | ask :: rest, node, w =>
      .call ⟨ask, node.child, w⟩ fun r => repeaterAttempt node r (repeaterLoop rest)

/-- Every turn adds one to `current`, so the loop has `max_attempts - current` turns. -/
def tickRepeater (node : RepeaterNode Node) (w : World σ κ) : Routine σ κ (RepeaterNode Node) :=
  if node.maxAttempts = 0 then .ret ⟨.ok .failure, node, w⟩
  else repeaterLoop (.replicate (node.maxAttempts.toNat - node.current.toNat) .tick) node w

/-- Resume the child without looking at `current`, then go on as `tick_repeater` does. -/
def resumeRepeater (node : RepeaterNode Node) (path : List Nat) (depth : Nat) (w : World σ κ) :
    Routine σ κ (RepeaterNode Node) :=
  if node.maxAttempts = 0 then .ret ⟨.ok .failure, node, w⟩
  else repeaterLoop (.resumeAt path depth ::
    .replicate (node.maxAttempts.toNat - (node.current.toNat + 1)) .tick) node w

section

variable [Clock κ]

/-- Whether a cooldown is still closed. The clock is read only after a success. -/
def cooldownClosed (node : CooldownNode ν) (w : World σ κ) : Bool × World σ κ :=
  match node.lastSuccess with
  | none => (false, w)
  | some last =>
      let (now, w) := w.now
      (decide (durationSince now last < fromMillis node.durationMs), w)

def cooldownWith (ask : Ask) (node : CooldownNode Node) (w : World σ κ) :
    Routine σ κ (CooldownNode Node) :=
  let (closed, w) := cooldownClosed node w
  if closed then .ret ⟨.ok .failure, node, w⟩
  else .call ⟨ask, node.child, w⟩ fun r =>
    let node := { node with child := r.node }
    if r.result = .ok .success then
      let (now, w) := r.world.now
      .ret ⟨r.result, { node with lastSuccess := some now }, w⟩
    else .ret ⟨r.result, node, r.world⟩

def tickCooldown (node : CooldownNode Node) (w : World σ κ) := cooldownWith .tick node w

def resumeCooldown (node : CooldownNode Node) (path : List Nat) (depth : Nat) (w : World σ κ) :=
  cooldownWith (.resumeAt path depth) node w

end

/-- `reflection_round += 1` on a `u8`, which panics on overflow. -/
def reflectionGuardWith (ask : Ask) (node : ReflectionGuardNode Node) (w : World σ κ) :
    Routine σ κ (ReflectionGuardNode Node) :=
  if w.blackboard.reflectionRound ≥ node.maxRounds then .ret ⟨.ok .failure, node, w⟩
  else .call ⟨ask, node.child, w⟩ fun r =>
    let node := { node with child := r.node }
    let round := r.world.blackboard.reflectionRound
    if r.result = .ok .success then
      if round.toNat + 1 = UInt8.size then .ret ⟨.error .panic, node, r.world⟩
      else .ret ⟨r.result, node,
        r.world.withBlackboard { r.world.blackboard with reflectionRound := round + 1 }⟩
    else .ret ⟨r.result, node, r.world⟩

def tickReflectionGuard (node : ReflectionGuardNode Node) (w : World σ κ) :=
  reflectionGuardWith .tick node w

def resumeReflectionGuard (node : ReflectionGuardNode Node) (path : List Nat) (depth : Nat)
    (w : World σ κ) := reflectionGuardWith (.resumeAt path depth) node w

def forceHumanWith (ask : Ask) (node : ForceHumanNode Node) (w : World σ κ) :
    Routine σ κ (ForceHumanNode Node) :=
  .call ⟨ask, node.child, w⟩ fun r =>
    let node := { node with child := r.node }
    if r.result = .ok .success then
      .ret ⟨r.result, node, r.world.withBlackboard
        (r.world.blackboard.pushCommand (.human (.escalate node.reason none)))⟩
    else .ret ⟨r.result, node, r.world⟩

def tickForceHuman (node : ForceHumanNode Node) (w : World σ κ) := forceHumanWith .tick node w

def resumeForceHuman (node : ForceHumanNode Node) (path : List Nat) (depth : Nat)
    (w : World σ κ) := forceHumanWith (.resumeAt path depth) node w

section

variable [Crates]

/-- The condition is checked again on every resume. -/
def whenWith (ask : Ask) (node : WhenNode Node) (w : World σ κ) : Routine σ κ (WhenNode Node) :=
  match node.condition.evaluate w.blackboard with
  | .error e => .ret ⟨.error (.error e), node, w⟩
  | .ok false => .ret ⟨.ok .failure, node, w⟩
  | .ok true => .call ⟨ask, node.action, w⟩ fun r =>
      .ret ⟨r.result, { node with action := r.node }, r.world⟩

def tickWhen (node : WhenNode Node) (w : World σ κ) := whenWith .tick node w

def resumeWhen (node : WhenNode Node) (path : List Nat) (depth : Nat) (w : World σ κ) :=
  whenWith (.resumeAt path depth) node w

/-! ## Leaves -/

def tickCondition (node : ConditionNode) (w : World σ κ) : Run σ κ ConditionNode :=
  match node.evaluator.evaluate w.blackboard with
  | .error e => ⟨.error (.error e), node, w⟩
  | .ok true => ⟨.ok .success, node, w⟩
  | .ok false => ⟨.ok .failure, node, w⟩

/-- Render the command and push it. -/
def emitCommand (node : ActionNode) (w : World σ κ) : Run σ κ ActionNode :=
  match renderCommandTemplates node.command w.blackboard with
  | .error e => ⟨.error e, node, w⟩
  | .ok rendered => ⟨.ok .success, node,
      { w with
        blackboard := w.blackboard.pushCommand rendered
        tracer := w.tracer.recordAction node.name rendered }⟩

def tickAction (node : ActionNode) (w : World σ κ) : Run σ κ ActionNode :=
  match node.when with
  | none => emitCommand node w
  | some evaluator =>
      match evaluator.evaluate w.blackboard with
      | .error e => ⟨.error (.error e), node, w⟩
      | .ok false => ⟨.ok .failure, node, w⟩
      | .ok true => emitCommand node w

/-- The prompt is no longer waiting for a reply. -/
def PromptNode.settle (node : PromptNode) : PromptNode := { node with pending := false, sentAt := none }

/-- Copy the parsed fields a prompt asks for into variables. -/
def applySets (values : ParsedValues) (sets : List SetMapping) (bb : Blackboard) : Blackboard :=
  sets.foldl (fun bb mapping =>
    match values.lookup mapping.field with
    | some value => bb.set mapping.key value
    | none => bb) bb

/-- A `__command` field is pushed as a command. -/
def pushParsedCommand (values : ParsedValues) (bb : Blackboard) : Blackboard :=
  match values.lookup "__command" with
  | some (.command command) => bb.pushCommand command
  | _ => bb

/-- A reply has been received. -/
def consumeReply (node : PromptNode) (reply : String) (w : World σ κ) : Run σ κ PromptNode :=
  let w := { w with
    blackboard := w.blackboard.storeLlmResponse node.name reply
    tracer := w.tracer.recordPromptSuccess node.name reply }
  match node.parser.parse reply with
  | .ok values => ⟨.ok .success, node.settle,
      w.withBlackboard (applySets values node.sets (pushParsedCommand values w.blackboard))⟩
  | .error e => ⟨.ok .failure, node.settle,
      w.withTracer (w.tracer.recordPromptFailure node.name e.display)⟩

section

variable [Session σ] [Clock κ]

/-- Whether a pending prompt has waited too long. -/
def promptTimedOut (node : PromptNode) (w : World σ κ) : Bool × World σ κ :=
  match node.sentAt with
  | none => (false, w)
  | some sentAt =>
      let (now, w) := w.now
      (decide (durationSince now sentAt > fromMillis node.timeoutMs), w)

/-- The branch of `tick_prompt` for a pending prompt. -/
def awaitReply (node : PromptNode) (w : World σ κ) : Run σ κ PromptNode :=
  let (timedOut, w) := promptTimedOut node w
  if timedOut then
    ⟨.ok .failure, node.settle, w.withTracer (w.tracer.recordPromptFailure node.name "timeout")⟩
  else
    match Session.isReady w.session with
    | (false, session) => ⟨.ok .running, node, w.withSession session⟩
    | (true, session) =>
        match Session.receive session with
        | (.error e, session) => ⟨.error (.error (.ofSession e)), node, w.withSession session⟩
        | (.ok reply, session) => consumeReply node reply (w.withSession session)

/-- The branch of `tick_prompt` for the first tick. -/
def sendPrompt (node : PromptNode) (w : World σ κ) : Run σ κ PromptNode :=
  match renderPromptTemplate node.template w.blackboard.toTemplateContext with
  | .error e => ⟨.error e, node, w⟩
  | .ok rendered =>
      let w := w.withTracer (w.tracer.recordPromptSent node.name)
      let (sent, session) := match node.model with
        | some model => Session.sendWithHint w.session rendered model
        | none => Session.send w.session rendered
      let w := w.withSession session
      match sent with
      | .error e => ⟨.error (.error (.ofSession e)), node, w⟩
      | .ok () =>
          let (now, w) := w.now
          ⟨.ok .running, { node with pending := true, sentAt := some now }, w⟩

def tickPrompt (node : PromptNode) (w : World σ κ) : Run σ κ PromptNode :=
  if node.pending then awaitReply node w else sendPrompt node w

end

end

def tickSetVar (node : SetVarNode) (w : World σ κ) : Run σ κ SetVarNode :=
  ⟨.ok .success, node, w.withBlackboard (w.blackboard.set node.key node.value)⟩

/-- An error of the resolved root leaves before the scope is popped. -/
def subTreeWith (ask : Ask) (node : SubTreeNode Node) (w : World σ κ) :
    Routine σ κ (SubTreeNode Node) :=
  let w := w.withTracer (w.tracer.enterSubTree node.name node.refName)
  match w.blackboard.pushScope with
  | .error _ => .ret ⟨.error (.error .scopeDepthExceeded), node, w⟩
  | .ok blackboard =>
      let w := w.withBlackboard blackboard
      match node.resolvedRoot with
      | none => .ret ⟨.error (.error (.subTreeNotResolved node.refName)), node,
          w.withBlackboard w.blackboard.popScope⟩
      | some root => .call ⟨ask, root, w⟩ fun r =>
          let node := { node with resolvedRoot := some r.node }
          match r.result with
          | .error e => .ret ⟨.error e, node, r.world⟩
          | .ok status => .ret ⟨.ok status, node,
              { r.world with
                blackboard := r.world.blackboard.popScope
                tracer := r.world.tracer.exitSubTree node.name node.refName status }⟩

def tickSubtree (node : SubTreeNode Node) (w : World σ κ) := subTreeWith .tick node w

def resumeSubtree (node : SubTreeNode Node) (path : List Nat) (depth : Nat) (w : World σ κ) :=
  subTreeWith (.resumeAt path depth) node w

/-! ## `Node::tick` and `Node::resume_at` -/

section

variable [Crates] [Session σ] [Clock κ]

def tickBody : Node → World σ κ → Routine σ κ Node
  | .selector n, w => (tickSelector n w).map (.map .selector)
  | .sequence n, w => (tickSequence n w).map (.map .sequence)
  | .parallel n, w => (tickParallel n w).map (.map .parallel)
  | .inverter n, w => (tickInverter n w).map (.map .inverter)
  | .repeater n, w => (tickRepeater n w).map (.map .repeater)
  | .cooldown n, w => (tickCooldown n w).map (.map .cooldown)
  | .reflectionGuard n, w => (tickReflectionGuard n w).map (.map .reflectionGuard)
  | .forceHuman n, w => (tickForceHuman n w).map (.map .forceHuman)
  | .when n, w => (tickWhen n w).map (.map .when)
  | .condition n, w => .ret ((tickCondition n w).map .condition)
  | .action n, w => .ret ((tickAction n w).map .action)
  | .prompt n, w => .ret ((tickPrompt n w).map .prompt)
  | .setVar n, w => .ret ((tickSetVar n w).map .setVar)
  | .subTree n, w => (tickSubtree n w).map (.map .subTree)

def resumeAtBody (path : List Nat) (depth : Nat) (node : Node) (w : World σ κ) :
    Routine σ κ Node :=
  if depth ≥ path.length then tickBody node w
  else match node with
    | .selector n => (resumeSelector n path depth w).map (.map .selector)
    | .sequence n => (resumeSequence n path depth w).map (.map .sequence)
    | .parallel n => (resumeParallel n path depth w).map (.map .parallel)
    | .inverter n => (resumeInverter n path depth w).map (.map .inverter)
    | .repeater n => (resumeRepeater n path depth w).map (.map .repeater)
    | .cooldown n => (resumeCooldown n path depth w).map (.map .cooldown)
    | .reflectionGuard n => (resumeReflectionGuard n path depth w).map (.map .reflectionGuard)
    | .forceHuman n => (resumeForceHuman n path depth w).map (.map .forceHuman)
    | .when n => (resumeWhen n path depth w).map (.map .when)
    | .condition n => tickBody (.condition n) w
    | .action n => tickBody (.action n) w
    | .prompt n => tickBody (.prompt n) w
    | .setVar n => tickBody (.setVar n) w
    | .subTree n => (resumeSubtree n path depth w).map (.map .subTree)

def requestBody (q : Request σ κ) : Routine σ κ Node :=
  match q.ask with
  | .tick => tickBody q.node q.world
  | .resumeAt path depth => resumeAtBody path depth q.node q.world

end

end AgileAgent.DecisionDsl
