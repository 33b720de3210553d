import AgileAgent.DecisionDsl.Paths
import AgileAgent.DecisionDsl.Runtime

/-! # The interpreter terminates

Calls go to children, and no call changes more of its node than `reset` clears, so
not its height (a repeater calls the child it got back). The routines therefore
form a terminating procedure, whose answers are `Node.tick` and `Node.resumeAt`.
The same pass over the routines shows what they do to the paths of the tracer.
-/

namespace AgileAgent.DecisionDsl

open CallTree

variable {σ κ ν : Type}

/-- An answer keeps the configuration of its node and, unless it is an error, the
    paths of the tracer. -/
def Sane (q : Request σ κ) (a : Answer σ κ) : Prop :=
  a.node.reset = q.node.reset ∧
    ∀ status, a.result = .ok status → Traced q.node q.world.tracer a.world.tracer

/-- The request goes to a child of `n`, in whatever run state, and the tracer says to
    which one. -/
def CallOf (n : Node) (stack : List Nat) (q : Request σ κ) : Prop :=
  ∃ i child, n.children[i]? = some child ∧ q.node.reset = child.reset ∧
    q.world.tracer.pathStack = stack ++ n.edge i

theorem CallOf.height_lt {n : Node} {stack : List Nat} {q : Request σ κ} (call : CallOf n stack q) :
    q.node.height < n.height := by
  obtain ⟨i, child, at_i, same, -⟩ := call
  rw [Node.height_of_reset same]
  exact Node.height_lt_of_mem_children (List.mem_of_getElem? at_i)

/-- Given sane answers, the routine on `n` calls children of `n` and its own answer,
    once wrapped, is sane. -/
def Descends (n : Node) (wrap : ν → Node) (t : Tracer) (routine : Routine σ κ ν) : Prop :=
  routine.Guarded Sane (CallOf n t.pathStack) fun r =>
    (wrap r.node).reset = n.reset ∧
      ∀ status, r.result = .ok status → Traced n t r.world.tracer

namespace Descends

variable {n : Node} {wrap : ν → Node} {t : Tracer}

theorem ret {r : Run σ κ ν} (kept : (wrap r.node).reset = n.reset)
    (traced : ∀ status, r.result = .ok status → Traced n t r.world.tracer) :
    Descends n wrap t (.ret r) := ⟨kept, traced⟩

/-- A decorator calls its child. -/
theorem call {q : Request σ κ} {next : Answer σ κ → Routine σ κ ν} (decorator : ¬ n.IsComposite)
    (only : n.children = [q.node]) (paths : q.world.tracer.pathStack = t.pathStack)
    (rest : ∀ a, Sane q a → Descends n wrap t (next a)) : Descends n wrap t (.call q next) := by
  refine ⟨⟨0, q.node, by rw [only]; rfl, rfl, ?_⟩, rest⟩
  rw [Node.edge_decorator decorator, List.append_nil, paths]

theorem map {routine : Routine σ κ ν} (descends : Descends n wrap t routine) :
    Descends n id t (Body.map (Run.map wrap) routine) := Body.Guarded.map descends

/-- The routine may go on with a node of the same configuration and a traced tracer. -/
theorem resume {n' : Node} {t' : Tracer} {routine : Routine σ κ ν}
    (descends : Descends n' wrap t' routine) (same : n'.reset = n.reset) (traced : Traced n t t') :
    Descends n wrap t routine := by
  refine descends.mono ?_ fun r post => ⟨post.1.trans same, fun status done =>
    traced.trans ((post.2 status done).of_reset same)⟩
  rintro q ⟨i, child, at_i, configured, located⟩
  obtain ⟨twin, at_twin, twin_same⟩ := Node.child_of_reset same at_i
  refine ⟨i, twin, at_twin, configured.trans twin_same.symm, ?_⟩
  rw [located, traced.pathStack, Node.edge_of_reset same]

theorem visitChild {name : String} {children : List Node} {i : Nat} {ask : Ask} {w : World σ κ}
    {failed : Fault → List Node → World σ κ → Run σ κ ν}
    {next : NodeStatus → List Node → World σ κ → Routine σ κ ν}
    (composite : n.IsComposite) (ours : n.children = children)
    (stopped : ∀ e ns w, Node.resetList ns = Node.resetList children →
      (failed e ns w).result = .error e ∧ (wrap (failed e ns w).node).reset = n.reset)
    (continued : ∀ status ns v, Node.resetList ns = Node.resetList children →
      Traced n w.tracer v.tracer → Descends n wrap w.tracer (next status ns v)) :
    Descends n wrap w.tracer (visitChild name children i ask w failed next) := by
  have leave {e ns v} (kept : Node.resetList ns = Node.resetList children) :
      Descends n wrap w.tracer (.ret (failed e ns v)) := by
    obtain ⟨result, reset⟩ := stopped e ns v kept
    refine .ret reset fun status done => ?_
    rw [result] at done
    cases done
  unfold DecisionDsl.visitChild
  split
  · exact leave rfl
  · next child at_i =>
      rw [← ours] at at_i
      refine ⟨⟨i, child, at_i, rfl, ?_⟩, fun a sane => ?_⟩
      · rw [Node.edge_composite composite]
        rfl
      · have kept : Node.resetList (children.set i a.node) = Node.resetList children :=
          Node.resetList_set (ours ▸ at_i) sane.1
        dsimp only
        split
        · exact leave kept
        · next status done =>
            exact continued _ _ _ kept ((sane.2 status done).visit composite at_i)

end Descends

theorem selectorSucceeded_reset (node : SelectorNode Node) (i : Nat) (w : World σ κ) :
    (Node.selector (selectorSucceeded node i w).node).reset = (Node.selector node).reset := by
  cases rule : node.ruleName <;> simp only [selectorSucceeded, rule, Node.reset]

theorem selectorSucceeded_leaves (node : SelectorNode Node) (i : Nat) (w : World σ κ) :
    (selectorSucceeded node i w).result = .ok .success ∧
      (selectorSucceeded node i w).node.activeChild = none ∧
      (selectorSucceeded node i w).node.children = node.children := by
  cases rule : node.ruleName <;> simp only [selectorSucceeded, rule, and_self]

theorem selectorSucceeded_traced (node : SelectorNode Node) (i : Nat) (w : World σ κ) (n : Node) :
    Traced n w.tracer (selectorSucceeded node i w).world.tracer := by
  have skipped (name reason : String) (l : List Nat) : ∀ t : Tracer,
      Traced n t (l.foldl (fun t _ => t.recordRuleSkipped name reason) t) := by
    induction l with
    | nil => exact fun t => .refl n t
    | cons _ rest ih =>
        intro t
        have recorded : Traced n t (t.recordRuleSkipped name reason) := .still rfl rfl
        exact recorded.trans (ih (t.recordRuleSkipped name reason))
  cases rule : node.ruleName with
  | none => simp only [selectorSucceeded, rule]; exact .refl n _
  | some ruleName =>
      simp only [selectorSucceeded, rule]
      refine Traced.trans ?_ (skipped _ _ _ _)
      split
      · exact .refl n _
      · exact .still rfl rfl

theorem selectorLoop_descends {visits : List (Nat × Ask)} : ∀ (node : SelectorNode Node)
    (w : World σ κ), Descends (.selector node) .selector w.tracer (selectorLoop visits node w) := by
  induction visits with
  | nil => intro node w; exact .ret rfl fun _ _ => .refl _ _
  | cons visit rest ih =>
      intro node w
      have same {ns : List Node} {activeChild : Option Nat}
          (kept : Node.resetList ns = Node.resetList node.children) :
          (Node.selector { node with children := ns, activeChild }).reset =
            (Node.selector node).reset := by simp only [Node.reset, kept]
      refine .visitChild trivial rfl (fun _ _ _ kept => ⟨rfl, same kept⟩)
        fun status ns v kept traced => ?_
      cases status with
      | success =>
          exact .ret ((selectorSucceeded_reset _ _ _).trans (same kept)) fun _ _ =>
            traced.trans (selectorSucceeded_traced _ _ _ _)
      | running => exact .ret (same kept) fun _ _ => traced
      | failure => exact (ih { node with children := ns } v).resume (same kept) traced

theorem sequenceLoop_descends {visits : List (Nat × Ask)} : ∀ (node : SequenceNode Node)
    (w : World σ κ), Descends (.sequence node) .sequence w.tracer (sequenceLoop visits node w) := by
  induction visits with
  | nil => intro node w; exact .ret rfl fun _ _ => .refl _ _
  | cons visit rest ih =>
      intro node w
      have same {ns : List Node} {activeChild : Option Nat}
          (kept : Node.resetList ns = Node.resetList node.children) :
          (Node.sequence { node with children := ns, activeChild }).reset =
            (Node.sequence node).reset := by simp only [Node.reset, kept]
      refine .visitChild trivial rfl (fun _ _ _ kept => ⟨rfl, same kept⟩)
        fun status ns v kept traced => ?_
      cases status with
      | success => exact (ih { node with children := ns } v).resume (same kept) traced
      | running => exact .ret (same kept) fun _ _ => traced
      | failure => exact .ret (same kept) fun _ _ => traced

theorem parallelLoop_descends {visits : List (Nat × Ask)} : ∀ (s f r : Nat)
    (node : ParallelNode Node) (w : World σ κ),
    Descends (.parallel node) .parallel w.tracer (parallelLoop visits s f r node w) := by
  induction visits with
  | nil => intro s f r node w; exact .ret rfl fun _ _ => .refl _ _
  | cons visit rest ih =>
      intro s f r node w
      have same {ns : List Node} (kept : Node.resetList ns = Node.resetList node.children) :
          (Node.parallel { node with children := ns }).reset = (Node.parallel node).reset := by
        simp only [Node.reset, kept]
      refine .visitChild trivial rfl (fun _ _ _ kept => ⟨rfl, same kept⟩)
        fun status ns v kept traced => ?_
      cases status <;>
        exact (ih _ _ _ { node with children := ns } v).resume (same kept) traced

theorem parallelWith_descends {asks : Nat → Ask} {node : ParallelNode Node} {w : World σ κ} :
    Descends (.parallel node) .parallel w.tracer (parallelWith asks node w) := by
  unfold parallelWith
  split
  · exact .ret rfl fun _ _ => .refl _ _
  · exact parallelLoop_descends 0 0 0 node w

theorem inverterWith_descends {ask : Ask} {node : InverterNode Node} {w : World σ κ} :
    Descends (.inverter node) .inverter w.tracer (inverterWith ask node w) := by
  refine .call id rfl rfl fun a sane => .ret (by simp only [Node.reset, sane.1]) ?_
  intro status done
  cases result : a.result with
  | error e => simp only [result, Except.map, reduceCtorEq] at done
  | ok child => exact (sane.2 child result).decorator id rfl

/-- A repeater goes on, or stops, with its child in another run state. -/
theorem repeaterCount_descends {node : RepeaterNode Node} {status : NodeStatus} {n : Node}
    {t : Tracer} {w : World σ κ}
    {again : RepeaterNode Node → World σ κ → Routine σ κ (RepeaterNode Node)}
    (kept : ∀ current, (Node.repeater { node with current }).reset = n.reset)
    (traced : Traced n t w.tracer)
    (rest : ∀ current, Descends n .repeater t (again { node with current } w)) :
    Descends n .repeater t (repeaterCount node status w again) := by
  unfold repeaterCount
  split
  · exact .ret (kept node.current) fun _ _ => traced
  · split
    · exact .ret (kept 0) fun _ _ => traced
    · exact rest _

theorem repeaterLoop_descends {asks : List Ask} : ∀ (node : RepeaterNode Node) (w : World σ κ),
    Descends (.repeater node) .repeater w.tracer (repeaterLoop asks node w) := by
  induction asks with
  | nil => intro node w; exact .ret rfl fun _ _ => .refl _ _
  | cons ask rest ih =>
      intro node w
      refine .call id rfl rfl fun a sane => ?_
      have kept (current : UInt32) : (Node.repeater { node with child := a.node, current }).reset =
          (Node.repeater node).reset := by simp only [Node.reset, sane.1]
      have traced {status : NodeStatus} (done : a.result = .ok status) :
          Traced (.repeater node) w.tracer a.world.tracer :=
        (sane.2 status done).decorator id rfl
      have tail {status : NodeStatus} (done : a.result = .ok status) (current : UInt32) :=
        (ih { node with child := a.node, current } a.world).resume (kept current) (traced done)
      unfold repeaterAttempt
      split
      · refine .ret (kept _) fun _ done => ?_
        cases done
      · next done => exact repeaterCount_descends kept (traced done) (tail done)
      · next done => exact .ret (kept _) fun _ _ => traced done
      · next done => exact repeaterCount_descends kept (traced done) (tail done)

theorem cooldownWith_descends [Clock κ] {ask : Ask} {node : CooldownNode Node} {w : World σ κ} :
    Descends (.cooldown node) .cooldown w.tracer (cooldownWith ask node w) := by
  have checked : (cooldownClosed node w).2.tracer = w.tracer := by
    unfold cooldownClosed
    split <;> rfl
  simp only [cooldownWith]
  split
  · exact .ret rfl fun _ _ => by rw [checked]; exact .refl _ _
  · refine .call id rfl (by rw [checked]) fun a sane => ?_
    have traced : ∀ status, a.result = .ok status →
        Traced (.cooldown node) w.tracer a.world.tracer := by
      intro status done
      have below := sane.2 status done
      simp only [checked] at below
      exact below.decorator id rfl
    split <;> exact .ret (by simp only [Node.reset, sane.1]) traced

theorem reflectionGuardWith_descends {ask : Ask} {node : ReflectionGuardNode Node}
    {w : World σ κ} :
    Descends (.reflectionGuard node) .reflectionGuard w.tracer (reflectionGuardWith ask node w) := by
  unfold reflectionGuardWith
  split
  · exact .ret rfl fun _ _ => .refl _ _
  · refine .call id rfl rfl fun a sane => ?_
    have kept : (Node.reflectionGuard { node with child := a.node }).reset =
        (Node.reflectionGuard node).reset := by simp only [Node.reset, sane.1]
    have traced : ∀ status, a.result = .ok status →
        Traced (.reflectionGuard node) w.tracer a.world.tracer :=
      fun status done => (sane.2 status done).decorator id rfl
    dsimp only
    split
    · split
      · refine .ret kept fun _ done => ?_
        cases done
      · exact .ret kept traced
    · exact .ret kept traced

theorem forceHumanWith_descends {ask : Ask} {node : ForceHumanNode Node} {w : World σ κ} :
    Descends (.forceHuman node) .forceHuman w.tracer (forceHumanWith ask node w) := by
  refine .call id rfl rfl fun a sane => ?_
  have traced : ∀ status, a.result = .ok status →
      Traced (.forceHuman node) w.tracer a.world.tracer :=
    fun status done => (sane.2 status done).decorator id rfl
  dsimp only
  split <;> exact .ret (by simp only [Node.reset, sane.1]) traced

theorem whenWith_descends [Crates] {ask : Ask} {node : WhenNode Node} {w : World σ κ} :
    Descends (.when node) .when w.tracer (whenWith ask node w) := by
  unfold whenWith
  split
  · exact .ret rfl fun _ _ => .refl _ _
  · exact .ret rfl fun _ _ => .refl _ _
  · exact .call id rfl rfl fun a sane => .ret (by simp only [Node.reset, sane.1])
      fun status done => (sane.2 status done).decorator id rfl

theorem subTreeWith_descends {ask : Ask} {node : SubTreeNode Node} {w : World σ κ} :
    Descends (.subTree node) .subTree w.tracer (subTreeWith ask node w) := by
  obtain ⟨name, refName, root⟩ := node
  simp only [subTreeWith]
  split
  · exact .ret rfl fun _ _ => .still rfl rfl
  · cases root with
    | none => exact .ret rfl fun _ _ => .still rfl rfl
    | some root =>
        refine .call id rfl rfl fun a sane => ?_
        split
        · refine .ret (by simp only [Node.reset, sane.1]) fun _ done => ?_
          cases done
        · next status done =>
            have below : Traced (.subTree ⟨name, refName, some root⟩)
                (w.tracer.enterSubTree name refName) a.world.tracer :=
              (sane.2 status done).decorator id rfl
            have left : Traced (.subTree ⟨name, refName, some root⟩) a.world.tracer
                (a.world.tracer.exitSubTree name refName status) := .still rfl rfl
            have entered : Traced (.subTree ⟨name, refName, some root⟩) w.tracer
                (w.tracer.enterSubTree name refName) := .still rfl rfl
            exact .ret (by simp only [Node.reset, sane.1]) fun _ _ =>
              entered.trans (below.trans left)

section

variable [Crates]

theorem tickCondition_sane (node : ConditionNode) (w : World σ κ) :
    (tickCondition node w).node = node ∧ (tickCondition node w).world = w := by
  unfold tickCondition
  split <;> exact ⟨rfl, rfl⟩

theorem tickAction_sane (node : ActionNode) (w : World σ κ) :
    (tickAction node w).node = node ∧
      Traced (.action node) w.tracer (tickAction node w).world.tracer := by
  have emitted : (emitCommand node w).node = node ∧
      Traced (.action node) w.tracer (emitCommand node w).world.tracer := by
    unfold emitCommand
    split
    · exact ⟨rfl, .refl _ _⟩
    · exact ⟨rfl, .still rfl rfl⟩
  unfold tickAction
  split
  · exact emitted
  · split
    · exact ⟨rfl, .refl _ _⟩
    · exact ⟨rfl, .refl _ _⟩
    · exact emitted

theorem consumeReply_sane (node : PromptNode) (reply : String) (w : World σ κ) :
    (consumeReply node reply w).node = node.settle ∧
      Traced (.prompt node) w.tracer (consumeReply node reply w).world.tracer := by
  simp only [consumeReply]
  split <;> exact ⟨rfl, .still rfl rfl⟩

variable [Session σ] [Clock κ]

theorem tickPrompt_sane (node : PromptNode) (w : World σ κ) :
    (Node.prompt (tickPrompt node w).node).reset = (Node.prompt node).reset ∧
      Traced (.prompt node) w.tracer (tickPrompt node w).world.tracer := by
  have checked : (promptTimedOut node w).2.tracer = w.tracer := by
    unfold promptTimedOut
    split <;> rfl
  have waited : Traced (.prompt node) w.tracer (promptTimedOut node w).2.tracer := by
    rw [checked]
    exact .refl _ _
  unfold tickPrompt
  split
  · simp only [awaitReply]
    split
    · exact ⟨rfl, waited.trans (.still rfl rfl)⟩
    · split
      · exact ⟨rfl, waited⟩
      · split
        · exact ⟨rfl, waited⟩
        · next reply session received =>
            obtain ⟨settled, traced⟩ :=
              consumeReply_sane node reply ((promptTimedOut node w).2.withSession session)
            exact ⟨by rw [settled]; rfl, waited.trans traced⟩
  · unfold sendPrompt
    split
    · exact ⟨rfl, .refl _ _⟩
    · dsimp only
      split <;> exact ⟨rfl, .still rfl rfl⟩

theorem tickBody_descends (n : Node) (w : World σ κ) : Descends n id w.tracer (tickBody n w) := by
  cases n with
  | selector n => exact .map (selectorLoop_descends _ _)
  | sequence n => exact .map (sequenceLoop_descends _ _)
  | parallel n => exact .map parallelWith_descends
  | inverter n => exact .map inverterWith_descends
  | repeater n =>
      refine .map ?_
      unfold tickRepeater
      split
      · exact .ret rfl fun _ _ => .refl _ _
      · exact repeaterLoop_descends _ _
  | cooldown n => exact .map cooldownWith_descends
  | reflectionGuard n => exact .map reflectionGuardWith_descends
  | forceHuman n => exact .map forceHumanWith_descends
  | when n => exact .map whenWith_descends
  | condition n =>
      obtain ⟨node, world⟩ := tickCondition_sane n w
      refine .ret (congrArg (Node.reset ∘ Node.condition) node) fun _ _ => ?_
      rw [show ((tickCondition n w).map Node.condition).world = w from world]
      exact .refl _ _
  | action n =>
      obtain ⟨node, traced⟩ := tickAction_sane n w
      exact .ret (congrArg (Node.reset ∘ Node.action) node) fun _ _ => traced
  | prompt n => exact .ret (tickPrompt_sane n w).1 fun _ _ => (tickPrompt_sane n w).2
  | setVar => exact .ret rfl fun _ _ => .refl _ _
  | subTree n => exact .map subTreeWith_descends

theorem resumeAtBody_descends (path : List Nat) (depth : Nat) (n : Node) (w : World σ κ) :
    Descends n id w.tracer (resumeAtBody path depth n w) := by
  unfold resumeAtBody
  split
  · exact tickBody_descends n w
  · cases n with
    | selector n =>
        refine .map ?_
        unfold resumeSelector
        split
        · exact .ret rfl fun _ _ => .refl _ _
        · exact selectorLoop_descends _ _
    | sequence n =>
        refine .map ?_
        unfold resumeSequence
        split
        · exact .ret rfl fun _ _ => .refl _ _
        · exact sequenceLoop_descends _ _
    | parallel n => exact .map parallelWith_descends
    | inverter n => exact .map inverterWith_descends
    | repeater n =>
        refine .map ?_
        unfold resumeRepeater
        split
        · exact .ret rfl fun _ _ => .refl _ _
        · exact repeaterLoop_descends _ _
    | cooldown n => exact .map cooldownWith_descends
    | reflectionGuard n => exact .map reflectionGuardWith_descends
    | forceHuman n => exact .map forceHumanWith_descends
    | when n => exact .map whenWith_descends
    | condition | action | prompt | setVar => exact tickBody_descends _ w
    | subTree n => exact .map subTreeWith_descends

theorem requestBody_descends (q : Request σ κ) :
    Descends q.node id q.world.tracer (requestBody q) := by
  obtain ⟨ask, node, w⟩ := q
  cases ask with
  | tick => exact tickBody_descends node w
  | resumeAt path depth => exact resumeAtBody_descends path depth node w

/-- The recursion of `tick` and `resume_at`. -/
def interpreter : Procedure (Request σ κ) (Answer σ κ) where
  body := requestBody
  rank q := q.node.height
  sane := Sane
  stuck q := ⟨.error .panic, q.node, q.world⟩
  guarded q := (requestBody_descends q).mono (fun _ => CallOf.height_lt) fun _ => id

/-- `Node::tick`. -/
def Node.tick (n : Node) (w : World σ κ) : Answer σ κ := interpreter.solve ⟨.tick, n, w⟩

/-- `Node::resume_at`. -/
def Node.resumeAt (n : Node) (path : List Nat) (depth : Nat) (w : World σ κ) : Answer σ κ :=
  interpreter.solve ⟨.resumeAt path depth, n, w⟩

theorem interpreter_solve (q : Request σ κ) :
    interpreter.solve q = (requestBody q).run interpreter.solve := interpreter.solve_eq q

/-- A call changes only the run state of its node. -/
theorem interpreter_reset (q : Request σ κ) :
    (interpreter.solve q).node.reset = q.node.reset := (interpreter.solve_sane q).1

/-- A call that returns a status leaves the stack of indices as it was, and the running
    path as it was or leading to a composite. -/
theorem interpreter_traced {q : Request σ κ} {status : NodeStatus}
    (done : (interpreter.solve q).result = .ok status) :
    Traced q.node q.world.tracer (interpreter.solve q).world.tracer :=
  (interpreter.solve_sane q).2 status done

theorem interpreter_calls (q : Request σ κ) :
    interpreter.calls q = (requestBody q).calls interpreter.solve := rfl

theorem interpreter_trail (q : Request σ κ) : interpreter.trail q =
    q :: ((requestBody q).calls interpreter.solve).flatMap interpreter.trail :=
  interpreter.trail_eq q

/-- The direct calls of a request go to children of its node. -/
theorem interpreter_callOf {q q' : Request σ κ}
    (called : q' ∈ (requestBody q).calls interpreter.solve) :
    CallOf q.node q.world.tracer.pathStack q' :=
  (requestBody_descends q).mem_calls (fun q' _ => interpreter.solve_sane q') called

/-- The stack of indices at a request made on the way leads to its node, up to run state. -/
theorem trail_leads {q v : Request σ κ} (visited : v ∈ interpreter.trail q) :
    ∃ path m, v.world.tracer.pathStack = q.world.tracer.pathStack ++ path ∧
      Leads q.node path m ∧ m.reset = v.node.reset := by
  refine interpreter.induct (motive := fun q => v ∈ interpreter.trail q →
    ∃ path m, v.world.tracer.pathStack = q.world.tracer.pathStack ++ path ∧
      Leads q.node path m ∧ m.reset = v.node.reset) (fun q ih visited => ?_) q visited
  rcases Procedure.mem_trail_cases visited with rfl | ⟨q', called, below⟩
  · exact ⟨[], v.node, (List.append_nil _).symm, .refl _, rfl⟩
  · obtain ⟨i, child, at_i, same, located⟩ := interpreter_callOf called
    obtain ⟨path, m, stack, leads, m_same⟩ := ih q' called below
    obtain ⟨m', leads', m'_same⟩ := leads.of_reset same
    refine ⟨q.node.edge i ++ path, m', ?_, .step at_i leads', m'_same.trans m_same⟩
    rw [stack, located, List.append_assoc]

/-- Nodes get lower on the way down. -/
theorem trail_height {q v : Request σ κ} (visited : v ∈ interpreter.trail q) :
    v = q ∨ v.node.height < q.node.height := by
  refine interpreter.induct (motive := fun q => v ∈ interpreter.trail q →
    v = q ∨ v.node.height < q.node.height) (fun q ih visited => ?_) q visited
  rcases Procedure.mem_trail_cases visited with rfl | ⟨q', called, below⟩
  · exact .inl rfl
  · have lower := (interpreter_callOf called).height_lt
    rcases ih q' called below with rfl | lower'
    · exact .inr lower
    · exact .inr (Nat.lt_trans lower' lower)

/-- What every body establishes from its own calls holds of every request, its
    answer and its trail. -/
theorem interpreter_induct (holds : Request σ κ → Answer σ κ → List (Request σ κ) → Prop)
    (step : ∀ q, (∀ q' ∈ (requestBody q).calls interpreter.solve,
        holds q' (interpreter.solve q') (interpreter.trail q')) →
      holds q ((requestBody q).run interpreter.solve)
        (q :: ((requestBody q).calls interpreter.solve).flatMap interpreter.trail))
    (q : Request σ κ) : holds q (interpreter.solve q) (interpreter.trail q) := by
  refine interpreter.induct (motive := fun q => holds q (interpreter.solve q) (interpreter.trail q))
    (fun q ih => ?_) q
  rw [interpreter_solve q, interpreter_trail q]
  exact step q ih

end

end AgileAgent.DecisionDsl
