import AgileAgent.DecisionDsl.Steps

/-! # Ticks, node by node

What a tick calls and what it leaves, one relation for each shape of node: the walk of
a composite over its children, the attempts of a repeater, and the one call of every
other decorator.
-/

namespace AgileAgent.DecisionDsl

open CallTree

/-- The call ticks its node: `tick` itself, or `resume_at` at the end of its path. -/
def Ask.Ticks : Ask → Prop
  | .tick => True
  | .resumeAt path depth => path.length ≤ depth

namespace Node

/-- The composites that go from child to child until one decides. -/
def Ordered : Node → Prop
  | .selector _ | .sequence _ => True
  | _ => False

/-- The decorators that call their child at most once. -/
def Decorator : Node → Prop
  | .inverter _ | .cooldown _ | .reflectionGuard _ | .forceHuman _ | .when _ | .subTree _ => True
  | _ => False

/-- The leaves that never return `Running`. -/
def Immediate : Node → Prop
  | .condition _ | .action _ | .setVar _ => True
  | _ => False

def activeChild : Node → Option Nat
  | .selector n => n.activeChild
  | .sequence n => n.activeChild
  | .parallel n => n.activeChild
  | _ => none

end Node

variable {σ κ : Type}

/-- The session and the running path are those of `v` still. -/
structure World.Keeps (w v : World σ κ) : Prop where
  session : w.session = v.session
  runningPath : w.tracer.runningPath = v.tracer.runningPath

namespace World.Keeps

theorem refl (w : World σ κ) : w.Keeps w := ⟨rfl, rfl⟩

end World.Keeps

/-- The call of child `i` of a composite. -/
def visit (name : String) (child : Node) (i : Nat) (w : World σ κ) : Request σ κ :=
  ⟨.tick, child, w.enter name i⟩

/-- What a walk over children called, which call stopped it and what it returned, and
    what it left. -/
structure Walked (σ κ : Type) where
  calls : List (Request σ κ)
  stop : Option (Nat × Except Fault NodeStatus)
  children : List Node
  world : World σ κ

/-- What the attempts of a repeater called and left. -/
structure Tried (σ κ : Type) where
  calls : List (Request σ κ)
  result : Except Fault NodeStatus
  current : UInt32
  child : Node
  world : World σ κ

/-- How an ordered composite ends its tick, from what stopped its walk: its result and
    its `active_child`. -/
inductive Ending (active : Option Nat) :
    Option (Nat × Except Fault NodeStatus) → Except Fault NodeStatus → Option Nat → Prop where
  | ranOut {status : NodeStatus} (done : status ≠ .running) : Ending active none (.ok status) none
  | stopped {i : Nat} {status : NodeStatus} (done : status ≠ .running) :
      Ending active (some (i, .ok status)) (.ok status) none
  | waits {i : Nat} : Ending active (some (i, .ok .running)) (.ok .running) (some i)
  | failed {i : Nat} {e : Fault} : Ending active (some (i, .error e)) (.error e) active

/-- What a decorator makes of the result of its child. -/
inductive Relayed : Except Fault NodeStatus → Except Fault NodeStatus → Prop where
  | failed {e : Fault} : Relayed (.error e) (.error e)
  | waits : Relayed (.ok .running) (.ok .running)
  | done {status status' : NodeStatus} (done : status ≠ .running) (done' : status' ≠ .running) :
      Relayed (.ok status) (.ok status')
  | panicked {status : NodeStatus} (done : status ≠ .running) : Relayed (.ok status) (.error .panic)

section

variable [Crates] [Session σ] [Clock κ]

/-- From child `start` on every child is ticked as long as the loop goes on. -/
inductive Walk (name : String) (goes : NodeStatus → Prop) :
    Nat → List Node → World σ κ → Walked σ κ → Prop where
  | ranOut {start : Nat} {children : List Node} {w : World σ κ} (out : children.length ≤ start) :
      Walk name goes start children w ⟨[], none, children, w⟩
  | failed {start : Nat} {children : List Node} {w : World σ κ} {child : Node} {e : Fault}
      (at_start : children[start]? = some child)
      (result : (interpreter.solve (visit name child start w)).result = .error e) :
      Walk name goes start children w ⟨[visit name child start w], some (start, .error e),
        children.set start (interpreter.solve (visit name child start w)).node,
        (interpreter.solve (visit name child start w)).world⟩
  | stopped {start : Nat} {children : List Node} {w : World σ κ} {child : Node} {status : NodeStatus}
      (at_start : children[start]? = some child)
      (result : (interpreter.solve (visit name child start w)).result = .ok status)
      (stops : ¬ goes status) :
      Walk name goes start children w ⟨[visit name child start w], some (start, .ok status),
        children.set start (interpreter.solve (visit name child start w)).node,
        (interpreter.solve (visit name child start w)).world.exit name status⟩
  | went {start : Nat} {children : List Node} {w : World σ κ} {child : Node} {status : NodeStatus}
      {r : Walked σ κ} (at_start : children[start]? = some child)
      (result : (interpreter.solve (visit name child start w)).result = .ok status)
      (on : goes status)
      (rest : Walk name goes (start + 1)
        (children.set start (interpreter.solve (visit name child start w)).node)
        ((interpreter.solve (visit name child start w)).world.exit name status) r) :
      Walk name goes start children w { r with calls := visit name child start w :: r.calls }

/-- A walk starts with the call of the child it starts at. -/
theorem Walk.first {name : String} {goes : NodeStatus → Prop} {start : Nat} {children : List Node}
    {w : World σ κ} {r : Walked σ κ} (walk : Walk name goes start children w r) {child : Node}
    (at_start : children[start]? = some child) : ∃ rest, r.calls = visit name child start w :: rest := by
  cases walk with
  | ranOut out =>
      rw [List.getElem?_eq_none out] at at_start
      cases at_start
  | failed at_start' | stopped at_start' =>
      obtain rfl := Option.some.inj (at_start.symm.trans at_start')
      exact ⟨[], rfl⟩
  | went at_start' =>
      obtain rfl := Option.some.inj (at_start.symm.trans at_start')
      exact ⟨_, rfl⟩

/-- The attempts of a repeater that has made `current` of `max`. -/
inductive Attempts (max : UInt32) : UInt32 → Node → World σ κ → Tried σ κ → Prop where
  | ranOut {current : UInt32} {child : Node} {w : World σ κ} (out : max ≤ current) :
      Attempts max current child w ⟨[], .ok .success, 0, child, w⟩
  | failed {current : UInt32} {child : Node} {w : World σ κ} {e : Fault}
      (result : (interpreter.solve ⟨.tick, child, w⟩).result = .error e) :
      Attempts max current child w ⟨[⟨.tick, child, w⟩], .error e, current,
        (interpreter.solve ⟨.tick, child, w⟩).node, (interpreter.solve ⟨.tick, child, w⟩).world⟩
  | waits {current : UInt32} {child : Node} {w : World σ κ}
      (result : (interpreter.solve ⟨.tick, child, w⟩).result = .ok .running) :
      Attempts max current child w ⟨[⟨.tick, child, w⟩], .ok .running, current,
        (interpreter.solve ⟨.tick, child, w⟩).node, (interpreter.solve ⟨.tick, child, w⟩).world⟩
  | panicked {current : UInt32} {child : Node} {w : World σ κ} {status : NodeStatus}
      (result : (interpreter.solve ⟨.tick, child, w⟩).result = .ok status)
      (done : status ≠ .running) (full : current.toNat + 1 = UInt32.size) :
      Attempts max current child w ⟨[⟨.tick, child, w⟩], .error .panic, current,
        (interpreter.solve ⟨.tick, child, w⟩).node, (interpreter.solve ⟨.tick, child, w⟩).world⟩
  | last {current : UInt32} {child : Node} {w : World σ κ} {status : NodeStatus}
      (result : (interpreter.solve ⟨.tick, child, w⟩).result = .ok status)
      (done : status ≠ .running) (spent : max ≤ current + 1) :
      Attempts max current child w ⟨[⟨.tick, child, w⟩], .ok status, 0,
        (interpreter.solve ⟨.tick, child, w⟩).node, (interpreter.solve ⟨.tick, child, w⟩).world⟩
  | again {current : UInt32} {child : Node} {w : World σ κ} {status : NodeStatus} {r : Tried σ κ}
      (result : (interpreter.solve ⟨.tick, child, w⟩).result = .ok status)
      (done : status ≠ .running) (left : current + 1 < max)
      (rest : Attempts max (current + 1) (interpreter.solve ⟨.tick, child, w⟩).node
        (interpreter.solve ⟨.tick, child, w⟩).world r) :
      Attempts max current child w { r with calls := ⟨.tick, child, w⟩ :: r.calls }

/-- A decorator fails without a call of its child. -/
inductive Closes (q : Request σ κ) : Prop where
  | when {n : WhenNode Node} (node : q.node = .when n)
      (fails : n.condition.evaluate q.world.blackboard = .ok false)
  | reflectionGuard {n : ReflectionGuardNode Node} (node : q.node = .reflectionGuard n)
      (reached : n.maxRounds ≤ q.world.blackboard.reflectionRound)
  | cooldown {n : CooldownNode Node} (node : q.node = .cooldown n)
      (closed : (cooldownClosed n q.world).1 = true)

/-- How a decorator passes a tick on. -/
inductive Passes (q : Request σ κ) : Prop where
  | closed (closes : Closes q) (calls : interpreter.calls q = [])
      (result : (interpreter.solve q).result = .ok .failure)
      (node : (interpreter.solve q).node = q.node) (keeps : (interpreter.solve q).world.Keeps q.world)
  | failed {e : Fault} (calls : interpreter.calls q = [])
      (result : (interpreter.solve q).result = .error e)
      (node : (interpreter.solve q).node = q.node) (keeps : (interpreter.solve q).world.Keeps q.world)
  | called {child : Node} {v : World σ κ} (only : q.node.children = [child])
      (calls : interpreter.calls q = [⟨.tick, child, v⟩])
      (stack : v.tracer.pathStack = q.world.tracer.pathStack) (enters : v.Keeps q.world)
      (left : (interpreter.solve q).node.children = [(interpreter.solve ⟨.tick, child, v⟩).node])
      (result : Relayed (interpreter.solve ⟨.tick, child, v⟩).result (interpreter.solve q).result)
      (leaves : (interpreter.solve q).world.Keeps (interpreter.solve ⟨.tick, child, v⟩).world)

theorem requestBody_ticks {q : Request σ κ} (ticks : q.ask.Ticks) :
    requestBody q = tickBody q.node q.world := by
  obtain ⟨ask, node, w⟩ := q
  cases ask with
  | tick => rfl
  | resumeAt path depth =>
      have past : depth ≥ path.length := ticks
      simp only [requestBody, resumeAtBody, past, if_true]

/-! ## Composites -/

omit [Crates] [Session σ] [Clock κ] in
theorem selectorSucceeded_keeps (node : SelectorNode Node) (i : Nat) (w : World σ κ) :
    (selectorSucceeded node i w).world.Keeps w := by
  have skipped (name reason : String) (l : List Nat) : ∀ t : Tracer,
      (l.foldl (fun t _ => t.recordRuleSkipped name reason) t).runningPath = t.runningPath := by
    induction l with
    | nil => exact fun t => rfl
    | cons _ rest ih => exact fun t => ih (t.recordRuleSkipped name reason)
  cases rule : node.ruleName with
  | none =>
      simp only [selectorSucceeded, rule]
      exact .refl w
  | some ruleName =>
      simp only [selectorSucceeded, rule]
      refine ⟨rfl, (skipped _ _ _ _).trans ?_⟩
      split <;> rfl

/-- One turn of a composite's loop when the call fails. -/
theorem visitChild_failed {ν : Type} {name : String} {children : List Node} {i : Nat} {child : Node}
    {w : World σ κ} {e : Fault} {failed : Fault → List Node → World σ κ → Run σ κ ν}
    {next : NodeStatus → List Node → World σ κ → Routine σ κ ν} (at_i : children[i]? = some child)
    (result : (interpreter.solve (visit name child i w)).result = .error e) :
    (visitChild name children i .tick w failed next).run interpreter.solve =
        failed e (children.set i (interpreter.solve (visit name child i w)).node)
          (interpreter.solve (visit name child i w)).world ∧
      (visitChild name children i .tick w failed next).calls interpreter.solve =
        [visit name child i w] := by
  simp only [visit] at result ⊢
  simp only [visitChild, at_i, Body.run_call, Body.calls_call, result]
  exact ⟨rfl, rfl⟩

/-- One turn when it returns a status. -/
theorem visitChild_done {ν : Type} {name : String} {children : List Node} {i : Nat} {child : Node}
    {w : World σ κ} {status : NodeStatus} {failed : Fault → List Node → World σ κ → Run σ κ ν}
    {next : NodeStatus → List Node → World σ κ → Routine σ κ ν} (at_i : children[i]? = some child)
    (result : (interpreter.solve (visit name child i w)).result = .ok status) :
    let a := interpreter.solve (visit name child i w)
    let rest := next status (children.set i a.node) (a.world.exit name status)
    (visitChild name children i .tick w failed next).run interpreter.solve =
        rest.run interpreter.solve ∧
      (visitChild name children i .tick w failed next).calls interpreter.solve =
        visit name child i w :: rest.calls interpreter.solve := by
  simp only [visit] at result ⊢
  simp only [visitChild, at_i, Body.run_call, Body.calls_call, result]
  exact ⟨trivial, trivial⟩

/-- The paths of the tracer after a call of a child that returned a status. -/
theorem visit_left {name : String} {child : Node} {i : Nat} {w : World σ κ} {status : NodeStatus}
    (result : (interpreter.solve (visit name child i w)).result = .ok status) :
    let v := (interpreter.solve (visit name child i w)).world.exit name status
    v.tracer.pathStack = w.tracer.pathStack ∧ v.tracer.runningPath =
      if status = .running then w.tracer.pathStack
      else (interpreter.solve (visit name child i w)).world.tracer.runningPath := by
  have stack : (interpreter.solve (visit name child i w)).world.tracer.pathStack.dropLast =
      w.tracer.pathStack := by
    rw [(interpreter_traced result).pathStack]
    exact List.dropLast_concat
  exact ⟨stack, by rw [← stack]; rfl⟩

omit [Crates] [Session σ] [Clock κ] in
theorem ticks_over {start stop : Nat} (out : stop ≤ start) : ticks start stop = [] := by
  rw [ticks, Nat.sub_eq_zero_of_le out]
  rfl

/-- How a parallel node ends: with a verdict after all its children, or with the error of
    one of them. -/
inductive Verdict (active : Option Nat) :
    Option (Nat × Except Fault NodeStatus) → Except Fault NodeStatus → Option Nat → Prop where
  | decided {status : NodeStatus} : Verdict active none (.ok status) none
  | failed {i : Nat} {e : Fault} : Verdict active (some (i, .error e)) (.error e) active

/-- The routine walks over the children from `start` and `ends` so; `children` and
    `active` read a composite's record. -/
def Walks {ν : Type} (children : ν → List Node) (active : ν → Option Nat) (name : String)
    (goes : NodeStatus → Prop)
    (ends : Option (Nat × Except Fault NodeStatus) → Except Fault NodeStatus → Option Nat → Prop)
    (start : Nat) (ns : List Node) (w : World σ κ) (loop : Routine σ κ ν) : Prop :=
  ∃ r, Walk name goes start ns w r ∧ loop.calls interpreter.solve = r.calls ∧
    ends r.stop (loop.run interpreter.solve).result (active (loop.run interpreter.solve).node) ∧
    children (loop.run interpreter.solve).node = r.children ∧
    (loop.run interpreter.solve).world.Keeps r.world

/-- One turn of a composite's loop, given the turns after it. -/
theorem Walks.turn {ν : Type} {children : ν → List Node} {active : ν → Option Nat} {name : String}
    {goes : NodeStatus → Prop}
    {ends : Option (Nat × Except Fault NodeStatus) → Except Fault NodeStatus → Option Nat → Prop}
    {start : Nat} {ns : List Node} {w : World σ κ}
    {failed : Fault → List Node → World σ κ → Run σ κ ν}
    {next : NodeStatus → List Node → World σ κ → Routine σ κ ν} (inside : start < ns.length)
    (stopped : ∀ e ms v, ends (some (start, .error e)) (failed e ms v).result
      (active (failed e ms v).node) ∧ children (failed e ms v).node = ms ∧ (failed e ms v).world = v)
    (continued : ∀ status ms v, ms.length = ns.length →
      (goes status ∧ Walks children active name goes ends (start + 1) ms v (next status ms v)) ∨
      (¬ goes status ∧ ∃ r, next status ms v = .ret r ∧
        ends (some (start, .ok status)) r.result (active r.node) ∧ children r.node = ms ∧
        r.world.Keeps v)) :
    Walks children active name goes ends start ns w (visitChild name ns start .tick w failed next) := by
  obtain ⟨child, at_start⟩ : ∃ child, ns[start]? = some child :=
    ⟨_, List.getElem?_eq_getElem inside⟩
  let a := interpreter.solve (visit name child start w)
  cases result : a.result with
  | error e =>
      refine ⟨_, .failed at_start result, ?_⟩
      obtain ⟨run, calls⟩ := visitChild_failed at_start result
      rw [run, calls]
      obtain ⟨ending, left, world⟩ := stopped e (ns.set start a.node) a.world
      rw [world]
      exact ⟨rfl, ending, left, .refl _⟩
  | ok status =>
      obtain ⟨run, calls⟩ := visitChild_done at_start result
      rw [Walks, run, calls]
      rcases continued status (ns.set start a.node) (a.world.exit name status) List.length_set with
        ⟨on, r, walk, calls, rest⟩ | ⟨stops, r, returned, ending, left, keeps⟩
      · exact ⟨_, .went at_start result on walk, congrArg (_ :: ·) calls, rest⟩
      · rw [returned]
        exact ⟨_, .stopped at_start result stops, rfl, ending, left, keeps⟩

/-- How the loop of an ordered composite ends: with what stopped its walk, and as `fallen`
    when nothing did. -/
def Stops (fallen : NodeStatus) (active : Option Nat) (stop : Option (Nat × Except Fault NodeStatus))
    (result : Except Fault NodeStatus) (left : Option Nat) : Prop :=
  Ending active stop result left ∧ result = (stop.map Prod.snd).getD (.ok fallen)

theorem selectorLoop_walks {left : Nat} : ∀ {start : Nat} {node : SelectorNode Node} {w : World σ κ},
    node.children.length - start = left →
    Walks SelectorNode.children SelectorNode.activeChild node.name (· = .failure)
      (Stops .failure node.activeChild) start node.children w
      (selectorLoop (ticks start node.children.length) node w) := by
  induction left with
  | zero =>
      intro start node w count
      have out : node.children.length ≤ start := by omega
      rw [ticks_over out]
      exact ⟨_, .ranOut out, rfl, ⟨.ranOut (by decide), rfl⟩, rfl, .refl w⟩
  | succ left ih =>
      intro start node w count
      rw [ticks_eq_cons (by omega)]
      apply Walks.turn (by omega) (fun e ms v => ⟨⟨.failed, rfl⟩, rfl, rfl⟩)
      intro status ms v same
      cases status with
      | success =>
          obtain ⟨result, active, children⟩ :=
            selectorSucceeded_leaves { node with children := ms } start v
          refine .inr ⟨by decide, _, rfl, ?_, children, selectorSucceeded_keeps _ _ _⟩
          rw [result, active]
          exact ⟨.stopped (by decide), rfl⟩
      | running => exact .inr ⟨by decide, _, rfl, ⟨.waits, rfl⟩, rfl, .refl v⟩
      | failure =>
          refine .inl ⟨rfl, ?_⟩
          have later := @ih (start + 1) { node with children := ms } v (by simp only; omega)
          rwa [same] at later

theorem sequenceLoop_walks {left : Nat} : ∀ {start : Nat} {node : SequenceNode Node} {w : World σ κ},
    node.children.length - start = left →
    Walks SequenceNode.children SequenceNode.activeChild node.name (· = .success)
      (Stops .success node.activeChild) start node.children w
      (sequenceLoop (ticks start node.children.length) node w) := by
  induction left with
  | zero =>
      intro start node w count
      have out : node.children.length ≤ start := by omega
      rw [ticks_over out]
      exact ⟨_, .ranOut out, rfl, ⟨.ranOut (by decide), rfl⟩, rfl, .refl w⟩
  | succ left ih =>
      intro start node w count
      rw [ticks_eq_cons (by omega)]
      apply Walks.turn (by omega) (fun e ms v => ⟨⟨.failed, rfl⟩, rfl, rfl⟩)
      intro status ms v same
      cases status with
      | success =>
          refine .inl ⟨rfl, ?_⟩
          have later := @ih (start + 1) { node with children := ms } v (by simp only; omega)
          rwa [same] at later
      | running => exact .inr ⟨by decide, _, rfl, ⟨.waits, rfl⟩, rfl, .refl v⟩
      | failure => exact .inr ⟨by decide, _, rfl, ⟨.stopped (by decide), rfl⟩, rfl, .refl v⟩

theorem parallelLoop_walks {left : Nat} : ∀ {start s f k : Nat} {node : ParallelNode Node}
    {w : World σ κ}, node.children.length - start = left →
    Walks ParallelNode.children ParallelNode.activeChild node.name (fun _ => True)
      (Verdict node.activeChild) start node.children w
      (parallelLoop (ticks start node.children.length) s f k node w) := by
  induction left with
  | zero =>
      intro start s f k node w count
      have out : node.children.length ≤ start := by omega
      rw [ticks_over out]
      exact ⟨_, .ranOut out, rfl, .decided, rfl, .refl w⟩
  | succ left ih =>
      intro start s f k node w count
      rw [ticks_eq_cons (by omega)]
      apply Walks.turn (by omega) (fun e ms v => ⟨.failed, rfl, rfl⟩)
      intro status ms v same
      have later (s f k : Nat) :=
        @ih (start + 1) s f k { node with children := ms } v (by simp only; omega)
      simp only [same] at later
      cases status <;> exact .inl ⟨trivial, later _ _ _⟩

theorem parallelWith_walks {node : ParallelNode Node} {w : World σ κ} :
    Walks ParallelNode.children ParallelNode.activeChild node.name (fun _ => True)
      (Verdict node.activeChild) 0 node.children w (tickParallel node w) := by
  rw [tickParallel, parallelWith]
  split
  · next empty => exact ⟨_, .ranOut (Nat.le_of_eq empty), rfl, .decided, rfl, .refl w⟩
  · have asks : (List.range node.children.length).map (fun i => (i, Ask.tick)) =
        ticks 0 node.children.length := by
      rw [ticks, Nat.sub_zero, List.range_eq_range']
    rw [asks]
    exact parallelLoop_walks rfl

/-- A tick of a selector. -/
theorem selector_tick {q : Request σ κ} {n : SelectorNode Node} (ticks : q.ask.Ticks)
    (node : q.node = .selector n) :
    ∃ r, Walk n.name (· = .failure) (n.activeChild.getD 0) n.children q.world r ∧
      interpreter.calls q = r.calls ∧
      Stops .failure n.activeChild r.stop (interpreter.solve q).result
        (interpreter.solve q).node.activeChild ∧
      (interpreter.solve q).node.children = r.children ∧
      (interpreter.solve q).world.Keeps r.world := by
  have answer := interpreter_solve q
  have calls := interpreter_calls q
  rw [requestBody_ticks ticks] at answer calls
  obtain ⟨ask, node', w⟩ := q
  obtain rfl : node' = .selector n := node
  simp only [tickBody, Body.run_map, Body.calls_map] at answer calls
  rw [answer, calls]
  have walks : Walks SelectorNode.children SelectorNode.activeChild n.name _
      (Stops .failure n.activeChild) (n.activeChild.getD 0) n.children w (tickSelector n w) :=
    selectorLoop_walks rfl
  exact walks

/-- A tick of a sequence. -/
theorem sequence_tick {q : Request σ κ} {n : SequenceNode Node} (ticks : q.ask.Ticks)
    (node : q.node = .sequence n) :
    ∃ r, Walk n.name (· = .success) (n.activeChild.getD 0) n.children q.world r ∧
      interpreter.calls q = r.calls ∧
      Stops .success n.activeChild r.stop (interpreter.solve q).result
        (interpreter.solve q).node.activeChild ∧
      (interpreter.solve q).node.children = r.children ∧
      (interpreter.solve q).world.Keeps r.world := by
  have answer := interpreter_solve q
  have calls := interpreter_calls q
  rw [requestBody_ticks ticks] at answer calls
  obtain ⟨ask, node', w⟩ := q
  obtain rfl : node' = .sequence n := node
  simp only [tickBody, Body.run_map, Body.calls_map] at answer calls
  rw [answer, calls]
  have walks : Walks SequenceNode.children SequenceNode.activeChild n.name _
      (Stops .success n.activeChild) (n.activeChild.getD 0) n.children w (tickSequence n w) :=
    sequenceLoop_walks rfl
  exact walks

/-- A tick of a selector or sequence. -/
theorem ordered_tick {q : Request σ κ} (ticks : q.ask.Ticks) (ordered : q.node.Ordered) :
    ∃ name goes r, ¬ goes NodeStatus.running ∧
      Walk name goes (q.node.activeChild.getD 0) q.node.children q.world r ∧
      interpreter.calls q = r.calls ∧
      Ending q.node.activeChild r.stop (interpreter.solve q).result
        (interpreter.solve q).node.activeChild ∧
      (interpreter.solve q).node.children = r.children ∧
      (interpreter.solve q).world.Keeps r.world := by
  cases node : q.node with
  | selector n =>
      obtain ⟨r, walk, called, ending, rest⟩ := selector_tick ticks node
      exact ⟨n.name, _, r, by decide, walk, called, ending.1, rest⟩
  | sequence n =>
      obtain ⟨r, walk, called, ending, rest⟩ := sequence_tick ticks node
      exact ⟨n.name, _, r, by decide, walk, called, ending.1, rest⟩
  | _ =>
      rw [node] at ordered
      exact absurd ordered id

/-- A tick of a parallel node. -/
theorem parallel_tick {q : Request σ κ} {n : ParallelNode Node} (ticks : q.ask.Ticks)
    (node : q.node = .parallel n) :
    ∃ r, Walk n.name (fun _ => True) 0 q.node.children q.world r ∧
      interpreter.calls q = r.calls ∧
      Verdict q.node.activeChild r.stop (interpreter.solve q).result
        (interpreter.solve q).node.activeChild ∧
      (interpreter.solve q).node.children = r.children ∧
      (interpreter.solve q).world.Keeps r.world := by
  have answer := interpreter_solve q
  have calls := interpreter_calls q
  rw [requestBody_ticks ticks] at answer calls
  obtain ⟨ask, node', w⟩ := q
  obtain rfl : node' = .parallel n := node
  simp only [tickBody, Body.run_map, Body.calls_map] at answer calls
  rw [answer, calls]
  exact parallelWith_walks

/-! ## Decorators -/

omit [Crates] [Session σ] in
theorem cooldownClosed_keeps {ν : Type} (node : CooldownNode ν) (w : World σ κ) :
    (cooldownClosed node w).2.Keeps w ∧
      (cooldownClosed node w).2.tracer.pathStack = w.tracer.pathStack := by
  unfold cooldownClosed
  split <;> exact ⟨⟨rfl, rfl⟩, rfl⟩

omit [Crates] [Session σ] [Clock κ] in
theorem Relayed.same (result : Except Fault NodeStatus) : Relayed result result := by
  cases result with
  | error e => exact .failed
  | ok status =>
      cases status with
      | running => exact .waits
      | success | failure => exact .done (by decide) (by decide)

omit [Crates] [Session σ] [Clock κ] in
theorem Relayed.invert (result : Except Fault NodeStatus) :
    Relayed result (result.map NodeStatus.invert) := by
  cases result with
  | error e => exact .failed
  | ok status =>
      cases status with
      | running => exact .waits
      | success | failure => exact .done (by decide) (by decide)

/-- A tick of a decorator that makes no attempts. -/
theorem decorator_tick {q : Request σ κ} (ticks : q.ask.Ticks) (decorator : q.node.Decorator) :
    Passes q := by
  have answer := interpreter_solve q
  have calls := interpreter_calls q
  rw [requestBody_ticks ticks] at answer calls
  obtain ⟨ask, node, w⟩ := q
  cases node with
  | inverter n =>
      simp only [tickBody, Body.run_map, Body.calls_map, tickInverter, inverterWith, Body.run_call,
        Body.calls_call, Body.run_ret, Body.calls_ret] at answer calls
      exact .called rfl calls rfl (.refl w) (by rw [answer]; rfl) (by rw [answer]; exact .invert _)
        (by rw [answer]; exact .refl _)
  | forceHuman n =>
      simp only [tickBody, Body.run_map, Body.calls_map, tickForceHuman, forceHumanWith,
        Body.run_call, Body.calls_call] at answer calls
      split at answer <;> split at calls <;>
        exact .called rfl calls rfl (.refl w) (by rw [answer]; rfl) (by rw [answer]; exact .same _)
          (by rw [answer]; exact ⟨rfl, rfl⟩)
  | when n =>
      cases checked : n.condition.evaluate w.blackboard with
      | error e =>
          simp only [tickBody, Body.run_map, Body.calls_map, tickWhen, whenWith, checked,
            Body.run_ret, Body.calls_ret] at answer calls
          exact .failed calls (by rw [answer]; rfl) (by rw [answer]; rfl) (by rw [answer]; exact .refl w)
      | ok holds =>
          cases holds with
          | false =>
              simp only [tickBody, Body.run_map, Body.calls_map, tickWhen, whenWith, checked,
                Body.run_ret, Body.calls_ret] at answer calls
              exact .closed (.when rfl checked) calls (by rw [answer]; rfl) (by rw [answer]; rfl)
                (by rw [answer]; exact .refl w)
          | true =>
              simp only [tickBody, Body.run_map, Body.calls_map, tickWhen, whenWith, checked,
                Body.run_call, Body.calls_call, Body.run_ret, Body.calls_ret] at answer calls
              exact .called rfl calls rfl (.refl w) (by rw [answer]; rfl)
                (by rw [answer]; exact .same _) (by rw [answer]; exact .refl _)
  | reflectionGuard n =>
      simp only [tickBody, Body.run_map, Body.calls_map, tickReflectionGuard,
        reflectionGuardWith] at answer calls
      split at answer
      · next reached =>
          simp only [reached, if_true, Body.run_ret, Body.calls_ret] at answer calls
          exact .closed (.reflectionGuard rfl reached) calls (by rw [answer]; rfl) (by rw [answer]; rfl)
            (by rw [answer]; exact .refl w)
      · next room =>
          simp only [room, if_false, Body.run_call, Body.calls_call] at answer calls
          have quiet : interpreter.calls ⟨ask, .reflectionGuard n, w⟩ = [⟨.tick, n.child, w⟩] := by
            rw [calls]
            split
            · split <;> rfl
            · rfl
          split at answer
          · next success =>
              split at answer
              · exact .called rfl quiet rfl (.refl w) (by rw [answer]; rfl)
                  (by rw [answer, success]; exact .panicked (by decide)) (by rw [answer]; exact .refl _)
              · exact .called rfl quiet rfl (.refl w) (by rw [answer]; rfl)
                  (by rw [answer]; exact .same _) (by rw [answer]; exact ⟨rfl, rfl⟩)
          · exact .called rfl quiet rfl (.refl w) (by rw [answer]; rfl) (by rw [answer]; exact .same _)
              (by rw [answer]; exact .refl _)
  | cooldown n =>
      obtain ⟨keeps, stack⟩ := cooldownClosed_keeps n w
      simp only [tickBody, Body.run_map, Body.calls_map, tickCooldown, cooldownWith] at answer calls
      split at answer
      · next closed =>
          simp only [closed, if_true, Body.run_ret, Body.calls_ret] at answer calls
          exact .closed (.cooldown rfl closed) calls (by rw [answer]; rfl) (by rw [answer]; rfl)
            (by rw [answer]; exact keeps)
      · next open_ =>
          rw [if_neg open_] at calls
          simp only [Body.run_call, Body.calls_call] at answer calls
          split at answer <;> split at calls <;>
            exact .called rfl calls stack keeps (by rw [answer]; rfl) (by rw [answer]; exact .same _)
              (by rw [answer]; exact ⟨rfl, rfl⟩)
  | subTree n =>
      have ticked : tickBody (.subTree n) w = (subTreeWith .tick n w).map (.map .subTree) := rfl
      rcases subTreeWith_cases .tick n w with ⟨e, body, -⟩ | ⟨root, scopes, resolved, -, body⟩
      · rw [ticked, body] at answer calls
        exact .failed calls (by rw [answer]; rfl) (by rw [answer]; rfl)
          (by rw [answer]; exact ⟨rfl, rfl⟩)
      · rw [ticked, body] at answer calls
        have keeps (r : Answer σ κ) : (n.leave r).Keeps r.world := by
          unfold SubTreeNode.leave
          split <;> exact ⟨rfl, rfl⟩
        have only : (Node.subTree n).children = [root] := by
          rw [Node.children, resolved]
          rfl
        exact .called only calls rfl ⟨rfl, rfl⟩ (by rw [answer]; rfl) (by rw [answer]; exact .same _)
          (by rw [answer]; exact keeps _)
  | _ => exact absurd decorator id

theorem repeaterLoop_attempts {left : Nat} : ∀ {n : RepeaterNode Node} {w : World σ κ},
    n.maxAttempts.toNat - n.current.toNat = left →
    ∃ r, Attempts n.maxAttempts n.current n.child w r ∧
      (repeaterLoop (.replicate left .tick) n w).calls interpreter.solve = r.calls ∧
      (repeaterLoop (.replicate left .tick) n w).run interpreter.solve =
        ⟨r.result, { n with child := r.child, current := r.current }, r.world⟩ := by
  induction left with
  | zero =>
      intro n w count
      have out : n.maxAttempts ≤ n.current := by
        rw [UInt32.le_iff_toNat_le]
        omega
      exact ⟨_, .ranOut out, rfl, rfl⟩
  | succ left ih =>
      intro n w count
      simp only [List.replicate_succ, repeaterLoop, Body.run_call, Body.calls_call]
      let a := interpreter.solve ⟨.tick, n.child, w⟩
      have counted (status : NodeStatus) (done : status ≠ .running) (result : a.result = .ok status) :
          let loop := repeaterCount { n with child := a.node } status a.world
            (repeaterLoop (.replicate left .tick))
          ∃ r, Attempts n.maxAttempts n.current n.child w r ∧
            ⟨.tick, n.child, w⟩ :: loop.calls interpreter.solve = r.calls ∧
            loop.run interpreter.solve =
              ⟨r.result, { n with child := r.child, current := r.current }, r.world⟩ := by
        simp only [repeaterCount]
        split
        · next full => exact ⟨_, .panicked result done full, rfl, rfl⟩
        · next room =>
            split
            · next spent => exact ⟨_, .last result done spent, rfl, rfl⟩
            · next more =>
                have left' : n.current + 1 < n.maxAttempts := UInt32.not_le.mp more
                have next : (n.current + 1).toNat = n.current.toNat + 1 := by
                  have below : n.current.toNat + 1 < UInt32.size :=
                    Nat.lt_of_le_of_ne n.current.toNat_lt_size room
                  rw [UInt32.toNat_add, UInt32.toNat_one]
                  exact Nat.mod_eq_of_lt below
                obtain ⟨r, attempts, calls, run⟩ :=
                  @ih { n with child := a.node, current := n.current + 1 } a.world (by simp only [next]; omega)
                exact ⟨_, .again result done left' attempts, congrArg (_ :: ·) calls, run⟩
      cases result : (interpreter.solve ⟨.tick, n.child, w⟩).result with
      | error e =>
          simp only [repeaterAttempt, result]
          exact ⟨_, .failed result, rfl, rfl⟩
      | ok status =>
          simp only [repeaterAttempt, result]
          cases status with
          | running => exact ⟨_, .waits result, rfl, rfl⟩
          | success => exact counted .success (by decide) result
          | failure => exact counted .failure (by decide) result

/-- A tick of a repeater. -/
theorem repeater_tick {q : Request σ κ} {n : RepeaterNode Node} (ticks : q.ask.Ticks)
    (node : q.node = .repeater n) :
    (n.maxAttempts = 0 ∧ interpreter.calls q = [] ∧
      interpreter.solve q = ⟨.ok .failure, q.node, q.world⟩) ∨
    (n.maxAttempts ≠ 0 ∧ ∃ r, Attempts n.maxAttempts n.current n.child q.world r ∧
      interpreter.calls q = r.calls ∧ interpreter.solve q =
        ⟨r.result, .repeater { n with child := r.child, current := r.current }, r.world⟩) := by
  have answer := interpreter_solve q
  have calls := interpreter_calls q
  rw [requestBody_ticks ticks] at answer calls
  obtain ⟨ask, node', w⟩ := q
  obtain rfl : node' = .repeater n := node
  simp only [tickBody, tickRepeater] at answer calls
  split at answer
  · next off =>
      rw [if_pos off] at calls
      exact .inl ⟨off, calls, answer⟩
  · next on =>
      rw [if_neg on] at calls
      obtain ⟨r, attempts, called, run⟩ := repeaterLoop_attempts (n := n) (w := w) rfl
      rw [Body.run_map, run] at answer
      rw [Body.calls_map, called] at calls
      exact .inr ⟨on, r, attempts, calls, answer⟩

/-! ## Leaves -/

theorem immediate_tick {q : Request σ κ} (immediate : q.node.Immediate) :
    interpreter.calls q = [] ∧ (interpreter.solve q).node = q.node ∧
      (interpreter.solve q).result ≠ .ok .running ∧ (interpreter.solve q).world.Keeps q.world := by
  rw [interpreter_solve, interpreter_calls]
  cases q using requestBody_cases with
  | condition ask n w =>
      refine ⟨rfl, ?_⟩
      rw [Body.run_ret, tickCondition]
      split <;> exact ⟨rfl, nofun, .refl w⟩
  | action ask n w =>
      have emitted : (emitCommand n w).node = n ∧ (emitCommand n w).result ≠ .ok .running ∧
          (emitCommand n w).world.Keeps w := by
        unfold emitCommand
        split
        · exact ⟨rfl, nofun, .refl w⟩
        · exact ⟨rfl, nofun, ⟨rfl, rfl⟩⟩
      have ticked : (tickAction n w).node = n ∧ (tickAction n w).result ≠ .ok .running ∧
          (tickAction n w).world.Keeps w := by
        unfold tickAction
        split
        · exact emitted
        · split
          · exact ⟨rfl, nofun, .refl w⟩
          · exact ⟨rfl, nofun, .refl w⟩
          · exact emitted
      exact ⟨rfl, congrArg Node.action ticked.1, ticked.2⟩
  | setVar ask n w =>
      exact ⟨rfl, rfl, nofun, ⟨rfl, rfl⟩⟩
  | _ => exact absurd immediate id

theorem prompt_tick {q : Request σ κ} {n : PromptNode} (node : q.node = .prompt n) :
    interpreter.calls q = [] ∧ interpreter.solve q = (tickPrompt n q.world).map .prompt := by
  rw [interpreter_solve, interpreter_calls]
  cases q using requestBody_cases with
  | prompt ask m w =>
      obtain rfl := Node.prompt.inj node
      exact ⟨rfl, rfl⟩
  | _ => cases node

/-- `send` or, for a prompt with a model, `send_with_hint`. -/
def PromptNode.send (n : PromptNode) (rendered : String) (session : σ) : Except SessionError Unit × σ :=
  match n.model with
  | some model => Session.sendWithHint session rendered model
  | none => Session.send session rendered

/-- What a tick of a prompt does: a pending one times out, waits, fails to receive or
    consumes a reply, another one sends. -/
inductive Prompting (n : PromptNode) (w : World σ κ) (r : Run σ κ PromptNode) : Prop where
  | timedOut (pending : n.pending = true) (result : r.result = .ok .failure)
      (node : r.node = n.settle) (session : r.world.session = w.session)
  | waits (pending : n.pending = true) (ready : Session.isReady w.session = (false, r.world.session))
      (result : r.result = .ok .running) (node : r.node = n)
  | refused {session : σ} {e : SessionError} (pending : n.pending = true)
      (ready : Session.isReady w.session = (true, session))
      (received : Session.receive session = (.error e, r.world.session))
      (result : r.result = .error (.error (.ofSession e))) (node : r.node = n)
  | consumed {session : σ} {reply : String} {status : NodeStatus} {v : World σ κ}
      (pending : n.pending = true) (ready : Session.isReady w.session = (true, session))
      (received : Session.receive session = (.ok reply, r.world.session))
      (consumes : r = consumeReply n reply v) (result : r.result = .ok status)
      (done : status ≠ .running) (node : r.node = n.settle)
  | unrendered {e : Fault} (idle : n.pending = false) (result : r.result = .error e)
      (node : r.node = n) (session : r.world.session = w.session)
  | unsent {rendered : String} {e : SessionError} (idle : n.pending = false)
      (sent : n.send rendered w.session = (.error e, r.world.session))
      (result : r.result = .error (.error (.ofSession e))) (node : r.node = n)
  | sent {rendered : String} (idle : n.pending = false)
      (sent : n.send rendered w.session = (.ok (), r.world.session))
      (result : r.result = .ok .running) (node : r.node.pending = true)

omit [Session σ] [Clock κ] in
theorem consumeReply_done (n : PromptNode) (reply : String) (w : World σ κ) :
    ∃ status, (consumeReply n reply w).result = .ok status ∧ status ≠ .running ∧
      (consumeReply n reply w).node = n.settle ∧
      (consumeReply n reply w).world.session = w.session := by
  simp only [consumeReply]
  split
  · exact ⟨.success, rfl, by decide, rfl, rfl⟩
  · exact ⟨.failure, rfl, by decide, rfl, rfl⟩

omit [Crates] [Session σ] in
theorem promptTimedOut_session (n : PromptNode) (w : World σ κ) :
    (promptTimedOut n w).2.session = w.session := by
  unfold promptTimedOut
  split <;> rfl

theorem awaitReply_prompting {n : PromptNode} (pending : n.pending = true) (w : World σ κ) :
    Prompting n w (awaitReply n w) := by
  have session := promptTimedOut_session n w
  simp only [awaitReply]
  split
  · exact .timedOut pending rfl rfl session
  · split
    · next v ready => exact .waits pending (session ▸ ready) rfl rfl
    · next v ready =>
        split
        · next e v' received => exact .refused pending (session ▸ ready) received rfl rfl
        · next reply v' received =>
            obtain ⟨status, result, done, node, kept⟩ :=
              consumeReply_done n reply ((promptTimedOut n w).2.withSession v')
            exact .consumed pending (session ▸ ready) (by rw [kept]; exact received) rfl result done node

theorem sendPrompt_prompting {n : PromptNode} (idle : n.pending = false) (w : World σ κ) :
    Prompting n w (sendPrompt n w) := by
  unfold sendPrompt
  split
  · exact .unrendered idle rfl rfl rfl
  · dsimp only
    split
    · next e failed => exact .unsent idle (Prod.ext failed rfl) rfl rfl
    · next done => exact .sent idle (Prod.ext done rfl) rfl rfl

theorem tickPrompt_prompting (n : PromptNode) (w : World σ κ) : Prompting n w (tickPrompt n w) := by
  unfold tickPrompt
  split
  · next pending => exact awaitReply_prompting pending w
  · next idle => exact sendPrompt_prompting (Bool.eq_false_iff.mpr idle) w

end

end AgileAgent.DecisionDsl
