import AgileAgent.DecisionDsl.Ready

/-! # How often an action runs

Without repeaters a tick calls every child of a node at most once, so every action pushes
its command at most once in a tick. Over several `Running` ticks the same holds outside
parallel nodes: selectors and sequences do not go back behind their `active_child`. A
parallel node ticks all its children again.
-/

namespace AgileAgent.DecisionDsl

open CallTree

/-- No node of the tree is a repeater. -/
abbrev Node.NoRepeater : Node → Prop := Node.All fun n => ∀ m, n ≠ .repeater m

theorem Node.not_repeater_of_reset {m n : Node} (same : m.reset = n.reset)
    (single : ∀ k, n ≠ .repeater k) (k : RepeaterNode Node) : m ≠ .repeater k := by
  rintro rfl
  cases n with
  | repeater n => exact single n rfl
  | subTree n => rw [reset_subTree] at same; cases same
  | _ => cases same

theorem Node.NoRepeater.of_reset {m n : Node} (none : n.NoRepeater) (same : m.reset = n.reset) :
    m.NoRepeater :=
  Node.All.of_reset not_repeater_of_reset none same

/-- The path leads from `n` to `m` and no parallel node lies on the way. -/
inductive Straight : Node → List Nat → Node → Prop where
  | refl (n : Node) : Straight n [] n
  | step {n child m : Node} {i : Nat} {path : List Nat} (serial : ∀ k, n ≠ .parallel k)
      (at_i : n.children[i]? = some child) (below : Straight child path m) :
      Straight n (n.edge i ++ path) m

theorem Straight.of_reset {n n' : Node} {path : List Nat} {a : ActionNode}
    (straight : Straight n path (.action a)) (same : n'.reset = n.reset) :
    ∃ a', Straight n' path (.action a') := by
  generalize leaf : Node.action a = m at straight
  induction straight generalizing n' with
  | refl n =>
      subst leaf
      cases n' with
      | action a' => exact ⟨a', .refl _⟩
      | subTree n => rw [Node.reset_subTree] at same; cases same
      | _ => cases same
  | @step n child m i path serial at_i below ih =>
      obtain ⟨twin, at_twin, twin_same⟩ := Node.child_of_reset same.symm at_i
      obtain ⟨a', below'⟩ := ih twin_same leaf
      refine ⟨a', ?_⟩
      rw [← Node.edge_of_reset same]
      refine .step ?_ at_twin below'
      rintro k rfl
      obtain ⟨k', rfl⟩ := Node.parallel_of_reset same.symm
      exact serial k' rfl

/-- The markers are past this path: a selector or sequence on it goes on behind it. -/
inductive Passed : Node → List Nat → Prop where
  | behind {n : Node} {i active : Nat} {path : List Nat} (ordered : n.Ordered)
      (marker : n.activeChild = some active) (less : i < active) : Passed n (i :: path)
  | inside {n child : Node} {i : Nat} {path : List Nat} (at_i : n.children[i]? = some child)
      (passed : Passed child path) : Passed n (n.edge i ++ path)

theorem Passed.ordered {n : Node} {i : Nat} {path : List Nat} (passed : Passed n (i :: path))
    (ordered : n.Ordered) : (∃ active, n.activeChild = some active ∧ i < active) ∨
      ∃ child, n.children[i]? = some child ∧ Passed child path := by
  generalize whole : i :: path = p at passed
  cases passed with
  | behind _ marker less =>
      obtain ⟨rfl, -⟩ := List.cons.inj whole
      exact .inl ⟨_, marker, less⟩
  | inside at_i passed =>
      rw [Node.edge_composite ordered.composite] at whole
      obtain ⟨rfl, rfl⟩ := List.cons.inj whole
      exact .inr ⟨_, at_i, passed⟩

theorem Passed.decorator {n child : Node} {path : List Nat} (passed : Passed n path)
    (decorator : n.Decorator) (only : n.children = [child]) : Passed child path := by
  cases passed with
  | behind ordered => exact absurd ordered.composite decorator.not_composite
  | inside at_i passed =>
      obtain ⟨-, only'⟩ := Node.index_zero decorator.not_composite at_i
      rw [Node.edge_decorator decorator.not_composite]
      obtain rfl := List.singleton_inj.mp (only.symm.trans only')
      exact passed

theorem Passed.not_leaf {n : Node} {path : List Nat} (immediate : n.Immediate) : ¬ Passed n path := by
  intro passed
  cases passed with
  | behind ordered =>
      cases n with
      | selector | sequence => exact immediate
      | _ => exact ordered
  | inside at_i =>
      rw [immediate.atRest.2] at at_i
      cases at_i

section

variable {σ κ ν : Type} [Crates] [Session σ] [Clock κ]

def Node.isAction : Node → Bool
  | .action _ => true
  | _ => false

/-- An action that pushes its command. -/
def Pushes (q : Request σ κ) : Bool :=
  q.node.isAction && (interpreter.solve q).result = .ok .success

omit [Session σ] [Clock κ] in
theorem tickAction_commands (n : ActionNode) (w : World σ κ) :
    ((tickAction n w).result = .ok .success ∧
      ∃ c, (tickAction n w).world.blackboard.commands = w.blackboard.commands ++ [c]) ∨
    ((tickAction n w).result ≠ .ok .success ∧
      (tickAction n w).world.blackboard.commands = w.blackboard.commands) := by
  have emitted : ((emitCommand n w).result = .ok .success ∧
        ∃ c, (emitCommand n w).world.blackboard.commands = w.blackboard.commands ++ [c]) ∨
      ((emitCommand n w).result ≠ .ok .success ∧
        (emitCommand n w).world.blackboard.commands = w.blackboard.commands) := by
    unfold emitCommand
    split
    · exact .inr ⟨nofun, rfl⟩
    · next rendered _ => exact .inl ⟨rfl, rendered, rfl⟩
  unfold tickAction
  split
  · exact emitted
  · split
    · exact .inr ⟨nofun, rfl⟩
    · exact .inr ⟨nofun, rfl⟩
    · exact emitted

/-- An action pushes one command when it succeeds, and none otherwise. -/
theorem action_commands {q : Request σ κ} (action : q.node.isAction = true) :
    (Pushes q = true ∧
      ∃ c, (interpreter.solve q).world.blackboard.commands = q.world.blackboard.commands ++ [c]) ∨
    (Pushes q = false ∧
      (interpreter.solve q).world.blackboard.commands = q.world.blackboard.commands) := by
  simp only [Pushes, action, Bool.true_and, decide_eq_true_eq, decide_eq_false_iff_not]
  rw [interpreter_solve]
  cases q using requestBody_cases with
  | action ask n w => exact tickAction_commands n w
  | _ => cases action

/-! ## One tick -/

/-- The calls of a composite's loop go to the listed children, in their order. -/
def Along (stack : List Nat) (visits : List (Nat × Ask)) (loop : Routine σ κ ν) : Prop :=
  ((loop.calls interpreter.solve).map (·.world.tracer.pathStack)).Sublist
    (visits.map fun v => stack ++ [v.1])

theorem Along.ret {stack : List Nat} {visits : List (Nat × Ask)} {r : Run σ κ ν} :
    Along stack visits (.ret r) := List.nil_sublist _

theorem Along.visitChild {name : String} {children : List Node} {i : Nat} {ask : Ask}
    {visits : List (Nat × Ask)} {w : World σ κ} {failed : Fault → List Node → World σ κ → Run σ κ ν}
    {next : NodeStatus → List Node → World σ κ → Routine σ κ ν}
    (rest : ∀ status ns v, v.tracer.pathStack = w.tracer.pathStack →
      Along w.tracer.pathStack visits (next status ns v)) :
    Along w.tracer.pathStack ((i, ask) :: visits) (visitChild name children i ask w failed next) := by
  unfold DecisionDsl.visitChild
  split
  · exact .ret
  · next child _ =>
      simp only [Along, Body.calls_call, List.map_cons]
      apply List.Sublist.cons_cons
      split
      · exact List.nil_sublist _
      · next status result =>
          apply rest
          change (interpreter.solve _).world.tracer.pathStack.dropLast = _
          rw [(interpreter_traced result).pathStack]
          exact List.dropLast_concat

theorem selectorLoop_along {visits : List (Nat × Ask)} : ∀ (n : SelectorNode Node) (w : World σ κ),
    Along w.tracer.pathStack visits (selectorLoop visits n w) := by
  induction visits with
  | nil => exact fun n w => .ret
  | cons visit rest ih =>
      intro n w
      apply Along.visitChild
      intro status ns v same
      cases status with
      | success | running => exact .ret
      | failure => exact same ▸ ih _ v

theorem sequenceLoop_along {visits : List (Nat × Ask)} : ∀ (n : SequenceNode Node) (w : World σ κ),
    Along w.tracer.pathStack visits (sequenceLoop visits n w) := by
  induction visits with
  | nil => exact fun n w => .ret
  | cons visit rest ih =>
      intro n w
      apply Along.visitChild
      intro status ns v same
      cases status with
      | failure | running => exact .ret
      | success => exact same ▸ ih _ v

theorem parallelLoop_along {visits : List (Nat × Ask)} : ∀ (s f k : Nat) (n : ParallelNode Node)
    (w : World σ κ), Along w.tracer.pathStack visits (parallelLoop visits s f k n w) := by
  induction visits with
  | nil => exact fun s f k n w => .ret
  | cons visit rest ih =>
      intro s f k n w
      apply Along.visitChild
      intro status ns v same
      cases status <;> exact same ▸ ih _ _ _ _ v

/-- Nothing lies below the stacks of both requests. -/
def Apart (q q' : Request σ κ) : Prop :=
  ∀ path, q.world.tracer.pathStack <+: path → ¬ q'.world.tracer.pathStack <+: path

theorem Along.apart {stack : List Nat} {visits : List (Nat × Ask)} {loop : Routine σ κ ν}
    (along : Along stack visits loop) (ascending : Ascending visits) :
    (loop.calls interpreter.solve).Pairwise Apart := by
  have distinct : (visits.map fun v => stack ++ [v.1]).Pairwise
      fun l l' => ∀ path, l <+: path → ¬ l' <+: path := by
    rw [List.pairwise_map]
    apply List.Pairwise.imp ?_ (List.pairwise_map.mp ascending)
    intro v v' less path below below'
    have both := List.prefix_of_prefix_length_le below below' (by simp)
    have same := both.eq_of_length (by simp)
    simp only [List.append_cancel_left_eq, List.cons.injEq, and_true] at same
    omega
  have apart := List.Pairwise.sublist along distinct
  rw [List.pairwise_map] at apart
  exact apart

omit [Crates] [Session σ] [Clock κ] in
theorem apart_of_length {calls : List (Request σ κ)} (single : calls.length ≤ 1) :
    calls.Pairwise Apart := by
  match calls with
  | [] => exact .nil
  | [q] => exact List.pairwise_singleton _ _
  | _ :: _ :: _ => simp at single

/-- Every node but a repeater calls each of its children at most once. -/
theorem calls_apart {q : Request σ κ} (single : ∀ m, q.node ≠ .repeater m) :
    (interpreter.calls q).Pairwise Apart := by
  rw [interpreter_calls]
  cases q using requestBody_cases with
  | selector ask n w visits ascending =>
      rw [Body.calls_map]
      exact (selectorLoop_along n w).apart ascending
  | sequence ask n w visits ascending =>
      rw [Body.calls_map]
      exact (sequenceLoop_along n w).apart ascending
  | parallel ask n w asks =>
      rw [Body.calls_map, parallelWith]
      split
      · exact .nil
      · refine (parallelLoop_along _ _ _ n w).apart ?_
        have indices : ((List.range n.children.length).map fun i => (i, asks i)).map (·.1) =
            List.range n.children.length := by
          rw [List.map_map]
          exact List.map_id _
        rw [Ascending, indices]
        exact List.pairwise_lt_range
  | repeaterOff ask n | repeater ask n => exact absurd rfl (single n)
  | inverter => exact apart_of_length (Nat.le_refl 1)
  | cooldown ask n w ask' =>
      rw [Body.calls_map]
      simp only [cooldownWith]
      split
      · exact .nil
      · apply apart_of_length
        rw [Body.calls_call]
        split <;> exact Nat.le_refl 1
  | reflectionGuard ask n w ask' =>
      rw [Body.calls_map, reflectionGuardWith]
      split
      · exact .nil
      · apply apart_of_length
        rw [Body.calls_call]
        dsimp only
        split
        · split <;> exact Nat.le_refl 1
        · exact Nat.le_refl 1
  | forceHuman ask n w ask' =>
      apply apart_of_length
      rw [Body.calls_map, forceHumanWith, Body.calls_call]
      dsimp only
      split <;> exact Nat.le_refl 1
  | when ask n w ask' =>
      rw [Body.calls_map, whenWith]
      split
      · exact .nil
      · exact .nil
      · exact apart_of_length (Nat.le_refl 1)
  | condition | action | prompt | setVar => exact .nil
  | subTree ask n w ask' =>
      rw [Body.calls_map]
      rcases subTreeWith_cases ask' n w with ⟨e, body, -⟩ | ⟨root, scopes, -, -, body⟩
      · rw [body]
        exact .nil
      · rw [body]
        exact apart_of_length (Nat.le_refl 1)

/-- The actions that pushed during a request, each by the stack of indices that leads to it. -/
def positions (q : Request σ κ) : List (List Nat) :=
  ((interpreter.trail q).filter Pushes).map (·.world.tracer.pathStack)

theorem positions_eq (q : Request σ κ) : positions q =
    (if Pushes q then [q.world.tracer.pathStack] else []) ++
      (interpreter.calls q).flatMap positions := by
  have below : (((interpreter.calls q).flatMap interpreter.trail).filter Pushes).map
      (·.world.tracer.pathStack) = (interpreter.calls q).flatMap positions := by
    rw [List.filter_flatMap, List.map_flatMap]
    rfl
  rw [positions, interpreter.trail_eq, List.filter_cons, ← below]
  split <;> rfl

theorem positions_below {q : Request σ κ} {path : List Nat} (pushed : path ∈ positions q) :
    q.world.tracer.pathStack <+: path := by
  obtain ⟨v, visited, rfl⟩ := List.mem_map.mp pushed
  obtain ⟨path, m, located, -⟩ := trail_leads (List.mem_filter.mp visited).1
  exact ⟨path, located.symm⟩

theorem pushes_leaf {q : Request σ κ} (pushes : Pushes q = true) :
    (∃ n, q.node = .action n) ∧ interpreter.calls q = [] := by
  have action : q.node.isAction = true := (Bool.and_eq_true_iff.mp pushes).1
  cases node : q.node with
  | action n =>
      have immediate : q.node.Immediate := by
        rw [node]
        trivial
      exact ⟨⟨n, rfl⟩, (immediate_tick immediate).1⟩
  | _ => rw [node] at action; cases action

/-- Without repeaters no action pushes twice in one request. -/
theorem positions_nodup (q : Request σ κ) (single : q.node.NoRepeater) : (positions q).Nodup := by
  refine interpreter.induct (motive := fun q => q.node.NoRepeater → (positions q).Nodup)
    (fun q ih single => ?_) q single
  have below : ((interpreter.calls q).flatMap positions).Nodup := by
    rw [List.nodup_flatMap]
    constructor
    · intro q' called
      exact ih q' called (all_of_call Node.not_repeater_of_reset single called)
    · cases single with
      | mk here _ =>
          refine (calls_apart here).imp fun {q' q''} apart => ?_
          intro path pushed pushed'
          exact apart path (positions_below pushed) (positions_below pushed')
  rw [positions_eq]
  split
  · next pushes =>
      rw [(pushes_leaf pushes).2]
      exact List.nodup_singleton _
  · exact below

/-- The pushes of the action that this stack of indices leads to. -/
def pushesAt (path : List Nat) (q : Request σ κ) : Nat := (positions q).count path

theorem pushesAt_le_one {q : Request σ κ} (single : q.node.NoRepeater) (path : List Nat) :
    pushesAt path q ≤ 1 := List.nodup_iff_count_le_one.mp (positions_nodup q single) path

/-! ## A run -/

theorem Walk.stop_ge {name : String} {goes : NodeStatus → Prop} {start i : Nat} {ns : List Node}
    {w : World σ κ} {r : Walked σ κ} {result : Except Fault NodeStatus}
    (walk : Walk name goes start ns w r) (stop : r.stop = some (i, result)) : start ≤ i := by
  induction walk with
  | ranOut => cases stop
  | failed | stopped =>
      cases stop
      exact Nat.le_refl _
  | went _ _ _ _ ih => exact Nat.le_of_succ_le (ih stop)

/-- A call of a walk goes to a child as it was before, and only the last one stops it. -/
theorem Walk.call_at {name : String} {goes : NodeStatus → Prop} {start : Nat} {ns : List Node}
    {w : World σ κ} {r : Walked σ κ} (walk : Walk name goes start ns w r) {q : Request σ κ}
    (called : q ∈ r.calls) : ∃ i, start ≤ i ∧ ns[i]? = some q.node ∧
      q.world.tracer.pathStack = w.tracer.pathStack ++ [i] ∧
      ∀ j result, r.stop = some (j, result) → i ≤ j ∧ (i = j →
        (interpreter.solve q).result = result ∧
          r.children[i]? = some (interpreter.solve q).node) := by
  induction walk with
  | ranOut => cases called
  | @failed start ns w child e at_start result =>
      obtain rfl := List.mem_singleton.mp called
      refine ⟨start, Nat.le_refl _, at_start, rfl, fun j outcome stop => ?_⟩
      cases stop
      refine ⟨Nat.le_refl _, fun _ => ⟨result, ?_⟩⟩
      exact List.getElem?_set_self (List.getElem?_eq_some_iff.mp at_start).1
  | @stopped start ns w child status at_start result stops =>
      obtain rfl := List.mem_singleton.mp called
      refine ⟨start, Nat.le_refl _, at_start, rfl, fun j outcome stop => ?_⟩
      cases stop
      refine ⟨Nat.le_refl _, fun _ => ⟨result, ?_⟩⟩
      exact List.getElem?_set_self (List.getElem?_eq_some_iff.mp at_start).1
  | @went start ns w child status r at_start result on walk ih =>
      rcases List.mem_cons.mp called with rfl | later
      · refine ⟨start, Nat.le_refl _, at_start, rfl, fun j outcome stop => ?_⟩
        have less : start + 1 ≤ j := walk.stop_ge stop
        exact ⟨by omega, fun same => absurd same (by omega)⟩
      · obtain ⟨i, after, at_i, stack, last⟩ := ih later
        refine ⟨i, by omega, ?_, ?_, last⟩
        · rwa [List.getElem?_set_ne (by omega)] at at_i
        · rw [stack, (visit_left result).1]

/-- Children that a walk does not reach stay as they are. -/
theorem Walk.untouched {name : String} {goes : NodeStatus → Prop} {start i : Nat} {ns : List Node}
    {w : World σ κ} {r : Walked σ κ} (walk : Walk name goes start ns w r)
    (beyond : i < start ∨ ∃ j result, r.stop = some (j, result) ∧ j < i) :
    r.children[i]? = ns[i]? := by
  induction walk with
  | ranOut => rfl
  | failed | stopped =>
      apply List.getElem?_set_ne
      rcases beyond with less | ⟨j, _, stop, less⟩
      · omega
      · cases stop
        omega
  | @went start ns w child status r _ _ _ walk ih =>
      have other : start ≠ i := by
        rcases beyond with less | ⟨j, result, stop, less⟩
        · omega
        · have := walk.stop_ge stop
          omega
      have further : i < start + 1 ∨ ∃ j result, r.stop = some (j, result) ∧ j < i := by
        rcases beyond with less | later
        · exact .inl (by omega)
        · exact .inr later
      have same := ih further
      rwa [List.getElem?_set_ne other] at same

/-- The path stored by a walk that `Running` stopped. -/
theorem Walk.waits_path {name : String} {goes : NodeStatus → Prop} {start i : Nat} {ns : List Node}
    {w : World σ κ} {r : Walked σ κ} (walk : Walk name goes start ns w r)
    (stop : r.stop = some (i, .ok .running)) :
    r.world.tracer.runningPath = w.tracer.pathStack := by
  induction walk with
  | ranOut | failed => cases stop
  | stopped _ result =>
      cases stop
      exact (visit_left result).2
  | went _ result _ _ ih => rw [ih stop, (visit_left result).1]

theorem pushesAt_eq {q : Request σ κ} (other : Pushes q = false) (path : List Nat) :
    pushesAt path q = ((interpreter.calls q).map (pushesAt path)).sum := by
  rw [pushesAt, positions_eq, other, List.count_append, List.count_flatMap]
  simp only [Bool.false_eq_true, if_false, List.count_nil, Nat.zero_add]
  rfl

theorem pushesAt_elsewhere {q : Request σ κ} {path : List Nat}
    (elsewhere : ¬ q.world.tracer.pathStack <+: path) : pushesAt path q = 0 :=
  List.count_eq_zero.mpr fun pushed => elsewhere (positions_below pushed)

/-- What a tick does to the action at the end of a path: none where the markers are past
    it, and a tick that returns `Running` leaves them past it if it pushed. -/
structure Turned (path : List Nat) (q : Request σ κ) : Prop where
  quiet : Passed q.node path → pushesAt (q.world.tracer.pathStack ++ path) q = 0
  passed : (interpreter.solve q).result = .ok .running →
    Passed q.node path ∨ pushesAt (q.world.tracer.pathStack ++ path) q ≠ 0 →
    Passed (interpreter.solve q).node path
  stored : (interpreter.solve q).result = .ok .running →
    (interpreter.solve q).world.tracer.runningPath = q.world.tracer.runningPath ∨
    (interpreter.solve q).world.tracer.runningPath = q.world.tracer.pathStack

theorem ordered_turned {q : Request σ κ} {child : Node} {i : Nat} {path : List Nat}
    (ticks : q.ask.Ticks) (ordered : q.node.Ordered) (at_i : q.node.children[i]? = some child)
    (calls : ∀ q' ∈ interpreter.calls q, q'.ask.Ticks → q'.node = child → Turned path q') :
    Turned (i :: path) q := by
  obtain ⟨name, goes, r, stops, walk, called, ending, children, leaves⟩ := ordered_tick ticks ordered
  have ordered' := Node.ordered_of_reset (interpreter_reset q) ordered
  have sum : pushesAt (q.world.tracer.pathStack ++ i :: path) q =
      (r.calls.map (pushesAt (q.world.tracer.pathStack ++ i :: path))).sum := by
    rw [← called]
    apply pushesAt_eq
    cases action : q.node.isAction with
    | false => rw [Pushes, action, Bool.false_and]
    | true => 
        cases node : q.node with
        | selector | sequence => rw [node] at action; cases action
        | _ => rw [node] at ordered; exact absurd ordered id
  have marked {active : Nat} (marker : q.node.activeChild = some active) :
      q.node.activeChild.getD 0 = active := by rw [marker]; rfl
  -- only the call of child `i` counts
  have pushing {q' : Request σ κ} (member : q' ∈ r.calls)
      (pushed : pushesAt (q.world.tracer.pathStack ++ i :: path) q' ≠ 0) :
      q.node.activeChild.getD 0 ≤ i ∧ q'.node = child ∧
      pushesAt (q'.world.tracer.pathStack ++ path) q' ≠ 0 ∧
      ∀ j result, r.stop = some (j, result) → i ≤ j ∧ (i = j →
        (interpreter.solve q').result = result ∧
          r.children[i]? = some (interpreter.solve q').node) := by
    obtain ⟨j, after, at_j, stack, last⟩ := walk.call_at member
    have same : j = i := by
      by_contra other
      refine pushed (pushesAt_elsewhere fun below => other ?_)
      rw [stack, List.prefix_append_right_inj, List.cons_prefix_cons] at below
      exact below.1
    subst same
    obtain rfl := Option.some.inj (at_i.symm.trans at_j)
    refine ⟨after, rfl, ?_, last⟩
    rwa [stack, List.append_assoc, List.singleton_append]
  have waiting (running : (interpreter.solve q).result = .ok .running) :
      ∃ j, r.stop = some (j, .ok .running) ∧ (interpreter.solve q).node.activeChild = some j := by
    rw [running] at ending
    generalize stop : r.stop = stopped, (interpreter.solve q).node.activeChild = marker at ending
    cases ending with
    | ranOut done | stopped done => exact absurd rfl done
    | waits => exact ⟨_, rfl, rfl⟩
  have inside {m : Node} (at_m : (interpreter.solve q).node.children[i]? = some m)
      (passed : Passed m path) : Passed (interpreter.solve q).node (i :: path) := by
    have passed' := Passed.inside at_m passed
    rwa [Node.edge_composite ordered'.composite] at passed'
  refine ⟨fun passed => ?_, fun running before => ?_, fun running => ?_⟩
  · rw [sum]
    apply List.sum_eq_zero_iff_forall_eq_nat.mpr
    intro count counted
    obtain ⟨q', member, rfl⟩ := List.mem_map.mp counted
    by_contra pushed
    obtain ⟨after, node, inner, -⟩ := pushing member pushed
    rcases passed.ordered ordered with ⟨active, marker, less⟩ | ⟨child', at_i', below⟩
    · rw [marked marker] at after
      omega
    · obtain rfl := Option.some.inj (at_i.symm.trans at_i')
      exact inner ((calls q' (called ▸ member) (walk.ticks q' member) node).quiet (node ▸ below))
  · obtain ⟨j, stop, marker⟩ := waiting running
    have after := walk.stop_ge stop
    have pushed (some_ : pushesAt (q.world.tracer.pathStack ++ i :: path) q ≠ 0) :
        ∃ q' ∈ r.calls, pushesAt (q.world.tracer.pathStack ++ i :: path) q' ≠ 0 := by
      by_contra none
      rw [sum] at some_
      refine some_ (List.sum_eq_zero_iff_forall_eq_nat.mpr fun count counted => ?_)
      obtain ⟨q', member, rfl⟩ := List.mem_map.mp counted
      by_contra other
      exact none ⟨q', member, other⟩
    rcases Nat.lt_trichotomy i j with less | rfl | greater
    · exact .behind ordered' marker less
    · rcases before with passed | some_
      · rcases passed.ordered ordered with ⟨active, marker', less⟩ | ⟨child', at_i', below⟩
        · rw [marked marker'] at after
          omega
        · obtain ⟨q', member, -, stack, -⟩ := walk.stopper stop
          obtain ⟨j, -, at_j, stack', last⟩ := walk.call_at member
          have same : j = i := by simpa [stack] using stack'.symm
          subst same
          obtain ⟨result, left⟩ := (last j _ stop).2 rfl
          obtain rfl := Option.some.inj (at_j.symm.trans at_i')
          have node := Option.some.inj (at_j.symm.trans at_i)
          exact inside (children ▸ left) ((calls q' (called ▸ member) (walk.ticks q' member) node).passed
            result (.inl below))
      · obtain ⟨q', member, some_'⟩ := pushed some_
        obtain ⟨-, node, inner, last⟩ := pushing member some_'
        obtain ⟨result, left⟩ := (last i _ stop).2 rfl
        exact inside (children ▸ left) ((calls q' (called ▸ member) (walk.ticks q' member) node).passed
          result (.inr inner))
    · rcases before with passed | some_
      · rcases passed.ordered ordered with ⟨active, marker', less⟩ | ⟨child', at_i', below⟩
        · rw [marked marker'] at after
          omega
        · refine inside ?_ below
          rw [children, walk.untouched (.inr ⟨j, _, stop, greater⟩), at_i']
      · obtain ⟨q', member, some_'⟩ := pushed some_
        obtain ⟨-, -, -, last⟩ := pushing member some_'
        have := (last j _ stop).1
        omega
  · obtain ⟨j, stop, -⟩ := waiting running
    right
    rw [leaves.runningPath, walk.waits_path stop]

theorem decorator_turned {q : Request σ κ} {child : Node} {path : List Nat} (ticks : q.ask.Ticks)
    (decorator : q.node.Decorator) (only : q.node.children = [child])
    (calls : ∀ q' ∈ interpreter.calls q, q'.ask.Ticks → q'.node = child → Turned path q') :
    Turned path q := by
  have decorator' := Node.decorator_of_reset (interpreter_reset q) decorator
  have other : Pushes q = false := by
    cases node : q.node with
    | action => rw [node] at decorator; exact absurd decorator id
    | _ => rw [Pushes, node]; rfl
  have silent (none : interpreter.calls q = []) (path : List Nat) : pushesAt path q = 0 := by
    rw [pushesAt_eq other, none]
    rfl
  cases decorator_tick ticks decorator with
  | closed _ none result =>
      refine ⟨fun _ => silent none _, fun running => ?_, fun running => ?_⟩ <;>
        rw [result] at running <;> cases running
  | failed none result =>
      refine ⟨fun _ => silent none _, fun running => ?_, fun running => ?_⟩ <;>
        rw [result] at running <;> cases running
  | @called child' v only' called stack enters left relayed leaves =>
      obtain rfl := List.singleton_inj.mp (only.symm.trans only')
      have member : (⟨.tick, child, v⟩ : Request σ κ) ∈ interpreter.calls q := by
        rw [called]
        exact List.mem_cons_self
      have turned := calls _ member trivial rfl
      have same (path : List Nat) : pushesAt path q = pushesAt path ⟨.tick, child, v⟩ := by
        rw [pushesAt_eq other, called]
        rfl
      have waiting (running : (interpreter.solve q).result = .ok .running) :
          (interpreter.solve ⟨.tick, child, v⟩).result = .ok .running := by
        rw [running] at relayed
        generalize (interpreter.solve ⟨.tick, child, v⟩).result = inner at relayed
        cases relayed with
        | waits => rfl
        | done _ done' => exact absurd rfl done'
      have edge : (interpreter.solve q).node.edge 0 = [] := Node.edge_decorator decorator'.not_composite 0
      refine ⟨fun passed => ?_, fun running before => ?_, fun running => ?_⟩
      · rw [same, ← stack]
        exact turned.quiet (passed.decorator decorator only)
      · have first : (interpreter.solve q).node.children[0]? =
            some (interpreter.solve ⟨.tick, child, v⟩).node := by rw [left]; rfl
        have inner := turned.passed (waiting running)
          (before.imp (fun passed => passed.decorator decorator only) fun pushed => by
            rwa [same, ← stack] at pushed)
        have passed := Passed.inside first inner
        rwa [edge] at passed
      · rw [leaves.runningPath, ← stack, ← enters.runningPath]
        exact turned.stored (waiting running)

/-- A tick turns every action outside parallel nodes. -/
theorem straight_turned (q : Request σ κ) (ticks : q.ask.Ticks) (single : q.node.NoRepeater)
    {path : List Nat} {a : ActionNode} (straight : Straight q.node path (.action a)) :
    Turned path q := by
  refine interpreter.induct (motive := fun q => ∀ path, q.ask.Ticks → q.node.NoRepeater →
    Straight q.node path (.action a) → Turned path q)
    (fun q ih path ticks single straight => ?_) q path ticks single straight
  have leaf (immediate : q.node.Immediate) (path : List Nat) : Turned path q := by
    obtain ⟨-, -, other, -⟩ := immediate_tick immediate
    exact ⟨fun passed => absurd passed (Passed.not_leaf immediate), fun running => absurd running other,
      fun running => absurd running other⟩
  generalize node : q.node = n at straight
  generalize target : Node.action a = m at straight
  cases straight with
  | refl =>
      apply leaf
      rw [node, ← target]
      trivial
  | @step n child m i path serial at_i below =>
      subst target
      have calls : ∀ q' ∈ interpreter.calls q, q'.ask.Ticks → q'.node = child → Turned path q' := by
        intro q' called ticks' same
        have single' : child.NoRepeater := by
          rw [← node] at at_i
          exact single.child (List.mem_of_getElem? at_i)
        exact ih q' called path ticks' (same ▸ single') (same ▸ below)
      rw [← node] at at_i serial ⊢
      rcases q.node.shapes with ordered | ⟨k, parallel⟩ | decorator | ⟨k, repeater⟩ | immediate | ⟨k, prompt⟩
      · rw [Node.edge_composite ordered.composite]
        exact ordered_turned ticks ordered at_i calls
      · exact absurd parallel (serial k)
      · rw [Node.edge_decorator decorator.not_composite]
        exact decorator_turned ticks decorator (Node.index_zero decorator.not_composite at_i).2 calls
      · cases single with
        | mk here _ => exact absurd repeater (here k)
      · exact leaf immediate _
      · rw [prompt] at at_i
        cases at_i

/-- All requests but the last returned `Running`. -/
def Waits (qs : List (Request σ κ)) : Prop :=
  ∀ q ∈ qs.dropLast, (interpreter.solve q).result = .ok .running

/-- The pushes of the action at the end of a path below the nodes requested. -/
def pushesBelow (path : List Nat) (qs : List (Request σ κ)) : Nat :=
  (qs.map fun q => pushesAt (q.world.tracer.pathStack ++ path) q).sum

/-- Ticks of one node up to the first that does not return `Running`: outside parallel
    nodes an action pushes once, and not at all when the markers are past it. -/
theorem Straight.pushes_served {path : List Nat} {asked : List (Ask × World σ κ)} :
    ∀ {n : Node} {a : ActionNode}, (∀ step ∈ asked, step.1.Ticks) → n.NoRepeater →
      Straight n path (.action a) → Waits (n.serve asked) →
      pushesBelow path (n.serve asked) ≤ 1 ∧
        (Passed n path → pushesBelow path (n.serve asked) = 0) := by
  induction asked with
  | nil => exact fun _ _ _ _ => ⟨Nat.zero_le 1, fun _ => rfl⟩
  | cons step rest ih =>
      obtain ⟨ask, w⟩ := step
      intro n a ticks single straight waits
      let q : Request σ κ := ⟨ask, n, w⟩
      let left := interpreter.solve q
      have turned : Turned path q := straight_turned q (ticks _ List.mem_cons_self) single straight
      have once := pushesAt_le_one (q := q) single (q.world.tracer.pathStack ++ path)
      have split : pushesBelow path (n.serve ((ask, w) :: rest)) =
          pushesAt (q.world.tracer.pathStack ++ path) q +
            pushesBelow path (left.node.serve rest) := List.sum_cons
      rw [split]
      cases further : left.node.serve rest with
      | nil => exact ⟨once, turned.quiet⟩
      | cons next later =>
          have waits' : Waits (q :: left.node.serve rest) := waits
          rw [further] at waits'
          have running : left.result = .ok .running := waits' q List.mem_cons_self
          have reset : left.node.reset = n.reset := interpreter_reset q
          obtain ⟨a', straight'⟩ := straight.of_reset reset
          have ticks' : ∀ step ∈ rest, step.1.Ticks := fun step member =>
            ticks step (List.mem_cons_of_mem _ member)
          have waits'' : Waits (left.node.serve rest) := by
            rw [further]
            exact fun q member => waits' q (List.mem_cons_of_mem _ member)
          obtain ⟨few, none⟩ := ih ticks' (Node.NoRepeater.of_reset single reset) straight' waits''
          rw [← further]
          constructor
          · by_cases pushed : pushesAt (q.world.tracer.pathStack ++ path) q = 0
            · rw [pushed, Nat.zero_add]
              exact few
            · rw [none (turned.passed running (.inr pushed))]
              exact once
          · intro before
            rw [none (turned.passed running (.inl before)), Nat.add_zero]
            exact turned.quiet before

/-- The requests of a run. -/
def requests (turns : List (Turn σ κ)) : List (Request σ κ) := turns.map (·.start.request)

/-- With an action outside parallel nodes a run of `Running` ticks ticks its root. -/
theorem Straight.run_ticks {path : List Nat} {steps : List (HostStep σ κ)} :
    ∀ {s : Instance σ κ} {a : ActionNode}, s.Ready → s.root.NoRepeater →
      Straight s.root path (.action a) → Waits (requests (s.run steps)) →
      ∃ asked, (∀ step ∈ asked, step.1.Ticks) ∧ requests (s.run steps) = s.root.serve asked := by
  induction steps with
  | nil => exact fun _ _ _ _ => ⟨[], nofun, rfl⟩
  | cons step rest ih =>
      intro s a ready single straight waits
      let now := s.host step
      have ready' : now.Ready := ready
      have whole : requests (s.run (step :: rest)) =
          now.request :: requests (now.tick.after.run rest) := rfl
      have root : now.tick.after.root = (interpreter.solve now.request).node := Instance.tick_root now
      have serve (asked : List (Ask × World σ κ)) :
          s.root.serve ((now.request.ask, now.request.world) :: asked) =
            now.request :: now.tick.after.root.serve asked := by
        rw [root]
        rfl
      rw [whole] at waits ⊢
      cases further : requests (now.tick.after.run rest) with
      | nil =>
          refine ⟨[(now.request.ask, now.request.world)], fun step member => ?_, (serve []).symm⟩
          rw [List.mem_singleton.mp member]
          exact ready'.ticks
      | cons next later =>
          rw [further] at waits
          have turned : Turned path now.request :=
            straight_turned now.request ready'.ticks single straight
          have reset : (interpreter.solve now.request).node.reset = s.root.reset :=
            interpreter_reset now.request
          obtain ⟨a', straight'⟩ := straight.of_reset reset
          have later' : Waits (requests (now.tick.after.run rest)) := by
            rw [further]
            exact fun q member => waits q (List.mem_cons_of_mem _ member)
          obtain ⟨asked, ticks, served⟩ := @ih now.tick.after a'
            (ready'.after fun running => (turned.stored running).elim id id)
            (root ▸ Node.NoRepeater.of_reset single reset) (root ▸ straight') later'
          refine ⟨(now.request.ask, now.request.world) :: asked, fun step member => ?_, ?_⟩
          · rcases List.mem_cons.mp member with rfl | member
            · exact ready'.ticks
            · exact ticks step member
          · rw [serve, ← further, served]

/-- Without repeaters, in a run up to the first result that is not `Running`: no action
    pushes twice in a tick, one with no parallel node above it at most once in the run,
    and one below a parallel node at most once from tick to tick of the child it lies
    under until that child returns success or failure. -/
theorem pushes_at_most_once {root : Node} (single : root.NoRepeater) {ctx : TickContext σ κ}
    {steps : List (HostStep σ κ)}
    (waits : Waits (requests ((Instance.launch root ctx).run steps))) :
    (∀ q ∈ requests ((Instance.launch root ctx).run steps), ∀ path, pushesAt path q ≤ 1) ∧
    (∀ path a, Straight root path (.action a) →
      pushesBelow path (requests ((Instance.launch root ctx).run steps)) ≤ 1) ∧
    ∀ (child : Node) (asked : List (Ask × World σ κ)) path a, child.NoRepeater →
      (∀ step ∈ asked, step.1.Ticks) → Waits (child.serve asked) → Straight child path (.action a) →
      pushesBelow path (child.serve asked) ≤ 1 := by
  refine ⟨fun q member path => ?_, fun path a straight => ?_, fun child asked path a single' ticks
    waits' straight => (straight.pushes_served ticks single' waits').1⟩
  · obtain ⟨t, turn, rfl⟩ := List.mem_map.mp member
    exact pushesAt_le_one (Node.NoRepeater.of_reset single (Instance.run_turn turn).1) path
  · obtain ⟨asked, ticks, served⟩ := straight.run_ticks (fun _ => rfl) single waits
    rw [served] at waits ⊢
    exact (straight.pushes_served ticks single waits).1

end

section

open Plain

def wakeAction : ActionNode := { name := "wake", command := .agent .wakeUp, when := none }

def reviewPrompt : PromptNode :=
  { name := "ask", model := none, template := "Review?", parser := .json, sets := [], timeoutMs := 30000 }

/-- Wake the agent up and ask for a review at the same time. -/
def wakeBeside : Node := .parallel
  { name := "both", policy := .allSuccess, children := [.action wakeAction, .prompt reviewPrompt] }

/-- Wake the agent up, then ask for a review. -/
def wakeBefore : Node := .sequence
  { name := "then", children := [.action wakeAction, .prompt reviewPrompt] }

theorem noRepeater_leaves {n : Node} (single : ∀ m, n ≠ .repeater m)
    (children : n.children = [.action wakeAction, .prompt reviewPrompt]) : n.NoRepeater := by
  refine .mk single fun child member => ?_
  rw [children] at member
  rcases List.mem_cons.mp member with rfl | member
  · exact .mk nofun nofun
  · rw [List.mem_singleton.mp member]
    exact .mk nofun nofun

/-- Each tick that waits for the reply wakes the agent up again. -/
theorem wakeBeside_pushes_twice : ¬ ∀ (root : Node) (ctx : TickContext Silent Frozen)
    (steps : List (HostStep Silent Frozen)) (path : List Nat) (a : ActionNode), root.NoRepeater →
    Waits (requests ((Instance.launch root ctx).run steps)) → Leads root path (.action a) →
    pushesBelow path (requests ((Instance.launch root ctx).run steps)) ≤ 1 := by
  intro all
  have waits : Waits (requests ((Instance.launch wakeBeside Plain.ctx).run [id, id])) := by
    intro q member
    rw [List.mem_singleton.mp member]
    decide
  have leads : Leads wakeBeside [0] (.action wakeAction) := .composite trivial rfl (.refl _)
  have single : wakeBeside.NoRepeater := noRepeater_leaves (fun m same => by cases same) rfl
  have once := all wakeBeside Plain.ctx [id, id] [0] wakeAction single waits leads
  exact absurd once (by decide)

/-- In a sequence the action is not run again. -/
theorem wakeBefore_pushes_once :
    let run := (Instance.launch wakeBefore Plain.ctx).run [id, id]
    (∀ q ∈ requests run, ∀ path, pushesAt path q ≤ 1) ∧
    (∀ path a, Straight wakeBefore path (.action a) → pushesBelow path (requests run) ≤ 1) ∧
    ∀ (child : Node) (asked : List (Ask × World Silent Frozen)) path a, child.NoRepeater →
      (∀ step ∈ asked, step.1.Ticks) → Waits (child.serve asked) → Straight child path (.action a) →
      pushesBelow path (child.serve asked) ≤ 1 := by
  have single : wakeBefore.NoRepeater := noRepeater_leaves (fun m same => by cases same) rfl
  refine pushes_at_most_once single fun q member => ?_
  rw [List.mem_singleton.mp member]
  decide

end

end AgileAgent.DecisionDsl
