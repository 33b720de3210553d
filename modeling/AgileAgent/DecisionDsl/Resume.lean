import AgileAgent.DecisionDsl.Runs
import AgileAgent.DecisionDsl.Steps

/-! # Resuming is ticking

`resume_at` on a path that the tree's own markers spell out makes the same calls
as `tick`, which finds the running child by the markers alone.
-/

namespace AgileAgent.DecisionDsl

open CallTree

variable {σ κ ν : Type}

/-- A selector or sequence that marks a child as active marks this one. -/
def Node.Marks : Node → Nat → Prop
  | .selector n, i => n.activeChild = some i
  | .sequence n, i => n.activeChild = some i
  | _, _ => True

/-- The markers of the tree spell out the path, or a path that it begins. -/
inductive OnPath : Node → List Nat → Prop where
  | nil (n : Node) : OnPath n []
  | step {n child : Node} {i : Nat} {path : List Nat} (marked : n.Marks i)
      (at_i : n.children[i]? = some child) (below : OnPath child path) :
      OnPath n (n.edge i ++ path)

/-- Every repeater the path passes has an attempt left, unless it never makes any. -/
def AttemptsLeft (n : Node) (path : List Nat) : Prop :=
  ∀ passed r, passed <+: path → Leads n passed (.repeater r) →
    r.maxAttempts = 0 ∨ r.current < r.maxAttempts

theorem AttemptsLeft.step {n child : Node} {i : Nat} {path : List Nat}
    (left : AttemptsLeft n (n.edge i ++ path)) (at_i : n.children[i]? = some child) :
    AttemptsLeft child path := by
  intro passed r inside leads
  exact left (n.edge i ++ passed) r (List.prefix_append_right_inj _ |>.mpr inside)
    (.step at_i leads)

theorem AttemptsLeft.here {r : RepeaterNode Node} {path : List Nat}
    (left : AttemptsLeft (.repeater r) path) : r.maxAttempts = 0 ∨ r.current < r.maxAttempts :=
  left [] r List.nil_prefix (.refl _)

section

variable [Crates] [Session σ] [Clock κ]

variable (σ κ) in
/-- Two calls with the same answer in every world. -/
def SameAnswers (n : Node) (left right : Ask) : Prop :=
  ∀ w : World σ κ, interpreter.solve ⟨left, n, w⟩ = interpreter.solve ⟨right, n, w⟩

theorem visitChild_congr {name : String} {children : List Node} {i : Nat} {left right : Ask}
    {w : World σ κ} {failed : Fault → List Node → World σ κ → Run σ κ ν}
    {next next' : NodeStatus → List Node → World σ κ → Routine σ κ ν}
    (same : ∀ child, children[i]? = some child → SameAnswers σ κ child left right)
    (continued : ∀ status n w, (next status (children.set i n) w).run interpreter.solve =
      (next' status (children.set i n) w).run interpreter.solve) :
    (visitChild name children i left w failed next).run interpreter.solve =
      (visitChild name children i right w failed next').run interpreter.solve := by
  unfold visitChild
  split
  · rfl
  · next child at_i =>
      simp only [Body.run_call, same child at_i (w.enter name i)]
      split
      · rfl
      · exact continued _ _ _

theorem selectorLoop_congr {node : SelectorNode Node} {i : Nat} {left right : Ask}
    {rest : List (Nat × Ask)} {w : World σ κ}
    (same : ∀ child, node.children[i]? = some child → SameAnswers σ κ child left right) :
    (selectorLoop ((i, left) :: rest) node w).run interpreter.solve =
      (selectorLoop ((i, right) :: rest) node w).run interpreter.solve :=
  visitChild_congr same fun _ _ _ => rfl

theorem sequenceLoop_congr {node : SequenceNode Node} {i : Nat} {left right : Ask}
    {rest : List (Nat × Ask)} {w : World σ κ}
    (same : ∀ child, node.children[i]? = some child → SameAnswers σ κ child left right) :
    (sequenceLoop ((i, left) :: rest) node w).run interpreter.solve =
      (sequenceLoop ((i, right) :: rest) node w).run interpreter.solve :=
  visitChild_congr same fun _ _ _ => rfl

theorem parallelLoop_congr {left right : Nat → Ask} {indices : List Nat} : ∀ {s f r : Nat}
    {node : ParallelNode Node} {w : World σ κ}, indices.Nodup →
    (∀ i child, i ∈ indices → node.children[i]? = some child →
      SameAnswers σ κ child (left i) (right i)) →
    (parallelLoop (indices.map fun i => (i, left i)) s f r node w).run interpreter.solve =
      (parallelLoop (indices.map fun i => (i, right i)) s f r node w).run interpreter.solve := by
  induction indices with
  | nil => intros; rfl
  | cons i rest ih =>
      intro s f r node w distinct same
      obtain ⟨fresh, distinct⟩ := List.nodup_cons.mp distinct
      refine visitChild_congr (fun child => same i child List.mem_cons_self) fun status n w => ?_
      have later : ∀ j child, j ∈ rest → (node.children.set i n)[j]? = some child →
          SameAnswers σ κ child (left j) (right j) := by
        intro j child member at_j
        have other : i ≠ j := fun eq => fresh (eq ▸ member)
        rw [List.getElem?_set_ne other] at at_j
        exact same j child (List.mem_cons_of_mem _ member) at_j
      cases status <;> exact ih distinct later

/-- Two single calls that differ in the entry point. -/
theorem call_congr {n : Node} {left right : Ask} {w : World σ κ}
    {next : Answer σ κ → Routine σ κ ν} (same : SameAnswers σ κ n left right) :
    (Body.call ⟨left, n, w⟩ next : Routine σ κ ν).run interpreter.solve =
      (Body.call ⟨right, n, w⟩ next : Routine σ κ ν).run interpreter.solve := by
  simp only [Body.run_call, same w]

/-- The path is used up at `depth`. -/
theorem resumeAt_nil {n : Node} {path : List Nat} {depth : Nat} (done : path.length ≤ depth) :
    SameAnswers σ κ n (.resumeAt path depth) .tick := by
  intro w
  rw [interpreter_solve, interpreter_solve ⟨.tick, n, w⟩]
  simp only [requestBody, resumeAtBody, ge_iff_le, done, if_true]

theorem resumedChild_same {n : Node} {path : List Nat} {depth : Nat}
    (same : SameAnswers σ κ n (.resumeAt path (depth + 1)) .tick) :
    SameAnswers σ κ n (resumedChild path depth) .tick := by
  unfold resumedChild
  split
  · intro w; rfl
  · exact same

omit [Crates] [Session σ] [Clock κ] in
theorem resumeAt_inside {path : List Nat} {depth i : Nat} {rest : List Nat}
    (remaining : path.drop depth = i :: rest) : depth < path.length ∧ path[depth]? = some i ∧
      path.drop (depth + 1) = rest := by
  have inside : depth < path.length := by
    by_contra outside
    rw [List.drop_eq_nil_of_le (Nat.le_of_not_lt outside)] at remaining
    cases remaining
  rw [List.drop_eq_getElem_cons inside] at remaining
  obtain ⟨head, tail⟩ := List.cons.inj remaining
  exact ⟨inside, by rw [List.getElem?_eq_getElem inside, head], tail⟩

theorem resumeAt_composite {n child : Node} {i : Nat} {path rest : List Nat} {depth : Nat}
    (composite : n.IsComposite) (marked : n.Marks i) (at_i : n.children[i]? = some child)
    (remaining : path.drop depth = i :: rest)
    (below : SameAnswers σ κ child (.resumeAt path (depth + 1)) .tick) :
    SameAnswers σ κ n (.resumeAt path depth) .tick := by
  obtain ⟨inside, at_depth, -⟩ := resumeAt_inside remaining
  have enter : ¬ depth ≥ path.length := Nat.not_le_of_lt inside
  have called : SameAnswers σ κ child (resumedChild path depth) .tick := resumedChild_same below
  have same : ∀ c, n.children[i]? = some c → SameAnswers σ κ c (resumedChild path depth) .tick := by
    intro c found
    obtain rfl := Option.some.inj (at_i.symm.trans found)
    exact called
  intro w
  rw [interpreter_solve, interpreter_solve ⟨.tick, n, w⟩]
  cases n with
  | selector n =>
      have active : n.activeChild = some i := marked
      have exists_i : i < n.children.length := (List.getElem?_eq_some_iff.mp at_i).1
      simp only [requestBody, resumeAtBody, enter, if_false, tickBody, resumeSelector, at_depth,
        tickSelector, active, Option.getD_some, ticks_eq_cons exists_i, Body.run_map]
      exact congrArg _ (selectorLoop_congr same)
  | sequence n =>
      have active : n.activeChild = some i := marked
      have exists_i : i < n.children.length := (List.getElem?_eq_some_iff.mp at_i).1
      simp only [requestBody, resumeAtBody, enter, if_false, tickBody, resumeSequence, at_depth,
        tickSequence, active, Option.getD_some, ticks_eq_cons exists_i, Body.run_map]
      exact congrArg _ (sequenceLoop_congr same)
  | parallel n =>
      simp only [requestBody, resumeAtBody, enter, if_false, tickBody, resumeParallel, tickParallel,
        Body.run_map, parallelWith]
      split
      · rfl
      · refine congrArg _ (parallelLoop_congr List.nodup_range fun j c _ at_j => ?_)
        by_cases on_path : j = (path[depth]?).getD 0 ∧ depth + 1 < path.length
        · obtain rfl : j = i := by simpa only [at_depth, Option.getD_some] using on_path.1
          obtain rfl := Option.some.inj (at_i.symm.trans at_j)
          simp only [resumedSibling, on_path, and_self, if_true]
          exact below
        · simp only [resumedSibling, on_path, if_false]
          intro w; rfl
  | _ => exact absurd composite id

theorem resumeAt_decorator {n child : Node} {path : List Nat} {depth : Nat}
    (decorator : ¬ n.IsComposite) (only : n.children = [child])
    (left : ∀ r, n = .repeater r → r.maxAttempts = 0 ∨ r.current < r.maxAttempts)
    (below : SameAnswers σ κ child (.resumeAt path depth) .tick) :
    SameAnswers σ κ n (.resumeAt path depth) .tick := by
  by_cases done : path.length ≤ depth
  · exact resumeAt_nil done
  have enter : ¬ depth ≥ path.length := done
  intro w
  rw [interpreter_solve, interpreter_solve ⟨.tick, n, w⟩]
  cases n with
  | selector | sequence | parallel => exact absurd trivial decorator
  | condition | action | prompt | setVar => cases only
  | inverter n =>
      obtain rfl : n.child = child := List.singleton_inj.mp only
      simp only [requestBody, resumeAtBody, enter, if_false, tickBody, Body.run_map]
      exact congrArg _ (call_congr below)
  | repeater n =>
      obtain rfl : n.child = child := List.singleton_inj.mp only
      simp only [requestBody, resumeAtBody, enter, if_false, tickBody, Body.run_map,
        resumeRepeater, tickRepeater]
      split
      · rfl
      · next on =>
          have less : n.current.toNat < n.maxAttempts.toNat := (left n rfl).resolve_left on
          have turns : n.maxAttempts.toNat - n.current.toNat =
              n.maxAttempts.toNat - (n.current.toNat + 1) + 1 := by omega
          rw [turns, List.replicate_succ]
          exact congrArg _ (call_congr below)
  | cooldown n =>
      obtain rfl : n.child = child := List.singleton_inj.mp only
      simp only [requestBody, resumeAtBody, enter, if_false, tickBody, Body.run_map,
        resumeCooldown, tickCooldown, cooldownWith]
      split
      · rfl
      · exact congrArg _ (call_congr below)
  | reflectionGuard n =>
      obtain rfl : n.child = child := List.singleton_inj.mp only
      simp only [requestBody, resumeAtBody, enter, if_false, tickBody, Body.run_map,
        resumeReflectionGuard, tickReflectionGuard, reflectionGuardWith]
      split
      · rfl
      · exact congrArg _ (call_congr below)
  | forceHuman n =>
      obtain rfl : n.child = child := List.singleton_inj.mp only
      simp only [requestBody, resumeAtBody, enter, if_false, tickBody, Body.run_map]
      exact congrArg _ (call_congr below)
  | when n =>
      obtain rfl : n.action = child := List.singleton_inj.mp only
      simp only [requestBody, resumeAtBody, enter, if_false, tickBody, Body.run_map,
        resumeWhen, tickWhen, whenWith]
      split
      · rfl
      · rfl
      · exact congrArg _ (call_congr below)
  | subTree n =>
      have resolved : n.resolvedRoot = some child := Option.toList_eq_singleton_iff.mp only
      simp only [requestBody, resumeAtBody, enter, if_false, tickBody, Body.run_map,
        resumeSubtree, tickSubtree, subTreeWith, resolved]
      split
      · rfl
      · exact congrArg _ (call_congr below)

theorem resumeAt_same {n : Node} {rest : List Nat} (on_path : OnPath n rest) :
    ∀ {path depth}, AttemptsLeft n rest → path.drop depth = rest →
      SameAnswers σ κ n (.resumeAt path depth) .tick := by
  induction on_path with
  | nil n =>
      intro path depth _ remaining
      exact resumeAt_nil (List.drop_eq_nil_iff.mp remaining)
  | @step n child i rest marked at_i below ih =>
      intro path depth left remaining
      by_cases composite : n.IsComposite
      · have split : path.drop depth = i :: rest := by
          rw [remaining, Node.edge_composite composite, List.singleton_append]
        exact resumeAt_composite composite marked at_i split
          (ih (left.step at_i) (resumeAt_inside split).2.2)
      · have whole : path.drop depth = rest := by
          rw [remaining, Node.edge_decorator composite, List.nil_append]
        refine resumeAt_decorator composite (Node.index_zero composite at_i).2 (fun r same => ?_)
          (ih (left.step at_i) whole)
        subst same
        exact left.here

/-- On a path that the markers spell out, resuming and ticking return the same status
    or error and leave the same tree, blackboard, session, clock and trace, if every
    repeater on the path has an attempt left. -/
theorem resumeAt_eq_tick (n : Node) (path : List Nat) (w : World σ κ) (on_path : OnPath n path)
    (left : AttemptsLeft n path) : n.resumeAt path 0 w = n.tick w :=
  resumeAt_same on_path left List.drop_zero w

end

section

open Plain

/-- A selector that marks its only child, a condition that never holds. -/
def missing : SelectorNode Node :=
  { name := "try", activeChild := some 0
    children := [.condition { name := "missing", evaluator := .not (.and []) }] }

/-- Two attempts at it. -/
def twice (current : UInt32) : Node := .repeater
  { name := "twice", maxAttempts := 2, current, child := .selector missing }

theorem twice_onPath (current : UInt32) : OnPath (twice current) [0] := by
  have below : OnPath (.selector missing) ([0] ++ []) := OnPath.step (n := .selector missing) rfl rfl (.nil _)
  exact OnPath.step (i := 0) trivial rfl below

/-- With both attempts used up, `tick` makes none and returns `Success`, and
    `resume_at` makes one and returns its `Failure`. -/
theorem twice_spent_resumed : ¬ ∀ (n : Node) (path : List Nat) (w : World Silent Frozen),
    OnPath n path → n.resumeAt path 0 w = n.tick w := by
  intro all
  have same := congrArg Run.result (all _ _ { Plain.ctx with tracer := {} } (twice_onPath 2))
  exact absurd same (by decide)

/-- With one attempt left both make it. -/
theorem twice_resumed : (twice 1).resumeAt [0] 0 { Plain.ctx with tracer := {} } =
    (twice 1).tick { Plain.ctx with tracer := {} } := by
  refine resumeAt_eq_tick _ _ _ (twice_onPath 1) fun passed r _ leads => ?_
  rcases leads.cases_step with ⟨-, here⟩ | ⟨i, child, rest, at_i, -, below⟩
  · obtain rfl := Node.repeater.inj here
    exact .inr (by decide)
  · obtain ⟨-, only⟩ := Node.index_zero id at_i
    obtain rfl := List.singleton_inj.mp only
    rcases below.cases_step with ⟨-, here⟩ | ⟨j, leaf, rest, at_j, -, below⟩
    · cases here
    · obtain rfl : _ = leaf := (List.mem_singleton.mp (List.mem_of_getElem? at_j)).symm
      rcases below.cases_step with ⟨-, here⟩ | ⟨k, none, rest, at_k, -, -⟩
      · cases here
      · cases at_k

end

end AgileAgent.DecisionDsl
