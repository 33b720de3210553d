import AgileAgent.DecisionDsl.Runs
import AgileAgent.DecisionDsl.Steps

/-! # The scope stack across a tick

A subtree runs in a scope of its own. The scope is popped when the subtree returns
a status and stays on the stack when its root returns an error; the scopes below it
are unchanged in both cases.
-/

namespace AgileAgent.DecisionDsl

open CallTree

variable {σ κ : Type}

/-- The stack of scopes, innermost first. -/
def World.scopeList (w : World σ κ) : List Scope := w.blackboard.scopes.scopes

/-- Everything below the innermost scope. -/
def World.outer (w : World σ κ) : List Scope := w.scopeList.tail

theorem WorldStep.outer {v w : World σ κ} (step : WorldStep v w) : w.outer = v.outer := by
  cases step with
  | assign key value => exact v.blackboard.scopes.set_tail key value
  | trace | clock | session | command | response | round => rfl

theorem WorldSteps.outer {v w : World σ κ} (steps : WorldSteps v w) : w.outer = v.outer := by
  induction steps with
  | refl => rfl
  | tail _ step ih => exact step.outer.trans ih

theorem World.scopeList_cons (w : World σ κ) : ∃ top, w.scopeList = top :: w.outer := by
  cases scopes : w.scopeList with
  | nil =>
      have := w.blackboard.scopes.nonempty
      rw [show w.blackboard.scopes.scopes = [] from scopes] at this
      cases this
  | cons top below => exact ⟨top, by rw [World.outer, scopes, List.tail_cons]⟩

theorem World.scopeList_length (w : World σ κ) : w.scopeList.length = w.outer.length + 1 := by
  obtain ⟨top, scopes⟩ := w.scopeList_cons
  rw [scopes, List.length_cons]

section

variable [Crates] [Session σ] [Clock κ]

/-- A resolved subtree, with room for its scope, whose root returned an error. -/
def Leaks (q : Request σ κ) : Prop :=
  ∃ n root scopes, q.node = .subTree n ∧ n.resolvedRoot = some root ∧
    q.world.blackboard.scopes.push = .ok scopes ∧ ∃ e, (interpreter.solve q).result = .error e

/-- A subtree leaves every scope that was on the stack when it was entered unchanged. -/
def Isolated (q : Request σ κ) : Prop :=
  ∀ n, q.node = .subTree n → q.world.scopeList <:+ (interpreter.solve q).world.scopeList

/-- How a call that made the `visited` requests moves the scopes. -/
structure ScopesMoved (v : World σ κ) (r : Except Fault NodeStatus) (w : World σ κ)
    (visited : List (Request σ κ)) : Prop where
  suffix : v.outer <:+ w.outer
  kept : w.outer = v.outer ↔ ∀ q ∈ visited, ¬ Leaks q
  ok : ∀ status, r = .ok status → ∀ q ∈ visited, ¬ Leaks q
  isolated : ∀ q ∈ visited, Isolated q

namespace ScopesMoved

variable {u v w : World σ κ} {r : Except Fault NodeStatus} {l l' : List (Request σ κ)}

theorem still (same : w.outer = v.outer) : ScopesMoved v r w [] where
  suffix := same ▸ List.suffix_rfl
  kept := ⟨fun _ _ member => (List.not_mem_nil member).elim, fun _ => same⟩
  ok _ _ _ member := (List.not_mem_nil member).elim
  isolated _ member := (List.not_mem_nil member).elim

theorem after (same : u.outer = v.outer) (moved : ScopesMoved u r w l) : ScopesMoved v r w l where
  suffix := same ▸ moved.suffix
  kept := same ▸ moved.kept
  ok := moved.ok
  isolated := moved.isolated

theorem go {status : NodeStatus} (first : ScopesMoved u (.ok status) v l)
    (second : ScopesMoved v r w l') : ScopesMoved u r w (l ++ l') := by
  have quiet := first.ok status rfl
  have same : v.outer = u.outer := first.kept.mpr quiet
  have later := second.after same
  refine ⟨later.suffix, ?_, fun status done q member => ?_, fun q member => ?_⟩
  · rw [later.kept]
    simp only [List.mem_append, or_imp, forall_and]
    exact ⟨fun rest => ⟨quiet, rest⟩, And.right⟩
  · rcases List.mem_append.mp member with early | late
    · exact quiet q early
    · exact later.ok status done q late
  · rcases List.mem_append.mp member with early | late
    · exact first.isolated q early
    · exact later.isolated q late

/-- The request itself joins the requests it made. -/
theorem request {q : Request σ κ} (moved : ScopesMoved v r w l) (quiet : ¬ Leaks q)
    (isolated : Isolated q) : ScopesMoved v r w (q :: l) where
  suffix := moved.suffix
  kept := by
    rw [moved.kept]
    simp only [List.forall_mem_cons]
    exact ⟨fun rest => ⟨quiet, rest⟩, And.right⟩
  ok status done := List.forall_mem_cons.mpr ⟨quiet, moved.ok status done⟩
  isolated := List.forall_mem_cons.mpr ⟨isolated, moved.isolated⟩

end ScopesMoved

/-- A subtree whose root returned pops the scope it pushed. -/
theorem SubTreeNode.leave_returned {n : SubTreeNode Node} {w : World σ κ} {a : Answer σ κ}
    {l : List (Request σ κ)} {status : NodeStatus} (moved : ScopesMoved w a.result a.world l)
    (returned : a.result = .ok status) (below : 0 < w.outer.length) :
    (n.leave a).scopeList = w.outer := by
  have kept : a.world.outer = w.outer := moved.kept.mpr (moved.ok status returned)
  obtain ⟨top, scopes⟩ := a.world.scopeList_cons
  rw [SubTreeNode.leave, returned, ← kept]
  exact ScopeStack.pop_scopes scopes (kept ▸ below)

/-- A subtree whose root failed keeps a scope on top of those it found. -/
theorem SubTreeNode.leave_failed {n : SubTreeNode Node} {w : World σ κ} {a : Answer σ κ}
    {l : List (Request σ κ)} {e : Fault} (moved : ScopesMoved w a.result a.world l)
    (failed : a.result = .error e) : w.outer <:+ (n.leave a).outer := by
  rw [SubTreeNode.leave, failed]
  exact moved.suffix

theorem subTree_scopes {q : Request σ κ} {n : SubTreeNode Node} (node : q.node = .subTree n)
    (calls : ∀ q' ∈ (requestBody q).calls interpreter.solve,
      ScopesMoved q'.world (interpreter.solve q').result (interpreter.solve q').world
        (interpreter.trail q')) :
    ScopesMoved q.world (interpreter.solve q).result (interpreter.solve q).world
      (interpreter.trail q) := by
  obtain ⟨ask, body⟩ := requestBody_subTree node
  have answer := interpreter_solve q
  have still {l} (same : (interpreter.solve q).world.scopeList = q.world.scopeList)
      (quiet : ∀ x ∈ l, ¬ Leaks x) (isolated : ∀ x ∈ l, Isolated x) (here : ¬ Leaks q) :
      ScopesMoved q.world (interpreter.solve q).result (interpreter.solve q).world (q :: l) := by
    have outer : (interpreter.solve q).world.outer = q.world.outer := congrArg List.tail same
    refine ScopesMoved.request ⟨?_, ⟨fun _ => quiet, fun _ => outer⟩, fun _ _ => quiet, isolated⟩ here
      fun _ _ => ?_
    · exact outer ▸ List.suffix_rfl
    · exact same ▸ List.suffix_rfl
  rw [interpreter_trail]
  rcases subTreeWith_cases ask n q.world with ⟨e, shape, shut⟩ | ⟨root, scopes, resolved, pushed, shape⟩
  · simp only [body, shape, Body.map, Body.run_ret, Body.calls_ret, List.flatMap_nil] at answer ⊢
    refine still (by rw [answer]; rfl) (by simp) (by simp) ?_
    rintro ⟨m, root, scopes, at_m, resolved, pushed, _⟩
    obtain rfl := Node.subTree.inj (node.symm.trans at_m)
    rcases shut with unresolved | full
    · rw [unresolved] at resolved
      cases resolved
    · rw [full] at pushed
      cases pushed
  · let called : Request σ κ := ⟨ask, root, n.enter q.world scopes⟩
    simp only [body, shape, Body.map, Body.run_call, Body.run_ret, Body.calls_call, Body.calls_ret,
      List.flatMap_cons, List.flatMap_nil, List.append_nil, List.forall_mem_cons] at answer calls ⊢
    have inner : ScopesMoved called.world (interpreter.solve called).result
      (interpreter.solve called).world (interpreter.trail called) := calls.1
    have entered : called.world.outer = q.world.scopeList :=
      congrArg List.tail (ScopeStack.push_ok pushed)
    have result : (interpreter.solve q).result = (interpreter.solve called).result := by
      rw [answer]; rfl
    have world : (interpreter.solve q).world = n.leave (interpreter.solve called) := by
      rw [answer]; rfl
    cases returned : (interpreter.solve called).result with
    | ok status =>
        refine still ?_ (inner.ok status returned) inner.isolated ?_
        · rw [world, SubTreeNode.leave_returned inner returned, entered]
          rw [entered]
          exact q.world.blackboard.scopes.nonempty
        · rintro ⟨_, _, _, _, _, _, e, failed⟩
          rw [result, returned] at failed
          cases failed
    | error e =>
        have below : q.world.scopeList <:+ (interpreter.solve q).world.outer := by
          rw [world, ← entered]
          exact SubTreeNode.leave_failed inner returned
        have leaks : Leaks q := ⟨n, root, scopes, node, resolved, pushed, e, result.trans returned⟩
        have deeper : (interpreter.solve q).world.outer ≠ q.world.outer := by
          intro same
          have := below.length_le
          rw [same, q.world.scopeList_length] at this
          omega
        refine ⟨(List.tail_suffix _).trans below, ⟨fun same => absurd same deeper, fun quiet => ?_⟩,
          fun status done => ?_, List.forall_mem_cons.mpr ⟨fun _ _ => ?_, inner.isolated⟩⟩
        · exact absurd leaks (quiet q List.mem_cons_self)
        · rw [result, returned] at done
          cases done
        · exact below.trans (List.tail_suffix _)

theorem interpreter_scopes (q : Request σ κ) :
    ScopesMoved q.world (interpreter.solve q).result (interpreter.solve q).world
      (interpreter.trail q) := by
  refine interpreter.induct (motive := fun q => ScopesMoved q.world (interpreter.solve q).result
    (interpreter.solve q).world (interpreter.trail q)) (fun q ih => ?_) q
  rcases requestBody_threaded q with ⟨n, node⟩ | threaded
  · exact subTree_scopes node ih
  · by_cases subTree : ∃ n, q.node = .subTree n
    · obtain ⟨n, node⟩ := subTree
      exact subTree_scopes node ih
    · have moved := threaded.run ScopesMoved interpreter.solve interpreter.trail
        (fun _ _ _ steps => .still steps.outer) (fun _ _ _ _ _ steps moved => moved.after steps.outer)
        (fun _ _ _ _ _ _ _ _ steps first rest => (first.go rest).after steps.outer) ih
      rw [interpreter_solve, interpreter_trail]
      refine moved.request ?_ fun n node => absurd ⟨n, node⟩ subTree
      rintro ⟨n, _, _, node, _⟩
      exact subTree ⟨n, node⟩

namespace Turn

/-- The scope stack is as deep after the tick as before, and no variable of a scope
    that was on the stack when a subtree was entered was changed inside it. -/
structure Scoped (t : Turn σ κ) : Prop where
  depth : t.after.ctx.blackboard.scopes.depth = t.start.ctx.blackboard.scopes.depth
  isolated : ∀ q ∈ interpreter.trail t.start.request, Isolated q

end Turn

/-- Whatever a tick returns, it is scoped if and only if no resolved subtree that was
    entered during it, with a scope of its own, was left by an error of its root. -/
theorem scoped_iff_no_leak (s : Instance σ κ) :
    s.tick.Scoped ↔ ∀ q ∈ interpreter.trail s.request, ¬ Leaks q := by
  have moved := interpreter_scopes s.request
  have depth : s.tick.after.ctx.blackboard.scopes.depth = s.ctx.blackboard.scopes.depth ↔
      s.answer.world.outer = s.request.world.outer := by
    have after : s.tick.after.ctx.blackboard.scopes = s.answer.world.blackboard.scopes := by
      cases result : s.answer.result with
      | ok status => simp only [Turn.after, Instance.tick_ok result]
      | error e => simp only [Turn.after, Instance.tick_error result]
    rw [after]
    show s.answer.world.scopeList.length = s.request.world.scopeList.length ↔ _
    rw [World.scopeList_length, World.scopeList_length, Nat.add_right_cancel_iff]
    exact ⟨fun same => (moved.suffix.eq_of_length same.symm).symm, congrArg List.length⟩
  constructor
  · intro kept
    exact moved.kept.mp (depth.mp kept.depth)
  · intro quiet
    exact ⟨depth.mpr (moved.kept.mpr quiet), moved.isolated⟩

end

section

open Plain

/-- A resolved subtree whose root asks an evaluator that does not exist. -/
def failingSubTree : Node := .subTree
  { name := "checks", refName := "checks"
    resolvedRoot := some (.condition { name := "ask", evaluator := .custom "absent" [] }) }

/-- The tick returns the error of the evaluator and leaves the subtree's scope behind. -/
theorem failingSubTree_leaks : ¬ ∀ s : Instance Silent Frozen, s.tick.Scoped := by
  intro all
  exact absurd (all (.launch failingSubTree Plain.ctx)).depth (by decide)

end

end AgileAgent.DecisionDsl
