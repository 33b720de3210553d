import AgileAgent.DecisionDsl.Tracer

/-! # Paths through a tree

A path lists child indices composite by composite; decorators and subtrees have one
child and take no part in it. Which paths lead where is a matter of configuration:
`reset` does not change it.
-/

namespace AgileAgent.DecisionDsl

namespace Node

/-- The nodes whose children are numbered in paths. -/
def IsComposite : Node → Prop
  | .selector _ | .sequence _ | .parallel _ => True
  | _ => False

/-- What going to child `i` adds to a path. -/
def edge : Node → Nat → List Nat
  | .selector _, i | .sequence _, i | .parallel _, i => [i]
  | _, _ => []

theorem children_reset (n : Node) : n.reset.children = n.children.map reset := by
  cases n with
  | selector | sequence | parallel => exact resetList_eq_map _
  | subTree n => cases root : n.resolvedRoot <;> simp [reset_subTree, children, root]
  | _ => rfl

theorem isComposite_reset (n : Node) : n.reset.IsComposite ↔ n.IsComposite := by
  cases n with
  | subTree n => rw [reset_subTree]; rfl
  | _ => rfl

theorem edge_reset (n : Node) : n.reset.edge = n.edge := by
  cases n with
  | subTree n => rw [reset_subTree]; rfl
  | _ => rfl

theorem isComposite_of_reset {m n : Node} (same : m.reset = n.reset) :
    m.IsComposite ↔ n.IsComposite := by
  rw [← isComposite_reset m, same, isComposite_reset]

theorem edge_of_reset {m n : Node} (same : m.reset = n.reset) : m.edge = n.edge := by
  rw [← edge_reset m, same, edge_reset]

theorem prompt_of_reset {m : Node} {n : PromptNode} (same : m.reset = (Node.prompt n).reset) :
    ∃ n', m = .prompt n' := by
  cases m with
  | prompt m => exact ⟨m, rfl⟩
  | subTree m => rw [reset_subTree] at same; cases same
  | _ => cases same

/-- Trees of one configuration have children of one configuration. -/
theorem child_of_reset {m n child : Node} {i : Nat} (same : m.reset = n.reset)
    (at_i : m.children[i]? = some child) :
    ∃ twin, n.children[i]? = some twin ∧ twin.reset = child.reset := by
  have mapped : (n.children.map reset)[i]? = some child.reset := by
    rw [← children_reset, ← same, children_reset, List.getElem?_map, at_i]
    rfl
  rw [List.getElem?_map, Option.map_eq_some_iff] at mapped
  exact mapped

theorem edge_composite {n : Node} (composite : n.IsComposite) (i : Nat) : n.edge i = [i] := by
  cases n with
  | selector | sequence | parallel => rfl
  | _ => exact absurd composite id

theorem edge_decorator {n : Node} (decorator : ¬ n.IsComposite) (i : Nat) : n.edge i = [] := by
  cases n with
  | selector | sequence | parallel => exact absurd trivial decorator
  | _ => rfl

/-- A node with more than one child is a composite. -/
theorem index_zero {n child : Node} {i : Nat} (decorator : ¬ n.IsComposite)
    (at_i : n.children[i]? = some child) : i = 0 ∧ n.children = [child] := by
  have single : ∀ {only : Node}, [only][i]? = some child → i = 0 ∧ [only] = [child] := by
    intro only found
    cases i with
    | zero => exact ⟨rfl, congrArg (· :: []) (Option.some.inj found)⟩
    | succ i => simp at found
  cases n with
  | selector | sequence | parallel => exact absurd trivial decorator
  | inverter | repeater | cooldown | reflectionGuard | forceHuman | when => exact single at_i
  | condition | action | prompt | setVar => simp [children] at at_i
  | subTree n =>
      cases root : n.resolvedRoot with
      | none => simp [children, root] at at_i
      | some root' =>
          simp only [children, root, Option.toList_some] at at_i ⊢
          exact single at_i

end Node

/-- The path leads from `n` to `m`. -/
inductive Leads : Node → List Nat → Node → Prop where
  | refl (n : Node) : Leads n [] n
  | step {n child m : Node} {i : Nat} {path : List Nat} (at_i : n.children[i]? = some child)
      (below : Leads child path m) : Leads n (n.edge i ++ path) m

namespace Leads

theorem composite {n child m : Node} {i : Nat} {path : List Nat} (composite : n.IsComposite)
    (at_i : n.children[i]? = some child) (below : Leads child path m) : Leads n (i :: path) m := by
  have := Leads.step at_i below
  rwa [Node.edge_composite composite] at this

theorem decorator {n child m : Node} {path : List Nat} (decorator : ¬ n.IsComposite)
    (only : n.children = [child]) (below : Leads child path m) : Leads n path m := by
  have first : n.children[0]? = some child := by rw [only]; rfl
  have := Leads.step first below
  rwa [Node.edge_decorator decorator] at this

/-- A path leads to the same place in every tree of the same configuration. -/
theorem of_reset {n n' m : Node} {path : List Nat} (leads : Leads n path m)
    (same : n.reset = n'.reset) : ∃ m', Leads n' path m' ∧ m'.reset = m.reset := by
  induction leads generalizing n' with
  | refl n => exact ⟨n', .refl n', same.symm⟩
  | step at_i _ ih =>
      obtain ⟨twin, at_twin, twin_same⟩ := Node.child_of_reset same at_i
      obtain ⟨m', below, m_same⟩ := ih twin_same.symm
      refine ⟨m', ?_, m_same⟩
      rw [Node.edge_of_reset same]
      exact .step at_twin below

theorem cases_step {n m : Node} {path : List Nat} (leads : Leads n path m) :
    (path = [] ∧ m = n) ∨ ∃ i child rest,
      n.children[i]? = some child ∧ path = n.edge i ++ rest ∧ Leads child rest m := by
  cases leads with
  | refl => exact .inl ⟨rfl, rfl⟩
  | step at_i below => exact .inr ⟨_, _, _, at_i, rfl, below⟩

/-- No path leads both to a leaf and to a composite. -/
theorem not_composite {n leaf m : Node} {path : List Nat} (leads : Leads n path leaf)
    (bare : leaf.children = []) (simple : ¬ leaf.IsComposite) (leads' : Leads n path m) :
    ¬ m.IsComposite := by
  induction leads generalizing m with
  | refl n =>
      rcases leads'.cases_step with ⟨-, rfl⟩ | ⟨i, child, rest, at_i, -, -⟩
      · exact simple
      · simp [bare] at at_i
  | @step n child leaf i path at_i below ih =>
      by_cases composite : n.IsComposite
      · rw [Node.edge_composite composite] at leads'
        rcases leads'.cases_step with ⟨empty, -⟩ | ⟨j, child', rest, at_j, split, below'⟩
        · cases empty
        · rw [Node.edge_composite composite] at split
          obtain ⟨rfl, rfl⟩ := List.cons.inj split
          obtain rfl := Option.some.inj (at_i.symm.trans at_j)
          exact ih bare simple below'
      · obtain ⟨-, only⟩ := Node.index_zero composite at_i
        rw [Node.edge_decorator composite] at leads'
        rcases leads'.cases_step with ⟨-, rfl⟩ | ⟨j, child', rest, at_j, split, below'⟩
        · exact composite
        · obtain ⟨-, only'⟩ := Node.index_zero composite at_j
          obtain rfl := List.singleton_inj.mp (only.symm.trans only')
          rw [Node.edge_decorator composite] at split
          obtain rfl : path = rest := split
          exact ih bare simple below'

/-- Where the empty path leads to a leaf there are no other paths. -/
theorem eq_nil {n leaf m : Node} {path rest : List Nat} (leads : Leads n path leaf)
    (bare : leaf.children = []) (empty : path = []) (leads' : Leads n rest m) : rest = [] := by
  induction leads generalizing m rest with
  | refl n =>
      rcases leads'.cases_step with ⟨rfl, -⟩ | ⟨i, child, rest, at_i, -, -⟩
      · rfl
      · simp [bare] at at_i
  | @step n child leaf i path at_i below ih =>
      obtain ⟨no_edge, rfl⟩ := List.append_eq_nil_iff.mp empty
      have decorator : ¬ n.IsComposite := by
        intro composite
        rw [Node.edge_composite composite] at no_edge
        cases no_edge
      obtain ⟨-, only⟩ := Node.index_zero decorator at_i
      rcases leads'.cases_step with ⟨rfl, -⟩ | ⟨j, child', rest', at_j, rfl, below'⟩
      · rfl
      · obtain ⟨-, only'⟩ := Node.index_zero decorator at_j
        obtain rfl := List.singleton_inj.mp (only.symm.trans only')
        rw [Node.edge_decorator decorator, ih bare rfl below', List.append_nil]

end Leads

/-! ## Paths in the tracer -/

/-- The tracer after a node returned a status: the stack of indices is back, and the
    running path is the one before or leads to a composite at or below the node. -/
structure Traced (n : Node) (before after : Tracer) : Prop where
  pathStack : after.pathStack = before.pathStack
  runningPath : after.runningPath = before.runningPath ∨
    ∃ path m, after.runningPath = before.pathStack ++ path ∧ Leads n path m ∧ m.IsComposite

namespace Traced

variable {n child : Node} {u v w : Tracer}

theorem still (pathStack : v.pathStack = u.pathStack) (runningPath : v.runningPath = u.runningPath) :
    Traced n u v := ⟨pathStack, .inl runningPath⟩

theorem refl (n : Node) (t : Tracer) : Traced n t t := .still rfl rfl

theorem trans (first : Traced n u v) (second : Traced n v w) : Traced n u w where
  pathStack := second.pathStack.trans first.pathStack
  runningPath := by
    rcases second.runningPath with same | ⟨path, m, stored, leads⟩
    · rw [same]
      exact first.runningPath
    · rw [first.pathStack] at stored
      exact .inr ⟨path, m, stored, leads⟩

theorem of_reset {n' : Node} (traced : Traced n u v) (same : n.reset = n'.reset) :
    Traced n' u v where
  pathStack := traced.pathStack
  runningPath := by
    rcases traced.runningPath with kept | ⟨path, m, stored, leads, composite⟩
    · exact .inl kept
    · obtain ⟨m', leads', m_same⟩ := leads.of_reset same
      exact .inr ⟨path, m', stored, leads', (Node.isComposite_of_reset m_same).mpr composite⟩

/-- A decorator or subtree hands its tracer to its child. -/
theorem decorator (decorator : ¬ n.IsComposite) (only : n.children = [child])
    (below : Traced child u v) : Traced n u v where
  pathStack := below.pathStack
  runningPath := by
    rcases below.runningPath with same | ⟨path, m, stored, leads, composite⟩
    · exact .inl same
    · exact .inr ⟨path, m, stored, leads.decorator decorator only, composite⟩

/-- A composite enters and exits around the call of a child. -/
theorem visit {name : String} {status : NodeStatus} {i : Nat} (composite : n.IsComposite)
    (at_i : n.children[i]? = some child) (below : Traced child (u.enter name i) v) :
    Traced n u (v.exit name status) := by
  have stack : v.pathStack.dropLast = u.pathStack := by
    rw [below.pathStack, Tracer.enter_pathStack, List.dropLast_concat]
  refine ⟨stack, ?_⟩
  rw [Tracer.exit_runningPath, stack]
  split
  · exact .inr ⟨[], n, (List.append_nil _).symm, .refl n, composite⟩
  · rcases below.runningPath with same | ⟨path, m, stored, leads, inner⟩
    · exact .inl same
    · refine .inr ⟨i :: path, m, ?_, leads.composite composite at_i, inner⟩
      rw [stored, Tracer.enter_pathStack, List.append_assoc, List.singleton_append]

end Traced

end AgileAgent.DecisionDsl
