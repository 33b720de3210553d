import AgileAgent.DecisionDsl.Validate

/-! # The walk that finds circular references

`detect_cycle_in_node` goes through the nodes of a tree, through the subtree that a reference names
and then through the children of the reference, with one set of names and one path that are filled on
the way in and emptied on the way out. The state is passed on as the source does, and every search
carries the fact that it is as before when no cycle was found, which is what makes the walk end.
-/

namespace AgileAgent.DecisionDsl

namespace Node

theorem heightList_children_lt (n : Node) : heightList n.children < n.height := by
  cases n with
  | selector | sequence | parallel => exact Nat.lt_succ_self _
  | inverter | repeater | cooldown | reflectionGuard | forceHuman | when =>
      simp only [children, heightList, height]
      omega
  | condition | action | prompt | setVar => exact Nat.zero_lt_one
  | subTree n =>
      obtain ⟨name, refName, root⟩ := n
      cases root with
      | none => exact Nat.zero_lt_one
      | some root =>
          simp only [children, Option.toList_some, heightList, height]
          omega

end Node

namespace Walk

/-- Names that are not visited come first, then the height of the nodes, then their number. -/
theorem smaller {u h k h' k' : Nat} (within : h ≤ h') (fewer : k < k') :
    Prod.Lex (· < ·) (Prod.Lex (· < ·) (· < ·)) (u, h, k) (u, h', k') := by
  rcases Nat.lt_or_eq_of_le within with lower | rfl
  · exact .right u (.left k k' lower)
  · exact .right u (.right h fewer)

/-- The result of a search that began with `visited` and `path`, and what it leaves in them. -/
structure Search (visited path : List String) where
  cycle : Option (List String)
  visitedAfter : List String
  pathAfter : List String
  restored : cycle = none → visitedAfter = visited ∧ pathAfter = path

namespace Search

variable {visited path : List String}

def nothing : Search visited path := ⟨none, visited, path, fun _ => ⟨rfl, rfl⟩⟩

def found (cycle visitedAfter pathAfter : List String) : Search visited path :=
  ⟨some cycle, visitedAfter, pathAfter, fun none => by cases none⟩

/-- A search from the same state, however it was reached. -/
def cast {visited' path' : List String} (same : visited' = visited ∧ path' = path)
    (s : Search visited' path') : Search visited path :=
  ⟨s.cycle, s.visitedAfter, s.pathAfter, fun none =>
    ⟨(s.restored none).1.trans same.1, (s.restored none).2.trans same.2⟩⟩

theorem left_of {ref : String} {s : Search (ref :: visited) (path ++ [ref])} (none : s.cycle = none) :
    s.visitedAfter.erase ref = visited ∧ s.pathAfter.dropLast = path := by
  rw [(s.restored none).1, (s.restored none).2]
  exact ⟨List.erase_cons_head _ _, List.dropLast_concat⟩

end Search

mutual
def detectCycleInNode (subtrees : Insertions.Map String Tree) (visited path : List String) (node : Node) :
    Search visited path :=
  match node with
  | .subTree n =>
      if _inside : n.refName ∈ visited then
        let start := (path.findIdx? (· == n.refName)).getD 0
        .found (path.drop start ++ [n.refName]) visited path
      else
        match _found : subtrees.lookup n.refName with
        | none =>
            -- the name is taken out of the set and the path again
            detectCycleInNodes subtrees visited path (Node.subTree n).children
        | some subtree =>
            let inside := detectCycleInNode subtrees (n.refName :: visited) (path ++ [n.refName])
              subtree.spec.root
            match outcome : inside.cycle with
            | some cycle => .found cycle inside.visitedAfter inside.pathAfter
            | none =>
                .cast (Search.left_of outcome) (detectCycleInNodes subtrees
                  (inside.visitedAfter.erase n.refName) inside.pathAfter.dropLast (Node.subTree n).children)
  | other => detectCycleInNodes subtrees visited path other.children
termination_by ((subtrees.keys.filter (· ∉ visited)).length, node.height, 0)
decreasing_by
  · exact .right _ (.left _ _ (Node.heightList_children_lt _))
  · have key : n.refName ∈ subtrees.keys := AList.lookup_isSome.mp (by simp [_found])
    exact .left _ _ (length_unvisited_lt key _inside)
  · have same := (Search.left_of outcome).1
    dsimp only [inside] at same
    rw [same]
    exact .right _ (.left _ _ (Node.heightList_children_lt _))
  · exact .right _ (.left _ _ (Node.heightList_children_lt _))

/-- `for child in node.children()`. -/
def detectCycleInNodes (subtrees : Insertions.Map String Tree) (visited path : List String) (nodes : List Node) :
    Search visited path :=
  match nodes with
  | [] => .nothing
  | child :: rest =>
      let first := detectCycleInNode subtrees visited path child
      match outcome : first.cycle with
      | some cycle => .found cycle first.visitedAfter first.pathAfter
      | none =>
          .cast (first.restored outcome)
            (detectCycleInNodes subtrees first.visitedAfter first.pathAfter rest)
termination_by ((subtrees.keys.filter (· ∉ visited)).length, Node.heightList nodes, nodes.length + 1)
decreasing_by
  · exact smaller (Nat.le_max_left _ _) (Nat.succ_pos _)
  · have same := (first.restored outcome).1
    dsimp only [first] at same
    rw [same]
    exact smaller (Nat.le_max_right _ _) (Nat.lt_succ_self _)
end

/-- The body of both loops, with an empty set and an empty path. -/
def checkCycle (subtrees : Insertions.Map String Tree) (tree : Tree) : Except ParseError Unit :=
  match (detectCycleInNode subtrees [] [] tree.spec.root).cycle with
  | some cycle => .error (.circularSubTreeRef (" -> ".intercalate cycle))
  | none => .ok ()

/-- A hash map is listed in some order, here that of its entries. -/
def detectCircularSubtreeRefs (bundle : Bundle) : Except ParseError Unit := do
  forM (Insertions.pairs bundle.subtrees) fun e => checkCycle bundle.subtrees e.2
  forM (Insertions.pairs bundle.trees) fun e => checkCycle bundle.subtrees e.2

/-! ## The walk looks at the references in their order -/

theorem detectCycle_append (subtrees : Insertions.Map String Tree) (visited path first second : List String) :
    detectCycle subtrees visited path (first ++ second) =
      (detectCycle subtrees visited path first).or (detectCycle subtrees visited path second) := by
  induction first with
  | nil => simp [detectCycle]
  | cons ref first ih =>
      rw [List.cons_append, detectCycle, detectCycle]
      split
      · rfl
      · split
        · exact ih
        · split
          · rfl
          · exact ih

theorem subTreeRefs_subTree (n : SubTreeNode Node) : (Node.subTree n).subTreeRefs =
    n.refName :: (Node.subTree n).children.flatMap Node.subTreeRefs := by
  rw [Node.subTreeRefs, Node.preorder_eq, List.filterMap_cons, List.filterMap_flatMap]
  rfl

theorem subTreeRefs_other {n : Node} (other : ∀ m, n ≠ .subTree m) :
    n.subTreeRefs = n.children.flatMap Node.subTreeRefs := by
  rw [Node.subTreeRefs, Node.preorder_eq, List.filterMap_cons, List.filterMap_flatMap]
  cases n with
  | subTree m => exact absurd rfl (other m)
  | _ => rfl

section

variable {subtrees : Insertions.Map String Tree} {visited path : List String}

theorem detectCycle_missing {ref : String} (outside : ref ∉ visited) (missing : subtrees.lookup ref = none)
    (rest : List String) :
    detectCycle subtrees visited path (ref :: rest) = detectCycle subtrees visited path rest := by
  rw [detectCycle, dif_neg outside]
  split
  · rfl
  · next subtree found => simp [missing] at found

theorem detectCycle_present {ref : String} {subtree : Tree} (outside : ref ∉ visited)
    (present : subtrees.lookup ref = some subtree) (rest : List String) :
    detectCycle subtrees visited path (ref :: rest) =
      (detectCycle subtrees (ref :: visited) (path ++ [ref]) subtree.spec.root.subTreeRefs).or
        (detectCycle subtrees visited path rest) := by
  rw [detectCycle, dif_neg outside]
  split
  · next missing => simp [missing] at present
  · next subtree' found =>
      obtain rfl := Option.some.inj (present.symm.trans found)
      split
      · next cycle detected => rw [detected, Option.some_or]
      · next undetected => rw [undetected, Option.none_or]

theorem cycle_of_restored {visited' path' : List String} (same : visited' = visited ∧ path' = path)
    (nodes : List Node) :
    (Search.cast same (detectCycleInNodes subtrees visited' path' nodes)).cycle =
      (detectCycleInNodes subtrees visited path nodes).cycle := by
  obtain ⟨rfl, rfl⟩ := same
  rfl

theorem detectCycleInNodes_cycle {nodes : List Node}
    (each : ∀ n ∈ nodes, (detectCycleInNode subtrees visited path n).cycle =
      detectCycle subtrees visited path n.subTreeRefs) :
    (detectCycleInNodes subtrees visited path nodes).cycle =
      detectCycle subtrees visited path (nodes.flatMap Node.subTreeRefs) := by
  induction nodes with
  | nil => simp [detectCycleInNodes, detectCycle, Search.nothing]
  | cons child rest ih =>
      rw [List.forall_mem_cons] at each
      rw [detectCycleInNodes, List.flatMap_cons, detectCycle_append, ← each.1, ← ih each.2]
      split
      · next cycle outcome => rw [outcome, Search.found, Option.some_or]
      · next outcome => rw [cycle_of_restored, outcome, Option.none_or]

/-- By induction on the names that are not visited and, in a tree, on its nodes. -/
theorem detectCycleInNode_cycle (node : Node) :
    (detectCycleInNode subtrees visited path node).cycle = detectCycle subtrees visited path node.subTreeRefs := by
  induction unvisited : (subtrees.keys.filter (· ∉ visited)).length using Nat.strongRecOn
    generalizing visited path node with
  | ind count deeper =>
    induction node using Node.children_induction with
    | step n ih =>
      have below := detectCycleInNodes_cycle ih
      cases n with
      | subTree n =>
          rw [detectCycleInNode, subTreeRefs_subTree]
          split
          · next inside => rw [detectCycle, dif_pos inside, Search.found]
          · next outside =>
            split
            · next missing => rw [detectCycle_missing outside missing, below]
            · next subtree found =>
              have key : n.refName ∈ subtrees.keys := AList.lookup_isSome.mp (by simp [found])
              have fewer := length_unvisited_lt key outside
              rw [unvisited] at fewer
              have inside : (detectCycleInNode subtrees (n.refName :: visited) (path ++ [n.refName])
                  subtree.spec.root).cycle = detectCycle subtrees (n.refName :: visited)
                    (path ++ [n.refName]) subtree.spec.root.subTreeRefs := deeper _ fewer _ rfl
              rw [detectCycle_present outside found, ← inside, ← below]
              dsimp only
              split
              · next cycle outcome => rw [outcome, Search.found, Option.some_or]
              · next outcome => rw [cycle_of_restored, outcome, Option.none_or]
      | _ =>
          rw [detectCycleInNode, subTreeRefs_other (by simp)]
          · exact below
          all_goals simp

end

/-! ## What is reported -/

theorem forM_findSome? {α : Type} {subtrees : Insertions.Map String Tree} (tree : α → Tree) (entries : List α) :
    (forM entries fun e => checkCycle subtrees (tree e)) =
      match entries.findSome? fun e => detectCycle subtrees [] [] (tree e).spec.root.subTreeRefs with
      | none => .ok ()
      | some cycle => .error (.circularSubTreeRef (" -> ".intercalate cycle)) := by
  induction entries with
  | nil => rfl
  | cons e rest ih =>
      rw [List.forM_cons, ih, List.findSome?_cons, checkCycle, detectCycleInNode_cycle]
      cases detectCycle subtrees [] [] (tree e).spec.root.subTreeRefs <;> rfl

/-- The walk through the nodes and the walk through the lists of references report the same. -/
theorem detectCircularSubtreeRefs_eq (bundle : Bundle) :
    detectCircularSubtreeRefs bundle = DecisionDsl.detectCircularSubtreeRefs bundle := by
  rw [detectCircularSubtreeRefs, ← List.forM_append]
  exact forM_findSome? (Prod.snd : String × Tree → Tree) _

/-- A subtree on a cycle can be reached from a tree or a subtree along references. References to
    names that the bundle does not have lead nowhere. -/
def HasCycle (bundle : Bundle) : Prop :=
  ∃ name tree, (bundle.trees.lookup name = some tree ∨ bundle.subtrees.lookup name = some tree) ∧
    ∃ ref ∈ tree.spec.root.subTreeRefs, ∃ later,
      Relation.ReflTransGen (Refers fun name => bundle.subtrees.lookup name) ref later ∧
        Relation.TransGen (Refers fun name => bundle.subtrees.lookup name) later later

/-- The walk ends, and it reports an error exactly if there is a cycle. -/
theorem detectCircularSubtreeRefs_reports (bundle : Bundle) :
    (∃ error, detectCircularSubtreeRefs bundle = .error error) ↔ HasCycle bundle := by
  have failed : (∃ error, detectCircularSubtreeRefs bundle = .error error) ↔
      ¬ detectCircularSubtreeRefs bundle = .ok () := by
    cases detectCircularSubtreeRefs bundle <;> simp
  rw [failed, detectCircularSubtreeRefs_eq, detectCircularSubtreeRefs_iff]
  simp [HasCycle, CycleFree]

end Walk

end AgileAgent.DecisionDsl
