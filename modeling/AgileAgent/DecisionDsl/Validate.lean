import AgileAgent.DecisionDsl.Document
import Mathlib.Data.List.Nodup
import Mathlib.Logic.Relation

/-! # Validation

The checks on the trees of a bundle. Those that walk through a tree look at a node and
then at its children, which is the order of `Node.preorder`. The checks of evaluators
and output parsers have no branch that fails and are left out.
-/

namespace AgileAgent.DecisionDsl

namespace Node

/-- `NodeBehavior::name`. -/
def name : Node → String
  | .selector n => n.name
  | .sequence n => n.name
  | .parallel n => n.name
  | .inverter n => n.name
  | .repeater n => n.name
  | .cooldown n => n.name
  | .reflectionGuard n => n.name
  | .forceHuman n => n.name
  | .when n => n.name
  | .condition n => n.name
  | .action n => n.name
  | .prompt n => n.name
  | .setVar n => n.name
  | .subTree n => n.name

mutual
/-- The nodes of a tree, each before its children. -/
def preorder : Node → List Node
  | .selector n => .selector n :: preorderList n.children
  | .sequence n => .sequence n :: preorderList n.children
  | .parallel n => .parallel n :: preorderList n.children
  | .inverter n => .inverter n :: preorder n.child
  | .repeater n => .repeater n :: preorder n.child
  | .cooldown n => .cooldown n :: preorder n.child
  | .reflectionGuard n => .reflectionGuard n :: preorder n.child
  | .forceHuman n => .forceHuman n :: preorder n.child
  | .when n => .when n :: preorder n.action
  | .condition n => [.condition n]
  | .action n => [.action n]
  | .prompt n => [.prompt n]
  | .setVar n => [.setVar n]
  | .subTree ⟨name, refName, none⟩ => [.subTree ⟨name, refName, none⟩]
  | .subTree ⟨name, refName, some root⟩ => .subTree ⟨name, refName, some root⟩ :: preorder root

def preorderList : List Node → List Node
  | [] => []
  | n :: rest => preorder n ++ preorderList rest
end

@[simp] theorem preorderList_eq (ns : List Node) : preorderList ns = ns.flatMap preorder := by
  induction ns with
  | nil => rfl
  | cons n rest ih => rw [preorderList, ih, List.flatMap_cons]

theorem preorder_eq (n : Node) : n.preorder = n :: n.children.flatMap preorder := by
  cases n with
  | subTree n =>
      obtain ⟨name, refName, root⟩ := n
      cases root <;> simp [preorder, children]
  | _ => simp [preorder, children]

/-- The names of a tree, in the order in which they are checked. -/
def names (n : Node) : List String := n.preorder.map name

/-- The references of the `SubTree` nodes of a tree. -/
def subTreeRefs (n : Node) : List String := n.preorder.filterMap fun
  | .subTree n => some n.refName
  | _ => none

end Node

/-- The first item that came before, as a loop that fills a set finds it. -/
def firstRepeat {α : Type} [DecidableEq α] (seen : List α) : List α → Option α
  | [] => none
  | a :: rest => if a ∈ seen then some a else firstRepeat (a :: seen) rest

theorem firstRepeat_eq_none {α : Type} [DecidableEq α] {seen l : List α} :
    firstRepeat seen l = none ↔ l.Nodup ∧ ∀ a ∈ l, a ∉ seen := by
  induction l generalizing seen with
  | nil => simp [firstRepeat]
  | cons a rest ih =>
      by_cases before : a ∈ seen
      · simp [firstRepeat, before]
      · simp only [firstRepeat, before, if_false, ih, List.nodup_cons, List.mem_cons]
        grind

theorem firstRepeat_nil_eq_none {α : Type} [DecidableEq α] {l : List α} :
    firstRepeat [] l = none ↔ l.Nodup := by
  simp [firstRepeat_eq_none]

/-- Whether `str::parse::<u32>` succeeds. -/
def parsesU32 (digits : List Char) : Bool :=
  let digits := if digits.head? = some '+' then digits.tail else digits
  digits != [] && digits.all Char.isDigit &&
    digits.foldl (fun n c => 10 * n + (c.toNat - '0'.toNat)) 0 < 2 ^ 32

def apiVersionPrefix : List Char := "decision.agile-agent.io/v".toList

def isApiVersion (version : String) : Bool :=
  apiVersionPrefix.isPrefixOf version.toList &&
    parsesU32 (version.toList.drop apiVersionPrefix.length)

def validateApiVersion (tree : Tree) : Except ParseError Unit :=
  if isApiVersion tree.apiVersion then .ok () else .error (.unsupportedVersion tree.apiVersion)

def validateUniqueNames (tree : Tree) : Except ParseError Unit :=
  match firstRepeat [] tree.spec.root.names with
  | none => .ok ()
  | some name => .error (.duplicateName name)

def validateSubtreeRefs (tree : Tree) (bundle : Bundle) : Except ParseError Unit :=
  match tree.spec.root.subTreeRefs.find? fun ref => (bundle.subtrees.lookup ref).isNone with
  | none => .ok ()
  | some name => .error (.unresolvedSubTree name)

def validateUniquePriorities (rules : List RuleSpec) : Except ParseError Unit :=
  match firstRepeat [] (rules.map RuleSpec.priority) with
  | none => .ok ()
  | some priority => .error (.duplicatePriority priority)

/-! ## Circular references -/

theorem length_unvisited_lt {keys visited : List String} {ref : String} (key : ref ∈ keys)
    (new : ref ∉ visited) :
    (keys.filter (· ∉ ref :: visited)).length < (keys.filter (· ∉ visited)).length := by
  have fewer : keys.filter (· ∉ ref :: visited) =
      (keys.filter (· ∉ visited)).filter (· ≠ ref) := by
    rw [List.filter_filter]
    apply List.filter_congr
    simp
  rw [fewer, List.length_filter_lt_length_iff_exists]
  exact ⟨ref, by simp [key, new], by simp⟩

/-- `detect_cycle_in_node` on the references of a tree; `visited` and `path` are given
    back unchanged when no cycle is found. -/
def detectCycle (subtrees : Insertions.Map String Tree) (visited path refs : List String) :
    Option (List String) :=
  match refs with
  | [] => none
  | ref :: rest =>
      if _inside : ref ∈ visited then
        let start := (path.findIdx? (· == ref)).getD 0
        some (path.drop start ++ [ref])
      else
        match _found : subtrees.lookup ref with
        | none => detectCycle subtrees visited path rest
        | some subtree =>
            match detectCycle subtrees (ref :: visited) (path ++ [ref])
              subtree.spec.root.subTreeRefs with
            | some cycle => some cycle
            | none => detectCycle subtrees visited path rest
termination_by ((subtrees.keys.filter (· ∉ visited)).length, refs.length)
decreasing_by
  · simp [Prod.lex_def]
  · have key : ref ∈ subtrees.keys := AList.lookup_isSome.mp (by simp [_found])
    exact .left _ _ (length_unvisited_lt key _inside)
  · simp [Prod.lex_def]

/-- A hash map is listed in some order, here that of its entries. -/
def detectCircularSubtreeRefs (bundle : Bundle) : Except ParseError Unit :=
  let trees := Insertions.pairs bundle.subtrees ++ Insertions.pairs bundle.trees
  match trees.findSome? fun e => detectCycle bundle.subtrees [] [] e.2.spec.root.subTreeRefs with
  | none => .ok ()
  | some cycle => .error (.circularSubTreeRef (" -> ".intercalate cycle))

def validateTree (bundle : Bundle) (tree : Tree) : Except ParseError Unit := do
  validateApiVersion tree
  validateUniqueNames tree
  validateSubtreeRefs tree bundle

def validateBundle (bundle : Bundle) : Except ParseError Unit := do
  forM (Insertions.pairs bundle.trees) fun e => validateTree bundle e.2
  forM (Insertions.pairs bundle.subtrees) fun e => validateTree bundle e.2
  detectCircularSubtreeRefs bundle

/-! ## What the checks accept -/

/-- The subtree `name` has a reference to `ref`. -/
def Refers (subtrees : String → Option Tree) (name ref : String) : Prop :=
  ∃ tree, subtrees name = some tree ∧ ref ∈ tree.spec.root.subTreeRefs

/-- What validation asks of a tree, given the subtrees that it may refer to. -/
structure Tree.Valid (subtrees : String → Option Tree) (tree : Tree) : Prop where
  version : isApiVersion tree.apiVersion
  names : tree.spec.root.names.Nodup
  resolved : ∀ ref ∈ tree.spec.root.subTreeRefs, (subtrees ref).isSome
  acyclic : ∀ ref ∈ tree.spec.root.subTreeRefs, ∀ name,
    Relation.ReflTransGen (Refers subtrees) ref name → ¬ Relation.TransGen (Refers subtrees) name name

theorem Tree.Valid.of_no_references {subtrees : String → Option Tree} {tree : Tree}
    (version : isApiVersion tree.apiVersion) (names : tree.spec.root.names.Nodup)
    (none : tree.spec.root.subTreeRefs = []) : tree.Valid subtrees :=
  ⟨version, names, by simp [none], by simp [none]⟩

/-- Every tree and every subtree is valid. -/
def Sound (trees subtrees : String → Option Tree) : Prop :=
  ∀ name tree, trees name = some tree ∨ subtrees name = some tree → tree.Valid subtrees

/-- From `name` no reference leads to a visited name or to a cycle. -/
def CycleFree (refers : String → String → Prop) (visited : List String) (name : String) : Prop :=
  ∀ later, Relation.ReflTransGen refers name later →
    later ∉ visited ∧ ¬ Relation.TransGen refers later later

theorem cycleFree_iff {refers : String → String → Prop} {visited : List String} {name : String} :
    CycleFree refers visited name ↔
      name ∉ visited ∧ ∀ ref, refers name ref → CycleFree refers (name :: visited) ref := by
  constructor
  · intro free
    refine ⟨(free name .refl).1, fun ref refers later reached => ?_⟩
    have below := free later (reached.head refers)
    refine ⟨fun inside => ?_, below.2⟩
    rcases List.mem_cons.mp inside with rfl | before
    · exact below.2 (.head' refers reached)
    · exact below.1 before
  · rintro ⟨fresh, below⟩ later reached
    rcases reached.cases_head with rfl | ⟨ref, refers, reached⟩
    · refine ⟨fresh, fun cycle => ?_⟩
      obtain ⟨ref, refers, back⟩ := Relation.TransGen.head'_iff.mp cycle
      exact (below ref refers name back).1 List.mem_cons_self
    · have free := below ref refers later reached
      exact ⟨fun inside => free.1 (List.mem_cons_of_mem _ inside), free.2⟩

theorem detectCycle_eq_none {subtrees : Insertions.Map String Tree} {visited path refs : List String} :
    detectCycle subtrees visited path refs = none ↔
      ∀ ref ∈ refs, CycleFree (Refers fun name => subtrees.lookup name) visited ref := by
  fun_induction detectCycle subtrees visited path refs with
  | case1 => simp
  | case2 visited path ref rest inside =>
      simp only [reduceCtorEq, false_iff]
      intro free
      exact (free ref List.mem_cons_self ref .refl).1 inside
  | case3 visited path ref rest outside missing ih =>
      rw [ih, List.forall_mem_cons, cycleFree_iff]
      have leaf : ∀ next, ¬ Refers (fun name => subtrees.lookup name) ref next := by
        simp [Refers, missing]
      simp [outside, leaf]
  | case4 visited path ref rest outside subtree found cycle detected ih =>
      simp only [reduceCtorEq, false_iff]
      intro free
      have below := (cycleFree_iff.mp (free ref List.mem_cons_self)).2
      have undetected := ih.mpr fun next member => below next ⟨subtree, found, member⟩
      simp [undetected] at detected
  | case5 visited path ref rest outside subtree found undetected ih ih' =>
      rw [ih', List.forall_mem_cons, cycleFree_iff]
      have below : ∀ next, Refers (fun name => subtrees.lookup name) ref next →
          CycleFree (Refers fun name => subtrees.lookup name) (ref :: visited) next := by
        rintro next ⟨tree, same, member⟩
        obtain rfl := Option.some.inj (found.symm.trans same)
        exact ih.mp undetected next member
      simp only [outside, not_false_eq_true, true_and]
      exact ⟨fun later => ⟨below, later⟩, fun free => free.2⟩

theorem bind_eq_ok {ε : Type} {x y : Except ε Unit} :
    (do x; y) = .ok () ↔ x = .ok () ∧ y = .ok () := by
  cases x <;> simp [bind, Except.bind]

theorem forM_eq_ok {α ε : Type} {l : List α} {check : α → Except ε Unit} :
    forM l check = .ok () ↔ ∀ a ∈ l, check a = .ok () := by
  induction l with
  | nil => simp [pure, Except.pure]
  | cons a rest ih => rw [List.forM_cons, bind_eq_ok, ih, List.forall_mem_cons]

theorem validateApiVersion_iff {tree : Tree} :
    validateApiVersion tree = .ok () ↔ isApiVersion tree.apiVersion := by
  simp [validateApiVersion]

theorem validateUniqueNames_iff {tree : Tree} :
    validateUniqueNames tree = .ok () ↔ tree.spec.root.names.Nodup := by
  rw [← firstRepeat_nil_eq_none, validateUniqueNames]
  cases firstRepeat [] tree.spec.root.names <;> simp

theorem validateUniquePriorities_iff {rules : List RuleSpec} :
    validateUniquePriorities rules = .ok () ↔ (rules.map RuleSpec.priority).Nodup := by
  rw [← firstRepeat_nil_eq_none, validateUniquePriorities]
  cases firstRepeat [] (rules.map RuleSpec.priority) <;> simp

theorem validateSubtreeRefs_iff {tree : Tree} {bundle : Bundle} :
    validateSubtreeRefs tree bundle = .ok () ↔
      ∀ ref ∈ tree.spec.root.subTreeRefs, (bundle.subtrees.lookup ref).isSome := by
  unfold validateSubtreeRefs
  split
  · next none => simpa [List.find?_eq_none, Option.isSome_iff_ne_none] using none
  · next ref found =>
      have missing := List.find?_some found
      simp only [reduceCtorEq, false_iff]
      intro resolved
      have present := resolved ref (List.mem_of_find?_eq_some found)
      simp_all

theorem detectCircularSubtreeRefs_iff {bundle : Bundle} :
    detectCircularSubtreeRefs bundle = .ok () ↔ ∀ name tree,
      bundle.trees.lookup name = some tree ∨ bundle.subtrees.lookup name = some tree →
        ∀ ref ∈ tree.spec.root.subTreeRefs,
          CycleFree (Refers fun name => bundle.subtrees.lookup name) [] ref := by
  let trees := Insertions.pairs bundle.subtrees ++ Insertions.pairs bundle.trees
  have all : (trees.findSome? fun e =>
      detectCycle bundle.subtrees [] [] e.2.spec.root.subTreeRefs) = none ↔
      ∀ e ∈ trees, ∀ ref ∈ e.2.spec.root.subTreeRefs,
        CycleFree (Refers fun name => bundle.subtrees.lookup name) [] ref := by
    simp only [List.findSome?_eq_none_iff, detectCycle_eq_none]
  have listed {name : String} {tree : Tree} : (bundle.trees.lookup name = some tree ∨
      bundle.subtrees.lookup name = some tree) ↔ (name, tree) ∈ trees := by
    simp [trees, Insertions.mem_pairs, or_comm]
  simp only [listed]
  unfold detectCircularSubtreeRefs
  dsimp only
  split
  · next none =>
      simp only [true_iff]
      intro name tree member
      exact all.mp none (name, tree) member
  · next cycle found =>
      simp only [reduceCtorEq, false_iff]
      intro free
      have none := all.mpr fun e member => free e.1 e.2 member
      rw [none] at found
      cases found

theorem validateTree_iff {bundle : Bundle} {tree : Tree} : validateTree bundle tree = .ok () ↔
    isApiVersion tree.apiVersion ∧ tree.spec.root.names.Nodup ∧
      ∀ ref ∈ tree.spec.root.subTreeRefs, (bundle.subtrees.lookup ref).isSome := by
  simp only [validateTree, bind_eq_ok, validateApiVersion_iff, validateUniqueNames_iff,
    validateSubtreeRefs_iff]

theorem validateBundle_iff {bundle : Bundle} : validateBundle bundle = .ok () ↔
    Sound (fun name => bundle.trees.lookup name) (fun name => bundle.subtrees.lookup name) := by
  simp only [validateBundle, bind_eq_ok, forM_eq_ok, validateTree_iff,
    detectCircularSubtreeRefs_iff, Prod.forall, Insertions.mem_pairs, CycleFree, List.not_mem_nil,
    not_false_eq_true, true_and]
  constructor
  · rintro ⟨trees, subtrees, acyclic⟩ name tree found
    obtain ⟨version, names, resolved⟩ := found.elim (trees name tree) (subtrees name tree)
    exact ⟨version, names, resolved, acyclic name tree found⟩
  · intro sound
    have checked {name : String} {tree : Tree} (found : bundle.trees.lookup name = some tree ∨
        bundle.subtrees.lookup name = some tree) := sound name tree found
    refine ⟨fun name tree found => ?_, fun name tree found => ?_, fun name tree found =>
      (checked found).acyclic⟩
    · exact ⟨(checked (.inl found)).version, (checked (.inl found)).names, (checked (.inl found)).resolved⟩
    · exact ⟨(checked (.inr found)).version, (checked (.inr found)).names, (checked (.inr found)).resolved⟩

end AgileAgent.DecisionDsl
