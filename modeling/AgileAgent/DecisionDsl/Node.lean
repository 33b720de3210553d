import AgileAgent.DecisionDsl.Evaluator
import AgileAgent.DecisionDsl.OutputParser

/-! # Behaviour tree nodes

The fourteen node kinds. As in the source the run state (`activeChild`,
`current`, `pending`, …) is stored in the nodes themselves, beside the parsed
configuration. Each record is generic in the type of its children; `Node` ties
the knot.
-/

namespace AgileAgent.DecisionDsl

inductive NodeStatus where
  | success
  | failure
  | running
  deriving Repr, DecidableEq

inductive ParallelPolicy where
  | allSuccess
  | anySuccess
  | majority
  deriving Repr, DecidableEq

/-- Copy the parsed field `field` to the variable `key`. -/
structure SetMapping where
  key : String
  field : String
  deriving Repr, DecidableEq

structure SelectorNode (ν : Type) where
  name : String
  children : List ν
  activeChild : Option Nat := none
  ruleName : Option String := none
  rulePriority : Option UInt32 := none
  matched : Bool := false

structure SequenceNode (ν : Type) where
  name : String
  children : List ν
  activeChild : Option Nat := none

structure ParallelNode (ν : Type) where
  name : String
  policy : ParallelPolicy
  children : List ν
  activeChild : Option Nat := none

structure InverterNode (ν : Type) where
  name : String
  child : ν

structure RepeaterNode (ν : Type) where
  name : String
  maxAttempts : UInt32
  child : ν
  current : UInt32 := 0

structure CooldownNode (ν : Type) where
  name : String
  durationMs : Nat
  child : ν
  lastSuccess : Option Nat := none

structure ReflectionGuardNode (ν : Type) where
  name : String
  maxRounds : UInt8
  child : ν

structure ForceHumanNode (ν : Type) where
  name : String
  reason : String
  child : ν

structure WhenNode (ν : Type) where
  name : String
  condition : Evaluator
  action : ν

structure ConditionNode where
  name : String
  evaluator : Evaluator

structure ActionNode where
  name : String
  command : DecisionCommand
  when : Option Evaluator

structure PromptNode where
  name : String
  model : Option String
  template : String
  parser : OutputParser
  sets : List SetMapping
  timeoutMs : Nat
  pending : Bool := false
  sentAt : Option Nat := none

structure SetVarNode where
  name : String
  key : String
  value : BlackboardValue

structure SubTreeNode (ν : Type) where
  name : String
  refName : String
  resolvedRoot : Option ν := none

inductive Node where
  | selector (n : SelectorNode Node)
  | sequence (n : SequenceNode Node)
  | parallel (n : ParallelNode Node)
  | inverter (n : InverterNode Node)
  | repeater (n : RepeaterNode Node)
  | cooldown (n : CooldownNode Node)
  | reflectionGuard (n : ReflectionGuardNode Node)
  | forceHuman (n : ForceHumanNode Node)
  | when (n : WhenNode Node)
  | condition (n : ConditionNode)
  | action (n : ActionNode)
  | prompt (n : PromptNode)
  | setVar (n : SetVarNode)
  | subTree (n : SubTreeNode Node)

namespace Node

mutual
/-- Levels of nodes below and including this one. -/
def height : Node → Nat
  | .selector { children, .. } | .sequence { children, .. } | .parallel { children, .. } =>
      heightList children + 1
  | .inverter { child, .. } | .repeater { child, .. } | .cooldown { child, .. }
  | .reflectionGuard { child, .. } | .forceHuman { child, .. } => height child + 1
  | .when { action := child, .. } => height child + 1
  | .condition _ | .action _ | .prompt _ | .setVar _ => 1
  | .subTree { resolvedRoot := none, .. } => 1
  | .subTree { resolvedRoot := some root, .. } => height root + 1

def heightList : List Node → Nat
  | [] => 0
  | n :: rest => max (height n) (heightList rest)
end

/-- `NodeBehavior::children`. -/
def children : Node → List Node
  | .selector n => n.children
  | .sequence n => n.children
  | .parallel n => n.children
  | .inverter n => [n.child]
  | .repeater n => [n.child]
  | .cooldown n => [n.child]
  | .reflectionGuard n => [n.child]
  | .forceHuman n => [n.child]
  | .when n => [n.action]
  | .condition _ | .action _ | .prompt _ | .setVar _ => []
  | .subTree n => n.resolvedRoot.toList

theorem height_le_heightList {ns : List Node} {n : Node} (member : n ∈ ns) :
    n.height ≤ heightList ns := by
  induction ns with
  | nil => cases member
  | cons head rest ih =>
      simp only [heightList]
      rcases List.mem_cons.mp member with rfl | later
      · exact Nat.le_max_left _ _
      · exact Nat.le_trans (ih later) (Nat.le_max_right _ _)

theorem height_lt_of_mem_children {n child : Node} (member : child ∈ n.children) :
    child.height < n.height := by
  have below {ns : List Node} (inside : child ∈ ns) : child.height < heightList ns + 1 :=
    Nat.lt_succ_of_le (height_le_heightList inside)
  cases n with
  | selector n => exact below member
  | sequence n => exact below member
  | parallel n => exact below member
  | inverter n => obtain rfl := List.mem_singleton.mp member; exact Nat.lt_succ_self _
  | repeater n => obtain rfl := List.mem_singleton.mp member; exact Nat.lt_succ_self _
  | cooldown n => obtain rfl := List.mem_singleton.mp member; exact Nat.lt_succ_self _
  | reflectionGuard n => obtain rfl := List.mem_singleton.mp member; exact Nat.lt_succ_self _
  | forceHuman n => obtain rfl := List.mem_singleton.mp member; exact Nat.lt_succ_self _
  | when n => obtain rfl := List.mem_singleton.mp member; exact Nat.lt_succ_self _
  | condition | action | prompt | setVar => cases member
  | subTree n =>
      obtain ⟨name, refName, root⟩ := n
      cases root with
      | none => cases member
      | some root => obtain rfl := List.mem_singleton.mp member; exact Nat.lt_succ_self _

/-- Induction over a tree with the children of each node as hypotheses. -/
@[elab_as_elim]
theorem children_induction {motive : Node → Prop}
    (step : ∀ n : Node, (∀ child ∈ n.children, motive child) → motive n) (n : Node) : motive n := by
  induction h : n.height using Nat.strongRecOn generalizing n with
  | ind height ih =>
      subst h
      exact step n fun child member => ih _ (height_lt_of_mem_children member) child rfl

/-! ## Reset -/

mutual
/-- `NodeBehavior::reset`: clear the run state, keep the configuration. -/
def reset : Node → Node
  | .selector n => .selector
      { n with children := resetList n.children, activeChild := none, matched := false }
  | .sequence n => .sequence { n with children := resetList n.children, activeChild := none }
  | .parallel n => .parallel { n with children := resetList n.children, activeChild := none }
  | .inverter n => .inverter { n with child := reset n.child }
  | .repeater n => .repeater { n with child := reset n.child, current := 0 }
  | .cooldown n => .cooldown { n with child := reset n.child, lastSuccess := none }
  | .reflectionGuard n => .reflectionGuard { n with child := reset n.child }
  | .forceHuman n => .forceHuman { n with child := reset n.child }
  | .when n => .when { n with action := reset n.action }
  | .condition n => .condition n
  | .action n => .action n
  | .prompt n => .prompt { n with pending := false, sentAt := none }
  | .setVar n => .setVar n
  | .subTree ⟨name, refName, none⟩ => .subTree ⟨name, refName, none⟩
  | .subTree ⟨name, refName, some root⟩ => .subTree ⟨name, refName, some (reset root)⟩

def resetList : List Node → List Node
  | [] => []
  | n :: rest => reset n :: resetList rest
end

theorem resetList_eq_map (ns : List Node) : resetList ns = ns.map reset := by
  induction ns with
  | nil => rfl
  | cons n rest ih => rw [resetList, ih, List.map_cons]

theorem reset_subTree (n : SubTreeNode Node) :
    (Node.subTree n).reset = .subTree { n with resolvedRoot := n.resolvedRoot.map reset } := by
  obtain ⟨name, refName, root⟩ := n
  cases root <;> rfl

mutual
theorem height_reset : ∀ n : Node, n.reset.height = n.height
  | .selector n | .sequence n | .parallel n => by
      simp only [reset, height, heightList_resetList n.children]
  | .inverter n | .repeater n | .cooldown n | .reflectionGuard n | .forceHuman n => by
      simp only [reset, height, height_reset n.child]
  | .when n => by simp only [reset, height, height_reset n.action]
  | .condition _ | .action _ | .prompt _ | .setVar _ | .subTree ⟨_, _, none⟩ => rfl
  | .subTree ⟨_, _, some root⟩ => by simp only [reset, height, height_reset root]

theorem heightList_resetList : ∀ ns : List Node, heightList (resetList ns) = heightList ns
  | [] => rfl
  | n :: rest => by simp only [resetList, heightList, height_reset n, heightList_resetList rest]
end

theorem height_of_reset {m n : Node} (same : m.reset = n.reset) : m.height = n.height := by
  rw [← height_reset m, same, height_reset]

/-- Replacing a child by one with the same configuration keeps the configuration. -/
theorem resetList_set {ns : List Node} {i : Nat} {old new : Node} (at_i : ns[i]? = some old)
    (same : new.reset = old.reset) : resetList (ns.set i new) = resetList ns := by
  obtain ⟨inside, rfl⟩ := List.getElem?_eq_some_iff.mp at_i
  have bound : i < (ns.map reset).length := by rwa [List.length_map]
  have old : (ns.map reset)[i] = ns[i].reset := List.getElem_map _
  rw [resetList_eq_map, resetList_eq_map, List.map_set, same, ← old, List.set_getElem_self]

end Node

end AgileAgent.DecisionDsl
