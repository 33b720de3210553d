import AgileAgent.Insertions
import AgileAgent.DecisionDsl.Node

/-! # Documents

The three kinds of DSL documents and the surface forms of a decision rule. Records
that contain actions are generic in their type; `ThenSpec` ties the knot.
-/

namespace AgileAgent.DecisionDsl

inductive TreeKind where
  | behaviorTree
  | subTree
  deriving Repr, DecidableEq

structure Metadata where
  name : String
  description : Option String
  deriving Repr, DecidableEq

structure Spec where
  root : Node

structure Tree where
  apiVersion : String
  kind : TreeKind
  metadata : Metadata
  spec : Spec

/-- The trees and subtrees of a directory, by their names. -/
structure Bundle where
  trees : Insertions.Map String Tree := ∅
  subtrees : Insertions.Map String Tree := ∅

inductive OnError where
  | skip
  | escalate
  | retry
  deriving Repr, DecidableEq

inductive PipelineStep where
  | guard (condition : Evaluator)
  | action (command : DecisionCommand)

structure PipelineSpec where
  name : String
  steps : List PipelineStep

inductive SwitchOn where
  | prompt (model : Option String) (timeoutMs : Option Nat) (template : String)
      (parser : OutputParser) (resultKey : Option String)
  | variable (key : String)

structure SwitchCase (τ : Type) where
  value : String
  action : τ

structure SwitchSpec (τ : Type) where
  name : String
  on : SwitchOn
  cases : List (SwitchCase τ)
  default : Option τ

structure WhenSpec (τ : Type) where
  name : String
  condition : Evaluator
  «then» : τ
  onError : Option OnError

inductive ThenSpec where
  | inlineCommand (command : DecisionCommand)
  | switch (spec : SwitchSpec ThenSpec)
  | when (spec : WhenSpec ThenSpec)
  | pipeline (spec : PipelineSpec)
  | subTree (refName : String)

structure RuleSpec where
  priority : UInt32
  name : String
  condition : Option Evaluator
  action : ThenSpec
  cooldownMs : Option Nat
  reflectionMaxRounds : Option UInt8
  onError : Option OnError

inductive DslDocument where
  | decisionRules (apiVersion : String) (metadata : Metadata) (rules : List RuleSpec)
  | behaviorTree (apiVersion : String) (metadata : Metadata) (root : Node)
  | subTree (apiVersion : String) (metadata : Metadata) (root : Node)

end AgileAgent.DecisionDsl
