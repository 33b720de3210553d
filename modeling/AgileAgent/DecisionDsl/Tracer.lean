import AgileAgent.DecisionDsl.Node

/-! # The tracer

The log of a tick and the stack of child indices of the composites being ticked.
An action entry keeps the command itself; the source keeps its `Debug` text.
-/

namespace AgileAgent.DecisionDsl

inductive TraceEntry where
  | enter (name : String) (childIndex depth : Nat)
  | exit (name : String) (status : NodeStatus) (durationMs : Nat)
  | action (nodeName : String) (command : DecisionCommand)
  | promptSent (nodeName : String)
  | promptSuccess (nodeName response : String)
  | promptFailure (nodeName error : String)
  | enterSubTree (name refName : String)
  | exitSubTree (name refName : String) (status : NodeStatus)
  | ruleMatched (ruleName : String) (priority : UInt32)
  | ruleSkipped (ruleName reason : String)
  deriving Repr, DecidableEq

structure Tracer where
  entries : List TraceEntry := []
  pathStack : List Nat := []
  runningPath : List Nat := []
  depth : Nat := 0
  deriving Repr, DecidableEq

namespace Tracer

def record (t : Tracer) (entry : TraceEntry) : Tracer := { t with entries := t.entries ++ [entry] }

def enter (t : Tracer) (name : String) (childIndex : Nat) : Tracer :=
  { t with
    pathStack := t.pathStack ++ [childIndex]
    entries := t.entries ++ [.enter name childIndex t.depth]
    depth := t.depth + 1 }

def exit (t : Tracer) (name : String) (status : NodeStatus) : Tracer :=
  let pathStack := t.pathStack.dropLast
  { pathStack
    entries := t.entries ++ [.exit name status 0]
    depth := t.depth - 1
    runningPath := if status = .running then pathStack else t.runningPath }

def recordAction (t : Tracer) (name : String) (command : DecisionCommand) : Tracer :=
  t.record (.action name command)

def recordPromptSent (t : Tracer) (name : String) : Tracer := t.record (.promptSent name)

def recordPromptSuccess (t : Tracer) (name response : String) : Tracer :=
  t.record (.promptSuccess name response)

def recordPromptFailure (t : Tracer) (name error : String) : Tracer :=
  t.record (.promptFailure name error)

def enterSubTree (t : Tracer) (name refName : String) : Tracer :=
  t.record (.enterSubTree name refName)

def exitSubTree (t : Tracer) (name refName : String) (status : NodeStatus) : Tracer :=
  t.record (.exitSubTree name refName status)

def recordRuleMatched (t : Tracer) (ruleName : String) (priority : UInt32) : Tracer :=
  t.record (.ruleMatched ruleName priority)

def recordRuleSkipped (t : Tracer) (ruleName reason : String) : Tracer :=
  t.record (.ruleSkipped ruleName reason)

@[simp] theorem enter_pathStack (t : Tracer) (name : String) (i : Nat) :
    (t.enter name i).pathStack = t.pathStack ++ [i] := rfl

theorem exit_runningPath (t : Tracer) (name : String) (status : NodeStatus) :
    (t.exit name status).runningPath =
      if status = .running then t.pathStack.dropLast else t.runningPath := rfl

end Tracer

end AgileAgent.DecisionDsl
