import AgileAgent.DecisionDsl.Interpreter

/-! # The executor

`Executor::tick` runs one tick of a tree: a fresh tracer, `tick` or `resume_at` on
the root, then the bookkeeping of the running path and the draining of commands.
-/

namespace AgileAgent.DecisionDsl

structure Executor where
  runningPath : List Nat := []
  isRunning : Bool := false
  deriving Repr, DecidableEq

structure TickResult where
  status : NodeStatus
  commands : List DecisionCommand
  trace : List TraceEntry
  deriving Repr, DecidableEq

/-- What `Executor::tick` returns, with the executor, root node and context it leaves. -/
structure Ticked (σ κ : Type) where
  result : Except Fault TickResult
  executor : Executor
  root : Node
  ctx : TickContext σ κ

namespace Executor

variable {σ κ : Type}

/-- The entry point the executor calls on the root. -/
def ask (ex : Executor) : Ask := if ex.isRunning then .resumeAt ex.runningPath 0 else .tick

/-- The call of one tick, with a new tracer. -/
def request (ex : Executor) (root : Node) (ctx : TickContext σ κ) : Request σ κ :=
  ⟨ex.ask, root, { ctx with tracer := {} }⟩

/-- The executor after a tick that returned `status` with this tracer. -/
def next (status : NodeStatus) (tracer : Tracer) : Executor :=
  if status = .running then ⟨tracer.runningPath, true⟩ else ⟨[], false⟩

/-- An error leaves before the path is stored and the commands are drained. -/
def finish (ex : Executor) (r : Answer σ κ) : Ticked σ κ :=
  match r.result with
  | .error e => ⟨.error e, ex, r.node, r.world.toTickContext⟩
  | .ok status =>
      let (commands, blackboard) := r.world.blackboard.drainCommands
      ⟨.ok ⟨status, commands, r.world.tracer.entries⟩, next status r.world.tracer, r.node,
        { r.world.toTickContext with blackboard }⟩

variable [Crates] [Session σ] [Clock κ]

def tick (ex : Executor) (root : Node) (ctx : TickContext σ κ) : Ticked σ κ :=
  ex.finish (interpreter.solve (ex.request root ctx))

def reset (_ : Executor) : Executor := {}

end Executor

end AgileAgent.DecisionDsl
