import AgileAgent.DecisionDsl.Ready

/-! # Finished ticks

A tick that returns success or failure is to leave nothing running, so that the next
decision cycle starts afresh.
-/

namespace AgileAgent.DecisionDsl

open CallTree

section

variable {σ κ : Type} [Crates] [Session σ] [Clock κ]

/-- A state between ticks: the executor ticks the root, and only what the markers lead to
    may be running. -/
structure Instance.Orderly (rest : Node → Prop) (s : Instance σ κ) : Prop where
  ready : s.Ready
  tracked : s.root.Tracked rest

omit [Crates] [Session σ] [Clock κ] in
/-- A new executor on a tree without run state. -/
theorem Instance.launch_orderly {rest : Node → Prop} (weaker : ∀ n : Node, n.AtRest → rest n)
    {root : Node} (idle : root.Idle) (ctx : TickContext σ κ) : (launch root ctx).Orderly rest :=
  ⟨nofun, idle.tracked weaker⟩

/-- The tick turns away from nothing running. -/
def Turn.Keeps (rest : Node → Prop) (t : Turn σ κ) : Prop :=
  ∀ v ∈ interpreter.trail t.start.request, ¬ Abandons rest v

theorem Instance.tick_orderly {rest : Node → Prop} (weaker : ∀ n : Node, n.AtRest → rest n)
    {s : Instance σ κ} (keeps : s.tick.Keeps rest) (orderly : s.Orderly rest) :
    s.tick.after.Orderly rest where
  ready := orderly.ready.after_keeps fun v visited swallows => keeps v visited (.of_swallows swallows)
  tracked := by
    have kept := tick_kept weaker s.request orderly.ready.ticks orderly.tracked keeps
    change s.tick.ticked.root.Tracked rest
    rw [tick_root]
    exact kept.tracked

end

section

open Plain

def askFlagged : PromptNode :=
  { name := "ask", model := none, template := "Review?", parser := .json, sets := []
    timeoutMs := 30000 }

/-- A prompt that may only be asked while `flag` is set. -/
def flaggedPrompt : Node := .when
  { name := "flagged", condition := .variableIs "flag" (.boolean true), action := .prompt askFlagged }

def setFlag (value : Bool) : HostStep Silent Frozen := fun ctx =>
  { ctx with blackboard := ctx.blackboard.set "flag" (.boolean value) }

/-- A tree that only wakes the agent up. -/
def wakeUpOnly : Node := .action { name := "wake", command := .agent .wakeUp, when := none }

end

end AgileAgent.DecisionDsl
