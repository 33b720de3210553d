import AgileAgent.DecisionDsl.Idle

/-! # Reset undoes a run

Ticks change nothing of a tree but its run state, and `reset` puts all of that back to
what it is in a tree that was never ticked.
-/

namespace AgileAgent.DecisionDsl

namespace Node

/-- The run state of the node itself is what a parsed node has. -/
def Unticked : Node → Prop
  | .selector n => n.activeChild = none ∧ n.matched = false
  | .sequence n => n.activeChild = none
  | .parallel n => n.activeChild = none
  | .repeater n => n.current = 0
  | .cooldown n => n.lastSuccess = none
  | .prompt n => n.pending = false ∧ n.sentAt = none
  | _ => True

/-- A tree that was never ticked. -/
abbrev Fresh : Node → Prop := All Unticked

theorem reset_unticked (n : Node) : n.reset.Unticked := by
  cases n with
  | selector => exact ⟨rfl, rfl⟩
  | sequence | parallel | repeater | cooldown => rfl
  | prompt => exact ⟨rfl, rfl⟩
  | subTree n =>
      rw [reset_subTree]
      trivial
  | _ => trivial

theorem reset_fresh (n : Node) : n.reset.Fresh := by
  induction n using children_induction with
  | step n ih =>
      apply All.mk n.reset_unticked
      rw [children_reset]
      intro child member
      obtain ⟨old, inside, rfl⟩ := List.mem_map.mp member
      exact ih old inside

/-- There is nothing to reset in a fresh tree. -/
theorem Fresh.reset_eq {n : Node} (fresh : n.Fresh) : n.reset = n := by
  induction fresh with
  | @mk n here below ih =>
      have children : n.children.map reset = n.children :=
        (List.map_congr_left ih).trans (List.map_id _)
      cases n with
      | selector n =>
          obtain ⟨marker, matched⟩ := here
          simp only [Node.children] at children
          simp only [reset, resetList_eq_map, children, ← marker, ← matched]
      | sequence n | parallel n =>
          have marker : n.activeChild = none := here
          simp only [Node.children] at children
          simp only [reset, resetList_eq_map, children, ← marker]
      | repeater n =>
          have current : n.current = 0 := here
          have child : n.child.reset = n.child := ih n.child List.mem_cons_self
          simp only [reset, child, ← current]
      | cooldown n =>
          have lastSuccess : n.lastSuccess = none := here
          have child : n.child.reset = n.child := ih n.child List.mem_cons_self
          simp only [reset, child, ← lastSuccess]
      | inverter n | reflectionGuard n | forceHuman n =>
          have child : n.child.reset = n.child := ih n.child List.mem_cons_self
          simp only [reset, child]
      | when n =>
          have action : n.action.reset = n.action := ih n.action List.mem_cons_self
          simp only [reset, action]
      | condition | action | setVar => rfl
      | prompt n =>
          obtain ⟨pending, sentAt⟩ := here
          simp only [reset, ← pending, ← sentAt]
      | subTree n =>
          rw [reset_subTree]
          cases root : n.resolvedRoot with
          | none => rw [Option.map_none, ← root]
          | some root' =>
              have same : root'.reset = root' := ih root' (by simp [Node.children, root])
              rw [Option.map_some, same, ← root]

theorem reset_reset (n : Node) : n.reset.reset = n.reset := n.reset_fresh.reset_eq

end Node

section

variable {σ κ : Type} [Crates] [Session σ] [Clock κ]

/-- Whatever ticks a fresh tree went through, and whatever they returned, `reset` brings
    it back in every field, and resetting once more changes nothing. -/
theorem reset_restores {s : Instance σ κ} (fresh : s.root.Fresh) (steps : List (HostStep σ κ)) :
    s.root.reset = s.root ∧ (∀ t ∈ s.run steps, t.after.root.reset = s.root) ∧
      ∀ n : Node, n.reset.reset = n.reset := by
  refine ⟨fresh.reset_eq, fun t member => ?_, Node.reset_reset⟩
  obtain ⟨start, ticked⟩ := Instance.run_turn member
  have root : t.after.root = t.start.answer.node := by
    rw [ticked]
    exact Instance.tick_root _
  rw [root]
  exact (interpreter_reset _).trans (start.trans fresh.reset_eq)

end

section

open Plain

/-- A rule selector over an action, as desugaring builds it. -/
def wakeUpRules : Node := .selector
  { name := "rules_root"
    children := [.action { name := "emit", command := .agent .wakeUp, when := none }]
    ruleName := some "rules" }

/-- Its tick records the match, which `reset` clears. -/
theorem wakeUpRules_restored :
    let s : Instance Silent Frozen := Instance.launch wakeUpRules Plain.ctx
    s.root.reset = s.root ∧ (∀ t ∈ s.run [id, id], t.after.root.reset = s.root) ∧
      ∀ n : Node, n.reset.reset = n.reset := by
  apply reset_restores
  apply Node.All.mk ⟨rfl, rfl⟩
  intro child member
  rw [List.mem_singleton.mp member]
  exact .mk trivial nofun

end

end AgileAgent.DecisionDsl
