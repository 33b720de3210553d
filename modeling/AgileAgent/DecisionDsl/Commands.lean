import AgileAgent.DecisionDsl.Runs
import AgileAgent.DecisionDsl.Steps

/-! # The commands of a tick

During a tick commands are only appended to the blackboard's list. A tick that
returns `Ok` hands the whole list out; a tick that returns an error leaves it on
the blackboard, for the next tick that does not.
-/

namespace AgileAgent.DecisionDsl

open CallTree

variable {σ κ : Type}

/-- The later world has the commands of the earlier one, and perhaps more. -/
def Appends (v w : World σ κ) : Prop := v.blackboard.commands <+: w.blackboard.commands

theorem Appends.refl (w : World σ κ) : Appends w w := List.prefix_rfl

theorem Appends.trans {u v w : World σ κ} (first : Appends u v) (second : Appends v w) :
    Appends u w := List.IsPrefix.trans first second

theorem WorldStep.appends {v w : World σ κ} (step : WorldStep v w) : Appends v w := by
  cases step with
  | command c => exact List.prefix_append _ _
  | trace | clock | session | assign | response | round => exact .refl v

theorem WorldSteps.appends {v w : World σ κ} (steps : WorldSteps v w) : Appends v w := by
  induction steps with
  | refl => exact .refl v
  | tail _ step ih => exact ih.trans step.appends

section

variable [Crates] [Session σ] [Clock κ]

theorem interpreter_appends (q : Request σ κ) : Appends q.world (interpreter.solve q).world :=
  Threaded.solve Appends (fun _ _ _ => Appends.trans)
    (requestBody_threaded_of (fun _ _ => WorldSteps.appends) fun w _ _ => .refl w) q

namespace Instance

/-- The commands pushed during the tick of an instance. -/
def pushed (s : Instance σ κ) : List DecisionCommand :=
  s.answer.world.blackboard.commands.drop s.ctx.blackboard.commands.length

theorem answer_commands (s : Instance σ κ) :
    s.answer.world.blackboard.commands = s.ctx.blackboard.commands ++ s.pushed := by
  obtain ⟨more, appended⟩ : Appends s.request.world s.answer.world := interpreter_appends s.request
  rw [pushed, ← appended]
  exact congrArg (s.ctx.blackboard.commands ++ ·) List.drop_left.symm

end Instance

namespace Turn

def Succeeds (t : Turn σ κ) : Prop := ∃ r, t.ticked.result = .ok r

/-- If the tick returned `Ok`, then with exactly the commands pushed during it. -/
def Exact (t : Turn σ κ) : Prop := ∀ r, t.ticked.result = .ok r → r.commands = t.start.pushed

/-- The tick pushed a command and then returned an error. -/
def Strands (t : Turn σ κ) : Prop := ¬ t.Succeeds ∧ t.start.pushed ≠ []

end Turn

namespace Instance

/-- A tick that returns `Ok` drains the list; an error leaves what was pushed on it. -/
theorem tick_commands (s : Instance σ κ) :
    (s.tick.Succeeds ∧ s.tick.after.ctx.blackboard.commands = [] ∧
        (s.tick.Exact ↔ s.ctx.blackboard.commands = [])) ∨
      (¬ s.tick.Succeeds ∧ s.tick.Exact ∧
        s.tick.after.ctx.blackboard.commands = s.ctx.blackboard.commands ++ s.pushed) := by
  cases result : s.answer.result with
  | ok status =>
      have ticked := tick_ok result
      refine .inl ⟨⟨_, congrArg Ticked.result ticked⟩, ?_, ?_⟩
      · simp only [Turn.after, ticked]
      · simp only [Turn.Exact, ticked, Except.ok.injEq, forall_eq']
        show s.answer.world.blackboard.commands = s.pushed ↔ _
        rw [s.answer_commands, List.append_left_eq_self]
  | error e =>
      have ticked := tick_error result
      refine .inr ⟨?_, ?_, ?_⟩
      · rintro ⟨r, done⟩
        rw [ticked] at done
        cases done
      · intro r done
        rw [ticked] at done
        cases done
      · simp only [Turn.after, ticked]
        exact s.answer_commands

/-- Over a run of a host that leaves the command list alone, with `kept` commands on
    it at the start: every `Ok` tick is exact unless it inherits a command, from the
    start or from a tick that stranded one. -/
theorem run_exact {steps : List (HostStep σ κ)}
    (host : ∀ step ∈ steps, ∀ ctx, (step ctx).blackboard.commands = ctx.blackboard.commands) :
    ∀ s : Instance σ κ, (∀ t ∈ s.run steps, t.Exact) ↔
      (s.ctx.blackboard.commands ≠ [] → ∀ t ∈ s.run steps, ¬ t.Succeeds) ∧
        (s.run steps).Pairwise fun t u => ¬ (t.Strands ∧ u.Succeeds) := by
  induction steps with
  | nil => intro s; simp [run]
  | cons step rest ih =>
      intro s
      let now := s.host step
      have kept : now.ctx.blackboard.commands = s.ctx.blackboard.commands :=
        host step List.mem_cons_self s.ctx
      have later := ih (fun step inside => host step (List.mem_cons_of_mem _ inside)) now.tick.after
      simp only [run, List.forall_mem_cons, List.pairwise_cons]
      rw [show (s.host step).tick = now.tick from rfl, later, ← kept]
      rcases now.tick_commands with ⟨succeeds, drained, exact⟩ | ⟨fails, exact, left⟩
      · simp only [exact, drained, ne_eq, not_true_eq_false, false_implies, true_and, Turn.Strands,
          succeeds, false_and, not_false_eq_true, implies_true]
        tauto
      · have strands : now.tick.Strands ↔ now.pushed ≠ [] := by
          simp only [Turn.Strands, fails, not_false_eq_true, true_and]
          rfl
        simp only [exact, left, strands, fails, true_and, not_false_eq_true, ne_eq,
          List.append_eq_nil_iff, not_and_or]
        constructor
        · rintro ⟨quiet, pairs⟩
          exact ⟨fun held => quiet (.inl held), fun t member => by
            by_cases none : now.pushed = []
            · exact .inl (fun some => some none)
            · exact .inr (quiet (.inr none) t member), pairs⟩
        · rintro ⟨quiet, silent, pairs⟩
          refine ⟨?_, pairs⟩
          rintro (held | pushed) t member
          · exact quiet held t member
          · exact (silent t member).resolve_left (fun no => no pushed)

/-- Starting with no commands, every tick that returns `Ok` returns exactly the
    commands pushed during it if and only if no tick that pushed a command and then
    returned an error is followed by a tick that returns `Ok`. -/
theorem exact_iff_nothing_stranded (s : Instance σ κ) (steps : List (HostStep σ κ))
    (empty : s.ctx.blackboard.commands = [])
    (host : ∀ step ∈ steps, ∀ ctx, (step ctx).blackboard.commands = ctx.blackboard.commands) :
    (∀ t ∈ s.run steps, t.Exact) ↔
      (s.run steps).Pairwise fun t u => ¬ (t.Strands ∧ u.Succeeds) := by
  rw [run_exact host s]
  exact ⟨fun both => both.2, fun pairs => ⟨fun held => absurd empty held, pairs⟩⟩

end Instance

end

section

open Plain

/-- Wake the agent up, then wait for the variable `go`, which is not there at first. -/
def wakeUpTree : Node := .sequence
  { name := "wake_up"
    children := [
      .action { name := "emit", command := .agent .wakeUp, when := none },
      .condition { name := "go", evaluator := .variableIs "go" (.boolean true) }] }

/-- The host sets `go` before the second tick. -/
def setGo : List (HostStep Silent Frozen) :=
  [id, fun ctx => { ctx with blackboard := ctx.blackboard.set "go" (.boolean true) }]

/-- The first tick pushes a command and fails on the missing variable; the second
    pushes one command and returns two. -/
theorem wakeUp_returned_twice :
    ¬ ∀ t ∈ (Instance.launch wakeUpTree Plain.ctx).run setGo, t.Exact := by
  intro exact
  have second := exact _ (List.mem_cons_of_mem _ List.mem_cons_self) _ rfl
  exact absurd second (by decide)

/-- One tick of the same tree, once the variable is there. -/
theorem wakeUp_returned_once :
    let s := Instance.launch wakeUpTree Plain.ctx
    let steps := [setGo.getLast (by decide)]
    (∀ t ∈ s.run steps, t.Exact) ↔
      (s.run steps).Pairwise fun t u => ¬ (t.Strands ∧ u.Succeeds) :=
  Instance.exact_iff_nothing_stranded _ _ rfl (by
    intro step member ctx
    obtain rfl := List.mem_singleton.mp member
    rfl)

end

end AgileAgent.DecisionDsl
