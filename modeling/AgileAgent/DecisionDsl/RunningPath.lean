import AgileAgent.DecisionDsl.Runs
import AgileAgent.DecisionDsl.Steps

/-! # The running path

Only a prompt returns `Running` of its own accord; every other node relays it from a
call. The path a tick stores, however, is overwritten by every composite that the
status passes on its way up.
-/

namespace AgileAgent.DecisionDsl

open CallTree

variable {σ κ ν μ : Type}

/-- The routine returns `Running` only after one of its calls did. -/
def Relays : Routine σ κ ν → Prop
  | .ret r => r.result ≠ .ok .running
  | .call _ next => ∀ a : Answer σ κ, a.result = .ok .running ∨ Relays (next a)

namespace Relays

theorem map {f : ν → μ} {routine : Routine σ κ ν} (relays : Relays routine) :
    Relays (Body.map (Run.map f) routine) := by
  induction routine with
  | ret r => exact relays
  | call q next ih => exact fun a => (relays a).imp id (ih a)

theorem run {routine : Routine σ κ ν} (relays : Relays routine) {answer : Request σ κ → Answer σ κ}
    (running : (routine.run answer).result = .ok .running) :
    ∃ q ∈ routine.calls answer, (answer q).result = .ok .running := by
  induction routine with
  | ret r => exact absurd running relays
  | call q next ih =>
      rcases relays (answer q) with here | later
      · exact ⟨q, List.mem_cons_self, here⟩
      · obtain ⟨q', called, found⟩ := ih (answer q) later running
        exact ⟨q', List.mem_cons_of_mem _ called, found⟩

theorem visitChild {name : String} {children : List Node} {i : Nat} {ask : Ask} {w : World σ κ}
    {failed : Fault → List Node → World σ κ → Run σ κ ν}
    {next : NodeStatus → List Node → World σ κ → Routine σ κ ν}
    (stopped : ∀ e ns w, (failed e ns w).result = .error e)
    (continued : ∀ status ns w, status ≠ .running → Relays (next status ns w)) :
    Relays (visitChild name children i ask w failed next) := by
  have leave {e ns w} : Relays (.ret (failed e ns w)) := by
    intro running
    rw [stopped] at running
    cases running
  unfold DecisionDsl.visitChild
  split
  · exact leave
  · intro a
    cases result : a.result with
    | error e =>
        simp only [result]
        exact .inr leave
    | ok status =>
        simp only [result]
        by_cases running : status = .running
        · exact .inl (congrArg _ running)
        · exact .inr (continued _ _ _ running)

end Relays

theorem selectorLoop_relays {visits : List (Nat × Ask)} : ∀ (node : SelectorNode Node)
    (w : World σ κ), Relays (selectorLoop visits node w) := by
  induction visits with
  | nil => intro node w running; cases running
  | cons visit rest ih =>
      intro node w
      refine .visitChild (fun _ _ _ => rfl) fun status ns w other => ?_
      cases status with
      | success =>
          intro running
          rw [(selectorSucceeded_leaves _ _ _).1] at running
          cases running
      | running => exact absurd rfl other
      | failure => exact ih _ _

theorem sequenceLoop_relays {visits : List (Nat × Ask)} : ∀ (node : SequenceNode Node)
    (w : World σ κ), Relays (sequenceLoop visits node w) := by
  induction visits with
  | nil => intro node w running; cases running
  | cons visit rest ih =>
      intro node w
      refine .visitChild (fun _ _ _ => rfl) fun status ns w other => ?_
      cases status with
      | success => exact ih _ _
      | running => exact absurd rfl other
      | failure => intro running; cases running

/-- With no running child a parallel node is decided. -/
theorem ParallelPolicy.verdict_ne_running (policy : ParallelPolicy) (total successes failures : Nat) :
    policy.verdict total successes failures 0 ≠ .running := by
  cases policy <;> simp only [ParallelPolicy.verdict] <;> split_ifs <;> simp at *

theorem parallelLoop_relays {visits : List (Nat × Ask)} : ∀ (s f : Nat)
    (node : ParallelNode Node) (w : World σ κ), Relays (parallelLoop visits s f 0 node w) := by
  induction visits with
  | nil =>
      intro s f node w running
      exact node.policy.verdict_ne_running _ _ _ (Except.ok.inj running)
  | cons visit rest ih =>
      intro s f node w
      refine .visitChild (fun _ _ _ => rfl) fun status ns w other => ?_
      cases status with
      | success => exact ih _ _ _ _
      | failure => exact ih _ _ _ _
      | running => exact absurd rfl other

theorem parallelWith_relays (asks : Nat → Ask) (node : ParallelNode Node) (w : World σ κ) :
    Relays (parallelWith asks node w) := by
  unfold parallelWith
  split
  · intro running
    cases policy : node.policy <;> simp [ParallelPolicy.emptyVerdict, policy] at running
  · exact parallelLoop_relays _ _ _ _

/-- A routine that calls once relays if nothing but a running answer makes it run. -/
theorem Relays.once {q : Request σ κ} {next : Answer σ κ → Routine σ κ ν}
    (done : ∀ a, a.result ≠ .ok .running → Relays (next a)) : Relays (.call q next) := fun a => by
  by_cases running : a.result = .ok .running
  · exact .inl running
  · exact .inr (done a running)

theorem inverterWith_relays (ask : Ask) (node : InverterNode Node) (w : World σ κ) :
    Relays (inverterWith ask node w) := by
  refine .once fun a other running => other ?_
  cases result : a.result with
  | error e =>
      simp only [result, Except.map, reduceCtorEq] at running
  | ok status =>
      simp only [result, Except.map, Except.ok.injEq] at running
      cases status <;> simp_all [NodeStatus.invert]

theorem repeaterLoop_relays {asks : List Ask} : ∀ (node : RepeaterNode Node) (w : World σ κ),
    Relays (repeaterLoop asks node w) := by
  induction asks with
  | nil => intro node w running; cases running
  | cons ask rest ih =>
      intro node w
      refine .once fun a other => ?_
      have counted (n : RepeaterNode Node) (status : NodeStatus) (ended : status ≠ .running) :
          Relays (repeaterCount n status a.world (repeaterLoop rest)) := by
        unfold repeaterCount
        split
        · intro running; cases running
        · split
          · intro running
            exact ended (Except.ok.inj running)
          · exact ih _ _
      unfold repeaterAttempt
      split
      · intro running; cases running
      · exact counted _ _ (by decide)
      · next running => exact absurd running other
      · exact counted _ _ (by decide)

theorem cooldownWith_relays [Clock κ] (ask : Ask) (node : CooldownNode Node) (w : World σ κ) :
    Relays (cooldownWith ask node w) := by
  simp only [cooldownWith]
  split
  · intro running; cases running
  · refine .once fun a other => ?_
    split <;> exact other

theorem reflectionGuardWith_relays (ask : Ask) (node : ReflectionGuardNode Node) (w : World σ κ) :
    Relays (reflectionGuardWith ask node w) := by
  unfold reflectionGuardWith
  split
  · intro running; cases running
  · refine .once fun a other => ?_
    dsimp only
    split
    · split
      · intro running; cases running
      · exact other
    · exact other

theorem forceHumanWith_relays (ask : Ask) (node : ForceHumanNode Node) (w : World σ κ) :
    Relays (forceHumanWith ask node w) := by
  refine .once fun a other => ?_
  dsimp only
  split <;> exact other

theorem subTreeWith_relays (ask : Ask) (node : SubTreeNode Node) (w : World σ κ) :
    Relays (subTreeWith ask node w) := by
  rcases subTreeWith_cases ask node w with ⟨e, body, -⟩ | ⟨root, scopes, -, -, body⟩
  · rw [body]
    intro running; cases running
  · rw [body]
    exact .once fun a other => other

section

variable [Crates]

theorem whenWith_relays (ask : Ask) (node : WhenNode Node) (w : World σ κ) :
    Relays (whenWith ask node w) := by
  unfold whenWith
  split
  · intro running; cases running
  · intro running; cases running
  · exact .once fun a other => other

theorem tickCondition_ne_running (node : ConditionNode) (w : World σ κ) :
    (tickCondition node w).result ≠ .ok .running := by
  unfold tickCondition
  split <;> intro running <;> cases running

theorem tickAction_ne_running (node : ActionNode) (w : World σ κ) :
    (tickAction node w).result ≠ .ok .running := by
  have emitted : (emitCommand node w).result ≠ .ok .running := by
    unfold emitCommand
    split <;> intro running <;> cases running
  unfold tickAction
  split
  · exact emitted
  · split
    · intro running; cases running
    · intro running; cases running
    · exact emitted

variable [Session σ] [Clock κ]

/-- Every node but a prompt relays `Running` from a call. -/
theorem requestBody_relays (q : Request σ κ) :
    (∃ n, q.node = .prompt n) ∨ Relays (requestBody q) := by
  cases q using requestBody_cases with
  | selector => exact .inr (selectorLoop_relays _ _).map
  | sequence => exact .inr (sequenceLoop_relays _ _).map
  | parallel => exact .inr (parallelWith_relays _ _ _).map
  | inverter => exact .inr (inverterWith_relays _ _ _).map
  | repeaterOff => exact .inr fun running => by cases running
  | repeater => exact .inr (repeaterLoop_relays _ _).map
  | cooldown => exact .inr (cooldownWith_relays _ _ _).map
  | reflectionGuard => exact .inr (reflectionGuardWith_relays _ _ _).map
  | forceHuman => exact .inr (forceHumanWith_relays _ _ _).map
  | when => exact .inr (whenWith_relays _ _ _).map
  | condition => exact .inr (tickCondition_ne_running _ _)
  | action => exact .inr (tickAction_ne_running _ _)
  | prompt _ n => exact .inl ⟨n, rfl⟩
  | setVar => exact .inr fun running => by cases running
  | subTree => exact .inr (subTreeWith_relays _ _ _).map

theorem running_relayed {q : Request σ κ} (running : (interpreter.solve q).result = .ok .running) :
    (∃ n, q.node = .prompt n) ∨
      ∃ q' ∈ (requestBody q).calls interpreter.solve, (interpreter.solve q').result = .ok .running := by
  rcases requestBody_relays q with prompt | relays
  · exact .inl prompt
  · rw [interpreter_solve] at running
    exact .inr (relays.run running)

/-- A prompt returned `Running` when it was called with this stack of indices. -/
def WaitedAt (stack : List Nat) (v : Request σ κ) : Prop :=
  (∃ n, v.node = .prompt n) ∧ (interpreter.solve v).result = .ok .running ∧
    v.world.tracer.pathStack = stack

/-- Below decorators and subtrees alone, a running prompt has the stack of the root. -/
theorem waitedAt_top {q : Request σ κ} {n : PromptNode} (leads : Leads q.node [] (.prompt n))
    (running : (interpreter.solve q).result = .ok .running) :
    ∃ v ∈ interpreter.trail q, WaitedAt q.world.tracer.pathStack v := by
  refine interpreter.induct (motive := fun q => ∀ n, Leads q.node [] (.prompt n) →
    (interpreter.solve q).result = .ok .running →
    ∃ v ∈ interpreter.trail q, WaitedAt q.world.tracer.pathStack v)
    (fun q ih n leads running => ?_) q n leads running
  rcases running_relayed running with prompt | ⟨q', called, running'⟩
  · exact ⟨q, interpreter.mem_trail_self q, prompt, running, rfl⟩
  · obtain ⟨j, child, at_j, same, stack⟩ := interpreter_callOf called
    rcases leads.cases_step with ⟨-, here⟩ | ⟨i, child', rest, at_i, split, below⟩
    · rw [← here] at at_j
      cases at_j
    · obtain ⟨no_edge, rfl⟩ := List.append_eq_nil_iff.mp split.symm
      have decorator : ¬ q.node.IsComposite := by
        intro composite
        rw [Node.edge_composite composite] at no_edge
        cases no_edge
      obtain ⟨-, only⟩ := Node.index_zero decorator at_i
      obtain ⟨-, only'⟩ := Node.index_zero decorator at_j
      obtain rfl := List.singleton_inj.mp (only.symm.trans only')
      obtain ⟨m, leads', m_same⟩ := below.of_reset same.symm
      obtain ⟨m, rfl⟩ := Node.prompt_of_reset m_same
      obtain ⟨v, visited, waited⟩ := ih q' called m leads' running'
      refine ⟨v, Procedure.mem_trail_of_call called visited, ?_⟩
      rwa [stack, Node.edge_decorator decorator, List.append_nil] at waited

namespace Turn

/-- The path stored after the tick lists the children chosen, composite by composite, on
    the way to a prompt that returned `Running` in this tick. -/
def PathToPrompt (t : Turn σ κ) : Prop :=
  ∃ v ∈ interpreter.trail t.start.request, WaitedAt t.after.executor.runningPath v

end Turn

/-- What a tick that returns `Running` stores. -/
theorem tick_runningPath {s : Instance σ κ} (running : s.tick.Returned .running) :
    s.answer.result = .ok .running ∧
      s.tick.after.executor.runningPath = s.answer.world.tracer.runningPath := by
  have result := Instance.answer_of_returned running
  refine ⟨result, ?_⟩
  simp only [Turn.after, Instance.tick_ok result, Executor.next, if_true]

/-- The stored path either leads to no prompt or is empty, as the path to a prompt that no
    composite lies above. -/
theorem pathToPrompt_leads {s : Instance σ κ} (running : s.tick.Returned .running)
    (path : s.tick.PathToPrompt) : ∃ n, Leads s.root [] (.prompt n) := by
  obtain ⟨result, stored⟩ := tick_runningPath running
  have traced : Traced s.root {} s.answer.world.tracer := interpreter_traced result
  obtain ⟨v, visited, ⟨n, prompt⟩, -, stack⟩ := path
  obtain ⟨path, m, located, leads, same⟩ := trail_leads visited
  have at_path : path = s.answer.world.tracer.runningPath := by
    rw [← stored, ← stack, located]
    rfl
  rw [prompt] at same
  obtain ⟨m, rfl⟩ : ∃ m', m = .prompt m' := Node.prompt_of_reset same
  rcases traced.runningPath with kept | ⟨path', c, moved, leads', composite⟩
  · rw [at_path, kept] at leads
    exact ⟨m, leads⟩
  · rw [at_path, moved] at leads
    exact absurd composite (leads.not_composite rfl id leads')

/-- In whatever state a tick that returns `Running` starts, the path it stores leads to a
    prompt that returned `Running` if and only if no composite lies between the root and
    the prompt. -/
theorem pathToPrompt_iff {s : Instance σ κ} (running : s.tick.Returned .running) :
    s.tick.PathToPrompt ↔ ∃ n, Leads s.root [] (.prompt n) := by
  refine ⟨pathToPrompt_leads running, ?_⟩
  rintro ⟨n, leads⟩
  obtain ⟨result, stored⟩ := tick_runningPath running
  have traced : Traced s.root {} s.answer.world.tracer := interpreter_traced result
  have kept : s.answer.world.tracer.runningPath = [] := by
    rcases traced.runningPath with kept | ⟨path, c, -, leads', composite⟩
    · exact kept
    · obtain rfl := leads.eq_nil rfl rfl leads'
      exact absurd composite (leads.not_composite rfl id leads')
  obtain ⟨v, visited, waited⟩ := waitedAt_top (q := s.request) leads result
  refine ⟨v, visited, ?_⟩
  rw [stored, kept]
  exact waited

end

section

open Plain

def askReview : PromptNode :=
  { name := "ask", model := none, template := "Review?", parser := .json, sets := [], timeoutMs := 30000 }

/-- A sequence that only asks. -/
def reviewSequence : Node := .sequence { name := "review", children := [.prompt askReview] }

/-- The prompt is child 0 of the root and returns `Running`; the path stored is empty. -/
theorem reviewSequence_path : ¬ ∀ s : Instance Silent Frozen,
    s.tick.Returned .running → s.tick.PathToPrompt := by
  intro all
  have running : (Instance.launch reviewSequence Plain.ctx).tick.Returned .running :=
    ⟨_, rfl, rfl⟩
  obtain ⟨n, leads⟩ := pathToPrompt_leads running (all _ running)
  rcases leads.cases_step with ⟨-, here⟩ | ⟨i, child, rest, -, split, -⟩
  · cases here
  · cases split

/-- The same prompt under an inverter. -/
theorem reviewInverter_path :
    let s := Instance.launch (.inverter { name := "not", child := .prompt askReview }) Plain.ctx
    s.tick.PathToPrompt ↔ ∃ n, Leads s.root [] (.prompt n) :=
  pathToPrompt_iff ⟨_, rfl, rfl⟩

end

end AgileAgent.DecisionDsl
