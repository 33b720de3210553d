import AgileAgent.Decision.TaskEngine

/-! # Runs of the task decision engine

When the decisions, the status and the stage agree, when an ended task stays as it is, and when
what needs a human reaches one.
-/

namespace AgileAgent.Decision

open Machine

namespace TaskDecisionEngine

/-! ## Decisions, status and stage -/

/-- The status that a returned decision leaves. -/
def Matches (status : DecisionTaskStatus) : TaskDecisionAction → Prop
  | .requestHuman _ => status = .needsHumanDecision
  | .reflect _ => status = .reflecting
  | .cancel _ => status = .cancelled
  | _ => True

/-- The final stage is where completed tasks are, and only they. -/
def Aligned (process : DecisionProcess) (e : TaskDecisionEngine) : Prop :=
  e.currentStage = process.finalStage ↔ e.task.status = .completed

/-- The statuses in which a decision to reflect leaves a reflecting task. -/
def mayReflect (status : DecisionTaskStatus) : Bool :=
  status = .inProgress || status = .pendingConfirmation || status = .reflecting

/-- The statuses in which a request leaves a task that needs a human. -/
def mayAskHuman (status : DecisionTaskStatus) : Bool :=
  status = .reflecting || status = .needsHumanDecision

/-- The statuses in which an advance to the stage leaves a completed task. -/
def completes (status : DecisionTaskStatus) (stage : StageId) : Bool :=
  status = .completed || (stage.asStr = "completed" && status = .pendingConfirmation)

/-- When a call keeps decision, status and stage in agreement: the table has the transition that the
    decision attempts, and an advance completes the task if it leads to the final stage, and only
    then. -/
def InTable (process : DecisionProcess) (e : TaskDecisionEngine) : Call → Prop
  | .processOutput output =>
      match e.verdict output with
      | .pass => ∀ stage, e.target output = some stage →
          (stage = process.finalStage ↔ completes e.task.status stage)
      | .needsReflection _ => if e.hasRoom then mayReflect e.task.status else mayAskHuman e.task.status
      | .needsHuman _ => mayAskHuman e.task.status
  | .handleHumanResponse (.deny _) =>
      if e.hasRoom then mayReflect e.task.status = true else e.task.status ≠ .completed
  | .handleHumanResponse (.custom _) => mayReflect e.task.status
  | .handleHumanResponse .cancel => e.task.status ≠ .completed
  | _ => True

theorem go_reflecting (status : DecisionTaskStatus) :
    status.go .reflecting = .reflecting ↔ mayReflect status := by
  cases status <;> decide

theorem go_needsHumanDecision (status : DecisionTaskStatus) :
    status.go .needsHumanDecision = .needsHumanDecision ↔ mayAskHuman status := by
  cases status <;> decide

theorem go_cancelled (status : DecisionTaskStatus) :
    status.go .cancelled = .cancelled ↔ status ≠ .completed := by
  cases status <;> decide

theorem go_inProgress (status : DecisionTaskStatus) :
    status.go .inProgress = .completed ↔ status = .completed := by
  cases status <;> decide

theorem mayReflect_open {status : DecisionTaskStatus} (may : mayReflect status) :
    status ≠ .completed := by
  rintro rfl
  cases may

theorem mayAskHuman_open {status : DecisionTaskStatus} (may : mayAskHuman status) :
    status ≠ .completed := by
  rintro rfl
  cases may

/-- Only the stage named completed completes a task, and only one that waits for confirmation. -/
theorem statusAfter_advanceTo (status : DecisionTaskStatus) (stage : StageId) :
    (TaskDecisionAction.advanceTo stage).statusAfter status = .completed ↔ completes status stage := by
  simp only [TaskDecisionAction.statusAfter, statusOfStage, completes]
  split <;> rename_i named
  all_goals first
    | (simp only [named]; cases status <;> decide)
    | (cases status <;> simp_all [DecisionTaskStatus.go, DecisionTaskStatus.isValidTransition])

variable {process : DecisionProcess}

/-- In the same stage, a task that is not completed stays aligned as long as it is not. -/
theorem Aligned.open {e f : TaskDecisionEngine} (aligned : Aligned process e)
    (stage : f.currentStage = e.currentStage) (before : e.task.status ≠ .completed)
    (after : f.task.status ≠ .completed) : Aligned process f := by
  unfold Aligned
  rw [stage]
  exact iff_of_false (fun final => before (aligned.mp final)) after

/-- What a step has to do: its decision tells the status, and stage and status go together. -/
def Agrees (process : DecisionProcess)
    (x : Step TaskDecisionEngine Call (Option TaskDecisionAction)) : Prop :=
  (∀ decision, x.output = some decision → Matches x.after.task.status decision) ∧
    Aligned process x.after

/-- A transition to a status that no completed task has is right exactly when it is not refused. -/
theorem agrees_iff {e f : TaskDecisionEngine} {c : Call} {d : TaskDecisionAction}
    {status : DecisionTaskStatus} {may : Prop} (aligned : Aligned process e)
    (stage : f.currentStage = e.currentStage) (leaves : f.task.status = e.task.status.go status)
    (told : ∀ s, Matches s d ↔ s = status) (other : status ≠ .completed)
    (allowed : e.task.status.go status = status ↔ may) (still : may → e.task.status ≠ .completed) :
    Agrees process ⟨e, c, some d, f⟩ ↔ may := by
  constructor
  · intro agrees
    have matched := (told _).mp (agrees.1 d rfl)
    exact allowed.mp (leaves ▸ matched)
  · intro holds
    have reached : f.task.status = status := leaves.trans (allowed.mpr holds)
    refine ⟨?_, aligned.open stage (still holds) (reached ▸ other)⟩
    rintro _ ⟨⟩
    exact (told _).mpr reached

/-- The default filter has a reason whenever the default checker asks for a human. -/
theorem filter_agrees {task : DecisionTask} {output : SimulatedOutput} {reason : String}
    (asks : AutoChecker.default.check task output = .needsHuman reason) :
    (DecisionFilter.default.needsHumanDecision task output).isSome := by
  rw [Option.isSome_iff_ne_none]
  by_cases objection : OutsideConstraints task output ∨ output.riskyOperations ≠ []
  · exact needsHumanDecision_objection _ objection
  · obtain ⟨inside, harmless⟩ := not_or.mp objection
    cases faulty : output.faulty with
    | true =>
        obtain ⟨_, found⟩ := check_faulty task faulty
        rw [found] at asks
        cases asks
    | false =>
        rw [check_pass faulty inside (not_not.mp harmless)] at asks
        cases asks

theorem decision_pass {e : TaskDecisionEngine} {output : AgentOutput}
    (verdict : e.verdict output = .pass) :
    e.decision output = (e.target output).elim .continue .advanceTo := by
  simp only [decision, verdict]
  cases e.target output <;> rfl

theorem decision_reflection {e : TaskDecisionEngine} {output : AgentOutput} {reason : String}
    (verdict : e.verdict output = .needsReflection reason) : e.decision output =
      if e.hasRoom then .reflect reason
      else .requestHuman ("Max reflections reached: " ++ reason) := by
  simp only [decision, verdict]

/-- The default engine passes the question of the checker on. -/
theorem decision_human {e : TaskDecisionEngine} {output : AgentOutput} {reason : String}
    (checker : e.checker = .default) (filter : e.filter = .default)
    (verdict : e.verdict output = .needsHuman reason) :
    e.decision output = .requestHuman reason := by
  have agrees : (e.filter.needsHumanDecision e.task output.toSimulatedOutput).isSome := by
    rw [filter]
    exact filter_agrees (by simpa only [TaskDecisionEngine.verdict, checker] using verdict)
  simp only [decision, verdict, agrees, if_true]

theorem processOutput_agrees_iff {e : TaskDecisionEngine} (aligned : Aligned process e)
    (checker : e.checker = .default) (filter : e.filter = .default) (output : AgentOutput) :
    Agrees process ⟨e, .processOutput output, (e.call (.processOutput output)).1,
      (e.call (.processOutput output)).2⟩ ↔ InTable process e (.processOutput output) := by
  have outcome := processOutput_outcome e output
  simp only [call, outcome.decides]
  have stage := outcome.stage
  have status := outcome.status
  cases verdict : e.verdict output with
  | pass =>
      have decided := decision_pass verdict
      cases target : e.target output with
      | none =>
          rw [target] at decided
          rw [decided, Option.elim_none] at stage status ⊢
          refine iff_of_true ⟨?_, ?_⟩ ?_
          · rintro _ ⟨⟩
            trivial
          · unfold Aligned
            rw [stage, status]
            exact aligned
          · simp [InTable, verdict, target]
      | some next =>
          rw [target] at decided
          rw [decided, Option.elim_some] at stage status ⊢
          have told : ∀ d, some (TaskDecisionAction.advanceTo next) = some d →
              Matches (e.processOutput output).2.task.status d := by
            rintro _ ⟨⟩
            trivial
          have reached : InTable process e (.processOutput output) ↔
              (next = process.finalStage ↔ completes e.task.status next) := by
            simp [InTable, verdict, target]
          rw [reached, ← statusAfter_advanceTo, ← status]
          unfold Agrees Aligned
          rw [stage]
          exact and_iff_right told
  | needsReflection reason =>
      have decided := decision_reflection verdict
      simp only [InTable, verdict]
      split at decided
      · rename_i room
        rw [decided] at stage status ⊢
        rw [if_pos room]
        exact agrees_iff aligned stage status (fun _ => Iff.rfl) (by decide)
          (go_reflecting _) mayReflect_open
      · rename_i full
        rw [decided] at stage status ⊢
        rw [if_neg full]
        exact agrees_iff aligned stage status (fun _ => Iff.rfl) (by decide)
          (go_needsHumanDecision _) mayAskHuman_open
  | needsHuman reason =>
      have decided := decision_human checker filter verdict
      simp only [InTable, verdict]
      rw [decided] at stage status ⊢
      exact agrees_iff aligned stage status (fun _ => Iff.rfl) (by decide)
        (go_needsHumanDecision _) mayAskHuman_open

theorem handleHumanResponse_agrees_iff {e : TaskDecisionEngine} (aligned : Aligned process e)
    (response : HumanResponse) :
    Agrees process ⟨e, .handleHumanResponse response, (e.call (.handleHumanResponse response)).1,
      (e.call (.handleHumanResponse response)).2⟩ ↔ InTable process e (.handleHumanResponse response) := by
  obtain ⟨decides, frame, stage, status, -, -, -, -⟩ := handleHumanResponse_answered e response
  simp only [call, decides]
  cases response with
  | approve =>
      refine iff_of_true ⟨?_, ?_⟩ trivial
      · rintro _ ⟨⟩
        trivial
      · unfold Aligned
        rw [stage, status]
        exact aligned.trans (go_inProgress _).symm
  | deny reason =>
      simp only [answer, InTable] at status ⊢
      split at status
      · rename_i room
        rw [if_pos room, if_pos room]
        replace status : _ = e.task.status.go .reflecting := status
        exact agrees_iff aligned stage status (fun _ => Iff.rfl) (by decide)
          (go_reflecting _) mayReflect_open
      · rename_i full
        rw [if_neg full, if_neg full]
        replace status : _ = e.task.status.go .cancelled := status
        exact agrees_iff aligned stage status (fun _ => Iff.rfl) (by decide)
          (go_cancelled _) id
  | custom feedback =>
      replace status : _ = e.task.status.go .reflecting := status
      exact agrees_iff aligned stage status (fun _ => Iff.rfl) (by decide)
        (go_reflecting _) mayReflect_open
  | cancel =>
      replace status : _ = e.task.status.go .cancelled := status
      exact agrees_iff aligned stage status (fun _ => Iff.rfl) (by decide)
        (go_cancelled _) id

theorem call_frame (e : TaskDecisionEngine) (c : Call) : SameFrame e (e.call c).2 := by
  cases c with
  | processOutput output => exact (processOutput_outcome e output).frame
  | handleHumanResponse response => exact (handleHumanResponse_answered e response).frame
  | _ => exact ⟨rfl, rfl, rfl, rfl⟩

theorem call_agrees_iff {e : TaskDecisionEngine} (aligned : Aligned process e)
    (checker : e.checker = .default) (filter : e.filter = .default) (c : Call) :
    Agrees process ⟨e, c, (e.call c).1, (e.call c).2⟩ ↔ InTable process e c := by
  cases c with
  | processOutput output => exact processOutput_agrees_iff aligned checker filter output
  | handleHumanResponse response => exact handleHumanResponse_agrees_iff aligned response
  | _ =>
      refine iff_of_true ⟨?_, aligned⟩ trivial
      rintro _ ⟨⟩

/-- From the start of a valid process, decision, status and stage agree throughout exactly when the
    process lists its initial stage first, that stage is final just for a completed task, and every
    call is one that the table of transitions goes along with. -/
theorem decisions_agree_iff (process : DecisionProcess) (valid : process.validate = .ok ())
    (task : DecisionTask) (registry : WorkflowConditionRegistry) (calls : List Call) :
    ((create process task).currentStage = process.initialStage ∧
        Aligned process (create process task) ∧
        ∀ x ∈ history call ((create process task).withConditionRegistry registry) calls,
          Agrees process x) ↔
      (process.stages.head?.map (·.id) = some process.initialStage ∧
        (process.initialStage = process.finalStage ↔ task.status = .completed) ∧
        ∀ x ∈ history call ((create process task).withConditionRegistry registry) calls,
          InTable process x.before x.event) := by
  obtain ⟨first, rest, stages⟩ := DecisionProcess.nonempty_of_valid valid
  have starts : (create process task).currentStage = first.id := by simp [create, stages]
  have first_stage : process.stages.head?.map (·.id) = some first.id := by simp [stages]
  rw [starts, first_stage, Option.some.injEq]
  refine and_congr_right fun initial => ?_
  have aligned_start : Aligned process (create process task) ↔
      (process.initialStage = process.finalStage ↔ task.status = .completed) := by
    unfold Aligned
    rw [starts, initial]
    rfl
  rw [aligned_start]
  refine and_congr_right fun aligned => ?_
  have exact_steps := @history_exact _ _ _ call
    (fun e => Aligned process e ∧ e.checker = .default ∧ e.filter = .default)
    (InTable process) (Agrees process)
    (fun e c good => call_agrees_iff good.1 good.2.1 good.2.2 c)
    (fun e c good agrees => ⟨agrees.2, (call_frame e c).checker.trans good.2.1,
      (call_frame e c).filter.trans good.2.2⟩)
  have ready : Aligned process ((create process task).withConditionRegistry registry) ∧
      ((create process task).withConditionRegistry registry).checker = .default ∧
      ((create process task).withConditionRegistry registry).filter = .default :=
    ⟨aligned_start.mpr aligned, rfl, rfl⟩
  exact exact_steps ready

theorem decisions_agree_iff_first_output :
    defaultProcess.validate = .ok () ∧
      ((create defaultProcess (.create "1" "Fix login bug" [])).currentStage =
          defaultProcess.initialStage ∧
        Aligned defaultProcess (create defaultProcess (.create "1" "Fix login bug" [])) ∧
        ∀ x ∈ history call ((create defaultProcess (.create "1" "Fix login bug" []))
            |>.withConditionRegistry {}) [.processOutput (.clean "Working on it")],
          Agrees defaultProcess x) := by
  refine ⟨defaultProcess_valid, (decisions_agree_iff defaultProcess defaultProcess_valid
    (.create "1" "Fix login bug" []) {} [.processOutput (.clean "Working on it")]).mpr
      ⟨by decide, by decide, ?_⟩⟩
  intro x member
  obtain rfl := List.mem_singleton.mp member
  intro stage target
  have developing : some stage = some ⟨"developing"⟩ := target.symm.trans (by decide)
  obtain rfl := Option.some.inj developing
  decide

/-- The first output of a fresh task has syntax errors: the engine answers that it reflects, but a
    pending task cannot become a reflecting one. -/
theorem pending_task_does_not_reflect : ¬ ∀ (process : DecisionProcess), process.validate = .ok () →
    ∀ (task : DecisionTask) (registry : WorkflowConditionRegistry) (calls : List Call),
      (create process task).currentStage = process.initialStage ∧
        Aligned process (create process task) ∧
        ∀ x ∈ history call ((create process task).withConditionRegistry registry) calls,
          Agrees process x := by
  intro all
  have steps := (all defaultProcess defaultProcess_valid (.create "1" "Fix login bug" []) {}
    [.processOutput { content := "fn main(", hasSyntaxErrors := true, testsPass := false }]).2.2
  have told : _ = DecisionTaskStatus.reflecting :=
    (steps _ List.mem_cons_self).1 (.reflect "Syntax errors found") (by decide)
  exact absurd told (by decide)

/-! ## The end of a task -/

/-- What a step has to do: the counter stays within the rounds, and an ended task stays as it is. -/
def Steady (x : Step TaskDecisionEngine Call (Option TaskDecisionAction)) : Prop :=
  x.after.task.reflectionCount ≤ x.after.task.maxReflectionRounds ∧
    (x.before.task.status.isTerminal →
      x.after.task.status = x.before.task.status ∧ x.after.currentStage = x.before.currentStage ∧
        x.after.task.reflectionCount = x.before.task.reflectionCount ∧
        x.after.task.confirmationCount = x.before.task.confirmationCount ∧
        x.after.task.retryCount = x.before.task.retryCount)

/-- When a call keeps the counter and an ended task: a custom response comes in a round that is left
    and before the end, and after the end no call counts a reflection or leads to another stage. -/
def LeavesEnded (e : TaskDecisionEngine) : Call → Prop
  | .processOutput output => e.task.status.isTerminal →
      match e.verdict output with
      | .pass => ∀ stage, e.target output = some stage → stage = e.currentStage
      | .needsReflection _ => e.hasRoom = false
      | .needsHuman _ => True
  | .handleHumanResponse (.deny _) => e.task.status.isTerminal → e.hasRoom = false
  | .handleHumanResponse (.custom _) => e.hasRoom ∧ ¬ e.task.status.isTerminal
  | _ => True

theorem go_terminal {status : DecisionTaskStatus} (ended : status.isTerminal)
    (target : DecisionTaskStatus) : status.go target = status := by
  unfold DecisionTaskStatus.go
  split
  · exact DecisionTaskStatus.eq_of_terminal ended ‹_›
  · rfl

theorem statusAfter_terminal {status : DecisionTaskStatus} (ended : status.isTerminal)
    (d : TaskDecisionAction) : d.statusAfter status = status := by
  cases d with
  | reflect | confirmCompletion | requestHuman | advanceTo | cancel => exact go_terminal ended _
  | _ => rfl

/-- By itself the filter neither leads to a stage nor confirms a task that has ended. -/
theorem autoDecide_ended {f : DecisionFilter} {task : DecisionTask} (ended : task.status.isTerminal)
    (output : SimulatedOutput) (stage : StageId) :
    (workflowToDecision (f.autoDecide task output)).stageAfter stage = stage ∧
      (workflowToDecision (f.autoDecide task output)).confirmations = 0 := by
  have unconfirmed : task.status ≠ .pendingConfirmation := by
    intro waits
    rw [waits] at ended
    cases ended
  unfold DecisionFilter.autoDecide
  rw [if_neg unconfirmed]
  repeat' split
  all_goals exact ⟨rfl, rfl⟩

theorem reflections_le_one {e : TaskDecisionEngine} {output : AgentOutput}
    (counted : e.reflections output ≠ 0) : e.reflections output = 1 ∧ e.hasRoom := by
  unfold reflections at counted ⊢
  split at counted
  · split at counted
    · rename_i room
      simp [room]
    · exact absurd rfl counted
  · exact absurd rfl counted

theorem decision_stage_iff (e : TaskDecisionEngine) (output : AgentOutput)
    (ended : e.task.status.isTerminal) :
    ((e.decision output).stageAfter e.currentStage = e.currentStage ∧ e.reflections output = 0 ∧
        (e.decision output).confirmations = 0) ↔
      (match e.verdict output with
        | .pass => ∀ stage, e.target output = some stage → stage = e.currentStage
        | .needsReflection _ => e.hasRoom = false
        | .needsHuman _ => True) := by
  cases verdict : e.verdict output with
  | pass =>
      rw [decision_pass verdict]
      cases target : e.target output with
      | none => simp [TaskDecisionAction.stageAfter, TaskDecisionAction.confirmations, reflections, verdict]
      | some next =>
          simp [TaskDecisionAction.stageAfter, TaskDecisionAction.confirmations, reflections, verdict]
  | needsReflection reason =>
      rw [decision_reflection verdict]
      cases room : e.hasRoom <;>
        simp [TaskDecisionAction.stageAfter, TaskDecisionAction.confirmations, reflections, verdict, room]
  | needsHuman reason =>
      have uncounted : e.reflections output = 0 := by simp [reflections, verdict]
      refine iff_of_true ?_ trivial
      simp only [decision, verdict, uncounted]
      split
      · exact ⟨rfl, trivial, rfl⟩
      · have quiet := autoDecide_ended (f := e.filter) ended output.toSimulatedOutput e.currentStage
        exact ⟨quiet.1, trivial, quiet.2⟩

theorem processOutput_steady_iff {e : TaskDecisionEngine}
    (bounded : e.task.reflectionCount ≤ e.task.maxReflectionRounds) (output : AgentOutput) :
    Steady ⟨e, .processOutput output, (e.call (.processOutput output)).1,
      (e.call (.processOutput output)).2⟩ ↔ LeavesEnded e (.processOutput output) := by
  obtain ⟨-, -, stage, status, counted, confirmed, rounds, retries⟩ := processOutput_outcome e output
  simp only [Steady, LeavesEnded, call, stage, status, counted, confirmed, rounds, retries]
  have within : e.task.reflectionCount + e.reflections output ≤ e.task.maxReflectionRounds := by
    by_cases uncounted : e.reflections output = 0
    · omega
    · obtain ⟨one, room⟩ := reflections_le_one uncounted
      have := of_decide_eq_true room
      omega
  rw [and_iff_right within]
  refine forall_congr' fun ended => ?_
  rw [← decision_stage_iff e output ended, statusAfter_terminal ended]
  simp

theorem handleHumanResponse_steady_iff {e : TaskDecisionEngine}
    (bounded : e.task.reflectionCount ≤ e.task.maxReflectionRounds) (response : HumanResponse) :
    Steady ⟨e, .handleHumanResponse response, (e.call (.handleHumanResponse response)).1,
      (e.call (.handleHumanResponse response)).2⟩ ↔ LeavesEnded e (.handleHumanResponse response) := by
  obtain ⟨-, -, stage, status, counted, confirmed, rounds, retries⟩ :=
    handleHumanResponse_answered e response
  have kept : e.task.status.isTerminal → e.task.status.go (e.answer response).2 = e.task.status :=
    fun ended => go_terminal ended _
  have room : e.hasRoom ↔ e.task.reflectionCount < e.task.maxReflectionRounds := decide_eq_true_iff
  simp only [Steady, call, stage, status, counted, confirmed, rounds, retries]
  cases response with
  | approve => simpa [LeavesEnded, answerReflections, bounded] using kept
  | cancel => simpa [LeavesEnded, answerReflections, bounded] using kept
  | deny reason =>
      cases left : e.hasRoom with
      | true =>
          have := room.mp left
          simp [LeavesEnded, answerReflections, left]
          omega
      | false => simpa [LeavesEnded, answerReflections, left, bounded] using kept
  | custom feedback =>
      rw [LeavesEnded, room]
      simp only [answerReflections]
      constructor
      · rintro ⟨within, ended⟩
        refine ⟨within, fun terminal => ?_⟩
        have := (ended terminal).2.2.1
        omega
      · rintro ⟨below, going⟩
        exact ⟨below, fun terminal => absurd terminal going⟩

theorem call_steady_iff {e : TaskDecisionEngine}
    (bounded : e.task.reflectionCount ≤ e.task.maxReflectionRounds) (c : Call) :
    Steady ⟨e, c, (e.call c).1, (e.call c).2⟩ ↔ LeavesEnded e c := by
  cases c with
  | processOutput output => exact processOutput_steady_iff bounded output
  | handleHumanResponse response => exact handleHumanResponse_steady_iff bounded response
  | _ => exact iff_of_true ⟨bounded, fun _ => ⟨rfl, rfl, rfl, rfl, rfl⟩⟩ trivial

/-- In any run of any engine the counter stays within the rounds and an ended task as it is exactly
    when the run starts within them and every call leaves counter and end alone. -/
theorem run_steady_iff (e : TaskDecisionEngine) (calls : List Call) :
    (e.task.reflectionCount ≤ e.task.maxReflectionRounds ∧ ∀ x ∈ history call e calls, Steady x) ↔
      (e.task.reflectionCount ≤ e.task.maxReflectionRounds ∧
        ∀ x ∈ history call e calls, LeavesEnded x.before x.event) := by
  refine and_congr_right fun bounded => ?_
  exact @history_exact _ _ _ call (fun e => e.task.reflectionCount ≤ e.task.maxReflectionRounds)
    LeavesEnded Steady (fun _ c bounded => call_steady_iff bounded c) (fun _ _ _ steady => steady.1)
    e bounded calls

/-- Feedback is counted as a reflection even when both rounds are used up. -/
theorem third_feedback_exceeds_rounds : ¬ ∀ (process : DecisionProcess) (task : DecisionTask)
    (calls : List Call), task.reflectionCount ≤ task.maxReflectionRounds →
      ∀ x ∈ history call (create process task) calls, Steady x := by
  intro all
  have steps := all defaultProcess (.create "1" "Fix login bug" [])
    (List.replicate 3 (.handleHumanResponse (.custom "Try again"))) (by decide)
  have within := (steps _ (List.mem_cons_of_mem _ (List.mem_cons_of_mem _ List.mem_cons_self))).1
  exact absurd within (by decide)

/-! ## Escalation to a human -/

/-- A human has to decide about the output: it is risky, outside the constraints of the task, or
    the filter has a reason. -/
def NeedsEscalation (e : TaskDecisionEngine) (output : AgentOutput) : Prop :=
  output.riskyOperations ≠ [] ∨ OutsideConstraints e.task output.toSimulatedOutput ∨
    e.filter.needsHumanDecision e.task output.toSimulatedOutput ≠ none

/-- When the default engine asks a human about an output: a faulty one when no reflection is left,
    any other for its risk or its files. -/
def Escalates (e : TaskDecisionEngine) (output : AgentOutput) : Prop :=
  if output.faulty then e.hasRoom = false
  else output.riskyOperations ≠ [] ∨ OutsideConstraints e.task output.toSimulatedOutput

theorem requestsHuman_iff {e : TaskDecisionEngine} (checker : e.checker = .default)
    (filter : e.filter = .default) (output : AgentOutput) :
    (∃ question, (e.processOutput output).1 = .requestHuman question) ↔ Escalates e output := by
  rw [(processOutput_outcome e output).decides]
  unfold Escalates
  cases faulty : output.faulty with
  | true =>
      obtain ⟨reason, found⟩ := check_faulty e.task faulty
      have verdict : e.verdict output = .needsReflection reason := by
        rw [TaskDecisionEngine.verdict, checker, found]
      rw [decision_reflection verdict]
      cases e.hasRoom <;> simp
  | false =>
      rw [if_neg Bool.false_ne_true]
      by_cases objection : OutsideConstraints e.task output.toSimulatedOutput ∨
          output.riskyOperations ≠ []
      · obtain ⟨reason, found⟩ := check_human faulty objection
        have verdict : e.verdict output = .needsHuman reason := by
          rw [TaskDecisionEngine.verdict, checker, found]
        exact iff_of_true ⟨reason, decision_human checker filter verdict⟩ objection.symm
      · obtain ⟨inside, harmless⟩ := not_or.mp objection
        have verdict : e.verdict output = .pass := by
          rw [TaskDecisionEngine.verdict, checker, check_pass faulty inside (not_not.mp harmless)]
        refine iff_of_false ?_ (mt Or.symm objection)
        rw [decision_pass verdict]
        cases e.target output <;> rintro ⟨_, ⟨⟩⟩

/-- An output that needs a human is put to one exactly when no fault of it is reflected on instead,
    and its risk or its files are the reason. -/
theorem escalation_reaches_human_iff {e : TaskDecisionEngine} (checker : e.checker = .default)
    (filter : e.filter = .default) (output : AgentOutput) :
    (NeedsEscalation e output → ∃ question, (e.processOutput output).1 = .requestHuman question) ↔
      (NeedsEscalation e output → Escalates e output) :=
  forall_congr' fun _ => requestsHuman_iff checker filter output

theorem escalation_reaches_human_iff_sudo :
    (create defaultProcess (.create "1" "Fix login bug" [])).checker = .default ∧
      (create defaultProcess (.create "1" "Fix login bug" [])).filter = .default ∧
      ∃ question, ((create defaultProcess (.create "1" "Fix login bug" [])).processOutput
        { content := "sudo reboot", riskyOperations := ["sudo reboot"] }).1 =
          .requestHuman question := by
  refine ⟨rfl, rfl, ?_⟩
  refine (escalation_reaches_human_iff (e := create defaultProcess (.create "1" "Fix login bug" []))
    rfl rfl { content := "sudo reboot", riskyOperations := ["sudo reboot"] }).mpr ?_ ?_
  · intro _
    exact Or.inl (by decide)
  · exact Or.inl (by decide)

/-- A risky operation in an output with a syntax error is reflected on. -/
theorem risky_faulty_output_not_escalated : ¬ ∀ (process : DecisionProcess) (task : DecisionTask)
    (output : AgentOutput), NeedsEscalation (create process task) output →
      ∃ question, ((create process task).processOutput output).1 = .requestHuman question := by
  intro all
  obtain ⟨question, asked⟩ := all defaultProcess (.create "1" "Fix login bug" [])
    { content := "rm -rf /", hasSyntaxErrors := true, riskyOperations := ["rm -rf /"] }
    (Or.inl (by decide))
  have reflected : ((create defaultProcess (.create "1" "Fix login bug" [])).processOutput
      { content := "rm -rf /", hasSyntaxErrors := true, riskyOperations := ["rm -rf /"] }).1 =
        .reflect "Syntax errors found" := by decide
  rw [reflected] at asked
  cases asked

end TaskDecisionEngine

end AgileAgent.Decision
