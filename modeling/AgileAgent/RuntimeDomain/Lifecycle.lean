import AgileAgent.Machine
import AgileAgent.RuntimeDomain.Worker

/-! # The life of a worker

A worker asks for its termination when it completes or fails, and both are states that only
a new start leaves.
-/

namespace AgileAgent.RuntimeDomain

open Machine

abbrev WorkerStep := Step Worker DomainEvent (Except WorkerError (List RuntimeCommand))

namespace WorkerStep

/-- An accepted event that emits a termination. -/
def Terminates (x : WorkerStep) : Prop :=
  ∃ commands, x.output = .ok commands ∧ ∃ agentId reason, .terminate agentId reason ∈ commands

/-- An accepted `worker started`. -/
def Starts (x : WorkerStep) : Prop :=
  x.event = .status "worker started" ∧ ∃ commands, x.output = .ok commands

end WorkerStep

/-- The worker has completed or failed. -/
def WorkerState.isTerminal : WorkerState → Prop
  | .completed | .failed _ => True
  | _ => False

namespace Worker

theorem notifyIf_quiet (w : Worker) (condition : Bool) (message : String) (agentId : AgentId)
    (reason : String) : .terminate agentId reason ∉ w.notifyIf condition message := by
  unfold notifyIf
  split <;> simp

/-- Everything an accepted event does: end the work, start it, or change nothing but the
    progress of a response. -/
theorem handle_accepted {w : Worker} {event : DomainEvent} {commands : List RuntimeCommand}
    (accepted : (w.handle event).1 = .ok commands) :
    (event = .finished ∧ commands = [.terminate w.agentId "completed"] ∧
        w.state.canTransitionTo .completed = true ∧
        (w.handle event).2 = { w with state := .completed }) ∨
      (∃ message, event = .error message ∧
        commands = [.notifyUser w.agentId message, .terminate w.agentId message] ∧
        w.state.canTransitionTo (.failed message) = true ∧
        (w.handle event).2 = { w with state := .failed message }) ∨
      (event = .status "worker started" ∧ commands = [] ∧
        w.state.canTransitionTo .starting = true ∧
        (w.handle event).2 = { w with state := .starting }) ∨
      ((∀ agentId reason, .terminate agentId reason ∉ commands) ∧
        ((w.handle event).2 = w ∨ ∃ target : WorkerState, w.state.canTransitionTo target = true ∧
          (target = .respondingStreaming ∨ ∃ name, target = .processingTool name) ∧
          (w.handle event).2 = { w with state := target })) := by
  have quiet {commands : List RuntimeCommand} (responded : (w.respond commands).1 = .ok commands) :
      (w.respond commands).2 = w ∨ ∃ target : WorkerState, w.state.canTransitionTo target = true ∧
          (target = .respondingStreaming ∨ ∃ name, target = .processingTool name) ∧
          (w.respond commands).2 = { w with state := target } := by
    obtain ⟨-, ⟨same, -⟩ | ⟨allowed, moved⟩⟩ := respond_inv responded
    · exact .inl same
    · exact .inr ⟨_, allowed, .inl rfl, moved⟩
  cases event with
  | finished =>
      obtain ⟨allowed, emitted, moved⟩ := moveTo_inv accepted
      exact .inl ⟨rfl, emitted, allowed, moved⟩
  | error message =>
      obtain ⟨allowed, emitted, moved⟩ := moveTo_inv accepted
      exact .inr (.inl ⟨message, rfl, emitted, allowed, moved⟩)
  | status text =>
      simp only [handle] at accepted ⊢
      split at accepted
      · next started =>
          obtain ⟨allowed, same, moved⟩ := moveTo_inv accepted
          rw [if_pos started]
          exact .inr (.inr (.inl ⟨by rw [started], same, allowed, moved⟩))
      · next other =>
          cases accepted
          rw [if_neg other]
          exact .inr (.inr (.inr ⟨w.notifyIf_quiet _ _, .inl rfl⟩))
  | execCommandStarted | genericToolCallStarted | webSearchStarted | mcpToolCallStarted
  | patchApplyStarted =>
      obtain ⟨allowed, rfl, moved⟩ := moveTo_inv accepted
      exact .inr (.inr (.inr ⟨fun _ _ => List.not_mem_nil, .inr ⟨_, allowed, .inr ⟨_, rfl⟩, moved⟩⟩))
  | assistantChunk | thinkingChunk | webSearchFinished =>
      obtain ⟨rfl, -⟩ := respond_inv accepted
      exact .inr (.inr (.inr ⟨fun _ _ => List.not_mem_nil, quiet accepted⟩))
  | execCommandFinished | genericToolCallFinished | mcpToolCallFinished | patchApplyFinished =>
      obtain ⟨rfl, -⟩ := respond_inv accepted
      exact .inr (.inr (.inr ⟨w.notifyIf_quiet _ _, quiet accepted⟩))
  | _ =>
      cases accepted
      exact .inr (.inr (.inr ⟨fun _ _ => List.not_mem_nil, .inl rfl⟩))

end Worker

/-- From a terminal state no event ends the work again or goes on with it. -/
theorem WorkerState.terminal_barred {state target : WorkerState} (terminal : state.isTerminal)
    (further : target.isTerminal ∨ target = .respondingStreaming ∨
      ∃ name, target = .processingTool name) : state.canTransitionTo target = false := by
  have barred : moves state target = false := by
    cases state with
    | completed | failed =>
        rcases further with ended | rfl | ⟨name, rfl⟩
        · cases target with
          | completed | failed => rfl
          | _ => cases ended
        · rfl
        · rfl
    | _ => cases terminal
  rw [canTransitionTo, barred, ite_self]

namespace WorkerStep

/-- The step of a worker for an event. -/
def of (w : Worker) (event : DomainEvent) : WorkerStep :=
  ⟨w, event, (w.apply event).1, (w.apply event).2⟩

theorem Terminates.ended {w : Worker} {event : DomainEvent} (ends : Terminates (of w event)) :
    ∃ target : WorkerState, target.isTerminal ∧ w.state.canTransitionTo target = true ∧
      (w.apply event).2.state = target := by
  obtain ⟨commands, accepted, agentId, reason, emitted⟩ := ends
  rcases Worker.handle_accepted accepted with
    ⟨-, -, allowed, moved⟩ | ⟨message, -, -, allowed, moved⟩ | ⟨-, rfl, -⟩ | ⟨silent, -⟩
  · exact ⟨.completed, trivial, allowed, congrArg Worker.state moved⟩
  · exact ⟨.failed message, trivial, allowed, congrArg Worker.state moved⟩
  · cases emitted
  · exact absurd emitted (silent agentId reason)

/-- A worker that has ended stays so until it is started again. -/
theorem starts_or_stays {w : Worker} (terminal : w.state.isTerminal) (event : DomainEvent) :
    Starts (of w event) ∨ (w.apply event).2.state = w.state := by
  cases output : (w.apply event).1 with
  | error e =>
      have kept := congrArg Worker.state (Worker.apply_rejected output)
      exact .inr kept
  | ok commands =>
      have not_allowed {target : WorkerState} (ended : target.isTerminal) :
          w.state.canTransitionTo target ≠ true :=
        Bool.eq_false_iff.mp (WorkerState.terminal_barred terminal (.inl ended))
      rcases Worker.handle_accepted output with ⟨-, -, allowed, -⟩ | ⟨message, -, -, allowed, -⟩ |
        ⟨started, -⟩ | ⟨-, same | ⟨target, allowed, progress, -⟩⟩
      · exact absurd allowed (not_allowed trivial)
      · exact absurd allowed (not_allowed trivial)
      · exact .inl ⟨started, commands, output⟩
      · have kept := congrArg Worker.state same
        exact .inr kept
      · have barred := WorkerState.terminal_barred terminal (.inr progress)
        exact absurd allowed (Bool.eq_false_iff.mp barred)

end WorkerStep

open WorkerStep

/-- In every run of a new worker: between two terminations it was started again, once
    completed only a start changes its state, and a rejected event changes nothing but the
    transcript. -/
theorem worker_runs (agentId : AgentId) (codename : AgentCodename) (role : AgentRole)
    (events : List DomainEvent) :
    let run : List WorkerStep := history Worker.apply (Worker.create agentId codename role) events
    (∀ (front middle back : List WorkerStep) (first second : WorkerStep),
      run = front ++ first :: (middle ++ second :: back) → Terminates first → Terminates second →
        ∃ x ∈ middle, Starts x) ∧
    (∀ x ∈ run, x.before.state = .completed → x.after.state ≠ .completed → Starts x) ∧
    ∀ x ∈ run, ∀ e, x.output = .error e →
      x.after = { x.before with transcript := x.before.transcript.append x.event } := by
  refine ⟨fun front middle back first second whole ended ended' => ?_, ?_, ?_⟩
  · refine @opened_between Worker DomainEvent _ Worker.apply (fun w => w.state.isTerminal) Terminates
      Starts ?_ ?_ ?_ _ events front middle back first second whole ended ended'
    · intro w event ends
      obtain ⟨target, terminal, -, state⟩ := ends.ended
      rw [state]
      exact terminal
    · intro w event terminal
      rcases starts_or_stays terminal event with starts | stays
      · exact .inl starts
      · rw [stays]
        exact .inr terminal
    · intro w event terminal ends
      obtain ⟨target, ended, allowed, -⟩ := Terminates.ended ends
      rw [WorkerState.terminal_barred terminal (.inl ended)] at allowed
      cases allowed
  · apply history_steps
    intro w event completed changed
    have terminal : w.state.isTerminal := by
      have state : w.state = .completed := completed
      rw [state]
      trivial
    rcases starts_or_stays terminal event with starts | stays
    · exact starts
    · exact absurd (stays.trans completed) changed
  · apply history_steps
    intro w event e rejected
    exact Worker.apply_rejected rejected

/-- A worker that completes, is started again and fails. -/
def restarted : List WorkerStep :=
  history Worker.apply (Worker.create "agent-1" "alpha" .developer)
    [.status "worker started", .assistantChunk "done", .finished, .status "worker started",
      .error "panic"]

/-- Between its two terminations it was started. -/
theorem restarted_between : ∃ x ∈ (restarted.drop 3).take 1, Starts x := by
  have runs := worker_runs "agent-1" "alpha" .developer
    [.status "worker started", .assistantChunk "done", .finished, .status "worker started",
      .error "panic"]
  have third : restarted[2]?.isSome := rfl
  have fifth : restarted[4]?.isSome := rfl
  refine runs.1 (restarted.take 2) ((restarted.drop 3).take 1) (restarted.drop 5)
    (restarted[2]?.get third) (restarted[4]?.get fifth) rfl ?_ ?_
  · exact ⟨_, rfl, _, _, List.mem_cons_self⟩
  · exact ⟨_, rfl, _, _, List.mem_cons_of_mem _ List.mem_cons_self⟩

end AgileAgent.RuntimeDomain
