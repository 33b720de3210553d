import AgileAgent.DecisionDsl.Host
import AgileAgent.RuntimeDomain.TranscriptJournal
import AgileAgent.RuntimeDomain.WorkerState

/-! # Workers

A worker is the domain state of one agent. `apply` takes an event: it is written into the
transcript first, then it may ask for a move of the state, and a move that the table of
states does not allow rejects it.
-/

namespace AgileAgent.RuntimeDomain

open DecisionDsl (strContains)

abbrev AgentId := String
abbrev AgentCodename := String
abbrev TaskId := String

inductive AgentRole where
  | productOwner
  | scrumMaster
  | developer
  deriving Repr, DecidableEq

/-- The commands that `apply` emits, and the one that only decisions lead to. -/
inductive RuntimeCommand where
  | notifyUser (agentId : AgentId) (message : String)
  | terminate (agentId : AgentId) (reason : String)
  | transitionState (agentId : AgentId) (newStatus : String)
  deriving Repr, DecidableEq

/-- The error of `apply` and `transition_state`. -/
inductive WorkerError where
  | invalidTransition (e : InvalidTransition)
  deriving Repr, DecidableEq

structure Worker where
  agentId : AgentId
  codename : AgentCodename
  role : AgentRole
  state : WorkerState := .idle
  transcript : TranscriptJournal := {}
  assignedTaskId : Option TaskId := none
  worktreePath : Option String := none
  worktreeBranch : Option String := none
  deriving Repr, DecidableEq

namespace Worker

/-- `Worker::new`. -/
def create (agentId : AgentId) (codename : AgentCodename) (role : AgentRole) : Worker :=
  { agentId, codename, role }

/-- `transition_state`: move, or leave the worker as it is. -/
def transitionState (w : Worker) (target : WorkerState) : Except WorkerError Unit × Worker :=
  match w.state.transitionTo target with
  | .ok state => (.ok (), { w with state })
  | .error e => (.error (.invalidTransition e), w)

/-- Move and emit the commands. -/
def moveTo (w : Worker) (target : WorkerState) (commands : List RuntimeCommand) :
    Except WorkerError (List RuntimeCommand) × Worker :=
  match w.state.transitionTo target with
  | .ok state => (.ok commands, { w with state })
  | .error e => (.error (.invalidTransition e), w)

/-- Move to a streaming response, unless there is a response already. -/
def respond (w : Worker) (commands : List RuntimeCommand) :
    Except WorkerError (List RuntimeCommand) × Worker :=
  if w.state.isResponding then (.ok commands, w) else w.moveTo .respondingStreaming commands

def notifyIf (w : Worker) (condition : Bool) (message : String) : List RuntimeCommand :=
  if condition then [.notifyUser w.agentId message] else []

/-- What an event does once it is in the transcript. -/
def handle (w : Worker) : DomainEvent → Except WorkerError (List RuntimeCommand) × Worker
  | .status text =>
      if text = "worker started" then w.moveTo .starting []
      else (.ok (w.notifyIf (strContains text "error" || strContains text "failed") text), w)
  | .finished => w.moveTo .completed [.terminate w.agentId "completed"]
  | .error message => w.moveTo (.failed message)
      [.notifyUser w.agentId message, .terminate w.agentId message]
  | .assistantChunk _ | .thinkingChunk _ => w.respond []
  | .execCommandStarted .. => w.moveTo (.processingTool "exec") []
  | .execCommandFinished _ _ status _ _ _ =>
      w.respond (w.notifyIf (status == .failed || status == .declined) "exec command failed")
  | .execCommandOutputDelta _ _ => (.ok [], w)
  | .genericToolCallStarted name _ _ => w.moveTo (.processingTool name) []
  | .genericToolCallFinished _ _ _ success _ _ => w.respond (w.notifyIf (!success) "tool call failed")
  | .webSearchStarted _ _ => w.moveTo (.processingTool "websearch") []
  | .webSearchFinished _ _ => w.respond []
  | .viewImage _ _ | .imageGenerationFinished _ => (.ok [], w)
  | .mcpToolCallStarted _ => w.moveTo (.processingTool "mcp") []
  | .mcpToolCallFinished _ _ _ isError => w.respond (w.notifyIf isError "MCP tool call failed")
  | .patchApplyStarted _ => w.moveTo (.processingTool "patch") []
  | .patchApplyFinished _ status =>
      w.respond (w.notifyIf (status == .failed || status == .declined) "patch apply failed")
  | .patchApplyOutputDelta _ _ => (.ok [], w)
  | .sessionHandle _ => (.ok [], w)
  | .providerPid _ => (.ok [], w)

def apply (w : Worker) (event : DomainEvent) : Except WorkerError (List RuntimeCommand) × Worker :=
  { w with transcript := w.transcript.append event }.handle event

theorem transitionState_agentId (w : Worker) (target : WorkerState) :
    (w.transitionState target).2.agentId = w.agentId := by
  unfold transitionState
  split <;> rfl

theorem moveTo_allowed {w : Worker} {target : WorkerState}
    (allowed : w.state.canTransitionTo target = true) (commands : List RuntimeCommand) :
    w.moveTo target commands = (.ok commands, { w with state := target }) := by
  unfold moveTo WorkerState.transitionTo
  rw [if_pos allowed]

theorem moveTo_barred {w : Worker} {target : WorkerState}
    (barred : w.state.canTransitionTo target = false) (commands : List RuntimeCommand) :
    w.moveTo target commands = (.error (.invalidTransition ⟨w.state, target⟩), w) := by
  unfold moveTo WorkerState.transitionTo
  rw [barred]
  rfl

theorem moveTo_inv {w : Worker} {target : WorkerState} {commands emitted : List RuntimeCommand}
    (accepted : (w.moveTo target commands).1 = .ok emitted) :
    w.state.canTransitionTo target = true ∧ emitted = commands ∧
      (w.moveTo target commands).2 = { w with state := target } := by
  cases allowed : w.state.canTransitionTo target with
  | true =>
      rw [moveTo_allowed allowed] at accepted ⊢
      cases accepted
      exact ⟨rfl, rfl, rfl⟩
  | false =>
      rw [moveTo_barred allowed] at accepted
      cases accepted

theorem moveTo_rejected {w : Worker} {target : WorkerState} {commands : List RuntimeCommand}
    {e : WorkerError} (rejected : (w.moveTo target commands).1 = .error e) :
    w.state.canTransitionTo target = false ∧ (w.moveTo target commands).2 = w := by
  cases allowed : w.state.canTransitionTo target with
  | true =>
      rw [moveTo_allowed allowed] at rejected
      cases rejected
  | false =>
      rw [moveTo_barred allowed]
      exact ⟨rfl, rfl⟩

theorem respond_inv {w : Worker} {commands emitted : List RuntimeCommand}
    (accepted : (w.respond commands).1 = .ok emitted) :
    emitted = commands ∧ (((w.respond commands).2 = w ∧ w.state.isResponding = true) ∨
      (w.state.canTransitionTo .respondingStreaming = true ∧
        (w.respond commands).2 = { w with state := .respondingStreaming })) := by
  unfold respond at accepted ⊢
  split at accepted
  · next responding =>
      cases accepted
      exact ⟨rfl, .inl ⟨by rw [if_pos responding], responding⟩⟩
  · next other =>
      obtain ⟨allowed, rfl, moved⟩ := moveTo_inv accepted
      rw [if_neg other]
      exact ⟨rfl, .inr ⟨allowed, moved⟩⟩

theorem respond_rejected {w : Worker} {commands : List RuntimeCommand} {e : WorkerError}
    (rejected : (w.respond commands).1 = .error e) :
    w.state.isResponding = false ∧ w.state.canTransitionTo .respondingStreaming = false ∧
      (w.respond commands).2 = w := by
  unfold respond at rejected ⊢
  split at rejected
  · cases rejected
  · next other =>
      obtain ⟨barred, same⟩ := moveTo_rejected rejected
      rw [if_neg other]
      exact ⟨Bool.eq_false_iff.mpr other, barred, same⟩

/-- A rejected event leaves nothing but its entry in the transcript. -/
theorem apply_rejected {w : Worker} {event : DomainEvent} {e : WorkerError}
    (rejected : (w.apply event).1 = .error e) :
    (w.apply event).2 = { w with transcript := w.transcript.append event } := by
  unfold apply at rejected ⊢
  cases event with
  | status text =>
      simp only [handle] at rejected ⊢
      split at rejected
      · next started =>
          rw [if_pos started]
          exact (moveTo_rejected rejected).2
      · cases rejected
  | finished | error | execCommandStarted | genericToolCallStarted | webSearchStarted
  | mcpToolCallStarted | patchApplyStarted => exact (moveTo_rejected rejected).2
  | assistantChunk | thinkingChunk | execCommandFinished | genericToolCallFinished
  | webSearchFinished | mcpToolCallFinished | patchApplyFinished =>
      exact (respond_rejected rejected).2.2
  | _ => cases rejected

end Worker

end AgileAgent.RuntimeDomain
