import Mathlib.Data.Finmap
import AgileAgent.RuntimeDomain.Worker

/-! # Slot statuses

The operational status of an agent slot, its own table of moves and the state of the worker
it stands for.
-/

namespace AgileAgent.Core

open DecisionDsl (strContains)
open RuntimeDomain

/-- `str::to_lowercase`. -/
class Unicode where
  toLowercase : String → String

inductive UrgencyLevel where
  | low
  | medium
  | high
  | critical
  deriving Repr, DecidableEq

structure BlockingContext where
  taskId : Option String := none
  storyId : Option String := none
  additionalInfo : Finmap (fun _ : String => String) := ∅
  deriving DecidableEq

/-- The reason of an agent that was told to slow down (HTTP 429). -/
structure RateLimitBlockedReason where
  startedAt : Int
  lastRetryAt : Option Int := none
  retryCount : Nat := 0
  intervalSecs : Nat := 1800
  deriving Repr, DecidableEq

/-- `BlockedState`: what statuses read of its reason, and its context. `rateLimit` is
    `as_rate_limit_reason`. -/
structure BlockedState where
  reasonType : String
  urgency : UrgencyLevel
  expiresAt : Option Int
  context : BlockingContext := {}
  rateLimit : Option RateLimitBlockedReason := none
  deriving DecidableEq

/-- `AgentSlotStatus`; points in time count nanoseconds. -/
inductive AgentSlotStatus where
  | idle
  | starting
  | responding (startedAt : Nat)
  | toolExecuting (toolName : String)
  | finishing
  | stopping
  | stopped (reason : String)
  | error (message : String)
  | blocked (reason : String)
  | blockedForDecision (blockedState : BlockedState)
  | paused (reason : String)
  | waitingForInput (startedAt : Nat)
  | resting (startedAt : Int) (blockedState : BlockedState) (onResume : Bool)
  deriving DecidableEq

namespace AgentSlotStatus

/-- `PartialEq`: of a blocked state only some parts count. -/
def eq : AgentSlotStatus → AgentSlotStatus → Bool
  | .idle, .idle | .starting, .starting | .finishing, .finishing | .stopping, .stopping => true
  | .responding a, .responding b => a == b
  | .toolExecuting a, .toolExecuting b => a == b
  | .stopped a, .stopped b => a == b
  | .error a, .error b => a == b
  | .blocked a, .blocked b => a == b
  | .blockedForDecision a, .blockedForDecision b =>
      a.reasonType == b.reasonType && a.urgency == b.urgency && a.context == b.context
  | .paused a, .paused b => a == b
  | .waitingForInput a, .waitingForInput b => a == b
  | .resting a state onResume, .resting b state' onResume' =>
      a == b && state.reasonType == state'.reasonType && onResume == onResume'
  | _, _ => false

def canTransitionTo : AgentSlotStatus → AgentSlotStatus → Bool
  | .idle, .starting | .idle, .blocked _ | .idle, .blockedForDecision _ | .idle, .stopped _
  | .idle, .paused _ => true
  | .starting, .idle | .starting, .responding _ | .starting, .stopping | .starting, .blocked _
  | .starting, .blockedForDecision _ | .starting, .error _ | .starting, .paused _
  | .starting, .stopped _ => true
  | .responding _, .idle | .responding _, .toolExecuting _ | .responding _, .finishing
  | .responding _, .stopping | .responding _, .blocked _ | .responding _, .blockedForDecision _
  | .responding _, .error _ | .responding _, .paused _ | .responding _, .waitingForInput _
  | .responding _, .stopped _ => true
  | .toolExecuting _, .idle | .toolExecuting _, .responding _ | .toolExecuting _, .finishing
  | .toolExecuting _, .stopping | .toolExecuting _, .blocked _
  | .toolExecuting _, .blockedForDecision _ | .toolExecuting _, .error _ | .toolExecuting _, .paused _
  | .toolExecuting _, .waitingForInput _ | .toolExecuting _, .stopped _ => true
  | .finishing, .idle | .finishing, .stopping | .finishing, .blocked _
  | .finishing, .blockedForDecision _ | .finishing, .error _ | .finishing, .paused _
  | .finishing, .stopped _ => true
  | .stopping, .stopped _ | .stopping, .error _ => true
  | .stopped _, .starting => true
  | .error _, .idle | .error _, .stopped _ => true
  | .blocked _, .idle | .blocked _, .responding _ | .blocked _, .stopped _ | .blocked _, .paused _
  | .blocked _, .blockedForDecision _ => true
  | .blockedForDecision _, .idle | .blockedForDecision _, .responding _
  | .blockedForDecision _, .stopped _ | .blockedForDecision _, .paused _
  | .blockedForDecision _, .blocked _ => true
  | .paused _, .idle | .paused _, .stopped _ => true
  | .waitingForInput _, .responding _ | .waitingForInput _, .idle | .waitingForInput _, .stopping
  | .waitingForInput _, .blocked _ | .waitingForInput _, .blockedForDecision _
  | .waitingForInput _, .stopped _ => true
  | .blockedForDecision _, .resting _ _ _ => true
  | .resting _ _ _, .idle | .resting _ _ _, .error _ | .resting _ _ _, .stopped _
  | .resting _ _ _, .resting _ _ _ => true
  | a, b => a.eq b

/-- `label`, at a point in time. -/
def label (now : Int) : AgentSlotStatus → String
  | .idle => "idle"
  | .starting => "starting"
  | .responding _ => "responding"
  | .toolExecuting toolName => "tool:" ++ toolName
  | .finishing => "finishing"
  | .stopping => "stopping"
  | .stopped reason => "stopped:" ++ reason
  | .error message => "error:" ++ message
  | .blocked reason => "blocked:" ++ reason
  | .blockedForDecision blockedState => "blocked:" ++ blockedState.reasonType
  | .paused reason => "paused:" ++ reason
  | .waitingForInput _ => "waiting_for_input"
  | .resting startedAt _ _ =>
      "resting:" ++ toString ((now - startedAt).tdiv 60000000000) ++ "min"

variable [Unicode]

/-- The state of the worker a status stands for. -/
def toWorkerState : AgentSlotStatus → WorkerState
  | .idle => .idle
  | .starting => .starting
  | .responding _ => .respondingStreaming
  | .toolExecuting toolName => .processingTool toolName
  | .finishing => .finishing
  | .stopping => .stopping
  | .stopped reason =>
      let lower := Unicode.toLowercase reason
      if strContains lower "error" || strContains lower "fail" || strContains lower "panic" then
        .failed reason
      else .completed
  | .error message => .failed message
  | .blocked reason => .blocked reason
  | .blockedForDecision blockedState => .blocked blockedState.reasonType
  | .paused reason => .paused reason
  | .waitingForInput _ => .waitingForInput
  | .resting _ blockedState _ => .resting blockedState.expiresAt

end AgentSlotStatus

end AgileAgent.Core
