/-! # Worker states

The states of a worker and the moves between them. A move to the same state is never
allowed.
-/

namespace AgileAgent.RuntimeDomain

inductive RespondingSubState where
  | streaming
  | waitingConfirmation
  deriving Repr, DecidableEq

/-- `WorkerState`; points in time count nanoseconds. -/
inductive WorkerState where
  | starting
  | responding (sub : RespondingSubState)
  | processingTool (name : String)
  | completed
  | failed (reason : String)
  | idle
  | blocked (reason : String)
  | paused (reason : String)
  | waitingForInput
  | resting (until_ : Option Int)
  | finishing
  | stopping
  deriving Repr, DecidableEq

structure InvalidTransition where
  source : WorkerState
  target : WorkerState
  deriving Repr, DecidableEq

namespace WorkerState

def respondingStreaming : WorkerState := .responding .streaming

def isResponding : WorkerState → Bool
  | .responding _ => true
  | _ => false

/-- The table of moves, for two different states. -/
def moves : WorkerState → WorkerState → Bool
  | .idle, .starting | .idle, .blocked _ | .idle, .paused _ | .idle, .stopping => true
  | .starting, .responding _ | .starting, .failed _ | .starting, .blocked _ | .starting, .paused _
  | .starting, .stopping => true
  | .responding _, .processingTool _ | .responding _, .completed | .responding _, .failed _
  | .responding _, .idle | .responding _, .blocked _ | .responding _, .paused _
  | .responding _, .waitingForInput | .responding _, .finishing | .responding _, .stopping
  | .responding .streaming, .responding .waitingConfirmation
  | .responding .waitingConfirmation, .responding .streaming => true
  | .processingTool _, .responding _ | .processingTool _, .completed | .processingTool _, .failed _
  | .processingTool _, .idle | .processingTool _, .blocked _ | .processingTool _, .paused _
  | .processingTool _, .finishing | .processingTool _, .stopping => true
  | .finishing, .completed | .finishing, .failed _ | .finishing, .idle | .finishing, .blocked _
  | .finishing, .paused _ | .finishing, .stopping => true
  | .stopping, .completed | .stopping, .failed _ | .stopping, .idle => true
  | .completed, .starting => true
  | .failed _, .idle | .failed _, .starting | .failed _, .blocked _ | .failed _, .paused _ => true
  | .blocked _, .idle | .blocked _, .responding _ | .blocked _, .starting | .blocked _, .paused _
  | .blocked _, .resting _ => true
  | .paused _, .idle | .paused _, .responding _ | .paused _, .starting | .paused _, .blocked _ => true
  | .waitingForInput, .responding _ | .waitingForInput, .idle | .waitingForInput, .blocked _
  | .waitingForInput, .paused _ => true
  | .resting _, .idle | .resting _, .starting | .resting _, .failed _ => true
  | _, _ => false

def canTransitionTo (state target : WorkerState) : Bool :=
  if state = target then false else moves state target

def transitionTo (state target : WorkerState) : Except InvalidTransition WorkerState :=
  if state.canTransitionTo target then .ok target else .error ⟨state, target⟩

end WorkerState

end AgileAgent.RuntimeDomain
