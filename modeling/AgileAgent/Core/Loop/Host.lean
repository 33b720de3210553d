import AgileAgent.Core.AgentSlotStatus
import AgileAgent.Core.Loop.AppState

/-! # What the loop runs on

Providers, the hook of the caller, files and `cargo check` answer as a host does. An answer may
depend on how many calls came before. Their times are left out of the records that are saved.
-/

namespace AgileAgent.Core.Loop

open Backlog RuntimeDomain

/-! ## Records -/

inductive VerificationCheck where
  | assistantOutputNonEmpty
  | cargoCheck
  deriving Repr, DecidableEq

structure VerificationPlan where
  checks : List VerificationCheck
  deriving Repr, DecidableEq

inductive VerificationOutcome where
  | passed
  | failed
  | notRunnable
  deriving Repr, DecidableEq

structure VerificationResult where
  outcome : VerificationOutcome
  checks : List VerificationCheck
  failedChecks : List VerificationCheck
  evidence : List String
  summary : String
  deriving Repr, DecidableEq

inductive TaskArtifactOutcome where
  | completed
  | failed
  | escalated
  deriving Repr, DecidableEq

structure TaskArtifact where
  taskId : String
  todoId : String
  objective : String
  provider : ProviderKind
  outcome : TaskArtifactOutcome
  assistantSummary : Option String
  verification : Option VerificationResult
  reason : Option String
  escalationPath : Option String
  deriving Repr, DecidableEq

structure EscalationRecord where
  taskId : String
  reason : String
  contextSummary : String
  recommendedActions : List String
  deriving Repr, DecidableEq

/-! ## The host -/

/-- What a process left: whether it succeeded, and the lines of its `stderr`. -/
structure ProcessOutput where
  success : Bool
  stderr : List String
  deriving Repr, DecidableEq

/-- The first argument of each is the number of calls so far. -/
structure Host where
  /-- `ProviderStarter`: all events of the stream, which is closed after the last one. -/
  startProvider : Nat → ProviderKind → String → String → Option SessionHandle →
    Except String (List DomainEvent)
  onStateChange : Nat → AppState → Except String Unit
  /-- Whether a directory holds a `Cargo.toml`. -/
  hasManifest : Nat → String → Bool
  cargoCheck : Nat → String → Except String ProcessOutput
  /-- The path of the file, under a root or under the application's data. -/
  saveTaskArtifact : Nat → Option String → TaskArtifact → Except String String
  saveEscalation : Nat → Option String → EscalationRecord → Except String String

inductive LoopExecutionOutcome where
  | completed
  | verificationFailed
  | escalated
  deriving Repr, DecidableEq

/-- What the loop did: it took up the task at a place of the backlog, started the provider for
    it in a state, and resolved it. -/
inductive LoopEvent where
  | tookUp (task : Nat)
  | started (task : Nat) (before : AppState) (stream : Except String (List DomainEvent))
  | resolved (outcome : LoopExecutionOutcome)
  deriving DecidableEq

/-- The state of a run. The log only records the run. -/
structure LoopState where
  app : AppState
  calls : Nat := 0
  log : List LoopEvent := []

/-- Why a run ends early: an error it passes on, a counter out of its range, or, in the model
    alone, too few steps allowed. -/
inductive LoopError where
  | failed (message : String)
  | overflow
  | unfinished
  deriving Repr, DecidableEq

abbrev LoopM := EStateM LoopError LoopState

/-- Change the state of the application. -/
def update (change : AppState → AppState) : LoopM Unit := modify fun s => { s with app := change s.app }

def record (event : LoopEvent) : LoopM Unit := modify fun s => { s with log := s.log ++ [event] }

/-- The number of the next call. -/
def nextCall : LoopM Nat := do
  let s ← get
  modify fun s => { s with calls := s.calls + 1 }
  return s.calls

/-- The `?` operator. -/
def orFail {α : Type} : Except String α → LoopM α
  | .ok result => pure result
  | .error message => throw (.failed message)

def onStateChange (host : Host) : LoopM Unit := do
  let calls ← nextCall
  let s ← get
  orFail (host.onStateChange calls s.app)

/-! ## Verification -/

variable (host : Host) (calls : Nat)

def buildVerificationPlan (cwd : String) : VerificationPlan where
  checks := .assistantOutputNonEmpty :: if host.hasManifest calls cwd then [.cargoCheck] else []

def describeCheck : VerificationCheck → String
  | .assistantOutputNonEmpty => "assistant output is non-empty"
  | .cargoCheck => "cargo check passes"

def describeVerificationPlan (plan : VerificationPlan) : List String := plan.checks.map describeCheck

/-- One check: whether it passes, and its evidence. -/
def runCheck (cwd : String) (assistantSummary : Option String) : VerificationCheck → Bool × String
  | .assistantOutputNonEmpty =>
      if assistantSummary.any fun text => DecisionDsl.trim text != "" then
        (true, "assistant_output_nonempty=pass")
      else (false, "assistant_output_nonempty=fail")
  | .cargoCheck =>
      match host.cargoCheck calls cwd with
      | .ok output =>
          if output.success then (true, "cargo_check=pass")
          else (false, "cargo_check=fail (" ++ output.stderr.head?.getD "unknown error" ++ ")")
      | .error err => (false, "cargo_check=error (" ++ err ++ ")")

def executeVerification (plan : VerificationPlan) (cwd : String) (assistantSummary : Option String) :
    VerificationResult :=
  if plan.checks = [] then
    { outcome := .notRunnable
      checks := []
      failedChecks := []
      evidence := []
      summary := "no verification checks available" }
  else
    let run := runCheck host calls cwd assistantSummary
    let failedChecks := plan.checks.filter fun check => !(run check).1
    { outcome := if failedChecks = [] then .passed else .failed
      checks := plan.checks
      failedChecks := failedChecks
      evidence := plan.checks.map fun check => (run check).2
      summary := if failedChecks = [] then "verification passed" else "verification failed" }

end AgileAgent.Core.Loop
