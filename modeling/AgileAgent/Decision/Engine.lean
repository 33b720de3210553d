import AgileAgent.Core.Loop.AppState
import AgileAgent.Numeral

/-! # What decision engines share

Situations and actions are known to the engines by the answers of their trait methods, so both are
records here. Confidences and the texts of prompts, which no decision below depends on, are left out.
-/

namespace AgileAgent.Decision

open AgileAgent.Core.Loop (ProviderKind)

inductive DecisionError where
  | situationNotFound (text : String)
  | actionNotFound (text : String)
  | actionParseError (text : String)
  | parseError (text : String)
  | serializationError (text : String)
  | engineError (text : String)
  | configError (text : String)
  | blockingError (text : String)
  | persistenceError (text : String)
  | sessionPoolExhausted (text : String)
  | rateLimitExceeded (position : Nat)
  | ioError (text : String)
  | jsonError (text : String)
  deriving Repr, DecidableEq

/-- The `Display` text. -/
def DecisionError.message : DecisionError → String
  | .situationNotFound text => "Situation type not found: " ++ text
  | .actionNotFound text => "Action type not found: " ++ text
  | .actionParseError text => "Failed to parse action: " ++ text
  | .parseError text => "Failed to parse response: " ++ text
  | .serializationError text => "Serialization error: " ++ text
  | .engineError text => "Decision engine error: " ++ text
  | .configError text => "Invalid configuration: " ++ text
  | .blockingError text => "Blocking resolution failed: " ++ text
  | .persistenceError text => "Persistence error: " ++ text
  | .sessionPoolExhausted text => "Session pool exhausted: " ++ text
  | .rateLimitExceeded position => "Rate limit exceeded, waiting at position " ++ toString position
  | .ioError text => "IO error: " ++ text
  | .jsonError text => "JSON error: " ++ text

/-- `ProviderKind::display_name`. -/
def displayName : ProviderKind → String
  | .mock => "Mock"
  | .claude => "Claude"
  | .codex => "Codex"
  | .acp => "ACP"
  | .unknown => "Unknown"

inductive DecisionEngineType where
  | llm (provider : ProviderKind)
  | cli (provider : ProviderKind)
  | ruleBased
  | mock
  | custom (name : String)
  deriving Repr, DecidableEq

/-! ## Actions -/

structure ActionType where
  name : String
  deriving Repr, DecidableEq

/-- An action: its type and the values it was made with. -/
structure DecisionAction where
  actionType : ActionType
  params : List (String × String) := []
  deriving Repr, DecidableEq

/-- The registered actions, their parsers and their deserializers, by type. -/
structure ActionRegistry where
  get : ActionType → Option DecisionAction := fun _ => none
  parse : ActionType → String → Option DecisionAction := fun _ _ => none
  deserialize : ActionType → String → Option DecisionAction := fun _ _ => none

structure DecisionOutput where
  actions : List DecisionAction
  reasoning : String
  humanRequested : Bool := false
  updatedReflectionRound : Option Nat := none
  deriving Repr, DecidableEq

def DecisionOutput.firstActionType (output : DecisionOutput) : Option ActionType :=
  output.actions.head?.map (·.actionType)

/-! ## Situations -/

structure SituationType where
  name : String
  subtype : Option String := none
  deriving Repr, DecidableEq

/-- The type without its subtype. -/
def SituationType.baseType (t : SituationType) : SituationType := { name := t.name }

/-- The `Display` text. -/
def SituationType.display (t : SituationType) : String :=
  match t.subtype with
  | some subtype => t.name ++ "." ++ subtype
  | none => t.name

structure ErrorInfo where
  errorType : String
  message : String
  recoverable : Bool := true
  retryCount : Nat := 0
  deriving Repr, DecidableEq

/-- The answers of a `dyn DecisionSituation`. -/
structure DecisionSituation where
  situationType : SituationType
  requiresHuman : Bool
  availableActions : List ActionType
  errorInfo : Option ErrorInfo := none
  deriving Repr, DecidableEq

namespace DecisionSituation

def waitingForChoice (critical : Bool) : DecisionSituation where
  situationType := ⟨"waiting_for_choice", none⟩
  requiresHuman := critical
  availableActions := [⟨"select_option"⟩, ⟨"select_first"⟩, ⟨"reject_all"⟩, ⟨"custom_instruction"⟩]

/-- A claim of completion in a confident agent. -/
def claimsCompletion (reflectionRounds maxReflectionRounds : Nat) : DecisionSituation where
  situationType := ⟨"claims_completion", none⟩
  requiresHuman := false
  availableActions :=
    if reflectionRounds < maxReflectionRounds then [⟨"reflect"⟩, ⟨"confirm_completion"⟩]
    else [⟨"confirm_completion"⟩, ⟨"request_human"⟩]

def partialCompletion (blocker : Option String) : DecisionSituation where
  situationType := ⟨"partial_completion", none⟩
  requiresHuman := blocker.isSome
  availableActions := [⟨"continue"⟩, ⟨"skip_remaining"⟩, ⟨"request_context"⟩]

def error (info : ErrorInfo) : DecisionSituation where
  situationType := ⟨"error", none⟩
  requiresHuman := !info.recoverable || 3 ≤ info.retryCount
  availableActions :=
    if info.recoverable && info.retryCount < 3 then [⟨"retry"⟩, ⟨"retry_adjusted"⟩, ⟨"restart"⟩]
    else [⟨"request_human"⟩, ⟨"abort"⟩]
  errorInfo := some info

def agentIdle : DecisionSituation where
  situationType := ⟨"agent_idle", none⟩
  requiresHuman := false
  availableActions := [⟨"continue_all_tasks"⟩, ⟨"stop_if_complete"⟩, ⟨"request_human"⟩]

/-- A task that starts, as long as its git state is not known. -/
def taskStarting : DecisionSituation where
  situationType := ⟨"task_starting", none⟩
  requiresHuman := false
  availableActions := [⟨"prepare_task_start"⟩, ⟨"create_task_branch"⟩, ⟨"rebase_to_main"⟩,
    ⟨"request_human"⟩]

/-- `GenericUnknownSituation`. -/
def genericUnknown (detectedType : SituationType) : DecisionSituation where
  situationType := detectedType
  requiresHuman := true
  availableActions := [⟨"request_human"⟩]

end DecisionSituation

/-- Builders, which may build nothing, and default situations, by type. -/
structure SituationRegistry where
  builders : List (SituationType × Option DecisionSituation) := []
  defaults : List DecisionSituation := []

namespace SituationRegistry

def builder (r : SituationRegistry) (type : SituationType) : Option DecisionSituation :=
  (r.builders.find? (·.1 = type)).bind (·.2)

def default (r : SituationRegistry) (type : SituationType) : Option DecisionSituation :=
  r.defaults.find? (·.situationType = type)

/-- The chain of fallbacks: builders, defaults, each for the type and then its base, and at last the
    unknown situation. -/
def build (r : SituationRegistry) (type : SituationType) : DecisionSituation :=
  (r.builder type).or (r.builder type.baseType) |>.or (r.default type) |>.or (r.default type.baseType)
    |>.getD (.genericUnknown type)

/-- `register_situation_builtins` on a new registry. -/
def builtins : SituationRegistry where
  defaults := [.waitingForChoice false, .claimsCompletion 0 2, .partialCompletion none,
    .error { errorType := "unknown", message := "Unknown error" }, .agentIdle, .taskStarting]

end SituationRegistry

/-! ## Contexts -/

/-- `DecisionRecord`: an entry of the history that a context brings along. -/
structure DecisionRecord where
  decisionId : String
  situationType : SituationType
  actionTypes : List ActionType
  reasoning : String
  deriving Repr, DecidableEq

structure DecisionContext where
  triggerSituation : DecisionSituation
  mainAgentId : String
  keywords : List String := []
  decisionHistory : List DecisionRecord := []
  metadata : List (String × String) := []
  deriving Repr, DecidableEq

namespace DecisionContext

/-- `with_reflection_round`. -/
def withReflectionRound (c : DecisionContext) (round : Nat) : DecisionContext :=
  { c with metadata := ("reflection_round", toString round) ::
      c.metadata.filter (·.1 ≠ "reflection_round") }

/-- The round in the metadata, if there is one that can be read. -/
def metadataRound (c : DecisionContext) : Option Nat :=
  (c.metadata.lookup "reflection_round").bind fun round => Numeral.parse UInt8.size round.toList

def reflectionRound (c : DecisionContext) : Nat := c.metadataRound.getD 0

end DecisionContext

end AgileAgent.Decision
