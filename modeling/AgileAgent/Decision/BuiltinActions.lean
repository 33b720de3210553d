import AgileAgent.Decision.Engine
import AgileAgent.Decision.TaskMetadata
import AgileAgent.Decision.Uncommitted
import AgileAgent.Provider.Codex

/-! # Built-in actions

The actions of the crate with their parameters, as they are written for a decision that is kept or sent
and read again through the registry. What stands in a text as JSON is a parameter; how a derived reader
goes through it is not.
-/

namespace AgileAgent.DecisionDsl.Json

/-! ## Derived readers -/

/-- What a derived reader makes of a field that is left out. -/
inductive Absent (α : Type) where
  | required
  /-- An `Option` without `#[serde(default)]`; an array still has to have it. -/
  | optional (value : α)
  | default (value : α)

namespace Absent

variable {α : Type}

def inObject : Absent α → Option α
  | required => none
  | optional value | default value => some value

def inArray : Absent α → Option α
  | required | optional _ => none
  | default value => some value

end Absent

/-- A field of a struct: by its name in an object, where it is not to stand twice, by its place in an
    array. -/
def field {α : Type} (key : String) (place : Nat) (absent : Absent α) (read : Json → Option α) :
    Json → Option α
  | .object fields =>
      match fields.filter (·.1 = key) with
      | [] => absent.inObject
      | [(_, value)] => read value
      | _ => none
  | .array items =>
      match items[place]? with
      | some value => read value
      | none => absent.inArray
  | _ => none

/-- A struct with a number of fields; an array is not to be longer. -/
def struct {α : Type} (count : Nat) (read : Json → Option α) : Json → Option α
  | .object fields => read (.object fields)
  | .array items => if items.length ≤ count then read (.array items) else none
  | _ => none

def readU64 : Json → Option UInt64
  | .integer i => if 0 ≤ i ∧ i < 2 ^ 64 then some (UInt64.ofNat i.toNat) else none
  | _ => none

def nullable {α : Type} (read : Json → Option α) : Json → Option (Option α)
  | .null => some none
  | value => (read value).map some

def readStrings : Json → Option (List String)
  | .array items => items.mapM asStr
  | _ => none

/-! ## Derived writers -/

def ofOption : Option String → Json
  | some text => .string text
  | none => .null

def ofStrings (texts : List String) : Json := .array (texts.map .string)

def ofU64 (n : UInt64) : Json := .integer n.toNat

theorem nullable_ofOption (text : Option String) : nullable asStr (ofOption text) = some text := by
  cases text <;> rfl

theorem readStrings_ofStrings (texts : List String) : readStrings (ofStrings texts) = some texts := by
  change (texts.map Json.string).mapM asStr = some texts
  induction texts with
  | nil => rfl
  | cons text rest ih =>
      rw [List.map_cons, List.mapM_cons, ih]
      rfl

theorem readU64_ofU64 (n : UInt64) : readU64 (ofU64 n) = some n := by
  have fits : 0 ≤ (n.toNat : Int) ∧ (n.toNat : Int) < 2 ^ 64 := by
    have := n.toNat_lt
    omega
  rw [ofU64, readU64, if_pos fits, Int.toNat_natCast, UInt64.ofNat_toNat]

end AgileAgent.DecisionDsl.Json

namespace AgileAgent.Decision

open DecisionDsl (Json)
open Worktree (TaskType)

/-- `serde_json` between a text and what a writer puts into it or a reader goes through. -/
class JsonText where
  toString : Json → Option String
  fromStr : String → Option Json

inductive PreAction where
  | handleUncommitted (action : UncommittedAction) (commitMessage stashDescription : Option String)
  | createBranch (branchName baseBranch : String)
  | rebaseToMain (baseBranch : String)

/-- The structs of the built-in actions, each with its fields. -/
inductive BuiltinAction where
  | selectOption (optionId reason : String)
  | reflect (prompt : String)
  | confirmCompletion (submitPr : Bool) (nextTaskId : Option String)
  | continueAction (prompt : String) (focusItems : List String)
  | retry (prompt : String) (cooldownMs : UInt64) (adjusted : Bool)
  | requestHuman (message : String)
  | customInstruction (instruction : String)
  | continueAllTasks (instruction : String)
  | stopIfComplete (reason : String)
  | wakeUp
  | commitChanges (commitMessage : String) (isWip : Bool) (worktreePath : Option String)
  | stashChanges (description : String) (includeUntracked : Bool) (worktreePath : Option String)
  | discardChanges (worktreePath : Option String)
  | createTaskBranch (branchName baseBranch : String) (worktreePath : Option String)
  | rebaseToMain (baseBranch : String)
  | prepareTaskStart (taskMeta : TaskMetadata) (preActions : List PreAction) (worktreePath : Option String)
  | suggestCommit (suggestedMessage : String) (mandatory : Bool) (reason : String)
  | preparePr (title description baseBranch : String) (asDraft : Bool)

/-! ## Writing -/

def UncommittedAction.toJson : UncommittedAction → Json
  | .commit => .string "Commit"
  | .stash => .string "Stash"
  | .discard => .string "Discard"
  | .requestHuman => .string "RequestHuman"

def PreAction.toJson : PreAction → Json
  | .handleUncommitted action commitMessage stashDescription =>
      .object [("HandleUncommitted", .object [("action", action.toJson),
        ("commit_message", .ofOption commitMessage), ("stash_description", .ofOption stashDescription)])]
  | .createBranch branchName baseBranch =>
      .object [("CreateBranch", .object [("branch_name", .string branchName),
        ("base_branch", .string baseBranch)])]
  | .rebaseToMain baseBranch => .object [("RebaseToMain", .object [("base_branch", .string baseBranch)])]

def TaskPriority.toJson : TaskPriority → Json
  | .critical => .string "critical"
  | .high => .string "high"
  | .medium => .string "medium"
  | .low => .string "low"

def TaskMetadata.toJson (task : TaskMetadata) : Json :=
  .object [("task_id", .string task.taskId), ("branch_name", .string task.branchName),
    ("summary", .string task.summary), ("original_description", .string task.originalDescription),
    -- the names in snake case are the branch prefixes
    ("task_type", .string task.taskType.branchPrefix), ("priority", task.priority.toJson),
    ("classification_confidence", .float task.classificationConfidence),
    ("created_at", .string task.createdAt)]

namespace BuiltinAction

def actionType : BuiltinAction → ActionType
  | selectOption .. => ⟨"select_option"⟩
  | reflect .. => ⟨"reflect"⟩
  | confirmCompletion .. => ⟨"confirm_completion"⟩
  | continueAction .. => ⟨"continue"⟩
  | retry .. => ⟨"retry"⟩
  | requestHuman .. => ⟨"request_human"⟩
  | customInstruction .. => ⟨"custom_instruction"⟩
  | continueAllTasks .. => ⟨"continue_all_tasks"⟩
  | stopIfComplete .. => ⟨"stop_if_complete"⟩
  | wakeUp => ⟨"wake_up"⟩
  | commitChanges .. => ⟨"commit_changes"⟩
  | stashChanges .. => ⟨"stash_changes"⟩
  | discardChanges .. => ⟨"discard_changes"⟩
  | createTaskBranch .. => ⟨"create_task_branch"⟩
  | rebaseToMain .. => ⟨"rebase_to_main"⟩
  | prepareTaskStart .. => ⟨"prepare_task_start"⟩
  | suggestCommit .. => ⟨"suggest_commit"⟩
  | preparePr .. => ⟨"prepare_pr"⟩

/-- The parameters as they are written; two of the actions write none, whatever they hold. -/
def params : BuiltinAction → Json
  | selectOption optionId reason => .object [("option_id", .string optionId), ("reason", .string reason)]
  | reflect prompt => .object [("prompt", .string prompt)]
  | confirmCompletion submitPr nextTaskId =>
      .object [("submit_pr", .bool submitPr), ("next_task_id", .ofOption nextTaskId)]
  | continueAction prompt focusItems =>
      .object [("prompt", .string prompt), ("focus_items", .ofStrings focusItems)]
  | retry prompt cooldownMs adjusted =>
      .object [("prompt", .string prompt), ("cooldown_ms", .ofU64 cooldownMs), ("adjusted", .bool adjusted)]
  | requestHuman message => .object [("message", .string message)]
  | customInstruction instruction => .object [("instruction", .string instruction)]
  | continueAllTasks instruction => .object [("instruction", .string instruction)]
  | stopIfComplete reason => .object [("reason", .string reason)]
  | wakeUp | discardChanges _ => .object []
  | commitChanges commitMessage isWip worktreePath =>
      .object [("commit_message", .string commitMessage), ("is_wip", .bool isWip),
        ("worktree_path", .ofOption worktreePath)]
  | stashChanges description includeUntracked worktreePath =>
      .object [("description", .string description), ("include_untracked", .bool includeUntracked),
        ("worktree_path", .ofOption worktreePath)]
  | createTaskBranch branchName baseBranch worktreePath =>
      .object [("branch_name", .string branchName), ("base_branch", .string baseBranch),
        ("worktree_path", .ofOption worktreePath)]
  | rebaseToMain baseBranch => .object [("base_branch", .string baseBranch)]
  | prepareTaskStart taskMeta preActions worktreePath =>
      .object [("task_meta", taskMeta.toJson), ("pre_actions", .array (preActions.map PreAction.toJson)),
        ("worktree_path", .ofOption worktreePath)]
  | suggestCommit suggestedMessage mandatory reason =>
      .object [("suggested_message", .string suggestedMessage), ("mandatory", .bool mandatory),
        ("reason", .string reason)]
  | preparePr title description baseBranch asDraft =>
      .object [("title", .string title), ("description", .string description),
        ("base_branch", .string baseBranch), ("as_draft", .bool asDraft)]

def serializeParams [JsonText] : BuiltinAction → String
  | wakeUp | discardChanges _ => "\x7b\x7d"
  | a => (JsonText.toString a.params).getD ""

end BuiltinAction

/-! ## Reading -/

section

open DecisionDsl.Json (struct asStr asBool readU64 nullable readStrings)

def readSelectOption : Json → Option BuiltinAction := struct 2 fun v => do
  let optionId ← v.field "option_id" 0 (.default "A") asStr
  let reason ← v.field "reason" 1 (.default "") asStr
  return .selectOption optionId reason

def readReflect : Json → Option BuiltinAction := struct 1 fun v => do
  return .reflect (← v.field "prompt" 0 (.default "") asStr)

def readConfirmCompletion : Json → Option BuiltinAction := struct 2 fun v => do
  let submitPr ← v.field "submit_pr" 0 (.default false) asBool
  let nextTaskId ← v.field "next_task_id" 1 (.default none) (nullable asStr)
  return .confirmCompletion submitPr nextTaskId

def readContinue : Json → Option BuiltinAction := struct 2 fun v => do
  let prompt ← v.field "prompt" 0 (.default "") asStr
  let focusItems ← v.field "focus_items" 1 (.default []) readStrings
  return .continueAction prompt focusItems

def readRetry : Json → Option BuiltinAction := struct 3 fun v => do
  let prompt ← v.field "prompt" 0 (.default "") asStr
  let cooldownMs ← v.field "cooldown_ms" 1 (.default 1000) readU64
  let adjusted ← v.field "adjusted" 2 (.default false) asBool
  return .retry prompt cooldownMs adjusted

def readRequestHuman : Json → Option BuiltinAction := struct 1 fun v => do
  return .requestHuman (← v.field "message" 0 (.default "") asStr)

def readCustomInstruction : Json → Option BuiltinAction := struct 1 fun v => do
  return .customInstruction (← v.field "instruction" 0 (.default "") asStr)

def readContinueAllTasks : Json → Option BuiltinAction := struct 1 fun v => do
  return .continueAllTasks (← v.field "instruction" 0 (.default "") asStr)

def readStopIfComplete : Json → Option BuiltinAction := struct 1 fun v => do
  return .stopIfComplete (← v.field "reason" 0 (.default "") asStr)

def readCommitChanges : Json → Option BuiltinAction := struct 3 fun v => do
  let commitMessage ← v.field "commit_message" 0 .required asStr
  let isWip ← v.field "is_wip" 1 .required asBool
  let worktreePath ← v.field "worktree_path" 2 (.optional none) (nullable asStr)
  return .commitChanges commitMessage isWip worktreePath

def readStashChanges : Json → Option BuiltinAction := struct 3 fun v => do
  let description ← v.field "description" 0 .required asStr
  let includeUntracked ← v.field "include_untracked" 1 .required asBool
  let worktreePath ← v.field "worktree_path" 2 (.optional none) (nullable asStr)
  return .stashChanges description includeUntracked worktreePath

def readDiscardChanges : Json → Option BuiltinAction := struct 1 fun v => do
  return .discardChanges (← v.field "worktree_path" 0 (.optional none) (nullable asStr))

def readSuggestCommit : Json → Option BuiltinAction := struct 3 fun v => do
  let suggestedMessage ← v.field "suggested_message" 0 .required asStr
  let mandatory ← v.field "mandatory" 1 .required asBool
  let reason ← v.field "reason" 2 .required asStr
  return .suggestCommit suggestedMessage mandatory reason

def readPreparePr : Json → Option BuiltinAction := struct 4 fun v => do
  let title ← v.field "title" 0 .required asStr
  let description ← v.field "description" 1 .required asStr
  let baseBranch ← v.field "base_branch" 2 .required asStr
  let asDraft ← v.field "as_draft" 3 .required asBool
  return .preparePr title description baseBranch asDraft

end

/-! ## The registry -/

/-- What `register_action_builtins` registers: the actions themselves and the readers by type. -/
def registeredActions : List BuiltinAction :=
  [.selectOption "A" "Default selection", .reflect "Please reflect on your work and verify completion.",
    .confirmCompletion false none, .continueAction "Continue with the next steps." [],
    .retry "Retry the previous action." 1000 false, .requestHuman "Please provide human input.",
    .customInstruction "Custom instruction placeholder.", .continueAllTasks "continue finish all tasks",
    .stopIfComplete "All tasks complete", .commitChanges "" false none, .stashChanges "" true none,
    .discardChanges none, .suggestCommit "" false "", .preparePr "" "" "main" true]

def deserializers : List (ActionType × (Json → Option BuiltinAction)) :=
  [(⟨"select_option"⟩, readSelectOption), (⟨"reflect"⟩, readReflect),
    (⟨"confirm_completion"⟩, readConfirmCompletion), (⟨"continue"⟩, readContinue),
    (⟨"retry"⟩, readRetry), (⟨"request_human"⟩, readRequestHuman),
    (⟨"custom_instruction"⟩, readCustomInstruction), (⟨"continue_all_tasks"⟩, readContinueAllTasks),
    (⟨"stop_if_complete"⟩, readStopIfComplete), (⟨"commit_changes"⟩, readCommitChanges),
    (⟨"stash_changes"⟩, readStashChanges), (⟨"discard_changes"⟩, readDiscardChanges),
    (⟨"suggest_commit"⟩, readSuggestCommit), (⟨"prepare_pr"⟩, readPreparePr)]

/-- `ActionRegistry::deserialize` of the registry with the built-in actions. -/
def deserializeBuiltin [JsonText] (type : ActionType) (text : String) : Option BuiltinAction :=
  (deserializers.lookup type).bind fun read => (JsonText.fromStr text).bind read

/-- There is a reader for an action, and it is written with all it holds. -/
def Persistable : BuiltinAction → Prop
  | .wakeUp | .createTaskBranch .. | .rebaseToMain .. | .prepareTaskStart .. => False
  | .discardChanges worktreePath => worktreePath = none
  | _ => True

section

variable [JsonText]

/-- What was written is read again as what was put in. Only the metadata of a task hold a floating
    point number, and no reader is registered for them. -/
def ReadBack : BuiltinAction → Prop
  | .prepareTaskStart .. => True
  | a => JsonText.fromStr a.serializeParams = some a.params

/-- With a reader of its type an action comes back as what the reader makes of its parameters. -/
theorem deserializeBuiltin_eq {a : BuiltinAction} (read : Json → Option BuiltinAction)
    (reads : JsonText.fromStr a.serializeParams = some a.params)
    (registered : deserializers.lookup a.actionType = some read) :
    deserializeBuiltin a.actionType a.serializeParams = read a.params := by
  rw [deserializeBuiltin, registered, reads]
  rfl

theorem deserializeBuiltin_none {type : ActionType} (unknown : deserializers.lookup type = none)
    (text : String) : deserializeBuiltin type text = none := by
  rw [deserializeBuiltin, unknown]
  rfl

/-- What each reader makes of what the writer of its type has written. -/
theorem deserialize_persistable {a : BuiltinAction} (reads : ReadBack a) (persistable : Persistable a) :
    deserializeBuiltin a.actionType a.serializeParams = some a := by
  cases a with
  | selectOption optionId reason => exact deserializeBuiltin_eq readSelectOption reads rfl
  | reflect prompt => exact deserializeBuiltin_eq readReflect reads rfl
  | confirmCompletion submitPr nextTaskId =>
      rw [deserializeBuiltin_eq readConfirmCompletion reads rfl]
      change (Json.nullable Json.asStr (.ofOption nextTaskId)).bind _ = _
      rw [Json.nullable_ofOption]
      rfl
  | continueAction prompt focusItems =>
      rw [deserializeBuiltin_eq readContinue reads rfl]
      change (Json.readStrings (.ofStrings focusItems)).bind _ = _
      rw [Json.readStrings_ofStrings]
      rfl
  | retry prompt cooldownMs adjusted =>
      have split (number : Json) : readRetry (.object [("prompt", .string prompt), ("cooldown_ms", number),
          ("adjusted", .bool adjusted)]) =
          (Json.readU64 number).bind fun read => some (.retry prompt read adjusted) := rfl
      rw [deserializeBuiltin_eq readRetry reads rfl, BuiltinAction.params, split, Json.readU64_ofU64]
      rfl
  | requestHuman message => exact deserializeBuiltin_eq readRequestHuman reads rfl
  | customInstruction instruction => exact deserializeBuiltin_eq readCustomInstruction reads rfl
  | continueAllTasks instruction => exact deserializeBuiltin_eq readContinueAllTasks reads rfl
  | stopIfComplete reason => exact deserializeBuiltin_eq readStopIfComplete reads rfl
  | commitChanges commitMessage isWip worktreePath =>
      rw [deserializeBuiltin_eq readCommitChanges reads rfl]
      change (Json.nullable Json.asStr (.ofOption worktreePath)).bind _ = _
      rw [Json.nullable_ofOption]
      rfl
  | stashChanges description includeUntracked worktreePath =>
      rw [deserializeBuiltin_eq readStashChanges reads rfl]
      change (Json.nullable Json.asStr (.ofOption worktreePath)).bind _ = _
      rw [Json.nullable_ofOption]
      rfl
  | discardChanges worktreePath =>
      rw [deserializeBuiltin_eq readDiscardChanges reads rfl]
      cases persistable
      rfl
  | suggestCommit suggestedMessage mandatory reason =>
      exact deserializeBuiltin_eq readSuggestCommit reads rfl
  | preparePr title description baseBranch asDraft =>
      exact deserializeBuiltin_eq readPreparePr reads rfl
  | wakeUp | createTaskBranch branchName baseBranch worktreePath | rebaseToMain baseBranch
  | prepareTaskStart taskMeta preActions worktreePath => exact absurd persistable id

theorem deserialize_not_persistable {a : BuiltinAction} (reads : ReadBack a)
    (lost : ¬ Persistable a) : deserializeBuiltin a.actionType a.serializeParams ≠ some a := by
  cases a with
  | wakeUp | createTaskBranch branchName baseBranch worktreePath | rebaseToMain baseBranch
  | prepareTaskStart taskMeta preActions worktreePath =>
      rw [deserializeBuiltin_none rfl]
      exact Option.some_ne_none _ ∘ Eq.symm
  | discardChanges worktreePath =>
      -- nothing of the path is in the text, so none comes back
      rw [deserializeBuiltin_eq readDiscardChanges reads rfl]
      change some (BuiltinAction.discardChanges none) ≠ _
      intro same
      cases same
      exact lost rfl
  | _ => exact absurd trivial lost

theorem deserialize_serialize_iff (a : BuiltinAction) (reads : ReadBack a) :
    deserializeBuiltin a.actionType a.serializeParams = some a ↔ Persistable a := by
  constructor
  · intro same
    by_contra lost
    exact deserialize_not_persistable reads lost same
  · exact deserialize_persistable reads

end

section

/-- Objects of two plain texts, and the empty one. -/
def plainText : Json → Option String
  | .object [] => some "\x7b\x7d"
  | .object [(key, .string value), (key', .string value')] =>
      some ("\x7b\"" ++ key ++ "\":\"" ++ value ++ "\",\"" ++ key' ++ "\":\"" ++ value' ++ "\"\x7d")
  | _ => none

local instance choiceText : JsonText where
  toString := plainText
  fromStr text :=
    let choice := BuiltinAction.params (.selectOption "B" "smallest change")
    if plainText choice = some text then some choice
    else if text = "\x7b\x7d" then some (.object [])
    else none

theorem choice_readBack : ReadBack (.selectOption "B" "smallest change") := by
  rw [ReadBack]
  · exact if_pos rfl
  · exact fun _ _ _ other => BuiltinAction.noConfusion other

theorem choice_persists :
    deserializeBuiltin ⟨"select_option"⟩
      (BuiltinAction.serializeParams (.selectOption "B" "smallest change")) =
        some (.selectOption "B" "smallest change") :=
  (deserialize_serialize_iff (.selectOption "B" "smallest change") choice_readBack).mpr trivial

/-- The changes of another worktree are discarded than those it was decided for. -/
theorem discarded_path_lost :
    ¬ ∀ a : BuiltinAction, deserializeBuiltin a.actionType a.serializeParams = some a := by
  intro always
  have same := always (.discardChanges (some "/work/agent-2"))
  have text : plainText (BuiltinAction.params (.selectOption "B" "smallest change")) ≠
      some "\x7b\x7d" := by
    decide +kernel
  have read : deserializeBuiltin ⟨"discard_changes"⟩ "\x7b\x7d" = some (.discardChanges none) := by
    refine deserializeBuiltin_eq (a := .discardChanges none) readDiscardChanges ?_ rfl
    exact (if_neg text).trans (if_pos rfl)
  cases read.symm.trans same

end

end AgileAgent.Decision
