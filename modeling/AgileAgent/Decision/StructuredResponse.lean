import AgileAgent.Decision.BuiltinActions
import AgileAgent.Decision.LlmEngine
import Mathlib.Data.List.DropRight

/-! # Responses and built-in actions

What the structured path of the engine makes of a response, with the registry that holds the built-in
actions. The prompt offers the actions of the situation and asks for one of them in a fixed format; the
reading of the format asks the registry only.
-/

namespace AgileAgent.Decision

open AgileAgent.Core (Unicode)
open DecisionDsl (Json isWhitespace trim)

/-! ## The registry -/

/-- The `Display` text. -/
def UncommittedAction.display : UncommittedAction → String
  | .commit => "Commit"
  | .stash => "Stash"
  | .discard => "Discard"
  | .requestHuman => "RequestHuman"

def PreAction.summary : PreAction → String
  | .handleUncommitted action _ _ => "Handle uncommitted: " ++ action.display
  | .createBranch branchName baseBranch => "Create branch '" ++ branchName ++ "' from '" ++ baseBranch ++ "'"
  | .rebaseToMain baseBranch => "Rebase to " ++ baseBranch

namespace BuiltinAction

/-- The values of an action as texts. -/
def values : BuiltinAction → List (String × String)
  | selectOption optionId reason => [("option_id", optionId), ("reason", reason)]
  | reflect prompt => [("prompt", prompt)]
  | confirmCompletion submitPr nextTaskId =>
      ("submit_pr", toString submitPr) :: (nextTaskId.map ("next_task_id", ·)).toList
  | continueAction prompt focusItems => ("prompt", prompt) :: focusItems.map ("focus_items", ·)
  | retry prompt cooldownMs adjusted =>
      [("prompt", prompt), ("cooldown_ms", toString cooldownMs.toNat), ("adjusted", toString adjusted)]
  | requestHuman message => [("message", message)]
  | customInstruction instruction => [("instruction", instruction)]
  | continueAllTasks instruction => [("instruction", instruction)]
  | stopIfComplete reason => [("reason", reason)]
  | wakeUp => []
  | commitChanges commitMessage isWip worktreePath =>
      [("commit_message", commitMessage), ("is_wip", toString isWip)] ++
        (worktreePath.map ("worktree_path", ·)).toList
  | stashChanges description includeUntracked worktreePath =>
      [("description", description), ("include_untracked", toString includeUntracked)] ++
        (worktreePath.map ("worktree_path", ·)).toList
  | discardChanges worktreePath => (worktreePath.map ("worktree_path", ·)).toList
  | createTaskBranch branchName baseBranch worktreePath =>
      [("branch_name", branchName), ("base_branch", baseBranch)] ++
        (worktreePath.map ("worktree_path", ·)).toList
  | rebaseToMain baseBranch => [("base_branch", baseBranch)]
  | prepareTaskStart taskMeta preActions worktreePath =>
      [("task_id", taskMeta.taskId), ("branch_name", taskMeta.branchName), ("summary", taskMeta.summary),
        ("original_description", taskMeta.originalDescription),
        ("task_type", taskMeta.taskType.branchPrefix), ("created_at", taskMeta.createdAt)] ++
        preActions.map (fun action => ("pre_actions", action.summary)) ++
        (worktreePath.map ("worktree_path", ·)).toList
  | suggestCommit suggestedMessage mandatory reason =>
      [("suggested_message", suggestedMessage), ("mandatory", toString mandatory), ("reason", reason)]
  | preparePr title description baseBranch asDraft =>
      [("title", title), ("description", description), ("base_branch", baseBranch),
        ("as_draft", toString asDraft)]

/-- `Box<dyn DecisionAction>`. -/
def boxed (a : BuiltinAction) : DecisionAction where
  actionType := a.actionType
  params := a.values

end BuiltinAction

/-- `SelectOptionAction::parse`. -/
def parseSelectOption (output : String) : Option BuiltinAction :=
  let lines := textLines output
  let value (line : String) : String :=
    trim (String.ofList ((line.toList.splitOn ':')[1]?.getD []))
  if lines.length < 2 then none
  else do
    let optionLine ← lines.find? (startsWith · "Selection:")
    let reasonLine ← lines.find? (startsWith · "Reason:")
    let optionId := (value optionLine).toList.filter (fun c => c ≠ '[' ∧ c ≠ ']')
    return .selectOption (String.ofList optionId) (value reasonLine)

/-- The registry that `register_action_builtins` has filled. -/
def builtinRegistry [JsonText] : ActionRegistry where
  get type := (registeredActions.find? (·.actionType = type)).map BuiltinAction.boxed
  parse type output :=
    if type = ⟨"select_option"⟩ then (parseSelectOption output).map BuiltinAction.boxed else none
  deserialize type text := (deserializeBuiltin type text).map BuiltinAction.boxed

/-! ## The types of what is read -/

theorem struct_some {count : Nat} {read : Json → Option BuiltinAction} {v : Json} {a : BuiltinAction}
    (made : Json.struct count read v = some a) : read v = some a := by
  cases v with
  | object fields => exact made
  | array items =>
      rw [Json.struct] at made
      split at made
      · exact made
      · cases made
  | _ => cases made

theorem reader_type {type : ActionType} {read : Json → Option BuiltinAction}
    (registered : (type, read) ∈ deserializers) {v : Json} {a : BuiltinAction} (made : read v = some a) :
    a.actionType = type := by
  simp only [deserializers, List.mem_cons, Prod.mk.injEq, List.not_mem_nil, or_false] at registered
  rcases registered with ⟨rfl, rfl⟩ | ⟨rfl, rfl⟩ | ⟨rfl, rfl⟩ | ⟨rfl, rfl⟩ | ⟨rfl, rfl⟩ | ⟨rfl, rfl⟩ |
    ⟨rfl, rfl⟩ | ⟨rfl, rfl⟩ | ⟨rfl, rfl⟩ | ⟨rfl, rfl⟩ | ⟨rfl, rfl⟩ | ⟨rfl, rfl⟩ | ⟨rfl, rfl⟩ | ⟨rfl, rfl⟩
  all_goals
    have built := struct_some made
    simp only [Option.bind_eq_bind, Option.bind_eq_some_iff, Option.pure_def, Option.some.injEq] at built
    grind [BuiltinAction.actionType]

theorem optional_injective {key : String} {text text' : Option String}
    (same : (text.map (key, ·)).toList = (text'.map (key, ·)).toList) : text = text' := by
  cases text <;> cases text' <;> grind

theorem boolText_injective {b b' : Bool} (same : toString b = toString b') : b = b' := by
  cases b <;> cases b' <;> first | rfl | exact absurd same (by decide)

theorem natText_injective {n n' : UInt64} (same : toString n.toNat = toString n'.toNat) : n = n' :=
  UInt64.toNat_inj.mp (Numeral.named_injective "" (by simpa using same))

theorem repeated_injective {key : String} {texts texts' : List String}
    (same : texts.map (key, ·) = texts'.map (key, ·)) : texts = texts' :=
  List.map_injective_iff.mpr (Prod.mk_right_injective key) same

/-- Nothing is lost of an action in its box, but of the metadata of a task. -/
theorem boxed_injective {a b : BuiltinAction} (noTask : a.actionType ≠ ⟨"prepare_task_start"⟩)
    (same : a.boxed = b.boxed) : a = b := by
  have types : a.actionType.name = b.actionType.name := congrArg (·.actionType.name) same
  have values : a.values = b.values := congrArg DecisionAction.params same
  cases a <;> cases b <;> first
    | (exfalso; revert types; simp only [BuiltinAction.actionType]; decide)
    | simp only [BuiltinAction.values] at values
  all_goals first
    | exact absurd rfl noTask
    | grind [optional_injective, boolText_injective, natText_injective, repeated_injective]

/-! ## Documented responses -/

/-- A text without a line break. -/
def OneLine (s : String) : Prop := '\n' ∉ s.toList ∧ '\r' ∉ s.toList

def parametersLine : Option String → String
  | some parameters => "PARAMETERS: " ++ parameters ++ "\n"
  | none => ""

/-- The output format of the prompt, with the line of the parameters or without it. -/
def documentedResponse (type : ActionType) (parameters : Option String) (reasoning confidence : String) :
    String :=
  "ACTION: " ++ type.name ++ "\n" ++ (parametersLine parameters ++
    ("REASONING: " ++ reasoning ++ "\n" ++ ("CONFIDENCE: " ++ confidence)))

theorem textLines_cons {line : String} (oneLine : OneLine line) (rest : String) :
    textLines (line ++ "\n" ++ rest) = line :: textLines rest := by
  have whole : (line ++ "\n" ++ rest).toList = line.toList ++ '\n' :: rest.toList := by simp
  have last : line.toList.getLast? ≠ some '\r' := fun ends =>
    oneLine.2 (List.mem_of_getLast? ends)
  rw [textLines, whole, linesFrom_line [] rest.toList oneLine.1 last]
  simp [textLines]

theorem textLines_last {line : String} (oneLine : OneLine line) (something : line ≠ "") :
    textLines line = [line] := by
  have nonempty : line.toList.reverse ≠ [] := by simpa using something
  have inner := linesFrom_inner [] [] oneLine.1 oneLine.2
  rw [List.append_nil, List.append_nil] at inner
  rw [textLines, inner]
  cases back : line.toList.reverse with
  | nil => exact absurd back nonempty
  | cons c cs =>
      rw [linesFrom, ← back, List.reverse_reverse]
      · simp
      · simp

/-- A text that neither begins nor ends with a blank. -/
structure Solid (s : String) : Prop where
  something : s ≠ ""
  first : ∀ c ∈ s.toList.head?, isWhitespace c = false
  last : ∀ c ∈ s.toList.getLast?, isWhitespace c = false

theorem Solid.of_ends {s : String} {c d : Char} (head : s.toList.head? = some c)
    (getLast : s.toList.getLast? = some d) (first : isWhitespace c = false)
    (last : isWhitespace d = false) : Solid s := by
  refine ⟨?_, ?_, ?_⟩
  · intro empty
    rw [empty] at head
    cases head
  · intro x member
    cases head.symm.trans member
    exact first
  · intro x member
    cases getLast.symm.trans member
    exact last

/-- The field of a line. -/
def lineField (line fieldName : String) : Option String :=
  if startsWith (trim line) (fieldName ++ ":") then
    some (trim (String.ofList ((trim line).toList.drop (fieldName.length + 1))))
  else none

theorem extractField_eq (response fieldName : String) :
    extractField response fieldName = (textLines response).findSome? (lineField · fieldName) := rfl

theorem lineField_written {label fieldName value : String} (written : label = fieldName ++ ": ")
    (name : Solid fieldName) (solid : Solid value) : lineField (label ++ value) fieldName = some value := by
  subst written
  have nameSomething : fieldName.toList ≠ [] := by simpa using name.something
  have something : value.toList ≠ [] := by simpa using solid.something
  have whole : (fieldName ++ ": " ++ value).toList = fieldName.toList ++ ':' :: ' ' :: value.toList := by
    simp
  have kept : trim (fieldName ++ ": " ++ value) = fieldName ++ ": " ++ value := by
    rw [← String.ofList_toList (s := fieldName ++ ": " ++ value), whole]
    apply trim_of_ends
    · rw [List.head?_append_of_ne_nil _ nameSomething]
      exact name.first
    · have ends : (fieldName.toList ++ ':' :: ' ' :: value.toList).getLast? = value.toList.getLast? := by
        grind
      rw [ends]
      exact solid.last
  have starts : startsWith (fieldName ++ ": " ++ value) (fieldName ++ ":") = true := by
    rw [startsWith, List.isPrefixOf_iff_prefix, whole]
    exact ⟨' ' :: value.toList, by simp⟩
  have rest : (fieldName ++ ": " ++ value).toList.drop (fieldName.length + 1) = ' ' :: value.toList := by
    rw [whole, ← String.length_toList, List.drop_append]
    simp
  have blank : isWhitespace ' ' = true := by decide
  have trimmed : trim (String.ofList (' ' :: value.toList)) = value := by
    have inner := trim_of_ends solid.first solid.last
    rw [trim, String.toList_ofList] at inner ⊢
    rw [List.dropWhile_cons, blank, if_pos rfl, inner, String.ofList_toList]
  rw [lineField, kept, starts, if_pos rfl, rest, trimmed]

theorem startsWith_head {s pattern : String} {c : Char} (head : pattern.toList.head? = some c)
    (found : startsWith s pattern = true) : s.toList.head? = some c := by
  rw [startsWith, List.isPrefixOf_iff_prefix] at found
  obtain ⟨rest, whole⟩ := found
  rw [← whole, List.head?_append, head]
  rfl

/-- A line that begins with another character has not the field. -/
theorem lineField_none {line fieldName : String} {c d : Char} (starts : line.toList.head? = some c)
    (solid : isWhitespace c = false) (name : fieldName.toList.head? = some d) (other : c ≠ d) :
    lineField line fieldName = none := by
  have unchanged : line.toList.dropWhile isWhitespace = line.toList :=
    dropWhile_id (by rw [starts]; simpa using solid)
  have front : (trim line).toList <+: line.toList := by
    rw [trim, String.toList_ofList, unchanged]
    exact List.rdropWhile_prefix isWhitespace line.toList
  rw [lineField, if_neg]
  intro found
  have label : (fieldName ++ ":").toList.head? = some d := by
    rw [String.toList_append, List.head?_append, name]
    rfl
  obtain ⟨rest, whole⟩ := front
  have first := startsWith_head label found
  have same : line.toList.head? = some d := by
    rw [← whole, List.head?_append, first]
    rfl
  exact other (Option.some.inj (starts.symm.trans same))

/-- A name: no blank anywhere. -/
structure Unbroken (s : String) : Prop where
  something : s ≠ ""
  chars : s.toList.all (!isWhitespace ·) = true

theorem Unbroken.solid {s : String} (unbroken : Unbroken s) : Solid s where
  something := unbroken.something
  first c member := by
    have inner := List.all_eq_true.mp unbroken.chars c (List.mem_of_head? member)
    simpa using inner
  last c member := by
    have inner := List.all_eq_true.mp unbroken.chars c (List.mem_of_getLast? member)
    simpa using inner

theorem Unbroken.oneLine {s : String} (unbroken : Unbroken s) : OneLine s := by
  have inner := List.all_eq_true.mp unbroken.chars
  constructor
  · exact fun member => absurd (inner _ member) (by decide)
  · exact fun member => absurd (inner _ member) (by decide)

theorem OneLine.append {s t : String} (first : OneLine s) (second : OneLine t) : OneLine (s ++ t) := by
  rw [OneLine, String.toList_append, List.mem_append, List.mem_append]
  exact ⟨fun member => member.elim first.1 second.1, fun member => member.elim first.2 second.2⟩

theorem BuiltinAction.name_unbroken (a : BuiltinAction) : Unbroken a.actionType.name := by
  cases a <;> exact ⟨by simp only [actionType]; decide, by simp only [actionType]; decide⟩

theorem action_unbroken : Unbroken "ACTION" := ⟨by decide, by decide⟩

theorem parameters_unbroken : Unbroken "PARAMETERS" := ⟨by decide, by decide⟩

theorem label_oneLine {label : String} (plain : label.toList.all (fun c => c ≠ '\n' ∧ c ≠ '\r')) :
    OneLine label := by
  have inner := List.all_eq_true.mp plain
  exact ⟨fun member => absurd (inner _ member) (by decide), fun member => absurd (inner _ member) (by decide)⟩

theorem documented_lines {type : ActionType} (name : Unbroken type.name) (parameters : Option String)
    (reasoning confidence : String) :
    textLines (documentedResponse type parameters reasoning confidence) = ("ACTION: " ++ type.name) ::
      textLines (parametersLine parameters ++
        ("REASONING: " ++ reasoning ++ "\n" ++ ("CONFIDENCE: " ++ confidence))) :=
  textLines_cons ((label_oneLine (by decide)).append name.oneLine) _

theorem extract_action {type : ActionType} (name : Unbroken type.name) (parameters : Option String)
    (reasoning confidence : String) :
    extractField (documentedResponse type parameters reasoning confidence) "ACTION" = some type.name := by
  have written : lineField ("ACTION: " ++ type.name) "ACTION" = some type.name :=
    lineField_written (by decide) action_unbroken.solid name.solid
  rw [extractField_eq, documented_lines name, List.findSome?_cons, written]

theorem action_without_parameters (value : String) : lineField ("ACTION: " ++ value) "PARAMETERS" = none :=
  lineField_none (c := 'A') (d := 'P') (by simp) (by decide) (by decide) (by decide)

theorem extract_parameters {type : ActionType} (name : Unbroken type.name) {parameters : String}
    (solid : Solid parameters) (oneLine : OneLine parameters) (reasoning confidence : String) :
    extractField (documentedResponse type (some parameters) reasoning confidence) "PARAMETERS" =
      some parameters := by
  have written : lineField ("PARAMETERS: " ++ parameters) "PARAMETERS" = some parameters :=
    lineField_written (by decide) parameters_unbroken.solid solid
  have line : OneLine ("PARAMETERS: " ++ parameters) := (label_oneLine (by decide)).append oneLine
  rw [extractField_eq, documented_lines name, List.findSome?_cons, action_without_parameters,
    parametersLine, textLines_cons line, List.findSome?_cons, written]

/-- The lines of a response without parameters. -/
theorem omitted_lines {type : ActionType} (name : Unbroken type.name) {reasoning confidence : String}
    (explained : OneLine reasoning) (sure : OneLine confidence) :
    textLines (documentedResponse type none reasoning confidence) =
      ["ACTION: " ++ type.name, "REASONING: " ++ reasoning, "CONFIDENCE: " ++ confidence] := by
  have reasons : OneLine ("REASONING: " ++ reasoning) := (label_oneLine (by decide)).append explained
  have confides : OneLine ("CONFIDENCE: " ++ confidence) := (label_oneLine (by decide)).append sure
  have something : "CONFIDENCE: " ++ confidence ≠ "" := by simp
  rw [documented_lines name, parametersLine, String.empty_append, textLines_cons reasons,
    textLines_last confides something]

theorem extract_omitted {type : ActionType} (name : Unbroken type.name) {reasoning confidence : String}
    (explained : OneLine reasoning) (sure : OneLine confidence) :
    extractField (documentedResponse type none reasoning confidence) "PARAMETERS" = none := by
  have reasons : lineField ("REASONING: " ++ reasoning) "PARAMETERS" = none :=
    lineField_none (c := 'R') (d := 'P') (by simp) (by decide) (by decide) (by decide)
  have confides : lineField ("CONFIDENCE: " ++ confidence) "PARAMETERS" = none :=
    lineField_none (c := 'C') (d := 'P') (by simp) (by decide) (by decide) (by decide)
  rw [extractField_eq, omitted_lines name explained sure]
  simp only [List.findSome?_cons, action_without_parameters, reasons, confides, List.findSome?_nil]

theorem omitted_no_selection {type : ActionType} (name : Unbroken type.name)
    {reasoning confidence : String} (explained : OneLine reasoning) (sure : OneLine confidence) :
    parseSelectOption (documentedResponse type none reasoning confidence) = none := by
  have starts {line : String} {c : Char} (first : line.toList.head? = some c) (other : c ≠ 'S') :
      startsWith line "Selection:" = false := by
    rw [Bool.eq_false_iff]
    intro found
    have head := startsWith_head (c := 'S') (by decide) found
    exact other (Option.some.inj (first.symm.trans head))
  have actions : startsWith ("ACTION: " ++ type.name) "Selection:" = false :=
    starts (c := 'A') (by simp) (by decide)
  have reasons : startsWith ("REASONING: " ++ reasoning) "Selection:" = false :=
    starts (c := 'R') (by simp) (by decide)
  have confides : startsWith ("CONFIDENCE: " ++ confidence) "Selection:" = false :=
    starts (c := 'C') (by simp) (by decide)
  rw [parseSelectOption, omitted_lines name explained sure]
  simp only [List.find?_cons, actions, reasons, confides, List.find?_nil]
  rfl

theorem deserializeBuiltin_type [JsonText] {type : ActionType} {text : String} {a : BuiltinAction}
    (read : deserializeBuiltin type text = some a) : a.actionType = type := by
  obtain ⟨reader, registered, read⟩ := Option.bind_eq_some_iff.mp read
  obtain ⟨v, -, made⟩ := Option.bind_eq_some_iff.mp read
  obtain ⟨before, after, whole, -⟩ := List.lookup_eq_some_iff.mp registered
  refine reader_type ?_ made
  rw [whole]
  exact List.mem_append_right before List.mem_cons_self

theorem parseSelectOption_type {output : String} {a : BuiltinAction}
    (parsed : parseSelectOption output = some a) : a.actionType = ⟨"select_option"⟩ := by
  rw [parseSelectOption] at parsed
  split at parsed
  · cases parsed
  · simp only [Option.bind_eq_bind, Option.bind_eq_some_iff, Option.pure_def, Option.some.injEq] at parsed
    obtain ⟨_, -, _, -, rfl⟩ := parsed
    rfl

theorem not_persistable_types {a : BuiltinAction} (lost : ¬ Persistable a) :
    a.actionType ≠ ⟨"select_option"⟩ ∧ a.actionType ≠ ⟨"custom_instruction"⟩ := by
  cases a with
  | wakeUp | discardChanges path | createTaskBranch branch base path | rebaseToMain base
  | prepareTaskStart task actions path => exact ⟨by simp [BuiltinAction.actionType],
      by simp [BuiltinAction.actionType]⟩
  | _ => exact absurd trivial lost

/-! ## The actions of a response -/

section

variable [Unicode] [JsonText]

/-- What the structured path makes of a response. -/
def decoded (response : String) : Option BuiltinAction :=
  (extractField response "ACTION").bind fun name =>
    let type : ActionType := ⟨Unicode.toLowercase name⟩
    (deserializeBuiltin type ((extractField response "PARAMETERS").getD "")).or
      (if type = ⟨"select_option"⟩ then parseSelectOption response else none)

theorem parseStructuredResponse_eq (response : String) :
    parseStructuredResponse response builtinRegistry = ((decoded response).map (·.boxed)).toList := by
  rw [parseStructuredResponse, decoded]
  cases extractField response "ACTION" with
  | none => rfl
  | some name =>
      rw [Option.bind_some, Option.map_or]
      change (Option.or (Option.map _ _) (if _ then Option.map _ _ else none)).toList = _
      split <;> simp_all

theorem decoded_type {response : String} {a : BuiltinAction} (found : decoded response = some a) :
    ∃ name, extractField response "ACTION" = some name ∧ a.actionType = ⟨Unicode.toLowercase name⟩ := by
  obtain ⟨name, action, found⟩ := Option.bind_eq_some_iff.mp found
  refine ⟨name, action, ?_⟩
  rcases Option.or_eq_some_iff.mp found with read | ⟨-, parsed⟩
  · exact deserializeBuiltin_type read
  · split at parsed
    · next choice => exact (parseSelectOption_type parsed).trans choice.symm
    · cases parsed

theorem parse_decoded {response : String} {a : BuiltinAction} (found : decoded response = some a)
    (situation : DecisionSituation) :
    parseResponseInternal response situation builtinRegistry = .ok [a.boxed] := by
  rw [parseResponseInternal, parseStructuredResponse_eq, found]
  rfl

/-- Without the structured path an option is selected, if that is offered, or the response itself is the
    instruction. -/
theorem parse_undecoded {response : String} (nothing : decoded response = none)
    {situation : DecisionSituation} {actions : List DecisionAction}
    (parsed : parseResponseInternal response situation builtinRegistry = .ok actions) :
    ∃ action, actions = [action] ∧ (action.actionType = ⟨"custom_instruction"⟩ ∨
      action.actionType = ⟨"select_option"⟩ ∧ ⟨"select_option"⟩ ∈ situation.availableActions ∧
        (parseSelectOption response).isSome) := by
  rw [parseResponseInternal, parseStructuredResponse_eq, nothing, Option.map_none, Option.toList_none] at parsed
  cases offered : situation.availableActions.findSome? (builtinRegistry.parse · response) with
  | some action =>
      simp only [offered] at parsed
      obtain ⟨type, available, made⟩ := List.exists_of_findSome?_eq_some offered
      change (if type = ⟨"select_option"⟩ then (parseSelectOption response).map (·.boxed) else none) =
        some action at made
      split at made
      · next choice =>
          obtain ⟨a, selected, boxed⟩ := Option.map_eq_some_iff.mp made
          rw [choice] at available
          refine ⟨action, (Except.ok.inj parsed).symm, .inr ⟨?_, available, by rw [selected]; rfl⟩⟩
          rw [← boxed]
          exact parseSelectOption_type selected
      · cases made
  | none =>
      simp only [offered, parseCustomInstruction] at parsed
      split at parsed
      · exact ⟨_, (Except.ok.inj parsed).symm, .inl rfl⟩
      · cases parsed

/-- An action that the situation offers, or a custom instruction. -/
def Offered (situation : DecisionSituation) (type : ActionType) : Prop :=
  type ∈ situation.availableActions ∨ type = ⟨"custom_instruction"⟩

/-- Nothing comes out of a response but what is offered. -/
def OnlyOffered (situation : DecisionSituation) (response : String) : Prop :=
  ∀ actions, parseResponseInternal response situation builtinRegistry = .ok actions →
    ∀ action ∈ actions, Offered situation action.actionType

/-- The type that the response names is offered, if the registry makes anything of it. -/
def NamesOffered (situation : DecisionSituation) (response : String) : Prop :=
  ∀ name, extractField response "ACTION" = some name → (decoded response).isSome →
    Offered situation ⟨Unicode.toLowercase name⟩

theorem onlyOffered_iff (situation : DecisionSituation) (response : String) :
    OnlyOffered situation response ↔ NamesOffered situation response := by
  cases found : decoded response with
  | some a =>
      obtain ⟨name, action, type⟩ := decoded_type found
      have parsed := parse_decoded found situation
      constructor
      · intro only name' action' _
        cases action.symm.trans action'
        rw [← type]
        exact only _ parsed a.boxed List.mem_cons_self
      · intro named actions result x member
        cases parsed.symm.trans result
        rw [List.mem_singleton.mp member]
        have offered := named name action (by rw [found]; rfl)
        rwa [← type] at offered
  | none =>
      constructor
      · intro _ name _ some_action
        rw [found] at some_action
        cases some_action
      · intro _ actions result x member
        obtain ⟨action, rfl, types⟩ := parse_undecoded found result
        rw [List.mem_singleton.mp member]
        rcases types with custom | ⟨choice, available, -⟩
        · exact .inr custom
        · exact .inl (choice ▸ available)

/-- What is documented of how JSON is written, and that it is read again. -/
structure WrittenInLine (a : BuiltinAction) : Prop where
  readBack : ReadBack a
  solid : Solid a.serializeParams
  oneLine : OneLine a.serializeParams

/-- Lower-casing leaves the names of the types. -/
def NamesLower : Prop := ∀ a : BuiltinAction, Unicode.toLowercase a.actionType.name = a.actionType.name

/-- The parameters of a response in the documented format. They are there, or there are none to give; a
    custom instruction has always its text to give. -/
inductive Documented (a : BuiltinAction) : Option String → Prop where
  | written : Documented a (some a.serializeParams)
  | omitted (noText : a.actionType ≠ ⟨"custom_instruction"⟩) : Documented a none

/-- A response in the documented format comes to the action and nothing else. -/
def Yields (situation : DecisionSituation) (a : BuiltinAction) (parameters : Option String)
    (reasoning confidence : String) : Prop :=
  parseResponseInternal (documentedResponse a.actionType parameters reasoning confidence) situation
    builtinRegistry = .ok [a.boxed]

theorem written_yields_iff (lowered : NamesLower) {a : BuiltinAction} (inLine : WrittenInLine a)
    (situation : DecisionSituation) (reasoning confidence : String) :
    Yields situation a (some a.serializeParams) reasoning confidence ↔ Persistable a := by
  have name := a.name_unbroken
  have structured :
      decoded (documentedResponse a.actionType (some a.serializeParams) reasoning confidence) =
        (deserializeBuiltin a.actionType a.serializeParams).or
          (if a.actionType = ⟨"select_option"⟩ then
            parseSelectOption (documentedResponse a.actionType (some a.serializeParams) reasoning confidence)
          else none) := by
    rw [decoded, extract_action name, extract_parameters name inLine.solid inLine.oneLine,
      Option.bind_some, lowered a]
    rfl
  constructor
  · intro yields
    by_contra lost
    have types := not_persistable_types lost
    rw [if_neg types.1, Option.or_none] at structured
    cases read : deserializeBuiltin a.actionType a.serializeParams with
    | some b =>
        rw [read] at structured
        have same := (parse_decoded structured situation).symm.trans yields
        have boxes : b.boxed = a.boxed := (List.cons.inj (Except.ok.inj same)).1
        have noTask : b.actionType ≠ ⟨"prepare_task_start"⟩ := by
          rw [deserializeBuiltin_type read]
          intro task
          rw [task, deserializeBuiltin_none rfl] at read
          cases read
        cases boxed_injective noTask boxes
        exact deserialize_not_persistable inLine.readBack lost read
    | none =>
        rw [read] at structured
        obtain ⟨action, same, result⟩ := parse_undecoded structured yields
        obtain ⟨rfl, -⟩ := List.cons.inj same
        rcases result with custom | ⟨choice, -⟩
        · exact types.2 custom
        · exact types.1 choice
  · intro persistable
    rw [deserialize_persistable inLine.readBack persistable] at structured
    exact parse_decoded structured situation

theorem omitted_yields_nothing (lowered : NamesLower) (empty : JsonText.fromStr "" = none)
    {a : BuiltinAction} (noText : a.actionType ≠ ⟨"custom_instruction"⟩) (situation : DecisionSituation)
    {reasoning confidence : String} (explained : OneLine reasoning) (sure : OneLine confidence) :
    ¬ Yields situation a none reasoning confidence := by
  intro yields
  have name := a.name_unbroken
  have noSelection := omitted_no_selection name explained sure
  have nothing : decoded (documentedResponse a.actionType none reasoning confidence) = none := by
    have noRead : deserializeBuiltin a.actionType "" = none := by
      rw [deserializeBuiltin, empty]
      cases deserializers.lookup a.actionType <;> rfl
    rw [decoded, extract_action name, extract_omitted name explained sure, Option.bind_some, lowered a,
      noSelection]
    change (deserializeBuiltin a.actionType "").or _ = none
    rw [noRead, Option.none_or, ite_self]
  obtain ⟨action, same, result⟩ := parse_undecoded nothing yields
  obtain ⟨rfl, -⟩ := List.cons.inj same
  rcases result with custom | ⟨-, -, selected⟩
  · exact noText custom
  · rw [noSelection] at selected
    cases selected

theorem parse_response_exact (lowered : NamesLower) (empty : JsonText.fromStr "" = none) :
    (∀ situation response, OnlyOffered situation response ↔ NamesOffered situation response) ∧
      ∀ situation a, a.actionType ∈ situation.availableActions → WrittenInLine a →
        ∀ parameters, Documented a parameters → ∀ reasoning confidence, OneLine reasoning →
          OneLine confidence →
            (Yields situation a parameters reasoning confidence ↔
              Persistable a ∧ parameters = some a.serializeParams) := by
  refine ⟨onlyOffered_iff, ?_⟩
  intro situation a _ inLine parameters documented reasoning confidence explained sure
  cases documented with
  | written =>
      rw [written_yields_iff lowered inLine]
      exact ⟨fun persistable => ⟨persistable, rfl⟩, fun both => both.1⟩
  | omitted noText =>
      have nothing := omitted_yields_nothing lowered empty noText situation explained sure
      exact iff_of_false nothing fun both => absurd both.2.symm (Option.some_ne_none _)

end

section

local instance responsesLower : Unicode := ⟨String.toLower⟩

attribute [local instance] choiceText

theorem names_lower : NamesLower := by
  intro a
  cases a <;> simp only [BuiltinAction.actionType] <;> decide +kernel

theorem choice_in_line : WrittenInLine (.selectOption "B" "smallest change") where
  readBack := choice_readBack
  solid := .of_ends (c := '\x7b') (d := '\x7d') (by decide +kernel) (by decide +kernel) (by decide) (by decide)
  oneLine := ⟨by decide +kernel, by decide +kernel⟩

theorem choice_yields :
    Yields (.waitingForChoice false) (.selectOption "B" "smallest change")
      (some (BuiltinAction.serializeParams (.selectOption "B" "smallest change"))) "two files only" "0.9" :=
  ((parse_response_exact names_lower (by decide +kernel)).2 (.waitingForChoice false)
    (.selectOption "B" "smallest change") (by decide +kernel) choice_in_line _ .written _ _
    ⟨by decide, by decide⟩ ⟨by decide, by decide⟩).mpr ⟨trivial, rfl⟩

/-- A claim of completion is answered with the loss of the work. -/
theorem completion_discards : ¬ ∀ situation response, OnlyOffered situation response := by
  intro always
  have named := (onlyOffered_iff _ _).mp (always (.claimsCompletion 0 2)
    "ACTION: discard_changes\nPARAMETERS: \x7b\x7d\nREASONING: nothing to keep\nCONFIDENCE: 0.9")
  have offered := named "discard_changes" (by decide +kernel) (by decide +kernel)
  have lower : Unicode.toLowercase "discard_changes" = "discard_changes" := by decide +kernel
  rw [lower] at offered
  rcases offered with available | custom
  · exact absurd available (by decide +kernel)
  · exact absurd custom (by decide)

end

end AgileAgent.Decision
