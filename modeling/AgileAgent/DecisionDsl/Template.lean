import AgileAgent.DecisionDsl.Host

/-! # Templates

The context handed to the template engine and the rendering of prompts and of
every string field of a command.
-/

namespace AgileAgent.DecisionDsl

mutual
/-- `blackboard_value_to_minijinja`. -/
def blackboardValueToMinijinja : BlackboardValue → TemplateValue
  | .string s => .string s
  | .integer i => .integer i
  | .float f => .float f
  | .boolean b => .boolean b
  | .list l => .seq (blackboardValuesToMinijinja l)
  | .map m => .map (blackboardFieldsToMinijinja m)
  | .command _ => .string "<command>"
  | .null => .none

def blackboardValuesToMinijinja : List BlackboardValue → List TemplateValue
  | [] => []
  | v :: rest => blackboardValueToMinijinja v :: blackboardValuesToMinijinja rest

def blackboardFieldsToMinijinja : List (String × BlackboardValue) → List (String × TemplateValue)
  | [] => []
  | (key, v) :: rest => (key, blackboardValueToMinijinja v) :: blackboardFieldsToMinijinja rest
end

private def byte (n : UInt8) : TemplateValue := .integer n.toNat

/-- The built-in entries of `to_template_context`, in the order of insertion. -/
def Blackboard.templateFields (bb : Blackboard) : List (String × TemplateValue) :=
  [("task_description", .string bb.taskDescription),
    ("provider_output", .string bb.providerOutput),
    ("context_summary", .string bb.contextSummary),
    ("last_tool_call", match bb.lastToolCall with
      | some tool => .map [("name", .string tool.name), ("input", .string tool.input),
          ("output", .string tool.output)]
      | none => .none),
    ("file_changes", .seq <| bb.fileChanges.map fun fc =>
      .map [("path", .string fc.path), ("change_type", .string fc.changeType)]),
    ("reflection_round", byte bb.reflectionRound),
    ("max_reflection_rounds", byte bb.maxReflectionRounds),
    ("confidence_accumulator", .float bb.confidenceAccumulator),
    ("agent_id", .string bb.agentId),
    ("work_agent_id", .string bb.workAgentId),
    ("current_task_id", .string bb.currentTaskId),
    ("current_story_id", .string bb.currentStoryId),
    ("current_sprint", byte bb.currentSprint),
    ("total_sprints", byte bb.totalSprints),
    ("sprint_goal", .string (bb.currentSprintGoal.getD "")),
    ("sprint_goals", .seq <| bb.sprintGoals.map fun sg =>
      .map [("sprint_number", byte sg.sprintNumber), ("description", .string sg.description)]),
    ("reflection_chain", .seq <| bb.reflectionChain.map fun r =>
      .map [("sprint", byte r.sprint), ("result", .string r.result),
        ("reasoning", .string r.reasoning)]),
    ("decision_chain", .seq <| bb.decisionChain.map fun d =>
      .map [("node_name", .string d.nodeName), ("decision", .string d.decision),
        ("outcome", .string d.outcome)]),
    ("llm_responses", .map <| bb.llmResponses.entries.map fun e => (e.1, .string e.2))]

/-- `to_template_context`: scoped variables overwrite built-in fields, inner
    scopes overwrite outer ones. -/
def Blackboard.toTemplateContext (bb : Blackboard) : TemplateContext :=
  (bb.templateFields ++ bb.iterVariables.map fun e => (e.1, blackboardValueToMinijinja e.2)).foldl
    (fun ctx e => ctx.insert e.1 e.2) ∅

/-- `&s[..n]`: the first `n` bytes, if they end at a character boundary. -/
def takeBytes : Nat → List Char → Option (List Char)
  | 0, _ => some []
  | _ + 1, [] => none
  | n + 1, c :: rest =>
      if c.utf8Size ≤ n + 1 then (takeBytes (n + 1 - c.utf8Size) rest).map (c :: ·) else none

section

variable [Crates]

/-- The template snippet of a syntax error; it panics when byte 100 is inside a character. -/
def templateSnippet (template : String) : Except Fault String :=
  if template.utf8ByteSize > 100 then
    match takeBytes 100 template.toList with
    | some cs => .ok (String.ofList cs ++ "...")
    | none => .error .panic
  else .ok template

def renderPromptTemplate (template : String) (context : TemplateContext) : Except Fault String :=
  match Crates.templateSyntaxError template with
  | some e => do
      let snippet ← templateSnippet template
      .error (.error (.filterError ("template syntax error in '" ++ snippet ++ "': " ++ e)))
  | none =>
      match Crates.renderTemplate template context with
      | .ok text => .ok text
      | .error e => .error (.error (.filterError ("template render error: " ++ e)))

/-- Render an optional field. -/
def renderOptional (context : TemplateContext) : Option String → Except Fault (Option String)
  | some s => some <$> renderPromptTemplate s context
  | none => .ok none

def renderCommandTemplates (command : DecisionCommand) (bb : Blackboard) :
    Except Fault DecisionCommand :=
  let ctx := bb.toTemplateContext
  let render (s : String) : Except Fault String := renderPromptTemplate s ctx
  match command with
  | .agent .approveAndContinue => .ok command
  | .agent (.reflect prompt) => do .ok (.agent (.reflect (← render prompt)))
  | .agent (.sendInstruction prompt targetAgent) => do
      let prompt ← render prompt
      .ok (.agent (.sendInstruction prompt (← render targetAgent)))
  | .agent (.terminate reason) => do .ok (.agent (.terminate (← render reason)))
  | .agent .wakeUp => .ok command
  | .git gc extra => do
      let extra ← renderOptional ctx extra
      match gc with
      | .commit message wip => do .ok (.git (.commit (← render message) wip) extra)
      | .stash description includeUntracked => do
          .ok (.git (.stash (← render description) includeUntracked) extra)
      | .discard => .ok (.git .discard extra)
      | .createBranch name base => do
          let name ← render name
          .ok (.git (.createBranch name (← render base)) extra)
      | .rebase base => do .ok (.git (.rebase (← render base)) extra)
  | .task .confirmCompletion => .ok command
  | .task (.stopIfComplete reason) => do .ok (.task (.stopIfComplete (← render reason)))
  | .task (.prepareStart taskId description) => do
      let taskId ← render taskId
      .ok (.task (.prepareStart taskId (← render description)))
  | .human (.escalate reason context) => do
      let context ← renderOptional ctx context
      .ok (.human (.escalate (← render reason) context))
  | .human (.selectOption optionId) => do .ok (.human (.selectOption (← render optionId)))
  | .human .skipDecision => .ok command
  | .provider (.retryTool toolName args maxAttempts) => do
      let args ← renderOptional ctx args
      .ok (.provider (.retryTool (← render toolName) args maxAttempts))
  | .provider (.switchProvider providerType) => do
      .ok (.provider (.switchProvider (← render providerType)))
  | .provider (.suggestCommit message mandatory reason) => do
      let message ← render message
      .ok (.provider (.suggestCommit message mandatory (← render reason)))
  | .provider (.preparePr title description base draft) => do
      let title ← render title
      let description ← render description
      .ok (.provider (.preparePr title description (← render base) draft))

/-- Text without template markup, and without the line break at its end that the engine
    would take off. -/
def IsPlain (s : String) : Prop :=
  strContains s "\x7b\x7b" = false ∧ strContains s "\x7b%" = false ∧
    strContains s "\x7b#" = false ∧ s.toList.getLast? ≠ some '\n'

/-- The template engine compiles plain text and renders it as it is. -/
def LeavesPlainText : Prop :=
  ∀ s, IsPlain s → Crates.templateSyntaxError s = none ∧
    ∀ context, Crates.renderTemplate s context = .ok s

theorem renderPromptTemplate_plain {s : String} {context : TemplateContext}
    (engine : LeavesPlainText) (plain : IsPlain s) : renderPromptTemplate s context = .ok s := by
  obtain ⟨compiles, renders⟩ := engine s plain
  simp only [renderPromptTemplate, compiles, renders]

/-- A command whose texts render to themselves renders to itself. -/
theorem renderCommandTemplates_of_texts {command : DecisionCommand} {bb : Blackboard}
    (plain : ∀ s ∈ command.texts, renderPromptTemplate s bb.toTemplateContext = .ok s) :
    renderCommandTemplates command bb = .ok command := by
  have optional : ∀ o : Option String, (∀ s ∈ o.toList,
      renderPromptTemplate s bb.toTemplateContext = .ok s) →
      renderOptional bb.toTemplateContext o = .ok o := by
    intro o rendered
    cases o with
    | none => rfl
    | some s => simp only [renderOptional, rendered s (by simp)]; rfl
  rcases command with (_ | _ | _ | _ | _) | ⟨_ | _ | _ | _ | _, extra⟩ | (_ | _ | _) |
    (⟨_, context⟩ | _ | _) | (⟨_, args, _⟩ | _ | _ | _)
  all_goals
    simp_all [DecisionCommand.texts, renderCommandTemplates, bind, Except.bind]

end

end AgileAgent.DecisionDsl
