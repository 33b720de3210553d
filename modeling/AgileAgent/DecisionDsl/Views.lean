import AgileAgent.Insertions
import AgileAgent.DecisionDsl.Template

/-! # The two views of a blackboard

Conditions read a value with `get_path`, templates read the context that
`to_template_context` builds. For a path of one component both look among the built-in
fields and the scoped variables, the first with the built-in fields in front, the second
with the variables in front.
-/

namespace AgileAgent.DecisionDsl

open Insertions

theorem blackboardValuesToMinijinja_eq_map (vs : List BlackboardValue) :
    blackboardValuesToMinijinja vs = vs.map blackboardValueToMinijinja := by
  induction vs with
  | nil => rfl
  | cons v rest ih => rw [blackboardValuesToMinijinja, ih, List.map_cons]

theorem blackboardFieldsToMinijinja_eq_map (fields : List (String × BlackboardValue)) :
    blackboardFieldsToMinijinja fields = fields.map fun e => (e.1, blackboardValueToMinijinja e.2) := by
  induction fields with
  | nil => rfl
  | cons field rest ih =>
      obtain ⟨key, v⟩ := field
      rw [blackboardFieldsToMinijinja, ih, List.map_cons]

/-- A key without a dot is one path component. -/
theorem splitDots_of_no_dot {key : String} (plain : '.' ∉ key.toList) : splitDots key = (key, []) := by
  have go (current cs : List Char) (plain : '.' ∉ cs) :
      splitDots.go current cs = (String.ofList (current.reverse ++ cs), []) := by
    induction cs generalizing current with
    | nil => rw [splitDots.go, List.append_nil]
    | cons c rest ih =>
        rw [List.mem_cons, not_or] at plain
        rw [splitDots.go, ih (c :: current) plain.2]
        · simp
        · rintro rfl
          exact plain.1 rfl
  rw [splitDots, go [] key.toList plain, List.reverse_nil, List.nil_append, String.ofList_toList]

namespace Blackboard

theorem getPath_of_no_dot (bb : Blackboard) {key : String} (plain : '.' ∉ key.toList) :
    bb.getPath key = bb.topLevel key := by
  rw [getPath, splitDots_of_no_dot plain]
  cases top : bb.topLevel key with
  | none => simp [top]
  | some v => simp [top]

/-- The fields both views know by name. -/
def builtInFields : List String :=
  ["task_description", "provider_output", "context_summary", "last_tool_call", "file_changes",
    "reflection_round", "max_reflection_rounds", "confidence_accumulator", "agent_id",
    "work_agent_id", "current_task_id", "current_story_id", "current_sprint", "total_sprints",
    "sprint_goal", "sprint_goals", "reflection_chain", "decision_chain", "llm_responses"]

theorem templateFields_keys (bb : Blackboard) : bb.templateFields.map Prod.fst = builtInFields := rfl

theorem builtInFields_nodup : builtInFields.Nodup := by decide

theorem topLevel_of_not_builtIn (bb : Blackboard) {key : String} (other : key ∉ builtInFields) :
    bb.topLevel key = bb.get key := by
  unfold topLevel
  split
  all_goals first
    | rfl
    | exact absurd (by decide) other

/-- What templates see of a built-in field without a value. -/
def absentField : String → Option TemplateValue
  | "last_tool_call" => some .none
  | "sprint_goal" => some (.string "")
  | _ => none

/-- The fields of both views hold the same values. -/
theorem templateFields_lookup (bb : Blackboard) {key : String} (builtIn : key ∈ builtInFields) :
    bb.templateFields.lookup key =
      ((bb.topLevel key).map blackboardValueToMinijinja).or (absentField key) := by
  simp only [builtInFields, List.mem_cons, List.not_mem_nil, or_false] at builtIn
  rcases builtIn with rfl | rfl | rfl | rfl | rfl | rfl | rfl | rfl | rfl | rfl | rfl | rfl | rfl |
    rfl | rfl | rfl | rfl | rfl | rfl
  all_goals simp [templateFields, topLevel, List.lookup_cons, blackboardValueToMinijinja,
    blackboardValuesToMinijinja_eq_map, blackboardFieldsToMinijinja_eq_map, Function.comp_def]
  case inr.inr.inr.inl => cases bb.lastToolCall <;> rfl
  case inr.inr.inr.inr.inr.inr.inr.inr.inr.inr.inr.inr.inr.inr.inl =>
    cases bb.currentSprintGoal <;> rfl
  all_goals first
    | rfl
    | exact fun _ _ => rfl

/-- A variable comes from the innermost scope that has it. -/
theorem lookup_iterVariables (bb : Blackboard) (key : String) :
    bb.iterVariables.reverse.lookup key = bb.get key := by
  have scope (scope : Scope) : (pairs scope).reverse.lookup key = scope.lookup key := by
    rw [lookup_reverse _ key, lookup_pairs]
    rw [pairs_keys]
    exact scope.keys_nodup
  have inner : bb.iterVariables.reverse = bb.scopes.scopes.flatMap fun scope => (pairs scope).reverse := by
    rw [iterVariables, List.reverse_flatMap, List.reverse_reverse]
    rfl
  rw [inner, lookup_flatMap]
  simp only [scope]
  rfl

/-- In templates variables come before built-in fields. -/
theorem toTemplateContext_lookup (bb : Blackboard) (key : String) :
    bb.toTemplateContext.lookup key =
      ((bb.get key).map blackboardValueToMinijinja).or (bb.templateFields.lookup key) := by
  have filled : bb.toTemplateContext = insertAll ∅ (bb.templateFields ++
      bb.iterVariables.map fun e => (e.1, blackboardValueToMinijinja e.2)) := rfl
  have once : (bb.templateFields.map Prod.fst).Nodup := by
    rw [templateFields_keys]
    exact builtInFields_nodup
  rw [filled, lookup_insertAll, AList.lookup_empty, Option.or_none, List.reverse_append,
    List.lookup_append, lookup_reverse once, ← List.map_reverse, lookup_map, lookup_iterVariables]

/-- For a key of one component that is not the name of both a built-in field and a variable,
    templates see what conditions see, and an absent tool call or sprint goal as nothing or
    as the empty text. -/
theorem views_agree (bb : Blackboard) {key : String} (plain : '.' ∉ key.toList)
    (unshadowed : key ∈ builtInFields → bb.get key = none) :
    bb.toTemplateContext.lookup key =
      ((bb.getPath key).map blackboardValueToMinijinja).or (absentField key) := by
  rw [toTemplateContext_lookup, getPath_of_no_dot bb plain]
  by_cases builtIn : key ∈ builtInFields
  · rw [unshadowed builtIn, templateFields_lookup bb builtIn]
    rfl
  · have absent : bb.templateFields.lookup key = none := by
      rw [List.lookup_eq_none_iff]
      intro field member
      rw [bne_iff_ne]
      rintro rfl
      apply builtIn
      rw [← templateFields_keys bb]
      exact List.mem_map_of_mem member
    have ordinary : absentField key = none := by
      unfold absentField
      split
      · exact absurd (by decide) builtIn
      · exact absurd (by decide) builtIn
      · rfl
    rw [topLevel_of_not_builtIn bb builtIn, absent, ordinary]

/-- A variable is the same in both views. -/
theorem variable_views_agree :
    let bb := ({} : Blackboard).set "note" (.string "done")
    bb.toTemplateContext.lookup "note" =
      ((bb.getPath "note").map blackboardValueToMinijinja).or (absentField "note") :=
  views_agree _ (by decide) fun builtIn => absurd builtIn (by decide)

/-- The output of the provider, and a variable of that name. -/
def renamed : Blackboard := ({ providerOutput := "raw" } : Blackboard).set "provider_output" (.string "clean")

/-- The two views differ on a variable with the name of a built-in field, and on the two
    fields that may be absent. -/
theorem views_differ :
    ¬ (∀ (bb : Blackboard) (key : String), '.' ∉ key.toList →
      (bb.getPath key).map blackboardValueToMinijinja = bb.toTemplateContext.lookup key) ∧
    (renamed.getPath "provider_output").map blackboardValueToMinijinja = some (.string "raw") ∧
    renamed.toTemplateContext.lookup "provider_output" = some (.string "clean") ∧
    (renamed.getPath "last_tool_call").map blackboardValueToMinijinja = none ∧
    renamed.toTemplateContext.lookup "last_tool_call" = some .none ∧
    (renamed.getPath "sprint_goal").map blackboardValueToMinijinja = none ∧
    renamed.toTemplateContext.lookup "sprint_goal" = some (.string "") := by
  have raw : (renamed.getPath "provider_output").map blackboardValueToMinijinja = some (.string "raw") := rfl
  have clean : renamed.toTemplateContext.lookup "provider_output" = some (.string "clean") := rfl
  refine ⟨fun same => ?_, raw, clean, rfl, rfl, rfl, rfl⟩
  have one := same renamed "provider_output" (by decide)
  rw [raw, clean] at one
  simp at one

end Blackboard

end AgileAgent.DecisionDsl
