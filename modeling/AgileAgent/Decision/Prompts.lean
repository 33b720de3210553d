import AgileAgent.Decision.TaskEngine
import AgileAgent.Substitution

/-! # Prompt templates

A template is rendered by replacing the placeholders of its variables one after the other. A value that
looks like the placeholder of a later variable is replaced in turn; what the templates are for is
substitution at once.
-/

namespace AgileAgent.Decision

open Substitution

/-- `str::replace`. -/
def strReplace (s pattern value : String) : String :=
  String.ofList (replace pattern.toList value.toList s.toList)

/-- The name in double braces. -/
def placeholder (name : String) : String := "\x7b\x7b" ++ name ++ "\x7d\x7d"

inductive RenderError where
  | missingVariable (name : String)
  deriving Repr, DecidableEq

structure PromptTemplate where
  id : String
  content : String
  /-- The declared variables. -/
  names : List String
  deriving Repr, DecidableEq

namespace PromptTemplate

def render (t : PromptTemplate) (values : String → Option String) : Except RenderError String :=
  t.names.foldlM (fun result name =>
    match values name with
    | some value => .ok (strReplace result (placeholder name) value)
    | none => .error (.missingVariable name)) t.content

def renderWithDefaults (t : PromptTemplate) (values : String → Option String) : String :=
  t.names.foldl (fun result name => strReplace result (placeholder name) ((values name).getD ""))
    t.content

end PromptTemplate

namespace TaskDecisionEngine

def renderTemplate (e : TaskDecisionEngine) (template : String) : String :=
  let result := strReplace template "\x7b\x7btask_description\x7d\x7d" e.task.description
  let result := strReplace result "\x7b\x7btask_constraints\x7d\x7d" (", ".intercalate e.task.constraints)
  let result := strReplace result "\x7b\x7breflection_count\x7d\x7d" (toString e.task.reflectionCount)
  let result := strReplace result "\x7b\x7bmax_reflections\x7d\x7d" (toString e.task.maxReflectionRounds)
  strReplace result "\x7b\x7bcurrent_stage\x7d\x7d" e.currentStage.asStr

end TaskDecisionEngine

/-! ## At once -/

def marker (name : String) : List Char := (placeholder name).toList

/-- The variables of a content are all replaced in one pass. -/
def atOnce (names : List String) (value : String → String) (content : String) : String :=
  String.ofList (simultaneous marker names (fun name => (value name).toList) content.toList)

/-- The values of some variables are in the places of the content where they are declared to stand, and
    nothing else has changed. -/
def putIn (names : List String) (value : String → String) (content : String) (done : List String) : String :=
  String.ofList (fill (soFar marker (fun name => (value name).toList) done)
    (segment marker names content.toList))

/-- One variable after the other. -/
def inTurn (names : List String) (value : String → String) (content : String) : String :=
  names.foldl (fun result name => strReplace result (placeholder name) (value name)) content

theorem inTurn_eq (names : List String) (value : String → String) (content : String) :
    inTurn names value content =
      String.ofList (substituteAll marker (fun name => (value name).toList) names content.toList) := by
  induction names using List.reverseRecOn with
  | nil => exact String.ofList_toList.symm
  | append_singleton done name ih =>
      rw [substituteAll_concat, inTurn, List.foldl_append]
      change strReplace (inTurn done value content) _ _ = _
      rw [ih, strReplace, String.toList_ofList]
      rfl

/-- The placeholder of each variable is found, when it is its turn, where the content has it and nowhere
    else, or it is replaced by itself. -/
def Undisturbed (names : List String) (value : String → String) (content : String) : Prop :=
  Settled marker (fun name => (value name).toList) names (segment marker names content.toList)

/-- The text is the content with all values put in at once, and no variable has touched a value. -/
structure SubstitutedAtOnce (names : List String) (value : String → String) (content text : String) :
    Prop where
  result : text = atOnce names value content
  untouched : ∀ done, done <+: names → inTurn done value content = putIn names value content done

theorem marker_ne_nil (name : String) : marker name ≠ [] := by simp [marker, placeholder]

theorem strReplace_placeholder (name value : String) :
    strReplace (placeholder name) (placeholder name) value = value := by
  have found := @replace_found _ _ (marker name) value.toList (marker_ne_nil name) []
  rw [List.append_nil, replace_nil, List.append_nil] at found
  exact (congrArg String.ofList found).trans String.ofList_toList

theorem strReplace_absent {s pattern : String} (absent : ¬ pattern.toList <:+: s.toList) (value : String) :
    strReplace s pattern value = s := by
  rw [strReplace, replace_absent absent, String.ofList_toList]

/-- A name without braces. -/
def PlainName (name : String) : Prop := '\x7b' ∉ name.toList ∧ '\x7d' ∉ name.toList

theorem marker_eq (name : String) : marker name =
    '\x7b' :: '\x7b' :: (name.toList ++ ['\x7d', '\x7d']) := by
  simp [marker, placeholder]

theorem PlainName.unbordered {name : String} (plain : PlainName name) : Unbordered (marker name) := by
  have noOpen : '\x7b' ∉ name.toList ++ ['\x7d', '\x7d'] := by
    rw [List.mem_append, not_or]
    exact ⟨plain.1, by decide⟩
  intro part isPrefix isSuffix
  rw [marker_eq] at isPrefix isSuffix ⊢
  cases part with
  | nil => exact .inl rfl
  | cons c part =>
      obtain ⟨rfl, opened⟩ := List.cons_prefix_cons.mp isPrefix
      rcases List.suffix_cons_iff.mp isSuffix with whole | isSuffix
      · exact .inr whole
      · rcases List.suffix_cons_iff.mp isSuffix with second | inner
        · -- the name would begin with a brace
          obtain ⟨-, rfl⟩ := List.cons.inj second
          cases rest : name.toList ++ ['\x7d', '\x7d'] with
          | nil => exact absurd rest (by simp)
          | cons d more =>
              rw [rest] at opened noOpen
              obtain ⟨rfl, -⟩ := List.cons_prefix_cons.mp opened
              exact absurd List.mem_cons_self noOpen
        · exact absurd (inner.subset List.mem_cons_self) noOpen

theorem PlainName.eq_of_begins {name other : String} (plain : PlainName name) (plain' : PlainName other)
    (isPrefix : marker name <+: marker other) : name = other := by
  have kept {s : String} (plain : PlainName s) : ∀ c ∈ s.toList, (c != '\x7d') = true := by
    intro c member
    rw [bne_iff_ne]
    intro close
    exact plain.2 (close ▸ member)
  rw [marker_eq, marker_eq] at isPrefix
  obtain ⟨rest, whole⟩ := isPrefix
  have inner : name.toList ++ ['\x7d', '\x7d'] ++ rest = other.toList ++ ['\x7d', '\x7d'] := by
    simpa using whole
  have names := congrArg (List.takeWhile (· != '\x7d')) inner
  rw [List.append_assoc, List.takeWhile_append_of_pos (kept plain),
    List.takeWhile_append_of_pos (kept plain')] at names
  exact String.toList_injective (by simpa using names)

theorem inTurn_putIn {names : List String} {value : String → String} {content : String}
    (undisturbed : Undisturbed names value content) {done : List String} (front : done <+: names) :
    inTurn done value content = putIn names value content done := by
  have filled := substituteAll_fill marker_ne_nil undisturbed front
  rw [fill_segment marker_ne_nil] at filled
  rw [inTurn_eq, filled, putIn]

theorem putIn_all (names : List String) (value : String → String) (content : String) :
    putIn names value content names = atOnce names value content := by
  rw [putIn, fill_soFar, atOnce]

theorem Undisturbed.atOnce {names : List String} {value : String → String} {content : String}
    (undisturbed : Undisturbed names value content) :
    SubstitutedAtOnce names value content (inTurn names value content) where
  result := (inTurn_putIn undisturbed List.prefix_rfl).trans (putIn_all names value content)
  untouched := fun _ front => inTurn_putIn undisturbed front

theorem SubstitutedAtOnce.undisturbed {names : List String} {value : String → String}
    {content text : String} (substituted : SubstitutedAtOnce names value content text)
    (unbordered : ∀ name ∈ names, Unbordered (marker name)) : Undisturbed names value content := by
  apply (substituteAll_fill_iff marker_ne_nil unbordered _).mp
  intro done front
  have same := substituted.untouched done front
  rw [inTurn_eq, putIn] at same
  rw [fill_segment marker_ne_nil]
  exact String.ofList_injective same

theorem atOnce_perm {names names' : List String} (plain : ∀ name ∈ names, PlainName name)
    (same : names.Perm names') (value : String → String) (content : String) :
    atOnce names value content = atOnce names' value content := by
  have free : PrefixFree marker names := fun name member other member' isPrefix =>
    (plain name member).eq_of_begins (plain other member') isPrefix
  rw [atOnce, atOnce, simultaneous_perm free same]

namespace PromptTemplate

/-- A variable without a value stands for nothing. -/
def valueOf (values : String → Option String) (name : String) : String := (values name).getD ""

theorem renderWithDefaults_eq (t : PromptTemplate) (values : String → Option String) :
    t.renderWithDefaults values = inTurn t.names (valueOf values) t.content := rfl

/-- A template is rendered if all its variables have values; else the first without one is named. -/
theorem render_eq (t : PromptTemplate) (values : String → Option String) :
    t.render values = match t.names.find? fun name => (values name).isNone with
      | some name => .error (.missingVariable name)
      | none => .ok (t.renderWithDefaults values) := by
  obtain ⟨id, content, names⟩ := t
  rw [render, renderWithDefaults]
  induction names generalizing content with
  | nil => rfl
  | cons name names ih =>
      cases found : values name with
      | none =>
          rw [List.foldlM_cons, found, List.find?_cons_of_pos (by simp [found])]
          rfl
      | some value =>
          rw [List.foldlM_cons, List.foldl_cons, found, List.find?_cons_of_neg (by simp [found])]
          exact ih (strReplace content (placeholder name) value)

theorem render_of_present {t : PromptTemplate} {values : String → Option String}
    (present : ∀ name ∈ t.names, (values name).isSome) : t.render values = .ok (t.renderWithDefaults values) := by
  have none : t.names.find? (fun name => (values name).isNone) = none := by
    rw [List.find?_eq_none]
    intro name member missing
    rw [Option.isNone_iff_eq_none] at missing
    exact absurd (present name member) (by simp [missing])
  rw [render_eq, none]

end PromptTemplate

namespace TaskDecisionEngine

/-- The variables of the prompts of a task, in the order they are replaced. -/
def templateNames : List String :=
  ["task_description", "task_constraints", "reflection_count", "max_reflections", "current_stage"]

def templateValue (e : TaskDecisionEngine) (name : String) : String :=
  if name = "task_description" then e.task.description
  else if name = "task_constraints" then ", ".intercalate e.task.constraints
  else if name = "reflection_count" then toString e.task.reflectionCount
  else if name = "max_reflections" then toString e.task.maxReflectionRounds
  else if name = "current_stage" then e.currentStage.asStr
  else ""

theorem renderTemplate_eq (e : TaskDecisionEngine) (template : String) :
    e.renderTemplate template = inTurn templateNames e.templateValue template := rfl

/-- A description that looks like a placeholder is taken for one. -/
theorem renderTemplate_stage {e : TaskDecisionEngine}
    (description : e.task.description = placeholder "current_stage") :
    e.renderTemplate (placeholder "task_description") = e.currentStage.asStr := by
  have untouched (name : String) (absent : ¬ marker name <:+: marker "current_stage") (value : String) :
      strReplace (placeholder "current_stage") (placeholder name) value = placeholder "current_stage" :=
    strReplace_absent absent value
  rw [renderTemplate_eq, inTurn, templateNames]
  simp only [List.foldl_cons, List.foldl_nil, strReplace_placeholder]
  rw [templateValue, if_pos rfl, description, untouched _ (by decide +kernel),
    untouched _ (by decide +kernel), untouched _ (by decide +kernel), strReplace_placeholder]
  rfl

theorem templateNames_plain : ∀ name ∈ templateNames, PlainName name := by
  have all : ∀ name ∈ templateNames, '\x7b' ∉ name.toList ∧ '\x7d' ∉ name.toList := by decide +kernel
  exact all

end TaskDecisionEngine

/-- The names of a template do not matter in their order as long as none disturbs another. -/
theorem PromptTemplate.renderWithDefaults_perm {t t' : PromptTemplate} {values : String → Option String}
    (content : t'.content = t.content) (plain : ∀ name ∈ t.names, PlainName name)
    (same : t.names.Perm t'.names) (undisturbed : Undisturbed t.names (valueOf values) t.content)
    (undisturbed' : Undisturbed t'.names (valueOf values) t'.content) :
    t'.renderWithDefaults values = t.renderWithDefaults values := by
  rw [renderWithDefaults_eq, undisturbed'.atOnce.result, content,
    renderWithDefaults_eq, undisturbed.atOnce.result, atOnce_perm plain same]

open PromptTemplate (valueOf)

/-- Prompts are rendered at once exactly if no variable is disturbed by the values before it. -/
theorem rendered_at_once_iff (t : PromptTemplate) (values : String → Option String)
    (e : TaskDecisionEngine) (template : String) :
    (Undisturbed t.names (valueOf values) t.content →
      SubstitutedAtOnce t.names (valueOf values) t.content (t.renderWithDefaults values)) ∧
    ((∀ name ∈ t.names, Unbordered (marker name)) →
      (SubstitutedAtOnce t.names (valueOf values) t.content (t.renderWithDefaults values) ↔
        Undisturbed t.names (valueOf values) t.content)) ∧
    ((∀ name ∈ t.names, (values name).isSome) → t.render values = .ok (t.renderWithDefaults values)) ∧
    (∀ t' : PromptTemplate, t'.content = t.content → (∀ name ∈ t.names, PlainName name) →
      t.names.Perm t'.names → Undisturbed t.names (valueOf values) t.content →
        Undisturbed t'.names (valueOf values) t'.content →
          t'.renderWithDefaults values = t.renderWithDefaults values) ∧
    (SubstitutedAtOnce TaskDecisionEngine.templateNames e.templateValue template (e.renderTemplate template) ↔
      Undisturbed TaskDecisionEngine.templateNames e.templateValue template) := by
  refine ⟨fun undisturbed => undisturbed.atOnce, ?_, fun present => t.render_of_present present, ?_, ?_⟩
  · intro unbordered
    exact ⟨fun substituted => substituted.undisturbed unbordered, fun undisturbed => undisturbed.atOnce⟩
  · intro t' content plain same undisturbed undisturbed'
    exact t.renderWithDefaults_perm content plain same undisturbed undisturbed'
  · constructor
    · intro substituted
      apply substituted.undisturbed
      intro name member
      exact (TaskDecisionEngine.templateNames_plain name member).unbordered
    · exact fun undisturbed => undisturbed.atOnce

/-- The value of `b` has no placeholder in it. -/
def greeting : String → Option String
  | "a" => some "hello"
  | "b" => some "\x7bx\x7d"
  | _ => none

/-- A task whose description is no placeholder, in the first stage of a process. -/
def loginEngine : TaskDecisionEngine :=
  .create ⟨"review", "", [], ⟨"start"⟩, ⟨"complete"⟩⟩ (.create "1" "Add login" [])

theorem greeting_rendered :
    Undisturbed ["a", "b"] (valueOf greeting) "\x7b\x7ba\x7d\x7d \x7b\x7bb\x7d\x7d" ∧
    (PromptTemplate.mk "t" "\x7b\x7ba\x7d\x7d \x7b\x7bb\x7d\x7d" ["a", "b"]).render greeting =
      .ok "hello \x7bx\x7d" ∧
    Undisturbed TaskDecisionEngine.templateNames loginEngine.templateValue
      "\x7b\x7btask_description\x7d\x7d at \x7b\x7bcurrent_stage\x7d\x7d" := by
  have plain : ∀ name ∈ ["a", "b"], '\x7b' ∉ name.toList ∧ '\x7d' ∉ name.toList := by decide +kernel
  have present : ∀ name ∈ ["a", "b"], (greeting name).isSome := by decide +kernel
  have untouched : ∀ done ∈ ["a", "b"].inits,
      inTurn done (valueOf greeting) "\x7b\x7ba\x7d\x7d \x7b\x7bb\x7d\x7d" =
        putIn ["a", "b"] (valueOf greeting) "\x7b\x7ba\x7d\x7d \x7b\x7bb\x7d\x7d" done := by
    decide +kernel
  have untouched' : ∀ done ∈ TaskDecisionEngine.templateNames.inits,
      inTurn done loginEngine.templateValue
          "\x7b\x7btask_description\x7d\x7d at \x7b\x7bcurrent_stage\x7d\x7d" =
        putIn TaskDecisionEngine.templateNames loginEngine.templateValue
          "\x7b\x7btask_description\x7d\x7d at \x7b\x7bcurrent_stage\x7d\x7d" done := by
    decide +kernel
  obtain ⟨-, exact_if, rendered, -, task⟩ := rendered_at_once_iff
    ⟨"t", "\x7b\x7ba\x7d\x7d \x7b\x7bb\x7d\x7d", ["a", "b"]⟩ greeting loginEngine
    "\x7b\x7btask_description\x7d\x7d at \x7b\x7bcurrent_stage\x7d\x7d"
  refine ⟨?_, ?_, ?_⟩
  · apply (exact_if fun name member => PlainName.unbordered (plain name member)).mp
    exact ⟨by decide +kernel, fun done front => untouched done ((List.mem_inits done _).mpr front)⟩
  · rw [rendered present]
    decide +kernel
  · apply task.mp
    exact ⟨by decide +kernel, fun done front => untouched' done ((List.mem_inits done _).mpr front)⟩

/-- The value of `a` looks like the placeholder of `b`. -/
def quoting : String → Option String
  | "a" => some "\x7b\x7bb\x7d\x7d"
  | "b" => some "x"
  | _ => none

/-- The value of a variable is replaced by that of a later one; in the other order it stays. -/
theorem value_replaced_again :
    (PromptTemplate.mk "t" "\x7b\x7ba\x7d\x7d" ["a", "b"]).render quoting = .ok "x" ∧
    (PromptTemplate.mk "t" "\x7b\x7ba\x7d\x7d" ["b", "a"]).render quoting =
      .ok "\x7b\x7bb\x7d\x7d" ∧
    atOnce ["a", "b"] (valueOf quoting) "\x7b\x7ba\x7d\x7d" = "\x7b\x7bb\x7d\x7d" ∧
    (¬ ∀ (t : PromptTemplate) (values : String → Option String),
      SubstitutedAtOnce t.names (valueOf values) t.content (t.renderWithDefaults values)) ∧
    ∀ e : TaskDecisionEngine, e.task.description = placeholder "current_stage" →
      e.renderTemplate (placeholder "task_description") = e.currentStage.asStr := by
  refine ⟨by decide +kernel, by decide +kernel, by decide +kernel, ?_, ?_⟩
  · intro always
    have same := (always ⟨"t", "\x7b\x7ba\x7d\x7d", ["a", "b"]⟩ quoting).result
    exact absurd same (by decide +kernel)
  · intro e description
    exact e.renderTemplate_stage description

end AgileAgent.Decision
