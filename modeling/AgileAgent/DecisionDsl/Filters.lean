import AgileAgent.ByteCuts
import AgileAgent.CallTree
import AgileAgent.DecisionDsl.Runs

/-! # The filters of the crate

While it renders, the template engine calls the filters that `get_template_env` adds. The
engine is third-party code and always comes to an end; a filter of the crate, or the snippet
in the message about a syntax error, can still end in a panic.
-/

namespace AgileAgent.DecisionDsl

open CallTree ByteCuts

/-! ## The filters -/

/-- `str::replace("--", "-")`: pairs from the left, none of them read twice. -/
def replaceDoubleHyphens : List Char → List Char
  | '-' :: '-' :: rest => '-' :: replaceDoubleHyphens rest
  | c :: rest => c :: replaceDoubleHyphens rest
  | [] => []

/-- `str::trim_matches`. -/
def trimMatches (c : Char) (cs : List Char) : List Char :=
  ((cs.dropWhile (· == c)).reverse.dropWhile (· == c)).reverse

def slugify [Crates] (value : String) : String :=
  let replaced := (Crates.toLowercase value).toList.map fun c =>
    if !Crates.isAlphanumeric c && c != '-' then '-' else c
  String.ofList (trimMatches '-' (replaceDoubleHyphens replaced))

/-- The filter `truncate`: `n` counts bytes, and a cut inside a character panics. -/
def truncate (value : String) (n : Nat) : Except Fault String :=
  match shorten n "..." value with
  | some text => .ok text
  | none => .error .panic

theorem truncate_ok_iff {value : String} {n : Nat} :
    (∃ text, truncate value n = .ok text) ↔ Fits n value := by
  rw [← @shorten_isSome_iff n "..." value, truncate]
  cases shorten n "..." value <;> simp

theorem truncate_panics_iff {value : String} {n : Nat} :
    truncate value n = .error .panic ↔ ¬ Fits n value := by
  rw [← @shorten_isSome_iff n "..." value, truncate]
  cases shorten n "..." value <;> simp

/-- A call of one of the filters with its arguments. -/
inductive FilterCall where
  | slugify (value : String)
  | truncate (value : String) (n : Nat)
  deriving Repr, DecidableEq

namespace FilterCall

def apply [Crates] : FilterCall → Except Fault String
  | .slugify value => .ok (DecisionDsl.slugify value)
  | .truncate value n => DecisionDsl.truncate value n

/-- A text that is to be truncated is short enough or has a boundary there. -/
def Fits : FilterCall → Prop
  | .slugify _ => True
  | .truncate value n => ByteCuts.Fits n value

theorem apply_ok_iff [Crates] (call : FilterCall) : (∃ text, call.apply = .ok text) ↔ call.Fits := by
  cases call with
  | slugify value => simp [apply, Fits]
  | truncate value n => exact truncate_ok_iff

/-- A filter never fails but by a panic. -/
theorem apply_error [Crates] {call : FilterCall} {fault : Fault} (failed : call.apply = .error fault) :
    fault = .panic := by
  cases call with
  | slugify value => cases failed
  | truncate value n =>
      simp only [apply, DecisionDsl.truncate] at failed
      split at failed
      · cases failed
      · exact (Except.error.inj failed).symm

end FilterCall

/-! ## Rendering -/

/-- The engine: whether a template compiles, and how it is rendered, with the filters it calls
    on the way. -/
structure TemplateEngine where
  /-- `Environment::template_from_str`: the error text of a template that does not compile. -/
  templateFromStr : String → Option String
  /-- `Template::render`, or its error text. -/
  render : String → TemplateContext → Body FilterCall String (Except String String)

namespace TemplateEngine

variable [Crates] (engine : TemplateEngine)

/-- `render_prompt_template` with the filters called back. -/
def renderPromptTemplate (template : String) (context : TemplateContext) : Except Fault String :=
  match engine.templateFromStr template with
  | some e => do
      let snippet ← templateSnippet template
      .error (.error (.filterError ("template syntax error in '" ++ snippet ++ "': " ++ e)))
  | none =>
      match (engine.render template context).attempt FilterCall.apply with
      | .error fault => .error fault
      | .ok (.ok text) => .ok text
      | .ok (.error e) => .error (.error (.filterError ("template render error: " ++ e)))

/-- The cuts that rendering a template takes are at boundaries: that of the snippet where the
    template does not compile, and else those of the filters that the engine calls. -/
def CutsFit (template : String) (context : TemplateContext) : Prop :=
  match engine.templateFromStr template with
  | some _ => Fits 100 template
  | none => (engine.render template context).EachCall FilterCall.apply FilterCall.Fits

/-- The engine with these filters is the one that the interpreter calls. -/
structure Realizes : Prop where
  compiles : ∀ template, engine.templateFromStr template = Crates.templateSyntaxError template
  renders : ∀ template context result,
    (engine.render template context).attempt FilterCall.apply = .ok result →
      Crates.renderTemplate template context = result

omit [Crates] in
theorem takeBytes_eq_cut (n : Nat) (cs : List Char) : takeBytes n cs = cut n cs := by
  induction cs generalizing n with
  | nil => cases n <;> rfl
  | cons c rest ih =>
      cases n with
      | zero => rfl
      | succ n => rw [takeBytes, cut, ih]

omit [Crates] in
theorem templateSnippet_eq (template : String) :
    templateSnippet template = match shorten 100 "..." template with
      | some snippet => .ok snippet
      | none => .error .panic := by
  rw [templateSnippet, shorten, takeBytes_eq_cut]
  split
  · cases cut 100 template.toList <;> rfl
  · rfl

omit [Crates] in
theorem templateSnippet_panics_iff {template : String} :
    templateSnippet template = .error .panic ↔ ¬ Fits 100 template := by
  rw [templateSnippet_eq, ← @shorten_isSome_iff 100 "..." template]
  cases shorten 100 "..." template <;> simp

/-- A run of the filters fails only by a panic. -/
theorem attempt_error {body : Body FilterCall String (Except String String)} {fault : Fault}
    (failed : body.attempt FilterCall.apply = .error fault) : fault = .panic := by
  induction body with
  | ret value => cases failed
  | call q next ih =>
      rw [Body.attempt] at failed
      cases applied : q.apply with
      | error e =>
          rw [applied] at failed
          obtain rfl := Except.error.inj failed
          exact FilterCall.apply_error applied
      | ok text =>
          rw [applied] at failed
          exact ih text failed

theorem renderPromptTemplate_panics_iff {template : String} {context : TemplateContext} :
    engine.renderPromptTemplate template context = .error .panic ↔
      ¬ engine.CutsFit template context := by
  rw [renderPromptTemplate, CutsFit]
  cases engine.templateFromStr template with
  | some e =>
      dsimp only
      rw [← templateSnippet_panics_iff]
      cases cutting : templateSnippet template with
      | error fault => simp [bind, Except.bind]
      | ok snippet => simp [bind, Except.bind]
  | none =>
      dsimp only
      rw [← Body.attempt_ok_iff FilterCall.apply_ok_iff]
      cases ran : (engine.render template context).attempt FilterCall.apply with
      | error fault => simp [attempt_error ran]
      | ok result => cases result <;> simp

/-- Rendering a template and truncating a value do not panic, and of the value no more than `n`
    characters are kept. -/
structure CutsSafely (template : String) (context : TemplateContext) (value : String) (n : Nat) :
    Prop where
  renders : engine.renderPromptTemplate template context ≠ .error .panic
  truncates : truncate value n ≠ .error .panic
  keeps : ∀ text, truncate value n = .ok text → ∃ kept, kept <+: value.toList ∧ kept.length ≤ n ∧
    (text = String.ofList kept ∨ text = String.ofList kept ++ "...")

theorem cutsSafely_iff (template : String) (context : TemplateContext) (value : String) (n : Nat) :
    engine.CutsSafely template context value n ↔
      engine.CutsFit template context ∧ Fits n value := by
  constructor
  · intro safely
    exact ⟨not_not.mp (mt engine.renderPromptTemplate_panics_iff.mpr safely.renders),
      not_not.mp (mt truncate_panics_iff.mpr safely.truncates)⟩
  · intro given
    refine ⟨?_, ?_, fun text truncated => ?_⟩
    · exact mt engine.renderPromptTemplate_panics_iff.mp (not_not.mpr given.1)
    · exact mt truncate_panics_iff.mp (not_not.mpr given.2)
    · rw [truncate] at truncated
      split at truncated
      · next shortened =>
          obtain rfl := Except.ok.inj truncated
          exact shorten_keeps shortened
      · cases truncated

end TemplateEngine

section

open Plain

/-- An engine that compiles every template, and renders it as the variable `name`, truncated to
    one. -/
def shortName : TemplateEngine where
  templateFromStr _ := none
  render _ context :=
    match context.lookup "name" with
    | some (.string name) => .call (.truncate name 1) fun text => .ret (.ok text)
    | _ => .ret (.error "undefined value")

/-- The byte that `truncate` counts ends inside the first character. -/
theorem accent_cut_apart : ¬ ∀ (engine : TemplateEngine) (template : String)
    (context : TemplateContext) (value : String) (n : Nat),
    engine.CutsSafely template context value n := by
  intro all
  have apart : ¬ Fits 1 "é" := by decide +kernel
  have safely := all shortName "\x7b\x7b name | truncate(1) \x7d\x7d"
    ((∅ : TemplateContext).insert "name" (.string "é")) "é" 1
  exact safely.renders (shortName.renderPromptTemplate_panics_iff.mpr fun fit => apart fit.1)

end

end AgileAgent.DecisionDsl
