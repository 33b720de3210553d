import AgileAgent.ByteCuts
import AgileAgent.Core.DecisionAgentSlot
import AgileAgent.Decision.LlmEngine

/-! # Previews

The decision agent logs the start of its prompt, the mail shows the start of what it carries,
and the engine takes the start of a response for the reasoning. All of them count bytes, and
none looks where a character ends.
-/

namespace AgileAgent.Core

open ByteCuts
open AgileAgent.Decision (bytePrefix extractField extractReasoning startsWith textLines)
open DecisionDsl (trim)

/-! ## The agent and the mail -/

/-- The preview that `process_request` logs; none where the cut falls inside a character and the
    code panics. -/
def promptPreview (decisionPrompt : String) : Option String :=
  shorten 500 "...[truncated]" decisionPrompt

/-- A text in the `Debug` output of a response. -/
def DecisionResponse.summary (text : String) : Option String := shorten 50 "" text

/-- A field that may be missing. -/
def DecisionResponse.summarize : Option String → Option (Option String)
  | none => some none
  | some text => (summary text).map some

/-- `Debug::fmt`: the response as it is shown. -/
def DecisionResponse.fmt {Output : Type} (r : DecisionResponse Output) : Option (DecisionResponse String) := do
  let decisionPrompt ← summarize r.decisionPrompt
  let thinking ← summarize r.thinking
  return { r with output := r.output.map fun _ => "<DecisionOutput>", decisionPrompt, thinking }

namespace DecisionResponse

variable {Output : Type} {r : DecisionResponse Output}

theorem summarize_isSome_iff {text : Option String} :
    (summarize text).isSome ↔ ∀ s ∈ text, Fits 50 s := by
  cases text with
  | none => simp [summarize]
  | some s => simp [summarize, summary, shorten_isSome_iff]

theorem fmt_isSome_iff :
    r.fmt.isSome ↔ (∀ s ∈ r.decisionPrompt, Fits 50 s) ∧ ∀ s ∈ r.thinking, Fits 50 s := by
  rw [← summarize_isSome_iff, ← summarize_isSome_iff, fmt]
  cases summarize r.decisionPrompt with
  | none => simp
  | some prompt => cases summarize r.thinking <;> simp

end DecisionResponse

/-! ## The engine -/

/-- A line that `extract_reasoning` takes where the response names no reasoning. -/
def isMeaningful (line : String) : Bool :=
  !startsWith (trim line) "ACTION:" && !startsWith (trim line) "PARAMETERS:" &&
    !startsWith (trim line) "CONFIDENCE:" && 10 < (trim line).utf8ByteSize

/-- The response names its reasoning, or a line of it is taken for that. -/
def GivesReasoning (response : String) : Prop :=
  (extractField response "REASONING").isSome ∨ ∃ line ∈ textLines response, isMeaningful line = true

theorem bytePrefix_eq_cut (n : Nat) (cs : List Char) : bytePrefix n cs = cut n cs := by
  induction cs generalizing n with
  | nil => cases n <;> rfl
  | cons c rest ih =>
      cases n with
      | zero => rfl
      | succ n => rw [bytePrefix, cut, ih]

theorem extractReasoning_isSome_iff {response : String} :
    (extractReasoning response).isSome ↔ GivesReasoning response ∨ Fits 100 response := by
  have taken : (∃ line ∈ textLines response, isMeaningful line = true) ↔
      ((textLines response).find? isMeaningful).isSome := by
    rw [List.find?_isSome]
  rw [GivesReasoning, taken, extractReasoning]
  cases extractField response "REASONING" with
  | some reasoning => simp
  | none =>
      have same : (textLines response).find? isMeaningful = (textLines response).find? fun line =>
          !startsWith (trim line) "ACTION:" && !startsWith (trim line) "PARAMETERS:" &&
            !startsWith (trim line) "CONFIDENCE:" && 10 < (trim line).utf8ByteSize := rfl
      rw [same]
      dsimp only
      cases (textLines response).find? _ with
      | some line => simp
      | none =>
          rw [← @shorten_isSome_iff 100 "...[truncated]" response, shorten, bytePrefix_eq_cut]
          simp

/-! ## All of them -/

/-- None of the previews panics. -/
structure PreviewsShown {Output : Type} (decisionPrompt : String) (mail : DecisionResponse Output)
    (response : String) : Prop where
  prompt : (promptPreview decisionPrompt).isSome
  mail : mail.fmt.isSome
  reasoning : (extractReasoning response).isSome

/-- Every text that is cut has a boundary there. -/
structure PreviewsFit {Output : Type} (decisionPrompt : String) (mail : DecisionResponse Output)
    (response : String) : Prop where
  prompt : Fits 500 decisionPrompt
  mailPrompt : ∀ s ∈ mail.decisionPrompt, Fits 50 s
  mailThinking : ∀ s ∈ mail.thinking, Fits 50 s
  response : GivesReasoning response ∨ Fits 100 response

theorem previewsShown_iff {Output : Type} (decisionPrompt : String) (mail : DecisionResponse Output)
    (response : String) :
    PreviewsShown decisionPrompt mail response ↔ PreviewsFit decisionPrompt mail response := by
  constructor
  · intro shown
    obtain ⟨mailPrompt, mailThinking⟩ := DecisionResponse.fmt_isSome_iff.mp shown.mail
    exact ⟨shorten_isSome_iff.mp shown.prompt, mailPrompt, mailThinking,
      extractReasoning_isSome_iff.mp shown.reasoning⟩
  · intro fit
    exact ⟨shorten_isSome_iff.mpr fit.prompt,
      DecisionResponse.fmt_isSome_iff.mpr ⟨fit.mailPrompt, fit.mailThinking⟩,
      extractReasoning_isSome_iff.mpr fit.response⟩

/-- 49 letters and one with an accent, of two bytes. -/
def accentedThought : String := String.ofList (List.replicate 49 'a' ++ ['é'])

/-- A mail with this thought cannot be shown. -/
theorem accentedThought_not_shown : ¬ ∀ (decisionPrompt : String) (mail : DecisionResponse Unit)
    (response : String), PreviewsShown decisionPrompt mail response := by
  intro all
  have apart : ¬ Fits 50 accentedThought := by decide +kernel
  have shown := all "" { workAgentId := "agent_001", thinking := some accentedThought } ""
  exact apart ((DecisionResponse.fmt_isSome_iff.mp shown.mail).2 accentedThought rfl)

end AgileAgent.Core
