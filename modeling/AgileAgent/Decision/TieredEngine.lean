import AgileAgent.Decision.LlmEngine
import AgileAgent.Decision.RuleEngine

/-! # The tiered engine

A tier for each situation and an engine for each tier, with a fallback tier for an engine that fails.
-/

namespace AgileAgent.Decision

open AgileAgent.Core (Unicode)
open AgileAgent.Core.Loop (ProviderKind)
open DecisionDsl (trim strContains)

def Decided.ofResult : Except DecisionError DecisionOutput → Decided
  | .ok made => .output made
  | .error error => .failed error

/-! ## The CLI engine -/

namespace CLIDecisionEngine

/-- `get_cli_input`, which does not read anything yet. -/
def getCliInput : Except DecisionError String := .ok "1"

def parseCliInput [Unicode] (input : String) (situation : DecisionSituation)
    (registry : ActionRegistry) : Except DecisionError (List DecisionAction) :=
  let trimmed := Unicode.toLowercase (trim input)
  if trimmed = "c" || startsWith trimmed "c:" then
    let instruction := if startsWith trimmed "c:" then trim (String.ofList (trimmed.toList.drop 2))
      else "Custom instruction provided via CLI"
    .ok [{ actionType := ⟨"custom_instruction"⟩, params := [("instruction", instruction)] }]
  else if trimmed = "s" then .ok []
  else if trimmed = "h" then
    .ok [{ actionType := ⟨"request_human"⟩, params := [("message", "Requested via CLI")] }]
  else
    let numbered := do
      let num ← Numeral.parse (2 ^ 64) trimmed.toList
      if 0 < num then registry.get (← situation.availableActions[num - 1]?) else none
    match numbered.or (situation.availableActions.findSome? (registry.parse · input)) with
    | some action => .ok [action]
    | none => .error (.parseError ("Invalid CLI input: " ++ input))

def decide [Unicode] (context : DecisionContext) (registry : ActionRegistry) :
    Except DecisionError DecisionOutput := do
  let input ← getCliInput
  let actions ← parseCliInput input context.triggerSituation registry
  return { actions, reasoning := "CLI input: " ++ input }

end CLIDecisionEngine

/-! ## Tiers -/

inductive DecisionTier where
  | simple
  | medium
  | complex
  | critical
  deriving Repr, DecidableEq

/-- The error is one of a rate limit. -/
def ErrorInfo.isRateLimit [Unicode] (info : ErrorInfo) : Bool :=
  let msg := Unicode.toLowercase info.message
  let errType := Unicode.toLowercase info.errorType
  strContains errType "429" || strContains errType "rate_limit" || strContains errType "rate limit" ||
    strContains msg "429" || strContains msg "rate limit" || strContains msg "quota"

def DecisionTier.fromSituation [Unicode] (situation : DecisionSituation) : DecisionTier :=
  let typeName := situation.situationType.name
  if situation.requiresHuman then .critical
  else if typeName = "error" then
    if situation.errorInfo.any (·.isRateLimit) then .simple else .complex
  else if typeName = "partial_completion" then .complex
  else if typeName = "claims_completion" then .medium
  else if typeName = "waiting_for_choice" || typeName = "agent_idle" then .simple
  else .medium

/-! ## The engine -/

structure TieredEngineConfig where
  llmProvider : ProviderKind := .claude
  llmMaxRetries : Nat := 2
  useCliForCritical : Bool := true
  fallbackTier : DecisionTier := .medium
  deriving DecidableEq

structure TieredDecisionRecord where
  id : String
  situationType : SituationType
  tier : DecisionTier
  engineType : DecisionEngineType
  actionType : String
  deriving Repr, DecidableEq

structure TieredDecisionEngine where
  config : TieredEngineConfig
  ruleEngine : RuleBasedDecisionEngine := {}
  llmEngine : LLMDecisionEngine
  cliConfigured : Bool
  history : List TieredDecisionRecord := []

/-- The engines that decide. -/
inductive Decider where
  | rule
  | llm
  | cli
  deriving Repr, DecidableEq

/-- A decision that is asked for, with what the model would say to the engine of the tier and to the
    one of the fallback tier. -/
structure TieredCall where
  context : DecisionContext
  registry : ActionRegistry
  answers : Nat → Except DecisionError String
  fallbackAnswers : Nat → Except DecisionError String
  uuid : String
  fallbackUuid : String
  recordUuid : String

namespace TieredDecisionEngine

/-- `TieredDecisionEngine::new`. -/
def create (config : TieredEngineConfig) : TieredDecisionEngine where
  config := config
  llmEngine := { provider := config.llmProvider, maxRetries := config.llmMaxRetries }
  cliConfigured := config.useCliForCritical

def selectEngine (e : TieredDecisionEngine) : DecisionTier → Decider
  | .simple => .rule
  | .medium => .llm
  | .complex => .llm
  | .critical => if e.cliConfigured then .cli else .llm

/-- The type that is recorded for the engine of a tier. -/
def engineType (e : TieredDecisionEngine) : DecisionTier → DecisionEngineType
  | .simple => .ruleBased
  | .medium => .llm e.config.llmProvider
  | .complex => .llm e.config.llmProvider
  | .critical => .cli e.config.llmProvider

/-- The type of an engine. -/
def typeOf (e : TieredDecisionEngine) : Decider → DecisionEngineType
  | .rule => .ruleBased
  | .llm => .llm e.config.llmProvider
  | .cli => .cli e.config.llmProvider

/-- The decision of one of the engines. -/
def ask [Unicode] (e : TieredDecisionEngine) (decider : Decider) (c : LlmCall) :
    Decided × TieredDecisionEngine :=
  match decider with
  | .rule => (.ofResult (e.ruleEngine.decide c.context), e)
  | .llm => ((e.llmEngine.decide c).1, { e with llmEngine := (e.llmEngine.decide c).2 })
  | .cli => (.ofResult (CLIDecisionEngine.decide c.context c.registry), e)

def recordOf (situationType : SituationType) (tier : DecisionTier) (engineType : DecisionEngineType)
    (made : DecisionOutput) (uuid : String) : TieredDecisionRecord :=
  { id := "dec-" ++ uuid, situationType, tier, engineType
    actionType := (made.firstActionType.map (·.name)).getD "" }

def recordDecision (e : TieredDecisionEngine) (situationType : SituationType) (tier : DecisionTier)
    (engineType : DecisionEngineType) (made : DecisionOutput) (uuid : String) : TieredDecisionEngine :=
  { e with history := e.history ++ [recordOf situationType tier engineType made uuid] }

/-- The context that is rebuilt for the fallback tier. -/
def fallbackContext (situationType : SituationType) : DecisionContext where
  triggerSituation := SituationRegistry.builtins.build situationType
  mainAgentId := "tiered-fallback"

/-- A decision, with the engines that were asked and what each of them said. -/
def decide [Unicode] (e : TieredDecisionEngine) (c : TieredCall) :
    Decided × List (Decider × Decided) × TieredDecisionEngine :=
  let situation := c.context.triggerSituation
  let tier := DecisionTier.fromSituation situation
  let primary := e.ask (e.selectEngine tier) ⟨c.context, c.registry, c.answers, c.uuid⟩
  let asked := [(e.selectEngine tier, primary.1)]
  match primary.1 with
  | .output made =>
      (.output made, asked,
        primary.2.recordDecision situation.situationType tier (e.engineType tier) made c.recordUuid)
  | .panicked => (.panicked, asked, primary.2)
  | .failed error =>
      let fallbackTier := e.config.fallbackTier
      if fallbackTier ≠ tier then
        let fallback := primary.2.ask (primary.2.selectEngine fallbackTier)
          ⟨fallbackContext situation.situationType, c.registry, c.fallbackAnswers, c.fallbackUuid⟩
        let asked := asked ++ [(primary.2.selectEngine fallbackTier, fallback.1)]
        match fallback.1 with
        | .output made =>
            (.output made, asked,
              fallback.2.recordDecision situation.situationType fallbackTier (e.engineType fallbackTier)
                made c.recordUuid)
        | .panicked => (.panicked, asked, fallback.2)
        | .failed fallbackError =>
            (.failed (.engineError ("Primary engine failed: " ++ error.message ++
              ". Fallback engine also failed: " ++ fallbackError.message)), asked, fallback.2)
      else (.failed error, asked, primary.2)

/-! ## Who decides -/

theorem engineType_eq (e : TieredDecisionEngine) (tier : DecisionTier) (shown : tier = .critical → e.cliConfigured) :
    e.engineType tier = e.typeOf (e.selectEngine tier) := by
  cases tier with
  | critical =>
      have configured := shown rfl
      simp [engineType, selectEngine, typeOf, configured]
  | simple => rfl
  | medium => rfl
  | complex => rfl

/-- What a record says of a decision: its tier, its action and, unless a human should have been asked
    but could not be, its engine. -/
structure Names (e : TieredDecisionEngine) (made : DecisionOutput) (tier : DecisionTier)
    (r : TieredDecisionRecord) : Prop where
  tier : r.tier = tier
  actionType : r.actionType = (made.firstActionType.map (·.name)).getD ""
  engineType : (r.tier = .critical → e.cliConfigured) →
    r.engineType = e.typeOf (e.selectEngine r.tier)

theorem recordDecision_names {e after : TieredDecisionEngine} (same : after.history = e.history)
    (situationType : SituationType) (tier : DecisionTier) (made : DecisionOutput) (uuid : String) :
    ∃ r, (after.recordDecision situationType tier (e.engineType tier) made uuid).history =
      e.history ++ [r] ∧ Names e made tier r := by
  refine ⟨recordOf situationType tier (e.engineType tier) made uuid, ?_, rfl, rfl, engineType_eq e tier⟩
  rw [recordDecision, same]

section

variable [Unicode] {e : TieredDecisionEngine} {c : TieredCall}

@[simp] theorem ask_history (decider : Decider) (call : LlmCall) :
    (e.ask decider call).2.history = e.history := by
  cases decider <;> rfl

@[simp] theorem ask_selectEngine (decider : Decider) (call : LlmCall) :
    (e.ask decider call).2.selectEngine = e.selectEngine := by
  cases decider <;> rfl

/-- The rule engine never fails. -/
theorem ask_rule (call : LlmCall) : ∃ made, (e.ask .rule call).1 = .output made := by
  unfold ask RuleBasedDecisionEngine.decide
  simp only
  split <;> exact ⟨_, rfl⟩

/-- The situation is an error of a rate limit. -/
def IsRateLimit (situation : DecisionSituation) : Prop :=
  situation.situationType.name = "error" ∧ ∃ info, situation.errorInfo = some info ∧ info.isRateLimit

theorem fromSituation_human {situation : DecisionSituation} (human : situation.requiresHuman) :
    DecisionTier.fromSituation situation = .critical := by
  simp [DecisionTier.fromSituation, human]

theorem fromSituation_rateLimit {situation : DecisionSituation}
    (alone : situation.requiresHuman = false) (rateLimit : IsRateLimit situation) :
    DecisionTier.fromSituation situation = .simple := by
  obtain ⟨isError, info, has, limited⟩ := rateLimit
  simp [DecisionTier.fromSituation, alone, isError, has, limited]

/-- What a decision does with the engines and with the history. -/
structure Orderly (e : TieredDecisionEngine) (c : TieredCall) (decided : Decided)
    (asked : List (Decider × Decided)) (after : TieredDecisionEngine) : Prop where
  /-- A human is asked first where that is possible, the LLM otherwise. -/
  human : c.context.triggerSituation.requiresHuman →
    asked.head?.map (·.1) = some (if e.cliConfigured then .cli else .llm)
  /-- The engine of the fallback tier is asked when the first one has failed. -/
  fallback : ∀ x ∈ asked.tail, x.1 = e.selectEngine e.config.fallbackTier ∧
    ∃ first error, asked.head? = some (first, .failed error)
  sparesLlm : IsRateLimit c.context.triggerSituation →
    c.context.triggerSituation.requiresHuman = false → ∀ x ∈ asked, x.1 ≠ .llm
  /-- The record names the tier whose engine made the output. -/
  recorded : ∀ made, decided = .output made → ∃ tier r, after.history = e.history ++ [r] ∧
    Names e made tier r ∧ asked.getLast? = some (e.selectEngine tier, .output made)
  unrecorded : (∀ made, decided ≠ .output made) → after.history = e.history

/-- The engine that is asked first. -/
theorem decide_head (e : TieredDecisionEngine) (c : TieredCall) :
    ∃ rest, (e.decide c).2.1 =
      (e.selectEngine (.fromSituation c.context.triggerSituation),
        (e.ask (e.selectEngine (.fromSituation c.context.triggerSituation))
          ⟨c.context, c.registry, c.answers, c.uuid⟩).1) :: rest := by
  unfold decide
  simp only
  split
  · exact ⟨_, rfl⟩
  · exact ⟨_, rfl⟩
  · split
    · split <;> exact ⟨_, rfl⟩
    · exact ⟨_, rfl⟩

/-- An engine that does not fail is the only one that is asked. -/
theorem decide_single (e : TieredDecisionEngine) (c : TieredCall) {made : DecisionOutput}
    (done : (e.ask (e.selectEngine (.fromSituation c.context.triggerSituation))
      ⟨c.context, c.registry, c.answers, c.uuid⟩).1 = .output made) :
    (e.decide c).2.1 = [(e.selectEngine (.fromSituation c.context.triggerSituation), .output made)] := by
  unfold decide
  simp only [done]

theorem decide_fallback (e : TieredDecisionEngine) (c : TieredCall) :
    ∀ x ∈ (e.decide c).2.1.tail, x.1 = e.selectEngine e.config.fallbackTier ∧
      ∃ first error, (e.decide c).2.1.head? = some (first, .failed error) := by
  unfold decide
  simp only [ask_selectEngine]
  split
  · simp
  · simp
  · rename_i error failed
    split
    · split <;> simp [failed]
    · simp

theorem decide_recorded (e : TieredDecisionEngine) (c : TieredCall) :
    (∀ made, (e.decide c).1 = .output made → ∃ tier r,
      (e.decide c).2.2.history = e.history ++ [r] ∧ Names e made tier r ∧
        (e.decide c).2.1.getLast? = some (e.selectEngine tier, .output made)) ∧
    ((∀ made, (e.decide c).1 ≠ .output made) → (e.decide c).2.2.history = e.history) := by
  unfold decide
  simp only [ask_selectEngine]
  split
  · rename_i made done
    refine ⟨?_, fun other => absurd rfl (other made)⟩
    rintro _ ⟨⟩
    obtain ⟨r, history, names⟩ := recordDecision_names (ask_history _ _) _ _ made c.recordUuid
    exact ⟨_, r, history, names, by rw [done]; rfl⟩
  · exact ⟨by rintro _ ⟨⟩, fun _ => ask_history _ _⟩
  · split
    · split
      · rename_i made done
        refine ⟨?_, fun other => absurd rfl (other made)⟩
        rintro _ ⟨⟩
        obtain ⟨r, history, names⟩ := recordDecision_names
          ((ask_history _ _).trans (ask_history _ _)) _ _ made c.recordUuid
        exact ⟨_, r, history, names, by rw [done]; rfl⟩
      · exact ⟨by rintro _ ⟨⟩, fun _ => (ask_history _ _).trans (ask_history _ _)⟩
      · exact ⟨by rintro _ ⟨⟩, fun _ => (ask_history _ _).trans (ask_history _ _)⟩
    · exact ⟨by rintro _ ⟨⟩, fun _ => ask_history _ _⟩

/-- A situation that requires a human goes to the CLI engine where there is one, and further only when
    that engine fails; the LLM never hears of a rate limit that requires nobody; and the history names
    the engine that made the output. -/
theorem decide_orderly (e : TieredDecisionEngine) (c : TieredCall) :
    Orderly e c (e.decide c).1 (e.decide c).2.1 (e.decide c).2.2 where
  human := by
    intro human
    obtain ⟨rest, asked⟩ := decide_head e c
    rw [asked, fromSituation_human human]
    rfl
  fallback := decide_fallback e c
  sparesLlm := by
    intro rateLimit alone
    have simple := fromSituation_rateLimit alone rateLimit
    obtain ⟨made, done⟩ := ask_rule (e := e) ⟨c.context, c.registry, c.answers, c.uuid⟩
    have asked := decide_single e c (by rw [simple]; exact done)
    rw [asked, simple]
    simp [selectEngine]
  recorded := (decide_recorded e c).1
  unrecorded := (decide_recorded e c).2

end

local instance textsLowered : Unicode := ⟨String.toLower⟩

/-- A choice that requires a human, and a model that picks the first option. -/
def criticalCall : TieredCall where
  context := { triggerSituation := .waitingForChoice true, mainAgentId := "agent" }
  registry := { deserialize := fun type _ => some { actionType := type } }
  answers _ := .ok "ACTION: select_first"
  fallbackAnswers _ := .ok "ACTION: select_first"
  uuid := "1"
  fallbackUuid := "2"
  recordUuid := "3"

/-- Without a CLI engine the LLM decides what requires a human. -/
theorem llm_decides_critical :
    ¬ ∀ (config : TieredEngineConfig) (c : TieredCall), c.context.triggerSituation.requiresHuman →
      ∀ x ∈ ((create config).decide c).2.1, (∃ made, x.2 = .output made) → x.1 = .cli := by
  intro always
  obtain ⟨rest, asked⟩ := decide_head (create { useCliForCritical := false }) criticalCall
  have byCli := always { useCliForCritical := false } criticalCall rfl
  rw [asked, List.forall_mem_cons] at byCli
  have made := byCli.1 ⟨{ actions := [{ actionType := ⟨"select_first"⟩ }]
                          reasoning := "ACTION: select_first"
                          updatedReflectionRound := some 0 }, by decide +kernel⟩
  exact absurd made (by decide)

end TieredDecisionEngine

end AgileAgent.Decision
