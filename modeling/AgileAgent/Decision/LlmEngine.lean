import AgileAgent.Core.AgentSlotStatus
import AgileAgent.Decision.Engine
import AgileAgent.Decision.Text
import AgileAgent.DecisionDsl.Host
import AgileAgent.Machine

/-! # The LLM engine

What the model answers to a prompt, attempt by attempt, comes with each decision, and so do the ids of
new records. Prompts and confidences, which no decision depends on, are left out.
-/

namespace AgileAgent.Decision

open AgileAgent.Core (Unicode)
open AgileAgent.Core.Loop (ProviderKind)
open DecisionDsl (trim)
open Machine

/-! ## Responses -/

/-- The first bytes of a text, if that many bytes end between two characters. -/
def bytePrefix : Nat → List Char → Option (List Char)
  | 0, _ => some []
  | _ + 1, [] => none
  | n + 1, c :: rest =>
      if c.utf8Size ≤ n + 1 then (bytePrefix (n + 1 - c.utf8Size) rest).map (c :: ·) else none

def extractField (response fieldName : String) : Option String :=
  (textLines response).findSome? fun line =>
    if startsWith (trim line) (fieldName ++ ":") then
      some (trim (String.ofList ((trim line).toList.drop (fieldName.length + 1))))
    else none

/-- The reasoning of a response; none where the cut of a long response falls inside a character and
    the code panics. -/
def extractReasoning (response : String) : Option String :=
  match extractField response "REASONING" with
  | some reasoning => some reasoning
  | none =>
    let meaningful (line : String) : Bool :=
      !startsWith (trim line) "ACTION:" && !startsWith (trim line) "PARAMETERS:" &&
        !startsWith (trim line) "CONFIDENCE:" && 10 < (trim line).utf8ByteSize
    match (textLines response).find? meaningful with
    | some line => some (trim line)
    | none =>
      if 100 < response.utf8ByteSize then
        (bytePrefix 100 response.toList).map fun start => String.ofList start ++ "...[truncated]"
      else some response

def parseCustomInstruction (response : String) : Except DecisionError (List DecisionAction) :=
  let instruction := trim ("\n".intercalate ((textLines response).take 3))
  if 10 < instruction.utf8ByteSize then
    .ok [{ actionType := ⟨"custom_instruction"⟩, params := [("instruction", instruction)] }]
  else .error (.parseError "Could not parse response")

section

variable [Unicode]

def parseStructuredResponse (response : String) (registry : ActionRegistry) : List DecisionAction :=
  match extractField response "ACTION" with
  | some actionName =>
      let actionType : ActionType := ⟨Unicode.toLowercase actionName⟩
      ((registry.deserialize actionType ((extractField response "PARAMETERS").getD "")).or
        (registry.parse actionType response)).toList
  | none => []

def parseResponseInternal (response : String) (situation : DecisionSituation)
    (registry : ActionRegistry) : Except DecisionError (List DecisionAction) :=
  match parseStructuredResponse response registry with
  | action :: rest => .ok (action :: rest)
  | [] =>
    match situation.availableActions.findSome? (registry.parse · response) with
    | some action => .ok [action]
    | none => parseCustomInstruction response

end

/-! ## The engine -/

structure LLMDecisionRecord where
  id : String
  situationType : SituationType
  actionType : ActionType
  reasoning : String
  deriving Repr, DecidableEq

structure LLMDecisionEngine where
  provider : ProviderKind
  maxRetries : Nat := 2
  history : List LLMDecisionRecord := []
  healthy : Bool := true
  reflectionRound : UInt8 := 0
  maxReflectionRounds : UInt8 := 2
  deriving DecidableEq

/-- What a decision comes to. -/
inductive Decided where
  | output (output : DecisionOutput)
  | failed (error : DecisionError)
  | panicked
  deriving DecidableEq

/-- A decision that is asked for: what the model says to each attempt and the id of the new record
    come with it. -/
structure LlmCall where
  context : DecisionContext
  registry : ActionRegistry
  answers : Nat → Except DecisionError String
  uuid : String

/-- The attempts that are left, beginning with the one of an index. -/
def callWithRetry (answers : Nat → Except DecisionError String) (index : Nat) :
    Nat → Except DecisionError String
  | 0 => .error (.engineError "Max retries exceeded")
  | 1 => answers index
  | left + 2 =>
      match answers index with
      | .ok response => .ok response
      | .error _ => callWithRetry answers (index + 1) (left + 1)

namespace LLMDecisionEngine

def incrementReflectionRound (e : LLMDecisionEngine) : LLMDecisionEngine :=
  { e with reflectionRound := e.reflectionRound + 1 }

def resetReflectionRound (e : LLMDecisionEngine) : LLMDecisionEngine := { e with reflectionRound := 0 }

def syncReflectionRound (e : LLMDecisionEngine) (context : DecisionContext) : LLMDecisionEngine :=
  match context.metadataRound with
  | some round => { e with reflectionRound := UInt8.ofNat round }
  | none => e

/-- The records of the context that the engine does not know. -/
def mergeHistory (history : List LLMDecisionRecord) (records : List DecisionRecord) :
    List LLMDecisionRecord :=
  records.foldl (fun history record =>
    if history.any (·.id = record.decisionId) then history
    else history ++
      [{ id := record.decisionId
         situationType := record.situationType
         actionType := record.actionTypes.head?.getD ⟨"unknown"⟩
         reasoning := record.reasoning }]) history

/-- The engine before it asks the model: synchronised, and in the first round at least for a claim of
    completion. -/
def prepare (e : LLMDecisionEngine) (context : DecisionContext) : LLMDecisionEngine :=
  let e := e.syncReflectionRound context
  let e := { e with history := mergeHistory e.history context.decisionHistory }
  if context.triggerSituation.situationType.name = "claims_completion" && e.reflectionRound = 0 then
    { e with reflectionRound := 1 }
  else e

def maxRoundsAction (e : LLMDecisionEngine) : DecisionAction where
  actionType := ⟨"request_human"⟩
  params := [("message", "Maximum reflection rounds (" ++ toString e.maxReflectionRounds.toNat ++
    ") reached. Human review required.")]

/-- The actions of an output and the round after it. -/
def manageRound (e : LLMDecisionEngine) (situationType : SituationType) (first : DecisionAction)
    (rest : List DecisionAction) : List DecisionAction × LLMDecisionEngine :=
  let name := first.actionType.name
  let managed :=
    if name = "reflect" && situationType.name = "claims_completion" then
      if e.maxReflectionRounds ≤ e.reflectionRound then ([e.maxRoundsAction], e)
      else (first :: rest, e.incrementReflectionRound)
    else (first :: rest, e)
  if name = "confirm_completion" || name = "continue" then
    (managed.1, managed.2.resetReflectionRound)
  else managed

/-- `DecisionOutput` with the record of the decision. -/
def record (e : LLMDecisionEngine) (situationType : SituationType) (actions : List DecisionAction)
    (reasoning uuid : String) : Decided × LLMDecisionEngine :=
  (.output { actions, reasoning, updatedReflectionRound := some e.reflectionRound.toNat },
    match actions.head? with
    | some action => { e with history := e.history ++
        [{ id := "dec-" ++ uuid, situationType, actionType := action.actionType, reasoning }] }
    | none => e)

def decide [Unicode] (e : LLMDecisionEngine) (c : LlmCall) : Decided × LLMDecisionEngine :=
  let situation := c.context.triggerSituation
  let e := e.prepare c.context
  match callWithRetry c.answers 0 ((e.maxRetries + 1) % 2 ^ 32) with
  | .error error => (.failed error, { e with healthy := false })
  | .ok response =>
    match parseResponseInternal response situation c.registry with
    | .error error => (.failed error, e)
    | .ok [] => (.failed (.parseError "Parsed response produced no actions"), e)
    | .ok (first :: rest) =>
      match extractReasoning response with
      | none => (.panicked, e)
      | some reasoning =>
        let managed := e.manageRound situation.situationType first rest
        managed.2.record situation.situationType managed.1 reasoning c.uuid

/-! ## One decision -/

end LLMDecisionEngine

/-- The name of the action that is put out. -/
def Decided.actionName : Decided → Option String
  | .output made => made.firstActionType.map (·.name)
  | _ => none

namespace LLMDecisionEngine

/-- The decision is about a claim of completion, in the round of the engine. -/
def AtRound (e : LLMDecisionEngine) (c : LlmCall) : Prop :=
  c.context.triggerSituation.situationType.name = "claims_completion" ∧
    c.context.reflectionRound = e.reflectionRound.toNat

instance (e : LLMDecisionEngine) (c : LlmCall) : Decidable (AtRound e c) :=
  inferInstanceAs (Decidable (_ ∧ _))

variable {e : LLMDecisionEngine} {c : LlmCall}

/-- The round that a decision is made in. -/
def roundOf (e : LLMDecisionEngine) : Nat := max 1 e.reflectionRound.toNat

theorem prepare_round (claims : AtRound e c) :
    (e.prepare c.context).reflectionRound.toNat = e.roundOf ∧
      (e.prepare c.context).maxReflectionRounds = e.maxReflectionRounds := by
  obtain ⟨isClaim, sameRound⟩ := claims
  have synced : e.syncReflectionRound c.context = e := by
    unfold syncReflectionRound
    unfold DecisionContext.reflectionRound at sameRound
    cases told : c.context.metadataRound with
    | none => rfl
    | some round =>
        rw [told, Option.getD_some] at sameRound
        simp only [sameRound, UInt8.ofNat_toNat]
  unfold prepare
  rw [synced]
  simp only [isClaim, decide_true, Bool.true_and, decide_eq_true_eq, roundOf]
  by_cases first : e.reflectionRound = 0
  · rw [if_pos first, first]
    exact ⟨rfl, rfl⟩
  · rw [if_neg first]
    have positive : e.reflectionRound.toNat ≠ 0 := fun zero =>
      first (UInt8.toNat_inj.mp (by simpa using zero))
    refine ⟨?_, rfl⟩
    show e.reflectionRound.toNat = _
    omega

/-- What a decision does to the round, by the action that is put out. -/
structure Advances (e : LLMDecisionEngine) (name : Option String) (after : LLMDecisionEngine) :
    Prop where
  limit : after.maxReflectionRounds = e.maxReflectionRounds
  reflects : name = some "reflect" →
    e.roundOf < e.maxReflectionRounds.toNat ∧ after.reflectionRound.toNat = e.roundOf + 1
  restarts : name = some "confirm_completion" ∨ name = some "continue" → after.reflectionRound = 0
  stays : name ≠ some "reflect" → name ≠ some "confirm_completion" → name ≠ some "continue" →
    after.reflectionRound.toNat = e.roundOf

theorem manageRound_advances {prepared : LLMDecisionEngine}
    (round : prepared.reflectionRound.toNat = e.roundOf)
    (limit : prepared.maxReflectionRounds = e.maxReflectionRounds) {situationType : SituationType}
    (isClaim : situationType.name = "claims_completion") (first : DecisionAction)
    (rest : List DecisionAction) :
    Advances e ((prepared.manageRound situationType first rest).1.head?.map (·.actionType.name))
      (prepared.manageRound situationType first rest).2 := by
  unfold manageRound
  by_cases reflect : first.actionType.name = "reflect"
  · by_cases reached : prepared.maxReflectionRounds ≤ prepared.reflectionRound
    · simp only [reflect, isClaim, reached, decide_true, Bool.and_self, if_true]
      constructor <;> simp [maxRoundsAction, round, limit]
    · have below : prepared.reflectionRound.toNat < prepared.maxReflectionRounds.toNat := by
        rwa [UInt8.le_iff_toNat_le, not_le] at reached
      have small := prepared.maxReflectionRounds.toNat_lt
      have next : (prepared.reflectionRound + 1).toNat = prepared.reflectionRound.toNat + 1 := by
        rw [UInt8.toNat_add]
        exact Nat.mod_eq_of_lt (Nat.lt_of_le_of_lt below small)
      simp only [reflect, isClaim, reached, decide_true, Bool.and_self, if_true, if_false]
      rw [limit] at below
      constructor <;> simp [incrementReflectionRound, next, reflect, limit, ← round, below]
  · by_cases ends : first.actionType.name = "confirm_completion" ∨ first.actionType.name = "continue"
    · constructor <;> simp [reflect, ends, resetReflectionRound, limit]
      rintro not_confirm not_continue
      exact absurd ends (not_or.mpr ⟨not_confirm, not_continue⟩)
    · constructor <;> simp [reflect, ends, round, limit]

theorem decide_advances [Unicode] (claims : AtRound e c) :
    Advances e (e.decide c).1.actionName (e.decide c).2 := by
  obtain ⟨round, limit⟩ := prepare_round claims
  have fails : ∀ prepared : LLMDecisionEngine, prepared.reflectionRound.toNat = e.roundOf →
      prepared.maxReflectionRounds = e.maxReflectionRounds → Advances e none prepared := by
    intro prepared round limit
    constructor <;> simp [round, limit]
  unfold decide
  simp only
  split
  · exact fails _ round limit
  · split
    · exact fails _ round limit
    · exact fails _ round limit
    · rename_i first rest _
      split
      · exact fails _ round limit
      · have managed := manageRound_advances round limit claims.1 first rest
        generalize (e.prepare c.context).manageRound _ first rest = managed' at *
        unfold record
        simp only [Decided.actionName, DecisionOutput.firstActionType, Option.map_map]
        cases head : managed'.1.head? with
        | none =>
            rw [head] at managed
            exact ⟨managed.limit, managed.reflects, managed.restarts, managed.stays⟩
        | some action =>
            rw [head] at managed
            exact ⟨managed.limit, managed.reflects, managed.restarts, managed.stays⟩

/-! ## Runs -/

/-- The output is a reflection. -/
def Reflects (x : Step LLMDecisionEngine LlmCall Decided) : Prop :=
  x.output.actionName = some "reflect"

/-- The output is a confirmation or a continuation. -/
def Restarts (x : Step LLMDecisionEngine LlmCall Decided) : Prop :=
  x.output.actionName = some "confirm_completion" ∨ x.output.actionName = some "continue"

/-- The output is a confirmation, a continuation or a request for a human. -/
def Closes (x : Step LLMDecisionEngine LlmCall Decided) : Prop :=
  Restarts x ∨ x.output.actionName = some "request_human"

instance : DecidablePred Reflects := fun x =>
  inferInstanceAs (Decidable (x.output.actionName = some "reflect"))

instance : DecidablePred Restarts := fun _ => inferInstanceAs (Decidable (_ ∨ _))

instance : DecidablePred Closes := fun _ => inferInstanceAs (Decidable (_ ∨ _))

section

variable [Unicode] {calls : List LlmCall} {segment later : List (Step LLMDecisionEngine LlmCall Decided)}

/-- The reflections that a run puts out before it closes use up what is left of the rounds. -/
theorem reflections_le (claims : ∀ x ∈ Machine.history decide e calls, AtRound x.before x.event)
    (parts : Machine.history decide e calls = segment ++ later) (goesOn : ∀ x ∈ segment, ¬ Closes x) :
    segment.countP (Reflects ·) ≤ e.maxReflectionRounds.toNat - e.roundOf := by
  induction calls generalizing e segment with
  | nil =>
      rw [history_nil, eq_comm, List.append_eq_nil_iff] at parts
      simp [parts.1]
  | cons c rest ih =>
      cases segment with
      | nil => exact Nat.zero_le _
      | cons x segment =>
          rw [history_cons, List.cons_append, List.cons.injEq] at parts
          rw [history_cons, List.forall_mem_cons] at claims
          rw [List.forall_mem_cons] at goesOn
          have atRound : AtRound e c := claims.1
          obtain ⟨limit, reflects, -, stays⟩ := decide_advances atRound
          have later := ih claims.2 parts.2 goesOn.2
          rw [limit] at later
          obtain ⟨open_here, -⟩ := goesOn
          rw [← parts.1] at open_here
          simp only [List.countP_cons, ← parts.1]
          unfold roundOf at *
          by_cases reflect : (e.decide c).1.actionName = some "reflect"
          · obtain ⟨below, next⟩ := reflects reflect
            split <;> omega
          · have same := stays reflect (fun confirms => open_here (Or.inl (Or.inl confirms)))
              fun continues => open_here (Or.inl (Or.inr continues))
            have silent : ¬ Reflects ⟨e, c, (e.decide c).1, (e.decide c).2⟩ := reflect
            simp only [silent, decide_false, Bool.false_eq_true, if_false]
            omega

/-- In the last round nothing is put out but what is no reflection, until a confirmation or a
    continuation. -/
theorem reached_stays (claims : ∀ x ∈ Machine.history decide e calls, AtRound x.before x.event)
    (parts : Machine.history decide e calls = segment ++ later)
    (reached : e.maxReflectionRounds.toNat ≤ e.reflectionRound.toNat)
    (goesOn : ∀ x ∈ segment, ¬ Restarts x) : ∀ x ∈ segment, ¬ Reflects x := by
  induction calls generalizing e segment with
  | nil =>
      rw [history_nil, eq_comm, List.append_eq_nil_iff] at parts
      simp [parts.1]
  | cons c rest ih =>
      cases segment with
      | nil => simp
      | cons x segment =>
          rw [history_cons, List.cons_append, List.cons.injEq] at parts
          rw [history_cons, List.forall_mem_cons] at claims
          rw [List.forall_mem_cons] at goesOn ⊢
          have atRound : AtRound e c := claims.1
          obtain ⟨limit, reflects, -, stays⟩ := decide_advances atRound
          obtain ⟨open_here, goesOn⟩ := goesOn
          rw [← parts.1] at open_here ⊢
          have quiet : (e.decide c).1.actionName ≠ some "reflect" := by
            intro reflect
            have below := (reflects reflect).1
            unfold roundOf at below
            omega
          have same := stays quiet (fun confirms => open_here (Or.inl confirms))
            fun continues => open_here (Or.inr continues)
          refine ⟨quiet, ih claims.2 parts.2 ?_ goesOn⟩
          rw [limit, same, roundOf]
          omega

theorem history_limit (claims : ∀ x ∈ Machine.history decide e calls, AtRound x.before x.event) :
    ∀ x ∈ Machine.history decide e calls, x.after.maxReflectionRounds = e.maxReflectionRounds := by
  induction calls generalizing e with
  | nil => simp
  | cons c rest ih =>
      rw [history_cons, List.forall_mem_cons] at claims ⊢
      have atRound : AtRound e c := claims.1
      have limit := (decide_advances atRound).limit
      exact ⟨limit, fun x member => (ih claims.2 x member).trans limit⟩

/-- What the rounds are for, in the steps of a run with a limit: they never overflow, they bound the
    reflections of every part without a close, and after the last one nothing reflects until a
    restart. -/
structure Bounded (limit : Nat) (steps : List (Step LLMDecisionEngine LlmCall Decided)) : Prop where
  increases : ∀ x ∈ steps, Reflects x →
    x.before.reflectionRound.toNat < x.after.reflectionRound.toNat
  few : ∀ earlier segment later, steps = earlier ++ segment ++ later →
    (∀ x ∈ segment, ¬ Closes x) → segment.countP (Reflects ·) ≤ limit
  stops : ∀ earlier x segment later, steps = earlier ++ x :: segment ++ later →
    limit ≤ x.after.reflectionRound.toNat → (∀ y ∈ segment, ¬ Restarts y) →
      ∀ y ∈ segment, ¬ Reflects y

theorem rounds_bounded (e : LLMDecisionEngine) (calls : List LlmCall)
    (claims : ∀ x ∈ Machine.history decide e calls, AtRound x.before x.event) :
    Bounded e.maxReflectionRounds.toNat (Machine.history decide e calls) := by
  have limits := history_limit claims
  refine ⟨?_, ?_, ?_⟩
  · have advances : ∀ x ∈ Machine.history decide e calls, AtRound x.before x.event → Reflects x →
        x.before.reflectionRound.toNat < x.after.reflectionRound.toNat := by
      refine history_steps ?_
      intro e c atRound reflect
      have next := ((decide_advances atRound).reflects reflect).2
      simp only [next, roundOf]
      omega
    exact fun x member => advances x member (claims x member)
  · intro earlier segment later parts goesOn
    rw [List.append_assoc] at parts
    obtain ⟨rest, same⟩ := history_drop parts
    rw [parts, same] at claims
    have few := reflections_le (fun x member => claims x (List.mem_append_right _ member)) same.symm
      goesOn
    refine few.trans ((Nat.sub_le _ _).trans (le_of_eq ?_))
    cases last : earlier.getLast? with
    | none => rfl
    | some x =>
        have member : x ∈ Machine.history decide e calls := by
          rw [parts]
          exact List.mem_append_left _ (List.mem_of_getLast? last)
        exact congrArg UInt8.toNat (limits x member)
  · intro earlier x segment later parts reached goesOn
    have split : Machine.history decide e calls = (earlier ++ [x]) ++ (segment ++ later) := by
      rw [parts]
      simp
    obtain ⟨rest, same⟩ := history_drop split
    rw [List.getLast?_concat, Option.map_some, Option.getD_some] at same
    rw [split, same] at claims
    have member : x ∈ Machine.history decide e calls := by
      rw [parts]
      simp
    refine reached_stays (fun y member => claims y (List.mem_append_right _ member)) same.symm ?_ goesOn
    rwa [limits x member]

end

/-- A decision about a claim of completion where the model says the same to every attempt. -/
def claimCall (round : Nat) (response : String) : LlmCall where
  context := DecisionContext.withReflectionRound
    { triggerSituation := .claimsCompletion 0 2, mainAgentId := "agent" } round
  registry := { deserialize := fun type _ => some { actionType := type } }
  answers _ := .ok response
  uuid := "1"

local instance responsesLowered : Unicode := ⟨String.toLower⟩

theorem rounds_bounded_two_claims :
    Bounded 2 (Machine.history decide { provider := .claude }
      [claimCall 0 "ACTION: reflect", claimCall 2 "ACTION: reflect"]) :=
  rounds_bounded { provider := .claude }
    [claimCall 0 "ACTION: reflect", claimCall 2 "ACTION: reflect"] (by decide +kernel)

/-- After a confirmation the rounds begin anew. -/
theorem confirmation_allows_reflection :
    ¬ ∀ (e : LLMDecisionEngine) (calls : List LlmCall),
      (∀ x ∈ Machine.history decide e calls, AtRound x.before x.event) →
        ∀ earlier x later, Machine.history decide e calls = earlier ++ x :: later →
          e.maxReflectionRounds.toNat ≤ x.after.reflectionRound.toNat → ∀ y ∈ later, ¬ Reflects y := by
  intro always
  have stops := always { provider := .claude }
    [claimCall 0 "ACTION: reflect", claimCall 2 "ACTION: confirm_completion",
      claimCall 0 "ACTION: reflect"] (by decide +kernel) [] _ _ rfl (by decide +kernel) _
    (List.mem_cons_of_mem _ List.mem_cons_self)
  exact stops (by decide +kernel)

end LLMDecisionEngine

end AgileAgent.Decision
