import AgileAgent.RingBuffer
import AgileAgent.Decision.Engine
import AgileAgent.Machine

/-! # The decision pipeline

One call of the pipeline asks its pre-processors, the registry of makers, the maker that was selected
and its post-processors. These are trait objects which may answer differently in each call, so a
call brings the answers along. The counters do not reach the end of their 64 bits.
-/

namespace AgileAgent.Decision

open Machine

structure PipelineConfig where
  enablePreProcessing : Bool := true
  enablePostProcessing : Bool := true
  maxHistorySize : Nat := 100
  enableRecording : Bool := true
  deriving Repr, DecidableEq

structure DecisionMakerType where
  name : String
  subtype : Option String := none
  deriving Repr, DecidableEq

/-- The `Display` text. -/
def DecisionMakerType.display (t : DecisionMakerType) : String :=
  match t.subtype with
  | some subtype => t.name ++ "." ++ subtype
  | none => t.name

structure StrategySelection where
  makerType : DecisionMakerType
  strategyName : String
  reason : String
  fallbackChain : List DecisionMakerType
  deriving Repr, DecidableEq

structure PipelineDecisionRecord where
  decisionId : String
  situationType : SituationType
  selectedMaker : DecisionMakerType
  strategyName : String
  selectionReason : String
  fallbackChain : List DecisionMakerType
  actionTypes : List ActionType
  reasoning : String
  startedAt : Nat
  completedAt : Nat
  success : Bool
  deriving Repr, DecidableEq

/-- The answers of a `dyn DecisionMaker` for the registries of the moment. -/
structure DecisionMaker where
  isHealthy : Bool
  makeDecision : DecisionContext → Except DecisionError DecisionOutput

/-- One call of `execute`, with what the trait objects, the clock and the source of ids answer. -/
structure PipelineCall where
  context : DecisionContext
  preProcessors : List (DecisionContext → Except DecisionError DecisionContext) := []
  postProcessors : List (DecisionOutput → Except DecisionError DecisionOutput) := []
  selectMaker : DecisionContext → StrategySelection
  getForExecution : DecisionMakerType → Option DecisionMaker
  uuid : String
  startedAt : Nat
  completedAt : Nat

structure DecisionPipeline where
  config : PipelineConfig
  history : RingBuffer PipelineDecisionRecord
  totalDecisions : Nat
  successfulDecisions : Nat
  failedDecisions : Nat
  deriving DecidableEq

/-- `for processor in … { processor.process(&mut value)?; }`, where it is enabled. -/
def process {α : Type} (enabled : Bool) (processors : List (α → Except DecisionError α)) (value : α) :
    Except DecisionError α :=
  if enabled then processors.foldlM (fun value processor => processor value) value else .ok value

namespace PipelineCall

/-- `execute_maker`. -/
def executeMaker (c : PipelineCall) (makerType : DecisionMakerType) (context : DecisionContext) :
    Except DecisionError DecisionOutput :=
  match c.getForExecution makerType with
  | some maker =>
      if !maker.isHealthy then .error (.engineError ("Maker " ++ makerType.display ++ " is not healthy"))
      else maker.makeDecision context
  | none => .error (.engineError ("Maker " ++ makerType.display ++ " not found in registry"))

/-- The record of `record_decision`. -/
def record (c : PipelineCall) (selection : StrategySelection) (output : DecisionOutput) :
    PipelineDecisionRecord where
  decisionId := "pipeline-" ++ c.uuid
  situationType := c.context.triggerSituation.situationType
  selectedMaker := selection.makerType
  strategyName := selection.strategyName
  selectionReason := selection.reason
  fallbackChain := selection.fallbackChain
  actionTypes := output.actions.map (·.actionType)
  reasoning := output.reasoning
  startedAt := c.startedAt
  completedAt := c.completedAt
  success := true

end PipelineCall

namespace DecisionPipeline

/-- `DecisionPipeline::with_config`. -/
def withConfig (config : PipelineConfig) : DecisionPipeline where
  config := config
  history := .empty
  totalDecisions := 0
  successfulDecisions := 0
  failedDecisions := 0

def recordDecision (p : DecisionPipeline) (record : PipelineDecisionRecord) : DecisionPipeline :=
  { p with history := RingBuffer.pushBounded p.config.maxHistorySize p.history record }

def execute (p : DecisionPipeline) (c : PipelineCall) :
    Except DecisionError DecisionOutput × DecisionPipeline :=
  let p := { p with totalDecisions := p.totalDecisions + 1 }
  match process p.config.enablePreProcessing c.preProcessors c.context with
  | .error error => (.error error, p)
  | .ok processedContext =>
      let selection := c.selectMaker processedContext
      match c.executeMaker selection.makerType processedContext with
      | .error error => (.error error, { p with failedDecisions := p.failedDecisions + 1 })
      | .ok output =>
          match process p.config.enablePostProcessing c.postProcessors output with
          | .error error => (.error error, p)
          | .ok processedOutput =>
              let p := { p with successfulDecisions := p.successfulDecisions + 1 }
              (.ok processedOutput,
                if p.config.enableRecording then p.recordDecision (c.record selection processedOutput)
                else p)

/-- `DecisionPipeline::history`: `self.history.as_slices().0`. -/
def listHistory (p : DecisionPipeline) : List PipelineDecisionRecord := p.history.firstSlice

end DecisionPipeline

/-! ## How calls end -/

namespace PipelineCall

def enriched (config : PipelineConfig) (c : PipelineCall) : Except DecisionError DecisionContext :=
  process config.enablePreProcessing c.preProcessors c.context

def made (c : PipelineCall) (context : DecisionContext) : Except DecisionError DecisionOutput :=
  c.executeMaker (c.selectMaker context).makerType context

def validated (config : PipelineConfig) (c : PipelineCall) (output : DecisionOutput) :
    Except DecisionError DecisionOutput :=
  process config.enablePostProcessing c.postProcessors output

theorem enriched_eq (config : PipelineConfig) (c : PipelineCall) :
    c.enriched config = process config.enablePreProcessing c.preProcessors c.context := rfl

theorem made_eq (c : PipelineCall) (context : DecisionContext) :
    c.made context = c.executeMaker (c.selectMaker context).makerType context := rfl

theorem validated_eq (config : PipelineConfig) (c : PipelineCall) (output : DecisionOutput) :
    c.validated config output = process config.enablePostProcessing c.postProcessors output := rfl

/-- No processor fails: neither a pre-processor nor, when the maker has an output, a post-processor. -/
def Passes (config : PipelineConfig) (c : PipelineCall) : Prop :=
  ∃ context, c.enriched config = .ok context ∧
    ∀ output, c.made context = .ok output → ∃ checked, c.validated config output = .ok checked

/-- The decision of a call that succeeds. -/
def decision (config : PipelineConfig) (c : PipelineCall) : Option PipelineDecisionRecord :=
  match c.enriched config with
  | .error _ => none
  | .ok context =>
      match c.made context with
      | .error _ => none
      | .ok output =>
          match c.validated config output with
          | .error _ => none
          | .ok checked => some (c.record (c.selectMaker context) checked)

end PipelineCall

/-- The successful decisions of a run, oldest first. -/
def decisions (config : PipelineConfig) (calls : List PipelineCall) : List PipelineDecisionRecord :=
  calls.filterMap (·.decision config)

namespace DecisionPipeline

open PipelineCall

/-- The pipeline after the calls of a run. -/
def run (config : PipelineConfig) (calls : List PipelineCall) : DecisionPipeline :=
  final execute (withConfig config) calls

/-- A call ends in one of three ways: a decision is made, the maker fails, or a processor fails. -/
inductive Ends (p : DecisionPipeline) (c : PipelineCall) : Except DecisionError DecisionOutput × DecisionPipeline → Prop
  | decided (record : PipelineDecisionRecord) (output : DecisionOutput) (passes : c.Passes p.config)
      (decision : c.decision p.config = some record) :
      Ends p c (.ok output, { p with
        totalDecisions := p.totalDecisions + 1
        successfulDecisions := p.successfulDecisions + 1
        history := if p.config.enableRecording then
          RingBuffer.pushBounded p.config.maxHistorySize p.history record else p.history })
  | failed (error : DecisionError) (passes : c.Passes p.config) (decision : c.decision p.config = none) :
      Ends p c (.error error, { p with
        totalDecisions := p.totalDecisions + 1
        failedDecisions := p.failedDecisions + 1 })
  | interrupted (error : DecisionError) (fails : ¬ c.Passes p.config) (decision : c.decision p.config = none) :
      Ends p c (.error error, { p with totalDecisions := p.totalDecisions + 1 })

theorem execute_ends (p : DecisionPipeline) (c : PipelineCall) : Ends p c (execute p c) := by
  have before := c.enriched_eq p.config
  cases enriched : c.enriched p.config with
  | error error =>
      have result : execute p c = (.error error, { p with totalDecisions := p.totalDecisions + 1 }) := by
        simp only [execute, ← before, enriched]
      rw [result]
      refine .interrupted error ?_ (by rw [decision, enriched])
      rintro ⟨context, accepted, _⟩
      exact absurd (enriched.symm.trans accepted) (by simp)
  | ok context =>
      cases made : c.made context with
      | error error =>
          have result : execute p c = (.error error, { p with
              totalDecisions := p.totalDecisions + 1
              failedDecisions := p.failedDecisions + 1 }) := by
            simp only [execute, ← before, enriched, ← made_eq, made]
          rw [result]
          refine .failed error ⟨context, enriched, ?_⟩ (by simp only [decision, enriched, made])
          intro output produced
          exact absurd (made.symm.trans produced) (by simp)
      | ok output =>
          cases validated : c.validated p.config output with
          | error error =>
              have result : execute p c =
                  (.error error, { p with totalDecisions := p.totalDecisions + 1 }) := by
                simp only [execute, ← before, enriched, ← made_eq, made, ← validated_eq, validated]
              rw [result]
              refine .interrupted error ?_ (by simp only [decision, enriched, made, validated])
              rintro ⟨context', accepted, all⟩
              have same : context = context' := Except.ok.inj (enriched.symm.trans accepted)
              obtain ⟨checked, fine⟩ := all output (same ▸ made)
              exact absurd (validated.symm.trans fine) (by simp)
          | ok checked =>
              have decided : c.decision p.config = some (c.record (c.selectMaker context) checked) := by
                simp only [decision, enriched, made, validated]
              have passes : c.Passes p.config := by
                refine ⟨context, enriched, fun output' produced => ?_⟩
                have same : output = output' := Except.ok.inj (made.symm.trans produced)
                exact ⟨checked, same ▸ validated⟩
              have result : execute p c = (.ok checked, { p with
                  totalDecisions := p.totalDecisions + 1
                  successfulDecisions := p.successfulDecisions + 1
                  history := if p.config.enableRecording then
                    RingBuffer.pushBounded p.config.maxHistorySize p.history
                      (c.record (c.selectMaker context) checked) else p.history }) := by
                simp only [execute, ← before, enriched, ← made_eq, made, ← validated_eq, validated,
                  recordDecision]
                cases p.config.enableRecording <;> rfl
              rw [result]
              exact .decided _ checked passes decided

/-! ## Runs -/

theorem run_snoc (config : PipelineConfig) (calls : List PipelineCall) (c : PipelineCall) :
    run config (calls ++ [c]) = (execute (run config calls) c).2 := final_snoc _ _ _

theorem decisions_snoc (config : PipelineConfig) (calls : List PipelineCall) (c : PipelineCall) :
    decisions config (calls ++ [c]) = decisions config calls ++ (c.decision config).toList := by
  rw [decisions, List.filterMap_append, decisions, List.filterMap_cons, List.filterMap_nil]
  cases c.decision config <;> rfl

/-- What is known about the pipeline after a run. -/
structure Kept (config : PipelineConfig) (calls : List PipelineCall) (p : DecisionPipeline) : Prop where
  unchanged : p.config = config
  successful : p.successfulDecisions = (decisions config calls).length
  balance : p.successfulDecisions + p.failedDecisions ≤ p.totalDecisions
  passed : p.totalDecisions = p.successfulDecisions + p.failedDecisions ↔ ∀ c ∈ calls, c.Passes config
  history : config.enableRecording → p.history = .bounded config.maxHistorySize (decisions config calls)

theorem run_kept (config : PipelineConfig) (calls : List PipelineCall) : Kept config calls (run config calls) := by
  induction calls using List.reverseRecOn with
  | nil => exact ⟨rfl, rfl, Nat.le_refl 0, by simp [run, withConfig], fun _ => rfl⟩
  | append_singleton calls c ih =>
      obtain ⟨same, successful, balance, passed, history⟩ := ih
      have every : (∀ x ∈ calls ++ [c], x.Passes config) ↔ (∀ x ∈ calls, x.Passes config) ∧ c.Passes config := by
        simp only [List.forall_mem_append, List.forall_mem_singleton]
      have ends := execute_ends (run config calls) c
      rw [run_snoc]
      generalize execute (run config calls) c = result at ends ⊢
      cases ends with
      | decided record output passes decision =>
          rw [same] at passes decision
          refine ⟨same, ?_, ?_, ?_, ?_⟩
          · rw [decisions_snoc, decision]
            simpa using successful
          · dsimp only
            omega
          · rw [every, ← passed]
            simp only [passes, and_true]
            omega
          · intro recording
            rw [decisions_snoc, decision, Option.toList_some, RingBuffer.bounded_snoc, ← history recording]
            simp only [same, recording, if_true]
      | failed error passes decision =>
          rw [same] at passes decision
          have none : decisions config (calls ++ [c]) = decisions config calls := by
            rw [decisions_snoc, decision, Option.toList_none, List.append_nil]
          refine ⟨same, none ▸ successful, ?_, ?_, none ▸ history⟩
          · dsimp only
            omega
          · rw [every, ← passed]
            simp only [passes, and_true]
            omega
      | interrupted error fails decision =>
          rw [same] at fails decision
          have none : decisions config (calls ++ [c]) = decisions config calls := by
            rw [decisions_snoc, decision, Option.toList_none, List.append_nil]
          refine ⟨same, none ▸ successful, ?_, ?_, none ▸ history⟩
          · dsimp only
            omega
          · rw [every]
            simp only [fails, and_false, iff_false]
            omega

/-! ## What the pipeline reports -/

/-- The counters add up, and the history that can be read has the last decisions, oldest first. -/
structure Reported (config : PipelineConfig) (calls : List PipelineCall) : Prop where
  counted : (run config calls).totalDecisions =
    (run config calls).successfulDecisions + (run config calls).failedDecisions
  listed : config.enableRecording →
    (run config calls).listHistory = (decisions config calls).rtake config.maxHistorySize

/-- The report is right after every call exactly if no processor ever fails and, with recording on,
    at most one decision is kept or there are not more of them than the buffer has slots. -/
theorem reports (config : PipelineConfig) (calls : List PipelineCall) :
    (∀ done, done <+: calls → Reported config done) ↔
      (∀ c ∈ calls, c.Passes config) ∧
        (config.enableRecording → config.maxHistorySize = 1 ∨
          (decisions config calls).length ≤ RingBuffer.slotsFor config.maxHistorySize) := by
  have shown (done : List PipelineCall) (recording : config.enableRecording) :
      (run config done).listHistory = (RingBuffer.bounded config.maxHistorySize (decisions config done)).firstSlice := by
    rw [listHistory, (run_kept config done).history recording]
  constructor
  · intro all
    refine ⟨(run_kept config calls).passed.mp (all calls (List.prefix_refl _)).counted, fun recording => ?_⟩
    rw [← RingBuffer.bounded_slices]
    intro kept front
    obtain ⟨done, before, rfl⟩ := List.prefix_filterMap_iff.mp front
    have listed := (all done before).listed recording
    rw [shown done recording] at listed
    exact listed
  · rintro ⟨passes, few⟩ done before
    refine ⟨(run_kept config done).passed.mpr fun c member => passes c (before.subset member), fun recording => ?_⟩
    rw [shown done recording]
    exact (RingBuffer.bounded_slices _ _).mpr (few recording) _ (before.filterMap _)

/-- A healthy maker that continues, and processors that are given. -/
def sampleCall (uuid : String)
    (preProcessors : List (DecisionContext → Except DecisionError DecisionContext)) : PipelineCall where
  context := { triggerSituation := .agentIdle, mainAgentId := "agent" }
  preProcessors := preProcessors
  selectMaker _ := ⟨⟨"rule_based", none⟩, "situation_based", "strategy selected", []⟩
  getForExecution _ := some ⟨true, fun _ => .ok { actions := [⟨⟨"continue"⟩, []⟩], reasoning := "" }⟩
  uuid := uuid
  startedAt := 0
  completedAt := 1

/-- Five decisions in four slots: the fifth one wraps around and cannot be read. A failing
    pre-processor leaves a call that is counted neither as a success nor as a failure. -/
theorem history_wraps :
    ¬ Reported { maxHistorySize := 4 }
        [sampleCall "1" [], sampleCall "2" [], sampleCall "3" [], sampleCall "4" [], sampleCall "5" []] ∧
      ¬ Reported {} [sampleCall "1" [fun _ => .error (.parseError "no context")]] := by
  constructor
  · intro report
    have listed := congrArg List.length (report.listed rfl)
    revert listed
    decide
  · intro report
    have counted := report.counted
    revert counted
    decide

end DecisionPipeline

end AgileAgent.Decision
