import AgileAgent.Backlog.Moves
import AgileAgent.Fallible
import AgileAgent.Core.Loop.LoopRunner

/-! # Judging a turn

What a turn is judged to be, as a function of the state after it, and what a judgement leaves of
the state but for messages in the transcript. Everything about the loop rests on these two.
-/

namespace AgileAgent.Core.Loop

open Backlog RuntimeDomain Fallible

/-! ## Steps of the loop -/

section

variable {returns : PUnit → LoopState → Prop} {fails : LoopError → LoopState → Prop} {s : LoopState}

@[simp] theorem ends_update (change : AppState → AppState) :
    Ends (update change) s returns fails ↔ returns ⟨⟩ { s with app := change s.app } := Iff.rfl

@[simp] theorem ends_record (event : LoopEvent) :
    Ends (record event) s returns fails ↔ returns ⟨⟩ { s with log := s.log ++ [event] } := Iff.rfl

@[simp] theorem ends_nextCall {returns : Nat → LoopState → Prop} :
    Ends nextCall s returns fails ↔ returns s.calls { s with calls := s.calls + 1 } := Iff.rfl

/-- The hook sees the state and leaves it. -/
theorem onStateChange_ends (host : Host) :
    Ends (onStateChange host) s (fun _ s' => s'.app = s.app ∧ s'.log = s.log)
      fun error s' => (∃ message, error = .failed message) ∧ s'.app = s.app ∧ s'.log = s.log := by
  simp only [onStateChange, ends_bind, ends_nextCall, ends_get]
  cases host.onStateChange s.calls s.app <;> simp [orFail]

end

/-! ## The state but for its transcript -/

namespace AppState

def quiet (s : AppState) : AppState := { s with transcript := [] }

variable (s : AppState)

@[simp] theorem quiet_push (entry : TranscriptEntry) : (s.push entry).quiet = s.quiet := rfl

@[simp] theorem quiet_pushStatusMessage (text : String) : (s.pushStatusMessage text).quiet = s.quiet := rfl

@[simp] theorem quiet_pushErrorMessage (text : String) : (s.pushErrorMessage text).quiet = s.quiet := rfl

@[simp] theorem quiet_setLoopPhase (phase : LoopPhase) :
    (s.setLoopPhase phase).quiet = s.quiet.setLoopPhase phase := rfl

@[simp] theorem quiet_markActiveTask (status : TaskStatus) :
    (s.markActiveTask status).quiet = s.quiet.markActiveTask status := by
  cases active : s.activeTaskId <;> simp [markActiveTask, quiet, active]

@[simp] theorem quiet_endActiveTask (status : TaskStatus) (resultSummary : Option String)
    (todoChange : TodoItem → TodoItem) :
    (s.endActiveTask status resultSummary todoChange).quiet =
      s.quiet.endActiveTask status resultSummary todoChange := by
  cases active : s.activeTaskId <;> simp [endActiveTask, quiet, active]

@[simp] theorem quiet_recordVerificationMessages (result : VerificationResult) :
    (recordVerificationMessages s result).quiet = s.quiet := by
  have folded (evidence : List String) (s : AppState) :
      (evidence.foldl (fun s evidence => s.pushStatusMessage ("evidence: " ++ evidence)) s).quiet =
        s.quiet := by
    induction evidence generalizing s with
    | nil => rfl
    | cons text rest ih => exact ih _
  exact folded _ _

@[simp] theorem endActiveTask_activeTaskId (status : TaskStatus) (resultSummary : Option String)
    (todoChange : TodoItem → TodoItem) :
    (s.endActiveTask status resultSummary todoChange).activeTaskId = none := by
  unfold endActiveTask
  cases none : s.activeTaskId <;> simp [none]

end AppState

/-! ## Judgements -/

inductive Judgement where
  | idle
  | failed (reason : String)
  | unverified (reason : String)
  | completed (summaryText : String)
  | escalated (reason : String)
  | continued (attempts : UInt8) (prompt : String)
  | overflow
  deriving Repr, DecidableEq

namespace Judgement

def resolution : Judgement → Except LoopError TurnResolution
  | .idle => .ok .idle
  | .failed _ => .ok (.failed false)
  | .unverified _ => .ok (.failed true)
  | .completed _ => .ok .completed
  | .escalated _ => .ok .escalated
  | .continued _ prompt => .ok (.continue prompt)
  | .overflow => .error .overflow

def ofVerification (result : VerificationResult) (summaryText : String) : Judgement :=
  match result.outcome with
  | .passed => .completed summaryText
  | .failed | .notRunnable => .unverified result.summary

/-- What a judgement makes of the state, but for messages. -/
def settle (s : AppState) : Judgement → AppState
  | .idle => s.setLoopPhase .idle
  | .failed reason => (s.setLoopPhase .idle).failActiveTask reason
  | .unverified reason =>
      (((s.setLoopPhase .verifying).markActiveTaskVerifying).setLoopPhase .idle).failActiveTask reason
  | .completed summaryText =>
      (((s.setLoopPhase .verifying).markActiveTaskVerifying).completeActiveTask
        (some summaryText)).setLoopPhase .idle
  | .escalated reason => (s.setLoopPhase .escalating).blockActiveTask reason
  | .continued attempts _ => { s with continuationAttempts := attempts }.setLoopPhase .executing
  | .overflow => s

end Judgement

variable (host : Host)

/-! ## What the task engine does -/

section

variable {task : TaskItem} {s : LoopState}

/-- Saving an artifact only reads the state. -/
theorem saveTaskArtifact_ends (outcome : TaskArtifactOutcome) (reason : Option String)
    (verification : Option VerificationResult) (escalationPath : Option String) :
    Ends (saveTaskArtifact host task outcome reason verification escalationPath) s
      (fun _ s' => s'.app = s.app ∧ s'.log = s.log) fun _ _ => False := by
  simp [saveTaskArtifact]

/-- An artifact is saved, or else the error is passed on, and then its path is told. -/
theorem saved_ends {outcome : TaskArtifactOutcome} {reason : Option String}
    {verification : Option VerificationResult} {escalationPath : Option String}
    {told : String → LoopM TurnResolution} {returns : TurnResolution → LoopState → Prop}
    {fails : LoopError → LoopState → Prop}
    (returned : ∀ path s', s'.app = s.app → s'.log = s.log → Ends (told path) s' returns fails)
    (failed : ∀ message s', s'.app = s.app → s'.log = s.log → fails (.failed message) s') :
    Ends (do told (← orFail (← saveTaskArtifact host task outcome reason verification escalationPath)))
      s returns fails := by
  refine (saveTaskArtifact_ends host outcome reason verification escalationPath).andThen
    (fun saved s' kept => ?_) fun _ _ never => never.elim
  cases saved with
  | ok path => exact returned path s' kept.1 kept.2
  | error message => exact failed message s' kept.1 kept.2

/-- The active task is blocked, whether its record can be saved or not. -/
theorem escalateActiveTask_ends (reason : String) :
    Ends (escalateActiveTask host reason) s
      (fun _ s' => s'.app.quiet = (s.app.blockActiveTask reason).quiet ∧ s'.log = s.log)
      fun _ _ => False := by
  simp only [escalateActiveTask, ends_bind, ends_nextCall, ends_get, ends_update]
  split <;> simp

/-- A message of the loop comes last. -/
def AppState.EndsSaying (s : AppState) : Prop := ∃ text, s.transcript.getLast? = some (.status text)

theorem AppState.endsSaying_push (s : AppState) (text : String) : (s.push (.status text)).EndsSaying :=
  ⟨text, List.getLast?_concat⟩

/-- The task engine gives a judgement and does what it says, even where an artifact cannot be
    saved. A turn that is to be continued ends with a message. -/
def Settles (judgement : Judgement) (s : LoopState) (m : LoopM TurnResolution) : Prop :=
  Ends m s
    (fun resolution s' => judgement.resolution = .ok resolution ∧
      s'.app.quiet = (judgement.settle s.app).quiet ∧ s'.log = s.log ∧
      ∀ prompt, resolution = .continue prompt → s'.app.EndsSaying)
    fun error s' => (judgement.resolution = .error error ∨ ∃ message, error = .failed message) ∧
      s'.app.quiet = (judgement.settle s.app).quiet ∧ s'.log = s.log

theorem failWith_ends (reason : String) (verification : Option VerificationResult) :
    Ends (failWith host task reason verification) s
      (fun resolution s' => resolution = .failed verification.isSome ∧
        s'.app.quiet = ((s.app.setLoopPhase .idle).failActiveTask reason).quiet ∧ s'.log = s.log)
      fun error s' => (∃ message, error = .failed message) ∧
        s'.app.quiet = ((s.app.setLoopPhase .idle).failActiveTask reason).quiet ∧ s'.log = s.log := by
  rw [failWith, ends_bind, ends_update]
  refine saved_ends host (fun path s' app log => ?_) fun message s' app log => ⟨⟨_, rfl⟩, ?_, log⟩
  · simp [app, log]
  · rw [app]

theorem escalateWith_settles (reason : String) :
    Settles (.escalated reason) s (escalateWith host task reason) := by
  rw [Settles, escalateWith, ends_bind, ends_update]
  refine (escalateActiveTask_ends host reason).andThen (fun escalationPath s₁ blocked => ?_)
    fun _ _ never => never.elim
  refine saved_ends host (fun path s₂ app log => ?_)
    fun message s₂ app log => ⟨.inr ⟨_, rfl⟩, ?_, log.trans blocked.2⟩
  · simp [app, log, blocked, Judgement.resolution, Judgement.settle]
  · simp [app, blocked, Judgement.settle]

theorem verifyActiveTask_settles (text : String) :
    Settles (.ofVerification (executeVerification host s.calls
      (buildVerificationPlan host s.calls s.app.cwd) s.app.cwd (some text)) text) s
      (verifyActiveTask host task text) := by
  have cwd : ((s.app.setLoopPhase .verifying).markActiveTaskVerifying).cwd = s.app.cwd := by
    unfold AppState.markActiveTaskVerifying AppState.markActiveTask
    split <;> rfl
  rw [Settles, verifyActiveTask, ends_bind, ends_update, ends_bind, ends_nextCall, ends_bind, ends_get,
    ends_bind, ends_update]
  simp only [cwd]
  generalize executeVerification host s.calls _ s.app.cwd (some text) = result
  cases outcome : result.outcome with
  | passed =>
      rw [ends_bind, ends_update]
      refine saved_ends host (fun path s₁ app log => ?_) fun message s₁ app log => ⟨.inr ⟨_, rfl⟩, ?_, log⟩
      · simp [app, log, outcome, Judgement.ofVerification, Judgement.resolution, Judgement.settle,
          AppState.completeActiveTask, AppState.markActiveTaskVerifying]
      · simp [app, outcome, Judgement.ofVerification, Judgement.settle, AppState.completeActiveTask,
          AppState.markActiveTaskVerifying]
  | failed | notRunnable =>
      refine (failWith_ends host result.summary (some result)).mono (fun resolution s₁ failed => ?_)
        fun error s₁ failed => ⟨.inr failed.1, ?_⟩
      · simp [failed, outcome, Judgement.ofVerification, Judgement.resolution, Judgement.settle,
          AppState.failActiveTask, AppState.markActiveTaskVerifying]
      · simp [failed, outcome, Judgement.ofVerification, Judgement.settle, AppState.failActiveTask,
          AppState.markActiveTaskVerifying]

end

/-! ## Judging texts -/

theorem addOne_of_lt {n limit : UInt8} (below : n < limit) : addOne n = some (n + 1) := by
  have fits : n.toNat + 1 < UInt8.size :=
    Nat.lt_of_le_of_lt (Nat.succ_le_of_lt (UInt8.lt_iff_toNat_lt.mp below)) limit.toNat_lt
  simp [addOne, fits]

variable [Unicode] (guardrails : ExecutionGuardrails) (calls : Nat)

/-- The judgement of a text. -/
def judgeText (s : AppState) (task : TaskItem) (text : String) : Judgement :=
  match continuationPrompt text with
  | some prompt =>
      if s.continuationAttempts ≥ guardrails.maxContinuationsPerTask then
        .escalated "continuation limit reached"
      else
        match addOne s.continuationAttempts with
        | none => .overflow
        | some attempts => .continued attempts prompt
  | none =>
      match judgeCompletion task text with
      | .readyForVerification =>
          .ofVerification
            (executeVerification host calls (buildVerificationPlan host calls s.cwd) s.cwd (some text)) text
      | .incomplete reason => .escalated reason

/-- The text from which a turn is judged: none where there is no task, or where the turn had an
    error. -/
def judgedText (s : AppState) : Option String :=
  if currentActiveTask s = none ∨ s.activeTaskHadError then none else s.activeTaskSummary

def judge (s : AppState) : Judgement :=
  match currentActiveTask s with
  | none => .idle
  | some task =>
      if s.activeTaskHadError then .failed "provider execution failed"
      else
        match judgedText s with
        | none => .failed "provider returned no assistant summary"
        | some text => judgeText host guardrails calls s task text

theorem resolve_settles (s : LoopState) :
    Settles (judge host guardrails s.calls s.app) s (resolveActiveTaskAfterTurn host guardrails) := by
  have failed (task : TaskItem) (reason : String) :
      Settles (.failed reason) s (failWith host task reason none) :=
    (failWith_ends host reason none).mono
      (fun resolution s₁ failed => by simp [failed, Judgement.resolution, Judgement.settle])
      fun error s₁ failed => ⟨.inr failed.1, by simp [failed, Judgement.settle]⟩
  rw [Settles, resolveActiveTaskAfterTurn, ends_bind, ends_get, judge, judgedText]
  cases active : currentActiveTask s.app with
  | none => simp [Judgement.resolution, Judgement.settle]
  | some task =>
      cases hadError : s.app.activeTaskHadError with
      | true => exact failed task _
      | false =>
          cases summary : s.app.activeTaskSummary with
          | none =>
              simp only [reduceCtorEq, Bool.false_eq_true, or_self, if_false]
              exact failed task _
          | some text =>
              simp only [reduceCtorEq, Bool.false_eq_true, or_self, if_false, judgeText]
              cases continuationPrompt text with
              | none =>
                  cases judgeCompletion task text with
                  | readyForVerification => exact verifyActiveTask_settles host text
                  | incomplete reason => exact escalateWith_settles host reason
              | some prompt =>
                  by_cases limit : s.app.continuationAttempts ≥ guardrails.maxContinuationsPerTask
                  · simp only [limit, if_true]
                    exact escalateWith_settles host _
                  · simp only [limit, if_false, addOne_of_lt (UInt8.not_le.mp limit)]
                    exact ⟨rfl, rfl, rfl, fun _ _ => AppState.endsSaying_push _ _⟩

/-! ## What a judgement leaves -/

omit [Unicode] in
theorem endActiveTask_ids (s : AppState) (status : TaskStatus) (resultSummary : Option String)
    (todoChange : TodoItem → TodoItem) :
    (s.endActiveTask status resultSummary todoChange).backlog.tasks.map TaskItem.id =
      s.backlog.tasks.map TaskItem.id := by
  unfold AppState.endActiveTask
  cases s.activeTaskId with
  | none => rfl
  | some taskId =>
      dsimp only
      split <;> simp [BacklogState.updateTodo, BacklogState.updateTask_eq_modify, FirstMatch.map_modify]

omit [Unicode] in
theorem markActiveTask_ids (s : AppState) (status : TaskStatus) :
    (s.markActiveTask status).backlog.tasks.map TaskItem.id = s.backlog.tasks.map TaskItem.id := by
  unfold AppState.markActiveTask
  cases s.activeTaskId with
  | none => rfl
  | some taskId => simp [BacklogState.updateTask_eq_modify, FirstMatch.map_modify]

omit [Unicode] in
theorem settle_ids (s : AppState) (judgement : Judgement) :
    (judgement.settle s).backlog.tasks.map TaskItem.id = s.backlog.tasks.map TaskItem.id := by
  cases judgement with
  | idle | continued | overflow => rfl
  | failed reason => exact endActiveTask_ids _ _ _ _
  | unverified reason => exact (endActiveTask_ids _ _ _ _).trans (markActiveTask_ids _ _)
  | completed summaryText => exact (endActiveTask_ids _ _ _ _).trans (markActiveTask_ids _ _)
  | escalated reason => exact endActiveTask_ids _ _ _ _

/-- A judgement that resolves the active task. -/
def Judgement.isFinal : Judgement → Bool
  | .failed _ | .unverified _ | .completed _ | .escalated _ => true
  | .idle | .continued _ _ | .overflow => false

omit [Unicode] in
theorem Judgement.isFinal_settles (judgement : Judgement) (final : judgement.isFinal) (s : AppState) :
    (∃ resolution, judgement.resolution = .ok resolution ∧ ∀ prompt, resolution ≠ .continue prompt) ∧
      currentActiveTask (judgement.settle s) = none := by
  have gone {s : AppState} (none : s.activeTaskId = none) : currentActiveTask s = Option.none := by
    simp [currentActiveTask, none]
  cases judgement with
  | idle | continued | overflow => cases final
  | failed reason => exact ⟨⟨_, rfl, by simp⟩, gone (AppState.endActiveTask_activeTaskId _ _ _ _)⟩
  | unverified reason => exact ⟨⟨_, rfl, by simp⟩, gone (AppState.endActiveTask_activeTaskId _ _ _ _)⟩
  | completed text => exact ⟨⟨_, rfl, by simp⟩, gone (AppState.endActiveTask_activeTaskId _ _ _ _)⟩
  | escalated reason => exact ⟨⟨_, rfl, by simp⟩, gone (AppState.endActiveTask_activeTaskId _ _ _ _)⟩

/-- A text continues its task, counting below the limit, or resolves it. -/
theorem judgeText_cases (s : AppState) (task : TaskItem) (text : String) :
    (∃ prompt, judgeText host guardrails calls s task text =
        .continued (s.continuationAttempts + 1) prompt ∧
      s.continuationAttempts < guardrails.maxContinuationsPerTask) ∨
    (judgeText host guardrails calls s task text).isFinal := by
  unfold judgeText
  cases continuationPrompt text with
  | some prompt =>
      by_cases limit : s.continuationAttempts ≥ guardrails.maxContinuationsPerTask
      · simp [limit, Judgement.isFinal]
      · have below := UInt8.not_le.mp limit
        simp [limit, addOne_of_lt below, below]
  | none =>
      cases judgeCompletion task text with
      | incomplete reason => exact .inr rfl
      | readyForVerification =>
          refine .inr ?_
          unfold Judgement.ofVerification
          dsimp only
          split <;> rfl

theorem judge_cases (s : AppState) :
    (∃ prompt, judge host guardrails calls s = .continued (s.continuationAttempts + 1) prompt ∧
      s.continuationAttempts < guardrails.maxContinuationsPerTask) ∨
    judge host guardrails calls s = .idle ∧ currentActiveTask s = none ∨
    (judge host guardrails calls s).isFinal := by
  unfold judge
  cases currentActiveTask s with
  | none => exact .inr (.inl ⟨rfl, rfl⟩)
  | some task =>
      cases s.activeTaskHadError with
      | true => exact .inr (.inr rfl)
      | false =>
          cases judgedText s with
          | none => exact .inr (.inr rfl)
          | some text =>
              rcases judgeText_cases host guardrails calls s task text with continued | final
              · exact .inl continued
              · exact .inr (.inr final)

end AgileAgent.Core.Loop
