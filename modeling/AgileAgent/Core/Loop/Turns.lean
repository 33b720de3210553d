import AgileAgent.Core.Loop.Judgement

/-! # Turns

What a turn of the provider makes of the state, and what the turns that one task is given leave:
they are no more than its continuations and one, and at the end no task is active.
-/

namespace AgileAgent.Core.Loop

open Backlog RuntimeDomain Fallible

/-! ## The events of a turn -/

namespace AppState

/-- What an event does to the state, but for its transcript. -/
def noted (s : AppState) : DomainEvent → AppState
  | .sessionHandle handle => s.applySessionHandle handle
  | .error error =>
      if isSessionExpiredError error then s.markActiveTaskError.clearSession else s.markActiveTaskError
  | .finished => s.finishProviderResponse
  | _ => s

/-- The state after the events of a turn. -/
def consumed (s : AppState) : List DomainEvent → AppState
  | [] => s.disconnect
  | event :: rest => if event = .finished then s.take event else (s.take event).consumed rest

@[simp] theorem quiet_reviseOrPush (s : AppState) (revise : TranscriptEntry → Option TranscriptEntry)
    (entry : TranscriptEntry) : (s.reviseOrPush revise entry).quiet = s.quiet := by
  unfold reviseOrPush
  split <;> rfl

theorem quiet_take (s : AppState) (event : DomainEvent) : (s.take event).quiet = (s.noted event).quiet := by
  cases event with
  | assistantChunk chunk =>
      simp only [take, appendAssistantChunk]
      split <;> rfl
  | thinkingChunk chunk =>
      simp only [take, appendThinkingChunk]
      split <;> rfl
  | execCommandOutputDelta callId delta =>
      simp only [take, appendExecCommandOutput]
      split
      · rfl
      · exact quiet_reviseOrPush _ _ _
  | patchApplyOutputDelta callId delta =>
      simp only [take, appendPatchApplyOutput]
      split
      · rfl
      · split <;> rfl
  | execCommandFinished | genericToolCallFinished | webSearchFinished | mcpToolCallFinished
  | patchApplyFinished => exact quiet_reviseOrPush _ _ _
  | error error =>
      simp only [take, noted]
      split <;> rfl
  | status | execCommandStarted | genericToolCallStarted | webSearchStarted | viewImage
  | imageGenerationFinished | mcpToolCallStarted | patchApplyStarted | sessionHandle | providerPid
  | finished => rfl

/-- What a turn leaves alone. -/
structure KeepsTask (s s' : AppState) : Prop where
  backlog : s'.backlog = s.backlog
  activeTaskId : s'.activeTaskId = s.activeTaskId
  continuationAttempts : s'.continuationAttempts = s.continuationAttempts

theorem KeepsTask.trans {s s' s'' : AppState} (first : KeepsTask s s') (second : KeepsTask s' s'') :
    KeepsTask s s'' where
  backlog := second.backlog.trans first.backlog
  activeTaskId := second.activeTaskId.trans first.activeTaskId
  continuationAttempts := second.continuationAttempts.trans first.continuationAttempts

theorem KeepsTask.of_quiet {s s' s'' : AppState} (kept : KeepsTask s s') (quiet : s''.quiet = s'.quiet) :
    KeepsTask s s'' where
  backlog := (congrArg AppState.backlog quiet).trans kept.backlog
  activeTaskId := (congrArg AppState.activeTaskId quiet).trans kept.activeTaskId
  continuationAttempts := (congrArg AppState.continuationAttempts quiet).trans kept.continuationAttempts

theorem KeepsTask.currentActiveTask {s s' : AppState} (kept : KeepsTask s s') :
    currentActiveTask s' = currentActiveTask s := by
  simp [Loop.currentActiveTask, kept.activeTaskId, kept.backlog]

theorem take_keepsTask (s : AppState) (event : DomainEvent) : KeepsTask s (s.take event) := by
  suffices noted : KeepsTask s (s.noted event) from noted.of_quiet (s.quiet_take event)
  cases event with
  | sessionHandle handle => cases handle <;> exact ⟨rfl, rfl, rfl⟩
  | error error =>
      simp only [AppState.noted]
      split <;> exact ⟨rfl, rfl, rfl⟩
  | _ => exact ⟨rfl, rfl, rfl⟩

theorem consumed_keepsTask (s : AppState) (events : List DomainEvent) : KeepsTask s (s.consumed events) := by
  induction events generalizing s with
  | nil => exact ⟨rfl, rfl, rfl⟩
  | cons event rest ih =>
      rw [consumed]
      split
      · exact s.take_keepsTask event
      · exact (s.take_keepsTask event).trans (ih _)

end AppState

variable (host : Host)

theorem consume_ends (events : List DomainEvent) (s : LoopState) :
    Ends (consumeProviderUntilFinished host events) s
      (fun _ s' => s'.app = s.app.consumed events ∧ s'.log = s.log)
      fun error s' => (∃ message, error = .failed message) ∧ s'.log = s.log := by
  induction events generalizing s with
  | nil =>
      rw [consumeProviderUntilFinished, ends_bind, ends_update]
      exact (onStateChange_ends host).mono (fun _ s' kept => kept) fun error s' failed => ⟨failed.1, failed.2.2⟩
  | cons event rest ih =>
      have hooked (s : LoopState) :
          Ends (do onStateChange host; consumeProviderUntilFinished host rest) s
            (fun _ s' => s'.app = s.app.consumed rest ∧ s'.log = s.log)
            fun error s' => (∃ message, error = .failed message) ∧ s'.log = s.log := by
        refine (onStateChange_ends host).andThen (fun _ s' kept => ?_) fun error s' failed => ⟨failed.1, failed.2.2⟩
        rw [← kept.1, ← kept.2]
        exact ih s'
      cases event with
      | sessionHandle | error =>
          rw [consumeProviderUntilFinished, ends_bind, ends_update]
          exact hooked _
      | finished =>
          rw [consumeProviderUntilFinished, ends_bind, ends_update]
          exact (onStateChange_ends host).mono (fun _ s' kept => kept)
            fun error s' failed => ⟨failed.1, failed.2.2⟩
      | _ =>
          simp only [consumeProviderUntilFinished, ends_bind, ends_update]
          exact ih _

theorem currentActiveTask_of_quiet {s s' : AppState} (same : s'.quiet = s.quiet) :
    currentActiveTask s' = currentActiveTask s := by
  have found := congrArg currentActiveTask same
  exact found

theorem settled_length {s s' : AppState} (judgement : Judgement)
    (same : s'.quiet = (judgement.settle s).quiet) :
    s'.backlog.tasks.length = s.backlog.tasks.length := by
  have tasks := congrArg (fun s : AppState => s.backlog.tasks.length) same
  have kept : (judgement.settle s).backlog.tasks.length = s.backlog.tasks.length := by
    simpa using congrArg List.length (settle_ids s judgement)
  exact tasks.trans kept

/-- A provider that does not start leaves no task active, as a judgement would. -/
theorem handleProviderStartFailure_ends (reason : String) (s : LoopState) :
    Ends (handleProviderStartFailure host reason) s
      (fun _ s' => currentActiveTask s'.app = none ∧
        s'.app.backlog.tasks.length = s.app.backlog.tasks.length ∧ s'.log = s.log)
      fun _ _ => False := by
  rw [handleProviderStartFailure, ends_bind, ends_get]
  cases active : currentActiveTask s.app with
  | none => exact ⟨active, rfl, rfl⟩
  | some task =>
      dsimp only
      rw [ends_bind, ends_update]
      refine (escalateActiveTask_ends host _).andThen (fun escalationPath s₁ blocked => ?_)
        fun _ _ never => never.elim
      refine (saveTaskArtifact_ends host _ _ _ _).andThen (fun saved s₂ kept => ?_)
        fun _ _ never => never.elim
      have told {app : AppState} (same : app.quiet = s₂.app.quiet) : currentActiveTask app = none ∧
          app.backlog.tasks.length = s.app.backlog.tasks.length := by
        rw [kept.1, blocked.1] at same
        refine ⟨(currentActiveTask_of_quiet same).trans ?_, settled_length (.escalated _) same⟩
        exact (Judgement.isFinal_settles (.escalated _) rfl s.app).2
      rw [ends_bind, ends_update]
      cases saved with
      | ok path => exact ⟨(told rfl).1, (told rfl).2, kept.2.trans blocked.2⟩
      | error message => exact ⟨(told rfl).1, (told rfl).2, kept.2.trans blocked.2⟩

/-! ## The turns of a task -/

/-- A task is under way, and a message of the loop ends what was said before. -/
structure Ready (s : AppState) : Prop where
  active : ∃ task, currentActiveTask s = some task
  separated : s.EndsSaying

/-- How many turns a task has left. -/
def turnsLeft (guardrails : ExecutionGuardrails) (s : AppState) : Nat :=
  guardrails.maxContinuationsPerTask.toNat - s.continuationAttempts.toNat + 1

/-- The log grows by starts of the provider for one task, each from a state that is ready, and by
    no more than some number. -/
def Starts (position bound : Nat) (log log' : List LoopEvent) : Prop :=
  ∃ events, log' = log ++ events ∧ events.length ≤ bound ∧
    ∀ event ∈ events, ∃ before stream, event = .started position before stream ∧ Ready before

namespace Starts

variable {position bound : Nat} {log log' : List LoopEvent}

theorem none : Starts position bound log log := ⟨[], by simp, Nat.zero_le _, by simp⟩

theorem one {before : AppState} {stream : Except String (List DomainEvent)} (ready : Ready before)
    (later : Starts position bound (log ++ [.started position before stream]) log') :
    Starts position (bound + 1) log log' := by
  obtain ⟨events, grown, bounded, each⟩ := later
  refine ⟨.started position before stream :: events, by simp [grown], by simpa using bounded, ?_⟩
  exact List.forall_mem_cons.mpr ⟨⟨before, stream, rfl, ready⟩, each⟩

end Starts

theorem startProvider_ends (position : Nat) (prompt : String) (s : LoopState) :
    Ends (startProvider host position prompt) s
      (fun stream s' => s'.app = s.app ∧ s'.log = s.log ++ [.started position s.app stream])
      fun _ _ => False := by
  simp [startProvider]

/-- What the beginning of a turn makes of the state. -/
def AppState.begun (s : AppState) : AppState :=
  ((s.setLoopPhase .executing).markActiveTaskRunning).beginProviderResponse

namespace AppState

theorem begun_transcript (s : AppState) : s.begun.transcript = s.transcript := by
  cases active : s.activeTaskId <;>
    simp [begun, markActiveTaskRunning, markActiveTask, active, setLoopPhase, beginProviderResponse]

theorem begun_attempts (s : AppState) : s.begun.continuationAttempts = s.continuationAttempts := by
  cases active : s.activeTaskId <;>
    simp [begun, markActiveTaskRunning, markActiveTask, active, setLoopPhase, beginProviderResponse]

theorem begun_length (s : AppState) : s.begun.backlog.tasks.length = s.backlog.tasks.length := by
  have kept := congrArg List.length (markActiveTask_ids (s.setLoopPhase .executing) .running)
  rw [List.length_map, List.length_map] at kept
  exact kept

theorem currentActiveTask_begun (s : AppState) :
    Loop.currentActiveTask s.begun =
      (Loop.currentActiveTask s).map ({ · with status := .running }) := by
  cases active : s.activeTaskId with
  | none =>
      simp [begun, markActiveTaskRunning, markActiveTask, active, setLoopPhase, beginProviderResponse,
        Loop.currentActiveTask]
  | some taskId =>
      simp only [begun, markActiveTaskRunning, markActiveTask, active, setLoopPhase,
        beginProviderResponse, Loop.currentActiveTask, Option.bind_some, BacklogState.findTask,
        BacklogState.updateTask_eq_modify]
      exact FirstMatch.find?_modify fun task found => found

theorem ready_begun {s : AppState} (ready : Ready s) : Ready s.begun where
  active := by
    obtain ⟨task, found⟩ := ready.active
    exact ⟨_, by rw [currentActiveTask_begun, found, Option.map_some]⟩
  separated := by
    unfold EndsSaying
    rw [begun_transcript]
    exact ready.separated

end AppState

variable [Unicode]

omit [Unicode] in
theorem toNat_succ_of_lt {n limit : UInt8} (below : n < limit) : (n + 1).toNat = n.toNat + 1 := by
  have less := UInt8.lt_iff_toNat_lt.mp below
  have fits := limit.toNat_lt
  rw [UInt8.toNat_add, UInt8.toNat_one]
  omega

/-- A turn is to be continued, which counts, or no task is active after it. -/
theorem resolve_ends (guardrails : ExecutionGuardrails) (s : LoopState) :
    Ends (resolveActiveTaskAfterTurn host guardrails) s
      (fun resolution s' => s'.log = s.log ∧
        s'.app.backlog.tasks.length = s.app.backlog.tasks.length ∧
        ((∃ prompt, resolution = .continue prompt ∧
            s.app.continuationAttempts < guardrails.maxContinuationsPerTask ∧
            s'.app.continuationAttempts = s.app.continuationAttempts + 1 ∧
            currentActiveTask s'.app = currentActiveTask s.app ∧ s'.app.EndsSaying) ∨
          (∀ prompt, resolution ≠ .continue prompt) ∧ currentActiveTask s'.app = none))
      fun error s' => (∃ message, error = .failed message) ∧ s'.log = s.log := by
  refine (resolve_settles host guardrails s).mono (fun resolution s' settled => ?_)
    fun error s' settled => ⟨?_, settled.2.2⟩
  · obtain ⟨resolves, same, log, said⟩ := settled
    refine ⟨log, settled_length _ same, ?_⟩
    rcases judge_cases host guardrails s.calls s.app with ⟨prompt, continued, below⟩ | ⟨idle, gone⟩ | final
    · rw [continued] at resolves same
      cases resolves
      have attempts := congrArg AppState.continuationAttempts same
      have active := currentActiveTask_of_quiet same
      exact .inl ⟨prompt, rfl, below, attempts, active, said prompt rfl⟩
    · rw [idle] at resolves same
      cases resolves
      exact .inr ⟨by simp, (currentActiveTask_of_quiet same).trans gone⟩
    · obtain ⟨⟨resolution', resolves', ends⟩, gone⟩ := Judgement.isFinal_settles _ final s.app
      rw [resolves'] at resolves
      cases resolves
      exact .inr ⟨ends, (currentActiveTask_of_quiet same).trans gone⟩
  · rcases settled.1 with resolves | failed
    · rcases judge_cases host guardrails s.calls s.app with ⟨prompt, continued, below⟩ | ⟨idle, gone⟩ | final
      · rw [continued] at resolves
        cases resolves
      · rw [idle] at resolves
        cases resolves
      · obtain ⟨⟨resolution', resolves', ends⟩, gone⟩ := Judgement.isFinal_settles _ final s.app
        rw [resolves'] at resolves
        cases resolves
    · exact failed

theorem takeTurns_ends (position : Nat) (guardrails : ExecutionGuardrails) (steps : Nat) (prompt : String)
    (s : LoopState) (ready : Ready s.app) (enough : turnsLeft guardrails s.app ≤ steps) :
    Ends (takeTurns host position guardrails steps prompt) s
      (fun _ s' => Starts position (turnsLeft guardrails s.app) s.log s'.log ∧
        currentActiveTask s'.app = none ∧
        s'.app.backlog.tasks.length = s.app.backlog.tasks.length)
      fun error s' => (∃ message, error = .failed message) ∧
        Starts position (turnsLeft guardrails s.app) s.log s'.log := by
  induction steps generalizing prompt s with
  | zero => simp [turnsLeft] at enough
  | succ steps ih =>
      have begun := AppState.ready_begun ready
      rw [takeTurns, ends_bind, ends_update, ends_bind, ends_update, ends_bind, ends_update]
      refine (onStateChange_ends host).andThen (fun _ s₁ hooked => ?_)
        fun error s₁ failed => ⟨failed.1, by rw [failed.2.2]; exact .none⟩
      have app₁ : s₁.app = s.app.begun := hooked.1
      refine (startProvider_ends host position prompt s₁).andThen (fun stream s₂ started => ?_)
        fun _ _ never => never.elim
      -- the start of this turn, and then those of the turns that are left
      have log₂ : s₂.log = s.log ++ [.started position s.app.begun stream] := by
        rw [started.2, hooked.2, app₁]
      have next {bound : Nat} {log : List LoopEvent} (later : Starts position bound s₂.log log) :
          Starts position (bound + 1) s.log log := .one begun (log₂ ▸ later)
      have last {log : List LoopEvent} (same : log = s₂.log) :
          Starts position (turnsLeft guardrails s.app) s.log log := next (by rw [same]; exact .none)
      have length₂ : s₂.app.backlog.tasks.length = s.app.backlog.tasks.length := by
        rw [started.1, app₁, AppState.begun_length]
      cases stream with
      | error err =>
          dsimp only
          rw [ends_bind, ends_update]
          refine (handleProviderStartFailure_ends host err _).andThen (fun _ s₃ handled => ?_)
            fun _ _ never => never.elim
          refine (onStateChange_ends host).andThen (fun _ s₄ kept => ?_)
            fun error s₄ failed => ⟨failed.1, last (failed.2.2.trans handled.2.2)⟩
          refine ⟨last (kept.2.trans handled.2.2), ?_, ?_⟩
          · rw [kept.1, handled.1]
          · rw [kept.1, handled.2.1, ← length₂]
            rfl
      | ok events =>
          dsimp only
          refine (consume_ends host events s₂).andThen (fun _ s₃ consumed => ?_)
            fun error s₃ failed => ⟨failed.1, last failed.2⟩
          have kept₃ : AppState.KeepsTask s.app.begun s₃.app := by
            rw [consumed.1, started.1, app₁]
            exact AppState.consumed_keepsTask _ _
          refine (resolve_ends host guardrails s₃).andThen (fun resolution s₄ resolved => ?_)
            fun error s₄ failed => ⟨failed.1, last (failed.2.trans consumed.2)⟩
          have log₄ : s₄.log = s₂.log := resolved.1.trans consumed.2
          refine (onStateChange_ends host).andThen (fun _ s₅ hooked => ?_)
            fun error s₅ failed => ⟨failed.1, last (failed.2.2.trans log₄)⟩
          have log₅ : s₅.log = s₂.log := hooked.2.trans log₄
          have length₅ : s₅.app.backlog.tasks.length = s.app.backlog.tasks.length := by
            rw [hooked.1, resolved.2.1, kept₃.backlog, AppState.begun_length]
          rcases resolved.2.2 with ⟨prompt', rfl, below, attempts, same, said⟩ | ⟨ends, gone⟩
          · rw [kept₃.continuationAttempts, AppState.begun_attempts] at below attempts
            have fewer : turnsLeft guardrails s.app = turnsLeft guardrails s₅.app + 1 := by
              have less := UInt8.lt_iff_toNat_lt.mp below
              rw [turnsLeft, turnsLeft, hooked.1, attempts, toNat_succ_of_lt below]
              omega
            have ready₅ : Ready s₅.app := by
              rw [hooked.1]
              exact ⟨by rw [same, kept₃.currentActiveTask]; exact begun.active, said⟩
            rw [fewer]
            refine (ih prompt' s₅ ready₅ (by omega)).mono (fun outcome s₆ turns => ?_)
              fun error s₆ turns => ⟨turns.1, next (log₅ ▸ turns.2)⟩
            exact ⟨next (log₅ ▸ turns.1), turns.2.1, turns.2.2.trans length₅⟩
          · have done : currentActiveTask s₅.app = none := by rw [hooked.1, gone]
            cases resolution with
            | «continue» prompt' => exact absurd rfl (ends prompt')
            | completed | escalated | idle => exact ⟨last log₅, done, length₅⟩
            | failed verificationFailed =>
                cases verificationFailed <;> exact ⟨last log₅, done, length₅⟩

end AgileAgent.Core.Loop
