import AgileAgent.Core.DecisionAgentSlot
import AgileAgent.Progress

/-! # Requests are answered in their order

A decision agent has one request under way at most. Its stage tells where that request is: with
a thread, or answered by a response that is in the channel, kept as the fallback, or received by
a poll. A thread that panics leaves none of these, and the agent thinks forever.
-/

namespace AgileAgent.Core

namespace DecisionAgent

variable {Context Output : Type}

/-- Where the request under way is. -/
inductive Stage (Context Output : Type) where
  | resting
  | running (t : DecisionThread Context Output)
  | sent (d : Decision Context Output)
  | kept (d : Decision Context Output)
  | received (d : Decision Context Output)

namespace Stage

def threads : Stage Context Output → List (DecisionThread Context Output)
  | .running t => [t]
  | .resting | .sent _ | .kept _ | .received _ => []

def inChannel : Stage Context Output → List (Decision Context Output)
  | .sent d => [d]
  | .resting | .running _ | .kept _ | .received _ => []

def asFallback : Stage Context Output → Option (Decision Context Output)
  | .kept d => some d
  | .resting | .running _ | .sent _ | .received _ => none

def inPoll : Stage Context Output → List (Decision Context Output)
  | .received d => [d]
  | .resting | .running _ | .sent _ | .kept _ => []

def status : Stage Context Output → DecisionAgentStatus
  | .resting => .idle
  | .running _ | .sent _ | .kept _ | .received _ => .thinking

/-- The request that has no decision yet. -/
def asking : Stage Context Output → List (DecisionRequest Context)
  | .running (.deciding request _) => [request]
  | .running (.decided _) | .running (.synced _) | .resting | .sent _ | .kept _ | .received _ => []

/-- The decision that no poll has returned yet. -/
def unanswered : Stage Context Output → List (Decision Context Output)
  | .running (.decided d) | .running (.synced d) | .sent d | .kept d | .received d => [d]
  | .running (.deciding _ _) | .resting => []

/-- The decision whose round waits for the slot. -/
def pending : Stage Context Output → Option (Decision Context Output)
  | .running (.synced d) | .sent d | .kept d | .received d => some d
  | .running (.deciding _ _) | .running (.decided _) | .resting => none

/-- The number of steps made towards an answer, given whether a poll is under way. -/
def progress : Stage Context Output → Bool → Nat
  | .resting, polling => if polling then 0 else 1
  | .running (.deciding _ _), _ => 2
  | .running (.decided _), _ => 3
  | .running (.synced _), _ => 4
  | .sent _, polling | .kept _, polling => if polling then 6 else 5
  | .received _, _ => 7

end Stage

/-- The engine's round after the last decision, and 0 before the first. -/
def lastRound (decided : List (Decision Context Output)) : UInt8 :=
  (decided.getLast?.map Decision.updatedReflection).getD 0

/-- An agent whose request under way is in one place and in no other. -/
structure At (engine : DecisionEngine Context Output) (a : DecisionAgent Context Output)
    (stage : Stage Context Output) : Prop where
  threads : a.threads = stage.threads
  responses : a.responses = stage.inChannel.map (·.response engine)
  fallback : a.slot.pendingFallbackResponse = stage.asFallback.map (·.response engine)
  polling : a.polling.getD [] = stage.inPoll.map (·.response engine)
  status : a.slot.status = stage.status
  pending : ∀ d ∈ stage.pending, a.slot.pendingReflectionRound = some d.updatedReflection
  asked : a.sent = a.decided.map Decision.request ++ (stage.asking ++ a.requests)
  answered : a.decided.map (·.response engine) = a.returned ++ stage.unanswered.map (·.response engine)
  last : ∀ d ∈ stage.unanswered, a.decided.getLast? = some d
  round : stage.status = .idle → a.slot.reflectionRound = lastRound a.decided

variable {engine : DecisionEngine Context Output} {a : DecisionAgent Context Output}
  {stage : Stage Context Output}

/-- The agent as it is created. -/
theorem At.initial : At engine ({} : DecisionAgent Context Output) .resting where
  threads := rfl
  responses := rfl
  fallback := rfl
  polling := rfl
  status := rfl
  pending := by simp [Stage.pending]
  asked := rfl
  answered := rfl
  last := by simp [Stage.unanswered]
  round := fun _ => rfl

theorem At.sendRequest (placed : At engine a stage) (request : DecisionRequest Context) :
    At engine (a.sendRequest request) stage :=
  { placed with asked := by simp [DecisionAgent.sendRequest, placed.asked] }

/-- Only a resting agent takes a request, and it takes the oldest. -/
theorem At.pollAndProcess (placed : At engine a stage) :
    (∃ request rest, stage = .resting ∧ a.requests = request :: rest ∧
      At engine a.pollAndProcess.2 (.running (.deciding request a.slot.reflectionRound))) ∨
    ((stage = .resting → a.requests = []) ∧ a.pollAndProcess.2 = a) := by
  cases stage with
  | resting =>
      have idle : a.slot.status = .idle := placed.status
      cases queue : a.requests with
      | nil => exact .inr ⟨fun _ => rfl, by simp [DecisionAgent.pollAndProcess, idle, queue,
          DecisionAgentStatus.isIdle]⟩
      | cons request rest =>
          refine .inl ⟨request, rest, rfl, rfl, ?_⟩
          have taken : a.pollAndProcess.2 = spawnAsyncProcessing
              { a with requests := rest,
                       slot := { a.slot with decisionCount := a.slot.decisionCount + 1 } } request := by
            simp [DecisionAgent.pollAndProcess, idle, queue, DecisionAgentStatus.isIdle]
          rw [taken]
          exact
            { threads := by simp [spawnAsyncProcessing, placed.threads, Stage.threads]
              responses := placed.responses
              fallback := placed.fallback
              polling := placed.polling
              status := rfl
              pending := by simp [Stage.pending]
              asked := by simpa [spawnAsyncProcessing, Stage.asking, queue] using placed.asked
              answered := placed.answered
              last := by simp [Stage.unanswered]
              round := by simp [Stage.status] }
  | running | sent | kept | received =>
      have thinking : a.slot.status = .thinking := placed.status
      exact .inr ⟨by simp, by simp [DecisionAgent.pollAndProcess, thinking, DecisionAgentStatus.isIdle]⟩

/-! ## The steps of a poll -/

/-- A poll begins without responses. -/
theorem At.opened (placed : At engine a stage) (closed : a.polling = none) :
    At engine { a with polling := some [] } stage :=
  { placed with polling := by simpa [closed] using placed.polling }

/-- A poll that ends without responses leaves everything in its place. -/
theorem At.closed (placed : At engine a stage) (received : a.polling = some [])
    (none : a.slot.pendingFallbackResponse = none) : At engine (a.finishPoll []).2 stage := by
  have nothing : (a.finishPoll []).2 = { a with polling := Option.none } := by
    simp [finishPoll, none, DecisionAgentSlot.takeFallbackResponse]
    exact none ▸ rfl
  rw [nothing]
  exact { placed with polling := by simpa [received] using placed.polling }

/-- The slot returns to idle with the round of the decision that is returned. -/
theorem clearThinkingStatus_of_thinking {s : DecisionAgentSlot Output} {round : UInt8}
    (thinking : s.status = .thinking) (pending : s.pendingReflectionRound = some round) (hadError : Bool) :
    (s.clearThinkingStatus hadError).status = .idle ∧
      (s.clearThinkingStatus hadError).reflectionRound = round ∧
      (s.clearThinkingStatus hadError).pendingFallbackResponse = s.pendingFallbackResponse := by
  simp [DecisionAgentSlot.clearThinkingStatus, thinking, pending, DecisionAgentStatus.isThinking]

/-- A poll that ends with the response of the request under way returns it, and the agent
    rests. -/
theorem At.returns (placed : At engine a stage) {d : Decision Context Output}
    (unanswered : stage.unanswered = [d]) (pending : stage.pending = some d)
    (threads : stage.threads = []) (drained : a.responses = [])
    {received : List (DecisionResponse Output)} (polling : a.polling = some received)
    (holds : received = [d.response engine] ∧ stage.asFallback = none ∨
      received = [] ∧ stage.asFallback = some d) :
    At engine (a.finishPoll received).2 .resting ∧
      (a.finishPoll received).2.returned = a.returned ++ [d.response engine] := by
  have busy : a.slot.status = .thinking := by
    rw [placed.status]
    cases stage <;> simp_all [Stage.status, Stage.unanswered]
  have asking : stage.asking = [] := by
    cases stage with
    | running => simp [Stage.threads] at threads
    | resting | sent | kept | received => rfl
  have pendingRound := placed.pending d (by rw [pending]; rfl)
  have last := placed.last d (by rw [unanswered]; exact List.mem_singleton_self d)
  have answered := placed.answered
  have asked := placed.asked
  rw [unanswered, List.map_singleton] at answered
  rw [asking, List.nil_append] at asked
  obtain ⟨slot, finished, thinking, waits, kept⟩ : ∃ slot : DecisionAgentSlot Output,
      (a.finishPoll received).2 =
        { a with slot := slot.clearThinkingStatus (d.response engine).isError, polling := none,
                 returned := a.returned ++ [d.response engine] } ∧
      slot.status = .thinking ∧ slot.pendingReflectionRound = some d.updatedReflection ∧
      slot.pendingFallbackResponse = none := by
    rcases holds with ⟨rfl, none⟩ | ⟨rfl, some⟩
    · refine ⟨a.slot, ?_, busy, pendingRound, ?_⟩
      · simp [finishPoll]
      · rw [placed.fallback, none, Option.map_none]
    · refine ⟨a.slot.takeFallbackResponse.2, ?_, busy, pendingRound, rfl⟩
      simp [finishPoll, placed.fallback, some]
  obtain ⟨idle, round, fallback⟩ :=
    clearThinkingStatus_of_thinking thinking waits (d.response engine).isError
  rw [finished]
  refine ⟨?_, rfl⟩
  exact
    { threads := placed.threads.trans threads
      responses := drained
      fallback := fallback.trans kept
      polling := rfl
      status := idle
      pending := by simp [Stage.pending]
      asked := asked
      answered := by simpa [Stage.unanswered] using answered
      last := by simp [Stage.unanswered]
      round := fun _ => by rw [round, lastRound, last]; rfl }

/-- An event that is the next step of the request under way, or of the poll. -/
def Helps (progress : Nat) : DecisionEvent Context Output → Prop
  | .poll => progress ≤ 1 ∨ 5 ≤ progress
  | .thread index _ _ => index = 0 ∧ 2 ≤ progress ∧ progress ≤ 4
  | .sendRequest _ | .pollAndProcess => False

/-- What an event does for a request that waits: it is answered, or its progress is not lost and
    grows if the event helps. -/
def Forward (a : DecisionAgent Context Output) (stage : Stage Context Output)
    (e : DecisionEvent Context Output) (a' : DecisionAgent Context Output) (stage' : Stage Context Output) :
    Prop :=
  a'.returned.length = a.returned.length + 1 ∨
    a'.returned = a.returned ∧ (a.returned.length < a.sent.length →
      stage.progress a.polling.isSome ≤ stage'.progress a'.polling.isSome ∧
      (Helps (stage.progress a.polling.isSome) e →
        stage.progress a.polling.isSome < stage'.progress a'.polling.isSome))

/-- A resting agent with a request to answer has it in its channel. -/
theorem At.waiting (placed : At engine a .resting) (waits : a.returned.length < a.sent.length) :
    a.requests ≠ [] := by
  intro none
  have answered := congrArg List.length placed.answered
  have asked := congrArg List.length placed.asked
  simp [Stage.unanswered, Stage.asking, none] at answered asked
  omega

theorem pollAndProcess_frame (a : DecisionAgent Context Output) :
    a.pollAndProcess.2.polling = a.polling ∧ a.pollAndProcess.2.returned = a.returned ∧
      a.pollAndProcess.2.sent = a.sent := by
  unfold DecisionAgent.pollAndProcess
  split
  · split <;> simp [spawnAsyncProcessing]
  · simp

theorem At.poll (placed : At engine a stage) :
    ∃ stage', At engine a.pollStep.2 stage' ∧ Forward a stage .poll a.pollStep.2 stage' := by
  cases polling : a.polling with
  | none =>
      obtain ⟨closed, returned, sent⟩ := pollAndProcess_frame a
      have opens : a.pollStep.2 = { a.pollAndProcess.2 with polling := some [] } := by
        simp [pollStep, polling]
      rw [opens]
      rcases placed.pollAndProcess with ⟨request, rest, rfl, queue, taken⟩ | ⟨empty, same⟩
      · refine ⟨_, taken.opened (closed.trans polling), .inr ⟨returned, fun _ => ?_⟩⟩
        simp [Stage.progress, polling]
      · rw [same]
        refine ⟨stage, placed.opened polling, .inr ⟨rfl, fun waits => ?_⟩⟩
        cases stage with
        | resting => exact absurd (empty rfl) (placed.waiting waits)
        | running t => cases t <;> simp [Stage.progress, Helps]
        | sent | kept => simp [Stage.progress, polling]
        | received d => simpa [polling, Stage.inPoll] using placed.polling
  | some received =>
      have holds := placed.polling
      rw [polling, Option.getD_some] at holds
      have finishes (drained : a.responses = []) : a.pollStep = a.finishPoll received := by
        simp [pollStep, polling, drained]
      have frame : (a.finishPoll []).2.polling = none := rfl
      cases stage with
      | resting =>
          obtain rfl : received = [] := holds
          have none := placed.fallback
          rw [finishes placed.responses]
          refine ⟨_, placed.closed polling none, .inr ⟨?_, fun _ => ?_⟩⟩
          · simp [finishPoll, none, Stage.asFallback]
          · simp [Stage.progress, polling, frame]
      | running t =>
          obtain rfl : received = [] := holds
          have none := placed.fallback
          rw [finishes placed.responses]
          refine ⟨_, placed.closed polling none, .inr ⟨?_, fun _ => ?_⟩⟩
          · simp [finishPoll, none, Stage.asFallback]
          · cases t <;> simp [Stage.progress, Helps]
      | sent d =>
          have arrives : a.pollStep.2 =
              { a with responses := [], polling := some [d.response engine] } := by
            obtain rfl : received = [] := holds
            simp [pollStep, polling, placed.responses, Stage.inChannel]
          rw [arrives]
          refine ⟨.received d, ?_, .inr ⟨rfl, fun _ => ?_⟩⟩
          · exact { placed with responses := rfl, polling := rfl }
          · simp [Stage.progress, polling]
      | kept d =>
          rw [finishes placed.responses]
          obtain ⟨rests, returned⟩ :=
            placed.returns rfl rfl rfl placed.responses polling (.inr ⟨holds, rfl⟩)
          exact ⟨.resting, rests, .inl (by simp [returned])⟩
      | received d =>
          rw [finishes placed.responses]
          obtain ⟨rests, returned⟩ :=
            placed.returns rfl rfl rfl placed.responses polling (.inl ⟨holds, rfl⟩)
          exact ⟨.resting, rests, .inl (by simp [returned])⟩

/-! ## The steps of a thread -/

/-- The thread under way takes its next step, if it does not panic. -/
theorem At.threadMoves {t : DecisionThread Context Output} (placed : At engine a (.running t))
    {ending : DecisionEnd Output} {delivered : Bool} (calm : ¬ a.Panics (.thread 0 ending delivered)) :
    ∃ stage', At engine (a.threadStep engine 0 ending delivered) stage' ∧
      (a.threadStep engine 0 ending delivered).returned = a.returned ∧
      ∀ polling, (Stage.running t).progress polling <
        stage'.progress (a.threadStep engine 0 ending delivered).polling.isSome := by
  have threads : a.threads = [t] := placed.threads
  cases t with
  | deciding request round =>
      cases ending with
      | panicked => exact absurd ⟨request, round, by simp [threads]⟩ calm
      | finished result updatedReflection =>
          let d : Decision Context Output := ⟨request, result, updatedReflection⟩
          have decides : a.threadStep engine 0 (.finished result updatedReflection) delivered =
              { a with threads := [.decided d], decided := a.decided ++ [d] } := by
            simp [threadStep, threads, d]
          have answered : a.decided.map (·.response engine) = a.returned := by
            simpa [Stage.unanswered] using placed.answered
          rw [decides]
          refine ⟨.running (.decided d), ?_, rfl, fun _ => by simp [Stage.progress]⟩
          exact
            { placed with
              threads := rfl
              pending := by simp [Stage.pending]
              asked := by simpa [Stage.asking, d] using placed.asked
              answered := by simp [answered, Stage.unanswered]
              last := by simp [Stage.unanswered]
              round := by simp [Stage.status] }
  | decided d =>
      have syncs : a.threadStep engine 0 ending delivered =
          { a with threads := [.synced d],
                   slot := { a.slot with pendingReflectionRound := some d.updatedReflection } } := by
        simp [threadStep, threads]
      rw [syncs]
      refine ⟨.running (.synced d), ?_, rfl, fun _ => by simp [Stage.progress]⟩
      exact { placed with threads := rfl, pending := by simp [Stage.pending] }
  | synced d =>
      cases delivered with
      | true =>
          have sends : a.threadStep engine 0 ending true =
              { a with threads := [], responses := [d.response engine] } := by
            simp [threadStep, threads, placed.responses, Stage.inChannel]
          rw [sends]
          refine ⟨.sent d, { placed with threads := rfl, responses := rfl }, rfl, fun _ => ?_⟩
          simp only [Stage.progress]
          split <;> omega
      | false =>
          have keeps : a.threadStep engine 0 ending false =
              { a with threads := [],
                       slot := { a.slot with pendingFallbackResponse := some (d.response engine) } } := by
            simp [threadStep, threads]
          rw [keeps]
          refine ⟨.kept d, { placed with threads := rfl, fallback := rfl }, rfl, fun _ => ?_⟩
          simp only [Stage.progress]
          split <;> omega

/-- There is no other thread. -/
theorem At.thread (placed : At engine a stage) {index : Nat} {ending : DecisionEnd Output}
    {delivered : Bool} (calm : ¬ a.Panics (.thread index ending delivered)) :
    ∃ stage', At engine (a.threadStep engine index ending delivered) stage' ∧
      Forward a stage (.thread index ending delivered)
        (a.threadStep engine index ending delivered) stage' := by
  have threads := placed.threads
  have absent (none : a.threads[index]? = none) (still : ¬ Helps (stage.progress a.polling.isSome)
        (.thread index ending delivered : DecisionEvent Context Output)) :
      ∃ stage', At engine (a.threadStep engine index ending delivered) stage' ∧
        Forward a stage (.thread index ending delivered)
          (a.threadStep engine index ending delivered) stage' := by
    have same : a.threadStep engine index ending delivered = a := by simp [threadStep, none]
    rw [same]
    exact ⟨stage, placed, .inr ⟨rfl, fun _ => ⟨Nat.le_refl _, fun helps => absurd helps still⟩⟩⟩
  cases stage with
  | running t =>
      cases index with
      | zero =>
          obtain ⟨stage', moved, returned, further⟩ := placed.threadMoves calm
          exact ⟨stage', moved, .inr ⟨returned, fun _ => ⟨Nat.le_of_lt (further _), fun _ => further _⟩⟩⟩
      | succ index => exact absent (by simp [threads, Stage.threads]) (by simp [Helps])
  | resting | sent | kept | received =>
      refine absent (by simp [threads, Stage.threads]) ?_
      cases a.polling <;> simp [Helps, Stage.progress]

/-! ## Runs -/

theorem At.step (placed : At engine a stage) {e : DecisionEvent Context Output}
    (calm : ¬ a.Panics e) :
    ∃ stage', At engine (a.step engine e).2 stage' ∧ Forward a stage e (a.step engine e).2 stage' := by
  cases e with
  | sendRequest request =>
      exact ⟨stage, placed.sendRequest request, .inr ⟨rfl, fun _ => ⟨Nat.le_refl _, False.elim⟩⟩⟩
  | pollAndProcess =>
      cases polling : a.polling with
      | some received =>
          have same : (a.step engine .pollAndProcess).2 = a := by simp [DecisionAgent.step, polling]
          rw [same]
          exact ⟨stage, placed, .inr ⟨rfl, fun _ => ⟨Nat.le_refl _, False.elim⟩⟩⟩
      | none =>
          have called : (a.step engine .pollAndProcess).2 = a.pollAndProcess.2 := by
            simp [DecisionAgent.step, polling]
          obtain ⟨_, returned, _⟩ := pollAndProcess_frame a
          rw [called]
          rcases placed.pollAndProcess with ⟨request, rest, rfl, queue, taken⟩ | ⟨_, same⟩
          · refine ⟨_, taken, .inr ⟨returned, fun _ => ⟨?_, False.elim⟩⟩⟩
            simp [Stage.progress, polling]
          · rw [same]
            exact ⟨stage, placed, .inr ⟨rfl, fun _ => ⟨Nat.le_refl _, False.elim⟩⟩⟩
  | poll => exact placed.poll
  | thread index ending delivered => exact placed.thread calm

/-- The stage as the agent's fields tell it. -/
def currentStage (a : DecisionAgent Context Output) : Stage Context Output :=
  match a.threads, a.decided.getLast? with
  | t :: _, _ => .running t
  | [], none => .resting
  | [], some d =>
      if (a.polling.getD []).length = 1 then .received d
      else if a.responses.length = 1 then .sent d
      else if a.slot.pendingFallbackResponse.isSome then .kept d
      else .resting

theorem At.currentStage_eq (placed : At engine a stage) : a.currentStage = stage := by
  have polling := placed.polling
  have responses := placed.responses
  have fallback := placed.fallback
  have threads := placed.threads
  unfold currentStage
  cases stage with
  | running t => rw [show a.threads = [t] from threads]
  | resting =>
      rw [show a.threads = [] from threads]
      cases a.decided.getLast? with
      | none => rfl
      | some d =>
          simp [show a.polling.getD [] = [] from polling, show a.responses = [] from responses,
            show a.slot.pendingFallbackResponse = none from fallback]
  | sent d =>
      have last := placed.last d (List.mem_singleton_self d)
      simp [show a.threads = [] from threads, last, show a.polling.getD [] = [] from polling,
        responses, Stage.inChannel]
  | kept d =>
      have last := placed.last d (List.mem_singleton_self d)
      simp [show a.threads = [] from threads, last, show a.polling.getD [] = [] from polling,
        show a.responses = [] from responses, fallback, Stage.asFallback]
  | received d =>
      have last := placed.last d (List.mem_singleton_self d)
      simp [show a.threads = [] from threads, last, polling, Stage.inPoll]

/-- The request under way is in one place. -/
def Placed (engine : DecisionEngine Context Output) (a : DecisionAgent Context Output) : Prop :=
  At engine a a.currentStage

/-- Every event without a panic keeps the request under way in one place. -/
theorem Placed.step {e : DecisionEvent Context Output} (placed : Placed engine a) (calm : ¬ a.Panics e) :
    Placed engine (a.step engine e).2 ∧
      Forward a a.currentStage e (a.step engine e).2 (a.step engine e).2.currentStage := by
  obtain ⟨stage', moved, forward⟩ := At.step placed calm
  unfold Placed
  rw [moved.currentStage_eq]
  exact ⟨moved, forward⟩

/-- What holds at each moment: one decision at most is computed, the responses that polls have
    returned are those to the first requests, in their order, and an idle slot has returned all
    of them and has the last round. -/
structure Served (engine : DecisionEngine Context Output) (a : DecisionAgent Context Output) : Prop where
  alone : (a.threads.filter DecisionThread.isDeciding).length ≤ 1
  answers : a.returned <+: a.decided.map (·.response engine)
  inOrder : a.decided.map Decision.request <+: a.sent
  idle : a.slot.status = .idle →
    a.returned = a.decided.map (·.response engine) ∧ a.slot.reflectionRound = lastRound a.decided

theorem At.served (placed : At engine a stage) : Served engine a where
  alone := by
    rw [placed.threads]
    cases stage with
    | running t => exact List.length_filter_le _ [t]
    | resting | sent | kept | received => exact Nat.zero_le 1
  answers := ⟨_, placed.answered.symm⟩
  inOrder := ⟨_, placed.asked.symm⟩
  idle := by
    intro idle
    rw [placed.status] at idle
    refine ⟨?_, placed.round idle⟩
    cases stage with
    | resting => simpa [Stage.unanswered] using placed.answered.symm
    | running | sent | kept | received => cases idle

/-- The poll goes on, and so does the thread that runs. -/
structure Fair (events : Nat → DecisionEvent Context Output) : Prop where
  polls : ∀ n, ∃ m, n ≤ m ∧ events m = .poll
  threads : ∀ n, ∃ m, n ≤ m ∧ ∃ ending delivered, events m = .thread 0 ending delivered

theorem Fair.helps {events : Nat → DecisionEvent Context Output} (fair : Fair events)
    (progress n : Nat) : ∃ m, n ≤ m ∧ Helps progress (events m) := by
  by_cases running : 2 ≤ progress ∧ progress ≤ 4
  · obtain ⟨m, later, ending, delivered, event⟩ := fair.threads n
    exact ⟨m, later, by simpa [event, Helps] using running⟩
  · obtain ⟨m, later, event⟩ := fair.polls n
    refine ⟨m, later, ?_⟩
    simp only [event, Helps]
    omega

theorem Stage.progress_le (stage : Stage Context Output) (polling : Bool) : stage.progress polling ≤ 7 := by
  unfold Stage.progress
  split <;> first | omega | split <;> omega

/-- The steps that the first requests still have to go. -/
def rank (goal : Nat) (a : DecisionAgent Context Output) : Nat :=
  8 * (goal - a.returned.length) - a.currentStage.progress a.polling.isSome

theorem rank_progress {goal : Nat} (left : rank goal a ≠ 0) :
    a.returned.length < goal ∧ a.currentStage.progress a.polling.isSome = (8 - rank goal a % 8) % 8 := by
  have bound := a.currentStage.progress_le a.polling.isSome
  unfold rank at left ⊢
  omega

theorem rank_zero {goal : Nat} (zero : rank goal a = 0) : goal ≤ a.returned.length := by
  have bound := a.currentStage.progress_le a.polling.isSome
  unfold rank at zero
  omega

theorem sent_grows (a : DecisionAgent Context Output) (e : DecisionEvent Context Output) :
    a.sent.length ≤ (a.step engine e).2.sent.length := by
  cases e with
  | sendRequest request => simp [DecisionAgent.step, DecisionAgent.sendRequest]
  | pollAndProcess =>
      simp only [DecisionAgent.step]
      split
      · exact Nat.le_refl _
      · rw [(pollAndProcess_frame a).2.2]
  | poll =>
      simp only [DecisionAgent.step, pollStep]
      split
      · rw [(pollAndProcess_frame a).2.2]
      · exact Nat.le_refl _
      · exact Nat.le_refl _
  | thread index ending delivered =>
      simp only [DecisionAgent.step, threadStep]
      split <;> first | exact Nat.le_refl _ | split <;> exact Nat.le_refl _

/-- No event raises the rank of requests that were sent, and one that helps lowers it. -/
theorem Forward.rank {goal : Nat} {e : DecisionEvent Context Output} {a' : DecisionAgent Context Output}
    (forward : Forward a a.currentStage e a' a'.currentStage) (sent : goal ≤ a.sent.length) :
    rank goal a' ≤ rank goal a ∧
      (rank goal a ≠ 0 → Helps (a.currentStage.progress a.polling.isSome) e → rank goal a' < rank goal a) := by
  have bound := a.currentStage.progress_le a.polling.isSome
  unfold DecisionAgent.rank
  rcases forward with answered | ⟨same, forward⟩
  · omega
  · rw [same]
    by_cases waits : a.returned.length < goal
    · obtain ⟨kept, grows⟩ := forward (by omega)
      refine ⟨by omega, fun _ helps => ?_⟩
      have := grows helps
      omega
    · omega

/-- In every run without a panic each request is answered once and in its order, and every
    request that is sent is answered if polls and threads go on. -/
theorem answers_each_request (engine : DecisionEngine Context Output) :
    (∀ events : List (DecisionEvent Context Output),
      (∀ x ∈ Machine.history (step engine) {} events, ¬ x.before.Panics x.event) →
      Served engine (Machine.final (step engine) {} events)) ∧
    ∀ events : Nat → DecisionEvent Context Output,
      (∀ n, ¬ (Machine.stateAt (step engine) {} events n).Panics (events n)) → Fair events →
      ∀ n, ∃ m, n ≤ m ∧ (Machine.stateAt (step engine) {} events n).sent.length ≤
        (Machine.stateAt (step engine) {} events m).returned.length := by
  have starts : Placed engine ({} : DecisionAgent Context Output) := At.initial
  have keeps (a : DecisionAgent Context Output) (e : DecisionEvent Context Output)
      (calm : ¬ a.Panics e) (placed : Placed engine a) : Placed engine (a.step engine e).2 :=
    (placed.step calm).1
  refine ⟨fun events calm => ?_, fun events calm fair n => ?_⟩
  · have placed : Placed engine (Machine.final (step engine) {} events) :=
      Machine.final_invariant keeps starts calm
    exact At.served placed
  · let states := Machine.stateAt (step engine) {} events
    have placed (m : Nat) : Placed engine (states m) := Machine.stateAt_invariant keeps starts calm m
    have sent (m : Nat) : (states n).sent.length ≤ (states (n + m)).sent.length := by
      induction m with
      | zero => exact Nat.le_refl _
      | succ m ih => exact Nat.le_trans ih (sent_grows _ _)
    have moves (m : Nat) := ((placed (n + m)).step (calm (n + m))).2.rank (sent m)
    have helpful (r m : Nat) : ∃ k, m ≤ k ∧ Helps ((8 - r % 8) % 8) (events (n + k)) := by
      obtain ⟨k, later, helping⟩ := fair.helps ((8 - r % 8) % 8) (n + m)
      exact ⟨k - n, by omega, by rwa [Nat.add_sub_cancel' (by omega)]⟩
    obtain ⟨m, _, zero⟩ := @Machine.rank_reaches_zero
      (fun m => rank (states n).sent.length (states (n + m)))
      (fun r m => Helps ((8 - r % 8) % 8) (events (n + m))) (fun m => (moves m).1)
      (fun m left helps => (moves m).2 left ((rank_progress left).2 ▸ helps)) helpful 0
    exact ⟨n + m, Nat.le_add_right n m, rank_zero zero⟩

/-! ## A panic -/

/-- An agent whose thread is gone and left no response. -/
structure Lost (a : DecisionAgent Context Output) : Prop where
  thinking : a.slot.status = .thinking
  threads : a.threads = []
  responses : a.responses = []
  fallback : a.slot.pendingFallbackResponse = none
  polling : a.polling.getD [] = []

theorem Lost.step (lost : Lost a) (engine : DecisionEngine Context Output)
    (e : DecisionEvent Context Output) :
    Lost (a.step engine e).2 ∧ (a.step engine e).2.returned = a.returned := by
  have waits : a.pollAndProcess = (0, a) := by
    simp [DecisionAgent.pollAndProcess, lost.thinking, DecisionAgentStatus.isIdle]
  cases e with
  | sendRequest request => exact ⟨{ lost with }, rfl⟩
  | pollAndProcess =>
      have same : (a.step engine .pollAndProcess).2 = a := by
        simp [DecisionAgent.step, waits]
      rw [same]
      exact ⟨lost, rfl⟩
  | poll =>
      cases polling : a.polling with
      | none =>
          have opens : (a.step engine .poll).2 = { a with polling := some [] } := by
            simp [DecisionAgent.step, pollStep, polling, waits]
          rw [opens]
          exact ⟨{ lost with polling := rfl }, rfl⟩
      | some received =>
          obtain rfl : received = [] := by simpa [polling] using lost.polling
          have closes : (a.step engine .poll).2 = { a with polling := none } := by
            have fallback := lost.fallback
            simp [DecisionAgent.step, pollStep, polling, lost.responses, finishPoll, fallback,
              DecisionAgentSlot.takeFallbackResponse]
            exact fallback ▸ rfl
          rw [closes]
          exact ⟨{ lost with polling := rfl }, rfl⟩
  | thread index ending delivered =>
      have same : (a.step engine (.thread index ending delivered)).2 = a := by
        simp [DecisionAgent.step, threadStep, lost.threads]
      rw [same]
      exact ⟨lost, rfl⟩

theorem Lost.stateAt {engine : DecisionEngine Context Output} {events : Nat → DecisionEvent Context Output}
    {start : DecisionAgent Context Output} {n : Nat}
    (lost : Lost (Machine.stateAt (DecisionAgent.step engine) start events n)) (m : Nat) :
    Lost (Machine.stateAt (DecisionAgent.step engine) start events (n + m)) ∧
      (Machine.stateAt (DecisionAgent.step engine) start events (n + m)).returned =
        (Machine.stateAt (DecisionAgent.step engine) start events n).returned := by
  induction m with
  | zero => exact ⟨lost, rfl⟩
  | succ m ih =>
      obtain ⟨still, same⟩ := ih.1.step engine (events (n + m))
      exact ⟨still, same.trans ih.2⟩

def quietEngine : DecisionEngine Unit String where
  requiresHuman _ := false
  buildPrompt _ := "decide"
  reasoning _ := "because"

def choiceRequest : DecisionRequest Unit := ⟨"agent_001", { name := "waiting_for_choice" }, ()⟩

/-- The thread takes a step that does not decide. -/
def goesOn (delivered : Bool) : DecisionEvent Unit String := .thread 0 (.finished (.ok "") 0) delivered

/-- Two requests, answered by a decision in the channel and by an error in the fallback. -/
def answeredRun : List (DecisionEvent Unit String) :=
  [.sendRequest choiceRequest, .poll, .sendRequest choiceRequest,
    .thread 0 (.finished (.ok "first") 1) true, goesOn true, goesOn true, .poll, .poll,
    .poll, .poll, .thread 0 (.finished (.error "no provider") 2) true, goesOn true, goesOn false,
    .poll, .poll]

theorem answeredRun_served :
    Served quietEngine (Machine.final (step quietEngine) {} answeredRun) ∧
      (Machine.final (step quietEngine) {} answeredRun).returned.length = 2 := by
  have calm : ∀ e ∈ answeredRun, ∀ a : DecisionAgent Unit String, ¬ a.Panics e := by
    simp [answeredRun, goesOn, Panics]
  exact ⟨(answers_each_request quietEngine).1 answeredRun
    fun x member => calm x.event (Machine.history_event x member) x.before, by decide⟩

/-- A request whose thread panics. -/
def panickedRun (n : Nat) : DecisionEvent Unit String :=
  match n with
  | 0 => .sendRequest choiceRequest
  | 2 => .thread 0 .panicked true
  | n => if n % 2 = 1 then .poll else .thread 0 (.finished (.ok "late") 1) true

theorem panickedRun_fair : Fair panickedRun where
  polls n := ⟨2 * n + 3, by omega, by simp [panickedRun]⟩
  threads n := ⟨2 * n + 4, by omega, .finished (.ok "late") 1, true, by simp [panickedRun]⟩

/-- The slot thinks forever, and the request is never answered. -/
theorem panickedRun_not_answered : ¬ ∀ events : Nat → DecisionEvent Unit String, Fair events →
    ∀ n, ∃ m, n ≤ m ∧ (Machine.stateAt (step quietEngine) {} events n).sent.length ≤
      (Machine.stateAt (step quietEngine) {} events m).returned.length := by
  intro answers
  obtain ⟨m, later, answered⟩ := answers panickedRun panickedRun_fair 3
  have lost : Lost (Machine.stateAt (step quietEngine) {} panickedRun 3) :=
    ⟨rfl, rfl, rfl, rfl, rfl⟩
  have nothing := (lost.stateAt (m - 3)).2
  rw [Nat.add_sub_cancel' later] at nothing
  rw [nothing] at answered
  exact absurd answered (by decide)

end DecisionAgent

end AgileAgent.Core
