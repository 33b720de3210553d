import Mathlib.Data.List.Induction
import Mathlib.Data.List.Infix
import AgileAgent.RuntimeDomain.Lifecycle

/-! # Event streams of a provider

A provider reports its start, then chunks, tool calls that may overlap, and remarks, and at
last its end. The worker remembers one tool call at a time: it takes the start of a call
only while it responds, and completes only after it has responded or called a tool.
-/

namespace AgileAgent.RuntimeDomain

open Machine

inductive ToolKind where
  | exec
  | generic
  | webSearch
  | mcp
  | patch
  deriving Repr, DecidableEq

/-- A tool call, by its kind and call id. -/
abbrev ToolCall := ToolKind × Option String

namespace DomainEvent

/-- The call that an event starts, with the name of the tool. -/
def startedCall : DomainEvent → Option (ToolCall × String)
  | .execCommandStarted callId _ _ => some ((.exec, callId), "exec")
  | .genericToolCallStarted name callId _ => some ((.generic, callId), name)
  | .webSearchStarted callId _ => some ((.webSearch, callId), "websearch")
  | .mcpToolCallStarted callId => some ((.mcp, callId), "mcp")
  | .patchApplyStarted callId => some ((.patch, callId), "patch")
  | _ => none

def finishedCall : DomainEvent → Option ToolCall
  | .execCommandFinished callId .. => some (.exec, callId)
  | .genericToolCallFinished _ callId .. => some (.generic, callId)
  | .webSearchFinished callId _ => some (.webSearch, callId)
  | .mcpToolCallFinished callId _ _ _ => some (.mcp, callId)
  | .patchApplyFinished callId _ => some (.patch, callId)
  | _ => none

def isChunk : DomainEvent → Bool
  | .assistantChunk _ | .thinkingChunk _ => true
  | _ => false

/-- Output deltas, session handles and generic status texts. -/
def isRemark : DomainEvent → Bool
  | .execCommandOutputDelta _ _ | .patchApplyOutputDelta _ _ | .sessionHandle _ => true
  | .status text => text ≠ "worker started"
  | _ => false

def starts (e : DomainEvent) : Bool := e.startedCall.isSome

/-- A chunk, or the end of a tool call. -/
def speaks (e : DomainEvent) : Bool := e.isChunk || e.finishedCall.isSome

end DomainEvent

open DomainEvent

/-- The events between the start of a provider and its end: every tool call is one start
    and one later end. -/
structure ProviderStream (middle : List DomainEvent) : Prop where
  kinds : ∀ e ∈ middle, e.starts ∨ e.speaks ∨ e.isRemark
  begun : ∀ front back, middle = front ++ back → ∀ call : ToolCall,
    front.countP (fun e => e.finishedCall = some call) ≤
      front.countP (fun e => e.startedCall.map Prod.fst = some call)
  ended : ∀ call : ToolCall, middle.countP (fun e => e.finishedCall = some call) =
    middle.countP (fun e => e.startedCall.map Prod.fst = some call)

/-- How a stream ends. -/
inductive Ending where
  | finished
  | error (message : String)

namespace Ending

def event : Ending → DomainEvent
  | .finished => .finished
  | .error message => .error message

def state : Ending → WorkerState
  | .finished => .completed
  | .error message => .failed message

end Ending

def stream (middle : List DomainEvent) (ending : Ending) : List DomainEvent :=
  .status "worker started" :: (middle ++ [ending.event])

namespace WorkerStep

def Accepted (x : WorkerStep) : Prop := ∃ commands, x.output = .ok commands

def emitted (x : WorkerStep) : List RuntimeCommand :=
  match x.output with
  | .ok commands => commands
  | .error _ => []

end WorkerStep

open WorkerStep

def RuntimeCommand.isTerminate : RuntimeCommand → Bool
  | .terminate _ _ => true
  | _ => false

/-- The worker takes every event, ends as the stream does and asks for one termination. -/
def Serves (w : Worker) (events : List DomainEvent) (ending : Ending) : Prop :=
  let run : List WorkerStep := history Worker.apply w events
  (∀ x ∈ run, x.Accepted) ∧ (final Worker.apply w events).state = ending.state ∧
    (run.flatMap emitted).countP RuntimeCommand.isTerminate = 1

/-- Of the chunks, starts and ends of calls so far the last is not a start, and there is one. -/
def Answered (front : List DomainEvent) : Prop :=
  ∃ e, (front.filter fun e => e.starts || e.speaks).getLast? = some e ∧ e.speaks

/-- Tool calls start only after a chunk or the end of a call that no other start follows. -/
def OneAtATime (middle : List DomainEvent) : Prop :=
  ∀ front call back, middle = front ++ call :: back → call.starts = true → Answered front

theorem DomainEvent.not_speaks_of_starts {e : DomainEvent} (starts : e.starts = true) :
    e.speaks = false := by
  cases e <;> first | rfl | cases starts

theorem answered_snoc (front : List DomainEvent) (e : DomainEvent) :
    Answered (front ++ [e]) ↔ e.speaks = true ∨ (e.starts = false ∧ Answered front) := by
  unfold Answered
  rw [List.filter_append]
  cases speaks : e.speaks with
  | true => simp [speaks]
  | false =>
      cases starts : e.starts with
      | true => simp [speaks, starts]
      | false => simp [speaks, starts]

theorem oneAtATime_nil : OneAtATime [] := by
  intro front call back split
  simp at split

theorem oneAtATime_snoc (front : List DomainEvent) (e : DomainEvent) :
    OneAtATime (front ++ [e]) ↔ OneAtATime front ∧ (e.starts = true → Answered front) := by
  constructor
  · intro whole
    refine ⟨fun before call back split starts => ?_, whole front e [] rfl⟩
    apply whole before call (back ++ [e]) _ starts
    rw [split]
    simp
  · rintro ⟨early, last⟩ before call back split starts
    rcases List.eq_nil_or_concat back with rfl | ⟨back, last', rfl⟩
    · obtain ⟨rfl, rfl⟩ := List.append_singleton_inj.mp split
      exact last starts
    · rw [List.concat_eq_append, ← List.cons_append, ← List.append_assoc] at split
      obtain ⟨rfl, -⟩ := List.append_singleton_inj.mp split
      exact early before call back rfl starts

/-- The states of a worker between the start and the end of a stream. -/
def WorkerState.isServing : WorkerState → Prop
  | .starting | .responding .streaming | .processingTool _ => True
  | _ => False

/-- While it serves, only a responding worker takes a tool call. -/
theorem WorkerState.isServing.calls {state : WorkerState} (serving : state.isServing) (name : String) :
    state.canTransitionTo (.processingTool name) = true ↔ state = .respondingStreaming := by
  cases state with
  | responding sub => cases sub <;> simp_all [canTransitionTo, moves, respondingStreaming, isServing]
  | starting | processingTool => simp [canTransitionTo, moves, respondingStreaming]
  | _ => cases serving

theorem WorkerState.isServing.responds {state : WorkerState} (serving : state.isServing) :
    state = .respondingStreaming ∨ (state.isResponding = false ∧
      state.canTransitionTo .respondingStreaming = true) := by
  cases state with
  | responding sub =>
      cases sub with
      | streaming => exact .inl rfl
      | waitingConfirmation => cases serving
  | starting | processingTool => exact .inr ⟨rfl, rfl⟩
  | _ => cases serving

namespace Worker

/-- An event is handled by the worker with the event in its transcript. -/
theorem apply_recorded (w : Worker) (e : DomainEvent) :
    ∃ v : Worker, v.state = w.state ∧ w.apply e = v.handle e :=
  ⟨{ w with transcript := w.transcript.append e }, rfl, rfl⟩

/-- The start of a call is taken by a responding worker only. -/
theorem apply_starts {w : Worker} {e : DomainEvent} (serving : w.state.isServing)
    (starts : e.starts = true) :
    (Accepted (of w e) ↔ w.state = .respondingStreaming) ∧
      (Accepted (of w e) → ∃ name, (w.apply e).2.state = .processingTool name) := by
  have call (name : String) (calls : ∀ v : Worker, v.handle e = v.moveTo (.processingTool name) []) :
      (Accepted (of w e) ↔ w.state = .respondingStreaming) ∧
        (Accepted (of w e) → ∃ name, (w.apply e).2.state = .processingTool name) := by
    obtain ⟨v, same, applied⟩ := w.apply_recorded e
    simp only [Accepted, of]
    rw [← serving.calls name, ← same, applied, calls v]
    refine ⟨⟨fun ⟨_, accepted⟩ => (moveTo_inv accepted).1, fun allowed => ?_⟩, fun ⟨_, accepted⟩ => ?_⟩
    · exact ⟨[], by rw [moveTo_allowed allowed]⟩
    · exact ⟨name, by rw [(moveTo_inv accepted).2.2]⟩
  cases e with
  | execCommandStarted | genericToolCallStarted | webSearchStarted | mcpToolCallStarted
  | patchApplyStarted => exact call _ fun _ => rfl
  | _ => cases starts

/-- A chunk or the end of a call is taken, and the worker responds. -/
theorem apply_speaks {w : Worker} {e : DomainEvent} (serving : w.state.isServing)
    (speaks : e.speaks = true) :
    Accepted (of w e) ∧ (w.apply e).2.state = .respondingStreaming := by
  have answer (answers : ∀ v : Worker, ∃ commands, v.handle e = v.respond commands) :
      Accepted (of w e) ∧ (w.apply e).2.state = .respondingStreaming := by
    obtain ⟨v, same, applied⟩ := w.apply_recorded e
    obtain ⟨commands, handled⟩ := answers v
    simp only [Accepted, of]
    rw [← same] at serving
    rw [applied, handled, respond]
    rcases serving.responds with responding | ⟨other, allowed⟩
    · have now : v.state.isResponding = true := by
        rw [responding]
        rfl
      rw [if_pos now]
      exact ⟨⟨commands, rfl⟩, responding⟩
    · rw [if_neg (Bool.eq_false_iff.mp other), moveTo_allowed allowed]
      exact ⟨⟨commands, rfl⟩, rfl⟩
  cases e with
  | assistantChunk | thinkingChunk | execCommandFinished | genericToolCallFinished
  | webSearchFinished | mcpToolCallFinished | patchApplyFinished => exact answer fun _ => ⟨_, rfl⟩
  | _ => cases speaks

/-- A remark is taken and changes nothing. -/
theorem apply_remark (w : Worker) {e : DomainEvent} (remark : e.isRemark = true) :
    Accepted (of w e) ∧ (w.apply e).2.state = w.state := by
  cases e with
  | execCommandOutputDelta | patchApplyOutputDelta | sessionHandle => exact ⟨⟨_, rfl⟩, rfl⟩
  | status text =>
      have other : text ≠ "worker started" := of_decide_eq_true remark
      simp only [Accepted, of, apply, handle, if_neg other]
      exact ⟨⟨_, rfl⟩, trivial⟩
  | _ => cases remark

/-- Between start and end nothing is terminated. -/
theorem emitted_middle (w : Worker) {e : DomainEvent}
    (kind : e.starts = true ∨ e.speaks = true ∨ e.isRemark = true) :
    (emitted (of w e)).countP RuntimeCommand.isTerminate = 0 := by
  rw [List.countP_eq_zero]
  intro command member termination
  cases command with
  | notifyUser | transitionState => cases termination
  | terminate agentId reason =>
      cases output : (w.apply e).1 with
      | error =>
          simp only [emitted, of, output] at member
          cases member
      | ok commands =>
          simp only [emitted, of, output] at member
          rcases handle_accepted output with ⟨rfl, -⟩ | ⟨message, rfl, -⟩ | ⟨-, rfl, -⟩ | ⟨silent, -⟩
          · rcases kind with starts | speaks | remark
            · cases starts
            · cases speaks
            · cases remark
          · rcases kind with starts | speaks | remark
            · cases starts
            · cases speaks
            · cases remark
          · cases member
          · exact silent agentId reason member

/-- The end is taken unless it is a completion of nothing. -/
theorem apply_ending {w : Worker} (serving : w.state.isServing) (ending : Ending) :
    (Accepted (of w ending.event) ↔ (ending = .finished → w.state ≠ .starting)) ∧
      (Accepted (of w ending.event) → (w.apply ending.event).2.state = ending.state ∧
        (emitted (of w ending.event)).countP RuntimeCommand.isTerminate = 1) := by
  have ends (commands : List RuntimeCommand)
      (handled : ∀ v : Worker, v.agentId = w.agentId →
        v.handle ending.event = v.moveTo ending.state commands) :
      (Accepted (of w ending.event) ↔ w.state.canTransitionTo ending.state = true) ∧
        (Accepted (of w ending.event) → (w.apply ending.event).2.state = ending.state ∧
          emitted (of w ending.event) = commands) := by
    let v : Worker := { w with transcript := w.transcript.append ending.event }
    have applied : w.apply ending.event = v.moveTo ending.state commands := handled v rfl
    simp only [Accepted, of, emitted, applied]
    cases allowed : w.state.canTransitionTo ending.state with
    | true =>
        rw [@moveTo_allowed v _ allowed]
        exact ⟨iff_of_true ⟨_, rfl⟩ rfl, fun _ => ⟨rfl, rfl⟩⟩
    | false =>
        rw [@moveTo_barred v _ allowed]
        have rejected : ¬ ∃ emitted, (Except.error (.invalidTransition ⟨v.state, ending.state⟩) :
          Except WorkerError (List RuntimeCommand)) = .ok emitted := nofun
        exact ⟨iff_of_false rejected Bool.false_ne_true, fun accepted => absurd accepted rejected⟩
  cases ending with
  | finished =>
      obtain ⟨taken, ended⟩ := ends [.terminate w.agentId "completed"] fun v same => by
        rw [← same]
        rfl
      refine ⟨taken.trans ?_, fun accepted => ?_⟩
      · cases state : w.state <;>
          simp_all [WorkerState.isServing, WorkerState.canTransitionTo, WorkerState.moves, Ending.state]
      · obtain ⟨state, commands⟩ := ended accepted
        rw [commands]
        exact ⟨state, rfl⟩
  | error message =>
      obtain ⟨taken, ended⟩ := ends [.notifyUser w.agentId message, .terminate w.agentId message]
        fun v same => by
          rw [← same]
          rfl
      refine ⟨taken.trans ?_, fun accepted => ?_⟩
      · cases state : w.state <;>
          simp_all [WorkerState.isServing, WorkerState.canTransitionTo, WorkerState.moves, Ending.state]
      · obtain ⟨state, commands⟩ := ended accepted
        rw [commands]
        exact ⟨state, rfl⟩

/-- Where the worker is after the events so far, if it took them all. -/
structure Progress (front : List DomainEvent) (state : WorkerState) : Prop where
  serving : state.isServing
  answered : state = .respondingStreaming ↔ Answered front
  silent : state = .starting ↔ ∀ e ∈ front, e.starts = false ∧ e.speaks = false

theorem Progress.start : Progress [] .starting where
  serving := trivial
  answered := by simp [Answered, WorkerState.respondingStreaming]
  silent := by simp

/-- One more event: it is taken unless it starts a call too early, and if it is taken, the
    worker is where it should be. -/
theorem Progress.step {w : Worker} {front : List DomainEvent} (progress : Progress front w.state)
    {e : DomainEvent} (kind : e.starts = true ∨ e.speaks = true ∨ e.isRemark = true) :
    (Accepted (of w e) ↔ (e.starts = true → Answered front)) ∧
      (Accepted (of w e) → Progress (front ++ [e]) (w.apply e).2.state) := by
  obtain ⟨serving, answered, silent⟩ := progress
  cases starts : e.starts with
  | true =>
      have mute := not_speaks_of_starts starts
      obtain ⟨taken, called⟩ := apply_starts serving starts
      refine ⟨taken.trans (answered.trans ⟨fun now _ => now, fun now => now rfl⟩), fun accepted => ?_⟩
      obtain ⟨name, state⟩ := called accepted
      rw [state]
      refine ⟨trivial, ?_, ?_⟩
      · rw [answered_snoc, starts, mute]
        simp [WorkerState.respondingStreaming]
      · simp [starts]
  | false =>
      rw [starts, Bool.false_eq_true, false_or] at kind
      cases speaks : e.speaks with
      | true =>
          obtain ⟨accepted, state⟩ := apply_speaks serving speaks
          refine ⟨iff_of_true accepted (absurd · Bool.false_ne_true), fun _ => ?_⟩
          rw [state]
          refine ⟨trivial, ?_, ?_⟩
          · rw [answered_snoc, speaks]
            simp
          · simp [speaks, WorkerState.respondingStreaming]
      | false =>
          rw [speaks, Bool.false_eq_true, false_or] at kind
          obtain ⟨accepted, state⟩ := apply_remark w kind
          refine ⟨iff_of_true accepted (absurd · Bool.false_ne_true), fun _ => ?_⟩
          rw [state]
          refine ⟨serving, ?_, ?_⟩
          · rw [answered_snoc, speaks, starts, answered]
            simp
          · rw [silent]
            simp [or_imp, forall_and, starts, speaks]

/-- A worker that has started takes the middle of a stream exactly when no call starts too
    early. -/
theorem middle_taken {w : Worker} (starting : w.state = .starting) {middle : List DomainEvent}
    (kinds : ∀ e ∈ middle, e.starts = true ∨ e.speaks = true ∨ e.isRemark = true) :
    ((∀ x ∈ history Worker.apply w middle, Accepted x) ↔ OneAtATime middle) ∧
      (OneAtATime middle → Progress middle (final Worker.apply w middle).state) := by
  induction middle using List.reverseRecOn with
  | nil =>
      rw [history_nil, final_nil, starting]
      exact ⟨iff_of_true (fun x member => absurd member List.not_mem_nil) oneAtATime_nil,
        fun _ => .start⟩
  | append_singleton front e ih =>
      obtain ⟨taken, progress⟩ := ih fun e member => kinds e (List.mem_append_left _ member)
      have kind := kinds e (List.mem_append_right _ List.mem_cons_self)
      rw [history_append, final_append, oneAtATime_snoc, List.forall_mem_append, taken]
      constructor
      · apply and_congr_right
        intro early
        rw [← ((progress early).step kind).1]
        exact List.forall_mem_singleton
      · rintro ⟨early, last⟩
        obtain ⟨taken, progressed⟩ := (progress early).step kind
        exact progressed (taken.mpr last)

end Worker

open Worker

/-- A new worker serves a stream exactly when each tool call starts after a chunk or the end
    of a call that no other start follows, and a completion ends more than remarks. -/
theorem serves_iff (agentId : AgentId) (codename : AgentCodename) (role : AgentRole)
    {middle : List DomainEvent}
    (kinds : ∀ e ∈ middle, e.starts = true ∨ e.speaks = true ∨ e.isRemark = true) (ending : Ending) :
    Serves (Worker.create agentId codename role) (stream middle ending) ending ↔
      OneAtATime middle ∧
        (ending = .finished → ∃ e ∈ middle, e.starts = true ∨ e.speaks = true) := by
  let new := Worker.create agentId codename role
  let started := (new.apply (.status "worker started")).2
  obtain ⟨taken, progress⟩ := @middle_taken started rfl middle kinds
  have first : Accepted (of new (.status "worker started")) := ⟨_, rfl⟩
  have run : history Worker.apply new (stream middle ending) =
      of new (.status "worker started") :: (history Worker.apply started middle ++
        [of (final Worker.apply started middle) ending.event]) := by
    rw [stream, history_cons, history_append]
    rfl
  have last : final Worker.apply new (stream middle ending) =
      ((final Worker.apply started middle).apply ending.event).2 := by
    rw [stream, final_cons, final_append]
    rfl
  have quiet : ((history Worker.apply started middle).flatMap emitted).countP
      RuntimeCommand.isTerminate = 0 := by
    rw [List.countP_eq_zero]
    intro command member
    obtain ⟨x, inside, emits⟩ := List.mem_flatMap.mp member
    have silent := @history_steps Worker DomainEvent _ Worker.apply (fun x : WorkerStep =>
      x.event.starts = true ∨ x.event.speaks = true ∨ x.event.isRemark = true →
        (emitted x).countP RuntimeCommand.isTerminate = 0)
      (fun w e => emitted_middle w) started middle x inside (kinds x.event (history_event x inside))
    exact List.countP_eq_zero.mp silent command emits
  rw [Serves, run, last, List.forall_mem_cons, List.forall_mem_append, taken, List.forall_mem_singleton,
    List.flatMap_cons, List.flatMap_append, List.countP_append, List.countP_append, quiet]
  constructor
  · rintro ⟨⟨-, early, accepted⟩, -⟩
    obtain ⟨serving, -, silent⟩ := progress early
    refine ⟨early, fun finished => ?_⟩
    have busy := (apply_ending serving ending).1.mp accepted finished
    by_contra idle
    apply busy
    rw [silent]
    intro e member
    have still : ¬ (e.starts = true ∨ e.speaks = true) := fun moves => idle ⟨e, member, moves⟩
    simpa [not_or] using still
  · rintro ⟨early, busy⟩
    obtain ⟨serving, -, silent⟩ := progress early
    obtain ⟨taken, ended⟩ := apply_ending serving ending
    have accepted : Accepted (of (final Worker.apply started middle) ending.event) := by
      rw [taken]
      intro finished idle
      obtain ⟨e, member, moves⟩ := busy finished
      obtain ⟨starts, speaks⟩ := silent.mp idle e member
      rw [starts, speaks] at moves
      simp at moves
    obtain ⟨state, once⟩ := ended accepted
    refine ⟨⟨first, early, accepted⟩, state, ?_⟩
    rw [List.flatMap_cons, List.flatMap_nil, List.append_nil, once]
    rfl

/-- A provider whose first event is a tool call. -/
def toolFirst : List DomainEvent :=
  [.execCommandStarted (some "exec-1") (some "ls"),
    .execCommandFinished (some "exec-1") (some "src") .completed]

theorem toolFirst_providerStream : ProviderStream toolFirst where
  kinds := by decide
  begun := by
    intro front back split call
    have prefixes : front ∈ toolFirst.inits := (List.mem_inits front toolFirst).mpr ⟨back, split.symm⟩
    have all : toolFirst.inits =
      [[], [.execCommandStarted (some "exec-1") (some "ls")], toolFirst] := rfl
    rw [all] at prefixes
    simp only [List.mem_cons, List.not_mem_nil, or_false] at prefixes
    rcases prefixes with rfl | rfl | rfl
    all_goals simp [toolFirst, List.countP_cons, startedCall, finishedCall]
  ended := by
    intro call
    simp [toolFirst, List.countP_cons, startedCall, finishedCall]

/-- It has the form of a stream, and is not served. -/
theorem toolFirst_not_served : ¬ ∀ (agentId : AgentId) (codename : AgentCodename) (role : AgentRole)
    (middle : List DomainEvent) (ending : Ending), ProviderStream middle →
    Serves (Worker.create agentId codename role) (stream middle ending) ending := by
  intro all
  have served := all "agent-1" "alpha" .developer toolFirst .finished toolFirst_providerStream
  obtain ⟨commands, accepted⟩ := served.1 _ (List.mem_cons_of_mem _ List.mem_cons_self)
  cases accepted

/-- A chunk before the call is enough. -/
theorem chunk_first_served :
    Serves (Worker.create "agent-1" "alpha" .developer)
      (stream (.assistantChunk "Let me look." :: toolFirst) .finished) .finished := by
  have kinds : ∀ e ∈ DomainEvent.assistantChunk "Let me look." :: toolFirst,
      e.starts = true ∨ e.speaks = true ∨ e.isRemark = true := by decide
  apply (serves_iff "agent-1" "alpha" .developer kinds .finished).mpr
  constructor
  · apply (oneAtATime_snoc [_, _] _).mpr
    refine ⟨(oneAtATime_snoc [_] _).mpr ⟨?_, fun _ => ⟨_, rfl, rfl⟩⟩, nofun⟩
    exact (oneAtATime_snoc [] _).mpr ⟨oneAtATime_nil, nofun⟩
  · intro _
    exact ⟨_, List.mem_cons_self, .inr rfl⟩

end AgileAgent.RuntimeDomain
