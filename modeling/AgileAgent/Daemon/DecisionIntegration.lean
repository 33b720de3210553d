import Mathlib.Logic.Function.Basic
import AgileAgent.Machine
import AgileAgent.DecisionDsl.Commands
import AgileAgent.Daemon.EventPump

/-! # Decisions on the output of agents

Each agent may have a decision slot: a tree that is ticked when a turn of the agent ends, and polled
while it runs. What the executor hands out is drained from the blackboard by then, where the commands
of a success are looked for.
-/

namespace AgileAgent.Daemon

open DecisionDsl RuntimeDomain

/-- The decision slot of an agent, with its tree, executor, blackboard, session and clock. -/
structure DecisionSlotState (σ κ : Type) where
  slot : Instance σ κ
  workAgentId : String
  outputBuffer : String := ""
  pendingCommands : List DecisionCommand := []
  pollScheduled : Bool := false

/-- What a call returns and leaves, with the tick it made and what it broadcast. -/
structure Handled (σ κ α : Type) where
  result : Except Fault α
  state : DecisionSlotState σ κ
  turn : Option (Turn σ κ) := none
  events : List Event := []

namespace DecisionSlotState

variable {σ κ : Type}

def syncWorkAgentOutput (state : DecisionSlotState σ κ) (output : String) : DecisionSlotState σ κ :=
  { state with slot.ctx.blackboard.providerOutput := output }

def drainCommands (state : DecisionSlotState σ κ) : List DecisionCommand × DecisionSlotState σ κ :=
  let (commands, blackboard) := state.slot.ctx.blackboard.drainCommands
  (commands, { state with slot.ctx.blackboard := blackboard })

/-- An escalation is broadcast as an error. -/
def escalation (state : DecisionSlotState σ κ) : DecisionCommand → Option Event
  | .human (.escalate reason _) => some ⟨0, .error reason (some state.workAgentId)⟩
  | _ => none

def dispatchCommands (state : DecisionSlotState σ κ) (commands : List DecisionCommand) :
    DecisionSlotState σ κ × List Event :=
  ({ state with pendingCommands := state.pendingCommands ++ commands },
    commands.filterMap state.escalation)

/-- The commands of the result itself are only counted. -/
def handleTickResult (state : DecisionSlotState σ κ) (result : TickResult) :
    DecisionSlotState σ κ × List Event :=
  match result.status with
  | .success =>
      let (commands, state) := state.drainCommands
      state.dispatchCommands commands
  | .running => ({ state with pollScheduled := true }, [])
  | .failure => (state, [])

variable [Crates] [Session σ] [Clock κ]

/-- A tick whose result is handled. An error leaves before that. -/
def tickThen {α : Type} (state : DecisionSlotState σ κ) (answer : TickResult → α) : Handled σ κ α :=
  let turn := state.slot.tick
  let ticked := { state with slot := turn.after }
  match turn.ticked.result with
  | .error e => { result := .error e, state := ticked, turn := some turn }
  | .ok result =>
      let (handled, events) := ticked.handleTickResult result
      { result := .ok (answer result), state := handled, turn := some turn, events := events }

/-- The state at the end of a turn of the agent, before the tick. -/
def finishing (state : DecisionSlotState σ κ) : DecisionSlotState σ κ :=
  { state.syncWorkAgentOutput state.outputBuffer with outputBuffer := "" }

/-- `handle_provider_event` on the slot of the agent. -/
def handleProviderEvent (state : DecisionSlotState σ κ) : DomainEvent → Handled σ κ Bool
  | .assistantChunk text =>
      { result := .ok false, state := { state with outputBuffer := state.outputBuffer ++ text } }
  | .finished => state.finishing.tickThen fun _ => true
  | _ => { result := .ok false, state := state }

/-- The session is asked whether it is ready. -/
def asked (state : DecisionSlotState σ κ) : Bool × DecisionSlotState σ κ :=
  let (ready, session) := Session.isReady state.slot.ctx.session
  (ready, { state with slot.ctx.session := session })

def pollDecisionSlot (state : DecisionSlotState σ κ) : Handled σ κ (Option TickResult) :=
  if !state.pollScheduled then { result := .ok none, state := state }
  else if state.asked.1 then { state.asked.2 with pollScheduled := false }.tickThen some
  else { result := .ok none, state := state.asked.2 }

end DecisionSlotState

/-! ## The slots of all agents -/

/-- The default template is what its file is read as. -/
structure DecisionIntegration (σ κ : Type) where
  slots : String → Option (DecisionSlotState σ κ) := fun _ => none
  enabled : Bool := false
  defaultTemplate : Option Node := none

namespace DecisionIntegration

variable {σ κ : Type}

/-- The slot that is made for an agent, if decisions are enabled. -/
def newSlot (integration : DecisionIntegration σ κ) (workAgentId taskDescription : String)
    (template : Option Node) (session : σ) (clock : κ) : Except String (Option (DecisionSlotState σ κ)) :=
  if !integration.enabled then .ok none
  else
    match template.or integration.defaultTemplate with
    | none => .error "no decision template available"
    | some tree =>
        let blackboard : Blackboard := { taskDescription, workAgentId }
        .ok (some { slot := .launch tree ⟨blackboard, session, clock⟩, workAgentId })

end DecisionIntegration

/-! ## Runs -/

/-- What is done with the slots. Between two calls a session may get a reply, and time passes. -/
inductive DecisionCall (σ κ : Type) where
  | attach (agentId taskDescription : String) (template : Option Node) (session : σ) (clock : κ)
  | event (agentId : String) (event : DomainEvent)
  | poll (agentId : String)
  | meanwhile (agentId : String) (session : σ → σ) (clock : κ → κ)
  | clearPending (agentId : String)
  | detach (agentId : String)
  | updateConfig (enabled : Bool) (defaultTemplate : Option Node)

/-- What happened to a slot since it was attached: the commands its tree pushed and those that were
    cleared from the pending ones, the output of the agent's turn under way and of those that ended,
    and the output that each tick found on the blackboard. -/
structure Ledger where
  emitted : List DecisionCommand := []
  cleared : List DecisionCommand := []
  heard : String := ""
  turns : List String := []
  seen : List String := []

namespace Ledger

def hear (ledger : Ledger) : DomainEvent → Ledger
  | .assistantChunk text => { ledger with heard := ledger.heard ++ text }
  | .finished => { ledger with heard := "", turns := ledger.turns ++ [ledger.heard] }
  | _ => ledger

def note {σ κ : Type} [Crates] [Session σ] [Clock κ] (ledger : Ledger)
    (turn : Option (Turn σ κ)) : Ledger :=
  match turn with
  | none => ledger
  | some turn =>
      { ledger with
        emitted := ledger.emitted ++ turn.start.pushed
        seen := ledger.seen ++ [turn.start.ctx.blackboard.providerOutput] }

end Ledger

structure DecisionDesk (σ κ : Type) where
  integration : DecisionIntegration σ κ
  ledgers : String → Ledger := fun _ => {}

namespace DecisionDesk

variable {σ κ : Type}

/-- Change the slot of an agent and its ledger. -/
def update (desk : DecisionDesk σ κ) (agentId : String) (state : Option (DecisionSlotState σ κ))
    (ledger : Ledger) : DecisionDesk σ κ where
  integration := { desk.integration with slots := Function.update desk.integration.slots agentId state }
  ledgers := Function.update desk.ledgers agentId ledger

/-- A call on the slot of an agent, if there is one. -/
def onSlot (desk : DecisionDesk σ κ) (agentId : String)
    (call : DecisionSlotState σ κ → Ledger → DecisionSlotState σ κ × Ledger) : DecisionDesk σ κ :=
  match desk.integration.slots agentId with
  | none => desk
  | some state =>
      let (state, ledger) := call state (desk.ledgers agentId)
      desk.update agentId (some state) ledger

variable [Crates] [Session σ] [Clock κ]

def step (desk : DecisionDesk σ κ) : DecisionCall σ κ → Unit × DecisionDesk σ κ
  | .attach agentId taskDescription template session clock =>
      match desk.integration.newSlot agentId taskDescription template session clock with
      | .ok (some state) => ((), desk.update agentId (some state) {})
      | .ok none | .error _ => ((), desk)
  | .event agentId event =>
      if !desk.integration.enabled then ((), desk)
      else
        ((), desk.onSlot agentId fun state ledger =>
          let handled := state.handleProviderEvent event
          (handled.state, (ledger.hear event).note handled.turn))
  | .poll agentId =>
      ((), desk.onSlot agentId fun state ledger =>
        let handled := state.pollDecisionSlot
        (handled.state, ledger.note handled.turn))
  | .meanwhile agentId session clock =>
      ((), desk.onSlot agentId fun state ledger =>
        ({ state with
            slot.ctx.session := session state.slot.ctx.session
            slot.ctx.clock := clock state.slot.ctx.clock }, ledger))
  | .clearPending agentId =>
      ((), desk.onSlot agentId fun state ledger =>
        ({ state with pendingCommands := [] },
          { ledger with cleared := ledger.cleared ++ state.pendingCommands }))
  | .detach agentId => ((), desk.update agentId none {})
  | .updateConfig enabled defaultTemplate =>
      ((), { desk with integration := { desk.integration with enabled, defaultTemplate } })

/-! ## What is right -/

/-- What the tree pushed was appended to the pending commands, each once and in order, and a tick
    found the output of every turn on the blackboard. -/
structure Served (state : DecisionSlotState σ κ) (ledger : Ledger) : Prop where
  commands : ledger.cleared ++ state.pendingCommands = ledger.emitted
  output : ∀ output ∈ ledger.turns, output ∈ ledger.seen

/-- A fact about every slot and its ledger. -/
def All (desk : DecisionDesk σ κ) (fact : DecisionSlotState σ κ → Ledger → Prop) : Prop :=
  ∀ agentId state, desk.integration.slots agentId = some state → fact state (desk.ledgers agentId)

/-- If a call ticks a tree, the tree pushes no command. -/
def Silent (desk : DecisionDesk σ κ) : DecisionCall σ κ → Prop
  | .event agentId .finished => desk.integration.enabled = true →
      ∀ state, desk.integration.slots agentId = some state → state.finishing.slot.pushed = []
  | .poll agentId => ∀ state, desk.integration.slots agentId = some state →
      state.pollScheduled = true → state.asked.1 = true → state.asked.2.slot.pushed = []
  | _ => True

end DecisionDesk

namespace DecisionSlotState

variable {σ κ : Type} [Crates] [Session σ] [Clock κ]

/-! ## Ticks -/

/-- What a tick leaves alone, and that it leaves nothing on the blackboard if nothing was pushed. -/
structure Ticks (state : DecisionSlotState σ κ) {α : Type} (handled : Handled σ κ α) : Prop where
  turn : handled.turn = some state.slot.tick
  pendingCommands : handled.state.pendingCommands = state.pendingCommands
  outputBuffer : handled.state.outputBuffer = state.outputBuffer
  commands : state.slot.ctx.blackboard.commands = [] → state.slot.pushed = [] →
    handled.state.slot.ctx.blackboard.commands = []

omit [Crates] [Session σ] [Clock κ] in
/-- Where the blackboard has no commands, none is appended. -/
theorem handleTickResult_kept {state : DecisionSlotState σ κ}
    (drained : state.slot.ctx.blackboard.commands = []) (result : TickResult) :
    (state.handleTickResult result).1.pendingCommands = state.pendingCommands ∧
      (state.handleTickResult result).1.outputBuffer = state.outputBuffer ∧
      (state.handleTickResult result).1.slot.ctx.blackboard.commands = [] := by
  unfold handleTickResult
  cases result.status with
  | success =>
      simp [drainCommands, Blackboard.drainCommands, dispatchCommands, drained]
  | running => exact ⟨rfl, rfl, drained⟩
  | failure => exact ⟨rfl, rfl, drained⟩

/-- A tick that succeeds has drained the commands already, and one that fails does not get there. -/
theorem tickThen_ticks {α : Type} (state : DecisionSlotState σ κ) (answer : TickResult → α) :
    state.Ticks (state.tickThen answer) := by
  unfold tickThen
  cases done : state.slot.tick.ticked.result with
  | error e =>
      simp only [done]
      refine ⟨rfl, rfl, rfl, fun before silent => ?_⟩
      rcases state.slot.tick_commands with ⟨-, empty, -⟩ | ⟨-, -, kept⟩
      · exact empty
      · rw [kept, before, silent, List.append_nil]
  | ok r =>
      have drained : { state with slot := state.slot.tick.after }.slot.ctx.blackboard.commands = [] := by
        rcases state.slot.tick_commands with ⟨-, empty, -⟩ | ⟨fails, -, -⟩
        · exact empty
        · exact absurd ⟨r, done⟩ fails
      obtain ⟨pending, buffer, commands⟩ := handleTickResult_kept drained r
      simp only [done]
      exact ⟨rfl, pending, buffer, fun _ _ => commands⟩

/-! ## Slots -/

/-- What holds of every slot: nothing is pending, and the output of every turn was found. -/
structure Attentive (state : DecisionSlotState σ κ) (ledger : Ledger) : Prop where
  pending : state.pendingCommands = []
  cleared : ledger.cleared = []
  heard : ledger.heard = state.outputBuffer
  output : ∀ output ∈ ledger.turns, output ∈ ledger.seen

/-- The tree pushed nothing so far. -/
structure Quiet (state : DecisionSlotState σ κ) (ledger : Ledger) : Prop where
  emitted : ledger.emitted = []
  commands : state.slot.ctx.blackboard.commands = []

omit [Crates] [Session σ] [Clock κ] in
theorem Attentive.served_iff {state : DecisionSlotState σ κ} {ledger : Ledger}
    (attentive : Attentive state ledger) : DecisionDesk.Served state ledger ↔ ledger.emitted = [] := by
  constructor
  · intro served
    rw [← served.commands, attentive.cleared, attentive.pending, List.append_nil]
  · intro silent
    exact ⟨by rw [silent, attentive.cleared, attentive.pending, List.append_nil], attentive.output⟩

theorem note_seen (ledger : Ledger) (state : DecisionSlotState σ κ) :
    (ledger.note (some state.slot.tick)).seen =
      ledger.seen ++ [state.slot.ctx.blackboard.providerOutput] := rfl

theorem note_emitted (ledger : Ledger) (state : DecisionSlotState σ κ) :
    (ledger.note (some state.slot.tick)).emitted = ledger.emitted ++ state.slot.pushed := rfl

theorem Attentive.event {state : DecisionSlotState σ κ} {ledger : Ledger}
    (attentive : Attentive state ledger) (event : DomainEvent) :
    Attentive (state.handleProviderEvent event).state
      ((ledger.hear event).note (state.handleProviderEvent event).turn) := by
  cases event with
  | assistantChunk text =>
      exact ⟨attentive.pending, attentive.cleared, congrArg (· ++ text) attentive.heard, attentive.output⟩
  | finished =>
      have ticks := state.finishing.tickThen_ticks fun _ => true
      simp only [handleProviderEvent, ticks.turn]
      refine ⟨ticks.pendingCommands.trans attentive.pending, attentive.cleared,
        ticks.outputBuffer.symm, ?_⟩
      intro output member
      rw [note_seen]
      rcases List.mem_append.mp member with before | now
      · exact List.mem_append_left _ (attentive.output output before)
      · rw [List.mem_singleton.mp now, attentive.heard]
        exact List.mem_append_right _ List.mem_cons_self
  | _ => exact attentive

theorem Attentive.poll {state : DecisionSlotState σ κ} {ledger : Ledger}
    (attentive : Attentive state ledger) :
    Attentive state.pollDecisionSlot.state (ledger.note state.pollDecisionSlot.turn) := by
  unfold pollDecisionSlot
  split
  · exact attentive
  · split
    · have ticks := tickThen_ticks { state.asked.2 with pollScheduled := false } some
      rw [ticks.turn]
      refine ⟨ticks.pendingCommands.trans attentive.pending, attentive.cleared,
        attentive.heard.trans ticks.outputBuffer.symm, ?_⟩
      intro output member
      rw [note_seen]
      exact List.mem_append_left _ (attentive.output output member)
    · exact ⟨attentive.pending, attentive.cleared, attentive.heard, attentive.output⟩

theorem Quiet.event {state : DecisionSlotState σ κ} {ledger : Ledger} (quiet : Quiet state ledger)
    {event : DomainEvent} (silent : event = .finished → state.finishing.slot.pushed = []) :
    Quiet (state.handleProviderEvent event).state
      ((ledger.hear event).note (state.handleProviderEvent event).turn) := by
  cases event with
  | finished =>
      have ticks := state.finishing.tickThen_ticks fun _ => true
      simp only [handleProviderEvent, ticks.turn]
      refine ⟨?_, ticks.commands quiet.commands (silent rfl)⟩
      rw [note_emitted, silent rfl, List.append_nil]
      exact quiet.emitted
  | _ => exact ⟨quiet.emitted, quiet.commands⟩

theorem Quiet.poll {state : DecisionSlotState σ κ} {ledger : Ledger} (quiet : Quiet state ledger)
    (silent : state.pollScheduled = true → state.asked.1 = true → state.asked.2.slot.pushed = []) :
    Quiet state.pollDecisionSlot.state (ledger.note state.pollDecisionSlot.turn) := by
  unfold pollDecisionSlot
  split
  · exact quiet
  · next scheduled =>
      split
      · next ready =>
          have ticks := tickThen_ticks { state.asked.2 with pollScheduled := false } some
          have pushed := silent (by simpa using scheduled) ready
          rw [ticks.turn]
          refine ⟨?_, ticks.commands quiet.commands pushed⟩
          rw [note_emitted, pushed, List.append_nil]
          exact quiet.emitted
      · exact ⟨quiet.emitted, quiet.commands⟩

/-- What a tick at the end of a turn pushed is in the ledger. -/
theorem event_emitted (state : DecisionSlotState σ κ) (ledger : Ledger) :
    ((ledger.hear .finished).note (state.handleProviderEvent .finished).turn).emitted =
      ledger.emitted ++ state.finishing.slot.pushed := by
  have ticks := state.finishing.tickThen_ticks fun _ => true
  simp only [handleProviderEvent, ticks.turn]
  rfl

theorem poll_emitted (state : DecisionSlotState σ κ) (ledger : Ledger)
    (scheduled : state.pollScheduled = true) (ready : state.asked.1 = true) :
    (ledger.note state.pollDecisionSlot.turn).emitted =
      ledger.emitted ++ state.asked.2.slot.pushed := by
  have ticks := tickThen_ticks { state.asked.2 with pollScheduled := false } some
  simp only [pollDecisionSlot, scheduled, ready, Bool.not_true, Bool.false_eq_true, ↓reduceIte,
    ticks.turn]
  rfl

end DecisionSlotState

/-! ## All slots -/

namespace DecisionDesk

open DecisionSlotState (Attentive Quiet)

variable {σ κ : Type}

theorem All.start (fact : DecisionSlotState σ κ → Ledger → Prop) (enabled : Bool)
    (defaultTemplate : Option Node) :
    All ({ integration := { enabled, defaultTemplate } } : DecisionDesk σ κ) fact := by
  intro agentId state present
  cases present

theorem All.update {desk : DecisionDesk σ κ} {fact : DecisionSlotState σ κ → Ledger → Prop}
    (all : desk.All fact) {agentId : String} {state : Option (DecisionSlotState σ κ)} {ledger : Ledger}
    (new : ∀ found, state = some found → fact found ledger) :
    (desk.update agentId state ledger).All fact := by
  intro other found present
  by_cases here : other = agentId
  · subst here
    simp only [DecisionDesk.update, Function.update_self] at present ⊢
    exact new found present
  · simp only [DecisionDesk.update, Function.update_of_ne here] at present ⊢
    exact all other found present

theorem All.onSlot {desk : DecisionDesk σ κ} {fact : DecisionSlotState σ κ → Ledger → Prop}
    (all : desk.All fact) {agentId : String}
    {call : DecisionSlotState σ κ → Ledger → DecisionSlotState σ κ × Ledger}
    (called : ∀ state, desk.integration.slots agentId = some state → fact state (desk.ledgers agentId) →
      fact (call state (desk.ledgers agentId)).1 (call state (desk.ledgers agentId)).2) :
    (desk.onSlot agentId call).All fact := by
  unfold DecisionDesk.onSlot
  split
  · exact all
  · next state present =>
      apply all.update
      intro found same
      obtain rfl := Option.some.inj same
      exact called state present (all agentId state present)

theorem onSlot_present {desk : DecisionDesk σ κ} {agentId : String} {state : DecisionSlotState σ κ}
    (present : desk.integration.slots agentId = some state)
    (call : DecisionSlotState σ κ → Ledger → DecisionSlotState σ κ × Ledger) :
    (desk.onSlot agentId call).integration.slots agentId = some (call state (desk.ledgers agentId)).1 ∧
      (desk.onSlot agentId call).ledgers agentId = (call state (desk.ledgers agentId)).2 := by
  simp [DecisionDesk.onSlot, present, DecisionDesk.update]

/-- A slot that is attached has an empty blackboard and nothing pending. -/
theorem newSlot_ok {integration : DecisionIntegration σ κ} {agentId taskDescription : String}
    {template : Option Node} {session : σ} {clock : κ} {state : DecisionSlotState σ κ}
    (made : integration.newSlot agentId taskDescription template session clock = .ok (some state)) :
    Attentive state {} ∧ Quiet state {} := by
  unfold DecisionIntegration.newSlot at made
  split at made
  · cases made
  · split at made
    · cases made
    · cases made
      exact ⟨⟨rfl, rfl, rfl, by simp⟩, ⟨rfl, rfl⟩⟩

variable [Crates] [Session σ] [Clock κ]

/-- What every call on a slot keeps holds of all slots after a step. -/
theorem All.step {desk : DecisionDesk σ κ} {fact : DecisionSlotState σ κ → Ledger → Prop}
    (all : desk.All fact) (call : DecisionCall σ κ)
    (attached : ∀ {agentId taskDescription template session clock state},
      desk.integration.newSlot agentId taskDescription template session clock = .ok (some state) →
      fact state {})
    (event : ∀ {agentId event state}, call = .event agentId event → desk.integration.enabled = true →
      desk.integration.slots agentId = some state → fact state (desk.ledgers agentId) →
      fact (state.handleProviderEvent event).state
        (((desk.ledgers agentId).hear event).note (state.handleProviderEvent event).turn))
    (poll : ∀ {agentId state}, call = .poll agentId → desk.integration.slots agentId = some state →
      fact state (desk.ledgers agentId) →
      fact state.pollDecisionSlot.state ((desk.ledgers agentId).note state.pollDecisionSlot.turn))
    (meanwhile : ∀ {state : DecisionSlotState σ κ} {ledger} (session : σ → σ) (clock : κ → κ),
      fact state ledger →
      fact { state with
        slot.ctx.session := session state.slot.ctx.session
        slot.ctx.clock := clock state.slot.ctx.clock } ledger)
    (cleared : ∀ {state ledger}, fact state ledger → fact { state with pendingCommands := [] }
      { ledger with cleared := ledger.cleared ++ state.pendingCommands }) :
    (desk.step call).2.All fact := by
  cases call with
  | attach agentId taskDescription template session clock =>
      simp only [DecisionDesk.step]
      split
      · next state made =>
          apply all.update
          intro found same
          obtain rfl := Option.some.inj same
          exact attached made
      · exact all
      · exact all
  | event agentId e =>
      simp only [DecisionDesk.step]
      split
      · exact all
      · next enabled => exact all.onSlot fun state present => event rfl (by simpa using enabled) present
  | poll agentId => exact all.onSlot fun state present => poll rfl present
  | meanwhile agentId session clock => exact all.onSlot fun state _ => meanwhile session clock
  | clearPending agentId => exact all.onSlot fun state _ => cleared
  | detach agentId =>
      apply all.update
      intro found none
      cases none
  | updateConfig enabled defaultTemplate => exact all

/-- Every step keeps every slot attentive, whatever its tree does. -/
theorem attentive_step {desk : DecisionDesk σ κ} (attentive : desk.All Attentive)
    (call : DecisionCall σ κ) : (desk.step call).2.All Attentive := by
  apply attentive.step call
  · intro _ _ _ _ _ _ made
    exact (newSlot_ok made).1
  · intro _ event _ _ _ _ before
    exact before.event event
  · intro _ _ _ _ before
    exact before.poll
  · intro _ _ _ _ before
    exact ⟨before.pending, before.cleared, before.heard, before.output⟩
  · intro state ledger before
    exact ⟨rfl, by rw [before.pending, before.cleared, List.append_nil], before.heard, before.output⟩

theorem quiet_step {desk : DecisionDesk σ κ} (quiet : desk.All Quiet) {call : DecisionCall σ κ}
    (silent : desk.Silent call) : (desk.step call).2.All Quiet := by
  apply quiet.step call
  · intro _ _ _ _ _ _ made
    exact (newSlot_ok made).2
  · rintro agentId event state rfl enabled present before
    apply before.event
    rintro rfl
    exact silent enabled state present
  · rintro agentId state rfl present before
    exact before.poll (silent state present)
  · intro _ _ _ _ before
    exact ⟨before.emitted, before.commands⟩
  · intro _ _ before
    exact ⟨before.emitted, before.commands⟩

/-- A command that is pushed gets no further. -/
theorem serves_silent {desk : DecisionDesk σ κ} (attentive : desk.All Attentive)
    {call : DecisionCall σ κ} (serves : (desk.step call).2.All Served) : desk.Silent call := by
  have silent : (desk.step call).2.All fun _ ledger => ledger.emitted = [] := by
    intro agentId state present
    exact (attentive_step attentive call agentId state present).served_iff.mp
      (serves agentId state present)
  cases call with
  | event agentId e =>
      cases e with
      | finished =>
          intro enabled state present
          obtain ⟨slot, ledger⟩ := onSlot_present present fun state ledger =>
            ((state.handleProviderEvent .finished).state,
              (ledger.hear .finished).note (state.handleProviderEvent .finished).turn)
          simp only [DecisionDesk.step, enabled, Bool.not_true, Bool.false_eq_true, ↓reduceIte] at silent
          have empty := silent agentId _ slot
          rw [ledger, DecisionSlotState.event_emitted, List.append_eq_nil_iff] at empty
          exact empty.2
      | _ => trivial
  | poll agentId =>
      intro state present scheduled ready
      obtain ⟨slot, ledger⟩ := onSlot_present present fun state ledger =>
        (state.pollDecisionSlot.state, ledger.note state.pollDecisionSlot.turn)
      have empty := silent agentId _ slot
      rw [DecisionDesk.step, ledger, DecisionSlotState.poll_emitted _ _ scheduled ready,
        List.append_eq_nil_iff] at empty
      exact empty.2
  | attach | meanwhile | clearPending | detach | updateConfig => trivial

/-! ## Runs of the desk -/

/-- Nothing is ever appended to the pending commands, and every turn's output is found by a tick. -/
theorem run_attentive (enabled : Bool) (defaultTemplate : Option Node)
    (calls : List (DecisionCall σ κ)) :
    (Machine.final step { integration := { enabled, defaultTemplate } } calls).All Attentive :=
  @Machine.final_invariant (DecisionDesk σ κ) (DecisionCall σ κ) Unit step
    (fun desk => desk.All Attentive) (fun _ _ => True) (fun _ call _ attentive => attentive_step attentive call) _
    (All.start Attentive enabled defaultTemplate) calls fun _ _ => trivial

/-- In every run, every command is appended exactly once and in order throughout exactly if no tree
    that is ticked pushes a command. -/
theorem run_served_iff (enabled : Bool) (defaultTemplate : Option Node)
    (calls : List (DecisionCall σ κ)) :
    (∀ x ∈ Machine.history step { integration := { enabled, defaultTemplate } } calls,
        x.after.All Served) ↔
      ∀ x ∈ Machine.history step { integration := { enabled, defaultTemplate } } calls,
        x.before.Silent x.event :=
  @Machine.history_exact (DecisionDesk σ κ) (DecisionCall σ κ) Unit step
    (fun desk => desk.All Attentive ∧ desk.All Quiet) Silent (fun x => x.after.All Served)
    (fun _ call good => ⟨serves_silent good.1, fun silent agentId state present =>
      (attentive_step good.1 call agentId state present).served_iff.mpr
        (quiet_step good.2 silent agentId state present).emitted⟩)
    (fun _ call good served => ⟨attentive_step good.1 call,
      quiet_step good.2 (serves_silent good.1 served)⟩)
    _ ⟨All.start Attentive enabled defaultTemplate, All.start Quiet enabled defaultTemplate⟩ calls

end DecisionDesk

section

open Plain

/-- A tree that wakes the agent up. -/
def wakeUpOnFinish : Node := .action { name := "wake_up", command := .agent .wakeUp, when := none }

/-- The tick succeeds, and its command is pending nowhere. -/
theorem wakeUp_not_pending : ¬ ∀ (enabled : Bool) (defaultTemplate : Option Node)
    (calls : List (DecisionCall Silent Frozen)),
    ∀ x ∈ Machine.history DecisionDesk.step { integration := { enabled, defaultTemplate } } calls,
      x.after.All DecisionDesk.Served := by
  intro all
  have served := all true none [.attach "alpha" "Rename" (some wakeUpOnFinish) .session .clock,
    .event "alpha" .finished] _ (List.getLast_mem (by decide)) "alpha" _ rfl
  have lost := served.commands
  exact absurd (congrArg List.length lost) (by decide +kernel)

end

end AgileAgent.Daemon
