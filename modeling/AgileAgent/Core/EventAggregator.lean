import Mathlib.Data.Finmap
import AgileAgent.Machine
import AgileAgent.RuntimeDomain.Worker

/-! # The event aggregator

Providers send their events into channels, one for each agent, and the main thread takes them out
with polls of all or of some agents. Between any two receipts of a poll the providers go on sending,
or hang up.
-/

namespace AgileAgent.Core.EventAggregator

open RuntimeDomain Machine

/-! ## Channels -/

abbrev ChannelId := Nat

/-- Where the receiver of a channel is. -/
inductive ReceiverPlace where
  | outside
  | registered
  | dropped
  deriving DecidableEq

/-- An `mpsc` channel. It is connected while there is a sender. -/
structure Channel where
  queue : List DomainEvent := []
  connected : Bool := true
  receiver : ReceiverPlace := .outside

inductive Receipt where
  | event (event : DomainEvent)
  | empty
  | disconnected

/-- `try_recv`. -/
def Channel.tryRecv (channel : Channel) : Receipt × Channel :=
  match channel.queue with
  | event :: rest => (.event event, { channel with queue := rest })
  | [] => (if channel.connected then .empty else .disconnected, channel)

/-- A sender can send. -/
def Channel.open (channel : Channel) : Bool := channel.connected && channel.receiver != .dropped

/-! ## Polls -/

/-- `AgentEvent::FromProvider`, the only kind that a poll makes. -/
structure AgentEvent where
  agentId : AgentId
  event : DomainEvent

structure PollResult where
  events : List AgentEvent := []
  emptyChannels : List AgentId := []
  disconnectedChannels : List AgentId := []

inductive PollKind where
  | all
  | timed
  | agents
  deriving DecidableEq

/-- A round of a poll in progress: the agents that it loops over, those that are still to come, and
    what it has found. A poll with timeout has the result of its earlier rounds besides. -/
structure Poll where
  kind : PollKind
  earlier : Option PollResult
  agents : List AgentId
  remaining : List AgentId
  found : PollResult := {}

namespace Poll

/-- One receipt for the first of the remaining agents. -/
def receive (poll : Poll) (agentId : AgentId) (rest : List AgentId) : Receipt → Poll
  | .event event =>
      { poll with found := { poll.found with events := poll.found.events ++ [⟨agentId, event⟩] } }
  | .empty =>
      { poll with
        remaining := rest
        found := { poll.found with emptyChannels := poll.found.emptyChannels ++ [agentId] } }
  | .disconnected =>
      { poll with
        remaining := rest
        found := { poll.found with
          disconnectedChannels := poll.found.disconnectedChannels ++ [agentId] } }

/-- The result with the earlier rounds. What was empty in a later round is not added. -/
def result (poll : Poll) : PollResult :=
  match poll.earlier with
  | none => poll.found
  | some earlier =>
      { earlier with
        events := earlier.events ++ poll.found.events
        disconnectedChannels := earlier.disconnectedChannels ++ poll.found.disconnectedChannels }

end Poll

/-- What the main thread is at. A poll with timeout sleeps between its rounds. -/
inductive Phase where
  | idle
  | polling (poll : Poll)
  | sleeping (result : PollResult)

/-! ## The aggregator and the senders -/

structure World where
  channels : ChannelId → Channel := fun _ => {}
  receivers : Finmap (fun _ : AgentId => ChannelId) := ∅
  phase : Phase := .idle

namespace World

def setChannel (w : World) (c : ChannelId) (channel : Channel) : World :=
  { w with channels := Function.update w.channels c channel }

/-- The receiver of an agent, if it has one, goes elsewhere. -/
def moveReceiver (w : World) (agentId : AgentId) (place : ReceiverPlace) : World :=
  match w.receivers.lookup agentId with
  | some c => w.setChannel c { w.channels c with receiver := place }
  | none => w

/-- `add_receiver`. The receiver that it replaces is dropped. -/
def addReceiver (w : World) (agentId : AgentId) (c : ChannelId) : World :=
  let replaced := w.moveReceiver agentId .dropped
  { replaced.setChannel c { replaced.channels c with receiver := .registered } with
    receivers := w.receivers.insert agentId c }

def removeReceiver (w : World) (agentId : AgentId) : World :=
  { w.moveReceiver agentId .outside with receivers := w.receivers.erase agentId }

/-- An order in which the loop over all receivers may come to them. -/
def Iterates (w : World) (order : List AgentId) : Prop :=
  order.Nodup ∧ order.toFinset = w.receivers.keys

instance (w : World) (order : List AgentId) : Decidable (w.Iterates order) :=
  inferInstanceAs (Decidable (_ ∧ _))

def startRound (w : World) (kind : PollKind) (earlier : Option PollResult) (agents : List AgentId) : World :=
  { w with phase := .polling { kind, earlier, agents, remaining := agents } }

/-- The end of a round. A poll with timeout that has no events yet goes on. -/
def endRound (w : World) (poll : Poll) : Option PollResult × World :=
  match poll.kind with
  | .timed =>
      if poll.result.events.isEmpty then (none, { w with phase := .sleeping poll.result })
      else (some poll.result, { w with phase := .idle })
  | _ => (some poll.result, { w with phase := .idle })

/-- The next receipt of a poll, or the end of its round. Agents without a receiver are passed over. -/
def receive (w : World) : Option PollResult × World :=
  match w.phase with
  | .polling poll =>
      match poll.remaining with
      | [] => w.endRound poll
      | agentId :: rest =>
          match w.receivers.lookup agentId with
          | none => (none, { w with phase := .polling { poll with remaining := rest } })
          | some c =>
              let received := (w.channels c).tryRecv
              (none, { w.setChannel c received.2 with
                phase := .polling (poll.receive agentId rest received.1) })
  | _ => (none, w)

end World

/-- What the main thread calls. The loop over all receivers comes to them in some order. -/
inductive Call where
  | addReceiver (agentId : AgentId) (c : ChannelId)
  | removeReceiver (agentId : AgentId)
  | pollAll (order : List AgentId)
  | pollWithTimeout (order : List AgentId)
  | pollAgents (agentIds : List AgentId)

/-- What the senders and the main thread do. -/
inductive Action where
  | send (c : ChannelId) (event : DomainEvent)
  | hangUp (c : ChannelId)
  | call (call : Call)
  | receive
  | again (order : List AgentId)
  | timeOut

namespace World

/-- What the main thread does when it is at nothing else. -/
def perform (w : World) : Call → World
  | .addReceiver agentId c =>
      if (w.channels c).receiver = .outside then w.addReceiver agentId c else w
  | .removeReceiver agentId => w.removeReceiver agentId
  | .pollAll order => if w.Iterates order then w.startRound .all none order else w
  | .pollWithTimeout order => if w.Iterates order then w.startRound .timed none order else w
  | .pollAgents agentIds => w.startRound .agents none agentIds

/-- One action. What nobody can do at the moment changes nothing. -/
def step (w : World) : Action → Option PollResult × World
  | .send c event =>
      if (w.channels c).open then
        (none, w.setChannel c { w.channels c with queue := (w.channels c).queue ++ [event] })
      else (none, w)
  | .hangUp c => (none, w.setChannel c { w.channels c with connected := false })
  | .call call =>
      match w.phase with
      | .idle => (none, w.perform call)
      | _ => (none, w)
  | .receive => w.receive
  | .again order =>
      match w.phase with
      | .sleeping result =>
          if w.Iterates order then (none, w.startRound .timed (some result) order) else (none, w)
      | _ => (none, w)
  | .timeOut =>
      match w.phase with
      | .sleeping result => (some result, { w with phase := .idle })
      | _ => (none, w)

/-! ## What is wanted -/

/-- The agent of an event has this channel. -/
def eventFrom (w : World) (c : ChannelId) (e : AgentEvent) : Option DomainEvent :=
  if w.receivers.lookup e.agentId = some c then some e.event else none

def registered (w : World) (agentId : AgentId) : Bool := (w.receivers.lookup agentId).isSome

end World

/-- What an action sends into a channel. -/
def sentInto (c : ChannelId) (x : Step World Action (Option PollResult)) : List DomainEvent :=
  match x.event with
  | .send c' event => if c' = c ∧ (x.before.channels c).open = true then [event] else []
  | _ => []

/-- What a poll that ends returns from a channel. -/
def World.returned (w : World) (c : ChannelId) : Option PollResult → List DomainEvent
  | some result => result.events.filterMap (w.eventFrom c)
  | none => []

def returnedFrom (c : ChannelId) (x : Step World Action (Option PollResult)) : List DomainEvent :=
  x.before.returned c x.output

def Phase.events : Phase → List AgentEvent
  | idle => []
  | polling poll => poll.result.events
  | sleeping result => result.events

namespace World

/-- What the poll in progress has from a channel. -/
def collected (w : World) (c : ChannelId) : List DomainEvent :=
  w.phase.events.filterMap (w.eventFrom c)

/-- What has been sent into a channel and not returned. -/
def held (w : World) (c : ChannelId) : List DomainEvent := w.collected c ++ (w.channels c).queue

end World

/-- What holds of every run. -/
structure Aggregates (actions : List Action) : Prop where
  /-- What was sent into a channel has been returned in this order or is still there. -/
  kept : ∀ c, (history World.step {} actions).flatMap (sentInto c) =
    (history World.step {} actions).flatMap (returnedFrom c) ++ (final World.step {} actions).held c
  /-- A poll returns all that is in the channels of its agents when it starts. -/
  drained : ∀ front x middle y back,
    history World.step {} actions = front ++ x :: (middle ++ y :: back) →
    (∀ z ∈ middle, z.output = none) → x.before.phase = .idle →
    ∀ poll, x.after.phase = .polling poll → ∀ result, y.output = some result →
    ∀ agentId ∈ poll.agents, ∀ c, x.before.receivers.lookup agentId = some c →
      (x.before.channels c).queue <+: returnedFrom c y
  /-- A poll of one round lists its agents in one of its lists as often as it was asked for them, and
      one of all agents was asked for each once. -/
  listed : ∀ x ∈ history World.step {} actions, ∀ poll result, x.before.phase = .polling poll →
    poll.earlier = none → x.output = some result →
    (result.emptyChannels ++ result.disconnectedChannels).Perm (poll.agents.filter x.before.registered) ∧
      (poll.kind ≠ .agents → poll.agents.Nodup ∧ ∀ agentId, agentId ∈ poll.agents ↔ x.before.registered agentId = true)
  /-- Only a poll with timeout has more rounds. -/
  rounds : ∀ x ∈ history World.step {} actions, ∀ poll, x.before.phase = .polling poll →
    poll.kind ≠ .timed → poll.earlier = none

/-! ## Receipts -/

namespace Poll

variable {poll : Poll} {agentId : AgentId} {rest : List AgentId} {receipt : Receipt}

theorem receive_event (event : DomainEvent) :
    (poll.receive agentId rest (.event event)).result.events = poll.result.events ++ [⟨agentId, event⟩] := by
  cases earlier : poll.earlier <;> simp [receive, result, earlier]

theorem receive_end (ended : receipt = .empty ∨ receipt = .disconnected) :
    (poll.receive agentId rest receipt).result.events = poll.result.events := by
  rcases ended with rfl | rfl <;> cases earlier : poll.earlier <;> simp [receive, result, earlier]

/-- The end of a receipt puts the agent into one of the lists. -/
theorem receive_listed (ended : receipt = .empty ∨ receipt = .disconnected) :
    ((poll.receive agentId rest receipt).found.emptyChannels ++
      (poll.receive agentId rest receipt).found.disconnectedChannels).Perm
      (poll.found.emptyChannels ++ poll.found.disconnectedChannels ++ [agentId]) := by
  rcases ended with rfl | rfl
  · simp only [receive, List.append_assoc]
    exact (List.perm_append_comm).append_left _
  · simp only [receive, List.append_assoc]
    exact List.Perm.refl _

end Poll

namespace World

variable {w w' : World} {c : ChannelId} {poll : Poll} {output : Option PollResult}

/-- What the next receipt of a poll can be. -/
inductive Receives (w : World) (poll : Poll) : Option PollResult → World → Prop
  | ends (noMore : poll.remaining = []) : Receives w poll (w.endRound poll).1 (w.endRound poll).2
  | passes {agentId : AgentId} {rest : List AgentId} (next : poll.remaining = agentId :: rest)
      (unknown : w.receivers.lookup agentId = none) :
      Receives w poll none { w with phase := .polling { poll with remaining := rest } }
  | takes {agentId : AgentId} {rest : List AgentId} {c : ChannelId} {event : DomainEvent}
      {more : List DomainEvent} (next : poll.remaining = agentId :: rest)
      (known : w.receivers.lookup agentId = some c) (waits : (w.channels c).queue = event :: more) :
      Receives w poll none { w.setChannel c { w.channels c with queue := more } with
        phase := .polling (poll.receive agentId rest (.event event)) }
  | lists {agentId : AgentId} {rest : List AgentId} {c : ChannelId} {receipt : Receipt}
      (next : poll.remaining = agentId :: rest) (known : w.receivers.lookup agentId = some c)
      (drained : (w.channels c).queue = []) (ended : receipt = .empty ∨ receipt = .disconnected) :
      Receives w poll none { w with phase := .polling (poll.receive agentId rest receipt) }

theorem receives (phase : w.phase = .polling poll) : Receives w poll w.receive.1 w.receive.2 := by
  unfold receive
  rw [phase]
  dsimp only
  cases next : poll.remaining with
  | nil => exact .ends next
  | cons agentId rest =>
      dsimp only
      cases known : w.receivers.lookup agentId with
      | none => exact .passes next known
      | some c =>
          dsimp only [Channel.tryRecv]
          cases queue : (w.channels c).queue with
          | cons event more => exact .takes next known queue
          | nil =>
              have same : w.setChannel c (w.channels c) = w := by
                simp [setChannel]
              rw [same]
              refine .lists next known queue ?_
              cases (w.channels c).connected with
              | true => exact .inl rfl
              | false => exact .inr rfl

/-- A round ends with a result, or with the sleep before the next one. -/
theorem endRound_cases (w : World) (poll : Poll) :
    w.endRound poll = (none, { w with phase := .sleeping poll.result }) ∨
      w.endRound poll = (some poll.result, { w with phase := .idle }) := by
  unfold endRound
  cases poll.kind with
  | timed =>
      cases poll.result.events.isEmpty with
      | true => exact .inl rfl
      | false => exact .inr rfl
  | _ => exact .inr rfl

/-- Only the end of a round gives a result. -/
theorem Receives.result {result : PollResult} (received : Receives w poll (some result) w') :
    poll.remaining = [] ∧ result = poll.result := by
  generalize ended : some result = output at received
  cases received with
  | ends noMore =>
      rcases w.endRound_cases poll with isEnd | isEnd
      · rw [isEnd] at ended
        cases ended
      · rw [isEnd] at ended
        exact ⟨noMore, Option.some.inj ended⟩
  | passes | takes | lists => cases ended

theorem setChannel_queue {c' : ChannelId} {channel : Channel} :
    ((w.setChannel c' channel).channels c).queue =
      if c = c' then channel.queue else (w.channels c).queue := by
  unfold setChannel
  dsimp only
  rw [Function.update_apply]
  split <;> rfl

theorem moveReceiver_queue {agentId : AgentId} {place : ReceiverPlace} :
    ((w.moveReceiver agentId place).channels c).queue = (w.channels c).queue := by
  unfold moveReceiver
  split
  · rw [setChannel_queue]
    split
    · next same => rw [same]
    · rfl
  · rfl

theorem moveReceiver_phase {agentId : AgentId} {place : ReceiverPlace} :
    (w.moveReceiver agentId place).phase = w.phase := by
  unfold moveReceiver
  split <;> rfl

/-- What an action can do: everything that the proofs below look at. -/
inductive Moves (w : World) : Action → Option PollResult → World → Prop
  | stays {action : Action} (unsent : ∀ c, sentInto c ⟨w, action, none, w⟩ = []) : Moves w action none w
  | sends {c : ChannelId} {event : DomainEvent} (opened : (w.channels c).open = true) :
      Moves w (.send c event) none
        (w.setChannel c { w.channels c with queue := (w.channels c).queue ++ [event] })
  | hangsUp {c : ChannelId} :
      Moves w (.hangUp c) none (w.setChannel c { w.channels c with connected := false })
  | receives {poll : Poll} {output : Option PollResult} {w' : World} (phase : w.phase = .polling poll)
      (received : Receives w poll output w') : Moves w .receive output w'
  | goesOn {order : List AgentId} {result : PollResult} (phase : w.phase = .sleeping result)
      (iterates : w.Iterates order) : Moves w (.again order) none (w.startRound .timed (some result) order)
  | timesOut {result : PollResult} (phase : w.phase = .sleeping result) :
      Moves w .timeOut (some result) { w with phase := .idle }
  | starts {call : Call} {kind : PollKind} {agents : List AgentId} (idle : w.phase = .idle)
      (iterates : kind ≠ .agents → w.Iterates agents) :
      Moves w (.call call) none (w.startRound kind none agents)
  | registers {call : Call} {w' : World} (idle : w.phase = .idle) (phase : w'.phase = .idle)
      (queues : ∀ c, (w'.channels c).queue = (w.channels c).queue) : Moves w (.call call) none w'

theorem perform_moves (idle : w.phase = .idle) (call : Call) : Moves w (.call call) none (w.perform call) := by
  cases call with
  | addReceiver agentId c' =>
      rw [perform]
      split
      · refine .registers idle (moveReceiver_phase.trans idle) fun c => ?_
        change (((w.moveReceiver agentId .dropped).setChannel c' _).channels c).queue = _
        rw [setChannel_queue]
        split
        · next isC => rw [isC, moveReceiver_queue]
        · exact moveReceiver_queue
      · exact .stays fun _ => rfl
  | removeReceiver agentId =>
      exact .registers idle (moveReceiver_phase.trans idle) fun _ => moveReceiver_queue
  | pollAll order | pollWithTimeout order =>
      rw [perform]
      split
      · next iterates => exact .starts idle fun _ => iterates
      · exact .stays fun _ => rfl
  | pollAgents agentIds => exact .starts idle fun isAll => absurd rfl isAll

theorem step_moves (w : World) (action : Action) : Moves w action (w.step action).1 (w.step action).2 := by
  cases action with
  | send c event =>
      rw [step]
      cases opened : (w.channels c).open with
      | true => exact .sends opened
      | false =>
          apply Moves.stays
          intro c'
          apply if_neg
          intro sent
          rw [← sent.1, opened] at sent
          cases sent.2
  | hangUp c => exact .hangsUp
  | receive =>
      rw [step]
      cases phase : w.phase with
      | polling poll => exact .receives phase (receives phase)
      | idle | sleeping =>
          rw [receive, phase]
          exact .stays fun _ => rfl
  | again order =>
      rw [step]
      cases phase : w.phase with
      | sleeping result =>
          dsimp only
          split
          · next iterates => exact .goesOn phase iterates
          · exact .stays fun _ => rfl
      | idle | polling => exact .stays fun _ => rfl
  | timeOut =>
      rw [step]
      cases phase : w.phase with
      | sleeping result => exact .timesOut phase
      | idle | polling => exact .stays fun _ => rfl
  | call call =>
      rw [step]
      cases phase : w.phase with
      | idle => exact perform_moves phase call
      | polling | sleeping => exact .stays fun _ => rfl

/-! ## Nothing is lost -/

theorem receives_held (phase : w.phase = .polling poll) (received : Receives w poll output w') :
    w.held c = w.returned c output ++ w'.held c := by
  have before : w.held c = poll.result.events.filterMap (w.eventFrom c) ++ (w.channels c).queue := by
    rw [held, collected, phase]
    rfl
  rw [before]
  cases received with
  | ends _ =>
      rcases w.endRound_cases poll with ends | ends
      · rw [ends]
        rfl
      · rw [ends]
        rfl
  | passes _ _ => rfl
  | @takes agentId rest c' event more next known waits =>
      have after : (World.eventFrom { w.setChannel c' { w.channels c' with queue := more } with
          phase := .polling (poll.receive agentId rest (.event event)) }) = w.eventFrom := rfl
      rw [held, collected, after]
      change _ = (poll.receive agentId rest (.event event)).result.events.filterMap (w.eventFrom c) ++
        ((w.setChannel c' { w.channels c' with queue := more }).channels c).queue
      rw [Poll.receive_event, List.filterMap_append, setChannel_queue]
      by_cases isC : c = c'
      · subst isC
        simp [eventFrom, known, waits]
      · simp [eventFrom, known, isC, Ne.symm isC]
  | @lists agentId rest c' receipt next known drained ended =>
      change _ = (poll.receive agentId rest receipt).result.events.filterMap (w.eventFrom c) ++
        (w.channels c).queue
      rw [Poll.receive_end ended]

/-- What a channel holds and is sent is what is returned from it and what it holds then. -/
theorem Moves.held {action : Action} (moves : Moves w action output w') (c : ChannelId) :
    w.held c ++ sentInto c ⟨w, action, output, w'⟩ = w.returned c output ++ w'.held c := by
  cases moves with
  | stays unsent =>
      rw [unsent c, List.append_nil]
      rfl
  | @sends c' event opened =>
      change w.collected c ++ (w.channels c).queue ++ _ = w.collected c ++
        ((w.setChannel c' _).channels c).queue
      rw [setChannel_queue, List.append_assoc]
      by_cases isC : c = c'
      · subst isC
        simp [sentInto, opened]
      · simp [sentInto, isC, Ne.symm isC]
  | @hangsUp c' =>
      change w.collected c ++ (w.channels c).queue ++ [] = w.collected c ++
        ((w.setChannel c' _).channels c).queue
      rw [setChannel_queue, List.append_nil]
      split
      · next isC => rw [isC]
      · rfl
  | receives phase received =>
      rw [sentInto, List.append_nil]
      exact receives_held phase received
  | @goesOn order result phase _ =>
      have before : w.held c = result.events.filterMap (w.eventFrom c) ++ (w.channels c).queue := by
        rw [World.held, collected, phase]
        rfl
      rw [sentInto, List.append_nil, before]
      change _ = (result.events ++ []).filterMap (w.eventFrom c) ++ (w.channels c).queue
      rw [List.append_nil]
  | timesOut phase =>
      rw [sentInto, List.append_nil, World.held, collected, phase]
      rfl
  | starts idle _ =>
      rw [sentInto, List.append_nil, World.held, collected, idle]
      rfl
  | registers idle phase queues =>
      rw [sentInto, List.append_nil, World.held, World.held, collected, collected, idle, phase, queues]
      rfl

theorem run_held (w : World) (actions : List Action) (c : ChannelId) :
    w.held c ++ (history step w actions).flatMap (sentInto c) =
      (history step w actions).flatMap (returnedFrom c) ++ (final step w actions).held c := by
  induction actions generalizing w with
  | nil => simp
  | cons action rest ih =>
      have held := (step_moves w action).held c
      rw [history_cons, final_cons, List.flatMap_cons, List.flatMap_cons, ← List.append_assoc, held,
        List.append_assoc, List.append_assoc, ih, returnedFrom]

/-! ## A poll returns what waits -/

/-- A poll is on its way to what was in the channel of an agent, or has it. -/
structure Follows (agentId : AgentId) (c : ChannelId) (waiting : List DomainEvent) (w : World) : Prop where
  known : w.receivers.lookup agentId = some c
  busy : w.phase ≠ .idle
  held : waiting <+: w.held c
  got : waiting <+: w.collected c ∨ ∃ poll, w.phase = .polling poll ∧ agentId ∈ poll.remaining

section

variable {agentId : AgentId} {waiting : List DomainEvent}

theorem Follows.returns {result : PollResult} (follows : Follows agentId c waiting w)
    (phase : w.phase.events = result.events) (none_left : ∀ poll, w.phase = .polling poll → poll.remaining = []) :
    waiting <+: w.returned c (some result) := by
  rcases follows.got with got | ⟨poll, polling, member⟩
  · rwa [collected, phase] at got
  · rw [none_left poll polling] at member
    cases member

/-- A step that leaves the poll alone. -/
theorem Follows.stays (follows : Follows agentId c waiting w) (receivers : w'.receivers = w.receivers)
    (phase : w'.phase = w.phase) (grows : w.held c <+: w'.held c) : Follows agentId c waiting w' := by
  have same : w'.collected c = w.collected c := by
    rw [collected, collected, phase]
    exact congrArg (w.phase.events.filterMap ·) (funext fun e => by rw [eventFrom, eventFrom, receivers])
  refine ⟨receivers ▸ follows.known, phase ▸ follows.busy, follows.held.trans grows, ?_⟩
  rw [same, phase]
  exact follows.got

theorem Follows.receives (follows : Follows agentId c waiting w) (phase : w.phase = .polling poll)
    (received : Receives w poll none w') : Follows agentId c waiting w' := by
  have held := @receives_held w w' c poll none phase received
  rw [returned, List.nil_append] at held
  have whole := follows.held
  rw [held] at whole
  have got : waiting <+: poll.result.events.filterMap (w.eventFrom c) ∨ agentId ∈ poll.remaining := by
    rcases follows.got with got | ⟨poll', polling, member⟩
    · rw [collected, phase] at got
      exact .inl got
    · rw [phase] at polling
      cases polling
      exact .inr member
  generalize nothing : (none : Option PollResult) = output at received
  cases received with
  | ends noMore =>
      rcases w.endRound_cases poll with ends | ends
      · rw [ends] at whole ⊢
        refine ⟨follows.known, fun idle => (by cases idle), whole, .inl ?_⟩
        rcases got with got | member
        · exact got
        · rw [noMore] at member
          cases member
      · rw [ends] at nothing
        cases nothing
  | passes next unknown =>
      refine ⟨follows.known, fun idle => (by cases idle), whole, ?_⟩
      rcases got with got | member
      · exact .inl got
      · rw [next] at member
        rcases List.mem_cons.mp member with rfl | later
        · rw [follows.known] at unknown
          cases unknown
        · exact .inr ⟨_, rfl, later⟩
  | @takes agentId' rest c' event more next known waits =>
      refine ⟨follows.known, fun idle => (by cases idle), whole, ?_⟩
      rcases got with got | member
      · refine .inl (got.trans ?_)
        change _ <+: (poll.receive agentId' rest (.event event)).result.events.filterMap (w.eventFrom c)
        rw [Poll.receive_event, List.filterMap_append]
        exact List.prefix_append _ _
      · exact .inr ⟨_, rfl, member⟩
  | @lists agentId' rest c' receipt next known drained ended =>
      refine ⟨follows.known, fun idle => (by cases idle), whole, ?_⟩
      have same : (poll.receive agentId' rest receipt).result.events.filterMap (w.eventFrom c) =
          poll.result.events.filterMap (w.eventFrom c) := by
        rw [Poll.receive_end ended]
      rcases got with got | member
      · left
        change waiting <+: (poll.receive agentId' rest receipt).result.events.filterMap (w.eventFrom c)
        rwa [same]
      · rw [next] at member
        rcases List.mem_cons.mp member with rfl | later
        · have isC : c' = c := Option.some.inj (known.symm.trans follows.known)
          subst isC
          left
          change waiting <+: (poll.receive agentId rest receipt).result.events.filterMap (w.eventFrom c')
          have all := follows.held
          rw [World.held, collected, phase, drained, List.append_nil] at all
          rw [same]
          exact all
        · refine .inr ⟨_, rfl, ?_⟩
          rcases ended with rfl | rfl
          · exact later
          · exact later

/-- A poll in progress goes on to return what it follows. -/
theorem Follows.moves {action : Action} (follows : Follows agentId c waiting w)
    (moves : Moves w action output w') :
    (output = none ∧ Follows agentId c waiting w') ∨ waiting <+: w.returned c output := by
  cases moves with
  | stays _ => exact .inl ⟨rfl, follows⟩
  | @sends c' event _ =>
      refine .inl ⟨rfl, follows.stays rfl rfl ?_⟩
      change w.collected c ++ (w.channels c).queue <+: w.collected c ++
        ((w.setChannel c' _).channels c).queue
      rw [setChannel_queue]
      split
      · next isC =>
          subst isC
          rw [← List.append_assoc]
          exact List.prefix_append _ _
      · exact List.prefix_refl _
  | @hangsUp c' =>
      refine .inl ⟨rfl, follows.stays rfl rfl ?_⟩
      change w.collected c ++ (w.channels c).queue <+: w.collected c ++
        ((w.setChannel c' _).channels c).queue
      rw [setChannel_queue]
      split
      · next isC =>
          subst isC
          exact List.prefix_refl _
      · exact List.prefix_refl _
  | @receives poll _ _ phase received =>
      cases output with
      | none => exact .inl ⟨rfl, follows.receives phase received⟩
      | some result =>
          obtain ⟨noMore, rfl⟩ := received.result
          right
          apply follows.returns
          · rw [phase]
            rfl
          · intro poll' polling
            rw [phase] at polling
            cases polling
            exact noMore
  | @goesOn order result phase _ =>
      have collected : (w.startRound .timed (some result) order).collected c = w.collected c := by
        rw [World.collected, World.collected, phase]
        change (result.events ++ []).filterMap (w.eventFrom c) = _
        rw [List.append_nil]
        rfl
      refine .inl ⟨rfl, follows.known, fun idle => (by cases idle), ?_, .inl ?_⟩
      · rw [World.held, collected]
        exact follows.held
      · rw [collected]
        rcases follows.got with got | ⟨poll, polling, -⟩
        · exact got
        · rw [phase] at polling
          cases polling
  | timesOut phase =>
      right
      apply follows.returns
      · rw [phase]
        rfl
      · intro poll polling
        rw [phase] at polling
        cases polling
  | starts idle _ => exact absurd idle follows.busy
  | registers idle _ _ => exact absurd idle follows.busy

/-- What a poll follows is in its result. -/
theorem Follows.run {actions : List Action} {middle back : List (Step World Action (Option PollResult))}
    {y : Step World Action (Option PollResult)} (follows : Follows agentId c waiting w)
    (whole : history World.step w actions = middle ++ y :: back) (quiet : ∀ z ∈ middle, z.output = none)
    {result : PollResult} (ends : y.output = some result) : waiting <+: returnedFrom c y := by
  induction middle generalizing w actions with
  | nil =>
      cases actions with
      | nil => cases whole
      | cons action rest =>
          rw [history_cons, List.nil_append, List.cons.injEq] at whole
          obtain ⟨rfl, -⟩ := whole
          rcases follows.moves (step_moves w action) with ⟨silent, -⟩ | returned
          · cases silent.symm.trans ends
          · exact returned
  | cons z middle ih =>
      cases actions with
      | nil => cases whole
      | cons action rest =>
          rw [history_cons, List.cons_append, List.cons.injEq] at whole
          obtain ⟨rfl, rest_whole⟩ := whole
          rw [List.forall_mem_cons] at quiet
          rcases follows.moves (step_moves w action) with ⟨-, next⟩ | returned
          · exact ih next rest_whole quiet.2
          · -- nothing is returned here, so nothing was followed
            have silent : (w.step action).1 = none := quiet.1
            rw [silent] at returned
            rw [List.prefix_nil.mp returned]
            exact List.nil_prefix

end

/-- The main thread starts a poll with all its agents before it. -/
theorem Moves.follows {action : Action} {agentId : AgentId} (moves : Moves w action output w')
    (idle : w.phase = .idle) (begun : w'.phase = .polling poll) (asked : agentId ∈ poll.agents)
    (known : w.receivers.lookup agentId = some c) : Follows agentId c (w.channels c).queue w' := by
  cases moves with
  | starts _ _ =>
      cases begun
      exact ⟨known, fun idle => (by cases idle), List.prefix_refl _, .inr ⟨_, rfl, asked⟩⟩
  | stays _ | sends _ | hangsUp =>
      have same : Phase.idle = .polling poll := idle.symm.trans begun
      cases same
  | receives phase _ | goesOn phase _ | timesOut phase =>
      rw [idle] at phase
      cases phase
  | registers _ phase _ =>
      rw [phase] at begun
      cases begun

/-! ## What a round lists -/

/-- The agents that a round has come to are listed, those without a receiver apart. -/
structure ListsRound (registered : AgentId → Bool) (poll : Poll) : Prop where
  listed : ∃ done, poll.agents = done ++ poll.remaining ∧
    (poll.found.emptyChannels ++ poll.found.disconnectedChannels).Perm (done.filter registered)
  all : poll.kind ≠ .agents →
    poll.agents.Nodup ∧ ∀ agentId, agentId ∈ poll.agents ↔ registered agentId = true
  rounds : poll.kind ≠ .timed → poll.earlier = none

def Listed (w : World) : Prop := ∀ poll, w.phase = .polling poll → ListsRound w.registered poll

theorem Iterates.all {order : List AgentId} (iterates : w.Iterates order) :
    order.Nodup ∧ ∀ agentId, agentId ∈ order ↔ w.registered agentId = true := by
  refine ⟨iterates.1, fun agentId => ?_⟩
  rw [← List.mem_toFinset, iterates.2, Finmap.mem_keys, registered, Finmap.lookup_isSome]

theorem startRound_listed {kind : PollKind} {earlier : Option PollResult} {agents : List AgentId}
    (all : kind ≠ .agents → w.Iterates agents) (rounds : kind ≠ .timed → earlier = none) :
    (w.startRound kind earlier agents).Listed := by
  intro poll polling
  cases polling
  exact ⟨⟨[], rfl, List.Perm.refl []⟩, fun isAll => (all isAll).all, rounds⟩

theorem listed_of_not_polling (free : ∀ poll, w.phase ≠ .polling poll) : w.Listed :=
  fun poll polling => absurd polling (free poll)

theorem Listed.receives (listed : w.Listed) (phase : w.phase = .polling poll)
    (received : Receives w poll output w') : w'.Listed := by
  obtain ⟨⟨done, parts, lists⟩, all, rounds⟩ := listed poll phase
  cases received with
  | ends _ =>
      rcases w.endRound_cases poll with ends | ends
      · rw [ends]
        exact listed_of_not_polling fun poll polling => by cases polling
      · rw [ends]
        exact listed_of_not_polling fun poll polling => by cases polling
  | @passes agentId rest next unknown =>
      intro poll' polling
      cases polling
      refine ⟨⟨done ++ [agentId], by simp [parts, next], ?_⟩, all, rounds⟩
      have unlisted : [agentId].filter w.registered = [] := by simp [registered, unknown]
      change (poll.found.emptyChannels ++ poll.found.disconnectedChannels).Perm
        ((done ++ [agentId]).filter w.registered)
      rwa [List.filter_append, unlisted, List.append_nil]
  | takes _ _ _ =>
      intro poll' polling
      cases polling
      exact ⟨⟨done, parts, lists⟩, all, rounds⟩
  | @lists agentId rest c receipt next known drained ended =>
      intro poll' polling
      cases polling
      have isListed : [agentId].filter w.registered = [agentId] := by simp [registered, known]
      have received : ((poll.receive agentId rest receipt).found.emptyChannels ++
          (poll.receive agentId rest receipt).found.disconnectedChannels).Perm
          (poll.found.emptyChannels ++ poll.found.disconnectedChannels ++ [agentId]) :=
        Poll.receive_listed ended
      have added := received.trans (lists.append_right [agentId])
      rw [← isListed, ← List.filter_append] at added
      rcases ended with rfl | rfl
      · exact ⟨⟨done ++ [agentId], by simp [Poll.receive, parts, next], added⟩, all, rounds⟩
      · exact ⟨⟨done ++ [agentId], by simp [Poll.receive, parts, next], added⟩, all, rounds⟩

theorem Listed.moves {action : Action} (listed : w.Listed) (moves : Moves w action output w') :
    w'.Listed := by
  cases moves with
  | stays _ | sends _ | hangsUp => exact listed
  | receives phase received => exact listed.receives phase received
  | goesOn _ iterates => exact startRound_listed (fun _ => iterates) fun timed => absurd rfl timed
  | timesOut _ => exact listed_of_not_polling fun poll polling => by cases polling
  | starts _ iterates => exact startRound_listed iterates fun _ => rfl
  | registers _ phase _ =>
      refine listed_of_not_polling fun poll polling => ?_
      rw [phase] at polling
      cases polling

/-- What a poll of one round returns when it ends. -/
theorem Listed.result (listed : w.Listed) {action : Action} {result : PollResult}
    (moves : Moves w action (some result) w') (phase : w.phase = .polling poll) (single : poll.earlier = none) :
    (result.emptyChannels ++ result.disconnectedChannels).Perm (poll.agents.filter w.registered) := by
  cases moves with
  | receives polling received =>
      rw [phase] at polling
      cases polling
      obtain ⟨noMore, rfl⟩ := received.result
      obtain ⟨⟨done, parts, lists⟩, -, -⟩ := listed poll phase
      rw [noMore, List.append_nil] at parts
      rw [Poll.result, single, parts]
      exact lists
  | timesOut asleep =>
      rw [phase] at asleep
      cases asleep

end World

/-! ## Every run -/

/-- A provider sends and hangs up, and its agent is polled until the round is over. -/
def hangingUp : List Action :=
  [.call (.addReceiver "agent_001" 0), .send 0 (.status "Running"), .hangUp 0,
    .call (.pollAgents ["agent_001"]), .receive, .receive]

end AgileAgent.Core.EventAggregator
