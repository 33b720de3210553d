import AgileAgent.FirstMatch
import AgileAgent.Daemon.Sequence

/-! # What a client shows

A client builds its view from the events it is sent. Over the events one pump makes, the transcript
it ends with is a box for each command that was started, filled by what the providers reported.
-/

namespace AgileAgent.Daemon

open RuntimeDomain

/-! ## The state of a client -/

structure AgentSnapshot where
  id : String
  codename : String
  role : String
  provider : String
  status : AgentStatus
  currentTaskId : Option String := none
  uptimeSeconds : Nat := 0
  deriving Repr, DecidableEq

/-- What is displayed of an item; it has metadata once it is completed. -/
structure Display where
  kind : ItemKind
  agentId : Option String
  content : String := ""
  metadata : Option ExecMetadata := none
  completed : Bool := false
  deriving Repr, DecidableEq

/-- An item of the client's transcript, less its times. -/
structure ShownItem extends Display where
  id : String
  deriving Repr, DecidableEq

structure ApprovalRequest where
  requestId : String
  agentId : String
  title : String
  description : String
  options : List (String × String)
  deriving Repr, DecidableEq

/-- The events a client is sent: those of the pump, and those no pump makes. -/
inductive ClientEvent where
  | pumped (payload : EventPayload)
  | agentSpawned (agentId codename role : String)
  | agentStopped (agentId : String)
  | mailReceived
  | approvalRequest (request : ApprovalRequest)
  | approvalResponse (requestId : String)
  deriving Repr, DecidableEq

/-- The part of the state that events change. -/
structure ProtocolState where
  agents : List AgentSnapshot := []
  focusedAgentId : Option String := none
  transcriptItems : List ShownItem := []
  pendingApprovals : List ApprovalRequest := []
  deriving Repr, DecidableEq

def ItemDelta.content : ItemDelta → String
  | .text piece | .markdown piece => piece

namespace ProtocolState

def changeItem (state : ProtocolState) (itemId : String) (change : ShownItem → ShownItem) :
    ProtocolState :=
  { state with
    transcriptItems := FirstMatch.modify (fun item => item.id = itemId) change state.transcriptItems }

def applyPayload (state : ProtocolState) : EventPayload → ProtocolState
  | .agentStatusChanged agentId status =>
      { state with
        agents := FirstMatch.modify (fun agent => agent.id = agentId)
          (fun agent => { agent with status }) state.agents }
  | .itemStarted itemId kind agentId =>
      { state with
        transcriptItems := state.transcriptItems ++ [{ id := itemId, kind, agentId := some agentId }] }
  | .itemDelta itemId delta => state.changeItem itemId fun item =>
      { item with content := item.content ++ delta.content }
  | .itemCompleted itemId done => state.changeItem itemId fun item =>
      { item with content := done.content, metadata := some done.metadata, completed := true }
  | .error _ _ => state

def applyEvent (state : ProtocolState) : ClientEvent → ProtocolState
  | .pumped payload => state.applyPayload payload
  | .agentSpawned agentId codename role =>
      { state with
        agents := state.agents ++
          [{ id := agentId, codename, role, provider := "unknown", status := .idle }] }
  | .agentStopped agentId =>
      { state with
        agents := state.agents.filter fun agent => agent.id ≠ agentId
        focusedAgentId := if state.focusedAgentId = some agentId then none else state.focusedAgentId }
  | .mailReceived => state
  | .approvalRequest request =>
      { state with pendingApprovals := state.pendingApprovals ++ [request] }
  | .approvalResponse requestId =>
      { state with
        pendingApprovals := state.pendingApprovals.filter fun a => a.requestId ≠ requestId }

/-- The state after the events of a pump. -/
def applyAll (state : ProtocolState) (events : List Event) : ProtocolState :=
  events.foldl (fun state event => state.applyEvent (.pumped event.payload)) state

theorem applyAll_append (state : ProtocolState) (first second : List Event) :
    state.applyAll (first ++ second) = (state.applyAll first).applyAll second := List.foldl_append

end ProtocolState

/-! ## What the providers report -/

/-- A command is known by its agent and the id of its call. -/
abbrev CommandKey := String × Option String

inductive Note where
  | opened
  | text (text : String)
  | ended (content : String) (metadata : ExecMetadata)
  deriving Repr, DecidableEq

/-- What an agent tells of a command. Its own text and its thinking count as the output of the command
    without an id. -/
def noted (agentId : String) : DomainEvent → Option (CommandKey × Note)
  | .assistantChunk text | .thinkingChunk text => some ((agentId, none), .text text)
  | .execCommandStarted callId _ _ => some ((agentId, callId), .opened)
  | .execCommandOutputDelta callId delta => some ((agentId, callId), .text delta)
  | .execCommandFinished callId outputPreview status exitCode durationMs source =>
      some ((agentId, callId), .ended (outputPreview.getD "") { status, exitCode, durationMs, source })
  | _ => none

namespace Note

/-- The display of a command after one more note. -/
def fill (display : Display) : Note → Display
  | .opened => display
  | .text piece => { display with content := display.content ++ piece }
  | .ended content metadata => { display with content, metadata := some metadata, completed := true }

/-- A command goes on until it ends or the next one takes its place. -/
def goesOn : Note → Bool
  | .text _ => true
  | .opened | .ended .. => false

end Note

/-- A display with the command it belongs to, as long as that goes on. -/
abbrev Box := Display × Option CommandKey

/-- What an input does to a box. -/
def Box.take (box : Box) (input : String × DomainEvent) : Box :=
  match noted input.1 input.2 with
  | some (key, note) =>
      if box.2 = some key then (note.fill box.1, if note.goesOn then some key else none) else box
  | none => box

/-- The boxes an input opens. -/
def opens (input : String × DomainEvent) : List Box :=
  match noted input.1 input.2 with
  | some (key, .opened) => [({ kind := .toolCall, agentId := some input.1 }, some key)]
  | _ => []

/-- The boxes that some inputs open, each filled by the inputs after it. -/
def boxes : List (String × DomainEvent) → List Display
  | [] => []
  | input :: rest => (opens input).map (fun box => (rest.foldl Box.take box).1) ++ boxes rest

/-- The status of an agent after one more input. -/
def statusOf (agentId : String) (status : AgentStatus) (input : String × DomainEvent) : AgentStatus :=
  if agentId = input.1 then
    match input.2 with
    | .status text => mapStatus text
    | .finished => .idle
    | _ => status
  else status

/-! ## The items that are displayed -/

/-- An item of the transcript with the command it belongs to, as long as that goes on. -/
abbrev LiveItem := ShownItem × Option CommandKey

namespace LiveItem

def box (x : LiveItem) : Box := (x.1.toDisplay, x.2)

/-- The items after a note on a command. -/
def fill (key : CommandKey) (note : Note) (x : LiveItem) : LiveItem :=
  if x.2 = some key then
    ({ x.1 with toDisplay := note.fill x.1.toDisplay }, if note.goesOn then some key else none)
  else x

variable {key : CommandKey} {note : Note} {x : LiveItem}

@[simp] theorem fill_id : (x.fill key note).1.id = x.1.id := by
  unfold fill
  split
  · rfl
  · rfl

theorem fill_box {input : String × DomainEvent} (tells : noted input.1 input.2 = some (key, note)) :
    (x.fill key note).box = x.box.take input := by
  simp only [Box.take, tells, box, fill]
  by_cases mine : x.2 = some key
  · simp only [mine, if_true]
  · simp only [mine, if_false]

end LiveItem

/-- The pump knows the items by their names: it has an item open for a command exactly if the item
    belongs to that command. -/
structure Held (pump : EventPump) (live : List LiveItem) : Prop where
  named : ∀ x ∈ live, ∃ n < pump.nextItemIndex, x.1.id = EventPump.itemName n
  distinct : (live.map fun x => x.1.id).Nodup
  owned : ∀ x ∈ live, ∀ key, pump.currentItems key = some x.1.id ↔ x.2 = some key
  older : ∀ key id, pump.currentItems key = some id →
    ∃ n < pump.nextItemIndex, id = EventPump.itemName n

namespace Held

variable {pump next : EventPump} {live : List LiveItem} {key : CommandKey} {note : Note}

theorem nothing : Held {} [] where
  named := by simp
  distinct := List.nodup_nil
  owned := by simp
  older := by simp

/-- Only the numbers of the events moved on. -/
theorem of_same (held : Held pump live) (index : next.nextItemIndex = pump.nextItemIndex)
    (items : next.currentItems = pump.currentItems) : Held next live where
  named := index ▸ held.named
  distinct := held.distinct
  owned := items ▸ held.owned
  older := by rw [index, items]; exact held.older

/-- A note on a command whose item the pump keeps, or lets go with the command. -/
theorem filled (held : Held pump live) (index : next.nextItemIndex = pump.nextItemIndex)
    (here : next.currentItems key = if note.goesOn then pump.currentItems key else none)
    (others : ∀ other, other ≠ key → next.currentItems other = pump.currentItems other) :
    Held next (live.map (·.fill key note)) where
  named := by
    rw [List.forall_mem_map, index]
    intro x member
    simpa using held.named x member
  distinct := by
    simpa [List.map_map, Function.comp_def] using held.distinct
  owned := by
    rw [List.forall_mem_map]
    intro x member other
    rw [LiveItem.fill_id]
    by_cases same : other = key
    · subst same
      rw [here]
      cases goes : note.goesOn with
      | true => grind [LiveItem.fill, held.owned x member other]
      | false => grind [LiveItem.fill]
    · rw [others other same, held.owned x member other]
      grind [LiveItem.fill]
  older := by
    intro other id current
    rw [index]
    by_cases same : other = key
    · subst same
      rw [here] at current
      split at current
      · exact held.older other id current
      · cases current
    · rw [others other same] at current
      exact held.older other id current

/-- The next name is no item's yet. -/
theorem fresh (held : Held pump live) {x : LiveItem} (member : x ∈ live) :
    x.1.id ≠ EventPump.itemName pump.nextItemIndex := by
  obtain ⟨n, less, same⟩ := held.named x member
  intro last
  have := EventPump.itemName_injective (same.symm.trans last)
  omega

/-- A new item for a command that has none, of which the clients are not told. -/
theorem created (held : Held pump live) (free : pump.currentItems key = none)
    (index : next.nextItemIndex = pump.nextItemIndex + 1)
    (items : next.currentItems = Function.update pump.currentItems key
      (some (EventPump.itemName pump.nextItemIndex))) : Held next live where
  named := by
    intro x member
    obtain ⟨n, less, same⟩ := held.named x member
    exact ⟨n, by omega, same⟩
  distinct := held.distinct
  owned := by
    intro x member other
    rw [← held.owned x member other, items]
    by_cases same : other = key
    · subst same
      rw [Function.update_self, free]
      simpa using (held.fresh member).symm
    · rw [Function.update_of_ne same]
  older := by
    intro other id current
    rw [items] at current
    by_cases same : other = key
    · subst same
      rw [Function.update_self] at current
      exact ⟨pump.nextItemIndex, by omega, (Option.some.inj current).symm⟩
    · rw [Function.update_of_ne same] at current
      obtain ⟨n, less, named⟩ := held.older other id current
      exact ⟨n, by omega, named⟩

/-- An item that the clients are told of. -/
theorem announced (held : Held pump live) {x : LiveItem}
    (named : ∃ n < pump.nextItemIndex, x.1.id = EventPump.itemName n)
    (new : ∀ y ∈ live, y.1.id ≠ x.1.id)
    (owned : ∀ key, pump.currentItems key = some x.1.id ↔ x.2 = some key) :
    Held pump (live ++ [x]) where
  named := by
    simp only [List.forall_mem_append, List.forall_mem_singleton]
    exact ⟨held.named, named⟩
  distinct := by
    rw [List.map_append, List.nodup_append]
    refine ⟨held.distinct, List.nodup_singleton _, ?_⟩
    intro id member _ same
    obtain ⟨y, inside, rfl⟩ := List.mem_map.mp member
    rw [List.mem_singleton.mp same]
    exact new y inside
  owned := by
    simp only [List.forall_mem_append, List.forall_mem_singleton]
    exact ⟨held.owned, owned⟩
  older := held.older

/-- The item of a command is changed where it stands. -/
theorem change_eq (held : Held pump live) {earlier : List ShownItem} {id : String}
    (foreign : ∀ item ∈ earlier, item.id ≠ id) (current : pump.currentItems key = some id)
    (note : Note) :
    FirstMatch.modify (fun item => item.id = id)
        (fun item => { item with toDisplay := note.fill item.toDisplay })
        (earlier ++ live.map Prod.fst) =
      earlier ++ (live.map (·.fill key note)).map Prod.fst := by
  have absent : earlier.find? (fun item => item.id = id) = none := by
    simpa using foreign
  have distinct : ((live.map Prod.fst).map ShownItem.id).Nodup := by
    simpa [List.map_map, Function.comp_def] using held.distinct
  rw [FirstMatch.modify_append_of_none absent, FirstMatch.modify_eq_map distinct, List.map_map,
    List.map_map]
  refine congrArg (earlier ++ ·) (List.map_congr_left fun x member => ?_)
  have mine : x.1.id = id ↔ x.2 = some key := by
    rw [← held.owned x member key, current]
    exact ⟨fun same => same ▸ rfl, fun same => (Option.some.inj same).symm⟩
  simp only [Function.comp_apply, LiveItem.fill, mine]
  split
  · rfl
  · rfl

end Held

/-! ## One more input -/

section

variable {pump : EventPump} {live : List LiveItem} {earlier : List ShownItem} {state : ProtocolState}

/-- What an input makes of the transcript: the boxes take it, and it may open one. -/
structure Shows (pump : EventPump) (earlier : List ShownItem) (live : List LiveItem)
    (state : ProtocolState) (input : String × DomainEvent) (after : List LiveItem) : Prop where
  items : (state.applyAll (pump.process input.1 input.2).1).transcriptItems =
    earlier ++ after.map Prod.fst
  boxes : after.map LiveItem.box = (live.map LiveItem.box).map (·.take input) ++ opens input
  held : Held (pump.process input.1 input.2).2 after

/-- A note that fills boxes and opens none. -/
theorem fill_shows {input : String × DomainEvent} {key : CommandKey} {note : Note}
    (tells : noted input.1 input.2 = some (key, note)) (opensNone : opens input = [])
    (items : (state.applyAll (pump.process input.1 input.2).1).transcriptItems =
      earlier ++ (live.map (·.fill key note)).map Prod.fst)
    (held : Held (pump.process input.1 input.2).2 (live.map (·.fill key note))) :
    Shows pump earlier live state input (live.map (·.fill key note)) where
  items := items
  boxes := by
    rw [opensNone, List.append_nil, List.map_map, List.map_map]
    exact List.map_congr_left fun x _ => LiveItem.fill_box tells
  held := held

/-- A note on a command that has no item is not shown. -/
theorem unheard (held : Held pump live) {key : CommandKey} (free : pump.currentItems key = none)
    (note : Note) : live.map (·.fill key note) = live := by
  have alone : ∀ x ∈ live, x.fill key note = x := by
    intro x member
    refine if_neg fun mine => ?_
    rw [← held.owned x member key, free] at mine
    cases mine
  exact (List.map_congr_left alone).trans (List.map_id _)

theorem input_text (held : Held pump live)
    (foreign : ∀ item ∈ earlier, ∀ n, item.id ≠ EventPump.itemName n)
    (shown : state.transcriptItems = earlier ++ live.map Prod.fst)
    {agentId : String} {event : DomainEvent} {key : CommandKey} {id text : String} {delta : ItemDelta}
    (tells : noted agentId event = some (key, .text text))
    (piece : delta.content = text) (current : pump.currentItems key = some id)
    (made : pump.process agentId event = pump.mkEvent (.itemDelta id delta)) :
    Shows pump earlier live state (agentId, event) (live.map (·.fill key (.text text))) := by
  obtain ⟨n, -, named⟩ := held.older key id current
  have changed :=
    held.change_eq (fun item member => named ▸ foreign item member n) current (.text text)
  refine fill_shows tells (by simp [opens, tells]) ?_ ?_
  · rw [made, ← changed, ← shown, ← piece]
    rfl
  · rw [made]
    exact held.filled rfl rfl fun _ _ => rfl

/-- Nothing is noted, and the event is not about an item. -/
theorem input_silent (held : Held pump live)
    (shown : state.transcriptItems = earlier ++ live.map Prod.fst)
    {agentId : String} {event : DomainEvent} (silent : noted agentId event = none)
    (items : (state.applyAll (pump.process agentId event).1).transcriptItems = state.transcriptItems)
    (index : (pump.process agentId event).2.nextItemIndex = pump.nextItemIndex)
    (same : (pump.process agentId event).2.currentItems = pump.currentItems) :
    Shows pump earlier live state (agentId, event) live where
  items := items.trans shown
  boxes := by
    have still : ∀ box ∈ live.map LiveItem.box, box.take (agentId, event) = box := by
      simp [Box.take, silent]
    rw [List.map_congr_left still, List.map_id']
    simp [opens, silent]
  held := held.of_same index same

theorem input_chunk (held : Held pump live)
    (foreign : ∀ item ∈ earlier, ∀ n, item.id ≠ EventPump.itemName n)
    (shown : state.transcriptItems = earlier ++ live.map Prod.fst)
    {agentId text : String} {event : DomainEvent} {kind : ItemKind} {delta : ItemDelta}
    (tells : noted agentId event = some ((agentId, none), .text text)) (piece : delta.content = text)
    (made : pump.process agentId event = pump.chunk agentId kind delta) :
    ∃ after, Shows pump earlier live state (agentId, event) after := by
  cases current : pump.currentItems (agentId, none) with
  | some id =>
      refine ⟨_, input_text held foreign shown tells piece current (made.trans ?_)⟩
      simp [EventPump.chunk, EventPump.getOrCreateItem, current]
  | none =>
      -- The item that is made for the text was announced to nobody.
      have unseen : Held (pump.chunk agentId kind delta).2 live := held.created current
        (by simp [EventPump.chunk, EventPump.getOrCreateItem, current, EventPump.createItem,
          EventPump.mkEvent])
        (by simp [EventPump.chunk, EventPump.getOrCreateItem, current, EventPump.createItem,
          EventPump.mkEvent])
      have absent : (earlier ++ live.map Prod.fst).find? (fun item =>
          item.id = EventPump.itemName pump.nextItemIndex) = none := by
        simp only [List.find?_eq_none, List.forall_mem_append, List.forall_mem_map, decide_eq_true_eq]
        exact ⟨fun item member => foreign item member _, fun x member => held.fresh member⟩
      have same := unheard held current (.text text)
      refine ⟨live.map (·.fill (agentId, none) (.text text)),
        fill_shows tells (by simp [opens, tells]) ?_ (by rw [made, same]; exact unseen)⟩
      rw [same, ← shown, made]
      rw [← shown] at absent
      simp [EventPump.chunk, EventPump.getOrCreateItem, current, EventPump.createItem,
        EventPump.mkEvent, ProtocolState.applyAll, ProtocolState.applyEvent,
        ProtocolState.applyPayload, ProtocolState.changeItem, FirstMatch.modify_of_none absent]

theorem input_started (held : Held pump live)
    (shown : state.transcriptItems = earlier ++ live.map Prod.fst)
    (agentId : String) (callId inputPreview source : Option String) :
    ∃ after, Shows pump earlier live state
      (agentId, .execCommandStarted callId inputPreview source) after := by
  have tells : noted agentId (.execCommandStarted callId inputPreview source) =
    some ((agentId, callId), .opened) := rfl
  let id := EventPump.itemName pump.nextItemIndex
  let item : ShownItem := { id, kind := .toolCall, agentId := some agentId }
  let x : LiveItem := (item, some (agentId, callId))
  -- The item that was open for the command is let go first.
  let closed : EventPump :=
    { pump with currentItems := Function.update pump.currentItems (agentId, callId) none }
  have left : Held closed (live.map (·.fill (agentId, callId) .opened)) :=
    held.filled rfl (Function.update_self ..) fun _ other => Function.update_of_ne other ..
  have created : Held (pump.process agentId (.execCommandStarted callId inputPreview source)).2 _ :=
    left.created (Function.update_self ..) rfl (Function.update_idem ..).symm
  have opened : Held (pump.process agentId (.execCommandStarted callId inputPreview source)).2
      (live.map (·.fill (agentId, callId) .opened) ++ [x]) := by
    refine created.announced ⟨pump.nextItemIndex, Nat.lt_succ_self _, rfl⟩
      (fun y member => left.fresh member) fun key => ?_
    change Function.update pump.currentItems (agentId, callId) (some id) key = some id ↔ _
    by_cases same : key = (agentId, callId)
    · subst same
      simp [x]
    · rw [Function.update_of_ne same]
      refine iff_of_false (fun current => ?_) (by simpa [x] using Ne.symm same)
      obtain ⟨n, less, named⟩ := held.older key id current
      have := EventPump.itemName_injective named
      omega
  have same : (live.map (·.fill (agentId, callId) .opened)).map Prod.fst = live.map Prod.fst := by
    rw [List.map_map]
    refine List.map_congr_left fun x _ => ?_
    simp only [Function.comp_apply, LiveItem.fill, Note.fill]
    split
    · rfl
    · rfl
  refine ⟨_, ⟨?_, ?_, opened⟩⟩
  · rw [List.map_append, same, ← List.append_assoc, ← shown]
    rfl
  · rw [List.map_append, List.map_map, List.map_map]
    have filled : ∀ x ∈ live, (x.fill (agentId, callId) .opened).box =
        x.box.take (agentId, .execCommandStarted callId inputPreview source) :=
      fun x _ => LiveItem.fill_box tells
    exact congrArg (· ++ _) (List.map_congr_left filled)

theorem input_finished (held : Held pump live)
    (foreign : ∀ item ∈ earlier, ∀ n, item.id ≠ EventPump.itemName n)
    (shown : state.transcriptItems = earlier ++ live.map Prod.fst)
    {agentId : String} {callId outputPreview : Option String}
    {status : ExecCommandStatus} {exitCode : Option Int32} {durationMs : Option UInt64}
    {source : Option String} :
    ∃ after, Shows pump earlier live state
      (agentId, .execCommandFinished callId outputPreview status exitCode durationMs source) after := by
  let note : Note := .ended (outputPreview.getD "") { status, exitCode, durationMs, source }
  refine ⟨live.map (·.fill (agentId, callId) note), fill_shows rfl rfl ?_ ?_⟩
  · cases current : pump.currentItems (agentId, callId) with
    | none =>
        rw [unheard held current, ← shown]
        simp [EventPump.process, EventPump.finishItem, current, ProtocolState.applyAll]
    | some id =>
        obtain ⟨n, -, named⟩ := held.older _ id current
        rw [← held.change_eq (fun item member => named ▸ foreign item member n) current, ← shown]
        simp [EventPump.process, EventPump.finishItem, current, ProtocolState.applyAll,
          EventPump.mkEvent, ProtocolState.applyEvent, ProtocolState.applyPayload,
          ProtocolState.changeItem, Note.fill, note]
  · cases current : pump.currentItems (agentId, callId) with
    | none =>
        refine held.filled ?_ ?_ fun other apart => ?_
        · simp [EventPump.process, EventPump.finishItem, current]
        · simp [EventPump.process, EventPump.finishItem, current, Note.goesOn, note]
        · simp [EventPump.process, EventPump.finishItem, current, Function.update_of_ne apart]
    | some id =>
        refine held.filled ?_ ?_ fun other apart => ?_
        · simp [EventPump.process, EventPump.finishItem, current, EventPump.mkEvent]
        · simp [EventPump.process, EventPump.finishItem, current, EventPump.mkEvent, Note.goesOn, note]
        · simp [EventPump.process, EventPump.finishItem, current, EventPump.mkEvent,
            Function.update_of_ne apart]

/-- Every input is shown as the boxes take it. -/
theorem input_shows (held : Held pump live)
    (foreign : ∀ item ∈ earlier, ∀ n, item.id ≠ EventPump.itemName n)
    (shown : state.transcriptItems = earlier ++ live.map Prod.fst)
    (input : String × DomainEvent) :
    ∃ after, Shows pump earlier live state input after := by
  obtain ⟨agentId, event⟩ := input
  cases event with
  | assistantChunk text | thinkingChunk text => exact input_chunk held foreign shown rfl rfl rfl
  | execCommandStarted callId inputPreview source =>
      exact input_started held shown agentId callId inputPreview source
  | execCommandFinished => exact input_finished held foreign shown
  | execCommandOutputDelta callId delta =>
      cases current : pump.currentItems (agentId, callId) with
      | some id =>
          refine ⟨_, @input_text _ _ _ _ held foreign shown _ _ _ _ _ (.text delta) rfl rfl current ?_⟩
          simp [EventPump.process, EventPump.currentItemId, current]
      | none =>
          have same := unheard held current (.text delta)
          refine ⟨live.map (·.fill (agentId, callId) (.text delta)), fill_shows rfl rfl ?_ ?_⟩
          · simp [EventPump.process, EventPump.currentItemId, current, ProtocolState.applyAll, same,
              shown]
          · simpa [EventPump.process, EventPump.currentItemId, current, same] using held
  | _ => exact ⟨live, input_silent held shown rfl rfl rfl rfl⟩

end

/-! ## All inputs -/

/-- The transcript after all events that a pump makes of some inputs. -/
theorem transcript_shown {pump : EventPump} {live : List LiveItem} {earlier : List ShownItem}
    {state : ProtocolState} (held : Held pump live)
    (foreign : ∀ item ∈ earlier, ∀ n, item.id ≠ EventPump.itemName n)
    (shown : state.transcriptItems = earlier ++ live.map Prod.fst)
    (inputs : List (String × DomainEvent)) :
    (state.applyAll (pump.convert inputs)).transcriptItems.map ShownItem.toDisplay =
      earlier.map ShownItem.toDisplay ++
        live.map (fun x => (inputs.foldl Box.take x.box).1) ++ boxes inputs := by
  induction inputs generalizing pump live state with
  | nil => simp [EventPump.convert, ProtocolState.applyAll, shown, boxes, LiveItem.box]
  | cons input rest ih =>
      obtain ⟨after, items, filled, held'⟩ := input_shows held foreign shown input
      have later := ih held' items
      have taken : after.map (fun x => (rest.foldl Box.take x.box).1) =
          live.map (fun x => ((input :: rest).foldl Box.take x.box).1) ++
            (opens input).map fun box => (rest.foldl Box.take box).1 := by
        have all := congrArg (List.map fun box => (rest.foldl Box.take box).1) filled
        simpa [List.map_map, Function.comp_def] using all
      rw [EventPump.convert, ProtocolState.applyAll_append, later, taken, boxes]
      simp only [List.append_assoc]

theorem process_agents (state : ProtocolState) (pump : EventPump) (input : String × DomainEvent)
    (distinct : (state.agents.map AgentSnapshot.id).Nodup) :
    (state.applyAll (pump.process input.1 input.2).1).agents =
      state.agents.map fun agent => { agent with status := statusOf agent.id agent.status input } := by
  obtain ⟨agentId, event⟩ := input
  have told (status : AgentStatus) : FirstMatch.modify (fun agent : AgentSnapshot => agent.id = agentId)
      (fun agent => { agent with status }) state.agents =
        state.agents.map fun agent => if agent.id = agentId then { agent with status } else agent :=
    FirstMatch.modify_eq_map distinct
  have still : state.agents = state.agents.map fun agent => { agent with status := agent.status } :=
    (List.map_id _).symm
  cases event with
  | status text =>
      refine (told (mapStatus text)).trans (List.map_congr_left fun agent _ => ?_)
      simp only [statusOf]
      split
      · rfl
      · rfl
  | finished =>
      refine (told .idle).trans (List.map_congr_left fun agent _ => ?_)
      simp only [statusOf]
      split
      · rfl
      · rfl
  | assistantChunk text | thinkingChunk text =>
      refine Eq.trans ?_ (still.trans (by simp [statusOf]))
      cases current : pump.currentItems (agentId, none) with
      | none | some id =>
          simp [EventPump.process, EventPump.chunk, EventPump.getOrCreateItem, current,
            EventPump.createItem, EventPump.mkEvent, ProtocolState.applyAll,
            ProtocolState.applyEvent, ProtocolState.applyPayload, ProtocolState.changeItem]
  | execCommandFinished callId =>
      refine Eq.trans ?_ (still.trans (by simp [statusOf]))
      cases current : pump.currentItems (agentId, callId) with
      | none | some id =>
          simp [EventPump.process, EventPump.finishItem, current, EventPump.mkEvent,
            ProtocolState.applyAll, ProtocolState.applyEvent, ProtocolState.applyPayload,
            ProtocolState.changeItem]
  | execCommandOutputDelta callId =>
      refine Eq.trans ?_ (still.trans (by simp [statusOf]))
      cases current : pump.currentItems (agentId, callId) with
      | none | some id =>
          simp [EventPump.process, EventPump.currentItemId, current, EventPump.mkEvent,
            ProtocolState.applyAll, ProtocolState.applyEvent, ProtocolState.applyPayload,
            ProtocolState.changeItem]
  | _ => exact still.trans (by simp [statusOf])

theorem agents_shown (state : ProtocolState) (pump : EventPump) (inputs : List (String × DomainEvent))
    (distinct : (state.agents.map AgentSnapshot.id).Nodup) :
    (state.applyAll (pump.convert inputs)).agents = state.agents.map fun agent =>
      { agent with status := inputs.foldl (statusOf agent.id) agent.status } := by
  induction inputs generalizing pump state with
  | nil => exact (List.map_id _).symm
  | cons input rest ih =>
      have here := process_agents state pump input distinct
      rw [EventPump.convert, ProtocolState.applyAll_append, ih, here, List.map_map]
      · rfl
      · rw [here, List.map_map]
        exact distinct

/-- A client with an agent and an item of an earlier session. -/
def resumed : ProtocolState where
  agents := [{ id := "a", codename := "alpha", role := "Developer", provider := "mock", status := .idle }]
  transcriptItems := [{ id := "t1", kind := .userInput, agentId := none, content := "hello" }]

/-- What an agent and its client see of a turn with two commands. -/
def turn : List (String × DomainEvent) :=
  [("a", .status "thinking"), ("a", .assistantChunk "lost"), ("a", .execCommandStarted none none),
    ("a", .thinkingChunk "kept"), ("a", .execCommandStarted (some "c") none),
    ("a", .execCommandFinished (some "c") (some "done") .completed)]

end AgileAgent.Daemon
