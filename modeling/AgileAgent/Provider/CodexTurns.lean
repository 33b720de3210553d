import Mathlib.Data.List.Perm.Basic
import Mathlib.Data.List.Forall2
import AgileAgent.Provider.Codex

/-! # One turn of Codex

Each item reaches the provider twice, when it is started and when it is completed. What the
events of both lines show is compared with what the item holds.
-/

namespace AgileAgent.Provider

open DecisionDsl (Json trim)
open RuntimeDomain

/-- What an item has to say. -/
inductive Block where
  | text (text : String)
  | thinking (text : String)
  | toolUse (name : String) (callId input : Option String)
  | toolResult (name : String) (callId output : Option String)
  deriving Repr, DecidableEq

/-- There is no text in it. -/
def Block.blank : Block → Bool
  | .text words | .thinking words => words == ""
  | _ => false

/-- What an event shows of an item. -/
def shown : DomainEvent → Option Block
  | .assistantChunk text => some (.text text)
  | .thinkingChunk text => some (.thinking text)
  | .genericToolCallStarted name callId input => some (.toolUse name callId input)
  | .genericToolCallFinished name callId output .. => some (.toolResult name callId output)
  | _ => none

/-- The items with events of their own for start and completion. -/
inductive Call where
  | command | patch | search | mcp
  deriving Repr, DecidableEq

def ItemKind.call : ItemKind → Option Call
  | .commandExecution => some .command
  | .fileChange => some .patch
  | .webSearch => some .search
  | .mcpToolCall => some .mcp
  | _ => none

/-- A call that an event starts or finishes, with the id it names. -/
def progress : DomainEvent → Option (Call × Option String × Method)
  | .execCommandStarted id .. => some (.command, id, .started)
  | .execCommandFinished id .. => some (.command, id, .completed)
  | .patchApplyStarted id => some (.patch, id, .started)
  | .patchApplyFinished id _ => some (.patch, id, .completed)
  | .webSearchStarted id _ => some (.search, id, .started)
  | .webSearchFinished id _ => some (.search, id, .completed)
  | .mcpToolCallStarted id => some (.mcp, id, .started)
  | .mcpToolCallFinished id .. => some (.mcp, id, .completed)
  | _ => none

section

variable [SerdeJson]

def Block.ofJson (block : Json) : Option Block :=
  match (block.str "type").getD "" with
  | "text" => (block.str "text").map .text
  | "thinking" => (block.str "thinking").map .thinking
  | "tool_use" => some (.toolUse ((block.str "name").getD "tool_use") (block.str "id")
      ((block.get "arguments").bind SerdeJson.toString))
  | "tool_result" => some (.toolResult ((block.str "name").getD "tool_result") (block.str "id")
      (block.str "output"))
  | _ => none

def contentBlocks (item : Json) : List Block :=
  (((item.get "content").bind Json.asArray).getD []).filterMap Block.ofJson

/-- The text of an agent message, and the blocks of its content. -/
def held (item : Json) : List Block :=
  (if itemKind item = .agentMessage then ((item.str "text").map Block.text).toList else []) ++
    contentBlocks item

end

/-! ## One line of an item -/

section

variable [SerdeJson] (item : Json)

theorem blockEvent_shown (itemStatus : String) (itemId : Option String) (block : Json) :
    (blockEvent itemStatus itemId ∅ block).bind shown =
      (Block.ofJson block).filter fun b => !b.blank := by
  unfold blockEvent Block.ofJson
  generalize (block.str "type").getD "" = type
  split
  · cases block.str "text" with
    | none => rfl
    | some words => by_cases empty : words = "" <;> simp [empty, Block.blank, shown, Option.filter]
  · cases block.str "thinking" with
    | none => rfl
    | some words => by_cases empty : words = "" <;> simp [empty, Block.blank, shown, Option.filter]
  · rfl
  · rfl
  · simp

theorem parseContentBlocks_shown (asked : itemKind item ≠ .userMessage) :
    (parseContentBlocks item ∅).filterMap shown = (contentBlocks item).filter fun b => !b.blank := by
  rw [parseContentBlocks, if_neg asked, contentBlocks, List.filterMap_filterMap,
    ← List.filterMap_eq_filter, List.filterMap_filterMap]
  congr 1
  funext block
  rw [blockEvent_shown]
  cases Block.ofJson block <;> simp [Option.filter, Option.guard]

theorem blockEvent_progress (itemStatus : String) (itemId : Option String) (block : Json) :
    (blockEvent itemStatus itemId ∅ block).bind progress = none := by
  unfold blockEvent
  split
  · cases block.str "text" with
    | none => rfl
    | some words => by_cases empty : words = "" <;> simp [empty, progress]
  · cases block.str "thinking" with
    | none => rfl
    | some words => by_cases empty : words = "" <;> simp [empty, progress]
  · rfl
  · rfl
  · rfl

theorem parseContentBlocks_progress : (parseContentBlocks item ∅).filterMap progress = [] := by
  unfold parseContentBlocks
  split
  · rfl
  · rw [List.filterMap_filterMap]
    simp [blockEvent_progress]

/-- The blocks that are shown for one line of an item. -/
def shownAt (method : Method) : List Block :=
  match method, itemKind item with
  | .started, .imageView | .started, .imageGeneration | .started, .agentMessage | _, .other =>
      (contentBlocks item).filter fun b => !b.blank
  | .completed, .agentMessage => ((item.str "text").map Block.text).toList.filter fun b => !b.blank
  | _, _ => []

theorem parseItemEvent_shown (method : Method) :
    (parseItemEvent method item ∅).filterMap shown = shownAt item method := by
  have content := parseContentBlocks_shown item
  unfold parseItemEvent shownAt
  cases method <;> cases kind : itemKind item
  case completed.agentMessage =>
    cases item.str "text" with
    | none => rfl
    | some words => by_cases empty : words = "" <;> simp [empty, Option.filter, shown, Block.blank]
  all_goals first
    | exact content (by simp [kind])
    | rfl
    | (cases item.str "query" <;> rfl)
    | (cases item.str "path" <;> rfl)
    | (cases parseMcpInvocation item <;> rfl)

end

/-- The fields that a search and an MCP call require. -/
structure Required (item : Json) : Prop where
  search : itemKind item = .webSearch → (item.str "query").isSome
  invocation : itemKind item = .mcpToolCall → (parseMcpInvocation item).isSome

section

variable [SerdeJson] (item : Json)

theorem parseItemEvent_progress (method : Method) (required : Required item) :
    (parseItemEvent method item ∅).filterMap progress =
      (itemKind item).call.toList.map fun call => (call, item.str "id", method) := by
  have content := parseContentBlocks_progress item
  obtain ⟨search, invocation⟩ := required
  unfold parseItemEvent
  cases kind : itemKind item
  case webSearch =>
    obtain ⟨query, found⟩ := Option.isSome_iff_exists.mp (search kind)
    cases method <;> simp [found, progress, ItemKind.call]
  case mcpToolCall =>
    obtain ⟨invoked, found⟩ := Option.isSome_iff_exists.mp (invocation kind)
    cases method <;> simp [found, progress, ItemKind.call]
  case imageView => cases method <;> [exact content; (cases item.str "path" <;> rfl)]
  case agentMessage =>
    cases method with
    | started => exact content
    | completed =>
        cases item.str "text" with
        | none => rfl
        | some words =>
            by_cases empty : words = "" <;> simp [empty, Option.filter, progress, ItemKind.call]
  all_goals cases method <;> first | rfl | exact content

end

/-! ## A turn -/

/-- What an item's two lines have in common. -/
def contentKeys : List String := ["type", "id", "text", "content", "query", "server", "tool"]

/-- An item, as it is started and as it is completed: what a call results in may differ. -/
structure Item where
  started : Json
  completed : Json
  id : String
  same : ∀ key ∈ contentKeys, completed.get key = started.get key
  identified : started.str "id" = some id
  required : Required started

def Item.value (item : Item) : Method → Json
  | .started => item.started
  | .completed => item.completed

section

variable {α : Type} (l : List α) (p : α → Bool)

theorem filter_perm_iff : (l.filter p).Perm l ↔ ∀ a ∈ l, p a = true := by
  constructor
  · intro perm
    exact List.length_filter_eq_length_iff.mp perm.length_eq
  · intro all
    rw [List.filter_eq_self.mpr all]

theorem filter_twice_perm_iff : (l.filter p ++ l.filter p).Perm l ↔ l = [] := by
  constructor
  · intro perm
    have all : ∀ a ∈ l, p a = true := by
      intro a mem
      have mem' := perm.mem_iff.mpr mem
      grind
    have length := perm.length_eq
    rw [List.filter_eq_self.mpr all, List.length_append] at length
    exact List.length_eq_zero_iff.mp (by omega)
  · intro empty
    simp [empty]

end

namespace Item

variable (item : Item) (method : Method)

theorem get_value {key : String} (common : key ∈ contentKeys) :
    (item.value method).get key = item.started.get key := by
  cases method with
  | started => rfl
  | completed => exact item.same key common

theorem str_value {key : String} (common : key ∈ contentKeys) :
    (item.value method).str key = item.started.str key := by
  rw [Json.str, item.get_value method common, Json.str]

theorem itemKind_value : itemKind (item.value method) = itemKind item.started := by
  rw [itemKind, item.str_value method (by decide), itemKind]

theorem required_value : Required (item.value method) := by
  have invocation : parseMcpInvocation (item.value method) = parseMcpInvocation item.started := by
    rw [parseMcpInvocation, item.str_value method (by decide), item.str_value method (by decide),
      parseMcpInvocation]
  constructor
  · rw [item.itemKind_value, item.str_value method (by decide)]
    exact item.required.search
  · rw [item.itemKind_value, invocation]
    exact item.required.invocation

variable [SerdeJson]

theorem contentBlocks_value : contentBlocks (item.value method) = contentBlocks item.started := by
  rw [contentBlocks, item.get_value method (by decide), contentBlocks]

theorem shownAt_value (line : Method) : shownAt (item.value method) line = shownAt item.started line := by
  simp only [shownAt, item.itemKind_value, item.contentBlocks_value,
    item.str_value method (by decide : "text" ∈ contentKeys)]

/-- The events of a line of the item. -/
def events : List DomainEvent := parseItemEvent method (item.value method) ∅

theorem events_shown : (item.events method).filterMap shown = shownAt item.started method := by
  rw [events, parseItemEvent_shown, shownAt_value]

theorem events_progress : (item.events method).filterMap progress =
    (itemKind item.started).call.toList.map fun call => (call, some item.id, method) := by
  rw [events, parseItemEvent_progress _ _ (item.required_value method), item.itemKind_value,
    item.str_value method (by decide), item.identified]

/-- The item is an agent message or an image, and none of its texts is empty. -/
def Spoken : Prop := ∀ b ∈ held item.started, b.blank = false ∧
  itemKind item.started ∈ [.agentMessage, .imageView, .imageGeneration]

/-- What both lines show is what the item holds exactly if it is spoken. -/
theorem shown_perm_iff : (shownAt item.started .started ++ shownAt item.started .completed).Perm
    (held item.started) ↔ item.Spoken := by
  have silent (blocks : List Block) : blocks = [] ↔ ∀ b ∈ blocks, b.blank = false ∧ False := by
    simp [List.eq_nil_iff_forall_not_mem]
  unfold shownAt Spoken held
  cases kind : itemKind item.started
  case agentMessage =>
    rw [if_pos rfl, (List.perm_append_comm.congr_left _), ← List.filter_append, filter_perm_iff]
    simp
  case imageView | imageGeneration =>
    rw [if_neg (by decide), List.nil_append, List.append_nil, filter_perm_iff]
    simp
  case other =>
    rw [if_neg (by decide), List.nil_append, filter_twice_perm_iff, silent]
    simp
  all_goals
    rw [if_neg (by decide)]
    simp only [List.nil_append, List.append_nil, List.nil_perm, silent]
    simp

end Item

/-- What a line of a turn is: the start or the completion of one of the items, or neither. -/
inductive Entry where
  | item (index : Nat) (method : Method)
  | aside
  deriving Repr, DecidableEq

/-- A line of this item. -/
def Entry.of (index : Nat) : Entry → Bool
  | .item i _ => i == index
  | .aside => false

section

variable [SerdeJson]

/-- The line is this event. -/
def Parses (line : String) (event : ExecEvent) : Prop :=
  trim line ≠ "" ∧ SerdeJson.fromStr (trim line) = .ok event

def Method.eventType : Method → String
  | .started => "item.started"
  | .completed => "item.completed"

/-- An aside is blank, or an event without an item that does not end the turn. -/
inductive Reads (items : List Item) : String → Entry → Prop where
  | item {line : String} {event : ExecEvent} {index : Nat} {item : Item} {method : Method}
      (parses : Parses line event) (found : items[index]? = some item)
      (type : event.eventType = method.eventType) (value : event.item = some (item.value method)) :
      Reads items line (.item index method)
  | blank {line : String} (empty : trim line = "") : Reads items line .aside
  | aside {line : String} {event : ExecEvent} (parses : Parses line event)
      (goesOn : event.eventType ≠ "turn.completed")
      (itemless : ∀ method : Method, event.eventType = method.eventType → event.item = none) :
      Reads items line .aside

/-- The lines of one turn. Each item is started once and completed once after that; the output
    ends there, or whatever follows the event that completes the turn. -/
structure Turn where
  items : List Item
  entries : List Entry
  lines : List String
  rest : List String
  reads : List.Forall₂ (Reads items) lines entries
  once : ∀ index < items.length,
    entries.filter (·.of index) = [.item index .started, .item index .completed]
  distinct : (items.map Item.id).Nodup
  ends : ∀ line ∈ rest.head?, ∃ event, Parses line event ∧ event.eventType = "turn.completed"

namespace Turn

variable (turn : Turn)

def stdout : List String := turn.lines ++ turn.rest

/-- What is sent, line by line. -/
def sent : List (List DomainEvent) := (handleLines turn.stdout ∅).1

/-- What is sent for the lines of one item. -/
def sentFor (index : Nat) : List DomainEvent :=
  ((turn.entries.zip turn.sent).filter (·.1.of index)).flatMap (·.2)

/-- Every text and block of the items is shown by one event of its item. Every call is started
    once under its id, and finished once after that, whatever else the process does. -/
structure Delivers : Prop where
  contents : ∀ index item, turn.items[index]? = some item →
    ((turn.sentFor index).filterMap shown).Perm (held item.started)
  calls : ∀ item ∈ turn.items, ∀ call ∈ (itemKind item.started).call, ∀ pid shutdown stderr,
    ((start { pid, stdout := turn.stdout, shutdown, stderr }).filterMap progress).filter
        (fun p => p.1 == call && p.2.1 == some item.id) =
      [(call, some item.id, .started), (call, some item.id, .completed)]

end Turn

/-! ## What is sent -/

/-- What may be sent for a line. -/
inductive Sends (items : List Item) : Entry → List DomainEvent → Prop where
  | item {index : Nat} {item : Item} {method : Method} (found : items[index]? = some item) :
      Sends items (.item index method) (item.events method)
  | aside {events : List DomainEvent} (mute : events.filterMap shown = [])
      (still : events.filterMap progress = []) : Sends items .aside events

theorem handleExecEvent_aside {event : ExecEvent} (goesOn : event.eventType ≠ "turn.completed")
    (itemless : ∀ method : Method, event.eventType = method.eventType → event.item = none) :
    ∃ events, handleExecEvent event ∅ = (events, ∅, false) ∧ events.filterMap shown = [] ∧
      events.filterMap progress = [] := by
  unfold handleExecEvent
  split
  · cases event.threadId with
    | none => exact ⟨_, rfl, rfl, rfl⟩
    | some threadId => exact ⟨_, rfl, rfl, rfl⟩
  · exact ⟨_, rfl, rfl, rfl⟩
  · next completed => exact absurd completed goesOn
  · next type => exact ⟨_, rfl, by simp [itemless .started type], by simp [itemless .started type]⟩
  · next type => exact ⟨_, rfl, by simp [itemless .completed type], by simp [itemless .completed type]⟩
  · exact ⟨_, rfl, rfl, rfl⟩

theorem handleExecEvent_item {event : ExecEvent} {item : Item} {method : Method}
    (type : event.eventType = method.eventType) (value : event.item = some (item.value method)) :
    handleExecEvent event ∅ = (item.events method, ∅, false) := by
  unfold handleExecEvent
  cases method <;> simp [type, Method.eventType, value, Item.events]

/-- Nothing is ever noted as streamed: every line is translated by itself. -/
theorem handleLines_cons {items : List Item} {line : String} {entry : Entry}
    (reads : Reads items line entry) (rest : List String) :
    ∃ events, Sends items entry events ∧
      handleLines (line :: rest) ∅ = (events :: (handleLines rest ∅).1, (handleLines rest ∅).2) := by
  cases reads with
  | item parses found type value =>
      refine ⟨_, .item found, ?_⟩
      rw [handleLines, if_neg parses.1, parses.2]
      simp [handleExecEvent_item type value]
  | blank empty =>
      refine ⟨[], .aside rfl rfl, ?_⟩
      rw [handleLines, if_pos empty]
  | aside parses goesOn itemless =>
      obtain ⟨events, handled, mute, still⟩ := handleExecEvent_aside goesOn itemless
      refine ⟨events, .aside mute still, ?_⟩
      rw [handleLines, if_neg parses.1, parses.2]
      simp [handled]

/-- The events of a line of an item. -/
def eventsAt (items : List Item) : Entry → List DomainEvent
  | .item index method => (items[index]?.map (·.events method)).getD []
  | .aside => []

theorem Sends.of_index {items : List Item} {entry : Entry} {events : List DomainEvent} {index : Nat}
    (sends : Sends items entry events) (of : entry.of index = true) : events = eventsAt items entry := by
  cases sends with
  | item found => simp [eventsAt, found]
  | aside => simp [Entry.of] at of

theorem Sends.progress {items : List Item} {entry : Entry} {events : List DomainEvent}
    (sends : Sends items entry events) :
    events.filterMap progress = (eventsAt items entry).filterMap progress := by
  cases sends with
  | item found => simp [eventsAt, found]
  | aside _ still => simpa [eventsAt] using still

theorem sends_for {items : List Item} {entries : List Entry} {sent : List (List DomainEvent)}
    (sends : List.Forall₂ (Sends items) entries sent) (index : Nat) :
    ((entries.zip sent).filter (·.1.of index)).flatMap (·.2) =
      (entries.filter (·.of index)).flatMap (eventsAt items) := by
  induction sends with
  | nil => rfl
  | cons first _ ih =>
      rw [List.zip_cons_cons, List.filter_cons, List.filter_cons]
      split
      · next of => rw [List.flatMap_cons, List.flatMap_cons, ih, first.of_index of]
      · exact ih

theorem sends_progress {items : List Item} {entries : List Entry} {sent : List (List DomainEvent)}
    (sends : List.Forall₂ (Sends items) entries sent) :
    sent.flatten.filterMap progress = (entries.flatMap (eventsAt items)).filterMap progress := by
  induction sends with
  | nil => rfl
  | cons first _ ih =>
      rw [List.flatten_cons, List.flatMap_cons, List.filterMap_append, List.filterMap_append, ih,
        first.progress]

theorem handleLines_reads {items : List Item} {lines : List String} {entries : List Entry}
    (reads : List.Forall₂ (Reads items) lines entries) (rest : List String) :
    ∃ sent, List.Forall₂ (Sends items) entries sent ∧
      handleLines (lines ++ rest) ∅ = (sent ++ (handleLines rest ∅).1, (handleLines rest ∅).2) := by
  induction reads with
  | nil => exact ⟨[], .nil, rfl⟩
  | cons first _ ih =>
      obtain ⟨sent, sends, handled⟩ := ih
      obtain ⟨events, sends', handled'⟩ := handleLines_cons first _
      exact ⟨events :: sent, .cons sends' sends, by rw [List.cons_append, handled', handled]; rfl⟩

namespace Turn

variable (turn : Turn)

/-- The line that completes the turn ends it. -/
theorem handleLines_rest : ∃ closing, handleLines turn.rest ∅ = (closing, .ok ()) ∧
    closing.flatten.filterMap progress = [] := by
  cases h : turn.rest with
  | nil => exact ⟨[], rfl, rfl⟩
  | cons line after =>
      obtain ⟨event, parses, completed⟩ := turn.ends line (by rw [h]; rfl)
      refine ⟨[[.status "codex turn completed"]], ?_, rfl⟩
      rw [handleLines, if_neg parses.1, parses.2]
      simp [handleExecEvent, completed]

theorem handleLines_stdout : ∃ sent closing, handleLines turn.stdout ∅ = (sent ++ closing, .ok ()) ∧
    List.Forall₂ (Sends turn.items) turn.entries sent ∧ closing.flatten.filterMap progress = [] := by
  obtain ⟨closing, ended, still⟩ := turn.handleLines_rest
  obtain ⟨sent, sends, handled⟩ := handleLines_reads turn.reads turn.rest
  rw [ended] at handled
  exact ⟨sent, closing, handled, sends, still⟩

/-- What surrounds the lines starts and finishes no call. -/
theorem start_progress (pid : UInt32) (shutdown : Except String Unit) (stderr : String) :
    (start { pid, stdout := turn.stdout, shutdown, stderr }).filterMap progress =
      (turn.entries.flatMap (eventsAt turn.items)).filterMap progress := by
  obtain ⟨sent, closing, handled, sends, still⟩ := turn.handleLines_stdout
  rw [← sends_progress sends]
  unfold start runCodex
  rw [handled]
  have around (closing' : List DomainEvent) (none : closing'.filterMap progress = []) :
      ([DomainEvent.providerPid pid, .status "codex provider started"] ++
        (sent ++ closing).flatten ++ closing').filterMap progress = sent.flatten.filterMap progress := by
    simp only [List.filterMap_append, List.flatten_append, still, none, List.append_nil]
    rfl
  cases shutdown with
  | error e => exact around [.error e, .finished] rfl
  | ok =>
      simp only [List.append_assoc]
      rw [← List.append_assoc]
      apply around
      split <;> rfl

theorem sentFor_eq {index : Nat} {item : Item} (found : turn.items[index]? = some item) :
    turn.sentFor index = item.events .started ++ item.events .completed := by
  obtain ⟨sent, closing, handled, sends, -⟩ := turn.handleLines_stdout
  have here : index < turn.items.length := (List.getElem?_eq_some_iff.mp found).1
  have zipped : turn.entries.zip (sent ++ closing) = turn.entries.zip sent := by
    simpa using @List.zip_append _ _ turn.entries [] sent closing sends.length_eq
  rw [sentFor, Turn.sent, handled, zipped, sends_for sends, turn.once index here]
  simp [eventsAt, found]

theorem progress_other {index other : Nat} {item : Item} (found : turn.items[index]? = some item)
    (call : Call) {method : Method} (apart : other ≠ index) :
    ((eventsAt turn.items (.item other method)).filterMap progress).filter
      (fun p => p.1 == call && p.2.1 == some item.id) = [] := by
  cases found' : turn.items[other]? with
  | none => simp [eventsAt, found']
  | some item' =>
      have differs : item'.id ≠ item.id := by
        intro same
        apply apart
        have here := (List.getElem?_eq_some_iff.mp found').1
        apply (List.getElem?_inj (by simpa using here) turn.distinct).mp
        simp [found, found', same]
      have events : eventsAt turn.items (.item other method) = item'.events method := by
        simp [eventsAt, found']
      rw [events, item'.events_progress]
      cases (itemKind item'.started).call <;> simp [differs]

theorem progress_of {index : Nat} {item : Item} (found : turn.items[index]? = some item) (call : Call)
    (entries : List Entry) :
    ((entries.flatMap (eventsAt turn.items)).filterMap progress).filter
        (fun p => p.1 == call && p.2.1 == some item.id) =
      (((entries.filter (·.of index)).flatMap (eventsAt turn.items)).filterMap progress).filter
        fun p => p.1 == call && p.2.1 == some item.id := by
  induction entries with
  | nil => rfl
  | cons entry rest ih =>
      rw [List.flatMap_cons, List.filterMap_append, List.filter_append, ih, List.filter_cons]
      split
      · rw [List.flatMap_cons, List.filterMap_append, List.filter_append]
      · next apart =>
          cases entry with
          | aside => rfl
          | item other method =>
              rw [turn.progress_other found call (by simpa [Entry.of] using apart), List.nil_append]

end Turn

/-- A turn is delivered exactly if agent messages and images alone have something to say, and no
    text of theirs is empty. -/
theorem codex_delivers (turn : Turn) : turn.Delivers ↔ ∀ item ∈ turn.items, item.Spoken := by
  constructor
  · intro delivers item mem
    obtain ⟨index, found⟩ := List.getElem?_of_mem mem
    have perm := delivers.contents index item found
    rw [turn.sentFor_eq found, List.filterMap_append, item.events_shown, item.events_shown] at perm
    exact item.shown_perm_iff.mp perm
  · intro spoken
    constructor
    · intro index item found
      rw [turn.sentFor_eq found, List.filterMap_append, item.events_shown, item.events_shown]
      exact item.shown_perm_iff.mpr (spoken item (List.mem_of_getElem? found))
    · intro item mem call is pid shutdown stderr
      obtain ⟨index, found⟩ := List.getElem?_of_mem mem
      have here : index < turn.items.length := (List.getElem?_eq_some_iff.mp found).1
      rw [turn.start_progress, turn.progress_of found, turn.once index here]
      simp [eventsAt, found, Item.events_progress, Option.mem_def.mp is]

end

/-! ## A message that is sent twice -/

section

def helloText : String :=
  "\x7b\"id\":\"item_1\",\"type\":\"message\",\"content\":[\x7b\"type\":\"text\",\"text\":\"Hello\"\x7d]\x7d"

def helloLine (eventType : String) : String :=
  "\x7b\"type\":\"" ++ eventType ++ "\",\"item\":" ++ helloText ++ "\x7d"

def turnCompletedLine : String := "\x7b\"type\":\"turn.completed\"\x7d"

def helloJson : Json := .object [("id", .string "item_1"), ("type", .string "message"),
  ("content", .array [.object [("type", .string "text"), ("text", .string "Hello")]])]

local instance helloLines : SerdeJson where
  fromStr line :=
    if line = helloLine "item.started" then .ok { eventType := "item.started", item := some helloJson }
    else if line = helloLine "item.completed" then
      .ok { eventType := "item.completed", item := some helloJson }
    else if line = turnCompletedLine then .ok { eventType := "turn.completed" }
    else .error "expected value at line 1 column 1"
  toString _ := none

theorem helloJson_kind : itemKind helloJson = .other := by decide +kernel

def hello : Item where
  started := helloJson
  completed := helloJson
  id := "item_1"
  same _ _ := rfl
  identified := by decide +kernel
  required := by constructor <;> simp [helloJson_kind]

theorem trim_helloLine (method : Method) :
    trim (helloLine method.eventType) = helloLine method.eventType ∧
      helloLine method.eventType ≠ "" := by
  cases method <;> decide +kernel

theorem hello_parses (method : Method) : Parses (helloLine method.eventType)
    { eventType := method.eventType, item := some helloJson } := by
  rw [Parses, (trim_helloLine method).1]
  refine ⟨(trim_helloLine method).2, ?_⟩
  have apart : helloLine "item.completed" ≠ helloLine "item.started" := by decide +kernel
  cases method <;> simp [SerdeJson.fromStr, Method.eventType, apart]

def helloTurn : Turn where
  items := [hello]
  entries := [.item 0 .started, .item 0 .completed]
  lines := [helloLine "item.started", helloLine "item.completed"]
  rest := [turnCompletedLine]
  reads := .cons (.item (hello_parses .started) rfl rfl rfl)
    (.cons (.item (hello_parses .completed) rfl rfl rfl) .nil)
  once := by decide
  distinct := by decide
  ends line mem := by
    cases mem
    refine ⟨{ eventType := "turn.completed" }, ⟨by decide +kernel, ?_⟩, rfl⟩
    have trimmed : trim turnCompletedLine = turnCompletedLine ∧
        turnCompletedLine ≠ helloLine "item.started" ∧
        turnCompletedLine ≠ helloLine "item.completed" := by decide +kernel
    simp [SerdeJson.fromStr, trimmed]

theorem hello_twice : ¬ helloTurn.Delivers := by
  intro delivers
  have perm := delivers.contents 0 hello rfl
  have both : (helloTurn.sentFor 0).filterMap shown = [.text "Hello", .text "Hello"] := by
    decide +kernel
  have one : held hello.started = [.text "Hello"] := by decide +kernel
  rw [both, one] at perm
  exact absurd perm.length_eq (by decide)

end

end AgileAgent.Provider
