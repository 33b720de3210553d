import Mathlib.Data.List.Forall2
import AgileAgent.Decision.BuiltinActions

/-! # The Claude provider

From the lines of `claude -p --output-format stream-json` to provider events, and which of the blocks
of a stream come out as an event.
-/

namespace AgileAgent.Provider.Claude

open DecisionDsl (Json trim)
open DecisionDsl.Json (struct asStr asBool nullable)
open Decision (JsonText)
open RuntimeDomain

structure ClaudeLogEntry where
  level : String
  message : String

structure ClaudeSdkMessage where
  type : String
  message : Option Json
  sessionId : Option String
  result : Option String
  isError : Bool
  log : Option ClaudeLogEntry

structure ClaudeContentBlock where
  type : String
  text : String
  thinking : String
  id : String
  name : String
  input : Option Json
  toolUseId : Option String
  content : Option Json

/-! ## Decoding -/

def readLogEntry : Json → Option ClaudeLogEntry := struct 2 fun v => do
  let level ← v.field "level" 0 (.default "") asStr
  let message ← v.field "message" 1 (.default "") asStr
  return { level, message }

def readSdkMessage : Json → Option ClaudeSdkMessage := struct 6 fun v => do
  let type ← v.field "type" 0 .required asStr
  let message ← v.field "message" 1 (.default none) (nullable some)
  let sessionId ← v.field "session_id" 2 (.default none) (nullable asStr)
  let result ← v.field "result" 3 (.default none) (nullable asStr)
  let isError ← v.field "is_error" 4 (.default false) asBool
  let log ← v.field "log" 5 (.default none) (nullable readLogEntry)
  return { type, message, sessionId, result, isError, log }

def readContentBlock : Json → Option ClaudeContentBlock := struct 8 fun v => do
  let type ← v.field "type" 0 .required asStr
  let text ← v.field "text" 1 (.default "") asStr
  let thinking ← v.field "thinking" 2 (.default "") asStr
  let id ← v.field "id" 3 (.default "") asStr
  let name ← v.field "name" 4 (.default "") asStr
  let input ← v.field "input" 5 (.default none) (nullable some)
  let toolUseId ← v.field "tool_use_id" 6 (.default none) (nullable asStr)
  let content ← v.field "content" 7 (.default none) (nullable some)
  return { type, text, thinking, id, name, input, toolUseId, content }

def readContentBlocks : Json → Option (List ClaudeContentBlock)
  | .array items => items.mapM readContentBlock
  | _ => none

/-- The blocks of a `ClaudeMessageContent`. -/
def readMessageContent : Json → Option (List ClaudeContentBlock) := struct 1 fun v =>
  v.field "content" 0 .required readContentBlocks

/-! ## The events of a message -/

section

variable [JsonText]

def renderJsonValue : Json → String
  | .string s => s
  | value => (JsonText.toString value).getD ""

def assistantEvent (block : ClaudeContentBlock) : Option DomainEvent :=
  match block.type with
  | "text" => if block.text ≠ "" then some (.assistantChunk block.text) else none
  | "thinking" =>
      let thinkingText := if block.text ≠ "" then block.text else block.thinking
      if thinkingText ≠ "" then some (.thinkingChunk thinkingText) else none
  | "tool_use" => some (.genericToolCallStarted (if block.name = "" then "tool_use" else block.name)
      (if block.id = "" then none else some block.id) (block.input.bind JsonText.toString))
  | _ => none

def parseAssistantMessage (message : ClaudeSdkMessage) : Except String (List DomainEvent) :=
  match message.message with
  | none => .error "assistant event missing message payload"
  | some payload =>
      match readMessageContent payload with
      | none => .error "failed to decode assistant message content"
      | some content => .ok (content.filterMap assistantEvent)

/-- `is_error` of a block is not read. -/
def userEvent (block : ClaudeContentBlock) : Option DomainEvent :=
  if block.type = "tool_result" then
    some (.genericToolCallFinished "tool_result" block.toolUseId (block.content.map renderJsonValue) true)
  else none

def parseUserMessage (message : ClaudeSdkMessage) : Except String (List DomainEvent) :=
  match message.message with
  | none => .ok []
  | some payload =>
      match readMessageContent payload with
      | none => .error "failed to decode user message content"
      | some content => .ok (content.filterMap userEvent)

end

def parseSystemMessage (message : ClaudeSdkMessage) : List DomainEvent :=
  match message.sessionId.filter (· ≠ "") with
  | some sessionId => [.sessionHandle (.claudeSession sessionId), .status ("claude session: " ++ sessionId)]
  | none => []

def parseResultMessage (message : ClaudeSdkMessage) : List DomainEvent :=
  ((message.sessionId.filter (· ≠ "")).map fun sessionId =>
      DomainEvent.sessionHandle (.claudeSession sessionId)).toList ++
    if message.isError then [.error (message.result.getD "claude returned an error result")] else []

def parseLogMessage (message : ClaudeSdkMessage) : List DomainEvent :=
  match message.log with
  | some log =>
      if log.message ≠ "" then [.status ("claude " ++ log.level ++ ": " ++ log.message)] else []
  | none => []

section

variable [JsonText]

def messageEvents (message : ClaudeSdkMessage) : Except String (List DomainEvent) :=
  match message.type with
  | "assistant" => parseAssistantMessage message
  | "system" => .ok (parseSystemMessage message)
  | "result" => .ok (parseResultMessage message)
  | "log" => .ok (parseLogMessage message)
  | "user" => parseUserMessage message
  | other => .ok [.status ("ignored claude event type: " ++ other)]

def parseOutputLine (line : String) : Except String (List DomainEvent) :=
  match (JsonText.fromStr line).bind readSdkMessage with
  | none => .error ("invalid claude output line: " ++ line)
  | some message => messageEvents message

/-- What is sent, and the error of the line that ends the stream; the receiver stays. -/
def readStdout : List String → List DomainEvent × Except String Unit
  | [] => ([], .ok ())
  | line :: rest =>
      if trim line = "" then readStdout rest
      else match parseOutputLine (trim line) with
        | .error e => ([], .error e)
        | .ok events =>
            let (sent, outcome) := readStdout rest
            (events ++ sent, outcome)

end

/-! ## The format -/

/-- An object in which no name stands twice. -/
structure Fields where
  entries : List (String × Json)
  distinct : (entries.map Prod.fst).Nodup

namespace Fields

variable {α : Type} {o : Fields} {key : String} {place : Nat} {read : Json → Option α}

def json (o : Fields) : Json := .object o.entries

def get? (o : Fields) (key : String) : Option Json := o.entries.lookup key

/-- What stands under the name can be read so. -/
def Reads (o : Fields) (key : String) (read : Json → Option α) : Prop :=
  ∀ value, o.get? key = some value → (read value).isSome

def value (o : Fields) (key : String) (read : Json → Option α) (default : α) : α :=
  ((o.get? key).bind read).getD default

theorem filter_lookup {entries : List (String × Json)} (distinct : (entries.map Prod.fst).Nodup) :
    entries.filter (fun e => e.1 = key) = ((entries.lookup key).map fun v => (key, v)).toList := by
  induction entries with
  | nil => rfl
  | cons entry rest ih =>
      rw [List.map_cons, List.nodup_cons] at distinct
      by_cases here : entry.1 = key
      · have gone : rest.filter (fun e => e.1 = key) = [] := by
          rw [List.filter_eq_nil_iff]
          intro other member
          have apart := distinct.1
          rw [here] at apart
          rw [decide_eq_true_eq]
          exact fun same => apart (same ▸ List.mem_map_of_mem member)
        obtain ⟨name, v⟩ := entry
        obtain rfl : name = key := here
        simp [gone]
      · have other : (key == entry.1) = false := beq_false_of_ne (Ne.symm here)
        rw [List.filter_cons_of_neg (by simpa using here), ih distinct.2, List.lookup_cons, other]

theorem struct_json {count : Nat} : struct count read o.json = read o.json := rfl

theorem field_required {v : Json} (found : o.get? key = some v) :
    o.json.field key place .required read = read v := by
  rw [json, Json.field, filter_lookup o.distinct, show o.entries.lookup key = some v from found]
  rfl

theorem field_default {default : α} (reads : o.Reads key read) :
    o.json.field key place (.default default) read = some (o.value key read default) := by
  rw [json, Json.field, filter_lookup o.distinct, value]
  cases found : o.get? key with
  | none =>
      rw [show o.entries.lookup key = none from found]
      rfl
  | some v =>
      obtain ⟨a, isRead⟩ := Option.isSome_iff_exists.mp (reads v found)
      rw [show o.entries.lookup key = some v from found]
      simp [isRead]

theorem reads_some : o.Reads key (nullable some) := by
  intro v _
  cases v <;> rfl

theorem mem_of_get? {v : Json} (found : o.get? key = some v) : (key, v) ∈ o.entries := by
  have alone : o.entries.filter (fun e => e.1 = key) = [(key, v)] := by
    rw [filter_lookup o.distinct, show o.entries.lookup key = some v from found]
    rfl
  exact List.mem_of_mem_filter (alone ▸ List.mem_cons_self)

theorem reads_of_forall (all : ∀ e ∈ o.entries, e.1 = key → (read e.2).isSome) : o.Reads key read :=
  fun v found => all (key, v) (mem_of_get? found) rfl

/-- A field that is not null may be read as one that could be. -/
theorem Reads.nullable (reads : o.Reads key read) : o.Reads key (Json.nullable read) := by
  intro v found
  obtain ⟨a, isRead⟩ := Option.isSome_iff_exists.mp (reads v found)
  cases v <;> simp [Json.nullable, isRead]

end Fields

/-- A content block; the texts it has are texts, and a tool result says what it answers. -/
structure Block where
  object : Fields
  type : String
  typed : object.get? "type" = some (.string type)
  texts : ∀ key ∈ ["text", "thinking", "id", "name", "tool_use_id"], object.Reads key asStr
  answers : type = "tool_result" → (object.get? "tool_use_id").isSome

inductive Content where
  | text (words : String)
  | blocks (items : List Block)

def Content.json : Content → Json
  | text words => .string words
  | blocks items => .array (items.map (·.object.json))

/-- What a message of the assistant or of the user carries. -/
structure Payload where
  object : Fields
  content : Content
  holds : object.get? "content" = some content.json

structure Message where
  object : Fields
  type : String
  typed : object.get? "type" = some (.string type)
  texts : ∀ key ∈ ["session_id", "result"], object.Reads key (nullable asStr)
  flag : object.Reads "is_error" asBool
  log : ∀ v, object.get? "log" = some v → v = .null ∨
    ∃ entry : Fields, v = entry.json ∧ entry.Reads "level" asStr ∧ entry.Reads "message" asStr
  payload : Option Payload
  carries : payload.isSome ↔ type = "assistant" ∨ type = "user"
  holds : ∀ p ∈ payload, object.get? "message" = some p.object.json

namespace Block

def str (b : Block) (key : String) : String := b.object.value key asStr ""

/-- The words of a text or of a thought, which older versions wrote as a text too. -/
def words (b : Block) : String :=
  match b.type with
  | "text" => b.str "text"
  | "thinking" => if b.str "text" ≠ "" then b.str "text" else b.str "thinking"
  | _ => ""

def isError (b : Block) : Prop := b.object.get? "is_error" = some (.bool true)

/-- An event is owed to the block. -/
def shows (b : Block) : Bool :=
  match b.type with
  | "text" | "thinking" => b.words ≠ ""
  | "tool_use" | "tool_result" => true
  | _ => false

/-- The event that is owed to the block. -/
def ShownAs (b : Block) (event : DomainEvent) : Prop :=
  match b.type with
  | "text" => event = .assistantChunk b.words
  | "thinking" => event = .thinkingChunk b.words
  | "tool_use" => ∃ name callId preview, event = .genericToolCallStarted name callId preview ∧
      (b.str "name" ≠ "" → name = b.str "name") ∧ (b.str "id" ≠ "" → callId = some (b.str "id"))
  | "tool_result" => ∃ name preview success exitCode durationMs,
      event = .genericToolCallFinished name (some (b.str "tool_use_id")) preview success exitCode durationMs ∧
      (success = false ↔ b.isError)
  | _ => False

/-- The block as it is decoded. -/
def decoded (b : Block) : ClaudeContentBlock where
  type := b.type
  text := b.str "text"
  thinking := b.str "thinking"
  id := b.str "id"
  name := b.str "name"
  input := b.object.value "input" (nullable some) none
  toolUseId := b.object.value "tool_use_id" (nullable asStr) none
  content := b.object.value "content" (nullable some) none

theorem readContentBlock_json (b : Block) : readContentBlock b.object.json = some b.decoded := by
  have texts := b.texts
  simp only [readContentBlock, Fields.struct_json, Fields.field_required b.typed,
    Fields.field_default (texts "text" (by simp)), Fields.field_default (texts "thinking" (by simp)),
    Fields.field_default (texts "id" (by simp)), Fields.field_default (texts "name" (by simp)),
    Fields.field_default (texts "tool_use_id" (by simp)).nullable, Fields.field_default Fields.reads_some]
  rfl

theorem readContentBlocks_json (blocks : List Block) :
    readContentBlocks (Content.blocks blocks).json = some (blocks.map decoded) := by
  change (blocks.map (·.object.json)).mapM readContentBlock = _
  induction blocks with
  | nil => rfl
  | cons b rest ih =>
      rw [List.map_cons, List.mapM_cons, readContentBlock_json, ih]
      rfl

end Block

namespace Message

def blocks (m : Message) : List Block :=
  match m.payload with
  | some ⟨_, .blocks items, _⟩ => items
  | _ => []

/-- The content is a text and not a list of blocks. -/
def HasText (m : Message) : Prop := ∃ p ∈ m.payload, ∃ words, p.content = .text words

/-- The message as it is decoded. -/
def decoded (m : Message) : ClaudeSdkMessage where
  type := m.type
  message := m.object.value "message" (nullable some) none
  sessionId := m.object.value "session_id" (nullable asStr) none
  result := m.object.value "result" (nullable asStr) none
  isError := m.object.value "is_error" asBool false
  log := m.object.value "log" (nullable readLogEntry) none

theorem reads_log (m : Message) : m.object.Reads "log" (nullable readLogEntry) := by
  intro v found
  rcases m.log v found with rfl | ⟨entry, rfl, level, message⟩
  · rfl
  · have entryRead : readLogEntry entry.json =
        some { level := entry.value "level" asStr "", message := entry.value "message" asStr "" } := by
      simp only [readLogEntry, Fields.struct_json, Fields.field_default level, Fields.field_default message]
      rfl
    change ((readLogEntry entry.json).map some).isSome
    rw [entryRead]
    rfl

theorem readSdkMessage_json (m : Message) : readSdkMessage m.object.json = some m.decoded := by
  simp only [readSdkMessage, Fields.struct_json, Fields.field_required m.typed,
    Fields.field_default (m.texts "session_id" (by simp)), Fields.field_default (m.texts "result" (by simp)),
    Fields.field_default m.flag, Fields.field_default m.reads_log, Fields.field_default Fields.reads_some]
  rfl

theorem type_of_mem_blocks {m : Message} {b : Block} (member : b ∈ m.blocks) :
    m.type = "assistant" ∨ m.type = "user" := by
  rw [← m.carries]
  cases said : m.payload with
  | none =>
      rw [blocks, said] at member
      cases member
  | some p => rfl

theorem decoded_message {m : Message} {p : Payload} (said : m.payload = some p) :
    m.decoded.message = some p.object.json := by
  have found : m.object.get? "message" = some p.object.json := m.holds p (Option.mem_def.mpr said)
  rw [decoded, Fields.value, found]
  rfl

end Message

/-! ## Which blocks come out -/

/-- The event that tells of a block. -/
def isBlockEvent : DomainEvent → Bool
  | .assistantChunk _ | .thinkingChunk _ | .genericToolCallStarted .. | .genericToolCallFinished .. => true
  | _ => false

theorem readMessageContent_blocks {p : Payload} {items : List Block} (content : p.content = .blocks items) :
    readMessageContent p.object.json = some (items.map Block.decoded) := by
  rw [← Block.readContentBlocks_json, ← content]
  simp only [readMessageContent, Fields.struct_json, Fields.field_required p.holds]

theorem readMessageContent_text {p : Payload} {words : String} (content : p.content = .text words) :
    readMessageContent p.object.json = none := by
  have holds := p.holds
  rw [content] at holds
  simp only [readMessageContent, Fields.struct_json, Fields.field_required holds]
  rfl

theorem filter_filterMap_self {α β : Type} {f : α → Option β} {p : β → Bool} {l : List α}
    (all : ∀ a b, f a = some b → p b) : (l.filterMap f).filter p = l.filterMap f := by
  rw [List.filter_eq_self]
  intro b member
  obtain ⟨a, -, same⟩ := List.mem_filterMap.mp member
  exact all a b same

theorem parseSystemMessage_filter (m : ClaudeSdkMessage) :
    (parseSystemMessage m).filter isBlockEvent = [] := by
  unfold parseSystemMessage
  split <;> rfl

theorem parseResultMessage_filter (m : ClaudeSdkMessage) :
    (parseResultMessage m).filter isBlockEvent = [] := by
  unfold parseResultMessage
  cases m.sessionId.filter (· ≠ "") <;> cases m.isError <;> rfl

theorem parseLogMessage_filter (m : ClaudeSdkMessage) : (parseLogMessage m).filter isBlockEvent = [] := by
  unfold parseLogMessage
  cases m.log with
  | none => rfl
  | some log => by_cases blank : log.message = "" <;> simp [blank, isBlockEvent]

section

variable [JsonText]

/-- The event of a block in a message. -/
def Message.event (m : Message) (b : Block) : Option DomainEvent :=
  if m.type = "assistant" then assistantEvent b.decoded else userEvent b.decoded

theorem messageEvents_assistant {m : Message} (type : m.type = "assistant") :
    messageEvents m.decoded = parseAssistantMessage m.decoded := by
  simp only [messageEvents, show m.decoded.type = "assistant" from type]

theorem messageEvents_user {m : Message} (type : m.type = "user") :
    messageEvents m.decoded = parseUserMessage m.decoded := by
  simp only [messageEvents, show m.decoded.type = "user" from type]

theorem parseAssistantMessage_blocks {m : ClaudeSdkMessage} {payload : Json} {items : List Block}
    (carried : m.message = some payload)
    (isRead : readMessageContent payload = some (items.map Block.decoded)) :
    parseAssistantMessage m = .ok (items.filterMap fun b => assistantEvent b.decoded) := by
  simp only [parseAssistantMessage, carried, isRead, List.filterMap_map, Function.comp_def]

theorem parseUserMessage_blocks {m : ClaudeSdkMessage} {payload : Json} {items : List Block}
    (carried : m.message = some payload)
    (isRead : readMessageContent payload = some (items.map Block.decoded)) :
    parseUserMessage m = .ok (items.filterMap fun b => userEvent b.decoded) := by
  simp only [parseUserMessage, carried, isRead, List.filterMap_map, Function.comp_def]

theorem messageEvents_text {m : Message} (text : m.HasText) : ∃ e, messageEvents m.decoded = .error e := by
  obtain ⟨p, said, words, content⟩ := text
  have said : m.payload = some p := said
  have carried := Message.decoded_message said
  have unread := readMessageContent_text content
  rcases m.carries.mp (by rw [said]; rfl) with type | type
  · refine ⟨"failed to decode assistant message content", ?_⟩
    rw [messageEvents_assistant type]
    simp only [parseAssistantMessage, carried, unread]
  · refine ⟨"failed to decode user message content", ?_⟩
    rw [messageEvents_user type]
    simp only [parseUserMessage, carried, unread]

theorem assistantEvent_isBlockEvent {b : ClaudeContentBlock} {event : DomainEvent}
    (sent : assistantEvent b = some event) : isBlockEvent event := by
  unfold assistantEvent at sent
  grind [isBlockEvent]

theorem userEvent_isBlockEvent {b : ClaudeContentBlock} {event : DomainEvent}
    (sent : userEvent b = some event) : isBlockEvent event := by
  unfold userEvent at sent
  grind [isBlockEvent]

theorem messageEvents_blocks {m : Message} (noText : ¬ m.HasText) :
    ∃ events, messageEvents m.decoded = .ok events ∧
      events.filter isBlockEvent = m.blocks.filterMap m.event := by
  cases said : m.payload with
  | none =>
      have apart : ¬ (m.type = "assistant" ∨ m.type = "user") := by
        rw [← m.carries, said]
        exact Bool.false_ne_true
      rw [not_or] at apart
      rw [Message.blocks, said, messageEvents]
      split
      · next type => exact absurd type apart.1
      · exact ⟨_, rfl, parseSystemMessage_filter _⟩
      · exact ⟨_, rfl, parseResultMessage_filter _⟩
      · exact ⟨_, rfl, parseLogMessage_filter _⟩
      · next type => exact absurd type apart.2
      · exact ⟨_, rfl, rfl⟩
  | some p =>
      have carried := Message.decoded_message said
      cases content : p.content with
      | text words => exact absurd ⟨p, said, words, content⟩ noText
      | blocks items =>
          have inside : m.blocks = items := by
            obtain ⟨object, _, _⟩ := p
            subst content
            rw [Message.blocks, said]
          have isRead := readMessageContent_blocks content
          rw [inside]
          rcases m.carries.mp (by rw [said]; rfl) with type | type
          · refine ⟨_, (messageEvents_assistant type).trans (parseAssistantMessage_blocks carried isRead), ?_⟩
            have same : m.event = fun b => assistantEvent b.decoded := funext fun _ => if_pos type
            rw [filter_filterMap_self fun _ _ => assistantEvent_isBlockEvent, same]
          · refine ⟨_, (messageEvents_user type).trans (parseUserMessage_blocks carried isRead), ?_⟩
            have apart : m.type ≠ "assistant" := by rw [type]; decide
            have same : m.event = fun b => userEvent b.decoded := funext fun _ => if_neg apart
            rw [filter_filterMap_self fun _ _ => userEvent_isBlockEvent, same]

/-! ## Whole streams -/

/-- The lines hold the messages; blank lines may stand between them. -/
def Written (lines : List String) (messages : List Message) : Prop :=
  List.Forall₂ (fun line (m : Message) => JsonText.fromStr (trim line) = some m.object.json)
    (lines.filter fun line => trim line ≠ "") messages

theorem parseOutputLine_written {line : String} {m : Message}
    (holds : JsonText.fromStr line = some m.object.json) : parseOutputLine line = messageEvents m.decoded := by
  simp only [parseOutputLine, holds, Option.bind_some, Message.readSdkMessage_json]

/-- A stream without textual contents is translated to its end. -/
theorem readStdout_blocks {lines : List String} {messages : List Message} (written : Written lines messages)
    (noText : ∀ m ∈ messages, ¬ m.HasText) :
    (readStdout lines).2 = .ok () ∧
      (readStdout lines).1.filter isBlockEvent = messages.flatMap fun m => m.blocks.filterMap m.event := by
  induction lines generalizing messages with
  | nil =>
      cases written
      exact ⟨rfl, rfl⟩
  | cons line rest ih =>
      rw [readStdout]
      by_cases blank : trim line = ""
      · rw [if_pos blank]
        rw [Written, List.filter_cons_of_neg (by simpa using blank)] at written
        exact ih written noText
      · rw [if_neg blank]
        rw [Written, List.filter_cons_of_pos (by simpa using blank)] at written
        cases written with
        | @cons _ m _ messages holds written =>
            obtain ⟨events, translated, shown⟩ := messageEvents_blocks (noText m List.mem_cons_self)
            obtain ⟨done, sent⟩ := ih written fun m member => noText m (List.mem_cons_of_mem _ member)
            rw [parseOutputLine_written holds, translated]
            refine ⟨done, ?_⟩
            rw [List.filter_append, shown, sent, List.flatMap_cons]

/-- The stream ends at the first textual content. -/
theorem readStdout_text {lines : List String} {messages : List Message} (written : Written lines messages)
    (done : (readStdout lines).2 = .ok ()) : ∀ m ∈ messages, ¬ m.HasText := by
  induction lines generalizing messages with
  | nil =>
      cases written
      exact List.forall_mem_nil _
  | cons line rest ih =>
      rw [readStdout] at done
      by_cases blank : trim line = ""
      · rw [if_pos blank] at done
        rw [Written, List.filter_cons_of_neg (by simpa using blank)] at written
        exact ih written done
      · rw [if_neg blank] at done
        rw [Written, List.filter_cons_of_pos (by simpa using blank)] at written
        cases written with
        | @cons _ m _ messages holds written =>
            rw [parseOutputLine_written holds] at done
            have noText : ¬ m.HasText := by
              intro text
              obtain ⟨e, failed⟩ := messageEvents_text text
              rw [failed] at done
              cases done
            obtain ⟨events, translated, -⟩ := messageEvents_blocks noText
            rw [translated] at done
            exact List.forall_mem_cons.mpr ⟨noText, ih written done⟩

/-- The stream is translated to its end, and each block an event is owed to comes out as this event, in
    its place. -/
def Translates (lines : List String) (messages : List Message) : Prop :=
  (readStdout lines).2 = .ok () ∧
    List.Forall₂ Block.ShownAs ((messages.flatMap Message.blocks).filter Block.shows)
      ((readStdout lines).1.filter isBlockEvent)

end

theorem length_filterMap_le {α β : Type} {f : α → Option β} {p : α → Bool} {l : List α}
    (only : ∀ a b, f a = some b → p a) : (l.filterMap f).length ≤ (l.filter p).length := by
  induction l with
  | nil => exact Nat.le_refl 0
  | cons a l ih =>
      cases sent : f a with
      | none =>
          rw [List.filterMap_cons_none sent]
          exact ih.trans (List.Sublist.filter p (List.sublist_cons_self a l)).length_le
      | some b =>
          rw [List.filterMap_cons_some sent, List.filter_cons_of_pos (only a b sent)]
          exact Nat.succ_le_succ ih

/-- What is made of the elements that are due stands beside them exactly if something fitting is made of
    each. -/
theorem forall₂_filterMap_iff {α β : Type} {R : α → β → Prop} {f : α → Option β} {p : α → Bool} {l : List α}
    (only : ∀ a b, f a = some b → p a) :
    List.Forall₂ R (l.filter p) (l.filterMap f) ↔ ∀ a ∈ l, p a → ∃ b, f a = some b ∧ R a b := by
  induction l with
  | nil => simp
  | cons a l ih =>
      rw [List.forall_mem_cons]
      cases due : p a with
      | false =>
          have none : f a = none := by
            cases sent : f a with
            | none => rfl
            | some b => rw [only a b sent] at due; cases due
          rw [List.filterMap_cons_none none, List.filter_cons_of_neg (by simp [due]), ih]
          simp
      | true =>
          rw [List.filter_cons_of_pos due]
          cases sent : f a with
          | none =>
              rw [List.filterMap_cons_none sent]
              constructor
              · intro aligned
                have short := length_filterMap_le (l := l) only
                have same := aligned.length_eq
                rw [List.length_cons] at same
                omega
              · intro each
                obtain ⟨b, made, -⟩ := each.1 rfl
                cases made
          | some b =>
              rw [List.filterMap_cons_some sent, List.forall₂_cons, ih]
              simp

namespace Block

variable {b : Block}

theorem words_text (type : b.type = "text") : b.words = b.str "text" := by
  simp only [words, type]

theorem words_thinking (type : b.type = "thinking") :
    b.words = if b.str "text" ≠ "" then b.str "text" else b.str "thinking" := by
  simp only [words, type]

theorem shows_iff : b.shows ↔ ((b.type = "text" ∨ b.type = "thinking") ∧ b.words ≠ "") ∨
    b.type = "tool_use" ∨ b.type = "tool_result" := by
  unfold shows
  split <;> simp_all

theorem toolUseId_decoded (type : b.type = "tool_result") :
    b.decoded.toolUseId = some (b.str "tool_use_id") := by
  obtain ⟨v, found⟩ := Option.isSome_iff_exists.mp (b.answers type)
  obtain ⟨id, isRead⟩ := Option.isSome_iff_exists.mp (b.texts "tool_use_id" (by simp) v found)
  change b.object.value _ _ _ = _
  rw [str, Fields.value, Fields.value, found, Option.bind_some, Option.bind_some, isRead]
  cases v <;> simp_all [Json.nullable, asStr]

end Block

section

variable [JsonText] {b : Block}

theorem assistantEvent_text (type : b.type = "text") :
    assistantEvent b.decoded = if b.words ≠ "" then some (.assistantChunk b.words) else none := by
  simp only [assistantEvent, Block.decoded, type, Block.words_text type]

theorem assistantEvent_thinking (type : b.type = "thinking") :
    assistantEvent b.decoded = if b.words ≠ "" then some (.thinkingChunk b.words) else none := by
  simp only [assistantEvent, Block.decoded, type, Block.words_thinking type]

theorem assistantEvent_toolUse (type : b.type = "tool_use") :
    ∃ event, assistantEvent b.decoded = some event ∧ b.ShownAs event := by
  refine ⟨.genericToolCallStarted (if b.str "name" = "" then "tool_use" else b.str "name")
    (if b.str "id" = "" then none else some (b.str "id"))
    ((b.object.value "input" (nullable some) none).bind JsonText.toString), ?_, ?_⟩
  · simp only [assistantEvent, Block.decoded, type]
  · simp only [Block.ShownAs, type]
    exact ⟨_, _, _, rfl, fun named => if_neg named, fun called => if_neg called⟩

theorem assistantEvent_other {event : DomainEvent} (sent : assistantEvent b.decoded = some event) :
    b.shows ∧ b.type ≠ "tool_result" := by
  rw [Block.shows_iff]
  have type : b.decoded.type = b.type := rfl
  by_cases text : b.type = "text"
  · rw [assistantEvent_text text] at sent
    grind
  · by_cases thinking : b.type = "thinking"
    · rw [assistantEvent_thinking thinking] at sent
      grind
    · unfold assistantEvent at sent
      grind

theorem userEvent_result (type : b.type = "tool_result") : userEvent b.decoded =
    some (.genericToolCallFinished "tool_result" (some (b.str "tool_use_id"))
      (b.decoded.content.map renderJsonValue) true) := by
  rw [userEvent, if_pos (show b.decoded.type = "tool_result" from type), Block.toolUseId_decoded type]

theorem userEvent_other (type : b.type ≠ "tool_result") : userEvent b.decoded = none :=
  if_neg type

namespace Message

/-- The message is one of blocks, with words and calls from the assistant and results from the user, and no
    result of a call that failed. -/
structure Plain (m : Message) : Prop where
  noText : ¬ m.HasText
  placed : ∀ b ∈ m.blocks, b.shows → (b.type = "tool_result" ↔ m.type = "user")
  succeeded : ∀ b ∈ m.blocks, b.type = "tool_result" → ¬ b.isError

variable {m : Message}

theorem shows_of_event {event : DomainEvent} (sent : m.event b = some event) : b.shows := by
  unfold Message.event at sent
  split at sent
  · exact (assistantEvent_other sent).1
  · by_cases result : b.type = "tool_result"
    · exact Block.shows_iff.mpr (.inr (.inr result))
    · rw [userEvent_other result] at sent
      cases sent

theorem event_shownAs_iff (speaks : m.type = "assistant" ∨ m.type = "user") (due : b.shows) :
    (∃ event, m.event b = some event ∧ b.ShownAs event) ↔
      (b.type = "tool_result" ↔ m.type = "user") ∧ (b.type = "tool_result" → ¬ b.isError) := by
  rcases speaks with speaks | speaks
  · rw [Message.event, if_pos speaks]
    have notUser : m.type ≠ "user" := by rw [speaks]; decide
    constructor
    · rintro ⟨event, sent, -⟩
      have other := (assistantEvent_other sent).2
      exact ⟨iff_of_false other notUser, fun result => absurd result other⟩
    · rintro ⟨placed, -⟩
      have other : b.type ≠ "tool_result" := mt placed.mp notUser
      rcases Block.shows_iff.mp due with ⟨type | type, words⟩ | type | type
      · exact ⟨_, (assistantEvent_text type).trans (if_pos words), by simp only [Block.ShownAs, type]⟩
      · exact ⟨_, (assistantEvent_thinking type).trans (if_pos words), by simp only [Block.ShownAs, type]⟩
      · exact assistantEvent_toolUse type
      · exact absurd type other
  · have notAssistant : m.type ≠ "assistant" := by rw [speaks]; decide
    rw [Message.event, if_neg notAssistant]
    by_cases result : b.type = "tool_result"
    · rw [userEvent_result result]
      simp [Block.ShownAs, result, speaks]
    · rw [userEvent_other result]
      simp [result, speaks]

end Message

/-- A stream is translated exactly if all of its messages are plain. -/
theorem translates_iff {lines : List String} {messages : List Message} (written : Written lines messages) :
    Translates lines messages ↔ ∀ m ∈ messages, m.Plain := by
  let pairs := messages.flatMap fun m => m.blocks.map fun b => (m, b)
  have blocks : messages.flatMap Message.blocks = pairs.map Prod.snd := by
    simp [pairs, List.map_flatMap, Function.comp_def]
  have events : (messages.flatMap fun m => m.blocks.filterMap m.event) =
      pairs.filterMap fun pair => pair.1.event pair.2 := by
    simp [pairs, List.filterMap_flatMap, List.filterMap_map]
  have member (m : Message) (b : Block) : (m, b) ∈ pairs ↔ m ∈ messages ∧ b ∈ m.blocks := by
    simp [pairs]
  have aligned (noText : ∀ m ∈ messages, ¬ m.HasText) :
      List.Forall₂ Block.ShownAs ((messages.flatMap Message.blocks).filter Block.shows)
        ((readStdout lines).1.filter isBlockEvent) ↔ ∀ m ∈ messages, ∀ b ∈ m.blocks, b.shows →
          (b.type = "tool_result" ↔ m.type = "user") ∧ (b.type = "tool_result" → ¬ b.isError) := by
    rw [(readStdout_blocks written noText).2, blocks, events, List.filter_map, List.forall₂_map_left_iff,
      forall₂_filterMap_iff (p := Block.shows ∘ Prod.snd) fun _ _ => Message.shows_of_event]
    constructor
    · intro each m inside b here due
      exact (Message.event_shownAs_iff (Message.type_of_mem_blocks here) due).mp
        (each (m, b) ((member m b).mpr ⟨inside, here⟩) due)
    · rintro each ⟨m, b⟩ inside due
      obtain ⟨inside, here⟩ := (member m b).mp inside
      exact (Message.event_shownAs_iff (Message.type_of_mem_blocks here) due).mpr (each m inside b here due)
  constructor
  · rintro ⟨done, shown⟩ m inside
    have noText := readStdout_text written done
    have each := (aligned noText).mp shown m inside
    refine ⟨noText m inside, fun b here due => (each b here due).1, fun b here result => ?_⟩
    exact (each b here (Block.shows_iff.mpr (.inr (.inr result)))).2 result
  · intro plain
    have noText (m : Message) (inside : m ∈ messages) := (plain m inside).noText
    refine ⟨(readStdout_blocks written noText).1, (aligned noText).mpr fun m inside b here due => ?_⟩
    exact ⟨(plain m inside).placed b here due, (plain m inside).succeeded b here⟩

end

/-! A call is answered, once well and once with an error. -/

def greeting : Block where
  object := ⟨[("type", .string "text"), ("text", .string "Reading it.")], by simp⟩
  type := "text"
  typed := rfl
  texts := fun _ _ => Fields.reads_of_forall (by simp [asStr])
  answers := by decide

def answer (failed : Bool) : Block where
  object := ⟨[("type", .string "tool_result"), ("tool_use_id", .string "call_1"), ("is_error", .bool failed)],
    by simp⟩
  type := "tool_result"
  typed := rfl
  texts := fun key member => Fields.reads_of_forall (by
    have other : "is_error" ≠ key := by
      rintro rfl
      simp at member
    simp [asStr, other])
  answers := fun _ => rfl

def spoken (type : String) (speaks : type = "assistant" ∨ type = "user") (b : Block) : Message where
  object := ⟨[("type", .string type), ("message", .object [("content", .array [b.object.json])])], by simp⟩
  type := type
  typed := rfl
  texts := fun key member => Fields.reads_of_forall (by
    have others : "type" ≠ key ∧ "message" ≠ key := by
      constructor <;>
        · rintro rfl
          simp at member
    simp [others])
  flag := Fields.reads_of_forall (by simp)
  log := fun v found => by
    have inside := Fields.mem_of_get? found
    simp at inside
  payload := some ⟨⟨[("content", .array [b.object.json])], by simp⟩, .blocks [b], rfl⟩
  carries := iff_of_true rfl speaks
  holds := fun p said => by
    cases Option.mem_some.mp said
    rfl

def greetingLine : String :=
  "\x7b\"type\":\"assistant\",\"message\":\x7b\"content\":" ++
    "[\x7b\"type\":\"text\",\"text\":\"Reading it.\"\x7d]\x7d\x7d"

def answerLine (failed : Bool) : String :=
  "\x7b\"type\":\"user\",\"message\":\x7b\"content\":[\x7b\"type\":\"tool_result\",\"tool_use_id\":\"call_1\"," ++
    "\"is_error\":" ++ toString failed ++ "\x7d]\x7d\x7d"

def greets : Message := spoken "assistant" (.inl rfl) greeting

def answers (failed : Bool) : Message := spoken "user" (.inr rfl) (answer failed)

/-- `serde_json` on the lines above. -/
@[reducible] def sampleJson : JsonText where
  toString _ := none
  fromStr text := [(greetingLine, greets.object.json), (answerLine false, (answers false).object.json),
    (answerLine true, (answers true).object.json)].lookup text

theorem sample_written (failed : Bool) :
    @Written sampleJson [greetingLine, "", answerLine failed] [greets, answers failed] := by
  have kept : [greetingLine, "", answerLine failed].filter (fun line => trim line ≠ "") =
      [greetingLine, answerLine failed] := by
    cases failed <;> decide +kernel
  unfold Written
  rw [kept]
  refine .cons ?_ (.cons ?_ .nil)
  · rw [show trim greetingLine = greetingLine by decide +kernel]
    exact List.lookup_cons_self
  · rw [show trim (answerLine failed) = answerLine failed by cases failed <;> decide +kernel]
    cases failed <;> rfl

theorem spoken_noText {type : String} (speaks : type = "assistant" ∨ type = "user") (b : Block) :
    ¬ (spoken type speaks b).HasText := by
  rintro ⟨p, said, words, content⟩
  cases said
  cases content

theorem answer_plain : (answers false).Plain where
  noText := spoken_noText _ _
  placed := by
    intro b member _
    cases List.mem_singleton.mp member
    exact iff_of_true rfl rfl
  succeeded := by
    intro b member _ failed
    cases List.mem_singleton.mp member
    cases failed

theorem greeting_plain : greets.Plain where
  noText := spoken_noText _ _
  placed := by
    intro b member _
    cases List.mem_singleton.mp member
    decide
  succeeded := by
    intro b member result
    cases List.mem_singleton.mp member
    exact absurd result (by decide)

theorem greeting_translated :
    @Translates sampleJson [greetingLine, "", answerLine false] [greets, answers false] :=
  (@translates_iff sampleJson _ _ (sample_written false)).mpr
    (List.forall_mem_cons.mpr ⟨greeting_plain, List.forall_mem_singleton.mpr answer_plain⟩)

/-- The answer that failed is told as one that did not. -/
theorem failed_answer_succeeds : ¬ ∀ [JsonText] (lines : List String) (messages : List Message),
    Written lines messages → Translates lines messages := by
  intro always
  have written := sample_written true
  obtain ⟨-, shown⟩ := @always sampleJson _ _ written
  have noText : ∀ m ∈ [greets, answers true], ¬ m.HasText :=
    List.forall_mem_cons.mpr ⟨spoken_noText _ _, List.forall_mem_singleton.mpr (spoken_noText _ _)⟩
  rw [(@readStdout_blocks sampleJson _ _ written noText).2] at shown
  cases shown with
  | cons _ rest => cases rest with
    | cons shown _ =>
        obtain ⟨_, _, _, _, _, same, success⟩ := shown
        cases same
        exact absurd (success.mpr rfl) (by decide)

end AgileAgent.Provider.Claude
