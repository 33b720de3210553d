import AgileAgent.RuntimeDomain.DomainEvent

/-! # The transcript journal

Chunks of the assistant are merged into one entry, and the end of a tool call completes the
entry of its start when that is the last one and not successful yet.
-/

namespace AgileAgent.RuntimeDomain

inductive JournalEntry where
  | userInput (text : String)
  | assistantResponse (text : String)
  | toolCall (name : String) (input : Option String) (success : Bool) (output : Option String)
  | systemEvent (event : DomainEvent)
  deriving Repr, DecidableEq

structure TranscriptJournal where
  entries : List JournalEntry := []
  nextSeq : Nat := 0
  deriving Repr, DecidableEq

namespace TranscriptJournal

def push (j : TranscriptJournal) (entry : JournalEntry) : TranscriptJournal :=
  ⟨j.entries ++ [entry], j.nextSeq + 1⟩

def replaceLast (j : TranscriptJournal) (entry : JournalEntry) : TranscriptJournal :=
  ⟨j.entries.dropLast ++ [entry], j.nextSeq + 1⟩

/-- Complete an open call of this name in the last entry, or add a call without a start.
    `output` gets the one of the start. -/
def finishCall (j : TranscriptJournal) (name : String) (success : Bool)
    (output : Option String → Option String) : TranscriptJournal :=
  match j.entries.getLast? with
  | some (.toolCall open_ input false before) =>
      if open_ = name then j.replaceLast (.toolCall name input success (output before))
      else j.push (.toolCall name none success (output none))
  | _ => j.push (.toolCall name none success (output none))

def append (j : TranscriptJournal) (event : DomainEvent) : TranscriptJournal :=
  match event with
  | .assistantChunk text =>
      match j.entries.getLast? with
      | some (.assistantResponse before) => j.replaceLast (.assistantResponse (before ++ text))
      | _ => j.push (.assistantResponse text)
  | .execCommandStarted _ inputPreview _ => j.push (.toolCall "exec" inputPreview false none)
  | .execCommandFinished _ outputPreview status _ _ _ =>
      j.finishCall "exec" (status == .completed) fun _ => outputPreview
  | .genericToolCallStarted name _ inputPreview => j.push (.toolCall name inputPreview false none)
  | .genericToolCallFinished name _ outputPreview success _ _ =>
      j.finishCall name success fun _ => outputPreview
  | .mcpToolCallStarted _ => j.push (.toolCall "mcp" none false none)
  | .mcpToolCallFinished _ error _ _ => j.finishCall "mcp" error.isNone fun _ => error
  | .patchApplyStarted _ => j.push (.toolCall "patch" none false none)
  | .patchApplyFinished _ status => j.finishCall "patch" (status == .completed) id
  | .webSearchStarted _ query => j.push (.toolCall "websearch" (some query) false none)
  | .webSearchFinished _ _ => j.finishCall "websearch" true id
  | event => j.push (.systemEvent event)

end TranscriptJournal

end AgileAgent.RuntimeDomain
