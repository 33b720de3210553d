import AgileAgent.RuntimeDomain.TranscriptJournal
import AgileAgent.RuntimeDomain.Stream

/-! # Tool calls in the journal

The journal has no call ids: the end of a call completes the last entry when that is a call
of the same name that is not successful, and is an entry of its own otherwise. Which streams
of calls it tells apart is what this module is about.
-/

namespace AgileAgent.RuntimeDomain

namespace DomainEvent

/-- The call that an event ends, with the name of the tool. -/
def endedCall : DomainEvent → Option (ToolCall × String)
  | .execCommandFinished callId .. => some ((.exec, callId), "exec")
  | .genericToolCallFinished name callId .. => some ((.generic, callId), name)
  | .webSearchFinished callId _ => some ((.webSearch, callId), "websearch")
  | .mcpToolCallFinished callId _ _ _ => some ((.mcp, callId), "mcp")
  | .patchApplyFinished callId _ => some ((.patch, callId), "patch")
  | _ => none

def input : DomainEvent → Option String
  | .execCommandStarted _ inputPreview _ => inputPreview
  | .genericToolCallStarted _ _ inputPreview => inputPreview
  | .webSearchStarted _ query => some query
  | _ => none

/-- Whether the call that an event ends succeeded. An MCP call that fails says so by the text
    of an error or by its flag. -/
def succeeded : DomainEvent → Bool
  | .execCommandFinished _ _ outcome _ _ _ => outcome == .completed
  | .genericToolCallFinished _ _ _ success _ _ => success
  | .webSearchFinished _ _ => true
  | .mcpToolCallFinished _ fault _ isError => fault.isNone && !isError
  | .patchApplyFinished _ outcome => outcome == .completed
  | _ => false

def output : DomainEvent → Option String
  | .execCommandFinished _ outputPreview _ _ _ _ => outputPreview
  | .genericToolCallFinished _ _ outputPreview _ _ _ => outputPreview
  | .mcpToolCallFinished _ fault _ _ => fault
  | _ => none

/-- The success that the journal writes down for the end of a call. -/
def marked : DomainEvent → Bool
  | .mcpToolCallFinished _ fault _ _ => fault.isNone
  | e => e.succeeded

/-- What the end of a call makes of the output in the entry that it completes. -/
def outputAfter : DomainEvent → Option String → Option String
  | .webSearchFinished _ _, before | .patchApplyFinished _ _, before => before
  | e, _ => e.output

end DomainEvent

open DomainEvent

/-- The start of a call. -/
structure Opening where
  call : ToolCall
  name : String
  input : Option String
  deriving Repr, DecidableEq

def DomainEvent.opening (e : DomainEvent) : Option Opening :=
  e.startedCall.map fun started => ⟨started.1, started.2, e.input⟩

def openings (events : List DomainEvent) : List Opening := events.filterMap opening

/-- Every call starts once and ends once, later. -/
structure Paired (events : List DomainEvent) : Prop where
  starts : ((openings events).map Opening.call).Nodup
  ends : (events.filterMap finishedCall).Nodup
  later : ∀ front e back, events = front ++ e :: back → ∀ call, e.finishedCall = some call →
    call ∈ (openings front).map Opening.call
  ended : ∀ call ∈ (openings events).map Opening.call, call ∈ events.filterMap finishedCall

theorem forall_split_iff {α : Type} {l : List α} {P : List α → α → Prop} :
    (∀ front x back, l = front ++ x :: back → P front x) ↔ ∀ i : Fin l.length, P (l.take i) (l.get i) := by
  constructor
  · intro all i
    exact all (l.take i) (l.get i) (l.drop (i + 1)) (by simp)
  · rintro all front x back rfl
    simpa using all ⟨front.length, by simp⟩

instance : DecidablePred Paired := fun events =>
  decidable_of_iff (((openings events).map Opening.call).Nodup ∧
      (events.filterMap finishedCall).Nodup ∧
      (∀ i : Fin events.length, ∀ call ∈ (events.get i).finishedCall.toList,
        call ∈ (openings (events.take i)).map Opening.call) ∧
      ∀ call ∈ (openings events).map Opening.call, call ∈ events.filterMap finishedCall)
    ⟨fun h => ⟨h.1, h.2.1, forall_split_iff.mpr (by simpa using h.2.2.1), h.2.2.2⟩,
      fun h => ⟨h.starts, h.ends, by simpa using forall_split_iff.mp h.later, h.ended⟩⟩

def endOf (events : List DomainEvent) (call : ToolCall) : Option DomainEvent :=
  events.find? fun e => e.finishedCall = some call

/-- The entry of a call: its input, and the success and output of its own end. -/
def record (events : List DomainEvent) (o : Opening) : JournalEntry :=
  match endOf events o.call with
  | some e => .toolCall o.name o.input e.succeeded e.output
  | none => .toolCall o.name o.input false none

def ledger (events : List DomainEvent) : List JournalEntry :=
  (openings events).map (record events)

namespace JournalEntry

def isToolCall : JournalEntry → Bool
  | .toolCall _ _ _ _ => true
  | _ => false

/-- A call of this name whose entry the end of a call would complete. -/
def Pending (name : String) (entry : JournalEntry) : Prop :=
  ∃ input before, entry = .toolCall name input false before

end JournalEntry

namespace TranscriptJournal

def toolCalls (j : TranscriptJournal) : List JournalEntry :=
  j.entries.filter JournalEntry.isToolCall

/-- The last entry, when it is a tool call. -/
def lastCall (j : TranscriptJournal) : Option JournalEntry :=
  j.entries.getLast?.filter JournalEntry.isToolCall

end TranscriptJournal

def journal (events : List DomainEvent) : TranscriptJournal :=
  events.foldl TranscriptJournal.append {}

/-- The journal holds one entry for each call, with the call's input and result, and an entry
    whose call has ended never changes again. -/
structure Faithful (events : List DomainEvent) : Prop where
  entries : (journal events).toolCalls = ledger events
  kept : ∀ front back, events = front ++ back → ∀ (i : Nat) o, (openings front)[i]? = some o →
    (endOf front o.call).isSome → (journal front).toolCalls[i]? = (journal events).toolCalls[i]?

/-- The last event that ends no call. -/
def latest (events : List DomainEvent) : Option DomainEvent :=
  events.reverse.find? fun e => e.finishedCall.isNone

/-- `e` ends the call that started last, with nothing but ends of calls since. Or it ends
    another one that failed without output, and does not change what is known of the one that
    started last. -/
def EndsInPlace (front : List DomainEvent) (e : DomainEvent) : Prop :=
  ∃ call name start owner, e.endedCall = some (call, name) ∧ latest front = some start ∧
    start.startedCall = some (owner, name) ∧
    (owner = call ∨ e.succeeded = false ∧ e.output = none ∧ ∀ last, endOf front owner = some last →
      last.succeeded = false ∧ e.outputAfter last.output = last.output)

/-- No MCP call fails without the text of an error, and every end is in its place. -/
def Separate (events : List DomainEvent) : Prop :=
  ∀ front e back, events = front ++ e :: back → e.finishedCall.isSome →
    e.marked = e.succeeded ∧ EndsInPlace front e

theorem DomainEvent.finishedCall_eq (e : DomainEvent) :
    e.finishedCall = e.endedCall.map Prod.fst := by
  cases e <;> rfl

theorem DomainEvent.opening_of_ended {e : DomainEvent} (ends : e.finishedCall.isSome) :
    e.opening = none := by
  cases e <;> simp [finishedCall, opening, startedCall] at ends ⊢

theorem DomainEvent.marked_of_succeeded {e : DomainEvent} (succeeded : e.succeeded = true) :
    e.marked = true := by
  cases e <;> simp_all [DomainEvent.succeeded, marked]

theorem DomainEvent.outputAfter_none (e : DomainEvent) : e.outputAfter none = e.output := by
  cases e <;> rfl

@[simp] theorem openings_append (front back : List DomainEvent) :
    openings (front ++ back) = openings front ++ openings back := List.filterMap_append

theorem openings_append_of_some {front : List DomainEvent} (back : List DomainEvent) {i : Nat}
    {o : Opening} (found : (openings front)[i]? = some o) :
    (openings (front ++ back))[i]? = some o := by
  rw [openings_append]
  exact (List.getElem?_append_left (List.getElem?_eq_some_iff.mp found).1).trans found

@[simp] theorem openings_singleton (e : DomainEvent) : openings [e] = e.opening.toList := by
  cases started : e.opening <;> simp [openings, started]

theorem openings_of_ends {events : List DomainEvent}
    (ends : ∀ e ∈ events, e.finishedCall.isSome) : openings events = [] := by
  simpa [openings] using fun e member => opening_of_ended (ends e member)

theorem endOf_append (front back : List DomainEvent) (call : ToolCall) :
    endOf (front ++ back) call = (endOf front call).or (endOf back call) := List.find?_append

theorem endOf_snoc_of_ne {front : List DomainEvent} {e : DomainEvent} {call : ToolCall}
    (other : e.finishedCall ≠ some call) : endOf (front ++ [e]) call = endOf front call := by
  simp [endOf, other]

theorem endOf_eq_none {events : List DomainEvent} {call : ToolCall} :
    endOf events call = none ↔ call ∉ events.filterMap finishedCall := by
  simp [endOf]

theorem record_append {front : List DomainEvent} (back : List DomainEvent) {o : Opening}
    (ended : (endOf front o.call).isSome) : record (front ++ back) o = record front o := by
  obtain ⟨e, found⟩ := Option.isSome_iff_exists.mp ended
  simp [record, endOf_append, found]

theorem record_snoc_of_ne {front : List DomainEvent} {e : DomainEvent} {o : Opening}
    (other : e.finishedCall ≠ some o.call) : record (front ++ [e]) o = record front o := by
  simp only [record, endOf_snoc_of_ne other]

/-! ## One event -/

namespace TranscriptJournal

theorem toolCalls_push (j : TranscriptJournal) (entry : JournalEntry) :
    (j.push entry).toolCalls = j.toolCalls ++ [entry].filter JournalEntry.isToolCall :=
  List.filter_append ..

theorem lastCall_push (j : TranscriptJournal) (entry : JournalEntry) :
    (j.push entry).lastCall = (some entry).filter JournalEntry.isToolCall := by
  simp [push, lastCall]

theorem toolCalls_getLast (j : TranscriptJournal) {entry : JournalEntry}
    (last : j.lastCall = some entry) : ∃ earlier, j.toolCalls = earlier ++ [entry] ∧
      ∀ next : JournalEntry, next.isToolCall → (j.replaceLast next).toolCalls = earlier ++ [next] := by
  obtain ⟨found, isCall⟩ := Option.filter_eq_some_iff.mp last
  obtain ⟨earlier, split⟩ := List.getLast?_eq_some_iff.mp found
  refine ⟨earlier.filter JournalEntry.isToolCall, ?_, fun next nextCall => ?_⟩
  · simp [toolCalls, split, isCall]
  · simp [toolCalls, replaceLast, split, nextCall]

theorem append_ended (j : TranscriptJournal) {e : DomainEvent} {call : ToolCall} {name : String}
    (ends : e.endedCall = some (call, name)) :
    j.append e = j.finishCall name e.marked e.outputAfter := by
  cases e <;> simp [endedCall] at ends <;> simp [append, marked, succeeded, ends.2] <;> rfl

theorem finishCall_pending (j : TranscriptJournal) {name : String} {input before : Option String}
    (last : j.lastCall = some (.toolCall name input false before)) (success : Bool)
    (output : Option String → Option String) :
    j.finishCall name success output = j.replaceLast (.toolCall name input success (output before)) := by
  obtain ⟨found, -⟩ := Option.filter_eq_some_iff.mp last
  simp [finishCall, found]

theorem finishCall_not_pending (j : TranscriptJournal) {name : String}
    (closed : ∀ entry, j.lastCall = some entry → ¬ entry.Pending name) (success : Bool)
    (output : Option String → Option String) :
    j.finishCall name success output = j.push (.toolCall name none success (output none)) := by
  unfold finishCall
  split
  · rename_i opened input before found
    have differ : opened ≠ name := by
      rintro rfl
      exact closed _ (by simp [lastCall, found, JournalEntry.isToolCall]) ⟨input, before, rfl⟩
    simp [differ]
  · rfl

/-- Any other event keeps the calls that are there, and a start adds its own. -/
theorem append_other (j : TranscriptJournal) {e : DomainEvent} (other : e.finishedCall = none) :
    (j.append e).toolCalls = j.toolCalls ++ (e.opening.map (record [])).toList ∧
      (j.append e).lastCall = e.opening.map (record []) := by
  cases e with
  | assistantChunk text =>
      simp only [append, opening, startedCall]
      split
      · rename_i before found
        obtain ⟨earlier, split⟩ := List.getLast?_eq_some_iff.mp found
        simp [toolCalls, lastCall, replaceLast, split, JournalEntry.isToolCall]
      · simp [toolCalls_push, lastCall_push, JournalEntry.isToolCall]
  | execCommandFinished | genericToolCallFinished | webSearchFinished | mcpToolCallFinished
  | patchApplyFinished => simp [finishedCall] at other
  | _ => simp [append, opening, startedCall, DomainEvent.input, record, endOf, toolCalls_push,
      lastCall_push, JournalEntry.isToolCall]

/-- No event takes a call away. -/
theorem length_append (j : TranscriptJournal) (e : DomainEvent) :
    j.toolCalls.length + (openings [e]).length ≤ (j.append e).toolCalls.length := by
  cases ends : e.endedCall with
  | none =>
      have other : e.finishedCall = none := by simp [finishedCall_eq, ends]
      rw [(j.append_other other).1]
      cases started : e.opening <;> simp [started]
  | some ended =>
      have opens : openings [e] = [] :=
        openings_of_ends (by simp [finishedCall_eq, ends])
      have step : j.append e = j.finishCall ended.2 e.marked e.outputAfter := j.append_ended ends
      rw [opens, step]
      by_cases pending : ∃ entry, j.lastCall = some entry ∧ entry.Pending ended.2
      · obtain ⟨entry, last, input, before, rfl⟩ := pending
        obtain ⟨earlier, before, after⟩ := j.toolCalls_getLast last
        rw [j.finishCall_pending last, after _ rfl, before]
        simp
      · have closed : ∀ entry, j.lastCall = some entry → ¬ entry.Pending ended.2 := by
          simpa using pending
        simp [j.finishCall_not_pending closed, toolCalls_push]

/-- The end of a call that adds none completes a pending one. -/
theorem pending_of_length (j : TranscriptJournal) {e : DomainEvent} {call : ToolCall} {name : String}
    (ends : e.endedCall = some (call, name)) (short : (j.append e).toolCalls.length ≤ j.toolCalls.length) :
    ∃ input before, j.lastCall = some (.toolCall name input false before) := by
  by_contra absent
  have closed : ∀ entry, j.lastCall = some entry → ¬ entry.Pending name := by
    rintro entry last ⟨input, before, rfl⟩
    exact absent ⟨input, before, last⟩
  have added : (j.append e).toolCalls.length = j.toolCalls.length + 1 := by
    rw [j.append_ended ends, j.finishCall_not_pending closed, toolCalls_push, List.length_append]
    rfl
  omega

end TranscriptJournal

/-! ## Streams of paired calls -/

theorem journal_append (front back : List DomainEvent) :
    journal (front ++ back) = back.foldl TranscriptJournal.append (journal front) := List.foldl_append

theorem journal_snoc (front : List DomainEvent) (e : DomainEvent) :
    journal (front ++ [e]) = (journal front).append e := journal_append front [e]

theorem length_journal (front back : List DomainEvent) :
    (journal front).toolCalls.length + (openings back).length ≤
      (journal (front ++ back)).toolCalls.length := by
  induction back using List.reverseRecOn with
  | nil => simp [openings]
  | append_singleton back e ih =>
      have step := (journal (front ++ back)).length_append e
      rw [← List.append_assoc, journal_snoc, openings_append, List.length_append]
      omega

theorem latest_snoc (front : List DomainEvent) (e : DomainEvent) :
    latest (front ++ [e]) = if e.finishedCall.isNone then some e else latest front := by
  cases ends : e.finishedCall <;> simp [latest, ends]

theorem openings_of_latest {front : List DomainEvent} {o : Opening}
    (last : (latest front).bind opening = some o) : ∃ earlier, openings front = earlier ++ [o] := by
  induction front using List.reverseRecOn with
  | nil => simp [latest] at last
  | append_singleton front e ih =>
      rw [latest_snoc] at last
      cases ends : e.finishedCall with
      | none =>
          have started : e.opening = some o := by simpa [ends] using last
          exact ⟨openings front, by simp [started]⟩
      | some call =>
          have closed : e.opening = none := opening_of_ended (by simp [ends])
          obtain ⟨earlier, split⟩ := ih (by simpa [ends] using last)
          exact ⟨earlier, by simp [split, closed]⟩

namespace Paired

/-- A call has not ended before it starts. -/
theorem fresh {front back : List DomainEvent} {e : DomainEvent} {o : Opening}
    (paired : Paired (front ++ e :: back)) (started : e.opening = some o) :
    endOf front o.call = none := by
  rw [endOf_eq_none]
  intro ended
  obtain ⟨x, member, ends⟩ := List.mem_filterMap.mp ended
  obtain ⟨before, after, rfl⟩ := List.append_of_mem member
  have begun := paired.later before x (after ++ e :: back) (by simp) o.call ends
  have distinct := paired.starts
  simp only [openings_append, List.map_append, List.nodup_append] at distinct
  refine distinct.2.2 o.call (List.mem_append_left _ begun) o.call ?_ rfl
  rw [← List.singleton_append, openings_append]
  simp [started]

/-- A call has not ended before it ends. -/
theorem unended {front back : List DomainEvent} {e : DomainEvent} {call : ToolCall}
    (paired : Paired (front ++ e :: back)) (ends : e.finishedCall = some call) :
    endOf front call = none := by
  rw [endOf_eq_none]
  have distinct := paired.ends
  rw [List.filterMap_append, List.filterMap_cons_some ends, List.nodup_append] at distinct
  intro ended
  exact distinct.2.2 call ended call (by simp) rfl

theorem differ {front back : List DomainEvent} {earlier : List Opening} {o : Opening}
    (paired : Paired (front ++ back)) (split : openings front = earlier ++ [o]) :
    ∀ x ∈ earlier, x.call ≠ o.call := by
  have distinct := paired.starts
  simp only [openings_append, split, List.map_append, List.nodup_append] at distinct
  exact fun x member => distinct.1.2.2 x.call (List.mem_map_of_mem member) o.call (by simp)

theorem index {events : List DomainEvent} (paired : Paired events) {i j : Nat} {o p : Opening}
    (at_i : (openings events)[i]? = some o) (at_j : (openings events)[j]? = some p)
    (same : o.call = p.call) : i = j := by
  have inside : i < ((openings events).map Opening.call).length := by
    simpa using (List.getElem?_eq_some_iff.mp at_i).1
  rw [← List.getElem?_inj inside paired.starts]
  simp [at_i, at_j, same]

end Paired

theorem record_eq_blank {events : List DomainEvent} {o : Opening} (unended : endOf events o.call = none) :
    record events o = .toolCall o.name o.input false none := by
  simp only [record, unended]

theorem record_of_last {front : List DomainEvent} {e : DomainEvent} {o : Opening}
    (unended : endOf front o.call = none) (ends : e.finishedCall = some o.call) :
    record (front ++ [e]) o = .toolCall o.name o.input e.succeeded e.output := by
  have found : endOf (front ++ [e]) o.call = some e := by
    rw [endOf_append, unended]
    simp [endOf, ends]
  simp only [record, found]

/-- The journal so far is the ledger so far, and its last entry is the call that started last
    as long as nothing but ends follows. -/
structure Tracked (front : List DomainEvent) : Prop where
  entries : (journal front).toolCalls = ledger front
  last : (journal front).lastCall = ((latest front).bind opening).map (record front)

theorem Tracked.other {front back : List DomainEvent} {e : DomainEvent}
    (paired : Paired (front ++ e :: back)) (other : e.finishedCall = none) (tracked : Tracked front) :
    Tracked (front ++ [e]) := by
  obtain ⟨entries, last⟩ := (journal front).append_other other
  have kept : (openings front).map (record (front ++ [e])) = ledger front :=
    List.map_congr_left fun o _ => record_snoc_of_ne (by simp [other])
  have added : e.opening.map (record (front ++ [e])) = e.opening.map (record []) := by
    cases started : e.opening with
    | none => rfl
    | some o =>
        have blank : record front o = record [] o := by
          rw [record_eq_blank (paired.fresh started), record_eq_blank rfl]
        simp only [Option.map_some, record_snoc_of_ne (o := o) (by simp [other] : e.finishedCall ≠ _), blank]
  constructor
  · rw [journal_snoc, entries, tracked.entries, ← kept, ← added]
    cases started : e.opening <;> simp [ledger, started]
  · rw [journal_snoc, last, latest_snoc]
    simp [other, added]

/-- What an end in its place finds in the last entry, and what it leaves everywhere. -/
theorem EndsInPlace.completes {front back : List DomainEvent} {e : DomainEvent}
    (paired : Paired (front ++ e :: back)) (inPlace : EndsInPlace front e) :
    ∃ call o earlier before, e.endedCall = some (call, o.name) ∧ (latest front).bind opening = some o ∧
      openings front = earlier ++ [o] ∧ record front o = .toolCall o.name o.input false before ∧
      record (front ++ [e]) o = .toolCall o.name o.input e.succeeded (e.outputAfter before) ∧
      ∀ x ∈ earlier, record (front ++ [e]) x = record front x := by
  obtain ⟨call, name, start, owner, ended, last, started, owns⟩ := inPlace
  have ends : e.finishedCall = some call := by simp [finishedCall_eq, ended]
  have unended := paired.unended ends
  have opened : (latest front).bind opening = some ⟨owner, name, start.input⟩ := by
    simp [last, opening, started]
  obtain ⟨earlier, split⟩ := openings_of_latest opened
  by_cases own : owner = call
  · subst own
    refine ⟨owner, ⟨owner, name, start.input⟩, earlier, none, ended, opened, split,
      record_eq_blank unended, ?_, ?_⟩
    · rw [record_of_last unended ends, outputAfter_none]
    · intro x member
      exact record_snoc_of_ne (by simpa [ends] using (paired.differ split x member).symm)
  · obtain ⟨failed, silent, quiet⟩ := owns.resolve_left own
    have others : ∀ x : Opening, record (front ++ [e]) x = record front x := by
      intro x
      by_cases same : x.call = call
      · subst same
        rw [record_of_last unended ends, record_eq_blank unended, failed, silent]
      · exact record_snoc_of_ne (by simpa [ends] using Ne.symm same)
    cases found : endOf front owner with
    | none =>
        refine ⟨call, ⟨owner, name, start.input⟩, earlier, none, ended, opened, split,
          record_eq_blank found, ?_, fun x _ => others x⟩
        rw [others, record_eq_blank found, outputAfter_none, failed, silent]
    | some last =>
        obtain ⟨unsuccessful, same⟩ := quiet last found
        refine ⟨call, ⟨owner, name, start.input⟩, earlier, last.output, ended, opened, split,
          ?_, ?_, fun x _ => others x⟩
        · simp only [record, found, unsuccessful]
        · simp only [others]
          simp only [record, found, unsuccessful, failed, same]

theorem Tracked.ended {front back : List DomainEvent} {e : DomainEvent}
    (paired : Paired (front ++ e :: back)) (candid : e.marked = e.succeeded)
    (inPlace : EndsInPlace front e) (tracked : Tracked front) : Tracked (front ++ [e]) := by
  obtain ⟨call, o, earlier, before, ended, opened, split, now, next, others⟩ :=
    inPlace.completes paired
  have ends : e.finishedCall = some call := by simp [finishedCall_eq, ended]
  have closed : openings [e] = [] := openings_of_ends (by simp [ends])
  have last : (journal front).lastCall = some (.toolCall o.name o.input false before) := by
    rw [tracked.last, opened, ← now]
    rfl
  obtain ⟨rest, entries, replaced⟩ := (journal front).toolCalls_getLast last
  have step : journal (front ++ [e]) = (journal front).replaceLast (record (front ++ [e]) o) := by
    rw [journal_snoc, TranscriptJournal.append_ended _ ended,
      TranscriptJournal.finishCall_pending _ last, next, candid]
  have kept : rest = earlier.map (record front) := by
    have both := entries.symm.trans tracked.entries
    rw [ledger, split, List.map_append] at both
    exact (List.append_inj' both rfl).1
  constructor
  · rw [step, replaced _ (by rw [next]; rfl), kept, ledger, openings_append, closed, split,
      List.append_nil, List.map_append, List.map_congr_left others]
    rfl
  · rw [step, latest_snoc]
    simp [ends, opened, TranscriptJournal.lastCall, TranscriptJournal.replaceLast, next,
      JournalEntry.isToolCall]

theorem Separate.tracked {events : List DomainEvent} (paired : Paired events)
    (separate : Separate events) (front back : List DomainEvent) (split : events = front ++ back) :
    Tracked front := by
  induction front using List.reverseRecOn generalizing back with
  | nil => exact ⟨rfl, rfl⟩
  | append_singleton front e ih =>
      have split' : events = front ++ e :: back := by simpa using split
      have tracked := ih (e :: back) split'
      rw [split'] at paired
      cases ends : e.finishedCall with
      | none => exact tracked.other paired ends
      | some call =>
          obtain ⟨candid, inPlace⟩ := separate front e back split' (by simp [ends])
          exact tracked.ended paired candid inPlace

theorem Separate.faithful {events : List DomainEvent} (paired : Paired events)
    (separate : Separate events) : Faithful events := by
  have entries : (journal events).toolCalls = ledger events :=
    (separate.tracked paired events [] (by simp)).entries
  refine ⟨entries, ?_⟩
  intro front back split i o found ended
  have later : (openings events)[i]? = some o := split ▸ openings_append_of_some back found
  rw [entries, (separate.tracked paired front back split).entries, ledger, ledger, List.getElem?_map,
    List.getElem?_map, found, later, Option.map_some, Option.map_some, split, record_append back ended]

/-! ## What a faithful journal asks for -/

namespace Faithful

variable {events front back : List DomainEvent} {e : DomainEvent} {call : ToolCall} {name : String}

theorem length (faithful : Faithful events) (split : events = front ++ back) :
    (journal front).toolCalls.length = (openings front).length := by
  have before := length_journal [] front
  have after := length_journal front back
  have whole : (journal events).toolCalls.length = (openings events).length := by
    rw [faithful.entries, ledger, List.length_map]
  rw [List.nil_append] at before
  rw [split, openings_append, List.length_append] at whole
  omega

theorem settled (faithful : Faithful events) (split : events = front ++ back) {i : Nat} {o : Opening}
    (found : (openings front)[i]? = some o) (ended : (endOf front o.call).isSome) :
    (journal front).toolCalls[i]? = some (record front o) := by
  have later : (openings events)[i]? = some o := split ▸ openings_append_of_some back found
  rw [faithful.kept front back split i o found ended, faithful.entries, ledger, List.getElem?_map,
    later, Option.map_some, split, record_append back ended]

/-- Every end completes the last entry. -/
theorem completes (faithful : Faithful events) (split : events = front ++ e :: back)
    (ended : e.endedCall = some (call, name)) :
    ∃ earlier input before, (journal front).lastCall = some (.toolCall name input false before) ∧
      (journal front).toolCalls = earlier ++ [.toolCall name input false before] ∧
      (journal (front ++ [e])).toolCalls =
        earlier ++ [.toolCall name input e.marked (e.outputAfter before)] := by
  have ends : e.finishedCall = some call := by simp [finishedCall_eq, ended]
  have short : ((journal front).append e).toolCalls.length ≤ (journal front).toolCalls.length := by
    have split' : events = (front ++ [e]) ++ back := by simp [split]
    have closed : openings [e] = [] := openings_of_ends (by simp [ends])
    rw [← journal_snoc, faithful.length split, faithful.length split', openings_append, closed,
      List.append_nil]
  obtain ⟨input, before, last⟩ := (journal front).pending_of_length ended short
  obtain ⟨earlier, entries, replaced⟩ := (journal front).toolCalls_getLast last
  refine ⟨earlier, input, before, last, entries, ?_⟩
  rw [journal_snoc, TranscriptJournal.append_ended _ ended,
    TranscriptJournal.finishCall_pending _ last, replaced _ rfl]

end Faithful

/-- A call that has not ended has an entry that says it succeeded. -/
def Taken (front : List DomainEvent) : Prop :=
  ∃ (i : Nat) (o : Opening) (name : String) (input output : Option String),
    (openings front)[i]? = some o ∧ endOf front o.call = none ∧
      (journal front).toolCalls[i]? = some (.toolCall name input true output)

theorem lt_of_successful {earlier : List JournalEntry} {i : Nat} {name name' : String}
    {input input' output output' : Option String}
    (found : (earlier ++ [.toolCall name' input' false output'])[i]? =
      some (.toolCall name input true output)) : i < earlier.length := by
  by_contra beyond
  rw [List.getElem?_append_right (by omega), List.getElem?_singleton] at found
  split at found <;> simp at found

/-- Such a call has to end in the entry of another, which then is taken in turn. -/
theorem Taken.snoc {events front back : List DomainEvent} {e : DomainEvent} (paired : Paired events)
    (faithful : Faithful events) (split : events = front ++ e :: back) (taken : Taken front) :
    Taken (front ++ [e]) := by
  obtain ⟨i, o, name, input, output, found, unended, entry⟩ := taken
  have split' : events = (front ++ [e]) ++ back := by simp [split]
  have found' := openings_append_of_some [e] found
  cases ended : e.endedCall with
  | none =>
      have other : e.finishedCall = none := by simp [finishedCall_eq, ended]
      refine ⟨i, o, name, input, output, found', ?_, ?_⟩
      · rw [endOf_snoc_of_ne (by simp [other]), unended]
      · rw [journal_snoc, ((journal front).append_other other).1]
        exact (List.getElem?_append_left (List.getElem?_eq_some_iff.mp entry).1).trans entry
  | some pair =>
      obtain ⟨call, endedName⟩ := pair
      have ends : e.finishedCall = some call := by simp [finishedCall_eq, ended]
      obtain ⟨earlier, input', before, last, entries, after⟩ := faithful.completes split ended
      have inside : i < earlier.length := lt_of_successful (entries ▸ entry)
      have entry' : (journal (front ++ [e])).toolCalls[i]? = some (.toolCall name input true output) := by
        rw [after, List.getElem?_append_left inside, ← entry, entries, List.getElem?_append_left inside]
      by_cases own : call = o.call
      · subst own
        have isEnd : endOf (front ++ [e]) o.call = some e := by
          rw [endOf_append, unended]
          simp [endOf, ends]
        have result := faithful.settled split' found' (by simp [isEnd])
        rw [entry', record_of_last unended ends] at result
        simp only [Option.some.injEq, JournalEntry.toolCall.injEq] at result
        have marked := marked_of_succeeded result.2.2.1.symm
        have many : earlier.length < (openings front).length := by
          rw [← faithful.length split, entries]
          simp
        obtain ⟨x, last'⟩ : ∃ x, (openings front)[earlier.length]? = some x :=
          ⟨_, List.getElem?_eq_getElem many⟩
        have later := openings_append_of_some [e] last'
        have differ : x.call ≠ o.call := by
          intro same
          have equal := paired.index (split' ▸ openings_append_of_some back later)
            (split' ▸ openings_append_of_some back found') same
          omega
        -- The result of a call that has ended would change from failed to successful here.
        have unended' : endOf front x.call = none := by
          by_contra already
          have isEnded : (endOf front x.call).isSome := Option.isSome_iff_ne_none.mpr already
          have before := faithful.settled split last' isEnded
          have now := faithful.settled split' later (by simp [endOf_append, isEnded])
          rw [record_append [e] isEnded, ← before, entries, after] at now
          simp [marked] at now
        refine ⟨earlier.length, x, endedName, input', e.outputAfter before, later, ?_, ?_⟩
        · rw [endOf_snoc_of_ne (by simpa [ends] using differ.symm), unended']
        · simp [after, marked]
      · refine ⟨i, o, name, input, output, found', ?_, entry'⟩
        rw [endOf_snoc_of_ne (by simpa [ends] using own), unended]

theorem Taken.absurd {events front back : List DomainEvent} (paired : Paired events)
    (faithful : Faithful events) (split : events = front ++ back) (taken : Taken front) : False := by
  induction back generalizing front with
  | nil =>
      obtain ⟨i, o, _, _, _, found, unended, -⟩ := taken
      rw [List.append_nil] at split
      subst split
      exact endOf_eq_none.mp unended
        (paired.ended o.call (List.mem_map_of_mem (List.mem_of_getElem? found)))
  | cons e back ih => exact ih (by simp [split]) (taken.snoc paired faithful split)

/-- A call that ends in the entry of another one has failed without output. -/
theorem Faithful.failed_of_apart {events front back : List DomainEvent} {e : DomainEvent}
    {call : ToolCall} {name : String} {o : Opening} (paired : Paired events) (faithful : Faithful events)
    (split : events = front ++ e :: back) (tracked : Tracked front)
    (ended : e.endedCall = some (call, name)) {opened : List Opening}
    (openedSplit : openings front = opened ++ [o]) (apart : o.call ≠ call) :
    e.succeeded = false ∧ e.output = none := by
  have split' : events = (front ++ [e]) ++ back := by simp [split]
  have ends : e.finishedCall = some call := by simp [finishedCall_eq, ended]
  have unended := (split ▸ paired).unended ends
  obtain ⟨earlier, input, before, -, entries, after⟩ := faithful.completes split ended
  have size : earlier.length = opened.length := by
    have lengths := faithful.length split
    simpa [entries, openedSplit] using lengths
  obtain ⟨p, member, rfl⟩ := List.mem_map.mp (paired.later front e back split call ends)
  have isOpened : p ∈ opened := by
    rw [openedSplit, List.mem_append, List.mem_singleton] at member
    exact member.resolve_right (by rintro rfl; exact apart rfl)
  obtain ⟨k, inside, found⟩ := List.mem_iff_getElem.mp isOpened
  have at_k : (openings front)[k]? = some p := by
    rw [openedSplit, List.getElem?_append_left inside, List.getElem?_eq_getElem inside, found]
  have result := faithful.settled split' (openings_append_of_some [e] at_k)
    (by simp [endOf, ends])
  have blank : (journal front).toolCalls[k]? = some (record front p) := by
    rw [tracked.entries, ledger, List.getElem?_map, at_k, Option.map_some]
  rw [after, List.getElem?_append_left (by omega), record_of_last unended ends] at result
  rw [entries, List.getElem?_append_left (by omega), record_eq_blank unended, result] at blank
  simp only [Option.some.injEq, JournalEntry.toolCall.injEq] at blank
  exact blank.2.2

/-- An end that a faithful journal takes is in its place, when all before it were. -/
theorem Faithful.inPlace {events front back : List DomainEvent} {e : DomainEvent}
    (paired : Paired events) (faithful : Faithful events) (split : events = front ++ e :: back)
    (tracked : Tracked front) (isEnd : e.finishedCall.isSome) :
    e.marked = e.succeeded ∧ EndsInPlace front e := by
  have split' : events = (front ++ [e]) ++ back := by simp [split]
  obtain ⟨⟨call, name⟩, ended⟩ : ∃ pair, e.endedCall = some pair := by
    simpa [finishedCall_eq, Option.isSome_iff_exists] using isEnd
  have ends : e.finishedCall = some call := by simp [finishedCall_eq, ended]
  have unended := (split ▸ paired).unended ends
  obtain ⟨earlier, input, before, last, entries, after⟩ := faithful.completes split ended
  -- The pending entry is the one of the call that started last.
  rw [tracked.last] at last
  obtain ⟨o, isLatest, recorded⟩ := Option.map_eq_some_iff.mp last
  obtain ⟨start, isStart, started⟩ := Option.bind_eq_some_iff.mp isLatest
  obtain ⟨opened, openedSplit⟩ := openings_of_latest isLatest
  have size : earlier.length = opened.length := by
    have lengths := faithful.length split
    simpa [entries, openedSplit] using lengths
  have at_o : (openings front)[earlier.length]? = some o := by simp [openedSplit, size]
  have now : (journal (front ++ [e])).toolCalls[earlier.length]? =
      some (.toolCall name input e.marked (e.outputAfter before)) := by simp [after]
  have settled := faithful.settled split' (openings_append_of_some [e] at_o)
  have sameName : o.name = name := by
    cases found : endOf front o.call <;> simp_all [record]
  have startedCall : start.startedCall = some (o.call, name) := by
    subst sameName
    obtain ⟨pair, isPair, rfl⟩ := Option.map_eq_some_iff.mp started
    exact isPair
  by_cases own : o.call = call
  · subst own
    have result := settled (by simp [endOf, ends])
    rw [now, record_of_last unended ends] at result
    simp only [Option.some.injEq, JournalEntry.toolCall.injEq] at result
    exact ⟨result.2.2.1, o.call, name, start, o.call, ended, isStart, startedCall, .inl rfl⟩
  · obtain ⟨failed, silent⟩ := faithful.failed_of_apart paired split tracked ended openedSplit own
    have unchanged : ∀ result, endOf front o.call = some result → result.succeeded = false ∧
        e.outputAfter result.output = result.output ∧ e.marked = false := by
      intro result found
      have final := settled (by simp [endOf_append, found])
      rw [now, record_append [e] (by simp [found]), recorded] at final
      simp only [record, found, JournalEntry.toolCall.injEq] at recorded
      simp only [Option.some.injEq, JournalEntry.toolCall.injEq] at final
      rw [recorded.2.2.2]
      exact ⟨recorded.2.2.1, final.2.2.2, final.2.2.1⟩
    have unmarked : e.marked = false := by
      by_contra marked
      cases found : endOf front o.call with
      | some result => exact marked (unchanged result found).2.2
      | none =>
          refine Taken.absurd paired faithful split' ⟨earlier.length, o, name, input, e.outputAfter before,
            openings_append_of_some [e] at_o, ?_, ?_⟩
          · rw [endOf_snoc_of_ne (by simpa [ends] using Ne.symm own), found]
          · rw [now, eq_true_of_ne_false marked]
    refine ⟨unmarked.trans failed.symm, call, name, start, o.call, ended, isStart, startedCall, .inr
      ⟨failed, silent, fun result found => ?_⟩⟩
    exact ⟨(unchanged result found).1, (unchanged result found).2.1⟩

theorem Faithful.tracked {events : List DomainEvent} (paired : Paired events)
    (faithful : Faithful events) (front back : List DomainEvent) (split : events = front ++ back) :
    Tracked front := by
  induction front using List.reverseRecOn generalizing back with
  | nil => exact ⟨rfl, rfl⟩
  | append_singleton front e ih =>
      have split' : events = front ++ e :: back := by simpa using split
      have tracked := ih (e :: back) split'
      cases ends : e.finishedCall with
      | none => exact tracked.other (split' ▸ paired) ends
      | some call =>
          obtain ⟨candid, inPlace⟩ := faithful.inPlace paired split' tracked (by simp [ends])
          exact tracked.ended (split' ▸ paired) candid inPlace

end AgileAgent.RuntimeDomain
