import Mathlib.Data.List.ReduceOption
import AgileAgent.Core.Loop.Guardrails

/-! # The text that a turn is judged from

A turn that said something is judged from what it said itself: messages of the loop separate it
from earlier turns. A turn that finished and said nothing is judged from what earlier turns said.
-/

namespace AgileAgent.Core.Loop

open Backlog RuntimeDomain Fallible

/-! ## What a turn says -/

/-- What the assistant says until the turn is finished. -/
def spoken : List DomainEvent → String
  | [] | .finished :: _ => ""
  | .assistantChunk chunk :: rest => chunk ++ spoken rest
  | _ :: rest => spoken rest

/-- The turn has an error or is never finished. -/
def faulty : List DomainEvent → Bool
  | [] | .error _ :: _ => true
  | .finished :: _ => false
  | _ :: rest => faulty rest

def TranscriptEntry.assistantText : TranscriptEntry → Option String
  | .assistant text => some text
  | _ => none

/-- The texts of the assistant in a transcript, in their places. -/
def AppState.texts (s : AppState) : List (Option String) :=
  s.transcript.map TranscriptEntry.assistantText

/-- The last text that is not empty (`active_task_summary`). -/
def lastText (texts : List (Option String)) : Option String :=
  texts.reverse.findSome? fun text => text.filter (· ≠ "")

theorem activeTaskSummary_eq (s : AppState) : s.activeTaskSummary = lastText s.texts := by
  rw [AppState.activeTaskSummary, lastText, AppState.texts, ← List.map_reverse, List.findSome?_map]
  congr 1
  funext entry
  cases entry with
  | assistant text => by_cases empty : text = "" <;> simp [TranscriptEntry.assistantText, Option.filter, empty]
  | _ => rfl

/-- What a chunk of the assistant makes of the texts. -/
def say (chunk : String) (texts : List (Option String)) : List (Option String) :=
  match texts.getLast? with
  | some (some text) => texts.dropLast ++ [some (text ++ chunk)]
  | _ => texts ++ [some chunk]

theorem reviseLast_texts {revise : TranscriptEntry → Option TranscriptEntry}
    (silent : ∀ entry revised, revise entry = some revised →
      revised.assistantText = entry.assistantText) {transcript revised : List TranscriptEntry}
    (found : reviseLast revise transcript = some revised) :
    revised.map TranscriptEntry.assistantText = transcript.map TranscriptEntry.assistantText := by
  induction transcript generalizing revised with
  | nil => cases found
  | cons entry rest ih =>
      rw [reviseLast] at found
      cases later : reviseLast revise rest with
      | some revised' =>
          rw [later] at found
          cases found
          rw [List.map_cons, List.map_cons, ih later]
      | none =>
          rw [later] at found
          obtain ⟨entry', here, rfl⟩ := Option.map_eq_some_iff.mp found
          rw [List.map_cons, List.map_cons, silent entry entry' here]

namespace AppState

variable (s : AppState)

theorem texts_push (entry : TranscriptEntry) : (s.push entry).texts = s.texts ++ [entry.assistantText] := by
  simp [texts, push]

/-- The texts are those before, or an entry without a text comes after them. -/
def Silent (s s' : AppState) : Prop := s'.texts = s.texts ∨ s'.texts = s.texts ++ [none]

theorem silent_push {entry : TranscriptEntry} (none : entry.assistantText = Option.none) :
    Silent s (s.push entry) := .inr (by rw [texts_push, none])

theorem silent_reviseOrPush {revise : TranscriptEntry → Option TranscriptEntry} {entry : TranscriptEntry}
    (silent : ∀ entry revised, revise entry = some revised →
      revised.assistantText = entry.assistantText)
    (none : entry.assistantText = Option.none) : Silent s (s.reviseOrPush revise entry) := by
  unfold reviseOrPush
  cases found : reviseLast revise s.transcript with
  | none => exact s.silent_push none
  | some transcript => exact .inl (reviseLast_texts silent found)

theorem take_assistantChunk (chunk : String) :
    (s.take (.assistantChunk chunk)).texts = say chunk s.texts := by
  simp only [take, appendAssistantChunk, say, texts, List.getLast?_map]
  cases last : s.transcript.getLast? with
  | none => simp [push, TranscriptEntry.assistantText]
  | some entry =>
      cases entry with
      | assistant text => simp [TranscriptEntry.assistantText]
      | _ => simp [push, TranscriptEntry.assistantText]

theorem silent_thinkingChunk (chunk : String) : Silent s (s.appendThinkingChunk chunk) := by
  unfold appendThinkingChunk
  split
  · next text last =>
      have split := List.dropLast_append_getLast? _ last
      refine .inl ?_
      rw [texts, texts, ← split]
      simp [TranscriptEntry.assistantText]
  · exact s.silent_push rfl

theorem take_silent {event : DomainEvent} (noChunk : ∀ chunk, event ≠ .assistantChunk chunk)
    (noError : ∀ error, event ≠ .error error) : Silent s (s.take event) := by
  cases event with
  | assistantChunk chunk => exact absurd rfl (noChunk chunk)
  | error error => exact absurd rfl (noError error)
  | sessionHandle handle => cases handle <;> exact .inl rfl
  | providerPid | finished => exact .inl rfl
  | thinkingChunk chunk => exact s.silent_thinkingChunk chunk
  | status | execCommandStarted | genericToolCallStarted | webSearchStarted | viewImage
  | imageGenerationFinished | mcpToolCallStarted | patchApplyStarted => exact s.silent_push rfl
  | execCommandFinished | genericToolCallFinished | webSearchFinished | mcpToolCallFinished
  | patchApplyFinished =>
      refine s.silent_reviseOrPush (fun entry revised found => ?_) rfl
      split at found
      · split at found <;> cases found
        rfl
      · cases found
  | execCommandOutputDelta callId delta =>
      simp only [take, appendExecCommandOutput]
      split
      · exact .inl rfl
      · refine s.silent_reviseOrPush (fun entry revised found => ?_) rfl
        split at found
        · split at found <;> cases found
          rfl
        · cases found
  | patchApplyOutputDelta callId delta =>
      simp only [take, appendPatchApplyOutput]
      split
      · exact .inl rfl
      · split
        · next transcript found =>
            refine .inl (reviseLast_texts (fun entry revised found => ?_) found)
            split at found
            · split at found <;> cases found
              rfl
            · cases found
        · exact .inl rfl

end AppState

/-! ## The texts of a turn -/

/-- The texts after those from before a turn, which together are what it has said so far. A chunk
    that comes next is added to them and to none from before. -/
def Grown (old : List (Option String)) (said : String) (texts : List (Option String)) : Prop :=
  ∃ own, texts = old ++ own ∧ (own = [] → ∀ text, old.getLast? ≠ some (some text)) ∧
    String.join own.reduceOption = said

namespace Grown

variable {old texts : List (Option String)} {said : String}

theorem start (separated : ∀ text, old.getLast? ≠ some (some text)) : Grown old "" old :=
  ⟨[], by simp, fun _ => separated, rfl⟩

theorem none (grown : Grown old said texts) : Grown old said (texts ++ [Option.none]) := by
  obtain ⟨own, rfl, -, joined⟩ := grown
  exact ⟨own ++ [Option.none], by simp, by simp, by simpa [List.reduceOption_append] using joined⟩

theorem say (grown : Grown old said texts) (chunk : String) :
    Grown old (said ++ chunk) (say chunk texts) := by
  obtain ⟨own, rfl, separated, rfl⟩ := grown
  rcases List.eq_nil_or_concat' own with rfl | ⟨own, last, rfl⟩
  · refine ⟨[some chunk], ?_, by simp, by simp⟩
    rw [List.append_nil, Loop.say]
    split
    · next text last => exact absurd last (separated rfl text)
    · rfl
  · cases last with
    | none =>
        refine ⟨own ++ [Option.none, some chunk], by simp [Loop.say], by simp, ?_⟩
        simp [List.reduceOption_append, String.join_append]
    | some text =>
        refine ⟨own ++ [some (text ++ chunk)], by simp [Loop.say, ← List.append_assoc], by simp, ?_⟩
        simp [List.reduceOption_append, String.join_append, String.append_assoc]

theorem silent {s s' : AppState} (grown : Grown old said s.texts) (silent : s.Silent s') :
    Grown old said s'.texts := by
  rcases silent with same | longer
  · exact same ▸ grown
  · exact longer ▸ grown.none

theorem consumed {events : List DomainEvent} (clean : faulty events = false) {s : AppState}
    (grown : Grown old said s.texts) : Grown old (said ++ spoken events) (s.consumed events).texts := by
  induction events generalizing s said with
  | nil => cases clean
  | cons event rest ih =>
      cases event with
      | error => cases clean
      | finished =>
          rw [spoken, String.append_empty, AppState.consumed, if_pos rfl]
          exact grown
      | assistantChunk chunk =>
          have later := ih (s := s.take (.assistantChunk chunk)) clean
            (by rw [AppState.take_assistantChunk]; exact grown.say chunk)
          rw [String.append_assoc] at later
          exact later
      | _ => exact ih clean (grown.silent (s.take_silent (by simp) (by simp)))

end Grown

/-! ## The last text -/

theorem lastText_append (old own : List (Option String)) :
    lastText (old ++ own) = (lastText own).or (lastText old) := by
  simp [lastText, List.findSome?_append]

theorem lastText_mem {texts : List (Option String)} {text : String} (found : lastText texts = some text) :
    some text ∈ texts ∧ text ≠ "" := by
  obtain ⟨entry, member, kept⟩ := List.exists_of_findSome?_eq_some found
  obtain ⟨rfl, some⟩ := Option.filter_eq_some_iff.mp kept
  exact ⟨List.mem_reverse.mp member, by simpa using some⟩

theorem lastText_eq_none {texts : List (Option String)} :
    lastText texts = none ↔ ∀ text, some text ∈ texts → text = "" := by
  rw [lastText, List.findSome?_eq_none_iff]
  constructor
  · intro empty text member
    simpa using empty (some text) (List.mem_reverse.mpr member)
  · intro empty entry member
    cases entry with
    | none => rfl
    | some text => simpa using empty text (List.mem_reverse.mp member)

theorem join_eq_empty {texts : List String} : String.join texts = "" ↔ ∀ text ∈ texts, text = "" := by
  induction texts with
  | nil => simp
  | cons text rest ih => simp [ih]

/-- Some text comes after the earlier ones if and only if something is said. -/
theorem lastText_eq_none_iff_join {own : List (Option String)} :
    lastText own = none ↔ String.join own.reduceOption = "" := by
  rw [lastText_eq_none, join_eq_empty]
  simp [List.reduceOption_mem_iff]

/-! ## The state but for its transcript -/

namespace AppState

theorem consumed_hadError (s : AppState) (events : List DomainEvent) :
    (s.consumed events).activeTaskHadError = (s.activeTaskHadError || faulty events) := by
  induction events generalizing s with
  | nil => exact (Bool.or_true _).symm
  | cons event rest ih =>
      have taken : (s.take event).activeTaskHadError = (s.noted event).activeTaskHadError := by
        have same := congrArg AppState.activeTaskHadError (s.quiet_take event)
        exact same
      rw [consumed]
      cases event with
      | finished => simp [faulty, taken, noted, finishProviderResponse]
      | sessionHandle handle => cases handle <;> simp [ih, taken, noted, applySessionHandle, faulty]
      | error error =>
          have marked : (s.noted (.error error)).activeTaskHadError = true := by
            simp only [noted]
            split <;> rfl
          simp [ih, taken, marked, faulty]
      | _ => simp [ih, taken, noted, faulty]

theorem noted_quiet (s : AppState) (event : DomainEvent) : (s.noted event).quiet = (s.quiet.noted event).quiet := by
  cases event with
  | sessionHandle handle => cases handle <;> rfl
  | error error =>
      simp only [noted]
      split <;> rfl
  | _ => rfl

theorem consumed_quiet {s s' : AppState} (same : s.quiet = s'.quiet) (events : List DomainEvent) :
    (s.consumed events).quiet = (s'.consumed events).quiet := by
  induction events generalizing s s' with
  | nil =>
      have disconnected := congrArg (fun s : AppState => s.disconnect.quiet) same
      exact disconnected
  | cons event rest ih =>
      have taken : (s.take event).quiet = (s'.take event).quiet := by
        rw [quiet_take, quiet_take, noted_quiet, noted_quiet s', same]
      rw [consumed, consumed]
      split
      · exact taken
      · exact ih taken

theorem consumed_transcript_quiet (s : AppState) (transcript : List TranscriptEntry)
    (events : List DomainEvent) :
    ({ s with transcript := transcript }.consumed events).quiet = (s.consumed events).quiet := by
  have same : ({ s with transcript := transcript } : AppState).quiet = s.quiet := rfl
  exact consumed_quiet same events

@[simp] theorem endActiveTask_loopPhase (s : AppState) (status : TaskStatus)
    (resultSummary : Option String) (todoChange : TodoItem → TodoItem) :
    (s.endActiveTask status resultSummary todoChange).loopPhase = s.loopPhase := by
  unfold endActiveTask
  cases s.activeTaskId <;> rfl

theorem quiet_settle (s : AppState) (judgement : Judgement) :
    (judgement.settle s).quiet = judgement.settle s.quiet := by
  cases judgement with
  | idle | continued | overflow => rfl
  | failed reason => exact quiet_endActiveTask _ _ _ _
  | escalated reason => exact quiet_endActiveTask _ _ _ _
  | unverified reason => simp [Judgement.settle, failActiveTask, markActiveTaskVerifying]
  | completed text => simp [Judgement.settle, completeActiveTask, markActiveTaskVerifying]

end AppState

/-! ## Judging by own text -/

/-- The entries that a turn adds to the transcript. -/
def ownEntries (before : AppState) (events : List DomainEvent) : List TranscriptEntry :=
  (before.consumed events).transcript.drop before.transcript.length

section

variable {before : AppState} {events : List DomainEvent}

/-- The text of a turn without an error, where a task is under way. -/
theorem judgedText_consumed {task : TaskItem} (active : currentActiveTask before = some task)
    (noError : before.activeTaskHadError = false) (clean : faulty events = false) :
    judgedText (before.consumed events) = lastText (before.consumed events).texts := by
  have hadError : (before.consumed events).activeTaskHadError = false := by
    simp [AppState.consumed_hadError, noError, clean]
  have task := (before.consumed_keepsTask events).currentActiveTask
  simp [judgedText, hadError, task, active, activeTaskSummary_eq]

/-- What was said before a turn is what it is judged from, unless it says something. -/
theorem judgedText_silent {task : TaskItem} (active : currentActiveTask before = some task)
    (noError : before.activeTaskHadError = false) (clean : faulty events = false)
    (silent : spoken events = "") (separated : ∀ text, before.texts.getLast? ≠ some (some text)) :
    judgedText (before.consumed events) = lastText before.texts := by
  obtain ⟨own, texts, -, joined⟩ := (Grown.start separated).consumed clean
  rw [silent] at joined
  rw [judgedText_consumed active noError clean, texts, lastText_append,
    lastText_eq_none_iff_join.mpr joined, Option.none_or]

theorem AppState.EndsSaying.separated (said : before.EndsSaying) (text : String) :
    before.texts.getLast? ≠ some (some text) := by
  obtain ⟨message, last⟩ := said
  simp [AppState.texts, List.getLast?_map, last, TranscriptEntry.assistantText]

/-- A turn that says something is judged from an entry that it adds. -/
theorem judgedText_own (ready : Ready before) (clean : faulty events = false)
    (something : spoken events ≠ "") {text : String}
    (judged : judgedText (before.consumed events) = some text) :
    .assistant text ∈ ownEntries before events := by
  have noError : before.activeTaskHadError = false := by
    cases hadError : before.activeTaskHadError with
    | false => rfl
    | true => simp [judgedText, AppState.consumed_hadError, hadError] at judged
  obtain ⟨task, active⟩ := ready.active
  obtain ⟨own, texts, -, joined⟩ := (Grown.start ready.separated.separated).consumed clean
  rw [judgedText_consumed active noError clean, texts, lastText_append] at judged
  have added : own = (ownEntries before events).map TranscriptEntry.assistantText := by
    rw [ownEntries, List.map_drop, ← AppState.texts, texts, ← List.length_map TranscriptEntry.assistantText,
      ← AppState.texts, List.drop_left]
  have said : some text ∈ own := by
    cases found : lastText own with
    | none =>
        rw [String.empty_append] at joined
        exact absurd (joined ▸ lastText_eq_none_iff_join.mp found) something
    | some text' =>
        rw [found] at judged
        cases judged
        exact (lastText_mem found).1
  rw [added] at said
  obtain ⟨entry, member, isText⟩ := List.mem_map.mp said
  cases entry with
  | assistant text' =>
      cases isText
      exact member
  | _ => cases isText

end

section

variable [Unicode] (host : Host) (guardrails : LoopGuardrails)

/-- What the judgement of a turn leaves, but for messages, if the transcript before the turn had
    been another one. -/
def verdict (calls : Nat) (before : AppState) (events : List DomainEvent)
    (transcript : List TranscriptEntry) : AppState :=
  (stateAfter (resolveActiveTaskAfterTurn host
      { maxContinuationsPerTask := guardrails.maxContinuationsPerTask })
    { app := { before with transcript := transcript }.consumed events, calls := calls }).app.quiet

/-- A turn is judged from a text that it added itself, and where it said nothing the judgement is
    the same after any transcript. -/
structure JudgedByOwnText (before : AppState) (events : List DomainEvent) : Prop where
  own : ∀ text, judgedText (before.consumed events) = some text →
    .assistant text ∈ ownEntries before events
  independent : spoken events = "" → ∀ calls transcript,
    verdict host guardrails calls before events transcript =
      verdict host guardrails calls before events before.transcript

section

variable {host guardrails} {calls : Nat} {before : AppState} {events : List DomainEvent}
  {transcript : List TranscriptEntry}

theorem verdict_eq :
    verdict host guardrails calls before events transcript =
      (judge host { maxContinuationsPerTask := guardrails.maxContinuationsPerTask } calls
        ({ before with transcript := transcript }.consumed events)).settle
        (before.consumed events).quiet := by
  have settled := (resolve_settles host
    { maxContinuationsPerTask := guardrails.maxContinuationsPerTask }
    { app := { before with transcript := transcript }.consumed events, calls := calls }).mono
    (fun _ s' settled => settled.2.1) fun _ s' settled => settled.2.1
  rw [verdict, settled.stateAfter, AppState.quiet_settle, AppState.consumed_transcript_quiet]

/-- The judgement from a text and the rest of the state. -/
def judgeFrom (host : Host) (limits : ExecutionGuardrails) (calls : Nat) (text : Option String)
    (quiet : AppState) : Judgement :=
  match currentActiveTask quiet with
  | none => .idle
  | some task =>
      if quiet.activeTaskHadError then .failed "provider execution failed"
      else
        match text with
        | none => .failed "provider returned no assistant summary"
        | some text => judgeText host limits calls quiet task text

theorem judge_eq (limits : ExecutionGuardrails) (s : AppState) :
    judge host limits calls s = judgeFrom host limits calls (judgedText s) s.quiet := rfl

/-- The judgement of a turn without an error, where a task is under way. -/
theorem judge_clean {limits : ExecutionGuardrails} {task : TaskItem}
    (active : currentActiveTask before = some task) (noError : before.activeTaskHadError = false)
    (clean : faulty events = false) :
    judge host limits calls ({ before with transcript := transcript }.consumed events) =
      match judgedText ({ before with transcript := transcript }.consumed events) with
      | none => .failed "provider returned no assistant summary"
      | some text => judgeText host limits calls
          ({ before with transcript := transcript }.consumed events) task text := by
  have hadError : ({ before with transcript := transcript }.consumed events).activeTaskHadError = false := by
    simp [AppState.consumed_hadError, noError, clean]
  have isTask : currentActiveTask ({ before with transcript := transcript }.consumed events) = some task :=
    (AppState.consumed_keepsTask _ _).currentActiveTask.trans active
  cases text : judgedText ({ before with transcript := transcript }.consumed events) <;>
    simp [judge, isTask, hadError, text]

/-- Only the text that a turn is judged from passes from the transcript to the judgement. -/
theorem judge_congr (limits : ExecutionGuardrails) {s s' : AppState} (same : s.quiet = s'.quiet)
    (text : judgedText s = judgedText s') : judge host limits calls s = judge host limits calls s' := by
  rw [judge_eq, judge_eq, same, text]

end

/-- A blank text is never verified, which tells it apart from no text at all. -/
theorem judgeText_blank (limits : ExecutionGuardrails) (calls : Nat) (s s' : AppState) (task : TaskItem) :
    ((judgeText host limits calls s task " ").settle s').loopPhase ≠ .idle := by
  have prompt : continuationPrompt " " =
      some "Continue the task. No meaningful result was produced yet." := if_pos (by decide)
  unfold judgeText
  rw [prompt]
  by_cases limit : s.continuationAttempts ≥ limits.maxContinuationsPerTask
  · simp [limit, Judgement.settle, AppState.blockActiveTask, AppState.setLoopPhase]
  · simp [limit, addOne_of_lt (UInt8.not_le.mp limit), Judgement.settle, AppState.setLoopPhase]

theorem judged_by_own_text_iff (app : AppState) (position : Nat) {before : AppState}
    {events : List DomainEvent}
    (started : .started position before (.ok events) ∈
      (stateAfter (runLoop host guardrails (neededSteps guardrails)) { app }).log) :
    JudgedByOwnText host guardrails before events ↔
      before.activeTaskHadError ∨ faulty events ∨ spoken events ≠ "" := by
  have ready : Ready before :=
    ((runLoop_ends host guardrails app).mono (fun _ _ ended => ended.1.2) fun _ _ failed => failed.2.2).stateAfter
      position before (.ok events) started
  obtain ⟨task, active⟩ := ready.active
  constructor
  · intro judged
    by_contra unmet
    obtain ⟨noError, clean, silent⟩ : before.activeTaskHadError = false ∧ faulty events = false ∧
        spoken events = "" := by simpa using unmet
    have text (transcript : List TranscriptEntry)
        (separated : ∀ text, (transcript.map TranscriptEntry.assistantText).getLast? ≠ some (some text)) :
        judgedText ({ before with transcript := transcript }.consumed events) =
          lastText (transcript.map TranscriptEntry.assistantText) :=
      judgedText_silent active noError clean silent separated
    have same := (judged.independent silent 0 []).trans
      (judged.independent silent 0 [.assistant " ", .status ""]).symm
    have none := text [] (by simp)
    have blank := text [.assistant " ", .status ""] (by simp [TranscriptEntry.assistantText])
    rw [verdict_eq, verdict_eq, judge_clean active noError clean, judge_clean active noError clean,
      none, blank] at same
    -- no text fails the task and leaves the loop idle, a blank one does not
    refine judgeText_blank host _ 0 _ _ task ((congrArg AppState.loopPhase same).symm.trans ?_)
    exact AppState.endActiveTask_loopPhase _ _ _ _
  · intro met
    cases failed : before.activeTaskHadError || faulty events with
    | false =>
        obtain ⟨noError, clean⟩ := Bool.or_eq_false_iff.mp failed
        have something : spoken events ≠ "" := by simpa [noError, clean] using met
        exact ⟨fun text judged => judgedText_own ready clean something judged,
          fun silent => absurd silent something⟩
    | true =>
        have nothing (transcript : List TranscriptEntry) :
            judgedText ({ before with transcript := transcript }.consumed events) = none := by
          simp [judgedText, AppState.consumed_hadError, failed]
        refine ⟨fun text judged => ?_, fun _ calls transcript => ?_⟩
        · cases (nothing before.transcript).symm.trans judged
        · rw [verdict_eq, verdict_eq]
          congr 1
          refine judge_congr _ ?_ ((nothing transcript).trans (nothing before.transcript).symm)
          rw [AppState.consumed_transcript_quiet, AppState.consumed_transcript_quiet]

end

/-! ## A provider that says nothing -/

section

local instance lowered : Unicode := ⟨String.toLower⟩

/-- It renames what it is asked to, and otherwise finishes without a word. -/
def silentHost : Host where
  startProvider _ _ prompt _ _ :=
    .ok (if DecisionDsl.strContains prompt "Objective: Rename" then
      [.assistantChunk "Renamed.", .finished] else [.finished])
  onStateChange _ _ := .ok ()
  hasManifest _ _ := false
  cargoCheck _ _ := .error "cargo is not called"
  saveTaskArtifact _ _ artifact := .ok (artifact.taskId ++ ".json")
  saveEscalation _ _ record := .ok (record.taskId ++ ".json")

def readyTodo (id title : String) : TodoItem where
  id := id
  title := title
  description := title
  priority := 1
  status := .ready
  acceptanceCriteria := []
  dependencies := []
  source := "manual"

def twoTodos : AppState where
  backlog := { todos := [readyTodo "todo-1" "Rename the field", readyTodo "todo-2" "Add a check"] }

def silentRun : LoopState := stateAfter (runLoop silentHost {} (neededSteps {})) { app := twoTodos }

/-- The first turn of that run. -/
theorem renamed_by_own_text :
    JudgedByOwnText silentHost {} (stateAfter (takeTask silentHost) { app := twoTodos }).app.begun
      [.assistantChunk "Renamed.", .finished] :=
  (judged_by_own_text_iff silentHost {} twoTodos 0 (by decide +kernel)).mpr
    (.inr (.inr (by decide)))

/-- A turn that is judged from a text and added none. -/
def borrows : LoopEvent → Bool
  | .started _ before (.ok events) =>
      (judgedText (before.consumed events)).isSome && (ownEntries before events).isEmpty
  | _ => false

/-- The second task is done, and its summary is what was said about the first one. -/
theorem silent_turn_completes :
    silentRun.app.backlog.tasks.map (fun task => (task.objective, task.status, task.resultSummary)) =
        [("Rename the field", .done, some "Renamed."), ("Add a check", .done, some "Renamed.")] ∧
      ¬ ∀ position before events, .started position before (.ok events) ∈ silentRun.log →
        JudgedByOwnText silentHost {} before events := by
  obtain ⟨tasks, borrowed⟩ :
      silentRun.app.backlog.tasks.map (fun task => (task.objective, task.status, task.resultSummary)) =
          [("Rename the field", .done, some "Renamed."), ("Add a check", .done, some "Renamed.")] ∧
        silentRun.log.any borrows := by decide +kernel
  refine ⟨tasks, fun judged => ?_⟩
  obtain ⟨event, member, borrows⟩ := List.any_eq_true.mp borrowed
  cases event with
  | started position before stream =>
      cases stream with
      | error => cases borrows
      | ok events =>
          obtain ⟨some, none⟩ := Bool.and_eq_true_iff.mp borrows
          obtain ⟨text, found⟩ := Option.isSome_iff_exists.mp some
          have own := (judged position before events member).own text found
          rw [List.isEmpty_iff.mp none] at own
          cases own
  | tookUp | resolved => cases borrows

end

end AgileAgent.Core.Loop
