import AgileAgent.Owners
import AgileAgent.Core.Loop.SlotTranscript

/-! # Calls in flight

Several calls run at once, and the updates of all of them come to the transcript of one slot. Each
update names its call. A command is found by its id, a generic tool by its id or its name, so of two
tools of one name the later one takes the end of the earlier one.
-/

namespace AgileAgent.Core.Loop

open RuntimeDomain Machine

/-! ## Updates -/

/-- What the end of a command reports. -/
structure CommandEnd where
  outputPreview : Option String
  status : ExecCommandStatus
  exitCode : Option Int32
  durationMs : Option UInt64

/-- What the end of a generic tool reports. -/
structure ToolEnd where
  outputPreview : Option String
  success : Bool
  exitCode : Option Int32
  durationMs : Option UInt64

inductive CallUpdate where
  | commandStarted (callId : String) (inputPreview source : Option String)
  | commandOutput (callId delta : String)
  | commandFinished (callId : String) (finish : CommandEnd)
  | toolStarted (name callId : String) (inputPreview : Option String)
  | toolFinished (name callId : String) (finish : ToolEnd)

namespace CallUpdate

def callId : CallUpdate → String
  | commandStarted callId .. | commandOutput callId _ | commandFinished callId _ => callId
  | toolStarted _ callId _ | toolFinished _ callId _ => callId

def event : CallUpdate → DomainEvent
  | commandStarted callId inputPreview source => .execCommandStarted (some callId) inputPreview source
  | commandOutput callId delta => .execCommandOutputDelta (some callId) delta
  | commandFinished callId finish =>
      .execCommandFinished (some callId) finish.outputPreview finish.status finish.exitCode
        finish.durationMs
  | toolStarted name callId inputPreview => .genericToolCallStarted name (some callId) inputPreview
  | toolFinished name callId finish =>
      .genericToolCallFinished name (some callId) finish.outputPreview finish.success finish.exitCode
        finish.durationMs

end CallUpdate

/-- The id of the call that an entry is about. -/
def entryCallId : TranscriptEntry → Option String
  | .execCommand callId .. | .genericToolCall _ callId .. => callId
  | _ => none

/-- The transcript of a slot, its entries owned by their calls. -/
def callLog : Owners.Log TranscriptEntry CallUpdate String where
  owner := entryCallId
  sender := fun update => some update.callId
  take := fun transcript update => SlotTranscript.take transcript update.event

/-! ## Calls -/

/-- The course of one call: a command with its outputs, or a tool, and the end if it has come. -/
inductive Call where
  | command (callId : String) (inputPreview source : Option String) (deltas : List String)
      (finish : Option CommandEnd)
  | tool (name callId : String) (inputPreview : Option String) (finish : Option ToolEnd)

namespace Call

def callId : Call → String
  | command callId .. | tool _ callId .. => callId

def updates : Call → List CallUpdate
  | command callId inputPreview source deltas finish =>
      .commandStarted callId inputPreview source ::
        (deltas.map (.commandOutput callId) ++ finish.toList.map (.commandFinished callId))
  | tool name callId inputPreview finish =>
      .toolStarted name callId inputPreview :: finish.toList.map (.toolFinished name callId)

/-- The outputs after an earlier one, as one text. -/
def outputAfter (earlier : Option String) (deltas : List String) : Option String :=
  if String.join deltas = "" then earlier else some (earlier.getD "" ++ String.join deltas)

/-- The entry that tells of this call and of no other. The end of a command tells its whole
    output again. -/
def entry : Call → TranscriptEntry
  | command callId inputPreview source deltas none =>
      .execCommand (some callId) source true inputPreview (outputAfter none deltas) .inProgress none none
  | command callId inputPreview source _ (some finish) =>
      .execCommand (some callId) source true inputPreview finish.outputPreview finish.status
        finish.exitCode finish.durationMs
  | tool name callId inputPreview none =>
      .genericToolCall name (some callId) inputPreview none true true none none
  | tool name callId inputPreview (some finish) =>
      .genericToolCall name (some callId) inputPreview finish.outputPreview finish.success false
        finish.exitCode finish.durationMs

end Call

/-! ## What is wanted -/

/-- The update changes no entry but its call's. -/
def ChangesOwn (x : Step (List TranscriptEntry) CallUpdate Unit) : Prop :=
  callLog.others x.event.callId x.after = callLog.others x.event.callId x.before

/-- No update changes the entry of another call, and a call whose updates have come in their order has
    its entry, behind those that had its id before. -/
structure CallsApart (transcript : List TranscriptEntry) (updates : List CallUpdate) : Prop where
  changes : ∀ x ∈ history callLog.step transcript updates, ChangesOwn x
  entries : ∀ call : Call, callLog.sent call.callId updates = call.updates →
    callLog.own call.callId (final callLog.step transcript updates) =
      callLog.own call.callId transcript ++ [call.entry]

/-- A tool in flight that has the id or the name. -/
def openTool (name callId : String) : TranscriptEntry → Bool
  | .genericToolCall existingName existing _ _ _ true _ _ =>
      AppState.sameCall (some callId) existing || existingName == name
  | _ => false

/-- Where a tool ends, the last one in flight with its id or its name is the one with its id. -/
def FindsOwn (transcript : List TranscriptEntry) : CallUpdate → Prop
  | .toolFinished name callId _ =>
      ∀ x, lastEntry (openTool name callId) transcript = some x → entryCallId x = some callId
  | _ => True

/-! ## Revisions of one's own -/

section

variable {revise : TranscriptEntry → Option TranscriptEntry} {entry x : TranscriptEntry}
  {p : TranscriptEntry → Bool} {transcript : List TranscriptEntry}

/-- The last entry that can be revised. -/
abbrev revised (revise : TranscriptEntry → Option TranscriptEntry) (transcript : List TranscriptEntry) :
    Option TranscriptEntry :=
  lastEntry (fun y => (revise y).isSome) transcript

theorem revised_none (none : revised revise transcript = Option.none) :
    ∀ y ∈ transcript, revise y = Option.none := by
  intro y member
  simpa using lastEntry_none none y member

theorem revised_some (found : revised revise transcript = some x) :
    ∃ front back x', transcript = front ++ x :: back ∧ (∀ y ∈ back, revise y = none) ∧
      revise x = some x' ∧ reviseOrAppend revise entry transcript = front ++ x' :: back := by
  obtain ⟨taken, front, back, rfl, quiet⟩ := lastEntry_some found
  obtain ⟨x', here⟩ := Option.isSome_iff_exists.mp taken
  have quiet' : ∀ y ∈ back, revise y = none := fun y member => by simpa using quiet y member
  exact ⟨front, back, x', rfl, quiet', here, by rw [reviseOrAppend, reviseLast_back quiet', here]; rfl⟩

theorem reviseOrAppend_of_none (none : ∀ y ∈ transcript, revise y = Option.none) :
    reviseOrAppend revise entry transcript = transcript ++ [entry] := by
  rw [reviseOrAppend, reviseLast_of_none none, Option.getD_none]

/-- Entries that are neither revised nor appended stay. -/
theorem spared (mine : ∀ y, revised revise transcript = some y → p y = false)
    (stays : ∀ y y', revise y = some y' → p y = false → p y' = false) (new : p entry = false) :
    (reviseOrAppend revise entry transcript).filter p = transcript.filter p := by
  cases found : revised revise transcript with
  | none => simp [reviseOrAppend_of_none (revised_none found), new]
  | some x =>
      obtain ⟨front, back, x', rfl, -, here, after⟩ := @revised_some _ entry _ _ found
      have was := mine x found
      have is := stays x x' here was
      simp [after, was, is]

/-- An entry that is revised does not stay. -/
theorem touched (found : revised revise transcript = some x) (kept : p x = true)
    (changes : ∀ x', revise x = some x' → x' ≠ x) :
    (reviseOrAppend revise entry transcript).filter p ≠ transcript.filter p := by
  obtain ⟨front, back, x', rfl, -, here, after⟩ := @revised_some _ entry _ _ found
  intro same
  rw [after, List.filter_append, List.filter_append, List.append_cancel_left_eq,
    List.filter_cons_of_pos kept, List.filter_cons] at same
  by_cases is : p x' = true
  · rw [if_pos is] at same
    exact changes x' here (List.cons.inj same).1
  · rw [if_neg is] at same
    have lengths := congrArg List.length same
    simp at lengths

/-- The entries that are revised or appended are so alone. -/
theorem alone (mine : ∀ y, revised revise transcript = some y → p y = true)
    (stays : ∀ y y', revise y = some y' → p y = true → p y' = true) (new : p entry = true) :
    (reviseOrAppend revise entry transcript).filter p =
      reviseOrAppend revise entry (transcript.filter p) := by
  cases found : revised revise transcript with
  | none =>
      have quiet := revised_none found
      rw [reviseOrAppend_of_none quiet, reviseOrAppend_of_none fun y member =>
        quiet y (List.mem_of_mem_filter member)]
      simp [new]
  | some x =>
      obtain ⟨front, back, x', rfl, quiet, here, after⟩ := @revised_some _ entry _ _ found
      have was := mine x found
      have is := stays x x' here was
      have quiet' : ∀ y ∈ back.filter p, revise y = none := fun y member =>
        quiet y (List.mem_of_mem_filter member)
      rw [after, List.filter_append, List.filter_append, List.filter_cons_of_pos was,
        List.filter_cons_of_pos is, reviseOrAppend, reviseLast_back quiet', here, Option.getD_some]

end

/-! ## The updates as revisions -/

/-- The revision of `update_last_generic_tool_call`. -/
def endOfTool (name : String) (callId outputPreview : Option String) (success : Bool)
    (exitCode : Option Int32) (durationMs : Option UInt64) :
    TranscriptEntry → Option TranscriptEntry
  | .genericToolCall existingName existing inputPreview _ _ true _ _ =>
      if AppState.sameCall callId existing || existingName == name then
        some (.genericToolCall existingName (existing.or callId) inputPreview outputPreview success
          false exitCode durationMs)
      else none
  | _ => none

namespace CallUpdate

/-- What the update makes of an entry that it is for. -/
def revise : CallUpdate → TranscriptEntry → Option TranscriptEntry
  | commandStarted .., _ | toolStarted .., _ => none
  | commandOutput callId delta, y => outputOfSlot (some callId) delta y
  | commandFinished callId finish, y =>
      endOfSlot (some callId) finish.outputPreview finish.status finish.exitCode finish.durationMs y
  | toolFinished name callId finish, y =>
      endOfTool name (some callId) finish.outputPreview finish.success finish.exitCode
        finish.durationMs y

/-- The entry that is appended where there is none to revise. -/
def fresh : CallUpdate → TranscriptEntry
  | commandStarted callId inputPreview source =>
      .execCommand (some callId) source true inputPreview none .inProgress none none
  | commandOutput callId delta =>
      .execCommand (some callId) none false none (some delta) .inProgress none none
  | commandFinished callId finish =>
      .execCommand (some callId) none false none finish.outputPreview finish.status finish.exitCode
        finish.durationMs
  | toolStarted name callId inputPreview =>
      .genericToolCall name (some callId) inputPreview none true true none none
  | toolFinished name callId finish =>
      .genericToolCall name (some callId) none finish.outputPreview finish.success false
        finish.exitCode finish.durationMs

/-- Nothing is done for an empty output. -/
def silent : CallUpdate → Bool
  | commandOutput _ delta => delta == ""
  | _ => false

variable {update : CallUpdate} {transcript : List TranscriptEntry} {y y' : TranscriptEntry}

theorem take_of_silent (quiet : update.silent = true) : callLog.take transcript update = transcript := by
  cases update with
  | commandOutput callId delta => exact if_pos (beq_iff_eq.mp quiet)
  | _ => cases quiet

theorem take_eq (loud : update.silent = false) :
    callLog.take transcript update = reviseOrAppend update.revise update.fresh transcript := by
  cases update with
  | commandStarted | toolStarted => exact (reviseOrAppend_of_none fun _ _ => rfl).symm
  | commandOutput callId delta => exact if_neg (beq_eq_false_iff_ne.mp loud)
  | commandFinished | toolFinished => rfl

theorem fresh_callId : entryCallId update.fresh = some update.callId := by
  cases update <;> rfl

/-- A revised entry of the call stays the call's. -/
theorem revise_callId (here : update.revise y = some y') (mine : entryCallId y = some update.callId) :
    entryCallId y' = some update.callId := by
  cases update with
  | commandStarted | toolStarted => cases here
  | commandOutput callId delta =>
      cases y with
      | execCommand existing _ _ _ _ status =>
          cases status <;> simp only [revise, outputOfSlot, reduceCtorEq] at here
          split at here <;> cases here
          exact mine
      | _ => cases here
  | commandFinished callId finish =>
      cases y with
      | execCommand existing _ _ _ _ status =>
          cases status <;> simp only [revise, endOfSlot, reduceCtorEq] at here
          split at here <;> cases here
          cases mine
          rfl
      | _ => cases here
  | toolFinished name callId finish =>
      cases y with
      | genericToolCall existingName existing _ _ _ started =>
          cases started <;> simp only [revise, endOfTool, reduceCtorEq] at here
          split at here <;> cases here
          cases mine
          rfl
      | _ => cases here

theorem endOfTool_isSome {name callId : String} {finish : ToolEnd} :
    ((toolFinished name callId finish).revise y).isSome = openTool name callId y := by
  cases y with
  | genericToolCall existingName existing _ _ _ started =>
      cases started with
      | false => rfl
      | true =>
          simp only [revise, endOfTool, openTool]
          split <;> simp_all
  | _ => rfl

/-- The end of a tool shows in its entry. -/
theorem endOfTool_changes {name callId : String} {finish : ToolEnd}
    (here : (toolFinished name callId finish).revise y = some y') : y' ≠ y := by
  cases y with
  | genericToolCall existingName existing _ _ _ started =>
      cases started <;> simp only [revise, endOfTool, reduceCtorEq] at here
      split at here <;> cases here
      simp
  | _ => cases here

/-- A command is found by its id only, so the entry that is revised is the call's. -/
theorem revised_mine (finds : FindsOwn transcript update) (found : revised update.revise transcript = some y) :
    entryCallId y = some update.callId := by
  have taken := (lastEntry_some found).1
  cases update with
  | commandStarted | toolStarted => cases taken
  | commandOutput callId delta =>
      cases y with
      | execCommand existing _ _ _ _ status =>
          cases status <;> simp [revise, outputOfSlot, AppState.sameCall] at taken
          exact taken
      | _ => cases taken
  | commandFinished callId finish =>
      cases y with
      | execCommand existing _ _ _ _ status =>
          cases status <;> simp [revise, endOfSlot, AppState.sameCall] at taken
          exact taken
      | _ => cases taken
  | toolFinished name callId finish =>
      apply finds y
      rw [← found, revised]
      exact congrArg (lastEntry · transcript) (funext fun _ => endOfTool_isSome.symm)

theorem changes_own_iff : callLog.others update.callId (callLog.take transcript update) =
    callLog.others update.callId transcript ↔ FindsOwn transcript update := by
  constructor
  · intro same
    cases update with
    | toolFinished name callId finish =>
        intro x found
        apply Classical.byContradiction
        intro other
        have found' : revised (toolFinished name callId finish).revise transcript = some x := by
          rw [← found, revised]
          exact congrArg (lastEntry · transcript) (funext fun _ => endOfTool_isSome)
        have kept : (entryCallId x != some callId) = true := bne_iff_ne.mpr other
        exact @touched _ _ x (fun y => entryCallId y != some callId) transcript found' kept
          (fun _ here => endOfTool_changes here) same
    | _ => trivial
  · intro finds
    cases quiet : update.silent with
    | true => rw [take_of_silent quiet]
    | false =>
        rw [take_eq quiet]
        apply spared
        · intro y found
          exact bne_eq_false_iff_eq.mpr (revised_mine finds found)
        · intro y y' here mine
          exact bne_eq_false_iff_eq.mpr (revise_callId here (bne_eq_false_iff_eq.mp mine))
        · exact bne_eq_false_iff_eq.mpr fresh_callId

theorem separates (finds : FindsOwn transcript update) : callLog.Separates transcript update where
  spares := fun key apart =>
    Owners.Log.own_of_others (changes_own_iff.mpr finds) fun same => apart (congrArg some same.symm)
  alone := by
    intro key mine
    cases mine
    cases quiet : update.silent with
    | true => rw [take_of_silent quiet, take_of_silent quiet]
    | false =>
        rw [take_eq quiet, take_eq quiet]
        apply alone
        · intro y found
          exact beq_iff_eq.mpr (revised_mine finds found)
        · intro y y' here mine
          exact beq_iff_eq.mpr (revise_callId here (beq_iff_eq.mp mine))
        · exact beq_iff_eq.mpr fresh_callId

end CallUpdate

/-! ## One call alone -/

namespace Call

variable {callId : String} {transcript : List TranscriptEntry}

theorem revise_last {revise : TranscriptEntry → Option TranscriptEntry} {entry x x' : TranscriptEntry}
    (here : revise x = some x') :
    reviseOrAppend revise entry (transcript ++ [x]) = transcript ++ [x'] := by
  have quiet : ∀ y ∈ ([] : List TranscriptEntry), revise y = none := fun _ member => by cases member
  rw [reviseOrAppend, reviseLast_back quiet, here, Option.getD_some]

theorem outputAfter_cons (earlier : Option String) (delta : String) (deltas : List String) :
    outputAfter earlier (delta :: deltas) =
      outputAfter (if delta = "" then earlier else some (earlier.getD "" ++ delta)) deltas := by
  rw [outputAfter, outputAfter, String.join_cons]
  by_cases empty : delta = ""
  · simp [empty]
  · by_cases rest : String.join deltas = "" <;> simp [empty, rest, String.append_assoc]

theorem final_outputs {source inputPreview : Option String} {deltas : List String}
    {earlier : Option String} :
    final callLog.step (transcript ++ [.execCommand (some callId) source true inputPreview earlier
        .inProgress none none]) (deltas.map (.commandOutput callId)) =
      transcript ++ [.execCommand (some callId) source true inputPreview (outputAfter earlier deltas)
        .inProgress none none] := by
  induction deltas generalizing earlier with
  | nil => rfl
  | cons delta deltas ih =>
      rw [List.map_cons, final_cons, outputAfter_cons, ← ih]
      refine congrArg (final callLog.step · _) ?_
      by_cases empty : delta = ""
      · rw [if_pos empty]
        have quiet : (CallUpdate.commandOutput callId delta).silent = true := beq_iff_eq.mpr empty
        exact CallUpdate.take_of_silent quiet
      · rw [if_neg empty]
        have loud : (CallUpdate.commandOutput callId delta).silent = false :=
          beq_eq_false_iff_ne.mpr empty
        refine (CallUpdate.take_eq loud).trans (revise_last ?_)
        simp [CallUpdate.revise, outputOfSlot, AppState.sameCall]

/-- The updates of a call, with nothing in between, append its entry. -/
theorem final_updates (call : Call) :
    final callLog.step transcript call.updates = transcript ++ [call.entry] := by
  cases call with
  | command callId inputPreview source deltas finish =>
      rw [updates, final_cons, final_append]
      have outputs := @final_outputs callId transcript source inputPreview deltas none
      refine (congrArg (final callLog.step · _) outputs).trans ?_
      cases finish with
      | none => rfl
      | some finish =>
          refine revise_last ?_
          simp [AppState.sameCall, entry]
  | tool name callId inputPreview finish =>
      cases finish with
      | none => rfl
      | some finish =>
          refine revise_last ?_
          simp [AppState.sameCall, entry]

end Call

/-! ## All of them at once -/

/-- The calls stay apart exactly when each end of a tool finds its own. -/
theorem calls_apart_iff (transcript : List TranscriptEntry) (updates : List CallUpdate) :
    CallsApart transcript updates ↔
      ∀ x ∈ history callLog.step transcript updates, FindsOwn x.before x.event := by
  have each : ∀ x ∈ history callLog.step transcript updates, ChangesOwn x ↔ FindsOwn x.before x.event :=
    history_steps fun _ _ => CallUpdate.changes_own_iff
  constructor
  · intro apart x member
    exact (each x member).mp (apart.changes x member)
  · intro finds
    refine ⟨fun x member => (each x member).mpr (finds x member), fun call whole => ?_⟩
    rw [Owners.Log.own_final fun x member => CallUpdate.separates (finds x member), whole]
    exact call.final_updates

/-- Two searches at once, the first of which ends first: its result is put into the entry of the
    second. -/
theorem searches_mixed : ¬ ∀ (transcript : List TranscriptEntry) (updates : List CallUpdate),
    CallsApart transcript updates := by
  intro all
  have apart := all [] [.toolStarted "search" "call-1" none, .toolStarted "search" "call-2" none,
    .toolFinished "search" "call-1" ⟨some "found", true, none, none⟩]
  have entries := apart.entries (.tool "search" "call-2" none none) rfl
  exact absurd entries (by decide)

end AgileAgent.Core.Loop
