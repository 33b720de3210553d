import AgileAgent.Machine
import AgileAgent.Core.Loop.LoopRunner

/-! # The transcript of a slot

The view of several agents keeps a transcript in each slot, with functions of its own beside those
of the single agent. They differ in which command an end or an output without its own is for.
-/

namespace AgileAgent.Core.Loop

open RuntimeDomain

/-! ## The functions of a slot -/

/-- Revise the last entry that can be, or append an entry of its own. -/
def reviseOrAppend (revise : TranscriptEntry → Option TranscriptEntry) (entry : TranscriptEntry)
    (transcript : List TranscriptEntry) : List TranscriptEntry :=
  (reviseLast revise transcript).getD (transcript ++ [entry])

namespace SlotTranscript

def updateLastExecCommand (transcript : List TranscriptEntry) (callId outputPreview : Option String)
    (status : ExecCommandStatus) (exitCode : Option Int32) (durationMs : Option UInt64) :
    List TranscriptEntry :=
  let revise : TranscriptEntry → Option TranscriptEntry
    | .execCommand existing source allowExploringGroup inputPreview _ .inProgress _ _ =>
        if AppState.sameCall callId existing || callId.isNone then
          some (.execCommand (existing.or callId) source allowExploringGroup inputPreview
            outputPreview status exitCode durationMs)
        else none
    | _ => none
  reviseOrAppend revise
    (.execCommand callId none false none outputPreview status exitCode durationMs) transcript

def appendExecCommandOutputDelta (transcript : List TranscriptEntry) (callId : Option String)
    (delta : String) : List TranscriptEntry :=
  if delta = "" then transcript
  else
    let revise : TranscriptEntry → Option TranscriptEntry
      | .execCommand existing source allowExploringGroup inputPreview outputPreview .inProgress
          exitCode durationMs =>
          if AppState.sameCall callId existing || callId.isNone then
            some (.execCommand existing source allowExploringGroup inputPreview
              (some (outputPreview.getD "" ++ delta)) .inProgress exitCode durationMs)
          else none
      | _ => none
    reviseOrAppend revise
      (.execCommand callId none false none (some delta) .inProgress none none) transcript

def updateLastGenericToolCall (transcript : List TranscriptEntry) (name : String)
    (callId outputPreview : Option String) (success : Bool) (exitCode : Option Int32)
    (durationMs : Option UInt64) : List TranscriptEntry :=
  let revise : TranscriptEntry → Option TranscriptEntry
    | .genericToolCall existingName existing inputPreview _ _ true _ _ =>
        if AppState.sameCall callId existing || existingName == name then
          some (.genericToolCall existingName (existing.or callId) inputPreview outputPreview success
            false exitCode durationMs)
        else none
    | _ => none
  reviseOrAppend revise
    (.genericToolCall name callId none outputPreview success false exitCode durationMs) transcript

/-- `append_agent_transcript_chunk`, for the assistant and for thinking. -/
def appendAssistantChunk (transcript : List TranscriptEntry) (chunk : String) :
    List TranscriptEntry :=
  match transcript.getLast? with
  | some (.assistant text) => transcript.dropLast ++ [.assistant (text ++ chunk)]
  | _ => transcript ++ [.assistant chunk]

def appendThinkingChunk (transcript : List TranscriptEntry) (chunk : String) :
    List TranscriptEntry :=
  match transcript.getLast? with
  | some (.thinking text) => transcript.dropLast ++ [.thinking (text ++ chunk)]
  | _ => transcript ++ [.thinking chunk]

/-- What `handle_agent_provider_event` does to the transcript of the agent's slot. The other
    events do nothing to it. -/
def take (transcript : List TranscriptEntry) : DomainEvent → List TranscriptEntry
  | .status text => transcript ++ [.status text]
  | .assistantChunk chunk => appendAssistantChunk transcript chunk
  | .thinkingChunk chunk => appendThinkingChunk transcript chunk
  | .error error => transcript ++ [.error error]
  | .execCommandStarted callId inputPreview source =>
      transcript ++ [.execCommand callId source true inputPreview none .inProgress none none]
  | .execCommandFinished callId outputPreview status exitCode durationMs _ =>
      updateLastExecCommand transcript callId outputPreview status exitCode durationMs
  | .execCommandOutputDelta callId delta => appendExecCommandOutputDelta transcript callId delta
  | .genericToolCallStarted name callId inputPreview =>
      transcript ++ [.genericToolCall name callId inputPreview none true true none none]
  | .genericToolCallFinished name callId outputPreview success exitCode durationMs =>
      updateLastGenericToolCall transcript name callId outputPreview success exitCode durationMs
  | _ => transcript

end SlotTranscript

/-! ## Where an event goes -/

section

variable {revise revise' : TranscriptEntry → Option TranscriptEntry}
  {front back transcript : List TranscriptEntry} {x : TranscriptEntry}

theorem reviseLast_of_none (none : ∀ y ∈ transcript, revise y = Option.none) :
    reviseLast revise transcript = Option.none := by
  induction transcript with
  | nil => rfl
  | cons y rest ih =>
      rw [List.forall_mem_cons] at none
      simp [reviseLast, ih none.2, none.1]

theorem reviseLast_back (quiet : ∀ y ∈ back, revise y = none) :
    reviseLast revise (front ++ x :: back) = match revise x with
      | some entry => some (front ++ entry :: back)
      | none => (reviseLast revise front).map (· ++ x :: back) := by
  induction front with
  | nil => cases here : revise x <;> simp [reviseLast, reviseLast_of_none quiet, here]
  | cons y front ih =>
      rw [List.cons_append, reviseLast, ih]
      cases here : revise x with
      | some entry => rfl
      | none =>
          cases later : reviseLast revise front <;> cases earlier : revise y <;>
            simp [reviseLast, later, earlier]

theorem reviseLast_length {revised : List TranscriptEntry}
    (found : reviseLast revise transcript = some revised) : revised.length = transcript.length := by
  induction transcript generalizing revised with
  | nil => cases found
  | cons y rest ih =>
      rw [reviseLast] at found
      cases later : reviseLast revise rest with
      | some revised' =>
          rw [later] at found
          cases found
          simp [ih later]
      | none =>
          rw [later] at found
          obtain ⟨entry, -, rfl⟩ := Option.map_eq_some_iff.mp found
          rfl

/-- The last entry with a property. -/
def lastEntry (p : TranscriptEntry → Bool) (transcript : List TranscriptEntry) :
    Option TranscriptEntry :=
  transcript.reverse.find? p

theorem lastEntry_none {p : TranscriptEntry → Bool} (none : lastEntry p transcript = Option.none) :
    ∀ y ∈ transcript, p y = false := by
  intro y member
  have := List.find?_eq_none.mp none y (List.mem_reverse.mpr member)
  simpa using this

theorem lastEntry_some {p : TranscriptEntry → Bool} (found : lastEntry p transcript = some x) :
    p x = true ∧ ∃ front back, transcript = front ++ x :: back ∧ ∀ y ∈ back, p y = false := by
  obtain ⟨matches_x, later, earlier, split, quiet⟩ := List.find?_eq_some_iff_append.mp found
  refine ⟨matches_x, earlier.reverse, later.reverse, ?_, fun y member => ?_⟩
  · rw [← List.reverse_reverse transcript, split]
    simp
  · simpa using quiet y (List.mem_reverse.mp member)

theorem lastEntry_back {p : TranscriptEntry → Bool} (quiet : ∀ y ∈ x :: back, p y = false) :
    lastEntry p (front ++ x :: back) = lastEntry p front := by
  have none : (x :: back).reverse.find? p = Option.none := by
    rw [List.find?_eq_none]
    intro y member
    simp [quiet y (List.mem_reverse.mp member)]
  rw [lastEntry, lastEntry, List.reverse_append, List.find?_append, none, Option.none_or]

theorem lastEntry_here {p : TranscriptEntry → Bool} (here : p x = true)
    (quiet : ∀ y ∈ back, p y = false) : lastEntry p (front ++ x :: back) = some x := by
  have none : back.reverse.find? p = Option.none := by
    rw [List.find?_eq_none]
    intro y member
    simp [quiet y (List.mem_reverse.mp member)]
  simp [lastEntry, List.find?_append, none, here]

/-- Nothing is revised by either, and each appends an entry of its own. -/
theorem append_alike_iff {entry entry' : TranscriptEntry}
    (quiet : ∀ y ∈ transcript, revise y = none ∧ revise' y = none) :
    reviseOrAppend revise entry transcript = reviseOrAppend revise' entry' transcript ↔
      entry = entry' := by
  rw [reviseOrAppend, reviseOrAppend, reviseLast_of_none fun y member => (quiet y member).1,
    reviseLast_of_none fun y member => (quiet y member).2]
  simp

/-- Both revise the same entry. -/
theorem revise_alike_iff {entry entry' a b : TranscriptEntry}
    (quiet : ∀ y ∈ back, revise y = none ∧ revise' y = none) (here : revise x = some a)
    (here' : revise' x = some b) :
    reviseOrAppend revise entry (front ++ x :: back) =
      reviseOrAppend revise' entry' (front ++ x :: back) ↔ a = b := by
  rw [reviseOrAppend, reviseOrAppend, reviseLast_back fun y member => (quiet y member).1,
    reviseLast_back fun y member => (quiet y member).2, here, here']
  simp

/-- Only one of them revises the last entry, so they agree only if both change nothing. -/
theorem revise_apart_iff {entry entry' a : TranscriptEntry}
    (quiet : ∀ y ∈ back, revise y = none ∧ revise' y = none) (here : revise x = some a)
    (here' : revise' x = none) :
    reviseOrAppend revise entry (front ++ x :: back) =
      reviseOrAppend revise' entry' (front ++ x :: back) ↔
        a = x ∧ reviseLast revise' front = some front := by
  rw [reviseOrAppend, reviseOrAppend, reviseLast_back fun y member => (quiet y member).1,
    reviseLast_back fun y member => (quiet y member).2, here, here']
  cases earlier : reviseLast revise' front with
  | none =>
      simp only [Option.getD_some, Option.map_none, Option.getD_none, reduceCtorEq, and_false,
        iff_false]
      intro same
      have lengths := congrArg List.length same
      simp at lengths
  | some front' =>
      simp only [Option.getD_some, Option.map_some, Option.some.injEq]
      have lengths : front.length = front'.length := (reviseLast_length earlier).symm
      constructor
      · intro same
        obtain ⟨rfl, rest⟩ := List.append_inj same lengths
        exact ⟨(List.cons.inj rest).1, rfl⟩
      · rintro ⟨rfl, rfl⟩
        rfl

/-- A revision that changes nothing finds its entry as it is to be. -/
theorem reviseLast_same_iff {p : TranscriptEntry → Bool}
    (takes : ∀ y, p y = (revise y).isSome) :
    reviseLast revise transcript = some transcript ↔
      ∃ y, lastEntry p transcript = some y ∧ revise y = some y := by
  cases found : lastEntry p transcript with
  | none =>
      have quiet : ∀ y ∈ transcript, revise y = none := fun y member => by
        have := takes y ▸ lastEntry_none found y member
        simpa using this
      simp [reviseLast_of_none quiet]
  | some y =>
      obtain ⟨taken, front, back, rfl, quiet⟩ := lastEntry_some found
      have quiet' : ∀ y ∈ back, revise y = none := fun y member => by
        have := takes y ▸ quiet y member
        simpa using this
      obtain ⟨entry, here⟩ := Option.isSome_iff_exists.mp (takes y ▸ taken)
      simp [reviseLast_back quiet', here]

end

/-! ## The end of a command -/

/-- The revision of `push_exec_command_finished`. -/
def endOfApp (callId outputPreview : Option String) (status : ExecCommandStatus)
    (exitCode : Option Int32) (durationMs : Option UInt64) (source : Option String) :
    TranscriptEntry → Option TranscriptEntry
  | .execCommand existing existingSource allowExploringGroup inputPreview _ .inProgress _ _ =>
      if AppState.sameCall callId existing || existing.isNone then
        some (.execCommand (existing.or callId) (existingSource.or source) allowExploringGroup
          inputPreview outputPreview status exitCode durationMs)
      else none
  | _ => none

/-- The revision of `update_last_exec_command`. -/
def endOfSlot (callId outputPreview : Option String) (status : ExecCommandStatus)
    (exitCode : Option Int32) (durationMs : Option UInt64) :
    TranscriptEntry → Option TranscriptEntry
  | .execCommand existing source allowExploringGroup inputPreview _ .inProgress _ _ =>
      if AppState.sameCall callId existing || callId.isNone then
        some (.execCommand (existing.or callId) source allowExploringGroup inputPreview
          outputPreview status exitCode durationMs)
      else none
  | _ => none

/-- A running command that an end is for by the rule of one or the other. -/
def mayEnd (callId : Option String) : TranscriptEntry → Bool
  | .execCommand existing _ _ _ _ .inProgress _ _ =>
      existing == callId || existing.isNone || callId.isNone
  | _ => false

def runsUnnamed : TranscriptEntry → Bool
  | .execCommand none _ _ _ _ .inProgress _ _ => true
  | _ => false

/-- The command has the id of the end, and its own source or none to get. -/
def endsAlike (callId source : Option String) : TranscriptEntry → Bool
  | .execCommand existing existingSource _ _ _ _ _ _ =>
      existing == callId && (existingSource.isSome || source.isNone)
  | _ => false

/-- What an end reports is what the entry of the command says already. -/
def endsAsItIs (outputPreview : Option String) (status : ExecCommandStatus)
    (exitCode : Option Int32) (durationMs : Option UInt64) : TranscriptEntry → Bool
  | .execCommand _ _ _ _ output status' exitCode' durationMs' =>
      outputPreview == output && status == status' && exitCode == exitCode' &&
        durationMs == durationMs'
  | _ => false

section

variable {callId outputPreview source : Option String} {status : ExecCommandStatus}
  {exitCode : Option Int32} {durationMs : Option UInt64} {y : TranscriptEntry}

theorem mayEnd_false (other : mayEnd callId y = false) :
    endOfApp callId outputPreview status exitCode durationMs source y = none ∧
      endOfSlot callId outputPreview status exitCode durationMs y = none := by
  cases y with
  | execCommand existing _ _ _ _ running _ _ =>
      cases running with
      | inProgress =>
          simp only [mayEnd, Bool.or_eq_false_iff] at other
          obtain ⟨⟨apart, named⟩, called⟩ := other
          have differ : AppState.sameCall callId existing = false := by
            simp [AppState.sameCall, apart]
          simp [endOfApp, endOfSlot, differ, named, called]
      | _ => exact ⟨rfl, rfl⟩
  | _ => exact ⟨rfl, rfl⟩

theorem runsUnnamed_eq :
    runsUnnamed y =
      (endOfApp none outputPreview status exitCode durationMs source y).isSome := by
  cases y with
  | execCommand existing _ _ _ _ running _ _ =>
      cases running <;> cases existing <;> simp [runsUnnamed, endOfApp, AppState.sameCall]
  | _ => rfl

theorem unnamed_fixed_iff (unnamed : runsUnnamed y = true) :
    endOfApp none outputPreview status exitCode durationMs source y = some y ↔
      endsAsItIs outputPreview status exitCode durationMs y = true ∧
        endsAlike none source y = true := by
  cases y with
  | execCommand existing existingSource _ _ _ running _ _ =>
      cases running <;> cases existing <;> simp only [runsUnnamed, Bool.false_eq_true] at unnamed
      cases existingSource <;> cases source <;>
        simp [endOfApp, endsAsItIs, endsAlike, AppState.sameCall, and_assoc]
  | _ => cases unnamed

end

/-- The commands that an end meets in a transcript are such that both rules write it alike: the
    last command that one of them takes has the id of the end and a source. Or, where it has no
    such id, both rules report to their command what it says already. -/
def EndAgrees (transcript : List TranscriptEntry) (callId outputPreview : Option String)
    (status : ExecCommandStatus) (exitCode : Option Int32) (durationMs : Option UInt64)
    (source : Option String) : Prop :=
  match lastEntry (mayEnd callId) transcript with
  | none => source = none
  | some entry =>
      endsAlike callId source entry = true ∨
        (callId = none ∧ endsAsItIs outputPreview status exitCode durationMs entry = true ∧
          ∃ other, lastEntry runsUnnamed transcript = some other ∧
            endsAsItIs outputPreview status exitCode durationMs other = true ∧
            endsAlike none source other = true)

section

variable {callId outputPreview source : Option String} {status : ExecCommandStatus}
  {exitCode : Option Int32} {durationMs : Option UInt64} {front back : List TranscriptEntry}

theorem unnamed_mayEnd {y : TranscriptEntry} (other : mayEnd callId y = false) :
    runsUnnamed y = false := by
  cases y with
  | execCommand existing _ _ _ _ running _ _ =>
      cases running <;> cases existing <;> simp_all [mayEnd, runsUnnamed]
  | _ => rfl

/-- An end for a command that both rules take. -/
theorem end_of_named {x : TranscriptEntry} (quiet : ∀ y ∈ back, mayEnd callId y = false)
    (taken : mayEnd callId x = true) {entry entry' : TranscriptEntry}
    (named : endsAlike callId none x = true) :
    reviseOrAppend (endOfApp callId outputPreview status exitCode durationMs source) entry
        (front ++ x :: back) =
      reviseOrAppend (endOfSlot callId outputPreview status exitCode durationMs) entry'
        (front ++ x :: back) ↔ endsAlike callId source x = true := by
  cases x with
  | execCommand existing existingSource allowed input output running exit duration =>
      cases running with
      | inProgress =>
          have same : existing = callId := by simpa [endsAlike] using named
          subst same
          have here : endOfApp existing outputPreview status exitCode durationMs source
              (.execCommand existing existingSource allowed input output .inProgress exit duration) =
              some (.execCommand existing (existingSource.or source) allowed input outputPreview
                status exitCode durationMs) := by
            cases existing <;> simp [endOfApp, AppState.sameCall]
          have here' : endOfSlot existing outputPreview status exitCode durationMs
              (.execCommand existing existingSource allowed input output .inProgress exit duration) =
              some (.execCommand existing existingSource allowed input outputPreview
                status exitCode durationMs) := by
            cases existing <;> simp [endOfSlot, AppState.sameCall]
          rw [revise_alike_iff (fun y member => mayEnd_false (quiet y member)) here here']
          cases existingSource <;> cases source <;> simp [endsAlike]
      | _ => cases taken
  | _ => cases taken

/-- A named end: the slot does not take an unnamed command for its own, the other one does. -/
theorem end_of_unnamed {x : TranscriptEntry} {name : String}
    (quiet : ∀ y ∈ back, mayEnd (some name) y = false) (unnamed : runsUnnamed x = true)
    {entry entry' : TranscriptEntry} :
    reviseOrAppend (endOfApp (some name) outputPreview status exitCode durationMs source) entry
        (front ++ x :: back) ≠
      reviseOrAppend (endOfSlot (some name) outputPreview status exitCode durationMs) entry'
        (front ++ x :: back) := by
  cases x with
  | execCommand existing existingSource allowed input output running exit duration =>
      cases running <;> cases existing <;> simp only [runsUnnamed, Bool.false_eq_true] at unnamed
      have here : endOfApp (some name) outputPreview status exitCode durationMs source
          (.execCommand none existingSource allowed input output .inProgress exit duration) =
          some (.execCommand (some name) (existingSource.or source) allowed input outputPreview
            status exitCode durationMs) := rfl
      have here' : endOfSlot (some name) outputPreview status exitCode durationMs
          (.execCommand none existingSource allowed input output .inProgress exit duration) =
          none := rfl
      intro same
      have fixed := (revise_apart_iff (fun y member => mayEnd_false (quiet y member)) here here').mp
        same
      simp at fixed
  | _ => cases unnamed

/-- An unnamed end: the slot takes it for the named command, the other one for an unnamed one before,
    and they agree if both commands say already what the end reports. -/
theorem end_of_stranger {existing : String} {existingSource input output : Option String}
    {allowed : Bool} {exit : Option Int32} {duration : Option UInt64}
    (quiet : ∀ y ∈ back, mayEnd none y = false) {entry entry' : TranscriptEntry} :
    reviseOrAppend (endOfApp none outputPreview status exitCode durationMs source) entry
        (front ++ .execCommand (some existing) existingSource allowed input output .inProgress exit
          duration :: back) =
      reviseOrAppend (endOfSlot none outputPreview status exitCode durationMs) entry'
        (front ++ .execCommand (some existing) existingSource allowed input output .inProgress exit
          duration :: back) ↔
      endsAsItIs outputPreview status exitCode durationMs (.execCommand (some existing)
          existingSource allowed input output .inProgress exit duration) = true ∧
        ∃ other, lastEntry runsUnnamed (front ++ .execCommand (some existing) existingSource allowed
            input output .inProgress exit duration :: back) = some other ∧
          endsAsItIs outputPreview status exitCode durationMs other = true ∧
          endsAlike none source other = true := by
  have here : endOfSlot none outputPreview status exitCode durationMs
      (.execCommand (some existing) existingSource allowed input output .inProgress exit duration) =
      some (.execCommand (some existing) existingSource allowed input outputPreview status exitCode
        durationMs) := rfl
  have here' : endOfApp none outputPreview status exitCode durationMs source
      (.execCommand (some existing) existingSource allowed input output .inProgress exit duration) =
      none := rfl
  have unnamed : lastEntry runsUnnamed (front ++ .execCommand (some existing) existingSource allowed
      input output .inProgress exit duration :: back) = lastEntry runsUnnamed front := by
    apply lastEntry_back
    rw [List.forall_mem_cons]
    exact ⟨rfl, fun y member => unnamed_mayEnd (quiet y member)⟩
  rw [eq_comm, revise_apart_iff (fun y member => (mayEnd_false (quiet y member)).symm) here here',
    reviseLast_same_iff fun y => runsUnnamed_eq, unnamed]
  constructor
  · rintro ⟨same, other, found, fixed⟩
    refine ⟨?_, other, found, (unnamed_fixed_iff (lastEntry_some found).1).mp fixed⟩
    simpa [endsAsItIs, and_assoc] using same
  · rintro ⟨same, other, found, fixed⟩
    refine ⟨?_, other, found, (unnamed_fixed_iff (lastEntry_some found).1).mpr fixed⟩
    simpa [endsAsItIs, and_assoc] using same

theorem end_agrees_iff (transcript : List TranscriptEntry) :
    reviseOrAppend (endOfApp callId outputPreview status exitCode durationMs source)
        (.execCommand callId source false none outputPreview status exitCode durationMs)
        transcript =
      reviseOrAppend (endOfSlot callId outputPreview status exitCode durationMs)
        (.execCommand callId none false none outputPreview status exitCode durationMs)
        transcript ↔
      EndAgrees transcript callId outputPreview status exitCode durationMs source := by
  unfold EndAgrees
  cases found : lastEntry (mayEnd callId) transcript with
  | none =>
      rw [append_alike_iff fun y member => mayEnd_false (lastEntry_none found y member)]
      simp
  | some x =>
      obtain ⟨taken, front, back, rfl, quiet⟩ := lastEntry_some found
      cases x with
      | execCommand existing existingSource allowed input output running exit duration =>
          cases running with
          | inProgress =>
              by_cases named : existing = callId
              · subst named
                rw [end_of_named quiet taken (by simp [endsAlike])]
                refine ⟨.inl, fun agrees => agrees.elim id fun degenerate => ?_⟩
                obtain ⟨rfl, -, other, last, -, alike⟩ := degenerate
                rw [lastEntry_here rfl fun y member => unnamed_mayEnd (quiet y member)] at last
                cases last
                exact alike
              · cases existing with
                | none =>
                    obtain ⟨name, rfl⟩ := Option.ne_none_iff_exists'.mp (Ne.symm named)
                    simp [end_of_unnamed quiet (x := .execCommand none existingSource allowed input
                      output .inProgress exit duration) rfl, endsAlike]
                | some existing =>
                    cases callId with
                    | none =>
                        rw [end_of_stranger quiet]
                        simp [endsAlike]
                    | some name =>
                        simp only [Option.some.injEq] at named
                        simp [mayEnd, named] at taken
          | _ => cases taken
      | _ => cases taken

end

/-! ## The output of a command -/

/-- The revision of `append_exec_command_output`. -/
def outputOfApp (callId : Option String) (delta : String) :
    TranscriptEntry → Option TranscriptEntry
  | .execCommand existing source allowExploringGroup inputPreview outputPreview status exitCode
      durationMs =>
      if AppState.sameCall callId existing || callId.isNone then
        some (.execCommand existing source allowExploringGroup inputPreview
          (some (outputPreview.getD "" ++ delta)) status exitCode durationMs)
      else none
  | _ => none

/-- The revision of `append_exec_command_output_delta`. -/
def outputOfSlot (callId : Option String) (delta : String) :
    TranscriptEntry → Option TranscriptEntry
  | .execCommand existing source allowExploringGroup inputPreview outputPreview .inProgress
      exitCode durationMs =>
      if AppState.sameCall callId existing || callId.isNone then
        some (.execCommand existing source allowExploringGroup inputPreview
          (some (outputPreview.getD "" ++ delta)) .inProgress exitCode durationMs)
      else none
  | _ => none

/-- A command that an output is for, running or not. -/
def takesOutput (callId : Option String) : TranscriptEntry → Bool
  | .execCommand existing .. => AppState.sameCall callId existing || callId.isNone
  | _ => false

def running : TranscriptEntry → Bool
  | .execCommand _ _ _ _ _ status _ _ => status == .inProgress
  | _ => false

theorem takesOutput_false {callId : Option String} {y : TranscriptEntry}
    (other : takesOutput callId y = false) (delta : String) :
    outputOfApp callId delta y = none ∧ outputOfSlot callId delta y = none := by
  cases y with
  | execCommand existing _ _ _ _ status _ _ =>
      simp only [takesOutput] at other
      cases status <;> simp [outputOfApp, outputOfSlot, other]
  | _ => exact ⟨rfl, rfl⟩

/-- The last command that the output can be for is still running. -/
def OutputAgrees (transcript : List TranscriptEntry) (callId : Option String) (delta : String) :
    Prop :=
  delta = "" ∨ ∀ entry, lastEntry (takesOutput callId) transcript = some entry →
    running entry = true

theorem output_agrees_iff (transcript : List TranscriptEntry) (callId : Option String)
    {delta : String} (some_output : delta ≠ "") {entry : TranscriptEntry} :
    reviseOrAppend (outputOfApp callId delta) entry transcript =
      reviseOrAppend (outputOfSlot callId delta) entry transcript ↔
      OutputAgrees transcript callId delta := by
  unfold OutputAgrees
  cases found : lastEntry (takesOutput callId) transcript with
  | none =>
      rw [append_alike_iff fun y member => takesOutput_false (lastEntry_none found y member) delta]
      simp
  | some x =>
      obtain ⟨taken, front, back, rfl, quiet⟩ := lastEntry_some found
      have quiet' := fun y member => takesOutput_false (quiet y member) delta
      cases x with
      | execCommand existing source allowed input output status exit duration =>
          simp only [takesOutput] at taken
          have here : outputOfApp callId delta
              (.execCommand existing source allowed input output status exit duration) =
              some (.execCommand existing source allowed input (some (output.getD "" ++ delta))
                status exit duration) := by
            simp [outputOfApp, taken]
          by_cases runs : status = .inProgress
          · subst runs
            have here' : outputOfSlot callId delta
                (.execCommand existing source allowed input output .inProgress exit duration) =
                some (.execCommand existing source allowed input (some (output.getD "" ++ delta))
                  .inProgress exit duration) := by
              simp [outputOfSlot, taken]
            simp [revise_alike_iff quiet' here here', running]
          · have here' : outputOfSlot callId delta
                (.execCommand existing source allowed input output status exit duration) = none := by
              cases status <;> simp_all [outputOfSlot]
            rw [revise_apart_iff quiet' here here']
            have longer : some (output.getD "" ++ delta) ≠ output := by
              cases output with
              | none => simp
              | some text => simp [some_output]
            simp [longer, running, runs, some_output]
      | _ => cases taken

/-! ## The two views -/

/-- The kinds of events that both views write into their transcripts. -/
def shared : DomainEvent → Bool
  | .assistantChunk _ | .thinkingChunk _ | .execCommandStarted .. | .execCommandFinished ..
  | .execCommandOutputDelta .. | .genericToolCallStarted .. | .genericToolCallFinished .. => true
  | _ => false

abbrev SharedEvent := { event : DomainEvent // shared event = true }

/-- The transcript of the single agent's view in its state, and that of a slot. -/
structure Views where
  app : AppState
  slot : List TranscriptEntry

def Views.Same (views : Views) : Prop := views.app.transcript = views.slot

instance (views : Views) : Decidable views.Same :=
  inferInstanceAs (Decidable (views.app.transcript = views.slot))

/-- One event, handled once by each view. -/
def Views.step (views : Views) (event : SharedEvent) : Unit × Views :=
  ((), ⟨views.app.take event.1, SlotTranscript.take views.slot event.1⟩)

/-- The event is written into a transcript alike by both. -/
def Agrees (transcript : List TranscriptEntry) : DomainEvent → Prop
  | .execCommandFinished callId outputPreview status exitCode durationMs source =>
      EndAgrees transcript callId outputPreview status exitCode durationMs source
  | .execCommandOutputDelta callId delta => OutputAgrees transcript callId delta
  | _ => True

theorem reviseOrPush_transcript (s : AppState) (revise : TranscriptEntry → Option TranscriptEntry)
    (entry : TranscriptEntry) :
    (s.reviseOrPush revise entry).transcript = reviseOrAppend revise entry s.transcript := by
  unfold AppState.reviseOrPush reviseOrAppend
  cases reviseLast revise s.transcript <;> rfl

/-- From one transcript, the views write the same exactly where they agree. -/
theorem take_agrees_iff (s : AppState) (event : SharedEvent) :
    (s.take event.1).transcript = SlotTranscript.take s.transcript event.1 ↔
      Agrees s.transcript event.1 := by
  obtain ⟨event, kind⟩ := event
  cases event with
  | assistantChunk chunk =>
      simp only [AppState.take, AppState.appendAssistantChunk, SlotTranscript.take,
        SlotTranscript.appendAssistantChunk, Agrees, iff_true]
      cases s.transcript.getLast? with
      | none => rfl
      | some entry => cases entry <;> rfl
  | thinkingChunk chunk =>
      simp only [AppState.take, AppState.appendThinkingChunk, SlotTranscript.take,
        SlotTranscript.appendThinkingChunk, Agrees, iff_true]
      cases s.transcript.getLast? with
      | none => rfl
      | some entry => cases entry <;> rfl
  | execCommandStarted | genericToolCallStarted => exact iff_of_true rfl trivial
  | execCommandFinished callId outputPreview status exitCode durationMs source =>
      rw [AppState.take, AppState.pushExecCommandFinished, reviseOrPush_transcript]
      exact end_agrees_iff s.transcript
  | execCommandOutputDelta callId delta =>
      rw [AppState.take, AppState.appendExecCommandOutput, SlotTranscript.take,
        SlotTranscript.appendExecCommandOutputDelta]
      by_cases empty : delta = ""
      · rw [if_pos empty, if_pos empty]
        exact iff_of_true rfl (.inl empty)
      · rw [if_neg empty, if_neg empty, reviseOrPush_transcript]
        exact output_agrees_iff s.transcript callId empty
  | genericToolCallFinished =>
      rw [AppState.take, AppState.pushGenericToolCallFinished, reviseOrPush_transcript]
      exact iff_of_true rfl trivial
  | _ => cases kind

theorem step_same_iff {views : Views} (same : views.Same) (event : SharedEvent) :
    (views.step event).2.Same ↔ Agrees views.slot event.1 := by
  have agrees := take_agrees_iff views.app event
  rw [same] at agrees
  exact agrees

/-- The transcripts of both views are the same after every event exactly when each event meets a
    transcript in which it is written alike. -/
theorem transcripts_same_iff (s : AppState) (events : List SharedEvent) :
    (∀ x ∈ Machine.history Views.step ⟨s, s.transcript⟩ events, x.after.Same) ↔
      ∀ x ∈ Machine.history Views.step ⟨s, s.transcript⟩ events, Agrees x.before.slot x.event.1 :=
  @Machine.history_exact Views SharedEvent Unit Views.step Views.Same
    (fun views event => Agrees views.slot event.1) (fun x => x.after.Same)
    (fun _ event same => step_same_iff same event) (fun _ _ _ same => same)
    ⟨s, s.transcript⟩ rfl events

/-- The end of a command that comes without the id of its start is a new entry in the single view,
    and in the slot it ends the command. -/
theorem transcripts_differ : ¬ ∀ events : List SharedEvent,
    (Machine.final Views.step ⟨{}, []⟩ events).Same := by
  intro all
  have same := all [⟨.execCommandStarted (some "exec-1") (some "ls"), rfl⟩,
    ⟨.execCommandFinished none (some "src") .completed, rfl⟩]
  exact absurd same (by decide)

end AgileAgent.Core.Loop
