import AgileAgent.Core.Loop.CallUpdates

/-! # The commands in the transcript of the daemon

The daemon does not use the functions of the slot for what a provider reports. It writes the output
and the end of a command into the last entry of the transcript, if that is a command, and does not
read whose it is. So whatever comes between the start of a command and its end parts them.
-/

namespace AgileAgent.Daemon

open RuntimeDomain Machine
open AgileAgent.Core.Loop (TranscriptEntry CommandEnd)

/-! ## The first phase -/

/-- Change the last entry. -/
def changeLast (change : TranscriptEntry → TranscriptEntry) (transcript : List TranscriptEntry) :
    List TranscriptEntry :=
  match transcript.getLast? with
  | some entry => transcript.dropLast ++ [change entry]
  | none => transcript

def appendOutput (delta : String) : TranscriptEntry → TranscriptEntry
  | .execCommand callId source allowed inputPreview outputPreview status exitCode durationMs =>
      .execCommand callId source allowed inputPreview
        (match outputPreview with
          | some preview => some (preview ++ delta)
          | none => some delta) status exitCode durationMs
  | entry => entry

def finishCommand (outputPreview : Option String) (status : ExecCommandStatus)
    (exitCode : Option Int32) : TranscriptEntry → TranscriptEntry
  | .execCommand callId source allowed inputPreview out _ _ _ =>
      .execCommand callId source allowed inputPreview (if out.isNone then outputPreview else out) status
        exitCode none
  | entry => entry

/-- What `phase_1_poll_provider_events` does to the transcript of the agent's slot for one event. -/
def pollProviderEvent (transcript : List TranscriptEntry) : DomainEvent → List TranscriptEntry
  | .error error => transcript ++ [.error error]
  | .assistantChunk chunk => transcript ++ [.assistant chunk]
  | .thinkingChunk chunk => transcript ++ [.thinking chunk]
  | .status text => transcript ++ [.status text]
  | .execCommandStarted callId inputPreview source =>
      transcript ++ [.execCommand callId source true inputPreview none .inProgress none none]
  | .execCommandOutputDelta _ delta => changeLast (appendOutput delta) transcript
  | .execCommandFinished _ outputPreview status exitCode _ _ =>
      changeLast (finishCommand outputPreview status exitCode) transcript
  | _ => transcript

/-- The command that an entry is about. -/
def commandId : TranscriptEntry → Option String
  | .execCommand callId .. => callId
  | _ => none

/-- What comes to a slot: an event of its provider, or what another part of the daemon notes
    there, which is never a command. -/
inductive SlotInput where
  | fromProvider (event : DomainEvent)
  | noted (entry : TranscriptEntry) (other : commandId entry = none)

/-- The command that an event is about. -/
def SlotInput.callId : SlotInput → Option String
  | fromProvider (.execCommandStarted callId ..) | fromProvider (.execCommandOutputDelta callId _)
  | fromProvider (.execCommandFinished callId ..) => callId
  | _ => none

def SlotInput.take (transcript : List TranscriptEntry) : SlotInput → List TranscriptEntry
  | fromProvider event => pollProviderEvent transcript event
  | noted entry _ => transcript ++ [entry]

/-- The transcript of a slot of the daemon, the commands owned by their ids. -/
def commandLog : Owners.Log TranscriptEntry SlotInput String where
  owner := commandId
  sender := SlotInput.callId
  take := SlotInput.take

/-! ## Commands -/

/-- The course of one command: its start, its outputs and its end if it has come. -/
structure ExecCommand where
  callId : String
  inputPreview : Option String := none
  source : Option String := none
  deltas : List String := []
  finish : Option CommandEnd := none
  finishSource : Option String := none

namespace ExecCommand

def finished (c : ExecCommand) (finish : CommandEnd) : SlotInput :=
  .fromProvider (.execCommandFinished (some c.callId) finish.outputPreview finish.status
    finish.exitCode finish.durationMs c.finishSource)

def inputs (c : ExecCommand) : List SlotInput :=
  .fromProvider (.execCommandStarted (some c.callId) c.inputPreview c.source) ::
    (c.deltas.map (fun delta => .fromProvider (.execCommandOutputDelta (some c.callId) delta)) ++
      c.finish.toList.map c.finished)

/-- The outputs as one text, if there are any. -/
def output (c : ExecCommand) : Option String :=
  if c.deltas = [] then none else some (String.join c.deltas)

/-- The entry that tells of this command and of no other: its outputs or else the output that
    its end reports, and the rest of the end. -/
def entry (c : ExecCommand) : TranscriptEntry :=
  match c.finish with
  | none => .execCommand (some c.callId) c.source true c.inputPreview c.output .inProgress none none
  | some finish =>
      .execCommand (some c.callId) c.source true c.inputPreview (c.output.or finish.outputPreview)
        finish.status finish.exitCode finish.durationMs

end ExecCommand

/-- Each command whose events have come in their order has its entry, behind those that had its
    id before. -/
def TellsCommands (transcript : List TranscriptEntry) (inputs : List SlotInput) : Prop :=
  ∀ c : ExecCommand, commandLog.sent c.callId inputs = c.inputs →
    commandLog.own c.callId (final commandLog.step transcript inputs) =
      commandLog.own c.callId transcript ++ [c.entry]

/-- The last entry is that of the command. -/
def OwnLast (callId : Option String) (transcript : List TranscriptEntry) : Prop :=
  ∃ entry, transcript.getLast? = some entry ∧ commandId entry = callId

/-- An output or an end comes while its command is the last entry, and an end tells no duration. -/
def FindsLast (transcript : List TranscriptEntry) : SlotInput → Prop
  | .fromProvider (.execCommandOutputDelta callId _) => OwnLast callId transcript
  | .fromProvider (.execCommandFinished callId _ _ _ durationMs _) =>
      OwnLast callId transcript ∧ durationMs = none
  | _ => True

/-! ## The last entry -/

section

variable {change : TranscriptEntry → TranscriptEntry} {transcript : List TranscriptEntry}
  {x : TranscriptEntry} {key : String} {callId : Option String}

theorem changeLast_snoc : changeLast change (transcript ++ [x]) = transcript ++ [change x] := by
  simp [changeLast]

theorem own_snoc : commandLog.own key (transcript ++ [x]) =
    commandLog.own key transcript ++ commandLog.own key [x] :=
  Owners.Log.own_append transcript [x]

theorem own_foreign (foreign : commandId x ≠ some key) : commandLog.own key [x] = [] :=
  List.filter_cons_of_neg fun same => foreign (beq_iff_eq.mp same)

theorem own_mine (mine : commandId x = some key) : commandLog.own key [x] = [x] :=
  List.filter_cons_of_pos (beq_iff_eq.mpr mine)

theorem appendOutput_id (delta : String) : commandId (appendOutput delta x) = commandId x := by
  cases x <;> rfl

theorem finishCommand_id {outputPreview : Option String} {status : ExecCommandStatus}
    {exitCode : Option Int32} : commandId (finishCommand outputPreview status exitCode x) = commandId x := by
  cases x <;> rfl

/-- A change to the last entry is a change to its owner's entries. -/
theorem own_changeLast (stays : ∀ y, commandId (change y) = commandId y) (last : OwnLast callId transcript) :
    (callId ≠ some key →
      commandLog.own key (changeLast change transcript) = commandLog.own key transcript) ∧
    (callId = some key →
      commandLog.own key (changeLast change transcript) =
        changeLast change (commandLog.own key transcript)) := by
  obtain ⟨x, found, rfl⟩ := last
  obtain ⟨front, rfl⟩ := List.getLast?_eq_some_iff.mp found
  rw [changeLast_snoc, own_snoc, own_snoc]
  constructor
  · intro foreign
    rw [own_foreign foreign, own_foreign ((stays x).trans_ne foreign)]
  · intro mine
    rw [own_mine mine, own_mine ((stays x).trans mine), changeLast_snoc]

theorem own_append {key : String} (x : TranscriptEntry) :
    (commandId x ≠ some key →
      commandLog.own key (transcript ++ [x]) = commandLog.own key transcript) ∧
    (commandId x = some key →
      commandLog.own key (transcript ++ [x]) = commandLog.own key transcript ++ [x]) := by
  rw [own_snoc]
  constructor
  · intro foreign
    rw [own_foreign foreign, List.append_nil]
  · intro mine
    rw [own_mine mine]

end

/-! ## The commands apart -/

section

variable {transcript : List TranscriptEntry} {input : SlotInput}

/-- An input that finds its command last keeps the commands apart. -/
theorem separates_of_last (finds : FindsLast transcript input) : commandLog.Separates transcript input := by
  cases input with
  | noted entry other =>
      refine ⟨fun key _ => (own_append entry).1 (by simp [other]), fun key mine => ?_⟩
      cases mine
  | fromProvider event =>
      cases event with
      | execCommandStarted callId inputPreview source =>
          have added := fun key => @own_append transcript key
            (.execCommand callId source true inputPreview none .inProgress none none)
          exact ⟨fun key => (added key).1, fun key => (added key).2⟩
      | execCommandOutputDelta callId delta =>
          exact ⟨fun key => (own_changeLast (fun _ => appendOutput_id delta) finds).1,
            fun key => (own_changeLast (fun _ => appendOutput_id delta) finds).2⟩
      | execCommandFinished callId outputPreview status exitCode durationMs source =>
          exact ⟨fun key => (own_changeLast (fun _ => finishCommand_id) finds.1).1,
            fun key => (own_changeLast (fun _ => finishCommand_id) finds.1).2⟩
      | error | assistantChunk | thinkingChunk | status =>
          refine ⟨fun key _ => (own_append _).1 ?_, fun key mine => ?_⟩
          · intro same
            cases same
          · cases mine
      | _ =>
          refine ⟨fun key _ => rfl, fun key mine => ?_⟩
          cases mine

end

namespace ExecCommand

variable {transcript : List TranscriptEntry} {callId : String}

theorem final_deltas {source inputPreview earlier : Option String} {deltas : List String} :
    final commandLog.step (transcript ++ [.execCommand (some callId) source true inputPreview earlier
        .inProgress none none])
        (deltas.map fun delta => .fromProvider (.execCommandOutputDelta (some callId) delta)) =
      transcript ++ [.execCommand (some callId) source true inputPreview
        (if deltas = [] then earlier else some (earlier.getD "" ++ String.join deltas))
        .inProgress none none] := by
  induction deltas generalizing earlier with
  | nil => rfl
  | cons delta deltas ih =>
      rw [List.map_cons, final_cons]
      have here : (commandLog.step (transcript ++ [.execCommand (some callId) source true inputPreview
          earlier .inProgress none none])
          (.fromProvider (.execCommandOutputDelta (some callId) delta))).2 =
          transcript ++ [.execCommand (some callId) source true inputPreview
            (some (earlier.getD "" ++ delta)) .inProgress none none] := by
        refine changeLast_snoc.trans ?_
        cases earlier <;> simp [appendOutput]
      rw [here, ih]
      by_cases done : deltas = [] <;> simp [done, String.append_assoc]

/-- The events of a command, with nothing in between, append its entry if the end tells no duration. -/
theorem final_inputs (c : ExecCommand) (untimed : ∀ finish ∈ c.finish, finish.durationMs = none) :
    final commandLog.step transcript c.inputs = transcript ++ [c.entry] := by
  obtain ⟨callId, inputPreview, source, deltas, finish, finishSource⟩ := c
  rw [inputs, final_cons, final_append]
  refine (congrArg (final commandLog.step · _) final_deltas).trans ?_
  cases finish with
  | none => cases deltas <;> simp [entry, output]
  | some finish =>
      refine changeLast_snoc.trans ?_
      have timeless := untimed finish rfl
      cases deltas <;> simp [finishCommand, entry, output, timeless]

end ExecCommand

/-! ## Runs -/

/-- In a run in which each output and each end finds its command last, every command has its entry. -/
theorem tells_commands {transcript : List TranscriptEntry} {inputs : List SlotInput}
    (finds : ∀ x ∈ history commandLog.step transcript inputs, FindsLast x.before x.event) :
    TellsCommands transcript inputs := by
  intro c whole
  rw [Owners.Log.own_final fun x member => separates_of_last (finds x member), whole]
  apply c.final_inputs
  intro finish ended
  have among : c.finished finish ∈ commandLog.sent c.callId inputs := by
    rw [whole, ExecCommand.inputs, ended]
    simp
  obtain ⟨x, member, event⟩ := @event_history _ _ _ commandLog.step transcript _ _
    (List.mem_of_mem_filter among)
  have found := finds x member
  rw [event] at found
  exact found.2

/-- A command that runs by itself. -/
def listing : ExecCommand where
  callId := "call-1"
  deltas := ["src"]
  finish := some ⟨none, .completed, some 0, none⟩

theorem tells_listing : (∀ x ∈ history commandLog.step [] listing.inputs, FindsLast x.before x.event) ∧
    TellsCommands [] listing.inputs := by
  have finds : ∀ x ∈ history commandLog.step [] listing.inputs, FindsLast x.before x.event := by
    intro x member
    rcases List.mem_cons.mp member with rfl | member
    · trivial
    · rcases List.mem_cons.mp member with rfl | member
      · exact ⟨_, rfl, rfl⟩
      · cases List.mem_singleton.mp member
        exact ⟨⟨_, rfl, rfl⟩, rfl⟩
  exact ⟨finds, tells_commands finds⟩

/-- Two commands at once: the output of the first is put into the entry of the second. -/
theorem commands_mixed : ¬ ∀ (transcript : List TranscriptEntry) (inputs : List SlotInput),
    TellsCommands transcript inputs := by
  intro all
  have told := all [] [.fromProvider (.execCommandStarted (some "call-1") none),
    .fromProvider (.execCommandStarted (some "call-2") none),
    .fromProvider (.execCommandOutputDelta (some "call-1") "one"),
    .fromProvider (.execCommandFinished (some "call-2") (some "two") .completed),
    .fromProvider (.execCommandFinished (some "call-1") none .completed)]
  have second := told { callId := "call-2", finish := some ⟨some "two", .completed, none, none⟩ } rfl
  exact absurd second (by decide)

end AgileAgent.Daemon
