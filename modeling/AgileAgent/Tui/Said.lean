import AgileAgent.Tui.ActiveCell

/-! # What the terminal shows of a stream

The characters that are shown, each with the kind of the text it is shown in. Those of a stream are
never lost, doubled or reordered, whenever its lines are drained. That they keep their kind takes
that no text of another kind comes while complete lines wait and no line has begun.
-/

namespace AgileAgent.Tui

open Core.Loop RuntimeDomain

abbrev Label := StreamTextKind × Char

def labelText (kind : StreamTextKind) (text : String) : List Label := text.toList.map (kind, ·)

@[simp] theorem labelText_empty (kind : StreamTextKind) : labelText kind "" = [] := rfl

@[simp] theorem labelText_append (kind : StreamTextKind) (first second : String) :
    labelText kind (first ++ second) = labelText kind first ++ labelText kind second := by
  simp [labelText]

theorem labelText_snd (kind : StreamTextKind) (text : String) :
    (labelText kind text).map Prod.snd = text.toList := by
  simp [labelText, Function.comp_def]

def entryLabels : TranscriptEntry → List Label
  | .assistant text => labelText .assistant text
  | .thinking text => labelText .thinking text
  | _ => []

def labels (app : AppState) : List Label := app.transcript.flatMap entryLabels

def queueLabels (kind : StreamTextKind) (commits : List QueuedStreamCommit) : List Label :=
  commits.flatMap fun commit => labelText kind commit.text

def ActiveStream.labels (stream : ActiveStream) : List Label :=
  queueLabels stream.kind stream.pendingCommits ++ labelText stream.kind stream.tail

def ActiveCell.labels : ActiveCell → List Label
  | .tool _ => []
  | .stream shown => shown.labels

/-- Those in the transcript, and those in the active cell after them. -/
def TuiState.labels (s : TuiState) : List Label :=
  Tui.labels s.app ++ s.activeCell.elim [] ActiveCell.labels

/-- What an event makes of what was said. -/
def hear (before : List Label) : DomainEvent → List Label
  | .assistantChunk chunk => before ++ labelText .assistant chunk
  | .thinkingChunk chunk => before ++ labelText .thinking chunk
  | .error error => if isSessionExpiredError error then [] else before
  | _ => before

/-! ### In the transcript -/

theorem reviseLast_labels {revise : TranscriptEntry → Option TranscriptEntry}
    (quiet : ∀ entry revised, revise entry = some revised → entryLabels revised = entryLabels entry)
    {transcript revised : List TranscriptEntry} (found : reviseLast revise transcript = some revised) :
    revised.flatMap entryLabels = transcript.flatMap entryLabels := by
  induction transcript generalizing revised with
  | nil => cases found
  | cons entry rest ih =>
      rw [reviseLast] at found
      cases later : reviseLast revise rest with
      | some revised' =>
          rw [later] at found
          cases found
          rw [List.flatMap_cons, List.flatMap_cons, ih later]
      | none =>
          rw [later] at found
          obtain ⟨entry', here, rfl⟩ := Option.map_eq_some_iff.mp found
          rw [List.flatMap_cons, List.flatMap_cons, quiet entry entry' here]

section

variable (app : AppState)

theorem labels_push (entry : TranscriptEntry) :
    labels (app.push entry) = labels app ++ entryLabels entry := by
  simp [labels, AppState.push]

theorem labels_push_silent {entry : TranscriptEntry} (silent : entryLabels entry = []) :
    labels (app.push entry) = labels app := by
  rw [labels_push, silent, List.append_nil]

theorem labels_reviseOrPush {revise : TranscriptEntry → Option TranscriptEntry} {entry : TranscriptEntry}
    (quiet : ∀ entry revised, revise entry = some revised → entryLabels revised = entryLabels entry)
    (silent : entryLabels entry = []) : labels (app.reviseOrPush revise entry) = labels app := by
  unfold AppState.reviseOrPush
  cases found : reviseLast revise app.transcript with
  | none => exact labels_push_silent app silent
  | some transcript => exact reviseLast_labels quiet found

theorem labels_commitStreamText (kind : StreamTextKind) (text : String) :
    labels (commitStreamText kind text app) = labels app ++ labelText kind text := by
  cases kind with
  | assistant =>
      simp only [commitStreamText, AppState.appendAssistantChunk]
      split
      · next earlier last =>
          have split := List.dropLast_append_getLast? _ last
          rw [labels, labels, ← split]
          simp [entryLabels]
      · rw [labels_push, entryLabels]
  | thinking =>
      simp only [commitStreamText, AppState.appendThinkingChunk]
      split
      · next earlier last =>
          have split := List.dropLast_append_getLast? _ last
          rw [labels, labels, ← split]
          simp [entryLabels]
      · rw [labels_push, entryLabels]

theorem labels_commitAll (kind : StreamTextKind) (commits : List QueuedStreamCommit) :
    labels (commitAll kind commits app) = labels app ++ queueLabels kind commits := by
  induction commits generalizing app with
  | nil => simp [commitAll, queueLabels]
  | cons commit rest ih =>
      have later := ih (commitStreamText kind commit.text app)
      rw [labels_commitStreamText, List.append_assoc] at later
      exact later

theorem labels_settlePhase : labels (TuiState.settlePhase app) = labels app := by
  unfold TuiState.settlePhase
  split <;> rfl

/-- The plain transcript of the loop shows what was said. -/
theorem labels_take (event : DomainEvent) : labels (app.take event) = hear (labels app) event := by
  cases event with
  | assistantChunk chunk => exact labels_commitStreamText app .assistant chunk
  | thinkingChunk chunk => exact labels_commitStreamText app .thinking chunk
  | sessionHandle handle => cases handle <;> rfl
  | providerPid | finished => rfl
  | status | execCommandStarted | genericToolCallStarted | webSearchStarted | viewImage
  | imageGenerationFinished | mcpToolCallStarted | patchApplyStarted => exact labels_push_silent app rfl
  | execCommandFinished | genericToolCallFinished | webSearchFinished | mcpToolCallFinished
  | patchApplyFinished =>
      refine labels_reviseOrPush app (fun entry revised found => ?_) rfl
      split at found
      · split at found <;> cases found
        rfl
      · cases found
  | execCommandOutputDelta callId delta =>
      simp only [AppState.take, AppState.appendExecCommandOutput]
      split
      · rfl
      · refine labels_reviseOrPush app (fun entry revised found => ?_) rfl
        split at found
        · split at found <;> cases found
          rfl
        · cases found
  | patchApplyOutputDelta callId delta =>
      simp only [AppState.take, AppState.appendPatchApplyOutput]
      split
      · rfl
      · split
        · next transcript found =>
            refine reviseLast_labels (fun entry revised found => ?_) found
            split at found
            · split at found <;> cases found
              rfl
            · cases found
        · rfl
  | error error =>
      simp only [AppState.take, hear]
      split
      · rfl
      · exact labels_push_silent app.markActiveTaskError rfl

theorem labels_disconnect : labels app.disconnect = labels app :=
  labels_push_silent app.markActiveTaskError rfl

end

/-! ### In the terminal -/

theorem silent_asTranscriptEntries (tool : ActiveTool) :
    tool.asTranscriptEntries.flatMap entryLabels = [] := by
  cases tool with
  | exec group => simp [ActiveTool.asTranscriptEntries, List.flatMap_map, entryLabels]
  | _ => rfl

theorem silent_failedEntries (reason : String) (tool : ActiveTool) :
    (tool.failedEntries reason).flatMap entryLabels = [] := by
  cases tool with
  | exec group => simp [ActiveTool.failedEntries, List.flatMap_map, entryLabels]
  | _ => rfl

theorem entryLabels_markFailed (reason : Option String) (entry : TranscriptEntry) :
    entryLabels (markFailed reason entry) = entryLabels entry := by
  unfold markFailed
  split <;> rfl

namespace TuiState

variable (s : TuiState)

theorem labels_withApp {change : AppState → AppState}
    (quiet : Tui.labels (change s.app) = Tui.labels s.app) : (s.withApp change).labels = s.labels :=
  congrArg (· ++ s.activeCell.elim [] ActiveCell.labels) quiet

theorem labels_bump : s.bumpActiveEntriesRevision.labels = s.labels := rfl

theorem labels_of_tool {tool : ActiveTool} (active : s.activeCell = some (.tool tool)) :
    s.labels = Tui.labels s.app := by
  simp [labels, active, ActiveCell.labels]

theorem labels_of_stream {stream : ActiveStream} (active : s.activeCell = some (.stream stream)) :
    s.labels = Tui.labels s.app ++ stream.labels := by
  simp [labels, active, ActiveCell.labels]

theorem labels_of_none (empty : s.activeCell = none) : s.labels = Tui.labels s.app := by
  simp [labels, empty]

/-- A stream goes over to the transcript. -/
theorem labels_flushStreamToTranscript (stream : ActiveStream) (empty : s.activeCell = none) :
    (s.flushStreamToTranscript stream).labels = Tui.labels s.app ++ stream.labels := by
  rw [labels_of_none (s.flushStreamToTranscript stream) empty]
  simp only [flushStreamToTranscript, withApp]
  split
  · next begun => simp [labels_commitAll, ActiveStream.labels, begun]
  · simp [labels_commitAll, labels_commitStreamText, ActiveStream.labels]

theorem labels_pushEntries {entries : List TranscriptEntry}
    (silent : entries.flatMap entryLabels = []) : (s.pushEntries entries).labels = s.labels :=
  s.labels_withApp (by simp [Tui.labels, silent])

theorem labels_drainActiveEntries (reason : Option String) :
    (s.drainActiveEntries reason).labels = s.labels := by
  unfold drainActiveEntries
  cases active : s.activeCell with
  | none => rfl
  | some cell =>
      cases cell with
      | stream stream =>
          rw [labels_of_stream s active]
          exact labels_flushStreamToTranscript { s with activeCell := none } stream rfl
      | tool tool =>
          rw [labels_of_tool s active]
          cases reason with
          | none =>
              exact (labels_pushEntries { s with activeCell := none }
                (silent_asTranscriptEntries tool)).trans (List.append_nil _)
          | some reason =>
              exact (labels_pushEntries { s with activeCell := none }
                (silent_failedEntries reason tool)).trans (List.append_nil _)

theorem labels_finalize (reason : Option String) :
    (s.finalizeActiveEntriesAfterFailure reason).labels = s.labels := by
  rw [finalizeActiveEntriesAfterFailure, labels_withApp, labels_drainActiveEntries]
  simp [Tui.labels, List.flatMap_map, entryLabels_markFailed]

theorem labels_flushActiveStream : s.flushActiveStreamToTranscript.labels = s.labels := by
  unfold flushActiveStreamToTranscript
  split
  · next stream active =>
      rw [labels_of_stream s active]
      exact labels_flushStreamToTranscript { s with activeCell := none } stream rfl
  · rfl

theorem labels_prepare (start : ActiveToolStart) :
    (s.prepareForActiveToolStart start).labels = s.labels := by
  unfold prepareForActiveToolStart
  split
  · rfl
  · exact s.labels_drainActiveEntries none
  · rfl

/-- No stream is active when a tool is set. -/
theorem activeCell_flushed (start : ActiveToolStart) (stream : ActiveStream) :
    ((s.prepareForActiveToolStart start).flushActiveStreamToTranscript).activeCell ≠
      some (.stream stream) := by
  unfold flushActiveStreamToTranscript
  split
  · intro active
    cases active
  · next other => exact other stream

theorem labels_setTool (start : ActiveToolStart) (tool : ActiveTool) :
    ({ (s.prepareForActiveToolStart start).flushActiveStreamToTranscript with
        activeCell := some (.tool tool) } : TuiState).labels = s.labels := by
  have before := (s.prepareForActiveToolStart start).labels_flushActiveStream
  rw [s.labels_prepare start] at before
  rw [labels_of_tool _ rfl, ← before]
  cases active : ((s.prepareForActiveToolStart start).flushActiveStreamToTranscript).activeCell with
  | none => exact (labels_of_none _ active).symm
  | some cell =>
      cases cell with
      | tool other => exact (labels_of_tool _ active).symm
      | stream stream => exact absurd active (s.activeCell_flushed start stream)

/-- The end of a call says nothing. -/
theorem labels_finishTool {ends : ActiveTool → ToolEnd} {record : AppState → AppState}
    (silent : ∀ tool entry rest, ends tool = .recorded entry rest → entryLabels entry = [])
    (quiet : Tui.labels (record s.app) = Tui.labels s.app) :
    (s.finishTool ends record).labels = s.labels := by
  unfold finishTool
  split
  · next tool active =>
      rw [labels_of_tool s active]
      split
      · next entry rest recorded =>
          have pushed := labels_push_silent s.app (silent tool entry rest recorded)
          cases rest with
          | none => exact (labels_of_none _ rfl).trans pushed
          | some other => exact (labels_of_tool _ rfl).trans pushed
      · rw [s.labels_withApp quiet, labels_of_tool s active]
      · exact (labels_of_none _ rfl).trans quiet
  · exact s.labels_withApp quiet

end TuiState

/-! ### In a stream -/

theorem splitLine_some {text finished rest : String} (split : splitLine text = some (finished, rest)) :
    finished ++ rest = text ∧ finished ≠ "" := by
  unfold splitLine at split
  rw [List.span_eq_takeWhile_dropWhile] at split
  have whole := List.takeWhile_append_dropWhile (p := (· != '\n')) (l := text.toList.reverse)
  cases complete : text.toList.reverse.dropWhile (· != '\n') with
  | nil => simp [complete] at split
  | cons c cs =>
      simp only [complete, Option.some.injEq, Prod.mk.injEq] at split
      obtain ⟨rfl, rfl⟩ := split
      rw [complete] at whole
      constructor
      · rw [← String.ofList_append, ← List.reverse_append, whole, List.reverse_reverse,
          String.ofList_toList]
      · simp

/-- No queued text is empty. -/
def ActiveStream.Filled (stream : ActiveStream) : Prop :=
  ∀ commit ∈ stream.pendingCommits, commit.text ≠ ""

namespace ActiveStream

variable (markdown : Markdown) (now : Nat) (chunk : String) (stream : ActiveStream)

theorem push_labels :
    (stream.push markdown now chunk).labels = stream.labels ++ labelText stream.kind chunk := by
  unfold push
  split
  · simp [labels]
  · next finished rest split =>
      have whole := congrArg (labelText stream.kind) (splitLine_some split).1
      simp only [labelText_append] at whole
      simp [labels, queueLabels, whole]

theorem push_filled (filled : stream.Filled) : (stream.push markdown now chunk).Filled := by
  unfold push
  split
  · exact filled
  · next finished rest split =>
      intro commit member
      rcases List.mem_append.mp member with earlier | last
      · exact filled commit earlier
      · rw [List.mem_singleton] at last
        subst last
        exact (splitLine_some split).2

end ActiveStream

theorem popCommits_append (remaining : Nat) (queue : List QueuedStreamCommit) :
    (popCommits remaining queue).1 ++ (popCommits remaining queue).2 = queue := by
  induction queue generalizing remaining with
  | nil => rfl
  | cons commit queue ih =>
      rw [popCommits]
      split
      · rfl
      · rw [List.cons_append, ih]

theorem queueLabels_append (kind : StreamTextKind) (first second : List QueuedStreamCommit) :
    queueLabels kind (first ++ second) = queueLabels kind first ++ queueLabels kind second :=
  List.flatMap_append

theorem queueLabels_snd (kind : StreamTextKind) (commits : List QueuedStreamCommit) :
    (queueLabels kind commits).map Prod.snd = commits.flatMap (·.text.toList) := by
  rw [queueLabels, List.map_flatMap]
  congr 1
  funext commit
  exact labelText_snd kind commit.text

namespace TuiState

variable (s : TuiState)

/-- An active stream has something to show, and queued texts are not empty. -/
def Sound : Prop :=
  ∀ stream, s.activeCell = some (.stream stream) →
    stream.Filled ∧ (stream.tail = "" → stream.pendingCommits ≠ [])

/-- Complete lines of another kind wait, and no line has begun: `ensure_active_stream` then gives
    the stream the new kind. -/
def Turns (kind : StreamTextKind) : Prop :=
  ∃ stream, s.activeCell = some (.stream stream) ∧ stream.kind ≠ kind ∧ stream.tail = ""

theorem labels_setActiveStream (stream : ActiveStream) :
    (s.setActiveStream stream).labels = Tui.labels s.app ++ stream.labels := by
  simp only [setActiveStream, labels]
  split
  · next empty => simp [ActiveStream.labels, queueLabels, empty]
  · rfl

theorem sound_setActiveStream {stream : ActiveStream} (filled : stream.Filled) :
    (s.setActiveStream stream).Sound := by
  intro other active
  simp only [setActiveStream] at active
  split at active
  · cases active
  · next shown =>
      cases active
      exact ⟨filled, fun none empty => shown ⟨none, empty⟩⟩

theorem sound_bump (sound : s.Sound) : s.bumpActiveEntriesRevision.Sound := sound

/-- The state that a chunk is added to. -/
def unblocked : TuiState :=
  match s.activeCell with
  | some (.tool _) => s.flushActiveEntriesToTranscript
  | _ => s

theorem unblocked_activeCell (tool : ActiveTool) : s.unblocked.activeCell ≠ some (.tool tool) := by
  unfold unblocked
  split
  · next other active =>
      rw [flushActiveEntriesToTranscript, drainActiveEntries, active]
      intro tool_
      cases tool_
  · next free => exact free tool

theorem unblocked_of_stream {stream : ActiveStream} (active : s.activeCell = some (.stream stream)) :
    s.unblocked = s := by
  simp [unblocked, active]

theorem labels_unblocked : s.unblocked.labels = s.labels := by
  unfold unblocked
  split
  · exact s.labels_drainActiveEntries none
  · rfl

theorem appendStreamingTextChunk_eq (markdown : Markdown) (now : Nat) (kind : StreamTextKind)
    {chunk : String} (said : chunk ≠ "") :
    s.appendStreamingTextChunk markdown now kind chunk =
      ((s.unblocked.ensureActiveStream kind).2.setActiveStream
        ((s.unblocked.ensureActiveStream kind).1.push markdown now chunk)).bumpActiveEntriesRevision := by
  rw [appendStreamingTextChunk, if_neg said]
  rfl

theorem ensureActiveStream_kind (kind : StreamTextKind) : (s.ensureActiveStream kind).1.kind = kind := by
  unfold ensureActiveStream
  split
  · split <;> rfl
  · rfl

theorem newStream_labels (kind : StreamTextKind) : (s.newStream kind).labels = [] := rfl

/-- A stream for a chunk shows what was shown, unless it takes another kind. -/
theorem ensureActiveStream_labels {kind : StreamTextKind}
    (free : ∀ tool, s.activeCell ≠ some (.tool tool)) (straight : ¬ s.Turns kind) :
    Tui.labels (s.ensureActiveStream kind).2.app ++ (s.ensureActiveStream kind).1.labels = s.labels := by
  unfold ensureActiveStream
  split
  · next stream active =>
      rw [labels_of_stream s active]
      split
      · have flushed := labels_flushStreamToTranscript { s with activeCell := none } stream rfl
        rw [labels_of_none _ rfl] at flushed
        rw [newStream_labels, List.append_nil, flushed]
      · next continues =>
          have same : stream.kind = kind := by
            by_contra other
            exact continues ⟨other, fun between => straight ⟨stream, active, other, between⟩⟩
          rw [← same]
  · next others =>
      rw [newStream_labels, List.append_nil]
      cases active : s.activeCell with
      | none => exact (labels_of_none s active).symm
      | some cell =>
          cases cell with
          | tool tool => exact absurd active (free tool)
          | stream stream => exact absurd active (others stream)

theorem ensureActiveStream_filled (kind : StreamTextKind) (sound : s.Sound) :
    (s.ensureActiveStream kind).1.Filled := by
  unfold ensureActiveStream
  split
  · next stream active =>
      split
      · intro commit member
        cases member
      · exact (sound stream active).1
  · intro commit member
    cases member

section

variable (markdown : Markdown) (now : Nat) {kind : StreamTextKind} {chunk : String}

theorem append_labels (straight : chunk ≠ "" → ¬ s.Turns kind) :
    (s.appendStreamingTextChunk markdown now kind chunk).labels =
      s.labels ++ labelText kind chunk := by
  by_cases said : chunk = ""
  · simp [appendStreamingTextChunk, said]
  · have straight_unblocked : ¬ s.unblocked.Turns kind := by
      rintro ⟨stream, active, turned⟩
      cases cell : s.activeCell with
      | none =>
          rw [unblocked, cell] at active
          rw [cell] at active
          cases active
      | some shown =>
          cases shown with
          | tool tool =>
              rw [unblocked, cell] at active
              rw [flushActiveEntriesToTranscript, drainActiveEntries, cell] at active
              cases active
          | stream other =>
              rw [unblocked_of_stream s cell] at active
              exact straight said ⟨stream, active, turned⟩
    rw [s.appendStreamingTextChunk_eq markdown now kind said]
    have ensured := s.unblocked.ensureActiveStream_labels s.unblocked_activeCell straight_unblocked
    rw [s.labels_unblocked] at ensured
    rw [labels_bump]
    calc ((s.unblocked.ensureActiveStream kind).2.setActiveStream
            ((s.unblocked.ensureActiveStream kind).1.push markdown now chunk)).labels
        _ = Tui.labels (s.unblocked.ensureActiveStream kind).2.app ++
              ((s.unblocked.ensureActiveStream kind).1.labels ++ labelText kind chunk) := by
            rw [labels_setActiveStream, ActiveStream.push_labels, ensureActiveStream_kind]
        _ = s.labels ++ labelText kind chunk := by rw [← List.append_assoc, ensured]

/-- A chunk that turns a stream takes the waiting lines over to its own kind. -/
theorem append_turned {stream : ActiveStream} (active : s.activeCell = some (.stream stream))
    (between : stream.tail = "") (said : chunk ≠ "") :
    (s.appendStreamingTextChunk markdown now kind chunk).labels =
      Tui.labels s.app ++ (queueLabels kind stream.pendingCommits ++ labelText kind chunk) := by
  have ensured : s.ensureActiveStream kind = ({ stream with kind := kind }, s) := by
    simp [ensureActiveStream, active, between]
  rw [s.appendStreamingTextChunk_eq markdown now kind said, s.unblocked_of_stream active,
    labels_bump, labels_setActiveStream, ensured, ActiveStream.push_labels]
  simp [ActiveStream.labels, between]

theorem append_sound (sound : s.Sound) : (s.appendStreamingTextChunk markdown now kind chunk).Sound := by
  by_cases said : chunk = ""
  · rw [appendStreamingTextChunk, if_pos said]
    exact sound
  · have unblocked_sound : s.unblocked.Sound := by
      intro stream active
      cases cell : s.activeCell with
      | none =>
          rw [unblocked, cell] at active
          exact sound stream active
      | some shown =>
          cases shown with
          | tool tool =>
              rw [unblocked, cell] at active
              rw [flushActiveEntriesToTranscript, drainActiveEntries, cell] at active
              cases active
          | stream other =>
              rw [unblocked_of_stream s cell] at active
              exact sound stream active
    rw [s.appendStreamingTextChunk_eq markdown now kind said]
    exact sound_bump _ (sound_setActiveStream _
      (ActiveStream.push_filled _ _ _ _ (s.unblocked.ensureActiveStream_filled kind unblocked_sound)))

theorem tick_labels : (s.drainActiveStreamCommitTick now).2.labels = s.labels := by
  unfold drainActiveStreamCommitTick
  split
  · next stream active =>
      have whole := popCommits_append (stream.policy.decide (stream.queueSnapshot now) now).1.drainLines
        stream.pendingCommits
      rw [labels_of_stream s active]
      dsimp only
      split
      · next idle =>
          rw [idle, List.nil_append] at whole
          rw [labels_of_stream _ rfl]
          simp [ActiveStream.labels, whole]
      · have queued := congrArg (queueLabels stream.kind) whole
        rw [queueLabels_append] at queued
        rw [labels_bump, labels_setActiveStream, ActiveStream.labels, ActiveStream.labels, ← queued]
        simp only [withApp, labels_commitAll, List.append_assoc]
  · rfl

theorem tick_sound (sound : s.Sound) : (s.drainActiveStreamCommitTick now).2.Sound := by
  unfold drainActiveStreamCommitTick
  split
  · next stream active =>
      obtain ⟨filled, shown⟩ := sound stream active
      have whole := popCommits_append (stream.policy.decide (stream.queueSnapshot now) now).1.drainLines
        stream.pendingCommits
      dsimp only
      split
      · next idle =>
          rw [idle, List.nil_append] at whole
          intro other active'
          cases active'
          simp only [whole]
          exact ⟨fun commit member => filled commit (whole ▸ member), shown⟩
      · refine sound_bump _ (sound_setActiveStream _ fun commit member => filled commit ?_)
        rw [← whole]
        exact List.mem_append_right _ member
  · exact sound

end

/-! ### Over a run -/

/-- The event gives complete lines that wait another kind. -/
def Relabels : DomainEvent → Prop
  | .assistantChunk chunk => chunk ≠ "" ∧ s.Turns .assistant
  | .thinkingChunk chunk => chunk ≠ "" ∧ s.Turns .thinking
  | _ => False

/-- The active cell is as before or not a stream. -/
def KeepsStream (s s' : TuiState) : Prop :=
  s'.activeCell = s.activeCell ∨ ∀ stream, s'.activeCell ≠ some (.stream stream)

theorem Sound.kept {s s' : TuiState} (sound : s.Sound) (keeps : s.KeepsStream s') : s'.Sound := by
  intro stream active
  rcases keeps with same | other
  · exact sound stream (same ▸ active)
  · exact absurd active (other stream)

theorem finishTool_keeps (ends : ActiveTool → ToolEnd) (record : AppState → AppState) :
    s.KeepsStream (s.finishTool ends record) := by
  unfold finishTool
  split
  · split
    · next entry rest recorded =>
        refine .inr fun stream active => ?_
        cases rest <;> cases active
    · exact .inl rfl
    · refine .inr fun stream active => ?_
      cases active
  · exact .inl rfl

theorem drainActiveEntries_keeps (reason : Option String) :
    s.KeepsStream (s.drainActiveEntries reason) := by
  unfold drainActiveEntries
  cases active : s.activeCell with
  | none => exact .inl rfl
  | some cell =>
      refine .inr fun stream active => ?_
      cases cell with
      | stream other => cases active
      | tool tool => cases reason <;> cases active

variable (markdown : Markdown) (now : Nat)

/-- An event that is no text leaves a stream as it is or ends it. -/
theorem take_keeps {event : DomainEvent} (noText : ∀ chunk, event ≠ .assistantChunk chunk)
    (noThought : ∀ chunk, event ≠ .thinkingChunk chunk) :
    s.KeepsStream (s.take markdown now event) := by
  cases event with
  | assistantChunk chunk => exact absurd rfl (noText chunk)
  | thinkingChunk chunk => exact absurd rfl (noThought chunk)
  | status | viewImage | imageGenerationFinished | sessionHandle | providerPid => exact .inl rfl
  | execCommandStarted | genericToolCallStarted | webSearchStarted | mcpToolCallStarted
  | patchApplyStarted =>
      refine .inr fun stream active => ?_
      cases active
  | execCommandFinished | genericToolCallFinished | webSearchFinished | mcpToolCallFinished
  | patchApplyFinished => exact s.finishTool_keeps _ _
  | execCommandOutputDelta callId delta =>
      simp only [take, appendActiveExecOutput]
      split
      · exact .inl rfl
      · split
        · split
          · refine .inr fun stream active => ?_
            cases active
          · exact .inl rfl
        · exact .inl rfl
  | patchApplyOutputDelta callId delta =>
      simp only [take, appendActivePatchApplyOutput]
      split
      · exact .inl rfl
      · split
        · split
          · refine .inr fun stream active => ?_
            cases active
          · exact .inl rfl
        · exact .inl rfl
  | error error => exact s.drainActiveEntries_keeps (some error)
  | finished => exact s.drainActiveEntries_keeps none

theorem take_sound (sound : s.Sound) (event : DomainEvent) : (s.take markdown now event).Sound := by
  cases event with
  | assistantChunk | thinkingChunk => exact s.append_sound markdown now sound
  | _ => exact sound.kept (s.take_keeps markdown now (by simp) (by simp))

theorem drainActiveEntries_activeCell (reason : Option String) :
    (s.drainActiveEntries reason).activeCell = none := by
  unfold drainActiveEntries
  cases active : s.activeCell with
  | none => exact active
  | some cell =>
      cases cell with
      | stream stream => rfl
      | tool tool => cases reason <;> rfl

theorem labels_handleProviderTerminalError (error : String) :
    (s.handleProviderTerminalError error).labels =
      if isSessionExpiredError error then [] else s.labels := by
  have drained : (s.finalizeActiveEntriesAfterFailure (some error)).activeCell = none :=
    s.drainActiveEntries_activeCell (some error)
  have shown := (labels_of_none _ drained).symm.trans (s.labels_finalize (some error))
  refine (labels_of_none (s.handleProviderTerminalError error) drained).trans ?_
  refine (labels_settlePhase _).trans ?_
  split
  · rfl
  · exact (labels_push_silent (AppState.markActiveTaskError _) rfl).trans shown

/-- An event that gives no lines another kind shows what is said. -/
theorem take_labels {event : DomainEvent} (straight : ¬ s.Relabels event) :
    (s.take markdown now event).labels = hear s.labels event := by
  cases event with
  | assistantChunk chunk =>
      exact s.append_labels markdown now fun said turns => straight ⟨said, turns⟩
  | thinkingChunk chunk =>
      exact s.append_labels markdown now fun said turns => straight ⟨said, turns⟩
  | status | viewImage | imageGenerationFinished =>
      exact s.labels_withApp (labels_push_silent s.app rfl)
  | sessionHandle handle => exact s.labels_withApp (labels_take s.app (.sessionHandle handle))
  | providerPid => rfl
  | execCommandStarted => exact s.labels_setTool .exec _
  | genericToolCallStarted | webSearchStarted | mcpToolCallStarted | patchApplyStarted =>
      exact s.labels_setTool .other _
  | execCommandFinished callId outputPreview status exitCode durationMs source =>
      refine s.labels_finishTool ?_ (labels_take s.app
        (.execCommandFinished callId outputPreview status exitCode durationMs source))
      intro tool entry rest recorded
      split at recorded
      · split at recorded <;> cases recorded
        rfl
      · cases recorded
  | genericToolCallFinished name callId outputPreview success exitCode durationMs =>
      refine s.labels_finishTool ?_ (labels_take s.app
        (.genericToolCallFinished name callId outputPreview success exitCode durationMs))
      intro tool entry rest recorded
      split at recorded
      · split at recorded <;> cases recorded
        rfl
      · cases recorded
  | webSearchFinished callId query =>
      refine s.labels_finishTool ?_ (labels_take s.app (.webSearchFinished callId query))
      intro tool entry rest recorded
      split at recorded
      · split at recorded <;> cases recorded
        rfl
      · cases recorded
  | mcpToolCallFinished callId error status isError =>
      refine s.labels_finishTool ?_ (labels_take s.app (.mcpToolCallFinished callId error status isError))
      intro tool entry rest recorded
      split at recorded
      · split at recorded <;> cases recorded
        rfl
      · cases recorded
  | patchApplyFinished callId status =>
      refine s.labels_finishTool ?_ (labels_take s.app (.patchApplyFinished callId status))
      intro tool entry rest recorded
      split at recorded
      · split at recorded <;> cases recorded
        rfl
      · cases recorded
  | execCommandOutputDelta callId delta =>
      simp only [take, appendActiveExecOutput, hear]
      split
      · rfl
      · split
        · next group active =>
            split
            · exact (labels_of_tool _ rfl).trans (labels_of_tool s active).symm
            · rfl
        · rfl
  | patchApplyOutputDelta callId delta =>
      have elsewhere : (s.withApp (·.appendPatchApplyOutput callId delta)).labels = s.labels :=
        s.labels_withApp (labels_take s.app (.patchApplyOutputDelta callId delta))
      simp only [take, appendActivePatchApplyOutput, hear]
      split
      · rfl
      · split
        · next entry active =>
            split
            · exact (labels_of_tool _ rfl).trans (labels_of_tool s active).symm
            · exact elsewhere
        · exact elsewhere
  | error error => exact s.labels_handleProviderTerminalError error
  | finished =>
      refine (s.flushActiveEntriesToTranscript.labels_withApp ?_).trans (s.labels_drainActiveEntries none)
      exact labels_settlePhase s.flushActiveEntriesToTranscript.app.finishProviderResponse

end TuiState

/-- The terminal, and the plain transcript that the loop keeps of the same events. -/
structure Screens where
  tui : TuiState
  plain : AppState
  deriving Repr, DecidableEq

namespace Screens

/-- One input, at a time. -/
def step (markdown : Markdown) (screens : Screens) (input : TuiInput × Nat) : Unit × Screens :=
  ((), ⟨screens.tui.takeInput markdown input.2 input.1,
    match input.1 with
    | .event event => screens.plain.take event
    | .disconnect => screens.plain.disconnect
    | .tick => screens.plain⟩)

/-- Both start with the same transcript. -/
def start (app : AppState) (width : Option Nat) : Screens where
  tui := { app := app, transcriptRenderWidth := width }
  plain := app

/-- Both show the same text in the same kinds. -/
def Agree (screens : Screens) : Prop := screens.tui.labels = labels screens.plain

/-- Both show the same characters in the same order. -/
def SameWords (screens : Screens) : Prop :=
  screens.tui.labels.map Prod.snd = (labels screens.plain).map Prod.snd

def Relabels (screens : Screens) : TuiInput → Prop
  | .event event => screens.tui.Relabels event
  | _ => False

end Screens

/-- Kinds apart, what was said depends on the characters said before. -/
theorem hear_words {before before' : List Label} (same : before.map Prod.snd = before'.map Prod.snd)
    (event : DomainEvent) : (hear before event).map Prod.snd = (hear before' event).map Prod.snd := by
  cases event with
  | assistantChunk | thinkingChunk => simp [hear, same]
  | error error =>
      simp only [hear]
      split
      · rfl
      · exact same
  | _ => exact same

namespace TuiState

variable (s : TuiState) (markdown : Markdown) (now : Nat)

/-- Lines that get another kind keep their characters and their places. -/
theorem take_relabels {event : DomainEvent} (relabels : s.Relabels event) (sound : s.Sound) :
    ((s.take markdown now event).labels.map Prod.snd = (hear s.labels event).map Prod.snd) ∧
      (s.take markdown now event).labels ≠ hear s.labels event := by
  have turned : ∀ kind chunk, chunk ≠ "" → s.Turns kind →
      ((s.appendStreamingTextChunk markdown now kind chunk).labels.map Prod.snd =
          (s.labels ++ labelText kind chunk).map Prod.snd) ∧
        (s.appendStreamingTextChunk markdown now kind chunk).labels ≠
          s.labels ++ labelText kind chunk := by
    rintro kind chunk said ⟨stream, active, other, between⟩
    rw [s.append_turned markdown now active between said, s.labels_of_stream active,
      ActiveStream.labels, between, labelText_empty, List.append_nil, List.append_assoc]
    refine ⟨by simp only [List.map_append, queueLabels_snd], ?_⟩
    intro same
    have queues := List.append_cancel_right (List.append_cancel_left same)
    obtain ⟨filled, waiting⟩ := sound stream active
    obtain ⟨commit, rest, queue⟩ := List.exists_cons_of_ne_nil (waiting between)
    have text := filled commit (queue ▸ List.mem_cons_self)
    obtain ⟨c, cs, chars⟩ := List.exists_cons_of_ne_nil
      (fun none => text (String.toList_eq_nil_iff.mp none))
    rw [queue] at queues
    simp only [queueLabels, List.flatMap_cons, labelText, chars, List.map_cons, List.cons_append,
      List.cons.injEq, Prod.mk.injEq] at queues
    exact other queues.1.1.symm
  cases event with
  | assistantChunk chunk => exact turned .assistant chunk relabels.1 relabels.2
  | thinkingChunk chunk => exact turned .thinking chunk relabels.1 relabels.2
  | _ => exact absurd relabels id

end TuiState

theorem disconnected_unexpired :
    isSessionExpiredError "provider event stream disconnected" = false := by decide

theorem disconnect_labels (screens : Screens) :
    (screens.tui.handleProviderTerminalError "provider event stream disconnected").labels =
      screens.tui.labels := by
  rw [TuiState.labels_handleProviderTerminalError, disconnected_unexpired]
  rfl

namespace Screens

variable (markdown : Markdown)

theorem step_sound {screens : Screens} (sound : screens.tui.Sound) (input : TuiInput × Nat) :
    (screens.step markdown input).2.tui.Sound := by
  obtain ⟨input, now⟩ := input
  cases input with
  | event event => exact screens.tui.take_sound markdown now sound event
  | disconnect => exact sound.kept (screens.tui.drainActiveEntries_keeps _)
  | tick => exact screens.tui.tick_sound now sound

theorem step_words {screens : Screens} (sound : screens.tui.Sound) (same : screens.SameWords)
    (input : TuiInput × Nat) : (screens.step markdown input).2.SameWords := by
  obtain ⟨input, now⟩ := input
  cases input with
  | event event =>
      have heard : ((screens.tui.take markdown now event).labels.map Prod.snd) =
          (hear screens.tui.labels event).map Prod.snd := by
        by_cases relabels : screens.tui.Relabels event
        · exact (screens.tui.take_relabels markdown now relabels sound).1
        · rw [screens.tui.take_labels markdown now relabels]
      simp only [step, TuiState.takeInput, SameWords]
      rw [heard, labels_take]
      exact hear_words same event
  | disconnect =>
      simp only [step, TuiState.takeInput, SameWords]
      rw [disconnect_labels, labels_disconnect]
      exact same
  | tick =>
      simp only [step, TuiState.takeInput, SameWords]
      rw [TuiState.tick_labels]
      exact same

/-- From screens that agree, a step agrees unless it relabels. -/
theorem step_agree_iff {screens : Screens} (sound : screens.tui.Sound) (agree : screens.Agree)
    (input : TuiInput × Nat) :
    (screens.step markdown input).2.Agree ↔ ¬ screens.Relabels input.1 := by
  obtain ⟨input, now⟩ := input
  cases input with
  | event event =>
      simp only [step, TuiState.takeInput, Agree, Relabels]
      rw [labels_take, ← agree]
      constructor
      · intro same relabels
        exact (screens.tui.take_relabels markdown now relabels sound).2 same
      · exact screens.tui.take_labels markdown now
  | disconnect =>
      refine iff_of_true ?_ id
      simp only [step, TuiState.takeInput, Agree]
      rw [disconnect_labels, labels_disconnect]
      exact agree
  | tick =>
      refine iff_of_true ?_ id
      simp only [step, TuiState.takeInput, Agree]
      rw [TuiState.tick_labels]
      exact agree

theorem start_sound (app : AppState) (width : Option Nat) : (start app width).tui.Sound := by
  intro stream active
  cases active

theorem start_agree (app : AppState) (width : Option Nat) : (start app width).Agree :=
  List.append_nil _

end Screens

/-- However the lines of a stream are drained and whatever comes between them, the terminal shows
    the same characters in the same order as the plain transcript. -/
theorem words_agree (markdown : Markdown) (app : AppState) (width : Option Nat)
    (inputs : List (TuiInput × Nat)) :
    (Machine.final (Screens.step markdown) (Screens.start app width) inputs).SameWords := by
  have both : ∀ screens : Screens, screens.tui.Sound ∧ screens.SameWords →
      (Machine.final (Screens.step markdown) screens inputs).tui.Sound ∧
        (Machine.final (Screens.step markdown) screens inputs).SameWords := by
    intro screens starts
    refine @Machine.final_invariant _ _ _ (Screens.step markdown)
      (fun screens => screens.tui.Sound ∧ screens.SameWords) (fun _ _ => True) ?_ screens starts inputs
      (fun _ _ => trivial)
    rintro screens input - ⟨sound, same⟩
    exact ⟨screens.step_sound markdown sound input, screens.step_words markdown sound same input⟩
  exact (both _ ⟨Screens.start_sound app width,
    congrArg (List.map Prod.snd) (Screens.start_agree app width)⟩).2

/-- The terminal shows every text in its kind throughout a run exactly when no text of another kind
    comes while complete lines wait and no line has begun. -/
theorem kinds_agree_iff (markdown : Markdown) (app : AppState) (width : Option Nat)
    (inputs : List (TuiInput × Nat)) :
    (∀ x ∈ Machine.history (Screens.step markdown) (Screens.start app width) inputs, x.after.Agree) ↔
      ∀ x ∈ Machine.history (Screens.step markdown) (Screens.start app width) inputs,
        ¬ x.before.Relabels x.event.1 :=
  @Machine.history_exact _ _ _ (Screens.step markdown)
    (fun screens => screens.tui.Sound ∧ screens.Agree)
    (fun screens input => ¬ screens.Relabels input.1) (fun x => x.after.Agree)
    (fun _ input good => Screens.step_agree_iff markdown good.1 good.2 input)
    (fun _ input good right => ⟨Screens.step_sound markdown good.1 input, right⟩)
    _ ⟨Screens.start_sound app width, Screens.start_agree app width⟩ inputs

/-- A line of the assistant that is not drained yet is shown as a thought. -/
example :
    (Machine.final (Screens.step fun _ _ _ => [false]) (Screens.start {} none)
      [(.event (.assistantChunk "a\n"), 0), (.event (.thinkingChunk "b"), 1)]).tui.labels =
      [(.thinking, 'a'), (.thinking, '\n'), (.thinking, 'b')] := by
  decide

end AgileAgent.Tui
