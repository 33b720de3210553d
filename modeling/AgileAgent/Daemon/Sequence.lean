import AgileAgent.Daemon.EventLog
import AgileAgent.Daemon.EventLoop

/-! # Sequence numbers

A pump numbers its events from 1 on. A client that resumes asks for all events from a number on, and
gets what it has not seen if the numbers of a whole run increase.
-/

namespace AgileAgent.Daemon

open RuntimeDomain

/-- A new pump makes an event of it. -/
def speaks : DomainEvent → Bool
  | .status _ | .assistantChunk _ | .thinkingChunk _ | .execCommandStarted .. | .error _ | .finished =>
      true
  | _ => false

namespace EventPump

variable {pump : EventPump} {event : DomainEvent}

/-- What the pump makes of the events of one tick. -/
def convert (pump : EventPump) : List (String × DomainEvent) → List Event
  | [] => []
  | (agentId, event) :: rest =>
      (pump.process agentId event).1 ++ (pump.process agentId event).2.convert rest

theorem chunk_seq (pump : EventPump) (agentId : String) (kind : ItemKind) (delta : ItemDelta) :
    ∃ payload, (pump.chunk agentId kind delta).1 = [⟨pump.seqCounter + 1, payload⟩] ∧
      (pump.chunk agentId kind delta).2.seqCounter = pump.seqCounter + 1 := by
  unfold chunk getOrCreateItem
  cases item : pump.currentItems (agentId, none) with
  | none => exact ⟨_, rfl, rfl⟩
  | some id => exact ⟨_, rfl, rfl⟩

/-- An event is converted into one with the next number, or into none. -/
theorem process_cases (pump : EventPump) (agentId : String) (event : DomainEvent) :
    ((pump.process agentId event).1 = [] ∧
        (pump.process agentId event).2.seqCounter = pump.seqCounter) ∨
      ∃ payload, (pump.process agentId event).1 = [⟨pump.seqCounter + 1, payload⟩] ∧
        (pump.process agentId event).2.seqCounter = pump.seqCounter + 1 := by
  unfold process
  cases event with
  | status | error | finished | execCommandStarted => exact .inr ⟨_, rfl, rfl⟩
  | assistantChunk | thinkingChunk => exact .inr (pump.chunk_seq ..)
  | execCommandFinished callId =>
      cases item : pump.currentItems (agentId, callId) with
      | none => exact .inl (by simp [finishItem, item])
      | some id => exact .inr (by simp [finishItem, item, mkEvent])
  | execCommandOutputDelta callId =>
      cases item : pump.currentItems (agentId, callId) with
      | none => exact .inl (by simp [currentItemId, item])
      | some id => exact .inr (by simp [currentItemId, item, mkEvent])
  | _ => exact .inl ⟨rfl, rfl⟩

theorem process_speaks (heard : speaks event = true) (agentId : String) :
    (pump.process agentId event).1 ≠ [] := by
  unfold process
  cases event with
  | status | error | finished | execCommandStarted => exact List.cons_ne_nil _ _
  | assistantChunk | thinkingChunk =>
      obtain ⟨payload, one, -⟩ := pump.chunk_seq agentId _ _
      exact one ▸ List.cons_ne_nil _ _
  | _ => cases heard

/-- Without an item that is open, the other events are not converted, and open none. -/
theorem process_silent (silent : speaks event = false) (closed : ∀ key, pump.currentItems key = none)
    (agentId : String) : (pump.process agentId event).1 = [] ∧
      ∀ key, (pump.process agentId event).2.currentItems key = none := by
  unfold process
  cases event with
  | status | error | finished | execCommandStarted | assistantChunk | thinkingChunk => cases silent
  | execCommandFinished callId =>
      simp only [finishItem, closed]
      refine ⟨trivial, fun key => ?_⟩
      by_cases same : key = (agentId, callId)
      · rw [same, Function.update_self]
      · rw [Function.update_of_ne same, closed]
  | execCommandOutputDelta callId =>
      simp only [currentItemId, closed]
      exact ⟨trivial, fun _ => trivial⟩
  | _ => exact ⟨rfl, closed⟩

/-- The events of a tick are numbered one after another. -/
theorem convert_seqs (pump : EventPump) (polled : List (String × DomainEvent)) :
    (pump.convert polled).map (·.seq) =
      List.range' (pump.seqCounter + 1) (pump.convert polled).length := by
  induction polled generalizing pump with
  | nil => rfl
  | cons first rest ih =>
      obtain ⟨agentId, event⟩ := first
      rcases pump.process_cases agentId event with ⟨none, same⟩ | ⟨payload, one, next⟩
      · rw [convert, none, List.nil_append, ih, same]
      · rw [convert, one, List.singleton_append, List.map_cons, ih, next, List.length_cons,
          List.range'_succ]

theorem convert_eq_nil_iff (closed : ∀ key, pump.currentItems key = none)
    (polled : List (String × DomainEvent)) :
    pump.convert polled = [] ↔ polled.any (fun event => speaks event.2) = false := by
  induction polled generalizing pump with
  | nil => simp [convert]
  | cons first rest ih =>
      obtain ⟨agentId, event⟩ := first
      cases heard : speaks event with
      | true => simp [convert, process_speaks heard, heard]
      | false =>
          obtain ⟨none, stillClosed⟩ := process_silent heard closed agentId
          simp [convert, none, heard, ih stillClosed]

end EventPump

/-! ## Replays -/

/-- The number of the last event that a client has seen. -/
def lastSeen (seen : List Event) : Nat := (seen.getLast?.map (·.seq)).getD 0

/-- A replay of logged events from a number on, in the order of their numbers. -/
def replay (events : List Event) (fromSeq : Nat) : List Event :=
  (events.filter fun event => fromSeq ≤ event.seq).insertionSort fun a b => a.seq ≤ b.seq

/-- What is appended to a log that has not grown too large is the next line of its file. -/
theorem append_logged (format : LineFormat Event) {log : EventLog} (small : log.full = false)
    {events : List Event} (logged : log.files 0 = some (events.map format.toLine)) (event : Event) :
    (log.append format event).files 0 = some ((events ++ [event]).map format.toLine) := by
  simp [EventLog.append, EventLog.maybeRotate, small, logged]

/-- A log that was not rotated replays what was appended. -/
theorem replayFrom_eq (format : LineFormat Event) (isSeq : ∀ event, format.seq event = event.seq)
    {log : EventLog} {events : List Event} (logged : log.files 0 = some (events.map format.toLine))
    (fromSeq : Nat) : log.replayFrom format fromSeq = some (replay events fromSeq) := by
  have read : EventLog.readLines format (events.map format.toLine) = events := by
    simp [EventLog.readLines, List.filterMap_map, format.toLine_ne, format.fromLine_toLine]
  simp [EventLog.replayFrom, logged, read, replay, EventLog.sortBySeq, isSeq]

/-- The numbers increase, and whoever resumes after the last event it has seen gets exactly those it
    has not seen. -/
structure Resumable (events : List Event) : Prop where
  increasing : (events.map (·.seq)).Pairwise (· < ·)
  resumes : ∀ seen unseen, events = seen ++ unseen → replay events (lastSeen seen + 1) = unseen

theorem resumable_of_increasing {events : List Event} (increasing : (events.map (·.seq)).Pairwise (· < ·))
    (positive : ∀ event ∈ events, 0 < event.seq) : Resumable events := by
  refine ⟨increasing, ?_⟩
  rintro seen unseen rfl
  rw [List.pairwise_map, List.pairwise_append] at increasing
  obtain ⟨front, back, apart⟩ := increasing
  have seen_le : ∀ event ∈ seen, event.seq ≤ lastSeen seen := by
    intro event member
    obtain ⟨init, last, rfl⟩ := List.eq_nil_or_concat' seen |>.resolve_left (List.ne_nil_of_mem member)
    rw [List.pairwise_append] at front
    rcases List.mem_append.mp member with earlier | here
    · have := front.2.2 event earlier last List.mem_cons_self
      simp [lastSeen]
      omega
    · rw [List.mem_singleton.mp here]
      simp [lastSeen]
  have unseen_gt : ∀ event ∈ unseen, lastSeen seen < event.seq := by
    intro event member
    rcases List.eq_nil_or_concat' seen with rfl | ⟨init, last, rfl⟩
    · exact positive event member
    · simpa [lastSeen] using apart last (by simp) event member
  have none : seen.filter (fun event => lastSeen seen + 1 ≤ event.seq) = [] := by
    rw [List.filter_eq_nil_iff]
    intro event member
    have := seen_le event member
    simp only [decide_eq_true_eq]
    omega
  have all : unseen.filter (fun event => lastSeen seen + 1 ≤ event.seq) = unseen := by
    rw [List.filter_eq_self]
    intro event member
    exact decide_eq_true (unseen_gt event member)
  rw [replay, List.filter_append, none, all, List.nil_append]
  exact (back.imp Nat.le_of_lt).insertionSort_eq

namespace EventLoop

open AgileAgent.Core

/-! ## Runs of the loop -/

/-- The events that a step returns to be broadcast. -/
def Output.returned : Output → List Event
  | .events made => made
  | _ => []

/-- The events that an operation returns: those of the pump that the tick creates. -/
def Operation.returned : Operation → List Event
  | .tick polled _ _ => EventPump.convert {} polled
  | _ => []

/-- A tick that polls an event that a new pump converts. -/
def Operation.speaks : Operation → Bool
  | .tick polled _ _ => polled.any fun event => Daemon.speaks event.2
  | _ => false

variable [Unicode]

/-- The events of a run, in the order in which they are broadcast and logged. -/
def broadcast (blocking : Bool) (l : EventLoop) (operations : List (Operation × Moment)) : List Event :=
  (Machine.history (step blocking) l (steps operations)).flatMap fun x => x.output.returned

variable {blocking : Bool} {l : EventLoop} {now : Moment}

theorem polled_returned (l : EventLoop) (polled : List (String × DomainEvent)) :
    (Machine.history (step blocking) l
      (polled.map fun event => (.event event.1 event.2, now))).flatMap (fun x => x.output.returned) =
        l.pump.convert polled := by
  induction polled generalizing l with
  | nil => rfl
  | cons first rest ih =>
      rw [List.map_cons, Machine.history_cons, List.flatMap_cons, ih]
      rfl

/-- Steps that return nothing, in a row. -/
theorem silent_returned {quiet : List (Step × Moment)}
    (silent : ∀ call ∈ quiet, ∀ l : EventLoop, (l.step blocking call).1.returned = []) (l : EventLoop) :
    (Machine.history (step blocking) l quiet).flatMap (fun x => x.output.returned) = [] := by
  induction quiet generalizing l with
  | nil => rfl
  | cons call rest ih =>
      rw [List.forall_mem_cons] at silent
      rw [Machine.history_cons, List.flatMap_cons, ih silent.2, silent.1 l, List.append_nil]

theorem operation_returned (l : EventLoop) (operation : Operation) (now : Moment) :
    (Machine.history (step blocking) l (operation.steps.map fun step => (step, now))).flatMap
      (fun x => x.output.returned) = operation.returned := by
  cases operation with
  | dispatch | sendInput => rfl
  | tick polled disconnected responses =>
      simp only [Operation.steps, List.cons_append, List.append_assoc, List.map_cons, List.map_append,
        List.map_map, Machine.history_cons, List.flatMap_cons]
      rw [Machine.history_append, List.flatMap_append]
      have events := @polled_returned _ blocking now { l with pump := {} } polled
      have rest := @silent_returned _ blocking
        (disconnected.map (fun agentId => (.disconnected agentId, now)) ++
          (responses.map (fun response =>
            (.decision response.agentId response.actions response.threads, now)) ++ [(.release, now)]))
        (by
          simp only [List.mem_append, List.mem_map, List.mem_singleton]
          rintro call (⟨_, _, rfl⟩ | ⟨_, _, rfl⟩ | rfl) l
          · rfl
          · rfl
          · rfl)
      exact (congrArg₂ (· ++ ·) events (rest _)).trans (List.append_nil _)

theorem broadcast_eq (l : EventLoop) (operations : List (Operation × Moment)) :
    l.broadcast blocking operations = operations.flatMap fun operation => operation.1.returned := by
  unfold broadcast steps
  induction operations generalizing l with
  | nil => rfl
  | cons first rest ih =>
      rw [List.flatMap_cons, Machine.history_append, List.flatMap_append, operation_returned, ih,
        List.flatMap_cons]

omit [Unicode] in
theorem returned_seqs (operation : Operation) :
    operation.returned.map (·.seq) = List.range' 1 operation.returned.length := by
  cases operation with
  | tick polled => exact EventPump.convert_seqs {} polled
  | dispatch | sendInput => rfl

omit [Unicode] in
theorem returned_eq_nil_iff (operation : Operation) :
    operation.returned = [] ↔ operation.speaks = false := by
  cases operation with
  | tick polled => exact EventPump.convert_eq_nil_iff (fun _ => rfl) polled
  | dispatch | sendInput => simp [Operation.returned, Operation.speaks]

omit [Unicode] in
/-- Each tick that speaks has an event with the number 1. -/
theorem first_mem {operation : Operation} (heard : operation.speaks = true) :
    1 ∈ operation.returned.map (·.seq) := by
  have some : operation.returned ≠ [] := by simp [returned_eq_nil_iff, heard]
  rw [returned_seqs, List.mem_range'_1]
  have := List.length_pos_iff.mpr some
  omega

omit [Unicode] in
theorem increasing_iff (operations : List (Operation × Moment)) :
    ((operations.flatMap fun operation => operation.1.returned).map (·.seq)).Pairwise (· < ·) ↔
      (operations.filter fun operation => operation.1.speaks).length ≤ 1 := by
  induction operations with
  | nil => simp
  | cons first rest ih =>
      rw [List.flatMap_cons, List.map_append, List.pairwise_append, ih]
      cases heard : first.1.speaks with
      | false => simp [(returned_eq_nil_iff _).mpr heard, heard]
      | true =>
          have longer : ((first :: rest).filter fun operation => operation.1.speaks).length =
              (rest.filter fun operation => operation.1.speaks).length + 1 := by simp [heard]
          rw [longer]
          constructor
          · rintro ⟨-, -, apart⟩
            by_contra two
            obtain ⟨again, member⟩ := List.exists_mem_of_length_pos
              (show 0 < (rest.filter fun operation => operation.1.speaks).length by omega)
            obtain ⟨inside, speaks⟩ := List.mem_filter.mp member
            obtain ⟨event, returned, one⟩ := List.mem_map.mp (first_mem speaks)
            have later : event ∈ rest.flatMap fun operation => operation.1.returned :=
              List.mem_flatMap.mpr ⟨again, inside, returned⟩
            have := apart 1 (first_mem heard) event.seq (List.mem_map_of_mem later)
            omega
          · intro one
            have none : ∀ operation ∈ rest, operation.1.returned = [] := by
              intro operation member
              rw [returned_eq_nil_iff, ← Bool.not_eq_true]
              intro speaks
              have here : operation ∈ rest.filter fun operation => operation.1.speaks :=
                List.mem_filter.mpr ⟨member, speaks⟩
              have := List.length_pos_of_mem here
              omega
            refine ⟨?_, by omega, fun a _ b later => ?_⟩
            · rw [returned_seqs]
              exact List.pairwise_lt_range'
            · rw [List.flatMap_eq_nil_iff.mpr none] at later
              cases later

/-- In a run of the loop the numbers increase, and a client that resumes gets what it has not seen,
    exactly if no more than one tick polls events that a new pump converts. -/
theorem run_resumable_iff (blocking : Bool) (l : EventLoop) (operations : List (Operation × Moment)) :
    Resumable (l.broadcast blocking operations) ↔
      (operations.filter fun operation => operation.1.speaks).length ≤ 1 := by
  rw [broadcast_eq, ← increasing_iff]
  refine ⟨fun resumable => resumable.increasing, fun increasing => resumable_of_increasing increasing ?_⟩
  intro event member
  obtain ⟨operation, -, returned⟩ := List.mem_flatMap.mp member
  have seq : event.seq ∈ operation.1.returned.map (·.seq) := List.mem_map_of_mem returned
  rw [returned_seqs, List.mem_range'_1] at seq
  exact seq.1

end EventLoop

end AgileAgent.Daemon

namespace AgileAgent.Daemon.EventLoop

open AgileAgent.Core RuntimeDomain

local instance namesLowered : Unicode := ⟨String.toLower⟩

/-- Two ticks that poll one status each return the number 1 twice. -/
theorem second_tick_starts_over : ¬ ∀ (blocking : Bool) (l : EventLoop)
    (operations : List (Operation × Moment)), Resumable (l.broadcast blocking operations) := by
  intro all
  have increasing := (all true { agentPool := ((WorkerPool.create 4).spawnWorker ⟨0, 0⟩).2 }
    [(.sendInput "agent_001" "hello" (some 1), ⟨1, 0⟩),
      (.tick [("agent_001", .status "thinking")] [] [], ⟨2, 0⟩),
      (.tick [("agent_001", .finished)] [] [], ⟨3, 0⟩)]).increasing
  exact absurd increasing (by decide +kernel)

end AgileAgent.Daemon.EventLoop
