import Mathlib.Algebra.Ring.Nat
import Mathlib.Data.List.Induction
import Mathlib.Data.List.Sort
import Mathlib.Logic.Function.Basic
import AgileAgent.Machine

/-! # The event log

Events as lines of a file that is rotated when it has grown too large: the file is renamed with the
number 1, the one with that number gets 2, and what had 5 is gone. Whoever replays the log reads
the file in use alone.
-/

namespace AgileAgent.Daemon

universe u

/-- How events are written as lines of JSON: a line that was written is not blank and reads back as
    its event. -/
structure LineFormat (E : Type u) where
  seq : E → Nat
  toLine : E → String
  fromLine : String → Option E
  fromLine_toLine : ∀ e, fromLine (toLine e) = some e
  toLine_ne : ∀ e, toLine e ≠ ""

/-- The lines of the files: 0 is the log itself, and the others are those with a number. -/
abbrev Files := Nat → Option (List String)

structure EventLog where
  files : Files
  maxSizeBytes : UInt64

/-- The size of a file, with the ends of its lines. -/
def fileSize (lines : List String) : Nat := (lines.map fun line => line.utf8ByteSize + 1).sum

/-- `rename`, in place of what is there, if there is a file at all. -/
def rename (files : Files) (src dst : Nat) : Files :=
  match files src with
  | some lines => Function.update (Function.update files dst (some lines)) src none
  | none => files

/-- The numbers from the missing ones on, up to the last event. -/
def gapsFrom : Nat → List Nat → List Nat
  | _, [] => []
  | expected, seq :: rest => List.range' expected (seq - expected) ++ gapsFrom (seq + 1) rest

namespace EventLog

def openWithMaxSize (files : Files) (maxEventLogMb : UInt64) : EventLog :=
  { files := if (files 0).isSome then files else Function.update files 0 (some [])
    maxSizeBytes := maxEventLogMb * 1024 * 1024 }

def rotate (log : EventLog) : EventLog :=
  { log with files := [5, 4, 3, 2, 1].foldl (fun files i => rename files (i - 1) i) log.files }

/-- The log has grown over its limit. -/
def full (log : EventLog) : Bool :=
  match log.files 0 with
  | some lines => decide (log.maxSizeBytes.toNat < fileSize lines)
  | none => false

def maybeRotate (log : EventLog) : EventLog := if log.full then log.rotate else log

section

variable {E : Type u} (format : LineFormat E)

def append (log : EventLog) (event : E) : EventLog :=
  let log := log.maybeRotate
  { log with
    files := Function.update log.files 0 (some ((log.files 0).getD [] ++ [format.toLine event])) }

/-- The events of a file. Blank lines and lines that cannot be read are skipped. -/
def readLines (lines : List String) : List E :=
  lines.filterMap fun line => if line = "" then none else format.fromLine line

def sortBySeq (events : List E) : List E :=
  events.insertionSort fun a b => format.seq a ≤ format.seq b

/-- Fails if there is no file. -/
def replayFrom (log : EventLog) (fromSeq : Nat) : Option (List E) :=
  (log.files 0).map fun lines =>
    sortBySeq format ((readLines format lines).filter fun event => fromSeq ≤ format.seq event)

def replayRange (log : EventLog) (startSeq endSeq : Nat) : Option (List E) :=
  (log.replayFrom format startSeq).map fun events =>
    events.filter fun event => format.seq event < endSeq

def detectGaps (log : EventLog) : Option (List Nat) :=
  (log.replayFrom format 1).map fun events =>
    let seqs := (sortBySeq format events).map format.seq
    gapsFrom (seqs.headD 0) seqs

/-! ## Runs -/

inductive Operation (E : Type u) where
  | append (event : E)
  | reopen (maxEventLogMb : UInt64)
  | replayFrom (fromSeq : Nat)
  | replayRange (startSeq endSeq : Nat)
  | detectGaps

inductive Answer (E : Type u) where
  | done
  | events (events : Option (List E))
  | gaps (seqs : Option (List Nat))

def step (log : EventLog) : Operation E → Answer E × EventLog
  | .append event => (.done, log.append format event)
  | .reopen maxEventLogMb => (.done, openWithMaxSize log.files maxEventLogMb)
  | .replayFrom fromSeq => (.events (log.replayFrom format fromSeq), log)
  | .replayRange startSeq endSeq => (.events (log.replayRange format startSeq endSeq), log)
  | .detectGaps => (.gaps (log.detectGaps format), log)

/-- The events of one file. -/
def eventsOf (log : EventLog) (i : Nat) : List E := readLines format ((log.files i).getD [])

/-- The events of the five files with a number, the oldest first. -/
def rotated (log : EventLog) : List E := [5, 4, 3, 2, 1].flatMap (log.eventsOf format)

/-- The events that a rotation takes away: those of the last file, if one takes its place. -/
def overwritten (log : EventLog) : List E := if (log.files 4).isSome then log.eventsOf format 5 else []

/-- The events that have not been rotated out of the files. -/
def retained (log : EventLog) : List E := log.rotated format ++ log.eventsOf format 0

/-- A replay gives all events of its range that are retained, each once, and no number of a retained
    event is reported to be missing. -/
def Right (x : Machine.Step EventLog (Operation E) (Answer E)) : Prop :=
  match x.event with
  | .append _ | .reopen _ => True
  | .replayFrom fromSeq => ∃ events, x.output = .events (some events) ∧
      events.Perm ((x.before.retained format).filter fun event => fromSeq ≤ format.seq event)
  | .replayRange startSeq endSeq => ∃ events, x.output = .events (some events) ∧
      events.Perm ((x.before.retained format).filter fun event =>
        startSeq ≤ format.seq event ∧ format.seq event < endSeq)
  | .detectGaps => ∃ seqs, x.output = .gaps (some seqs) ∧
      ∀ event ∈ x.before.retained format, format.seq event ∉ seqs

/-- The rotated files hold nothing that a call is about: no event of the range that is replayed, and
    none whose number is missing in the file in use between two of its events. -/
def Covers (log : EventLog) : Operation E → Prop
  | .append _ | .reopen _ => True
  | .replayFrom fromSeq => ∀ event ∈ log.rotated format, format.seq event < fromSeq
  | .replayRange startSeq endSeq => ∀ event ∈ log.rotated format,
      format.seq event < startSeq ∨ endSeq ≤ format.seq event
  | .detectGaps => ∀ event ∈ log.rotated format, ∀ first ∈ log.eventsOf format 0,
      ∀ last ∈ log.eventsOf format 0, 1 ≤ format.seq first → format.seq first < format.seq event →
      format.seq event < format.seq last →
      ∃ here ∈ log.eventsOf format 0, format.seq here = format.seq event

/-! ## What the files hold -/

theorem readLines_append (lines lines' : List String) :
    readLines format (lines ++ lines') = readLines format lines ++ readLines format lines' :=
  List.filterMap_append

@[simp] theorem readLines_toLine (event : E) : readLines format [format.toLine event] = [event] := by
  simp [readLines, format.toLine_ne, format.fromLine_toLine]

end

section

variable {E : Type u} (format : LineFormat E)

/-- A file is renamed onto a number that is free. -/
theorem rename_eventsOf {files : Files} {maxSizeBytes : UInt64} {src dst : Nat}
    (free : files dst = none) (apart : src ≠ dst) (i : Nat) :
    eventsOf format ⟨rename files src dst, maxSizeBytes⟩ i =
      if i = dst then eventsOf format ⟨files, maxSizeBytes⟩ src
      else if i = src then [] else eventsOf format ⟨files, maxSizeBytes⟩ i := by
  unfold eventsOf rename
  cases source : files src with
  | none =>
      by_cases here : i = dst
      · subst here
        simp [free, source]
      · by_cases there : i = src
        · subst there
          simp [source, apart, readLines]
        · simp [here, there]
  | some lines =>
      by_cases here : i = dst
      · subst here
        simp [source, apart.symm]
      · by_cases there : i = src
        · subst there
          simp [apart, readLines]
        · simp [here, there]

theorem rename_src (files : Files) (src dst : Nat) : rename files src dst src = none := by
  unfold rename
  cases source : files src with
  | none => exact source
  | some lines => simp

/-- The oldest events go exactly if there is a file to take their place. -/
theorem rename_oldest (files : Files) (maxSizeBytes : UInt64) :
    eventsOf format ⟨files, maxSizeBytes⟩ 5 ++ eventsOf format ⟨files, maxSizeBytes⟩ 4 =
        overwritten format ⟨files, maxSizeBytes⟩ ++ eventsOf format ⟨rename files 4 5, maxSizeBytes⟩ 5 ∧
      ∀ i, i ≠ 4 → i ≠ 5 → eventsOf format ⟨rename files 4 5, maxSizeBytes⟩ i =
        eventsOf format ⟨files, maxSizeBytes⟩ i := by
  unfold overwritten eventsOf rename
  cases source : files 4 with
  | none => exact ⟨by simp [source, readLines], fun _ _ _ => rfl⟩
  | some lines =>
      refine ⟨by simp [source], fun i other other' => ?_⟩
      simp [other, other']

/-- A rotation empties the log itself and loses no event but the oldest. -/
theorem rotate_retained (log : EventLog) :
    log.rotate.files 0 = none ∧
      log.retained format = log.overwritten format ++ log.rotate.rotated format := by
  obtain ⟨files, maxSizeBytes⟩ := log
  refine ⟨rename_src _ 0 1, ?_⟩
  obtain ⟨oldest, others⟩ := rename_oldest format files maxSizeBytes
  have free₄ := rename_src files 4 5
  have free₃ := rename_src (rename files 4 5) 3 4
  have free₂ := rename_src (rename (rename files 4 5) 3 4) 2 3
  have free₁ := rename_src (rename (rename (rename files 4 5) 3 4) 2 3) 1 2
  simp only [retained, rotated, rotate, List.foldl_cons, List.foldl_nil, List.flatMap_cons,
    List.flatMap_nil, Nat.reduceSub, rename_eventsOf format free₄ (by decide : 3 ≠ 4),
    rename_eventsOf format free₃ (by decide : 2 ≠ 3), rename_eventsOf format free₂ (by decide : 1 ≠ 2),
    rename_eventsOf format free₁ (by decide : 0 ≠ 1)]
  simp only [Nat.reduceEqDiff, ↓reduceIte, others, ne_eq, not_false_eq_true, List.append_nil,
    List.append_assoc]
  rw [← List.append_assoc, oldest, List.append_assoc]

/-- An appended event is in the log, and nothing goes but the oldest events. -/
theorem append_retained (log : EventLog) (event : E) :
    log.retained format ++ [event] =
      (if log.full then log.overwritten format else []) ++ (log.append format event).retained format := by
  have written (log : EventLog) (lines : List String) :
      ({ log with files := Function.update log.files 0 (some lines) } : EventLog).retained format =
        log.rotated format ++ readLines format lines := by
    simp [retained, rotated, eventsOf]
  unfold append maybeRotate
  cases log.full with
  | false =>
      simp only [Bool.false_eq_true, ↓reduceIte, written, readLines_append, readLines_toLine]
      simp [retained, eventsOf]
  | true =>
      obtain ⟨emptied, kept⟩ := rotate_retained format log
      simp only [↓reduceIte, written, emptied, Option.getD_none, List.nil_append, readLines_toLine]
      rw [kept, List.append_assoc]

/-- Without a rotation, nothing is in the files with a number. -/
theorem append_rotated {log : EventLog} (small : log.full = false) (event : E) :
    (log.append format event).rotated format = log.rotated format := by
  simp [append, maybeRotate, small, rotated, eventsOf]

/-- Opening a log again changes nothing in its files. -/
theorem reopen_eventsOf (log : EventLog) (maxEventLogMb : UInt64) :
    eventsOf format (openWithMaxSize log.files maxEventLogMb) = eventsOf format log := by
  funext i
  unfold openWithMaxSize eventsOf
  cases current : log.files 0 with
  | some lines => simp
  | none =>
      by_cases here : i = 0
      · subst here
        simp [current]
      · simp [here]

/-! ## Replays -/

theorem replay_perm (events : List E) : (sortBySeq format events).Perm events :=
  List.perm_insertionSort _ events

/-- A part is all there is exactly if the rest is empty. -/
theorem perm_append_iff {part rest : List E} : part.Perm (rest ++ part) ↔ rest = [] := by
  constructor
  · intro perm
    have lengths := perm.length_eq
    rw [List.length_append] at lengths
    exact List.length_eq_zero_iff.mp (by omega)
  · rintro rfl
    exact List.Perm.refl part

theorem replayFrom_right_iff {log : EventLog} {lines : List String}
    (current : log.files 0 = some lines) (fromSeq : Nat) :
    (∃ events, log.replayFrom format fromSeq = some events ∧
      events.Perm ((log.retained format).filter fun event => fromSeq ≤ format.seq event)) ↔
      ∀ event ∈ log.rotated format, format.seq event < fromSeq := by
  have here : log.eventsOf format 0 = readLines format lines := by simp [eventsOf, current]
  have sorted := replay_perm format
    ((readLines format lines).filter fun event => fromSeq ≤ format.seq event)
  simp only [replayFrom, current, Option.map_some, Option.some.injEq, exists_eq_left', retained,
    List.filter_append, here]
  rw [List.Perm.congr_left sorted, perm_append_iff, List.filter_eq_nil_iff]
  simp

theorem replayRange_right_iff {log : EventLog} {lines : List String}
    (current : log.files 0 = some lines) (startSeq endSeq : Nat) :
    (∃ events, log.replayRange format startSeq endSeq = some events ∧
      events.Perm ((log.retained format).filter fun event =>
        startSeq ≤ format.seq event ∧ format.seq event < endSeq)) ↔
      ∀ event ∈ log.rotated format,
        format.seq event < startSeq ∨ endSeq ≤ format.seq event := by
  have here : log.eventsOf format 0 = readLines format lines := by simp [eventsOf, current]
  have sorted := (replay_perm format
    ((readLines format lines).filter fun event => startSeq ≤ format.seq event)).filter
      fun event => format.seq event < endSeq
  have both : ((readLines format lines).filter fun event => startSeq ≤ format.seq event).filter
      (fun event => format.seq event < endSeq) = (readLines format lines).filter fun event =>
        startSeq ≤ format.seq event ∧ format.seq event < endSeq := by
    rw [List.filter_filter]
    congr 1
    funext event
    simp [Bool.and_comm]
  simp only [replayRange, replayFrom, current, Option.map_some, Option.some.injEq, exists_eq_left',
    retained, List.filter_append, here]
  rw [List.Perm.congr_left sorted, both, perm_append_iff, List.filter_eq_nil_iff]
  simp only [decide_eq_true_eq, not_and, not_lt]
  refine forall₂_congr fun event member => ?_
  omega

/-! ## Gaps -/

/-- What is reported is missing, and an event with a greater number is there. -/
theorem mem_gapsFrom {expected n : Nat} {seqs : List Nat} (sorted : seqs.Pairwise (· ≤ ·))
    (near : ∀ seq ∈ seqs, expected ≤ seq + 1) :
    n ∈ gapsFrom expected seqs ↔ expected ≤ n ∧ n ∉ seqs ∧ ∃ seq ∈ seqs, n < seq := by
  induction seqs generalizing expected with
  | nil => simp [gapsFrom]
  | cons seq rest ih =>
      rw [List.pairwise_cons] at sorted
      have first := near seq List.mem_cons_self
      have later := ih sorted.2 fun m member => Nat.succ_le_succ (sorted.1 m member)
      rw [gapsFrom, List.mem_append, List.mem_range'_1, later]
      constructor
      · rintro (⟨above, below⟩ | ⟨above, missing, m, member, less⟩)
        · refine ⟨above, fun here => ?_, seq, List.mem_cons_self, by omega⟩
          rcases List.mem_cons.mp here with rfl | there
          · omega
          · have := sorted.1 n there
            omega
        · refine ⟨by omega, fun here => ?_, m, List.mem_cons_of_mem _ member, less⟩
          rcases List.mem_cons.mp here with rfl | there
          · omega
          · exact missing there
      · rintro ⟨above, missing, m, member, less⟩
        rw [List.mem_cons, not_or] at missing
        by_cases before : n < seq
        · exact .inl ⟨above, by omega⟩
        · refine .inr ⟨by omega, missing.2, m, ?_, less⟩
          rcases List.mem_cons.mp member with rfl | there
          · omega
          · exact there

/-- The numbers that `detect_gaps` looks at, in their order. -/
theorem gaps_of {log : EventLog} {lines : List String} (current : log.files 0 = some lines) :
    ∃ seqs, log.detectGaps format = some (gapsFrom (seqs.headD 0) seqs) ∧
      seqs.Pairwise (· ≤ ·) ∧
      ∀ n, n ∈ seqs ↔ 1 ≤ n ∧ ∃ event ∈ log.eventsOf format 0, format.seq event = n := by
  have here : log.eventsOf format 0 = readLines format lines := by simp [eventsOf, current]
  refine ⟨(sortBySeq format (sortBySeq format
    ((readLines format lines).filter fun event => 1 ≤ format.seq event))).map format.seq,
    by simp [detectGaps, replayFrom, current], ?_, fun n => ?_⟩
  · have : Std.Total fun a b : E => format.seq a ≤ format.seq b := ⟨fun a b => Nat.le_total _ _⟩
    have : IsTrans E fun a b : E => format.seq a ≤ format.seq b := ⟨fun _ _ _ => Nat.le_trans⟩
    exact List.pairwise_map.mpr (List.pairwise_insertionSort _ _)
  · simp only [List.mem_map, (replay_perm format _).mem_iff, List.mem_filter, decide_eq_true_eq, here]
    constructor
    · rintro ⟨event, ⟨member, positive⟩, rfl⟩
      exact ⟨positive, event, member, rfl⟩
    · rintro ⟨positive, event, member, rfl⟩
      exact ⟨event, ⟨member, positive⟩, rfl⟩

theorem detectGaps_right_iff {log : EventLog} {lines : List String}
    (current : log.files 0 = some lines) :
    (∃ gaps, log.detectGaps format = some gaps ∧
      ∀ event ∈ log.retained format, format.seq event ∉ gaps) ↔ log.Covers format .detectGaps := by
  obtain ⟨seqs, gaps, sorted, mem_seqs⟩ := gaps_of format current
  have least : ∀ n ∈ seqs, seqs.headD 0 ≤ n := by
    cases seqs with
    | nil => simp
    | cons head rest =>
        intro n member
        rcases List.mem_cons.mp member with rfl | there
        · exact Nat.le_refl _
        · exact (List.pairwise_cons.mp sorted).1 n there
  have head_mem : seqs ≠ [] → seqs.headD 0 ∈ seqs := by
    cases seqs with
    | nil => simp
    | cons head rest => simp
  have reported (n : Nat) : n ∈ gapsFrom (seqs.headD 0) seqs ↔
      seqs.headD 0 ≤ n ∧ n ∉ seqs ∧ ∃ seq ∈ seqs, n < seq :=
    mem_gapsFrom sorted fun m member => Nat.le_succ_of_le (least m member)
  simp only [gaps, Option.some.injEq, exists_eq_left', reported, Covers]
  constructor
  · intro right event member first first_mem last last_mem positive after before
    by_contra missing
    refine right event (List.mem_append_left _ member) ⟨?_, ?_, format.seq last, ?_, before⟩
    · have := least _ ((mem_seqs _).mpr ⟨positive, first, first_mem, rfl⟩)
      omega
    · exact fun there => missing ((mem_seqs _).mp there).2
    · exact (mem_seqs _).mpr ⟨by omega, last, last_mem, rfl⟩
  · rintro covers event member ⟨above, missing, m, m_mem, less⟩
    have head := head_mem (List.ne_nil_of_mem m_mem)
    obtain ⟨positive, first, first_mem, is_head⟩ := (mem_seqs _).mp head
    obtain ⟨-, last, last_mem, rfl⟩ := (mem_seqs _).mp m_mem
    have apart : seqs.headD 0 ≠ format.seq event := fun same => missing (same ▸ head)
    rcases List.mem_append.mp member with rotated | here
    · obtain ⟨here, here_mem, same⟩ := covers event rotated first first_mem last last_mem (by omega)
        (by omega) less
      exact missing ((mem_seqs _).mpr ⟨by omega, here, here_mem, same⟩)
    · exact missing ((mem_seqs _).mpr ⟨by omega, event, here, rfl⟩)

/-! ## Runs of the log -/

theorem step_keeps_current {log : EventLog} (current : (log.files 0).isSome = true)
    (operation : Operation E) : ((log.step format operation).2.files 0).isSome = true := by
  cases operation with
  | append event => simp [step, append]
  | reopen maxEventLogMb => simp [step, openWithMaxSize, current]
  | replayFrom | replayRange | detectGaps => exact current

theorem step_right_iff {log : EventLog} (current : (log.files 0).isSome = true)
    (operation : Operation E) :
    Right format ⟨log, operation, (log.step format operation).1, (log.step format operation).2⟩ ↔
      log.Covers format operation := by
  obtain ⟨lines, found⟩ := Option.isSome_iff_exists.mp current
  cases operation with
  | append | reopen => exact Iff.rfl
  | replayFrom fromSeq =>
      simpa [Right, step, Covers] using replayFrom_right_iff format found fromSeq
  | replayRange startSeq endSeq =>
      simpa [Right, step, Covers] using replayRange_right_iff format found startSeq endSeq
  | detectGaps => simpa [Right, step] using detectGaps_right_iff format found

/-- In every run of a new log, all answers are right exactly if every call finds rotated files that
    hold nothing it is about. -/
theorem run_right_iff (maxEventLogMb : UInt64) (operations : List (Operation E)) :
    (∀ x ∈ Machine.history (step format) (openWithMaxSize (fun _ => none) maxEventLogMb) operations,
        Right format x) ↔
      ∀ x ∈ Machine.history (step format) (openWithMaxSize (fun _ => none) maxEventLogMb) operations,
        x.before.Covers format x.event :=
  @Machine.history_exact EventLog (Operation E) (Answer E) (step format)
    (fun log => (log.files 0).isSome = true) (fun log operation => log.Covers format operation)
    (Right format) (fun _ operation current => step_right_iff format current operation)
    (fun _ operation current _ => step_keeps_current format current operation)
    _ (by simp [openWithMaxSize]) operations

/-- The event that an operation appends. -/
def Operation.appended : Operation E → Option E
  | .append event => some event
  | _ => none

/-- The events that a step takes away. -/
def dropped (x : Machine.Step EventLog (Operation E) (Answer E)) : List E :=
  match x.event with
  | .append _ => if x.before.full then x.before.overwritten format else []
  | _ => []

/-- What was appended is what rotations took away, one last file after another, and after that what is
    in the files. -/
theorem retained_of_appended (maxEventLogMb : UInt64) (operations : List (Operation E)) :
    operations.filterMap Operation.appended =
      (Machine.history (step format) (openWithMaxSize (fun _ => none) maxEventLogMb)
          operations).flatMap (dropped format) ++
        (Machine.final (step format) (openWithMaxSize (fun _ => none) maxEventLogMb)
          operations).retained format := by
  induction operations using List.reverseRecOn with
  | nil => simp [retained, rotated, eventsOf, openWithMaxSize, readLines]
  | append_singleton operations operation ih =>
      rw [Machine.final_snoc, Machine.history_snoc, List.flatMap_append, List.filterMap_append, ih,
        List.append_assoc, List.append_assoc, List.append_cancel_left_eq]
      cases operation with
      | append event => simpa [dropped, step, Operation.appended] using append_retained format _ event
      | reopen newMaxMb => simp [dropped, Operation.appended, step, retained, rotated, reopen_eventsOf]
      | replayFrom | replayRange | detectGaps => simp [dropped, Operation.appended, step]

/-- As long as no append meets a log that is full, all replays are of all that was appended. -/
theorem never_rotated (maxEventLogMb : UInt64) {operations : List (Operation E)}
    (small : ∀ x ∈ Machine.history (step format) (openWithMaxSize (fun _ => none) maxEventLogMb)
      operations, ∀ event, x.event = .append event → x.before.full = false) :
    (Machine.final (step format) (openWithMaxSize (fun _ => none) maxEventLogMb) operations).rotated
      format = [] := by
  refine @Machine.final_invariant EventLog (Operation E) (Answer E) (step format)
    (fun log => log.rotated format = [])
    (fun log operation => ∀ event, operation = .append event → log.full = false)
    (fun log operation fits none => ?_) _
    (by simp [rotated, eventsOf, openWithMaxSize, readLines]) operations small
  cases operation with
  | append event =>
      rw [← none]
      exact append_rotated format (fits event rfl) event
  | reopen newMaxMb =>
      simp only [rotated, step, reopen_eventsOf]
      exact none
  | replayFrom | replayRange | detectGaps => exact none

end

/-- Two events on their lines. -/
def twoErrors : LineFormat Bool where
  seq second := if second then 2 else 1
  toLine second := if second then "\x7b\"seq\":2,\"type\":\"error\"\x7d" else "\x7b\"seq\":1,\"type\":\"error\"\x7d"
  fromLine line :=
    if line = "\x7b\"seq\":1,\"type\":\"error\"\x7d" then some false
    else if line = "\x7b\"seq\":2,\"type\":\"error\"\x7d" then some true
    else none
  fromLine_toLine := by decide
  toLine_ne := by decide

/-- With a limit of 0, the second append moves the first event out of the file that is replayed. -/
theorem rotated_event_not_replayed : ¬ ∀ (E : Type) (format : LineFormat E) (maxEventLogMb : UInt64)
    (operations : List (Operation E)),
    ∀ x ∈ Machine.history (step format) (openWithMaxSize (fun _ => none) maxEventLogMb) operations,
      Right format x := by
  intro all
  have right := all Bool twoErrors 0 [.append false, .append true, .replayFrom 1] _
    (List.mem_cons_of_mem _ (List.mem_cons_of_mem _ List.mem_cons_self))
  obtain ⟨events, replayed, perm⟩ := right
  have one : events = [true] := by
    have := Option.some.inj (Answer.events.inj replayed)
    rw [← this]
    decide +kernel
  rw [one] at perm
  exact absurd perm.length_eq (by decide +kernel)

end EventLog

end AgileAgent.Daemon
