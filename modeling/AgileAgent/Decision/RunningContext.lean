import Mathlib.Algebra.Ring.Nat
import AgileAgent.Machine

/-! # The running context

The cache of what an agent did last. Each operation adjusts the cached size by what it adds and
drops; sizes count the bytes of texts, the cuts of long texts count characters.
-/

namespace AgileAgent.Decision

inductive ChangeType where
  | created
  | modified
  | deleted
  deriving Repr, DecidableEq

structure ToolCallRecord where
  name : String
  inputPreview : Option String := none
  outputPreview : Option String := none
  deriving Repr, DecidableEq

structure FileChangeRecord where
  path : String
  changeType : ChangeType
  diffPreview : Option String := none
  deriving Repr, DecidableEq

structure RunningContextCache where
  toolCalls : List ToolCallRecord
  fileChanges : List FileChangeRecord
  thinkingSummary : Option String
  keyOutputs : List String
  maxEntries : Nat
  maxTotalBytes : Nat
  currentSize : Nat
  deriving Repr, DecidableEq

/-- How a call can go wrong: a subtraction below zero, or a loop that has not ended yet. -/
inductive Fault where
  | underflow
  | endless
  deriving Repr, DecidableEq

/-- `a -= b` on `usize`. -/
def sub (a b : Nat) : Except Fault Nat := if b ≤ a then .ok (a - b) else .error .underflow

/-- The length of an optional text, 0 without one. -/
def textSize (text : Option String) : Nat := (text.map String.utf8ByteSize).getD 0

def estimateToolCallSize (record : ToolCallRecord) : Nat :=
  record.name.utf8ByteSize + textSize record.inputPreview + textSize record.outputPreview + 50

def estimateFileChangeSize (record : FileChangeRecord) : Nat :=
  record.path.utf8ByteSize + textSize record.diffPreview + 20

/-- The size of all entries of a deque. -/
def total {α : Type} (size : α → Nat) (entries : List α) : Nat := (entries.map size).sum

/-- Pop the oldest entry as long as there is one and the loop goes on, which it decides by the
    length of the deque and the cached size. -/
def popWhile {α : Type} (size : α → Nat) (goesOn : Nat → Nat → Bool) :
    List α → Nat → Except Fault (List α × Nat)
  | [], currentSize => .ok ([], currentSize)
  | old :: rest, currentSize =>
      if goesOn (rest.length + 1) currentSize then
        (sub currentSize (size old)).bind (popWhile size goesOn rest)
      else .ok (old :: rest, currentSize)

namespace RunningContextCache

/-- `RunningContextCache::new`. -/
def create (maxEntries : Nat) : RunningContextCache :=
  { toolCalls := [], fileChanges := [], thinkingSummary := none, keyOutputs := [], maxEntries
    maxTotalBytes := 10240, currentSize := 0 }

def withMaxBytes (c : RunningContextCache) (maxBytes : Nat) : RunningContextCache :=
  { c with maxTotalBytes := maxBytes }

/-- The sum of `recalculate_size`. -/
def recalculated (c : RunningContextCache) : Nat :=
  total estimateToolCallSize c.toolCalls + total estimateFileChangeSize c.fileChanges +
    textSize c.thinkingSummary + total String.utf8ByteSize c.keyOutputs

def recalculateSize (c : RunningContextCache) : RunningContextCache :=
  { c with currentSize := c.recalculated }

/-- No room for one more entry of a size beside a deque of a length. -/
def full (c : RunningContextCache) (entrySize length currentSize : Nat) : Bool :=
  decide (c.maxEntries ≤ length) || decide (c.maxTotalBytes < currentSize + entrySize)

def addToolCall (c : RunningContextCache) (record : ToolCallRecord) :
    Except Fault RunningContextCache :=
  let entrySize := estimateToolCallSize record
  if c.maxTotalBytes < entrySize then .ok c
  else
    (popWhile estimateToolCallSize (c.full entrySize) c.toolCalls c.currentSize).map fun kept =>
      { c with toolCalls := kept.1 ++ [record], currentSize := kept.2 + entrySize }

/-- The record without its diff, as an oversized change is kept. -/
def truncated (record : FileChangeRecord) : FileChangeRecord :=
  { path := record.path, changeType := record.changeType }

def addFileChange (c : RunningContextCache) (record : FileChangeRecord) :
    Except Fault RunningContextCache :=
  let entrySize := estimateFileChangeSize record
  if c.maxTotalBytes < entrySize then
    let truncatedSize := estimateFileChangeSize (truncated record)
    if c.maxTotalBytes < truncatedSize then .ok c
    else .ok { c with
      fileChanges := c.fileChanges ++ [truncated record]
      currentSize := c.currentSize + truncatedSize }
  else
    (popWhile estimateFileChangeSize (c.full entrySize) c.fileChanges c.currentSize).map
      fun kept => { c with fileChanges := kept.1 ++ [record], currentSize := kept.2 + entrySize }

/-- `chars().take(n)`. -/
def takeChars (n : Nat) (text : String) : String := String.ofList (text.toList.take n)

/-- `chars().skip(n)`. -/
def skipChars (n : Nat) (text : String) : String := String.ofList (text.toList.drop n)

def addKeyOutput (c : RunningContextCache) (output : String) :
    Except Fault RunningContextCache :=
  let entrySize := output.utf8ByteSize
  if c.maxTotalBytes < entrySize then
    (sub c.maxTotalBytes 10).map fun truncatedLen =>
      -- the size of everything else in the cache is overwritten here
      { c with
        keyOutputs := c.keyOutputs ++ [takeChars truncatedLen output]
        currentSize := (takeChars truncatedLen output).utf8ByteSize }
  else
    (popWhile String.utf8ByteSize (c.full entrySize) c.keyOutputs c.currentSize).map fun kept =>
      { c with keyOutputs := kept.1 ++ [output], currentSize := kept.2 + entrySize }

/-- What is kept of a summary. -/
def cutSummary (c : RunningContextCache) (summary : String) : String :=
  if c.maxTotalBytes / 4 < summary.utf8ByteSize then
    skipChars (summary.utf8ByteSize - c.maxTotalBytes / 4) summary
  else summary

def updateThinkingSummary (c : RunningContextCache) (summary : String) :
    Except Fault RunningContextCache :=
  (sub c.currentSize (textSize c.thinkingSummary)).map fun others =>
    { c with
      thinkingSummary := some (c.cutSummary summary)
      currentSize := others + (c.cutSummary summary).utf8ByteSize }

def clear (c : RunningContextCache) : RunningContextCache :=
  { c with toolCalls := [], fileChanges := [], thinkingSummary := none, keyOutputs := []
           currentSize := 0 }

def compressThinking (c : RunningContextCache) : RunningContextCache :=
  match c.thinkingSummary with
  | some thinking =>
      if c.maxTotalBytes < c.currentSize ∧ 100 < thinking.utf8ByteSize then
        recalculateSize { c with
          thinkingSummary := some (skipChars (thinking.utf8ByteSize - 100) thinking) }
      else c
  | none => c

def dropDiffs (c : RunningContextCache) : Except Fault RunningContextCache :=
  if c.maxTotalBytes < c.currentSize then
    (c.fileChanges.foldlM (fun size record => sub size (textSize record.diffPreview))
      c.currentSize).map fun size =>
        { c with
          fileChanges := c.fileChanges.map fun record => { record with diffPreview := none }
          currentSize := size }
  else .ok c

/-- One round of the loop of `compress`. -/
def compressRound (c : RunningContextCache) : Except Fault RunningContextCache := do
  let calls ← popWhile estimateToolCallSize
    (fun length size => decide (10 < length) && decide (c.maxTotalBytes < size))
    c.toolCalls c.currentSize
  let c ← dropDiffs (compressThinking { c with toolCalls := calls.1, currentSize := calls.2 })
  let outputs ← popWhile String.utf8ByteSize
    (fun length size => decide (5 < length) && decide (c.maxTotalBytes < size))
    c.keyOutputs c.currentSize
  return { c with keyOutputs := outputs.1, currentSize := outputs.2 }

/-- `compress`, for as many rounds as there is fuel. -/
def compress (fuel : Nat) (c : RunningContextCache) : Except Fault RunningContextCache :=
  if c.maxTotalBytes < c.currentSize then
    match fuel with
    | 0 => .error .endless
    | fuel + 1 => c.compressRound.bind (compress fuel)
  else .ok c

inductive Operation where
  | addToolCall (record : ToolCallRecord)
  | addFileChange (record : FileChangeRecord)
  | addKeyOutput (output : String)
  | updateThinkingSummary (summary : String)
  | compress
  | clear
  deriving Repr, DecidableEq

def call (fuel : Nat) (c : RunningContextCache) : Operation → Except Fault RunningContextCache
  | .addToolCall record => c.addToolCall record
  | .addFileChange record => c.addFileChange record
  | .addKeyOutput output => c.addKeyOutput output
  | .updateThinkingSummary summary => c.updateThinkingSummary summary
  | .compress => c.compress fuel
  | .clear => .ok c.clear

/-- An operation as a step of a run. What a call that faults leaves behind is not followed. -/
def step (fuel : Nat) (c : RunningContextCache) (operation : Operation) :
    Except Fault Unit × RunningContextCache :=
  match c.call fuel operation with
  | .ok c' => (.ok (), c')
  | .error fault => (.error fault, c)

end RunningContextCache

/-! ## Eviction -/

@[simp] theorem total_nil {α : Type} (size : α → Nat) : total size [] = 0 := rfl

@[simp] theorem total_cons {α : Type} (size : α → Nat) (x : α) (xs : List α) :
    total size (x :: xs) = size x + total size xs := rfl

@[simp] theorem total_append {α : Type} (size : α → Nat) (xs ys : List α) :
    total size (xs ++ ys) = total size xs + total size ys := by
  simp [total]

theorem sub_of_le {a b : Nat} (le : b ≤ a) : sub a b = .ok (a - b) := if_pos le

theorem sub_of_lt {a b : Nat} (lt : a < b) : sub a b = .error .underflow :=
  if_neg (Nat.not_le_of_lt lt)

/-- A loop that pops from a deque the cached size accounts for pops a front of it, and ends where
    it would not go on or nothing is left. -/
theorem popWhile_accounts {α : Type} (size : α → Nat) (goesOn : Nat → Nat → Bool) (others : Nat)
    (entries : List α) :
    ∃ kept, kept.length ≤ entries.length ∧
      popWhile size goesOn entries (others + total size entries) =
        .ok (kept, others + total size kept) ∧
      (kept = [] ∨ goesOn kept.length (others + total size kept) = false) := by
  induction entries with
  | nil => exact ⟨[], Nat.le_refl 0, rfl, .inl rfl⟩
  | cons old rest ih =>
      obtain ⟨kept, shorter, popped, ended⟩ := ih
      cases going : goesOn (rest.length + 1) (others + total size (old :: rest)) with
      | false =>
          refine ⟨old :: rest, Nat.le_refl _, ?_, .inr going⟩
          rw [popWhile, going]
          rfl
      | true =>
          refine ⟨kept, Nat.le_succ_of_le shorter, ?_, ended⟩
          have left : others + total size (old :: rest) - size old = others + total size rest := by
            rw [total_cons]
            omega
          rw [popWhile, going, if_pos rfl, sub_of_le (by rw [total_cons]; omega), left]
          exact popped

namespace RunningContextCache

/-! ## What is promised -/

/-- The cached size is the size of the contents, and all limits are kept. -/
structure Bounded (c : RunningContextCache) : Prop where
  exact : c.currentSize = c.recalculated
  fits : c.currentSize ≤ c.maxTotalBytes
  toolCalls : c.toolCalls.length ≤ c.maxEntries
  fileChanges : c.fileChanges.length ≤ c.maxEntries
  keyOutputs : c.keyOutputs.length ≤ c.maxEntries

/-- One entry of a size can be kept beside contents of a size that the eviction for it leaves
    alone. -/
def RoomFor (c : RunningContextCache) (others entrySize : Nat) : Prop :=
  1 ≤ c.maxEntries ∧ others + entrySize ≤ c.maxTotalBytes

/-- The texts and the sizes with which an operation keeps the promise. -/
def Takes (c : RunningContextCache) : Operation → Prop
  | .addToolCall record =>
      c.maxTotalBytes < estimateToolCallSize record ∨
        c.RoomFor (c.recalculated - total estimateToolCallSize c.toolCalls)
          (estimateToolCallSize record)
  | .addFileChange record =>
      if c.maxTotalBytes < estimateFileChangeSize record then
        c.maxTotalBytes < estimateFileChangeSize (truncated record) ∨
          (c.fileChanges.length < c.maxEntries ∧
            c.recalculated + estimateFileChangeSize (truncated record) ≤ c.maxTotalBytes)
      else c.RoomFor (c.recalculated - total estimateFileChangeSize c.fileChanges)
        (estimateFileChangeSize record)
  | .addKeyOutput output =>
      if c.maxTotalBytes < output.utf8ByteSize then
        10 ≤ c.maxTotalBytes ∧ c.keyOutputs.length < c.maxEntries ∧ c.recalculated = 0 ∧
          (takeChars (c.maxTotalBytes - 10) output).utf8ByteSize ≤ c.maxTotalBytes
      else c.RoomFor (c.recalculated - total String.utf8ByteSize c.keyOutputs) output.utf8ByteSize
  | .updateThinkingSummary summary =>
      c.recalculated - textSize c.thinkingSummary + (c.cutSummary summary).utf8ByteSize ≤
        c.maxTotalBytes
  | .compress | .clear => True

/-- Popping until an entry fits keeps the limits with it exactly when there is room for it. -/
theorem popped_fits {α : Type} (c : RunningContextCache) (size : α → Nat) (entrySize others : Nat)
    (entries : List α) :
    ∃ kept, popWhile size (c.full entrySize) entries (others + total size entries) =
        .ok (kept, others + total size kept) ∧
      (kept.length + 1 ≤ c.maxEntries ∧
        others + total size kept + entrySize ≤ c.maxTotalBytes ↔ c.RoomFor others entrySize) := by
  obtain ⟨kept, -, popped, ended⟩ := popWhile_accounts size (c.full entrySize) others entries
  refine ⟨kept, popped, ?_⟩
  constructor
  · rintro ⟨fewer, fits⟩
    exact ⟨by omega, by omega⟩
  · rintro ⟨some_entries, room⟩
    rcases ended with rfl | ended
    · exact ⟨some_entries, room⟩
    · simp only [full, Bool.or_eq_false_iff, decide_eq_false_iff_not] at ended
      omega

/-- An entry that is pushed where older ones made room: the promise is kept exactly when there is
    room beside everything else. -/
theorem evict_bounded {α : Type} {c : RunningContextCache} (size : α → Nat) (record : α) (others : Nat)
    {entries : List α} (sized : c.currentSize = others + total size entries)
    (put : List α → Nat → RunningContextCache)
    (put_bounded : ∀ kept, (put (kept ++ [record]) (others + total size kept + size record)).Bounded ↔
      kept.length + 1 ≤ c.maxEntries ∧ others + total size kept + size record ≤ c.maxTotalBytes) :
    (∃ c', ((popWhile size (c.full (size record)) entries c.currentSize).map fun kept =>
        put (kept.1 ++ [record]) (kept.2 + size record)) = .ok c' ∧ c'.Bounded) ↔
      c.RoomFor others (size record) := by
  obtain ⟨kept, popped, room⟩ := popped_fits c size (size record) others entries
  rw [sized, popped, ← room, ← put_bounded]
  constructor
  · rintro ⟨c', made, bounded⟩
    cases made
    exact bounded
  · exact fun bounded => ⟨_, rfl, bounded⟩

theorem addToolCall_bounded {c : RunningContextCache} (bounded : c.Bounded)
    (record : ToolCallRecord) :
    (∃ c', c.addToolCall record = .ok c' ∧ c'.Bounded) ↔ c.Takes (.addToolCall record) := by
  have size_split : c.currentSize = c.recalculated - total estimateToolCallSize c.toolCalls +
      total estimateToolCallSize c.toolCalls := by
    rw [bounded.exact, recalculated]
    omega
  unfold addToolCall Takes
  by_cases oversize : c.maxTotalBytes < estimateToolCallSize record
  · rw [if_pos oversize]
    exact ⟨fun _ => .inl oversize, fun _ => ⟨c, rfl, bounded⟩⟩
  · simp only [if_neg oversize, or_iff_right oversize]
    refine evict_bounded estimateToolCallSize record _ size_split
      (fun toolCalls currentSize => { c with toolCalls, currentSize }) fun kept => ?_
    constructor
    · exact fun bounded' => ⟨by simpa using bounded'.toolCalls, bounded'.fits⟩
    · intro ⟨fewer, fit⟩
      refine ⟨?_, fit, by simpa using fewer, bounded.fileChanges, bounded.keyOutputs⟩
      simp only [recalculated, total_append, total_cons, total_nil]
      omega

theorem addFileChange_bounded {c : RunningContextCache} (bounded : c.Bounded)
    (record : FileChangeRecord) :
    (∃ c', c.addFileChange record = .ok c' ∧ c'.Bounded) ↔ c.Takes (.addFileChange record) := by
  have size_split : c.currentSize = c.recalculated - total estimateFileChangeSize c.fileChanges +
      total estimateFileChangeSize c.fileChanges := by
    rw [bounded.exact, recalculated]
    omega
  unfold addFileChange Takes
  by_cases oversize : c.maxTotalBytes < estimateFileChangeSize record
  · simp only [if_pos oversize]
    by_cases hopeless : c.maxTotalBytes < estimateFileChangeSize (truncated record)
    · rw [if_pos hopeless]
      exact ⟨fun _ => .inl hopeless, fun _ => ⟨c, rfl, bounded⟩⟩
    · rw [if_neg hopeless]
      constructor
      · rintro ⟨c', made, bounded'⟩
        cases made
        have fewer := bounded'.fileChanges
        rw [List.length_append] at fewer
        exact .inr ⟨fewer, bounded.exact ▸ bounded'.fits⟩
      · rintro (larger | ⟨fewer, fit⟩)
        · exact absurd larger hopeless
        · refine ⟨_, rfl, ?_, bounded.exact ▸ fit, bounded.toolCalls, ?_, bounded.keyOutputs⟩
          · simp only [bounded.exact, recalculated, total_append, total_cons, total_nil]
            omega
          · rw [List.length_append]
            exact fewer
  · simp only [if_neg oversize]
    refine evict_bounded estimateFileChangeSize record _ size_split
      (fun fileChanges currentSize => { c with fileChanges, currentSize }) fun kept => ?_
    constructor
    · exact fun bounded' => ⟨by simpa using bounded'.fileChanges, bounded'.fits⟩
    · intro ⟨fewer, fit⟩
      refine ⟨?_, fit, bounded.toolCalls, by simpa using fewer, bounded.keyOutputs⟩
      simp only [recalculated, total_append, total_cons, total_nil]
      omega

theorem addKeyOutput_bounded {c : RunningContextCache} (bounded : c.Bounded) (output : String) :
    (∃ c', c.addKeyOutput output = .ok c' ∧ c'.Bounded) ↔ c.Takes (.addKeyOutput output) := by
  have size_split : c.currentSize = c.recalculated - total String.utf8ByteSize c.keyOutputs +
      total String.utf8ByteSize c.keyOutputs := by
    rw [bounded.exact, recalculated]
    omega
  unfold addKeyOutput Takes
  by_cases oversize : c.maxTotalBytes < output.utf8ByteSize
  · simp only [if_pos oversize]
    by_cases enough : 10 ≤ c.maxTotalBytes
    · rw [sub_of_le enough]
      constructor
      · rintro ⟨c', made, bounded'⟩
        cases made
        have fewer := bounded'.keyOutputs
        have exact_size := bounded'.exact
        simp only [recalculated, total_append, total_cons, total_nil] at exact_size
        rw [List.length_append] at fewer
        refine ⟨enough, fewer, ?_, bounded'.fits⟩
        rw [recalculated]
        omega
      · rintro ⟨-, fewer, empty, fit⟩
        refine ⟨_, rfl, ?_, fit, bounded.toolCalls, bounded.fileChanges, ?_⟩
        · rw [recalculated] at empty
          simp only [recalculated, total_append, total_cons, total_nil]
          omega
        · rw [List.length_append]
          exact fewer
    · rw [sub_of_lt (Nat.lt_of_not_le enough)]
      constructor
      · rintro ⟨c', made, -⟩
        cases made
      · rintro ⟨enough', -⟩
        exact absurd enough' enough
  · simp only [if_neg oversize]
    refine evict_bounded String.utf8ByteSize output _ size_split
      (fun keyOutputs currentSize => { c with keyOutputs, currentSize }) fun kept => ?_
    constructor
    · exact fun bounded' => ⟨by simpa using bounded'.keyOutputs, bounded'.fits⟩
    · intro ⟨fewer, fit⟩
      refine ⟨?_, fit, bounded.toolCalls, bounded.fileChanges, by simpa using fewer⟩
      simp only [recalculated, total_append, total_cons, total_nil]
      omega

theorem updateThinkingSummary_bounded {c : RunningContextCache} (bounded : c.Bounded)
    (summary : String) :
    (∃ c', c.updateThinkingSummary summary = .ok c' ∧ c'.Bounded) ↔
      c.Takes (.updateThinkingSummary summary) := by
  have old_size : textSize c.thinkingSummary ≤ c.currentSize := by
    rw [bounded.exact, recalculated]
    omega
  unfold updateThinkingSummary Takes
  rw [sub_of_le old_size, ← bounded.exact]
  constructor
  · rintro ⟨c', made, bounded'⟩
    cases made
    exact bounded'.fits
  · intro fit
    refine ⟨_, rfl, ?_, fit, bounded.toolCalls, bounded.fileChanges, bounded.keyOutputs⟩
    have new_size : textSize (some (c.cutSummary summary)) =
        (c.cutSummary summary).utf8ByteSize := rfl
    simp only [bounded.exact, recalculated, new_size]
    omega

/-- A cache within its limits is left as it is. -/
theorem compress_bounded {c : RunningContextCache} (fits : c.currentSize ≤ c.maxTotalBytes)
    (fuel : Nat) : c.compress fuel = .ok c := by
  unfold compress
  exact if_neg (Nat.not_lt_of_le fits)

theorem clear_bounded (c : RunningContextCache) : c.clear.Bounded :=
  ⟨rfl, Nat.zero_le _, Nat.zero_le _, Nat.zero_le _, Nat.zero_le _⟩

/-- A call on a cache that keeps its promise goes on doing so exactly when it takes the
    operation. -/
theorem call_bounded {c : RunningContextCache} (bounded : c.Bounded) (fuel : Nat)
    (operation : Operation) :
    (∃ c', c.call fuel operation = .ok c' ∧ c'.Bounded) ↔ c.Takes operation := by
  cases operation with
  | addToolCall record => exact addToolCall_bounded bounded record
  | addFileChange record => exact addFileChange_bounded bounded record
  | addKeyOutput output => exact addKeyOutput_bounded bounded output
  | updateThinkingSummary summary => exact updateThinkingSummary_bounded bounded summary
  | compress => exact ⟨fun _ => trivial, fun _ => ⟨c, compress_bounded bounded.fits fuel, bounded⟩⟩
  | clear => exact ⟨fun _ => trivial, fun _ => ⟨c.clear, rfl, clear_bounded c⟩⟩

/-- A step of a run that ends well and keeps the promise. -/
def KeepsPromise (x : Machine.Step RunningContextCache Operation (Except Fault Unit)) : Prop :=
  x.output = .ok () ∧ x.after.Bounded

theorem step_keeps_iff {c : RunningContextCache} (bounded : c.Bounded) (fuel : Nat)
    (operation : Operation) :
    KeepsPromise ⟨c, operation, (c.step fuel operation).1, (c.step fuel operation).2⟩ ↔
      c.Takes operation := by
  rw [← call_bounded bounded fuel operation]
  unfold KeepsPromise step
  cases c.call fuel operation with
  | ok c' => simp
  | error fault => simp

theorem create_bounded (maxEntries maxBytes : Nat) :
    ((create maxEntries).withMaxBytes maxBytes).Bounded :=
  ⟨rfl, Nat.zero_le _, Nat.zero_le _, Nat.zero_le _, Nat.zero_le _⟩

/-- In every run of a new cache, all calls end well and keep the cached size and the limits
    exactly when every operation finds a cache that takes it. -/
theorem run_keeps_promise_iff (maxEntries maxBytes fuel : Nat) (operations : List Operation) :
    (∀ x ∈ Machine.history (step fuel) ((create maxEntries).withMaxBytes maxBytes) operations,
        KeepsPromise x) ↔
      ∀ x ∈ Machine.history (step fuel) ((create maxEntries).withMaxBytes maxBytes) operations,
        x.before.Takes x.event :=
  Machine.history_exact (fun _ operation bounded => step_keeps_iff bounded fuel operation)
    (fun _ _ _ keeps => keeps.2) (create_bounded maxEntries maxBytes)

/-- An output over the limit sets the cached size to its own alone, and the next tool call for
    which another has to go subtracts more than that. -/
theorem oversized_output_loses_size : ¬ ∀ (maxEntries maxBytes fuel : Nat)
    (operations : List Operation),
    ∀ x ∈ Machine.history (step fuel) ((create maxEntries).withMaxBytes maxBytes) operations,
      KeepsPromise x := by
  intro all
  have keeps := all 1 60 0 [.addToolCall { name := "Bash" },
    .addKeyOutput (String.ofList (List.replicate 61 'x')), .addToolCall { name := "Read" }]
  have fails : (Machine.history (step 0) ((create 1).withMaxBytes 60)
      [.addToolCall { name := "Bash" }, .addKeyOutput (String.ofList (List.replicate 61 'x')),
        .addToolCall { name := "Read" }]).all (fun x => x.output == .ok ()) = false := by
    decide +kernel
  rw [List.all_eq_false] at fails
  obtain ⟨x, member, failed⟩ := fails
  exact failed (by rw [(keeps x member).1]; rfl)

end RunningContextCache

end AgileAgent.Decision
