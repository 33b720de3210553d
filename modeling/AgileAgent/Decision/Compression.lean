import AgileAgent.ByteCuts
import AgileAgent.Decision.RunningContext

/-! # Compressing the running context

A round of `compress` drops old tool calls, shortens the thinking, drops diffs and drops old outputs,
each down to a floor of its own. What one round leaves over the limit no further round reduces, so the
loop ends exactly when the reductions, taken off in their order, bring the cached size to the limit.
-/

namespace AgileAgent.Decision

/-! ## Taking off reductions -/

/-- Take reductions off a size as long as it is over the limit. -/
def takeOff (limit : Nat) : List Nat → Nat → Except Fault Nat
  | [], size => .ok size
  | reduction :: rest, size =>
      if limit < size then (sub size reduction).bind (takeOff limit rest) else .ok size

/-- Some front of the reductions brings the size to the limit without going below zero. -/
def Reducible (limit size : Nat) (reductions : List Nat) : Prop :=
  ∃ front, front <+: reductions ∧ front.sum ≤ size ∧ size ≤ limit + front.sum

theorem takeOff_within {limit size : Nat} (fits : size ≤ limit) (reductions : List Nat) :
    takeOff limit reductions size = .ok size := by
  cases reductions with
  | nil => rfl
  | cons reduction rest => exact if_neg (Nat.not_lt_of_le fits)

theorem takeOff_append (limit : Nat) (first second : List Nat) (size : Nat) :
    takeOff limit (first ++ second) size = (takeOff limit first size).bind (takeOff limit second) := by
  induction first generalizing size with
  | nil => rfl
  | cons reduction rest ih =>
      simp only [List.cons_append, takeOff]
      split
      · cases sub size reduction with
        | ok left => exact ih left
        | error fault => rfl
      · next fits => exact (takeOff_within (Nat.le_of_not_lt fits) second).symm

theorem Reducible.within {limit size : Nat} (fits : size ≤ limit) (reductions : List Nat) :
    Reducible limit size reductions :=
  ⟨[], List.nil_prefix, Nat.zero_le _, fits⟩

theorem reducible_cons {limit size : Nat} (exceeds : limit < size) (reduction : Nat)
    (rest : List Nat) :
    Reducible limit size (reduction :: rest) ↔
      reduction ≤ size ∧ Reducible limit (size - reduction) rest := by
  constructor
  · intro reducible
    obtain ⟨front, isPrefix, low, high⟩ := reducible
    cases front with
    | nil =>
        rw [List.sum_nil] at high
        omega
    | cons first front =>
        obtain ⟨rfl, inner⟩ := List.cons_prefix_cons.mp isPrefix
        rw [List.sum_cons] at low high
        exact ⟨by omega, front, inner, by omega, by omega⟩
  · intro reducible
    obtain ⟨fits, front, isPrefix, low, high⟩ := reducible
    have sums : (reduction :: front).sum = reduction + front.sum := List.sum_cons
    exact ⟨reduction :: front, List.cons_prefix_cons.mpr ⟨rfl, isPrefix⟩, by omega, by omega⟩

theorem takeOff_fits_iff (limit : Nat) (reductions : List Nat) (size : Nat) :
    (∃ left, takeOff limit reductions size = .ok left ∧ left ≤ limit) ↔
      Reducible limit size reductions := by
  induction reductions generalizing size with
  | nil =>
      constructor
      · intro fits
        obtain ⟨left, taken, fits⟩ := fits
        cases taken
        exact .within fits []
      · intro reducible
        obtain ⟨front, isPrefix, -, high⟩ := reducible
        obtain rfl := List.prefix_nil.mp isPrefix
        exact ⟨size, rfl, high⟩
  | cons reduction rest ih =>
      by_cases exceeds : limit < size
      · rw [reducible_cons exceeds, takeOff, if_pos exceeds, ← ih]
        by_cases low : reduction ≤ size
        · rw [sub_of_le low]
          exact ⟨fun fits => ⟨low, fits⟩, fun fits => fits.2⟩
        · rw [sub_of_lt (Nat.lt_of_not_le low)]
          constructor
          · intro fits
            obtain ⟨left, taken, -⟩ := fits
            cases taken
          · intro fits
            exact absurd fits.1 low
      · have fits := Nat.le_of_not_lt exceeds
        rw [takeOff_within fits]
        exact ⟨fun _ => .within fits _, fun _ => ⟨size, rfl, fits⟩⟩

/-- Where all reductions are parts of the size, they reduce it to the limit when all of them
    together do. -/
theorem reducible_of_parts {limit size : Nat} {reductions : List Nat} (parts : reductions.sum ≤ size) :
    Reducible limit size reductions ↔ size ≤ limit + reductions.sum := by
  constructor
  · intro reducible
    obtain ⟨front, ⟨back, rfl⟩, -, high⟩ := reducible
    rw [List.sum_append]
    omega
  · intro high
    exact ⟨reductions, List.prefix_refl _, parts, high⟩

/-- All reductions were taken off, or what is left fits. -/
theorem takeOff_ends {limit size left : Nat} {reductions : List Nat}
    (taken : takeOff limit reductions size = .ok left) :
    left ≤ limit ∨ left + reductions.sum = size := by
  induction reductions generalizing size with
  | nil =>
      cases taken
      exact .inr rfl
  | cons reduction rest ih =>
      by_cases exceeds : limit < size
      · rw [takeOff, if_pos exceeds] at taken
        by_cases low : reduction ≤ size
        · rw [sub_of_le low] at taken
          rcases ih taken with fits | all
          · exact .inl fits
          · rw [List.sum_cons]
            exact .inr (by omega)
        · rw [sub_of_lt (Nat.lt_of_not_le low)] at taken
          cases taken
      · rw [takeOff_within (Nat.le_of_not_lt exceeds)] at taken
        cases taken
        exact .inl (Nat.le_of_not_lt exceeds)

/-- Where all of them are not enough, all are taken off. -/
theorem takeOff_all {limit size : Nat} {reductions : List Nat} (large : limit + reductions.sum < size) :
    takeOff limit reductions size = .ok (size - reductions.sum) := by
  induction reductions generalizing size with
  | nil => rfl
  | cons reduction rest ih =>
      rw [List.sum_cons] at large ⊢
      rw [takeOff, if_pos (by omega), sub_of_le (by omega)]
      refine (ih (by omega)).trans ?_
      rw [Nat.sub_sub]

/-! ## Dropping old entries -/

/-- The loops of `compress` go on over the limit, down to a number of entries. -/
def overLimit (floor limit length size : Nat) : Bool := decide (floor < length) && decide (limit < size)

/-- The entries that may go. -/
def oldest {α : Type} (floor : Nat) (entries : List α) : List α :=
  entries.take (entries.length - floor)

/-- The entries that stay. -/
def newest {α : Type} (floor : Nat) (entries : List α) : List α :=
  entries.drop (entries.length - floor)

theorem oldest_cons {α : Type} {floor : Nat} {rest : List α} (more : floor ≤ rest.length) (old : α) :
    oldest floor (old :: rest) = old :: oldest floor rest := by
  have count : rest.length + 1 - floor = rest.length - floor + 1 := by omega
  rw [oldest, List.length_cons, count, List.take_succ_cons]
  rfl

theorem oldest_short {α : Type} {floor : Nat} {entries : List α} (short : entries.length ≤ floor) :
    oldest floor entries = [] := by
  rw [oldest, Nat.sub_eq_zero_of_le short, List.take_zero]

theorem total_split {α : Type} (size : α → Nat) (floor : Nat) (entries : List α) :
    total size entries = total size (oldest floor entries) + total size (newest floor entries) := by
  rw [← total_append, oldest, newest, List.take_append_drop]

/-- What is kept of some entries, dropped while a cache of a size was over its limit: the newest, not
    fewer than a number, and no longer run of them would have fitted. -/
structure KeepsRecent {α : Type} (size : α → Nat) (floor limit before : Nat)
    (entries kept : List α) : Prop where
  recent : kept <:+ entries
  enough : min floor entries.length ≤ kept.length
  needed : ∀ longer, longer <:+ entries → kept.length < longer.length →
    limit + total size entries < before + total size longer

theorem KeepsRecent.all {α : Type} (size : α → Nat) (floor limit before : Nat) (entries : List α) :
    KeepsRecent size floor limit before entries entries where
  recent := List.suffix_refl _
  enough := Nat.min_le_right _ _
  needed _ inner more := absurd inner.length_le (Nat.not_le_of_lt more)

/-- The size after dropping is that of taking off the sizes of the old entries. -/
theorem popWhile_size {α : Type} (size : α → Nat) (floor limit : Nat) (entries : List α)
    (before : Nat) :
    (popWhile size (overLimit floor limit) entries before).map (·.2) =
      takeOff limit ((oldest floor entries).map size) before := by
  induction entries generalizing before with
  | nil => simp [popWhile, oldest, takeOff, Except.map]
  | cons old rest ih =>
      rw [popWhile]
      by_cases more : floor ≤ rest.length
      · rw [oldest_cons more, List.map_cons, takeOff]
        by_cases exceeds : limit < before
        · have going : overLimit floor limit (rest.length + 1) before = true := by
            simp only [overLimit, Bool.and_eq_true, decide_eq_true_eq]
            omega
          rw [if_pos going, if_pos exceeds]
          cases sub before (size old) with
          | ok left => exact ih left
          | error fault => rfl
        · have ended : overLimit floor limit (rest.length + 1) before = false := by
            simp [overLimit, exceeds]
          rw [ended, if_neg exceeds]
          rfl
      · have short : (old :: rest).length ≤ floor := by
          rw [List.length_cons]
          omega
        have ended : overLimit floor limit (rest.length + 1) before = false := by
          simp only [overLimit, Bool.and_eq_false_iff, decide_eq_false_iff_not]
          omega
        rw [oldest_short short, ended]
        rfl

theorem popWhile_keeps {α : Type} {size : α → Nat} {floor limit : Nat} {entries kept : List α}
    {before after : Nat}
    (popped : popWhile size (overLimit floor limit) entries before = .ok (kept, after)) :
    KeepsRecent size floor limit before entries kept ∧
      before + total size kept = after + total size entries ∧
      (after ≤ limit ∨ kept.length ≤ floor) := by
  induction entries generalizing before with
  | nil =>
      cases popped
      exact ⟨.all size floor limit _ [], rfl, .inr (Nat.zero_le _)⟩
  | cons old rest ih =>
      rw [popWhile] at popped
      cases going : overLimit floor limit (rest.length + 1) before with
      | false =>
          rw [going] at popped
          simp only [overLimit, Bool.and_eq_false_iff, decide_eq_false_iff_not] at going
          cases popped
          have ended : after ≤ limit ∨ (old :: rest).length ≤ floor := by
            rw [List.length_cons]
            omega
          exact ⟨.all size floor limit _ _, rfl, ended⟩
      | true =>
          rw [going, if_pos rfl] at popped
          simp only [overLimit, Bool.and_eq_true, decide_eq_true_eq] at going
          by_cases low : size old ≤ before
          · rw [sub_of_le low] at popped
            obtain ⟨keeps, sizes, ended⟩ := ih popped
            have enough := keeps.enough
            refine ⟨⟨keeps.recent.trans (List.suffix_cons old rest), by grind, ?_⟩, ?_, ended⟩
            · intro longer isSuffix more
              rw [total_cons]
              rcases List.suffix_cons_iff.mp isSuffix with rfl | inner
              · rw [total_cons]
                omega
              · have := keeps.needed longer inner more
                omega
            · rw [total_cons]
              omega
          · rw [sub_of_lt (Nat.lt_of_not_le low)] at popped
            cases popped

namespace RunningContextCache

/-! ## One round -/

def isWithinLimits (c : RunningContextCache) : Bool := decide (c.currentSize ≤ c.maxTotalBytes)

/-- What the loop over old tool calls leaves. -/
def dropCalls (c : RunningContextCache) : Except Fault RunningContextCache :=
  (popWhile estimateToolCallSize (overLimit 10 c.maxTotalBytes) c.toolCalls c.currentSize).map
    fun kept => { c with toolCalls := kept.1, currentSize := kept.2 }

/-- What the loop over old key outputs leaves. -/
def dropOutputs (c : RunningContextCache) : Except Fault RunningContextCache :=
  (popWhile String.utf8ByteSize (overLimit 5 c.maxTotalBytes) c.keyOutputs c.currentSize).map
    fun kept => { c with keyOutputs := kept.1, currentSize := kept.2 }

theorem compressRound_eq (c : RunningContextCache) :
    c.compressRound =
      c.dropCalls.bind fun c => (dropDiffs (compressThinking c)).bind dropOutputs := by
  unfold compressRound dropCalls
  change (popWhile estimateToolCallSize (overLimit 10 c.maxTotalBytes) c.toolCalls c.currentSize).bind
    _ = _
  cases popWhile estimateToolCallSize (overLimit 10 c.maxTotalBytes) c.toolCalls c.currentSize with
  | error fault => rfl
  | ok calls =>
      simp only [Except.bind, Except.map]
      cases dropDiffs (compressThinking { c with toolCalls := calls.1, currentSize := calls.2 }) with
      | error fault => rfl
      | ok reduced =>
          simp only [bind, Except.bind, dropOutputs]
          change (popWhile String.utf8ByteSize (overLimit 5 reduced.maxTotalBytes) reduced.keyOutputs
            reduced.currentSize).bind _ = _
          cases popWhile String.utf8ByteSize (overLimit 5 reduced.maxTotalBytes) reduced.keyOutputs
            reduced.currentSize with
          | error fault => rfl
          | ok outputs => rfl

/-- The bytes of all diffs. -/
def diffSize (c : RunningContextCache) : Nat :=
  total (fun record => textSize record.diffPreview) c.fileChanges

def undiffed (record : FileChangeRecord) : FileChangeRecord := { record with diffPreview := none }

/-- The thinking that `compress` keeps. -/
def shortened (thinking : Option String) : Option String :=
  thinking.map fun text => skipChars (text.utf8ByteSize - 100) text

/-- The contents when every reduction has been made. -/
def smallest (c : RunningContextCache) : RunningContextCache :=
  { c with
    toolCalls := newest 10 c.toolCalls
    fileChanges := c.fileChanges.map undiffed
    thinkingSummary := shortened c.thinkingSummary
    keyOutputs := newest 5 c.keyOutputs }

def callReductions (c : RunningContextCache) : List Nat :=
  (oldest 10 c.toolCalls).map estimateToolCallSize

/-- What can be taken off after the thinking has been seen to. -/
def laterReductions (c : RunningContextCache) : List Nat :=
  c.diffSize :: (oldest 5 c.keyOutputs).map String.utf8ByteSize

theorem compressThinking_eq (c : RunningContextCache) :
    c.compressThinking =
      if c.maxTotalBytes < c.currentSize ∧ 100 < textSize c.thinkingSummary then
        recalculateSize { c with thinkingSummary := shortened c.thinkingSummary }
      else c := by
  unfold compressThinking
  cases thinks : c.thinkingSummary with
  | none => simp [textSize]
  | some thinking => rfl

/-- Thinking is short after it has been shortened. -/
theorem shortened_size (thinking : Option String) : textSize (shortened thinking) ≤ 100 := by
  cases thinking with
  | none => exact Nat.zero_le 100
  | some text =>
      have parts : String.utf8Len (text.toList.take (text.utf8ByteSize - 100)) +
          String.utf8Len (text.toList.drop (text.utf8ByteSize - 100)) = text.utf8ByteSize := by
        rw [← String.utf8Len_append, List.take_append_drop, ByteCuts.utf8ByteSize_eq]
      have front := ByteCuts.length_le_utf8Len (text.toList.take (text.utf8ByteSize - 100))
      have kept : textSize (shortened (some text)) =
          String.utf8Len (text.toList.drop (text.utf8ByteSize - 100)) :=
        String.utf8ByteSize_ofList _
      rw [List.length_take] at front
      rw [kept]
      by_cases enough : text.utf8ByteSize - 100 ≤ text.toList.length
      · omega
      · rw [List.drop_eq_nil_of_le (by omega)]
        exact Nat.zero_le 100

theorem subtract_all {α : Type} (size : α → Nat) (entries : List α) (before : Nat) :
    entries.foldlM (fun left entry => sub left (size entry)) before = sub before (total size entries) := by
  induction entries generalizing before with
  | nil => rfl
  | cons entry rest ih =>
      rw [List.foldlM_cons, total_cons]
      by_cases low : size entry ≤ before
      · rw [sub_of_le low]
        refine (ih (before - size entry)).trans ?_
        by_cases more : total size rest ≤ before - size entry
        · rw [sub_of_le more, sub_of_le (by omega), Nat.sub_sub]
        · rw [sub_of_lt (by omega), sub_of_lt (by omega)]
      · rw [sub_of_lt (by omega), sub_of_lt (by omega)]
        rfl

theorem dropCalls_size (c : RunningContextCache) :
    c.dropCalls.map (·.currentSize) = takeOff c.maxTotalBytes c.callReductions c.currentSize := by
  rw [callReductions, ← popWhile_size, dropCalls]
  cases popWhile estimateToolCallSize (overLimit 10 c.maxTotalBytes) c.toolCalls c.currentSize with
  | error fault => rfl
  | ok kept => rfl

theorem dropOutputs_size (c : RunningContextCache) :
    c.dropOutputs.map (·.currentSize) =
      takeOff c.maxTotalBytes ((oldest 5 c.keyOutputs).map String.utf8ByteSize) c.currentSize := by
  rw [← popWhile_size, dropOutputs]
  cases popWhile String.utf8ByteSize (overLimit 5 c.maxTotalBytes) c.keyOutputs c.currentSize with
  | error fault => rfl
  | ok kept => rfl

/-- Dropping diffs over the limit; within it they stay. -/
theorem dropDiffs_eq (c : RunningContextCache) :
    c.dropDiffs =
      if c.maxTotalBytes < c.currentSize then
        (sub c.currentSize c.diffSize).map fun size =>
          { c with fileChanges := c.fileChanges.map undiffed, currentSize := size }
      else .ok c := by
  unfold dropDiffs
  rw [subtract_all (fun record : FileChangeRecord => textSize record.diffPreview)]
  rfl

/-- The size after diffs and outputs is that of taking off what can still be taken off. -/
theorem later_size (c : RunningContextCache) :
    (c.dropDiffs.bind dropOutputs).map (·.currentSize) =
      takeOff c.maxTotalBytes c.laterReductions c.currentSize := by
  rw [dropDiffs_eq, laterReductions, takeOff]
  by_cases exceeds : c.maxTotalBytes < c.currentSize
  · rw [if_pos exceeds, if_pos exceeds]
    cases sub c.currentSize c.diffSize with
    | error fault => rfl
    | ok size =>
        exact dropOutputs_size
          { c with fileChanges := c.fileChanges.map undiffed, currentSize := size }
  · rw [if_neg exceeds, if_neg exceeds]
    exact (dropOutputs_size c).trans (takeOff_within (Nat.le_of_not_lt exceeds) _)

/-! ## When a round is enough -/

/-- The tool calls are dropped as far as it takes; where that is not enough, the rest of what can go
    brings the size to the limit. Shortened thinking makes the size that of the contents again. -/
def Compressible (c : RunningContextCache) : Prop :=
  Reducible c.maxTotalBytes c.currentSize c.callReductions ∨
    if 100 < textSize c.thinkingSummary then
      c.maxTotalBytes + c.callReductions.sum < c.currentSize ∧ c.smallest.recalculated ≤ c.maxTotalBytes
    else Reducible c.maxTotalBytes c.currentSize (c.callReductions ++ c.laterReductions)

theorem undiffed_total (changes : List FileChangeRecord) :
    total estimateFileChangeSize changes =
      total (fun record => textSize record.diffPreview) changes +
        total estimateFileChangeSize (changes.map undiffed) := by
  induction changes with
  | nil => rfl
  | cons record rest ih =>
      have here : estimateFileChangeSize record =
          textSize record.diffPreview + estimateFileChangeSize (undiffed record) := by
        simp only [estimateFileChangeSize, undiffed, textSize, Option.map_none, Option.getD_none]
        omega
      rw [List.map_cons, total_cons, total_cons, total_cons]
      omega

theorem total_map {α : Type} (size : α → Nat) (entries : List α) :
    (entries.map size).sum = total size entries := rfl

/-- The contents without what can be taken off of them after the thinking. -/
theorem later_parts (c : RunningContextCache) :
    c.recalculated = c.laterReductions.sum + total estimateToolCallSize c.toolCalls +
      textSize c.thinkingSummary + total estimateFileChangeSize (c.fileChanges.map undiffed) +
        total String.utf8ByteSize (newest 5 c.keyOutputs) := by
  have outputs := total_split String.utf8ByteSize 5 c.keyOutputs
  have changes := undiffed_total c.fileChanges
  rw [recalculated, laterReductions, List.sum_cons, total_map, diffSize]
  omega

/-- What dropping tool calls leaves. -/
theorem dropCalls_ok {c c' : RunningContextCache} (dropped : c.dropCalls = .ok c') :
    c' = { c with toolCalls := c'.toolCalls, currentSize := c'.currentSize } ∧
      KeepsRecent estimateToolCallSize 10 c.maxTotalBytes c.currentSize c.toolCalls c'.toolCalls ∧
      c.currentSize + total estimateToolCallSize c'.toolCalls =
        c'.currentSize + total estimateToolCallSize c.toolCalls ∧
      (c'.currentSize ≤ c.maxTotalBytes ∨ c'.toolCalls.length ≤ 10) := by
  rw [dropCalls] at dropped
  cases popped : popWhile estimateToolCallSize (overLimit 10 c.maxTotalBytes) c.toolCalls c.currentSize with
  | error fault =>
      rw [popped] at dropped
      cases dropped
  | ok kept =>
      rw [popped] at dropped
      cases dropped
      exact ⟨rfl, popWhile_keeps popped⟩

theorem dropOutputs_ok {c c' : RunningContextCache} (dropped : c.dropOutputs = .ok c') :
    c' = { c with keyOutputs := c'.keyOutputs, currentSize := c'.currentSize } ∧
      KeepsRecent String.utf8ByteSize 5 c.maxTotalBytes c.currentSize c.keyOutputs c'.keyOutputs ∧
      c.currentSize + total String.utf8ByteSize c'.keyOutputs =
        c'.currentSize + total String.utf8ByteSize c.keyOutputs ∧
      (c'.currentSize ≤ c.maxTotalBytes ∨ c'.keyOutputs.length ≤ 5) := by
  rw [dropOutputs] at dropped
  cases popped : popWhile String.utf8ByteSize (overLimit 5 c.maxTotalBytes) c.keyOutputs c.currentSize with
  | error fault =>
      rw [popped] at dropped
      cases dropped
  | ok kept =>
      rw [popped] at dropped
      cases dropped
      exact ⟨rfl, popWhile_keeps popped⟩

/-- Fitting is a matter of the size a computation ends with. -/
theorem fits_iff_size {limit : Nat} {result : Except Fault RunningContextCache} :
    (∃ c', result = .ok c' ∧ c'.currentSize ≤ limit) ↔
      ∃ size, result.map (·.currentSize) = .ok size ∧ size ≤ limit := by
  cases result with
  | error fault => simp [Except.map]
  | ok c' => simp [Except.map]

/-- Without long thinking the sizes of a round are those of taking off one thing after the other. -/
theorem round_size {c : RunningContextCache} (short : textSize c.thinkingSummary ≤ 100) :
    c.compressRound.map (·.currentSize) =
      takeOff c.maxTotalBytes (c.callReductions ++ c.laterReductions) c.currentSize := by
  rw [compressRound_eq, takeOff_append, ← dropCalls_size]
  cases dropped : c.dropCalls with
  | error fault => rfl
  | ok c₁ =>
      obtain ⟨others, -⟩ := dropCalls_ok dropped
      have thinks : c₁.thinkingSummary = c.thinkingSummary := by rw [others]
      have thinking : c₁.compressThinking = c₁ := by
        rw [compressThinking_eq, thinks, if_neg (by omega)]
      have later : c₁.laterReductions = c.laterReductions := by rw [others]; rfl
      have limit : c₁.maxTotalBytes = c.maxTotalBytes := by rw [others]
      simp only [Except.bind, Except.map, thinking]
      exact (later_size c₁).trans (by rw [later, limit])

/-- With the size of the contents, what can be taken off is a part of it. -/
theorem recalculated_fits_iff (c : RunningContextCache) :
    (∃ c', c.recalculateSize.dropDiffs.bind dropOutputs = .ok c' ∧ c'.currentSize ≤ c.maxTotalBytes) ↔
      c.recalculated ≤ c.maxTotalBytes + c.laterReductions.sum := by
  have parts := later_parts c
  have taken := later_size c.recalculateSize
  rw [fits_iff_size, taken]
  exact (takeOff_fits_iff _ _ _).trans
    (reducible_of_parts (show c.laterReductions.sum ≤ c.recalculated by omega))

/-- With long thinking and the old calls gone, the round goes on with the size of the contents. -/
theorem rest_fits_iff {c c₁ : RunningContextCache} (long : 100 < textSize c.thinkingSummary)
    (dropped : c.dropCalls = .ok c₁) (exceeds : c.maxTotalBytes < c₁.currentSize)
    (all : c₁.currentSize + c.callReductions.sum = c.currentSize) :
    (∃ c', (dropDiffs (compressThinking c₁)).bind dropOutputs = .ok c' ∧
        c'.currentSize ≤ c.maxTotalBytes) ↔ c.smallest.recalculated ≤ c.maxTotalBytes := by
  obtain ⟨others, -, sizes, -⟩ := dropCalls_ok dropped
  have calls : total estimateToolCallSize c₁.toolCalls =
      total estimateToolCallSize (newest 10 c.toolCalls) := by
    have parts := total_split estimateToolCallSize 10 c.toolCalls
    rw [callReductions, total_map] at all
    omega
  have limit : c₁.maxTotalBytes = c.maxTotalBytes := by rw [others]
  have thinks : c₁.thinkingSummary = c.thinkingSummary := by rw [others]
  have changes : c₁.fileChanges = c.fileChanges := by rw [others]
  have outputs : c₁.keyOutputs = c.keyOutputs := by rw [others]
  have thinking : c₁.compressThinking =
      recalculateSize { c₁ with thinkingSummary := shortened c.thinkingSummary } := by
    rw [compressThinking_eq, limit, thinks, if_pos ⟨exceeds, long⟩]
  have parts := later_parts { c₁ with thinkingSummary := shortened c.thinkingSummary }
  have small : c.smallest.recalculated = total estimateToolCallSize c₁.toolCalls +
      textSize (shortened c.thinkingSummary) +
      total estimateFileChangeSize (c₁.fileChanges.map undiffed) +
      total String.utf8ByteSize (newest 5 c₁.keyOutputs) := by
    rw [calls, changes, outputs]
    simp only [smallest, recalculated]
    omega
  have fits := recalculated_fits_iff { c₁ with thinkingSummary := shortened c.thinkingSummary }
  rw [thinking, ← limit]
  exact fits.trans (by simp only at parts ⊢; omega)

theorem round_fits_iff {c : RunningContextCache} :
    (∃ c', c.compressRound = .ok c' ∧ c'.currentSize ≤ c.maxTotalBytes) ↔ c.Compressible := by
  rw [Compressible]
  by_cases long : 100 < textSize c.thinkingSummary
  · have calls := c.dropCalls_size
    rw [if_pos long, compressRound_eq, ← takeOff_fits_iff, ← calls]
    cases dropped : c.dropCalls with
    | error fault =>
        rw [dropped] at calls
        have notLarge : ¬ c.maxTotalBytes + c.callReductions.sum < c.currentSize := by
          intro large
          rw [takeOff_all large] at calls
          cases calls
        simp [Except.map, Except.bind, notLarge]
    | ok c₁ =>
        rw [dropped] at calls
        by_cases exceeds : c.maxTotalBytes < c₁.currentSize
        · have all : c₁.currentSize + c.callReductions.sum = c.currentSize := by
            have ends : c₁.currentSize ≤ c.maxTotalBytes ∨ _ := takeOff_ends calls.symm
            exact ends.resolve_left (Nat.not_le_of_lt exceeds)
          have rest := rest_fits_iff long dropped exceeds all
          have large : c.maxTotalBytes + c.callReductions.sum < c.currentSize := by omega
          have above : ¬ c₁.currentSize ≤ c.maxTotalBytes := Nat.not_le_of_lt exceeds
          simp only [Except.map, Except.ok.injEq, exists_eq_left', above, false_or, large, true_and]
          exact rest
        · have limit : c₁.maxTotalBytes = c.maxTotalBytes := by rw [(dropCalls_ok dropped).1]
          have thinking : c₁.compressThinking = c₁ := by
            rw [compressThinking_eq, if_neg (by omega)]
          have ends : ∃ c', (dropDiffs (compressThinking c₁)).bind dropOutputs = .ok c' ∧
              c'.currentSize ≤ c.maxTotalBytes := by
            rw [fits_iff_size, thinking, later_size, takeOff_within (by omega)]
            exact ⟨c₁.currentSize, rfl, by omega⟩
          have fits : c₁.currentSize ≤ c.maxTotalBytes := Nat.le_of_not_lt exceeds
          exact ⟨fun _ => .inl ⟨c₁.currentSize, rfl, fits⟩, fun _ => ends⟩
  · have prefixed : Reducible c.maxTotalBytes c.currentSize c.callReductions →
        Reducible c.maxTotalBytes c.currentSize (c.callReductions ++ c.laterReductions) := by
      intro reducible
      obtain ⟨front, isPrefix, low, high⟩ := reducible
      exact ⟨front, isPrefix.trans (List.prefix_append _ _), low, high⟩
    rw [if_neg long, or_iff_right_of_imp prefixed, fits_iff_size, round_size (by omega),
      takeOff_fits_iff]

/-! ## Further rounds -/

/-- No reduction has anything left to reduce. -/
structure Floored (c : RunningContextCache) : Prop where
  toolCalls : c.toolCalls.length ≤ 10
  thinking : textSize c.thinkingSummary ≤ 100
  fileChanges : c.fileChanges.map undiffed = c.fileChanges
  keyOutputs : c.keyOutputs.length ≤ 5

theorem popWhile_short {α : Type} (size : α → Nat) {floor : Nat} (limit before : Nat)
    {entries : List α} (short : entries.length ≤ floor) :
    popWhile size (overLimit floor limit) entries before = .ok (entries, before) := by
  cases entries with
  | nil => rfl
  | cons old rest =>
      rw [List.length_cons] at short
      have ended : overLimit floor limit (rest.length + 1) before = false := by
        simp only [overLimit, Bool.and_eq_false_iff, decide_eq_false_iff_not]
        omega
      rw [popWhile, ended]
      rfl

theorem Floored.stays {c : RunningContextCache} (floored : c.Floored) : c.compressRound = .ok c := by
  have calls : c.dropCalls = .ok c := by
    rw [dropCalls, popWhile_short _ _ _ floored.toolCalls]
    rfl
  have thinking : c.compressThinking = c := by
    have short := floored.thinking
    rw [compressThinking_eq, if_neg (by omega)]
  have noDiffs : c.diffSize = 0 := by
    have parts := undiffed_total c.fileChanges
    rw [floored.fileChanges] at parts
    rw [diffSize]
    omega
  have diffs : c.dropDiffs = .ok c := by
    rw [dropDiffs_eq, noDiffs, sub_of_le (Nat.zero_le _), floored.fileChanges]
    split <;> rfl
  have outputs : c.dropOutputs = .ok c := by
    rw [dropOutputs, popWhile_short _ _ _ floored.keyOutputs]
    rfl
  rw [compressRound_eq, calls]
  change c.compressThinking.dropDiffs.bind dropOutputs = _
  rw [thinking, diffs]
  exact outputs

theorem compressRound_ok {c c' : RunningContextCache} (made : c.compressRound = .ok c') :
    ∃ c₁ c₂, c.dropCalls = .ok c₁ ∧ c₁.compressThinking.dropDiffs = .ok c₂ ∧
      c₂.dropOutputs = .ok c' := by
  rw [compressRound_eq] at made
  cases dropped : c.dropCalls with
  | error fault =>
      rw [dropped] at made
      cases made
  | ok c₁ =>
      rw [dropped] at made
      cases reduced : c₁.compressThinking.dropDiffs with
      | error fault =>
          simp [Except.bind, reduced] at made
      | ok c₂ =>
          simp only [Except.bind, reduced] at made
          exact ⟨c₁, c₂, rfl, reduced, made⟩

theorem compressThinking_others (c : RunningContextCache) :
    c.compressThinking = { c with
      thinkingSummary := c.compressThinking.thinkingSummary
      currentSize := c.compressThinking.currentSize } := by
  rw [compressThinking_eq]
  split <;> rfl

theorem dropDiffs_ok {c c' : RunningContextCache} (dropped : c.dropDiffs = .ok c') :
    c' = { c with fileChanges := c'.fileChanges, currentSize := c'.currentSize } ∧
      (c.maxTotalBytes < c'.currentSize →
        c.maxTotalBytes < c.currentSize ∧ c'.fileChanges = c.fileChanges.map undiffed) := by
  rw [dropDiffs_eq] at dropped
  by_cases exceeds : c.maxTotalBytes < c.currentSize
  · rw [if_pos exceeds] at dropped
    cases left : sub c.currentSize c.diffSize with
    | error fault =>
        rw [left] at dropped
        cases dropped
    | ok size =>
        rw [left] at dropped
        cases dropped
        exact ⟨rfl, fun _ => ⟨exceeds, rfl⟩⟩
  · rw [if_neg exceeds] at dropped
    cases dropped
    exact ⟨rfl, fun large => absurd large exceeds⟩

/-- What a round does: only the contents and the size change, recent calls and outputs are kept, and
    over the limit nothing is left to reduce. -/
theorem round_keeps {c c' : RunningContextCache} (made : c.compressRound = .ok c') :
    c'.maxTotalBytes = c.maxTotalBytes ∧
      KeepsRecent estimateToolCallSize 10 c.maxTotalBytes c.currentSize c.toolCalls c'.toolCalls ∧
      (∃ before, before + total String.utf8ByteSize c'.keyOutputs =
          c'.currentSize + total String.utf8ByteSize c.keyOutputs ∧
        KeepsRecent String.utf8ByteSize 5 c.maxTotalBytes before c.keyOutputs c'.keyOutputs) ∧
      (c.maxTotalBytes < c'.currentSize → c'.Floored) := by
  obtain ⟨c₁, c₂, calls, diffs, outputs⟩ := compressRound_ok made
  obtain ⟨others₁, keepsCalls, -, fewCalls⟩ := dropCalls_ok calls
  obtain ⟨others₂, undiffed₂⟩ := dropDiffs_ok diffs
  obtain ⟨others₃, keepsOutputs, sizes, fewOutputs⟩ := dropOutputs_ok outputs
  have limit₁ : c₁.maxTotalBytes = c.maxTotalBytes := by rw [others₁]
  have limitT : c₁.compressThinking.maxTotalBytes = c.maxTotalBytes := by
    rw [compressThinking_others, limit₁]
  have limit₂ : c₂.maxTotalBytes = c.maxTotalBytes := by rw [others₂, limitT]
  have limit₃ : c'.maxTotalBytes = c.maxTotalBytes := by rw [others₃, limit₂]
  have outputs₂ : c₂.keyOutputs = c.keyOutputs := by rw [others₂, compressThinking_others, others₁]
  have calls₃ : c'.toolCalls = c₁.toolCalls := by rw [others₃, others₂, compressThinking_others]
  rw [outputs₂] at keepsOutputs sizes
  rw [limit₂] at keepsOutputs fewOutputs
  rw [limitT] at undiffed₂
  refine ⟨limit₃, calls₃ ▸ keepsCalls, ⟨c₂.currentSize, sizes, keepsOutputs⟩, ?_⟩
  intro exceeds
  have exceeds₂ : c.maxTotalBytes < c₂.currentSize := by
    obtain ⟨front, parts⟩ := keepsOutputs.recent
    rw [← parts, total_append] at sizes
    omega
  obtain ⟨exceedsT, diffless⟩ := undiffed₂ exceeds₂
  have thinks : c'.thinkingSummary = c₁.compressThinking.thinkingSummary := by rw [others₃, others₂]
  have exceeds₁ : c.maxTotalBytes < c₁.currentSize := by
    by_contra fits
    rw [compressThinking_eq, if_neg (by omega)] at exceedsT
    exact fits exceedsT
  constructor
  · rw [calls₃]
    exact fewCalls.resolve_left (Nat.not_le_of_lt exceeds₁)
  · rw [thinks, compressThinking_eq, limit₁]
    by_cases long : 100 < textSize c₁.thinkingSummary
    · rw [if_pos ⟨exceeds₁, long⟩]
      exact shortened_size c₁.thinkingSummary
    · rw [if_neg (by omega)]
      exact Nat.le_of_not_lt long
  · have changes : c'.fileChanges = c₂.fileChanges := by rw [others₃]
    rw [changes, diffless, List.map_map]
    rfl
  · exact fewOutputs.resolve_left (Nat.not_le_of_lt exceeds)

/-- Over the limit with nothing left to reduce, the loop never ends. -/
theorem Floored.endless {c : RunningContextCache} (floored : c.Floored)
    (exceeds : c.maxTotalBytes < c.currentSize) (fuel : Nat) :
    c.compress fuel = .error .endless := by
  induction fuel with
  | zero => rw [compress, if_pos exceeds]
  | succ fuel ih =>
      rw [compress, if_pos exceeds, floored.stays]
      exact ih

/-- `compress` ends at once or after one round. -/
theorem compress_ok {c c' : RunningContextCache} {fuel : Nat} (ended : c.compress fuel = .ok c') :
    (c.currentSize ≤ c.maxTotalBytes ∧ c' = c) ∨
      (c.compressRound = .ok c' ∧ c'.currentSize ≤ c.maxTotalBytes) := by
  by_cases exceeds : c.maxTotalBytes < c.currentSize
  · cases fuel with
    | zero =>
        rw [compress, if_pos exceeds] at ended
        cases ended
    | succ fuel =>
        rw [compress, if_pos exceeds] at ended
        cases made : c.compressRound with
        | error fault =>
            rw [made] at ended
            cases ended
        | ok c₁ =>
            rw [made] at ended
            obtain ⟨limit, -, -, floored⟩ := round_keeps made
            by_cases more : c.maxTotalBytes < c₁.currentSize
            · have endless := (floored more).endless (limit ▸ more) fuel
              exact absurd (ended.symm.trans endless) (by simp)
            · have fits : c₁.currentSize ≤ c.maxTotalBytes := Nat.le_of_not_lt more
              have same := ended.symm.trans (compress_bounded (limit ▸ fits) fuel)
              cases same
              exact .inr ⟨rfl, fits⟩
  · have fits := Nat.le_of_not_lt exceeds
    cases (compress_bounded fits fuel).symm.trans ended
    exact .inl ⟨fits, rfl⟩

/-! ## What is promised of compressing -/

/-- The newest calls and outputs are kept, at least ten and five of them, and one was dropped only
    where it did not fit beside what there was. -/
structure Keeps (c c' : RunningContextCache) : Prop where
  toolCalls : KeepsRecent estimateToolCallSize 10 c.maxTotalBytes c.currentSize c.toolCalls c'.toolCalls
  keyOutputs : ∃ before, before + total String.utf8ByteSize c'.keyOutputs =
      c'.currentSize + total String.utf8ByteSize c.keyOutputs ∧
    KeepsRecent String.utf8ByteSize 5 c.maxTotalBytes before c.keyOutputs c'.keyOutputs

theorem Keeps.refl (c : RunningContextCache) : c.Keeps c :=
  ⟨.all _ _ _ _ _, c.currentSize, rfl, .all _ _ _ _ _⟩

/-- `compress` ends without a fault in a cache within its limits that keeps what is recent. -/
def Compresses (c : RunningContextCache) : Prop :=
  ∃ fuel c', c.compress fuel = .ok c' ∧ c'.isWithinLimits = true ∧ c.Keeps c'

theorem compresses_iff (c : RunningContextCache) : c.Compresses ↔ c.Compressible := by
  constructor
  · intro compresses
    obtain ⟨fuel, c', ended, -, -⟩ := compresses
    rcases compress_ok ended with ⟨fits, -⟩ | made
    · exact .inl (.within fits _)
    · exact round_fits_iff.mp ⟨c', made⟩
  · intro compressible
    by_cases exceeds : c.maxTotalBytes < c.currentSize
    · obtain ⟨c', made, fits⟩ := round_fits_iff.mpr compressible
      obtain ⟨limit, calls, outputs, -⟩ := round_keeps made
      have ended : c.compress 1 = .ok c' := by
        rw [compress, if_pos exceeds, made]
        exact compress_bounded (limit ▸ fits) 0
      exact ⟨1, c', ended, decide_eq_true (limit ▸ fits), calls, outputs⟩
    · have fits := Nat.le_of_not_lt exceeds
      exact ⟨0, c, compress_bounded fits 0, decide_eq_true fits, .refl c⟩

/-- Short thinking is kept as it is. -/
theorem shortened_short {thinking : Option String} (short : textSize thinking ≤ 100) :
    shortened thinking = thinking := by
  cases thinking with
  | none => rfl
  | some text =>
      have none_cut : text.utf8ByteSize - 100 = 0 := Nat.sub_eq_zero_of_le short
      simp [shortened, skipChars, none_cut]

theorem shortened_le (thinking : Option String) : textSize (shortened thinking) ≤ textSize thinking := by
  by_cases long : 100 < textSize thinking
  · have short := shortened_size thinking
    omega
  · rw [shortened_short (Nat.le_of_not_lt long)]

/-- With the size of the contents, `compress` does what it promises exactly when the contents fit with
    every reduction made. -/
theorem compressible_iff_smallest {c : RunningContextCache} (exact_size : c.currentSize = c.recalculated) :
    c.Compressible ↔ c.smallest.recalculated ≤ c.maxTotalBytes := by
  have parts := later_parts c
  have calls := total_split estimateToolCallSize 10 c.toolCalls
  have thinking := shortened_le c.thinkingSummary
  have old : c.callReductions.sum = total estimateToolCallSize (oldest 10 c.toolCalls) := rfl
  have small : c.smallest.recalculated = total estimateToolCallSize (newest 10 c.toolCalls) +
      total estimateFileChangeSize (c.fileChanges.map undiffed) +
      textSize (shortened c.thinkingSummary) + total String.utf8ByteSize (newest 5 c.keyOutputs) := rfl
  rw [Compressible, reducible_of_parts (by omega)]
  by_cases long : 100 < textSize c.thinkingSummary
  · rw [if_pos long]
    omega
  · have same : textSize (shortened c.thinkingSummary) = textSize c.thinkingSummary := by
      rw [shortened_short (Nat.le_of_not_lt long)]
    have all : (c.callReductions ++ c.laterReductions).sum =
        c.callReductions.sum + c.laterReductions.sum := List.sum_append
    rw [if_neg long, reducible_of_parts (by omega)]
    omega

/-- A call and a summary that were both let in are together over the limit, and neither may go: the
    loop goes on for ever. -/
theorem summary_beside_call_endless : ¬ ∀ c : RunningContextCache, c.Compresses := by
  intro all
  obtain ⟨fuel, c', ended, -⟩ := all { create 10 with
    toolCalls := [{ name := "Bash" }], thinkingSummary := some "Check the tests"
    maxTotalBytes := 60, currentSize := 69 }
  have floored : Floored { create 10 with
      toolCalls := [{ name := "Bash" }], thinkingSummary := some "Check the tests"
      maxTotalBytes := 60, currentSize := 69 } :=
    ⟨by decide, by decide, rfl, by decide⟩
  have endless := floored.endless (by decide) fuel
  exact absurd (ended.symm.trans endless) (by simp)

/-- The calls that lead there. -/
example : (((create 10).withMaxBytes 60).addToolCall { name := "Bash" }).bind
      (·.updateThinkingSummary "Check the tests") =
    .ok { create 10 with
      toolCalls := [{ name := "Bash" }], thinkingSummary := some "Check the tests"
      maxTotalBytes := 60, currentSize := 69 } := by
  decide +kernel

end RunningContextCache

end AgileAgent.Decision
