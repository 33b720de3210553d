import Mathlib.Data.List.AList
import Mathlib.Data.List.Induction
import Mathlib.Data.UInt

/-! # Decision metrics

Counters, counts by type and durations of the decisions an agent makes. Instances are merged, and an
instance without decisions has zero for its shortest duration, as one with a decision that took no time.
-/

namespace AgileAgent.Decision

/-! ## Checked arithmetic

Unsigned arithmetic of 64 bits, `none` where the result does not fit. -/

def checkedAdd (a b : UInt64) : Option UInt64 :=
  if a.toNat + b.toNat < 2 ^ 64 then some (a + b) else none

def checkedSub (a b : UInt64) : Option UInt64 := if b ≤ a then some (a - b) else none

def checkedMul (a b : UInt64) : Option UInt64 :=
  if a.toNat * b.toNat < 2 ^ 64 then some (a * b) else none

theorem checkedAdd_eq_some_iff {a b c : UInt64} :
    checkedAdd a b = some c ↔ c.toNat = a.toNat + b.toNat := by
  have bound := c.toNat_lt
  rw [checkedAdd, Option.ite_none_right_eq_some, Option.some_inj, ← UInt64.toNat_inj, UInt64.toNat_add]
  omega

theorem checkedSub_eq_some_iff {a b c : UInt64} :
    checkedSub a b = some c ↔ a.toNat = b.toNat + c.toNat := by
  have bound := a.toNat_lt
  have boundB := b.toNat_lt
  rw [checkedSub, Option.ite_none_right_eq_some, Option.some_inj, ← UInt64.toNat_inj,
    UInt64.le_iff_toNat_le, UInt64.toNat_sub]
  omega

theorem checkedMul_eq_some_iff {a b c : UInt64} :
    checkedMul a b = some c ↔ c.toNat = a.toNat * b.toNat := by
  have bound := c.toNat_lt
  rw [checkedMul, Option.ite_none_right_eq_some, Option.some_inj, ← UInt64.toNat_inj, UInt64.toNat_mul]
  constructor
  · intro fits
    rw [← fits.2, Nat.mod_eq_of_lt fits.1]
  · intro same
    rw [same] at bound
    exact ⟨bound, by rw [same, Nat.mod_eq_of_lt bound]⟩

/-! ## The metrics -/

/-- A hash map of counts, in the order it is iterated in. -/
abbrev Counts := AList fun _ : String => UInt64

structure DecisionMetrics where
  totalDecisions : UInt64 := 0
  successfulDecisions : UInt64 := 0
  failedDecisions : UInt64 := 0
  bySituationType : Counts := ∅
  byActionType : Counts := ∅
  avgDurationMs : UInt64 := 0
  maxDurationMs : UInt64 := 0
  minDurationMs : UInt64 := 0
  humanInterventions : UInt64 := 0
  humanAccepted : UInt64 := 0
  humanRejected : UInt64 := 0
  humanTimedOut : UInt64 := 0
  timeoutFallbacks : UInt64 := 0
  engineSwitches : UInt64 := 0
  retries : UInt64 := 0

/-- `*entry(key).or_insert(0) += n`. -/
def addCount (counts : Counts) (key : String) (n : UInt64) : Option Counts :=
  (checkedAdd ((counts.lookup key).getD 0) n).map fun sum => counts.insert key sum

def addCounts (counts other : Counts) : Option Counts :=
  other.entries.foldlM (fun counts entry => addCount counts entry.1 entry.2) counts

namespace DecisionMetrics

def new : DecisionMetrics := {}

def updateDurationStats (m : DecisionMetrics) (durationMs : UInt64) : Option DecisionMetrics :=
  if m.totalDecisions = 1 then
    some { m with avgDurationMs := durationMs, maxDurationMs := durationMs, minDurationMs := durationMs }
  else do
    let earlier ← checkedSub m.totalDecisions 1
    let product ← checkedMul m.avgDurationMs earlier
    let totalDuration ← checkedAdd product durationMs
    return { m with
      avgDurationMs := totalDuration / m.totalDecisions
      maxDurationMs := if m.maxDurationMs < durationMs then durationMs else m.maxDurationMs
      minDurationMs := if durationMs < m.minDurationMs then durationMs else m.minDurationMs }

def recordSuccess (m : DecisionMetrics) (situationType actionType : String) (durationMs : UInt64) :
    Option DecisionMetrics := do
  let totalDecisions ← checkedAdd m.totalDecisions 1
  let successfulDecisions ← checkedAdd m.successfulDecisions 1
  let bySituationType ← addCount m.bySituationType situationType 1
  let byActionType ← addCount m.byActionType actionType 1
  updateDurationStats { m with totalDecisions, successfulDecisions, bySituationType, byActionType }
    durationMs

def recordFailure (m : DecisionMetrics) (situationType : String) (durationMs : UInt64) :
    Option DecisionMetrics := do
  let totalDecisions ← checkedAdd m.totalDecisions 1
  let failedDecisions ← checkedAdd m.failedDecisions 1
  let bySituationType ← addCount m.bySituationType situationType 1
  updateDurationStats { m with totalDecisions, failedDecisions, bySituationType } durationMs

/-- The average of both, weighted with the numbers of decisions. -/
def mergedAverage (m other : DecisionMetrics) (totalDecisions : UInt64) : Option UInt64 := do
  let earlier ← checkedSub totalDecisions other.totalDecisions
  let mine ← checkedMul m.avgDurationMs earlier
  let others ← checkedMul other.avgDurationMs other.totalDecisions
  let totalAvg ← checkedAdd mine others
  -- `checked_div`: with no decisions at all the average stays
  return if totalDecisions = 0 then m.avgDurationMs else totalAvg / totalDecisions

def merge (m other : DecisionMetrics) : Option DecisionMetrics := do
  let totalDecisions ← checkedAdd m.totalDecisions other.totalDecisions
  let successfulDecisions ← checkedAdd m.successfulDecisions other.successfulDecisions
  let failedDecisions ← checkedAdd m.failedDecisions other.failedDecisions
  let bySituationType ← addCounts m.bySituationType other.bySituationType
  let byActionType ← addCounts m.byActionType other.byActionType
  let humanInterventions ← checkedAdd m.humanInterventions other.humanInterventions
  let humanAccepted ← checkedAdd m.humanAccepted other.humanAccepted
  let humanRejected ← checkedAdd m.humanRejected other.humanRejected
  let humanTimedOut ← checkedAdd m.humanTimedOut other.humanTimedOut
  let timeoutFallbacks ← checkedAdd m.timeoutFallbacks other.timeoutFallbacks
  let engineSwitches ← checkedAdd m.engineSwitches other.engineSwitches
  let retries ← checkedAdd m.retries other.retries
  let maxDurationMs :=
    if m.maxDurationMs < other.maxDurationMs then other.maxDurationMs else m.maxDurationMs
  let minDurationMs :=
    if other.minDurationMs < m.minDurationMs ∨ m.minDurationMs = 0 then other.minDurationMs
    else m.minDurationMs
  let avgDurationMs ← mergedAverage m other totalDecisions
  return {
    totalDecisions, successfulDecisions, failedDecisions, bySituationType, byActionType
    avgDurationMs, maxDurationMs, minDurationMs
    humanInterventions, humanAccepted, humanRejected, humanTimedOut, timeoutFallbacks, engineSwitches
    retries }

end DecisionMetrics

/-- A decision as it is recorded. -/
inductive Recorded where
  | success (situationType actionType : String) (durationMs : UInt64)
  | failure (situationType : String) (durationMs : UInt64)
  deriving Repr, DecidableEq

namespace Recorded

def situationType : Recorded → String
  | success situation _ _ | failure situation _ => situation

def actionType : Recorded → Option String
  | success _ action _ => some action
  | failure _ _ => none

def durationMs : Recorded → UInt64
  | success _ _ duration | failure _ duration => duration

def succeeded (r : Recorded) : Bool := r.actionType.isSome

end Recorded

namespace DecisionMetrics

def record (m : DecisionMetrics) : Recorded → Option DecisionMetrics
  | .success situation action duration => m.recordSuccess situation action duration
  | .failure situation duration => m.recordFailure situation duration

/-- Recording a sequence, from the beginning. -/
def recordAll (records : List Recorded) : Option DecisionMetrics := records.foldlM record new

theorem recordAll_concat (records : List Recorded) (r : Recorded) :
    recordAll (records ++ [r]) = (recordAll records).bind fun m => m.record r := by
  change (records ++ [r]).foldlM record new = (records.foldlM record new).bind fun m => m.record r
  rw [List.foldlM_append]
  cases records.foldlM record new with
  | none => rfl
  | some m => simp

end DecisionMetrics

/-! ## Counts by type -/

/-- A map of counts has an entry for what was counted at all. -/
def IsTally (counts : Counts) (count : String → Nat) : Prop :=
  ∀ key, (counts.lookup key).map UInt64.toNat = if count key = 0 then none else some (count key)

theorem IsTally.empty : IsTally ∅ fun _ => 0 := fun _ => rfl

theorem IsTally.congr {counts : Counts} {count count' : String → Nat} (tally : IsTally counts count)
    (same : ∀ key, count key = count' key) : IsTally counts count' := by
  intro key
  rw [← same key]
  exact tally key

theorem IsTally.getD {counts : Counts} {count : String → Nat} (tally : IsTally counts count)
    (key : String) : ((counts.lookup key).getD 0).toNat = count key := by
  have here := tally key
  cases found : counts.lookup key with
  | none =>
      rw [found] at here
      by_cases zero : count key = 0
      · rw [zero]
        rfl
      · rw [if_neg zero] at here
        cases here
  | some n => grind

theorem IsTally.added {counts : Counts} {count : String → Nat} (tally : IsTally counts count)
    (key : String) {n : UInt64} (positive : n.toNat ≠ 0) (fits : count key + n.toNat < 2 ^ 64) :
    ∃ counts', addCount counts key n = some counts' ∧
      IsTally counts' fun k => count k + if k = key then n.toNat else 0 := by
  have small : ((counts.lookup key).getD 0).toNat + n.toNat < 2 ^ 64 := by rwa [tally.getD key]
  have sum := checkedAdd_eq_some_iff.mp (if_pos small : checkedAdd _ _ = some _)
  refine ⟨_, by rw [addCount, checkedAdd, if_pos small, Option.map_some], fun k => ?_⟩
  have before := tally k
  by_cases same : k = key
  · subst same
    rw [AList.lookup_insert, Option.map_some, sum, tally.getD k]
    grind
  · rw [AList.lookup_insert_ne same, before]
    grind

/-- The entries of the other map can come in any order. -/
theorem IsTally.folded {entries : List (Sigma fun _ : String => UInt64)} (distinct : entries.NodupKeys)
    {counts : Counts} {count more : String → Nat} (tally : IsTally counts count)
    (found : ∀ key, (entries.dlookup key).map UInt64.toNat =
      if more key = 0 then none else some (more key))
    (fits : ∀ key, count key + more key < 2 ^ 64) :
    ∃ counts', entries.foldlM (fun counts entry => addCount counts entry.1 entry.2) counts = some counts' ∧
      IsTally counts' fun key => count key + more key := by
  induction entries generalizing counts count more with
  | nil =>
      have nothing : more = fun _ => 0 := by
        funext key
        have := found key
        grind
      rw [nothing]
      exact ⟨counts, rfl, tally⟩
  | cons entry rest ih =>
      obtain ⟨key, n⟩ := entry
      obtain ⟨fresh, distinct⟩ := List.nodupKeys_cons.mp distinct
      have here := found key
      rw [List.dlookup_cons_eq, Option.map_some] at here
      have counted : more key = n.toNat ∧ n.toNat ≠ 0 := by grind
      obtain ⟨counts', added, tally⟩ := tally.added key counted.2 (counted.1 ▸ fits key)
      have others (k : String) : (rest.dlookup k).map UInt64.toNat =
          if (if k = key then 0 else more k) = 0 then none else some (if k = key then 0 else more k) := by
        have there := found k
        by_cases same : k = key
        · rw [same, List.dlookup_eq_none.mpr fresh, if_pos rfl]
          rfl
        · rw [List.dlookup_cons_ne rest ⟨key, n⟩ same] at there
          rw [if_neg same, there]
      have fits' (k : String) : (count k + if k = key then n.toNat else 0) +
          (if k = key then 0 else more k) < 2 ^ 64 := by
        have := fits k
        grind
      obtain ⟨counts'', merged, tally⟩ := ih distinct tally others fits'
      refine ⟨counts'', ?_, fun k => ?_⟩
      · rw [List.foldlM_cons, added]
        exact merged
      · rw [tally k]
        grind

theorem IsTally.merged {counts other : Counts} {count more : String → Nat} (tally : IsTally counts count)
    (tallyOther : IsTally other more) (fits : ∀ key, count key + more key < 2 ^ 64) :
    ∃ counts', addCounts counts other = some counts' ∧ IsTally counts' fun key => count key + more key :=
  tally.folded other.nodupKeys tallyOther fits

/-! ## What a sequence amounts to -/

/-- The average as it is carried on, rounded down with each decision; the newest duration is first. -/
def averageBack : List Nat → Nat
  | [] => 0
  | d :: ds => (averageBack ds * ds.length + d) / (ds.length + 1)

def rollingAverage (ds : List Nat) : Nat := averageBack ds.reverse

theorem rollingAverage_concat (ds : List Nat) (d : Nat) :
    rollingAverage (ds ++ [d]) = (rollingAverage ds * ds.length + d) / (ds.length + 1) := by
  rw [rollingAverage, List.reverse_concat, averageBack, List.length_reverse]
  rfl

/-- The counter and the sum that the next average is made of fit into 64 bits. -/
def NextFits (ds : List Nat) (d : Nat) : Prop :=
  ds.length + 1 < 2 ^ 64 ∧ rollingAverage ds * ds.length + d < 2 ^ 64

def Fits (ds : List Nat) : Prop := ∀ front d, front ++ [d] <+: ds → NextFits front d

theorem fits_nil : Fits [] := fun _ _ isPrefix => absurd (List.prefix_nil.mp isPrefix) (by simp)

theorem fits_concat {ds : List Nat} {d : Nat} : Fits (ds ++ [d]) ↔ Fits ds ∧ NextFits ds d := by
  constructor
  · intro fits
    exact ⟨fun front e inside => fits front e (inside.trans (List.prefix_append ds [d])),
      fits ds d List.prefix_rfl⟩
  · intro both front e inside
    rcases List.prefix_concat_iff.mp inside with whole | front
    · obtain ⟨rfl, rfl⟩ := List.concat_inj.mp (by simpa using whole)
      exact both.2
    · exact both.1 _ _ front

/-- The least of the durations, zero if there are none. -/
def Shortest (ds : List Nat) (n : Nat) : Prop := (ds = [] → n = 0) ∧ (ds ≠ [] → n ∈ ds ∧ ∀ d ∈ ds, n ≤ d)

def Longest (ds : List Nat) (n : Nat) : Prop := (ds = [] → n = 0) ∧ (ds ≠ [] → n ∈ ds ∧ ∀ d ∈ ds, d ≤ n)

theorem Shortest.unique {ds : List Nat} {n k : Nat} (first : Shortest ds n) (second : Shortest ds k) :
    n = k := by
  by_cases empty : ds = []
  · rw [first.1 empty, second.1 empty]
  · exact Nat.le_antisymm ((first.2 empty).2 k (second.2 empty).1) ((second.2 empty).2 n (first.2 empty).1)

theorem Longest.unique {ds : List Nat} {n k : Nat} (first : Longest ds n) (second : Longest ds k) :
    n = k := by
  by_cases empty : ds = []
  · rw [first.1 empty, second.1 empty]
  · exact Nat.le_antisymm ((second.2 empty).2 n (first.2 empty).1) ((first.2 empty).2 k (second.2 empty).1)

theorem Longest.append {ds es : List Nat} {n k : Nat} (first : Longest ds n) (second : Longest es k) :
    Longest (ds ++ es) (max n k) := by
  by_cases noFirst : ds = []
  · rw [first.1 noFirst, noFirst, Nat.zero_max]
    exact second
  · by_cases noSecond : es = []
    · rw [second.1 noSecond, noSecond, Nat.max_zero, List.append_nil]
      exact first
    · have mine := first.2 noFirst
      have others := second.2 noSecond
      exact ⟨by simp [noFirst], fun _ => ⟨by grind, by grind⟩⟩

theorem Shortest.append {ds es : List Nat} {n k : Nat} (first : Shortest ds n) (second : Shortest es k)
    (some_first : ds ≠ []) (some_second : es ≠ []) : Shortest (ds ++ es) (min n k) := by
  have mine := first.2 some_first
  have others := second.2 some_second
  exact ⟨by simp [some_first], fun _ => ⟨by grind, by grind⟩⟩

/-- Zero is the shortest of no durations, or one of them. -/
theorem Shortest.eq_zero_iff {ds : List Nat} {n : Nat} (shortest : Shortest ds n) :
    n = 0 ↔ ds = [] ∨ 0 ∈ ds := by
  unfold Shortest at shortest
  grind

def durations (records : List Recorded) : List Nat := records.map fun r => r.durationMs.toNat

theorem durations_append (records more : List Recorded) :
    durations (records ++ more) = durations records ++ durations more := List.map_append

/-- The counters, the counts by type and the longest duration are those of a sequence. -/
structure Tallied (records : List Recorded) (m : DecisionMetrics) : Prop where
  total : m.totalDecisions.toNat = records.length
  successful : m.successfulDecisions.toNat = records.countP Recorded.succeeded
  failed : m.failedDecisions.toNat = records.countP (!·.succeeded)
  situations : IsTally m.bySituationType fun key => records.countP (·.situationType = key)
  actions : IsTally m.byActionType fun key => records.countP (·.actionType = some key)
  longest : Longest (durations records) m.maxDurationMs.toNat
  noHuman : m.humanInterventions = 0 ∧ m.humanAccepted = 0 ∧ m.humanRejected = 0 ∧ m.humanTimedOut = 0
  noTrouble : m.timeoutFallbacks = 0 ∧ m.engineSwitches = 0 ∧ m.retries = 0

structure Summarizes (records : List Recorded) (m : DecisionMetrics) : Prop extends Tallied records m where
  average : m.avgDurationMs.toNat = rollingAverage (durations records)
  shortest : Shortest (durations records) m.minDurationMs.toNat

theorem Summarizes.new : Summarizes [] .new where
  total := rfl
  successful := rfl
  failed := rfl
  situations := .empty
  actions := .empty
  longest := ⟨fun _ => rfl, fun none => absurd rfl none⟩
  noHuman := ⟨rfl, rfl, rfl, rfl⟩
  noTrouble := ⟨rfl, rfl, rfl⟩
  average := rfl
  shortest := ⟨fun _ => rfl, fun none => absurd rfl none⟩

/-! ## Recording -/

theorem checkedAdd_of_lt {a b : UInt64} (fits : a.toNat + b.toNat < 2 ^ 64) :
    ∃ c, checkedAdd a b = some c ∧ c.toNat = a.toNat + b.toNat :=
  ⟨a + b, if_pos fits, checkedAdd_eq_some_iff.mp (if_pos fits)⟩

theorem checkedMul_of_lt {a b : UInt64} (fits : a.toNat * b.toNat < 2 ^ 64) :
    ∃ c, checkedMul a b = some c ∧ c.toNat = a.toNat * b.toNat :=
  ⟨a * b, if_pos fits, checkedMul_eq_some_iff.mp (if_pos fits)⟩

theorem checkedSub_of_add {a b : UInt64} {n : Nat} (sum : a.toNat = b.toNat + n) :
    ∃ c, checkedSub a b = some c ∧ c.toNat = n := by
  have fits : b ≤ a := UInt64.le_iff_toNat_le.mpr (by omega)
  have exact_ := checkedSub_eq_some_iff.mp (if_pos fits : checkedSub a b = _)
  exact ⟨a - b, if_pos fits, by omega⟩

theorem Longest.concat {ds : List Nat} {n : UInt64} (longest : Longest ds n.toNat) (d : UInt64) :
    Longest (ds ++ [d.toNat]) (if n < d then d else n).toNat := by
  have larger : (if n < d then d else n).toNat = max n.toNat d.toNat := by
    have := @UInt64.lt_iff_toNat_lt n d
    grind
  rw [larger]
  exact longest.append ⟨by simp, by simp⟩

theorem Shortest.concat {ds : List Nat} {n : UInt64} (shortest : Shortest ds n.toNat)
    (some_first : ds ≠ []) (d : UInt64) :
    Shortest (ds ++ [d.toNat]) (if d < n then d else n).toNat := by
  have smaller : (if d < n then d else n).toNat = min n.toNat d.toNat := by
    have := @UInt64.lt_iff_toNat_lt d n
    grind
  rw [smaller]
  exact shortest.append ⟨by simp, by simp⟩ some_first (by simp)

namespace DecisionMetrics

/-- The statistics of one duration more, if the sum of the average fits. -/
theorem updateDurationStats_spec {m : DecisionMetrics} {ds : List Nat} (d : UInt64)
    (total : m.totalDecisions.toNat = ds.length + 1)
    (average : m.avgDurationMs.toNat = rollingAverage ds)
    (longest : Longest ds m.maxDurationMs.toNat) (shortest : Shortest ds m.minDurationMs.toNat) :
    (rollingAverage ds * ds.length + d.toNat < 2 ^ 64 → ∃ avgDurationMs maxDurationMs minDurationMs,
      updateDurationStats m d = some { m with avgDurationMs, maxDurationMs, minDurationMs } ∧
      avgDurationMs.toNat = rollingAverage (ds ++ [d.toNat]) ∧
      Longest (ds ++ [d.toNat]) maxDurationMs.toNat ∧
      Shortest (ds ++ [d.toNat]) minDurationMs.toNat) ∧
    (¬ rollingAverage ds * ds.length + d.toNat < 2 ^ 64 → updateDurationStats m d = none) := by
  cases ds with
  | nil =>
      have first : m.totalDecisions = 1 := UInt64.toNat_inj.mp total
      have one : updateDurationStats m d =
          some { m with avgDurationMs := d, maxDurationMs := d, minDurationMs := d } := if_pos first
      have bound := d.toNat_lt
      constructor
      · intro _
        refine ⟨d, d, d, one, ?_, ⟨by simp, by simp⟩, ⟨by simp, by simp⟩⟩
        simp [rollingAverage, averageBack]
      · intro large
        exact absurd bound (by simpa [rollingAverage, averageBack] using large)
  | cons e es =>
      have later : m.totalDecisions ≠ 1 := by
        intro first
        rw [first, List.length_cons] at total
        exact absurd total (by simp)
      obtain ⟨earlier, subtracted, count⟩ := @checkedSub_of_add m.totalDecisions 1 (e :: es).length
        (by rw [total]; exact Nat.add_comm _ _)
      constructor
      · intro fits
        obtain ⟨product, multiplied, productIs⟩ := @checkedMul_of_lt m.avgDurationMs earlier
          (by rw [average, count]; omega)
        obtain ⟨sum, added, sumIs⟩ := @checkedAdd_of_lt product d
          (by rw [productIs, average, count]; exact fits)
        refine ⟨sum / m.totalDecisions, _, _, ?_, ?_, longest.concat d,
          shortest.concat (List.cons_ne_nil e es) d⟩
        · rw [updateDurationStats, if_neg later]
          simp only [subtracted, multiplied, added, Option.bind_eq_bind, Option.bind_some]
          rfl
        · rw [UInt64.toNat_div, sumIs, productIs, average, count, total, rollingAverage_concat]
      · intro large
        rw [updateDurationStats, if_neg later]
        simp only [subtracted, Option.bind_eq_bind, Option.bind_some]
        cases multiplied : checkedMul m.avgDurationMs earlier with
        | none => rfl
        | some product =>
            have productIs := checkedMul_eq_some_iff.mp multiplied
            rw [average, count] at productIs
            have overflow : checkedAdd product d = none := if_neg (by rw [productIs]; exact large)
            simp only [Option.bind_some, overflow, Option.bind_none]

end DecisionMetrics

theorem IsTally.counted {counts : Counts} {records : List Recorded} {p : String → Recorded → Bool}
    (tally : IsTally counts fun key => records.countP (p key)) (r : Recorded) (key : String)
    (only : ∀ k, p k r = decide (k = key)) (fits : records.length + 1 < 2 ^ 64) :
    ∃ counts', addCount counts key 1 = some counts' ∧
      IsTally counts' fun k => (records ++ [r]).countP (p k) := by
  have most := @List.countP_le_length _ (p key) records
  obtain ⟨counts', added, tally'⟩ := @IsTally.added counts _ tally key 1 (by decide)
    (Nat.lt_of_le_of_lt (Nat.succ_le_succ most) fits)
  refine ⟨counts', added, tally'.congr fun k => ?_⟩
  rw [List.countP_append, List.countP_singleton, only k]
  simp

theorem IsTally.uncounted {counts : Counts} {records : List Recorded} {p : String → Recorded → Bool}
    (tally : IsTally counts fun key => records.countP (p key)) (r : Recorded)
    (never : ∀ k, p k r = false) : IsTally counts fun k => (records ++ [r]).countP (p k) := by
  refine tally.congr fun k => ?_
  rw [List.countP_append, List.countP_singleton, never k]
  rfl

namespace DecisionMetrics

theorem record_summarizes {records : List Recorded} {m : DecisionMetrics}
    (summary : Summarizes records m) (r : Recorded)
    (fits : NextFits (durations records) r.durationMs.toNat) :
    ∃ m', m.record r = some m' ∧ Summarizes (records ++ [r]) m' := by
  have length : (durations records).length = records.length := List.length_map _
  have small : records.length + 1 < 2 ^ 64 := length ▸ fits.1
  have successes := @List.countP_le_length _ Recorded.succeeded records
  have failures := @List.countP_le_length _ (!Recorded.succeeded ·) records
  obtain ⟨totalDecisions, addedTotal, totalIs⟩ := @checkedAdd_of_lt m.totalDecisions 1
    (by rw [summary.total]; exact small)
  have total : totalDecisions.toNat = (durations records).length + 1 := by
    rw [totalIs, summary.total, length]
    rfl
  have all : totalDecisions.toNat = (records ++ [r]).length := by
    rw [total, length, List.length_append]
    rfl
  obtain ⟨bySituationType, addedSituation, situations⟩ := summary.situations.counted r r.situationType
    (fun k => by simp [eq_comm]) small
  have newest : durations (records ++ [r]) = durations records ++ [r.durationMs.toNat] :=
    durations_append records [r]
  cases r with
  | success situation action duration =>
      obtain ⟨successfulDecisions, addedSuccess, successIs⟩ := @checkedAdd_of_lt m.successfulDecisions 1
        (by rw [summary.successful]; exact Nat.lt_of_le_of_lt (Nat.succ_le_succ successes) small)
      obtain ⟨byActionType, addedAction, actions⟩ := summary.actions.counted
        (.success situation action duration) action
        (fun k => by simp [Recorded.actionType, eq_comm]) small
      have update := (@updateDurationStats_spec
        { m with totalDecisions, successfulDecisions, bySituationType, byActionType }
        (durations records) duration total summary.average summary.longest summary.shortest).1 fits.2
      obtain ⟨avgDurationMs, maxDurationMs, minDurationMs, updated, average, longest, shortest⟩ := update
      refine ⟨{ m with
        totalDecisions, successfulDecisions, bySituationType, byActionType
        avgDurationMs, maxDurationMs, minDurationMs }, ?_, ?_⟩
      · simp only [record, recordSuccess, addedTotal, addedSuccess, Option.bind_eq_bind,
          Option.bind_some]
        rw [addedAction]
        exact (congrArg (Option.bind · _) addedSituation).trans updated
      · constructor
        · refine ⟨all, ?_, ?_, situations, actions, newest ▸ longest, summary.noHuman, summary.noTrouble⟩
          · rw [successIs, summary.successful, List.countP_append]
            rfl
          · rw [summary.failed, List.countP_append]
            rfl
        · exact newest ▸ average
        · exact newest ▸ shortest
  | failure situation duration =>
      obtain ⟨failedDecisions, addedFailure, failureIs⟩ := @checkedAdd_of_lt m.failedDecisions 1
        (by rw [summary.failed]; exact Nat.lt_of_le_of_lt (Nat.succ_le_succ failures) small)
      have update := (@updateDurationStats_spec
        { m with totalDecisions, failedDecisions, bySituationType }
        (durations records) duration total summary.average summary.longest summary.shortest).1 fits.2
      obtain ⟨avgDurationMs, maxDurationMs, minDurationMs, updated, average, longest, shortest⟩ := update
      refine ⟨{ m with
        totalDecisions, failedDecisions, bySituationType
        avgDurationMs, maxDurationMs, minDurationMs }, ?_, ?_⟩
      · simp only [record, recordFailure, addedTotal, addedFailure, Option.bind_eq_bind, Option.bind_some]
        exact (congrArg (Option.bind · _) addedSituation).trans updated
      · constructor
        · refine ⟨all, ?_, ?_, situations, ?_, newest ▸ longest, summary.noHuman, summary.noTrouble⟩
          · rw [summary.successful, List.countP_append]
            rfl
          · rw [failureIs, summary.failed, List.countP_append]
            rfl
          · exact summary.actions.uncounted _ fun k => by simp [Recorded.actionType]
        · exact newest ▸ average
        · exact newest ▸ shortest

/-- The same decision is not recorded where a sum does not fit. -/
theorem record_overflows {records : List Recorded} {m : DecisionMetrics}
    (summary : Summarizes records m) (r : Recorded)
    (large : ¬ NextFits (durations records) r.durationMs.toNat) : m.record r = none := by
  have length : (durations records).length = records.length := List.length_map _
  have update {m' : DecisionMetrics} {total : UInt64} (added : checkedAdd m.totalDecisions 1 = some total)
      (same : m'.totalDecisions = total) (average : m'.avgDurationMs = m.avgDurationMs)
      (longest : m'.maxDurationMs = m.maxDurationMs) (shortest : m'.minDurationMs = m.minDurationMs) :
      updateDurationStats m' r.durationMs = none := by
    have totalIs := checkedAdd_eq_some_iff.mp added
    rw [summary.total, ← same, ← length] at totalIs
    have bound := m'.totalDecisions.toNat_lt
    refine (updateDurationStats_spec r.durationMs totalIs (average ▸ summary.average)
      (longest ▸ summary.longest) (shortest ▸ summary.shortest)).2 fun fits => large ⟨?_, fits⟩
    rw [totalIs] at bound
    exact bound
  cases r with
  | success situation action duration =>
      simp only [record, recordSuccess, Option.bind_eq_bind, Option.bind_eq_none_iff]
      intro total added successes _ situations _ actions _
      exact update added rfl rfl rfl rfl
  | failure situation duration =>
      simp only [record, recordFailure, Option.bind_eq_bind, Option.bind_eq_none_iff]
      intro total added failures _ situations _
      exact update added rfl rfl rfl rfl

/-- A sequence is recorded as what it amounts to if all its sums fit, and not at all if not. -/
theorem recordAll_spec (records : List Recorded) :
    (Fits (durations records) → ∃ m, recordAll records = some m ∧ Summarizes records m) ∧
      (¬ Fits (durations records) → recordAll records = none) := by
  induction records using List.reverseRecOn with
  | nil => exact ⟨fun _ => ⟨new, rfl, .new⟩, fun large => absurd fits_nil large⟩
  | append_singleton records r ih =>
      have newest : durations (records ++ [r]) = durations records ++ [r.durationMs.toNat] :=
        durations_append records [r]
      rw [newest, fits_concat, recordAll_concat]
      constructor
      · intro fits
        obtain ⟨m, recorded, summary⟩ := ih.1 fits.1
        rw [recorded, Option.bind_some]
        exact record_summarizes summary r fits.2
      · intro large
        by_cases fits : Fits (durations records)
        · obtain ⟨m, recorded, summary⟩ := ih.1 fits
          rw [recorded, Option.bind_some]
          exact record_overflows summary r fun next => large ⟨fits, next⟩
        · rw [ih.2 fits, Option.bind_none]

end DecisionMetrics

/-! ## Merging -/

/-- All that a merge is to agree on; the average, which is rounded as it goes, is not part of it. -/
structure SameStatistics (m n : DecisionMetrics) : Prop where
  total : m.totalDecisions = n.totalDecisions
  successful : m.successfulDecisions = n.successfulDecisions
  failed : m.failedDecisions = n.failedDecisions
  situations : ∀ key, m.bySituationType.lookup key = n.bySituationType.lookup key
  actions : ∀ key, m.byActionType.lookup key = n.byActionType.lookup key
  longest : m.maxDurationMs = n.maxDurationMs
  shortest : m.minDurationMs = n.minDurationMs
  human : m.humanInterventions = n.humanInterventions ∧ m.humanAccepted = n.humanAccepted ∧
    m.humanRejected = n.humanRejected ∧ m.humanTimedOut = n.humanTimedOut
  trouble : m.timeoutFallbacks = n.timeoutFallbacks ∧ m.engineSwitches = n.engineSwitches ∧
    m.retries = n.retries

/-- Both sequences and the two as one can be recorded, and the metrics of the second merged into those
    of the first say the same as those of the whole. -/
def MergesAlike (records more : List Recorded) : Prop :=
  ∃ m n merged whole, DecisionMetrics.recordAll records = some m ∧
    DecisionMetrics.recordAll more = some n ∧ m.merge n = some merged ∧
    DecisionMetrics.recordAll (records ++ more) = some whole ∧ SameStatistics merged whole

/-- No sum that an average is made of is too large. -/
structure NoOverflow (records more : List Recorded) : Prop where
  whole : Fits (durations (records ++ more))
  second : Fits (durations more)
  merged : rollingAverage (durations records) * records.length +
    rollingAverage (durations more) * more.length < 2 ^ 64

/-- Where zero is a duration of the first sequence it is one of the second; where there is no second,
    it is one of the first, if there is a first. -/
def ZerosAgree (records more : List Recorded) : Prop :=
  records = [] ∨ if more = [] then 0 ∈ durations records else 0 ∈ durations records → 0 ∈ durations more

theorem IsTally.lookup_eq {counts counts' : Counts} {count : String → Nat} (tally : IsTally counts count)
    (tally' : IsTally counts' count) (key : String) : counts.lookup key = counts'.lookup key := by
  have same : (counts.lookup key).map UInt64.toNat = (counts'.lookup key).map UInt64.toNat :=
    (tally key).trans (tally' key).symm
  exact Option.map_injective (fun _ _ => UInt64.toNat_inj.mp) same

theorem Tallied.same {records : List Recorded} {m n : DecisionMetrics} (first : Tallied records m)
    (second : Tallied records n) (shortest : m.minDurationMs = n.minDurationMs) : SameStatistics m n where
  total := UInt64.toNat_inj.mp (first.total.trans second.total.symm)
  successful := UInt64.toNat_inj.mp (first.successful.trans second.successful.symm)
  failed := UInt64.toNat_inj.mp (first.failed.trans second.failed.symm)
  situations := first.situations.lookup_eq second.situations
  actions := first.actions.lookup_eq second.actions
  longest := UInt64.toNat_inj.mp (first.longest.unique second.longest)
  shortest := shortest
  human := by
    have mine := first.noHuman
    have others := second.noHuman
    grind
  trouble := by
    have mine := first.noTrouble
    have others := second.noTrouble
    grind

/-- The shortest duration as `merge` finds it. -/
def mergedMin (mine other : UInt64) : UInt64 := if other < mine ∨ mine = 0 then other else mine

theorem fits_length {ds : List Nat} (fits : Fits ds) : ds.length < 2 ^ 64 := by
  cases ds using List.reverseRecOn with
  | nil => decide
  | append_singleton ds d =>
      rw [List.length_append]
      exact (fits_concat.mp fits).2.1

theorem fits_front {ds es : List Nat} (fits : Fits (ds ++ es)) : Fits ds :=
  fun front d inside => fits front d (inside.trans (List.prefix_append ds es))

theorem checkedAdd_zero (a : UInt64) : checkedAdd a 0 = some a := checkedAdd_eq_some_iff.mpr rfl

namespace DecisionMetrics

/-- The average of a merge, if what it multiplies and adds fits. -/
theorem mergedAverage_spec {m n : DecisionMetrics} {total : UInt64}
    (sum : total.toNat = m.totalDecisions.toNat + n.totalDecisions.toNat) :
    (m.avgDurationMs.toNat * m.totalDecisions.toNat + n.avgDurationMs.toNat * n.totalDecisions.toNat <
      2 ^ 64 → ∃ average, mergedAverage m n total = some average ∧
        average.toNat = if total.toNat = 0 then m.avgDurationMs.toNat else
          (m.avgDurationMs.toNat * m.totalDecisions.toNat +
            n.avgDurationMs.toNat * n.totalDecisions.toNat) / total.toNat) ∧
    (¬ m.avgDurationMs.toNat * m.totalDecisions.toNat +
      n.avgDurationMs.toNat * n.totalDecisions.toNat < 2 ^ 64 → mergedAverage m n total = none) := by
  obtain ⟨earlier, subtracted, earlierIs⟩ := @checkedSub_of_add total n.totalDecisions
    m.totalDecisions.toNat (by omega)
  rw [← earlierIs]
  constructor
  · intro fits
    obtain ⟨product, multiplied, productIs⟩ := @checkedMul_of_lt m.avgDurationMs earlier (by omega)
    obtain ⟨product', multiplied', productIs'⟩ := @checkedMul_of_lt n.avgDurationMs n.totalDecisions
      (by omega)
    obtain ⟨totalAvg, added, totalAvgIs⟩ := @checkedAdd_of_lt product product' (by omega)
    refine ⟨if total = 0 then m.avgDurationMs else totalAvg / total, ?_, ?_⟩
    · simp only [mergedAverage, subtracted, multiplied, multiplied', added, Option.bind_eq_bind,
        Option.bind_some]
      rfl
    · have zero : total = 0 ↔ total.toNat = 0 := UInt64.toNat_inj.symm
      by_cases none : total = 0
      · rw [if_pos none, if_pos (zero.mp none)]
      · rw [if_neg none, if_neg (mt zero.mpr none), UInt64.toNat_div, totalAvgIs, productIs, productIs']
  · intro large
    rw [Option.eq_none_iff_forall_ne_some]
    intro average found
    simp only [mergedAverage, subtracted, Option.bind_eq_bind, Option.bind_some,
      Option.bind_eq_some_iff] at found
    obtain ⟨product, multiplied, product', multiplied', totalAvg, added, -⟩ := found
    rw [← checkedMul_eq_some_iff.mp multiplied, ← checkedMul_eq_some_iff.mp multiplied',
      ← checkedAdd_eq_some_iff.mp added] at large
    exact large totalAvg.toNat_lt

theorem merge_summaries {records more : List Recorded} {m n : DecisionMetrics}
    (mine : Summarizes records m) (other : Summarizes more n)
    (length : records.length + more.length < 2 ^ 64)
    (fits : rollingAverage (durations records) * records.length +
      rollingAverage (durations more) * more.length < 2 ^ 64) :
    ∃ merged, m.merge n = some merged ∧ Tallied (records ++ more) merged ∧
      merged.minDurationMs = mergedMin m.minDurationMs n.minDurationMs := by
  have upTo (p : Recorded → Bool) : records.countP p + more.countP p < 2 ^ 64 := by
    have first := @List.countP_le_length _ p records
    have second := @List.countP_le_length _ p more
    omega
  obtain ⟨totalDecisions, addedTotal, totalIs⟩ := @checkedAdd_of_lt m.totalDecisions n.totalDecisions
    (by rw [mine.total, other.total]; exact length)
  obtain ⟨successfulDecisions, addedSuccess, successIs⟩ :=
    @checkedAdd_of_lt m.successfulDecisions n.successfulDecisions
      (by rw [mine.successful, other.successful]; exact upTo _)
  obtain ⟨failedDecisions, addedFailure, failureIs⟩ := @checkedAdd_of_lt m.failedDecisions n.failedDecisions
    (by rw [mine.failed, other.failed]; exact upTo _)
  obtain ⟨bySituationType, addedSituations, situations⟩ :=
    mine.situations.merged other.situations fun key => upTo _
  obtain ⟨byActionType, addedActions, actions⟩ := mine.actions.merged other.actions fun key => upTo _
  obtain ⟨avgDurationMs, averaged, -⟩ := (mergedAverage_spec totalIs).1
    (by rw [mine.average, mine.total, other.average, other.total]; exact fits)
  obtain ⟨noInterventions, noAccepted, noRejected, noTimedOut⟩ := other.noHuman
  obtain ⟨noFallbacks, noSwitches, noRetries⟩ := other.noTrouble
  refine ⟨{ m with
    totalDecisions, successfulDecisions, failedDecisions, bySituationType, byActionType
    avgDurationMs
    maxDurationMs := if m.maxDurationMs < n.maxDurationMs then n.maxDurationMs else m.maxDurationMs
    minDurationMs := mergedMin m.minDurationMs n.minDurationMs }, ?_, ?_, rfl⟩
  · simp only [merge, addedTotal, addedSuccess, addedFailure, addedSituations, addedActions, noInterventions,
      noAccepted, noRejected, noTimedOut, noFallbacks, noSwitches, noRetries, checkedAdd_zero, averaged,
      Option.bind_eq_bind, Option.bind_some]
    rfl
  · refine ⟨?_, ?_, ?_, situations.congr ?_, actions.congr ?_, ?_, mine.noHuman, mine.noTrouble⟩
    · rw [totalIs, mine.total, other.total, List.length_append]
    · rw [successIs, mine.successful, other.successful, List.countP_append]
    · rw [failureIs, mine.failed, other.failed, List.countP_append]
    · exact fun key => List.countP_append.symm
    · exact fun key => List.countP_append.symm
    · rw [durations_append]
      have both := mine.longest.append other.longest
      have larger := @UInt64.lt_iff_toNat_lt m.maxDurationMs n.maxDurationMs
      grind

/-- What a merge multiplies and adds for the average fits. -/
theorem merge_average_fits {m n merged : DecisionMetrics} (succeeds : m.merge n = some merged) :
    m.avgDurationMs.toNat * m.totalDecisions.toNat + n.avgDurationMs.toNat * n.totalDecisions.toNat <
      2 ^ 64 := by
  obtain ⟨total, added, rest⟩ := Option.bind_eq_some_iff.mp succeeds
  -- the other counters and the counts by type come before the average
  iterate 11 obtain ⟨_, -, rest⟩ := Option.bind_eq_some_iff.mp rest
  obtain ⟨average, averaged, -⟩ := Option.bind_eq_some_iff.mp rest
  by_contra large
  rw [(mergedAverage_spec (checkedAdd_eq_some_iff.mp added)).2 large] at averaged
  cases averaged

/-- Empty metrics have zero for the least there is. -/
theorem mergedMin_zero (least : UInt64) : mergedMin least 0 = 0 := by
  have positive := @UInt64.pos_iff_ne_zero least
  rw [mergedMin]
  grind

/-- Nothing is changed by empty metrics but the shortest duration. -/
theorem merge_new {m : DecisionMetrics}
    (fits : m.avgDurationMs.toNat * m.totalDecisions.toNat < 2 ^ 64) :
    m.merge new = some { m with minDurationMs := 0 } := by
  obtain ⟨average, averaged, averageIs⟩ := (@mergedAverage_spec m new m.totalDecisions rfl).1 fits
  have same : average = m.avgDurationMs := by
    apply UInt64.toNat_inj.mp
    rw [averageIs]
    split
    · rfl
    · next some_decisions =>
        change (_ * _ + 0 * 0) / _ = _
        rw [Nat.add_zero, Nat.mul_div_cancel _ (Nat.pos_of_ne_zero some_decisions)]
  have least := mergedMin_zero m.minDurationMs
  rw [mergedMin] at least
  rw [same] at averaged
  have zero {get : DecisionMetrics → UInt64} (none : get new = 0) :
      checkedAdd (get m) (get new) = some (get m) := by
    rw [none, checkedAdd_zero]
  have noCounts : addCounts m.bySituationType new.bySituationType = some m.bySituationType := rfl
  have noActions : addCounts m.byActionType new.byActionType = some m.byActionType := rfl
  have noMost : ¬ m.maxDurationMs < new.maxDurationMs := UInt64.not_lt_zero
  have noLeast : new.minDurationMs = 0 := rfl
  simp only [merge, @zero totalDecisions rfl, @zero successfulDecisions rfl, @zero failedDecisions rfl,
    @zero humanInterventions rfl, @zero humanAccepted rfl, @zero humanRejected rfl,
    @zero humanTimedOut rfl, @zero timeoutFallbacks rfl, @zero engineSwitches rfl, @zero retries rfl,
    noCounts, noActions, averaged, noMost, noLeast, least, if_false, Option.bind_eq_bind, Option.bind_some]
  rfl

theorem merge_new_iff (m : DecisionMetrics) : m.merge new = some m ↔
    m.minDurationMs = 0 ∧ m.avgDurationMs.toNat * m.totalDecisions.toNat < 2 ^ 64 := by
  constructor
  · intro same
    have fits : m.avgDurationMs.toNat * m.totalDecisions.toNat < 2 ^ 64 := merge_average_fits same
    rw [merge_new fits] at same
    exact ⟨(congrArg minDurationMs (Option.some.inj same)).symm, fits⟩
  · intro both
    rw [merge_new both.2, ← both.1]

end DecisionMetrics

theorem mergedMin_right_iff {records more : List Recorded} {mine other least : UInt64}
    (first : Shortest (durations records) mine.toNat) (second : Shortest (durations more) other.toNat)
    (whole : Shortest (durations (records ++ more)) least.toNat) :
    mergedMin mine other = least ↔ ZerosAgree records more := by
  have empty (rs : List Recorded) : durations rs = [] ↔ rs = [] := List.map_eq_nil_iff
  rw [durations_append] at whole
  rw [ZerosAgree]
  by_cases noFirst : records = []
  · -- the metrics of the second are taken over
    rw [(empty _).mpr noFirst, List.nil_append] at whole
    have zero : mine = 0 := UInt64.toNat_inj.mp (first.1 ((empty _).mpr noFirst))
    have same : other = least := UInt64.toNat_inj.mp (second.unique whole)
    rw [mergedMin, if_pos (.inr zero)]
    exact iff_of_true same (.inl noFirst)
  · by_cases noSecond : more = []
    · -- the zero of an empty instance is less than any
      rw [(empty _).mpr noSecond, List.append_nil] at whole
      have zero : other = 0 := UInt64.toNat_inj.mp (second.1 ((empty _).mpr noSecond))
      have same : mine = least := UInt64.toNat_inj.mp (first.unique whole)
      rw [zero, DecisionMetrics.mergedMin_zero, if_pos noSecond, ← same, eq_comm, ← UInt64.toNat_inj]
      change mine.toNat = 0 ↔ _
      rw [first.eq_zero_iff, empty]
    · have some_first := mt (empty records).mp noFirst
      have some_second := mt (empty more).mp noSecond
      have same : least.toNat = min mine.toNat other.toNat :=
        whole.unique (first.append second some_first some_second)
      have zeroFirst := first.eq_zero_iff
      have zeroSecond := second.eq_zero_iff
      rw [mergedMin, if_neg noSecond, ← UInt64.toNat_inj, same]
      have lt := @UInt64.lt_iff_toNat_lt other mine
      have zero := @UInt64.toNat_inj mine 0
      grind

theorem mergesAlike_iff (records more : List Recorded) :
    MergesAlike records more ↔ NoOverflow records more ∧ ZerosAgree records more := by
  have lengthOf (rs : List Recorded) : (durations rs).length = rs.length := List.length_map _
  constructor
  · intro alike
    obtain ⟨m, n, merged, whole, recorded, recordedMore, succeeds, recordedAll, same⟩ := alike
    have fitsOf {rs : List Recorded} {k : DecisionMetrics} (made : DecisionMetrics.recordAll rs = some k) :
        Fits (durations rs) ∧ Summarizes rs k := by
      have spec := DecisionMetrics.recordAll_spec rs
      by_cases fits : Fits (durations rs)
      · obtain ⟨k', made', summary⟩ := spec.1 fits
        cases made.symm.trans made'
        exact ⟨fits, summary⟩
      · rw [spec.2 fits] at made
        cases made
    obtain ⟨-, mine⟩ := fitsOf recorded
    obtain ⟨fitsMore, other⟩ := fitsOf recordedMore
    obtain ⟨fitsAll, all⟩ := fitsOf recordedAll
    have sums := DecisionMetrics.merge_average_fits succeeds
    rw [mine.average, mine.total, other.average, other.total] at sums
    have length := fits_length fitsAll
    rw [lengthOf, List.length_append] at length
    obtain ⟨merged', succeeds', -, least⟩ := DecisionMetrics.merge_summaries mine other length sums
    cases succeeds.symm.trans succeeds'
    refine ⟨⟨fitsAll, fitsMore, sums⟩, ?_⟩
    rw [← mergedMin_right_iff mine.shortest other.shortest all.shortest, ← least]
    exact same.shortest
  · intro both
    obtain ⟨fits, zeros⟩ := both
    have front : Fits (durations records) := by
      have whole := fits.whole
      rw [durations_append] at whole
      exact fits_front whole
    obtain ⟨m, recorded, mine⟩ := (DecisionMetrics.recordAll_spec records).1 front
    obtain ⟨n, recordedMore, other⟩ := (DecisionMetrics.recordAll_spec more).1 fits.second
    obtain ⟨whole, recordedAll, all⟩ := (DecisionMetrics.recordAll_spec (records ++ more)).1 fits.whole
    have length := fits_length fits.whole
    rw [lengthOf, List.length_append] at length
    obtain ⟨merged, succeeds, tallied, least⟩ :=
      DecisionMetrics.merge_summaries mine other length fits.merged
    have shortest := (mergedMin_right_iff mine.shortest other.shortest all.shortest).mpr zeros
    exact ⟨m, n, merged, whole, recorded, recordedMore, succeeds, recordedAll,
      tallied.same all.toTallied (least.trans shortest)⟩

theorem merge_laws (records more : List Recorded) (m : DecisionMetrics) :
    (MergesAlike records more ↔ NoOverflow records more ∧ ZerosAgree records more) ∧
      (m.merge .new = some m ↔
        m.minDurationMs = 0 ∧ m.avgDurationMs.toNat * m.totalDecisions.toNat < 2 ^ 64) :=
  ⟨mergesAlike_iff records more, m.merge_new_iff⟩

/-- Metrics of an agent that has not decided yet take the shortest duration away. -/
theorem idle_agent_forgets : ¬ MergesAlike [.success "waiting_for_choice" "select_option" 5] [] := by
  intro alike
  have zeros := ((mergesAlike_iff _ _).mp alike).2
  revert zeros
  unfold ZerosAgree durations
  decide

/-- A decision that took no time is forgotten for the next instance's shortest. -/
example : mergedMin 0 7 = 7 := by decide

end AgileAgent.Decision
