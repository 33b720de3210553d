import AgileAgent.Core.AgentSlot

/-! # Recovery of resting agents

A driver polls a resting slot and records each attempt it is granted. The slot measures the
time from the last retry of its reason, or from when it went to rest, and recording an attempt
moves neither.
-/

namespace AgileAgent.Core

/-- Nanoseconds of a number of seconds. -/
abbrev seconds (n : Nat) : Int := n * 1000000000

/-- `as u64`, of an `i64`. -/
def asU64 (n : Int) : Nat := if 0 ≤ n then n.toNat else (n + 2 ^ 64).toNat

/-- `TimeDelta::num_seconds`. -/
def numSeconds (nanoseconds : Int) : Int := nanoseconds.tdiv 1000000000

namespace RateLimitBlockedReason

def recordRetry (r : RateLimitBlockedReason) (now : Int) : RateLimitBlockedReason :=
  { r with lastRetryAt := some now, retryCount := r.retryCount + 1 }

/-- What the time to the next attempt is measured from. -/
def reference (r : RateLimitBlockedReason) (restingSince : Int) : Int :=
  r.lastRetryAt.getD restingSince

end RateLimitBlockedReason

namespace AgentSlot

def shouldAttemptRecovery (s : AgentSlot) (retryIntervalSecs : Nat) (now : Int) : Bool :=
  match s.status with
  | .resting startedAt blockedState onResume =>
      if onResume then true
      else
        match blockedState.rateLimit with
        | some reason =>
            let elapsedSecs := asU64 (numSeconds (now - reason.reference startedAt))
            retryIntervalSecs ≤ elapsedSecs
        -- no other reason is retried
        | none => false
  | _ => false

def recordRecoveryAttempt (s : AgentSlot) : AgentSlot :=
  match s.status with
  | .resting startedAt blockedState _ => { s with status := .resting startedAt blockedState false }
  | _ => s

end AgentSlot

/-- An attempt to recover: when, and whether `on_resume` granted it. -/
structure RecoveryAttempt where
  time : Int
  immediate : Bool

def immediate (now : Int) : RecoveryAttempt := ⟨now, true⟩

def granted (now : Int) : RecoveryAttempt := ⟨now, false⟩

/-- `on_resume` of a resting slot. -/
def AgentSlot.onResume (s : AgentSlot) : Bool :=
  match s.status with
  | .resting _ _ onResume => onResume
  | _ => false

/-- The attempts of a driver that polls at these readings of the clock and records each attempt
    it is granted. -/
def AgentSlot.attempts (retryIntervalSecs : Nat) : AgentSlot → List Int → List RecoveryAttempt
  | _, [] => []
  | s, now :: clock =>
      if s.shouldAttemptRecovery retryIntervalSecs now then
        ⟨now, s.onResume⟩ :: s.recordRecoveryAttempt.attempts retryIntervalSecs clock
      else s.attempts retryIntervalSecs clock

/-- The attempts of a slot that rests since `restingSince` keep their distance, apart from the
    one that `on_resume` grants, and none comes before the time the interval is measured from. -/
structure Paced (retryIntervalSecs : Nat) (restingSince : Int) (blockedState : BlockedState)
    (attempts : List RecoveryAttempt) : Prop where
  apart : attempts.IsChain fun a b => b.immediate = false → seconds retryIntervalSecs ≤ b.time - a.time
  late : ∀ a ∈ attempts, a.immediate = false → ∀ reason ∈ blockedState.rateLimit,
    reason.reference restingSince ≤ a.time

/-- A reading of the clock before the reference that does not grant an attempt: less than a
    second of difference counts as none, and the cast makes a very long time of any other. -/
def Harmless (retryIntervalSecs : Nat) (reference now : Int) : Prop :=
  0 < retryIntervalSecs ∧ (reference - now < seconds 1 ∨
    2 ^ 64 < retryIntervalSecs + (reference - now) / seconds 1)

/-- The readings at which the slot decides by the interval. -/
def paced (onResume : Bool) (clock : List Int) : List Int := if onResume then clock.tail else clock

/-- No reading before the reference grants an attempt, and of the readings that are an interval
    after the reference each is an interval after the last one, or after the immediate attempt. -/
structure Steady (retryIntervalSecs : Nat) (reference : Int) (onResume : Bool) (clock : List Int) :
    Prop where
  harmless : ∀ now ∈ paced onResume clock, now < reference → Harmless retryIntervalSecs reference now
  apart : ((if onResume then clock.head?.toList else []) ++ (paced onResume clock).filter fun now =>
    seconds retryIntervalSecs ≤ now - reference).IsChain fun a b => seconds retryIntervalSecs ≤ b - a

theorem elapsed_of_le {interval : Nat} {reference now : Int} (late : reference ≤ now) :
    interval ≤ asU64 (numSeconds (now - reference)) ↔ seconds interval ≤ now - reference := by
  unfold asU64 numSeconds seconds
  rw [Int.tdiv_eq_ediv_of_nonneg (by omega)]
  split <;> omega

theorem elapsed_of_lt {interval : Nat} {reference now : Int} (early : now < reference) :
    interval ≤ asU64 (numSeconds (now - reference)) ↔ ¬ Harmless interval reference now := by
  have negated : numSeconds (now - reference) = -((reference - now) / 1000000000) := by
    rw [numSeconds, ← Int.neg_sub, Int.neg_tdiv, Int.tdiv_eq_ediv_of_nonneg (by omega)]
  rw [negated]
  unfold asU64 Harmless seconds
  split <;> omega

namespace AgentSlot

variable {s : AgentSlot} {startedAt : Int} {blockedState : BlockedState}
  {reason : RateLimitBlockedReason} {interval : Nat}

theorem record_of_paced (resting : s.status = .resting startedAt blockedState false) :
    s.recordRecoveryAttempt = s := by
  cases s
  subst resting
  rfl

theorem attempts_of_paced (resting : s.status = .resting startedAt blockedState false)
    (clock : List Int) :
    s.attempts interval clock =
      (clock.filter (s.shouldAttemptRecovery interval)).map granted := by
  induction clock with
  | nil => rfl
  | cons now clock ih =>
      have decided : s.onResume = false := by simp [onResume, resting]
      rw [attempts, record_of_paced resting, ih, decided, List.filter_cons]
      split <;> simp [granted]

theorem attempts_of_resume (resting : s.status = .resting startedAt blockedState true)
    (clock : List Int) :
    s.attempts interval clock = clock.head?.toList.map immediate ++
      s.recordRecoveryAttempt.attempts interval clock.tail := by
  cases clock with
  | nil => rfl
  | cons now clock => simp [attempts, shouldAttemptRecovery, onResume, resting, immediate]

theorem grants_iff (resting : s.status = .resting startedAt blockedState false)
    (limited : blockedState.rateLimit = some reason) (now : Int) :
    s.shouldAttemptRecovery interval now ↔
      interval ≤ asU64 (numSeconds (now - reason.reference startedAt)) := by
  simp [shouldAttemptRecovery, resting, limited]

/-- Without a reading that the cast turns into a long wait, the slot grants every reading that
    is an interval after the reference. -/
theorem filter_grants (resting : s.status = .resting startedAt blockedState false)
    (limited : blockedState.rateLimit = some reason) {clock : List Int}
    (harmless : ∀ now ∈ clock, now < reason.reference startedAt →
      Harmless interval (reason.reference startedAt) now) :
    clock.filter (s.shouldAttemptRecovery interval) =
      clock.filter fun now => seconds interval ≤ now - reason.reference startedAt := by
  refine List.filter_congr fun now member => ?_
  rw [Bool.eq_iff_iff, grants_iff resting limited]
  by_cases early : now < reason.reference startedAt
  · have refused := harmless now member early
    rw [elapsed_of_lt early]
    simp only [refused, not_true_eq_false, decide_eq_true_eq, false_iff, seconds]
    omega
  · rw [elapsed_of_le (by omega)]
    simp

/-- What is left of a resting slot once the immediate attempt is made. -/
theorem attempts_eq {onResume : Bool} (resting : s.status = .resting startedAt blockedState onResume)
    (interval : Nat) (clock : List Int) :
    ∃ rest : AgentSlot, rest.status = .resting startedAt blockedState false ∧
      s.attempts interval clock =
        (if onResume then clock.head?.toList else []).map immediate ++
          ((paced onResume clock).filter (rest.shouldAttemptRecovery interval)).map granted := by
  cases onResume with
  | false => exact ⟨s, resting, attempts_of_paced resting clock⟩
  | true =>
      have resumed : s.recordRecoveryAttempt.status = .resting startedAt blockedState false := by
        simp [recordRecoveryAttempt, resting]
      exact ⟨_, resumed, by rw [attempts_of_resume resting, attempts_of_paced resumed]; rfl⟩

end AgentSlot

/-- The distances in a list of attempts of which at most the first is immediate. -/
theorem isChain_attempts {interval : Nat} (first rest : List Int) (short : first.length ≤ 1) :
    (first.map immediate ++ rest.map granted).IsChain
        (fun a b => b.immediate = false → seconds interval ≤ b.time - a.time) ↔
      (first ++ rest).IsChain fun a b => seconds interval ≤ b - a := by
  have paced : (rest.map granted).IsChain
      (fun a b => b.immediate = false → seconds interval ≤ b.time - a.time) ↔
      rest.IsChain fun a b => seconds interval ≤ b - a := by
    simp [List.isChain_map, granted]
  match first with
  | [] => simpa using paced
  | [now] =>
      cases rest with
      | nil => simp
      | cons next rest => simpa [List.isChain_cons_cons, immediate, granted] using fun _ => paced
  | _ :: _ :: _ => simp at short

/-- A resting slot keeps its attempts apart exactly when its reason is no rate limit, or the
    readings of the clock already are. -/
theorem paced_iff_steady (s : AgentSlot) (startedAt : Int) (blockedState : BlockedState)
    (onResume : Bool) (resting : s.status = .resting startedAt blockedState onResume)
    (retryIntervalSecs : Nat) (clock : List Int) :
    Paced retryIntervalSecs startedAt blockedState (s.attempts retryIntervalSecs clock) ↔
      ∀ reason ∈ blockedState.rateLimit,
        Steady retryIntervalSecs (reason.reference startedAt) onResume clock := by
  obtain ⟨rest, resting', made⟩ :=
    AgentSlot.attempts_eq resting retryIntervalSecs clock
  have short : (if onResume then clock.head?.toList else []).length ≤ 1 := by
    cases onResume <;> cases clock <;> simp
  rw [made]
  cases limited : blockedState.rateLimit with
  | none =>
      have never : (paced onResume clock).filter (rest.shouldAttemptRecovery retryIntervalSecs) = [] := by
        simp [AgentSlot.shouldAttemptRecovery, resting', limited]
      rw [never]
      constructor
      · simp
      · intro _
        refine ⟨(isChain_attempts _ [] short).mpr ?_, by simp [limited]⟩
        cases onResume <;> cases clock <;> simp
  | some reason =>
      constructor
      · rintro ⟨apart, late⟩ _ ⟨⟩
        have harmless : ∀ now ∈ paced onResume clock, now < reason.reference startedAt →
            Harmless retryIntervalSecs (reason.reference startedAt) now := by
          intro now member early
          by_contra harmful
          have grants := (AgentSlot.grants_iff resting' limited now).mpr
            ((elapsed_of_lt early).mpr harmful)
          have made := late (granted now)
            (List.mem_append_right _ (List.mem_map_of_mem (List.mem_filter.mpr ⟨member, grants⟩))) rfl
            reason limited
          exact absurd made (by simpa [granted] using early)
        refine ⟨harmless, ?_⟩
        rw [← AgentSlot.filter_grants resting' limited harmless]
        exact (isChain_attempts _ _ short).mp apart
      · intro steady
        obtain ⟨harmless, apart⟩ := steady reason rfl
        rw [AgentSlot.filter_grants resting' limited harmless]
        refine ⟨(isChain_attempts _ _ short).mpr apart, ?_⟩
        intro a member notImmediate _ isReason
        rw [limited] at isReason
        cases isReason
        rcases List.mem_append.mp member with early | later
        · obtain ⟨now, -, rfl⟩ := List.mem_map.mp early
          cases notImmediate
        · obtain ⟨now, isDue, rfl⟩ := List.mem_map.mp later
          have due := (List.mem_filter.mp isDue).2
          simp only [decide_eq_true_eq, seconds] at due
          simp only [granted]
          omega

/-- A slot that went to rest at time zero. -/
def resting (onResume : Bool) : AgentSlot :=
  AgentSlot.restored "agent_001" "alpha" .developer
    (.resting 0 ⟨"rate_limit", .low, none, {}, some { startedAt := 0 }⟩ onResume) ⟨0, 0⟩

/-- Polled every half hour after it was restored. -/
theorem resting_halfHourly : Paced 1800 0 ⟨"rate_limit", .low, none, {}, some { startedAt := 0 }⟩
    ((resting true).attempts 1800 [seconds 60, seconds 1860, seconds 3660]) := by
  rw [paced_iff_steady _ _ _ true rfl]
  rintro _ ⟨⟩
  constructor
  · intro now member early
    simp [paced, seconds, RateLimitBlockedReason.reference] at member early
    omega
  · simp [paced, seconds, RateLimitBlockedReason.reference]

/-- Polled every second, it attempts to recover every second after the first half hour. -/
theorem resting_not_paced : ¬ ∀ (s : AgentSlot) (startedAt : Int) (blockedState : BlockedState)
    (onResume : Bool), s.status = .resting startedAt blockedState onResume →
    ∀ (retryIntervalSecs : Nat) (clock : List Int),
      Paced retryIntervalSecs startedAt blockedState (s.attempts retryIntervalSecs clock) := by
  intro all
  have paced := all (resting false) 0 _ false rfl 1800 [seconds 1800, seconds 1801]
  have attempts : (resting false).attempts 1800 [seconds 1800, seconds 1801] =
      [granted (seconds 1800), granted (seconds 1801)] := rfl
  have apart := paced.apart
  rw [attempts] at apart
  simp [granted, seconds] at apart

end AgileAgent.Core
