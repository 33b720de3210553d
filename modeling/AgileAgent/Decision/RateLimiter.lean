import Mathlib.Data.List.Nodup
import AgileAgent.DecisionDsl.Host
import AgileAgent.Machine

/-! # The rate limiter

A counter of the requests of the current minute and a queue of the agents that wait for a later one.
Points in time count nanoseconds; one call reads the clock once.
-/

namespace AgileAgent.Decision

open DecisionDsl (durationSince fromMillis)
open Machine

abbrev DecisionAgentId := String

inductive RateLimitResult where
  | allowed (agentId : DecisionAgentId)
  | waiting (position : Nat)
  | dequeuedAllowed (agentId : DecisionAgentId) (originalPosition : Nat)
  deriving Repr, DecidableEq

structure DecisionRateLimiter where
  requestsPerMinute : Nat
  currentCount : Nat
  minuteStart : Nat
  waiting : List DecisionAgentId
  deriving Repr, DecidableEq

namespace DecisionRateLimiter

/-- `DecisionRateLimiter::new`. -/
def create (requestsPerMinute now : Nat) : DecisionRateLimiter :=
  { requestsPerMinute, currentCount := 0, minuteStart := now, waiting := [] }

/-- Whether more than a minute has passed since the start of the current one. -/
def minutePassed (l : DecisionRateLimiter) (now : Nat) : Bool :=
  fromMillis 60000 < durationSince now l.minuteStart

/-- The loop over the waiting agents at the start of a minute: whether it came to the caller, the
    counter and the agents that are left. -/
def drain (limit : Nat) (agentId : DecisionAgentId) :
    Nat → List DecisionAgentId → Bool × Nat × List DecisionAgentId
  | count, [] => (false, count, [])
  | count, waitingId :: rest =>
      if count < limit then
        if waitingId = agentId then (true, count + 1, rest)
        else drain limit agentId (count + 1) rest
      else (false, count, waitingId :: rest)

/-- `if let Some(pos) = … { waiting.remove(pos) }`. -/
def removeAt (waiting : List DecisionAgentId) : Option Nat → List DecisionAgentId
  | some position => waiting.eraseIdx position
  | none => waiting

/-- The reset of the counter for a new minute. -/
def resetMinute (l : DecisionRateLimiter) (now : Nat) : DecisionRateLimiter :=
  if l.minutePassed now then { l with currentCount := 0, minuteStart := now } else l

def check (l : DecisionRateLimiter) (agentId : DecisionAgentId) (now : Nat) :
    RateLimitResult × DecisionRateLimiter :=
  let reset := l.resetMinute now
  let inWaiting := reset.waiting.findIdx? (· = agentId)
  let (dequeued, currentCount, waiting) :=
    if l.minutePassed now then drain reset.requestsPerMinute agentId reset.currentCount reset.waiting
    else (false, reset.currentCount, reset.waiting)
  let left := { reset with currentCount, waiting }
  if dequeued then (.dequeuedAllowed agentId 1, left)
  else if left.currentCount < left.requestsPerMinute then
    (.allowed agentId, { left with
      waiting := removeAt left.waiting inWaiting
      currentCount := left.currentCount + 1 })
  else
    let waiting := if inWaiting.isNone then left.waiting ++ [agentId] else left.waiting
    let position := ((waiting.findIdx? (· = agentId)).map (· + 1)).getD waiting.length
    (.waiting position, { left with waiting })

def cancelWaiting (l : DecisionRateLimiter) (agentId : DecisionAgentId) : Bool × DecisionRateLimiter :=
  match l.waiting.findIdx? (· = agentId) with
  | some position => (true, { l with waiting := l.waiting.eraseIdx position })
  | none => (false, l)

inductive Call where
  | check (agentId : DecisionAgentId) (now : Nat)
  | cancelWaiting (agentId : DecisionAgentId)
  deriving Repr, DecidableEq

inductive Answer where
  | result (result : RateLimitResult)
  | cancelled (removed : Bool)
  deriving Repr, DecidableEq

def call (l : DecisionRateLimiter) : Call → Answer × DecisionRateLimiter
  | .check agentId now => (.result (l.check agentId now).1, (l.check agentId now).2)
  | .cancelWaiting agentId => (.cancelled (l.cancelWaiting agentId).1, (l.cancelWaiting agentId).2)

/-- The agent that an answer lets through. -/
def Answer.permits : Answer → Option DecisionAgentId
  | .result (.allowed agentId) => some agentId
  | .result (.dequeuedAllowed agentId _) => some agentId
  | _ => none

/-- The clock reading of a call. -/
def Call.instant : Call → Option Nat
  | .check _ now => some now
  | .cancelWaiting _ => none

/-! ## What a check does -/

/-- A request of the minute that a check belongs to is left. -/
def slotFree (l : DecisionRateLimiter) (now : Nat) : Bool :=
  if l.minutePassed now then 0 < l.requestsPerMinute else l.currentCount < l.requestsPerMinute

/-- Nobody waits twice, and the counter is within the limit. -/
structure Kept (l : DecisionRateLimiter) : Prop where
  distinct : l.waiting.Nodup
  within : l.currentCount ≤ l.requestsPerMinute

theorem create_kept (limit now : Nat) : Kept (create limit now) := ⟨List.nodup_nil, Nat.zero_le _⟩

/-- What the loop can do: it serves a front part of the queue, ends with the caller or with no
    request or no agent left. -/
structure Drained (limit : Nat) (agentId : DecisionAgentId) (count : Nat) (waiting : List DecisionAgentId)
    (result : Bool × Nat × List DecisionAgentId) : Prop where
  suffix : result.2.2 <:+ waiting
  within : result.2.1 ≤ limit
  counts : count + (if result.1 then 1 else 0) ≤ result.2.1
  exhausted : result.1 = false → result.2.1 < limit → result.2.2 = []
  caller : result.1 = false → agentId ∈ waiting → agentId ∈ result.2.2

theorem drain_drained (limit : Nat) (agentId : DecisionAgentId) (waiting : List DecisionAgentId) :
    ∀ count ≤ limit, Drained limit agentId count waiting (drain limit agentId count waiting) := by
  induction waiting with
  | nil => exact fun count within => ⟨List.suffix_refl _, within, le_rfl, fun _ _ => rfl, fun _ => id⟩
  | cons waitingId rest ih =>
      intro count within
      unfold drain
      split
      · rename_i below
        split
        · refine ⟨List.suffix_cons _ _, below, le_rfl, ?_, ?_⟩ <;> rintro ⟨⟩
        · rename_i other
          obtain ⟨suffix, within', counts, exhausted, caller⟩ := ih (count + 1) below
          refine ⟨suffix.trans (List.suffix_cons _ _), within', by omega, exhausted, ?_⟩
          intro unserved member
          exact caller unserved ((List.mem_cons.mp member).resolve_left (Ne.symm other))
      · rename_i full
        exact ⟨List.suffix_refl _, within, le_rfl, fun _ below => absurd below full, fun _ => id⟩

theorem drain_full {limit count : Nat} (full : limit ≤ count) (agentId : DecisionAgentId)
    (waiting : List DecisionAgentId) : drain limit agentId count waiting = (false, count, waiting) := by
  cases waiting with
  | nil => rfl
  | cons waitingId rest => rw [drain, if_neg (Nat.not_lt.mpr full)]

/-- The counter that a check starts with. -/
def base (l : DecisionRateLimiter) (now : Nat) : Nat := if l.minutePassed now then 0 else l.currentCount

/-- The minute that a check belongs to. -/
def window (l : DecisionRateLimiter) (now : Nat) : Nat := if l.minutePassed now then now else l.minuteStart

theorem slotFree_iff (l : DecisionRateLimiter) (now : Nat) :
    l.slotFree now ↔ l.base now < l.requestsPerMinute := by
  unfold slotFree base
  split <;> simp

/-- The waiting agents that the start of a minute leaves, with the counter. -/
def drained (l : DecisionRateLimiter) (agentId : DecisionAgentId) (now : Nat) :
    Bool × Nat × List DecisionAgentId :=
  if l.minutePassed now then drain l.requestsPerMinute agentId 0 l.waiting
  else (false, l.currentCount, l.waiting)

theorem check_eq (l : DecisionRateLimiter) (agentId : DecisionAgentId) (now : Nat) :
    l.check agentId now =
      let d := l.drained agentId now
      let left : DecisionRateLimiter := ⟨l.requestsPerMinute, d.2.1, l.window now, d.2.2⟩
      let inWaiting := l.waiting.findIdx? (· = agentId)
      if d.1 then (.dequeuedAllowed agentId 1, left)
      else if d.2.1 < l.requestsPerMinute then
        (.allowed agentId, { left with
          waiting := removeAt d.2.2 inWaiting
          currentCount := d.2.1 + 1 })
      else
        let waiting := if inWaiting.isNone then d.2.2 ++ [agentId] else d.2.2
        (.waiting (((waiting.findIdx? (· = agentId)).map (· + 1)).getD waiting.length),
          { left with waiting }) := by
  cases passed : l.minutePassed now with
  | true => simp only [check, resetMinute, drained, window, passed, if_true]
  | false => simp only [check, resetMinute, drained, window, passed, Bool.false_eq_true, if_false]

theorem removeAt_sublist (waiting : List DecisionAgentId) (position : Option Nat) :
    (removeAt waiting position).Sublist waiting := by
  cases position with
  | none => exact List.Sublist.refl _
  | some position => exact List.eraseIdx_sublist _ _

theorem removeAt_eq (waiting : List DecisionAgentId) (agentId : DecisionAgentId) :
    removeAt waiting (waiting.findIdx? (· = agentId)) = waiting.eraseP (· = agentId) := by
  rw [List.eraseP_eq_eraseIdx]
  cases waiting.findIdx? (· = agentId) <;> rfl

theorem drained_spec {l : DecisionRateLimiter} (kept : Kept l) (agentId : DecisionAgentId) (now : Nat) :
    (l.drained agentId now).2.2 <:+ l.waiting ∧
      (l.drained agentId now).2.1 ≤ l.requestsPerMinute ∧
      l.base now + (if (l.drained agentId now).1 then 1 else 0) ≤ (l.drained agentId now).2.1 ∧
      ((l.drained agentId now).1 = false → agentId ∈ l.waiting →
        agentId ∈ (l.drained agentId now).2.2) := by
  unfold drained base
  split
  · obtain ⟨suffix, within, counts, -, caller⟩ :=
      drain_drained l.requestsPerMinute agentId l.waiting 0 (Nat.zero_le _)
    exact ⟨suffix, within, counts, caller⟩
  · exact ⟨List.suffix_refl _, kept.within, le_rfl, fun _ => id⟩

/-- What every check does: it answers its caller alone, counts every permission, and keeps the
    waiting agents in their order with a new one at the end. -/
structure Checked (l : DecisionRateLimiter) (agentId : DecisionAgentId) (now : Nat) : Prop where
  limit : (l.check agentId now).2.requestsPerMinute = l.requestsPerMinute
  window : (l.check agentId now).2.minuteStart = l.window now
  permits : ∀ a, (Answer.result (l.check agentId now).1).permits = some a → a = agentId
  counts : l.base now + (if (Answer.result (l.check agentId now).1).permits.isSome then 1 else 0) ≤
    (l.check agentId now).2.currentCount
  queue : (l.check agentId now).2.waiting.Sublist (l.waiting ++ [agentId])
  kept : Kept (l.check agentId now).2

theorem check_checked {l : DecisionRateLimiter} (kept : Kept l) (agentId : DecisionAgentId) (now : Nat) :
    Checked l agentId now := by
  obtain ⟨suffix, within, counts, caller⟩ := drained_spec kept agentId now
  have front : l.waiting.Sublist (l.waiting ++ [agentId]) := List.sublist_append_left _ _
  have eq := check_eq l agentId now
  generalize l.drained agentId now = d at *
  simp only at eq
  split at eq
  · rename_i dequeued
    rw [if_pos dequeued] at counts
    constructor <;> rw [eq]
    case permits => exact fun a isCaller => (Option.some.inj isCaller).symm
    case counts => exact counts
    case queue => exact suffix.sublist.trans front
    case kept => exact ⟨kept.distinct.sublist suffix.sublist, within⟩
  · rename_i unserved
    rw [if_neg unserved] at counts
    split at eq
    · rename_i below
      have left := (removeAt_sublist d.2.2 (l.waiting.findIdx? (· = agentId))).trans suffix.sublist
      constructor <;> rw [eq]
      case permits => exact fun a isCaller => (Option.some.inj isCaller).symm
      case counts => exact Nat.succ_le_succ counts
      case queue => exact left.trans front
      case kept => exact ⟨kept.distinct.sublist left, below⟩
    · have queue : (if (l.waiting.findIdx? (· = agentId)).isNone then d.2.2 ++ [agentId] else d.2.2).Sublist
          (l.waiting ++ [agentId]) := by
        split
        · exact suffix.sublist.append_right [agentId]
        · exact suffix.sublist.trans front
      constructor <;> rw [eq]
      case permits => rintro _ ⟨⟩
      case counts => exact counts
      case queue => exact queue
      case kept =>
        refine ⟨?_, within⟩
        have distinct := kept.distinct.sublist suffix.sublist
        show (if (l.waiting.findIdx? (· = agentId)).isNone then d.2.2 ++ [agentId] else d.2.2).Nodup
        split
        · rename_i absent
          rw [Option.isNone_iff_eq_none, List.findIdx?_eq_none_iff] at absent
          refine distinct.append (List.nodup_singleton _) ?_
          rw [List.disjoint_singleton]
          intro member
          simpa using absent agentId (suffix.subset member)
        · exact distinct

/-! ## Fairness -/

/-- What a step has to do for the agents that wait: they leave the queue only with a permission of
    their own or by cancelling, a permission goes to the one that waits longest if anybody waits, and
    the queue stays in the order in which they began to wait. -/
structure Fair (x : Step DecisionRateLimiter Call Answer) : Prop where
  leaves : ∀ a ∈ x.before.waiting, a ∉ x.after.waiting →
    x.output.permits = some a ∨ x.event = .cancelWaiting a
  inOrder : ∀ a, x.output.permits = some a →
    x.before.waiting = [] ∨ x.before.waiting.head? = some a
  queue : ∀ a now, x.event = .check a now → x.after.waiting.Sublist (x.before.waiting ++ [a])

/-- A check that finds a free request comes when nobody waits, or from the agent that waits longest. -/
def TakesTurn (l : DecisionRateLimiter) : Call → Prop
  | .check agentId now => l.slotFree now → l.waiting = [] ∨ l.waiting.head? = some agentId
  | .cancelWaiting _ => True

variable {l : DecisionRateLimiter} {agentId : DecisionAgentId} {now : Nat}

theorem check_full (agentId : DecisionAgentId) (full : l.slotFree now = false) :
    (Answer.result (l.check agentId now).1).permits = none ∧
      (l.check agentId now).2.waiting =
        if agentId ∈ l.waiting then l.waiting else l.waiting ++ [agentId] := by
  have none_left : l.requestsPerMinute ≤ l.base now := by
    rw [← Nat.not_lt, ← slotFree_iff, full]
    exact Bool.false_ne_true
  have drained : l.drained agentId now = (false, l.base now, l.waiting) := by
    unfold drained base at *
    split
    · rename_i passed
      rw [if_pos passed] at none_left
      exact drain_full none_left agentId l.waiting
    · rfl
  rw [check_eq]
  simp only [drained, Bool.false_eq_true, if_false, if_neg (Nat.not_lt.mpr none_left)]
  refine ⟨rfl, ?_⟩
  by_cases member : agentId ∈ l.waiting
  · have found : (l.waiting.findIdx? (· = agentId)).isNone = false := by
      simpa using member
    rw [found, if_neg Bool.false_ne_true, if_pos member]
  · have absent : (l.waiting.findIdx? (· = agentId)).isNone := by
      simp only [Option.isNone_iff_eq_none, List.findIdx?_eq_none_iff, decide_eq_false_iff_not]
      rintro a inQueue rfl
      exact member inQueue
    rw [if_pos absent, if_neg member]

/-- The agent that waits longest, or the only one there is, takes the free request. -/
theorem check_first (free : l.slotFree now)
    (turn : l.waiting = [] ∨ l.waiting.head? = some agentId) :
    (Answer.result (l.check agentId now).1).permits = some agentId ∧
      (l.check agentId now).2.waiting = l.waiting.tail := by
  rw [slotFree_iff] at free
  rw [check_eq]
  unfold drained base at *
  cases passed : l.minutePassed now with
  | true =>
      rw [passed, if_pos rfl] at free
      rw [if_pos rfl]
      cases waiting : l.waiting with
      | nil => simp [drain, free, Answer.permits, removeAt]
      | cons first rest =>
          rw [waiting] at turn
          have isFirst : first = agentId := by simpa using turn
          simp [drain, free, isFirst, Answer.permits]
  | false =>
      rw [passed, if_neg Bool.false_ne_true] at free
      rw [if_neg Bool.false_ne_true]
      simp only [Bool.false_eq_true, if_false, if_pos free, removeAt_eq]
      refine ⟨rfl, ?_⟩
      cases waiting : l.waiting with
      | nil => rfl
      | cons first rest =>
          rw [waiting] at turn
          have isFirst : first = agentId := by simpa using turn
          simp [isFirst]

/-- Out of turn, the agent that waits longest loses its place, or sees another one let through. -/
theorem check_out_of_turn (free : l.slotFree now) (kept : Kept l) {first : DecisionAgentId}
    (waits : l.waiting.head? = some first) (other : first ≠ agentId) :
    first ∉ (l.check agentId now).2.waiting ∨
      (Answer.result (l.check agentId now).1).permits = some agentId := by
  rw [slotFree_iff] at free
  rw [check_eq]
  unfold drained base at *
  cases passed : l.minutePassed now with
  | false =>
      rw [passed, if_neg Bool.false_ne_true] at free
      right
      simp only [Bool.false_eq_true, if_false, if_pos free]
      rfl
  | true =>
      rw [passed, if_pos rfl] at free
      left
      obtain ⟨rest, waiting⟩ := List.head?_eq_some_iff.mp waits
      have distinct := kept.distinct
      rw [waiting, List.nodup_cons] at distinct
      obtain ⟨suffix, -, -, exhausted, -⟩ := drain_drained l.requestsPerMinute agentId rest 1 free
      have gone : first ∉ (drain l.requestsPerMinute agentId 1 rest).2.2 :=
        fun member => distinct.1 (suffix.subset member)
      rw [if_pos rfl, waiting, drain, if_pos free, if_neg other]
      simp only
      split
      · exact gone
      · split
        · exact fun member => gone ((removeAt_sublist _ _).subset member)
        · split
          · exact fun member => (List.mem_append.mp member).elim gone
              fun new => other (List.mem_singleton.mp new)
          · exact gone

theorem cancelWaiting_waiting (l : DecisionRateLimiter) (agentId : DecisionAgentId) :
    (l.cancelWaiting agentId).2 = { l with waiting := l.waiting.eraseP (· = agentId) } := by
  rw [cancelWaiting, List.eraseP_eq_eraseIdx]
  cases l.waiting.findIdx? (· = agentId) <;> rfl

theorem call_kept (kept : Kept l) (c : Call) : Kept (l.call c).2 := by
  cases c with
  | check agentId now => exact (check_checked kept agentId now).kept
  | cancelWaiting agentId =>
      rw [call, cancelWaiting_waiting]
      exact ⟨kept.distinct.sublist List.eraseP_sublist, kept.within⟩

theorem check_fair_iff (kept : Kept l) :
    Fair ⟨l, .check agentId now, (l.call (.check agentId now)).1, (l.call (.check agentId now)).2⟩ ↔
      TakesTurn l (.check agentId now) := by
  have checked := check_checked kept agentId now
  have queue : ∀ a at_, Call.check agentId now = .check a at_ →
      (l.check agentId now).2.waiting.Sublist (l.waiting ++ [a]) := by
    rintro _ _ ⟨⟩
    exact checked.queue
  constructor
  · intro fair free
    cases waiting : l.waiting with
    | nil => exact Or.inl rfl
    | cons first rest =>
        right
        by_contra other
        have waits : l.waiting.head? = some first := by rw [waiting]; rfl
        have apart : first ≠ agentId := fun same => other (by rw [same]; rfl)
        rcases check_out_of_turn free kept waits apart with gone | through
        · have inQueue : first ∈ l.waiting := by rw [waiting]; exact List.mem_cons_self
          rcases fair.leaves first inQueue gone with permitted | cancelled
          · exact apart (checked.permits first permitted)
          · cases cancelled
        · rcases fair.inOrder agentId through with nobody | first_is
          · exact List.cons_ne_nil _ _ (waiting.symm.trans nobody)
          · exact apart (Option.some.inj (waits.symm.trans first_is))
  · intro turn
    cases free : l.slotFree now with
    | false =>
        obtain ⟨refused, waiting⟩ := check_full agentId free
        refine ⟨?_, ?_, queue⟩
        · intro a inQueue gone
          refine absurd ?_ gone
          show a ∈ (l.check agentId now).2.waiting
          rw [waiting]
          split
          · exact inQueue
          · exact List.mem_append_left _ inQueue
        · intro a permitted
          cases refused.symm.trans permitted
    | true =>
        obtain ⟨permitted, waiting⟩ := check_first free (turn free)
        refine ⟨?_, ?_, queue⟩
        · intro a inQueue gone
          left
          replace gone : a ∉ l.waiting.tail := waiting ▸ gone
          rcases turn free with nobody | first_is
          · rw [nobody] at inQueue
            cases inQueue
          · obtain ⟨rest, whole⟩ := List.head?_eq_some_iff.mp first_is
            rw [whole] at inQueue gone
            rw [(List.mem_cons.mp inQueue).resolve_right gone]
            exact permitted
        · intro a permitted'
          rw [checked.permits a permitted']
          exact turn free

theorem call_fair_iff (kept : Kept l) (c : Call) :
    Fair ⟨l, c, (l.call c).1, (l.call c).2⟩ ↔ TakesTurn l c := by
  cases c with
  | check agentId now => exact check_fair_iff kept
  | cancelWaiting agentId =>
      refine iff_of_true ⟨?_, ?_, ?_⟩ trivial
      · intro a inQueue gone
        right
        by_contra other
        refine gone ?_
        rw [call, cancelWaiting_waiting]
        have apart : a ≠ agentId := fun same => other (by rw [same])
        exact (List.mem_eraseP_of_neg (by simpa using apart)).mpr inQueue
      · rintro a ⟨⟩
      · rintro a now ⟨⟩

/-! ## The limit of a minute -/

/-- How many permissions a run gives in the minute that starts at a point in time. -/
def permissions (start : Nat) (steps : List (Step DecisionRateLimiter Call Answer)) : Nat :=
  steps.countP fun x => x.output.permits.isSome && x.after.minuteStart = start

theorem permissions_cons (start : Nat) (x : Step DecisionRateLimiter Call Answer)
    (rest : List (Step DecisionRateLimiter Call Answer)) :
    permissions start (x :: rest) =
      permissions start rest + if x.output.permits.isSome && x.after.minuteStart = start then 1 else 0 :=
  List.countP_cons

/-- A step stays in its minute and counts its permission, or begins a later minute with it. -/
theorem call_counts (kept : Kept l) (c : Call) :
    (l.call c).2.requestsPerMinute = l.requestsPerMinute ∧
      ((l.call c).2.minuteStart = l.minuteStart ∧
          l.currentCount + (if (l.call c).1.permits.isSome then 1 else 0) ≤ (l.call c).2.currentCount ∨
        l.minuteStart < (l.call c).2.minuteStart ∧
          (if (l.call c).1.permits.isSome then 1 else 0) ≤ (l.call c).2.currentCount) := by
  cases c with
  | cancelWaiting agentId =>
      simp only [call, cancelWaiting_waiting]
      exact ⟨trivial, Or.inl ⟨trivial, le_rfl⟩⟩
  | check agentId now =>
      obtain ⟨limit, window_eq, -, counts, -, -⟩ := check_checked kept agentId now
      refine ⟨limit, ?_⟩
      simp only [call, window_eq]
      unfold window base at *
      cases passed : l.minutePassed now with
      | true =>
          have elapsed := of_decide_eq_true passed
          unfold durationSince at elapsed
          rw [passed, if_pos rfl, Nat.zero_add] at counts
          rw [if_pos rfl]
          exact Or.inr ⟨by omega, counts⟩
      | false =>
          rw [passed, if_neg Bool.false_ne_true] at counts
          rw [if_neg Bool.false_ne_true]
          exact Or.inl ⟨rfl, counts⟩

/-- A minute that is over gets no more permissions. -/
theorem permissions_past (kept : Kept l) (calls : List Call) {start : Nat} (past : start < l.minuteStart) :
    permissions start (history call l calls) = 0 := by
  induction calls generalizing l with
  | nil => rfl
  | cons c rest ih =>
      have later : l.minuteStart ≤ (l.call c).2.minuteStart := by
        rcases (call_counts kept c).2 with ⟨same, -⟩ | ⟨after, -⟩
        · exact Nat.le_of_eq same.symm
        · exact Nat.le_of_lt after
      have other : (l.call c).2.minuteStart ≠ start := by omega
      rw [history_cons, permissions_cons, ih (call_kept kept c) (Nat.lt_of_lt_of_le past later)]
      simp [other]

/-- No minute gets more permissions than the limit, what the counter holds already included. -/
theorem permissions_bounded (kept : Kept l) (calls : List Call) (start : Nat) :
    permissions start (history call l calls) + (if start = l.minuteStart then l.currentCount else 0) ≤
      l.requestsPerMinute := by
  induction calls generalizing l with
  | nil =>
      have := kept.within
      rw [history_nil, permissions, List.countP_nil]
      split <;> omega
  | cons c rest ih =>
      obtain ⟨limit, minute⟩ := call_counts kept c
      have later := ih (call_kept kept c)
      rw [limit] at later
      rw [history_cons, permissions_cons]
      rcases minute with ⟨same, counted⟩ | ⟨after, counted⟩
      · rw [same] at later ⊢
        by_cases here : start = l.minuteStart
        · rw [if_pos here] at later ⊢
          simp only [here, decide_true, Bool.and_true] at later ⊢
          omega
        · rw [if_neg here] at later ⊢
          simpa [Ne.symm here] using later
      · by_cases here : start = (l.call c).2.minuteStart
        · have other : start ≠ l.minuteStart := by omega
          rw [if_pos here] at later
          rw [if_neg other]
          simp only [here, decide_true, Bool.and_true] at later ⊢
          omega
        · simp only [Ne.symm here, decide_false, Bool.and_false, Bool.false_eq_true, if_false]
          split
          · rename_i before
            have past := permissions_past (call_kept kept c) rest (before ▸ after)
            have := kept.within
            omega
          · omega

/-! ## Runs -/

/-- In every run the limit holds for each minute; nobody loses a place or is overtaken exactly when
    every check that finds a free request comes in turn. -/
theorem run_fair_iff (limit start : Nat) (calls : List Call) :
    ((∀ minute, permissions minute (history call (create limit start) calls) ≤ limit) ∧
        ∀ x ∈ history call (create limit start) calls, Fair x) ↔
      ∀ x ∈ history call (create limit start) calls, TakesTurn x.before x.event := by
  have kept := create_kept limit start
  have bounded : ∀ minute, permissions minute (history call (create limit start) calls) ≤ limit :=
    fun minute => le_trans (Nat.le_add_right _ _) (permissions_bounded kept calls minute)
  rw [and_iff_right bounded]
  exact history_exact (fun _ c kept => call_fair_iff kept c) (fun _ c kept _ => call_kept kept c) kept

/-- With one request a minute, an agent that waits is dropped when another one comes first in the
    next minute. -/
theorem waiting_agent_dropped : ¬ ∀ (limit start : Nat) (calls : List Call),
    (start :: calls.filterMap Call.instant).Pairwise (· ≤ ·) →
      (∀ minute, permissions minute (history call (create limit start) calls) ≤ limit) ∧
        ∀ x ∈ history call (create limit start) calls, Fair x := by
  intro all
  have fair := (all 1 0 [.check "a" 0, .check "b" 1, .check "c" 60000000001] (by decide)).2
  have step := fair _ (List.mem_cons_of_mem _ (List.mem_cons_of_mem _ List.mem_cons_self))
  rcases step.leaves "b" (by decide) (by decide) with permitted | cancelled
  · exact absurd permitted (by decide)
  · cases cancelled

end DecisionRateLimiter

end AgileAgent.Decision
