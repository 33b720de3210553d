import Mathlib.Data.List.Induction
import Mathlib.Data.List.Count
import AgileAgent.Machine

/-! # What the daemon admits

Connections are counted by all threads at once, each with single atomic steps between which the
others may take theirs: more than the limit are never inside, but while refused ones are still
counted others are refused that there is room for.
-/

namespace AgileAgent.Protocol

/-! ## Connections -/

/-- The counter is shared by all threads. -/
structure ConnectionTracker where
  active : Nat := 0
  max : Nat
  deriving Repr, DecidableEq

namespace ConnectionTracker

/-- The value before the addition is returned. -/
def fetchAdd (tracker : ConnectionTracker) : Nat × ConnectionTracker :=
  (tracker.active, { tracker with active := tracker.active + 1 })

def fetchSub (tracker : ConnectionTracker) : ConnectionTracker :=
  { tracker with active := tracker.active - 1 }

def tryConnect (tracker : ConnectionTracker) : Bool × ConnectionTracker :=
  let (current, tracker) := tracker.fetchAdd
  if tracker.max ≤ current then (false, tracker.fetchSub) else (true, tracker)

def disconnect (tracker : ConnectionTracker) : ConnectionTracker := tracker.fetchSub

end ConnectionTracker

/-- Where the thread of a connection is. -/
inductive Attempt where
  | outside
  /-- It has been counted, and the value before is what it decides by. -/
  | counted (current : Nat)
  | inside
  deriving Repr, DecidableEq

namespace Attempt

def isInside : Attempt → Bool
  | inside => true
  | _ => false

def isCounted : Attempt → Bool
  | counted _ => true
  | _ => false

/-- It is inside or about to be. -/
def holds (max : Nat) : Attempt → Bool
  | outside => false
  | counted current => current < max
  | inside => true

/-- What it adds to the counter. -/
def cost (attempt : Attempt) : Nat := attempt.isInside.toNat + attempt.isCounted.toNat

theorem holds_le_cost (max : Nat) (attempt : Attempt) : (attempt.holds max).toNat ≤ attempt.cost := by
  cases attempt with
  | outside => exact Nat.le_refl _
  | counted current => exact Bool.toNat_le _
  | inside => exact Nat.le_refl _

end Attempt

/-- One atomic step of a thread. -/
inductive Move where
  | adds
  | accepted
  | refused
  | leaves
  | idle
  deriving Repr, DecidableEq

structure Gate where
  tracker : ConnectionTracker
  threads : List Attempt
  deriving Repr, DecidableEq

namespace Gate

def start (max threads : Nat) : Gate where
  tracker := { max := max }
  threads := List.replicate threads .outside

/-- The thread that is given takes its next step: of `try_connect`, or `disconnect`. -/
def step (gate : Gate) (thread : Nat) : Move × Gate :=
  match gate.threads[thread]? with
  | none => (.idle, gate)
  | some .outside =>
      let (current, tracker) := gate.tracker.fetchAdd
      (.adds, ⟨tracker, gate.threads.set thread (.counted current)⟩)
  | some (.counted current) =>
      if gate.tracker.max ≤ current then
        (.refused, ⟨gate.tracker.fetchSub, gate.threads.set thread .outside⟩)
      else (.accepted, ⟨gate.tracker, gate.threads.set thread .inside⟩)
  | some .inside => (.leaves, ⟨gate.tracker.disconnect, gate.threads.set thread .outside⟩)

def inside (gate : Gate) : Nat := gate.threads.countP Attempt.isInside

def counted (gate : Gate) : Nat := gate.threads.countP Attempt.isCounted

/-! ### What every step keeps -/

/-- The counter counts those inside and those on their way, and there is room for all who get in. -/
structure Balanced (gate : Gate) : Prop where
  active : gate.tracker.active = gate.inside + gate.counted
  room : gate.threads.countP (Attempt.holds gate.tracker.max) ≤ gate.tracker.max

variable {gate : Gate}

theorem countP_replicate_outside {p : Attempt → Bool} (outside : p .outside = false) (threads : Nat) :
    (List.replicate threads Attempt.outside).countP p = 0 := by
  rw [List.countP_replicate, outside]
  rfl

theorem start_balanced (max threads : Nat) : (start max threads).Balanced where
  active := by
    rw [inside, counted, start, countP_replicate_outside rfl, countP_replicate_outside rfl]
  room := by
    rw [start, countP_replicate_outside rfl]
    exact Nat.zero_le _

theorem ite_eq_toNat (b : Bool) : (if b = true then 1 else 0) = b.toNat := by cases b <;> rfl

/-- How a thread's step changes a count of threads. -/
theorem countP_step (p : Attempt → Bool) {thread : Nat} {before : Attempt} (after : Attempt)
    (here : gate.threads[thread]? = some before) :
    (gate.threads.set thread after).countP p + (p before).toNat =
      gate.threads.countP p + (p after).toNat := by
  obtain ⟨bound, found⟩ := List.getElem?_eq_some_iff.mp here
  rw [List.countP_set bound, found, ite_eq_toNat, ite_eq_toNat]
  have counted : (p before).toNat ≤ gate.threads.countP p := by
    cases holds : p before with
    | false => exact Nat.zero_le _
    | true =>
        rw [Bool.toNat_true, Nat.succ_le_iff, List.countP_pos_iff]
        exact ⟨before, List.mem_of_getElem? here, holds⟩
  omega

theorem inside_le (balanced : gate.Balanced) : gate.inside ≤ gate.tracker.max := by
  refine Nat.le_trans (List.countP_mono_left ?_) balanced.room
  intro attempt _ inside
  cases attempt with
  | inside => rfl
  | _ => cases inside

/-- Those who get in are inside or counted. -/
theorem holds_le (gate : Gate) :
    gate.threads.countP (Attempt.holds gate.tracker.max) ≤ gate.inside + gate.counted := by
  rw [inside, counted]
  induction gate.threads with
  | nil => exact Nat.le_refl _
  | cons attempt rest ih =>
      have here := attempt.holds_le_cost gate.tracker.max
      rw [Attempt.cost] at here
      simp only [List.countP_cons, ite_eq_toNat]
      omega

theorem step_max (gate : Gate) (thread : Nat) : (gate.step thread).2.tracker.max = gate.tracker.max := by
  unfold step
  split
  · rfl
  · rfl
  · split <;> rfl
  · rfl

theorem Balanced.moved (balanced : gate.Balanced) {thread : Nat} {before after : Attempt}
    {tracker : ConnectionTracker} (here : gate.threads[thread]? = some before)
    (max : tracker.max = gate.tracker.max)
    (active : tracker.active + before.cost = gate.tracker.active + after.cost)
    (room : (after.holds gate.tracker.max).toNat ≤ (before.holds gate.tracker.max).toNat ∨
      gate.tracker.active < gate.tracker.max) :
    Balanced ⟨tracker, gate.threads.set thread after⟩ := by
  have counts := balanced.active
  have fits := balanced.room
  have holders := gate.holds_le
  have insides := countP_step Attempt.isInside after here
  have counteds := countP_step Attempt.isCounted after here
  have holds := countP_step (Attempt.holds gate.tracker.max) after here
  have most := Bool.toNat_le (after.holds gate.tracker.max)
  rw [inside, counted] at counts holders
  rw [Attempt.cost, Attempt.cost] at active
  refine ⟨?_, ?_⟩
  · dsimp only [inside, counted]
    omega
  · dsimp only
    rw [max]
    omega

/-- The counter is not below what a thread adds to it. -/
theorem Balanced.cost_le (balanced : gate.Balanced) {thread : Nat} {before : Attempt}
    (here : gate.threads[thread]? = some before) : before.cost ≤ gate.tracker.active := by
  have counts := balanced.active
  have insides := countP_step Attempt.isInside .outside here
  have counteds := countP_step Attempt.isCounted .outside here
  rw [inside, counted] at counts
  have gone : (Attempt.isInside .outside).toNat = 0 ∧ (Attempt.isCounted .outside).toNat = 0 :=
    ⟨rfl, rfl⟩
  rw [Attempt.cost]
  omega

theorem Balanced.step (balanced : gate.Balanced) (thread : Nat) : (gate.step thread).2.Balanced := by
  unfold Gate.step
  split
  · exact balanced
  · next here =>
      refine balanced.moved here rfl rfl ?_
      by_cases full : gate.tracker.max ≤ gate.tracker.active
      · exact .inl (by simp [Attempt.holds, ConnectionTracker.fetchAdd, Nat.not_lt_of_le full])
      · exact .inr (Nat.lt_of_not_le full)
  · next current here =>
      split
      · exact balanced.moved here rfl (Nat.sub_add_cancel (balanced.cost_le here)) (.inl (Nat.zero_le _))
      · next free =>
          exact balanced.moved here rfl rfl (.inl (by simp [Attempt.holds, Nat.lt_of_not_le free]))
  · next here =>
      exact balanced.moved here rfl (Nat.sub_add_cancel (balanced.cost_le here)) (.inl (Nat.zero_le _))

/-! ### Over a run -/

abbrev GateStep := Machine.Step Gate Nat Move

/-- The thread was counted earlier in the run, where so many were active, and has not moved since. -/
def CountedAt (run : List GateStep) (thread active : Nat) : Prop :=
  ∃ earlier y between, run = earlier ++ y :: between ∧ y.event = thread ∧ y.output = .adds ∧
    y.before.tracker.active = active ∧ ∀ z ∈ between, z.event ≠ thread

theorem CountedAt.snoc {run : List GateStep} {thread active : Nat} (counted : CountedAt run thread active)
    {x : GateStep} (other : x.event ≠ thread) : CountedAt (run ++ [x]) thread active := by
  obtain ⟨earlier, y, between, rfl, event, output, before, quiet⟩ := counted
  refine ⟨earlier, y, between ++ [x], by rw [List.append_assoc, List.cons_append], event, output, before,
    ?_⟩
  intro z member
  rcases List.mem_append.mp member with inside | last
  · exact quiet z inside
  · rw [List.mem_singleton] at last
    exact last ▸ other

theorem getElem?_step_other {thread other : Nat} (apart : other ≠ thread) :
    (gate.step other).2.threads[thread]? = gate.threads[thread]? := by
  unfold step
  split
  · rfl
  · exact List.getElem?_set_ne apart
  · split <;> exact List.getElem?_set_ne apart
  · exact List.getElem?_set_ne apart

/-- A thread that is counted after its step has been counted by it. -/
theorem step_counted {thread current : Nat}
    (after : (gate.step thread).2.threads[thread]? = some (.counted current)) :
    (gate.step thread).1 = .adds ∧ gate.tracker.active = current := by
  have set_self : ∀ {before attempt : Attempt}, gate.threads[thread]? = some before →
      (gate.threads.set thread attempt)[thread]? = some attempt := by
    intro before attempt here
    exact List.getElem?_set_self (List.getElem?_eq_some_iff.mp here).1
  unfold step at after ⊢
  split at after
  · next none =>
      rw [none] at after
      cases after
  · next here =>
      rw [set_self here] at after
      cases after
      exact ⟨rfl, rfl⟩
  · next here =>
      split at after <;> rw [set_self here] at after <;> cases after
  · next here =>
      rw [set_self here] at after
      cases after

/-- A thread gets in or is refused by the value it was counted with. -/
theorem step_decides {thread : Nat}
    (decided : (gate.step thread).1 = .accepted ∨ (gate.step thread).1 = .refused) :
    ∃ current, gate.threads[thread]? = some (.counted current) ∧
      ((gate.step thread).1 = .accepted ↔ current < gate.tracker.max) := by
  unfold step at decided ⊢
  split at decided
  · rcases decided with accepted | refused
    · cases accepted
    · cases refused
  · rcases decided with accepted | refused
    · cases accepted
    · cases refused
  · next current counted =>
      refine ⟨current, counted, ?_⟩
      by_cases full : gate.tracker.max ≤ current <;> simp [full]
      omega
  · rcases decided with accepted | refused
    · cases accepted
    · cases refused

theorem run_counted (max threads : Nat) (schedule : List Nat) :
    ∀ thread current,
      (Machine.final step (start max threads) schedule).threads[thread]? = some (.counted current) →
        CountedAt (Machine.history step (start max threads) schedule) thread current := by
  induction schedule using List.reverseRecOn with
  | nil =>
      intro thread current here
      have member := List.eq_of_mem_replicate (List.mem_of_getElem? here)
      cases member
  | append_singleton schedule moved ih =>
      intro thread current here
      rw [Machine.final_snoc] at here
      rw [Machine.history_snoc]
      by_cases same : moved = thread
      · subst same
        obtain ⟨adds, active⟩ := step_counted here
        refine ⟨_, _, [], rfl, rfl, adds, active, ?_⟩
        intro z member
        cases member
      · rw [getElem?_step_other same] at here
        exact (ih thread current here).snoc same

theorem run_balanced (max threads : Nat) (schedule : List Nat) :
    (Machine.final step (start max threads) schedule).Balanced ∧
      (Machine.final step (start max threads) schedule).tracker.max = max := by
  induction schedule using List.reverseRecOn with
  | nil => exact ⟨start_balanced max threads, rfl⟩
  | append_singleton schedule thread ih =>
      rw [Machine.final_snoc]
      exact ⟨ih.1.step thread, (step_max _ thread).trans ih.2⟩

/-- Which threads move in which order, never more than the limit are inside, and the counter is the
    number of those inside and of those that are counted and have not decided. A thread decides by
    that number as it was when it was counted: it gets in if it was below the limit and is refused
    if it was not. -/
theorem connections_limited (max threads : Nat) (schedule : List Nat) (front back : List GateStep)
    (x : GateStep) (whole : Machine.history step (start max threads) schedule = front ++ x :: back) :
    (x.after.inside ≤ max ∧ x.after.tracker.active = x.after.inside + x.after.counted) ∧
      (x.output = .accepted ∨ x.output = .refused →
        ∃ earlier y between, front = earlier ++ y :: between ∧ y.event = x.event ∧
          y.output = .adds ∧ (∀ z ∈ between, z.event ≠ x.event) ∧
          (x.output = .accepted ↔ y.before.inside + y.before.counted < max)) := by
  obtain ⟨schedule, rfl, here⟩ := Machine.history_before whole
  obtain ⟨balanced, limit⟩ := run_balanced max threads schedule
  have next := balanced.step x.event
  have same : x.after = ((Machine.final step (start max threads) schedule).step x.event).2 :=
    congrArg (·.after) here
  constructor
  · rw [same]
    refine ⟨?_, next.active⟩
    have fits := inside_le next
    rwa [step_max, limit] at fits
  · intro decided
    have output : x.output = ((Machine.final step (start max threads) schedule).step x.event).1 :=
      congrArg (·.output) here
    rw [output] at decided ⊢
    obtain ⟨current, counted, decides⟩ := step_decides decided
    rw [limit] at decides
    obtain ⟨earlier, y, between, split, event, adds, active, quiet⟩ :=
      run_counted max threads schedule x.event current counted
    refine ⟨earlier, y, between, split, event, adds, quiet, ?_⟩
    obtain ⟨before, -, first⟩ := Machine.history_before split
    have balanced_then := (run_balanced max threads before).1.active
    have state : y.before = Machine.final step (start max threads) before := congrArg (·.before) first
    rw [decides, ← active, state, balanced_then]

/-- The last thread is refused though nobody is inside: one that is to be refused is still counted. -/
def crowded : List GateStep := Machine.history step (start 1 3) [0, 0, 1, 0, 2, 2]

theorem crowded_limited : ∃ earlier y between, crowded.take 5 = earlier ++ y :: between ∧
    y.event = 2 ∧ y.output = .adds ∧ (∀ z ∈ between, z.event ≠ 2) ∧
      (Move.refused = .accepted ↔ y.before.inside + y.before.counted < 1) :=
  (connections_limited 1 3 [0, 0, 1, 0, 2, 2] (crowded.take 5) [] crowded[5] rfl).2 (.inr rfl)

end Gate

end AgileAgent.Protocol
