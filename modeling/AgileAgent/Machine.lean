import Mathlib.Data.List.Basic

/-! # Histories of a deterministic machine

A machine takes one event at a time and answers each with an output and its next state.
The history of a run keeps every step, so that statements about runs are statements about
lists of steps.
-/

namespace Machine

universe u v w

structure Step (S : Type u) (E : Type v) (O : Type w) where
  before : S
  event : E
  output : O
  after : S

variable {S : Type u} {E : Type v} {O : Type w} {step : S → E → O × S}

/-- The steps of a run, in their order. -/
def history (step : S → E → O × S) : S → List E → List (Step S E O)
  | _, [] => []
  | s, e :: rest => ⟨s, e, (step s e).1, (step s e).2⟩ :: history step (step s e).2 rest

@[simp] theorem history_nil (s : S) : history step s [] = [] := rfl

@[simp] theorem history_cons (s : S) (e : E) (rest : List E) :
    history step s (e :: rest) =
      ⟨s, e, (step s e).1, (step s e).2⟩ :: history step (step s e).2 rest := rfl

/-- The state after the last event. -/
def final (step : S → E → O × S) (s : S) (events : List E) : S :=
  events.foldl (fun s e => (step s e).2) s

@[simp] theorem final_nil (s : S) : final step s [] = s := rfl

@[simp] theorem final_cons (s : S) (e : E) (rest : List E) :
    final step s (e :: rest) = final step (step s e).2 rest := rfl

theorem final_append (s : S) (first second : List E) :
    final step s (first ++ second) = final step (final step s first) second :=
  List.foldl_append

theorem final_snoc (s : S) (events : List E) (e : E) :
    final step s (events ++ [e]) = (step (final step s events) e).2 :=
  final_append s events [e]

theorem history_append (s : S) (first second : List E) :
    history step s (first ++ second) =
      history step s first ++ history step (final step s first) second := by
  induction first generalizing s with
  | nil => rfl
  | cons e rest ih => rw [List.cons_append, history_cons, ih, history_cons, List.cons_append, final_cons]

theorem history_snoc (s : S) (events : List E) (e : E) :
    history step s (events ++ [e]) = history step s events ++
      [⟨final step s events, e, (step (final step s events) e).1, (step (final step s events) e).2⟩] :=
  history_append s events [e]

/-- What every step keeps, if it meets its condition, holds at the end of a run. -/
theorem final_invariant {invariant : S → Prop} {meets : S → E → Prop}
    (keeps : ∀ s e, meets s e → invariant s → invariant (step s e).2) {s : S} (starts : invariant s)
    {events : List E} (all : ∀ x ∈ history step s events, meets x.before x.event) :
    invariant (final step s events) := by
  induction events generalizing s with
  | nil => exact starts
  | cons e rest ih =>
      rw [history_cons, List.forall_mem_cons] at all
      exact ih (keeps s e all.1 starts) all.2

/-- A fact about single steps holds of every step of a run. -/
theorem history_steps {fact : Step S E O → Prop}
    (holds : ∀ s e, fact ⟨s, e, (step s e).1, (step s e).2⟩) {s : S} {events : List E} :
    ∀ x ∈ history step s events, fact x := by
  induction events generalizing s with
  | nil =>
      intro x member
      cases member
  | cons e rest ih =>
      intro x member
      rcases List.mem_cons.mp member with rfl | later
      · exact holds s e
      · exact ih x later

/-- If a step from a good state is right exactly when it meets its condition, and leads to a good
    state when it is right, then a run is right throughout exactly when all its steps meet it. What a
    good state is may depend on the events that are still to come. -/
theorem history_exact_ahead {good : S → List E → Prop} {meets : S → E → Prop}
    {right : Step S E O → Prop}
    (decides : ∀ s e rest, good s (e :: rest) →
      (right ⟨s, e, (step s e).1, (step s e).2⟩ ↔ meets s e))
    (leads : ∀ s e rest, good s (e :: rest) → right ⟨s, e, (step s e).1, (step s e).2⟩ →
      good (step s e).2 rest)
    {s : S} {events : List E} (starts : good s events) :
    (∀ x ∈ history step s events, right x) ↔
      ∀ x ∈ history step s events, meets x.before x.event := by
  induction events generalizing s with
  | nil => simp
  | cons e rest ih =>
      rw [history_cons, List.forall_mem_cons, List.forall_mem_cons]
      constructor
      · rintro ⟨here, later⟩
        exact ⟨(decides s e rest starts).mp here, (ih (leads s e rest starts here)).mp later⟩
      · rintro ⟨here, later⟩
        have right_here := (decides s e rest starts).mpr here
        exact ⟨right_here, (ih (leads s e rest starts right_here)).mpr later⟩

theorem history_exact {good : S → Prop} {meets : S → E → Prop} {right : Step S E O → Prop}
    (decides : ∀ s e, good s → (right ⟨s, e, (step s e).1, (step s e).2⟩ ↔ meets s e))
    (leads : ∀ s e, good s → right ⟨s, e, (step s e).1, (step s e).2⟩ → good (step s e).2)
    {s : S} (starts : good s) {events : List E} :
    (∀ x ∈ history step s events, right x) ↔
      ∀ x ∈ history step s events, meets x.before x.event :=
  @history_exact_ahead _ _ _ step (fun s _ => good s) meets right
    (fun s e _ => decides s e) (fun s e _ => leads s e) s events starts

/-- If every step that meets its condition keeps the invariant and is right, then a run of such steps
    is right throughout. The invariant may depend on the events that are still to come. -/
theorem history_right_ahead {invariant : S → List E → Prop} {meets : S → E → Prop}
    {right : Step S E O → Prop}
    (keeps : ∀ s e rest, meets s e → invariant s (e :: rest) → invariant (step s e).2 rest)
    (decides : ∀ s e rest, meets s e → invariant s (e :: rest) →
      right ⟨s, e, (step s e).1, (step s e).2⟩)
    {s : S} {events : List E} (starts : invariant s events)
    (all : ∀ x ∈ history step s events, meets x.before x.event) :
    ∀ x ∈ history step s events, right x := by
  induction events generalizing s with
  | nil =>
      intro x member
      cases member
  | cons e rest ih =>
      rw [history_cons, List.forall_mem_cons] at all ⊢
      exact ⟨decides s e rest all.1 starts, ih (keeps s e rest all.1 starts) all.2⟩

theorem history_right {invariant : S → Prop} {meets : S → E → Prop} {right : Step S E O → Prop}
    (keeps : ∀ s e, meets s e → invariant s → invariant (step s e).2)
    (decides : ∀ s e, meets s e → invariant s → right ⟨s, e, (step s e).1, (step s e).2⟩)
    {s : S} (starts : invariant s) {events : List E}
    (all : ∀ x ∈ history step s events, meets x.before x.event) :
    ∀ x ∈ history step s events, right x :=
  @history_right_ahead _ _ _ step (fun s _ => invariant s) meets right
    (fun s e _ => keeps s e) (fun s e _ => decides s e) s events starts all

theorem history_event {s : S} {events : List E} : ∀ x ∈ history step s events, x.event ∈ events := by
  induction events generalizing s with
  | nil =>
      intro x member
      cases member
  | cons e rest ih =>
      intro x member
      rcases List.mem_cons.mp member with rfl | later
      · exact List.mem_cons_self
      · exact List.mem_cons_of_mem _ (ih x later)

theorem event_history {s : S} {events : List E} {e : E} (member : e ∈ events) :
    ∃ x ∈ history step s events, x.event = e := by
  induction events generalizing s with
  | nil => cases member
  | cons e' rest ih =>
      cases member with
      | head => exact ⟨_, List.mem_cons_self, rfl⟩
      | tail _ later =>
          obtain ⟨x, member, same⟩ := @ih (step s e').2 later
          exact ⟨x, List.mem_cons_of_mem _ member, same⟩

/-- What comes after some steps of a run is a run from the state that they leave. -/
theorem history_drop {s : S} {events : List E} {earlier later : List (Step S E O)}
    (parts : history step s events = earlier ++ later) :
    ∃ rest, later = history step ((earlier.getLast?.map Step.after).getD s) rest := by
  induction earlier generalizing s events with
  | nil => exact ⟨events, parts.symm⟩
  | cons x earlier ih =>
      cases events with
      | nil => cases parts
      | cons e events =>
          rw [history_cons, List.cons_append, List.cons.injEq] at parts
          obtain ⟨rest, same⟩ := ih parts.2
          refine ⟨rest, same.trans ?_⟩
          rw [List.getLast?_cons, ← parts.1]
          cases earlier.getLast? <;> rfl

/-- A run goes on from the state that one of its steps leaves. -/
theorem final_of_mem {s : S} {events : List E} {x : Step S E O} (member : x ∈ history step s events) :
    ∃ later, final step s events = final step x.after later := by
  induction events generalizing s with
  | nil => cases member
  | cons e rest ih =>
      rcases List.mem_cons.mp member with rfl | later
      · exact ⟨rest, rfl⟩
      · exact ih later

/-- The steps after one of a history are a history from the state it left. -/
theorem history_split {s : S} {events : List E} {front rest : List (Step S E O)} {x : Step S E O}
    (whole : history step s events = front ++ x :: rest) :
    ∃ later, rest = history step x.after later := by
  induction front generalizing s events with
  | nil =>
      cases events with
      | nil => cases whole
      | cons e later =>
          rw [history_cons, List.nil_append, List.cons.injEq] at whole
          obtain ⟨rfl, rfl⟩ := whole
          exact ⟨later, rfl⟩
  | cons y front ih =>
      cases events with
      | nil => cases whole
      | cons e later =>
          rw [history_cons, List.cons_append, List.cons.injEq] at whole
          exact ih whole.2

/-- The steps before one of a history are a history that leads to it. -/
theorem history_before {s : S} {events : List E} {front rest : List (Step S E O)} {x : Step S E O}
    (whole : history step s events = front ++ x :: rest) :
    ∃ earlier, front = history step s earlier ∧
      x = ⟨final step s earlier, x.event, (step (final step s earlier) x.event).1,
        (step (final step s earlier) x.event).2⟩ := by
  induction front generalizing s events with
  | nil =>
      cases events with
      | nil => cases whole
      | cons e later =>
          rw [history_cons, List.nil_append, List.cons.injEq] at whole
          obtain ⟨rfl, -⟩ := whole
          exact ⟨[], rfl, rfl⟩
  | cons y front ih =>
      cases events with
      | nil => cases whole
      | cons e later =>
          rw [history_cons, List.cons_append, List.cons.injEq] at whole
          obtain ⟨rfl, others⟩ := whole
          obtain ⟨earlier, same, here⟩ := ih others
          exact ⟨e :: earlier, by rw [history_cons, same], here⟩

/-! ## Steps that exclude one another

A step that `ends` leaves a `closed` state. Only a step that `opens` leaves the closed
states, and from a closed state nothing ends.
-/

section

variable {closed : S → Prop} {ends opens : Step S E O → Prop}

private theorem opened_before (keeps : ∀ s e, closed s →
      opens ⟨s, e, (step s e).1, (step s e).2⟩ ∨ closed (step s e).2)
    (barred : ∀ s e, closed s → ¬ ends ⟨s, e, (step s e).1, (step s e).2⟩)
    {middle back : List (Step S E O)} {second : Step S E O} {s : S} {events : List E}
    (shut : closed s) (whole : history step s events = middle ++ second :: back)
    (ended : ends second) : ∃ x ∈ middle, opens x := by
  induction middle generalizing s events with
  | nil =>
      cases events with
      | nil => cases whole
      | cons e later =>
          rw [history_cons, List.nil_append, List.cons.injEq] at whole
          rw [← whole.1] at ended
          exact absurd ended (barred s e shut)
  | cons y middle ih =>
      cases events with
      | nil => cases whole
      | cons e later =>
          rw [history_cons, List.cons_append, List.cons.injEq] at whole
          obtain ⟨rfl, rest⟩ := whole
          rcases keeps s e shut with opened | still
          · exact ⟨_, List.mem_cons_self, opened⟩
          · obtain ⟨x, member, opened⟩ := ih still rest
            exact ⟨x, List.mem_cons_of_mem _ member, opened⟩

/-- Between two steps that end there is one that opens. -/
theorem opened_between
    (closes : ∀ s e, ends ⟨s, e, (step s e).1, (step s e).2⟩ → closed (step s e).2)
    (keeps : ∀ s e, closed s → opens ⟨s, e, (step s e).1, (step s e).2⟩ ∨ closed (step s e).2)
    (barred : ∀ s e, closed s → ¬ ends ⟨s, e, (step s e).1, (step s e).2⟩)
    {s : S} {events : List E} {front middle back : List (Step S E O)} {first second : Step S E O}
    (whole : history step s events = front ++ first :: (middle ++ second :: back))
    (ended : ends first) (ended' : ends second) : ∃ x ∈ middle, opens x := by
  obtain ⟨later, rest⟩ := history_split whole
  have shut : ends first → closed first.after :=
    @history_steps S E O step (fun x => ends x → closed x.after) closes s events first
      (whole ▸ List.mem_append_right _ List.mem_cons_self)
  exact opened_before keeps barred (shut ended) rest.symm ended'

end

end Machine
