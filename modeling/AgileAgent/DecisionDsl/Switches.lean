import AgileAgent.DecisionDsl.Desugar
import AgileAgent.DecisionDsl.Runs
import AgileAgent.DecisionDsl.Ticks

/-! # Switches

Which branches a tick of a desugared `switch` runs. The switch is a selector over one
guarded action for each case, with `_default` as one more child, so a branch that fails is
followed by the ones after it, and a guard on a missing variable is an error.
-/

namespace AgileAgent.DecisionDsl

open CallTree

variable {σ κ : Type}

namespace SwitchSpec

variable (spec : SwitchSpec ThenSpec)

/-- The variable has the value of this case. -/
def selects (bb : Blackboard) (c : SwitchCase ThenSpec) : Bool :=
  match bb.getPath spec.on.key with
  | some v => v.eq (.string c.value)
  | none => false

/-- The position of the branch that should run: that of the first case whose value the
    variable has, and after all the cases that of `_default`. -/
def target (bb : Blackboard) : Nat := spec.cases.findIdx (spec.selects bb)

/-- How many branches there are, `_default` included. -/
def branches : Nat := spec.cases.length + spec.default.toList.length

/-- There is no case left to check at `start`, or the variable can be read. -/
def Readable (start : Nat) (bb : Blackboard) : Prop :=
  start < spec.cases.length → (bb.getPath spec.on.key).isSome

/-- No branch from `start` on runs: the guards stop at a missing variable, or none of them
    holds and there is no `_default`. -/
def Silent (start : Nat) (bb : Blackboard) : Prop :=
  (start < spec.cases.length ∧ bb.getPath spec.on.key = none) ∨
    ((start ≤ spec.cases.length → spec.default = none) ∧
      ∀ c ∈ spec.cases.drop start, spec.selects bb c = false)

/-- The children of the branch selector, as far as they are still to be visited. -/
structure Branching (start : Nat) (children : List Node) : Prop where
  length : children.length = spec.branches
  guarded : ∀ i c, start ≤ i → spec.cases[i]? = some c → ∃ g : WhenNode Node,
    children[i]? = some (.when g) ∧ g.condition = .variableIs spec.on.key (.string c.value)

end SwitchSpec

/-- The index of the child that a composite calls with this request. -/
def Request.position (q : Request σ κ) : Nat := q.world.tracer.pathStack.getLastD 0

namespace World

/-- What is left when the children from `start` to `stop` of a selector fail without
    doing anything else. -/
def passing (w : World σ κ) (name : String) (start stop : Nat) : World σ κ :=
  (List.range' start (stop - start)).foldl (fun v i => (v.enter name i).exit name .failure) w

theorem passing_self (w : World σ κ) (name : String) (start : Nat) :
    w.passing name start start = w := by
  rw [passing, Nat.sub_self]
  rfl

theorem passing_cons {w : World σ κ} {name : String} {start stop : Nat} (before : start < stop) :
    w.passing name start stop =
      ((w.enter name start).exit name .failure).passing name (start + 1) stop := by
  have count : stop - start = (stop - (start + 1)) + 1 := by omega
  rw [passing, count, List.range'_succ]
  rfl

theorem passing_blackboard (w : World σ κ) (name : String) (start stop : Nat) :
    (w.passing name start stop).blackboard = w.blackboard := by
  unfold passing
  generalize List.range' start (stop - start) = passed
  induction passed generalizing w with
  | nil => rfl
  | cons i rest ih => exact ih ((w.enter name i).exit name .failure)

end World

theorem visit_position (name : String) (child : Node) (i : Nat) (w : World σ κ) :
    (visit name child i w).position = i := by
  have stack : (visit name child i w).world.tracer.pathStack = w.tracer.pathStack ++ [i] := rfl
  rw [Request.position, stack, List.getLastD_concat]

section

variable [Crates] [Session σ] [Clock κ]

namespace SwitchSpec

variable (spec : SwitchSpec ThenSpec)

/-- The branches among these calls of a branch selector: the action a guard calls, and
    `_default` itself, each with its position. -/
def branchCalls (calls : List (Request σ κ)) : List (Nat × Request σ κ) :=
  calls.flatMap fun q =>
    if q.position < spec.cases.length then (interpreter.calls q).map (q.position, ·)
    else [(q.position, q)]

/-- The branches that run when a branch selector answers the request. -/
def runs (q : Request σ κ) : List (Nat × Request σ κ) := spec.branchCalls (interpreter.calls q)

/-- The branch at the target runs and no other, and its result is that of the switch.
    Where there is none, no branch runs and the switch fails. -/
def Dispatches (q : Request σ κ) : Prop :=
  match spec.runs q with
  | [] => spec.branches ≤ spec.target q.world.blackboard ∧
      (interpreter.solve q).result = .ok .failure
  | [(i, branch)] => i = spec.target q.world.blackboard ∧
      (interpreter.solve q).result = (interpreter.solve branch).result
  | _ => False

/-- The action at the target, ticked when the guards before it have failed. -/
def action (n : SelectorNode Node) (w : World σ κ) (g : WhenNode Node) : Answer σ κ :=
  let target := spec.target w.blackboard
  g.action.tick ((w.passing n.name (n.activeChild.getD 0) target).enter n.name target)

/-- The tick does not start after the target, the guards can read the variable, and where
    the action at the target fails, it leaves a blackboard on which nothing else runs. -/
structure Settles (n : SelectorNode Node) (w : World σ κ) : Prop where
  reached : n.activeChild.getD 0 ≤ spec.target w.blackboard ∨
    spec.branches ≤ spec.target w.blackboard
  readable : spec.Readable (n.activeChild.getD 0) w.blackboard
  final : ∀ g, spec.target w.blackboard < spec.cases.length →
    n.children[spec.target w.blackboard]? = some (.when g) →
    (spec.action n w g).result = .ok .failure →
      spec.Silent (spec.target w.blackboard + 1) (spec.action n w g).world.blackboard ∧
      spec.Readable (spec.target w.blackboard + 1) (spec.action n w g).world.blackboard

end SwitchSpec

/-! ## Guards -/

theorem guard_fails (name : String) {g : WhenNode Node} (i : Nat) {w : World σ κ} {e : RuntimeError}
    (evaluated : g.condition.evaluate w.blackboard = .error e) :
    interpreter.calls (visit name (.when g) i w) = [] ∧
      (interpreter.solve (visit name (.when g) i w)).result = .error (.error e) := by
  have here : g.condition.evaluate (w.enter name i).blackboard = .error e := evaluated
  rw [interpreter_calls, interpreter_solve]
  simp only [visit, requestBody, tickBody, tickWhen, whenWith, here, Body.calls_map, Body.run_map,
    Body.calls_ret, Body.run_ret, Run.map, and_self]

theorem guard_closed (name : String) {g : WhenNode Node} (i : Nat) {w : World σ κ}
    (evaluated : g.condition.evaluate w.blackboard = .ok false) :
    interpreter.calls (visit name (.when g) i w) = [] ∧
      interpreter.solve (visit name (.when g) i w) = ⟨.ok .failure, .when g, w.enter name i⟩ := by
  have here : g.condition.evaluate (w.enter name i).blackboard = .ok false := evaluated
  rw [interpreter_calls, interpreter_solve]
  simp only [visit, requestBody, tickBody, tickWhen, whenWith, here, Body.calls_map, Body.run_map,
    Body.calls_ret, Body.run_ret, Run.map, and_self]

theorem guard_open (name : String) {g : WhenNode Node} (i : Nat) {w : World σ κ}
    (evaluated : g.condition.evaluate w.blackboard = .ok true) :
    let a := g.action.tick (w.enter name i)
    interpreter.calls (visit name (.when g) i w) = [⟨.tick, g.action, w.enter name i⟩] ∧
      (interpreter.solve (visit name (.when g) i w)).result = a.result ∧
      (interpreter.solve (visit name (.when g) i w)).world = a.world := by
  have here : g.condition.evaluate (w.enter name i).blackboard = .ok true := evaluated
  rw [interpreter_calls, interpreter_solve]
  simp only [visit, requestBody, tickBody, tickWhen, whenWith, here, Body.calls_map, Body.run_map,
    Body.calls_call, Body.run_call, Body.calls_ret, Body.run_ret, Run.map, Node.tick, and_self]

/-! ## The walk over the branches -/

/-- The result of a selector whose walk was `r`. -/
def Walked.verdict (r : Walked σ κ) : Except Fault NodeStatus :=
  (r.stop.map Prod.snd).getD (.ok .failure)

/-- What stops the walk of a selector is not a failure. -/
theorem Walk.verdict_failure {name : String} {start : Nat} {children : List Node} {w : World σ κ}
    {r : Walked σ κ} (walk : Walk name (· = .failure) start children w r) :
    r.verdict = .ok .failure ↔ r.stop = none := by
  induction walk with
  | ranOut => simp [Walked.verdict]
  | failed => simp [Walked.verdict]
  | stopped _ _ stops => simpa [Walked.verdict] using stops
  | went _ _ _ _ ih => exact ih

namespace SwitchSpec

variable {spec : SwitchSpec ThenSpec}

theorem branchCalls_case {name : String} {child : Node} {i : Nat} {w : World σ κ}
    (inside : i < spec.cases.length) (rest : List (Request σ κ)) :
    spec.branchCalls (visit name child i w :: rest) =
      (interpreter.calls (visit name child i w)).map (i, ·) ++ spec.branchCalls rest := by
  rw [branchCalls, List.flatMap_cons, visit_position, if_pos inside]
  rfl

theorem branchCalls_default {name : String} {child : Node} {i : Nat} {w : World σ κ}
    (past : spec.cases.length ≤ i) (rest : List (Request σ κ)) :
    spec.branchCalls (visit name child i w :: rest) =
      (i, visit name child i w) :: spec.branchCalls rest := by
  rw [branchCalls, List.flatMap_cons, visit_position, if_neg (by omega)]
  rfl

omit [Crates] [Session σ] [Clock κ] in
theorem Branching.set {start : Nat} {children : List Node} (branching : spec.Branching start children)
    (child : Node) : spec.Branching (start + 1) (children.set start child) where
  length := by rw [List.length_set, branching.length]
  guarded i c later at_i := by
    rw [List.getElem?_set_ne (by omega)]
    exact branching.guarded i c (by omega) at_i

omit [Crates] [Session σ] [Clock κ] in
theorem Branching.mono {start start' : Nat} {children : List Node}
    (branching : spec.Branching start children) (later : start ≤ start') :
    spec.Branching start' children where
  length := branching.length
  guarded i c after at_i := branching.guarded i c (by omega) at_i

/-- The guard of a case, on a blackboard with the variable. -/
theorem guard_evaluate {g : WhenNode Node} {c : SwitchCase ThenSpec} {bb : Blackboard}
    (condition : g.condition = .variableIs spec.on.key (.string c.value))
    (present : (bb.getPath spec.on.key).isSome) :
    g.condition.evaluate bb = .ok (spec.selects bb c) := by
  obtain ⟨v, read⟩ := Option.isSome_iff_exists.mp present
  simp only [condition, Evaluator.evaluate, selects, read]

/-- And on one without it. -/
theorem guard_missing {g : WhenNode Node} {c : SwitchCase ThenSpec} {bb : Blackboard}
    (condition : g.condition = .variableIs spec.on.key (.string c.value))
    (missing : bb.getPath spec.on.key = none) :
    g.condition.evaluate bb = .error (.missingVariable spec.on.key) := by
  simp only [condition, Evaluator.evaluate, missing]

omit [Crates] [Session σ] [Clock κ] in
theorem silent_past {start : Nat} {bb : Blackboard} (past : spec.cases.length < start) :
    spec.Silent start bb := by
  apply Or.inr
  rw [List.drop_eq_nil_of_le (by omega)]
  exact ⟨fun inside => absurd inside (by omega), fun c member => absurd member List.not_mem_nil⟩

omit [Crates] [Session σ] [Clock κ] in
/-- A case that is not selected makes no difference. -/
theorem silent_succ {start : Nat} {c : SwitchCase ThenSpec} {bb : Blackboard}
    (at_start : spec.cases[start]? = some c) (present : (bb.getPath spec.on.key).isSome)
    (closed : spec.selects bb c = false) : spec.Silent (start + 1) bb ↔ spec.Silent start bb := by
  obtain ⟨inside, rfl⟩ := List.getElem?_eq_some_iff.mp at_start
  have readable : bb.getPath spec.on.key ≠ none := Option.isSome_iff_ne_none.mp present
  have low : start ≤ spec.cases.length := by omega
  have low' : start + 1 ≤ spec.cases.length := inside
  rw [Silent, Silent, List.drop_eq_getElem_cons inside, List.forall_mem_cons]
  simp only [readable, and_false, false_or, closed, true_and, low, low', true_imp_iff]

omit [Crates] [Session σ] [Clock κ] in
theorem not_silent {start : Nat} {c : SwitchCase ThenSpec} {bb : Blackboard}
    (at_start : spec.cases[start]? = some c) (present : (bb.getPath spec.on.key).isSome)
    (selected : spec.selects bb c = true) : ¬ spec.Silent start bb := by
  obtain ⟨inside, rfl⟩ := List.getElem?_eq_some_iff.mp at_start
  have readable : bb.getPath spec.on.key ≠ none := Option.isSome_iff_ne_none.mp present
  intro silent
  cases silent with
  | inl stopped => exact readable stopped.2
  | inr closed =>
      have here := closed.2 spec.cases[start] (by
        rw [List.drop_eq_getElem_cons inside]
        exact List.mem_cons_self)
      rw [selected] at here
      cases here

/-- What the visit of one branch does: its guard stops at the missing variable, its guard
    does not hold, or it runs. -/
inductive Visited (spec : SwitchSpec ThenSpec) (name : String) (child : Node) (i : Nat) (w : World σ κ) :
    Prop where
  | missing (inside : i < spec.cases.length) (missing : w.blackboard.getPath spec.on.key = none)
      (calls : interpreter.calls (visit name child i w) = [])
      (result : (interpreter.solve (visit name child i w)).result =
        .error (.error (.missingVariable spec.on.key)))
  | closed {c : SwitchCase ThenSpec} (at_i : spec.cases[i]? = some c)
      (present : (w.blackboard.getPath spec.on.key).isSome)
      (closed : spec.selects w.blackboard c = false)
      (calls : interpreter.calls (visit name child i w) = [])
      (answer : interpreter.solve (visit name child i w) = ⟨.ok .failure, child, w.enter name i⟩)
  | ran {branch : Request σ κ} (loud : ¬ spec.Silent i w.blackboard)
      (calls : ∀ rest, spec.branchCalls (visit name child i w :: rest) =
        (i, branch) :: spec.branchCalls rest)
      (result : (interpreter.solve (visit name child i w)).result = (interpreter.solve branch).result)
      (world : (interpreter.solve (visit name child i w)).world = (interpreter.solve branch).world)
      (guarded : i < spec.cases.length →
        ∃ g, child = .when g ∧ branch = ⟨.tick, g.action, w.enter name i⟩)

theorem Branching.visited (name : String) {start : Nat} {children : List Node} {child : Node}
    (w : World σ κ) (branching : spec.Branching start children)
    (at_start : children[start]? = some child) : Visited spec name child start w := by
  obtain ⟨below, -⟩ := List.getElem?_eq_some_iff.mp at_start
  by_cases inside : start < spec.cases.length
  · have at_case : spec.cases[start]? = some spec.cases[start] := List.getElem?_eq_getElem inside
    obtain ⟨g, at_g, condition⟩ := branching.guarded start _ (Nat.le_refl _) at_case
    obtain rfl : child = .when g := Option.some.inj (at_start.symm.trans at_g)
    cases present : (w.blackboard.getPath spec.on.key).isSome with
    | false =>
        have missing := Option.isSome_eq_false_iff.mp present |> Option.isNone_iff_eq_none.mp
        obtain ⟨calls, result⟩ :=
          guard_fails name start (guard_missing condition missing)
        exact .missing inside missing calls result
    | true =>
        have evaluated := guard_evaluate condition present
        cases selected : spec.selects w.blackboard spec.cases[start] with
        | false =>
            rw [selected] at evaluated
            obtain ⟨calls, answer⟩ := guard_closed name start evaluated
            exact .closed at_case present selected calls answer
        | true =>
            rw [selected] at evaluated
            obtain ⟨calls, result, world⟩ := guard_open name start evaluated
            apply Visited.ran (not_silent at_case present selected) _ result world
              fun _ => ⟨g, rfl, rfl⟩
            intro rest
            rw [branchCalls_case inside, calls]
            rfl
  · have last : start = spec.cases.length ∧ spec.default ≠ none := by
      rw [branching.length, branches] at below
      cases given : spec.default with
      | none => simp only [given, Option.toList_none, List.length_nil] at below; omega
      | some action =>
          simp only [given, Option.toList_some, List.length_singleton] at below
          exact ⟨by omega, by simp⟩
    have loud : ¬ spec.Silent start w.blackboard := by
      intro silent
      cases silent with
      | inl stopped => exact inside stopped.1
      | inr closed => exact last.2 (closed.1 (by omega))
    exact .ran loud (branchCalls_default (by omega)) rfl rfl fun below => absurd below inside

/-- No branch of the rest of the walk runs exactly when the rest is silent, and then it
    runs out exactly when the variable can be read. -/
theorem Branching.rest {name : String} {start : Nat} {children : List Node} {w : World σ κ}
    {r : Walked σ κ} (walk : Walk name (· = .failure) start children w r)
    (branching : spec.Branching start children) :
    (spec.branchCalls r.calls = [] ↔ spec.Silent start w.blackboard) ∧
      (spec.branchCalls r.calls = [] → (r.stop = none ↔ spec.Readable start w.blackboard)) := by
  -- a visit that runs a branch settles both parts
  have loud {start : Nat} {w : World σ κ} {child : Node} {branch : Request σ κ}
      {rest : List (Request σ κ)} {stop : Option (Nat × Except Fault NodeStatus)}
      (loud : ¬ spec.Silent start w.blackboard)
      (calls : ∀ rest, spec.branchCalls (visit name child start w :: rest) =
        (start, branch) :: spec.branchCalls rest) :
      let ran := spec.branchCalls (visit name child start w :: rest)
      (ran = [] ↔ spec.Silent start w.blackboard) ∧
        (ran = [] → (stop = none ↔ spec.Readable start w.blackboard)) := by
    simp only [calls, List.cons_ne_nil, loud, iff_self, false_imp_iff, and_self]
  induction walk with
  | @ranOut start children w out =>
      rw [branching.length, branches] at out
      have silent : spec.Silent start w.blackboard := by
        apply Or.inr
        rw [List.drop_eq_nil_of_le (by omega)]
        refine ⟨fun inside => ?_, fun c member => absurd member List.not_mem_nil⟩
        have absent : spec.default.toList = [] := List.eq_nil_of_length_eq_zero (by omega)
        exact Option.toList_eq_nil_iff.mp absent
      have readable : spec.Readable start w.blackboard := fun inside => absurd inside (by omega)
      simp only [branchCalls, List.flatMap_nil, silent, readable, iff_self, implies_true, and_self]
  | @failed start children w child e at_start result =>
      cases branching.visited name w at_start with
      | missing inside missing calls =>
          rw [branchCalls_case inside, calls]
          have silent : spec.Silent start w.blackboard := .inl ⟨inside, missing⟩
          simp [branchCalls, silent, Readable, inside, missing]
      | closed _ _ _ _ answer =>
          rw [answer] at result
          cases result
      | ran silent calls => exact loud silent calls
  | @stopped start children w child status at_start result stops =>
      cases branching.visited name w at_start with
      | missing _ _ _ failed =>
          rw [failed] at result
          cases result
      | closed _ _ _ _ answer =>
          rw [answer] at result
          cases result
          exact absurd rfl stops
      | ran silent calls => exact loud silent calls
  | @went start children w child status r at_start result on _ ih =>
      cases branching.visited name w at_start with
      | missing _ _ _ failed =>
          rw [failed] at result
          cases result
      | closed at_case present closed calls answer =>
          have inside := (List.getElem?_eq_some_iff.mp at_case).1
          obtain ⟨silent, out⟩ := ih (branching.set _)
          rw [answer] at silent out
          have same : ((w.enter name start).exit name status).blackboard = w.blackboard := rfl
          rw [same, silent_succ at_case present closed] at silent
          have readable (m : Nat) : spec.Readable m w.blackboard := fun _ => present
          simp only [same, readable, iff_true] at out
          rw [branchCalls_case inside, calls]
          simpa only [List.map_nil, List.nil_append, readable, iff_true] using And.intro silent out
      | ran silent calls => exact loud silent calls

/-- No branch before the start of the walk runs. -/
theorem Branching.position_le {name : String} {start : Nat} {children : List Node} {w : World σ κ}
    {r : Walked σ κ} (walk : Walk name (· = .failure) start children w r) :
    ∀ b ∈ spec.branchCalls r.calls, start ≤ b.1 := by
  have here {start : Nat} {child : Node} {w : World σ κ} {rest : List (Request σ κ)}
      (later : ∀ b ∈ spec.branchCalls rest, start ≤ b.1) :
      ∀ b ∈ spec.branchCalls (visit name child start w :: rest), start ≤ b.1 := by
    intro b member
    by_cases inside : start < spec.cases.length
    · rw [branchCalls_case inside, List.mem_append, List.mem_map] at member
      cases member with
      | inl first =>
          obtain ⟨_, _, rfl⟩ := first
          exact Nat.le_refl _
      | inr after => exact later b after
    · rw [branchCalls_default (by omega), List.mem_cons] at member
      cases member with
      | inl first => exact Nat.le_of_eq (congrArg Prod.fst first.symm)
      | inr after => exact later b after
  have none {start : Nat} : ∀ b ∈ spec.branchCalls ([] : List (Request σ κ)), start ≤ b.1 :=
    fun b member => absurd member List.not_mem_nil
  induction walk with
  | ranOut => exact none
  | failed => exact here none
  | stopped => exact here none
  | went _ _ _ _ ih => exact here fun b after => Nat.le_of_succ_le (ih b after)

/-- Guards that do not hold are passed over. -/
theorem Branching.skips {name : String} {children : List Node} {stop : Nat} {left : Nat} :
    ∀ {start : Nat} {w : World σ κ} {r : Walked σ κ}, stop - start = left → start ≤ stop →
      Walk name (· = .failure) start children w r → spec.Branching start children →
      stop ≤ spec.cases.length → spec.Readable start w.blackboard →
      (∀ i (c : SwitchCase ThenSpec), i < stop → spec.cases[i]? = some c →
        spec.selects w.blackboard c = false) →
      ∃ r', Walk name (· = .failure) stop children (w.passing name start stop) r' ∧
        spec.branchCalls r.calls = spec.branchCalls r'.calls ∧ r.stop = r'.stop := by
  induction left with
  | zero =>
      intro start w r count low walk _ _ _ _
      obtain rfl : start = stop := by omega
      rw [World.passing_self]
      exact ⟨r, walk, rfl, rfl⟩
  | succ left ih =>
      intro start w r count low walk branching inside readable closed
      have before : start < stop := by omega
      have at_case : spec.cases[start]? = some spec.cases[start] := List.getElem?_eq_getElem (by omega)
      have unselected := closed start _ before at_case
      have present := readable (by omega)
      obtain ⟨g, at_g, condition⟩ := branching.guarded start _ (Nat.le_refl _) at_case
      have evaluated := guard_evaluate condition present
      rw [unselected] at evaluated
      obtain ⟨calls, answer⟩ := guard_closed name start evaluated
      have unchanged : children.set start (.when g) = children := by
        obtain ⟨_, found⟩ := List.getElem?_eq_some_iff.mp at_g
        rw [← found, List.set_getElem_self]
      cases walk with
      | ranOut out =>
          rw [List.getElem?_eq_none out] at at_g
          cases at_g
      | failed at_start result =>
          obtain rfl := Option.some.inj (at_start.symm.trans at_g)
          rw [answer] at result
          cases result
      | stopped at_start result stops =>
          obtain rfl := Option.some.inj (at_start.symm.trans at_g)
          rw [answer] at result
          cases result
          exact absurd rfl stops
      | @went _ _ _ _ status r' at_start result on rest =>
          obtain rfl := Option.some.inj (at_start.symm.trans at_g)
          rw [answer] at rest result
          obtain rfl : NodeStatus.failure = status := by simpa using result
          simp only [unchanged] at rest
          obtain ⟨r'', walk, ran, stopped⟩ := ih (by omega) before rest (branching.mono (Nat.le_succ _))
            inside (fun _ => present) closed
          rw [World.passing_cons before]
          refine ⟨r'', walk, ?_, stopped⟩
          rw [branchCalls_case (by omega), calls]
          exact ran

omit [Crates] [Session σ] [Clock κ] in
theorem target_le (bb : Blackboard) : spec.target bb ≤ spec.cases.length := List.findIdx_le_length

omit [Crates] [Session σ] [Clock κ] in
theorem selects_target {bb : Blackboard} {c : SwitchCase ThenSpec}
    (at_target : spec.cases[spec.target bb]? = some c) : spec.selects bb c = true := by
  obtain ⟨inside, rfl⟩ := List.getElem?_eq_some_iff.mp at_target
  exact List.findIdx_getElem

omit [Crates] [Session σ] [Clock κ] in
theorem not_selects {bb : Blackboard} {i : Nat} {c : SwitchCase ThenSpec}
    (before : i < spec.target bb) (at_i : spec.cases[i]? = some c) : spec.selects bb c = false := by
  obtain ⟨inside, rfl⟩ := List.getElem?_eq_some_iff.mp at_i
  simpa using List.not_of_lt_findIdx before

/-- A walk that starts at the target: there is no branch there, or the branch there runs, and
    branches after it only if it fails. -/
theorem Branching.at_target {name : String} {start : Nat} {children : List Node} {w : World σ κ}
    {r : Walked σ κ} (walk : Walk name (· = .failure) start children w r)
    (branching : spec.Branching start children)
    (selected : ∀ c, spec.cases[start]? = some c → spec.selects w.blackboard c = true) :
    (spec.branches ≤ start ∧ spec.branchCalls r.calls = [] ∧ r.stop = none) ∨
      ∃ branch more, start < spec.branches ∧
        (start < spec.cases.length → ∃ g, children[start]? = some (.when g) ∧
          branch = ⟨.tick, g.action, w.enter name start⟩) ∧
        spec.branchCalls r.calls = (start, branch) :: more ∧
        ((interpreter.solve branch).result ≠ .ok .failure →
          more = [] ∧ r.verdict = (interpreter.solve branch).result) ∧
        ((interpreter.solve branch).result = .ok .failure →
          let left := (interpreter.solve branch).world.blackboard
          (more = [] ↔ spec.Silent (start + 1) left) ∧
            (more = [] → (r.verdict = .ok .failure ↔ spec.Readable (start + 1) left))) := by
  have verdict := walk.verdict_failure
  -- the branch at the target runs
  have visited {child : Node} (at_start : children[start]? = some child) :
      ∃ branch, start < spec.branches ∧
        (start < spec.cases.length → ∃ g, children[start]? = some (.when g) ∧
          branch = ⟨.tick, g.action, w.enter name start⟩) ∧
        (∀ rest, spec.branchCalls (visit name child start w :: rest) =
          (start, branch) :: spec.branchCalls rest) ∧
        (interpreter.solve (visit name child start w)).result = (interpreter.solve branch).result ∧
        (interpreter.solve (visit name child start w)).world = (interpreter.solve branch).world := by
    obtain ⟨below, -⟩ := List.getElem?_eq_some_iff.mp at_start
    rw [branching.length] at below
    cases branching.visited name w at_start with
    | missing inside missing =>
        have here := selected _ (List.getElem?_eq_getElem inside)
        simp only [selects, missing, Bool.false_eq_true] at here
    | closed at_case _ closed =>
        rw [selected _ at_case] at closed
        cases closed
    | @ran branch _ calls result world guarded =>
        refine ⟨branch, below, fun inside => ?_, calls, result, world⟩
        obtain ⟨g, rfl, same⟩ := guarded inside
        exact ⟨g, at_start, same⟩
  cases walk with
  | ranOut out =>
      rw [branching.length] at out
      exact .inl ⟨out, rfl, rfl⟩
  | failed at_start result =>
      obtain ⟨branch, below, guarded, calls, same, -⟩ := visited at_start
      rw [result] at same
      refine .inr ⟨branch, [], below, guarded, calls [], fun _ => ⟨rfl, same⟩, fun failure => ?_⟩
      rw [failure] at same
      cases same
  | stopped at_start result stops =>
      obtain ⟨branch, below, guarded, calls, same, -⟩ := visited at_start
      rw [result] at same
      refine .inr ⟨branch, [], below, guarded, calls [], fun _ => ⟨rfl, same⟩, fun failure => ?_⟩
      rw [failure] at same
      exact absurd (by simpa using same) stops
  | @went _ _ _ _ status r at_start result on rest =>
      obtain ⟨branch, below, guarded, calls, same, world⟩ := visited at_start
      subst on
      rw [result] at same
      have later := (branching.set _).rest rest
      rw [world] at later
      refine .inr ⟨branch, _, below, guarded, calls _, fun other => absurd same.symm other, fun _ => ?_⟩
      rw [verdict]
      exact later

/-- The branches a tick of the branch selector runs. -/
theorem Branching.runs {q : Request σ κ} {n : SelectorNode Node} (ticks : q.ask.Ticks)
    (node : q.node = .selector n) (branching : spec.Branching 0 n.children)
    (reached : n.activeChild.getD 0 ≤ spec.target q.world.blackboard)
    (readable : spec.Readable (n.activeChild.getD 0) q.world.blackboard) :
    let target := spec.target q.world.blackboard
    (spec.branches ≤ target ∧ spec.runs q = [] ∧ (interpreter.solve q).result = .ok .failure) ∨
      ∃ branch more, target < spec.branches ∧
        (target < spec.cases.length → ∃ g, n.children[target]? = some (.when g) ∧
          interpreter.solve branch = spec.action n q.world g) ∧
        spec.runs q = (target, branch) :: more ∧
        ((interpreter.solve branch).result ≠ .ok .failure →
          more = [] ∧ (interpreter.solve q).result = (interpreter.solve branch).result) ∧
        ((interpreter.solve branch).result = .ok .failure →
          let left := (interpreter.solve branch).world.blackboard
          (more = [] ↔ spec.Silent (target + 1) left) ∧
            (more = [] → ((interpreter.solve q).result = .ok .failure ↔
              spec.Readable (target + 1) left))) := by
  obtain ⟨r, walk, called, ⟨-, result⟩, -⟩ := selector_tick ticks node
  obtain ⟨r', walk', ran, stopped⟩ := Branching.skips rfl reached walk
    (branching.mono (Nat.zero_le _)) (target_le _) readable fun i c before at_i => not_selects before at_i
  have same : r.verdict = r'.verdict := by rw [Walked.verdict, stopped, Walked.verdict]
  have at_target := (branching.mono (Nat.zero_le _)).at_target walk' (fun c at_c => by
    rw [World.passing_blackboard]
    exact selects_target at_c)
  change (interpreter.solve q).result = r.verdict at result
  rw [SwitchSpec.runs, called, ran, result, same]
  cases at_target with
  | inl absent =>
      obtain ⟨none, calls, out⟩ := absent
      exact .inl ⟨none, calls, walk'.verdict_failure.mpr out⟩
  | inr present =>
      obtain ⟨branch, more, below, guarded, rest⟩ := present
      refine .inr ⟨branch, more, below, fun inside => ?_, rest⟩
      obtain ⟨g, at_g, rfl⟩ := guarded inside
      exact ⟨g, at_g, rfl⟩

/-- The guard of the first case stops at a missing variable. -/
theorem Branching.unread {q : Request σ κ} {n : SelectorNode Node} (ticks : q.ask.Ticks)
    (node : q.node = .selector n) (branching : spec.Branching 0 n.children)
    (unread : ¬ spec.Readable (n.activeChild.getD 0) q.world.blackboard) :
    q.world.blackboard.getPath spec.on.key = none ∧ spec.runs q = [] ∧
      (interpreter.solve q).result ≠ .ok .failure := by
  obtain ⟨r, walk, called, ⟨-, result⟩, -⟩ := selector_tick ticks node
  change (interpreter.solve q).result = r.verdict at result
  obtain ⟨inside, missing⟩ : n.activeChild.getD 0 < spec.cases.length ∧
      q.world.blackboard.getPath spec.on.key = none := by
    simpa [Readable] using unread
  obtain ⟨silent, out⟩ := (branching.mono (Nat.zero_le _)).rest walk
  have quiet := silent.mpr (.inl ⟨inside, missing⟩)
  have stuck : r.verdict ≠ .ok .failure := by
    rw [Ne, walk.verdict_failure, out quiet]
    exact unread
  exact ⟨missing, (congrArg spec.branchCalls called).trans quiet, by rwa [result]⟩

/-- A tick that starts after the target dispatches only if there is no branch at the target. -/
theorem Branching.dispatches_past {q : Request σ κ} {n : SelectorNode Node} (ticks : q.ask.Ticks)
    (node : q.node = .selector n) (branching : spec.Branching 0 n.children)
    (past : spec.target q.world.blackboard < n.activeChild.getD 0) :
    spec.Dispatches q ↔ spec.branches ≤ spec.target q.world.blackboard := by
  obtain ⟨r, walk, called, ⟨-, result⟩, -⟩ := selector_tick ticks node
  change (interpreter.solve q).result = r.verdict at result
  have runs : spec.runs q = spec.branchCalls r.calls := congrArg spec.branchCalls called
  constructor
  · intro dispatches
    have after : ∀ b ∈ spec.branchCalls r.calls, n.activeChild.getD 0 ≤ b.1 :=
      Branching.position_le walk
    rw [Dispatches, runs] at dispatches
    cases ran : spec.branchCalls r.calls with
    | nil =>
        rw [ran] at dispatches
        exact dispatches.1
    | cons first more =>
        rw [ran] at dispatches after
        cases more with
        | nil =>
            have low := after first List.mem_cons_self
            rw [dispatches.1] at low
            omega
        | cons => exact absurd dispatches id
  · intro absent
    have below : spec.cases.length < n.activeChild.getD 0 := by
      rw [branches] at absent
      omega
    obtain ⟨silent, out⟩ := (branching.mono (Nat.zero_le _)).rest walk
    have quiet := silent.mpr (silent_past below)
    have failure := walk.verdict_failure.mpr
      ((out quiet).mpr fun inside => absurd inside (by omega))
    simp only [Dispatches, runs, quiet, absent, result, failure, and_self]

/-- A tick that reaches the target and can read the variable dispatches unless the action
    at the target fails and something happens after it. -/
theorem Branching.dispatches_reached {q : Request σ κ} {n : SelectorNode Node} (ticks : q.ask.Ticks)
    (node : q.node = .selector n) (branching : spec.Branching 0 n.children)
    (reached : n.activeChild.getD 0 ≤ spec.target q.world.blackboard)
    (readable : spec.Readable (n.activeChild.getD 0) q.world.blackboard) :
    spec.Dispatches q ↔ spec.Settles n q.world := by
  cases branching.runs ticks node reached readable with
  | inl absent =>
      obtain ⟨none, quiet, failure⟩ := absent
      have settles : spec.Settles n q.world := ⟨.inl reached, readable, fun g inside => by
        rw [branches] at none
        omega⟩
      simp only [Dispatches, quiet, none, failure, and_self, settles]
  | inr present =>
      obtain ⟨branch, more, below, guarded, ran, others, fails⟩ := present
      have action_eq {g : WhenNode Node} (inside : spec.target q.world.blackboard < spec.cases.length)
          (at_g : n.children[spec.target q.world.blackboard]? = some (.when g)) :
          interpreter.solve branch = spec.action n q.world g := by
        obtain ⟨g', at_g', action⟩ := guarded inside
        obtain rfl : g = g' := by simpa using at_g.symm.trans at_g'
        exact action
      by_cases failure : (interpreter.solve branch).result = .ok .failure
      · obtain ⟨silent, out⟩ := fails failure
        have dispatches : spec.Dispatches q ↔
            more = [] ∧ (interpreter.solve q).result = .ok .failure := by
          cases more <;> simp [Dispatches, ran, failure]
        rw [dispatches]
        constructor
        · intro given
          obtain ⟨quiet, failed⟩ := given
          refine ⟨.inl reached, readable, fun g inside at_g _ => ?_⟩
          rw [← action_eq inside at_g]
          exact ⟨silent.mp quiet, (out quiet).mp failed⟩
        · intro settles
          by_cases inside : spec.target q.world.blackboard < spec.cases.length
          · obtain ⟨g, at_g, action⟩ := guarded inside
            rw [action] at failure silent out
            obtain ⟨nothing, readable'⟩ := settles.final g inside at_g failure
            exact ⟨silent.mpr nothing, (out (silent.mpr nothing)).mpr readable'⟩
          · have quiet : more = [] := silent.mpr (silent_past (by omega))
            exact ⟨quiet, (out quiet).mpr fun below => absurd below (by omega)⟩
      · obtain ⟨quiet, same⟩ := others failure
        have dispatches : spec.Dispatches q := by
          simp only [Dispatches, ran, quiet, same, and_self]
        refine iff_of_true dispatches ⟨.inl reached, readable, fun g inside at_g failed => ?_⟩
        rw [← action_eq inside at_g] at failed
        exact absurd failed failure

/-- A tick dispatches exactly when it settles. -/
theorem Branching.dispatches_iff {q : Request σ κ} {n : SelectorNode Node} (ticks : q.ask.Ticks)
    (node : q.node = .selector n) (branching : spec.Branching 0 n.children) :
    spec.Dispatches q ↔ spec.Settles n q.world := by
  by_cases reached : n.activeChild.getD 0 ≤ spec.target q.world.blackboard
  · by_cases readable : spec.Readable (n.activeChild.getD 0) q.world.blackboard
    · exact branching.dispatches_reached ticks node reached readable
    · obtain ⟨-, quiet, stuck⟩ := branching.unread ticks node readable
      apply iff_of_false _ fun settles => readable settles.readable
      simp only [Dispatches, quiet, stuck, and_false, not_false_eq_true]
  · rw [branching.dispatches_past ticks node (by omega)]
    constructor
    · intro absent
      rw [branches] at absent
      refine ⟨.inr absent, fun inside => ?_, fun g inside => ?_⟩
      · omega
      · omega
    · intro settles
      exact settles.reached.resolve_left reached

/-- From the first case on, exactly this case runs: the variable has its value first, and
    where its action fails, nothing runs after it. -/
theorem Branching.runs_iff {q : Request σ κ} {n : SelectorNode Node} {i : Nat} (ticks : q.ask.Ticks)
    (node : q.node = .selector n) (branching : spec.Branching 0 n.children)
    (idle : n.activeChild = none) (inside : i < spec.cases.length) :
    (spec.runs q).map Prod.fst = [i] ↔ spec.target q.world.blackboard = i ∧
      ∀ g, n.children[i]? = some (.when g) → (spec.action n q.world g).result = .ok .failure →
        spec.Silent (i + 1) (spec.action n q.world g).world.blackboard := by
  have start : n.activeChild.getD 0 = 0 := by rw [idle, Option.getD_none]
  by_cases readable : spec.Readable (n.activeChild.getD 0) q.world.blackboard
  · cases branching.runs ticks node (by omega) readable with
    | inl absent =>
        obtain ⟨none, quiet, -⟩ := absent
        have other : spec.target q.world.blackboard ≠ i := by
          rw [branches] at none
          omega
        simp only [quiet, List.map_nil, other, false_and, List.nil_eq, List.cons_ne_nil]
    | inr present =>
        obtain ⟨branch, more, -, guarded, ran, others, fails⟩ := present
        have alone : (spec.runs q).map Prod.fst = [i] ↔
            spec.target q.world.blackboard = i ∧ more = [] := by
          rw [ran, List.map_cons, List.cons.injEq, List.map_eq_nil_iff]
        rw [alone]
        apply and_congr_right
        intro same
        rw [← same] at inside ⊢
        obtain ⟨g, at_g, action⟩ := guarded inside
        rw [action] at others fails
        have only : ∀ g', n.children[spec.target q.world.blackboard]? = some (.when g') → g' = g := by
          intro g' at_g'
          simpa using at_g'.symm.trans at_g
        constructor
        · intro quiet g' at_g' failure
          rw [only g' at_g'] at failure ⊢
          exact (fails failure).1.mp quiet
        · intro final
          by_cases failure : (spec.action n q.world g).result = .ok .failure
          · exact (fails failure).1.mpr (final g at_g failure)
          · exact (others failure).1
  · obtain ⟨missing, quiet, -⟩ := branching.unread ticks node readable
    have other : spec.target q.world.blackboard ≠ i := by
      intro same
      rw [← same] at inside
      have selected := selects_target (List.getElem?_eq_getElem inside)
      simp only [selects, missing, Bool.false_eq_true] at selected
    simp only [quiet, List.map_nil, other, false_and, List.nil_eq, List.cons_ne_nil]

end SwitchSpec

/-! ## Desugared switches -/

/-- The selector over the branches of a switch. -/
def SwitchSpec.branchSelector (spec : SwitchSpec ThenSpec) : SelectorNode Node :=
  { name := spec.name ++ "_branch"
    children := desugarCases spec.name spec.on.key spec.cases ++ desugarDefault spec.default }

omit [Session σ] [Clock κ] in
theorem desugarCases_length (name key : String) (cases : List (SwitchCase ThenSpec)) :
    (desugarCases name key cases).length = cases.length := by
  induction cases with
  | nil => rfl
  | cons c rest ih =>
      obtain ⟨value, action⟩ := c
      rw [desugarCases, List.length_cons, ih, List.length_cons]

theorem desugarCases_at (name key : String) : ∀ (cases : List (SwitchCase ThenSpec)) (i : Nat)
    (c : SwitchCase ThenSpec), cases[i]? = some c →
      (desugarCases name key cases)[i]? = some (caseNode name key c.value (desugarThen c.action)) := by
  intro cases
  induction cases with
  | nil =>
      intro i c at_i
      cases at_i
  | cons c rest ih =>
      intro i c' at_i
      obtain ⟨value, action⟩ := c
      rw [desugarCases]
      cases i with
      | zero =>
          obtain rfl := Option.some.inj at_i
          rfl
      | succ i => exact ih i c' at_i

/-- The selector over the branches, in any run state, visits guarded branches. -/
theorem SwitchSpec.branching_of_reset (spec : SwitchSpec ThenSpec) {node : Node}
    (same : node.reset = (Node.selector spec.branchSelector).reset) :
    ∃ n, node = .selector n ∧ n.name = spec.branchSelector.name ∧ spec.Branching 0 n.children := by
  cases node with
  | selector n =>
      simp only [Node.reset, Node.selector.injEq, SelectorNode.mk.injEq,
        Node.resetList_eq_map] at same
      obtain ⟨name, children, -⟩ := same
      refine ⟨n, rfl, name, ?_, fun i c _ at_i => ?_⟩
      · have length := congrArg List.length children
        rw [List.length_map, List.length_map] at length
        rw [length, branchSelector, List.length_append, desugarCases_length, branches]
        cases spec.default <;> rfl
      · have at_case := desugarCases_at spec.name spec.on.key spec.cases i c at_i
        have inside : i < (desugarCases spec.name spec.on.key spec.cases).length :=
          (List.getElem?_eq_some_iff.mp at_case).1
        have reset := congrArg (fun ns => ns[i]?) children
        simp only [branchSelector, List.getElem?_map, List.getElem?_append_left inside, at_case,
          Option.map_some] at reset
        obtain ⟨child, at_child, guard⟩ := Option.map_eq_some_iff.mp reset
        cases child with
        | when g =>
            simp only [caseNode, Node.reset, Node.when.injEq, WhenNode.mk.injEq] at guard
            exact ⟨g, at_child, guard.2.1⟩
        | subTree m =>
            rw [Node.reset_subTree] at guard
            cases guard
        | _ => cases guard
  | subTree n =>
      rw [Node.reset_subTree] at same
      cases same
  | _ => cases same

/-- In every run state of a desugared `switch` on a variable, a tick runs the branch of the
    first case with the value of the variable, or `_default` if there is none, alone and
    with its result, if and only if the tick settles. -/
theorem desugarSwitch_dispatches (name key : String) (cases : List (SwitchCase ThenSpec))
    (default : Option ThenSpec) (n : SelectorNode Node) (w : World σ κ)
    (same : (Node.selector n).reset = (desugarSwitch ⟨name, .variable key, cases, default⟩).reset) :
    SwitchSpec.Dispatches ⟨name, .variable key, cases, default⟩ ⟨.tick, .selector n, w⟩ ↔
      SwitchSpec.Settles ⟨name, .variable key, cases, default⟩ n w := by
  obtain ⟨m, node, -, branching⟩ := SwitchSpec.branching_of_reset
    ⟨name, .variable key, cases, default⟩ same
  obtain rfl := Node.selector.inj node
  exact branching.dispatches_iff trivial rfl

end

section

open Plain

/-- One case, and `_default`. -/
def strategySwitch : SwitchSpec ThenSpec :=
  { name := "route", on := .variable "strategy"
    cases := [⟨"RETRY", .inlineCommand (.agent .wakeUp)⟩]
    default := some (.inlineCommand (.agent .approveAndContinue)) }

/-- Without the variable the switch is an error, and `_default` does not run. -/
theorem missing_variable_undispatched : ¬ ∀ (name key : String) (cases : List (SwitchCase ThenSpec))
    (default : Option ThenSpec) (w : World Silent Frozen),
    SwitchSpec.Dispatches ⟨name, .variable key, cases, default⟩
      ⟨.tick, desugarSwitch ⟨name, .variable key, cases, default⟩, w⟩ := by
  intro all
  have dispatched := all strategySwitch.name "strategy" strategySwitch.cases strategySwitch.default
    { Plain.ctx with tracer := {} }
  obtain ⟨n, node, -, branching⟩ := SwitchSpec.branching_of_reset strategySwitch rfl
  have settles := (branching.dispatches_iff (q := ⟨.tick, _, { Plain.ctx with tracer := {} }⟩)
    trivial node).mp dispatched
  cases node
  exact absurd (settles.readable (by decide)) (by decide)

/-- The switch of the example, never ticked. -/
theorem strategySwitch_dispatches :
    SwitchSpec.Dispatches strategySwitch ⟨.tick, .selector strategySwitch.branchSelector,
        ({ Plain.ctx with tracer := {} } : World Silent Frozen)⟩ ↔
      SwitchSpec.Settles strategySwitch strategySwitch.branchSelector
        ({ Plain.ctx with tracer := {} } : World Silent Frozen) :=
  desugarSwitch_dispatches _ _ _ _ _ _ rfl

end

end AgileAgent.DecisionDsl
