import AgileAgent.DecisionDsl.Desugar
import AgileAgent.DecisionDsl.Runs
import AgileAgent.DecisionDsl.Steps

/-! # Retries

`on_error: retry` becomes a repeater of two attempts around the body of a rule or
`when`. An attempt is a call of the body with the calls that go on with it, after
`Running` or an error; the repeater counts attempts that succeed and attempts that
fail alike.
-/

namespace AgileAgent.DecisionDsl

open CallTree

/-! ## Attempts -/

/-- What a call of the body returned. -/
abbrev Outcome := Except Fault NodeStatus

/-- The call ended an attempt. -/
def Ends : Outcome → Bool
  | .ok .success | .ok .failure => true
  | _ => false

/-- The results of the calls that ended an attempt. -/
def ended (results : List Outcome) : List Outcome := results.filter Ends

/-- The calls that start an attempt, those that do not go on with one. -/
def startsAfter : (underway : Bool) → List Outcome → Nat
  | _, [] => 0
  | underway, r :: rest => (if underway then 0 else 1) + startsAfter (!Ends r) rest

def starts (results : List Outcome) : Nat := startsAfter false results

/-- The body is started at most twice, a second time only after a failure, and the first
    success ends the run with success. -/
structure RetriesOnce (results : List Outcome) (final : NodeStatus) : Prop where
  twice : starts results ≤ 2
  after_failure : 2 ≤ starts results → (ended results).head? = some (.ok .failure)
  success : ∀ before later, results = before ++ .ok .success :: later →
    later = [] ∧ final = .success

theorem ends_ok {status : NodeStatus} (done : status ≠ .running) : Ends (.ok status) = true := by
  cases status with
  | success | failure => rfl
  | running => exact absurd rfl done

theorem startsAfter_le (underway : Bool) (results : List Outcome) :
    startsAfter underway results ≤ (if underway then 0 else 1) + (ended results.dropLast).length := by
  induction results generalizing underway with
  | nil => exact Nat.zero_le _
  | cons r rest ih =>
      cases rest with
      | nil => simp only [startsAfter, List.dropLast_singleton, ended, List.filter_nil,
          List.length_nil, Nat.le_refl]
      | cons r' rest =>
          have later := ih (!Ends r)
          rw [List.dropLast_cons_of_ne_nil (List.cons_ne_nil _ _), startsAfter, ended, List.filter_cons]
          rw [ended] at later
          cases finished : Ends r with
          | true =>
              simp only [finished, Bool.not_true, Bool.false_eq_true, if_false, if_true,
                List.length_cons] at later ⊢
              omega
          | false =>
              simp only [finished, Bool.not_false, Bool.false_eq_true, if_false, if_true] at later ⊢
              omega

theorem ended_eq_nil {results : List Outcome} (none : ∀ r ∈ results, Ends r = false) :
    ended results = [] :=
  List.filter_eq_nil_iff.mpr fun r member => by simp [none r member]

/-- The results of a run of two attempts at most: calls that end nothing, and perhaps a
    first attempt that ends, further calls that end nothing, and a second that ends. -/
inductive TwoAttempts : List Outcome → NodeStatus → Prop where
  | none {results : List Outcome} (pending : ∀ r ∈ results, Ends r = false) :
      TwoAttempts results .failure
  | one {before after : List Outcome} {first : NodeStatus} (pending : ∀ r ∈ before, Ends r = false)
      (done : first ≠ .running) (pending' : ∀ r ∈ after, Ends r = false) :
      TwoAttempts (before ++ .ok first :: after) .failure
  | two {before after : List Outcome} {first second : NodeStatus}
      (pending : ∀ r ∈ before, Ends r = false) (done : first ≠ .running)
      (pending' : ∀ r ∈ after, Ends r = false) (done' : second ≠ .running) :
      TwoAttempts (before ++ .ok first :: (after ++ [.ok second])) second

/-- The results of a first attempt that ended and of what came after it. -/
theorem ended_first {before after : List Outcome} {first : NodeStatus}
    (pending : ∀ r ∈ before, Ends r = false) (done : first ≠ .running)
    (pending' : ∀ r ∈ after, Ends r = false) :
    ended (before ++ .ok first :: after) = [.ok first] := by
  have quiet : ended after = [] := ended_eq_nil pending'
  have quiet' : ended before = [] := ended_eq_nil pending
  simp only [ended] at quiet quiet' ⊢
  rw [List.filter_append, quiet', List.nil_append, List.filter_cons_of_pos (ends_ok done), quiet]

theorem success_not_mem {results : List Outcome} {r : Outcome} (failed : ended results = [r])
    (other : r ≠ .ok .success) : .ok .success ∉ results := by
  intro member
  have : .ok .success ∈ ended results := List.mem_filter.mpr ⟨member, rfl⟩
  rw [failed] at this
  exact other (List.mem_singleton.mp this).symm

/-- With two attempts a second one is made after a success too, so a first attempt that
    succeeds is the only fault. -/
theorem TwoAttempts.retriesOnce_iff {results : List Outcome} {final : NodeStatus}
    (attempts : TwoAttempts results final) :
    RetriesOnce results final ↔ (ended results).head? ≠ some (.ok .success) := by
  have failure {first : NodeStatus} (done : first ≠ .running)
      (other : Except.ok first ≠ (.ok .success : Outcome)) : first = .failure := by
    cases first with
    | success => exact absurd rfl other
    | failure => rfl
    | running => exact absurd rfl done
  have few := startsAfter_le false results
  cases attempts with
  | none pending =>
      have quiet : ended results = [] := ended_eq_nil pending
      have quiet' : ended results.dropLast = [] :=
        ended_eq_nil fun r member => pending r ((List.dropLast_sublist _).subset member)
      rw [quiet'] at few
      refine ⟨fun _ => by rw [quiet]; simp, fun _ => ⟨Nat.le_trans few (by decide), ?_, ?_⟩⟩
      · intro two
        exact absurd (Nat.le_trans two few) (by decide)
      · rintro before later rfl
        have : Ends (.ok .success) = false := pending _ (List.mem_append_right _ List.mem_cons_self)
        cases this
  | @one before after first pending done pending' =>
      have finished := ended_first pending done pending'
      have less : (ended (before ++ .ok first :: after).dropLast).length ≤ 1 := by
        have := ((List.dropLast_sublist (before ++ .ok first :: after)).filter Ends).length_le
        rwa [← ended, ← ended, finished] at this
      rw [finished, List.head?_cons, ne_eq, Option.some.injEq]
      constructor
      · intro once succeeds
        obtain rfl := Except.ok.inj succeeds
        cases (once.success before after rfl).2
      · intro other
        obtain rfl := failure done other
        refine ⟨Nat.le_trans few (Nat.add_le_add_left less _), fun _ => by rw [finished]; rfl, ?_⟩
        intro before' later split
        have member : .ok .success ∈ before ++ .ok .failure :: after := by
          rw [split]
          exact List.mem_append_right _ List.mem_cons_self
        exact absurd member (success_not_mem finished other)
  | @two before after first _ pending done pending' done' =>
      have finished := ended_first pending done pending'
      have all : before ++ .ok first :: (after ++ [.ok final]) =
          (before ++ .ok first :: after) ++ [.ok final] := by
        rw [List.append_assoc, List.cons_append]
      have head : (ended (before ++ .ok first :: (after ++ [.ok final]))).head? =
          some (.ok first) := by
        rw [all, ended, List.filter_append, ← ended, finished]
        rfl
      rw [all, List.dropLast_concat, finished] at few
      rw [head, ne_eq, Option.some.injEq]
      constructor
      · intro once succeeds
        obtain rfl := Except.ok.inj succeeds
        have empty := (once.success before _ rfl).1
        simp at empty
      · intro other
        obtain rfl := failure done other
        refine ⟨by rw [all]; exact few, fun _ => head, ?_⟩
        intro before' later split
        rw [all] at split
        rcases List.eq_nil_or_concat later with rfl | ⟨later, r, rfl⟩
        · obtain ⟨-, last⟩ := List.append_inj' split rfl
          cases last
          exact ⟨rfl, rfl⟩
        · rw [List.concat_eq_append, ← List.cons_append, ← List.append_assoc] at split
          obtain ⟨front, -⟩ := List.append_inj' split rfl
          have member : .ok .success ∈ before ++ .ok .failure :: after := by
            rw [front]
            exact List.mem_append_right _ List.mem_cons_self
          exact absurd member (success_not_mem finished other)

/-! ## One request -/

/-- What one request does to a repeater of two attempts that has made `current` of them:
    the results of the calls of its body, its own result, and the attempts made then. -/
inductive OneTurn : UInt32 → List Outcome → Outcome → UInt32 → Prop where
  | skipped {current : UInt32} : OneTurn current [] (.ok .failure) current
  | pending {current : UInt32} {r : Outcome} (open_ : Ends r = false) :
      OneTurn current [r] r current
  | last {status : NodeStatus} (done : status ≠ .running) : OneTurn 1 [.ok status] (.ok status) 0
  | second {first : NodeStatus} {r : Outcome} (done : first ≠ .running) (open_ : Ends r = false) :
      OneTurn 0 [.ok first, r] r 1
  | both {first status : NodeStatus} (done : first ≠ .running) (done' : status ≠ .running) :
      OneTurn 0 [.ok first, .ok status] (.ok status) 0
  | panicked {current current' : UInt32} {results : List Outcome} :
      OneTurn current results (.error .panic) current'

/-- What the calls of the body returned while no attempt, or one, has ended. -/
inductive Underway : UInt32 → List Outcome → Prop where
  | none {results : List Outcome} (pending : ∀ r ∈ results, Ends r = false) : Underway 0 results
  | one {before after : List Outcome} {first : NodeStatus} (pending : ∀ r ∈ before, Ends r = false)
      (done : first ≠ .running) (pending' : ∀ r ∈ after, Ends r = false) :
      Underway 1 (before ++ .ok first :: after)

theorem Underway.made {current : UInt32} {results : List Outcome}
    (underway : Underway current results) : current = 0 ∨ current = 1 := by
  cases underway with
  | none => exact .inl rfl
  | one => exact .inr rfl

theorem Underway.append {current : UInt32} {results later : List Outcome}
    (underway : Underway current results) (pending : ∀ r ∈ later, Ends r = false) :
    Underway current (results ++ later) := by
  have both {front : List Outcome} (quiet : ∀ r ∈ front, Ends r = false) :
      ∀ r ∈ front ++ later, Ends r = false := fun r member =>
    (List.mem_append.mp member).elim (quiet r) (pending r)
  cases underway with
  | none quiet => exact .none (both quiet)
  | one quiet done quiet' =>
      rw [List.append_assoc, List.cons_append]
      exact .one quiet done (both quiet')

theorem Underway.suspend {current made : UInt32} {results later : List Outcome} {r : Outcome}
    (underway : Underway current results) (turn : OneTurn current later r made)
    (open_ : Ends r = false) (alive : r ≠ .error .panic) : Underway made (results ++ later) := by
  cases turn with
  | skipped => cases open_
  | pending => exact underway.append (by simpa using open_)
  | last done => rw [ends_ok done] at open_; cases open_
  | second done =>
      cases underway with
      | none pending => exact .one pending done (by simpa using open_)
  | both _ done' => rw [ends_ok done'] at open_; cases open_
  | panicked => exact absurd rfl alive

theorem Underway.finish {current made : UInt32} {results later : List Outcome} {final : NodeStatus}
    (underway : Underway current results) (turn : OneTurn current later (.ok final) made)
    (done : final ≠ .running) : TwoAttempts (results ++ later) final := by
  cases turn with
  | skipped =>
      rw [List.append_nil]
      cases underway with
      | none pending => exact .none pending
      | one pending done pending' => exact .one pending done pending'
  | pending open_ => rw [ends_ok done] at open_; cases open_
  | last =>
      cases underway with
      | one pending done' pending' =>
          rw [List.append_assoc, List.cons_append]
          exact .two pending done' pending' done
  | second _ open_ => rw [ends_ok done] at open_; cases open_
  | both done' =>
      cases underway with
      | none pending => exact @TwoAttempts.two _ [] _ _ pending done' nofun done

/-- A repeater of two attempts, `current` of them made, around a body of this height,
    perhaps under guards of a rule. -/
inductive Retrying (height : Nat) (current : UInt32) : Node → Prop where
  | repeater (name : String) {child : Node} (body : child.height = height) :
      Retrying height current (.repeater { name, maxAttempts := 2, child, current })
  | reflectionGuard (n : ReflectionGuardNode Node) (below : Retrying height current n.child) :
      Retrying height current (.reflectionGuard n)
  | cooldown (n : CooldownNode Node) (below : Retrying height current n.child) :
      Retrying height current (.cooldown n)

theorem Retrying.above {height : Nat} {current : UInt32} {n : Node}
    (retrying : Retrying height current n) : height < n.height := by
  induction retrying with
  | repeater _ body =>
      simp only [Node.height, body]
      exact Nat.lt_succ_self _
  | reflectionGuard _ _ ih | cooldown _ _ ih =>
      simp only [Node.height]
      exact Nat.lt_trans ih (Nat.lt_succ_self _)

/-- An attempt of a repeater of two is over, or the routine ends with what the body
    returned. -/
theorem repeaterAttempt_run {σ κ : Type} {n : RepeaterNode Node} (two : n.maxAttempts = 2)
    (r : Answer σ κ) (again : RepeaterNode Node → World σ κ → Routine σ κ (RepeaterNode Node)) :
    (Ends r.result = false ∧
      repeaterAttempt n r again = .ret ⟨r.result, { n with child := r.node }, r.world⟩) ∨
    ∃ status, status ≠ .running ∧ r.result = .ok status ∧
      (n.current = 1 → repeaterAttempt n r again =
        .ret ⟨.ok status, { n with child := r.node, current := 0 }, r.world⟩) ∧
      (n.current = 0 → repeaterAttempt n r again =
        again { n with child := r.node, current := 1 } r.world) := by
  have counted (status : NodeStatus) :
      (n.current = 1 → repeaterCount { n with child := r.node } status r.world again =
        .ret ⟨.ok status, { n with child := r.node, current := 0 }, r.world⟩) ∧
      (n.current = 0 → repeaterCount { n with child := r.node } status r.world again =
        again { n with child := r.node, current := 1 } r.world) := by
    constructor
    · intro made
      simp only [repeaterCount, made, two, show ¬ (1 : UInt32).toNat + 1 = UInt32.size by decide,
        show (1 : UInt32) + 1 ≥ 2 by decide, if_true, if_false]
    · intro made
      simp only [repeaterCount, made, two, show ¬ (0 : UInt32).toNat + 1 = UInt32.size by decide,
        show ¬ (0 : UInt32) + 1 ≥ 2 by decide, if_false]
      rfl
  cases result : r.result with
  | error e => exact .inl ⟨rfl, by simp only [repeaterAttempt, result]⟩
  | ok status =>
      cases status with
      | running => exact .inl ⟨rfl, by simp only [repeaterAttempt, result]⟩
      | success =>
          refine .inr ⟨.success, by decide, rfl, ?_⟩
          simp only [repeaterAttempt, result]
          exact counted .success
      | failure =>
          refine .inr ⟨.failure, by decide, rfl, ?_⟩
          simp only [repeaterAttempt, result]
          exact counted .failure

section

variable {σ κ : Type} [Crates] [Session σ] [Clock κ]

/-- The calls of the body during a request: of all calls made on the way those at the
    height of the body, as heights go down from call to call. -/
def bodyCalls (height : Nat) (q : Request σ κ) : List (Request σ κ) :=
  (interpreter.trail q).filter (·.node.height = height)

/-- Their results over several requests. -/
def bodyResults (height : Nat) (qs : List (Request σ κ)) : List Outcome :=
  (qs.flatMap (bodyCalls height)).map fun q => (interpreter.solve q).result

theorem bodyCalls_here {q : Request σ κ} : bodyCalls q.node.height q = [q] := by
  have below : ∀ v ∈ (interpreter.calls q).flatMap interpreter.trail,
      ¬ (decide (v.node.height = q.node.height)) = true := by
    intro v visited
    obtain ⟨q', called, inside⟩ := List.mem_flatMap.mp visited
    have lower := (interpreter_callOf called).height_lt
    have : v.node.height < q.node.height := by
      rcases trail_height inside with rfl | lower'
      · exact lower
      · exact Nat.lt_trans lower' lower
    simpa using Nat.ne_of_lt this
  rw [bodyCalls, interpreter.trail_eq, List.filter_cons_of_pos (by simp),
    List.filter_eq_nil_iff.mpr below]

theorem bodyResults_here {height : Nat} {q : Request σ κ} (here : q.node.height = height) :
    bodyResults height [q] = [(interpreter.solve q).result] := by
  rw [bodyResults, List.flatMap_singleton, ← here, bodyCalls_here, List.map_singleton]

theorem bodyResults_append (height : Nat) (qs qs' : List (Request σ κ)) :
    bodyResults height (qs ++ qs') = bodyResults height qs ++ bodyResults height qs' := by
  rw [bodyResults, List.flatMap_append, List.map_append]
  rfl

theorem bodyResults_cons (height : Nat) (q : Request σ κ) (qs : List (Request σ κ)) :
    bodyResults height (q :: qs) = bodyResults height [q] ++ bodyResults height qs :=
  bodyResults_append height [q] qs

theorem bodyResults_above {height : Nat} {q : Request σ κ} (above : height < q.node.height) :
    bodyResults height [q] = bodyResults height ((requestBody q).calls interpreter.solve) := by
  have other : ¬ q.node.height = height := Nat.ne_of_gt above
  rw [bodyResults, List.flatMap_singleton, bodyCalls, interpreter_trail,
    List.filter_cons_of_neg (by simpa using other), List.filter_flatMap]
  rfl

/-- After one turn the node is retrying still, unless it panicked. -/
def Turns (height : Nat) (current : UInt32) (q : Request σ κ) : Prop :=
  ∃ made, OneTurn current (bodyResults height [q]) (interpreter.solve q).result made ∧
    ((interpreter.solve q).result ≠ .error .panic →
      Retrying height made (interpreter.solve q).node)

/-- One turn, given what the loop of the repeater calls and returns. -/
theorem repeater_turns {q : Request σ κ} {name : String} {current : UInt32} {child : Node}
    (node : q.node = .repeater { name, maxAttempts := 2, child, current })
    (made : current = 0 ∨ current = 1) : Turns child.height current q := by
  have above : child.height < q.node.height := by
    rw [node]
    exact (Retrying.repeater name rfl : Retrying child.height current _).above
  have left : current < 2 := by
    rcases made with rfl | rfl <;> decide
  have kept {m : Node} {w : World σ κ} {ask : Ask} (same : m.height = child.height) :
      (interpreter.solve ⟨ask, m, w⟩).node.height = child.height :=
    (Node.height_of_reset (interpreter_reset _)).trans same
  obtain ⟨asks, count, routine⟩ := requestBody_repeater node left
  have answer := interpreter_solve q
  have results := bodyResults_above above
  rw [routine, Body.run_map] at answer
  rw [routine, Body.calls_map] at results
  rw [Turns, answer, results]
  clear answer results routine
  rcases made with rfl | rfl
  · obtain ⟨ask, ask', rfl⟩ : ∃ ask ask', asks = [ask, ask'] :=
      List.length_eq_two.mp (count.trans rfl)
    let first : Request σ κ := ⟨ask, child, q.world⟩
    have here : bodyResults child.height [first] = [(interpreter.solve first).result] :=
      bodyResults_here rfl
    rw [repeaterLoop, Body.run_call, Body.calls_call, bodyResults_cons, here]
    rcases repeaterAttempt_run (n := ⟨name, 2, child, 0⟩) rfl (interpreter.solve first)
      (repeaterLoop [ask']) with ⟨pending, shape⟩ | ⟨status, done, result, -, shape⟩
    · rw [shape]
      exact ⟨0, .pending pending, fun _ => .repeater name (kept rfl)⟩
    · have same : (interpreter.solve first).node.height = child.height := kept rfl
      let second : Request σ κ :=
        ⟨ask', (interpreter.solve first).node, (interpreter.solve first).world⟩
      have here' : bodyResults child.height [second] = [(interpreter.solve second).result] :=
        bodyResults_here same
      rw [shape rfl, result, repeaterLoop, Body.run_call, Body.calls_call, bodyResults_cons, here']
      rcases repeaterAttempt_run (n := ⟨name, 2, (interpreter.solve first).node, 1⟩) rfl
        (interpreter.solve second) (repeaterLoop []) with
        ⟨pending, shape'⟩ | ⟨status', done', result', shape', -⟩
      · rw [shape']
        exact ⟨1, .second done pending, fun _ => .repeater name (kept same)⟩
      · rw [shape' rfl, result']
        exact ⟨0, .both done done', fun _ => .repeater name (kept same)⟩
  · obtain ⟨ask, rfl⟩ : ∃ ask, asks = [ask] := List.length_eq_one_iff.mp (count.trans rfl)
    let called : Request σ κ := ⟨ask, child, q.world⟩
    have here : bodyResults child.height [called] = [(interpreter.solve called).result] :=
      bodyResults_here rfl
    rw [repeaterLoop, Body.run_call, Body.calls_call, bodyResults_cons, here]
    rcases repeaterAttempt_run (n := ⟨name, 2, child, 1⟩) rfl (interpreter.solve called)
      (repeaterLoop []) with ⟨pending, shape⟩ | ⟨status, done, result, shape, -⟩
    · rw [shape]
      exact ⟨1, .pending pending, fun _ => .repeater name (kept rfl)⟩
    · rw [shape rfl, result]
      exact ⟨0, .last done, fun _ => .repeater name (kept rfl)⟩

theorem requestBody_cooldown {q : Request σ κ} {n : CooldownNode Node}
    (node : q.node = .cooldown n) :
    ∃ ask, requestBody q = (cooldownWith ask n q.world).map (.map .cooldown) := by
  cases q using requestBody_cases with
  | cooldown ask m w ask' =>
      obtain rfl := Node.cooldown.inj node
      exact ⟨ask', rfl⟩
  | _ => cases node

/-- The guards of a rule skip a turn or let it through. -/
theorem Retrying.turns {height : Nat} {current : UInt32} {n : Node}
    (retrying : Retrying height current n) (made : current = 0 ∨ current = 1) :
    ∀ q : Request σ κ, q.node = n → Turns height current q := by
  induction retrying with
  | repeater name body =>
      intro q node
      subst body
      exact repeater_turns node made
  | reflectionGuard n below ih =>
      intro q node
      have above : height < q.node.height := by
        rw [node]
        exact (Retrying.reflectionGuard n below).above
      obtain ⟨ask, routine⟩ := requestBody_reflectionGuard node
      rw [Turns, interpreter_solve, bodyResults_above above, routine, Body.run_map, Body.calls_map,
        reflectionGuardWith]
      split
      · exact ⟨current, .skipped, fun _ => .reflectionGuard n below⟩
      · obtain ⟨made', turn, kept⟩ := ih ⟨ask, n.child, q.world⟩ rfl
        rw [Body.run_call, Body.calls_call]
        dsimp only
        split
        · split
          · exact ⟨0, .panicked, fun ok => absurd rfl ok⟩
          · exact ⟨made', turn, fun ok => .reflectionGuard _ (kept ok)⟩
        · exact ⟨made', turn, fun ok => .reflectionGuard _ (kept ok)⟩
  | cooldown n below ih =>
      intro q node
      have above : height < q.node.height := by
        rw [node]
        exact (Retrying.cooldown n below).above
      obtain ⟨ask, routine⟩ := requestBody_cooldown node
      rw [Turns, interpreter_solve, bodyResults_above above, routine, Body.run_map, Body.calls_map,
        cooldownWith]
      dsimp only
      split
      · exact ⟨current, .skipped, fun _ => .cooldown n below⟩
      · obtain ⟨made', turn, kept⟩ := ih ⟨ask, n.child, (cooldownClosed n q.world).2⟩ rfl
        rw [Body.run_call, Body.calls_call]
        split
        · exact ⟨made', turn, fun ok => .cooldown _ (kept ok)⟩
        · exact ⟨made', turn, fun ok => .cooldown _ (kept ok)⟩

/-! ## Runs -/

/-- A request that ends nothing for its caller either. -/
def Suspends (q : Request σ κ) : Prop :=
  (interpreter.solve q).result = .ok .running ∨ ∃ e, (interpreter.solve q).result = .error (.error e)

theorem Suspends.open_ {q : Request σ κ} (suspends : Suspends q) :
    Ends (interpreter.solve q).result = false ∧ (interpreter.solve q).result ≠ .error .panic := by
  rcases suspends with result | ⟨e, result⟩ <;> rw [result] <;> exact ⟨rfl, nofun⟩

/-- Requests to a retrying node up to the first that ends. -/
theorem Retrying.serve {height : Nat} {current : UInt32} {results : List Outcome} {n : Node}
    (retrying : Retrying height current n) (underway : Underway current results)
    {steps : List (Ask × World σ κ)} {waits : List (Request σ κ)} {last : Request σ κ}
    {final : NodeStatus} (served : n.serve steps = waits ++ [last])
    (suspends : ∀ q ∈ waits, Suspends q) (ends : (interpreter.solve last).result = .ok final)
    (done : final ≠ .running) :
    TwoAttempts (results ++ bodyResults height (n.serve steps)) final := by
  induction steps generalizing n current results waits with
  | nil =>
      rw [Node.serve] at served
      exact absurd served.symm (by simp)
  | cons step rest ih =>
      obtain ⟨ask, w⟩ := step
      rw [Node.serve] at served ⊢
      obtain ⟨made, turn, kept⟩ := retrying.turns underway.made ⟨ask, n, w⟩ rfl
      cases waits with
      | nil =>
          obtain ⟨rfl, rest_nil⟩ := List.cons.inj served
          rw [rest_nil]
          rw [ends] at turn
          exact underway.finish turn done
      | cons first waits =>
          obtain ⟨rfl, later⟩ := List.cons.inj (served.trans (List.cons_append ..))
          obtain ⟨open_, alive⟩ := (suspends _ List.mem_cons_self).open_
          rw [bodyResults_cons, ← List.append_assoc]
          exact ih (kept alive) (underway.suspend turn open_ alive) later
            fun q member => suspends q (List.mem_cons_of_mem _ member)

end

section

variable [Crates]

/-- What `on_error: retry` makes of a rule or `when`, and the body it retries. -/
inductive RetriedBody : Node → Node → Prop where
  | rule (rule : RuleSpec) (retry : rule.onError = some .retry) : RetriedBody (desugarRule rule)
      (guardRule rule.name rule.condition (desugarThen rule.action))
  | when (spec : WhenSpec ThenSpec) (retry : spec.onError = some .retry) :
      RetriedBody (desugarWhen spec) (.when
        { name := spec.name, condition := spec.condition, action := desugarThen spec.then })

theorem RetriedBody.retrying {node body : Node} (retried : RetriedBody node body) :
    Retrying body.height 0 node := by
  cases retried with
  | rule rule retry =>
      have retrying : Retrying (guardRule rule.name rule.condition (desugarThen rule.action)).height
          0 (handleError "Rule" rule.name rule.onError
            (guardRule rule.name rule.condition (desugarThen rule.action))) := by
        rw [retry]
        exact .repeater _ rfl
      have limited : Retrying (guardRule rule.name rule.condition (desugarThen rule.action)).height
          0 (limitReflection rule.name rule.reflectionMaxRounds (handleError "Rule" rule.name
            rule.onError (guardRule rule.name rule.condition (desugarThen rule.action)))) := by
        cases rule.reflectionMaxRounds with
        | none => exact retrying
        | some maxRounds => exact .reflectionGuard _ retrying
      rw [desugarRule]
      cases rule.cooldownMs with
      | none => exact limited
      | some durationMs => exact .cooldown _ limited
  | when spec retry =>
      obtain ⟨name, condition, action, onError⟩ := spec
      obtain rfl : onError = some .retry := retry
      exact .repeater _ rfl

variable {σ κ : Type} [Session σ] [Clock κ]

end

section

open Plain

/-- A rule that wakes the agent up, retried. -/
def wakeUpRetried (condition : Option Evaluator) : RuleSpec :=
  { priority := 1, name := "wake", condition, action := .inlineCommand (.agent .wakeUp)
    cooldownMs := none, reflectionMaxRounds := none, onError := some .retry }

/-- Its body. -/
def wakeUpBody (condition : Option Evaluator) : Node :=
  guardRule "wake" condition (desugarThen (.inlineCommand (.agent .wakeUp)))

end

end AgileAgent.DecisionDsl
