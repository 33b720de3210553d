import AgileAgent.DecisionDsl.Idle

/-! # Runs that tick their root

The path an executor stores is the stack of indices at a composite that a `Running`
passes. In a run from a new executor it is the empty one, unless a parallel node
swallows a `Running`: then every tick is one of the root, whatever entry point is called.
-/

namespace AgileAgent.DecisionDsl

open CallTree

section

variable {σ κ : Type} [Crates] [Session σ] [Clock κ]

/-- A parallel node is decided although a child returned `Running`. -/
def Swallows (q : Request σ κ) : Prop :=
  (∃ n, q.node = .parallel n) ∧ (∃ status, (interpreter.solve q).result = .ok status ∧
    status ≠ .running) ∧ ∃ q' ∈ interpreter.calls q, (interpreter.solve q').result = .ok .running

theorem Abandons.of_swallows {rest : Node → Prop} {q : Request σ κ} (swallows : Swallows q) :
    Abandons rest q := by
  obtain ⟨⟨n, node⟩, ⟨status, result, done⟩, q', called, waits⟩ := swallows
  exact .decided node result done called waits

/-- The path stored by a walk whose calls store none of their own. -/
theorem Walk.path {name : String} {goes : NodeStatus → Prop} {start : Nat} {ns : List Node}
    {w : World σ κ} {r : Walked σ κ} (walk : Walk name goes start ns w r)
    (calls : ∀ q ∈ r.calls, ∀ status, (interpreter.solve q).result = .ok status →
      status ≠ .running → (interpreter.solve q).world.tracer.runningPath = q.world.tracer.runningPath)
    (returned : ∀ i e, r.stop ≠ some (i, .error e)) :
    r.world.tracer.runningPath = w.tracer.runningPath ∨
      r.world.tracer.runningPath = w.tracer.pathStack ∧
        ∃ q ∈ r.calls, (interpreter.solve q).result = .ok .running := by
  induction walk with
  | ranOut => exact .inl rfl
  | failed => exact absurd rfl (returned _ _)
  | stopped at_start result =>
      obtain ⟨-, path⟩ := visit_left result
      split at path
      · next running =>
          subst running
          exact .inr ⟨path, _, List.mem_cons_self, result⟩
      · next other =>
          exact .inl (path.trans (calls _ List.mem_cons_self _ result other))
  | went at_start result on walk ih =>
      obtain ⟨stack, path⟩ := visit_left result
      have later := ih (fun q member => calls q (List.mem_cons_of_mem _ member)) returned
      rw [stack, path] at later
      split at later
      · next running =>
          subst running
          exact .inr ⟨later.elim id And.left, _, List.mem_cons_self, result⟩
      · next other =>
          rw [calls _ List.mem_cons_self _ result other] at later
          exact later.imp_right fun ⟨same, q, member, waits⟩ =>
            ⟨same, q, List.mem_cons_of_mem _ member, waits⟩

/-- Where `Running` stops the loop, a call that returned it was the last. -/
theorem Walk.waits {name : String} {goes : NodeStatus → Prop} {start : Nat} {ns : List Node}
    {w : World σ κ} {r : Walked σ κ} (walk : Walk name goes start ns w r) (stops : ¬ goes .running)
    {q : Request σ κ} (called : q ∈ r.calls)
    (running : (interpreter.solve q).result = .ok .running) :
    ∃ i, r.stop = some (i, .ok .running) := by
  induction walk with
  | ranOut => cases called
  | failed _ result | stopped _ result =>
      rw [List.mem_singleton.mp called, result] at running
      cases running
      try exact ⟨_, rfl⟩
  | went _ result on _ ih =>
      rcases List.mem_cons.mp called with rfl | later
      · rw [result] at running
        cases running
        exact absurd on stops
      · exact ih later

theorem Attempts.path {max current : UInt32} {child : Node} {w : World σ κ} {r : Tried σ κ}
    (attempts : Attempts max current child w r)
    (calls : ∀ q ∈ r.calls, ∀ status, (interpreter.solve q).result = .ok status →
      (status ≠ .running → (interpreter.solve q).world.tracer.runningPath =
        q.world.tracer.runningPath) ∧
      (status = .running → (interpreter.solve q).world.tracer.runningPath =
        q.world.tracer.runningPath ∨
        (interpreter.solve q).world.tracer.runningPath = q.world.tracer.pathStack))
    {status : NodeStatus} (result : r.result = .ok status) :
    (status ≠ .running → r.world.tracer.runningPath = w.tracer.runningPath) ∧
      (status = .running → r.world.tracer.runningPath = w.tracer.runningPath ∨
        r.world.tracer.runningPath = w.tracer.pathStack) := by
  induction attempts with
  | ranOut => exact ⟨fun _ => rfl, fun _ => .inl rfl⟩
  | failed | panicked => cases result
  | waits waited =>
      cases result
      exact calls _ List.mem_cons_self _ waited
  | last ended done =>
      cases result
      exact calls _ List.mem_cons_self _ ended
  | again ended done _ _ ih =>
      have same := (calls _ List.mem_cons_self _ ended).1 done
      have stack := (interpreter_traced ended).pathStack
      have later := ih (fun q member => calls q (List.mem_cons_of_mem _ member)) result
      rw [same, stack] at later
      exact later

/-- With nothing swallowed a tick stores no path but the stack it started from. -/
theorem tick_path (q : Request σ κ) (ticks : q.ask.Ticks)
    (keeps : ∀ v ∈ interpreter.trail q, ¬ Swallows v) (status : NodeStatus)
    (result : (interpreter.solve q).result = .ok status) :
    (status ≠ .running →
      (interpreter.solve q).world.tracer.runningPath = q.world.tracer.runningPath) ∧
    (status = .running →
      (interpreter.solve q).world.tracer.runningPath = q.world.tracer.runningPath ∨
      (interpreter.solve q).world.tracer.runningPath = q.world.tracer.pathStack) := by
  refine interpreter.induct (motive := fun q => q.ask.Ticks →
    (∀ v ∈ interpreter.trail q, ¬ Swallows v) → ∀ status, (interpreter.solve q).result = .ok status →
    (status ≠ .running →
      (interpreter.solve q).world.tracer.runningPath = q.world.tracer.runningPath) ∧
    (status = .running →
      (interpreter.solve q).world.tracer.runningPath = q.world.tracer.runningPath ∨
      (interpreter.solve q).world.tracer.runningPath = q.world.tracer.pathStack))
    (fun q ih ticks keeps status result => ?_) q ticks keeps status result
  have calls {q' : Request σ κ} (called : q' ∈ interpreter.calls q) (ticked : q'.ask.Ticks) :=
    ih q' called ticked fun v below => keeps v (Procedure.mem_trail_of_call called below)
  have here : ¬ Swallows q := keeps q (interpreter.mem_trail_self q)
  have still (same : (interpreter.solve q).world.tracer.runningPath = q.world.tracer.runningPath) :
      (status ≠ .running →
        (interpreter.solve q).world.tracer.runningPath = q.world.tracer.runningPath) ∧
      (status = .running →
        (interpreter.solve q).world.tracer.runningPath = q.world.tracer.runningPath ∨
        (interpreter.solve q).world.tracer.runningPath = q.world.tracer.pathStack) :=
    ⟨fun _ => same, fun _ => .inl same⟩
  rcases q.node.shapes with ordered | ⟨n, node⟩ | decorator | ⟨n, node⟩ | immediate | ⟨n, node⟩
  · obtain ⟨name, goes, r, stops, walk, called, ending, -, leaves⟩ := ordered_tick ticks ordered
    have quiet : ∀ q' ∈ r.calls, ∀ status, (interpreter.solve q').result = .ok status →
        status ≠ .running →
        (interpreter.solve q').world.tracer.runningPath = q'.world.tracer.runningPath :=
      fun q' member status done =>
        (calls (called ▸ member) (walk.ticks q' member) status done).1
    rw [result] at ending
    generalize (interpreter.solve q).node.activeChild = marker at ending
    have returned : ∀ i e, r.stop ≠ some (i, .error e) := by
      intro i e stop
      rw [stop] at ending
      cases ending
    rw [leaves.runningPath]
    rcases walk.path quiet returned with same | ⟨stored, q', member, waits⟩
    · exact ⟨fun _ => same, fun _ => .inl same⟩
    · refine ⟨fun done => ?_, fun _ => .inr stored⟩
      obtain ⟨i, stop⟩ := walk.waits stops member waits
      rw [stop] at ending
      cases ending with
      | stopped other => exact absurd rfl other
      | waits => exact absurd rfl done
  · obtain ⟨r, walk, called, ending, -, leaves⟩ := parallel_tick ticks node
    have quiet : ∀ q' ∈ r.calls, ∀ status, (interpreter.solve q').result = .ok status →
        status ≠ .running →
        (interpreter.solve q').world.tracer.runningPath = q'.world.tracer.runningPath :=
      fun q' member status done =>
        (calls (called ▸ member) (walk.ticks q' member) status done).1
    rw [result] at ending
    generalize (interpreter.solve q).node.activeChild = marker at ending
    have returned : ∀ i e, r.stop ≠ some (i, .error e) := by
      intro i e stop
      rw [stop] at ending
      cases ending
    rw [leaves.runningPath]
    rcases walk.path quiet returned with same | ⟨stored, q', member, waits⟩
    · exact ⟨fun _ => same, fun _ => .inl same⟩
    · refine ⟨fun done => ?_, fun _ => .inr stored⟩
      exact absurd ⟨⟨n, node⟩, ⟨status, result, done⟩, q', called ▸ member, waits⟩ here
  · cases decorator_tick ticks decorator with
    | closed _ _ _ _ keeps' => exact still keeps'.runningPath
    | failed _ failed => rw [failed] at result; cases result
    | @called child v only called stack enters left relayed leaves =>
        have member : (⟨.tick, child, v⟩ : Request σ κ) ∈ interpreter.calls q := by
          rw [called]
          exact List.mem_cons_self
        have below := calls member trivial
        rw [leaves.runningPath, ← stack, ← enters.runningPath]
        generalize outcome : (interpreter.solve ⟨.tick, child, v⟩).result = inner at relayed
        rw [result] at relayed
        cases relayed with
        | waits => exact below .running outcome
        | done ended ended' =>
            have same := (below _ outcome).1 ended
            exact ⟨fun _ => same, fun _ => .inl same⟩
  · rcases repeater_tick ticks node with ⟨-, -, answer⟩ | ⟨-, r, tries, called, answer⟩
    · rw [answer] at still ⊢
      exact still rfl
    · rw [answer] at result ⊢
      exact tries.path (fun q' member => calls (called ▸ member) (tries.ticks q' member)) result
  · obtain ⟨-, -, -, keeps'⟩ := immediate_tick immediate
    exact still keeps'.runningPath
  · have traced := interpreter_traced result
    rcases traced.runningPath with same | ⟨path, m, -, leads, composite⟩
    · exact still same
    · rw [node] at leads
      rcases leads.cases_step with ⟨-, rfl⟩ | ⟨i, child, _, at_i, -, -⟩
      · exact absurd composite id
      · cases at_i

namespace Instance

/-- The executor is to tick the root. -/
def Ready (s : Instance σ κ) : Prop :=
  s.executor.isRunning = true → s.executor.runningPath = []

omit [Crates] [Session σ] [Clock κ] in
theorem Ready.ticks {s : Instance σ κ} (ready : s.Ready) : s.request.ask.Ticks := by
  change s.executor.ask.Ticks
  rw [Executor.ask]
  split
  · next running =>
      rw [ready running]
      exact Nat.le_refl 0
  · trivial

/-- A tick that stores no path leaves the executor ready. -/
theorem Ready.after {s : Instance σ κ} (ready : s.Ready)
    (stored : s.answer.result = .ok .running → s.answer.world.tracer.runningPath = []) :
    s.tick.after.Ready := by
  cases result : s.answer.result with
  | error e =>
      rw [Turn.after, tick_error result]
      exact ready
  | ok status =>
      rw [Turn.after, tick_ok result]
      simp only [Ready, Executor.next]
      split
      · next running =>
          subst running
          exact fun _ => stored result
      · nofun

theorem Ready.after_keeps {s : Instance σ κ} (ready : s.Ready)
    (keeps : ∀ v ∈ interpreter.trail s.request, ¬ Swallows v) : s.tick.after.Ready := by
  apply ready.after
  intro running
  rcases (tick_path s.request ready.ticks keeps .running running).2 rfl with same | same
  · exact same
  · exact same

end Instance

end

end AgileAgent.DecisionDsl
