import AgileAgent.DecisionDsl.Ready
import AgileAgent.DecisionDsl.RunningPath

/-! # Suspended trees

A tick that returns `Running` has its markers lead to the prompt that waits, provided that
no prompt is below a parallel node.
-/

namespace AgileAgent.DecisionDsl

open CallTree

namespace Node

def NotPrompt (n : Node) : Prop := ∀ m, n ≠ .prompt m

/-- No prompt of the tree. -/
abbrev Promptless : Node → Prop := All NotPrompt

/-- The node is not parallel, or has no prompt below it. -/
def AsksInTurn : Node → Prop
  | .parallel n => ∀ child ∈ n.children, child.Promptless
  | _ => True

/-- No prompt is below a parallel node. -/
abbrev Serial : Node → Prop := All AsksInTurn

/-- The markers lead to a prompt that waits. -/
inductive Suspended : Node → Prop where
  | prompt {n : PromptNode} (pending : n.pending = true) : Suspended (.prompt n)
  | ordered {n child : Node} {i : Nat} (ordered : n.Ordered) (active : n.activeChild = some i)
      (at_i : n.children[i]? = some child) (below : Suspended child) : Suspended n
  | decorator {n child : Node} (decorator : n.Decorator) (only : n.children = [child])
      (below : Suspended child) : Suspended n
  | repeater {n : RepeaterNode Node} (left : n.current < n.maxAttempts) (below : Suspended n.child) :
      Suspended (.repeater n)

theorem notPrompt_of_reset {m n : Node} (same : m.reset = n.reset) (other : n.NotPrompt) :
    m.NotPrompt := by
  rintro m rfl
  obtain ⟨n', rfl⟩ := prompt_of_reset same.symm
  exact other n' rfl

theorem asksInTurn_of_reset {m n : Node} (same : m.reset = n.reset) (inTurn : n.AsksInTurn) :
    m.AsksInTurn := by
  cases m with
  | parallel m =>
      obtain ⟨n, rfl⟩ := parallel_of_reset same.symm
      intro child member
      obtain ⟨i, inside, rfl⟩ := List.mem_iff_getElem.mp member
      have at_i : (Node.parallel m).children[i]? = some m.children[i] := List.getElem?_eq_getElem inside
      obtain ⟨twin, at_twin, twin_same⟩ := child_of_reset same at_i
      exact (inTurn twin (List.mem_of_getElem? at_twin)).of_reset notPrompt_of_reset twin_same.symm
  | _ => trivial

theorem Immediate.quiet {n : Node} (immediate : n.Immediate) : n.All Quiet := by
  obtain ⟨atRest, leaf⟩ := immediate.atRest
  refine .mk (atRest.quiet n) ?_
  rw [leaf]
  nofun

theorem Suspended.not_quiet {n : Node} (suspended : n.Suspended) : ¬ n.All Quiet := by
  induction suspended with
  | prompt pending =>
      rintro ⟨here, -⟩
      simp [here _ rfl] at pending
  | ordered _ _ at_i _ ih => exact fun all => ih (all.child (List.mem_of_getElem? at_i))
  | decorator _ only _ ih => exact fun all => ih (all.child (by simp [only]))
  | repeater _ _ ih => exact fun all => ih (all.child List.mem_cons_self)

end Node

variable {σ κ : Type} [Crates] [Session σ] [Clock κ]

/-- Without prompts nothing waits. -/
theorem promptless_ends (q : Request σ κ) (promptless : q.node.Promptless) :
    (interpreter.solve q).result ≠ .ok .running := by
  refine interpreter.induct (motive := fun q => q.node.Promptless →
    (interpreter.solve q).result ≠ .ok .running) (fun q ih promptless running => ?_) q promptless
  rcases running_relayed running with ⟨n, node⟩ | ⟨q', called, running'⟩
  · obtain ⟨here, -⟩ := promptless
    exact here n node
  · exact ih q' called (all_of_call Node.notPrompt_of_reset promptless called) running'

/-- The calls of a parallel node end. -/
theorem serial_ends {q q' : Request σ κ} (serial : q.node.Serial) {n : ParallelNode Node}
    (node : q.node = .parallel n) (called : q' ∈ interpreter.calls q) :
    (interpreter.solve q').result ≠ .ok .running := by
  obtain ⟨here, -⟩ := serial
  rw [node] at here
  obtain ⟨i, child, at_i, same, -⟩ := interpreter_callOf called
  rw [node] at at_i
  have promptless : child.Promptless := here child (List.mem_of_getElem? at_i)
  exact promptless_ends q' (promptless.of_reset Node.notPrompt_of_reset same)

theorem serial_not_swallows {q v : Request σ κ} (serial : q.node.Serial)
    (visited : v ∈ interpreter.trail q) : ¬ Swallows v := by
  rintro ⟨⟨n, node⟩, -, q', called, running⟩
  exact serial_ends (all_of_trail Node.asksInTurn_of_reset serial visited) node called running

/-- A repeater goes on only with attempts left. -/
theorem Attempts.waits_left {max current : UInt32} {child : Node} {w : World σ κ} {r : Tried σ κ}
    (attempts : Attempts max current child w r) (left : current < max)
    (running : r.result = .ok .running) :
    r.current < max ∧ ∃ q ∈ r.calls, (interpreter.solve q).result = .ok .running ∧
      r.child = (interpreter.solve q).node := by
  induction attempts with
  | ranOut | failed | panicked => cases running
  | waits result => exact ⟨left, _, List.mem_cons_self, result, rfl⟩
  | last _ done =>
      cases running
      exact absurd rfl done
  | again _ _ left' _ ih =>
      obtain ⟨less, q, called, rest⟩ := ih left' running
      exact ⟨less, q, List.mem_cons_of_mem _ called, rest⟩

theorem repeater_running {q : Request σ κ} {n : RepeaterNode Node} (ticks : q.ask.Ticks)
    (node : q.node = .repeater n) (running : (interpreter.solve q).result = .ok .running) :
    n.current < n.maxAttempts := by
  by_contra spent
  rw [UInt32.lt_iff_toNat_lt] at spent
  have none : n.maxAttempts.toNat - n.current.toNat = 0 := by omega
  have answer := interpreter_solve q
  rw [requestBody_ticks ticks, node] at answer
  simp only [tickBody, tickRepeater, none, List.replicate_zero, repeaterLoop] at answer
  split at answer <;> simp [answer, Run.map, Body.map] at running

/-- A tick that returns `Running` leaves a suspended tree. -/
theorem running_suspends (q : Request σ κ) (ticks : q.ask.Ticks) (serial : q.node.Serial)
    (running : (interpreter.solve q).result = .ok .running) : (interpreter.solve q).node.Suspended := by
  refine interpreter.induct (motive := fun q => q.ask.Ticks → q.node.Serial →
    (interpreter.solve q).result = .ok .running → (interpreter.solve q).node.Suspended)
    (fun q ih ticks serial running => ?_) q ticks serial running
  have calls {q' : Request σ κ} (called : q' ∈ interpreter.calls q) (ticked : q'.ask.Ticks) :=
    ih q' called ticked (all_of_call Node.asksInTurn_of_reset serial called)
  rcases q.node.shapes with ordered | ⟨n, node⟩ | decorator | ⟨n, node⟩ | immediate | ⟨n, node⟩
  · obtain ⟨name, goes, r, -, walk, called, ending, left, -⟩ := ordered_tick ticks ordered
    have ordered' := Node.ordered_of_reset (interpreter_reset q) ordered
    rw [running] at ending
    generalize stop : r.stop = stopped, active : (interpreter.solve q).node.activeChild = marker at ending
    cases ending with
    | ranOut done | stopped done => exact absurd rfl done
    | waits =>
        obtain ⟨q', member, running', -, at_i⟩ := walk.stopper stop
        exact .ordered ordered' active (left ▸ at_i)
          (calls (called ▸ member) (walk.ticks q' member) running')
  · rcases running_relayed running with ⟨m, prompt⟩ | ⟨q', called, running'⟩
    · rw [node] at prompt
      cases prompt
    · exact absurd running' (serial_ends serial node called)
  · have decorator' := Node.decorator_of_reset (interpreter_reset q) decorator
    cases decorator_tick ticks decorator with
    | closed _ _ result | failed _ result =>
        rw [result] at running
        cases running
    | @called child v only called _ _ left relayed _ =>
        generalize outcome : (interpreter.solve ⟨.tick, child, v⟩).result = inner at relayed
        rw [running] at relayed
        cases relayed with
        | waits =>
            have member : (⟨.tick, child, v⟩ : Request σ κ) ∈ interpreter.calls q := by simp [called]
            exact .decorator decorator' left (calls member trivial outcome)
        | done _ done => exact absurd rfl done
  · have spare := repeater_running ticks node running
    rcases repeater_tick ticks node with ⟨-, -, answer⟩ | ⟨-, r, tries, called, answer⟩
    · rw [answer] at running
      cases running
    · rw [answer] at running ⊢
      obtain ⟨less, q', member, running', child⟩ := tries.waits_left spare running
      apply Node.Suspended.repeater less
      rw [child]
      exact calls (called ▸ member) (tries.ticks q' member) running'
  · exact absurd running (immediate_tick immediate).2.2.1
  · obtain ⟨-, answer⟩ := prompt_tick node
    rw [answer] at running ⊢
    cases tickPrompt_prompting n q.world with
    | waits pending _ _ same =>
        apply Node.Suspended.prompt
        rw [same]
        exact pending
    | sent _ _ _ pending => exact .prompt pending
    | timedOut _ result | refused _ _ _ result | unrendered _ result | unsent _ _ result =>
        simp [Run.map, result] at running
    | consumed _ _ _ _ result done =>
        simp only [Run.map, result, Except.ok.injEq] at running
        exact absurd running done

end AgileAgent.DecisionDsl
