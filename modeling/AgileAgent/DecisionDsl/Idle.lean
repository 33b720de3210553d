import AgileAgent.DecisionDsl.Runs
import AgileAgent.DecisionDsl.Ticks

/-! # What a tick leaves running

A node that returns success or failure has settled everything below it, provided that
the tick never turns away from a child that is running (`Abandons`). Between ticks only
what the `active_child` markers lead to may be running (`Tracked`).
-/

namespace AgileAgent.DecisionDsl

open CallTree

namespace Node

/-- Nothing is left of an activation of the node itself. -/
def AtRest : Node → Prop
  | .selector n => n.activeChild = none
  | .sequence n => n.activeChild = none
  | .parallel n => n.activeChild = none
  | .repeater n => n.current = 0
  | .prompt n => n.pending = false ∧ n.sentAt = none
  | _ => True

/-- The node does not wait for a reply. -/
def Quiet (n : Node) : Prop := ∀ m, n = .prompt m → m.pending = false

theorem AtRest.quiet (n : Node) (atRest : n.AtRest) : n.Quiet := by
  rintro m rfl
  exact atRest.1

/-- Every node of the tree is so. -/
inductive All (rest : Node → Prop) : Node → Prop where
  | mk {n : Node} (here : rest n) (below : ∀ child ∈ n.children, All rest child) : All rest n

/-- No node of the tree is in a running state. -/
abbrev Idle : Node → Prop := All AtRest

/-- The children a node goes on with. -/
def Current : Node → Nat → Prop
  | .selector n, i => i = n.activeChild.getD 0
  | .sequence n, i => i = n.activeChild.getD 0
  | .repeater n, _ => n.maxAttempts ≠ 0
  | _, _ => True

/-- Repeaters have attempts left, and all is at rest below children that their node does
    not go on with. -/
inductive Tracked (rest : Node → Prop) : Node → Prop where
  | mk {n : Node} (attempts : ∀ m, n = .repeater m → m.current = 0 ∨ m.current < m.maxAttempts)
      (below : ∀ child ∈ n.children, Tracked rest child)
      (others : ∀ i child, n.children[i]? = some child → ¬ n.Current i → child.All rest) :
      Tracked rest n

theorem All.mono {rest rest' : Node → Prop} (weaker : ∀ n : Node, rest n → rest' n) {n : Node}
    (all : n.All rest) : n.All rest' := by
  induction all with
  | mk here _ ih => exact .mk (weaker _ here) ih

/-- What only the configuration of nodes decides holds of whole trees by configuration. -/
theorem All.of_reset {rest : Node → Prop}
    (stable : ∀ {m n : Node}, m.reset = n.reset → rest n → rest m) {m n : Node}
    (all : n.All rest) (same : m.reset = n.reset) : m.All rest := by
  induction all generalizing m with
  | mk here _ ih =>
      apply All.mk (stable same here)
      intro child member
      obtain ⟨i, inside, rfl⟩ := List.mem_iff_getElem.mp member
      obtain ⟨twin, at_i, twin_same⟩ := child_of_reset same (List.getElem?_eq_getElem inside)
      exact ih twin (List.mem_of_getElem? at_i) twin_same.symm

theorem Idle.tracked {rest : Node → Prop} (weaker : ∀ n : Node, n.AtRest → rest n) {n : Node}
    (idle : n.Idle) : n.Tracked rest := by
  induction idle with
  | mk here below ih =>
      refine .mk ?_ ih fun i child at_i _ => (below child (List.mem_of_getElem? at_i)).mono weaker
      rintro m rfl
      exact .inl here

theorem All.child {rest : Node → Prop} {n child : Node} (all : n.All rest)
    (member : child ∈ n.children) : child.All rest := by
  cases all with
  | mk here below => exact below child member

theorem Tracked.child {rest : Node → Prop} {n child : Node} (tracked : n.Tracked rest)
    (member : child ∈ n.children) : child.Tracked rest := by
  cases tracked with
  | mk _ below _ => exact below child member

theorem Tracked.other {rest : Node → Prop} {n child : Node} {i : Nat} (tracked : n.Tracked rest)
    (at_i : n.children[i]? = some child) (other : ¬ n.Current i) : child.All rest := by
  cases tracked with
  | mk _ _ others => exact others i child at_i other

/-- The six shapes of nodes. -/
theorem shapes (n : Node) : n.Ordered ∨ (∃ m, n = .parallel m) ∨ n.Decorator ∨
    (∃ m, n = .repeater m) ∨ n.Immediate ∨ ∃ m, n = .prompt m := by
  cases n with
  | selector | sequence => exact .inl trivial
  | parallel m => exact .inr (.inl ⟨m, rfl⟩)
  | inverter | cooldown | reflectionGuard | forceHuman | when | subTree =>
      exact .inr (.inr (.inl trivial))
  | repeater m => exact .inr (.inr (.inr (.inl ⟨m, rfl⟩)))
  | condition | action | setVar => exact .inr (.inr (.inr (.inr (.inl trivial))))
  | prompt m => exact .inr (.inr (.inr (.inr (.inr ⟨m, rfl⟩))))

theorem ordered_reset (n : Node) : n.reset.Ordered ↔ n.Ordered := by
  cases n with
  | subTree n => rw [reset_subTree]; rfl
  | _ => rfl

theorem decorator_reset (n : Node) : n.reset.Decorator ↔ n.Decorator := by
  cases n with
  | subTree n => rw [reset_subTree]; rfl
  | _ => rfl

theorem ordered_of_reset {m n : Node} (same : m.reset = n.reset) (ordered : n.Ordered) :
    m.Ordered := by
  rw [← ordered_reset, same, ordered_reset]
  exact ordered

theorem decorator_of_reset {m n : Node} (same : m.reset = n.reset) (decorator : n.Decorator) :
    m.Decorator := by
  rw [← decorator_reset, same, decorator_reset]
  exact decorator

theorem parallel_of_reset {m : Node} {n : ParallelNode Node}
    (same : m.reset = (Node.parallel n).reset) : ∃ m', m = .parallel m' := by
  cases m with
  | parallel m => exact ⟨m, rfl⟩
  | subTree m => rw [reset_subTree] at same; cases same
  | _ => cases same

theorem Ordered.current {n : Node} (ordered : n.Ordered) (i : Nat) :
    n.Current i ↔ i = n.activeChild.getD 0 := by
  cases n with
  | selector | sequence => rfl
  | _ => exact absurd ordered id

theorem Ordered.atRest {n : Node} (ordered : n.Ordered) (none : n.activeChild = none) : n.AtRest := by
  cases n with
  | selector | sequence => exact none
  | _ => exact absurd ordered id

theorem Ordered.composite {n : Node} (ordered : n.Ordered) : n.IsComposite := by
  cases n with
  | selector | sequence => trivial
  | _ => exact absurd ordered id

theorem Ordered.not_repeater {n : Node} (ordered : n.Ordered) (m : RepeaterNode Node) :
    n ≠ .repeater m := by
  rintro rfl
  exact ordered

theorem Decorator.current {n : Node} (decorator : n.Decorator) (i : Nat) : n.Current i := by
  cases n with
  | inverter | cooldown | reflectionGuard | forceHuman | when | subTree => trivial
  | _ => exact absurd decorator id

theorem Decorator.atRest {n : Node} (decorator : n.Decorator) : n.AtRest := by
  cases n with
  | inverter | cooldown | reflectionGuard | forceHuman | when | subTree => trivial
  | _ => exact absurd decorator id

theorem Decorator.not_composite {n : Node} (decorator : n.Decorator) : ¬ n.IsComposite := by
  cases n with
  | inverter | cooldown | reflectionGuard | forceHuman | when | subTree => exact id
  | _ => exact absurd decorator id

theorem Decorator.not_repeater {n : Node} (decorator : n.Decorator) (m : RepeaterNode Node) :
    n ≠ .repeater m := by
  rintro rfl
  exact decorator

theorem Immediate.atRest {n : Node} (immediate : n.Immediate) : n.AtRest ∧ n.children = [] := by
  cases n with
  | condition | action | setVar => exact ⟨trivial, rfl⟩
  | _ => exact absurd immediate id

end Node

section

variable {σ κ : Type} [Crates] [Session σ] [Clock κ]

/-- What holds of all nodes by their configuration holds below every call. -/
theorem all_of_call {rest : Node → Prop} (stable : ∀ {m n : Node}, m.reset = n.reset → rest n → rest m)
    {q q' : Request σ κ} (all : q.node.All rest) (called : q' ∈ interpreter.calls q) :
    q'.node.All rest := by
  obtain ⟨i, child, at_i, same, -⟩ := interpreter_callOf called
  exact (all.child (List.mem_of_getElem? at_i)).of_reset stable same

theorem all_of_trail {rest : Node → Prop} (stable : ∀ {m n : Node}, m.reset = n.reset → rest n → rest m)
    {q v : Request σ κ} (all : q.node.All rest) (visited : v ∈ interpreter.trail q) :
    v.node.All rest := by
  refine interpreter.induct (motive := fun q => q.node.All rest → v ∈ interpreter.trail q →
    v.node.All rest) (fun q ih all visited => ?_) q all visited
  rcases Procedure.mem_trail_cases visited with rfl | ⟨q', called, below⟩
  · exact all
  · exact ih q' called (all_of_call stable all called) below

/-- The child index of a call that a composite makes. -/
def Request.index (q : Request σ κ) : Option Nat := q.world.tracer.pathStack.getLast?

/-- The node turns away from a child that is not at rest: a decorator that does not call
    it, a parallel node that is decided before it, or a composite that an error of it
    leaves without a marker to it. -/
inductive Abandons (rest : Node → Prop) (q : Request σ κ) : Prop where
  | closed {child : Node} (closes : Closes q) (member : child ∈ q.node.children)
      (busy : ¬ child.All rest)
  | decided {n : ParallelNode Node} {status : NodeStatus} {q' : Request σ κ}
      (node : q.node = .parallel n) (result : (interpreter.solve q).result = .ok status)
      (done : status ≠ .running) (called : q' ∈ interpreter.calls q)
      (waits : (interpreter.solve q').result = .ok .running)
  | failed {q' : Request σ κ} {e : Fault} (ordered : q.node.Ordered)
      (called : q' ∈ interpreter.calls q) (result : (interpreter.solve q').result = .error e)
      (unmarked : q'.index ≠ some (q.node.activeChild.getD 0))
      (busy : ¬ (interpreter.solve q').node.All rest)

/-- What the answer to a tick leaves in the tree. -/
structure Kept (rest : Node → Prop) (a : Answer σ κ) : Prop where
  tracked : a.node.Tracked rest
  settled : ∀ status, a.result = .ok status → status ≠ .running → a.node.All rest

/-- The call that stopped a walk has not come to rest. -/
def Stuck (stop : Option (Nat × Except Fault NodeStatus)) (i : Nat) : Prop :=
  ∃ result, stop = some (i, result) ∧ ∀ status, result = .ok status → status = .running

theorem Walk.ticks {name : String} {goes : NodeStatus → Prop} {start : Nat} {ns : List Node}
    {w : World σ κ} {r : Walked σ κ} (walk : Walk name goes start ns w r) :
    ∀ q ∈ r.calls, q.ask.Ticks := by
  induction walk with
  | ranOut => nofun
  | failed | stopped =>
      intro q member
      rw [List.mem_singleton.mp member]
      trivial
  | went _ _ _ _ ih =>
      intro q member
      rcases List.mem_cons.mp member with rfl | later
      · trivial
      · exact ih q later

omit [Crates] in
theorem tracked_set {rest : Node → Prop} {ns : List Node} {child new : Node} {i : Nat}
    (at_i : ns[i]? = some child) (before : ∀ child ∈ ns, child.Tracked rest)
    (kept : child.Tracked rest → new.Tracked rest) : ∀ child ∈ ns.set i new, child.Tracked rest := by
  intro m member
  rcases List.mem_or_eq_of_mem_set member with old | rfl
  · exact before m old
  · exact kept (before child (List.mem_of_getElem? at_i))

theorem Walk.tracked {rest : Node → Prop} {name : String} {goes : NodeStatus → Prop} {start : Nat}
    {ns : List Node} {w : World σ κ} {r : Walked σ κ} (walk : Walk name goes start ns w r)
    (before : ∀ child ∈ ns, child.Tracked rest)
    (calls : ∀ q ∈ r.calls, q.node.Tracked rest → Kept rest (interpreter.solve q)) :
    (∀ child ∈ r.children, child.Tracked rest) ∧ ∀ q ∈ r.calls, q.node.Tracked rest := by
  induction walk with
  | ranOut => exact ⟨before, nofun⟩
  | failed at_start | stopped at_start =>
      have first := before _ (List.mem_of_getElem? at_start)
      refine ⟨tracked_set at_start before fun tracked => ?_, fun q member => ?_⟩
      · exact (calls _ List.mem_cons_self tracked).tracked
      · rw [List.mem_singleton.mp member]
        exact first
  | went at_start _ _ _ ih =>
      have first := before _ (List.mem_of_getElem? at_start)
      obtain ⟨left, later⟩ := ih (tracked_set at_start before fun tracked =>
        (calls _ List.mem_cons_self tracked).tracked) fun q member =>
        calls q (List.mem_cons_of_mem _ member)
      refine ⟨left, fun q member => ?_⟩
      rcases List.mem_cons.mp member with rfl | member
      · exact first
      · exact later q member

omit [Crates] in
theorem getElem?_set_cases {ns : List Node} {i j : Nat} {new child : Node}
    (at_j : (ns.set i new)[j]? = some child) : (j = i ∧ child = new) ∨ (j ≠ i ∧ ns[j]? = some child) := by
  by_cases same : i = j
  · subst same
    rw [List.getElem?_set_self'] at at_j
    cases old : ns[i]? with
    | none => simp [old] at at_j
    | some _ => exact .inl ⟨rfl, by simpa [old] using at_j.symm⟩
  · rw [List.getElem?_set_ne same] at at_j
    exact .inr ⟨Ne.symm same, at_j⟩

/-- Where the loop does not go on after `Running`, only the child that stopped it may not
    be at rest. -/
theorem Walk.others {rest : Node → Prop} {name : String} {goes : NodeStatus → Prop} {start : Nat}
    {ns : List Node} {w : World σ κ} {r : Walked σ κ} (walk : Walk name goes start ns w r)
    (waits : ¬ goes .running) (before : ∀ child ∈ ns, child.Tracked rest)
    (others : ∀ i child, ns[i]? = some child → i ≠ start → child.All rest)
    (calls : ∀ q ∈ r.calls, q.node.Tracked rest → Kept rest (interpreter.solve q)) :
    ∀ i child, r.children[i]? = some child → ¬ Stuck r.stop i → child.All rest := by
  induction walk with
  | ranOut out =>
      intro i child at_i _
      have inside := (List.getElem?_eq_some_iff.mp at_i).1
      exact others i child at_i (Nat.ne_of_lt (Nat.lt_of_lt_of_le inside out))
  | failed at_start result =>
      intro i child at_i free
      rcases getElem?_set_cases at_i with ⟨rfl, -⟩ | ⟨other, old⟩
      · exact absurd ⟨_, rfl, nofun⟩ free
      · exact others i child old other
  | @stopped start ns w first status at_start result stops =>
      intro i child at_i free
      have kept := calls _ List.mem_cons_self (before first (List.mem_of_getElem? at_start))
      rcases getElem?_set_cases at_i with ⟨rfl, rfl⟩ | ⟨other, old⟩
      · refine kept.settled status result fun running => free ⟨_, rfl, fun status' same => ?_⟩
        rw [← Except.ok.inj same, running]
      · exact others i child old other
  | @went start ns w first status r at_start result on walk ih =>
      have kept := calls _ List.mem_cons_self (before first (List.mem_of_getElem? at_start))
      have done : status ≠ .running := by
        rintro rfl
        exact waits on
      refine ih ?_ ?_ fun q member => calls q (List.mem_cons_of_mem _ member)
      · intro child member
        rcases List.mem_or_eq_of_mem_set member with old | rfl
        · exact before child old
        · exact kept.tracked
      · intro i child at_i later
        rcases getElem?_set_cases at_i with ⟨rfl, rfl⟩ | ⟨other, old⟩
        · exact kept.settled status result done
        · exact others i child old other

/-- After a walk to the end without `Running` all children are at rest. -/
theorem Walk.settled {rest : Node → Prop} {name : String} {goes : NodeStatus → Prop} {start : Nat}
    {ns : List Node} {w : World σ κ} {r : Walked σ κ} (walk : Walk name goes start ns w r)
    (before : ∀ child ∈ ns, child.Tracked rest)
    (earlier : ∀ i child, ns[i]? = some child → i < start → child.All rest)
    (calls : ∀ q ∈ r.calls, q.node.Tracked rest → Kept rest (interpreter.solve q))
    (done : ∀ q ∈ r.calls, (interpreter.solve q).result ≠ .ok .running) (to_end : r.stop = none) :
    ∀ child ∈ r.children, child.All rest := by
  induction walk with
  | ranOut out =>
      intro child member
      obtain ⟨i, inside, rfl⟩ := List.mem_iff_getElem.mp member
      exact earlier i _ (List.getElem?_eq_getElem inside) (Nat.lt_of_lt_of_le inside out)
  | failed | stopped => cases to_end
  | @went start ns w first status r at_start result on walk ih =>
      have kept := calls _ List.mem_cons_self (before first (List.mem_of_getElem? at_start))
      have ended : status ≠ .running := by
        rintro rfl
        exact done _ List.mem_cons_self result
      refine ih ?_ ?_ (fun q member => calls q (List.mem_cons_of_mem _ member))
        (fun q member => done q (List.mem_cons_of_mem _ member)) to_end
      · intro child member
        rcases List.mem_or_eq_of_mem_set member with old | rfl
        · exact before child old
        · exact kept.tracked
      · intro i child at_i less
        rcases getElem?_set_cases at_i with ⟨rfl, rfl⟩ | ⟨other, old⟩
        · exact kept.settled status result ended
        · exact earlier i child old (by omega)

/-- The call that stopped a walk. -/
theorem Walk.stopper {name : String} {goes : NodeStatus → Prop} {start i : Nat} {ns : List Node}
    {w : World σ κ} {r : Walked σ κ} {result : Except Fault NodeStatus}
    (walk : Walk name goes start ns w r) (stop : r.stop = some (i, result)) :
    ∃ q ∈ r.calls, (interpreter.solve q).result = result ∧
      q.world.tracer.pathStack = w.tracer.pathStack ++ [i] ∧
      r.children[i]? = some (interpreter.solve q).node := by
  induction walk with
  | ranOut => cases stop
  | failed at_start ended | stopped at_start ended =>
      cases stop
      refine ⟨_, List.mem_cons_self, ended, rfl, ?_⟩
      exact List.getElem?_set_self (List.getElem?_eq_some_iff.mp at_start).1
  | went _ ended _ _ ih =>
      obtain ⟨q, called, result, stack, left⟩ := ih stop
      rw [(visit_left ended).1] at stack
      exact ⟨q, List.mem_cons_of_mem _ called, result, stack, left⟩

theorem Attempts.ticks {max current : UInt32} {child : Node} {w : World σ κ} {r : Tried σ κ}
    (attempts : Attempts max current child w r) : ∀ q ∈ r.calls, q.ask.Ticks := by
  induction attempts with
  | ranOut => nofun
  | failed | waits | panicked | last =>
      intro q member
      rw [List.mem_singleton.mp member]
      trivial
  | again _ _ _ _ ih =>
      intro q member
      rcases List.mem_cons.mp member with rfl | later
      · trivial
      · exact ih q later

theorem Attempts.kept {rest : Node → Prop} {max current : UInt32} {child : Node} {w : World σ κ}
    {r : Tried σ κ} (attempts : Attempts max current child w r) (tracked : child.Tracked rest)
    (left : current < max)
    (calls : ∀ q ∈ r.calls, q.node.Tracked rest → Kept rest (interpreter.solve q)) :
    r.child.Tracked rest ∧ (r.current = 0 ∨ r.current < max) ∧
      ∀ status, r.result = .ok status → status ≠ .running → r.current = 0 ∧ r.child.All rest := by
  induction attempts with
  | ranOut out => exact absurd left (UInt32.not_lt.mpr out)
  | failed result | panicked result =>
      exact ⟨(calls _ List.mem_cons_self tracked).tracked, .inr left, nofun⟩
  | waits result =>
      refine ⟨(calls _ List.mem_cons_self tracked).tracked, .inr left, fun status same done => ?_⟩
      exact absurd (Except.ok.inj same).symm done
  | last result done =>
      have kept := calls _ List.mem_cons_self tracked
      exact ⟨kept.tracked, .inl rfl, fun _ _ _ => ⟨rfl, kept.settled _ result done⟩⟩
  | again result done left' _ ih =>
      exact ih (calls _ List.mem_cons_self tracked).tracked left'
        fun q member => calls q (List.mem_cons_of_mem _ member)

theorem Attempts.tracked {rest : Node → Prop} {max current : UInt32} {child : Node} {w : World σ κ}
    {r : Tried σ κ} (attempts : Attempts max current child w r) (tracked : child.Tracked rest)
    (calls : ∀ q ∈ r.calls, q.node.Tracked rest → Kept rest (interpreter.solve q)) :
    ∀ q ∈ r.calls, q.node.Tracked rest := by
  induction attempts with
  | ranOut => nofun
  | failed | waits | panicked | last =>
      intro q member
      rw [List.mem_singleton.mp member]
      exact tracked
  | again _ _ _ _ ih =>
      intro q member
      rcases List.mem_cons.mp member with rfl | later
      · exact tracked
      · exact ih (calls _ List.mem_cons_self tracked).tracked
          (fun q member => calls q (List.mem_cons_of_mem _ member)) q later

theorem tickPrompt_settles {n : PromptNode} {w : World σ κ} {status : NodeStatus}
    (result : (tickPrompt n w).result = .ok status) (done : status ≠ .running) :
    (tickPrompt n w).node = n.settle := by
  cases tickPrompt_prompting n w with
  | timedOut _ _ node => exact node
  | consumed _ _ _ _ _ _ node => exact node
  | waits _ _ running | sent _ _ running =>
      exact absurd (Except.ok.inj (result.symm.trans running)) done
  | refused _ _ _ failed | unrendered _ failed | unsent _ _ failed =>
      rw [failed] at result
      cases result

section

variable {rest : Node → Prop} {q : Request σ κ}

theorem ordered_kept (weaker : ∀ n : Node, n.AtRest → rest n) (ticks : q.ask.Ticks)
    (ordered : q.node.Ordered) (tracked : q.node.Tracked rest) (here : ¬ Abandons rest q)
    (calls : ∀ q' ∈ interpreter.calls q, q'.ask.Ticks → q'.node.Tracked rest →
      Kept rest (interpreter.solve q')) : Kept rest (interpreter.solve q) := by
  obtain ⟨name, goes, r, waits, walk, called, ending, children, -⟩ := ordered_tick ticks ordered
  have ordered' := Node.ordered_of_reset (interpreter_reset q) ordered
  have below : ∀ q' ∈ r.calls, q'.node.Tracked rest → Kept rest (interpreter.solve q') := by
    intro q' member
    exact calls q' (called ▸ member) (walk.ticks q' member)
  have before : ∀ child ∈ q.node.children, child.Tracked rest := fun child => tracked.child
  have others := walk.others waits before (fun i child at_i other =>
    tracked.other at_i fun current => other ((ordered.current i).mp current)) below
  have below' := (walk.tracked before below).1
  rw [← children] at others below'
  have build (marked : ∀ i child, (interpreter.solve q).node.children[i]? = some child →
      i ≠ (interpreter.solve q).node.activeChild.getD 0 → child.All rest) :
      (interpreter.solve q).node.Tracked rest :=
    .mk (fun m repeater => absurd repeater (ordered'.not_repeater m)) below'
      fun i child at_i other => marked i child at_i fun same => other ((ordered'.current i).mpr same)
  have settle (none : (interpreter.solve q).node.activeChild = none)
      (free : ∀ i, ¬ Stuck r.stop i) : (interpreter.solve q).node.All rest := by
    refine .mk (weaker _ (ordered'.atRest none)) fun child member => ?_
    obtain ⟨i, inside, rfl⟩ := List.mem_iff_getElem.mp member
    exact others i _ (List.getElem?_eq_getElem inside) (free i)
  generalize stop : r.stop = stopped, result : (interpreter.solve q).result = answered,
    active : (interpreter.solve q).node.activeChild = marker at ending
  have ended (free : ∀ i, ¬ Stuck r.stop i) (none : marker = none) : Kept rest (interpreter.solve q) :=
    ⟨build fun i child at_i _ => others i child at_i (free i), fun _ _ _ =>
      settle (active.trans none) free⟩
  cases ending with
  | ranOut =>
      refine ended (fun i stuck => ?_) rfl
      obtain ⟨_, same, -⟩ := stuck
      rw [stop] at same
      cases same
  | stopped done =>
      refine ended (fun i stuck => ?_) rfl
      obtain ⟨_, same, running⟩ := stuck
      rw [stop] at same
      cases same
      exact done (running _ rfl)
  | @waits i =>
      refine ⟨build fun j child at_j other => others j child at_j fun stuck => ?_, fun status done => ?_⟩
      · obtain ⟨_, same, -⟩ := stuck
        rw [stop] at same
        cases same
        rw [active] at other
        exact other rfl
      · rw [result] at done
        exact fun other => absurd (Except.ok.inj done).symm other
  | @failed i e =>
      refine ⟨build fun j child at_j other => ?_, fun status done => ?_⟩
      · by_cases stuck : Stuck r.stop j
        · obtain ⟨_, same, -⟩ := stuck
          obtain ⟨q', called', failed, stack, left⟩ := walk.stopper stop
          rw [stop] at same
          cases same
          rw [children, left] at at_j
          obtain rfl := Option.some.inj at_j
          by_contra busy
          rw [active] at other
          refine here (.failed ordered (called ▸ called') failed ?_ busy)
          rw [Request.index, stack, List.getLast?_concat]
          exact fun same => other (Option.some.inj same)
        · exact others j child at_j stuck
      · rw [result] at done
        cases done

theorem parallel_kept (weaker : ∀ n : Node, n.AtRest → rest n) {n : ParallelNode Node}
    (ticks : q.ask.Ticks) (node : q.node = .parallel n) (tracked : q.node.Tracked rest)
    (here : ¬ Abandons rest q)
    (calls : ∀ q' ∈ interpreter.calls q, q'.ask.Ticks → q'.node.Tracked rest →
      Kept rest (interpreter.solve q')) : Kept rest (interpreter.solve q) := by
  obtain ⟨r, walk, called, ending, children, -⟩ := parallel_tick ticks node
  have below : ∀ q' ∈ r.calls, q'.node.Tracked rest → Kept rest (interpreter.solve q') := by
    intro q' member
    exact calls q' (called ▸ member) (walk.ticks q' member)
  have before : ∀ child ∈ q.node.children, child.Tracked rest := fun child => tracked.child
  have below' := (walk.tracked before below).1
  have same := interpreter_reset q
  rw [node] at same
  obtain ⟨m, left⟩ := Node.parallel_of_reset same
  rw [← children, left] at below'
  refine ⟨?_, fun status result done => ?_⟩
  · rw [left]
    exact .mk nofun below' fun i child at_i other => absurd trivial other
  · have quiet : ∀ q' ∈ r.calls, (interpreter.solve q').result ≠ .ok .running :=
      fun q' member waits => here (.decided node result done (called ▸ member) waits)
    generalize stop : r.stop = stopped, (interpreter.solve q).result = answered,
      active : (interpreter.solve q).node.activeChild = marker at ending result
    cases ending with
    | failed => cases result
    | decided =>
        have settled := walk.settled before (fun i child _ less => absurd less (Nat.not_lt_zero i))
          below quiet stop
        rw [← children, left] at settled
        rw [left] at active ⊢
        exact .mk (weaker _ active) settled

theorem decorator_kept (weaker : ∀ n : Node, n.AtRest → rest n) (ticks : q.ask.Ticks)
    (decorator : q.node.Decorator) (tracked : q.node.Tracked rest) (here : ¬ Abandons rest q)
    (calls : ∀ q' ∈ interpreter.calls q, q'.ask.Ticks → q'.node.Tracked rest →
      Kept rest (interpreter.solve q')) : Kept rest (interpreter.solve q) := by
  have decorator' := Node.decorator_of_reset (interpreter_reset q) decorator
  cases decorator_tick ticks decorator with
  | closed closes _ _ node _ =>
      refine ⟨by rw [node]; exact tracked, fun _ _ _ => ?_⟩
      rw [node]
      refine .mk (weaker _ decorator.atRest) fun child member => ?_
      by_contra busy
      exact here (.closed closes member busy)
  | failed _ result node _ =>
      refine ⟨by rw [node]; exact tracked, fun status done => ?_⟩
      rw [result] at done
      cases done
  | @called child v only called _ _ left relayed _ =>
      have member : child ∈ q.node.children := by
        rw [only]
        exact List.mem_cons_self
      have kept : Kept rest (interpreter.solve ⟨.tick, child, v⟩) :=
        calls ⟨.tick, child, v⟩ (by rw [called]; exact List.mem_cons_self) trivial (tracked.child member)
      refine ⟨.mk (fun m repeater => absurd repeater (decorator'.not_repeater m)) ?_
        fun i _ _ other => absurd (decorator'.current i) other, fun status result done => ?_⟩
      · rw [left]
        intro m inside
        rw [List.mem_singleton.mp inside]
        exact kept.tracked
      · refine .mk (weaker _ decorator'.atRest) ?_
        rw [left]
        intro m inside
        rw [List.mem_singleton.mp inside]
        generalize outcome : (interpreter.solve ⟨.tick, child, v⟩).result = inner at relayed
        rw [result] at relayed
        cases relayed with
        | waits => exact absurd rfl done
        | done ended _ => exact kept.settled _ outcome ended

theorem repeater_kept (weaker : ∀ n : Node, n.AtRest → rest n) {n : RepeaterNode Node}
    (ticks : q.ask.Ticks) (node : q.node = .repeater n) (tracked : q.node.Tracked rest)
    (calls : ∀ q' ∈ interpreter.calls q, q'.ask.Ticks → q'.node.Tracked rest →
      Kept rest (interpreter.solve q')) : Kept rest (interpreter.solve q) := by
  rw [node] at tracked
  have child : n.child.Tracked rest := tracked.child (List.mem_singleton.mpr rfl)
  have attempts : n.current = 0 ∨ n.current < n.maxAttempts := by
    cases tracked with
    | mk attempts _ _ => exact attempts n rfl
  rcases repeater_tick ticks node with ⟨off, -, answer⟩ | ⟨on, r, tries, called, answer⟩
  · rw [answer, node]
    refine ⟨tracked, fun _ _ _ => .mk (weaker _ ?_) fun m member => ?_⟩
    · rcases attempts with none | less
      · exact none
      · rw [off] at less
        exact absurd less (UInt32.not_lt.mpr (UInt32.zero_le))
    · rw [List.mem_singleton.mp member]
      have first : (Node.repeater n).children[0]? = some n.child := rfl
      exact tracked.other first fun current => current off
  · have left : n.current < n.maxAttempts := by
      rcases attempts with none | less
      · rw [none]
        exact UInt32.pos_iff_ne_zero.mpr on
      · exact less
    obtain ⟨tracked', made, settled⟩ := tries.kept child left fun q' member =>
      calls q' (called ▸ member) (tries.ticks q' member)
    rw [answer]
    refine ⟨.mk ?_ ?_ fun i _ _ other => absurd on other, fun status result done => ?_⟩
    · rintro m same
      obtain rfl := Node.repeater.inj same
      exact made
    · intro m member
      rw [List.mem_singleton.mp member]
      exact tracked'
    · obtain ⟨zero, all⟩ := settled status result done
      refine .mk (weaker _ zero) fun m member => ?_
      rw [List.mem_singleton.mp member]
      exact all

end

/-- A tick that turns away from nothing running keeps a tree tracked, and one that ends in
    success or failure leaves it at rest. -/
theorem tick_kept {rest : Node → Prop} (weaker : ∀ n : Node, n.AtRest → rest n) (q : Request σ κ)
    (ticks : q.ask.Ticks) (tracked : q.node.Tracked rest)
    (keeps : ∀ v ∈ interpreter.trail q, ¬ Abandons rest v) : Kept rest (interpreter.solve q) := by
  refine interpreter.induct (motive := fun q => q.ask.Ticks → q.node.Tracked rest →
    (∀ v ∈ interpreter.trail q, ¬ Abandons rest v) → Kept rest (interpreter.solve q))
    (fun q ih ticks tracked keeps => ?_) q ticks tracked keeps
  have calls : ∀ q' ∈ interpreter.calls q, q'.ask.Ticks → q'.node.Tracked rest →
      Kept rest (interpreter.solve q') := fun q' called ticked tracked' =>
    ih q' called ticked tracked' fun v below => keeps v (Procedure.mem_trail_of_call called below)
  have here : ¬ Abandons rest q := keeps q (interpreter.mem_trail_self q)
  rcases q.node.shapes with ordered | ⟨n, node⟩ | decorator | ⟨n, node⟩ | immediate | ⟨n, node⟩
  · exact ordered_kept weaker ticks ordered tracked here calls
  · exact parallel_kept weaker ticks node tracked here calls
  · exact decorator_kept weaker ticks decorator tracked here calls
  · exact repeater_kept weaker ticks node tracked calls
  · obtain ⟨-, node, -, -⟩ := immediate_tick immediate
    obtain ⟨atRest, leaf⟩ := immediate.atRest
    refine ⟨by rw [node]; exact tracked, fun _ _ _ => ?_⟩
    rw [node]
    refine .mk (weaker _ atRest) ?_
    rw [leaf]
    nofun
  · obtain ⟨-, answer⟩ := prompt_tick node
    rw [answer]
    refine ⟨.mk nofun nofun nofun, fun status result done => ?_⟩
    refine .mk (weaker _ ?_) nofun
    simp only [Run.map, tickPrompt_settles result done]
    exact ⟨rfl, rfl⟩

/-- The calls of such a tick go to tracked trees too. -/
theorem tick_calls_tracked {rest : Node → Prop} (weaker : ∀ n : Node, n.AtRest → rest n)
    {q : Request σ κ} (ticks : q.ask.Ticks) (tracked : q.node.Tracked rest)
    (keeps : ∀ v ∈ interpreter.trail q, ¬ Abandons rest v) :
    ∀ q' ∈ interpreter.calls q, q'.ask.Ticks ∧ q'.node.Tracked rest := by
  have calls {q' : Request σ κ} (called : q' ∈ interpreter.calls q) (ticked : q'.ask.Ticks)
      (tracked' : q'.node.Tracked rest) : Kept rest (interpreter.solve q') :=
    tick_kept weaker q' ticked tracked' fun v below =>
      keeps v (Procedure.mem_trail_of_call called below)
  have before : ∀ child ∈ q.node.children, child.Tracked rest := fun child => tracked.child
  rcases q.node.shapes with ordered | ⟨n, node⟩ | decorator | ⟨n, node⟩ | immediate | ⟨n, node⟩
  · obtain ⟨_, _, r, -, walk, called, -⟩ := ordered_tick ticks ordered
    rw [called] at calls ⊢
    exact fun q' member => ⟨walk.ticks q' member, (walk.tracked before fun q' member =>
      calls member (walk.ticks q' member)).2 q' member⟩
  · obtain ⟨r, walk, called, -⟩ := parallel_tick ticks node
    rw [called] at calls ⊢
    exact fun q' member => ⟨walk.ticks q' member, (walk.tracked before fun q' member =>
      calls member (walk.ticks q' member)).2 q' member⟩
  · cases decorator_tick ticks decorator with
    | closed _ none | failed none =>
        rw [none]
        nofun
    | @called child v only called =>
        rw [called]
        intro q' member
        rw [List.mem_singleton.mp member]
        exact ⟨trivial, before child (by rw [only]; exact List.mem_cons_self)⟩
  · rcases repeater_tick ticks node with ⟨-, none, -⟩ | ⟨-, r, tries, called, -⟩
    · rw [none]
      nofun
    · rw [called] at calls ⊢
      have child : n.child.Tracked rest := before n.child (by rw [node]; exact List.mem_cons_self)
      exact fun q' member => ⟨tries.ticks q' member, tries.tracked child
        (fun q' member => calls member (tries.ticks q' member)) q' member⟩
  · rw [(immediate_tick immediate).1]
    nofun
  · rw [(prompt_tick node).1]
    nofun

end

end AgileAgent.DecisionDsl
