import AgileAgent.DecisionDsl.Suspended

/-! # Late replies

A reply may become ready some polls later than it could. A tree whose prompts are asked
in turn is compared with the same tree on a session that hands its replies on at once and
on a clock that stands still: a tick does the same in both, or it finds the reply late at
the end of its markers and changes nothing.
-/

namespace AgileAgent.DecisionDsl

open CallTree

/-- A session whose replies become ready later than those of the session inside. -/
structure Late (σ : Type) where
  inner : σ
  /-- How many polls later, for each message. -/
  extra : Nat → Nat
  sent : Nat := 0
  /-- The polls that are left before the reply that is awaited. -/
  left : Nat := 0

variable {σ κ ν : Type}

namespace Late

/-- What the session inside made of a message. -/
def passOn (s : Late σ) (result : Except SessionError Unit × σ) : Except SessionError Unit × Late σ :=
  match result with
  | (.ok (), inner) => (.ok (), { s with inner, sent := s.sent + 1, left := s.extra s.sent })
  | (.error e, inner) => (.error e, { s with inner })

instance [Session σ] : Session (Late σ) where
  send s message := s.passOn (Session.send s.inner message)
  sendWithHint s message model := s.passOn (Session.sendWithHint s.inner message model)
  isReady s :=
    if s.left = 0 then
      let (ready, inner) := Session.isReady s.inner
      (ready, { s with inner })
    else (false, { s with left := s.left - 1 })
  receive s :=
    let (reply, inner) := Session.receive s.inner
    (reply, { s with inner })

theorem isReady_late [Session σ] {s : Late σ} (late : 0 < s.left) :
    Session.isReady s = (false, { s with left := s.left - 1 }) := if_neg (Nat.ne_of_gt late)

theorem isReady_onTime [Session σ] {s : Late σ} (none : s.left = 0) :
    Session.isReady s = ((Session.isReady s.inner).1, { s with inner := (Session.isReady s.inner).2 }) :=
  if_pos none

theorem send_eq [Session σ] (s : Late σ) (message : String) :
    Session.send s message = s.passOn (Session.send s.inner message) := rfl

theorem sendWithHint_eq [Session σ] (s : Late σ) (message model : String) :
    Session.sendWithHint s message model = s.passOn (Session.sendWithHint s.inner message model) := rfl

theorem receive_eq [Session σ] (s : Late σ) :
    Session.receive s = ((Session.receive s.inner).1, { s with inner := (Session.receive s.inner).2 }) := rfl

end Late

/-! ## The run on time -/

namespace Node

mutual
/-- The tree with all instants at zero. -/
def onTime : Node → Node
  | .selector n => .selector { n with children := onTimeList n.children }
  | .sequence n => .sequence { n with children := onTimeList n.children }
  | .parallel n => .parallel { n with children := onTimeList n.children }
  | .inverter n => .inverter { n with child := onTime n.child }
  | .repeater n => .repeater { n with child := onTime n.child }
  | .cooldown n => .cooldown
      { n with child := onTime n.child, lastSuccess := n.lastSuccess.map fun _ => 0 }
  | .reflectionGuard n => .reflectionGuard { n with child := onTime n.child }
  | .forceHuman n => .forceHuman { n with child := onTime n.child }
  | .when n => .when { n with action := onTime n.action }
  | .condition n => .condition n
  | .action n => .action n
  | .prompt n => .prompt { n with sentAt := n.sentAt.map fun _ => 0 }
  | .setVar n => .setVar n
  | .subTree ⟨name, refName, none⟩ => .subTree ⟨name, refName, none⟩
  | .subTree ⟨name, refName, some root⟩ => .subTree ⟨name, refName, some (onTime root)⟩

def onTimeList : List Node → List Node
  | [] => []
  | n :: rest => onTime n :: onTimeList rest
end

theorem onTimeList_eq_map (ns : List Node) : onTimeList ns = ns.map onTime := by
  induction ns with
  | nil => rfl
  | cons n rest ih => rw [onTimeList, ih, List.map_cons]

theorem onTime_subTree (n : SubTreeNode Node) :
    (Node.subTree n).onTime = .subTree { n with resolvedRoot := n.resolvedRoot.map onTime } := by
  obtain ⟨name, refName, root⟩ := n
  cases root <;> rfl

end Node

/-- The same world with the session inside and a clock that stands still. -/
def World.onTime (w : World (Late σ) κ) : World σ Frozen :=
  ⟨⟨w.blackboard, w.session.inner, .clock⟩, w.tracer⟩

def Run.onTime (f : ν → ν) (r : Run (Late σ) κ ν) : Run σ Frozen ν := ⟨r.result, f r.node, r.world.onTime⟩

def Request.onTime (q : Request (Late σ) κ) : Request σ Frozen := ⟨q.ask, q.node.onTime, q.world.onTime⟩

/-- No polls are left after success or failure. -/
def Run.Settled (r : Run (Late σ) κ ν) : Prop :=
  ∀ status, r.result = .ok status → status ≠ .running → r.world.session.left = 0

/-- The reply is late, and that is all. -/
structure Stalls (node : ν) (w : World (Late σ) κ) (r : Run (Late σ) κ ν) : Prop where
  late : 0 < w.session.left
  result : r.result = .ok .running
  node : r.node = node
  blackboard : r.world.blackboard = w.blackboard
  session : r.world.session = { w.session with left := w.session.left - 1 }

/-- If polls are left, the markers lead to the prompt that waits. -/
def Poised (n : Node) (w : World (Late σ) κ) : Prop := w.session.left = 0 ∨ n.Suspended

/-- A call and the same call on time. -/
structure Asked (q : Request (Late σ) κ) (q' : Request σ Frozen) : Prop where
  ask : q.ask = .tick
  onTime : q' = q.onTime
  poised : Poised q.node q.world

/-- The call is answered as on time, or stalls. -/
structure Answered (q : Request (Late σ) κ) (a : Answer (Late σ) κ) (a' : Answer σ Frozen) : Prop where
  reset : a.node.reset = q.node.reset
  ends : q.node.Promptless → a.result ≠ .ok .running
  outcome : (a' = a.onTime Node.onTime ∧ a.Settled) ∨ Stalls q.node q.world a

/-- A routine on `node` in the world `w` and the same routine on time; `f` is what being on
    time means for the record. -/
abbrev Mirrors (f : ν → ν) (node : ν) (w : World (Late σ) κ) :
    Routine (Late σ) κ ν → Routine σ Frozen ν → Prop :=
  Body.Follows Asked Answered (fun r r' => r' = r.onTime f ∧ r.Settled) (Stalls node w)

namespace Mirrors

variable {f : ν → ν} {node : ν} {w : World (Late σ) κ}

theorem ret {r : Run (Late σ) κ ν} {r' : Run σ Frozen ν} (same : r' = r.onTime f) (settled : r.Settled) :
    Mirrors f node w (.ret r) (.ret r') := Body.Follows.ret ⟨same, settled⟩

theorem fail {r : Run (Late σ) κ ν} {r' : Run σ Frozen ν} {e : Fault} (failed : r.result = .error e)
    (same : r' = r.onTime f) : Mirrors f node w (.ret r) (.ret r') := by
  refine .ret same fun status done => ?_
  rw [failed] at done
  cases done

/-- The routine returns at once, with the session as it was. -/
theorem stop {r : Run (Late σ) κ ν} {r' : Run σ Frozen ν} (none : w.session.left = 0)
    (session : r.world.session = w.session) (same : r' = r.onTime f) :
    Mirrors f node w (.ret r) (.ret r') := .ret same fun _ _ _ => session ▸ none

/-- With no polls left nothing stalls, wherever the routine goes on from. -/
theorem goOn {node' : ν} {v : World (Late σ) κ} {body : Routine (Late σ) κ ν}
    {body' : Routine σ Frozen ν} (mirrors : Mirrors f node' v body body') (none : v.session.left = 0) :
    Mirrors f node w body body' := by
  refine Body.Follows.mono mirrors (fun _ _ => id) fun r stalls => ?_
  have late := stalls.late
  omega

/-- One call, after which a stalled routine returns. -/
theorem call {child : Node} {v : World (Late σ) κ} {next : Answer (Late σ) κ → Routine (Late σ) κ ν}
    {next' : Answer σ Frozen → Routine σ Frozen ν} (poised : Poised child v)
    (done : ∀ a : Answer (Late σ) κ, a.Settled → Mirrors f node w (next a) (next' (a.onTime Node.onTime)))
    (stalled : ∀ a, Stalls child v a → ∃ r, next a = .ret r ∧ Stalls node w r) :
    Mirrors f node w (.call ⟨.tick, child, v⟩ next) (.call ⟨.tick, child.onTime, v.onTime⟩ next') := by
  refine Body.Follows.call ⟨rfl, rfl, poised⟩ fun a a' answered => ?_
  rcases answered.outcome with ⟨rfl, settled⟩ | stalls
  · exact done a settled
  · obtain ⟨r, returned, stalls'⟩ := stalled a stalls
    rw [returned]
    exact .early stalls'

/-- One turn of a composite's loop. -/
theorem visitChild {name : String} {children : List Node} {i : Nat} {v : World (Late σ) κ}
    {failed : Fault → List Node → World (Late σ) κ → Run (Late σ) κ ν}
    {next : NodeStatus → List Node → World (Late σ) κ → Routine (Late σ) κ ν}
    {failed' : Fault → List Node → World σ Frozen → Run σ Frozen ν}
    {next' : NodeStatus → List Node → World σ Frozen → Routine σ Frozen ν}
    (poised : ∀ child, children[i]? = some child → Poised child v)
    (stopped : ∀ e ns u, (failed e ns u).result = .error e ∧
      failed' e (ns.map Node.onTime) u.onTime = (failed e ns u).onTime f)
    (continued : ∀ status ns u, Node.resetList ns = Node.resetList children →
      (status ≠ .running → u.session.left = 0) →
      ((∀ child ∈ children, child.Promptless) → status ≠ .running) →
      Mirrors f node w (next status ns u) (next' status (ns.map Node.onTime) u.onTime))
    (stalled : ∀ u : World (Late σ) κ, 0 < v.session.left → u.blackboard = v.blackboard →
      u.session = { v.session with left := v.session.left - 1 } →
      ∃ r, next .running children u = .ret r ∧ Stalls node w r) :
    Mirrors f node w (DecisionDsl.visitChild name children i .tick v failed next)
      (DecisionDsl.visitChild name (children.map Node.onTime) i .tick v.onTime failed' next') := by
  have leave (e : Fault) (ns : List Node) (u : World (Late σ) κ) :
      Mirrors f node w (.ret (failed e ns u)) (.ret (failed' e (ns.map Node.onTime) u.onTime)) := by
    obtain ⟨failed, same⟩ := stopped e ns u
    exact .fail failed same
  unfold DecisionDsl.visitChild
  cases at_i : children[i]? with
  | none =>
      rw [List.getElem?_map, at_i]
      exact leave .panic children (v.enter name i)
  | some child =>
      rw [List.getElem?_map, at_i]
      refine Body.Follows.call ⟨rfl, rfl, poised child at_i⟩ fun a a' answered => ?_
      have kept := Node.resetList_set at_i answered.reset
      rcases answered.outcome with ⟨rfl, settled⟩ | stalls
      · have set : (children.map Node.onTime).set i a.node.onTime = (children.set i a.node).map Node.onTime :=
          List.map_set.symm
        cases result : a.result with
        | error e =>
            simp only [result, Run.onTime, set]
            exact leave e _ _
        | ok status =>
            simp only [result, Run.onTime, set]
            refine continued status _ (a.world.exit name status) kept (settled status result) ?_
            intro promptless running
            subst running
            exact answered.ends (promptless child (List.mem_of_getElem? at_i)) result
      · simp only [stalls.result]
        obtain ⟨inside, rfl⟩ := List.getElem?_eq_some_iff.mp at_i
        rw [stalls.node, List.set_getElem_self]
        obtain ⟨r, returned, stalls'⟩ :=
          stalled (a.world.exit name .running) stalls.late stalls.blackboard stalls.session
        rw [returned]
        exact .early stalls'

end Mirrors

/-! ## Composites -/

def SelectorNode.onTime (n : SelectorNode Node) : SelectorNode Node :=
  { n with children := n.children.map Node.onTime }

def SequenceNode.onTime (n : SequenceNode Node) : SequenceNode Node :=
  { n with children := n.children.map Node.onTime }

def ParallelNode.onTime (n : ParallelNode Node) : ParallelNode Node :=
  { n with children := n.children.map Node.onTime }

theorem selector_onTime (n : SelectorNode Node) : (Node.selector n).onTime = .selector n.onTime :=
  congrArg (fun children => Node.selector { n with children }) (Node.onTimeList_eq_map n.children)

theorem sequence_onTime (n : SequenceNode Node) : (Node.sequence n).onTime = .sequence n.onTime :=
  congrArg (fun children => Node.sequence { n with children }) (Node.onTimeList_eq_map n.children)

theorem parallel_onTime (n : ParallelNode Node) : (Node.parallel n).onTime = .parallel n.onTime :=
  congrArg (fun children => Node.parallel { n with children }) (Node.onTimeList_eq_map n.children)

/-- The calls that are left of a composite begin, if polls are left, with the child that
    the marker names, and that child is suspended. -/
def GoesOn (active : Option Nat) (children : List Node) (indices : List Nat) (w : World (Late σ) κ) :
    Prop :=
  w.session.left = 0 ∨ ∃ i child rest, indices = i :: rest ∧ active = some i ∧
    children[i]? = some child ∧ child.Suspended

theorem GoesOn.poised {active : Option Nat} {children : List Node} {i : Nat} {rest : List Nat}
    {w : World (Late σ) κ} (goesOn : GoesOn active children (i :: rest) w) {child : Node}
    (at_i : children[i]? = some child) : Poised child w := by
  rcases goesOn with none | ⟨j, waiting, _, same, -, at_j, suspended⟩
  · exact .inl none
  · obtain ⟨rfl, -⟩ := List.cons.inj same
    obtain rfl := Option.some.inj (at_j.symm.trans at_i)
    exact .inr suspended

/-- With polls left the marker names the first child that is called. -/
theorem GoesOn.active {active : Option Nat} {children : List Node} {i : Nat} {rest : List Nat}
    {w : World (Late σ) κ} (goesOn : GoesOn active children (i :: rest) w)
    (late : 0 < w.session.left) : active = some i := by
  rcases goesOn with none | ⟨j, waiting, _, same, active, -⟩
  · omega
  · obtain ⟨rfl, -⟩ := List.cons.inj same
    exact active

theorem selectorSucceeded_onTime (n : SelectorNode Node) (i : Nat) (w : World (Late σ) κ) :
    selectorSucceeded n.onTime i w.onTime = (selectorSucceeded n i w).onTime SelectorNode.onTime := by
  cases rule : n.ruleName <;>
    simp only [selectorSucceeded, SelectorNode.onTime, rule, List.length_map, Run.onTime, World.onTime]

theorem selectorLoop_mirrors {indices : List Nat} : ∀ {node : SelectorNode Node} {w : World (Late σ) κ},
    GoesOn node.activeChild node.children indices w →
    Mirrors SelectorNode.onTime node w (selectorLoop (indices.map (·, .tick)) node w)
      (selectorLoop (indices.map (·, .tick)) node.onTime w.onTime) := by
  induction indices with
  | nil =>
      intro node w goesOn
      refine .ret rfl fun status done other => ?_
      rcases goesOn with none | ⟨_, _, _, ⟨⟩, -⟩
      exact none
  | cons i rest ih =>
      intro node w goesOn
      refine .visitChild (fun child => goesOn.poised) (fun e ns u => ⟨rfl, rfl⟩) ?_ ?_
      · intro status ns u kept settled ends
        cases status with
        | success =>
            refine .ret (selectorSucceeded_onTime { node with children := ns } i u) fun _ _ _ => ?_
            rw [(selectorSucceeded_keeps _ _ _).session]
            exact settled (by decide)
        | running => exact .ret rfl fun status same other => absurd (Except.ok.inj same).symm other
        | failure =>
            have none := settled (by decide)
            exact (@ih { node with children := ns } u (.inl none)).goOn none
      · intro u late blackboard session
        refine ⟨_, rfl, late, rfl, ?_, blackboard, session⟩
        rw [← goesOn.active late]

theorem sequenceLoop_mirrors {indices : List Nat} : ∀ {node : SequenceNode Node} {w : World (Late σ) κ},
    GoesOn node.activeChild node.children indices w →
    Mirrors SequenceNode.onTime node w (sequenceLoop (indices.map (·, .tick)) node w)
      (sequenceLoop (indices.map (·, .tick)) node.onTime w.onTime) := by
  induction indices with
  | nil =>
      intro node w goesOn
      refine .ret rfl fun status done other => ?_
      rcases goesOn with none | ⟨_, _, _, ⟨⟩, -⟩
      exact none
  | cons i rest ih =>
      intro node w goesOn
      refine .visitChild (fun child => goesOn.poised) (fun e ns u => ⟨rfl, rfl⟩) ?_ ?_
      · intro status ns u kept settled ends
        cases status with
        | success =>
            have none := settled (by decide)
            exact (@ih { node with children := ns } u (.inl none)).goOn none
        | running => exact .ret rfl fun status same other => absurd (Except.ok.inj same).symm other
        | failure => exact .ret rfl fun _ _ _ => settled (by decide)
      · intro u late blackboard session
        refine ⟨_, rfl, late, rfl, ?_, blackboard, session⟩
        rw [← goesOn.active late]

theorem parallelLoop_mirrors {indices : List Nat} : ∀ {s f k : Nat} {node node₀ : ParallelNode Node}
    {w w₀ : World (Late σ) κ}, w.session.left = 0 → (∀ child ∈ node.children, child.Promptless) →
    Mirrors ParallelNode.onTime node₀ w₀ (parallelLoop (indices.map (·, .tick)) s f k node w)
      (parallelLoop (indices.map (·, .tick)) s f k node.onTime w.onTime) := by
  induction indices with
  | nil =>
      intro s f k node node₀ w w₀ none promptless
      refine .ret ?_ fun _ _ _ => none
      simp [ParallelNode.onTime, Run.onTime]
  | cons i rest ih =>
      intro s f k node node₀ w w₀ none promptless
      refine .visitChild (fun child _ => .inl none) (fun e ns u => ⟨rfl, rfl⟩) ?_ ?_
      · intro status ns u kept settled ends
        have none' := settled (ends promptless)
        have promptless' : ∀ child ∈ ns, child.Promptless := by
          intro child member
          have renewed := List.mem_map_of_mem (f := Node.reset) member
          rw [← Node.resetList_eq_map, kept, Node.resetList_eq_map] at renewed
          obtain ⟨twin, member', same⟩ := List.mem_map.mp renewed
          exact (promptless twin member').of_reset Node.notPrompt_of_reset same.symm
        cases status <;> exact @ih _ _ _ { node with children := ns } node₀ u w₀ none' promptless'
      · intro u late
        omega

/-! ## Decorators -/

/-- What a decorator returns for the answer `a` of its child, which it called in the world
    `v`; `r'` is what it returns on time. -/
structure HandsOn (n child : Node) (w v : World (Late σ) κ) (a r : Answer (Late σ) κ)
    (r' : Answer σ Frozen) : Prop where
  result : Relayed a.result r.result
  session : r.world.session = a.world.session
  onTime : r' = r.onTime Node.onTime
  still : a.result = .ok .running → a.node = child → a.world.blackboard = v.blackboard →
    r.node = n ∧ r.world.blackboard = w.blackboard

theorem HandsOn.settled {n child : Node} {w v : World (Late σ) κ} {a r : Answer (Late σ) κ}
    {r' : Answer σ Frozen} (handsOn : HandsOn n child w v a r r') (settled : a.Settled) : r.Settled := by
  intro status done other
  rw [handsOn.session]
  have relayed := handsOn.result
  rw [done] at relayed
  generalize result : a.result = inner at relayed
  cases relayed with
  | waits => exact absurd rfl other
  | done ended => exact settled _ result ended

theorem HandsOn.stalls {n child : Node} {w v : World (Late σ) κ} {a r : Answer (Late σ) κ}
    {r' : Answer σ Frozen} (handsOn : HandsOn n child w v a r r') (asked : v.session = w.session)
    (stalls : Stalls child v a) : Stalls n w r := by
  obtain ⟨node, blackboard⟩ := handsOn.still stalls.result stalls.node stalls.blackboard
  refine ⟨asked ▸ stalls.late, ?_, node, blackboard, ?_⟩
  · have relayed := handsOn.result
    rw [stalls.result] at relayed
    generalize result : r.result = outer at relayed
    cases relayed with
    | waits => rfl
    | done ended | panicked ended => exact absurd rfl ended
  · rw [handsOn.session, stalls.session, asked]

theorem Poised.child {n child : Node} {v w : World (Late σ) κ} (poised : Poised n w)
    (decorator : n.Decorator) (only : n.children = [child]) (session : v.session = w.session) :
    Poised child v := by
  rw [Poised, session]
  refine poised.imp id fun suspended => ?_
  cases suspended with
  | prompt | repeater => exact absurd decorator id
  | ordered ordered =>
      cases n with
      | selector | sequence => exact absurd decorator id
      | _ => exact absurd ordered id
  | decorator _ only' below =>
      obtain ⟨rfl, -⟩ := List.cons.inj (only.symm.trans only')
      exact below

/-- A decorator that calls its child once. -/
theorem Mirrors.decorator {n child : Node} {v w : World (Late σ) κ}
    {next : Answer (Late σ) κ → Routine (Late σ) κ Node}
    {next' : Answer σ Frozen → Routine σ Frozen Node} (poised : Poised n w) (decorator : n.Decorator)
    (only : n.children = [child]) (session : v.session = w.session)
    (returns : ∀ a, ∃ r r', next a = .ret r ∧ next' (a.onTime Node.onTime) = .ret r' ∧
      HandsOn n child w v a r r') :
    Mirrors Node.onTime n w (.call ⟨.tick, child, v⟩ next) (.call ⟨.tick, child.onTime, v.onTime⟩ next') := by
  refine .call (poised.child decorator only session) (fun a settled => ?_) fun a stalls => ?_
  · obtain ⟨r, r', returned, returned', handsOn⟩ := returns a
    rw [returned, returned']
    exact .ret handsOn.onTime (handsOn.settled settled)
  · obtain ⟨r, _, returned, -, handsOn⟩ := returns a
    exact ⟨r, returned, handsOn.stalls session stalls⟩

/-- Over a tree in which no prompt waits no polls are left. -/
theorem Poised.quiet {n : Node} {w : World (Late σ) κ} (poised : Poised n w)
    (quiet : n.All Node.Quiet) : w.session.left = 0 := by
  rcases poised with none | suspended
  · exact none
  · exact absurd quiet suspended.not_quiet

theorem inverter_mirrors {n : InverterNode Node} {w : World (Late σ) κ}
    (poised : Poised (.inverter n) w) : Mirrors Node.onTime (.inverter n) w
      ((tickInverter n w).map (.map .inverter))
      ((tickInverter { n with child := n.child.onTime } w.onTime).map (.map .inverter)) := by
  refine .decorator poised trivial rfl rfl fun a =>
    ⟨_, _, rfl, rfl, .invert _, rfl, rfl, fun _ node blackboard => ?_⟩
  exact ⟨congrArg (fun child => Node.inverter { n with child }) node, blackboard⟩

theorem forceHuman_mirrors {n : ForceHumanNode Node} {w : World (Late σ) κ}
    (poised : Poised (.forceHuman n) w) : Mirrors Node.onTime (.forceHuman n) w
      ((tickForceHuman n w).map (.map .forceHuman))
      ((tickForceHuman { n with child := n.child.onTime } w.onTime).map (.map .forceHuman)) := by
  refine .decorator poised trivial rfl rfl fun a => ?_
  by_cases success : a.result = .ok .success
  · simp only [Run.onTime, success, if_true]
    refine ⟨_, _, rfl, rfl, ?_, rfl, rfl, by simp [success]⟩
    rw [success]
    exact .same _
  · simp only [Run.onTime, success, if_false]
    refine ⟨_, _, rfl, rfl, .same _, rfl, rfl, fun _ node blackboard => ?_⟩
    exact ⟨congrArg (fun child => Node.forceHuman { n with child }) node, blackboard⟩

theorem reflectionGuard_mirrors {n : ReflectionGuardNode Node} {w : World (Late σ) κ}
    (poised : Poised (.reflectionGuard n) w)
    (closed : n.maxRounds ≤ w.blackboard.reflectionRound → n.child.All Node.Quiet) :
    Mirrors Node.onTime (.reflectionGuard n) w
      ((tickReflectionGuard n w).map (.map .reflectionGuard))
      ((tickReflectionGuard { n with child := n.child.onTime } w.onTime).map (.map .reflectionGuard)) := by
  unfold tickReflectionGuard reflectionGuardWith
  by_cases reached : n.maxRounds ≤ w.blackboard.reflectionRound
  · simp only [World.onTime, ge_iff_le, reached, if_true]
    have none := (poised.child trivial rfl rfl).quiet (closed reached)
    exact .stop none rfl rfl
  · simp only [World.onTime, ge_iff_le, reached, if_false]
    refine .decorator poised trivial rfl rfl fun a => ?_
    by_cases success : a.result = .ok .success
    · simp only [Run.onTime, World.onTime, success, if_true]
      split
      · refine ⟨_, _, rfl, rfl, ?_, rfl, rfl, by simp [success]⟩
        rw [success]
        exact .panicked (by decide)
      · refine ⟨_, _, rfl, rfl, ?_, rfl, rfl, by simp [success]⟩
        rw [success]
        exact .same _
    · simp only [Run.onTime, World.onTime, success, if_false]
      refine ⟨_, _, rfl, rfl, .same _, rfl, rfl, fun _ node blackboard => ?_⟩
      exact ⟨congrArg (fun child => Node.reflectionGuard { n with child }) node, blackboard⟩

section

variable [Crates]

theorem when_mirrors {n : WhenNode Node} {w : World (Late σ) κ} (poised : Poised (.when n) w)
    (closed : n.condition.evaluate w.blackboard = .ok false → n.action.All Node.Quiet) :
    Mirrors Node.onTime (.when n) w ((tickWhen n w).map (.map .when))
      ((tickWhen { n with action := n.action.onTime } w.onTime).map (.map .when)) := by
  simp only [tickWhen, whenWith, World.onTime]
  cases holds : n.condition.evaluate w.blackboard with
  | error e => exact .fail rfl rfl
  | ok holds' =>
      cases holds' with
      | false => exact .stop ((poised.child trivial rfl rfl).quiet (closed holds)) rfl rfl
      | true =>
          refine .decorator poised trivial rfl rfl fun a =>
            ⟨_, _, rfl, rfl, .same _, rfl, rfl, fun _ node blackboard => ?_⟩
          exact ⟨congrArg (fun action => Node.when { n with action }) node, blackboard⟩

end

section

variable [Clock κ]

/-- The deadline is past: a prompt that waits has timed out, or a cooldown is over. -/
inductive Expires (q : Request σ κ) : Prop where
  | prompt {n : PromptNode} (node : q.node = .prompt n) (pending : n.pending = true)
      (timedOut : (promptTimedOut n q.world).1 = true)
  | cooldown {n : CooldownNode Node} {last : Nat} (node : q.node = .cooldown n)
      (succeeded : n.lastSuccess = some last) (lasts : 0 < n.durationMs)
      (past : (cooldownClosed n q.world).1 = false)

open Plain

/-- A cooldown that is not over is closed at its start as well. -/
theorem cooldownClosed_onTime {q : Request (Late σ) κ} {n : CooldownNode Node}
    (node : q.node = .cooldown n) (inTime : ¬ Expires q) (child : Node) :
    cooldownClosed { n with child, lastSuccess := n.lastSuccess.map fun _ => 0 } q.world.onTime =
      ((cooldownClosed n q.world).1, (cooldownClosed n q.world).2.onTime) := by
  cases succeeded : n.lastSuccess with
  | none => simp only [cooldownClosed, succeeded, Option.map_none]
  | some last =>
      have agree : (cooldownClosed n q.world).1 = decide (durationSince 0 0 < fromMillis n.durationMs) := by
        cases lasts : n.durationMs with
        | zero => simp [cooldownClosed, succeeded, lasts, fromMillis]
        | succ ms =>
            have lasts' : 0 < n.durationMs := by omega
            cases past : (cooldownClosed n q.world).1 with
            | false => exact absurd (.cooldown node succeeded lasts' past) inTime
            | true => simp [durationSince, fromMillis]
      rw [agree]
      simp only [cooldownClosed, succeeded, Option.map_some]
      rfl

theorem cooldown_mirrors {q : Request (Late σ) κ} {n : CooldownNode Node} (node : q.node = .cooldown n)
    (poised : Poised (.cooldown n) q.world) (inTime : ¬ Expires q)
    (closed : (cooldownClosed n q.world).1 = true → n.child.All Node.Quiet) :
    Mirrors Node.onTime (.cooldown n) q.world
      ((tickCooldown n q.world).map (.map .cooldown))
      ((tickCooldown { n with child := n.child.onTime, lastSuccess := n.lastSuccess.map fun _ => 0 }
        q.world.onTime).map (.map .cooldown)) := by
  have same := cooldownClosed_onTime node inTime n.child.onTime
  have session : (cooldownClosed n q.world).2.session = q.world.session :=
    (cooldownClosed_keeps n q.world).1.session
  have blackboard : (cooldownClosed n q.world).2.blackboard = q.world.blackboard := by
    unfold cooldownClosed
    split <;> rfl
  simp only [tickCooldown, cooldownWith, same]
  generalize cooldownClosed n q.world = checked at *
  obtain ⟨shut, v⟩ := checked
  cases shut with
  | true => exact .stop ((poised.child trivial rfl rfl).quiet (closed rfl)) session rfl
  | false =>
      refine .decorator poised trivial rfl session fun a => ?_
      by_cases success : a.result = .ok .success
      · simp only [Run.onTime, World.onTime, success, if_true]
        refine ⟨_, _, rfl, rfl, ?_, rfl, rfl, by simp [success]⟩
        rw [success]
        exact .same _
      · simp only [Run.onTime, World.onTime, success, if_false]
        refine ⟨_, _, rfl, rfl, .same _, rfl, rfl, fun _ node kept => ⟨?_, kept.trans blackboard⟩⟩
        exact congrArg (fun child => Node.cooldown { n with child }) node

end

theorem subTree_mirrors {n : SubTreeNode Node} {w : World (Late σ) κ} (poised : Poised (.subTree n) w) :
    Mirrors Node.onTime (.subTree n) w ((tickSubtree n w).map (.map .subTree))
      ((tickSubtree { n with resolvedRoot := n.resolvedRoot.map Node.onTime } w.onTime).map
        (.map .subTree)) := by
  obtain ⟨name, refName, root⟩ := n
  simp only [tickSubtree, subTreeWith, World.withTracer, World.onTime]
  cases pushed : w.blackboard.pushScope with
  | error e => exact .fail rfl (by cases root <;> rfl)
  | ok blackboard =>
      cases root with
      | none => exact .fail rfl rfl
      | some root =>
          refine .decorator poised trivial rfl rfl fun a => ?_
          cases result : a.result with
          | error e =>
              simp only [Run.onTime, World.onTime, result]
              refine ⟨_, _, rfl, rfl, ?_, rfl, rfl, by simp [result]⟩
              rw [result]
              exact .failed
          | ok status =>
              simp only [Run.onTime, World.onTime, result]
              refine ⟨_, _, rfl, rfl, ?_, rfl, rfl, fun _ node kept => ⟨?_, ?_⟩⟩
              · rw [result]
                exact .same _
              · exact congrArg (fun root => Node.subTree ⟨name, refName, some root⟩) node
              · exact (congrArg Blackboard.popScope kept).trans (Blackboard.popScope_pushScope pushed)

def RepeaterNode.onTime (n : RepeaterNode Node) : RepeaterNode Node := { n with child := n.child.onTime }

theorem repeaterLoop_mirrors {left : Nat} : ∀ {node node₀ : RepeaterNode Node} {w w₀ : World (Late σ) κ},
    w.session.left = 0 ∨ (0 < left ∧ node = node₀ ∧ w = w₀ ∧ node.child.Suspended) →
    Mirrors RepeaterNode.onTime node₀ w₀ (repeaterLoop (.replicate left .tick) node w)
      (repeaterLoop (.replicate left .tick) node.onTime w.onTime) := by
  induction left with
  | zero =>
      intro node node₀ w w₀ goesOn
      refine .ret rfl fun _ _ _ => ?_
      rcases goesOn with none | ⟨spare, -⟩
      · exact none
      · exact absurd spare (Nat.lt_irrefl 0)
  | succ left ih =>
      intro node node₀ w w₀ goesOn
      have counted (a : Answer (Late σ) κ) (status : NodeStatus) (none : a.world.session.left = 0) :
          Mirrors RepeaterNode.onTime node₀ w₀
            (repeaterCount { node with child := a.node } status a.world
              (repeaterLoop (.replicate left .tick)))
            (repeaterCount (RepeaterNode.onTime { node with child := a.node }) status a.world.onTime
              (repeaterLoop (.replicate left .tick))) := by
        simp only [repeaterCount, RepeaterNode.onTime]
        by_cases full : node.current.toNat + 1 = UInt32.size
        · simp only [full, if_true]
          exact .fail rfl rfl
        · simp only [full, if_false]
          by_cases spent : node.current + 1 ≥ node.maxAttempts
          · simp only [spent, if_true]
            exact .ret rfl fun _ _ _ => none
          · simp only [spent, if_false]
            exact @ih { node with child := a.node, current := node.current + 1 } _ _ _ (.inl none)
      refine .call (goesOn.imp id fun waiting => waiting.2.2.2) (fun a settled => ?_) fun a stalls => ?_
      · simp only [repeaterAttempt, Run.onTime]
        cases result : a.result with
        | error e => exact .fail rfl rfl
        | ok status =>
            cases status with
            | success => exact counted a .success (settled .success result (by decide))
            | failure => exact counted a .failure (settled .failure result (by decide))
            | running => exact .ret rfl fun status same other => absurd (Except.ok.inj same).symm other
      · rcases goesOn with none | ⟨-, rfl, rfl, -⟩
        · have late := stalls.late
          omega
        · simp only [repeaterAttempt, stalls.result]
          refine ⟨_, rfl, stalls.late, rfl, ?_, stalls.blackboard, stalls.session⟩
          rw [stalls.node]

/-! ## Leaves -/

variable [Crates] [Session σ] [Clock κ]

open Plain

theorem immediate_mirrors {n : Node} {w : World (Late σ) κ} (immediate : n.Immediate)
    (poised : Poised n w) : Mirrors Node.onTime n w (tickBody n w) (tickBody n.onTime w.onTime) := by
  have none := poised.quiet immediate.quiet
  cases n with
  | condition n =>
      simp only [Node.onTime, tickBody, tickCondition, World.onTime]
      split <;> exact .stop none rfl rfl
  | action n =>
      simp only [Node.onTime, tickBody, tickAction, emitCommand, World.onTime]
      split
      · split <;> exact .stop none rfl rfl
      · split
        · exact .stop none rfl rfl
        · exact .stop none rfl rfl
        · split <;> exact .stop none rfl rfl
  | setVar n => exact .stop none rfl rfl
  | _ => exact absurd immediate id

omit [Session σ] [Clock κ] in
theorem consumeReply_mirrors {n : PromptNode} {reply : String} {v w : World (Late σ) κ}
    (none : v.session.left = 0) :
    Mirrors Node.onTime (.prompt n) w (.ret ((consumeReply n reply v).map .prompt))
      (.ret ((consumeReply { n with sentAt := n.sentAt.map fun _ => 0 } reply v.onTime).map .prompt)) := by
  obtain ⟨status, -, -, -, session⟩ := consumeReply_done n reply v
  refine .ret ?_ fun _ _ _ => (congrArg Late.left session).trans none
  simp only [consumeReply, World.onTime]
  split <;> rfl

theorem awaitReply_mirrors {q : Request (Late σ) κ} {n : PromptNode} (node : q.node = .prompt n)
    (pending : n.pending = true) (inTime : ¬ Expires q) :
    Mirrors Node.onTime (.prompt n) q.world (.ret ((awaitReply n q.world).map .prompt))
      (.ret ((awaitReply { n with sentAt := n.sentAt.map fun _ => 0 } q.world.onTime).map .prompt)) := by
  have early : (promptTimedOut n q.world).1 = false := by
    cases timedOut : (promptTimedOut n q.world).1 with
    | false => rfl
    | true => exact absurd (.prompt node pending timedOut) inTime
  have same : promptTimedOut { n with sentAt := n.sentAt.map fun _ => 0 } q.world.onTime =
      (false, (promptTimedOut n q.world).2.onTime) := by
    cases sent : n.sentAt <;> simp [promptTimedOut, sent, durationSince, World.now, Clock.now, World.onTime]
  have session := promptTimedOut_session n q.world
  have blackboard : (promptTimedOut n q.world).2.blackboard = q.world.blackboard := by
    unfold promptTimedOut
    split <;> rfl
  simp only [awaitReply, same, early]
  generalize (promptTimedOut n q.world).2 = v at *
  rcases Nat.eq_zero_or_pos v.session.left with none | late
  · simp only [Late.isReady_onTime none, World.onTime]
    generalize Session.isReady v.session.inner = polled
    obtain ⟨ready, inner⟩ := polled
    cases ready with
    | false => exact .ret rfl fun status done other => absurd (Except.ok.inj done).symm other
    | true =>
        simp only [Late.receive_eq]
        generalize Session.receive inner = reply
        obtain ⟨received, inner'⟩ := reply
        cases received with
        | error e => exact .fail rfl rfl
        | ok reply => exact consumeReply_mirrors none
  · simp only [Late.isReady_late late]
    exact .early ⟨session ▸ late, rfl, rfl, blackboard, by rw [← session]; rfl⟩

theorem sendPrompt_mirrors {n : PromptNode} {w : World (Late σ) κ} :
    Mirrors Node.onTime (.prompt n) w (.ret ((sendPrompt n w).map .prompt))
      (.ret ((sendPrompt { n with sentAt := n.sentAt.map fun _ => 0 } w.onTime).map .prompt)) := by
  obtain ⟨name, model, template, parser, sets, timeoutMs, pending, sentAt⟩ := n
  simp only [sendPrompt, World.onTime]
  split
  · exact .fail rfl rfl
  · next rendered _ =>
      cases model with
      | none =>
          simp only [World.withTracer, World.withSession, Late.send_eq]
          generalize Session.send w.session.inner rendered = sent
          obtain ⟨sent, inner⟩ := sent
          cases sent with
          | error e => exact .fail rfl rfl
          | ok => exact .ret rfl fun status done other => absurd (Except.ok.inj done).symm other
      | some model =>
          simp only [World.withTracer, World.withSession, Late.sendWithHint_eq]
          generalize Session.sendWithHint w.session.inner rendered model = sent
          obtain ⟨sent, inner⟩ := sent
          cases sent with
          | error e => exact .fail rfl rfl
          | ok => exact .ret rfl fun status done other => absurd (Except.ok.inj done).symm other

/-! ## Ticks -/

omit [Crates] [Session σ] [Clock κ] in
/-- What is shown of a record holds of the node that it is the record of. -/
theorem Mirrors.wrap (wrap : ν → Node) {f : ν → ν} (same : ∀ m, (wrap m).onTime = wrap (f m)) {node : ν}
    {w : World (Late σ) κ} {body : Routine (Late σ) κ ν} {body' : Routine σ Frozen ν}
    (mirrors : Mirrors f node w body body') :
    Mirrors Node.onTime (wrap node) w (body.map (.map wrap)) (body'.map (.map wrap)) := by
  refine Body.Follows.map (Body.Follows.mono mirrors ?_ ?_)
  · rintro r _ ⟨rfl, settled⟩
    exact ⟨congrArg (Run.mk r.result · r.world.onTime) (same r.node).symm, settled⟩
  · rintro r stalls
    exact ⟨stalls.late, stalls.result, congrArg wrap stalls.node, stalls.blackboard, stalls.session⟩

/-- Neither a deadline passes, nor does the node turn away from a prompt that waits. -/
structure Undisturbed (q : Request σ κ) : Prop where
  inTime : ¬ Expires q
  open_ : Closes q → ∀ child ∈ q.node.children, child.All Node.Quiet

omit [Crates] [Session σ] [Clock κ] in
theorem Poised.goesOn {n : Node} {w : World (Late σ) κ} (poised : Poised n w) (ordered : n.Ordered) :
    GoesOn n.activeChild n.children
      (List.range' (n.activeChild.getD 0) (n.children.length - n.activeChild.getD 0)) w := by
  refine poised.imp id fun suspended => ?_
  cases suspended with
  | prompt | repeater => exact absurd ordered id
  | decorator decorator =>
      cases n with
      | selector | sequence => exact absurd decorator id
      | _ => exact absurd ordered id
  | @ordered _ child i _ active at_i below =>
      have inside := (List.getElem?_eq_some_iff.mp at_i).1
      refine ⟨i, child, List.range' (i + 1) (n.children.length - (i + 1)), ?_, active, at_i, below⟩
      have count : n.children.length - i = (n.children.length - (i + 1)) + 1 := by omega
      rw [active, Option.getD_some, count, List.range'_succ]

omit [Crates] [Session σ] [Clock κ] in
theorem Poised.parallel {n : ParallelNode Node} {w : World (Late σ) κ} (poised : Poised (.parallel n) w) :
    w.session.left = 0 := by
  rcases poised with none | suspended
  · exact none
  · cases suspended with
    | ordered ordered => exact absurd ordered id
    | decorator decorator => exact absurd decorator id

omit [Crates] [Session σ] [Clock κ] in
theorem Poised.repeater {n : RepeaterNode Node} {w : World (Late σ) κ} (poised : Poised (.repeater n) w) :
    w.session.left = 0 ∨ (n.current < n.maxAttempts ∧ n.child.Suspended) := by
  refine poised.imp id fun suspended => ?_
  cases suspended with
  | ordered ordered => exact absurd ordered id
  | decorator decorator => exact absurd decorator id
  | repeater spare below => exact ⟨spare, below⟩

theorem tickBody_mirrors {q : Request (Late σ) κ} (serial : q.node.Serial)
    (poised : Poised q.node q.world) (undisturbed : Undisturbed q) :
    Mirrors Node.onTime q.node q.world (tickBody q.node q.world)
      (tickBody q.node.onTime q.world.onTime) := by
  obtain ⟨ask, node, w⟩ := q
  cases node with
  | selector n =>
      have loop := Mirrors.wrap .selector (selector_onTime ·) (selectorLoop_mirrors (poised.goesOn trivial))
      rw [selector_onTime]
      simp only [tickBody, tickSelector, ticks, SelectorNode.onTime, List.length_map] at loop ⊢
      exact loop
  | sequence n =>
      have loop := Mirrors.wrap .sequence (sequence_onTime ·) (sequenceLoop_mirrors (poised.goesOn trivial))
      rw [sequence_onTime]
      simp only [tickBody, tickSequence, ticks, SequenceNode.onTime, List.length_map] at loop ⊢
      exact loop
  | parallel n =>
      have none := poised.parallel
      obtain ⟨promptless, -⟩ := serial
      rw [parallel_onTime]
      refine Mirrors.wrap .parallel (parallel_onTime ·) ?_
      unfold tickParallel parallelWith
      by_cases empty : n.children.length = 0
      · simp only [ParallelNode.onTime, List.length_map, empty, if_true]
        exact .stop none rfl rfl
      · simp only [ParallelNode.onTime, List.length_map, empty, if_false]
        exact parallelLoop_mirrors none promptless
  | inverter n => exact inverter_mirrors poised
  | repeater n =>
      refine Mirrors.wrap .repeater (f := RepeaterNode.onTime) (fun _ => rfl) ?_
      simp only [tickRepeater]
      by_cases off : n.maxAttempts = 0
      · rw [if_pos off, if_pos off]
        refine .stop ?_ rfl rfl
        rcases poised.repeater with none | ⟨spare, -⟩
        · exact none
        · rw [off] at spare
          exact absurd spare (UInt32.not_lt.mpr UInt32.zero_le)
      · rw [if_neg off, if_neg off]
        refine repeaterLoop_mirrors (poised.repeater.imp id fun waiting => ⟨?_, rfl, rfl, waiting.2⟩)
        have spare := UInt32.lt_iff_toNat_lt.mp waiting.1
        omega
  | cooldown n =>
      exact cooldown_mirrors rfl poised undisturbed.inTime fun closed =>
        undisturbed.open_ (.cooldown rfl closed) _ List.mem_cons_self
  | reflectionGuard n =>
      exact reflectionGuard_mirrors poised fun reached =>
        undisturbed.open_ (.reflectionGuard rfl reached) _ List.mem_cons_self
  | forceHuman n => exact forceHuman_mirrors poised
  | when n =>
      exact when_mirrors poised fun fails => undisturbed.open_ (.when rfl fails) _ List.mem_cons_self
  | condition | action | setVar => exact immediate_mirrors trivial poised
  | prompt n =>
      simp only [Node.onTime, tickBody, tickPrompt]
      by_cases pending : n.pending = true
      · rw [if_pos pending, if_pos pending]
        exact awaitReply_mirrors rfl pending undisturbed.inTime
      · rw [if_neg pending, if_neg pending]
        exact sendPrompt_mirrors
  | subTree n =>
      rw [Node.onTime_subTree]
      exact subTree_mirrors poised

/-- A tick does the same as on time, or it stalls. -/
theorem solve_mirrors (q : Request (Late σ) κ) (ticks : q.ask.Ticks) (serial : q.node.Serial)
    (poised : Poised q.node q.world) (undisturbed : ∀ v ∈ interpreter.trail q, Undisturbed v) :
    (interpreter.solve ⟨.tick, q.node.onTime, q.world.onTime⟩ =
        (interpreter.solve q).onTime Node.onTime ∧ (interpreter.solve q).Settled) ∨
      Stalls q.node q.world (interpreter.solve q) := by
  refine interpreter.induct (motive := fun q : Request (Late σ) κ => q.ask.Ticks → q.node.Serial →
    Poised q.node q.world → (∀ v ∈ interpreter.trail q, Undisturbed v) →
    (interpreter.solve ⟨.tick, q.node.onTime, q.world.onTime⟩ =
        (interpreter.solve q).onTime Node.onTime ∧ (interpreter.solve q).Settled) ∨
      Stalls q.node q.world (interpreter.solve q))
    (fun q ih ticks serial poised undisturbed => ?_) q ticks serial poised undisturbed
  have mirrors := tickBody_mirrors serial poised (undisturbed q (interpreter.mem_trail_self q))
  rw [← requestBody_ticks ticks] at mirrors
  have on_time : requestBody ⟨.tick, q.node.onTime, q.world.onTime⟩ =
      tickBody q.node.onTime q.world.onTime := rfl
  rw [interpreter_solve, interpreter_solve q, on_time]
  refine Body.Follows.run mirrors fun q' called q'' asked => ?_
  obtain ⟨ask, rfl, poised'⟩ := asked
  refine ⟨interpreter_reset q', promptless_ends q', ?_⟩
  have outcome := ih q' called (ask ▸ trivial) (all_of_call Node.asksInTurn_of_reset serial called) poised'
    fun v below => undisturbed v (Procedure.mem_trail_of_call called below)
  rw [Request.onTime, ask]
  exact outcome

end AgileAgent.DecisionDsl
