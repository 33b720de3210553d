import AgileAgent.DecisionDsl.Idle
import AgileAgent.DecisionDsl.Steps

/-! # The reflection round

All reflection guards of a tree count in one number of eight bits. A guard compares it
with its limit before it ticks its child and adds one when the child succeeds, so that
guards below it, which count in between, can take it past the limit.
-/

namespace AgileAgent.DecisionDsl

open CallTree

def Node.isReflectionGuard : Node → Bool
  | .reflectionGuard _ => true
  | _ => false

theorem Node.exists_reflectionGuard {n : Node} (guarded : n.isReflectionGuard = true) :
    ∃ g, n = .reflectionGuard g := by
  cases n with
  | reflectionGuard g => exact ⟨g, rfl⟩
  | _ => cases guarded

/-- Every reflection guard of the tree has at most `limit` rounds. -/
abbrev Node.Limited (limit : Nat) : Node → Prop :=
  Node.All fun n => ∀ g, n = .reflectionGuard g → g.maxRounds.toNat ≤ limit

/-- Resetting a tree keeps the bounds of its guards. -/
theorem Node.reflectionGuard_of_reset {m n : Node} (same : m.reset = n.reset) :
    (∀ g, m = .reflectionGuard g → ∃ h, n = .reflectionGuard h ∧ h.maxRounds = g.maxRounds) ∧
      m.isReflectionGuard = n.isReflectionGuard := by
  cases m with
  | reflectionGuard g =>
      cases n with
      | reflectionGuard h =>
          simp only [reset, reflectionGuard.injEq, ReflectionGuardNode.mk.injEq] at same
          exact ⟨fun g' here => ⟨h, rfl, by cases here; exact same.2.1.symm⟩, rfl⟩
      | subTree n => rw [reset_subTree] at same; cases same
      | _ => cases same
  | subTree m =>
      cases n with
      | reflectionGuard h => rw [reset_subTree] at same; cases same
      | _ => exact ⟨nofun, rfl⟩
  | _ =>
      cases n with
      | reflectionGuard h => cases same
      | _ => exact ⟨nofun, rfl⟩

theorem Node.limited_of_reset {limit : Nat} {m n : Node} (same : m.reset = n.reset)
    (limited : ∀ g, n = .reflectionGuard g → g.maxRounds.toNat ≤ limit) :
    ∀ g, m = .reflectionGuard g → g.maxRounds.toNat ≤ limit := by
  intro g here
  obtain ⟨h, node, rounds⟩ := (reflectionGuard_of_reset same).1 g here
  rw [← rounds]
  exact limited h node

theorem Node.Limited.of_reset {limit : Nat} {m n : Node} (limited : n.Limited limit)
    (same : m.reset = n.reset) : m.Limited limit :=
  Node.All.of_reset limited_of_reset limited same

theorem Node.unguarded_of_reset {m n : Node} (same : m.reset = n.reset)
    (free : n.isReflectionGuard = false) : m.isReflectionGuard = false := by
  rw [(reflectionGuard_of_reset same).2]
  exact free

variable {σ κ : Type}

def World.round (w : World σ κ) : Nat := w.blackboard.reflectionRound.toNat

section

variable [Crates] [Session σ] [Clock κ]

/-- A reflection guard that added one. -/
def Counts (q : Request σ κ) : Bool :=
  q.node.isReflectionGuard && (interpreter.solve q).result = .ok .success

/-- How often guards counted while a request was answered. -/
def counted (q : Request σ κ) : Nat := (interpreter.trail q).countP Counts

/-- The addition of a guard does not fit into eight bits. -/
def Overflows (q : Request σ κ) : Prop :=
  q.node.isReflectionGuard = true ∧ (interpreter.solve q).result = .error .panic ∧
    ∃ q' ∈ interpreter.calls q, (interpreter.solve q').result = .ok .success

/-- The child of a guard succeeds after guards below it have counted up to the limit. -/
def Overtakes (limit : Nat) (q : Request σ κ) : Prop :=
  q.node.isReflectionGuard = true ∧ ∃ q' ∈ interpreter.calls q,
    (interpreter.solve q').result = .ok .success ∧ counted q' ≠ 0 ∧
      limit ≤ q.world.round + counted q'

/-- The three ways of a reflection guard: it is shut, it passes a result on, or it counts,
    if there is room. -/
theorem reflectionGuard_cases {q : Request σ κ} {n : ReflectionGuardNode Node}
    (node : q.node = .reflectionGuard n) :
    (n.maxRounds.toNat ≤ q.world.round ∧ interpreter.calls q = [] ∧
      (interpreter.solve q).result ≠ .ok .success ∧ (interpreter.solve q).world = q.world) ∨
    ∃ q', q.world.round < n.maxRounds.toNat ∧ interpreter.calls q = [q'] ∧ q'.world = q.world ∧
      (((interpreter.solve q').result ≠ .ok .success ∧
          (interpreter.solve q).result = (interpreter.solve q').result ∧
          (interpreter.solve q).world = (interpreter.solve q').world) ∨
        ((interpreter.solve q').result = .ok .success ∧
          (interpreter.solve q').world.round + 1 = UInt8.size ∧
          (interpreter.solve q).result = .error .panic ∧
          (interpreter.solve q).world = (interpreter.solve q').world) ∨
        ((interpreter.solve q').result = .ok .success ∧
          (interpreter.solve q).result = .ok .success ∧
          (interpreter.solve q).world.round = (interpreter.solve q').world.round + 1)) := by
  obtain ⟨ask, body⟩ := requestBody_reflectionGuard node
  have answer := interpreter_solve q
  have calls := interpreter_calls q
  rw [body] at answer calls
  simp only [Body.run_map, Body.calls_map, reflectionGuardWith] at answer calls
  split at answer
  · next shut =>
      rw [if_pos shut] at calls
      refine .inl ⟨shut, calls, ?_, ?_⟩
      · rw [answer]
        intro same
        cases same
      · rw [answer]
        rfl
  · next open_ =>
      rw [if_neg open_] at calls
      simp only [Body.run_call, Body.calls_call] at answer calls
      have called : interpreter.calls q = [⟨ask, n.child, q.world⟩] := by
        rw [calls]
        split
        · split <;> rfl
        · rfl
      refine .inr ⟨_, Nat.lt_of_not_le open_, called, rfl, ?_⟩
      split at answer
      · next success =>
          split at answer
          · next full => exact .inr (.inl ⟨success, full, by rw [answer]; rfl, by rw [answer]; rfl⟩)
          · next room =>
              refine .inr (.inr ⟨success, ?_, ?_⟩)
              · rw [answer]
                exact success
              · rw [answer]
                have fits : (interpreter.solve ⟨ask, n.child, q.world⟩).world.round + 1 < UInt8.size :=
                  Nat.lt_of_le_of_ne (UInt8.toNat_lt_size _) room
                simp only [Run.map, Body.run_ret, World.round, World.withBlackboard] at fits ⊢
                rw [UInt8.toNat_add, UInt8.toNat_one]
                exact Nat.mod_eq_of_lt fits
      · next other => exact .inl ⟨other, by rw [answer]; rfl, by rw [answer]; rfl⟩

omit [Crates] [Session σ] [Clock κ] in
/-- No step of a routine but a guard's moves the round. -/
theorem round_absorbs : Absorbs fun v w : World σ κ => w.round = v.round where
  refl _ := rfl
  trans first second := second.trans first
  trace _ _ := rfl
  clock _ _ := rfl
  session _ _ := rfl
  command _ _ := rfl
  assign _ _ _ := rfl
  response _ _ _ := rfl

theorem requestBody_round {q : Request σ κ} (other : q.node.isReflectionGuard = false) :
    Threaded (fun v w => w.round = v.round) q.world (requestBody q) := by
  rcases requestBody_absorbed round_absorbs q with ⟨n, node⟩ | ⟨n, node⟩ | threaded
  · obtain ⟨ask, body⟩ := requestBody_subTree node
    rw [body]
    exact (subTreeWith_threaded (fun _ _ _ => rfl) ask n q.world).map
  · rw [node] at other
    cases other
  · exact threaded

/-- Guards move a round on one by one. -/
theorem solve_round (q : Request σ κ) :
    (interpreter.solve q).world.round = q.world.round + counted q := by
  refine interpreter.induct (motive := fun q => (interpreter.solve q).world.round =
    q.world.round + counted q) (fun q ih => ?_) q
  cases guarded : q.node.isReflectionGuard with
  | true =>
      obtain ⟨n, node⟩ := Node.exists_reflectionGuard guarded
      rw [counted, interpreter.trail_eq, List.countP_cons]
      rcases reflectionGuard_cases node with ⟨-, calls, failed, world⟩ | ⟨q', -, calls, entered, turns⟩
      · have quiet : Counts q = false := by simp [Counts, failed]
        simp [calls, quiet, world]
      · have below := ih q' (by rw [calls]; exact List.mem_cons_self)
        have single : ((interpreter.calls q).flatMap interpreter.trail).countP Counts = counted q' := by
          rw [calls, List.flatMap_cons, List.flatMap_nil, List.append_nil, counted]
        rw [entered] at below
        rw [single]
        rcases turns with ⟨other, same, world⟩ | ⟨-, -, panicked, world⟩ | ⟨-, success, next⟩
        · have quiet : Counts q = false := by simp [Counts, same, other]
          simp [quiet, world, below]
        · have quiet : Counts q = false := by simp [Counts, panicked]
          simp [quiet, world, below]
        · have loud : Counts q = true := by simp [Counts, guarded, success]
          simp [loud, next, below, Nat.add_assoc]
  | false =>
      have quiet : Counts q = false := by simp [Counts, guarded]
      have moved := (requestBody_round guarded).run
        (fun v _ w l => w.round = v.round + l.countP Counts) interpreter.solve interpreter.trail
        (fun _ _ _ same => same) (fun _ _ _ _ _ same called => by rw [called, same])
        (fun _ _ _ _ _ _ _ _ same called rest => by
          rw [rest, called, same, List.countP_append, Nat.add_assoc]) ih
      rw [counted, interpreter_trail, List.countP_cons, quiet, interpreter_solve]
      exact moved

/-- The round never goes back. -/
theorem round_le_of_visited {q v : Request σ κ} (visited : v ∈ interpreter.trail q) :
    (interpreter.solve v).world.round ≤ (interpreter.solve q).world.round := by
  refine interpreter.induct (motive := fun q => ∀ v ∈ interpreter.trail q,
    (interpreter.solve v).world.round ≤ (interpreter.solve q).world.round) (fun q ih => ?_) q v visited
  have calls : ∀ q' ∈ interpreter.calls q,
      (interpreter.solve q').world.round ≤ (interpreter.solve q).world.round := by
    cases guarded : q.node.isReflectionGuard with
    | true =>
        obtain ⟨n, node⟩ := Node.exists_reflectionGuard guarded
        intro q' called
        rcases reflectionGuard_cases node with ⟨-, none, -, -⟩ | ⟨q'', -, single, -, turns⟩
        · rw [none] at called
          cases called
        · rw [single] at called
          obtain rfl := List.mem_singleton.mp called
          rcases turns with ⟨-, -, world⟩ | ⟨-, -, -, world⟩ | ⟨-, -, next⟩
          · rw [world]
          · rw [world]
          · rw [next]
            exact Nat.le_succ _
    | false =>
        have moved := (requestBody_round guarded).run
          (fun v _ w l => v.round ≤ w.round ∧ ∀ u ∈ l, (interpreter.solve u).world.round ≤ w.round)
          interpreter.solve (fun q' => [q'])
          (fun _ _ _ same => ⟨Nat.le_of_eq same.symm, nofun⟩)
          (fun _ _ _ _ _ same called => ⟨same ▸ called.1, called.2⟩)
          (fun v u _ v' _ w l l' same called rest => by
            refine ⟨Nat.le_trans (same ▸ called.1) rest.1, fun x member => ?_⟩
            rcases List.mem_append.mp member with early | late
            · exact Nat.le_trans (called.2 x early) rest.1
            · exact rest.2 x late)
          (fun q' _ => ⟨by rw [solve_round]; exact Nat.le_add_right _ _, fun u member => by
            rw [List.mem_singleton.mp member]⟩)
        intro q' called
        rw [interpreter_solve q]
        exact moved.2 q' (List.mem_flatMap.mpr ⟨q', called, List.mem_singleton.mpr rfl⟩)
  intro v visited
  rcases Procedure.mem_trail_cases visited with rfl | ⟨q', called, below⟩
  · exact Nat.le_refl _
  · exact Nat.le_trans (ih q' called v below) (calls q' called)

/-- Without a guard that overtakes the limit the round stays at or below it. -/
theorem round_limited {limit : Nat} (small : limit < UInt8.size) (q : Request σ κ)
    (limited : q.node.Limited limit) (start : q.world.round ≤ limit)
    (keeps : ∀ v ∈ interpreter.trail q, ¬ Overtakes limit v) :
    (interpreter.solve q).world.round ≤ limit ∧ ∀ v ∈ interpreter.trail q, ¬ Overflows v := by
  refine interpreter.induct (motive := fun q => q.node.Limited limit → q.world.round ≤ limit →
    (∀ v ∈ interpreter.trail q, ¬ Overtakes limit v) →
    (interpreter.solve q).world.round ≤ limit ∧ ∀ v ∈ interpreter.trail q, ¬ Overflows v)
    (fun q ih limited start keeps => ?_) q limited start keeps
  have calls : ∀ q' ∈ interpreter.calls q, q'.world.round ≤ limit →
      (interpreter.solve q').world.round ≤ limit ∧ ∀ v ∈ interpreter.trail q', ¬ Overflows v := by
    intro q' called start'
    exact ih q' called (all_of_call Node.limited_of_reset limited called) start' fun v visited =>
      keeps v (Procedure.mem_trail_of_call called visited)
  have here : ¬ Overtakes limit q := keeps q (interpreter.mem_trail_self q)
  rw [interpreter.trail_eq]
  cases guarded : q.node.isReflectionGuard with
  | true =>
      obtain ⟨n, node⟩ := Node.exists_reflectionGuard guarded
      have rounds : n.maxRounds.toNat ≤ limit := by
        cases limited with
        | mk own _ => exact own n node
      rcases reflectionGuard_cases node with ⟨-, none, failed, world⟩ | ⟨q', room, single, entered, turns⟩
      · rw [none, world]
        refine ⟨start, fun v member => ?_⟩
        rw [List.mem_singleton.mp member]
        rintro ⟨-, -, q', called, -⟩
        rw [none] at called
        cases called
      · have called : q' ∈ interpreter.calls q := by
          rw [single]
          exact List.mem_cons_self
        obtain ⟨left, quiet⟩ := calls q' called (entered ▸ start)
        have later : ∀ v ∈ (interpreter.calls q).flatMap interpreter.trail, ¬ Overflows v := by
          rw [single, List.flatMap_cons, List.flatMap_nil, List.append_nil]
          exact quiet
        -- below the limit the child leaves room for one more
        have below (success : (interpreter.solve q').result = .ok .success) :
            (interpreter.solve q').world.round < limit := by
          have round := solve_round q'
          rw [entered] at round
          by_cases none : counted q' = 0
          · rw [round, none]
            omega
          · by_contra exceeds
            exact here ⟨guarded, q', called, success, none, by omega⟩
        rcases turns with ⟨other, -, world⟩ | ⟨success, full, -, -⟩ | ⟨success, result, next⟩
        · rw [world]
          refine ⟨left, List.forall_mem_cons.mpr ⟨?_, later⟩⟩
          rintro ⟨-, -, q'', called', success⟩
          rw [single] at called'
          rw [List.mem_singleton.mp called'] at success
          exact other success
        · have := below success
          omega
        · refine ⟨by rw [next]; exact below success, List.forall_mem_cons.mpr ⟨?_, later⟩⟩
          rintro ⟨-, panicked, -⟩
          rw [result] at panicked
          cases panicked
  | false =>
      have moved := (requestBody_round guarded).run
        (fun v _ w l => v.round ≤ limit → w.round ≤ limit ∧ ∀ u ∈ l, ¬ Overflows u)
        interpreter.solve interpreter.trail
        (fun _ _ _ same start => ⟨same ▸ start, nofun⟩)
        (fun _ _ _ _ _ same called start => called (same ▸ start))
        (fun _ _ _ _ _ _ _ _ same called rest start => by
          obtain ⟨left, early⟩ := called (same ▸ start)
          obtain ⟨left', late⟩ := rest left
          exact ⟨left', List.forall_mem_append.mpr ⟨early, late⟩⟩) calls
      obtain ⟨left, quiet⟩ := moved start
      rw [interpreter_solve q]
      refine ⟨left, List.forall_mem_cons.mpr ⟨?_, quiet⟩⟩
      rintro ⟨isGuard, -⟩
      rw [guarded] at isGuard
      cases isGuard

/-- A guard that overtakes the limit takes the round past it, or overflows. -/
theorem round_exceeds {limit : Nat} {q v : Request σ κ} (visited : v ∈ interpreter.trail q)
    (overtakes : Overtakes limit v) (fits : ¬ Overflows v) :
    limit < (interpreter.solve q).world.round := by
  obtain ⟨guarded, q', called, success, -, reached⟩ := overtakes
  obtain ⟨n, node⟩ := Node.exists_reflectionGuard guarded
  have round := solve_round q'
  rcases reflectionGuard_cases node with ⟨-, none, -, -⟩ | ⟨q'', -, single, entered, turns⟩
  · rw [none] at called
    cases called
  · have only := called
    rw [single] at only
    obtain rfl := List.mem_singleton.mp only
    rw [entered] at round
    rcases turns with ⟨other, -, -⟩ | ⟨-, -, panicked, -⟩ | ⟨-, -, next⟩
    · exact absurd success other
    · exact absurd ⟨guarded, panicked, q', called, success⟩ fits
    · have := round_le_of_visited visited
      omega

/-- Without guards in a tree nothing counts. -/
theorem counted_eq_zero {q : Request σ κ}
    (free : q.node.All fun n => n.isReflectionGuard = false) : counted q = 0 := by
  rw [counted, List.countP_eq_zero]
  intro v visited counts
  obtain ⟨here, -⟩ := all_of_trail Node.unguarded_of_reset free visited
  simp [Counts, here] at counts

/-- A guard that has no guards below it never overtakes. -/
theorem not_overtakes {limit : Nat} {q : Request σ κ}
    (apart : ∀ child ∈ q.node.children, child.All fun n => n.isReflectionGuard = false) :
    ¬ Overtakes limit q := by
  rintro ⟨-, q', called, -, counts, -⟩
  obtain ⟨i, child, at_i, same, -⟩ := interpreter_callOf called
  apply counts
  apply counted_eq_zero
  exact (apart child (List.mem_of_getElem? at_i)).of_reset Node.unguarded_of_reset same

theorem Instance.tick_round (s : Instance σ κ) :
    s.tick.after.ctx.blackboard.reflectionRound = s.answer.world.blackboard.reflectionRound := by
  cases result : s.answer.result with
  | error e => rw [Turn.after, tick_error result]
  | ok status => rw [Turn.after, tick_ok result]

/-- The host leaves a round within the limit there. -/
def HostStep.Limits (limit : Nat) (step : HostStep σ κ) : Prop :=
  ∀ ctx, ctx.blackboard.reflectionRound.toNat ≤ limit →
    (step ctx).blackboard.reflectionRound.toNat ≤ limit

/-- In a run over guards of at most `limit` rounds, the round stays at or below the limit
    and no addition overflows, exactly when no guard counts after guards below it have
    counted up to the limit. -/
theorem round_limited_iff {limit : Nat} (small : limit < UInt8.size) {s : Instance σ κ}
    (limited : s.root.Limited limit) (start : s.ctx.blackboard.reflectionRound.toNat ≤ limit)
    {steps : List (HostStep σ κ)} (host : ∀ step ∈ steps, HostStep.Limits limit step) :
    (∀ t ∈ s.run steps, t.after.ctx.blackboard.reflectionRound.toNat ≤ limit ∧
      ∀ v ∈ interpreter.trail t.start.request, ¬ Overflows v) ↔
    ∀ t ∈ s.run steps, ∀ v ∈ interpreter.trail t.start.request, ¬ Overtakes limit v := by
  have left (s : Instance σ κ) :
      s.tick.after.ctx.blackboard.reflectionRound.toNat = (interpreter.solve s.request).world.round :=
    congrArg UInt8.toNat s.tick_round
  constructor
  · intro bounded t member v visited overtakes
    obtain ⟨within, quiet⟩ := bounded t member
    rw [(Instance.run_turn member).2, left] at within
    exact Nat.not_lt_of_le within (round_exceeds visited overtakes (quiet v visited))
  · intro keeps
    have kept := @Instance.run_induct σ κ _ _ _
      (fun s => s.root.Limited limit ∧ s.ctx.blackboard.reflectionRound.toNat ≤ limit)
      (HostStep.Limits limit)
      (fun t => ∀ v ∈ interpreter.trail t.start.request, ¬ Overtakes limit v)
      (fun s step within ⟨limited, start⟩ => ⟨limited, within s.ctx start⟩)
      (fun s keeps ⟨limited, start⟩ => by
        constructor
        · have root : s.tick.after.root = s.answer.node := s.tick_root
          rw [root]
          exact limited.of_reset (interpreter_reset s.request)
        · rw [left]
          exact (round_limited small s.request limited start keeps).1)
      s ⟨limited, start⟩ steps host keeps
    intro t member
    obtain ⟨⟨limited, start⟩, ticked⟩ := kept t member
    obtain ⟨within, quiet⟩ := round_limited small t.start.request limited start (keeps t member)
    refine ⟨?_, quiet⟩
    rw [ticked, left]
    exact within

end

section

open Plain

def wakeOnce : Node := .reflectionGuard
  { name := "once", maxRounds := 1
    child := .action { name := "wake", command := .agent .wakeUp, when := none } }

/-- A guard around the guard. -/
def wakeOnceMore : Node := .reflectionGuard { name := "outer", maxRounds := 1, child := wakeOnce }

/-- Both guards pass at round 0 and both count. -/
theorem wakeOnceMore_twice : ¬ ∀ (limit : Nat) (s : Instance Silent Frozen)
    (steps : List (HostStep Silent Frozen)), limit < UInt8.size → s.root.Limited limit →
    s.ctx.blackboard.reflectionRound.toNat ≤ limit →
    (∀ step ∈ steps, HostStep.Limits limit step) →
    ∀ t ∈ s.run steps, t.after.ctx.blackboard.reflectionRound.toNat ≤ limit ∧
      ∀ v ∈ interpreter.trail t.start.request, ¬ Overflows v := by
  intro all
  have limited : wakeOnceMore.Limited 1 := by
    apply Node.All.mk (fun g same => by cases same; exact Nat.le_refl 1)
    intro child member
    obtain rfl := List.mem_singleton.mp member
    apply Node.All.mk (fun g same => by cases same; exact Nat.le_refl 1)
    intro child member
    obtain rfl := List.mem_singleton.mp member
    exact .mk nofun nofun
  have within := all 1 (Instance.launch wakeOnceMore Plain.ctx) [id] (by decide) limited (by decide)
    (fun step member ctx within => by rw [List.mem_singleton.mp member]; exact within) _
    List.mem_cons_self
  exact absurd within.1 (by decide)

/-- One guard counts to its limit. -/
theorem wakeOnce_limited :
    let s : Instance Silent Frozen := Instance.launch wakeOnce Plain.ctx
    (∀ t ∈ s.run [id, id], t.after.ctx.blackboard.reflectionRound.toNat ≤ 1 ∧
      ∀ v ∈ interpreter.trail t.start.request, ¬ Overflows v) ↔
    ∀ t ∈ s.run [id, id], ∀ v ∈ interpreter.trail t.start.request, ¬ Overtakes 1 v := by
  refine round_limited_iff (by decide) ?_ (by decide) fun step member ctx within => ?_
  · apply Node.All.mk (fun g same => by cases same; exact Nat.le_refl 1)
    intro child member
    obtain rfl := List.mem_singleton.mp member
    exact .mk nofun nofun
  · have same : step = id := by simpa using member
    rw [same]
    exact within

end

end AgileAgent.DecisionDsl
