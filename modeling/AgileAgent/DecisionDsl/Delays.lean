import Mathlib.Computability.StateTransition
import AgileAgent.DecisionDsl.Late

/-! # Decisions with late replies

A decision is the ticks of a tree until one does not return `Running`. Every tick of a
run with late replies is one of the run on time, or changes nothing but the number of
polls that are left, so that both come to the same.
-/

namespace AgileAgent.DecisionDsl

open CallTree StateTransition

/-- The variables of the root scope. -/
def Blackboard.rootScope (bb : Blackboard) : Scope :=
  bb.scopes.scopes.getLast (List.ne_nil_of_length_pos bb.scopes.nonempty)

/-- What a decision comes to: the result of its last tick, the commands that its ticks
    returned and the root scope it leaves. -/
structure Decision where
  result : Except Fault NodeStatus
  commands : List DecisionCommand
  rootScope : Scope

/-- Where a decision stands: its ticks so far have returned the commands, or it has ended. -/
inductive Stage (σ κ : Type) where
  | underway (commands : List DecisionCommand) (s : Instance σ κ)
  | ended (d : Decision)

namespace Turn

variable {σ κ : Type}

def status (t : Turn σ κ) : Except Fault NodeStatus := t.ticked.result.map (·.status)

/-- The commands that the tick returned. -/
def commands (t : Turn σ κ) : List DecisionCommand :=
  match t.ticked.result with
  | .ok r => r.commands
  | .error _ => []

end Turn

section

variable {σ κ : Type} [Crates] [Session σ] [Clock κ]

namespace Stage

/-- The next tick. -/
def next : Stage σ κ → Option (Stage σ κ)
  | .underway commands s =>
      let t := s.tick
      if t.status = .ok .running then some (.underway (commands ++ t.commands) t.after)
      else some (.ended ⟨t.status, commands ++ t.commands, t.after.ctx.blackboard.rootScope⟩)
  | .ended _ => none

/-- The stage after some ticks. -/
def run : Nat → Stage σ κ → Stage σ κ
  | 0, stage => stage
  | ticks + 1, stage =>
      match stage.next with
      | some later => later.run ticks
      | none => stage

def decision : Stage σ κ → Option Decision
  | .underway .. => none
  | .ended d => some d

theorem run_reaches (ticks : Nat) : ∀ stage : Stage σ κ, Reaches next stage (stage.run ticks) := by
  induction ticks with
  | zero => exact fun stage => .refl
  | succ ticks ih =>
      intro stage
      cases onward : stage.next with
      | none =>
          rw [run, onward]
          exact .refl
      | some later =>
          rw [run, onward]
          exact .head onward (ih later)

theorem next_running {commands : List DecisionCommand} {s : Instance σ κ}
    (running : s.tick.status = .ok .running) :
    next (.underway commands s) = some (.underway (commands ++ s.tick.commands) s.tick.after) :=
  if_pos running

theorem next_ended {commands : List DecisionCommand} {s : Instance σ κ}
    (ended : s.tick.status ≠ .ok .running) : next (.underway commands s) =
      some (.ended ⟨s.tick.status, commands ++ s.tick.commands, s.tick.after.ctx.blackboard.rootScope⟩) :=
  if_neg ended

/-- Nothing disturbs the ticks from here on. -/
def Undisturbed (stage : Stage σ κ) : Prop :=
  ∀ commands s, Reaches next stage (.underway commands s) →
    ∀ v ∈ interpreter.trail s.request, DecisionDsl.Undisturbed v

/-- No prompt times out in the ticks from here on. -/
def InTime (stage : Stage σ κ) : Prop :=
  ∀ commands s, Reaches next stage (.underway commands s) → ∀ v ∈ interpreter.trail s.request,
    ∀ n, v.node = .prompt n → n.pending = true → (promptTimedOut n v.world).1 = false

theorem Undisturbed.later {stage later : Stage σ κ} (undisturbed : stage.Undisturbed)
    (onward : stage.next = some later) : later.Undisturbed :=
  fun commands s reaches => undisturbed commands s (.head onward reaches)

end Stage

namespace Instance

/-- The decision that starts here. -/
def deciding (s : Instance σ κ) : Stage σ κ := .underway [] s

/-- The instance comes to this decision. -/
def Decides (s : Instance σ κ) (d : Decision) : Prop := .ended d ∈ eval Stage.next s.deciding

theorem decides_of_run {s : Instance σ κ} {d : Decision} (ticks : Nat)
    (ended : (s.deciding.run ticks).decision = some d) : s.Decides d := by
  have reaches := Stage.run_reaches ticks s.deciding
  generalize s.deciding.run ticks = stage at ended reaches
  cases stage with
  | underway => cases ended
  | ended d' =>
      cases ended
      exact mem_eval.mpr ⟨reaches, rfl⟩

theorem status_eq (s : Instance σ κ) : s.tick.status = s.answer.result := by
  cases result : s.answer.result with
  | error e => rw [Turn.status, tick_error result]; rfl
  | ok status => rw [Turn.status, tick_ok result]; rfl

/-- A decision ticks trees of one configuration. -/
theorem reaches_root {commands : List DecisionCommand} {s s' : Instance σ κ}
    (reaches : Reaches Stage.next s.deciding (.underway commands s')) :
    s'.root.reset = s.root.reset := by
  generalize same : Stage.underway commands s' = stage at reaches
  induction reaches generalizing commands s' with
  | refl =>
      cases same
      rfl
  | @tail earlier stage _ onward ih =>
      subst same
      cases earlier with
      | ended => cases onward
      | underway earlier t =>
          by_cases running : t.tick.status = .ok .running
          · rw [Option.mem_def, Stage.next_running running] at onward
            cases onward
            have ticked : t.tick.after.root = t.answer.node := t.tick_root
            have same : t.answer.node.reset = t.root.reset := interpreter_reset t.request
            rw [ticked, same]
            exact ih rfl
          · rw [Option.mem_def, Stage.next_ended running] at onward
            cases onward

/-- What the configuration of the tree decides holds of all nodes that a decision visits. -/
theorem decision_all {rest : Node → Prop}
    (stable : ∀ {m n : Node}, m.reset = n.reset → rest n → rest m) {s s' : Instance σ κ}
    {commands : List DecisionCommand} (all : s.root.All rest)
    (reaches : Reaches Stage.next s.deciding (.underway commands s'))
    {v : Request σ κ} (visited : v ∈ interpreter.trail s'.request) : rest v.node := by
  have start : s'.request.node.All rest := all.of_reset stable (reaches_root reaches)
  obtain ⟨here, -⟩ := all_of_trail stable start visited
  exact here

end Instance

end

section

variable {σ κ : Type}

namespace Instance

/-- The run on time. -/
def onTime (s : Instance (Late σ) κ) : Instance σ Frozen :=
  ⟨s.executor, s.root.onTime, ⟨s.ctx.blackboard, s.ctx.session.inner, .clock⟩⟩

variable [Crates] [Session σ] [Clock κ]

/-- What holds of a run with late replies between the ticks of a decision. -/
structure Composed (s : Instance (Late σ) κ) : Prop where
  ready : s.Ready
  serial : s.root.Serial
  waits : s.ctx.session.left = 0 ∨
    (s.root.Suspended ∧ s.ctx.blackboard.commands = [] ∧ s.executor = ⟨[], true⟩)

open Plain

theorem answer_mirrors {s : Instance (Late σ) κ} (composed : s.Composed)
    (undisturbed : ∀ v ∈ interpreter.trail s.request, DecisionDsl.Undisturbed v) :
    (s.onTime.answer = s.answer.onTime Node.onTime ∧ s.answer.Settled) ∨
      Stalls s.root s.request.world s.answer := by
  have ticks := composed.ready.ticks
  have on_time : s.onTime.answer = interpreter.solve ⟨.tick, s.request.node.onTime, s.request.world.onTime⟩ := by
    have ticks' : s.onTime.request.ask.Ticks := ticks
    rw [answer, interpreter_solve, interpreter_solve, requestBody_ticks ticks']
    rfl
  rw [on_time]
  exact solve_mirrors s.request ticks composed.serial (composed.waits.imp id And.left) undisturbed

/-- A tick that is answered as on time returns the same and leaves the same. -/
theorem tick_onTime {s : Instance (Late σ) κ} (same : s.onTime.answer = s.answer.onTime Node.onTime) :
    s.onTime.tick.ticked.result = s.tick.ticked.result ∧ s.onTime.tick.after = s.tick.after.onTime := by
  cases result : s.answer.result with
  | error e =>
      have result' : s.onTime.answer.result = .error e := by rw [same]; exact result
      rw [Turn.after, Turn.after, tick_error result, tick_error result', same]
      exact ⟨rfl, rfl⟩
  | ok status =>
      have result' : s.onTime.answer.result = .ok status := by rw [same]; exact result
      rw [Turn.after, Turn.after, tick_ok result, tick_ok result', same]
      exact ⟨rfl, rfl⟩

theorem Composed.after {s : Instance (Late σ) κ} (composed : s.Composed)
    (running : s.answer.result = .ok .running) :
    s.tick.after.Composed ∧ s.tick.after.executor = ⟨[], true⟩ := by
  have ready := composed.ready.after_keeps fun v visited => serial_not_swallows composed.serial visited
  have suspended := running_suspends s.request composed.ready.ticks composed.serial running
  have ticked := tick_ok running
  have root : s.tick.after.root = s.answer.node := s.tick_root
  have executor : s.tick.after.executor = ⟨[], true⟩ := by
    have stored : s.tick.after.executor = ⟨s.answer.world.tracer.runningPath, true⟩ := by
      rw [Turn.after, ticked]
      rfl
    have empty := ready
    rw [Ready, stored] at empty
    exact stored.trans (congrArg (Executor.mk · true) (empty rfl))
  have drained : s.tick.after.ctx.blackboard.commands = [] := by rw [Turn.after, ticked]
  refine ⟨⟨ready, ?_, .inr ⟨?_, drained, executor⟩⟩, executor⟩
  · rw [root]
    exact composed.serial.of_reset Node.asksInTurn_of_reset (interpreter_reset s.request)
  · rw [root]
    exact suspended

/-- A tick that stalls leaves the run where it was. -/
theorem tick_stalls {s : Instance (Late σ) κ} (composed : s.Composed)
    (stalls : Stalls s.root s.request.world s.answer) :
    s.tick.commands = [] ∧ s.tick.after.onTime = s.onTime ∧
      s.tick.after.ctx.session.left < s.ctx.session.left := by
  have late : 0 < s.ctx.session.left := stalls.late
  obtain ⟨-, drained, executor⟩ := composed.waits.resolve_left (Nat.ne_of_gt late)
  obtain ⟨-, executor'⟩ := composed.after stalls.result
  have blackboard : s.answer.world.blackboard = s.ctx.blackboard := stalls.blackboard
  have session : s.answer.world.session = { s.ctx.session with left := s.ctx.session.left - 1 } :=
    stalls.session
  have ticked := tick_ok stalls.result
  have commands : s.tick.commands = s.answer.world.blackboard.commands := by
    rw [Turn.commands, ticked]
  have left : s.tick.after.ctx.session.left = s.ctx.session.left - 1 := by
    rw [Turn.after, ticked]
    exact congrArg Late.left session
  refine ⟨by rw [commands, blackboard, drained], ?_, by omega⟩
  have same : s.tick.after.onTime = ⟨s.tick.after.executor, s.answer.node.onTime,
      ⟨{ s.answer.world.blackboard with commands := [] }, s.answer.world.session.inner, .clock⟩⟩ := by
    rw [Turn.after, ticked]
    rfl
  rw [same, executor', stalls.node, blackboard, session, ← executor, ← drained]
  rfl

/-- One tick of a decision: it stalls, or the run on time does the same. -/
theorem tick_mirrors {s : Instance (Late σ) κ} (composed : s.Composed)
    (undisturbed : ∀ v ∈ interpreter.trail s.request, DecisionDsl.Undisturbed v) :
    (s.onTime.tick.status = s.tick.status ∧ s.onTime.tick.commands = s.tick.commands ∧
      s.onTime.tick.after = s.tick.after.onTime) ∨
    (s.tick.status = .ok .running ∧ s.tick.commands = [] ∧ s.tick.after.onTime = s.onTime ∧
      s.tick.after.ctx.session.left < s.ctx.session.left) := by
  rcases answer_mirrors composed undisturbed with ⟨same, -⟩ | stalls
  · obtain ⟨result, after⟩ := tick_onTime same
    refine .inl ⟨?_, ?_, after⟩
    · rw [Turn.status, Turn.status, result]
    · rw [Turn.commands, Turn.commands, result]
  · exact .inr ⟨s.status_eq.trans stalls.result, tick_stalls composed stalls⟩

end Instance

variable [Crates] [Session σ] [Clock κ]

open Plain

/-- A stage of the decision on time and one of the decision with late replies. -/
inductive StandsFor : Stage σ Frozen → Stage (Late σ) κ → Prop where
  | underway {commands : List DecisionCommand} {s : Instance (Late σ) κ} (composed : s.Composed)
      (undisturbed : (Stage.underway commands s).Undisturbed) :
      StandsFor (.underway commands s.onTime) (.underway commands s)
  | ended {d : Decision} : StandsFor (.ended d) (.ended d)

/-- No reply is late for ever: the tick on time is one with late replies, after those that
    stall. -/
theorem underway_advances {commands : List DecisionCommand} {s : Instance (Late σ) κ}
    (composed : s.Composed) (undisturbed : (Stage.underway commands s).Undisturbed) :
    ∃ onTime late, Stage.next (.underway commands s.onTime) = some onTime ∧ StandsFor onTime late ∧
      Reaches₁ Stage.next (.underway commands s) late := by
  -- every tick that stalls uses up a poll
  induction left : s.ctx.session.left using Nat.strongRecOn generalizing s with
  | ind left again =>
      have goOn (running : s.tick.status = .ok .running) :=
        And.intro (composed.after (s.status_eq.symm.trans running)).1
          (undisturbed.later (Stage.next_running running))
      rcases Instance.tick_mirrors composed (undisturbed commands s .refl) with
        ⟨status, same, after⟩ | ⟨running, none, after, less⟩
      · by_cases running : s.tick.status = .ok .running
        · obtain ⟨composed', undisturbed'⟩ := goOn running
          refine ⟨_, _, Stage.next_running (status.trans running), ?_, .single (Stage.next_running running)⟩
          rw [same, after]
          exact .underway composed' undisturbed'
        · refine ⟨_, _, Stage.next_ended (status ▸ running), ?_, .single (Stage.next_ended running)⟩
          rw [status, same, after]
          exact .ended
      · obtain ⟨composed', undisturbed'⟩ := goOn running
        have stalls := @Stage.next_running _ _ _ _ _ commands _ running
        rw [none, List.append_nil] at undisturbed' stalls
        obtain ⟨onTime, late, onward, standsFor, reaches⟩ :=
          again _ (left ▸ less) composed' undisturbed' rfl
        rw [after] at onward
        exact ⟨onTime, late, onward, standsFor, .head stalls reaches⟩

theorem standsFor_respects : Respects Stage.next Stage.next (@StandsFor σ κ _ _ _) := by
  intro onTime late standsFor
  cases standsFor with
  | underway composed undisturbed =>
      obtain ⟨onTime, late, onward, standsFor, reaches⟩ := underway_advances composed undisturbed
      rw [onward]
      exact ⟨late, standsFor, reaches⟩
  | ended => rfl

/-- A run with late replies comes to what the run on time comes to. -/
theorem decides_iff_onTime {s : Instance (Late σ) κ} (composed : s.Composed)
    (undisturbed : s.deciding.Undisturbed) {d : Decision} : s.Decides d ↔ s.onTime.Decides d := by
  constructor
  · intro decides
    obtain ⟨stage, standsFor, decided⟩ :=
      tr_eval_rev standsFor_respects (.underway composed undisturbed) decides
    cases standsFor
    exact decided
  · intro decides
    obtain ⟨stage, standsFor, decided⟩ :=
      tr_eval standsFor_respects (.underway composed undisturbed) decides
    cases standsFor
    exact decided

end

/-- A new executor on a tree whose replies are late. -/
def Instance.launchLate {σ κ : Type} (root : Node) (blackboard : Blackboard) (inner : σ) (clock : κ)
    (extra : Nat → Nat) : Instance (Late σ) κ := launch root ⟨blackboard, { inner, extra }, clock⟩

section

open Plain

def askYes : Node := .prompt
  { name := "ask", model := none, template := "Ready?", parser := .enum ["yes"] true, sets := []
    timeoutMs := 30000 }

def wakeUpNow : Node := .action { name := "wake", command := .agent .wakeUp, when := none }

/-- A command beside a question. -/
def wakeUpBeside : Node := .parallel
  { name := "both", policy := .allSuccess, children := [wakeUpNow, askYes] }

/-- A command after a question, in a subtree that sets a flag before it and reads it after. -/
def flaggedSubTree : Node := .subTree ⟨"tree", "tree", some (.sequence
  { name := "steps"
    children := [.setVar ⟨"set", "flag", .boolean true⟩, askYes,
      .condition ⟨"check", .variableIs "flag" (.boolean true)⟩] })⟩

/-- The second attempt finds the question of the first one, which the inner gate turned
    away from, and the outer gate closes behind it. -/
def gatedTwice : Node := .repeater
  { name := "twice", maxAttempts := 2
    child := .when
      { name := "outer", condition := .reflectionRoundUnder 2
        action := .sequence
          { name := "steps"
            children := [.reflectionGuard ⟨"count", 9, .setVar ⟨"set", "flag", .boolean true⟩⟩,
              .when ⟨"inner", .variableIs "flag" (.boolean true), .sequence
                { name := "question"
                  children := [.setVar ⟨"clear", "flag", .boolean false⟩, askYes] }⟩] } } }

/-- A command with a cooldown after a question, twice. -/
def wakeUpTwice : Node := .repeater
  { name := "twice", maxAttempts := 2
    child := .sequence
      { name := "steps", children := [askYes, .cooldown ⟨"rest", 1, wakeUpNow, none⟩] } }

/-- A clock that goes on by 0.3 ms with every reading, for half a minute. -/
structure Stopwatch where
  elapsed : Nat := 0

instance : Clock Stopwatch where
  now c := (min c.elapsed (fromMillis 30000), ⟨c.elapsed + 300000⟩)

theorem Frozen.inTime {σ : Type} [Session σ] (stage : Stage σ Frozen) : stage.InTime := by
  intro commands s _ v _ n _ _
  cases sent : n.sentAt <;> simp [promptTimedOut, sent, durationSince, World.now, Clock.now]

/-- A prompt that the stopwatch does not time out. -/
def Node.Patient (n : Node) : Prop := ∀ m, n = .prompt m → 30000 ≤ m.timeoutMs

theorem Node.patient_of_reset {m n : Node} (same : m.reset = n.reset) (patient : n.Patient) :
    m.Patient := by
  rintro m rfl
  obtain ⟨n, rfl⟩ := prompt_of_reset same.symm
  simp only [reset, Node.prompt.injEq, PromptNode.mk.injEq] at same
  have limit : m.timeoutMs = n.timeoutMs := same.2.2.2.2.2.1
  rw [limit]
  exact patient n rfl

theorem Stopwatch.inTime {σ : Type} [Session σ] {s : Instance σ Stopwatch}
    (patient : s.root.All Node.Patient) : s.deciding.InTime := by
  intro commands s' reaches v visited n node _
  have enough := Instance.decision_all Node.patient_of_reset patient reaches visited n node
  cases sent : n.sentAt with
  | none => simp [promptTimedOut, sent]
  | some sentAt =>
      have reading : min v.world.clock.elapsed (fromMillis 30000) ≤ fromMillis n.timeoutMs :=
        Nat.le_trans (Nat.min_le_right _ _) (Nat.mul_le_mul_right _ enough)
      simp only [promptTimedOut, sent, durationSince, World.now, Clock.now]
      simp
      omega

/-- Two delays make no difference to the decision of the tree, as long as no prompt times
    out. -/
def DelaysImmaterial {κ : Type} [Clock κ] (clock : κ) (root : Node) : Prop :=
  ∀ extra extra' : Nat → Nat, (Instance.launchLate root {} Eager.session clock extra).deciding.InTime →
    (Instance.launchLate root {} Eager.session clock extra').deciding.InTime →
    ∀ d, (Instance.launchLate root {} Eager.session clock extra).Decides d ↔
      (Instance.launchLate root {} Eager.session clock extra').Decides d

/-- They do if one extra poll shows in the decision. -/
theorem not_immaterial {κ α : Type} [Clock κ] {clock : κ} {root : Node} (ticks : Nat)
    (result : Decision → α) (r r' : α)
    (inTime : ∀ extra, (Instance.launchLate root {} Eager.session clock extra).deciding.InTime)
    (none : ((Instance.launchLate root {} Eager.session clock fun _ => 0).deciding.run ticks).decision.map
      result = some r)
    (one : ((Instance.launchLate root {} Eager.session clock fun _ => 1).deciding.run ticks).decision.map
      result = some r')
    (differ : r ≠ r') : ¬ DelaysImmaterial clock root := by
  intro immaterial
  obtain ⟨d, decided, rfl⟩ := Option.map_eq_some_iff.mp none
  obtain ⟨d', decided', rfl⟩ := Option.map_eq_some_iff.mp one
  have decides := (immaterial _ (fun _ => 1) (inTime _) (inTime _) d).mp (Instance.decides_of_run ticks decided)
  have same := Part.mem_unique decides (Instance.decides_of_run ticks decided')
  exact differ (congrArg result (Stage.ended.inj same))

theorem wakeUpTwice_patient : wakeUpTwice.All Node.Patient := by
  refine .mk nofun fun steps member => ?_
  rw [List.mem_singleton.mp member]
  refine .mk nofun fun child member => ?_
  rcases List.mem_cons.mp member with rfl | member
  · refine .mk ?_ nofun
    intro m same
    obtain rfl := Node.prompt.inj same
    exact Nat.le_refl _
  · rw [List.mem_singleton.mp member]
    refine .mk nofun fun wake member => ?_
    rw [List.mem_singleton.mp member]
    exact .mk nofun nofun

set_option maxRecDepth 20000 in
/-- Delays show where a parallel node has a command beside a question, where a gate closes
    over a question, and where a cooldown runs out; and a subtree forgets its variables when
    it suspends. -/
theorem delays_matter : ¬ DelaysImmaterial Frozen.clock wakeUpBeside ∧
    ¬ DelaysImmaterial Frozen.clock gatedTwice ∧ ¬ DelaysImmaterial (⟨0⟩ : Stopwatch) wakeUpTwice ∧
    ∃ d, (Instance.launchLate flaggedSubTree {} Eager.session Frozen.clock fun _ => 0).Decides d ∧
      d.result = .error (.error (.missingVariable "flag")) := by
  refine ⟨?_, ?_, ?_, ⟨_, Instance.decides_of_run 2 rfl, rfl⟩⟩
  · exact not_immaterial 3 (·.commands.length) 2 3 (fun _ => Frozen.inTime _) rfl rfl (by decide)
  · exact not_immaterial 3 (·.result) (.ok .success) (.ok .failure) (fun _ => Frozen.inTime _) rfl rfl
      (by decide)
  · exact not_immaterial 5 (·.result) (.ok .failure) (.ok .success)
      (fun _ => Stopwatch.inTime wakeUpTwice_patient) rfl rfl (by decide)

end

section

variable {σ κ κ' : Type} [Crates] [Session σ] [Clock κ] [Clock κ']

omit [Crates] [Session σ] [Clock κ] [Clock κ'] in
theorem Instance.launchLate_composed {root : Node} (serial : root.Serial) (blackboard : Blackboard)
    (inner : σ) (clock : κ) (extra : Nat → Nat) :
    (launchLate root blackboard inner clock extra).Composed :=
  ⟨nofun, serial, .inl rfl⟩

/-- The node has no condition to be called. -/
def Node.Ungated : Node → Prop
  | .when _ | .reflectionGuard _ | .cooldown _ => False
  | _ => True

omit [Crates] in
theorem Node.ungated_of_reset {m n : Node} (same : m.reset = n.reset) (ungated : n.Ungated) :
    m.Ungated := by
  have reset (n : Node) : n.reset.Ungated ↔ n.Ungated := by
    cases n with
    | subTree n => rw [reset_subTree]; rfl
    | _ => rfl
  rw [← reset, same, reset]
  exact ungated

/-- Nothing but a timeout disturbs a tree without gates. -/
theorem Instance.undisturbed_of_ungated {s : Instance σ κ} (ungated : s.root.All Node.Ungated)
    (inTime : s.deciding.InTime) : s.deciding.Undisturbed := by
  intro commands s' reaches v visited
  have here := decision_all Node.ungated_of_reset ungated reaches visited
  constructor
  · rintro (⟨node, pending, timedOut⟩ | ⟨node⟩)
    · rw [inTime commands s' reaches v visited _ node pending] at timedOut
      cases timedOut
    · rw [node] at here
      exact absurd here id
  · rintro (⟨node⟩ | ⟨node⟩ | ⟨node⟩) <;>
      · rw [node] at here
        exact absurd here id

/-- In whatever polls the replies become ready, and whatever the clock shows, undisturbed
    runs of a tree that asks in turn come to the same decision. -/
theorem decision_independent_of_delays {root : Node} (serial : root.Serial) (blackboard : Blackboard)
    (inner : σ) {clock : κ} {clock' : κ'} {extra extra' : Nat → Nat}
    (undisturbed : (Instance.launchLate root blackboard inner clock extra).deciding.Undisturbed)
    (undisturbed' : (Instance.launchLate root blackboard inner clock' extra').deciding.Undisturbed)
    (d : Decision) :
    (Instance.launchLate root blackboard inner clock extra).Decides d ↔
      (Instance.launchLate root blackboard inner clock' extra').Decides d := by
  have composed := Instance.launchLate_composed serial blackboard inner clock extra
  have composed' := Instance.launchLate_composed serial blackboard inner clock' extra'
  rw [decides_iff_onTime composed undisturbed, decides_iff_onTime composed' undisturbed']
  rfl

end

section

open Plain

/-- A command after a question. -/
def wakeUpAfter : Node := .sequence { name := "steps", children := [askYes, wakeUpNow] }

theorem wakeUpAfter_ungated : wakeUpAfter.All fun n => n.AsksInTurn ∧ n.Ungated := by
  refine .mk ⟨trivial, trivial⟩ fun child member => ?_
  rcases List.mem_cons.mp member with rfl | member
  · exact .mk ⟨trivial, trivial⟩ nofun
  · rw [List.mem_singleton.mp member]
    exact .mk ⟨trivial, trivial⟩ nofun

set_option maxRecDepth 20000 in
/-- One extra poll leaves the command where it was. -/
theorem wakeUpAfter_decides :
    (Instance.launchLate wakeUpAfter {} Eager.session Frozen.clock fun _ => 1).Decides
      ⟨.ok .success, [.agent .wakeUp], ∅⟩ := by
  have serial : wakeUpAfter.Serial := wakeUpAfter_ungated.mono fun _ => And.left
  have ungated : wakeUpAfter.All Node.Ungated := wakeUpAfter_ungated.mono fun _ => And.right
  have undisturbed (extra : Nat → Nat) :
      (Instance.launchLate wakeUpAfter {} Eager.session Frozen.clock extra).deciding.Undisturbed :=
    Instance.undisturbed_of_ungated ungated (Frozen.inTime _)
  apply (decision_independent_of_delays serial {} Eager.session (undisturbed fun _ => 0)
    (undisturbed fun _ => 1) _).mp
  exact Instance.decides_of_run 2 rfl

end

end AgileAgent.DecisionDsl
