import AgileAgent.DecisionDsl.Executor

/-! # Runs

A host owns an executor, its tree and the context of its ticks. In a run it
changes the context and ticks, again and again; the changes are arbitrary
functions, so a result about all runs covers every session, clock and host.
-/

namespace AgileAgent.DecisionDsl

structure Instance (σ κ : Type) where
  executor : Executor
  root : Node
  ctx : TickContext σ κ

/-- What the host does to the context before a tick. -/
abbrev HostStep (σ κ : Type) := TickContext σ κ → TickContext σ κ

/-- One tick of a run: the instance it started from and what it returned. -/
structure Turn (σ κ : Type) where
  start : Instance σ κ
  ticked : Ticked σ κ

namespace Turn

variable {σ κ : Type}

def after (t : Turn σ κ) : Instance σ κ := ⟨t.ticked.executor, t.ticked.root, t.ticked.ctx⟩

/-- The tick returned `Ok` with this status. -/
def Returned (t : Turn σ κ) (status : NodeStatus) : Prop :=
  ∃ r, t.ticked.result = .ok r ∧ r.status = status

end Turn

namespace Instance

variable {σ κ : Type}

/-- A new executor on a tree. -/
def launch (root : Node) (ctx : TickContext σ κ) : Instance σ κ := ⟨{}, root, ctx⟩

def host (s : Instance σ κ) (step : HostStep σ κ) : Instance σ κ := { s with ctx := step s.ctx }

def request (s : Instance σ κ) : Request σ κ := s.executor.request s.root s.ctx

variable [Crates] [Session σ] [Clock κ]

/-- The call the executor makes, answered. -/
def answer (s : Instance σ κ) : Answer σ κ := interpreter.solve s.request

def tick (s : Instance σ κ) : Turn σ κ := ⟨s, s.executor.tick s.root s.ctx⟩

/-- The ticks of a run, one after each step of the host. -/
def run : Instance σ κ → List (HostStep σ κ) → List (Turn σ κ)
  | _, [] => []
  | s, step :: rest => (s.host step).tick :: (s.host step).tick.after.run rest

theorem tick_error {s : Instance σ κ} {e : Fault} (failed : s.answer.result = .error e) :
    s.tick.ticked = ⟨.error e, s.executor, s.answer.node, s.answer.world.toTickContext⟩ := by
  simp only [tick, Executor.tick, Executor.finish]
  rw [show interpreter.solve (s.executor.request s.root s.ctx) = s.answer from rfl, failed]

theorem tick_ok {s : Instance σ κ} {status : NodeStatus} (done : s.answer.result = .ok status) :
    s.tick.ticked = ⟨.ok ⟨status, s.answer.world.blackboard.commands, s.answer.world.tracer.entries⟩,
      Executor.next status s.answer.world.tracer, s.answer.node,
      { s.answer.world.toTickContext with
        blackboard := { s.answer.world.blackboard with commands := [] } }⟩ := by
  simp only [tick, Executor.tick, Executor.finish]
  rw [show interpreter.solve (s.executor.request s.root s.ctx) = s.answer from rfl, done]
  rfl

theorem answer_of_returned {s : Instance σ κ} {status : NodeStatus}
    (returned : s.tick.Returned status) : s.answer.result = .ok status := by
  obtain ⟨r, done, same⟩ := returned
  cases result : s.answer.result with
  | error e =>
      rw [tick_error result] at done
      cases done
  | ok status' =>
      rw [tick_ok result] at done
      cases done
      exact congrArg Except.ok same

/-- What every good tick and every allowed host step keeps holds in every turn of a run
    of such steps. -/
theorem run_induct {invariant : Instance σ κ → Prop} {allowed : HostStep σ κ → Prop}
    {good : Turn σ κ → Prop} (hosted : ∀ s step, allowed step → invariant s → invariant (s.host step))
    (ticked : ∀ s, good s.tick → invariant s → invariant s.tick.after)
    {s : Instance σ κ} (starts : invariant s) {steps : List (HostStep σ κ)}
    (host : ∀ step ∈ steps, allowed step) (turns : ∀ t ∈ s.run steps, good t) :
    ∀ t ∈ s.run steps, invariant t.start ∧ t = t.start.tick := by
  induction steps generalizing s with
  | nil => intro t member; cases member
  | cons step rest ih =>
      intro t member
      have now := hosted s step (host step List.mem_cons_self) starts
      rcases List.mem_cons.mp member with rfl | later
      · exact ⟨now, rfl⟩
      · exact ih (ticked _ (turns _ List.mem_cons_self) now)
          (fun step inside => host step (List.mem_cons_of_mem _ inside))
          (fun t inside => turns t (List.mem_cons_of_mem _ inside)) t later

end Instance

/-- Requests to one node, each to the node as the one before left it. -/
def Node.serve {σ κ : Type} [Crates] [Session σ] [Clock κ] :
    Node → List (Ask × World σ κ) → List (Request σ κ)
  | _, [] => []
  | n, (ask, w) :: rest => ⟨ask, n, w⟩ :: (interpreter.solve ⟨ask, n, w⟩).node.serve rest

section

variable {σ κ : Type} [Crates] [Session σ] [Clock κ]

theorem Instance.tick_root (s : Instance σ κ) : s.tick.ticked.root = s.answer.node := by
  cases result : s.answer.result with
  | error e => rw [tick_error result]
  | ok status => rw [tick_ok result]

/-- Every turn of a run is a tick of a tree with the configuration of the first. -/
theorem Instance.run_turn {s : Instance σ κ} {steps : List (HostStep σ κ)} {t : Turn σ κ}
    (member : t ∈ s.run steps) : t.start.root.reset = s.root.reset ∧ t = t.start.tick :=
  @run_induct σ κ _ _ _ (fun s' => s'.root.reset = s.root.reset) (fun _ => True) (fun _ => True)
    (fun _ _ _ => id)
    (fun s' _ same => (congrArg Node.reset s'.tick_root).trans ((interpreter_reset s'.request).trans same))
    s rfl steps (fun _ _ => trivial) (fun _ _ => trivial) t member

theorem Instance.tick_error_iff {s : Instance σ κ} {e : Fault} :
    s.tick.ticked.result = .error e ↔ s.answer.result = .error e := by
  cases result : s.answer.result with
  | error e' => simp [tick_error result]
  | ok status => simp [tick_ok result]

end

/-! ## A plain host

A session that never answers, a clock that stands still and an engine that knows
no markup: enough to run trees without prompts on concrete contexts.
-/

/-- A session that never answers. -/
inductive Silent where
  | session

/-- A clock that stands still. -/
inductive Frozen where
  | clock

namespace Plain

scoped instance crates : Crates where
  templateSyntaxError _ := none
  renderTemplate text _ := .ok text
  regexIsMatch pattern _ := .error pattern
  regexCaptures pattern _ := .error pattern
  jsonFromStr text := .error text
  toLowercase text := text
  isAlphabetic := Char.isAlpha
  isAlphanumeric := Char.isAlphanum
  parseFloat text := .error text
  showFloat _ := ""
  debugValue _ := ""

scoped instance session : Session Silent where
  send s _ := (.ok (), s)
  sendWithHint s _ _ := (.ok (), s)
  isReady s := (false, s)
  receive s := (.error ⟨.unavailable, "not ready"⟩, s)

scoped instance clock : Clock Frozen where
  now c := (0, c)

def ctx : TickContext Silent Frozen := ⟨{}, .session, .clock⟩

end Plain

/-- A session that is always ready to say yes. -/
inductive Eager where
  | session

instance : Session Eager where
  send s _ := (.ok (), s)
  sendWithHint s _ _ := (.ok (), s)
  isReady s := (true, s)
  receive s := (.ok "yes", s)

end AgileAgent.DecisionDsl
