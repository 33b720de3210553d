import AgileAgent.Machine
import AgileAgent.DecisionDsl.Alike
import AgileAgent.DecisionDsl.Document
import AgileAgent.DecisionDsl.Reflection

/-! # The decision agent slot

A slot owns a tree with its executor, session and blackboard. `clear` is to begin a new workflow, but
of the tree's run state, the variables, the reflection round and the responses it clears nothing. If
none of these is left the slot goes on as a new one would.
-/

namespace AgileAgent.Daemon

open DecisionDsl Machine

structure DecisionSlotConfig where
  providerKind : String := "claude"
  cwd : String := "."
  maxReflectionRounds : UInt8 := 2
  totalSprints : UInt8 := 1
  sprintGoals : List SprintGoal := []

structure DecisionAgentSlot (σ κ : Type) where
  tree : Tree
  executor : Executor
  session : σ
  blackboard : Blackboard
  clock : κ
  config : DecisionSlotConfig
  workAgentId : String

namespace DecisionAgentSlot

variable {σ κ : Type}

/-! ## Building -/

/-- The session is the one of the provider. The configuration of the sprints is not used. -/
def new (tree : Tree) (config : DecisionSlotConfig) (session : σ) (clock : κ) : DecisionAgentSlot σ κ :=
  { tree := tree
    executor := {}
    session := session
    blackboard := {}
    clock := clock
    config := config
    workAgentId := "" }

/-- `with_mock_session` and, with another session, `with_replies`. -/
def withMockSession (tree : Tree) (config : DecisionSlotConfig) (session : σ) (clock : κ) :
    DecisionAgentSlot σ κ :=
  { tree := tree
    executor := {}
    session := session
    blackboard :=
      { maxReflectionRounds := config.maxReflectionRounds
        totalSprints := config.totalSprints
        sprintGoals := config.sprintGoals }
    clock := clock
    config := config
    workAgentId := "" }

/-- The two ways in which a slot is built. -/
inductive Building where
  | new
  | withMockSession

def build : Building → Tree → DecisionSlotConfig → σ → κ → DecisionAgentSlot σ κ
  | .new => new
  | .withMockSession => withMockSession

/-! ## Operations -/

def setWorkAgentId (s : DecisionAgentSlot σ κ) (agentId : String) : DecisionAgentSlot σ κ :=
  { s with workAgentId := agentId, blackboard := { s.blackboard with workAgentId := agentId } }

def setTaskDescription (s : DecisionAgentSlot σ κ) (description : String) : DecisionAgentSlot σ κ :=
  { s with blackboard := { s.blackboard with taskDescription := description } }

def setAgentId (s : DecisionAgentSlot σ κ) (agentId : String) : DecisionAgentSlot σ κ :=
  { s with blackboard := { s.blackboard with agentId } }

def syncWorkAgentOutput (s : DecisionAgentSlot σ κ) (output : String) : DecisionAgentSlot σ κ :=
  { s with blackboard := { s.blackboard with providerOutput := output } }

def syncFileChanges (s : DecisionAgentSlot σ κ) (changes : List (String × String)) :
    DecisionAgentSlot σ κ :=
  { s with
    blackboard := { s.blackboard with fileChanges := changes.map fun change => ⟨change.1, change.2⟩ } }

def drainCommands (s : DecisionAgentSlot σ κ) : List DecisionCommand × DecisionAgentSlot σ κ :=
  let (commands, blackboard) := s.blackboard.drainCommands
  (commands, { s with blackboard })

def reset (s : DecisionAgentSlot σ κ) : DecisionAgentSlot σ κ := { s with executor := s.executor.reset }

/-- What `clear` does to the blackboard. -/
def clearBlackboard (bb : Blackboard) : Blackboard :=
  { bb with reflectionChain := [], decisionChain := [], currentSprint := 1, commands := [] }

/-- Clear all decision state for a new workflow. -/
def clear (s : DecisionAgentSlot σ κ) : DecisionAgentSlot σ κ :=
  { s with executor := s.executor.reset, blackboard := clearBlackboard s.blackboard }

def isSessionReady [Session σ] (s : DecisionAgentSlot σ κ) : Bool × DecisionAgentSlot σ κ :=
  let (ready, session) := Session.isReady s.session
  (ready, { s with session })

variable [Crates] [Session σ] [Clock κ]

def tick (s : DecisionAgentSlot σ κ) : Except Fault TickResult × DecisionAgentSlot σ κ :=
  let ticked := s.executor.tick s.tree.spec.root ⟨s.blackboard, s.session, s.clock⟩
  (ticked.result,
    { s with
      tree := { s.tree with spec := ⟨ticked.root⟩ }
      executor := ticked.executor
      session := ticked.ctx.session
      blackboard := ticked.ctx.blackboard
      clock := ticked.ctx.clock })

end DecisionAgentSlot

/-- What is done with a slot. -/
inductive SlotOperation where
  | setWorkAgentId (agentId : String)
  | setTaskDescription (description : String)
  | setAgentId (agentId : String)
  | syncWorkAgentOutput (output : String)
  | syncFileChanges (changes : List (String × String))
  | isSessionReady
  | pendingCommands
  | tick
  | drainCommands
  | reset
  | clear

inductive SlotOutput where
  | done
  | ready (isReady : Bool)
  | commands (commands : List DecisionCommand)
  | ticked (result : Except Fault TickResult)
  deriving DecidableEq

/-- The statuses and the commands. -/
def SlotOutput.untraced : SlotOutput → SlotOutput
  | .ticked result => .ticked (result.map ({ · with trace := [] }))
  | other => other

namespace SlotOperation

/-- It tells the slot something of the work agent. -/
def isInput : SlotOperation → Bool
  | .setWorkAgentId _ | .setTaskDescription _ | .setAgentId _ | .syncWorkAgentOutput _
  | .syncFileChanges _ => true
  | .isSessionReady | .pendingCommands | .tick | .drainCommands | .reset | .clear => false

variable {σ κ : Type} [Crates] [Session σ] [Clock κ]

def step (s : DecisionAgentSlot σ κ) : SlotOperation → SlotOutput × DecisionAgentSlot σ κ
  | .setWorkAgentId agentId => (.done, s.setWorkAgentId agentId)
  | .setTaskDescription description => (.done, s.setTaskDescription description)
  | .setAgentId agentId => (.done, s.setAgentId agentId)
  | .syncWorkAgentOutput output => (.done, s.syncWorkAgentOutput output)
  | .syncFileChanges changes => (.done, s.syncFileChanges changes)
  | .isSessionReady => (.ready s.isSessionReady.1, s.isSessionReady.2)
  | .pendingCommands => (.commands s.blackboard.commands, s)
  | .tick => (.ticked s.tick.1, s.tick.2)
  | .drainCommands => (.commands s.drainCommands.1, s.drainCommands.2)
  | .reset => (.done, s.reset)
  | .clear => (.done, s.clear)

end SlotOperation

namespace DecisionAgentSlot

variable {σ κ : Type} [Crates] [Session σ] [Clock κ]

/-- The slot after some operations. -/
def after (s : DecisionAgentSlot σ κ) (operations : List SlotOperation) : DecisionAgentSlot σ κ :=
  final SlotOperation.step s operations

/-- The statuses and the commands that operations return. -/
def decided (s : DecisionAgentSlot σ κ) (operations : List SlotOperation) : List SlotOutput :=
  (history SlotOperation.step s operations).map fun x => x.output.untraced

omit [Crates] [Session σ] [Clock κ] in
/-- Of what `clear` does not clear nothing is left: neither run state in the tree that decides anything
    nor variables, rounds or responses. -/
structure Rested (s : DecisionAgentSlot σ κ) (tree : Tree) : Prop where
  tree : tree.spec.root.Alike s.tree.spec.root
  scopes : s.blackboard.scopes = .root
  round : s.blackboard.reflectionRound = 0
  responses : s.blackboard.llmResponses = ∅

/-! ## What the slot was told -/

/-- The blackboard without what ticks write to it. -/
def inputs (bb : Blackboard) : Blackboard :=
  { bb with scopes := .root, commands := [], reflectionRound := 0, llmResponses := ∅ }

omit [Crates] [Session σ] [Clock κ] in
theorem inputs_steps {v w : World σ κ} (steps : WorldSteps v w) :
    inputs w.blackboard = inputs v.blackboard := by
  induction steps with
  | refl => rfl
  | tail _ last ih =>
      rw [← ih]
      cases last <;> rfl

/-- A tick writes to nothing else. -/
theorem inputs_solve (q : Request σ κ) :
    inputs (interpreter.solve q).world.blackboard = inputs q.world.blackboard :=
  Threaded.solve (fun v w => inputs w.blackboard = inputs v.blackboard)
    (fun _ _ _ first second => second.trans first)
    (requestBody_threaded_of (fun _ _ => inputs_steps) fun _ _ _ => rfl) q

theorem inputs_tick (s : DecisionAgentSlot σ κ) : inputs s.tick.2.blackboard = inputs s.blackboard := by
  have solved := inputs_solve (s.executor.request s.tree.spec.root ⟨s.blackboard, s.session, s.clock⟩)
  simp only [tick, Executor.tick, Executor.finish]
  split
  · exact solved
  · exact solved

omit [Crates] [Session σ] [Clock κ] in
/-- `new` was told what `s` was told, and has done nothing yet. -/
structure NewAs (tree : Tree) (session : σ) (clock : κ) (s new : DecisionAgentSlot σ κ) : Prop where
  tree : new.tree = tree
  executor : new.executor = {}
  session : new.session = session
  clock : new.clock = clock
  told : new.blackboard = inputs s.blackboard
  cleared : clearBlackboard new.blackboard = new.blackboard

namespace NewAs

variable {tree : Tree} {session : σ} {clock : κ} {s new : DecisionAgentSlot σ κ}

omit [Crates] [Session σ] [Clock κ] in
theorem start (building : Building) (config : DecisionSlotConfig) (session₀ : σ) (clock₀ : κ) :
    NewAs tree session clock (build building tree config session₀ clock₀)
      (build building tree config session clock) := by
  cases building <;> exact ⟨rfl, rfl, rfl, rfl, rfl, rfl⟩

omit [Crates] [Session σ] [Clock κ] in
theorem tells (same : NewAs tree session clock s new) (change : Blackboard → Blackboard)
    (told : ∀ bb, change (inputs bb) = inputs (change bb))
    (apart : ∀ bb, change (clearBlackboard bb) = clearBlackboard (change bb))
    (workAgentId workAgentId' : String) :
    NewAs tree session clock { s with workAgentId, blackboard := change s.blackboard }
      { new with workAgentId := workAgentId', blackboard := change new.blackboard } := by
  obtain ⟨tree, executor, session, clock, blackboard, cleared⟩ := same
  refine ⟨tree, executor, session, clock, ?_, ?_⟩
  · exact (congrArg change blackboard).trans (told s.blackboard)
  · exact (apart new.blackboard).symm.trans (congrArg change cleared)

theorem input (same : NewAs tree session clock s new) {operation : SlotOperation}
    (told : operation.isInput = true) :
    NewAs tree session clock (operation.step s).2 (operation.step new).2 := by
  cases operation with
  | setWorkAgentId agentId =>
      exact same.tells ({ · with workAgentId := agentId }) (fun _ => rfl) (fun _ => rfl) agentId agentId
  | setTaskDescription description =>
      exact same.tells ({ · with taskDescription := description }) (fun _ => rfl) (fun _ => rfl) _ _
  | setAgentId agentId => exact same.tells ({ · with agentId }) (fun _ => rfl) (fun _ => rfl) _ _
  | syncWorkAgentOutput output =>
      exact same.tells ({ · with providerOutput := output }) (fun _ => rfl) (fun _ => rfl) _ _
  | syncFileChanges changes =>
      exact same.tells
        ({ · with fileChanges := changes.map fun change => ⟨change.1, change.2⟩ }) (fun _ => rfl)
        (fun _ => rfl) _ _
  | isSessionReady | pendingCommands | tick | drainCommands | reset | clear => cases told

/-- What is no input tells nothing. -/
theorem other (same : NewAs tree session clock s new) {operation : SlotOperation}
    (tells : operation.isInput = false) : NewAs tree session clock (operation.step s).2 new := by
  refine { same with told := same.told.trans ?_ }
  cases operation with
  | isSessionReady | pendingCommands | drainCommands | reset => rfl
  | tick => exact s.inputs_tick.symm
  | clear =>
      have cleared := same.cleared
      rw [same.told] at cleared
      exact cleared.symm
  | setWorkAgentId | setTaskDescription | setAgentId | syncWorkAgentOutput | syncFileChanges => cases tells

theorem run (same : NewAs tree session clock s new) (operations : List SlotOperation) :
    NewAs tree session clock (s.after operations)
      (new.after (operations.filter SlotOperation.isInput)) := by
  induction operations generalizing s new with
  | nil => exact same
  | cons operation rest ih =>
      cases told : operation.isInput with
      | true =>
          rw [List.filter_cons_of_pos told]
          exact ih (same.input told)
      | false =>
          rw [List.filter_cons_of_neg (by rw [told]; exact Bool.false_ne_true)]
          exact ih (same.other told)

end NewAs

/-! ## Two slots -/

omit [Crates] [Session σ] [Clock κ] in
/-- The slots agree in all but trees that behave alike. -/
structure Alike (s s' : DecisionAgentSlot σ κ) : Prop where
  root : s.tree.spec.root.Alike s'.tree.spec.root
  executor : s'.executor = s.executor
  session : s'.session = s.session
  blackboard : s'.blackboard = s.blackboard
  clock : s'.clock = s.clock

omit [Crates] [Session σ] [Clock κ] in
theorem untraced_of_decided {r r' : Except Fault TickResult}
    (decided : r'.map (fun r => (r.status, r.commands)) = r.map fun r => (r.status, r.commands)) :
    (SlotOutput.ticked r').untraced = (SlotOutput.ticked r).untraced := by
  have rebuilt (r : Except Fault TickResult) : (SlotOutput.ticked r).untraced =
      .ticked ((r.map fun r => (r.status, r.commands)).map fun decided => ⟨decided.1, decided.2, []⟩) := by
    cases r <;> rfl
  rw [rebuilt, rebuilt, decided]

/-- One operation on both. -/
theorem Alike.step {s s' : DecisionAgentSlot σ κ} (alike : s.Alike s') (operation : SlotOperation) :
    (operation.step s').1.untraced = (operation.step s).1.untraced ∧
      (operation.step s).2.Alike (operation.step s').2 := by
  obtain ⟨tree', executor', session', blackboard', clock', config', workAgentId'⟩ := s'
  obtain ⟨root, executor, session, blackboard, clock⟩ := alike
  dsimp only at root executor session blackboard clock
  subst executor session blackboard clock
  cases operation with
  | tick =>
      obtain ⟨decided, executor, root', ctx⟩ :=
        s.executor.tick_alike root ⟨s.blackboard, s.session, s.clock⟩
      refine ⟨?_, root', executor, ?_, ?_, ?_⟩
      · exact untraced_of_decided decided
      · exact congrArg TickContext.session ctx
      · exact congrArg TickContext.blackboard ctx
      · exact congrArg TickContext.clock ctx
  | _ => exact ⟨rfl, root, rfl, rfl, rfl, rfl⟩

/-- What the slots return, whatever is done with them. -/
theorem Alike.decided {s s' : DecisionAgentSlot σ κ} (alike : s.Alike s')
    (operations : List SlotOperation) : s'.decided operations = s.decided operations := by
  induction operations generalizing s s' with
  | nil => rfl
  | cons operation rest ih =>
      obtain ⟨output, after⟩ := alike.step operation
      simp only [DecisionAgentSlot.decided, history_cons, List.map_cons, output]
      exact congrArg _ (ih after)

/-! ## Clearing -/

/-- If nothing is left that `clear` does not clear, the slot goes on as a new one that was told the
    same, with the session and the clock as they are. -/
theorem cleared_as_new (building : Building) (tree : Tree) (config : DecisionSlotConfig) (session : σ)
    (clock : κ) (earlier : List SlotOperation)
    (rested : ((build building tree config session clock).after earlier).Rested tree)
    (later : List SlotOperation) :
    ((build building tree config session clock).after earlier).clear.decided later =
      ((build building tree config ((build building tree config session clock).after earlier).session
        ((build building tree config session clock).after earlier).clock).after
          (earlier.filter SlotOperation.isInput)).decided later := by
  generalize reached : (build building tree config session clock).after earlier = s at rested ⊢
  have built : NewAs tree s.session s.clock (build building tree config session clock)
      (build building tree config s.session s.clock) := .start building config session clock
  have new := built.run earlier
  rw [reached] at new
  apply Alike.decided
  obtain ⟨tree', executor, session', clock', told, cleared⟩ := new
  refine ⟨?_, ?_, session'.symm, ?_, clock'.symm⟩
  · rw [tree']
    exact rested.tree
  · exact executor.symm
  · have left : clearBlackboard (inputs s.blackboard) = clearBlackboard s.blackboard := by
      simp only [inputs, clearBlackboard, rested.scopes, rested.round, rested.responses]
    rw [← cleared, told]
    exact left.symm

end DecisionAgentSlot

namespace DecisionAgentSlot

open Plain

def document (root : Node) : Tree :=
  { apiVersion := "decision.agile-agent.io/v1"
    kind := .behaviorTree
    metadata := ⟨"tree", none⟩
    spec := ⟨root⟩ }

/-- A rule that was matched before matches as before. -/
theorem rules_cleared_as_new :
    ((build .withMockSession (document wakeUpRules) {} Silent.session Frozen.clock).after
        [.setTaskDescription "Rename", .tick]).clear.decided [.tick] =
      ((build .withMockSession (document wakeUpRules) {} Silent.session Frozen.clock).after
        [.setTaskDescription "Rename"]).decided [.tick] :=
  cleared_as_new .withMockSession (document wakeUpRules) {} Silent.session Frozen.clock
    [.setTaskDescription "Rename", .tick]
    ⟨.selector _ (.cons (.action _) .nil) rfl, rfl, rfl, rfl⟩ [.tick]

/-- A reflection guard that was passed once stays closed after `clear`; a new slot passes it. -/
theorem guard_not_cleared : ¬ ∀ (building : Building) (tree : Tree) (config : DecisionSlotConfig)
    (silent : Silent) (frozen : Frozen) (earlier later : List SlotOperation),
    ((build building tree config silent frozen).after earlier).clear.decided later =
      ((build building tree config ((build building tree config silent frozen).after earlier).session
        ((build building tree config silent frozen).after earlier).clock).after
          (earlier.filter SlotOperation.isInput)).decided later := by
  intro all
  have same := all .new (document wakeOnce) {} .session .clock [.tick] [.tick]
  exact absurd same (by decide +kernel)

end DecisionAgentSlot

end AgileAgent.Daemon
