import AgileAgent.Machine
import AgileAgent.Core.AgentSlotStatus

/-! # Agent slots

A slot keeps an operational status beside its worker. `transition_to` moves the status and
then tries to move the worker; the other operations write the status alone.
-/

namespace AgileAgent.Core

open RuntimeDomain

/-- The clocks at one call. -/
structure Moment where
  instant : Nat
  utc : Int

/-- `WorkerHandle` (`AgentSlot`), as far as its status goes. Receivers and thread handles
    are known by a number. -/
structure AgentSlot where
  agentId : AgentId
  codename : AgentCodename
  role : AgentRole
  status : AgentSlotStatus
  eventRx : Option Nat
  threadHandle : Option Nat
  lastActivity : Nat
  worker : Worker

namespace AgentSlot

/-! ## Constructors -/

/-- A slot with a new worker. -/
def build (agentId : AgentId) (codename : AgentCodename) (role : AgentRole)
    (status : AgentSlotStatus) (eventRx threadHandle : Option Nat) (now : Moment) : AgentSlot :=
  { agentId, codename, role, status, eventRx, threadHandle
    lastActivity := now.instant
    worker := Worker.create agentId codename role }

/-- `WorkerHandle::new`. -/
def create (agentId : AgentId) (codename : AgentCodename) (now : Moment) : AgentSlot :=
  build agentId codename .developer .idle none none now

def withRole (agentId : AgentId) (codename : AgentCodename) (role : AgentRole) (now : Moment) :
    AgentSlot :=
  build agentId codename role .idle none none now

def withThread (agentId : AgentId) (codename : AgentCodename) (eventRx threadHandle : Nat)
    (now : Moment) : AgentSlot :=
  build agentId codename .developer .starting (some eventRx) (some threadHandle) now

def withThreadAndRole (agentId : AgentId) (codename : AgentCodename) (role : AgentRole)
    (eventRx threadHandle : Nat) (now : Moment) : AgentSlot :=
  build agentId codename role .starting (some eventRx) (some threadHandle) now

/-- `restored_with_worktree`, less the worktree. -/
def restoredWithWorktree (agentId : AgentId) (codename : AgentCodename) (role : AgentRole)
    (status : AgentSlotStatus) (now : Moment) : AgentSlot :=
  build agentId codename role status none none now

def restored (agentId : AgentId) (codename : AgentCodename) (role : AgentRole)
    (status : AgentSlotStatus) (now : Moment) : AgentSlot :=
  restoredWithWorktree agentId codename role status now

/-- `with_decision_policy`, less the policy. -/
def withDecisionPolicy (agentId : AgentId) (codename : AgentCodename) (role : AgentRole)
    (now : Moment) : AgentSlot :=
  build agentId codename role .idle none none now

/-- The slot comes from one of the constructors. -/
inductive Built : AgentSlot → Prop where
  | create (agentId codename now) : Built (create agentId codename now)
  | withRole (agentId codename role now) : Built (withRole agentId codename role now)
  | withThread (agentId codename eventRx threadHandle now) :
      Built (withThread agentId codename eventRx threadHandle now)
  | withThreadAndRole (agentId codename role eventRx threadHandle now) :
      Built (withThreadAndRole agentId codename role eventRx threadHandle now)
  | restored (agentId codename role status now) : Built (restored agentId codename role status now)
  | restoredWithWorktree (agentId codename role status now) :
      Built (restoredWithWorktree agentId codename role status now)
  | withDecisionPolicy (agentId codename role now) :
      Built (withDecisionPolicy agentId codename role now)

/-! ## Operations on the status -/

def transitionTo [Unicode] (s : AgentSlot) (newStatus : AgentSlotStatus) (now : Moment) :
    Except String Unit × AgentSlot :=
  if s.status.canTransitionTo newStatus then
    -- a move the worker refuses is only logged
    (.ok (), { s with
      status := newStatus
      lastActivity := now.instant
      worker := (s.worker.transitionState newStatus.toWorkerState).2 })
  else
    (.error ("Invalid transition from " ++ s.status.label now.utc ++ " to " ++
      newStatus.label now.utc), s)

def setProviderThread (s : AgentSlot) (eventRx threadHandle : Nat) (now : Moment) : AgentSlot :=
  { s with
    eventRx := some eventRx
    threadHandle := some threadHandle
    status := .starting
    lastActivity := now.instant }

def setThreadHandle (s : AgentSlot) (threadHandle : Nat) (now : Moment) : AgentSlot :=
  { s with
    threadHandle := some threadHandle
    status := .starting
    lastActivity := now.instant }

/-- Write the status, if the slot's own table allows the move. -/
def writeStatus (s : AgentSlot) (newStatus : AgentSlotStatus) (refusal : String) (now : Moment) :
    Except String Unit × AgentSlot :=
  if s.status.canTransitionTo newStatus then
    (.ok (), { s with status := newStatus, lastActivity := now.instant })
  else (.error refusal, s)

def enterResting (s : AgentSlot) (blockedState : BlockedState) (now : Moment) :
    Except String Unit × AgentSlot :=
  s.writeStatus (.resting now.utc blockedState false)
    ("Cannot enter resting from " ++ s.status.label now.utc) now

def recoverFromResting (s : AgentSlot) (now : Moment) : Except String Unit × AgentSlot :=
  s.writeStatus .idle
    ("Cannot recover from " ++ s.status.label now.utc ++ " to " ++
      AgentSlotStatus.idle.label now.utc) now

def restingToError (s : AgentSlot) (message : String) (now : Moment) :
    Except String Unit × AgentSlot :=
  s.writeStatus (.error message)
    ("Cannot transition from " ++ s.status.label now.utc ++ " to Error") now

end AgentSlot

/-- The operations that change a status. -/
inductive Operation where
  | transitionTo (newStatus : AgentSlotStatus)
  | setProviderThread (eventRx threadHandle : Nat)
  | setThreadHandle (threadHandle : Nat)
  | enterResting (blockedState : BlockedState)
  | recoverFromResting
  | restingToError (message : String)

/-- One operation at a moment. Operations that return nothing count as `Ok`. -/
def AgentSlot.step [Unicode] (s : AgentSlot) (call : Operation × Moment) :
    Except String Unit × AgentSlot :=
  match call with
  | (.transitionTo newStatus, now) => s.transitionTo newStatus now
  | (.setProviderThread eventRx threadHandle, now) =>
      (.ok (), s.setProviderThread eventRx threadHandle now)
  | (.setThreadHandle threadHandle, now) => (.ok (), s.setThreadHandle threadHandle now)
  | (.enterResting blockedState, now) => s.enterResting blockedState now
  | (.recoverFromResting, now) => s.recoverFromResting now
  | (.restingToError message, now) => s.restingToError message now

end AgileAgent.Core
