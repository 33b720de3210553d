import Mathlib.Data.Option.Basic

/-! # Catching up with a stream

Finished lines wait in a queue to be shown, one at a time as long as the queue is short. A long or
an old queue is shown at once, and the way back is slow: the queue must stay short for a while, and
after that a queue must be very long to be shown at once again. Times are in milliseconds.
-/

namespace AgileAgent.Tui

def enterQueueDepthLines : Nat := 8
def enterOldestAge : Nat := 120
def exitQueueDepthLines : Nat := 2
def exitOldestAge : Nat := 40
def exitHold : Nat := 250
def reenterCatchUpHold : Nat := 250
def severeQueueDepthLines : Nat := 64
def severeOldestAge : Nat := 300

inductive ChunkingMode where
  | smooth
  | catchUp
  deriving Repr, DecidableEq

structure QueueSnapshot where
  queuedLines : Nat
  oldestAge : Option Nat
  deriving Repr, DecidableEq

namespace QueueSnapshot

variable (snapshot : QueueSnapshot)

def shouldEnterCatchUp : Bool :=
  decide (enterQueueDepthLines ≤ snapshot.queuedLines) ||
    snapshot.oldestAge.any (enterOldestAge ≤ ·)

def shouldExitCatchUp : Bool :=
  decide (snapshot.queuedLines ≤ exitQueueDepthLines) &&
    snapshot.oldestAge.all (· ≤ exitOldestAge)

def isSevereBacklog : Bool :=
  decide (severeQueueDepthLines ≤ snapshot.queuedLines) ||
    snapshot.oldestAge.any (severeOldestAge ≤ ·)

end QueueSnapshot

structure ChunkingDecision where
  mode : ChunkingMode
  drainLines : Nat
  deriving Repr, DecidableEq

structure AdaptiveChunkingPolicy where
  mode : ChunkingMode := .smooth
  belowExitThresholdSince : Option Nat := none
  lastCatchUpExitAt : Option Nat := none
  deriving Repr, DecidableEq

namespace AdaptiveChunkingPolicy

def reentryHoldActive (policy : AdaptiveChunkingPolicy) (now : Nat) : Bool :=
  policy.lastCatchUpExitAt.any fun exit => decide (now - exit < reenterCatchUpHold)

/-- The part of `decide` that changes the policy. -/
def next (policy : AdaptiveChunkingPolicy) (snapshot : QueueSnapshot) (now : Nat) :
    AdaptiveChunkingPolicy :=
  if snapshot.queuedLines = 0 then
    { policy with mode := .smooth, belowExitThresholdSince := none }
  else
    match policy.mode with
    | .smooth =>
        if snapshot.shouldEnterCatchUp && (!policy.reentryHoldActive now || snapshot.isSevereBacklog) then
          { mode := .catchUp, belowExitThresholdSince := none, lastCatchUpExitAt := none }
        else policy
    | .catchUp =>
        if snapshot.shouldExitCatchUp then
          match policy.belowExitThresholdSince with
          | some since =>
              if exitHold ≤ now - since then
                { mode := .smooth, belowExitThresholdSince := none, lastCatchUpExitAt := some now }
              else policy
          | none => { policy with belowExitThresholdSince := some now }
        else { policy with belowExitThresholdSince := none }

def decide (policy : AdaptiveChunkingPolicy) (snapshot : QueueSnapshot) (now : Nat) :
    ChunkingDecision × AdaptiveChunkingPolicy :=
  let policy := policy.next snapshot now
  (⟨policy.mode,
    if snapshot.queuedLines = 0 then 1
    else
      match policy.mode with
      | .smooth => 1
      | .catchUp => max snapshot.queuedLines 1⟩, policy)

end AdaptiveChunkingPolicy

end AgileAgent.Tui
