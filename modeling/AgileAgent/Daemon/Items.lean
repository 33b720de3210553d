import AgileAgent.Machine
import AgileAgent.Daemon.EventPump

/-! # Items

What clients can rely on about the items of a pump: which item a delta or an end is for, and what
an item is made of.
-/

namespace AgileAgent.Daemon

open RuntimeDomain

/-! ## What is emitted -/

/-- What the deltas of an item are made of: text, thinking, or the output of one command. -/
inductive DeltaKind where
  | assistant
  | thinking
  | output (callId : Option String)
  deriving Repr, DecidableEq

def deltaKind : DomainEvent → Option DeltaKind
  | .assistantChunk _ => some .assistant
  | .thinkingChunk _ => some .thinking
  | .execCommandOutputDelta callId _ => some (.output callId)
  | _ => none

/-- The event ends the turn of its agent. -/
def endsTurn : DomainEvent → Bool
  | .finished | .error _ => true
  | _ => false

/-- An event of the protocol, and where it comes from: the agent, the kind of the provider's event,
    and how many turns the agent had ended before. -/
structure Emission where
  agentId : String
  kind : Option DeltaKind
  turn : Nat
  payload : EventPayload
  deriving Repr, DecidableEq

namespace Emission

def Starts (e : Emission) (id agentId : String) : Prop :=
  ∃ kind, e.payload = .itemStarted id kind agentId

def IsDelta (e : Emission) (id : String) : Prop := ∃ delta, e.payload = .itemDelta id delta

def Completes (e : Emission) (id : String) : Prop := ∃ item, e.payload = .itemCompleted id item

/-- The emission is about an item that is there already. -/
def Uses (e : Emission) (id : String) : Prop := e.IsDelta id ∨ e.Completes id

end Emission

/-- A delta or an end names an item that was started for the same agent and is not completed, and
    all deltas of an item are of one kind and one turn. -/
structure Orderly (emitted : List Emission) : Prop where
  started : ∀ front e back id, emitted = front ++ e :: back → e.Uses id →
    ∃ s ∈ front, s.Starts id e.agentId
  notCompleted : ∀ front e back id, emitted = front ++ e :: back → e.Uses id →
    ∀ c ∈ front, ¬ c.Completes id
  oneKind : ∀ e ∈ emitted, ∀ e' ∈ emitted, ∀ id, e.IsDelta id → e'.IsDelta id → e.kind = e'.kind
  oneTurn : ∀ e ∈ emitted, ∀ e' ∈ emitted, ∀ id, e.IsDelta id → e'.IsDelta id → e.turn = e'.turn

/-- The pump, what it emitted so far, and how many turns each agent has ended. -/
structure Feed where
  pump : EventPump := {}
  turns : String → Nat := fun _ => 0
  emitted : List Emission := []

namespace Feed

/-- Feed one event of an agent to the pump. -/
def step (feed : Feed) (input : String × DomainEvent) : Unit × Feed :=
  let processed := feed.pump.process input.1 input.2
  ((), { pump := processed.2
         turns := if endsTurn input.2 then Function.update feed.turns input.1 (feed.turns input.1 + 1)
           else feed.turns
         emitted := feed.emitted ++ processed.1.map fun event =>
           ⟨input.1, deltaKind input.2, feed.turns input.1, event.payload⟩ })

/-- All deltas so far of an item are of a kind and of the turn of the agent that goes on. -/
def OnlyGets (feed : Feed) (agentId id : String) (kind : DeltaKind) : Prop :=
  ∀ e ∈ feed.emitted, e.IsDelta id → e.kind = some kind ∧ e.turn = feed.turns agentId

/-- A piece of text comes while a command without an id is open, whose item got nothing but pieces
    of its kind in its turn; an output goes to an item that got nothing but that output in its turn. -/
def Takes (feed : Feed) (input : String × DomainEvent) : Prop :=
  match input.2 with
  | .assistantChunk _ =>
      ∃ id, feed.pump.currentItems (input.1, none) = some id ∧ feed.OnlyGets input.1 id .assistant
  | .thinkingChunk _ =>
      ∃ id, feed.pump.currentItems (input.1, none) = some id ∧ feed.OnlyGets input.1 id .thinking
  | .execCommandOutputDelta callId _ =>
      ∀ id, feed.pump.currentItems (input.1, callId) = some id →
        feed.OnlyGets input.1 id (.output callId)
  | _ => True

end Feed

/-! ## One more emission -/

theorem Orderly.nil : Orderly [] where
  started := by simp
  notCompleted := by simp
  oneKind := by simp
  oneTurn := by simp

theorem Orderly.of_append {front back : List Emission} (orderly : Orderly (front ++ back)) :
    Orderly front where
  started := by
    rintro earlier e later id rfl
    exact orderly.started earlier e (later ++ back) id (by simp)
  notCompleted := by
    rintro earlier e later id rfl
    exact orderly.notCompleted earlier e (later ++ back) id (by simp)
  oneKind := fun e member e' member' => orderly.oneKind e (List.mem_append_left _ member) e'
    (List.mem_append_left _ member')
  oneTurn := fun e member e' member' => orderly.oneTurn e (List.mem_append_left _ member) e'
    (List.mem_append_left _ member')

/-- A last emission keeps the order exactly if the item it uses is open for its agent, and a delta is
    like those before it. -/
theorem orderly_snoc_iff {emitted : List Emission} {e : Emission} :
    Orderly (emitted ++ [e]) ↔ Orderly emitted ∧
      (∀ id, e.Uses id → (∃ s ∈ emitted, s.Starts id e.agentId) ∧
        ∀ c ∈ emitted, ¬ c.Completes id) ∧
      ∀ id, e.IsDelta id → ∀ e' ∈ emitted, e'.IsDelta id → e'.kind = e.kind ∧ e'.turn = e.turn := by
  constructor
  · intro orderly
    refine ⟨orderly.of_append, fun id uses => ?_, fun id delta e' member delta' => ?_⟩
    · exact ⟨orderly.started emitted e [] id rfl uses, orderly.notCompleted emitted e [] id rfl uses⟩
    · exact ⟨orderly.oneKind e' (by simp [member]) e (by simp) id delta' delta,
        orderly.oneTurn e' (by simp [member]) e (by simp) id delta' delta⟩
  · rintro ⟨orderly, uses_open, alike⟩
    have last_or (front : List Emission) (x : Emission) (back : List Emission)
        (split : emitted ++ [e] = front ++ x :: back) :
        (front = emitted ∧ x = e) ∨ ∃ back', emitted = front ++ x :: back' := by
      rcases List.eq_nil_or_concat back with rfl | ⟨back', y, rfl⟩
      · obtain ⟨same, last⟩ := List.append_inj' split rfl
        exact .inl ⟨same.symm, (List.cons.inj last).1.symm⟩
      · have split' : emitted ++ [e] = (front ++ x :: back') ++ [y] := by simpa using split
        exact .inr ⟨back', (List.append_inj' split' rfl).1⟩
    refine ⟨fun front x back id split uses => ?_, fun front x back id split uses => ?_, ?_, ?_⟩
    · rcases last_or front x back split with ⟨rfl, rfl⟩ | ⟨back', rfl⟩
      · exact (uses_open id uses).1
      · exact orderly.started front x back' id rfl uses
    · rcases last_or front x back split with ⟨rfl, rfl⟩ | ⟨back', rfl⟩
      · exact (uses_open id uses).2
      · exact orderly.notCompleted front x back' id rfl uses
    · intro x member x' member' id delta delta'
      simp only [List.mem_append, List.mem_singleton] at member member'
      rcases member with before | rfl <;> rcases member' with before' | rfl
      · exact orderly.oneKind x before x' before' id delta delta'
      · exact (alike id delta' x before delta).1
      · exact (alike id delta x' before' delta').1.symm
      · rfl
    · intro x member x' member' id delta delta'
      simp only [List.mem_append, List.mem_singleton] at member member'
      rcases member with before | rfl <;> rcases member' with before' | rfl
      · exact orderly.oneTurn x before x' before' id delta delta'
      · exact (alike id delta' x before delta).2
      · exact (alike id delta x' before' delta').2.symm
      · rfl

section

variable {emitted : List Emission} {agentId id : String} {kind : Option DeltaKind} {turn : Nat}

theorem orderly_plain_iff {payload : EventPayload}
    (plain : ∀ id, ¬ Emission.Uses ⟨agentId, kind, turn, payload⟩ id) :
    Orderly (emitted ++ [⟨agentId, kind, turn, payload⟩]) ↔ Orderly emitted := by
  rw [orderly_snoc_iff]
  constructor
  · exact fun orderly => orderly.1
  · intro orderly
    exact ⟨orderly, fun id uses => absurd uses (plain id), fun id delta => absurd (.inl delta) (plain id)⟩

theorem orderly_delta_iff {delta : ItemDelta} :
    Orderly (emitted ++ [⟨agentId, kind, turn, .itemDelta id delta⟩]) ↔ Orderly emitted ∧
      (∃ s ∈ emitted, s.Starts id agentId) ∧ (∀ c ∈ emitted, ¬ c.Completes id) ∧
      ∀ e ∈ emitted, e.IsDelta id → e.kind = kind ∧ e.turn = turn := by
  have uses_iff (id' : String) :
      Emission.Uses ⟨agentId, kind, turn, .itemDelta id delta⟩ id' ↔ id = id' := by
    simp [Emission.Uses, Emission.IsDelta, Emission.Completes]
  have delta_iff (id' : String) :
      Emission.IsDelta ⟨agentId, kind, turn, .itemDelta id delta⟩ id' ↔ id = id' := by
    simp [Emission.IsDelta]
  rw [orderly_snoc_iff]
  simp only [uses_iff, delta_iff, forall_eq', and_assoc]

theorem orderly_completed_iff {item : TranscriptItem} :
    Orderly (emitted ++ [⟨agentId, kind, turn, .itemCompleted id item⟩]) ↔ Orderly emitted ∧
      (∃ s ∈ emitted, s.Starts id agentId) ∧ ∀ c ∈ emitted, ¬ c.Completes id := by
  have uses_iff (id' : String) :
      Emission.Uses ⟨agentId, kind, turn, .itemCompleted id item⟩ id' ↔ id = id' := by
    simp [Emission.Uses, Emission.IsDelta, Emission.Completes]
  have no_delta (id' : String) :
      ¬ Emission.IsDelta ⟨agentId, kind, turn, .itemCompleted id item⟩ id' := by
    simp [Emission.IsDelta]
  rw [orderly_snoc_iff]
  simp [uses_iff, no_delta]

end

/-! ## The items the pump has open -/

/-- As long as what was emitted is in order, every item of the pump was started for its agent and is
    not completed, no two keys have one item, and names are given out in their order. -/
structure Tracked (feed : Feed) : Prop where
  opened : ∀ key id, feed.pump.currentItems key = some id →
    (∃ s ∈ feed.emitted, s.Starts id key.1) ∧ ∀ c ∈ feed.emitted, ¬ c.Completes id
  apart : ∀ key key' id, feed.pump.currentItems key = some id →
    feed.pump.currentItems key' = some id → key = key'
  older : ∀ key id, feed.pump.currentItems key = some id →
    ∃ n < feed.pump.nextItemIndex, id = EventPump.itemName n
  named : ∀ e ∈ feed.emitted, ∀ id, (∃ agentId, e.Starts id agentId) ∨ e.Completes id →
    ∃ n < feed.pump.nextItemIndex, id = EventPump.itemName n

namespace Tracked

variable {feed : Feed} {agentId : String}

theorem initial : Tracked {} where
  opened := by simp
  apart := by simp
  older := by simp
  named := by simp

/-- The name that is given out next is not about yet. -/
theorem fresh (tracked : Tracked feed) :
    ∀ e ∈ feed.emitted, (∀ agentId, ¬ e.Starts (EventPump.itemName feed.pump.nextItemIndex) agentId) ∧
      ¬ e.Completes (EventPump.itemName feed.pump.nextItemIndex) := by
  intro e member
  constructor
  · intro agentId starts
    obtain ⟨n, less, same⟩ := tracked.named e member _ (.inl ⟨agentId, starts⟩)
    have := EventPump.itemName_injective same
    omega
  · intro completes
    obtain ⟨n, less, same⟩ := tracked.named e member _ (.inr completes)
    have := EventPump.itemName_injective same
    omega

/-- An open item stays open with an emission that does not complete it. -/
theorem opened_snoc (tracked : Tracked feed) {key : String × Option String} {id : String}
    (current : feed.pump.currentItems key = some id) {e : Emission} (goesOn : ¬ e.Completes id) :
    (∃ s ∈ feed.emitted ++ [e], s.Starts id key.1) ∧ ∀ c ∈ feed.emitted ++ [e], ¬ c.Completes id := by
  obtain ⟨⟨s, member, starts⟩, incomplete⟩ := tracked.opened key id current
  refine ⟨⟨s, List.mem_append_left _ member, starts⟩, fun c member' => ?_⟩
  rcases List.mem_append.mp member' with before | last
  · exact incomplete c before
  · exact List.mem_singleton.mp last ▸ goesOn

/-- An emission that neither starts nor completes an item. -/
theorem emit (tracked : Tracked feed) {e : Emission} {turns : String → Nat} {seqCounter : Nat}
    (keeps : ∀ id, (∀ agentId, ¬ e.Starts id agentId) ∧ ¬ e.Completes id) :
    Tracked { pump := { feed.pump with seqCounter }, turns, emitted := feed.emitted ++ [e] } where
  opened := fun _ id current => tracked.opened_snoc current (keeps id).2
  apart := tracked.apart
  older := tracked.older
  named := by
    intro x member id names
    rcases List.mem_append.mp member with before | last
    · exact tracked.named x before id names
    · rw [List.mem_singleton.mp last] at names
      rcases names with ⟨agentId, starts⟩ | completes
      · exact absurd starts ((keeps id).1 agentId)
      · exact absurd completes (keeps id).2

/-- A start takes the next name. -/
theorem create (tracked : Tracked feed) {kind : Option DeltaKind} {turn seqCounter : Nat}
    {turns : String → Nat} (callId : Option String) :
    Tracked { pump := { feed.pump with
                seqCounter
                nextItemIndex := feed.pump.nextItemIndex + 1
                currentItems := Function.update feed.pump.currentItems (agentId, callId)
                  (some (EventPump.itemName feed.pump.nextItemIndex)) }
              turns
              emitted := feed.emitted ++ [⟨agentId, kind, turn,
                .itemStarted (EventPump.itemName feed.pump.nextItemIndex) .toolCall agentId⟩] } where
  opened := by
    intro key id current
    simp only [Function.update_apply] at current
    split at current
    · next here =>
        subst here
        cases current
        refine ⟨⟨_, List.mem_append_right _ (List.mem_singleton_self _), .toolCall, rfl⟩, ?_⟩
        intro c member
        rcases List.mem_append.mp member with before | last
        · exact (tracked.fresh c before).2
        · rw [List.mem_singleton.mp last]
          simp [Emission.Completes]
    · exact tracked.opened_snoc current (by simp [Emission.Completes])
  apart := by
    intro key key' id current current'
    simp only [Function.update_apply] at current current'
    have old (key : String × Option String)
        (current : feed.pump.currentItems key = some (EventPump.itemName feed.pump.nextItemIndex)) :
        False := by
      obtain ⟨n, less, same⟩ := tracked.older key _ current
      have := EventPump.itemName_injective same
      omega
    split at current <;> split at current'
    · next here here' => exact here.trans here'.symm
    · cases current
      exact (old key' current').elim
    · cases current'
      exact (old key current).elim
    · exact tracked.apart key key' id current current'
  older := by
    intro key id current
    simp only [Function.update_apply] at current
    split at current
    · cases current
      exact ⟨_, Nat.lt_succ_self _, rfl⟩
    · obtain ⟨n, less, same⟩ := tracked.older key id current
      exact ⟨n, Nat.lt_succ_of_lt less, same⟩
  named := by
    intro x member id names
    rcases List.mem_append.mp member with before | last
    · obtain ⟨n, less, same⟩ := tracked.named x before id names
      exact ⟨n, Nat.lt_succ_of_lt less, same⟩
    · rw [List.mem_singleton.mp last] at names
      simp only [Emission.Starts, Emission.Completes, EventPayload.itemStarted.injEq, reduceCtorEq,
        exists_false, or_false] at names
      obtain ⟨_, _, rfl, -⟩ := names
      exact ⟨_, Nat.lt_succ_self _, rfl⟩

/-- The item of a command is completed and let go. -/
theorem complete (tracked : Tracked feed) {kind : Option DeltaKind} {turn seqCounter : Nat}
    {turns : String → Nat} {callId : Option String} {id : String} {item : TranscriptItem}
    (current : feed.pump.currentItems (agentId, callId) = some id) :
    Tracked { pump := { feed.pump with
                seqCounter
                currentItems := Function.update feed.pump.currentItems (agentId, callId) none }
              turns
              emitted := feed.emitted ++ [⟨agentId, kind, turn, .itemCompleted id item⟩] } where
  opened := by
    intro key id' current'
    simp only [Function.update_apply] at current'
    split at current'
    · cases current'
    · next elsewhere =>
        apply tracked.opened_snoc current'
        simp only [Emission.Completes, EventPayload.itemCompleted.injEq]
        intro ⟨item', same, _⟩
        subst same
        exact elsewhere (tracked.apart key (agentId, callId) id current' current)
  apart := by
    intro key key' id' found found'
    simp only [Function.update_apply] at found found'
    split at found <;> split at found'
    · cases found
    · cases found
    · cases found'
    · exact tracked.apart key key' id' found found'
  older := by
    intro key id' found
    simp only [Function.update_apply] at found
    split at found
    · cases found
    · exact tracked.older key id' found
  named := by
    intro x member id' names
    rcases List.mem_append.mp member with before | last
    · exact tracked.named x before id' names
    · rw [List.mem_singleton.mp last] at names
      simp only [Emission.Starts, Emission.Completes, EventPayload.itemCompleted.injEq, reduceCtorEq,
        exists_false, false_or] at names
      obtain ⟨_, rfl, -⟩ := names
      exact tracked.older _ id current

end Tracked

namespace Feed

variable {feed : Feed}

/-- A piece of text, where there is an item it goes to. -/
theorem chunk_found {agentId id : String} (current : feed.pump.currentItems (agentId, none) = some id)
    (kind : ItemKind) (delta : ItemDelta) :
    feed.pump.chunk agentId kind delta = feed.pump.mkEvent (.itemDelta id delta) := by
  simp [EventPump.chunk, EventPump.getOrCreateItem, current]

/-- A piece of text, where there is none: the item it goes to is not announced. -/
theorem chunk_created {agentId : String} (current : feed.pump.currentItems (agentId, none) = none)
    (kind : ItemKind) (delta : ItemDelta) :
    ∃ pump, feed.pump.chunk agentId kind delta =
      ([⟨feed.pump.seqCounter + 1,
        .itemDelta (EventPump.itemName feed.pump.nextItemIndex) delta⟩], pump) := by
  simp [EventPump.chunk, EventPump.getOrCreateItem, EventPump.createItem, EventPump.mkEvent, current]

theorem delta_orderly_iff (tracked : Tracked feed) (orderly : Orderly feed.emitted)
    {agentId id : String} {callId : Option String}
    (current : feed.pump.currentItems (agentId, callId) = some id) (kind : DeltaKind)
    (delta : ItemDelta) :
    Orderly (feed.emitted ++
        [⟨agentId, some kind, feed.turns agentId, .itemDelta id delta⟩]) ↔
      feed.OnlyGets agentId id kind := by
  obtain ⟨started, incomplete⟩ := tracked.opened _ id current
  rw [orderly_delta_iff]
  exact ⟨fun all => all.2.2.2, fun only => ⟨orderly, started, incomplete, only⟩⟩

/-- A piece of text for an item nobody was told of. -/
theorem unannounced (tracked : Tracked feed) {agentId : String} {kind : Option DeltaKind} {turn : Nat}
    {delta : ItemDelta} :
    ¬ Orderly (feed.emitted ++ [⟨agentId, kind, turn,
      .itemDelta (EventPump.itemName feed.pump.nextItemIndex) delta⟩]) := by
  rw [orderly_delta_iff]
  rintro ⟨-, ⟨s, member, starts⟩, -⟩
  exact (tracked.fresh s member).1 agentId starts

theorem chunk_orderly_iff (tracked : Tracked feed) (orderly : Orderly feed.emitted) (agentId : String)
    (kind : DeltaKind) (itemKind : ItemKind) (delta : ItemDelta) :
    Orderly (feed.emitted ++ (feed.pump.chunk agentId itemKind delta).1.map fun event =>
        ⟨agentId, some kind, feed.turns agentId, event.payload⟩) ↔
      ∃ id, feed.pump.currentItems (agentId, none) = some id ∧ feed.OnlyGets agentId id kind := by
  cases current : feed.pump.currentItems (agentId, none) with
  | none =>
      obtain ⟨pump, made⟩ := chunk_created current itemKind delta
      rw [made]
      exact iff_of_false (unannounced tracked) (by simp)
  | some id =>
      rw [chunk_found current]
      refine (delta_orderly_iff tracked orderly current kind delta).trans ?_
      simp

/-- An event keeps the order exactly if the feed takes it. -/
theorem step_orderly_iff (tracked : Tracked feed) (orderly : Orderly feed.emitted)
    (input : String × DomainEvent) : Orderly (feed.step input).2.emitted ↔ feed.Takes input := by
  obtain ⟨agentId, event⟩ := input
  cases event with
  | assistantChunk text => exact chunk_orderly_iff tracked orderly agentId .assistant _ _
  | thinkingChunk text => exact chunk_orderly_iff tracked orderly agentId .thinking _ _
  | execCommandOutputDelta callId delta =>
      cases current : feed.pump.currentItems (agentId, callId) with
      | none => simp [step, EventPump.process, EventPump.currentItemId, current, Takes, orderly]
      | some id =>
          have emits := delta_orderly_iff tracked orderly current (.output callId) (.text delta)
          simpa [step, EventPump.process, EventPump.currentItemId, current, Takes, EventPump.mkEvent,
            deltaKind] using emits
  | execCommandFinished callId outputPreview status exitCode durationMs source =>
      refine iff_of_true ?_ trivial
      cases current : feed.pump.currentItems (agentId, callId) with
      | none => simp [step, EventPump.process, EventPump.finishItem, current, orderly]
      | some id =>
          simp only [step, EventPump.process, EventPump.finishItem, current, EventPump.mkEvent,
            List.map_cons, List.map_nil]
          exact orderly_completed_iff.mpr ⟨orderly, tracked.opened _ id current⟩
  | status | execCommandStarted | error | finished =>
      refine iff_of_true ?_ trivial
      exact (orderly_plain_iff (by
        simp [Emission.Uses, Emission.IsDelta, Emission.Completes])).mpr orderly
  | _ =>
      refine iff_of_true ?_ trivial
      simpa [step, EventPump.process] using orderly

/-- The items stay known as long as the order is kept. -/
theorem step_tracked (tracked : Tracked feed) (orderly : Orderly feed.emitted)
    (input : String × DomainEvent) (after : Orderly (feed.step input).2.emitted) :
    Tracked (feed.step input).2 := by
  have takes := (step_orderly_iff tracked orderly input).mp after
  obtain ⟨agentId, event⟩ := input
  cases event with
  | assistantChunk text | thinkingChunk text =>
      obtain ⟨id, current, -⟩ := takes
      simp only [step, EventPump.process, chunk_found current, EventPump.mkEvent, List.map_cons,
        List.map_nil]
      exact tracked.emit (by simp [Emission.Starts, Emission.Completes])
  | execCommandOutputDelta callId delta =>
      cases current : feed.pump.currentItems (agentId, callId) with
      | none =>
          simp only [step, EventPump.process, EventPump.currentItemId, current, List.map_nil,
            List.append_nil]
          exact ⟨tracked.opened, tracked.apart, tracked.older, tracked.named⟩
      | some id =>
          simp only [step, EventPump.process, EventPump.currentItemId, current, EventPump.mkEvent,
            List.map_cons, List.map_nil]
          exact tracked.emit (by simp [Emission.Starts, Emission.Completes])
  | execCommandFinished callId outputPreview status exitCode durationMs source =>
      cases current : feed.pump.currentItems (agentId, callId) with
      | none =>
          have same := Function.update_eq_self (agentId, callId) feed.pump.currentItems
          rw [current] at same
          simp only [step, EventPump.process, EventPump.finishItem, current, List.map_nil,
            List.append_nil, same]
          exact ⟨tracked.opened, tracked.apart, tracked.older, tracked.named⟩
      | some id =>
          simp only [step, EventPump.process, EventPump.finishItem, current, EventPump.mkEvent,
            List.map_cons, List.map_nil]
          exact tracked.complete current
  | execCommandStarted callId inputPreview source => exact tracked.create callId
  | status | error | finished => exact tracked.emit (by simp [Emission.Starts, Emission.Completes])
  | _ =>
      simp only [step, EventPump.process, List.map_nil, List.append_nil]
      exact ⟨tracked.opened, tracked.apart, tracked.older, tracked.named⟩

theorem final_emitted (feed : Feed) (inputs : List (String × DomainEvent)) :
    ∃ later, (Machine.final step feed inputs).emitted = feed.emitted ++ later := by
  induction inputs generalizing feed with
  | nil => exact ⟨[], (List.append_nil _).symm⟩
  | cons input rest ih =>
      obtain ⟨new, here⟩ : ∃ new, (feed.step input).2.emitted = feed.emitted ++ new := ⟨_, rfl⟩
      obtain ⟨later, emitted⟩ := ih (feed.step input).2
      exact ⟨new ++ later, by rw [Machine.final_cons, emitted, here, List.append_assoc]⟩

theorem history_orderly_iff (inputs : List (String × DomainEvent)) :
    (∀ x ∈ Machine.history step {} inputs, Orderly x.after.emitted) ↔
      ∀ x ∈ Machine.history step {} inputs, x.before.Takes x.event :=
  @Machine.history_exact Feed (String × DomainEvent) Unit step
    (fun feed => Tracked feed ∧ Orderly feed.emitted) Takes (fun x => Orderly x.after.emitted)
    (fun _ input good => step_orderly_iff good.1 good.2 input)
    (fun _ input good after => ⟨step_tracked good.1 good.2 input after, after⟩)
    {} ⟨Tracked.initial, Orderly.nil⟩ inputs

/-- All that a pump emits for some events is in order exactly if it takes every one of them. -/
theorem emitted_orderly_iff (inputs : List (String × DomainEvent)) :
    Orderly (Machine.final step {} inputs).emitted ↔
      ∀ x ∈ Machine.history step {} inputs, x.before.Takes x.event := by
  rw [← history_orderly_iff]
  constructor
  · intro orderly x member
    obtain ⟨later, rest⟩ := Machine.final_of_mem member
    obtain ⟨more, emitted⟩ := final_emitted x.after later
    rw [rest, emitted] at orderly
    exact orderly.of_append
  · intro all
    rcases List.eq_nil_or_concat inputs with rfl | ⟨front, input, rfl⟩
    · exact Orderly.nil
    · rw [List.concat_eq_append] at all ⊢
      rw [Machine.final_snoc]
      exact all ⟨Machine.final step {} front, input, (), _⟩ (by simp [Machine.history_snoc])

/-- The first piece of text of an agent is for an item that was never started. -/
theorem text_without_start : ¬ ∀ inputs : List (String × DomainEvent),
    Orderly (Machine.final step {} inputs).emitted := by
  intro all
  obtain ⟨s, member, -⟩ := (all [("a1", .assistantChunk "hello")]).started [] _ [] "item-1" rfl
    (.inl ⟨.text "hello", rfl⟩)
  cases member

end Feed

end AgileAgent.Daemon
