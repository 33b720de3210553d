import Mathlib.Data.List.Basic
import AgileAgent.Machine

/-! # The broadcaster and its connections

Each accepted connection registers a channel with the broadcaster and forwards what arrives in it to
its client. All of them register under one name.
-/

namespace AgileAgent.Daemon

universe u

inductive Phase where
  | upgrading
  | connected
  | closed
  deriving Repr, DecidableEq

/-- A connection with the channel of its events. What is in the channel when the connection is
    closed stays there. -/
structure Connection (E : Type u) where
  phase : Phase := .upgrading
  channel : List E := []
  sent : List E := []

/-- The senders by the names they are registered under. A sender is the number of the connection that
    has the receiver. -/
abbrev EventBroadcaster := List (String × Nat)

namespace EventBroadcaster

/-- Drops the sender that was registered under this name before. -/
def register (clients : EventBroadcaster) (connId : String) (n : Nat) : EventBroadcaster :=
  (connId, n) :: clients.filter fun client => client.1 ≠ connId

end EventBroadcaster

/-- Sending fails if the receiver is gone. -/
def send {E : Type u} (event : E) (connection : Connection E) : Connection E :=
  if connection.phase = .closed then connection
  else { connection with channel := connection.channel ++ [event] }

theorem send_phase {E : Type u} (event : E) (connection : Connection E) :
    (send event connection).phase = connection.phase := by
  unfold send
  split
  · rfl
  · rfl

theorem send_balance {E : Type u} (event : E) {connection : Connection E} :
    (send event connection).sent ++ (send event connection).channel =
      connection.sent ++ connection.channel ++ if connection.phase = .closed then [] else [event] := by
  unfold send
  split
  · rw [List.append_nil]
  · exact (List.append_assoc ..).symm

/-- The part of the daemon that serves the clients, with the tracker's count and limit. -/
structure Service (E : Type u) where
  clients : EventBroadcaster := []
  connections : List (Connection E) := []
  active : Nat := 0
  max : Nat

namespace Service

variable {E : Type u}

/-- The connection's loop ends, and the tracker counts one less. -/
def close (service : Service E) (n : Nat) : Service E :=
  { service with
    connections := service.connections.modify n fun connection => { connection with phase := .closed }
    active := service.active - 1 }

/-- The callback registers the connection before the tracker accepts or rejects it. -/
def onConnect (service : Service E) : Bool × Service E :=
  let clients := service.clients.register "conn" service.connections.length
  if service.max ≤ service.active then
    (false, { service with
      clients, connections := service.connections ++ [{ phase := .closed }] })
  else
    (true, { service with
      clients, connections := service.connections ++ [{}], active := service.active + 1 })

def broadcast (service : Service E) (event : E) : Service E :=
  { service with
    connections := service.clients.foldl (fun connections client =>
      connections.modify client.2 (send event)) service.connections }

def registered (service : Service E) (n : Nat) : Bool :=
  service.clients.any fun client => client.2 = n

/-- The WebSocket is there. -/
def upgrade (service : Service E) (n : Nat) : Service E :=
  { service with
    connections := service.connections.modify n fun connection =>
      match connection.phase with
      | .upgrading => { connection with phase := .connected }
      | .connected | .closed => connection }

/-- One turn of the loop with the event branch: the next event is sent, and a channel that is empty
    and has lost its sender ends the loop. -/
def forward (service : Service E) (n : Nat) : Service E :=
  match service.connections[n]? with
  | some { phase := .connected, channel := event :: rest, sent := sent } =>
      { service with
        connections := service.connections.modify n fun connection =>
          { connection with channel := rest, sent := sent ++ [event] } }
  | some { phase := .connected, channel := [], .. } =>
      if service.registered n then service else service.close n
  | _ => service

/-- The client disconnects, fails or is timed out, or the upgrade fails. -/
def leave (service : Service E) (n : Nat) : Service E :=
  match service.connections[n]? with
  | some { phase := .closed, .. } | none => service
  | some _ => service.close n

end Service

/-! ## Runs -/

inductive ClientAction (E : Type u) where
  | connect
  | upgrade (n : Nat)
  | broadcast (event : E)
  | forward (n : Nat)
  | leave (n : Nat)

/-- What a client is owed: the events that were broadcast while it was there. -/
structure Visit (E : Type u) where
  present : Bool
  owed : List E := []

/-- The service and the visits of its clients, one for each connection. -/
structure Floor (E : Type u) where
  service : Service E
  visits : List (Visit E) := []

namespace Floor

variable {E : Type u}

def step (floor : Floor E) : ClientAction E → Unit × Floor E
  | .connect =>
      ((), ⟨floor.service.onConnect.2, floor.visits ++ [⟨floor.service.onConnect.1, []⟩]⟩)
  | .upgrade n => ((), { floor with service := floor.service.upgrade n })
  | .broadcast event =>
      ((), ⟨floor.service.broadcast event, floor.visits.map fun visit =>
        if visit.present then { visit with owed := visit.owed ++ [event] } else visit⟩)
  | .forward n => ((), { floor with service := floor.service.forward n })
  | .leave n =>
      ((), ⟨floor.service.leave n, floor.visits.modify n fun visit => { visit with present := false }⟩)

/-- What is said of each connection and its visit. -/
def All (floor : Floor E) (fact : Nat → Visit E → Connection E → Prop) : Prop :=
  ∀ (n : Nat) (visit : Visit E) (connection : Connection E), floor.visits[n]? = some visit →
    floor.service.connections[n]? = some connection → fact n visit connection

/-- A client has been sent what it is owed, each event once and in order, up to what is still in its
    channel, and as long as it is there its connection is open and gets what is broadcast. -/
def Serves (floor : Floor E) : Prop :=
  floor.All fun n visit connection =>
    connection.sent ++ connection.channel = visit.owed ∧
      (visit.present = true → connection.phase ≠ .closed ∧ floor.service.registered n = true)

def Empty (floor : Floor E) : Prop := ∀ visit ∈ floor.visits, visit.present = false

/-- A state that serves its clients, whose one sender is that of the last connection, and in which the
    connection of a client that is gone is closed. -/
structure Good (floor : Floor E) : Prop where
  lengths : floor.visits.length = floor.service.connections.length
  clients : floor.service.clients = if floor.service.connections.length = 0 then [] else
    [("conn", floor.service.connections.length - 1)]
  serves : floor.Serves
  absent : floor.All fun _ visit connection => visit.present = false → connection.phase = .closed

theorem Good.registered_iff {floor : Floor E} (good : floor.Good) (n : Nat) :
    floor.service.registered n = true ↔ n + 1 = floor.service.connections.length := by
  unfold Service.registered
  rw [good.clients]
  by_cases empty : floor.service.connections.length = 0
  · simp [empty]
  · simp only [empty, ↓reduceIte, List.any_cons, List.any_nil, Bool.or_false, decide_eq_true_eq]
    omega

theorem start_good (max : Nat) : (⟨{ max := max }, []⟩ : Floor E).Good where
  lengths := rfl
  clients := rfl
  serves := by simp [Serves, All]
  absent := by simp [All]

/-! ## Steps other than a connection -/

/-- A connection and its visit are changed, and the rest is as before. -/
theorem All.modify {floor : Floor E} {fact : Nat → Visit E → Connection E → Prop}
    (all : floor.All fact) {n active : Nat} {change : Connection E → Connection E}
    {record : Visit E → Visit E} (keeps : ∀ visit connection, floor.visits[n]? = some visit →
      floor.service.connections[n]? = some connection → fact n (record visit) (change connection)) :
    All ⟨{ floor.service with
      connections := floor.service.connections.modify n change, active := active },
      floor.visits.modify n record⟩ fact := by
  intro i visit connection found found'
  rw [List.getElem?_modify] at found found'
  by_cases here : n = i
  · subst here
    simp only [↓reduceIte, Option.map_eq_map, Option.map_eq_some_iff] at found found'
    obtain ⟨visit₀, found, rfl⟩ := found
    obtain ⟨connection₀, found', rfl⟩ := found'
    exact keeps visit₀ connection₀ found found'
  · simp only [here, ↓reduceIte, Option.map_eq_map, Option.map_id_fun', id_eq] at found found'
    exact all i visit connection found found'

theorem Good.modify {floor : Floor E} (good : floor.Good) {n active : Nat}
    {change : Connection E → Connection E} {record : Visit E → Visit E}
    (keeps : ∀ visit connection, floor.visits[n]? = some visit →
      floor.service.connections[n]? = some connection →
      connection.sent ++ connection.channel = visit.owed →
      (change connection).sent ++ (change connection).channel = (record visit).owed)
    (stays : ∀ visit connection, floor.visits[n]? = some visit →
      floor.service.connections[n]? = some connection → (record visit).present = true →
      visit.present = true ∧ (change connection).phase ≠ .closed)
    (goes : ∀ visit connection, floor.visits[n]? = some visit →
      floor.service.connections[n]? = some connection → (record visit).present = false →
      (change connection).phase = .closed) :
    Good ⟨{ floor.service with
      connections := floor.service.connections.modify n change, active := active },
      floor.visits.modify n record⟩ where
  lengths := by simp [good.lengths]
  clients := by simp [good.clients]
  serves := good.serves.modify fun visit connection found found' => by
    obtain ⟨owed, present⟩ := good.serves n visit connection found found'
    refine ⟨keeps visit connection found found' owed, fun still => ?_⟩
    obtain ⟨before, opened⟩ := stays visit connection found found' still
    exact ⟨opened, (present before).2⟩
  absent := good.absent.modify goes

/-- A change of a connection alone. -/
theorem Good.change {floor : Floor E} (good : floor.Good) {n active : Nat}
    {change : Connection E → Connection E} (moves : ∀ connection,
      floor.service.connections[n]? = some connection →
      (change connection).sent ++ (change connection).channel = connection.sent ++ connection.channel ∧
        ((change connection).phase = .closed ↔ connection.phase = .closed)) :
    Good ⟨{ floor.service with
      connections := floor.service.connections.modify n change, active := active },
      floor.visits⟩ := by
  have unrecorded : floor.visits = floor.visits.modify n id := (List.modify_id ..).symm
  rw [unrecorded]
  apply good.modify
  · intro visit connection _ found' owed
    rw [(moves connection found').1, owed, id]
  · intro visit connection found found' present
    have opened := ((good.serves n visit connection found found').2 present).1
    exact ⟨present, fun closed => opened ((moves connection found').2.mp closed)⟩
  · intro visit connection found found' gone
    exact (moves connection found').2.mpr (good.absent n visit connection found found' gone)

theorem Good.upgrade {floor : Floor E} (good : floor.Good) (n : Nat) :
    (floor.step (.upgrade n)).2.Good := by
  apply good.change
  intro connection _
  cases opened : connection.phase with
  | upgrading | connected | closed => simp [opened]

/-- Who has an open connection is there. -/
theorem Good.present {floor : Floor E} (good : floor.Good) {n : Nat} {connection : Connection E}
    (found : floor.service.connections[n]? = some connection) (opened : connection.phase ≠ .closed) :
    ∃ visit, floor.visits[n]? = some visit ∧ visit.present = true := by
  have within := (List.getElem?_eq_some_iff.mp found).1
  rw [← good.lengths] at within
  refine ⟨floor.visits[n], List.getElem?_eq_getElem within, ?_⟩
  by_contra gone
  rw [Bool.not_eq_true] at gone
  exact opened (good.absent n _ connection (List.getElem?_eq_getElem within) found gone)

theorem Good.forward {floor : Floor E} (good : floor.Good) (n : Nat) :
    (floor.step (.forward n)).2.Good := by
  simp only [step, Service.forward]
  split
  · next event rest sent found =>
      apply good.change
      intro connection found'
      obtain rfl := Option.some.inj (found.symm.trans found')
      simp
  · next found =>
      obtain ⟨visit, found', present⟩ := good.present found Phase.noConfusion
      rw [if_pos ((good.serves n visit _ found' found).2 present).2]
      exact good
  · exact good

/-- A client is gone, and its connection is closed. -/
theorem Good.depart {floor : Floor E} (good : floor.Good) {n active : Nat}
    {change : Connection E → Connection E} (closes : ∀ connection,
      floor.service.connections[n]? = some connection →
      (change connection).sent ++ (change connection).channel = connection.sent ++ connection.channel ∧
        (change connection).phase = .closed) :
    Good ⟨{ floor.service with
      connections := floor.service.connections.modify n change, active := active },
      floor.visits.modify n fun visit => { visit with present := false }⟩ := by
  apply good.modify
  · intro visit connection _ found' owed
    rw [(closes connection found').1, owed]
  · intro visit connection _ _ present
    cases present
  · intro visit connection _ found' _
    exact (closes connection found').2

theorem Good.leave {floor : Floor E} (good : floor.Good) (n : Nat) :
    (floor.step (.leave n)).2.Good := by
  have already (closed : ∀ connection, floor.service.connections[n]? = some connection →
      (id connection).phase = .closed) : Good ⟨floor.service,
        floor.visits.modify n fun visit => { visit with present := false }⟩ := by
    have left : Good ⟨{ floor.service with
      connections := floor.service.connections.modify n id, active := floor.service.active }, _⟩ :=
        good.depart fun connection found => ⟨rfl, closed connection found⟩
    rwa [List.modify_id] at left
  simp only [step, Service.leave]
  split
  · next found =>
      apply already
      intro connection found'
      obtain rfl := Option.some.inj (found.symm.trans found')
      rfl
  · next found =>
      apply already
      intro connection found'
      rw [found] at found'
      cases found'
  · apply good.depart
    intro connection _
    exact ⟨rfl, rfl⟩

/-- Nobody but the last client to come is there. -/
theorem Good.last {floor : Floor E} (good : floor.Good) {n : Nat} {visit : Visit E}
    (found : floor.visits[n]? = some visit) (present : visit.present = true) :
    n + 1 = floor.service.connections.length := by
  have within := (List.getElem?_eq_some_iff.mp found).1
  rw [good.lengths] at within
  have served := good.serves n visit _ found (List.getElem?_eq_getElem within)
  exact (good.registered_iff n).mp (served.2 present).2

theorem recorded_present (visit : Visit E) (event : E) :
    (if visit.present then { visit with owed := visit.owed ++ [event] } else visit).present =
      visit.present := by
  split <;> rfl

theorem recorded_owed (visit : Visit E) (event : E) :
    (if visit.present then { visit with owed := visit.owed ++ [event] } else visit).owed =
      visit.owed ++ if visit.present then [event] else [] := by
  split
  · rfl
  · exact (List.append_nil _).symm

/-- All clients but the one that came last are gone, so a broadcast is owed to that one alone. -/
theorem Good.recorded {floor : Floor E} (good : floor.Good) {last : Nat}
    (count : floor.service.connections.length = last + 1) (event : E) :
    (floor.visits.map fun visit =>
        if visit.present then { visit with owed := visit.owed ++ [event] } else visit) =
      floor.visits.modify last fun visit =>
        if visit.present then { visit with owed := visit.owed ++ [event] } else visit := by
  apply List.ext_getElem?
  intro i
  rw [List.getElem?_map, List.getElem?_modify]
  cases found : floor.visits[i]? with
  | none => rfl
  | some visit =>
      by_cases here : last = i
      · simp [here]
      · have gone : visit.present = false := by
          by_contra present
          have := good.last found (Bool.not_eq_false _ ▸ present)
          omega
        simp [here, gone]

theorem Good.broadcast {floor : Floor E} (good : floor.Good) (event : E) :
    (floor.step (.broadcast event)).2.Good := by
  cases count : floor.service.connections.length with
  | zero =>
      have alone : floor.visits = [] := List.length_eq_zero_iff.mp (good.lengths.trans count)
      have silent : floor.service.clients = [] := by rw [good.clients, count, if_pos rfl]
      have unsent : floor.service.clients.foldl (fun connections client =>
          connections.modify client.2 (send event)) floor.service.connections =
            floor.service.connections := by
        rw [silent, List.foldl_nil]
      have unrecorded : (floor.visits.map fun visit =>
          if visit.present then { visit with owed := visit.owed ++ [event] } else visit) =
            floor.visits := by
        rw [alone, List.map_nil]
      simp only [step, Service.broadcast, unsent, unrecorded]
      exact good
  | succ last =>
      have one : floor.service.clients = [("conn", last)] := by
        rw [good.clients, count, if_neg (Nat.succ_ne_zero last), Nat.add_sub_cancel]
      have sent : floor.service.clients.foldl (fun connections client =>
          connections.modify client.2 (send event)) floor.service.connections =
            floor.service.connections.modify last (send event) := by
        rw [one, List.foldl_cons, List.foldl_nil]
      simp only [step, Service.broadcast, sent, good.recorded count]
      apply good.modify
      · intro visit connection found found' owed
        rw [send_balance, owed, recorded_owed]
        cases present : visit.present with
        | true =>
            have opened := ((good.serves last visit connection found found').2 present).1
            rw [if_neg opened, if_pos rfl]
        | false =>
            have closed := good.absent last visit connection found found' present
            rw [if_pos closed, if_neg Bool.false_ne_true]
      · intro visit connection found found' present
        rw [recorded_present] at present
        rw [send_phase]
        exact ⟨present, ((good.serves last visit connection found found').2 present).1⟩
      · intro visit connection found found' gone
        rw [recorded_present] at gone
        rw [send_phase]
        exact good.absent last visit connection found found' gone

/-! ## Connections -/

/-- The new sender takes the place of the one before. -/
theorem Good.connect_clients {floor : Floor E} (good : floor.Good) :
    (floor.step .connect).2.service.clients = [("conn", floor.service.connections.length)] := by
  have replaced : floor.service.clients.register "conn" floor.service.connections.length =
      [("conn", floor.service.connections.length)] := by
    unfold EventBroadcaster.register
    rw [good.clients]
    split
    · rfl
    · rfl
  simp only [step, Service.onConnect]
  split
  · exact replaced
  · exact replaced

/-- The connection that comes is either rejected or open, with nothing sent yet. -/
theorem connect_connections (floor : Floor E) :
    ∃ phase : Phase, (floor.step .connect).2.service.connections =
        floor.service.connections ++ [⟨phase, [], []⟩] ∧
      (phase = .closed ↔ floor.service.onConnect.1 = false) := by
  simp only [step, Service.onConnect]
  split
  · exact ⟨.closed, rfl, by simp⟩
  · exact ⟨.upgrading, rfl, by simp⟩

/-- Nobody who was there is registered any more. -/
theorem Good.connect_silences {floor : Floor E} (good : floor.Good) {n : Nat}
    (before : n < floor.service.connections.length) :
    (floor.step .connect).2.service.registered n = false := by
  unfold Service.registered
  rw [good.connect_clients]
  simp only [List.any_cons, List.any_nil, Bool.or_false, decide_eq_false_iff_not]
  omega

theorem Good.connect_all {floor : Floor E} (good : floor.Good)
    {fact : Nat → Visit E → Connection E → Prop} (old : floor.All fact)
    (new : ∀ phase, (phase = .closed ↔ floor.service.onConnect.1 = false) →
      fact floor.service.connections.length ⟨floor.service.onConnect.1, []⟩ ⟨phase, [], []⟩) :
    (floor.step .connect).2.All fact := by
  obtain ⟨phase, connections, rejected⟩ := connect_connections floor
  intro n visit connection found found'
  rw [connections] at found'
  have visits : (floor.step .connect).2.visits =
    floor.visits ++ [⟨floor.service.onConnect.1, []⟩] := rfl
  rw [visits] at found
  rcases Nat.lt_trichotomy n floor.service.connections.length with before | rfl | after
  · rw [List.getElem?_append_left before] at found'
    rw [List.getElem?_append_left (good.lengths ▸ before)] at found
    exact old n visit connection found found'
  · rw [List.getElem?_append_right (Nat.le_refl _), Nat.sub_self] at found'
    rw [← good.lengths, List.getElem?_append_right (Nat.le_refl _), Nat.sub_self] at found
    cases found
    cases found'
    exact new phase rejected
  · have within := (List.getElem?_eq_some_iff.mp found').1
    simp at within
    omega

theorem Good.connect {floor : Floor E} (good : floor.Good) (empty : floor.Empty) :
    (floor.step .connect).2.Good where
  lengths := by
    obtain ⟨phase, connections, _⟩ := connect_connections floor
    rw [connections]
    simp [step, good.lengths]
  clients := by
    obtain ⟨phase, connections, _⟩ := connect_connections floor
    rw [good.connect_clients, connections]
    simp
  serves := by
    refine good.connect_all (fun n visit connection found found' => ?_) (fun phase rejected => ?_)
    · have gone := empty visit (List.mem_of_getElem? found)
      refine ⟨(good.serves n visit connection found found').1, fun present => ?_⟩
      rw [gone] at present
      cases present
    · refine ⟨rfl, fun present => ⟨fun closed => ?_, ?_⟩⟩
      · rw [rejected.mp closed] at present
        cases present
      · unfold Service.registered
        rw [good.connect_clients]
        simp
  absent :=
    good.connect_all good.absent fun _ rejected gone => rejected.mpr gone

/-- A connection is good for all exactly if nobody is there. -/
theorem Good.connect_serves_iff {floor : Floor E} (good : floor.Good) :
    (floor.step .connect).2.Serves ↔ floor.Empty := by
  refine ⟨fun serves visit member => ?_, fun empty => (good.connect empty).serves⟩
  obtain ⟨n, within, rfl⟩ := List.getElem_of_mem member
  by_contra present
  rw [Bool.not_eq_false] at present
  have before : n < floor.service.connections.length := good.lengths ▸ within
  obtain ⟨phase, connections, _⟩ := connect_connections floor
  have found : (floor.step .connect).2.visits[n]? = some floor.visits[n] := by
    simp only [step]
    rw [List.getElem?_append_left within, List.getElem?_eq_getElem within]
  have found' : (floor.step .connect).2.service.connections[n]? =
      some floor.service.connections[n] := by
    rw [connections, List.getElem?_append_left before, List.getElem?_eq_getElem before]
  have registered := ((serves n _ _ found found').2 present).2
  rw [good.connect_silences before] at registered
  cases registered

/-! ## Runs of the service -/

/-- Every client that comes finds nobody there. -/
def Alone (floor : Floor E) (action : ClientAction E) : Prop :=
  match action with
  | .connect => floor.Empty
  | .upgrade _ | .broadcast _ | .forward _ | .leave _ => True

theorem Good.step {floor : Floor E} (good : floor.Good) (action : ClientAction E)
    (serves : (floor.step action).2.Serves) : (floor.step action).2.Good := by
  cases action with
  | connect => exact good.connect (good.connect_serves_iff.mp serves)
  | upgrade n => exact good.upgrade n
  | broadcast event => exact good.broadcast event
  | forward n => exact good.forward n
  | leave n => exact good.leave n

theorem Good.step_serves_iff {floor : Floor E} (good : floor.Good) (action : ClientAction E) :
    (floor.step action).2.Serves ↔ floor.Alone action := by
  cases action with
  | connect => exact good.connect_serves_iff
  | upgrade n => exact iff_of_true (good.upgrade n).serves trivial
  | broadcast event => exact iff_of_true (good.broadcast event).serves trivial
  | forward n => exact iff_of_true (good.forward n).serves trivial
  | leave n => exact iff_of_true (good.leave n).serves trivial

/-- In every run, all clients are served throughout exactly if no client comes while another one is
    there. -/
theorem run_serves_iff (max : Nat) (actions : List (ClientAction E)) :
    (∀ x ∈ Machine.history step ⟨{ max := max }, []⟩ actions, x.after.Serves) ↔
      ∀ x ∈ Machine.history step ⟨{ max := max }, []⟩ actions, x.before.Alone x.event :=
  @Machine.history_exact (Floor E) (ClientAction E) Unit step Good Alone (fun x => x.after.Serves)
    (fun _ action good => good.step_serves_iff action) (fun _ action good => good.step action) _
    (start_good max) actions

/-! ## What a connection gets -/

/-- What has been sent on a connection, with what is still in its channel. -/
def total (floor : Floor E) (n : Nat) : Option (List E) :=
  floor.service.connections[n]?.map fun connection => connection.sent ++ connection.channel

/-- As long as nothing else happens, forwarding sends all that is in the channel. -/
theorem forward_drains {floor : Floor E} {n : Nat} {channel sent : List E}
    (found : floor.service.connections[n]? = some ⟨.connected, channel, sent⟩) :
    (Machine.final step floor (List.replicate channel.length (.forward n))).service.connections[n]? =
      some ⟨.connected, [], sent ++ channel⟩ := by
  induction channel generalizing floor sent with
  | nil => simpa using found
  | cons event rest ih =>
      have next : (floor.step (.forward n)).2.service.connections[n]? =
          some ⟨.connected, rest, sent ++ [event]⟩ := by
        simp only [step, Service.forward, found, List.getElem?_modify_eq]
        rfl
      rw [List.length_cons, List.replicate_succ, Machine.final_cons, ih next]
      simp

theorem total_modify {floor : Floor E} {n i active : Nat} {visits : List (Visit E)}
    {change : Connection E → Connection E} (balance : n = i → ∀ connection,
      floor.service.connections[i]? = some connection →
      (change connection).sent ++ (change connection).channel = connection.sent ++ connection.channel) :
    total ⟨{ floor.service with
      connections := floor.service.connections.modify i change, active := active }, visits⟩ n =
      floor.total n := by
  unfold total
  by_cases here : i = n
  · subst here
    rw [List.getElem?_modify_eq]
    cases found : floor.service.connections[i]? with
    | none => rfl
    | some connection => exact congrArg some (balance rfl connection found)
  · rw [List.getElem?_modify_ne _ _ here]

/-- A broadcast passes by a connection whose sender is gone. -/
theorem broadcast_total {floor : Floor E} {n : Nat} (silent : floor.service.registered n = false)
    (event : E) : (floor.step (.broadcast event)).2.total n = floor.total n := by
  unfold total
  simp only [step, Service.broadcast]
  congr 1
  unfold Service.registered at silent
  generalize floor.service.connections = connections
  generalize floor.service.clients = clients at silent ⊢
  induction clients generalizing connections with
  | nil => rfl
  | cons client rest ih =>
      rw [List.any_cons, Bool.or_eq_false_iff, decide_eq_false_iff_not] at silent
      rw [List.foldl_cons, ih _ silent.2, List.getElem?_modify_ne _ _ silent.1]

/-- A connection has lost its sender. -/
def Silenced (floor : Floor E) (n : Nat) : Prop :=
  n < floor.service.connections.length ∧ floor.service.registered n = false

theorem Silenced.connect {floor : Floor E} {n : Nat} (silenced : floor.Silenced n) :
    (floor.step .connect).2.Silenced n ∧ (floor.step .connect).2.total n = floor.total n := by
  obtain ⟨within, silent⟩ := silenced
  obtain ⟨phase, connections, _⟩ := connect_connections floor
  have clients : (floor.step .connect).2.service.clients =
      floor.service.clients.register "conn" floor.service.connections.length := by
    simp only [step, Service.onConnect]
    split
    · rfl
    · rfl
  refine ⟨⟨?_, ?_⟩, ?_⟩
  · rw [connections, List.length_append]
    omega
  · unfold Service.registered at silent ⊢
    rw [clients, EventBroadcaster.register, List.any_cons, Bool.or_eq_false_iff]
    constructor
    · simp
      omega
    · rw [List.any_eq_false] at silent ⊢
      intro client member
      exact silent client (List.mem_filter.mp member).1
  · unfold total
    rw [connections, List.getElem?_append_left within]

theorem broadcast_length (clients : EventBroadcaster) (event : E) (connections : List (Connection E)) :
    (clients.foldl (fun connections client =>
      connections.modify client.2 (send event)) connections).length = connections.length := by
  induction clients generalizing connections with
  | nil => rfl
  | cons client rest ih => rw [List.foldl_cons, ih, List.length_modify]

theorem Silenced.step {floor : Floor E} {n : Nat} (silenced : floor.Silenced n)
    (action : ClientAction E) :
    (floor.step action).2.Silenced n ∧ (floor.step action).2.total n = floor.total n := by
  have modified {i active : Nat} {visits : List (Visit E)} {change : Connection E → Connection E} :
      Silenced ⟨{ floor.service with
        connections := floor.service.connections.modify i change, active := active }, visits⟩ n :=
    ⟨by rw [List.length_modify]; exact silenced.1, silenced.2⟩
  cases action with
  | connect => exact silenced.connect
  | broadcast event =>
      refine ⟨⟨?_, silenced.2⟩, broadcast_total silenced.2 event⟩
      simp only [Floor.step, Service.broadcast, broadcast_length]
      exact silenced.1
  | upgrade i =>
      refine ⟨modified, total_modify fun _ connection _ => ?_⟩
      cases connection.phase with
      | upgrading | connected | closed => rfl
  | forward i =>
      simp only [Floor.step, Service.forward]
      split
      · next event rest sent found =>
          refine ⟨modified, total_modify fun _ connection found' => ?_⟩
          obtain rfl := Option.some.inj (found.symm.trans found')
          exact List.append_assoc ..
      · split
        · exact ⟨silenced, rfl⟩
        · exact ⟨modified, total_modify fun _ _ _ => rfl⟩
      · exact ⟨silenced, rfl⟩
  | leave i =>
      simp only [Floor.step, Service.leave]
      split
      · exact ⟨silenced, rfl⟩
      · exact ⟨silenced, rfl⟩
      · exact ⟨modified, total_modify fun _ _ _ => rfl⟩

/-- A client whose sender is gone gets nothing of what is broadcast from then on, whatever happens. -/
theorem silenced_total {floor : Floor E} {n : Nat} (silenced : floor.Silenced n)
    (actions : List (ClientAction E)) :
    (Machine.final step floor actions).total n = floor.total n := by
  induction actions generalizing floor with
  | nil => rfl
  | cons action rest ih =>
      obtain ⟨still, same⟩ := silenced.step action
      rw [Machine.final_cons, ih still, same]

/-- And once it has been sent what is in its channel, its connection is closed. -/
theorem silenced_ends {floor : Floor E} {n : Nat} (silenced : floor.Silenced n) {sent : List E}
    (found : floor.service.connections[n]? = some ⟨.connected, [], sent⟩) :
    (floor.step (.forward n)).2.service.connections[n]? = some ⟨.closed, [], sent⟩ := by
  simp only [step, Service.forward, found, silenced.2, Bool.false_eq_true, ↓reduceIte, Service.close,
    List.getElem?_modify_eq]
  rfl

end Floor

/-- When a second client comes, the first one gets nothing of what is broadcast then. -/
theorem second_client_silences_first : ¬ ∀ (max : Nat) (actions : List (ClientAction Nat)),
    ∀ x ∈ Machine.history Floor.step ⟨{ max := max }, []⟩ actions, x.after.Serves := by
  intro all
  have serves := all 100 [.connect, .connect, .broadcast 7] _ (List.getLast_mem (by decide))
  have lost := (serves 0 ⟨true, [7]⟩ ⟨.upgrading, [], []⟩ rfl rfl).1
  cases lost

end AgileAgent.Daemon
