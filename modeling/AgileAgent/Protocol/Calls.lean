import Mathlib.Data.List.Count
import AgileAgent.Protocol.Server

/-! # Calls of a client

A client and the daemon with the two directions of their connection. Callers hand requests to the
task of the client, which numbers nothing: a reply finds its caller by the id of the request. What
happens is taken in any order, and either side may end the connection at any time.
-/

namespace AgileAgent.Protocol

open DecisionDsl (Json)

/-! ## Both ends -/

/-- A request on its way, and whether somebody waits for the reply. -/
structure ClientRequest where
  id : String
  text : Text
  waits : Bool

/-- What the caller of a request gets. -/
inductive Outcome where
  | answered (reply : Reply)
  /-- The task failed what was pending when it ended. -/
  | closed
  /-- The task is gone, or went before it took the request. -/
  | dropped

universe u v

/-- What the daemon writes. -/
inductive Frame (E : Type v) where
  | reply (reply : Reply)
  | event (event : E)

/-- A value that is `null` is read as none. -/
def absent : Option Json → Option Json
  | some .null => none
  | value => value

def Reply.received : Reply → Reply
  | .response id result => .response id (absent result)
  | .error id failure => .error id { failure with data := absent failure.data }

@[simp] theorem Reply.received_id (reply : Reply) : reply.received.id = reply.id := by
  cases reply with
  | response id result => rfl
  | error id failure => rfl

/-- The client, the daemon and what is under way between them. The last fields record what happened. -/
structure Link (σ : Type u) (E : Type v) where
  queue : List ClientRequest := []
  pending : List String := []
  outcomes : List (String × Outcome) := []
  seen : List E := []
  strays : List Reply := []
  clientOpen : Bool := true
  up : List ClientRequest := []
  down : List (Frame E) := []
  serverOpen : Bool := true
  conn : Connection := {}
  session : σ
  asked : List ClientRequest := []
  read : List ClientRequest := []
  served : List (ClientRequest × Reply) := []
  unanswered : List ClientRequest := []
  unsent : List ClientRequest := []
  forwarded : List E := []

inductive Operation (σ : Type u) (E : Type v) where
  | call (uuid method : String) (params : Option Json) (chars : Nat)
  | notify (uuid method : String) (params : Option Json) (chars : Nat)
  /-- The task of the client takes a request and writes it. -/
  | send (written : Bool)
  /-- The task of the client reads what comes next. -/
  | receive
  /-- The task of the client ends with an error of its socket. -/
  | fail
  /-- The daemon reads the next text and writes the reply. -/
  | serve (now : Nat) (written : Bool)
  | forward (event : E) (written : Bool)
  | hangUp
  /-- Somebody else changes the session. -/
  | change (session : σ)

variable {σ : Type u} {E : Type v}

namespace ClientRequest

/-- `call`: the request is written under a new id. -/
def ofCall (uuid method : String) (params : Option Json) (chars : Nat) : ClientRequest :=
  let request : Request := { id := "req-" ++ uuid, method, params := absent params }
  { id := request.id, waits := true, text := { chars, message := some (.request request) } }

/-- `notify`: what is written has no id. -/
def ofNotify (uuid method : String) (params : Option Json) (chars : Nat) : ClientRequest :=
  { id := "notif-" ++ uuid, waits := false
    text := { chars, message := some (.notification method (absent params)) } }

end ClientRequest

def Operation.request? : Operation σ E → Option ClientRequest
  | .call uuid method params chars => some (.ofCall uuid method params chars)
  | .notify uuid method params chars => some (.ofNotify uuid method params chars)
  | _ => none

namespace Link

def ask (link : Link σ E) (request : ClientRequest) : Link σ E :=
  if link.clientOpen then
    { link with queue := link.queue ++ [request], asked := link.asked ++ [request] }
  else
    { link with
      outcomes := link.outcomes ++ [(request.id, .dropped)], asked := link.asked ++ [request] }

/-- The task of the client ends: it fails what is pending, and its queue goes with it. -/
def shut (link : Link σ E) : Link σ E :=
  { link with
    clientOpen := false
    pending := []
    queue := []
    outcomes := link.outcomes ++ link.pending.map (fun id => (id, .closed)) ++
      link.queue.map fun request => (request.id, .dropped) }

/-- An id that is registered again takes the place of the earlier one. -/
def register (link : Link σ E) (id : String) : Link σ E :=
  if id ∈ link.pending then { link with outcomes := link.outcomes ++ [(id, .dropped)] }
  else { link with pending := id :: link.pending }

def send (link : Link σ E) (written : Bool) : Link σ E :=
  match link.clientOpen, link.queue with
  | true, request :: rest =>
      let link := { link with queue := rest }.register request.id
      if written then { link with up := link.up ++ [request] } else link.shut
  | _, _ => link

def receive (link : Link σ E) : Link σ E :=
  match link.clientOpen, link.down with
  | true, .event event :: rest => { link with down := rest, seen := link.seen ++ [event] }
  | true, .reply reply :: rest =>
      if reply.id ∈ link.pending then
        { link with
          down := rest, pending := link.pending.erase reply.id
          outcomes := link.outcomes ++ [(reply.id, .answered reply)] }
      else { link with down := rest, strays := link.strays ++ [reply] }
  | true, [] => if link.serverOpen then link else link.shut
  | false, _ => link

def serve (router : Router σ) (link : Link σ E) (now : Nat) (written : Bool) : Link σ E :=
  match link.serverOpen, link.up with
  | true, request :: rest =>
      let served := link.conn.serve router link.session request.text now
      let link :=
        { link with
          up := rest, conn := served.2.1, session := served.2.2, read := link.read ++ [request] }
      match served.1.reply with
      | none => { link with unanswered := link.unanswered ++ [request] }
      | some reply =>
          if written then
            { link with
              down := link.down ++ [.reply reply.received]
              served := if request.waits then link.served ++ [(request, reply.received)] else link.served
              unanswered := if request.waits then link.unanswered else link.unanswered ++ [request] }
          else { link with unsent := link.unsent ++ [request], serverOpen := !served.1.checked }
  | _, _ => link

def forward (link : Link σ E) (event : E) (written : Bool) : Link σ E :=
  if link.serverOpen then
    if written then
      { link with down := link.down ++ [.event event], forwarded := link.forwarded ++ [event] }
    else { link with serverOpen := false }
  else link

def apply (router : Router σ) (link : Link σ E) : Operation σ E → Link σ E
  | .call uuid method params chars => link.ask (.ofCall uuid method params chars)
  | .notify uuid method params chars => link.ask (.ofNotify uuid method params chars)
  | .send written => link.send written
  | .receive => link.receive
  | .fail => if link.clientOpen then link.shut else link
  | .serve now written => link.serve router now written
  | .forward event written => link.forward event written
  | .hangUp => { link with serverOpen := false }
  | .change session => { link with session }

def run (router : Router σ) (link : Link σ E) (operations : List (Operation σ E)) : Link σ E :=
  operations.foldl (apply router) link

end Link

/-! ## What is written -/

namespace ClientRequest

/-- A request has an id of its own, and its text says so exactly if somebody waits. -/
structure Written (r : ClientRequest) : Prop where
  named : r.id ≠ ""
  uncut : r.text.start = none
  message :
    if r.waits then
      ∃ request : Request, r.text.message = some (.request request) ∧ request.id = r.id
    else ∃ method params, r.text.message = some (.notification method params)

theorem append_ne_empty {front : String} (named : front ≠ "") (back : String) :
    front ++ back ≠ "" := by
  intro empty
  exact named (String.append_eq_empty_iff.mp empty).1

theorem ofCall_written (uuid method : String) (params : Option Json) (chars : Nat) :
    (ofCall uuid method params chars).Written where
  named := append_ne_empty (by decide) uuid
  uncut := rfl
  message := ⟨_, rfl, rfl⟩

theorem ofNotify_written (uuid method : String) (params : Option Json) (chars : Nat) :
    (ofNotify uuid method params chars).Written where
  named := append_ne_empty (by decide) uuid
  uncut := rfl
  message := ⟨_, _, rfl⟩

variable {r : ClientRequest} {router : Router σ} {conn : Connection} {session : σ} {now : Nat}

/-- A text that brings a request brings the one it was written for. -/
theorem Written.admitted (written : r.Written) {req : Request}
    (brings : conn.admitted r.text now = some req) : r.waits = true ∧ req.id = r.id := by
  have kept : r.text.kept = some (.request req) := by
    unfold Connection.admitted at brings
    split at brings
    · split at brings
      · next same => exact same.trans (by simpa using brings)
      · cases brings
    · cases brings
  have whole : r.text.message = some (.request req) := by
    unfold Text.kept at kept
    split at kept
    · rw [written.uncut] at kept
      cases kept
    · exact kept
  have message := written.message
  rw [whole] at message
  split at message
  · next waits =>
      obtain ⟨request, same, named⟩ := message
      cases same
      exact ⟨waits, named⟩
  · obtain ⟨method, params, same⟩ := message
    cases same

/-- A reply to a request bears its id, and one to a notification is for nobody. -/
theorem Written.reply_id (written : r.Written) {reply : Reply}
    (answers : (conn.serve router session r.text now).1.reply = some reply) :
    reply.id = if r.waits then r.id else "" := by
  have served := Connection.serve_served router conn session r.text now
  generalize conn.serve router session r.text now = result at served answers
  cases served with
  | limited exceeded =>
      cases answers
      have message := written.message
      split at message
      · next waits =>
          obtain ⟨request, whole, named⟩ := message
          simp [Reply.id, Text.request?, whole, waits, named]
      · next silent =>
          obtain ⟨method, params, whole⟩ := message
          simp [Reply.id, Text.request?, whole, silent]
  | silent checked under brings => cases answers
  | refused req failure brings refuses =>
      cases answers
      obtain ⟨waits, named⟩ := written.admitted brings
      simp [Reply.id, waits, named]
  | answered req answer brings lets result =>
      cases answers
      obtain ⟨waits, named⟩ := written.admitted brings
      simp [Router.dispatch_id result, waits, named]
  | failed req failure brings lets fails =>
      cases answers
      obtain ⟨waits, named⟩ := written.admitted brings
      simp [Reply.id, waits, named]

/-- A request gets no reply only if its text is over the limit of the daemon. -/
theorem Written.over_limit (written : r.Written) (waits : r.waits = true)
    (silent : (conn.serve router session r.text now).1.reply = none) :
    maxInputSize < r.text.chars := by
  have served := Connection.serve_served router conn session r.text now
  generalize conn.serve router session r.text now = result at served silent
  have message := written.message
  rw [if_pos waits] at message
  obtain ⟨request, whole, -⟩ := message
  cases served with
  | silent checked under brings =>
      by_contra within
      simp [Connection.admitted, under, Text.kept, within, whole] at brings
  | limited | refused | answered | failed => cases silent

end ClientRequest

/-! ## What is kept -/

def ids (requests : List ClientRequest) : List String := requests.map ClientRequest.id

def Frame.reply? : Frame E → Option String
  | .reply answer => some answer.id
  | .event _ => none

def Frame.event? : Frame E → Option E
  | .reply _ => none
  | .event happened => some happened

namespace Link

/-- Every request is in the queue, pending or settled; the daemon has read requests in the order in
    which they were made; what is answered was served under that id; events keep their order. -/
structure Sound (link : Link σ E) : Prop where
  written : ∀ r ∈ link.asked, r.Written
  order : (link.read ++ link.up ++ link.queue).Sublist link.asked
  conserved : ∀ id, (ids link.queue).count id + link.pending.count id +
    (link.outcomes.map Prod.fst).count id = (ids link.asked).count id
  inOrder : (link.served.map Prod.fst).Sublist link.read
  replied : ∀ reply, .reply reply ∈ link.down →
    reply.id = "" ∨ ∃ r, (r, reply) ∈ link.served ∧ r.id = reply.id
  answered : ∀ id reply, (id, .answered reply) ∈ link.outcomes →
    reply.id = id ∧ ∃ r, (r, reply) ∈ link.served ∧ r.id = id
  silent : ∀ r ∈ link.unanswered, r ∈ link.read ∧ (r.waits = true → maxInputSize < r.text.chars)
  unwritten : ∀ r ∈ link.unsent, r ∈ link.read
  settled : link.clientOpen = false → link.queue = [] ∧ link.pending = []
  events : link.forwarded = link.seen ++ link.down.filterMap Frame.event?

/-- As long as the task of the client runs, what is pending is on its way or was left without a
    reply. -/
structure Kept (link : Link σ E) : Prop extends Sound link where
  inFlight : link.clientOpen = true → ∀ id, id ≠ "" → link.pending.count id =
    (ids link.up).count id + (link.down.filterMap Frame.reply?).count id +
      (ids link.unanswered).count id + (ids link.unsent).count id

variable {link : Link σ E}

theorem start_kept (conn : Connection) (session : σ) : Kept ({ conn, session } : Link σ E) where
  written := by simp
  order := List.Sublist.refl _
  conserved := by simp [ids]
  inOrder := List.Sublist.refl _
  replied := by simp
  answered := by simp
  silent := by simp
  unwritten := by simp
  settled := fun _ => ⟨rfl, rfl⟩
  events := rfl
  inFlight := by simp [ids]

theorem ask_kept (kept : Kept link) {request : ClientRequest} (written : request.Written) :
    Kept (link.ask request) := by
  have allWritten : ∀ r ∈ link.asked ++ [request], r.Written := by
    simp only [List.forall_mem_append, List.forall_mem_singleton]
    exact ⟨kept.written, written⟩
  unfold ask
  split
  · refine { kept with written := allWritten, order := ?_, conserved := ?_, settled := ?_ }
    · rw [← List.append_assoc]
      exact kept.order.append (List.Sublist.refl _)
    · intro id
      have before := kept.conserved id
      simp only [ids, List.map_append, List.count_append] at before ⊢
      omega
    · next runs =>
        intro shuts
        rw [runs] at shuts
        cases shuts
  · refine { kept with written := allWritten, order := ?_, conserved := ?_, answered := ?_ }
    · exact kept.order.trans (List.sublist_append_left _ _)
    · intro id
      have before := kept.conserved id
      simp only [ids, List.map_append, List.map_cons, List.map_nil, List.count_append] at before ⊢
      omega
    · simpa using kept.answered

theorem shut_kept (sound : Sound link) : Kept link.shut := by
  refine { sound with order := ?_, conserved := ?_, answered := ?_, settled := ?_, inFlight := ?_ }
  · rw [show link.shut.queue = [] from rfl, List.append_nil]
    exact (List.sublist_append_left _ _).trans sound.order
  · intro id
    have before := sound.conserved id
    have fails : (link.pending.map fun id => (id, Outcome.closed)).map Prod.fst = link.pending := by
      simp [List.map_map, Function.comp_def]
    have drops : (link.queue.map fun r => (r.id, Outcome.dropped)).map Prod.fst = ids link.queue := by
      simp [List.map_map, Function.comp_def, ids]
    simp only [shut, List.map_append, List.count_append, fails, drops, ids, List.map_nil,
      List.count_nil] at before ⊢
    omega
  · intro id reply member
    simp only [shut, List.mem_append, List.mem_map, Prod.mk.injEq, reduceCtorEq, and_false,
      exists_false, or_false] at member
    exact sound.answered id reply member
  · exact fun _ => ⟨rfl, rfl⟩
  · intro runs
    cases runs

/-- Nobody waits yet under the id of a request that is in the queue. -/
theorem unregistered (sound : Sound link) (distinct : (ids link.asked).Nodup) {request : ClientRequest}
    {rest : List ClientRequest} (next : link.queue = request :: rest) : request.id ∉ link.pending := by
  have total := sound.conserved request.id
  have once := List.nodup_iff_count_le_one.mp distinct request.id
  rw [next, ids, List.map_cons, List.count_cons_self] at total
  rw [← List.count_eq_zero]
  omega

theorem send_kept (kept : Kept link) (distinct : (ids link.asked).Nodup) (written : Bool) :
    Kept (link.send written) := by
  unfold send
  split
  · next request rest runs next =>
      have registers : ({ link with queue := rest } : Link σ E).register request.id =
          { link with queue := rest, pending := request.id :: link.pending } :=
        if_neg (unregistered kept.toSound distinct next)
      simp only [registers]
      have taken (id : String) : (ids rest).count id + (request.id :: link.pending).count id +
          (link.outcomes.map Prod.fst).count id = (ids link.asked).count id := by
        have before := kept.conserved id
        simp only [next, ids, List.map_cons, List.count_cons] at before ⊢
        omega
      split
      · refine { kept with order := ?_, conserved := taken, settled := ?_, inFlight := ?_ }
        · have order := kept.order
          rw [next] at order
          simpa using order
        · intro shuts
          rw [runs] at shuts
          cases shuts
        · intro _ id named
          have before := kept.inFlight runs id named
          simp only [ids, List.map_append, List.map_cons, List.map_nil, List.count_append,
            List.count_cons, List.count_nil] at before ⊢
          omega
      · refine shut_kept { kept with order := ?_, conserved := taken, settled := ?_ }
        · have order := kept.order
          rw [next] at order
          exact ((List.sublist_cons_self request rest).append_left _).trans order
        · intro shuts
          rw [runs] at shuts
          cases shuts
  · exact kept

theorem receive_kept (kept : Kept link) : Kept link.receive := by
  unfold receive
  split
  · next event rest runs next =>
      refine { kept with replied := ?_, events := ?_, inFlight := ?_ }
      · intro reply member
        exact kept.replied reply (by rw [next]; exact List.mem_cons_of_mem _ member)
      · have events := kept.events
        rw [next] at events
        simpa [Frame.event?, List.filterMap_cons] using events
      · intro _ id named
        have before := kept.inFlight runs id named
        rw [next] at before
        simpa [Frame.reply?, List.filterMap_cons] using before
  · next reply rest runs next =>
      have served := kept.replied reply (by rw [next]; exact List.mem_cons_self)
      have later (other : Reply) (member : .reply other ∈ rest) : other.id = "" ∨
          ∃ r, (r, other) ∈ link.served ∧ r.id = other.id :=
        kept.replied other (by rw [next]; exact List.mem_cons_of_mem _ member)
      have events : link.forwarded = link.seen ++ rest.filterMap Frame.event? := by
        have events := kept.events
        rw [next] at events
        simpa [Frame.event?, List.filterMap_cons] using events
      have flight (id : String) (named : id ≠ "") : link.pending.count id =
          (ids link.up).count id + (reply.id :: rest.filterMap Frame.reply?).count id +
            (ids link.unanswered).count id + (ids link.unsent).count id := by
        have before := kept.inFlight runs id named
        rw [next] at before
        simpa [Frame.reply?, List.filterMap_cons] using before
      split
      · next waits =>
          have asked : reply.id ∈ ids link.asked := by
            have total := kept.conserved reply.id
            have := List.count_pos_iff.mpr waits
            exact List.count_pos_iff.mp (by omega)
          obtain ⟨r, member, same⟩ := List.mem_map.mp asked
          have named : reply.id ≠ "" := same ▸ (kept.written r member).named
          refine { kept with
              conserved := ?_, replied := later, answered := ?_, settled := ?_, events := events,
              inFlight := ?_ }
          · intro id
            have before := kept.conserved id
            have pending := List.count_pos_iff.mpr waits
            simp only [List.map_append, List.map_cons, List.map_nil, List.count_append,
              List.count_erase, List.count_cons, List.count_nil] at before ⊢
            grind
          · intro id answer member
            simp only [List.mem_append, List.mem_singleton, Prod.mk.injEq,
              Outcome.answered.injEq] at member
            rcases member with before | ⟨rfl, rfl⟩
            · exact kept.answered id answer before
            · exact ⟨rfl, served.resolve_left named⟩
          · intro shuts
            rw [runs] at shuts
            cases shuts
          · intro _ id named
            have before := flight id named
            simp only [List.count_erase, List.count_cons] at before ⊢
            grind
      · next stray =>
          refine { kept with replied := later, events := events, inFlight := ?_ }
          intro _ id named
          have before := flight id named
          rw [List.count_cons] at before
          have apart : ¬ (reply.id == id) = true := by
            intro same
            rw [beq_iff_eq] at same
            subst same
            have none := List.count_eq_zero.mpr stray
            simp only [BEq.rfl, if_true] at before
            omega
          rw [if_neg apart] at before
          exact before
  · next runs next =>
      split
      · exact kept
      · exact shut_kept kept.toSound
  · exact kept

theorem serve_kept (router : Router σ) (kept : Kept link) (now : Nat) (written : Bool) :
    Kept (link.serve router now written) := by
  unfold serve
  split
  · next request rest runs next =>
      have asked : request ∈ link.asked := kept.order.mem (by simp [next])
      have order : (link.read ++ [request] ++ rest ++ link.queue).Sublist link.asked := by
        have order := kept.order
        rw [next] at order
        simpa using order
      have grown {r : ClientRequest} (member : r ∈ link.read) : r ∈ link.read ++ [request] :=
        List.mem_append_left _ member
      have inOrder := kept.inOrder.trans (List.sublist_append_left link.read [request])
      have silent : ∀ r ∈ link.unanswered, r ∈ link.read ++ [request] ∧
          (r.waits = true → maxInputSize < r.text.chars) :=
        fun r member => ⟨grown (kept.silent r member).1, (kept.silent r member).2⟩
      have unwritten : ∀ r ∈ link.unsent, r ∈ link.read ++ [request] :=
        fun r member => grown (kept.unwritten r member)
      have flight (id : String) (open_ : link.clientOpen = true) (named : id ≠ "") :
          link.pending.count id = (ids [request]).count id + (ids rest).count id +
            (link.down.filterMap Frame.reply?).count id + (ids link.unanswered).count id +
              (ids link.unsent).count id := by
        have before := kept.inFlight open_ id named
        simp only [next, ids, List.map_cons, List.map_nil, List.count_cons, List.count_nil] at before ⊢
        omega
      dsimp only
      split
      · next quiet =>
          refine { kept with
              order := order, inOrder := inOrder, silent := ?_, unwritten := unwritten,
              inFlight := ?_ }
          · simp only [List.forall_mem_append, List.forall_mem_singleton]
            exact ⟨silent, List.mem_append_right _ (List.mem_singleton_self _),
              fun waits => (kept.written request asked).over_limit waits quiet⟩
          · intro open_ id named
            have before := flight id open_ named
            simp only [ids, List.map_append, List.count_append] at before ⊢
            omega
      · next reply answers =>
          have named := (kept.written request asked).reply_id answers
          split
          · cases waits : request.waits with
            | true =>
                rw [if_pos waits] at named
                simp only [if_true]
                refine { kept with
                    order := order, inOrder := ?_, replied := ?_, answered := ?_,
                    silent := silent, unwritten := unwritten, events := ?_, inFlight := ?_ }
                · rw [List.map_append]
                  exact kept.inOrder.append (List.Sublist.refl _)
                · intro other member
                  simp only [List.mem_append, List.mem_singleton, Frame.reply.injEq] at member
                  rcases member with before | rfl
                  · rcases kept.replied other before with none | ⟨r, member, same⟩
                    · exact .inl none
                    · exact .inr ⟨r, List.mem_append_left _ member, same⟩
                  · exact .inr ⟨request, List.mem_append_right _ (List.mem_singleton_self _),
                      by simp [named]⟩
                · intro id answer member
                  obtain ⟨same, r, inside, mine⟩ := kept.answered id answer member
                  exact ⟨same, r, List.mem_append_left _ inside, mine⟩
                · simpa [Frame.event?, List.filterMap_cons] using kept.events
                · intro open_ id apart
                  have before := flight id open_ apart
                  have last : ([Frame.reply reply.received].filterMap (@Frame.reply? E)).count id =
                      (ids [request]).count id := by
                    simp [Frame.reply?, ids, named]
                  simp only [List.filterMap_append, List.count_append, last]
                  omega
            | false =>
                rw [if_neg (by simp [waits])] at named
                simp only [Bool.false_eq_true, if_false]
                refine { kept with
                    order := order, inOrder := inOrder, replied := ?_, silent := ?_,
                    unwritten := unwritten, events := ?_, inFlight := ?_ }
                · intro other member
                  simp only [List.mem_append, List.mem_singleton, Frame.reply.injEq] at member
                  rcases member with before | rfl
                  · exact kept.replied other before
                  · exact .inl (by simp [named])
                · simp only [List.forall_mem_append, List.forall_mem_singleton]
                  refine ⟨silent, List.mem_append_right _ (List.mem_singleton_self _),
                    fun waits' => ?_⟩
                  rw [waits] at waits'
                  cases waits'
                · simpa [Frame.event?, List.filterMap_cons] using kept.events
                · intro open_ id apart
                  have before := flight id open_ apart
                  have last :
                      ([Frame.reply reply.received].filterMap (@Frame.reply? E)).count id = 0 := by
                    simp [Frame.reply?, named, apart.symm]
                  simp only [List.filterMap_append, List.count_append, last, ids,
                    List.map_append] at before ⊢
                  omega
          · refine { kept with
                order := order, inOrder := inOrder, silent := silent, unwritten := ?_,
                inFlight := ?_ }
            · simp only [List.forall_mem_append, List.forall_mem_singleton]
              exact ⟨unwritten, List.mem_append_right _ (List.mem_singleton_self _)⟩
            · intro open_ id apart
              have before := flight id open_ apart
              simp only [ids, List.map_append, List.count_append] at before ⊢
              omega
  · exact kept

theorem forward_kept (kept : Kept link) (event : E) (written : Bool) :
    Kept (link.forward event written) := by
  unfold forward
  split
  · split
    · refine { kept with replied := ?_, events := ?_, inFlight := ?_ }
      · intro reply member
        simp only [List.mem_append, List.mem_singleton, reduceCtorEq, or_false] at member
        exact kept.replied reply member
      · simp [Frame.event?, kept.events]
      · intro open_ id named
        simpa [Frame.reply?, List.filterMap_cons] using kept.inFlight open_ id named
    · exact { kept with }
  · exact kept

/-- Whatever happens next, all this is kept as long as no two requests have one id. -/
theorem apply_kept (router : Router σ) (kept : Kept link) (distinct : (ids link.asked).Nodup)
    (operation : Operation σ E) : Kept (link.apply router operation) := by
  cases operation with
  | call uuid method params chars => exact ask_kept kept (ClientRequest.ofCall_written ..)
  | notify uuid method params chars => exact ask_kept kept (ClientRequest.ofNotify_written ..)
  | send written => exact send_kept kept distinct written
  | receive => exact receive_kept kept
  | serve now written => exact serve_kept router kept now written
  | forward event written => exact forward_kept kept event written
  | hangUp => exact { kept with }
  | change session => exact { kept with }
  | fail =>
      change Kept (if link.clientOpen then link.shut else link)
      split
      · exact shut_kept kept.toSound
      · exact kept

theorem ask_asked (request : ClientRequest) : (link.ask request).asked = link.asked ++ [request] := by
  unfold ask
  split
  · rfl
  · rfl

theorem apply_asked (router : Router σ) (operation : Operation σ E) :
    (link.apply router operation).asked = link.asked ++ operation.request?.toList := by
  cases operation with
  | call uuid method params chars => exact ask_asked _
  | notify uuid method params chars => exact ask_asked _
  | forward | hangUp | change | receive | serve | send | fail =>
      simp only [apply, send, receive, serve, forward, register, shut, Operation.request?]
      grind

theorem run_asked (router : Router σ) (operations : List (Operation σ E)) :
    (link.run router operations).asked = link.asked ++ operations.filterMap Operation.request? := by
  induction operations generalizing link with
  | nil => exact (List.append_nil _).symm
  | cons operation rest ih =>
      rw [run, List.foldl_cons, ← run, ih, apply_asked, List.append_assoc]
      cases request : operation.request? with
      | none => simp [request]
      | some r => simp [request]

theorem run_kept (router : Router σ) (conn : Connection) (session : σ)
    (operations : List (Operation σ E))
    (distinct : (ids (operations.filterMap Operation.request?)).Nodup) :
    Kept (({ conn, session } : Link σ E).run router operations) := by
  induction operations using List.reverseRecOn with
  | nil => exact start_kept conn session
  | append_singleton operations operation ih =>
      rw [List.filterMap_append, ids, List.map_append] at distinct
      have before := distinct.of_append_left
      rw [run, List.foldl_append, List.foldl_cons, List.foldl_nil, ← run]
      refine apply_kept router (ih before) ?_ operation
      rw [run_asked]
      simpa [ids] using before

end Link

/-! ## Calls -/

def Operation.uuid? : Operation σ E → Option String
  | .call uuid .. | .notify uuid .. => some uuid
  | _ => none

theorem ids_distinct {operations : List (Operation σ E)}
    (distinct : (operations.filterMap Operation.uuid?).Nodup) :
    (ids (operations.filterMap Operation.request?)).Nodup := by
  rw [ids, List.map_filterMap, List.Nodup, List.pairwise_filterMap]
  rw [List.Nodup, List.pairwise_filterMap] at distinct
  refine distinct.imp fun {a b} apart id named id' named' same => ?_
  have kinds (u u' : String) : "req-" ++ u ≠ "notif-" ++ u' := by
    intro equal
    have first := congrArg (fun s => s.toList.head?) equal
    simp at first
  cases a <;> cases b <;>
    grind [Operation.request?, Operation.uuid?, ClientRequest.ofCall, ClientRequest.ofNotify,
      String.append_right_inj]

/-- What callers rely on. -/
structure Settled (link : Link σ E) : Prop where
  /-- No caller is answered twice. -/
  once : (link.outcomes.map Prod.fst).Nodup
  /-- A caller gets what the daemon wrote for its request. -/
  own : ∀ id reply, (id, .answered reply) ∈ link.outcomes →
    reply.id = id ∧ ∃ r, (r, reply) ∈ link.served ∧ r.id = id
  /-- The daemon serves requests at most once, in the order in which they were made. -/
  inOrder : (link.served.map Prod.fst).Sublist link.asked
  /-- Nobody waits for a task that ended. -/
  closed : link.clientOpen = false → ∀ r ∈ link.asked, r.id ∈ link.outcomes.map Prod.fst
  /-- When nothing is on its way, only callers wait whose text was over the limit or whose reply could
      not be written. -/
  idle : link.clientOpen = true → link.queue = [] → link.up = [] → link.down = [] →
    ∀ r ∈ link.asked, r.waits = true → r.id ∈ link.outcomes.map Prod.fst ∨
      maxInputSize < r.text.chars ∨ r ∈ link.unsent
  /-- Events come in the order in which they were forwarded. -/
  events : link.seen <+: link.forwarded

theorem Link.Kept.once {link : Link σ E} (kept : link.Kept) (distinct : (ids link.asked).Nodup) :
    (link.outcomes.map Prod.fst).Nodup := by
  rw [List.nodup_iff_count_le_one] at distinct ⊢
  intro id
  have total := kept.conserved id
  have := distinct id
  omega

/-- A request that is not settled is in the queue or pending. -/
theorem Link.Kept.settled_of_free {link : Link σ E} (kept : link.Kept) {r : ClientRequest}
    (asked : r ∈ link.asked) (unqueued : link.queue = []) (free : r.id ∉ link.pending) :
    r.id ∈ link.outcomes.map Prod.fst := by
  have total := kept.conserved r.id
  have made := List.count_pos_iff.mpr (List.mem_map_of_mem (f := ClientRequest.id) asked)
  have none := List.count_eq_zero.mpr free
  rw [unqueued, none] at total
  simp only [ids, List.map_nil, List.count_nil] at total
  exact List.count_pos_iff.mp (by omega)

theorem Link.Kept.left_over {link : Link σ E} (kept : link.Kept) (distinct : (ids link.asked).Nodup)
    (runs : link.clientOpen = true) (noneUp : link.up = []) (noneDown : link.down = [])
    {r : ClientRequest} (asked : r ∈ link.asked) (pending : r.id ∈ link.pending) :
    r ∈ link.unanswered ∨ r ∈ link.unsent := by
  have flight := kept.inFlight runs r.id (kept.written r asked).named
  have waits := List.count_pos_iff.mpr pending
  have readAsked {other : ClientRequest} (read : other ∈ link.read) : other ∈ link.asked :=
    kept.order.mem (by simp [read])
  have mine {other : ClientRequest} (read : other ∈ link.read) (same : other.id = r.id) : other = r :=
    List.inj_on_of_nodup_map distinct (readAsked read) asked same
  rw [noneUp, noneDown] at flight
  simp only [ids, List.map_nil, List.filterMap_nil, List.count_nil] at flight
  by_cases unanswered : r.id ∈ link.unanswered.map ClientRequest.id
  · obtain ⟨other, member, same⟩ := List.mem_map.mp unanswered
    exact .inl (mine (kept.silent other member).1 same ▸ member)
  · have none := List.count_eq_zero.mpr unanswered
    have unsent : r.id ∈ link.unsent.map ClientRequest.id := List.count_pos_iff.mp (by omega)
    obtain ⟨other, member, same⟩ := List.mem_map.mp unsent
    exact .inr (mine (kept.unwritten other member) same ▸ member)

/-- Whatever the handlers do, and in whatever order the two sides run, write, fail and end: callers
    with different ids get their own replies, each once, in the order of the daemon, and are left
    without one only by a text over the limit or a reply that was not written. -/
theorem calls_settled (router : Router σ) (conn : Connection) (session : σ)
    (operations : List (Operation σ E)) (distinct : (operations.filterMap Operation.uuid?).Nodup) :
    Settled (({ conn, session } : Link σ E).run router operations) := by
  have kept := Link.run_kept router conn session operations (ids_distinct distinct)
  have asked : (ids (({ conn, session } : Link σ E).run router operations).asked).Nodup := by
    rw [Link.run_asked]
    exact ids_distinct distinct
  generalize ({ conn, session } : Link σ E).run router operations = link at kept asked
  refine ⟨kept.once asked, kept.answered, ?_, ?_, ?_, ?_⟩
  · exact kept.inOrder.trans ((List.sublist_append_left _ _).trans
      ((List.sublist_append_left _ _).trans kept.order))
  · intro shuts r member
    obtain ⟨unqueued, free⟩ := kept.settled shuts
    exact kept.settled_of_free member unqueued (by simp [free])
  · intro runs unqueued noneUp noneDown r member waits
    by_cases pending : r.id ∈ link.pending
    · rcases kept.left_over asked runs noneUp noneDown member pending with silent | unsent
      · exact .inr (.inl ((kept.silent r silent).2 waits))
      · exact .inr (.inr unsent)
    · exact .inl (kept.settled_of_free member unqueued pending)
  · exact ⟨_, kept.events.symm⟩

/-- Two calls that overlap, with an event in between and a daemon that ends. -/
theorem overlapping_settled : Settled (({ session := 0 } : Link Nat String).run countingRouter
    [.call "1" "session.initialize" none 80, .call "2" "session.debugDump" none 70, .send true,
      .send true, .serve 0 true, .forward "hello" true, .receive, .serve 1 true, .hangUp, .receive,
      .receive, .receive]) :=
  calls_settled countingRouter {} 0 _ (by decide)

end AgileAgent.Protocol
