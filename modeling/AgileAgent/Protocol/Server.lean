import AgileAgent.Machine
import AgileAgent.Decision.BuiltinActions

/-! # A connection of the daemon

JSON-RPC between the daemon and one client, on the side of the daemon: the router, the limit on the
rate of requests, and what a connection lets through. The handlers are a parameter, with what they
work on.
-/

namespace AgileAgent.Protocol

open DecisionDsl (Json)
open DecisionDsl.Json (struct asStr nullable)

/-! ## Messages -/

structure Request where
  id : String
  method : String
  params : Option Json

structure RpcError where
  code : Int
  message : String
  data : Option Json := none

inductive Reply where
  | response (id : String) (result : Option Json)
  | error (id : String) (error : RpcError)

def Reply.id : Reply → String
  | .response id _ | .error id _ => id

inductive Message where
  | request (request : Request)
  | notification (method : String) (params : Option Json)
  | reply (reply : Reply)

def maxInputSize : Nat := 1024 * 1024

/-- A text frame: how many characters it has, what it is read as, and what it is read as when only
    its first `maxInputSize` characters are left. -/
structure Text where
  chars : Nat
  message : Option Message
  start : Option Message := none

namespace Text

/-- The text read as a `JsonRpcRequest`. -/
def request? (text : Text) : Option Request :=
  match text.message with
  | some (.request request) => some request
  | _ => none

/-- What is left of the text after it is cut to the limit. -/
def kept (text : Text) : Option Message :=
  if maxInputSize < text.chars then text.start else text.message

end Text

/-! ## The router -/

/-- A handler's answer, which it puts under the id of the request. -/
inductive Body where
  | result (value : Option Json)
  | error (error : RpcError)

def Body.reply (id : String) : Body → Reply
  | .result value => .response id value
  | .error failure => .error id failure

@[simp] theorem Body.reply_id (body : Body) (id : String) : (body.reply id).id = id := by
  cases body with
  | result value => rfl
  | error failure => rfl

universe u

variable {σ : Type u}

/-- A handler may also fail without an answer. -/
abbrev Handler (σ : Type u) := σ → Request → Except String Body × σ

/-- The handlers by their methods. -/
abbrev Router (σ : Type u) := String → Option (Handler σ)

namespace Router

def methodNotFound (method : String) : RpcError where
  code := -32601
  message :=
    if method.startsWith "plugin." then "Method not found: plugin namespace not yet implemented"
    else "Method not found: " ++ method
  data := some (.object [("method", .string method)])

def dispatch (router : Router σ) (session : σ) (req : Request) : Except String Reply × σ :=
  match router req.method with
  | some handler => ((handler session req).1.map (Body.reply req.id), (handler session req).2)
  | none => (.ok (.error req.id (methodNotFound req.method)), session)

theorem dispatch_id {router : Router σ} {session : σ} {req : Request} {reply : Reply}
    (answers : (router.dispatch session req).1 = .ok reply) : reply.id = req.id := by
  unfold dispatch at answers
  cases found : router req.method with
  | none =>
      simp only [found, Except.ok.injEq] at answers
      exact answers ▸ rfl
  | some handler =>
      simp only [found] at answers
      cases body : (handler session req).1 with
      | error message => simp [body, Except.map] at answers
      | ok body' =>
          simp only [body, Except.map, Except.ok.injEq] at answers
          exact answers ▸ body'.reply_id req.id

end Router

/-! ## The limit on the rate -/

/-- The times are in milliseconds. -/
structure RateLimiter where
  tokens : Nat
  max : Nat
  lastRefill : Nat
  deriving Repr, DecidableEq

namespace RateLimiter

def refillInterval : Nat := 60000

def new (maxPerMinute now : Nat) : RateLimiter :=
  { tokens := maxPerMinute, max := maxPerMinute, lastRefill := now }

def refill (limiter : RateLimiter) (now : Nat) : RateLimiter :=
  if refillInterval ≤ now - limiter.lastRefill then
    { limiter with tokens := limiter.max, lastRefill := now }
  else limiter

def tryAcquire (limiter : RateLimiter) (now : Nat) : Bool × RateLimiter :=
  let limiter := limiter.refill now
  if 0 < limiter.tokens then (true, { limiter with tokens := limiter.tokens - 1 }) else (false, limiter)

end RateLimiter

/-! ## The connection -/

inductive ClientType where
  | tui
  | cli
  | ide
  deriving Repr, DecidableEq

def clientTypeNamed (name : String) : Option ClientType :=
  if name = "tui" then some .tui
  else if name = "cli" then some .cli
  else if name = "ide" then some .ide
  else none

def readClientType : Json → Option ClientType
  | .string name | .object [(name, .null)] => clientTypeNamed name
  | _ => none

/-- The client type of `InitializeParams`; the other fields have to be there as well. -/
def readInitializeParams : Json → Option ClientType := struct 4 fun v => do
  let clientType ← v.field "client_type" 0 .required readClientType
  let _ ← v.field "client_version" 1 .required asStr
  let _ ← v.field "resume_snapshot_id" 2 (.optional none) (nullable asStr)
  let _ ← v.field "protocol_version" 3 (.optional none) (nullable asStr)
  return clientType

inductive ConnectionState where
  | connected
  | initialized
  deriving Repr, DecidableEq

structure Connection where
  state : ConnectionState := .connected
  clientType : Option ClientType := none
  rateLimiter : Option RateLimiter := none
  deriving Repr, DecidableEq

/-- The commands that only the command line may give. -/
def debugMethods : List String :=
  ["session.debugDump", "session.forceSnapshot", "session.listConnections"]

def notInitialized : RpcError := { code := -32100, message := "Session not initialized" }

def notSupported : RpcError where
  code := -32106
  message := "Not supported: debug commands restricted to CLI clients"

def rateLimitExceeded : RpcError where
  code := -32000
  message := "Rate limit exceeded"
  data := some (.object [("retry_after", .integer 60)])

def internalError (message : String) : RpcError :=
  { code := -32603, message := "Internal error: " ++ message }

/-- The client type that a request names. -/
def Request.clientType (req : Request) : Option ClientType :=
  if req.method = "session.initialize" then req.params.bind readInitializeParams else none

namespace Connection

def noteClientType (conn : Connection) (req : Request) : Connection :=
  match req.clientType with
  | some clientType => { conn with clientType := some clientType }
  | none => conn

/-- Why a request is refused. -/
def refusal (conn : Connection) (req : Request) : Option RpcError :=
  if conn.state = .connected ∧ req.method ≠ "session.initialize" then some notInitialized
  else if req.method ∈ debugMethods ∧ conn.clientType ≠ some .cli then some notSupported
  else none

/-- A first response with a result opens the session. -/
def settle (conn : Connection) : Reply → Connection
  | .response _ (some _) => { conn with state := .initialized }
  | _ => conn

def handleMessage (router : Router σ) (conn : Connection) (session : σ) :
    Message → Except String (Option Reply) × Connection × σ
  | .request req =>
      let conn := conn.noteClientType req
      match conn.refusal req with
      | some error => (.ok (some (.error req.id error)), conn, session)
      | none =>
          match router.dispatch session req with
          | (.ok reply, session) => (.ok (some reply), conn.settle reply, session)
          | (.error message, session) => (.error message, conn, session)
  | .notification _ _ => (.ok none, conn, session)
  | .reply _ => (.error "Invalid message direction from client", conn, session)

/-- Whether the limit lets a text through. -/
def acquire (conn : Connection) (now : Nat) : Bool × Connection :=
  match conn.rateLimiter with
  | none => (true, conn)
  | some limiter =>
      ((limiter.tryAcquire now).1, { conn with rateLimiter := some (limiter.tryAcquire now).2 })

/-- What the connection writes in answer to a text, and whether it ends if that cannot be written. -/
structure Answer where
  reply : Option Reply
  checked : Bool

/-- One text of the client. -/
def serve (router : Router σ) (conn : Connection) (session : σ) (text : Text) (now : Nat) :
    Answer × Connection × σ :=
  let conn' := (conn.acquire now).2
  if (conn.acquire now).1 = false then
    (⟨some (.error ((text.request?.map Request.id).getD "") rateLimitExceeded), false⟩, conn', session)
  else
    match text.kept with
    -- What cannot be read as a message cannot be read as a request either.
    | none => (⟨none, false⟩, conn', session)
    | some message =>
        match conn'.handleMessage router session message with
        | (.ok reply, conn', session) => (⟨reply, true⟩, conn', session)
        | (.error error, conn', session) =>
            match message with
            | .request req => (⟨some (.error req.id (internalError error)), false⟩, conn', session)
            | _ => (⟨none, false⟩, conn', session)

/-- The request of a text that is not over the limit. -/
def admitted (conn : Connection) (text : Text) (now : Nat) : Option Request :=
  if (conn.acquire now).1 then
    match text.kept with
    | some (.request req) => some req
    | _ => none
  else none

/-- The request that a text brings to its handler. -/
def reaches (conn : Connection) (text : Text) (now : Nat) : Option Request :=
  (conn.admitted text now).filter fun req => ((conn.noteClientType req).refusal req).isNone

/-- The client type that a text names. -/
def names (conn : Connection) (text : Text) (now : Nat) : Option ClientType :=
  (conn.admitted text now).bind Request.clientType

/-! ## What a connection lets through -/

section

variable {router : Router σ} {conn : Connection} {session : σ} {text : Text} {now : Nat}

@[simp] theorem acquire_state : (conn.acquire now).2.state = conn.state := by
  unfold acquire
  split
  · rfl
  · rfl

@[simp] theorem acquire_clientType : (conn.acquire now).2.clientType = conn.clientType := by
  unfold acquire
  split
  · rfl
  · rfl

@[simp] theorem noteClientType_state (req : Request) : (conn.noteClientType req).state = conn.state := by
  unfold noteClientType
  split
  · rfl
  · rfl

theorem noteClientType_clientType (req : Request) :
    (conn.noteClientType req).clientType = req.clientType.or conn.clientType := by
  unfold noteClientType
  cases req.clientType with
  | none => rfl
  | some clientType => rfl

theorem refusal_congr {other : Connection} (state : other.state = conn.state)
    (clientType : other.clientType = conn.clientType) (req : Request) :
    other.refusal req = conn.refusal req := by
  simp only [refusal, state, clientType]

@[simp] theorem settle_clientType (reply : Reply) : (conn.settle reply).clientType = conn.clientType := by
  unfold settle
  split
  · rfl
  · rfl

theorem settle_initialized {reply : Reply} (opened : (conn.settle reply).state = .initialized) :
    conn.state = .initialized ∨ ∃ value, reply = .response reply.id (some value) := by
  unfold settle at opened
  split at opened
  · next id value => exact .inr ⟨value, rfl⟩
  · exact .inl opened

/-- What serving a text does, by what it brings. -/
inductive Served (router : Router σ) (conn : Connection) (session : σ) (text : Text) (now : Nat) :
    Answer × Connection × σ → Prop where
  | limited (exceeded : (conn.acquire now).1 = false) :
      Served router conn session text now
        (⟨some (.error ((text.request?.map Request.id).getD "") rateLimitExceeded), false⟩,
          (conn.acquire now).2, session)
  | silent (checked : Bool) (under : (conn.acquire now).1 = true)
      (brings : conn.admitted text now = none) :
      Served router conn session text now (⟨none, checked⟩, (conn.acquire now).2, session)
  | refused (req : Request) (error : RpcError) (brings : conn.admitted text now = some req)
      (refuses : (conn.noteClientType req).refusal req = some error) :
      Served router conn session text now
        (⟨some (.error req.id error), true⟩, (conn.acquire now).2.noteClientType req, session)
  | answered (req : Request) (reply : Reply) (brings : conn.admitted text now = some req)
      (lets : (conn.noteClientType req).refusal req = none)
      (answers : (router.dispatch session req).1 = .ok reply) :
      Served router conn session text now
        (⟨some reply, true⟩, ((conn.acquire now).2.noteClientType req).settle reply,
          (router.dispatch session req).2)
  | failed (req : Request) (error : String) (brings : conn.admitted text now = some req)
      (lets : (conn.noteClientType req).refusal req = none)
      (fails : (router.dispatch session req).1 = .error error) :
      Served router conn session text now
        (⟨some (.error req.id (internalError error)), false⟩, (conn.acquire now).2.noteClientType req,
          (router.dispatch session req).2)

theorem serve_served (router : Router σ) (conn : Connection) (session : σ) (text : Text) (now : Nat) :
    Served router conn session text now (conn.serve router session text now) := by
  unfold serve
  by_cases exceeded : (conn.acquire now).1 = false
  · simp only [exceeded, if_true]
    exact .limited exceeded
  · have under : (conn.acquire now).1 = true := by simpa using exceeded
    simp only [exceeded]
    cases kept : text.kept with
    | none => exact .silent false under (by simp [admitted, under, kept])
    | some message =>
        cases message with
        | notification method params => exact .silent true under (by simp [admitted, under, kept])
        | reply reply => exact .silent false under (by simp [admitted, under, kept])
        | request req =>
            have brings : conn.admitted text now = some req := by simp [admitted, under, kept]
            have same : ((conn.acquire now).2.noteClientType req).refusal req =
                (conn.noteClientType req).refusal req :=
              refusal_congr (by simp) (by simp [noteClientType_clientType]) req
            simp only [handleMessage, same]
            cases refuses : (conn.noteClientType req).refusal req with
            | some error => exact .refused req error brings refuses
            | none =>
                cases result : (router.dispatch session req).1 with
                | ok reply =>
                    have whole : router.dispatch session req =
                        (.ok reply, (router.dispatch session req).2) := Prod.ext result rfl
                    rw [whole]
                    exact .answered req reply brings refuses result
                | error error =>
                    have whole : router.dispatch session req =
                        (.error error, (router.dispatch session req).2) := Prod.ext result rfl
                    rw [whole]
                    exact .failed req error brings refuses result

theorem admitted_limited (exceeded : (conn.acquire now).1 = false) : conn.admitted text now = none := by
  simp [admitted, exceeded]

theorem reaches_iff {req : Request} : conn.reaches text now = some req ↔
    conn.admitted text now = some req ∧ (conn.noteClientType req).refusal req = none := by
  simp [reaches, Option.filter_eq_some_iff]

theorem serve_clientType : (conn.serve router session text now).2.1.clientType =
    (conn.names text now).or conn.clientType := by
  have served := serve_served router conn session text now
  generalize conn.serve router session text now = result at served ⊢
  cases served with
  | limited exceeded => simp [names, admitted_limited exceeded]
  | silent checked under brings => simp [names, brings]
  | refused req error brings => simp [names, brings, noteClientType_clientType]
  | answered req reply brings => simp [names, brings, noteClientType_clientType]
  | failed req error brings => simp [names, brings, noteClientType_clientType]

/-- A request that does not reach its handler changes nothing of the session. -/
theorem serve_unreached (refused : conn.reaches text now = none) :
    (conn.serve router session text now).2.2 = session := by
  have unreached (req : Request) (brings : conn.admitted text now = some req)
      (lets : (conn.noteClientType req).refusal req = none) : False := by
    rw [reaches_iff.mpr ⟨brings, lets⟩] at refused
    cases refused
  have served := serve_served router conn session text now
  generalize conn.serve router session text now = result at served ⊢
  cases served with
  | limited | silent | refused => rfl
  | answered req reply brings lets => exact (unreached req brings lets).elim
  | failed req error brings lets => exact (unreached req brings lets).elim

theorem refusal_none {req : Request} (lets : conn.refusal req = none) :
    (conn.state = .connected → req.method = "session.initialize") ∧
      (req.method ∈ debugMethods → conn.clientType = some .cli) := by
  unfold refusal at lets
  split at lets
  · cases lets
  · split at lets
    · cases lets
    · next open_ allowed => grind

/-- A session is opened by the answer to `session.initialize`. -/
theorem serve_opened (opened : (conn.serve router session text now).2.1.state = .initialized) :
    conn.state = .initialized ∨ ∃ req value, conn.reaches text now = some req ∧
      req.method = "session.initialize" ∧
      (conn.serve router session text now).1.reply = some (.response req.id (some value)) := by
  have served := serve_served router conn session text now
  generalize conn.serve router session text now = result at served opened ⊢
  cases served with
  | limited exceeded => exact .inl (by simpa using opened)
  | silent checked under brings => exact .inl (by simpa using opened)
  | refused req error brings refuses => exact .inl (by simpa using opened)
  | failed req error brings lets fails => exact .inl (by simpa using opened)
  | answered req reply brings lets answers =>
      rcases settle_initialized opened with already | ⟨value, same⟩
      · exact .inl (by simpa using already)
      · rw [Router.dispatch_id answers] at same
        cases state : conn.state with
        | initialized => exact .inl rfl
        | connected =>
            have method := (refusal_none lets).1 (by simpa using state)
            exact .inr ⟨req, value, reaches_iff.mpr ⟨brings, lets⟩, method, congrArg some same⟩

end

end Connection

/-! ## Runs of a connection -/

/-- The texts of a client one after another, with the times at which they are served. -/
def step (router : Router σ) (state : Connection × σ) (input : Text × Nat) :
    Option Reply × Connection × σ :=
  let served := state.1.serve router state.2 input.1 input.2
  (served.1.reply, served.2)

abbrev Step (σ : Type u) := Machine.Step (Connection × σ) (Text × Nat) (Option Reply)

namespace Step

/-- The request that reaches its handler in a step. -/
def reached (x : Step σ) : Option Request := x.before.1.reaches x.event.1 x.event.2

/-- The client type that is named in a step. -/
def named (x : Step σ) : Option ClientType := x.before.1.names x.event.1 x.event.2

/-- The step opens the session. -/
def Opens (x : Step σ) : Prop :=
  ∃ req value, x.reached = some req ∧ req.method = "session.initialize" ∧
    x.output = some (.response req.id (some value))

end Step

def lastNamed (steps : List (Step σ)) : Option ClientType := (steps.filterMap Step.named).getLast?

theorem lastNamed_snoc (steps : List (Step σ)) (x : Step σ) :
    lastNamed (steps ++ [x]) = (Step.named x).or (lastNamed steps) := by
  rw [lastNamed, List.filterMap_append, List.getLast?_append]
  cases named : Step.named x with
  | none => simp [named, lastNamed]
  | some clientType => simp [named]

/-- What a connection has after a run it has from the steps of the run. -/
theorem run_state (router : Router σ) (limiter : Option RateLimiter) (session : σ)
    (inputs : List (Text × Nat)) :
    let start : Connection × σ := ({ rateLimiter := limiter }, session)
    ((Machine.final (step router) start inputs).1.state = .initialized →
        ∃ x ∈ Machine.history (step router) start inputs, Step.Opens x) ∧
      (Machine.final (step router) start inputs).1.clientType =
        lastNamed (Machine.history (step router) start inputs) := by
  intro start
  induction inputs using List.reverseRecOn with
  | nil =>
      refine ⟨?_, rfl⟩
      intro initialized
      cases initialized
  | append_singleton inputs input ih =>
      obtain ⟨opened, named⟩ := ih
      rw [Machine.final_snoc, Machine.history_snoc]
      constructor
      · intro initialized
        rcases Connection.serve_opened initialized with before | ⟨req, value, reaches, method, reply⟩
        · obtain ⟨x, member, opens⟩ := opened before
          exact ⟨x, List.mem_append_left _ member, opens⟩
        · exact ⟨_, List.mem_append_right _ (List.mem_singleton_self _), req, value, reaches, method,
            reply⟩
      · rw [lastNamed_snoc, ← named]
        exact Connection.serve_clientType

/-- On a new connection a request other than `session.initialize` reaches a handler only after the
    session was opened by one, a debug command only if the last client type that was named is the
    command line's, and a text whose request reaches none leaves the session as it was. -/
theorem requests_gated (router : Router σ) (limiter : Option RateLimiter) (session : σ)
    (inputs : List (Text × Nat)) (front back : List (Step σ)) (x : Step σ)
    (whole : Machine.history (step router) ({ rateLimiter := limiter }, session) inputs =
      front ++ x :: back) :
    (∀ req, x.reached = some req →
        (req.method ≠ "session.initialize" → ∃ y ∈ front, y.Opens) ∧
          (req.method ∈ debugMethods → lastNamed front = some .cli)) ∧
      (x.reached = none → x.after.2 = x.before.2) := by
  obtain ⟨earlier, rfl, here⟩ := Machine.history_before whole
  obtain ⟨opened, named⟩ := run_state router limiter session earlier
  constructor
  · intro req reached
    rw [here] at reached
    obtain ⟨brings, lets⟩ := Connection.reaches_iff.mp reached
    obtain ⟨onlyFirst, onlyCli⟩ := Connection.refusal_none lets
    constructor
    · intro other
      refine opened ?_
      generalize Machine.final (step router) ({ rateLimiter := limiter }, session) earlier = before
        at onlyFirst
      cases state : before.1.state with
      | initialized => rfl
      | connected => exact absurd (onlyFirst (by simpa using state)) other
    · intro debug
      have other : req.clientType = none := by
        refine if_neg fun first => ?_
        rw [first] at debug
        exact absurd debug (by decide)
      have cli := onlyCli debug
      rw [Connection.noteClientType_clientType, other, Option.none_or] at cli
      exact named.symm.trans cli
  · intro unreached
    rw [here] at unreached ⊢
    exact Connection.serve_unreached unreached

/-- Two handlers that count the requests they get. -/
def countingRouter : Router Nat := fun method =>
  if method = "session.initialize" ∨ method = "session.debugDump" then
    some fun session _ => (.ok (.result (some (.integer session))), session + 1)
  else none

def firstRequest : Request where
  id := "req-1"
  method := "session.initialize"
  params := some (.object [("client_type", .string "cli"), ("client_version", .string "1.0.0")])

def dumpRequest : Request := { id := "req-2", method := "session.debugDump", params := none }

def ofRequest (request : Request) : Text := { chars := 80, message := some (.request request) }

/-- The command line opens a session and asks for a dump. -/
theorem dump_gated :
    let steps := Machine.history (step countingRouter) ({}, 0)
      [(ofRequest firstRequest, 0), (ofRequest dumpRequest, 1)]
    (∃ y ∈ steps.take 1, Step.Opens y) ∧ lastNamed (steps.take 1) = some .cli := by
  intro steps
  let dumped : Step Nat :=
    ⟨(step countingRouter ({}, 0) (ofRequest firstRequest, 0)).2, (ofRequest dumpRequest, 1),
      some (.response "req-2" (some (.integer 1))),
      (step countingRouter (step countingRouter ({}, 0) (ofRequest firstRequest, 0)).2
        (ofRequest dumpRequest, 1)).2⟩
  have gated := requests_gated countingRouter none 0
    [(ofRequest firstRequest, 0), (ofRequest dumpRequest, 1)] (steps.take 1) [] dumped rfl
  have reached : dumped.reached = some dumpRequest := rfl
  exact ⟨(gated.1 dumpRequest reached).1 (by decide), (gated.1 dumpRequest reached).2 (by decide)⟩

end AgileAgent.Protocol
