import AgileAgent.DecisionDsl.Host

/-! # The provider session

The session that asks a provider, on a thread of its own for every message. Messages are
numbered in the order in which they are sent, and the receiver of a thread and the
response that came out of it keep the number of their message, so that a response can be
told from the response to another message.
-/

namespace AgileAgent.DecisionDsl

inductive MessageRole where
  | user
  | assistant
  | system
  deriving Repr, DecidableEq

def MessageRole.roleLabel : MessageRole → String
  | .user => "User"
  | .assistant => "Assistant"
  | .system => "System"

structure ConversationMessage where
  role : MessageRole
  content : String
  deriving Repr, DecidableEq

namespace ConversationMessage

def user (content : String) : ConversationMessage := ⟨.user, content⟩
def assistant (content : String) : ConversationMessage := ⟨.assistant, content⟩

end ConversationMessage

/-- The threads of the operating system: whether one can be started, and when its
    response is there. -/
structure Threads where
  /-- The error text of `Builder::spawn` for a message. -/
  spawnError : Nat → Option String
  /-- The response to a message is in the channel when the session polls for the `n`-th time. -/
  arrived : Nat → Nat → Bool

/-- `Receiver<String>`: the other end is with a thread that runs the provider on `prompt`. -/
structure Receiver where
  call : Nat
  prompt : String
  deriving Repr, DecidableEq

/-- A response that came out of a channel, to message number `call`. -/
structure Response where
  call : Nat
  text : String
  deriving Repr, DecidableEq

structure ProviderSession where
  history : List ConversationMessage := []
  maxHistory : Nat := 10
  pendingRx : Option Receiver := none
  sentMessages : List String := []
  lastResponse : Option Response := none
  threads : Threads
  polls : Nat := 0

/-- `run_stub_provider`. -/
def runStubProvider (prompt : String) : Except SessionError String :=
  .ok ("\x7b\"decision\": \"proceed\", \"reasoning\": \"stub response for: " ++
    String.ofList (prompt.toList.take 50) ++ "\", \"confidence\": 0.8\x7d")

namespace ProviderSession

def pruneHistory (s : ProviderSession) : ProviderSession :=
  if s.history.length > s.maxHistory then
    { s with history := s.history.drop (s.history.length - s.maxHistory) }
  else s

def pushHistory (s : ProviderSession) (msg : ConversationMessage) : ProviderSession :=
  { s with history := s.history ++ [msg] }.pruneHistory

def buildContextPrompt (s : ProviderSession) (prompt : String) : String :=
  if s.history.isEmpty then prompt
  else
    let context := s.history.map fun m => m.role.roleLabel ++ ": " ++ m.content
    "Previous context:\n" ++ "\n\n".intercalate context ++ "\n\nCurrent request:\n" ++ prompt

/-- `Receiver::try_recv`: a thread whose provider failed hangs up without a response. -/
def tryRecv (s : ProviderSession) (rx : Receiver) : Option String :=
  if s.threads.arrived rx.call s.polls then (runStubProvider rx.prompt).toOption else none

def pollPending (s : ProviderSession) : Bool × ProviderSession :=
  match s.pendingRx with
  | none => (s.lastResponse.isSome, s)
  | some rx =>
      match s.tryRecv rx with
      | some text =>
          (true, { s with lastResponse := some ⟨rx.call, text⟩, pendingRx := none, polls := s.polls + 1 })
      | none => (false, { s with polls := s.polls + 1 })

def send (s : ProviderSession) (message : String) : Except SessionError Unit × ProviderSession :=
  let call := s.sentMessages.length
  let prompt := s.buildContextPrompt message
  let s := { s with sentMessages := s.sentMessages ++ [message] }.pushHistory (.user message)
  match s.threads.spawnError call with
  | some e => (.error ⟨.sendFailed, "Failed to spawn provider thread: " ++ e⟩, s)
  | none => (.ok (), { s with pendingRx := some ⟨call, prompt⟩, lastResponse := none })

/-- The model is for the log only. -/
def sendWithHint (s : ProviderSession) (message _model : String) :
    Except SessionError Unit × ProviderSession := s.send message

def isReady (s : ProviderSession) : Bool × ProviderSession := s.pollPending

def receive (s : ProviderSession) : Except SessionError String × ProviderSession :=
  match s.isReady with
  | (false, s) => (.error ⟨.unexpectedFormat, "no response available"⟩, s)
  | (true, s) =>
      match s.lastResponse with
      | some response =>
          (.ok response.text, { s with lastResponse := none }.pushHistory (.assistant response.text))
      | none => (.error ⟨.unexpectedFormat, "response was consumed"⟩, s)

instance : Session ProviderSession where
  send := send
  sendWithHint := sendWithHint
  isReady := isReady
  receive := receive

/-! ## The message a response is awaited to -/

/-- The message whose response the session will return next, or has already. -/
def awaited (s : ProviderSession) : Option Nat :=
  match s.pendingRx with
  | some rx => some rx.call
  | none => s.lastResponse.map Response.call

@[simp] theorem pushHistory_pendingRx (s : ProviderSession) (msg : ConversationMessage) :
    (s.pushHistory msg).pendingRx = s.pendingRx := by
  unfold pushHistory pruneHistory
  split <;> rfl

@[simp] theorem pushHistory_lastResponse (s : ProviderSession) (msg : ConversationMessage) :
    (s.pushHistory msg).lastResponse = s.lastResponse := by
  unfold pushHistory pruneHistory
  split <;> rfl

theorem isReady_true {s s' : ProviderSession} (ready : s.isReady = (true, s')) :
    ∃ response, s'.pendingRx = none ∧ s'.lastResponse = some response ∧
      s.awaited = some response.call := by
  unfold isReady pollPending at ready
  cases pending : s.pendingRx with
  | none =>
      simp only [pending, Prod.mk.injEq] at ready
      obtain ⟨some, rfl⟩ := ready
      obtain ⟨response, last⟩ := Option.isSome_iff_exists.mp some
      exact ⟨response, pending, last, by simp [awaited, pending, last]⟩
  | some rx =>
      simp only [pending] at ready
      split at ready
      · next text received =>
          obtain ⟨-, rfl⟩ := Prod.mk.inj ready
          exact ⟨⟨rx.call, text⟩, rfl, rfl, by simp [awaited, pending]⟩
      · cases ready

theorem isReady_false {s s' : ProviderSession} (waits : s.isReady = (false, s')) :
    s'.awaited = s.awaited := by
  unfold isReady pollPending at waits
  cases pending : s.pendingRx with
  | none =>
      simp only [pending, Prod.mk.injEq] at waits
      rw [waits.2]
  | some rx =>
      simp only [pending] at waits
      split at waits
      · cases waits
      · obtain ⟨-, rfl⟩ := Prod.mk.inj waits
        simp [awaited, pending]

/-- A response that is there makes the session ready. -/
theorem isReady_arrived {s : ProviderSession} {rx : Receiver} (pending : s.pendingRx = some rx)
    (arrived : s.threads.arrived rx.call s.polls = true) :
    ∃ s' text, s.isReady = (true, s') ∧ s'.lastResponse = some ⟨rx.call, text⟩ := by
  have received : s.tryRecv rx = (runStubProvider rx.prompt).toOption := if_pos arrived
  simp only [isReady, pollPending, pending, received, runStubProvider, Except.toOption]
  exact ⟨_, _, rfl, rfl⟩

/-- A session that is ready returns its response, and once. -/
theorem receive_ready {s s' : ProviderSession} {response : Response} (taken : s.pendingRx = none)
    (last : s.lastResponse = some response) (received : s.receive.2 = s') :
    s.receive.1 = .ok response.text ∧ s'.awaited = none := by
  have ready : s.isReady = (true, s) := by simp [isReady, pollPending, taken, last]
  subst received
  simp [receive, ready, last, awaited, taken]

/-- A message that went out is the one a response is awaited to. -/
theorem send_ok {s s' : ProviderSession} {message : String} (sent : s.send message = (.ok (), s')) :
    s'.awaited = some s.sentMessages.length := by
  simp only [send] at sent
  split at sent
  · cases sent
  · obtain ⟨-, rfl⟩ := Prod.mk.inj sent
    rfl

/-- A message that could not be sent leaves the response to the one before. -/
theorem send_error {s s' : ProviderSession} {message : String} {e : SessionError}
    (failed : s.send message = (.error e, s')) : s'.awaited = s.awaited := by
  simp only [send] at failed
  split at failed
  · obtain ⟨-, rfl⟩ := Prod.mk.inj failed
    simp [awaited]
  · cases failed

end ProviderSession

end AgileAgent.DecisionDsl
