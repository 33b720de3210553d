import AgileAgent.RuntimeDomain.Worker

/-! # Mail between agents

A mailbox queues mail that is sent, puts direct mail into inboxes when it is processed, and keeps
all other mail aside. Subjects, bodies and deadlines are carried along and left out.
-/

namespace AgileAgent.Core.Mail

open AgileAgent.RuntimeDomain

structure MailId where
  text : String
  deriving Repr, DecidableEq

/-- `MailId::new` at a time in milliseconds. -/
def MailId.create (millis : Nat) : MailId := ⟨"mail-" ++ toString millis⟩

inductive MailTarget where
  | direct (agentId : AgentId)
  | broadcast
  | providerType (provider : String)
  deriving Repr, DecidableEq

structure AgentMail where
  mailId : MailId
  /-- `from`. -/
  sender : AgentId
  /-- `to`. -/
  target : MailTarget
  sentAt : String
  readAt : Option String
  requiresAction : Bool
  deriving Repr, DecidableEq

namespace AgentMail

/-- `AgentMail::new`. -/
def create (sender : AgentId) (target : MailTarget) (millis : Nat) (sentAt : String) : AgentMail where
  mailId := .create millis
  sender := sender
  target := target
  sentAt := sentAt
  readAt := none
  requiresAction := false

def markRead (now : String) (mail : AgentMail) : AgentMail := { mail with readAt := some now }

def isRead (mail : AgentMail) : Bool := mail.readAt.isSome

end AgentMail

structure AgentMailbox where
  inbox : AgentId → Option (List AgentMail) := fun _ => none
  outgoing : List AgentMail := []
  pendingDelivery : List AgentMail := []
  history : List AgentMail := []

namespace AgentMailbox

def sendMail (m : AgentMailbox) (mail : AgentMail) : AgentMailbox :=
  { m with outgoing := m.outgoing ++ [mail] }

def inboxFor (m : AgentMailbox) (agentId : AgentId) : Option (List AgentMail) := m.inbox agentId

/-- The mails in an inbox, if there is one. -/
def mails (m : AgentMailbox) (agentId : AgentId) : List AgentMail := (m.inboxFor agentId).getD []

/-- Change the first mail with an id, and tell whether there is one. -/
def markFirst (mailId : MailId) (now : String) : List AgentMail → Bool × List AgentMail
  | [] => (false, [])
  | mail :: rest =>
      if mail.mailId = mailId then (true, mail.markRead now :: rest)
      else
        let marked := markFirst mailId now rest
        (marked.1, mail :: marked.2)

def markRead (m : AgentMailbox) (agentId : AgentId) (mailId : MailId) (now : String) : Bool × AgentMailbox :=
  match m.inbox agentId with
  | some mails =>
      let marked := markFirst mailId now mails
      (marked.1, { m with inbox := Function.update m.inbox agentId (some marked.2) })
  | none => (false, m)

/-- `entry(..).or_default().push(..)`. -/
def push (m : AgentMailbox) (agentId : AgentId) (mail : AgentMail) : AgentMailbox :=
  { m with inbox := Function.update m.inbox agentId (some (m.mails agentId ++ [mail])) }

def deliverToInbox (m : AgentMailbox) (mail : AgentMail) : Option AgentId × AgentMailbox :=
  match mail.target with
  | .direct agentId =>
      let m := m.push agentId mail
      (some agentId, { m with history := m.history ++ [mail] })
  | .broadcast | .providerType _ => (none, { m with pendingDelivery := m.pendingDelivery ++ [mail] })

/-- The loop of `process_pending` over the mails that were queued. -/
def deliverAll : List AgentMail → AgentMailbox → List AgentId × AgentMailbox
  | [], m => ([], m)
  | mail :: rest, m =>
      let delivered := m.deliverToInbox mail
      let others := deliverAll rest delivered.2
      (delivered.1.toList ++ others.1, others.2)

def processPending (m : AgentMailbox) : List AgentId × AgentMailbox :=
  deliverAll m.outgoing { m with outgoing := [] }

def deliverBroadcast (m : AgentMailbox) (mail : AgentMail) (agentIds : List AgentId) : AgentMailbox :=
  let m := agentIds.foldl (fun m agentId => m.push agentId mail) m
  { m with history := m.history ++ [mail] }

def restorePending (m : AgentMailbox) (pendingMail : List AgentMail) : AgentMailbox :=
  { m with pendingDelivery := m.pendingDelivery ++ pendingMail }

def pendingMailForSnapshot (m : AgentMailbox) : List AgentMail := m.pendingDelivery

structure MailDeliveryEvent where
  mail : AgentMail
  target : AgentId
  deriving Repr, DecidableEq

/-- The loop of `deliver`, which takes the pending mails from the end. -/
def deliverPending (agentIds : List AgentId) : List AgentMail → AgentMailbox → List MailDeliveryEvent × AgentMailbox
  | [], m => ([], m)
  | mail :: rest, m =>
      let others := deliverPending agentIds rest (m.deliverBroadcast mail agentIds)
      (agentIds.map (fun agentId => ⟨mail, agentId⟩) ++ others.1, others.2)

def deliver (m : AgentMailbox) (agentIds : List AgentId) : List MailDeliveryEvent × AgentMailbox :=
  deliverPending agentIds m.pendingDelivery.reverse { m with pendingDelivery := [] }

end AgentMailbox

end AgileAgent.Core.Mail
