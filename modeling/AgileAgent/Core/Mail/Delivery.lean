import Mathlib.Data.List.Induction
import AgileAgent.Core.Mail.AgentMailbox
import AgileAgent.Machine

/-! # Where mail ends

Every mail that was sent is in one place: queued, in the inbox that it names, or kept aside for
somebody else to deliver. In each place the mails stand in the order in which they were sent.
-/

namespace AgileAgent.Core.Mail

open AgileAgent.RuntimeDomain

def MailTarget.isDirect : MailTarget → Bool
  | .direct _ => true
  | .broadcast | .providerType _ => false

namespace AgentMailbox

section

variable (m : AgentMailbox) (agentId other : AgentId) (mail : AgentMail)

@[simp] theorem mails_push_self : (m.push agentId mail).mails agentId = m.mails agentId ++ [mail] := by
  simp [push, mails, inboxFor]

@[simp] theorem mails_push_ne {agentId other : AgentId} (differs : other ≠ agentId) :
    (m.push agentId mail).mails other = m.mails other := by
  simp [push, mails, inboxFor, Function.update_of_ne differs]

theorem mails_push : (m.push agentId mail).mails other =
    if other = agentId then m.mails other ++ [mail] else m.mails other := by
  by_cases same : other = agentId
  · subst same
    simp
  · simp [same]

/-- A delivery puts direct mail into its inbox, and all other mail aside. -/
theorem deliverToInbox_spec :
    let next := (m.deliverToInbox mail).2
    (∀ a, next.mails a = m.mails a ++ [mail].filter (·.target = .direct a)) ∧
    next.pendingDelivery = m.pendingDelivery ++ [mail].filter (!·.target.isDirect) ∧
    next.history = m.history ++ [mail].filter (·.target.isDirect) ∧ next.outgoing = m.outgoing := by
  cases target : mail.target with
  | direct agentId =>
      refine ⟨fun a => ?_, ?_, ?_, ?_⟩
      · have pushed : (m.deliverToInbox mail).2.mails a = (m.push agentId mail).mails a := by
          simp [deliverToInbox, target, mails, inboxFor]
        rw [pushed, mails_push]
        by_cases same : a = agentId
        · simp [same, target]
        · simp [same, target, Ne.symm same]
      · simp [deliverToInbox, target, push, MailTarget.isDirect]
      · simp [deliverToInbox, target, push, MailTarget.isDirect]
      · simp [deliverToInbox, target, push]
  | broadcast => simp [deliverToInbox, target, mails, inboxFor, MailTarget.isDirect]
  | providerType provider => simp [deliverToInbox, target, mails, inboxFor, MailTarget.isDirect]

theorem deliverAll_spec (queue : List AgentMail) (m : AgentMailbox) :
    let next := (deliverAll queue m).2
    (∀ a, next.mails a = m.mails a ++ queue.filter (·.target = .direct a)) ∧
    next.pendingDelivery = m.pendingDelivery ++ queue.filter (!·.target.isDirect) ∧
    next.history = m.history ++ queue.filter (·.target.isDirect) ∧ next.outgoing = m.outgoing := by
  induction queue generalizing m with
  | nil => simp [deliverAll]
  | cons mail rest ih =>
      obtain ⟨mails, pending, history, outgoing⟩ := m.deliverToInbox_spec mail
      obtain ⟨mails', pending', history', outgoing'⟩ := ih (m.deliverToInbox mail).2
      have front (keep : AgentMail → Bool) : (mail :: rest).filter keep = [mail].filter keep ++ rest.filter keep := by
        rw [← List.filter_append, List.singleton_append]
      refine ⟨fun a => ?_, ?_, ?_, outgoing'.trans outgoing⟩
      · rw [front, ← List.append_assoc, ← mails]
        exact mails' a
      · rw [front, ← List.append_assoc, ← pending]
        exact pending'
      · rw [front, ← List.append_assoc, ← history]
        exact history'

end

/-- A mail that is handed out reaches an agent as often as the agent is listed. -/
theorem mails_deliverBroadcast (m : AgentMailbox) (mail : AgentMail) (agentIds : List AgentId) (a : AgentId) :
    (m.deliverBroadcast mail agentIds).mails a = m.mails a ++ List.replicate (agentIds.count a) mail := by
  have pushed (m : AgentMailbox) : (agentIds.foldl (fun m agentId => m.push agentId mail) m).mails a =
      m.mails a ++ List.replicate (agentIds.count a) mail := by
    induction agentIds generalizing m with
    | nil => simp
    | cons agentId rest ih =>
        rw [List.foldl_cons, ih, mails_push, List.count_cons]
        by_cases same : a = agentId
        · simp [same, List.replicate_succ]
        · simp [same, Ne.symm same]
  exact pushed m

end AgentMailbox

/-! ## Runs -/

inductive MailEvent where
  | send (mail : AgentMail)
  | process
  deriving Repr, DecidableEq

namespace MailEvent

/-- One event, and the agents that got mail. -/
def step (m : AgentMailbox) : MailEvent → List AgentId × AgentMailbox
  | .send mail => ([], m.sendMail mail)
  | .process => m.processPending

def sentMail : MailEvent → Option AgentMail
  | .send mail => some mail
  | .process => none

end MailEvent

/-- The mails sent in a run, in their order. -/
def sent (events : List MailEvent) : List AgentMail := events.filterMap MailEvent.sentMail

/-- Of the mails that were sent, the processed ones are in the inboxes they name or set aside, and
    the others are queued. -/
structure Accounted (sent processed : List AgentMail) (m : AgentMailbox) : Prop where
  queued : sent = processed ++ m.outgoing
  delivered : ∀ a, m.mails a = processed.filter (·.target = .direct a)
  waiting : m.pendingDelivery = processed.filter (!·.target.isDirect)
  recorded : m.history = processed.filter (·.target.isDirect)

theorem Accounted.send {all processed : List AgentMail} {m : AgentMailbox} (accounted : Accounted all processed m)
    (mail : AgentMail) : Accounted (all ++ [mail]) processed (m.sendMail mail) :=
  ⟨by simp [AgentMailbox.sendMail, accounted.queued], accounted.delivered, accounted.waiting, accounted.recorded⟩

theorem Accounted.process {all processed : List AgentMail} {m : AgentMailbox}
    (accounted : Accounted all processed m) : Accounted all all m.processPending.2 := by
  obtain ⟨mails, pending, history, outgoing⟩ := AgentMailbox.deliverAll_spec m.outgoing { m with outgoing := [] }
  have queued := accounted.queued
  refine ⟨?_, fun a => ?_, ?_, ?_⟩
  · rw [AgentMailbox.processPending, outgoing, List.append_nil]
  · refine (mails a).trans ?_
    rw [queued, List.filter_append, ← accounted.delivered a]
    rfl
  · refine pending.trans ?_
    rw [queued, List.filter_append, ← accounted.waiting]
  · refine history.trans ?_
    rw [queued, List.filter_append, ← accounted.recorded]

theorem run_accounted (events : List MailEvent) :
    ∃ processed, Accounted (sent events) processed (Machine.final MailEvent.step {} events) := by
  induction events using List.reverseRecOn with
  | nil => exact ⟨[], ⟨rfl, fun _ => rfl, rfl, rfl⟩⟩
  | append_singleton events event ih =>
      obtain ⟨processed, accounted⟩ := ih
      rw [Machine.final_snoc]
      cases event with
      | send mail =>
          have one : sent (events ++ [.send mail]) = sent events ++ [mail] := List.filterMap_append
          rw [one]
          exact ⟨processed, accounted.send mail⟩
      | process =>
          have none : sent (events ++ [.process]) = sent events := by simp [sent, MailEvent.sentMail]
          rw [none]
          exact ⟨sent events, accounted.process⟩

/-- In every run each mail is in one place: queued until it is processed, then in the inbox of the
    agent it names, or set aside to be handed out, once to each agent that is listed once. -/
theorem run_delivers (events : List MailEvent) :
    let m := Machine.final MailEvent.step {} events
    (∃ processed, Accounted (sent events) processed m) ∧ m.processPending.2.outgoing = [] ∧
      ∀ mail agentIds a,
        (m.deliverBroadcast mail agentIds).mails a = m.mails a ++ List.replicate (agentIds.count a) mail := by
  intro m
  exact ⟨run_accounted events, (AgentMailbox.deliverAll_spec m.outgoing { m with outgoing := [] }).2.2.2,
    m.mails_deliverBroadcast⟩

/-- A broadcast that was processed is in no inbox. -/
theorem broadcast_not_delivered : ¬ ∀ (registered : List AgentId) (events : List MailEvent),
    ∀ mail ∈ sent events, mail.target = .broadcast → ∀ a ∈ registered,
      ((Machine.final MailEvent.step {} (events ++ [.process])).mails a).count mail = 1 := by
  intro all
  let mail := AgentMail.create "agent_001" .broadcast 0 "1970-01-01T00:00:00+00:00"
  have once := all ["agent_002"] [.send mail] mail (by decide) rfl "agent_002" (by decide)
  exact absurd once (by decide)

end AgileAgent.Core.Mail
