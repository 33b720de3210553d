import AgileAgent.Core.Mail.Delivery

/-! # Snapshots of mail, and reading

A snapshot takes the mail that was set aside and not what is still queued, and a restored mailbox
sets it aside again. Mail is marked as read by its id, which two mails of one instant share.
-/

namespace AgileAgent.Core.Mail

open AgileAgent.RuntimeDomain

/-- Whether a mail is for an agent, given the registered agents and their providers. -/
def addressed (registered : List (AgentId × String)) (mail : AgentMail) (a : AgentId) : Bool :=
  match mail.target with
  | .direct agentId => a = agentId
  | .broadcast => a ∈ registered.map Prod.fst
  | .providerType provider => (a, provider) ∈ registered

namespace AgentMailbox

/-- The mail that was accepted and is in no inbox yet. -/
def undelivered (m : AgentMailbox) : List AgentMail := m.pendingDelivery ++ m.outgoing

/-- A new mailbox with the mail of a snapshot, after it was processed. -/
def restored (m : AgentMailbox) : AgentMailbox :=
  (restorePending {} m.pendingMailForSnapshot).processPending.2

/-- The restored mailbox delivers what was undelivered, and each mail once. -/
def Restores (registered : List (AgentId × String)) (m : AgentMailbox) : Prop :=
  ∀ a, (m.restored.mails a).Perm (m.undelivered.filter fun mail => addressed registered mail a)

theorem restored_mails (m : AgentMailbox) (a : AgentId) : m.restored.mails a = [] := rfl

theorem restores_iff (registered : List (AgentId × String)) (m : AgentMailbox) :
    m.Restores registered ↔ ∀ mail ∈ m.undelivered, ∀ a, addressed registered mail a = false := by
  unfold Restores
  simp only [restored_mails, List.nil_perm, List.filter_eq_nil_iff, Bool.not_eq_true]
  exact ⟨fun none mail member a => none a mail member, fun none a mail member => none mail member a⟩

/-! ## Marking mail as read -/

theorem markFirst_flags (mailId : MailId) (now : String) (mails : List AgentMail) :
    (markFirst mailId now mails).2.map AgentMail.isRead =
      (mails.map AgentMail.isRead).set (mails.findIdx fun mail => mail.mailId = mailId) true := by
  induction mails with
  | nil => rfl
  | cons mail rest ih =>
      by_cases same : mail.mailId = mailId
      · simp [markFirst, same, List.findIdx_cons, AgentMail.isRead, AgentMail.markRead]
      · simp [markFirst, same, List.findIdx_cons, ih]

theorem markFirst_found {mailId : MailId} (now : String) {mails : List AgentMail}
    (found : ∃ mail ∈ mails, mail.mailId = mailId) : (markFirst mailId now mails).1 = true := by
  induction mails with
  | nil => simp at found
  | cons mail rest ih =>
      by_cases same : mail.mailId = mailId
      · simp [markFirst, same]
      · have later : ∃ mail ∈ rest, mail.mailId = mailId := by simpa [same] using found
        simp [markFirst, same, ih later]

/-- Setting one flag or another comes to the same only where both are set. -/
theorem set_true_eq {flags : List Bool} {i j : Nat} (isIndex : i < flags.length) (isIndex' : j < flags.length) :
    flags.set j true = flags.set i true ↔ j = i ∨ flags[j] = true ∧ flags[i] = true := by
  constructor
  · intro same
    by_cases equal : j = i
    · exact .inl equal
    have atFirst := List.getElem_of_eq same (i := j) (by simpa using isIndex')
    have atSecond := List.getElem_of_eq same (i := i) (by simpa using isIndex)
    simp only [List.getElem_set_self, List.getElem_set_ne (Ne.symm equal)] at atFirst
    simp only [List.getElem_set_self, List.getElem_set_ne equal] at atSecond
    exact .inr ⟨atFirst.symm, atSecond⟩
  · rintro (rfl | ⟨first, second⟩)
    · rfl
    · have unchanged {k : Nat} (isIndex : k < flags.length) (set : flags[k] = true) : flags.set k true = flags := by
        rw [← set, List.set_getElem_self]
      rw [unchanged isIndex' first, unchanged isIndex second]

/-- Marking the mail at an index, by its id, sets its flag and no other. -/
def MarksOnly (m : AgentMailbox) (a : AgentId) (i : Nat) (isIndex : i < (m.mails a).length) (now : String) : Prop :=
  let marked := m.markRead a ((m.mails a)[i].mailId) now
  marked.1 = true ∧
    (marked.2.mails a).map AgentMail.isRead = ((m.mails a).map AgentMail.isRead).set i true ∧
    ∀ other, other ≠ a → marked.2.mails other = m.mails other

/-- The first mail of an inbox that has the id of another. -/
def firstLike (m : AgentMailbox) (a : AgentId) (mailId : MailId) : Nat :=
  (m.mails a).findIdx fun mail => mail.mailId = mailId

theorem markRead_eq (m : AgentMailbox) {a : AgentId} (present : m.mails a ≠ []) (mailId : MailId) (now : String) :
    m.markRead a mailId now = ((markFirst mailId now (m.mails a)).1,
      { m with inbox := Function.update m.inbox a (some (markFirst mailId now (m.mails a)).2) }) := by
  cases inbox : m.inbox a with
  | none => simp [mails, inboxFor, inbox] at present
  | some mails => simp [markRead, AgentMailbox.mails, inboxFor, inbox]

theorem marksOnly_iff (m : AgentMailbox) (a : AgentId) (i : Nat) (isIndex : i < (m.mails a).length) (now : String) :
    let j := m.firstLike a (m.mails a)[i].mailId
    m.MarksOnly a i isIndex now ↔
      j = i ∨ ((m.mails a).map AgentMail.isRead)[j]? = some true ∧ (m.mails a)[i].isRead = true := by
  intro j
  let mailId := (m.mails a)[i].mailId
  have member : (m.mails a)[i] ∈ m.mails a := List.getElem_mem isIndex
  have marked := m.markRead_eq (List.ne_nil_of_mem member) mailId now
  have found : (m.markRead a mailId now).1 = true := by
    rw [marked]
    exact markFirst_found now ⟨_, member, rfl⟩
  have others : ∀ other, other ≠ a → (m.markRead a mailId now).2.mails other = m.mails other := by
    intro other differs
    simp [marked, mails, inboxFor, Function.update_of_ne differs]
  have flags : ((m.markRead a mailId now).2.mails a).map AgentMail.isRead =
      ((m.mails a).map AgentMail.isRead).set j true := by
    have box : (m.markRead a mailId now).2.mails a = (markFirst mailId now (m.mails a)).2 := by
      simp [marked, mails, inboxFor]
    rw [box]
    exact markFirst_flags mailId now (m.mails a)
  have isFirst : j < ((m.mails a).map AgentMail.isRead).length := by
    rw [List.length_map]
    exact List.findIdx_lt_length_of_exists ⟨_, member, by simp⟩
  have only : m.MarksOnly a i isIndex now ↔
      ((m.mails a).map AgentMail.isRead).set j true = ((m.mails a).map AgentMail.isRead).set i true :=
    ⟨fun marks => flags.symm.trans marks.2.1, fun same => ⟨found, flags.trans same, others⟩⟩
  rw [only, set_true_eq (by simpa using isIndex) isFirst, List.getElem?_eq_getElem isFirst]
  simp

end AgentMailbox

/-- What happens to a mailbox between its agents. -/
inductive MailboxEvent where
  | mail (event : MailEvent)
  | markRead (agentId : AgentId) (mailId : MailId) (now : String)
  deriving Repr, DecidableEq

/-- One event; what the calls return is dropped. -/
def MailboxEvent.step (m : AgentMailbox) : MailboxEvent → Unit × AgentMailbox
  | .mail event => ((), (event.step m).2)
  | .markRead agentId mailId now => ((), (m.markRead agentId mailId now).2)

/-- In every state a snapshot restores all mail exactly if none is undelivered that is for anybody,
    and a mark lands on the mail it is meant for exactly if no earlier mail has its id or both are
    read already. -/
theorem restores_and_marks (events : List MailboxEvent) :
    let m := Machine.final MailboxEvent.step {} events
    (∀ registered, m.Restores registered ↔
      ∀ mail ∈ m.undelivered, ∀ a, addressed registered mail a = false) ∧
    ∀ a i (isIndex : i < (m.mails a).length) now,
      let j := m.firstLike a (m.mails a)[i].mailId
      m.MarksOnly a i isIndex now ↔
        j = i ∨ ((m.mails a).map AgentMail.isRead)[j]? = some true ∧ (m.mails a)[i].isRead = true := by
  intro m
  exact ⟨fun registered => AgentMailbox.restores_iff registered m, m.marksOnly_iff⟩

/-- Two mails of one instant for one agent. -/
def twoAtOnce : List MailboxEvent :=
  let mail (sender : AgentId) := AgentMail.create sender (.direct "agent_003") 0 "1970-01-01T00:00:00+00:00"
  [.mail (.send (mail "agent_001")), .mail (.send (mail "agent_002")), .mail .process]

/-- The second of them cannot be marked as read. -/
theorem second_not_marked :
    ¬ (Machine.final MailboxEvent.step {} twoAtOnce).MarksOnly "agent_003" 1 (by decide) "later" := by
  intro marks
  exact absurd (((restores_and_marks twoAtOnce).2 "agent_003" 1 (by decide) "later").mp marks) (by decide)

/-- Direct mail that is queued is not in the snapshot. -/
theorem queued_mail_lost : ¬ ∀ events : List MailboxEvent,
    let m := Machine.final MailboxEvent.step {} events
    (∀ registered, m.Restores registered) ∧
      ∀ a i (isIndex : i < (m.mails a).length) now, m.MarksOnly a i isIndex now := by
  intro all
  let mail := AgentMail.create "agent_001" (.direct "agent_002") 0 "1970-01-01T00:00:00+00:00"
  have restored := (all [.mail (.send mail)]).1 [] "agent_002"
  have one := restored.length_eq
  exact absurd one (by decide)

end AgileAgent.Core.Mail
