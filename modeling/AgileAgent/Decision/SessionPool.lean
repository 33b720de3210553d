import AgileAgent.Decision.Engine
import AgileAgent.Decision.RateLimiter

/-! # The session pool

Sessions of providers, held by agents or waiting for one. The ids of new sessions and the points in
time come with the calls; one call reads the clock once.
-/

namespace AgileAgent.Decision

open AgileAgent.Core.Loop (ProviderKind)
open DecisionDsl (durationSince fromMillis)
open Machine

structure SessionPoolConfig where
  maxPerProvider : Nat := 3
  idleTimeoutMs : Nat := 1800000
  reuseEnabled : Bool := true
  deriving Repr, DecidableEq

structure SessionHandle where
  sessionId : String
  provider : ProviderKind
  deriving Repr, DecidableEq

structure PooledSession where
  handle : SessionHandle
  provider : ProviderKind
  assignedTo : Option DecisionAgentId := none
  lastActivity : Nat
  deriving Repr, DecidableEq

namespace PooledSession

def id (s : PooledSession) : String := s.handle.sessionId

def assign (s : PooledSession) (agentId : DecisionAgentId) (now : Nat) : PooledSession :=
  { s with assignedTo := some agentId, lastActivity := now }

def release (s : PooledSession) (now : Nat) : PooledSession :=
  { s with assignedTo := none, lastActivity := now }

def isExpired (s : PooledSession) (timeoutMs now : Nat) : Bool :=
  fromMillis timeoutMs < durationSince now s.lastActivity

end PooledSession

structure DecisionSessionPool where
  config : SessionPoolConfig
  available : ProviderKind → List PooledSession
  active : List (DecisionAgentId × PooledSession)

namespace DecisionSessionPool

/-- `DecisionSessionPool::new`. -/
def create (config : SessionPoolConfig) : DecisionSessionPool :=
  { config, available := fun _ => [], active := [] }

def getSession (p : DecisionSessionPool) (agentId : DecisionAgentId) : Option PooledSession :=
  (p.active.find? (·.1 = agentId)).map (·.2)

def setAvailable (p : DecisionSessionPool) (provider : ProviderKind) (sessions : List PooledSession) :
    DecisionSessionPool :=
  { p with available := fun other => if other = provider then sessions else p.available other }

/-- The sessions of a provider that are held. -/
def activeCount (p : DecisionSessionPool) (provider : ProviderKind) : Nat :=
  p.active.countP (·.2.provider = provider)

/-- The id of a session made from a generated id. -/
def sessionId (uuid : String) : String := "session-" ++ uuid

/-- The kept sessions of a provider that have expired are dropped. -/
def trim (p : DecisionSessionPool) (provider : ProviderKind) (now : Nat) : DecisionSessionPool :=
  if p.config.reuseEnabled then
    p.setAvailable provider ((p.available provider).filter (!·.isExpired p.config.idleTimeoutMs now))
  else p

/-- A session for an agent that has none: one that is kept and has not expired, or a new one within
    the limit. -/
def acquireNew (p : DecisionSessionPool) (provider : ProviderKind) (agentId : DecisionAgentId)
    (uuid : String) (now : Nat) : Except DecisionError PooledSession × DecisionSessionPool :=
  let p := p.trim provider now
  match if p.config.reuseEnabled then p.available provider else [] with
  | session :: rest =>
      let session := session.assign agentId now
      (.ok session, { p.setAvailable provider rest with active := p.active ++ [(agentId, session)] })
  | [] =>
      if p.activeCount provider < p.config.maxPerProvider then
        let fresh : PooledSession := { handle := ⟨sessionId uuid, provider⟩, provider, lastActivity := now }
        let session := fresh.assign agentId now
        (.ok session, { p with active := p.active ++ [(agentId, session)] })
      else
        (.error (.engineError ("Session pool exhausted for provider: " ++ displayName provider)), p)

def acquire (p : DecisionSessionPool) (provider : ProviderKind) (agentId : DecisionAgentId)
    (uuid : String) (now : Nat) : Except DecisionError PooledSession × DecisionSessionPool :=
  match p.getSession agentId with
  | some session => (.ok session, p)
  | none => p.acquireNew provider agentId uuid now

def release (p : DecisionSessionPool) (agentId : DecisionAgentId) (now : Nat) : DecisionSessionPool :=
  match p.getSession agentId with
  | none => p
  | some session =>
      let session := session.release now
      let p := { p with active := p.active.filter (·.1 ≠ agentId) }
      if p.config.reuseEnabled && (p.available session.provider).length < p.config.maxPerProvider then
        p.setAvailable session.provider (p.available session.provider ++ [session])
      else p

def cleanupExpired (p : DecisionSessionPool) (now : Nat) : DecisionSessionPool :=
  { p with available := fun provider =>
      (p.available provider).filter (!·.isExpired p.config.idleTimeoutMs now) }

def clear (p : DecisionSessionPool) : DecisionSessionPool :=
  { p with available := fun _ => [], active := [] }

inductive Call where
  | acquire (provider : ProviderKind) (agentId : DecisionAgentId) (uuid : String) (now : Nat)
  | release (agentId : DecisionAgentId) (now : Nat)
  | cleanupExpired (now : Nat)
  | clear
  deriving Repr, DecidableEq

/-- A call with what `acquire` returns. -/
def call (p : DecisionSessionPool) :
    Call → Option (Except DecisionError PooledSession) × DecisionSessionPool
  | .acquire provider agentId uuid now =>
      (some (p.acquire provider agentId uuid now).1, (p.acquire provider agentId uuid now).2)
  | .release agentId now => (none, p.release agentId now)
  | .cleanupExpired now => (none, p.cleanupExpired now)
  | .clear => (none, p.clear)

/-- The generated id that a call brings. -/
def Call.uuid : Call → Option String
  | .acquire _ _ uuid _ => some uuid
  | _ => none

/-! ## Where the sessions are -/

/-- Every session is in one place, with its provider and its agent, and within the limit. -/
structure Tidy (p : DecisionSessionPool) : Prop where
  assigned : ∀ e ∈ p.active, e.2.assignedTo = some e.1
  heldOnce : (p.active.map (·.2.id)).Nodup
  keptOnce : ∀ k, ((p.available k).map PooledSession.id).Nodup
  keptApart : ∀ k k', k ≠ k' → ∀ s ∈ p.available k, ∀ t ∈ p.available k', s.id ≠ t.id
  apart : ∀ e ∈ p.active, ∀ k, ∀ t ∈ p.available k, e.2.id ≠ t.id
  provider : ∀ k, ∀ t ∈ p.available k, t.provider = k
  bound : ∀ k, p.activeCount k + (p.available k).length ≤ p.config.maxPerProvider
  unused : p.config.reuseEnabled = false → ∀ k, p.available k = []

theorem create_tidy (config : SessionPoolConfig) : Tidy (create config) := by
  constructor <;> simp [create, activeCount]

/-- A session of the pool has the id. -/
def HasId (p : DecisionSessionPool) (id : String) : Prop :=
  (∃ e ∈ p.active, e.2.id = id) ∨ ∃ k, ∃ t ∈ p.available k, t.id = id

variable {p q : DecisionSessionPool}

theorem getSession_mem {agentId : DecisionAgentId} {session : PooledSession}
    (held : p.getSession agentId = some session) : (agentId, session) ∈ p.active := by
  obtain ⟨e, found, rfl⟩ := Option.map_eq_some_iff.mp held
  have isAgent : e.1 = agentId := by simpa using List.find?_some found
  rw [← isAgent]
  exact List.mem_of_find?_eq_some found

/-- Some of the kept sessions are dropped. -/
structure Thins (p q : DecisionSessionPool) : Prop where
  config : q.config = p.config
  active : q.active = p.active
  available : ∀ k, (q.available k).Sublist (p.available k)

theorem Thins.tidy (thins : Thins p q) (tidy : Tidy p) : Tidy q := by
  obtain ⟨config, active, available⟩ := thins
  constructor
  case assigned => rw [active]; exact tidy.assigned
  case heldOnce => rw [active]; exact tidy.heldOnce
  case keptOnce => exact fun k => (tidy.keptOnce k).sublist ((available k).map _)
  case keptApart =>
    exact fun k k' other s inK t inK' =>
      tidy.keptApart k k' other s ((available k).subset inK) t ((available k').subset inK')
  case apart =>
    rw [active]
    exact fun e held k t inK => tidy.apart e held k t ((available k).subset inK)
  case provider => exact fun k t inK => tidy.provider k t ((available k).subset inK)
  case bound =>
    intro k
    have before := tidy.bound k
    have fewer := (available k).length_le
    simp only [activeCount, active, config] at before ⊢
    omega
  case unused =>
    intro off k
    have nothing := tidy.unused (config ▸ off) k
    exact List.sublist_nil.mp (nothing ▸ available k)

theorem Thins.hasId (thins : Thins p q) {id : String} (has : HasId q id) : HasId p id := by
  rcases has with ⟨e, held, same⟩ | ⟨k, t, inK, same⟩
  · exact Or.inl ⟨e, thins.active ▸ held, same⟩
  · exact Or.inr ⟨k, t, (thins.available k).subset inK, same⟩

/-- An agent gets a session that is nowhere else. -/
theorem give_tidy (tidy : Tidy p) {agentId : DecisionAgentId} {session : PooledSession}
    (assigned : session.assignedTo = some agentId) (fresh : ¬ HasId p session.id)
    (room : p.activeCount session.provider + (p.available session.provider).length <
      p.config.maxPerProvider) :
    Tidy { p with active := p.active ++ [(agentId, session)] } := by
  constructor
  case assigned =>
    intro e held
    rcases List.mem_append.mp held with before | new
    · exact tidy.assigned e before
    · rw [List.mem_singleton.mp new]
      exact assigned
  case heldOnce =>
    rw [List.map_append]
    refine tidy.heldOnce.append (List.nodup_singleton _) (List.disjoint_singleton.mpr fun held => ?_)
    obtain ⟨e, before, same⟩ := List.mem_map.mp held
    exact fresh (Or.inl ⟨e, before, same⟩)
  case keptOnce => exact tidy.keptOnce
  case keptApart => exact tidy.keptApart
  case apart =>
    intro e held k t inK
    rcases List.mem_append.mp held with before | new
    · exact tidy.apart e before k t inK
    · rw [List.mem_singleton.mp new]
      exact fun same => fresh (Or.inr ⟨k, t, inK, same.symm⟩)
  case provider => exact tidy.provider
  case bound =>
    intro k
    have before := tidy.bound k
    simp only [activeCount, List.countP_append, List.countP_singleton] at before room ⊢
    by_cases same : session.provider = k
    · subst same
      simp only [decide_true, if_true]
      omega
    · simp only [same, decide_false, Bool.false_eq_true, if_false]
      omega
  case unused => exact tidy.unused

theorem setAvailable_thins {provider : ProviderKind} {sessions : List PooledSession}
    (fewer : sessions.Sublist (p.available provider)) : Thins p (p.setAvailable provider sessions) := by
  refine ⟨rfl, rfl, fun k => ?_⟩
  simp only [setAvailable]
  split
  · rename_i same
    exact same ▸ fewer
  · exact List.Sublist.refl _

/-- The first kept session of a provider, once taken out, is nowhere in the pool. -/
theorem taken_unknown (tidy : Tidy p) {provider : ProviderKind} {session : PooledSession}
    {rest : List PooledSession} (kept : p.available provider = session :: rest) :
    ¬ HasId (p.setAvailable provider rest) session.id := by
  have inK : session ∈ p.available provider := by rw [kept]; exact List.mem_cons_self
  have distinct := tidy.keptOnce provider
  rw [kept, List.map_cons, List.nodup_cons] at distinct
  rintro (⟨e, held, same⟩ | ⟨k, t, inK', same⟩)
  · exact tidy.apart e held provider session inK same
  · simp only [setAvailable] at inK'
    split at inK'
    · exact distinct.1 (same ▸ List.mem_map_of_mem inK')
    · rename_i other
      exact tidy.keptApart k provider other t inK' session inK same

theorem take_tidy (tidy : Tidy p) {provider : ProviderKind} {session : PooledSession}
    {rest : List PooledSession} (kept : p.available provider = session :: rest)
    (agentId : DecisionAgentId) (now : Nat) :
    Tidy { p.setAvailable provider rest with
      active := p.active ++ [(agentId, session.assign agentId now)] } := by
  have fewer : rest.Sublist (p.available provider) := by rw [kept]; exact List.sublist_cons_self _ _
  have thins := setAvailable_thins fewer
  have isProvider : session.provider = provider :=
    tidy.provider provider session (by rw [kept]; exact List.mem_cons_self)
  have unknown := taken_unknown tidy kept
  refine give_tidy (p := p.setAvailable provider rest) (thins.tidy tidy) rfl unknown ?_
  have bound := tidy.bound provider
  rw [kept, List.length_cons] at bound
  have left : (p.setAvailable provider rest).available provider = rest := by simp [setAvailable]
  show (p.setAvailable provider rest).activeCount session.provider +
    ((p.setAvailable provider rest).available session.provider).length < _
  rw [isProvider, left]
  exact bound

theorem dropAgent_tidy (tidy : Tidy p) (agentId : DecisionAgentId) :
    Tidy { p with active := p.active.filter (·.1 ≠ agentId) } := by
  have fewer : (p.active.filter (·.1 ≠ agentId)).Sublist p.active := List.filter_sublist
  constructor
  case assigned => exact fun e held => tidy.assigned e (fewer.subset held)
  case heldOnce => exact tidy.heldOnce.sublist (fewer.map _)
  case keptOnce => exact tidy.keptOnce
  case keptApart => exact tidy.keptApart
  case apart => exact fun e held => tidy.apart e (fewer.subset held)
  case provider => exact tidy.provider
  case bound =>
    intro k
    have count := fewer.countP_le (p := fun e => e.2.provider = k)
    have before := tidy.bound k
    simp only [activeCount] at before ⊢
    omega
  case unused => exact tidy.unused

/-- What an agent held leaves the active sessions with its agent. -/
theorem dropAgent_unknown (tidy : Tidy p) {agentId : DecisionAgentId} {session : PooledSession}
    (held : p.getSession agentId = some session) :
    ¬ HasId { p with active := p.active.filter (·.1 ≠ agentId) } session.id := by
  have member := getSession_mem held
  rintro (⟨e, left, same⟩ | ⟨k, t, inK, same⟩)
  · obtain ⟨before, other⟩ := List.mem_filter.mp left
    have equal := List.inj_on_of_nodup_map tidy.heldOnce before member same
    simp [equal] at other
  · exact tidy.apart _ member k t inK same.symm

theorem dropAgent_room (tidy : Tidy p) {agentId : DecisionAgentId} {session : PooledSession}
    (held : p.getSession agentId = some session) :
    (p.active.filter (·.1 ≠ agentId)).countP (·.2.provider = session.provider) +
      (p.available session.provider).length < p.config.maxPerProvider := by
  have member := getSession_mem held
  have before := tidy.bound session.provider
  have split := List.countP_eq_countP_filter_add p.active (fun e => e.2.provider = session.provider)
    (fun e => e.1 ≠ agentId)
  have gone : 0 < (p.active.filter (fun e => ! decide (e.1 ≠ agentId))).countP
      (fun e => e.2.provider = session.provider) := by
    rw [List.countP_pos_iff]
    exact ⟨_, List.mem_filter.mpr ⟨member, by simp⟩, by simp⟩
  simp only [activeCount] at before
  omega

theorem keep_tidy (tidy : Tidy p) (session : PooledSession) (used : p.config.reuseEnabled)
    (unknown : ¬ HasId p session.id)
    (room : p.activeCount session.provider + (p.available session.provider).length <
      p.config.maxPerProvider) :
    Tidy (p.setAvailable session.provider (p.available session.provider ++ [session])) := by
  have known : ∀ k, ∀ t ∈ (p.setAvailable session.provider
      (p.available session.provider ++ [session])).available k,
      t ∈ p.available k ∨ t = session ∧ k = session.provider := by
    intro k t inK
    simp only [setAvailable] at inK
    split at inK
    · rename_i same
      rcases List.mem_append.mp inK with before | new
      · exact Or.inl (same ▸ before)
      · exact Or.inr ⟨List.mem_singleton.mp new, same⟩
    · exact Or.inl inK
  constructor
  case assigned => exact tidy.assigned
  case heldOnce => exact tidy.heldOnce
  case keptOnce =>
    intro k
    simp only [setAvailable]
    split
    · rw [List.map_append]
      refine (tidy.keptOnce _).append (List.nodup_singleton _)
        (List.disjoint_singleton.mpr fun kept => ?_)
      obtain ⟨t, before, same⟩ := List.mem_map.mp kept
      exact unknown (Or.inr ⟨_, t, before, same⟩)
    · exact tidy.keptOnce k
  case keptApart =>
    intro k k' other s inK t inK' same
    rcases known k s inK with before | ⟨rfl, isK⟩
    · rcases known k' t inK' with before' | ⟨rfl, isK'⟩
      · exact tidy.keptApart k k' other s before t before' same
      · exact unknown (Or.inr ⟨k, s, before, same⟩)
    · rcases known k' t inK' with before' | ⟨-, isK'⟩
      · exact unknown (Or.inr ⟨k', t, before', same.symm⟩)
      · exact other (isK.trans isK'.symm)
  case apart =>
    intro e held k t inK same
    rcases known k t inK with before | ⟨rfl, -⟩
    · exact tidy.apart e held k t before same
    · exact unknown (Or.inl ⟨e, held, same⟩)
  case provider =>
    intro k t inK
    rcases known k t inK with before | ⟨rfl, isK⟩
    · exact tidy.provider k t before
    · exact isK.symm
  case bound =>
    intro k
    have before := tidy.bound k
    simp only [setAvailable, activeCount] at before room ⊢
    split
    · rename_i same
      rw [same, List.length_append, List.length_singleton]
      exact room
    · exact before
  case unused => exact fun off => absurd (off ▸ used) Bool.false_ne_true

/-! ## What a call does -/

/-- The session is in the pool. -/
def Has (p : DecisionSessionPool) (session : PooledSession) : Prop :=
  (∃ e ∈ p.active, e.2 = session) ∨ ∃ k, session ∈ p.available k

theorem Has.hasId {session : PooledSession} (has : p.Has session) : HasId p session.id := by
  rcases has with ⟨e, held, rfl⟩ | ⟨k, inK⟩
  · exact Or.inl ⟨e, held, rfl⟩
  · exact Or.inr ⟨k, session, inK, rfl⟩

/-- An id names one session. -/
theorem has_unique (tidy : Tidy p) {s t : PooledSession} (hasS : p.Has s) (hasT : p.Has t)
    (same : s.id = t.id) : s = t := by
  rcases hasS with ⟨e, held, rfl⟩ | ⟨k, inK⟩
  · rcases hasT with ⟨e', held', rfl⟩ | ⟨k', inK'⟩
    · rw [List.inj_on_of_nodup_map tidy.heldOnce held held' same]
    · exact absurd same (tidy.apart e held k' t inK')
  · rcases hasT with ⟨e', held', rfl⟩ | ⟨k', inK'⟩
    · exact absurd same.symm (tidy.apart e' held' k s inK)
    · by_cases sameKey : k = k'
      · subst sameKey
        exact List.inj_on_of_nodup_map (tidy.keptOnce k) inK inK' same
      · exact absurd same (tidy.keptApart k k' sameKey s inK t inK')

theorem trim_thins (p : DecisionSessionPool) (provider : ProviderKind) (now : Nat) :
    Thins p (p.trim provider now) := by
  unfold trim
  split
  · exact setAvailable_thins List.filter_sublist
  · exact ⟨rfl, rfl, fun _ => List.Sublist.refl _⟩

theorem trim_lives (tidy : Tidy p) {provider : ProviderKind} {now : Nat} {session : PooledSession}
    (inK : session ∈ (p.trim provider now).available provider) :
    session.isExpired p.config.idleTimeoutMs now = false := by
  unfold trim at inK
  split at inK
  · simp only [setAvailable, if_true, List.mem_filter] at inK
    simpa using inK.2
  · rename_i off
    rw [tidy.unused (by simpa using off)] at inK
    cases inK

theorem acquireNew_eq (tidy : Tidy p) (provider : ProviderKind) (agentId : DecisionAgentId)
    (uuid : String) (now : Nat) :
    p.acquireNew provider agentId uuid now =
      let q := p.trim provider now
      match q.available provider with
      | session :: rest =>
          (.ok (session.assign agentId now),
            { q.setAvailable provider rest with
              active := q.active ++ [(agentId, session.assign agentId now)] })
      | [] =>
          let session : PooledSession := ⟨⟨sessionId uuid, provider⟩, provider, some agentId, now⟩
          if q.activeCount provider < q.config.maxPerProvider then
            (.ok session, { q with active := q.active ++ [(agentId, session)] })
          else
            (.error (.engineError ("Session pool exhausted for provider: " ++ displayName provider)), q) := by
  have thins := trim_thins p provider now
  have searched : (if (p.trim provider now).config.reuseEnabled then
      (p.trim provider now).available provider else []) = (p.trim provider now).available provider := by
    split
    · rfl
    · rename_i off
      rw [(thins.tidy tidy).unused (by simpa using off)]
  unfold acquireNew
  simp only [searched, PooledSession.assign]

/-- What an agent that has no session gets: a session of the provider, its own, that had not expired. -/
structure Handed (p : DecisionSessionPool) (provider : ProviderKind) (agentId : DecisionAgentId)
    (now : Nat) (session : PooledSession) : Prop where
  provider : session.provider = provider
  assigned : session.assignedTo = some agentId
  lives : ∀ t, p.Has t → t.id = session.id → t.isExpired p.config.idleTimeoutMs now = false

structure Acquired (p : DecisionSessionPool) (provider : ProviderKind) (agentId : DecisionAgentId)
    (uuid : String) (now : Nat)
    (result : Except DecisionError PooledSession × DecisionSessionPool) : Prop where
  tidy : Tidy result.2
  hasId : ∀ id, HasId result.2 id → HasId p id ∨ id = sessionId uuid
  handed : ∀ session, result.1 = .ok session → Handed p provider agentId now session

theorem acquireNew_acquired (tidy : Tidy p) (provider : ProviderKind) (agentId : DecisionAgentId)
    {uuid : String} (fresh : ¬ HasId p (sessionId uuid)) (now : Nat) :
    Acquired p provider agentId uuid now (p.acquireNew provider agentId uuid now) := by
  have thins := trim_thins p provider now
  have lives : ∀ session ∈ (p.trim provider now).available provider,
      session.isExpired p.config.idleTimeoutMs now = false := fun _ => trim_lives tidy
  rw [acquireNew_eq tidy]
  generalize p.trim provider now = q at *
  have tidyQ := thins.tidy tidy
  simp only
  split
  · rename_i session rest kept
    have inK : session ∈ q.available provider := by rw [kept]; exact List.mem_cons_self
    have inP : session ∈ p.available provider := (thins.available provider).subset inK
    refine ⟨take_tidy tidyQ kept agentId now, ?_, ?_⟩
    · rintro id (⟨e, held, same⟩ | ⟨k, t, inK', same⟩)
      · rcases List.mem_append.mp held with before | new
        · exact Or.inl (thins.hasId (Or.inl ⟨e, before, same⟩))
        · rw [List.mem_singleton.mp new] at same
          exact Or.inl (Or.inr ⟨provider, session, inP, same⟩)
      · have fewer : rest.Sublist (q.available provider) := by rw [kept]; exact List.sublist_cons_self _ _
        exact Or.inl (thins.hasId ((setAvailable_thins fewer).hasId (Or.inr ⟨k, t, inK', same⟩)))
    · rintro _ ⟨⟩
      refine ⟨tidy.provider provider session inP, rfl, fun t hasT same => ?_⟩
      rw [has_unique tidy hasT (Or.inr ⟨provider, inP⟩) same]
      exact lives session inK
  · rename_i nothing
    have unknown : ¬ HasId q (sessionId uuid) := fun has => fresh (thins.hasId has)
    split
    · rename_i room
      refine ⟨give_tidy tidyQ rfl unknown ?_, ?_, ?_⟩
      · rw [nothing]
        exact room
      · rintro id (⟨e, held, same⟩ | kept)
        · rcases List.mem_append.mp held with before | new
          · exact Or.inl (thins.hasId (Or.inl ⟨e, before, same⟩))
          · rw [List.mem_singleton.mp new] at same
            exact Or.inr same.symm
        · exact Or.inl (thins.hasId (Or.inr kept))
      · rintro _ ⟨⟩
        refine ⟨rfl, rfl, fun t hasT same => ?_⟩
        have isFresh : t.id = sessionId uuid := same
        exact absurd (isFresh ▸ hasT.hasId) fresh
    · refine ⟨tidyQ, fun id has => Or.inl (thins.hasId has), ?_⟩
      rintro _ ⟨⟩

theorem release_keeps (tidy : Tidy p) (agentId : DecisionAgentId) (now : Nat) :
    Tidy (p.release agentId now) ∧ ∀ id, HasId (p.release agentId now) id → HasId p id := by
  unfold release
  split
  · exact ⟨tidy, fun _ => id⟩
  · rename_i session held
    have dropped := dropAgent_tidy tidy agentId
    have known : ∀ id, HasId { p with active := p.active.filter (·.1 ≠ agentId) } id → HasId p id := by
      rintro id (⟨e, left, same⟩ | kept)
      · exact Or.inl ⟨e, (List.mem_filter.mp left).1, same⟩
      · exact Or.inr kept
    simp only
    split
    · rename_i used
      have reuse : p.config.reuseEnabled := (Bool.and_eq_true_iff.mp used).1
      have unknown := dropAgent_unknown tidy held
      have room := dropAgent_room tidy held
      refine ⟨keep_tidy dropped (session.release now) reuse unknown room, ?_⟩
      rintro id (⟨e, left, same⟩ | ⟨k, t, inK, same⟩)
      · exact known id (Or.inl ⟨e, left, same⟩)
      · simp only [setAvailable] at inK
        split at inK
        · rcases List.mem_append.mp inK with before | new
          · exact known id (Or.inr ⟨_, t, before, same⟩)
          · rw [List.mem_singleton.mp new] at same
            exact Or.inl ⟨_, getSession_mem held, same⟩
        · exact known id (Or.inr ⟨k, t, inK, same⟩)
    · exact ⟨dropped, known⟩

theorem cleanupExpired_thins (p : DecisionSessionPool) (now : Nat) : Thins p (p.cleanupExpired now) :=
  ⟨rfl, rfl, fun _ => List.filter_sublist⟩

theorem clear_tidy (p : DecisionSessionPool) : Tidy p.clear := by
  constructor <;> simp [clear, activeCount]

/-- A call keeps the pool tidy and knows no id but the ones before and the one that it brings. -/
theorem call_keeps (tidy : Tidy p) (c : Call)
    (fresh : ∀ uuid, c.uuid = some uuid → ¬ HasId p (sessionId uuid)) :
    Tidy (p.call c).2 ∧
      ∀ id, HasId (p.call c).2 id → HasId p id ∨ ∃ uuid, c.uuid = some uuid ∧ id = sessionId uuid := by
  cases c with
  | acquire provider agentId uuid now =>
      simp only [call, acquire]
      cases p.getSession agentId with
      | some session => exact ⟨tidy, fun _ => Or.inl⟩
      | none =>
          obtain ⟨tidy', hasId, -⟩ := acquireNew_acquired tidy provider agentId (fresh uuid rfl) now
          exact ⟨tidy', fun id has => (hasId id has).imp_right fun isNew => ⟨uuid, rfl, isNew⟩⟩
  | release agentId now =>
      obtain ⟨tidy', hasId⟩ := release_keeps tidy agentId now
      exact ⟨tidy', fun id has => Or.inl (hasId id has)⟩
  | cleanupExpired now =>
      have thins := cleanupExpired_thins p now
      exact ⟨thins.tidy tidy, fun id has => Or.inl (thins.hasId has)⟩
  | clear => exact ⟨clear_tidy p, fun id has => by simp [call, clear, HasId] at has⟩

/-- The pool is tidy and the ids that the calls bring are new. -/
structure Ready (p : DecisionSessionPool) (calls : List Call) : Prop where
  tidy : Tidy p
  distinct : (calls.filterMap Call.uuid).Nodup
  unknown : ∀ uuid ∈ calls.filterMap Call.uuid, ¬ HasId p (sessionId uuid)

theorem sessionId_injective : Function.Injective sessionId := fun _ _ same => by
  simpa [sessionId, String.ext_iff] using same

theorem Ready.next {c : Call} {rest : List Call} (ready : Ready p (c :: rest)) :
    Ready (p.call c).2 rest := by
  obtain ⟨tidy, distinct, unknown⟩ := ready
  have fresh : ∀ uuid, c.uuid = some uuid → ¬ HasId p (sessionId uuid) := fun uuid brings =>
    unknown uuid (List.mem_filterMap.mpr ⟨c, List.mem_cons_self, brings⟩)
  obtain ⟨tidy', known⟩ := call_keeps tidy c fresh
  refine ⟨tidy', distinct.sublist ((List.sublist_cons_self c rest).filterMap _), ?_⟩
  intro uuid later has
  rcases known _ has with before | ⟨brought, brings, same⟩
  · obtain ⟨d, inRest, isUuid⟩ := List.mem_filterMap.mp later
    exact unknown uuid (List.mem_filterMap.mpr ⟨d, List.mem_cons_of_mem c inRest, isUuid⟩) before
  · rw [List.filterMap_cons_some brings, List.nodup_cons] at distinct
    exact distinct.1 (sessionId_injective same ▸ later)

/-! ## What the pool is for -/

/-- No id is held by two agents or both held and kept, and no provider has more sessions than its
    limit. -/
structure Sound (p : DecisionSessionPool) : Prop where
  oneAgent : ∀ e ∈ p.active, ∀ e' ∈ p.active, e.2.id = e'.2.id → e.1 = e'.1
  apart : ∀ e ∈ p.active, ∀ k, ∀ t ∈ p.available k, e.2.id ≠ t.id
  bound : ∀ k, p.activeCount k + (p.available k).length ≤ p.config.maxPerProvider

theorem Tidy.sound (tidy : Tidy p) : Sound p where
  oneAgent e held e' held' same := by rw [List.inj_on_of_nodup_map tidy.heldOnce held held' same]
  apart := tidy.apart
  bound := tidy.bound

/-- A step that hands out a session hands out what was asked for, and the pool is sound. -/
structure Right (x : Step DecisionSessionPool Call (Option (Except DecisionError PooledSession))) :
    Prop where
  handed : ∀ provider agentId uuid now session, x.event = .acquire provider agentId uuid now →
    x.output = some (.ok session) → Handed x.before provider agentId now session
  sound : Sound x.after

/-- The session that the agent holds already is one of the provider and has not expired. -/
def Suits (p : DecisionSessionPool) : Call → Prop
  | .acquire provider agentId _ now => ∀ session, p.getSession agentId = some session →
      session.provider = provider ∧ session.isExpired p.config.idleTimeoutMs now = false
  | _ => True

theorem acquire_handed_iff (tidy : Tidy p) (provider : ProviderKind) (agentId : DecisionAgentId)
    {uuid : String} (fresh : ¬ HasId p (sessionId uuid)) (now : Nat) :
    (∀ session, (p.acquire provider agentId uuid now).1 = .ok session →
        Handed p provider agentId now session) ↔
      Suits p (.acquire provider agentId uuid now) := by
  cases held : p.getSession agentId with
  | none =>
      have acquired := acquireNew_acquired tidy provider agentId fresh now
      refine iff_of_true ?_ ?_
      · simp only [acquire, held]
        exact acquired.handed
      · intro session found
        rw [held] at found
        cases found
  | some session =>
      have member := getSession_mem held
      have has : p.Has session := Or.inl ⟨_, member, rfl⟩
      have given : (p.acquire provider agentId uuid now).1 = .ok session := by simp only [acquire, held]
      constructor
      · intro handed other found
        rw [held] at found
        obtain ⟨isProvider, -, lives⟩ := handed session given
        rw [← Option.some.inj found]
        exact ⟨isProvider, lives session has rfl⟩
      · intro suits other isOk
        rw [given] at isOk
        obtain ⟨isProvider, lives⟩ := suits session held
        rw [← Except.ok.inj isOk]
        refine ⟨isProvider, tidy.assigned _ member, fun t hasT same => ?_⟩
        rw [has_unique tidy hasT has same]
        exact lives

theorem call_right_iff {c : Call} {rest : List Call} (ready : Ready p (c :: rest)) :
    Right ⟨p, c, (p.call c).1, (p.call c).2⟩ ↔ Suits p c := by
  have sound := ready.next.tidy.sound
  cases c with
  | acquire provider agentId uuid now =>
      have fresh := ready.unknown uuid List.mem_cons_self
      rw [← acquire_handed_iff ready.tidy provider agentId fresh now]
      constructor
      · intro right session isOk
        exact right.handed provider agentId uuid now session rfl (congrArg some isOk)
      · intro handed
        refine ⟨?_, sound⟩
        rintro _ _ _ _ session ⟨⟩ isOk
        exact handed session (Option.some.inj isOk)
  | release agentId now => exact iff_of_true ⟨by rintro _ _ _ _ _ ⟨⟩, sound⟩ trivial
  | cleanupExpired now => exact iff_of_true ⟨by rintro _ _ _ _ _ ⟨⟩, sound⟩ trivial
  | clear => exact iff_of_true ⟨by rintro _ _ _ _ _ ⟨⟩, sound⟩ trivial

/-- The pool hands out what it is asked for as long as an agent that holds a session asks for the
    provider of that session, before it expires. -/
theorem sessions_right_iff (config : SessionPoolConfig) {calls : List Call}
    (distinct : (calls.filterMap Call.uuid).Nodup) :
    (∀ x ∈ history call (create config) calls, Right x) ↔
      ∀ x ∈ history call (create config) calls, Suits x.before x.event := by
  have starts : Ready (create config) calls := by
    refine ⟨create_tidy config, distinct, ?_⟩
    rintro uuid - (⟨e, held, -⟩ | ⟨k, t, inK, -⟩)
    · cases held
    · cases inK
  exact history_exact_ahead (fun _ _ _ ready => call_right_iff ready) (fun _ _ _ ready _ => ready.next)
    starts

theorem sessions_right_two_agents :
    (∀ x ∈ history call (create {})
        [.acquire .claude "a" "1" 0, .release "a" 5, .acquire .claude "b" "2" 9], Right x) ↔
      ∀ x ∈ history call (create {})
        [.acquire .claude "a" "1" 0, .release "a" 5, .acquire .claude "b" "2" 9],
        Suits x.before x.event :=
  sessions_right_iff {} (by decide)

/-- An agent with a session of one provider gets that session when it asks for another provider. -/
theorem other_provider_handed :
    ¬ ∀ (config : SessionPoolConfig) (calls : List Call), (calls.filterMap Call.uuid).Nodup →
      ∀ x ∈ history call (create config) calls, Right x := by
  intro always
  have last := always {} [.acquire .claude "a" "1" 0, .acquire .codex "a" "2" 1] (by decide) _
    (List.mem_cons_of_mem _ List.mem_cons_self)
  have handed := last.handed .codex "a" "2" 1 _ rfl rfl
  exact absurd handed.provider (by decide)

end DecisionSessionPool

end AgileAgent.Decision
