import AgileAgent.FirstMatch
import AgileAgent.Core.AgentSlotStatus

/-! # The queue of human decisions

Requests wait in one queue for each urgency, and an index finds the queue of a request by its
id. Points in time count nanoseconds.
-/

namespace AgileAgent.Core

/-- A choice a human can make. -/
structure ChoiceOption where
  id : String
  label : String
  description : Option String := none
  deriving Repr, DecidableEq

/-- What the decision agent recommends, less its confidence. -/
structure Recommendation where
  actionType : String
  actionParams : String := "{}"
  reasoning : String
  deriving Repr, DecidableEq

structure HumanDecisionRequest where
  id : String
  agentId : String
  situationType : String
  situationDescription : String
  options : List ChoiceOption
  recommendation : Option Recommendation
  urgency : UrgencyLevel
  createdAt : Int
  expiresAt : Int
  context : BlockingContext
  deriving DecidableEq

/-- `HumanDecisionRequest::new`. -/
def HumanDecisionRequest.create (id agentId situationType : String) (options : List ChoiceOption)
    (urgency : UrgencyLevel) (timeoutMs : Nat) (now : Int) : HumanDecisionRequest :=
  { id, agentId, situationType, options, urgency
    situationDescription := ""
    recommendation := none
    createdAt := now
    expiresAt := now + timeoutMs * 1000000
    context := {} }

def HumanDecisionRequest.withDescription (r : HumanDecisionRequest) (description : String) :
    HumanDecisionRequest :=
  { r with situationDescription := description }

inductive HumanSelection where
  | selected (optionId : String)
  | acceptedRecommendation
  | custom (instruction : String)
  | skipped
  | cancelled
  deriving Repr, DecidableEq

structure HumanDecisionResponse where
  requestId : String
  selection : HumanSelection
  respondedAt : Int
  responseTimeMs : Nat
  deriving Repr, DecidableEq

/-- `HumanDecisionResponse::new`. -/
def HumanDecisionResponse.create (requestId : String) (selection : HumanSelection) (now : Int) :
    HumanDecisionResponse :=
  { requestId, selection, respondedAt := now, responseTimeMs := 0 }

/-- What happens by itself when nobody answers. -/
inductive AutoAction where
  | followRecommendation
  | selectDefault
  | cancel
  | markTaskFailed
  | releaseResource
  deriving Repr, DecidableEq

structure HumanDecisionTimeoutConfig where
  defaultTimeoutMs : Nat := 3600000
  highTimeoutMs : Nat := 1800000
  criticalTimeoutMs : Nat := 900000
  lowTimeoutMs : Nat := 7200000
  timeoutDefault : AutoAction := .followRecommendation
  deriving Repr, DecidableEq

def HumanDecisionTimeoutConfig.timeoutForUrgency (c : HumanDecisionTimeoutConfig) :
    UrgencyLevel → Nat
  | .critical => c.criticalTimeoutMs
  | .high => c.highTimeoutMs
  | .medium => c.defaultTimeoutMs
  | .low => c.lowTimeoutMs

structure HumanDecisionQueue where
  critical : List HumanDecisionRequest := []
  high : List HumanDecisionRequest := []
  medium : List HumanDecisionRequest := []
  low : List HumanDecisionRequest := []
  idIndex : Finmap (fun _ : String => UrgencyLevel) := ∅
  history : List HumanDecisionResponse := []

namespace HumanDecisionQueue

/-- The queue of an urgency. -/
def level (q : HumanDecisionQueue) : UrgencyLevel → List HumanDecisionRequest
  | .critical => q.critical
  | .high => q.high
  | .medium => q.medium
  | .low => q.low

def setLevel (q : HumanDecisionQueue) (urgency : UrgencyLevel)
    (requests : List HumanDecisionRequest) : HumanDecisionQueue :=
  match urgency with
  | .critical => { q with critical := requests }
  | .high => { q with high := requests }
  | .medium => { q with medium := requests }
  | .low => { q with low := requests }

def push (q : HumanDecisionQueue) (request : HumanDecisionRequest) : HumanDecisionQueue :=
  { q.setLevel request.urgency (q.level request.urgency ++ [request]) with
    idIndex := q.idIndex.insert request.id request.urgency }

def pop (q : HumanDecisionQueue) : Option HumanDecisionRequest × HumanDecisionQueue :=
  match q.critical with
  | r :: rest => (some r, { q with critical := rest, idIndex := q.idIndex.erase r.id })
  | [] =>
    match q.high with
    | r :: rest => (some r, { q with high := rest, idIndex := q.idIndex.erase r.id })
    | [] =>
      match q.medium with
      | r :: rest => (some r, { q with medium := rest, idIndex := q.idIndex.erase r.id })
      | [] =>
        match q.low with
        | r :: rest => (some r, { q with low := rest, idIndex := q.idIndex.erase r.id })
        | [] => (none, q)

def peek (q : HumanDecisionQueue) : Option HumanDecisionRequest :=
  q.critical.head?.or (q.high.head?.or (q.medium.head?.or q.low.head?))

def findByAgentId (q : HumanDecisionQueue) (agentId : String) : Option HumanDecisionRequest :=
  (q.critical.find? (·.agentId = agentId)).or ((q.high.find? (·.agentId = agentId)).or
    ((q.medium.find? (·.agentId = agentId)).or (q.low.find? (·.agentId = agentId))))

/-- `find_and_remove`. The entry of the index goes, even if its queue has no such request. -/
def findAndRemove (q : HumanDecisionQueue) (id : String) :
    Option HumanDecisionRequest × HumanDecisionQueue :=
  match q.idIndex.lookup id with
  | none => (none, q)
  | some urgency =>
      ((q.level urgency).find? (·.id = id),
        { q.setLevel urgency ((q.level urgency).eraseP (·.id = id)) with
          idIndex := q.idIndex.erase id })

def complete (q : HumanDecisionQueue) (response : HumanDecisionResponse) : Bool × HumanDecisionQueue :=
  let removed := q.findAndRemove response.requestId
  if removed.1.isSome then (true, { removed.2 with history := removed.2.history ++ [response] })
  else (false, removed.2)

def allRequests (q : HumanDecisionQueue) : List HumanDecisionRequest :=
  q.critical ++ q.high ++ q.medium ++ q.low

def checkExpired (q : HumanDecisionQueue) (now : Int) : List HumanDecisionRequest × HumanDecisionQueue :=
  let expired := q.allRequests.filter fun r => r.expiresAt < now
  (expired, expired.foldl (fun q r => (q.findAndRemove r.id).2) q)

def totalPending (q : HumanDecisionQueue) : Nat :=
  q.critical.length + q.high.length + q.medium.length + q.low.length

/-! ## One list of requests

The queues are read in the order of their urgencies, so the queue is a list of requests, as
long as the index knows where each of them is.
-/

/-- Every request has its own id, and the index leads exactly to the requests. -/
structure Indexed (q : HumanDecisionQueue) : Prop where
  distinct : (q.allRequests.map HumanDecisionRequest.id).Nodup
  index : ∀ id urgency, q.idIndex.lookup id = some urgency ↔ ∃ r ∈ q.level urgency, r.id = id

variable {q : HumanDecisionQueue} {r : HumanDecisionRequest} {id : String}

theorem peek_eq (q : HumanDecisionQueue) : q.peek = q.allRequests.head? := by
  simp [peek, allRequests, List.head?_append]

theorem findByAgentId_eq (q : HumanDecisionQueue) (agentId : String) :
    q.findByAgentId agentId = q.allRequests.find? (·.agentId = agentId) := by
  simp [findByAgentId, allRequests, List.find?_append]

theorem mem_allRequests : r ∈ q.allRequests ↔ ∃ urgency, r ∈ q.level urgency := by
  simp only [allRequests, List.mem_append]
  constructor
  · rintro (((inCritical | inHigh) | inMedium) | inLow)
    · exact ⟨.critical, inCritical⟩
    · exact ⟨.high, inHigh⟩
    · exact ⟨.medium, inMedium⟩
    · exact ⟨.low, inLow⟩
  · rintro ⟨urgency, member⟩
    cases urgency <;> simp_all [level]

@[simp] theorem level_setLevel (q : HumanDecisionQueue) (urgency other : UrgencyLevel)
    (requests : List HumanDecisionRequest) :
    (q.setLevel urgency requests).level other =
      if other = urgency then requests else q.level other := by
  cases urgency <;> cases other <;> rfl

@[simp] theorem setLevel_idIndex (q : HumanDecisionQueue) (urgency : UrgencyLevel)
    (requests : List HumanDecisionRequest) : (q.setLevel urgency requests).idIndex = q.idIndex := by
  cases urgency <;> rfl

theorem allRequests_filter {q' : HumanDecisionQueue} {f : HumanDecisionRequest → Bool}
    (each : ∀ urgency, q'.level urgency = (q.level urgency).filter f) :
    q'.allRequests = q.allRequests.filter f := by
  have critical := each .critical
  have high := each .high
  have medium := each .medium
  have low := each .low
  simp only [level] at critical high medium low
  simp [allRequests, critical, high, medium, low]

theorem level_sublist (q : HumanDecisionQueue) (urgency : UrgencyLevel) :
    (q.level urgency).Sublist q.allRequests := by
  have front : (q.critical ++ q.high).Sublist q.allRequests :=
    (List.sublist_append_left _ _).trans (List.sublist_append_left _ _)
  cases urgency with
  | critical => exact (List.sublist_append_left _ _).trans front
  | high => exact (List.sublist_append_right _ _).trans front
  | medium => exact (List.sublist_append_right _ _).trans (List.sublist_append_left _ _)
  | low => exact List.sublist_append_right _ _

theorem indexed_empty : ({} : HumanDecisionQueue).Indexed where
  distinct := by simp [allRequests]
  index := by
    intro id urgency
    cases urgency <;> simp [level]

/-- A request waits in one queue only. -/
theorem Indexed.level_unique (indexed : q.Indexed) {urgency other : UrgencyLevel}
    {r' : HumanDecisionRequest} (here : r ∈ q.level urgency) (there : r' ∈ q.level other)
    (same : r.id = r'.id) : urgency = other := by
  have first := (indexed.index r.id urgency).mpr ⟨r, here, rfl⟩
  have second := (indexed.index r.id other).mpr ⟨r', there, same.symm⟩
  exact Option.some.inj (first.symm.trans second)

theorem findAndRemove_unknown (indexed : q.Indexed) (unknown : ∀ r ∈ q.allRequests, r.id ≠ id) :
    q.findAndRemove id = (none, q) := by
  have absent : q.idIndex.lookup id = none := by
    rw [Option.eq_none_iff_forall_ne_some]
    intro urgency found
    obtain ⟨r, member, isId⟩ := (indexed.index id urgency).mp found
    exact unknown r (mem_allRequests.mpr ⟨urgency, member⟩) isId
  rw [findAndRemove, absent]

/-- What a removal leaves in each queue. -/
theorem findAndRemove_level (indexed : q.Indexed) (id : String) (other : UrgencyLevel) :
    (q.findAndRemove id).2.level other = (q.level other).filter (·.id ≠ id) := by
  cases found : q.idIndex.lookup id with
  | none =>
      rw [findAndRemove, found, eq_comm, List.filter_eq_self]
      intro r member
      rw [decide_eq_true_eq]
      rintro rfl
      rw [(indexed.index r.id other).mpr ⟨r, member, rfl⟩] at found
      cases found
  | some urgency =>
      obtain ⟨r, member, isId⟩ := (indexed.index id urgency).mp found
      have distinct : ((q.level urgency).map HumanDecisionRequest.id).Nodup :=
        indexed.distinct.sublist ((q.level_sublist urgency).map _)
      have removed : (q.findAndRemove id).2.level other =
          if other = urgency then (q.level urgency).filter (·.id ≠ id) else q.level other := by
        rw [findAndRemove, found, ← FirstMatch.eraseP_eq_filter distinct]
        exact level_setLevel q urgency other _
      rw [removed]
      split
      · next isLevel => rw [isLevel]
      · next elsewhere =>
          rw [eq_comm, List.filter_eq_self]
          intro r' member'
          rw [decide_eq_true_eq]
          intro isId'
          exact elsewhere (indexed.level_unique member' member (isId'.trans isId.symm))

theorem findAndRemove_allRequests (indexed : q.Indexed) (id : String) :
    (q.findAndRemove id).2.allRequests = q.allRequests.filter (·.id ≠ id) :=
  allRequests_filter (findAndRemove_level indexed id)

theorem findAndRemove_indexed (indexed : q.Indexed) (id : String) :
    (q.findAndRemove id).2.Indexed where
  distinct := by
    rw [findAndRemove_allRequests indexed]
    exact indexed.distinct.sublist (List.filter_sublist.map _)
  index := by
    intro other urgency
    rw [findAndRemove_level indexed]
    have erased : (q.findAndRemove id).2.idIndex.lookup other =
        if other = id then none else q.idIndex.lookup other := by
      cases found : q.idIndex.lookup id with
      | none =>
          have same : (q.findAndRemove id).2 = q := by rw [findAndRemove, found]
          rw [same]
          by_cases isId : other = id
          · rw [if_pos isId, isId, found]
          · rw [if_neg isId]
      | some level =>
          have isErased : (q.findAndRemove id).2.idIndex = q.idIndex.erase id := by
            rw [findAndRemove, found]
          rw [isErased]
          by_cases isId : other = id
          · rw [if_pos isId, isId, Finmap.lookup_erase]
          · rw [if_neg isId, Finmap.lookup_erase_ne isId]
    rw [erased]
    split
    · next same => simp [same]
    · next differs =>
        rw [indexed.index other urgency]
        constructor
        · rintro ⟨r, member, rfl⟩
          exact ⟨r, List.mem_filter.mpr ⟨member, by simpa using differs⟩, rfl⟩
        · rintro ⟨r, member, rfl⟩
          exact ⟨r, List.mem_of_mem_filter member, rfl⟩

theorem findAndRemove_known (indexed : q.Indexed) (member : r ∈ q.allRequests) :
    (q.findAndRemove r.id).1.isSome := by
  obtain ⟨urgency, inLevel⟩ := mem_allRequests.mp member
  have found := (indexed.index r.id urgency).mpr ⟨r, inLevel, rfl⟩
  rw [findAndRemove, found]
  simpa using ⟨r, inLevel, rfl⟩

/-- Completing a request takes it out, and nothing else. -/
theorem complete_known (indexed : q.Indexed) {response : HumanDecisionResponse}
    (member : r ∈ q.allRequests) (isId : r.id = response.requestId) :
    (q.complete response).1 = true ∧
      (q.complete response).2.allRequests = q.allRequests.filter (·.id ≠ r.id) := by
  have known := findAndRemove_known indexed member
  have removed := findAndRemove_allRequests indexed r.id
  rw [isId] at known removed ⊢
  simp only [complete, known, if_true]
  exact ⟨trivial, removed⟩

theorem complete_unknown (indexed : q.Indexed) {response : HumanDecisionResponse}
    (unknown : ∀ r ∈ q.allRequests, r.id ≠ response.requestId) :
    q.complete response = (false, q) := by
  simp [complete, findAndRemove_unknown indexed unknown]

theorem complete_allRequests (indexed : q.Indexed) (response : HumanDecisionResponse) :
    (q.complete response).2.allRequests = q.allRequests.filter (·.id ≠ response.requestId) := by
  rw [← findAndRemove_allRequests indexed, complete]
  split <;> rfl

theorem complete_indexed (indexed : q.Indexed) (response : HumanDecisionResponse) :
    (q.complete response).2.Indexed := by
  have removed := findAndRemove_indexed indexed response.requestId
  rw [complete]
  split
  · exact ⟨removed.distinct, removed.index⟩
  · exact removed

theorem push_perm (q : HumanDecisionQueue) (request : HumanDecisionRequest) :
    (q.push request).allRequests.Perm (request :: q.allRequests) := by
  have pushed : (q.push request).allRequests =
      (q.setLevel request.urgency (q.level request.urgency ++ [request])).allRequests := rfl
  rw [pushed]
  cases request.urgency <;> simp only [setLevel, level, allRequests] <;> grind

theorem push_indexed (indexed : q.Indexed) {request : HumanDecisionRequest}
    (fresh : ∀ r ∈ q.allRequests, r.id ≠ request.id) : (q.push request).Indexed where
  distinct := by
    rw [((q.push_perm request).map _).nodup_iff, List.map_cons, List.nodup_cons]
    exact ⟨by simpa using fresh, indexed.distinct⟩
  index := by
    intro id urgency
    have inserted : (q.push request).idIndex.lookup id =
        if id = request.id then some request.urgency else q.idIndex.lookup id := by
      split
      · next same => rw [same, push, Finmap.lookup_insert]
      · next differs => simp [push, Finmap.lookup_insert_of_ne _ differs]
    have levels : (q.push request).level urgency =
        if urgency = request.urgency then q.level urgency ++ [request] else q.level urgency := by
      have level := level_setLevel q request.urgency urgency (q.level request.urgency ++ [request])
      split at level
      · next same =>
          subst same
          rwa [if_pos rfl]
      · next differs => rwa [if_neg differs]
    have unknown : ∀ r ∈ q.level urgency, r.id ≠ request.id := fun r member =>
      fresh r (mem_allRequests.mpr ⟨urgency, member⟩)
    rw [inserted, levels]
    by_cases same : id = request.id
    · subst same
      by_cases isLevel : urgency = request.urgency
      · simp [isLevel]
      · simpa [isLevel, Ne.symm isLevel] using unknown
    · rw [if_neg same, indexed.index]
      split
      · simp [Ne.symm same]
      · rfl

/-- Popping is removing the first request. -/
theorem pop_eq (indexed : q.Indexed) :
    q.pop = match q.allRequests.head? with
      | some r => (some r, (q.findAndRemove r.id).2)
      | none => (none, q) := by
  have leads : ∀ urgency r rest, q.level urgency = r :: rest →
      (q.findAndRemove r.id).2 =
        { q.setLevel urgency rest with idIndex := q.idIndex.erase r.id } := by
    intro urgency r rest waits
    have found := (indexed.index r.id urgency).mpr ⟨r, by rw [waits]; exact List.mem_cons_self, rfl⟩
    simp only [findAndRemove, found, waits, List.eraseP_cons, decide_true, cond_true]
  cases critical : q.critical with
  | cons r rest => simp [pop, allRequests, critical, leads .critical r rest critical, setLevel]
  | nil =>
      cases high : q.high with
      | cons r rest => simp [pop, allRequests, critical, high, leads .high r rest high, setLevel]
      | nil =>
          cases medium : q.medium with
          | cons r rest =>
              simp [pop, allRequests, critical, high, medium, leads .medium r rest medium, setLevel]
          | nil =>
              cases low : q.low with
              | cons r rest =>
                  simp [pop, allRequests, critical, high, medium, low, leads .low r rest low, setLevel]
              | nil => simp [pop, allRequests, critical, high, medium, low]

theorem pop_indexed (indexed : q.Indexed) : q.pop.2.Indexed := by
  rw [pop_eq indexed]
  cases q.allRequests.head? with
  | none => exact indexed
  | some r => exact findAndRemove_indexed indexed r.id

/-- Popping takes the first request out of the list and leaves the others. -/
theorem pop_allRequests (indexed : q.Indexed) :
    q.pop.1.toList ++ q.pop.2.allRequests = q.allRequests := by
  rw [pop_eq indexed]
  cases waits : q.allRequests with
  | nil => simp [waits]
  | cons r rest =>
      have distinct := indexed.distinct
      rw [waits, List.map_cons, List.nodup_cons] at distinct
      have others : rest.filter (·.id ≠ r.id) = rest := by
        rw [List.filter_eq_self]
        intro other member
        rw [decide_eq_true_eq]
        intro same
        exact distinct.1 (same ▸ List.mem_map_of_mem member)
      simp only [List.head?_cons, Option.toList_some, findAndRemove_allRequests indexed, waits]
      rw [List.filter_cons_of_neg (by simp), others, List.singleton_append]

/-- The removals of `check_expired`, one request after another. -/
theorem removeAll (indexed : q.Indexed) (gone : List HumanDecisionRequest) :
    (gone.foldl (fun q r => (q.findAndRemove r.id).2) q).Indexed ∧
      (gone.foldl (fun q r => (q.findAndRemove r.id).2) q).allRequests =
        q.allRequests.filter fun r => r.id ∉ gone.map HumanDecisionRequest.id := by
  induction gone generalizing q with
  | nil => simpa using indexed
  | cons g gone ih =>
      obtain ⟨stays, left⟩ := ih (findAndRemove_indexed indexed g.id)
      refine ⟨stays, ?_⟩
      rw [List.foldl_cons, left, findAndRemove_allRequests indexed, List.filter_filter]
      refine List.filter_congr fun r _ => ?_
      rw [List.map_cons]
      by_cases isFirst : r.id = g.id <;> simp [isFirst]

theorem checkExpired_indexed (indexed : q.Indexed) (now : Int) : (q.checkExpired now).2.Indexed :=
  (removeAll indexed _).1

/-- The requests that have not expired stay. -/
theorem checkExpired_allRequests (indexed : q.Indexed) (now : Int) :
    (q.checkExpired now).2.allRequests = q.allRequests.filter fun r => ¬ r.expiresAt < now := by
  rw [checkExpired, (removeAll indexed _).2]
  refine List.filter_congr fun r member => ?_
  have inj := List.inj_on_of_nodup_map indexed.distinct
  have same : r.id ∈ (q.allRequests.filter fun r => r.expiresAt < now).map HumanDecisionRequest.id ↔
      r.expiresAt < now := by
    constructor
    · intro listed
      obtain ⟨r', member', sameId⟩ := List.mem_map.mp listed
      obtain ⟨inQueue, expired⟩ := List.mem_filter.mp member'
      rw [← inj inQueue member sameId]
      simpa using expired
    · intro expired
      exact List.mem_map_of_mem (List.mem_filter.mpr ⟨member, by simpa using expired⟩)
  simp only [same]

end HumanDecisionQueue

end AgileAgent.Core
