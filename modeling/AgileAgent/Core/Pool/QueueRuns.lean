import AgileAgent.Machine
import AgileAgent.Core.Pool.HumanDecisionQueue

/-! # Runs of the queue of human decisions

Requests come and go by six operations. In every run the index stays exact, a request that was pushed
either waits or has left once, and what is popped is the oldest request of the highest urgency.
-/

namespace AgileAgent.Core

open Machine

/-- The place of an urgency in the order of the queues. -/
def UrgencyLevel.place : UrgencyLevel → Nat
  | .critical => 0
  | .high => 1
  | .medium => 2
  | .low => 3

namespace HumanDecisionQueue

/-! ## The remaining operations -/

/-- The first request of an agent in one of the queues, and what is left without it. -/
def removeFrom (q : HumanDecisionQueue) (agentId : String) (urgency : UrgencyLevel) :
    Option (HumanDecisionRequest × HumanDecisionQueue) :=
  ((q.level urgency).find? (·.agentId = agentId)).map fun r =>
    (r, { q.setLevel urgency ((q.level urgency).eraseP (·.agentId = agentId)) with
      idIndex := q.idIndex.erase r.id })

/-- `find_and_remove_by_agent_id`, one queue after another. -/
def findAndRemoveByAgentId (q : HumanDecisionQueue) (agentId : String) :
    Option HumanDecisionRequest × HumanDecisionQueue :=
  match [UrgencyLevel.critical, .high, .medium, .low].findSome? (q.removeFrom agentId) with
  | some (r, q') => (some r, q')
  | none => (none, q)

/-- `clear`, which leaves nothing. -/
def clear (_ : HumanDecisionQueue) : HumanDecisionQueue := {}

inductive QueueOperation where
  | push (request : HumanDecisionRequest)
  | pop
  | complete (response : HumanDecisionResponse)
  | findAndRemoveByAgentId (agentId : String)
  | checkExpired (now : Int)
  | clear

inductive QueueAnswer where
  | done
  | request (r : Option HumanDecisionRequest)
  | completed (known : Bool)
  | expired (requests : List HumanDecisionRequest)

def perform (q : HumanDecisionQueue) : QueueOperation → QueueAnswer × HumanDecisionQueue
  | .push request => (.done, q.push request)
  | .pop => (.request q.pop.1, q.pop.2)
  | .complete response => (.completed (q.complete response).1, (q.complete response).2)
  | .findAndRemoveByAgentId agentId =>
      (.request (q.findAndRemoveByAgentId agentId).1, (q.findAndRemoveByAgentId agentId).2)
  | .checkExpired now => (.expired (q.checkExpired now).1, (q.checkExpired now).2)
  | .clear => (.done, q.clear)

/-! ## What is wanted -/

def QueueOperation.pushed : QueueOperation → List HumanDecisionRequest
  | push request => [request]
  | _ => []

/-- The requests that a run pushes, in their order. -/
def pushed (operations : List QueueOperation) : List HumanDecisionRequest :=
  operations.flatMap QueueOperation.pushed

/-- The requests that an operation hands out, completes or throws away. -/
def left (x : Step HumanDecisionQueue QueueOperation QueueAnswer) : List HumanDecisionRequest :=
  match x.event, x.output with
  | .pop, .request r => r.toList
  | .findAndRemoveByAgentId _, .request r => r.toList
  | .complete response, .completed true =>
      x.before.allRequests.filter (·.id = response.requestId)
  | .checkExpired _, .expired requests => requests
  | .clear, _ => x.before.allRequests
  | _, _ => []

/-- The requests that have left in a run from an empty queue. -/
def departed (operations : List QueueOperation) : List HumanDecisionRequest :=
  (Machine.history perform {} operations).flatMap left

/-- The oldest of the requests with the highest urgency among those in their order of arrival. -/
def IsNext (waiting : List HumanDecisionRequest) (r : HumanDecisionRequest) : Prop :=
  ∃ front back, waiting = front ++ r :: back ∧
    (∀ other ∈ front, r.urgency.place < other.urgency.place) ∧
    ∀ other ∈ back, r.urgency.place ≤ other.urgency.place

/-- The requests of a list that still wait. -/
def waiting (q : HumanDecisionQueue) (pushed : List HumanDecisionRequest) : List HumanDecisionRequest :=
  pushed.filter (· ∈ q.allRequests)

/-- What holds of a queue after a run. The index leads exactly to the requests; what was pushed waits
    or has left, and nothing is there twice; and what is popped next is what is shown. -/
structure Kept (q : HumanDecisionQueue) (pushed departed : List HumanDecisionRequest) : Prop where
  indexed : q.Indexed
  all : pushed.Perm (departed ++ q.allRequests)
  once : (departed ++ q.allRequests).Nodup
  shown : q.pop.1 = q.peek
  next : ∀ r, q.pop.1 = some r → IsNext (q.waiting pushed) r
  none : q.pop.1 = none → q.waiting pushed = []

/-! ## Removals -/

variable {q q' : HumanDecisionQueue} {r : HumanDecisionRequest} {gone : List HumanDecisionRequest}

/-- What an operation that removes requests does, whichever they are. -/
structure Removes (q q' : HumanDecisionQueue) (gone : List HumanDecisionRequest) : Prop where
  indexed : q'.Indexed
  levels : ∃ stays : HumanDecisionRequest → Bool,
    ∀ urgency, q'.level urgency = (q.level urgency).filter stays
  gone : q.allRequests.Perm (gone ++ q'.allRequests)

theorem Removes.refl (indexed : q.Indexed) : Removes q q [] where
  indexed := indexed
  levels := ⟨fun _ => true, fun _ => by simp⟩
  gone := by simp

/-- A request is taken out by its id. -/
theorem removes_known (indexed : q.Indexed) (member : r ∈ q.allRequests) :
    Removes q (q.findAndRemove r.id).2 [r] where
  indexed := findAndRemove_indexed indexed r.id
  levels := ⟨_, findAndRemove_level indexed r.id⟩
  gone := by
    rw [findAndRemove_allRequests indexed]
    have distinct := indexed.distinct
    obtain ⟨front, back, parts⟩ := List.append_of_mem member
    rw [parts, List.map_append, List.map_cons, List.nodup_middle, List.nodup_cons,
      ← List.map_append] at distinct
    have others : (front ++ back).filter (·.id ≠ r.id) = front ++ back := by
      rw [List.filter_eq_self]
      intro other inside
      rw [decide_eq_true_eq]
      intro same
      exact distinct.1 (same ▸ List.mem_map_of_mem inside)
    rw [List.filter_append] at others
    rw [parts, List.filter_append, List.filter_cons_of_neg (by simp), others]
    exact List.perm_middle

theorem pop_removes (indexed : q.Indexed) : Removes q q.pop.2 q.pop.1.toList := by
  rw [pop_eq indexed]
  cases first : q.allRequests.head? with
  | none => exact .refl indexed
  | some r => exact removes_known indexed (List.mem_of_mem_head? first)

theorem eraseP_of_find? {agentId : String} {requests : List HumanDecisionRequest}
    (distinct : (requests.map HumanDecisionRequest.id).Nodup)
    (found : requests.find? (·.agentId = agentId) = some r) :
    requests.eraseP (·.agentId = agentId) = requests.eraseP (·.id = r.id) := by
  obtain ⟨isAgent, front, back, rfl, earlier⟩ := List.find?_eq_some_iff_append.mp found
  have others : ∀ other ∈ front, other.id ≠ r.id := by
    intro other inside same
    rw [List.map_append, List.map_cons, List.nodup_middle, List.nodup_cons] at distinct
    exact distinct.1 (List.mem_append_left _ (same ▸ List.mem_map_of_mem inside))
  rw [List.eraseP_append_right _ (by simpa using earlier),
    List.eraseP_append_right _ (by simpa using others)]
  simp [of_decide_eq_true isAgent]

theorem removeFrom_eq (indexed : q.Indexed) {agentId : String} {urgency : UrgencyLevel}
    (removed : q.removeFrom agentId urgency = some (r, q')) :
    r ∈ q.allRequests ∧ q' = (q.findAndRemove r.id).2 := by
  obtain ⟨r', found, same⟩ := Option.map_eq_some_iff.mp removed
  cases same
  have inside := List.mem_of_find?_eq_some found
  have listed := (indexed.index r.id urgency).mpr ⟨r, inside, rfl⟩
  refine ⟨mem_allRequests.mpr ⟨urgency, inside⟩, ?_⟩
  rw [findAndRemove, listed,
    eraseP_of_find? (indexed.distinct.sublist ((q.level_sublist urgency).map _)) found]

theorem findAndRemoveByAgentId_removes (indexed : q.Indexed) (agentId : String) :
    Removes q (q.findAndRemoveByAgentId agentId).2 (q.findAndRemoveByAgentId agentId).1.toList := by
  rw [findAndRemoveByAgentId]
  cases found : [UrgencyLevel.critical, .high, .medium, .low].findSome? (q.removeFrom agentId) with
  | none => exact .refl indexed
  | some removed =>
      obtain ⟨r, q'⟩ := removed
      obtain ⟨urgency, -, here⟩ := List.exists_of_findSome?_eq_some found
      obtain ⟨member, rfl⟩ := removeFrom_eq indexed here
      exact removes_known indexed member

theorem complete_level (indexed : q.Indexed) (response : HumanDecisionResponse) (urgency : UrgencyLevel) :
    (q.complete response).2.level urgency = (q.level urgency).filter (·.id ≠ response.requestId) := by
  rw [← findAndRemove_level indexed, complete]
  split
  · cases urgency <;> rfl
  · rfl

theorem complete_removes (indexed : q.Indexed) (response : HumanDecisionResponse) :
    Removes q (q.complete response).2
      (left ⟨q, .complete response, .completed (q.complete response).1, (q.complete response).2⟩) where
  indexed := complete_indexed indexed response
  levels := ⟨_, complete_level indexed response⟩
  gone := by
    by_cases known : ∃ r ∈ q.allRequests, r.id = response.requestId
    · obtain ⟨r, member, isId⟩ := known
      obtain ⟨answer, -⟩ := complete_known indexed member isId
      rw [complete_allRequests indexed, answer]
      have parts := List.filter_append_perm (fun r => decide (r.id = response.requestId)) q.allRequests
      simpa [left] using parts.symm
    · have unknown : ∀ r ∈ q.allRequests, r.id ≠ response.requestId :=
        fun r member isId => known ⟨r, member, isId⟩
      rw [complete_unknown indexed unknown]
      exact List.Perm.refl _

theorem removeAll_level (indexed : q.Indexed) (gone : List HumanDecisionRequest) (urgency : UrgencyLevel) :
    (gone.foldl (fun q r => (q.findAndRemove r.id).2) q).level urgency =
      (q.level urgency).filter fun r => r.id ∉ gone.map HumanDecisionRequest.id := by
  induction gone generalizing q with
  | nil => simp
  | cons g gone ih =>
      rw [List.foldl_cons, ih (findAndRemove_indexed indexed g.id), findAndRemove_level indexed,
        List.filter_filter]
      apply List.filter_congr
      intro r _
      rw [List.map_cons]
      by_cases isFirst : r.id = g.id <;> simp [isFirst]

theorem checkExpired_removes (indexed : q.Indexed) (now : Int) :
    Removes q (q.checkExpired now).2 (q.checkExpired now).1 where
  indexed := checkExpired_indexed indexed now
  levels := ⟨_, removeAll_level indexed _⟩
  gone := by
    rw [checkExpired_allRequests indexed]
    have parts := List.filter_append_perm (fun r => decide (r.expiresAt < now)) q.allRequests
    simpa only [checkExpired, decide_not] using parts.symm

theorem clear_removes : Removes q q.clear q.allRequests where
  indexed := indexed_empty
  levels := by
    refine ⟨fun _ => false, fun urgency => ?_⟩
    cases urgency <;> simp [clear, level]
  gone := by simp [clear, allRequests]

/-- Every operation but a push removes what has left by it. -/
theorem perform_removes (indexed : q.Indexed) {operation : QueueOperation}
    (quiet : operation.pushed = []) :
    Removes q (q.perform operation).2
      (left ⟨q, operation, (q.perform operation).1, (q.perform operation).2⟩) := by
  cases operation with
  | push request => cases quiet
  | pop => exact pop_removes indexed
  | complete response => exact complete_removes indexed response
  | findAndRemoveByAgentId agentId => exact findAndRemoveByAgentId_removes indexed agentId
  | checkExpired now => exact checkExpired_removes indexed now
  | clear => exact clear_removes

/-! ## The order of arrival -/

/-- Each queue has the requests of its urgency that wait, in the order in which they were pushed. -/
def InOrder (q : HumanDecisionQueue) (pushed : List HumanDecisionRequest) : Prop :=
  ∀ urgency, q.level urgency = (q.waiting pushed).filter (·.urgency = urgency)

section

variable {pushed departed : List HumanDecisionRequest}

theorem InOrder.removes (ordered : q.InOrder pushed) (removed : Removes q q' gone) : q'.InOrder pushed := by
  obtain ⟨stays, levels⟩ := removed.levels
  intro urgency
  rw [levels, ordered urgency, waiting, waiting, allRequests_filter levels, List.filter_filter,
    List.filter_filter, List.filter_filter]
  apply List.filter_congr
  intro r _
  simp only [List.mem_filter, Bool.decide_and, Bool.decide_eq_true]
  grind

theorem push_level (request : HumanDecisionRequest) (urgency : UrgencyLevel) :
    (q.push request).level urgency =
      q.level urgency ++ [request].filter (·.urgency = urgency) := by
  have level := level_setLevel q request.urgency urgency (q.level request.urgency ++ [request])
  have same : (q.push request).level urgency =
      (q.setLevel request.urgency (q.level request.urgency ++ [request])).level urgency := by
    cases urgency <;> rfl
  rw [same, level]
  by_cases here : urgency = request.urgency
  · simp [here]
  · simp [here, Ne.symm here]

theorem InOrder.push (ordered : q.InOrder pushed) {request : HumanDecisionRequest}
    (fresh : request ∉ pushed) : (q.push request).InOrder (pushed ++ [request]) := by
  intro urgency
  have same : pushed.filter (· ∈ (q.push request).allRequests) = pushed.filter (· ∈ q.allRequests) := by
    apply List.filter_congr
    intro r member
    have other : r ≠ request := fun same => fresh (same ▸ member)
    simp [(q.push_perm request).mem_iff, other]
  have new : request ∈ (q.push request).allRequests :=
    (q.push_perm request).mem_iff.mpr List.mem_cons_self
  have waits : [request].filter (· ∈ (q.push request).allRequests) = [request] :=
    List.filter_cons_of_pos (decide_eq_true new)
  rw [push_level, ordered urgency, waiting, waiting, List.filter_append, List.filter_append, same, waits]

theorem peek_level (first : q.peek = some r) :
    ∃ urgency rest, q.level urgency = r :: rest ∧
      ∀ other : UrgencyLevel, other.place < urgency.place → q.level other = [] := by
  unfold peek at first
  cases critical : q.critical with
  | cons r' rest =>
      simp only [critical, List.head?_cons, Option.some_or, Option.some.injEq] at first
      refine ⟨.critical, rest, by rw [level, critical, first], fun other before => ?_⟩
      cases before
  | nil =>
      cases high : q.high with
      | cons r' rest =>
          simp only [critical, high, List.head?_nil, List.head?_cons, Option.none_or, Option.some_or,
            Option.some.injEq] at first
          refine ⟨.high, rest, by rw [level, high, first], fun other before => ?_⟩
          cases other <;> simp_all [UrgencyLevel.place, level]
      | nil =>
          cases medium : q.medium with
          | cons r' rest =>
              simp only [critical, high, medium, List.head?_nil, List.head?_cons, Option.none_or,
                Option.some_or, Option.some.injEq] at first
              refine ⟨.medium, rest, by rw [level, medium, first], fun other before => ?_⟩
              cases other <;> simp_all [UrgencyLevel.place, level]
          | nil =>
              cases low : q.low with
              | cons r' rest =>
                  simp only [critical, high, medium, low, List.head?_nil, List.head?_cons,
                    Option.none_or, Option.some.injEq] at first
                  refine ⟨.low, rest, by rw [level, low, first], fun other before => ?_⟩
                  cases other <;> simp_all [UrgencyLevel.place, level]
              | nil => simp [critical, high, medium, low] at first

theorem place_injective {urgency other : UrgencyLevel} (same : urgency.place = other.place) :
    urgency = other := by
  cases urgency <;> cases other <;> first | rfl | cases same

/-- What is shown is the next one by urgency and age. -/
theorem peek_isNext (ordered : q.InOrder pushed) (first : q.peek = some r) : IsNext (q.waiting pushed) r := by
  obtain ⟨urgency, rest, leads, higher⟩ := peek_level first
  rw [ordered urgency] at leads
  have least : ∀ other ∈ q.waiting pushed, urgency.place ≤ other.urgency.place := by
    intro other member
    by_contra above
    have empty := higher other.urgency (by omega)
    rw [ordered, List.filter_eq_nil_iff] at empty
    exact empty other member (by simp)
  obtain ⟨front, back, parts, earlier, isUrgency, -⟩ := List.filter_eq_cons_iff.mp leads
  have its : r.urgency = urgency := by simpa using isUrgency
  rw [parts] at least
  refine ⟨front, back, parts, fun other member => ?_, fun other member => ?_⟩
  · have ge := least other (List.mem_append_left _ member)
    have apart : other.urgency ≠ urgency := by simpa using earlier other member
    have differ : other.urgency.place ≠ urgency.place := fun same => apart (place_injective same)
    rw [its]
    omega
  · rw [its]
    exact least other (List.mem_append_right _ (List.mem_cons_of_mem _ member))

/-- What holds of the lists and the order makes up what is wanted. -/
theorem kept_of_order (indexed : q.Indexed) (ordered : q.InOrder pushed)
    (all : pushed.Perm (departed ++ q.allRequests)) (distinct : (pushed.map HumanDecisionRequest.id).Nodup) :
    q.Kept pushed departed := by
  have shown : q.pop.1 = q.peek := by
    rw [pop_eq indexed, peek_eq]
    cases q.allRequests.head? <;> rfl
  refine ⟨indexed, all, all.nodup_iff.mp (.of_map _ distinct), shown, fun r popped => ?_, fun empty => ?_⟩
  · exact peek_isNext ordered (shown ▸ popped)
  · rw [shown, peek_eq, List.head?_eq_none_iff] at empty
    simp [waiting, empty]

end

/-! ## Runs -/

theorem pushed_snoc (operations : List QueueOperation) (operation : QueueOperation) :
    pushed (operations ++ [operation]) = pushed operations ++ operation.pushed := by
  simp [pushed]

theorem departed_snoc (operations : List QueueOperation) (operation : QueueOperation) :
    departed (operations ++ [operation]) = departed operations ++
      left ⟨final perform {} operations, operation, ((final perform {} operations).perform operation).1,
        ((final perform {} operations).perform operation).2⟩ := by
  rw [departed, departed, history_snoc, List.flatMap_append, List.flatMap_singleton]

/-- Every operation keeps the index, the order of arrival and the requests. -/
theorem run_ordered {operations : List QueueOperation}
    (distinct : ((pushed operations).map HumanDecisionRequest.id).Nodup) :
    (final perform {} operations).Indexed ∧ (final perform {} operations).InOrder (pushed operations) ∧
      (pushed operations).Perm (departed operations ++ (final perform {} operations).allRequests) := by
  induction operations using List.reverseRecOn with
  | nil =>
      refine ⟨indexed_empty, fun urgency => ?_, ?_⟩
      · cases urgency <;> rfl
      · exact List.Perm.refl []
  | append_singleton operations operation ih =>
      rw [pushed_snoc, List.map_append] at distinct
      obtain ⟨indexed, ordered, all⟩ := ih (distinct.sublist (List.sublist_append_left _ _))
      rw [final_snoc, pushed_snoc, departed_snoc]
      cases news : operation.pushed with
      | nil =>
          have removed := perform_removes indexed news
          refine ⟨removed.indexed, ?_, ?_⟩
          · rw [List.append_nil]
            exact ordered.removes removed
          · rw [List.append_nil, List.append_assoc]
            exact all.trans (removed.gone.append_left _)
      | cons request rest =>
          cases operation with
          | push request =>
              cases news
              have apart : ∀ r ∈ pushed operations, r.id ≠ request.id := by
                intro r member same
                have disjoint := List.disjoint_of_nodup_append distinct
                exact disjoint (List.mem_map_of_mem member) (by simp [QueueOperation.pushed, same])
              have fresh : request ∉ pushed operations := fun member => apart request member rfl
              have new : ∀ r ∈ (final perform {} operations).allRequests, r.id ≠ request.id :=
                fun r member => apart r (all.mem_iff.mpr (List.mem_append_right _ member))
              refine ⟨push_indexed indexed new, ordered.push fresh, ?_⟩
              have pushes := (final perform {} operations).push_perm request
              have whole := all.append_right [request]
              rw [List.append_assoc] at whole
              refine whole.trans ?_
              have stays : left ⟨final perform {} operations, .push request, .done,
                  (final perform {} operations).push request⟩ = [] := rfl
              rw [perform, stays, List.append_nil]
              exact ((List.perm_append_singleton _ _).trans pushes.symm).append_left _
          | _ => cases news

/-- After every run with its own id for each request, the queue is as it should be. -/
theorem queue_kept (operations : List QueueOperation)
    (distinct : ((pushed operations).map HumanDecisionRequest.id).Nodup) :
    (final perform {} operations).Kept (pushed operations) (departed operations) := by
  obtain ⟨indexed, ordered, all⟩ := run_ordered distinct
  exact kept_of_order indexed ordered all distinct

/-- Two requests, of which the later and more urgent one is popped first. -/
def twoRequests : List QueueOperation :=
  [.push (.create "req-1" "agent_001" "review" [] .low 1000 0),
    .push (.create "req-2" "agent_002" "review" [] .critical 1000 0), .pop]

theorem twoRequests_kept : ((pushed twoRequests).map HumanDecisionRequest.id).Nodup ∧
    (final perform {} twoRequests).Kept (pushed twoRequests) (departed twoRequests) := by
  have distinct : ((pushed twoRequests).map HumanDecisionRequest.id).Nodup := by decide
  exact ⟨distinct, queue_kept twoRequests distinct⟩

end HumanDecisionQueue

end AgileAgent.Core
