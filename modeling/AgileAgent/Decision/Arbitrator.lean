import AgileAgent.Machine
import AgileAgent.Core.Pool.HumanDecisionQueue

/-! # The arbitrator of human requests

Requests that need a human are shown one at a time or a few in parallel; the others wait in the
queue. A threshold of similarity is the test that a ratio of two counts is above it.
-/

namespace AgileAgent.Decision

open AgileAgent.Core (ChoiceOption HumanDecisionRequest HumanDecisionResponse HumanDecisionQueue)
open Machine

inductive ArbitrationStrategy where
  | sequential
  | batchSimilar (above : Nat → Nat → Bool)
  | parallel (maxConcurrent : Nat)

inductive ArbitrationResult where
  | immediate (request : HumanDecisionRequest)
  | queued (position : Nat)
  | batched (withRequestId : String)
  deriving DecidableEq

structure HumanDecisionArbitrator where
  queue : HumanDecisionQueue
  current : Option HumanDecisionRequest := none
  strategy : ArbitrationStrategy
  activeParallel : List HumanDecisionRequest := []

namespace HumanDecisionArbitrator

/-- `HumanDecisionArbitrator::new`. -/
def create (strategy : ArbitrationStrategy) (queue : HumanDecisionQueue) : HumanDecisionArbitrator :=
  { queue, strategy }

/-- `options_similarity`, compared with the threshold. -/
def optionsSimilar (above : Nat → Nat → Bool) (a b : List ChoiceOption) : Bool :=
  if a.isEmpty || b.isEmpty then above 0 1
  else above (a.countP fun o => b.any (·.id = o.id)) (max a.length b.length)

def isSimilar (a b : HumanDecisionRequest) (above : Nat → Nat → Bool) : Bool :=
  a.situationType = b.situationType && optionsSimilar above a.options b.options

/-- The request waits; the position is the last one. -/
def enqueue (a : HumanDecisionArbitrator) (request : HumanDecisionRequest) :
    ArbitrationResult × HumanDecisionArbitrator :=
  (.queued (a.queue.push request).totalPending, { a with queue := a.queue.push request })

def submit (a : HumanDecisionArbitrator) (request : HumanDecisionRequest) :
    ArbitrationResult × HumanDecisionArbitrator :=
  match a.strategy with
  | .sequential =>
      if a.current.isSome then a.enqueue request
      else (.immediate request, { a with current := some request })
  | .batchSimilar above =>
      match a.current with
      | some current =>
          if isSimilar request current above then
            (.batched current.id, { a with queue := a.queue.push request })
          else a.enqueue request
      | none => (.immediate request, { a with current := some request })
  | .parallel maxConcurrent =>
      if a.activeParallel.length < maxConcurrent then
        (.immediate request, { a with activeParallel := a.activeParallel ++ [request] })
      else a.enqueue request

def findRequest (a : HumanDecisionArbitrator) (id : String) : Option HumanDecisionRequest :=
  match a.current with
  | some current => if current.id = id then some current else a.activeParallel.find? (·.id = id)
  | none => a.activeParallel.find? (·.id = id)

def complete (a : HumanDecisionArbitrator) (response : HumanDecisionResponse) :
    Option HumanDecisionRequest × HumanDecisionArbitrator :=
  let request := a.findRequest response.requestId
  let queue := (a.queue.complete response).2
  match a.strategy with
  | .sequential => (request, { a with current := queue.pop.1, queue := queue.pop.2 })
  | .batchSimilar _ => (request, { a with current := queue.pop.1, queue := queue.pop.2 })
  | .parallel _ =>
      let active := match request with
        | some r => a.activeParallel.filter (·.id ≠ r.id)
        | none => a.activeParallel
      (request, { a with activeParallel := active ++ queue.pop.1.toList, queue := queue.pop.2 })

def activeCount (a : HumanDecisionArbitrator) : Nat :=
  match a.strategy with
  | .parallel _ => a.activeParallel.length
  | _ => if a.current.isSome then 1 else 0

inductive Call where
  | submit (request : HumanDecisionRequest)
  | complete (response : HumanDecisionResponse)

inductive Answer where
  | arbitrated (result : ArbitrationResult)
  | completed (request : Option HumanDecisionRequest)

def call (a : HumanDecisionArbitrator) : Call → Answer × HumanDecisionArbitrator
  | .submit request => (.arbitrated (a.submit request).1, (a.submit request).2)
  | .complete response => (.completed (a.complete response).1, (a.complete response).2)

/-- The request that a call submits. -/
def Call.request : Call → Option HumanDecisionRequest
  | .submit request => some request
  | .complete _ => none

/-- The request that an answer returns to its caller. -/
def Answer.returned : Answer → Option HumanDecisionRequest
  | .completed request => request
  | .arbitrated _ => none

/-- How many requests may be shown at once. -/
def limit (a : HumanDecisionArbitrator) : Nat :=
  match a.strategy with
  | .parallel maxConcurrent => maxConcurrent
  | _ => 1

/-- The requests that nobody has completed. -/
def held (a : HumanDecisionArbitrator) : List HumanDecisionRequest :=
  a.current.toList ++ (a.activeParallel ++ a.queue.allRequests)

/-- The slots that a strategy does not use stay empty. -/
def Settled (a : HumanDecisionArbitrator) : Prop :=
  match a.strategy with
  | .parallel _ => a.current = none
  | _ => a.activeParallel = []

/-- Every request is in one place, and no more are shown than may be. -/
structure Kept (a : HumanDecisionArbitrator) : Prop where
  indexed : a.queue.Indexed
  distinct : (a.held.map HumanDecisionRequest.id).Nodup
  settled : a.Settled
  within : a.activeCount ≤ a.limit

variable {a : HumanDecisionArbitrator} {response : HumanDecisionResponse}
  {request : HumanDecisionRequest}

/-! ## Submitting -/

theorem enqueue_held (a : HumanDecisionArbitrator) (request : HumanDecisionRequest) :
    (request :: a.held).Perm ((a.enqueue request).2.held) := by
  have pushed := a.queue.push_perm request
  have front : (a.current.toList ++ (a.activeParallel ++ request :: a.queue.allRequests)).Perm
      (request :: a.held) := by
    simp only [held, ← List.append_assoc]
    exact List.perm_middle
  exact front.symm.trans ((pushed.symm.append_left _).append_left _)

/-- A request that is submitted is held, with all the others. -/
theorem submit_held (a : HumanDecisionArbitrator) (request : HumanDecisionRequest) :
    (request :: a.held).Perm (a.submit request).2.held := by
  have shown : a.current = none →
      (request :: a.held).Perm ({ a with current := some request } : HumanDecisionArbitrator).held := by
    intro free
    rw [held, held, free]
    exact List.Perm.refl _
  unfold submit
  split
  · split
    · exact enqueue_held a request
    · rename_i free
      exact shown (by simpa using free)
  · split
    · split
      · exact enqueue_held a request
      · exact enqueue_held a request
    · rename_i free
      exact shown free
  · split
    · simp only [held, List.append_assoc, List.singleton_append]
      rw [← List.append_assoc, ← List.append_assoc]
      exact List.perm_middle.symm
    · exact enqueue_held a request

theorem submit_indexed (kept : Kept a) (fresh : ∀ r ∈ a.held, r.id ≠ request.id) :
    (a.submit request).2.queue.Indexed := by
  have pushed : (a.queue.push request).Indexed := HumanDecisionQueue.push_indexed kept.indexed
    fun r member => fresh r (List.mem_append_right _ (List.mem_append_right _ member))
  have stays := kept.indexed
  unfold submit enqueue
  split <;> split <;> try split
  all_goals first | exact pushed | exact stays

theorem submit_strategy (a : HumanDecisionArbitrator) (request : HumanDecisionRequest) :
    (a.submit request).2.strategy = a.strategy := by
  unfold submit enqueue
  split <;> split <;> try split
  all_goals rfl

theorem complete_strategy (a : HumanDecisionArbitrator) (response : HumanDecisionResponse) :
    (a.complete response).2.strategy = a.strategy := by
  unfold complete
  split <;> rfl

theorem submit_settled (kept : Kept a) (request : HumanDecisionRequest) :
    (a.submit request).2.Settled ∧ (a.submit request).2.activeCount ≤ (a.submit request).2.limit := by
  obtain ⟨-, -, settled, within⟩ := kept
  unfold Settled activeCount limit at *
  rw [submit_strategy]
  unfold submit enqueue
  cases strategy : a.strategy with
  | sequential =>
      simp only [strategy] at settled ⊢
      cases current : a.current <;> simp [settled]
  | batchSimilar above =>
      simp only [strategy] at settled ⊢
      cases current : a.current with
      | none => simp [settled]
      | some current =>
          simp only
          split <;> simp [*]
  | parallel maxConcurrent =>
      simp only [strategy] at settled within ⊢
      split
      · rename_i room
        simp only [List.length_append, List.length_singleton]
        exact ⟨settled, room⟩
      · exact ⟨settled, within⟩

/-! ## Completing -/

theorem complete_indexed (kept : Kept a) (response : HumanDecisionResponse) :
    (a.complete response).2.queue.Indexed := by
  have popped := HumanDecisionQueue.pop_indexed
    (HumanDecisionQueue.complete_indexed kept.indexed response)
  unfold complete
  split <;> exact popped

theorem complete_settled (kept : Kept a) (response : HumanDecisionResponse) :
    (a.complete response).2.Settled := by
  have settled := kept.settled
  unfold Settled at *
  rw [complete_strategy]
  unfold complete
  cases strategy : a.strategy <;> simp only [strategy] at settled ⊢ <;> exact settled

/-- What a completion leaves of the requests that are not shown. -/
theorem complete_queue (kept : Kept a) (response : HumanDecisionResponse) :
    let queue := (a.queue.complete response).2
    queue.pop.1.toList ++ queue.pop.2.allRequests =
      a.queue.allRequests.filter (·.id ≠ response.requestId) := by
  have left := HumanDecisionQueue.pop_allRequests
    (HumanDecisionQueue.complete_indexed kept.indexed response)
  rw [HumanDecisionQueue.complete_allRequests kept.indexed] at left
  exact left

/-- One request at a time: the completion takes the one that is shown away, whoever answered. -/
theorem complete_single (kept : Kept a) (single : ∀ n, a.strategy ≠ .parallel n)
    (response : HumanDecisionResponse) :
    (a.complete response).1 = a.current.filter (·.id = response.requestId) ∧
      (a.complete response).2.held = a.queue.allRequests.filter (·.id ≠ response.requestId) ∧
      (a.complete response).2.activeCount ≤ (a.complete response).2.limit := by
  have settled : a.activeParallel = [] := by
    have settled := kept.settled
    unfold Settled at settled
    split at settled
    · rename_i n strategy
      exact absurd strategy (single n)
    · exact settled
  have found : a.findRequest response.requestId = a.current.filter (·.id = response.requestId) := by
    unfold findRequest
    cases a.current <;> simp [settled, Option.filter]
  have left := complete_queue kept response
  have one : (a.complete response).2.activeCount ≤ (a.complete response).2.limit := by
    unfold activeCount limit
    rw [complete_strategy]
    split
    · rename_i n strategy
      exact absurd strategy (single n)
    · split <;> omega
  refine ⟨?_, ?_, one⟩
  · rw [← found]
    unfold complete
    split <;> rfl
  · rw [← left]
    unfold complete held
    split
    · simp [settled]
    · simp [settled]
    · rename_i n strategy
      exact absurd strategy (single n)

/-- Several at a time: the completion takes the request away that it is about. -/
theorem complete_parallel (kept : Kept a) {maxConcurrent : Nat}
    (strategy : a.strategy = .parallel maxConcurrent) (response : HumanDecisionResponse) :
    (a.complete response).1 = a.activeParallel.find? (·.id = response.requestId) ∧
      (a.complete response).2.held = a.held.filter (·.id ≠ response.requestId) ∧
      ((a.complete response).2.activeCount ≤ (a.complete response).2.limit ↔
        (a.activeParallel.filter (·.id ≠ response.requestId)).length +
          (a.queue.complete response).2.pop.1.toList.length ≤ maxConcurrent) := by
  have nobody : a.current = none := by simpa only [Settled, strategy] using kept.settled
  have found : a.findRequest response.requestId =
      a.activeParallel.find? (·.id = response.requestId) := by rw [findRequest, nobody]
  have left := complete_queue kept response
  have retained : (match a.findRequest response.requestId with
      | some r => a.activeParallel.filter (·.id ≠ r.id)
      | none => a.activeParallel) = a.activeParallel.filter (·.id ≠ response.requestId) := by
    rw [found]
    cases search : a.activeParallel.find? (·.id = response.requestId) with
    | some r =>
        have isId : r.id = response.requestId := by simpa using List.find?_some search
        simp only [isId]
    | none =>
        refine (FirstMatch.filter_ne_self fun r member => ?_).symm
        simpa using List.find?_eq_none.mp search r member
  have whole : a.complete response =
      (a.findRequest response.requestId,
        { a with
          activeParallel := a.activeParallel.filter (·.id ≠ response.requestId) ++
            (a.queue.complete response).2.pop.1.toList
          queue := (a.queue.complete response).2.pop.2 }) := by
    rw [← retained, complete, strategy]
  rw [whole]
  refine ⟨found, ?_, ?_⟩
  · simp only [held, nobody, Option.toList_none, List.nil_append, List.append_assoc, left,
      List.filter_append]
  · simp only [activeCount, limit, strategy, List.length_append]

/-! ## What the arbitrator is for -/

/-- A step keeps what is submitted until it is answered, returns what it takes out, and shows no more
    requests than it may. -/
structure Right (x : Step HumanDecisionArbitrator Call Answer) : Prop where
  submits : ∀ request, x.event = .submit request → (request :: x.before.held).Perm x.after.held
  completes : ∀ response, x.event = .complete response →
    x.before.held.Perm (x.output.returned.toList ++ x.after.held) ∧
      (∀ r ∈ x.output.returned, r.id = response.requestId) ∧
      ∀ r ∈ x.after.held, r.id ≠ response.requestId
  within : x.after.activeCount ≤ x.after.limit

/-- No request that waits has the id. -/
def Unqueued (a : HumanDecisionArbitrator) (id : String) : Prop := ∀ r ∈ a.queue.allRequests, r.id ≠ id

/-- The response answers a request that is shown, or it answers none and there is room to show what
    waits. -/
def Fits (a : HumanDecisionArbitrator) : Call → Prop
  | .submit _ => True
  | .complete response =>
    match a.strategy with
    | .parallel maxConcurrent =>
        (∃ r ∈ a.activeParallel, r.id = response.requestId) ∨
          Unqueued a response.requestId ∧
            (a.queue.allRequests = [] ∨ a.activeParallel.length < maxConcurrent)
    | _ =>
        match a.current with
        | some current => current.id = response.requestId
        | none => Unqueued a response.requestId

/-- A completion that finds its request where it is held takes out this one and no other. -/
theorem completes_found (kept : Kept a)
    (found : (a.complete response).1 = a.held.find? (·.id = response.requestId))
    (left : (a.complete response).2.held = a.held.filter (·.id ≠ response.requestId)) :
    a.held.Perm ((a.complete response).1.toList ++ (a.complete response).2.held) ∧
      (∀ r ∈ (a.complete response).1, r.id = response.requestId) ∧
      ∀ r ∈ (a.complete response).2.held, r.id ≠ response.requestId := by
  rw [found, left]
  refine ⟨?_, ?_, ?_⟩
  · cases search : a.held.find? (·.id = response.requestId) with
    | none =>
        rw [FirstMatch.filter_ne_self (by simpa using search)]
        exact List.Perm.refl _
    | some r =>
        have isId : r.id = response.requestId := by simpa using List.find?_some search
        rw [← isId]
        exact FirstMatch.perm_cons_filter kept.distinct (List.mem_of_find?_eq_some search)
  · intro r search
    simpa using List.find?_some search
  · intro r member
    simpa using (List.mem_filter.mp member).2

theorem complete_single_iff (kept : Kept a) (single : ∀ n, a.strategy ≠ .parallel n) :
    Right ⟨a, .complete response, (a.call (.complete response)).1, (a.call (.complete response)).2⟩ ↔
      match a.current with
      | some current => current.id = response.requestId
      | none => Unqueued a response.requestId := by
  obtain ⟨returned, after, within⟩ := complete_single kept single response
  have settled : a.held = a.current.toList ++ a.queue.allRequests := by
    have settled := kept.settled
    unfold Settled at settled
    split at settled
    · rename_i n strategy
      exact absurd strategy (single n)
    · rw [held, settled, List.nil_append]
  have distinct := kept.distinct
  cases current : a.current with
  | none =>
      rw [current, Option.toList_none, List.nil_append] at settled
      rw [current, Option.filter_none] at returned
      constructor
      · intro right r member
        have same := (right.completes response rfl).1
        simp only [call, Answer.returned, returned, Option.toList_none, List.nil_append, after,
          settled] at same
        simpa using (List.mem_filter.mp (same.subset member)).2
      · intro unqueued
        refine ⟨by rintro _ ⟨⟩, ?_, within⟩
        rintro _ ⟨⟩
        refine completes_found kept ?_ (by rw [after, settled])
        rw [returned, settled]
        symm
        simpa [Unqueued] using unqueued
  | some current' =>
      rw [current, Option.toList_some, List.singleton_append] at settled
      rw [settled, List.map_cons, List.nodup_cons] at distinct
      constructor
      · intro right
        by_contra other
        have same := (right.completes response rfl).1.length_eq
        have fewer := List.length_filter_le (fun r => decide (r.id ≠ response.requestId))
          a.queue.allRequests
        simp only [call, Answer.returned, returned, current, Option.filter_some, other, decide_false,
          Bool.false_eq_true, if_false, Option.toList_none, List.nil_append, after, settled,
          List.length_cons] at same
        omega
      · intro isId
        refine ⟨by rintro _ ⟨⟩, ?_, within⟩
        rintro _ ⟨⟩
        refine completes_found kept ?_ ?_
        · simp [returned, current, settled, isId]
        · simp [after, settled, isId]

/-- A completion shows the next request if one waits. -/
theorem popped_length (kept : Kept a) (response : HumanDecisionResponse) :
    (a.queue.complete response).2.pop.1.toList.length =
      min 1 (a.queue.allRequests.filter (·.id ≠ response.requestId)).length := by
  rw [HumanDecisionQueue.pop_eq (HumanDecisionQueue.complete_indexed kept.indexed response),
    HumanDecisionQueue.complete_allRequests kept.indexed]
  cases a.queue.allRequests.filter (·.id ≠ response.requestId) with
  | nil => rfl
  | cons first rest => simp

theorem complete_parallel_iff (kept : Kept a) {maxConcurrent : Nat}
    (strategy : a.strategy = .parallel maxConcurrent) :
    Right ⟨a, .complete response, (a.call (.complete response)).1, (a.call (.complete response)).2⟩ ↔
      (∃ r ∈ a.activeParallel, r.id = response.requestId) ∨
        Unqueued a response.requestId ∧
          (a.queue.allRequests = [] ∨ a.activeParallel.length < maxConcurrent) := by
  obtain ⟨returned, after, within⟩ := complete_parallel kept strategy response
  rw [popped_length kept] at within
  have settled : a.held = a.activeParallel ++ a.queue.allRequests := by
    have nobody : a.current = none := by simpa only [Settled, strategy] using kept.settled
    rw [held, nobody, Option.toList_none, List.nil_append]
  have bound : a.activeParallel.length ≤ maxConcurrent := by
    simpa only [activeCount, limit, strategy] using kept.within
  by_cases shown : ∃ r ∈ a.activeParallel, r.id = response.requestId
  · refine iff_of_true ⟨by rintro _ ⟨⟩, ?_, within.mpr ?_⟩ (Or.inl shown)
    · rintro _ ⟨⟩
      refine completes_found kept ?_ after
      obtain ⟨r, search⟩ : ∃ r, a.activeParallel.find? (·.id = response.requestId) = some r := by
        rw [← Option.isSome_iff_exists, List.find?_isSome]
        simpa using shown
      rw [returned, settled, List.find?_append, search, Option.some_or]
    · obtain ⟨r, member, isId⟩ := shown
      have fewer : (a.activeParallel.filter (·.id ≠ response.requestId)).length <
          a.activeParallel.length := by
        rw [List.length_filter_lt_length_iff_exists]
        exact ⟨r, member, by simpa using isId⟩
      omega
  · have others : ∀ r ∈ a.activeParallel, r.id ≠ response.requestId := fun r member same =>
      shown ⟨r, member, same⟩
    have nothing : a.activeParallel.find? (·.id = response.requestId) = none := by
      simpa using others
    rw [FirstMatch.filter_ne_self others] at within
    constructor
    · intro right
      have same := (right.completes response rfl).1
      simp only [call, Answer.returned, returned, nothing, Option.toList_none, List.nil_append,
        after] at same
      have unqueued : Unqueued a response.requestId := by
        intro r member
        have inHeld : r ∈ a.held := settled ▸ List.mem_append_right _ member
        simpa using (List.mem_filter.mp (same.subset inHeld)).2
      have fits := within.mp right.within
      rw [FirstMatch.filter_ne_self unqueued] at fits
      refine Or.inr ⟨unqueued, ?_⟩
      rw [← List.length_eq_zero_iff]
      omega
    · intro fits
      obtain ⟨unqueued, room⟩ := fits.resolve_left shown
      rw [FirstMatch.filter_ne_self unqueued] at within
      refine ⟨by rintro _ ⟨⟩, ?_, within.mpr ?_⟩
      · rintro _ ⟨⟩
        refine completes_found kept ?_ after
        have unknown : a.queue.allRequests.find? (·.id = response.requestId) = none := by
          simpa [Unqueued] using unqueued
        rw [returned, settled, List.find?_append, nothing, unknown, Option.none_or]
      · rw [← List.length_eq_zero_iff] at room
        omega

theorem call_right_iff (kept : Kept a) (c : Call)
    (fresh : ∀ request, c.request = some request → ∀ r ∈ a.held, r.id ≠ request.id) :
    Right ⟨a, c, (a.call c).1, (a.call c).2⟩ ↔ Fits a c := by
  cases c with
  | submit request =>
      have settled := submit_settled kept request
      refine iff_of_true ⟨?_, by rintro _ ⟨⟩, settled.2⟩ trivial
      rintro _ ⟨⟩
      exact submit_held a request
  | complete response =>
      simp only [Fits]
      split
      · rename_i strategy
        exact complete_parallel_iff kept strategy
      · rename_i single
        exact complete_single_iff kept single

/-! ## Runs -/

/-- The requests that a run submits. -/
def submitted (calls : List Call) : List HumanDecisionRequest := calls.filterMap Call.request

/-- Everything is in its place, and the requests to come are new. -/
structure Ready (a : HumanDecisionArbitrator) (calls : List Call) : Prop where
  kept : Kept a
  distinct : ((a.held ++ submitted calls).map HumanDecisionRequest.id).Nodup

theorem Ready.fresh {c : Call} {rest : List Call} (ready : Ready a (c :: rest)) :
    ∀ request, c.request = some request → ∀ r ∈ a.held, r.id ≠ request.id := by
  intro request submits r member same
  have distinct := ready.distinct
  rw [List.map_append, List.nodup_append] at distinct
  refine distinct.2.2 r.id (List.mem_map_of_mem member) request.id (List.mem_map_of_mem ?_) same
  exact List.mem_filterMap.mpr ⟨c, List.mem_cons_self, submits⟩

/-- What a right step holds before and gets is what it returns and holds after. -/
theorem Right.balance {c : Call}
    (right : Right ⟨a, c, (a.call c).1, (a.call c).2⟩) :
    (a.held ++ c.request.toList).Perm ((a.call c).1.returned.toList ++ (a.call c).2.held) := by
  cases c with
  | submit request =>
      simp only [Call.request, call, Answer.returned, Option.toList_some, Option.toList_none,
        List.nil_append]
      exact List.perm_append_singleton _ _ |>.trans (right.submits request rfl)
  | complete response =>
      simp only [Call.request, Option.toList_none, List.append_nil]
      exact (right.completes response rfl).1

theorem submitted_cons (c : Call) (rest : List Call) :
    submitted (c :: rest) = c.request.toList ++ submitted rest := by
  unfold submitted
  cases brings : c.request with
  | none => rw [List.filterMap_cons_none brings]; rfl
  | some request => rw [List.filterMap_cons_some brings]; rfl

theorem Ready.next {c : Call} {rest : List Call} (ready : Ready a (c :: rest))
    (right : Right ⟨a, c, (a.call c).1, (a.call c).2⟩) : Ready (a.call c).2 rest := by
  have distinct : (((a.call c).1.returned.toList ++ ((a.call c).2.held ++ submitted rest)).map
      HumanDecisionRequest.id).Nodup := by
    have balance := (right.balance.append_right (submitted rest)).map HumanDecisionRequest.id
    rw [List.append_assoc, ← submitted_cons, List.append_assoc] at balance
    exact balance.nodup_iff.mp ready.distinct
  rw [List.map_append] at distinct
  have left := (List.nodup_append.mp distinct).2.1
  refine ⟨⟨?_, ?_, ?_, right.within⟩, left⟩
  · cases c with
    | submit request => exact submit_indexed ready.kept (ready.fresh request rfl)
    | complete response => exact complete_indexed ready.kept response
  · rw [List.map_append] at left
    exact (List.nodup_append.mp left).1
  · cases c with
    | submit request => exact (submit_settled ready.kept request).1
    | complete response => exact complete_settled ready.kept response

/-- In a run whose steps are right, what was there and what was submitted is what was returned and
    what is held in the end. -/
theorem history_balance {calls : List Call} (right : ∀ x ∈ history call a calls, Right x) :
    (a.held ++ submitted calls).Perm
      ((history call a calls).filterMap (·.output.returned) ++ (final call a calls).held) := by
  induction calls generalizing a with
  | nil => simp [submitted]
  | cons c rest ih =>
      rw [history_cons, List.forall_mem_cons] at right
      have here := right.1.balance.append_right (submitted rest)
      rw [List.append_assoc, ← submitted_cons, List.append_assoc] at here
      have later := (ih right.2).append_left (a.call c).1.returned.toList
      refine here.trans (later.trans (List.Perm.of_eq ?_))
      rw [history_cons, final_cons]
      cases returned : (a.call c).1.returned <;> simp [returned]

/-- The queue with the given requests. -/
def queueOf (requests : List HumanDecisionRequest) : HumanDecisionQueue :=
  requests.foldl HumanDecisionQueue.push {}

theorem queueOf_indexed {requests : List HumanDecisionRequest}
    (distinct : (requests.map HumanDecisionRequest.id).Nodup) :
    (queueOf requests).Indexed ∧ requests.Perm (queueOf requests).allRequests := by
  induction requests using List.reverseRecOn with
  | nil => exact ⟨HumanDecisionQueue.indexed_empty, List.Perm.refl _⟩
  | append_singleton requests request ih =>
      rw [List.map_append, List.nodup_append] at distinct
      obtain ⟨indexed, same⟩ := ih distinct.1
      rw [queueOf, List.foldl_append]
      refine ⟨HumanDecisionQueue.push_indexed indexed fun r member isId => ?_, ?_⟩
      · exact distinct.2.2 r.id (List.mem_map_of_mem (same.symm.subset member)) request.id
          (by simp) isId
      · refine ((List.perm_append_singleton _ _).trans (same.cons request)).trans ?_
        exact ((queueOf requests).push_perm request).symm

/-- Every step of a run is right, and every request that was queued or submitted is returned once or
    held in the end. -/
structure Served (strategy : ArbitrationStrategy) (queued : List HumanDecisionRequest)
    (calls : List Call) : Prop where
  steps : ∀ x ∈ history call (create strategy (queueOf queued)) calls, Right x
  once : (queued ++ submitted calls).Perm
    ((history call (create strategy (queueOf queued)) calls).filterMap (·.output.returned) ++
      (final call (create strategy (queueOf queued)) calls).held)

/-- The arbitrator serves its requests as long as responses are about what is shown, or about nothing
    it has while there is room to show what waits. -/
theorem requests_served_iff (strategy : ArbitrationStrategy) {queued : List HumanDecisionRequest}
    {calls : List Call}
    (distinct : ((queued ++ submitted calls).map HumanDecisionRequest.id).Nodup) :
    Served strategy queued calls ↔
      ∀ x ∈ history call (create strategy (queueOf queued)) calls, Fits x.before x.event := by
  have fresh : (queued.map HumanDecisionRequest.id).Nodup := by
    rw [List.map_append] at distinct
    exact (List.nodup_append.mp distinct).1
  obtain ⟨indexed, same⟩ := queueOf_indexed fresh
  have waits : (create strategy (queueOf queued)).held = (queueOf queued).allRequests := rfl
  have all := same.append_right (submitted calls)
  have starts : Ready (create strategy (queueOf queued)) calls := by
    refine ⟨⟨indexed, ?_, ?_, ?_⟩, ?_⟩
    · rw [waits]
      exact (same.map _).nodup_iff.mp fresh
    · cases strategy <;> rfl
    · cases strategy <;> exact Nat.zero_le _
    · rw [waits]
      exact (all.map _).nodup_iff.mp distinct
  have steps := history_exact_ahead (fun _ c _ ready => call_right_iff ready.kept c ready.fresh)
    (fun _ _ _ ready right => ready.next right) starts
  constructor
  · exact fun served => steps.mp served.steps
  · intro fits
    have right := steps.mpr fits
    refine ⟨right, all.trans ?_⟩
    rw [← waits]
    exact history_balance right

/-- A request of an agent that waits for a choice. -/
def choiceRequest (id agentId : String) : HumanDecisionRequest :=
  .create id agentId "waiting_for_choice" [] .medium 3600000 0

theorem requests_served_two_answers :
    Served .sequential []
        [.submit (choiceRequest "1" "a"), .submit (choiceRequest "2" "b"),
          .complete (.create "1" .skipped 5), .complete (.create "2" .skipped 9)] ↔
      ∀ x ∈ history call (create .sequential (queueOf []))
        [.submit (choiceRequest "1" "a"), .submit (choiceRequest "2" "b"),
          .complete (.create "1" .skipped 5), .complete (.create "2" .skipped 9)],
        Fits x.before x.event :=
  requests_served_iff .sequential (by decide)

/-- The response to a request that waits drops it and the one that is shown. -/
theorem queued_answer_drops_requests :
    ¬ ∀ (strategy : ArbitrationStrategy) (queued : List HumanDecisionRequest) (calls : List Call),
      ((queued ++ submitted calls).map HumanDecisionRequest.id).Nodup →
        Served strategy queued calls := by
  intro always
  have served := always .sequential [] [.submit (choiceRequest "1" "a"),
    .submit (choiceRequest "2" "b"), .complete (.create "2" .skipped 5)] (by decide)
  exact absurd served.once.length_eq (by decide)

end HumanDecisionArbitrator

end AgileAgent.Decision
