import AgileAgent.DecisionDsl.Leftovers
import AgileAgent.DecisionDsl.ProviderSession

/-! # Whose reply a prompt consumes

All prompts of a tree share one session, which holds one response at a time. A prompt
gets the response to its own message if no message is sent over that of a prompt that
still waits, and no prompt is left waiting by the nodes above it.
-/

namespace AgileAgent.DecisionDsl

open CallTree

/-- A prompt that waits for a reply is at the path, in the tree at `stack`. -/
inductive Waiting : Node → List Nat → List Nat → Prop where
  | here {n : PromptNode} {stack : List Nat} (pending : n.pending = true) :
      Waiting (.prompt n) stack stack
  | inside {n child : Node} {i : Nat} {stack path : List Nat} (at_i : n.children[i]? = some child)
      (below : Waiting child (stack ++ n.edge i) path) : Waiting n stack path

namespace Waiting

variable {n child : Node} {stack path : List Nat}

theorem below_stack (waiting : Waiting n stack path) : stack <+: path := by
  induction waiting with
  | here => exact List.prefix_refl _
  | inside _ _ ih => exact (List.prefix_append _ _).trans ih

theorem not_quiet (waiting : Waiting n stack path) : ¬ n.All Node.Quiet := by
  induction waiting with
  | here pending =>
      rintro ⟨here, -⟩
      rw [here _ rfl] at pending
      cases pending
  | inside at_i _ ih => exact fun quiet => ih (quiet.child (List.mem_of_getElem? at_i))

theorem composite_iff (composite : n.IsComposite) : Waiting n stack path ↔
    ∃ i child, n.children[i]? = some child ∧ Waiting child (stack ++ [i]) path := by
  constructor
  · intro waiting
    cases waiting with
    | here => exact absurd composite id
    | @inside _ child i _ _ at_i below =>
        rw [Node.edge_composite composite] at below
        exact ⟨i, child, at_i, below⟩
  · rintro ⟨i, child, at_i, below⟩
    rw [← Node.edge_composite composite] at below
    exact .inside at_i below

theorem decorator_iff (decorator : ¬ n.IsComposite) (only : n.children = [child]) :
    Waiting n stack path ↔ Waiting child stack path := by
  constructor
  · intro waiting
    cases waiting with
    | here => cases only
    | inside at_i below =>
        obtain ⟨-, only'⟩ := Node.index_zero decorator at_i
        obtain rfl := List.singleton_inj.mp (only.symm.trans only')
        rw [Node.edge_decorator decorator, List.append_nil] at below
        exact below
  · intro below
    have first : n.children[0]? = some child := by rw [only]; rfl
    apply Waiting.inside first
    rw [Node.edge_decorator decorator, List.append_nil]
    exact below

theorem prompt {m : PromptNode} (waiting : Waiting (.prompt m) stack path) :
    path = stack ∧ m.pending = true := by
  cases waiting with
  | here pending => exact ⟨rfl, pending⟩
  | inside at_i => cases at_i

end Waiting

/-- The stack of indices that leads to the node of a request. -/
abbrev Request.stack {σ κ : Type} (q : Request σ κ) : List Nat := q.world.tracer.pathStack

theorem sibling_eq {stack path : List Nat} {i j : Nat} (left : stack ++ [i] <+: path)
    (right : stack ++ [j] <+: path) : i = j := by
  have both := List.prefix_of_prefix_length_le left right (by simp)
  have same := both.eq_of_length (by simp)
  simpa using same

section

variable {σ κ : Type} [Crates] [Session σ] [Clock κ]

/-- The request ends the activation of every node at the path. -/
def Concludes (q : Request σ κ) (path : List Nat) : Prop :=
  q.stack <+: path ∧ ∃ status, (interpreter.solve q).result = .ok status ∧ status ≠ .running

/-- The children of a composite after some of its calls. -/
def siblings (children : List Node) (made : List (Request σ κ)) : List Node :=
  made.foldl (fun ns q => ns.set (q.index.getD 0) (interpreter.solve q).node) children

/-- The requests of a run, in the order in which they return. -/
def Instance.log (s : Instance σ κ) (steps : List (HostStep σ κ)) : List (Request σ κ) :=
  (s.run steps).flatMap fun t => interpreter.returns t.start.request

/-- A run that the host only ticks. -/
theorem Instance.log_twice (s : Instance σ κ) : s.log [id, id] =
    interpreter.returns s.request ++ (interpreter.returns s.tick.after.request ++ []) := rfl

theorem Instance.tick_session (s : Instance σ κ) :
    s.tick.ticked.ctx.session = s.answer.world.session := by
  cases result : s.answer.result with
  | error e => rw [tick_error result]
  | ok status => rw [tick_ok result]

end

section

variable {κ : Type} [Crates] [Clock κ]

/-- A prompt sends its message, which is number `call`. -/
structure Sends (q : Request ProviderSession κ) (call : Nat) : Prop where
  prompt : ∃ n, q.node = .prompt n ∧ n.pending = false
  waits : (interpreter.solve q).result = .ok .running
  number : q.world.session.sentMessages.length = call

/-- A pending prompt in time finds the session ready with a response. -/
structure Consumes (q : Request ProviderSession κ) (response : Response) : Prop where
  prompt : ∃ n, q.node = .prompt n ∧ n.pending = true ∧ (promptTimedOut n q.world).1 = false
  ready : ∃ s, q.world.session.isReady = (true, s) ∧ s.lastResponse = some response

/-! ## Attribution -/

/-- Message number `call` was sent by the prompt at the path, in the activation that goes
    on at the end of the log. -/
def SentBy (path : List Nat) (log : List (Request ProviderSession κ)) (call : Nat) : Prop :=
  ∃ front send between, log = front ++ send :: between ∧ Sends send call ∧ send.stack = path ∧
    ∀ u ∈ between, ¬ Concludes u path

/-- The session awaits the response to the last message of the log, which the prompt at
    the path sent in the activation that goes on. -/
structure Owns (path : List Nat) (log : List (Request ProviderSession κ)) (s : ProviderSession) :
    Prop where
  last : ∃ front send between call, log = front ++ send :: between ∧ Sends send call ∧
    send.stack = path ∧ s.awaited = some call ∧
    ∀ u ∈ between, ¬ Concludes u path ∧ ∀ call, ¬ Sends u call

/-- Every response consumed in the log was one to a message of the same prompt, and every
    prompt that waits owns the session. -/
structure Attributed (log : List (Request ProviderSession κ)) (s : ProviderSession)
    (waiting : List Nat → Prop) : Prop where
  consumed : ∀ before q after response, log = before ++ q :: after → Consumes q response →
    SentBy q.stack before response.call
  owned : ∀ path, waiting path → Owns path log s

/-- The last message has one sender. -/
theorem Owns.eq {path path' : List Nat} {log : List (Request ProviderSession κ)}
    {s : ProviderSession} (owns : Owns path log s) (owns' : Owns path' log s) : path = path' := by
  obtain ⟨front, send, between, _, split, sends, rfl, -, quiet⟩ := owns
  obtain ⟨front', send', between', _, split', sends', rfl, -, quiet'⟩ := owns'
  rcases List.append_eq_append_iff.mp (split.symm.trans split') with ⟨mid, -, same⟩ | ⟨mid, -, same⟩
  · cases mid with
    | nil => rw [(List.cons.inj same).1]
    | cons _ mid =>
        have later : send' ∈ between := by
          rw [(List.cons.inj same).2]
          exact List.mem_append_right _ List.mem_cons_self
        exact absurd sends' ((quiet _ later).2 _)
  · cases mid with
    | nil => rw [(List.cons.inj same).1]
    | cons _ mid =>
        have later : send ∈ between' := by
          rw [(List.cons.inj same).2]
          exact List.mem_append_right _ List.mem_cons_self
        exact absurd sends ((quiet' _ later).2 _)

theorem Owns.sentBy {path : List Nat} {log : List (Request ProviderSession κ)}
    {s s' : ProviderSession} {response : Response} (owns : Owns path log s)
    (ready : s.isReady = (true, s')) (last : s'.lastResponse = some response) :
    SentBy path log response.call := by
  obtain ⟨front, send, between, call, split, sends, sender, awaits, quiet⟩ := owns
  obtain ⟨response', -, last', awaits'⟩ := ProviderSession.isReady_true ready
  obtain rfl := Option.some.inj (last.symm.trans last')
  obtain rfl := Option.some.inj (awaits.symm.trans awaits')
  exact ⟨front, send, between, split, sends, sender, fun u member => (quiet u member).1⟩

/-- A request that neither sends nor ends the prompt leaves it the owner. -/
theorem Owns.snoc {path : List Nat} {log : List (Request ProviderSession κ)}
    {s s' : ProviderSession} {q : Request ProviderSession κ} (owns : Owns path log s)
    (same : s'.awaited = s.awaited) (goes_on : ¬ Concludes q path) (silent : ∀ call, ¬ Sends q call) :
    Owns path (log ++ [q]) s' := by
  obtain ⟨front, send, between, call, rfl, sends, sender, awaits, quiet⟩ := owns
  refine ⟨front, send, between ++ [q], call, ?_, sends, sender, same.trans awaits, fun u member => ?_⟩
  · rw [List.append_assoc, List.cons_append]
  · rcases List.mem_append.mp member with old | new
    · exact quiet u old
    · rw [List.mem_singleton.mp new]
      exact ⟨goes_on, silent⟩

theorem Owns.sent {log : List (Request ProviderSession κ)} {s : ProviderSession} {call : Nat}
    {q : Request ProviderSession κ} (sends : Sends q call) (awaits : s.awaited = some call) :
    Owns q.stack (log ++ [q]) s :=
  ⟨log, q, [], call, rfl, sends, rfl, awaits, nofun⟩

namespace Attributed

variable {log : List (Request ProviderSession κ)} {s s' : ProviderSession}
  {waiting waiting' : List Nat → Prop}

theorem mono (kept : Attributed log s waiting) (fewer : ∀ path, waiting' path → waiting path) :
    Attributed log s waiting' :=
  ⟨kept.consumed, fun path waits => kept.owned path (fewer path waits)⟩

/-- One more request. -/
theorem snoc {q : Request ProviderSession κ} (kept : Attributed log s waiting)
    (consumes : ∀ response, Consumes q response → SentBy q.stack log response.call)
    (owned : ∀ path, waiting' path → Owns path (log ++ [q]) s') :
    Attributed (log ++ [q]) s' waiting' := by
  refine ⟨fun before c after response split consumed => ?_, owned⟩
  rcases List.eq_nil_or_concat' after with rfl | ⟨after, last, rfl⟩
  · obtain ⟨rfl, same⟩ := List.append_inj' split rfl
    obtain rfl := (List.cons.inj same).1
    exact consumes response consumed
  · rw [← List.cons_append, ← List.append_assoc] at split
    obtain ⟨rfl, -⟩ := List.append_inj' split rfl
    exact kept.consumed before c after response rfl consumed

end Attributed

/-! ## One tick -/

/-- Nothing below the request sends. -/
def Mute (q : Request ProviderSession κ) : Prop :=
  ∀ v ∈ interpreter.trail q, ∀ call, ¬ Sends v call

/-- A prompt sends below one child of a composite while one below another child waits. -/
def Crowds (q : Request ProviderSession κ) : Prop :=
  q.node.IsComposite ∧ ∃ made q' left i child path, interpreter.calls q = made ++ q' :: left ∧
    (siblings q.node.children made)[i]? = some child ∧ q'.index ≠ some i ∧
    Waiting child (q.stack ++ [i]) path ∧ ¬ Mute q'

/-- The prompts that wait when a tree is ticked: its own, and some `elsewhere`. -/
def Around (elsewhere : List Nat → Prop) (n : Node) (stack path : List Nat) : Prop :=
  elsewhere path ∨ Waiting n stack path

/-- The prompts `elsewhere` are not in the tree of the request, which sends nothing over
    their messages. -/
structure Clear (elsewhere : List Nat → Prop) (q : Request ProviderSession κ) : Prop where
  outside : ∀ path, elsewhere path → ¬ q.stack <+: path
  mute : ∀ path, elsewhere path → Mute q

/-- The request gives no prompt the reply to the message of another one. -/
def Attributes (q : Request ProviderSession κ) : Prop :=
  ∀ log elsewhere, Clear elsewhere q →
    Attributed log q.world.session (Around elsewhere q.node q.stack) →
    Attributed (log ++ interpreter.returns q) (interpreter.solve q).world.session
      (Around elsewhere (interpreter.solve q).node q.stack)

omit [Crates] [Clock κ] in
theorem PromptNode.send_provider (n : PromptNode) (rendered : String) (s : ProviderSession) :
    n.send rendered s = s.send rendered := by
  unfold PromptNode.send
  split <;> rfl

theorem prompt_returns {q : Request ProviderSession κ} {n : PromptNode} (node : q.node = .prompt n) :
    interpreter.returns q = [q] := by
  rw [interpreter.returns_eq, (prompt_tick node).1]
  rfl

theorem prompt_attributes {q : Request ProviderSession κ} {n : PromptNode}
    (node : q.node = .prompt n) : Attributes q := by
  intro log elsewhere clear kept
  obtain ⟨-, answer⟩ := prompt_tick node
  rw [prompt_returns node]
  rw [node] at kept
  have mine (pending : n.pending = true) : Owns q.stack log q.world.session :=
    kept.owned q.stack (.inr (.here pending))
  have consumes : ∀ response, Consumes q response → SentBy q.stack log response.call := by
    rintro response ⟨⟨m, same, pending, -⟩, s, ready, last⟩
    obtain rfl := Node.prompt.inj (node.symm.trans same)
    exact (mine pending).sentBy ready last
  have others (same : (interpreter.solve q).world.session.awaited = q.world.session.awaited) :
      ∀ path, elsewhere path → Owns path (log ++ [q]) (interpreter.solve q).world.session := by
    intro path out
    apply (kept.owned path (.inl out)).snoc same
    · exact fun ends => clear.outside path out ends.1
    · exact clear.mute path out q (interpreter.mem_trail_self q)
  have silent (pending : n.pending = true) (call : Nat) : ¬ Sends q call := by
    rintro ⟨⟨m, same, idle⟩, -, -⟩
    obtain rfl := Node.prompt.inj (node.symm.trans same)
    rw [pending] at idle
    cases idle
  apply kept.snoc consumes
  rw [answer] at others ⊢
  cases tickPrompt_prompting n q.world with
  | timedOut pending _ settled session =>
      rintro path (out | waits)
      · exact others (congrArg _ session) path out
      · have waits' := waits.prompt.2
        rw [settled] at waits'
        cases waits'
  | waits pending ready result same =>
      have awaited := ProviderSession.isReady_false ready
      rintro path (out | waits)
      · exact others awaited path out
      · rw [waits.prompt.1]
        apply (mine pending).snoc awaited _ (silent pending)
        rintro ⟨-, status, ended, done⟩
        rw [answer] at ended
        exact done (Except.ok.inj (ended.symm.trans result))
  | refused _ ready received =>
      obtain ⟨response, taken, last, -⟩ := ProviderSession.isReady_true ready
      have receives := (ProviderSession.receive_ready taken last rfl).1
      cases receives.symm.trans (congrArg Prod.fst received)
  | consumed pending _ _ _ _ _ settled =>
      rintro path (out | waits)
      · have same := (kept.owned path (.inl out)).eq (mine pending)
        exact absurd (same ▸ List.prefix_refl _) (clear.outside path out)
      · have waits' := waits.prompt.2
        rw [settled] at waits'
        cases waits'
  | unrendered idle _ same session =>
      rintro path (out | waits)
      · exact others (congrArg _ session) path out
      · have waits' := waits.prompt.2
        rw [same, idle] at waits'
        cases waits'
  | unsent idle sent _ same =>
      rw [PromptNode.send_provider] at sent
      rintro path (out | waits)
      · exact others (ProviderSession.send_error sent) path out
      · have waits' := waits.prompt.2
        rw [same, idle] at waits'
        cases waits'
  | sent idle sent result _ =>
      rw [PromptNode.send_provider] at sent
      have sends : Sends q q.world.session.sentMessages.length :=
        ⟨⟨n, node, idle⟩, by rw [answer]; exact result, rfl⟩
      rintro path (out | waits)
      · exact absurd sends (clear.mute path out q (interpreter.mem_trail_self q) _)
      · rw [waits.prompt.1]
        exact .sent sends (ProviderSession.send_ok sent)

/-- A node above the prompts returns. -/
theorem Attributed.returned {q : Request ProviderSession κ} {log : List (Request ProviderSession κ)}
    {elsewhere : List Nat → Prop} (other : ∀ n, q.node ≠ .prompt n) (clear : Clear elsewhere q)
    (settled : ∀ status, (interpreter.solve q).result = .ok status → status ≠ .running →
      (interpreter.solve q).node.All Node.Quiet)
    (kept : Attributed log (interpreter.solve q).world.session
      (Around elsewhere (interpreter.solve q).node q.stack)) :
    Attributed (log ++ [q]) (interpreter.solve q).world.session
      (Around elsewhere (interpreter.solve q).node q.stack) := by
  apply kept.snoc
  · rintro response ⟨⟨n, node, -⟩, -⟩
    exact absurd node (other n)
  · intro path around
    apply (kept.owned path around).snoc rfl
    · rintro ⟨above, status, result, done⟩
      rcases around with out | waits
      · exact clear.outside path out above
      · exact waits.not_quiet (settled status result done)
    · rintro call ⟨⟨n, node, -⟩, -, -⟩
      exact other n node

theorem visit_attributed {name : String} {child : Node} {start : Nat} {ns : List Node}
    {w : World ProviderSession κ} {log : List (Request ProviderSession κ)}
    {elsewhere : List Nat → Prop} (at_start : ns[start]? = some child)
    (attributes : Attributes (visit name child start w))
    (outside : ∀ path, elsewhere path → ¬ w.tracer.pathStack <+: path)
    (mute : ∀ path, elsewhere path → Mute (visit name child start w))
    (uncrowded : ∀ i child' path, ns[i]? = some child' → i ≠ start →
      Waiting child' (w.tracer.pathStack ++ [i]) path → Mute (visit name child start w))
    (kept : Attributed log w.session fun path => elsewhere path ∨
      ∃ i child, ns[i]? = some child ∧ Waiting child (w.tracer.pathStack ++ [i]) path) :
    let a := interpreter.solve (visit name child start w)
    Attributed (log ++ interpreter.returns (visit name child start w)) a.world.session fun path =>
      elsewhere path ∨ ∃ i child, (ns.set start a.node)[i]? = some child ∧
        Waiting child (w.tracer.pathStack ++ [i]) path := by
  intro a
  have inside : start < ns.length := (List.getElem?_eq_some_iff.mp at_start).1
  have stack : (visit name child start w).stack = w.tracer.pathStack ++ [start] := rfl
  let beside (path : List Nat) : Prop := elsewhere path ∨ ∃ i child', ns[i]? = some child' ∧
    i ≠ start ∧ Waiting child' (w.tracer.pathStack ++ [i]) path
  have clear : Clear beside (visit name child start w) := by
    constructor
    · rintro path (out | ⟨i, child', -, apart, waits⟩) below
      · exact outside path out ((List.prefix_append _ _).trans below)
      · exact apart (sibling_eq waits.below_stack below)
    · rintro path (out | ⟨i, child', at_i, apart, waits⟩)
      · exact mute path out
      · exact uncrowded i child' path at_i apart waits
  have before : Attributed log w.session (Around beside child (w.tracer.pathStack ++ [start])) := by
    apply kept.mono
    rintro path ((out | ⟨i, child', at_i, -, waits⟩) | waits)
    · exact .inl out
    · exact .inr ⟨i, child', at_i, waits⟩
    · exact .inr ⟨start, child, at_start, waits⟩
  apply (attributes log beside clear before).mono
  rintro path (out | ⟨i, child', at_i, waits⟩)
  · exact .inl (.inl out)
  · rcases getElem?_set_cases at_i with ⟨rfl, rfl⟩ | ⟨apart, old⟩
    · exact .inr waits
    · exact .inl (.inr ⟨i, child', old, apart, waits⟩)

theorem Walk.attributed {name : String} {goes : NodeStatus → Prop} {start : Nat} {ns : List Node}
    {w : World ProviderSession κ} {r : Walked ProviderSession κ} {elsewhere : List Nat → Prop}
    (walk : Walk name goes start ns w r) (calls : ∀ q ∈ r.calls, Attributes q)
    (outside : ∀ path, elsewhere path → ¬ w.tracer.pathStack <+: path)
    (mute : ∀ path, elsewhere path → ∀ q ∈ r.calls, Mute q)
    (uncrowded : ∀ made q left i child path, r.calls = made ++ q :: left →
      (siblings ns made)[i]? = some child → q.index ≠ some i →
      Waiting child (w.tracer.pathStack ++ [i]) path → Mute q)
    {log : List (Request ProviderSession κ)}
    (kept : Attributed log w.session fun path => elsewhere path ∨
      ∃ i child, ns[i]? = some child ∧ Waiting child (w.tracer.pathStack ++ [i]) path) :
    Attributed (log ++ r.calls.flatMap interpreter.returns) r.world.session fun path =>
      elsewhere path ∨
        ∃ i child, r.children[i]? = some child ∧ Waiting child (w.tracer.pathStack ++ [i]) path := by
  induction walk generalizing log with
  | ranOut => simpa using kept
  | @failed start ns w child e at_start result | @stopped start ns w child status at_start result =>
      have visited := visit_attributed at_start (calls _ List.mem_cons_self) outside
        (fun path out => mute path out _ List.mem_cons_self)
        (fun i child' path at_i apart => uncrowded [] _ [] i child' path rfl at_i
          (fun same => apart (Option.some.inj (same.symm.trans List.getLast?_concat)))) kept
      rw [List.flatMap_cons, List.flatMap_nil, List.append_nil]
      exact visited
  | @went start ns w child status r at_start result on walk ih =>
      have visited := visit_attributed at_start (calls _ List.mem_cons_self) outside
        (fun path out => mute path out _ List.mem_cons_self)
        (fun i child' path at_i apart => uncrowded [] _ _ i child' path rfl at_i
          (fun same => apart (Option.some.inj (same.symm.trans List.getLast?_concat)))) kept
      have stack := (visit_left result).1
      rw [stack] at ih
      rw [List.flatMap_cons, ← List.append_assoc]
      apply ih (fun q later => calls q (List.mem_cons_of_mem _ later)) outside
        (fun path out q later => mute path out q (List.mem_cons_of_mem _ later)) _ visited
      intro made q left i child' path split at_i
      apply uncrowded (visit name child start w :: made) q left i child' path (congrArg (_ :: ·) split)
      have index : (visit name child start w).index = some start := List.getLast?_concat
      rw [siblings, List.foldl_cons, index]
      exact at_i

theorem Attempts.attributed {max current : UInt32} {child : Node} {w : World ProviderSession κ}
    {r : Tried ProviderSession κ} {elsewhere : List Nat → Prop}
    (attempts : Attempts max current child w r) (calls : ∀ q ∈ r.calls, Attributes q)
    (outside : ∀ path, elsewhere path → ¬ w.tracer.pathStack <+: path)
    (mute : ∀ path, elsewhere path → ∀ q ∈ r.calls, Mute q) {log : List (Request ProviderSession κ)}
    (kept : Attributed log w.session (Around elsewhere child w.tracer.pathStack)) :
    Attributed (log ++ r.calls.flatMap interpreter.returns) r.world.session
      (Around elsewhere r.child w.tracer.pathStack) := by
  induction attempts generalizing log with
  | ranOut => simpa using kept
  | @failed _ child w | @waits _ child w | @panicked _ child w | @last _ child w =>
      have tried := calls _ List.mem_cons_self log elsewhere
        ⟨outside, fun path out => mute path out _ List.mem_cons_self⟩ kept
      simpa using tried
  | @again _ child w status r result done _ _ ih =>
      have tried := calls _ List.mem_cons_self log elsewhere
        ⟨outside, fun path out => mute path out _ List.mem_cons_self⟩ kept
      have stack : (interpreter.solve ⟨.tick, child, w⟩).world.tracer.pathStack = w.tracer.pathStack :=
        (interpreter_traced result).pathStack
      rw [stack] at ih
      rw [List.flatMap_cons, ← List.append_assoc]
      exact ih (fun q later => calls q (List.mem_cons_of_mem _ later)) outside
        (fun path out q later => mute path out q (List.mem_cons_of_mem _ later)) tried

section

variable {q : Request ProviderSession κ}

theorem Clear.call {elsewhere : List Nat → Prop} (clear : Clear elsewhere q) {path : List Nat}
    (out : elsewhere path) {q' : Request ProviderSession κ} (called : q' ∈ interpreter.calls q) :
    Mute q' := by
  intro v below
  exact clear.mute path out v (Procedure.mem_trail_of_call called below)

theorem composite_attributes {name : String} {goes : NodeStatus → Prop} {start : Nat}
    {r : Walked ProviderSession κ} (composite : q.node.IsComposite)
    (walk : Walk name goes start q.node.children q.world r) (called : interpreter.calls q = r.calls)
    (left : (interpreter.solve q).node.children = r.children)
    (leaves : (interpreter.solve q).world.Keeps r.world) (here : ¬ Crowds q)
    (settled : ∀ status, (interpreter.solve q).result = .ok status → status ≠ .running →
      (interpreter.solve q).node.All Node.Quiet)
    (calls : ∀ q' ∈ interpreter.calls q, q'.ask.Ticks → Attributes q') : Attributes q := by
  intro log elsewhere clear kept
  have composite' := (Node.isComposite_of_reset (interpreter_reset q)).mpr composite
  rw [interpreter.returns_eq, ← List.append_assoc]
  apply Attributed.returned
  · intro n node
    rw [node] at composite
    exact composite
  · exact clear
  · exact settled
  · rw [called, leaves.session]
    have walked := walk.attributed
      (fun q' member => calls q' (called ▸ member) (walk.ticks q' member)) clear.outside
      (fun path out q' member => clear.call out (called ▸ member))
      (fun made q' rest i child path split at_i apart waits => by
        by_contra sends
        exact here ⟨composite, made, q', rest, i, child, path, called.trans split, at_i, apart,
          waits, sends⟩)
      (kept.mono fun path around => around.imp_right (Waiting.composite_iff composite).mpr)
    rw [← left] at walked
    exact walked.mono fun path around => around.imp_right (Waiting.composite_iff composite').mp

theorem decorator_attributes (ticks : q.ask.Ticks) (decorator : q.node.Decorator)
    (settled : ∀ status, (interpreter.solve q).result = .ok status → status ≠ .running →
      (interpreter.solve q).node.All Node.Quiet)
    (calls : ∀ q' ∈ interpreter.calls q, q'.ask.Ticks → Attributes q') : Attributes q := by
  intro log elsewhere clear kept
  have decorator' := Node.decorator_of_reset (interpreter_reset q) decorator
  rw [interpreter.returns_eq, ← List.append_assoc]
  apply Attributed.returned
  · rintro n node
    rw [node] at decorator
    exact decorator
  · exact clear
  · exact settled
  · cases decorator_tick ticks decorator with
    | closed _ none _ node keeps | failed none _ node keeps =>
        rw [none, node, keeps.session, List.flatMap_nil, List.append_nil]
        exact kept
    | @called child v only called stack enters left _ leaves =>
        have member : (⟨.tick, child, v⟩ : Request ProviderSession κ) ∈ interpreter.calls q := by
          rw [called]
          exact List.mem_cons_self
        have clear' : Clear elsewhere (⟨.tick, child, v⟩ : Request ProviderSession κ) :=
          ⟨fun path out below => clear.outside path out (by rw [Request.stack, ← stack]; exact below),
            fun path out => clear.call out member⟩
        have below := calls _ member trivial log elsewhere clear'
        simp only [Request.stack, stack, enters.session] at below
        rw [called, leaves.session, List.flatMap_cons, List.flatMap_nil, List.append_nil]
        apply (below (kept.mono fun path around => around.imp_right
          (Waiting.decorator_iff decorator.not_composite only).mpr)).mono
        exact fun path around => around.imp_right
          (Waiting.decorator_iff decorator'.not_composite left).mp

theorem repeater_attributes {n : RepeaterNode Node} (ticks : q.ask.Ticks)
    (node : q.node = .repeater n)
    (settled : ∀ status, (interpreter.solve q).result = .ok status → status ≠ .running →
      (interpreter.solve q).node.All Node.Quiet)
    (calls : ∀ q' ∈ interpreter.calls q, q'.ask.Ticks → Attributes q') : Attributes q := by
  intro log elsewhere clear kept
  rw [interpreter.returns_eq, ← List.append_assoc]
  apply Attributed.returned
  · rintro m same
    rw [node] at same
    cases same
  · exact clear
  · exact settled
  · rcases repeater_tick ticks node with ⟨-, none, answer⟩ | ⟨-, r, tries, called, answer⟩
    · rw [none, answer, List.flatMap_nil, List.append_nil]
      exact kept
    · rw [answer, called]
      rw [node] at kept
      have before : Attributed log q.world.session (Around elsewhere n.child q.stack) :=
        kept.mono fun path around => around.imp_right (Waiting.decorator_iff id rfl).mpr
      apply (tries.attributed (fun q' member => calls q' (called ▸ member) (tries.ticks q' member))
        clear.outside (fun path out q' member => clear.call out (called ▸ member)) before).mono
      exact fun path around => around.imp_right (Waiting.decorator_iff id rfl).mp

theorem immediate_attributes (immediate : q.node.Immediate) : Attributes q := by
  intro log elsewhere clear kept
  obtain ⟨none, node, -, keeps⟩ := immediate_tick immediate
  rw [interpreter.returns_eq, ← List.append_assoc]
  apply Attributed.returned
  · rintro n same
    rw [same] at immediate
    exact immediate
  · exact clear
  · obtain ⟨atRest, leaf⟩ := immediate.atRest
    intro status result done
    rw [node]
    apply Node.All.mk (atRest.quiet _)
    rw [leaf]
    nofun
  · rw [none, node, keeps.session, List.flatMap_nil, List.append_nil]
    exact kept

end

/-- A tick that turns away from no waiting prompt and sends over none. -/
theorem tick_attributes (q : Request ProviderSession κ) (ticks : q.ask.Ticks)
    (tracked : q.node.Tracked Node.Quiet)
    (keeps : ∀ v ∈ interpreter.trail q, ¬ Abandons Node.Quiet v ∧ ¬ Crowds v) : Attributes q := by
  refine interpreter.induct (motive := fun q => q.ask.Ticks → q.node.Tracked Node.Quiet →
    (∀ v ∈ interpreter.trail q, ¬ Abandons Node.Quiet v ∧ ¬ Crowds v) → Attributes q)
    (fun q ih ticks tracked keeps => ?_) q ticks tracked keeps
  have kept := tick_kept Node.AtRest.quiet q ticks tracked fun v visited => (keeps v visited).1
  have here : ¬ Crowds q := (keeps q (interpreter.mem_trail_self q)).2
  have calls : ∀ q' ∈ interpreter.calls q, q'.ask.Ticks → Attributes q' := by
    intro q' called ticked
    have tracked' := (tick_calls_tracked Node.AtRest.quiet ticks tracked
      (fun v visited => (keeps v visited).1) q' called).2
    exact ih q' called ticked tracked' fun v below =>
      keeps v (Procedure.mem_trail_of_call called below)
  rcases q.node.shapes with ordered | ⟨n, node⟩ | decorator | ⟨n, node⟩ | immediate | ⟨n, node⟩
  · obtain ⟨name, goes, r, -, walk, called, -, left, leaves⟩ := ordered_tick ticks ordered
    exact composite_attributes ordered.composite walk called left leaves here kept.settled calls
  · obtain ⟨r, walk, called, -, left, leaves⟩ := parallel_tick ticks node
    have composite : q.node.IsComposite := by
      rw [node]
      trivial
    exact composite_attributes composite walk called left leaves here kept.settled calls
  · exact decorator_attributes ticks decorator kept.settled calls
  · exact repeater_attributes ticks node kept.settled calls
  · exact immediate_attributes immediate
  · exact prompt_attributes node

/-! ## Runs -/

/-- The tick sends over no waiting prompt. -/
def Turn.Uncrowded (t : Turn ProviderSession κ) : Prop :=
  ∀ v ∈ interpreter.trail t.start.request, ¬ Crowds v

theorem Instance.log_attributed {steps : List (HostStep ProviderSession κ)} :
    ∀ {s : Instance ProviderSession κ} {log : List (Request ProviderSession κ)},
      s.Orderly Node.Quiet → (∀ step ∈ steps, ∀ ctx, (step ctx).session = ctx.session) →
      (∀ t ∈ s.run steps, t.Keeps Node.Quiet ∧ t.Uncrowded) →
      Attributed log s.ctx.session (Waiting s.root []) →
      ∀ before q after response, log ++ s.log steps = before ++ q :: after → Consumes q response →
        SentBy q.stack before response.call := by
  induction steps with
  | nil =>
      intro s log _ _ _ kept before q after response split consumes
      exact kept.consumed before q after response ((List.append_nil log).symm.trans split) consumes
  | cons step rest ih =>
      intro s log orderly host keeps kept before q after response split consumes
      let now := s.host step
      have orderly' : now.Orderly Node.Quiet := ⟨orderly.ready, orderly.tracked⟩
      obtain ⟨kept', uncrowded⟩ := keeps now.tick List.mem_cons_self
      have attributes := tick_attributes now.request orderly'.ready.ticks orderly'.tracked
        fun v visited => ⟨kept' v visited, uncrowded v visited⟩
      have clear : Clear (fun _ => False) now.request := ⟨nofun, nofun⟩
      have session : now.request.world.session = s.ctx.session := host step List.mem_cons_self s.ctx
      have start : Attributed log now.request.world.session
          (Around (fun _ => False) now.request.node now.request.stack) := by
        rw [session]
        exact kept.mono fun path around => around.resolve_left id
      have left := attributes log (fun _ => False) clear start
      have after' : Attributed (log ++ interpreter.returns now.request) now.tick.after.ctx.session
          (Waiting now.tick.after.root []) := by
        change Attributed _ now.tick.ticked.ctx.session (Waiting now.tick.ticked.root [])
        rw [Instance.tick_session, Instance.tick_root]
        exact left.mono fun path => .inr
      apply ih (Instance.tick_orderly Node.AtRest.quiet kept' orderly')
        (fun step member => host step (List.mem_cons_of_mem _ member))
        (fun t member => keeps t (List.mem_cons_of_mem _ member)) after' before q after response _
        consumes
      rw [List.append_assoc]
      exact split

/-- In a run that leaves the session to the tree, turns away from no waiting prompt and
    sends over none, every reply that a prompt consumes is the one to the message which the
    same prompt sent in the same activation. -/
theorem replies_to_own_messages {root : Node} (idle : root.Idle) (ctx : TickContext ProviderSession κ)
    {steps : List (HostStep ProviderSession κ)}
    (host : ∀ step ∈ steps, ∀ ctx, (step ctx).session = ctx.session)
    (keeps : ∀ t ∈ (Instance.launch root ctx).run steps, t.Keeps Node.Quiet ∧ t.Uncrowded) :
    ∀ before q after response, (Instance.launch root ctx).log steps = before ++ q :: after →
      Consumes q response → SentBy q.stack before response.call := by
  have start : Attributed ([] : List (Request ProviderSession κ)) ctx.session (Waiting root []) := by
    constructor
    · intro before q after response split
      exact absurd split (List.append_ne_nil_of_right_ne_nil before (List.cons_ne_nil q after)).symm
    · exact fun path waits => absurd (idle.mono Node.AtRest.quiet) waits.not_quiet
  have orderly := Instance.launch_orderly Node.AtRest.quiet idle ctx
  exact Instance.log_attributed orderly host keeps start

end

section

open Plain

/-- Threads that all start, with responses that are there at once. -/
def promptThreads : Threads := ⟨fun _ => none, fun _ _ => true⟩

def providerCtx : TickContext ProviderSession Frozen :=
  { blackboard := {}, session := { threads := promptThreads }, clock := .clock }

def firstPrompt : PromptNode :=
  { name := "first", model := none, template := "First?", parser := .json, sets := []
    timeoutMs := 30000 }

def secondPrompt : PromptNode :=
  { name := "second", model := none, template := "Second?", parser := .json, sets := []
    timeoutMs := 30000 }

/-- Two questions at once. -/
def promptsBeside : Node := .parallel
  { name := "both", policy := .allSuccess, children := [.prompt firstPrompt, .prompt secondPrompt] }

/-- The first prompt consumes the reply to the second one. -/
theorem promptsBeside_mixed_up : ¬ ∀ (root : Node) (ctx : TickContext ProviderSession Frozen)
    (steps : List (HostStep ProviderSession Frozen)), root.Idle →
    (∀ step ∈ steps, ∀ ctx, (step ctx).session = ctx.session) →
    ∀ before q after response, (Instance.launch root ctx).log steps = before ++ q :: after →
      Consumes q response → SentBy q.stack before response.call := by
  intro all
  let s := Instance.launch promptsBeside providerCtx
  have idle : promptsBeside.Idle := by
    refine .mk rfl fun child member => ?_
    rcases List.mem_cons.mp member with rfl | member
    · exact .mk ⟨rfl, rfl⟩ nofun
    · rw [List.mem_singleton.mp member]
      exact .mk ⟨rfl, rfl⟩ nofun
  -- the first tick sends both messages, the second one starts with the first prompt
  obtain ⟨a, b, called, ⟨_, node_a⟩, ⟨_, node_b⟩, number, stack⟩ : ∃ a b : Request ProviderSession Frozen,
      interpreter.calls s.request = [a, b] ∧ (∃ n, a.node = .prompt n) ∧ (∃ n, b.node = .prompt n) ∧
        a.world.session.sentMessages.length = 0 ∧ b.stack = [1] :=
    ⟨_, _, rfl, ⟨_, rfl⟩, ⟨_, rfl⟩, rfl, rfl⟩
  obtain ⟨p, n, rx, both, at_zero, pending, inTime, receiver, second, arrived⟩ :
      ∃ (p : ParallelNode Node) (n : PromptNode) (rx : Receiver),
        s.tick.after.request.node = .parallel p ∧ p.children[0]? = some (.prompt n) ∧
        n.pending = true ∧ (∀ w : World ProviderSession Frozen, (promptTimedOut n w).1 = false) ∧
        s.tick.after.ctx.session.pendingRx = some rx ∧ rx.call = 1 ∧
        s.tick.after.ctx.session.threads.arrived rx.call s.tick.after.ctx.session.polls = true :=
    ⟨_, _, _, rfl, rfl, rfl, fun _ => rfl, rfl, rfl, rfl⟩
  have ticks : s.tick.after.request.ask.Ticks := Nat.le_refl 0
  obtain ⟨r, walk, calls, -⟩ := parallel_tick ticks both
  rw [both] at walk
  obtain ⟨rest, calls'⟩ := walk.first at_zero
  let c := visit p.name (.prompt n) 0 s.tick.after.request.world
  have called' : interpreter.calls s.tick.after.request = c :: rest := calls.trans calls'
  obtain ⟨left, text, ready, last⟩ := ProviderSession.isReady_arrived receiver arrived
  have consumes : Consumes c ⟨rx.call, text⟩ := ⟨⟨n, rfl, pending, inTime _⟩, left, ready, last⟩
  have first : interpreter.returns s.request = [a, b, s.request] := by
    rw [interpreter.returns_eq, called]
    simp only [List.flatMap_cons, prompt_returns node_a, prompt_returns node_b]
    rfl
  have next : interpreter.returns s.tick.after.request =
      c :: (rest.flatMap interpreter.returns ++ [s.tick.after.request]) := by
    rw [interpreter.returns_eq, called']
    have node_c : c.node = .prompt n := rfl
    simp only [List.flatMap_cons, prompt_returns node_c]
    rfl
  have log := s.log_twice
  rw [first, next] at log
  obtain ⟨front, send, between, split, ⟨⟨m, node, -⟩, -, call⟩, sender, -⟩ :=
    all promptsBeside providerCtx [id, id] idle (by simp) [a, b, s.request] c _ _ log consumes
  have member : send ∈ [a, b, s.request] := by
    rw [split]
    exact List.mem_append_right _ List.mem_cons_self
  simp only [List.mem_cons, List.not_mem_nil, or_false] at member
  rcases member with rfl | rfl | rfl
  · rw [number, second] at call
    cases call
  · rw [stack] at sender
    cases sender
  · cases node

/-- Alone the first prompt gets the reply to its own message. -/
theorem firstPrompt_own_reply :
    let s : Instance ProviderSession Frozen := Instance.launch (.prompt firstPrompt) providerCtx
    ∃ response, Consumes s.tick.after.request response ∧ SentBy [] [s.request] response.call := by
  intro s
  have idle : (Node.prompt firstPrompt).Idle := .mk ⟨rfl, rfl⟩ nofun
  obtain ⟨n, rx, node, pending, inTime, receiver, arrived⟩ : ∃ (n : PromptNode) (rx : Receiver),
      s.tick.after.request.node = .prompt n ∧ n.pending = true ∧
        (promptTimedOut n s.tick.after.request.world).1 = false ∧
        s.tick.after.ctx.session.pendingRx = some rx ∧
        s.tick.after.ctx.session.threads.arrived rx.call s.tick.after.ctx.session.polls = true :=
    ⟨_, _, rfl, rfl, rfl, rfl, rfl⟩
  obtain ⟨left, text, ready, last⟩ := ProviderSession.isReady_arrived receiver arrived
  have consumes : Consumes s.tick.after.request ⟨rx.call, text⟩ :=
    ⟨⟨n, node, pending, inTime⟩, left, ready, last⟩
  have log := s.log_twice
  have node' : s.request.node = .prompt firstPrompt := rfl
  rw [prompt_returns node', prompt_returns node] at log
  refine ⟨_, consumes, ?_⟩
  apply replies_to_own_messages idle providerCtx (by simp) _ [s.request] _ [] _ log consumes
  -- a prompt on its own turns away from nothing and sends over nothing
  have alone {t : Turn ProviderSession Frozen} {m : PromptNode}
      (node : t.start.request.node = .prompt m) : t.Keeps Node.Quiet ∧ t.Uncrowded := by
    have only : interpreter.trail t.start.request = [t.start.request] := by
      rw [interpreter.trail_eq, (prompt_tick node).1]
      rfl
    constructor
    · intro v visited
      rw [only] at visited
      rw [List.mem_singleton.mp visited]
      rintro (⟨_, member, _⟩ | ⟨node', _, _, _, _⟩ | ⟨ordered, _, _, _, _⟩)
      · rw [node] at member
        cases member
      · rw [node] at node'
        cases node'
      · rw [node] at ordered
        exact ordered
    · intro v visited
      rw [only] at visited
      rw [List.mem_singleton.mp visited]
      rintro ⟨composite, -⟩
      rw [node] at composite
      exact composite
  intro t member
  rcases List.mem_cons.mp member with rfl | member
  · exact alone node'
  · rw [List.mem_singleton.mp member]
    exact alone node

end

end AgileAgent.DecisionDsl
