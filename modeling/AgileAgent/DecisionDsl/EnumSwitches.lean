import AgileAgent.DecisionDsl.Switches

/-! # Switches on an enum

A `switch` on a prompt whose enum parser accepts the values of its cases. The parser
stores the reply as it is spelled, and the guards of the cases compare exactly.
-/

namespace AgileAgent.DecisionDsl

open CallTree

variable {σ κ : Type}

/-! ## What a variable reads after it is set -/

namespace ScopeStack

theorem get_set_self (s : ScopeStack) (key : String) (value : BlackboardValue) :
    (s.set key value).get key = some value := by
  obtain ⟨scopes, nonempty, bounded⟩ := s
  cases scopes with
  | nil => cases nonempty
  | cons top below => simp [set, get]

end ScopeStack

/-- The name of a scoped variable: neither a path nor a built-in field. -/
structure VariableName (key : String) : Prop where
  undotted : splitDots key = (key, [])
  own : ∀ bb : Blackboard, bb.topLevel key = bb.get key

theorem VariableName.getPath_set {key : String} (named : VariableName key) (bb : Blackboard)
    (value : BlackboardValue) : (bb.set key value).getPath key = some value := by
  rw [Blackboard.getPath, named.undotted]
  simp only [named.own, Blackboard.get, Blackboard.set, ScopeStack.get_set_self, Option.bind_some,
    List.foldlM_nil]
  rfl

theorem BlackboardValue.eq_string {v : BlackboardValue} {s : String} :
    v.eq (.string s) = true ↔ v = .string s := by
  cases v <;> simp [BlackboardValue.eq]

section

variable [Crates]

/-! ## The enum parser -/

/-- The reply matches this value of an enum parser. -/
def enumMatches (caseSensitive : Bool) (reply value : String) : Bool :=
  if caseSensitive then value == trim reply
  else Crates.toLowercase value == Crates.toLowercase (trim reply)

theorem parse_enum (values : List String) (caseSensitive : Bool) (reply : String) :
    (OutputParser.enum values caseSensitive).parse reply =
      if values.any (enumMatches caseSensitive reply) then
        .ok (AList.insert "value" (.string (trim reply)) ∅)
      else .error (.filterError ("input '" ++ trim reply ++ "' did not match any enum value")) := by
  cases caseSensitive <;> rfl

theorem enumMatches_trim (caseSensitive : Bool) (reply : String) :
    enumMatches caseSensitive reply (trim reply) = true := by
  cases caseSensitive <;> simp [enumMatches]

/-- A `switch` on a prompt with an enum parser whose values are those of the cases. -/
def enumSwitch (name : String) (model : Option String) (timeoutMs : Option Nat) (template : String)
    (caseSensitive : Bool) (resultKey : Option String) (cases : List (SwitchCase ThenSpec))
    (default : Option ThenSpec) : SwitchSpec ThenSpec :=
  { name, cases, default
    on := .prompt model timeoutMs template (.enum (cases.map SwitchCase.value) caseSensitive) resultKey }

/-- The blackboard after the reply to the prompt of a switch has been stored. -/
def SwitchSpec.storedReply (spec : SwitchSpec ThenSpec) (bb : Blackboard) (reply : String) : Blackboard :=
  (bb.storeLlmResponse (spec.name ++ "_prompt") reply).set spec.on.key (.string (trim reply))

variable [Session σ] [Clock κ]

/-- A tick of the pending prompt takes this reply from the session, and its parser accepts it. -/
structure Takes (p : PromptNode) (w : World σ κ) (reply : String) : Prop where
  pending : p.pending = true
  inTime : (promptTimedOut p w).1 = false
  received : ∃ session session', Session.isReady (promptTimedOut p w).2.session = (true, session) ∧
    Session.receive session = (.ok reply, session')
  accepted : ∃ values, p.parser.parse reply = .ok values

namespace SwitchSpec

variable (spec : SwitchSpec ThenSpec)

/-- In a tick of a `switch` on a prompt exactly one branch runs, and the reply matches
    the value of its case. -/
def FollowsReply (caseSensitive : Bool) (reply : String) (q : Request σ κ) : Prop :=
  ∃ i c, spec.cases[i]? = some c ∧ enumMatches caseSensitive reply c.value = true ∧
    (((interpreter.calls q).filter (·.position == 1)).flatMap spec.runs).map Prod.fst = [i]

/-- The stored reply reads as the value of a case that the reply matches, and where the
    action of that case fails, it leaves a blackboard on which nothing else runs. -/
structure Agrees (caseSensitive : Bool) (reply : String) (p : PromptNode) (n : SelectorNode Node)
    (w : World σ κ) : Prop where
  spelled : ∃ c ∈ spec.cases, enumMatches caseSensitive reply c.value = true ∧
    (spec.storedReply w.blackboard reply).getPath spec.on.key = some (.string c.value)
  final : let v := ((Node.prompt p).tick (w.enter spec.name 0)).world.exit spec.name .success
    ∀ g, n.children[spec.target (spec.storedReply w.blackboard reply)]? = some (.when g) →
      (spec.action n (v.enter spec.name 1) g).result = .ok .failure →
        spec.Silent (spec.target (spec.storedReply w.blackboard reply) + 1)
          (spec.action n (v.enter spec.name 1) g).world.blackboard

/-- With a scoped result key, the reply reads as the value of a case exactly when it is
    spelled as one. -/
theorem spelled_iff {spec : SwitchSpec ThenSpec} (named : VariableName spec.on.key) (bb : Blackboard)
    (caseSensitive : Bool) (reply : String) :
    (∃ c ∈ spec.cases, enumMatches caseSensitive reply c.value = true ∧
        (spec.storedReply bb reply).getPath spec.on.key = some (.string c.value)) ↔
      trim reply ∈ spec.cases.map SwitchCase.value := by
  rw [storedReply, named.getPath_set, List.mem_map]
  constructor
  · intro given
    obtain ⟨c, member, _, read⟩ := given
    exact ⟨c, member, by simpa using read.symm⟩
  · intro given
    obtain ⟨c, member, same⟩ := given
    exact ⟨c, member, by rw [same]; exact enumMatches_trim _ _, by rw [same]⟩

omit [Session σ] [Clock κ] in
/-- The case that is dispatched is one the reply matches exactly when the reply reads as
    the value of one that it matches. -/
theorem target_matches {spec : SwitchSpec ThenSpec} {bb : Blackboard} {caseSensitive : Bool}
    {reply : String} :
    (∃ c, spec.cases[spec.target bb]? = some c ∧ enumMatches caseSensitive reply c.value = true) ↔
      ∃ c ∈ spec.cases, enumMatches caseSensitive reply c.value = true ∧
        bb.getPath spec.on.key = some (.string c.value) := by
  constructor
  · intro given
    obtain ⟨c, at_target, agrees⟩ := given
    have selected := selects_target at_target
    refine ⟨c, List.mem_of_getElem? at_target, agrees, ?_⟩
    cases read : bb.getPath spec.on.key with
    | none => simp only [selects, read, Bool.false_eq_true] at selected
    | some v =>
        simp only [selects, read] at selected
        rw [BlackboardValue.eq_string.mp selected]
  · intro given
    obtain ⟨c, member, agrees, read⟩ := given
    have selected : spec.selects bb c = true := by
      simp only [selects, read]
      exact BlackboardValue.eq_string.mpr rfl
    have inside : spec.target bb < spec.cases.length :=
      List.findIdx_lt_length_of_exists ⟨c, member, selected⟩
    have at_target := List.getElem?_eq_getElem inside
    refine ⟨_, at_target, ?_⟩
    have same := selects_target at_target
    simp only [selects, read] at same
    have value := BlackboardValue.eq_string.mp same
    rw [← BlackboardValue.string.inj value]
    exact agrees

end SwitchSpec

/-! ## The tick that takes the reply -/

/-- The sequence of a `switch` on a prompt, in some run state. -/
def SwitchSpec.asking (spec : SwitchSpec ThenSpec) (p : PromptNode) (n : SelectorNode Node)
    (activeChild : Option Nat) : Node :=
  .sequence { name := spec.name, children := [.prompt p, .selector n], activeChild }

/-- The prompt of an enum switch, in any run state. -/
structure PromptNode.Asks (p : PromptNode) (spec : SwitchSpec ThenSpec) (caseSensitive : Bool) : Prop where
  name : p.name = spec.name ++ "_prompt"
  parser : p.parser = .enum (spec.cases.map SwitchCase.value) caseSensitive
  sets : p.sets = [{ key := spec.on.key, field := "value" }]

theorem sendPrompt_cases (p : PromptNode) (w : World σ κ) :
    (∃ e, (sendPrompt p w).result = .error e) ∨
      (sendPrompt p w).result = .ok .running ∧
        ∃ sentAt, (sendPrompt p w).node = { p with pending := true, sentAt } := by
  unfold sendPrompt
  split
  · exact .inl ⟨_, rfl⟩
  · dsimp only
    split
    · exact .inl ⟨_, rfl⟩
    · exact .inr ⟨rfl, _, rfl⟩

/-- A first tick that goes well leaves the switch waiting at its prompt, with no branch
    running. -/
theorem enumSwitch_asks {name : String} {model : Option String} {timeoutMs : Option Nat}
    {template : String} {caseSensitive : Bool} {resultKey : Option String}
    {cases : List (SwitchCase ThenSpec)} {default : Option ThenSpec} {w : World σ κ}
    {status : NodeStatus} :
    let spec := enumSwitch name model timeoutMs template caseSensitive resultKey cases default
    ((desugarSwitch spec).tick w).result = .ok status → status = .running ∧
      ∃ p, p.pending = true ∧
        ((desugarSwitch spec).tick w).node = spec.asking p spec.branchSelector (some 0) := by
  intro spec done
  let p : PromptNode :=
    { name := name ++ "_prompt", model, template
      parser := .enum (cases.map SwitchCase.value) caseSensitive
      sets := [{ key := spec.on.key, field := "value" }], timeoutMs := timeoutMs.getD 30000 }
  have asked : interpreter.solve ⟨.tick, .prompt p, w.enter name 0⟩ =
      (sendPrompt p (w.enter name 0)).map .prompt := by
    rw [interpreter_solve]
    rfl
  have tree : desugarSwitch spec = spec.asking p spec.branchSelector none := rfl
  have loop : ticks 0 2 = [(0, .tick), (1, .tick)] := rfl
  rw [tree, Node.tick, interpreter_solve] at done ⊢
  simp only [requestBody, SwitchSpec.asking, tickBody, tickSequence, Option.getD_none, List.length_cons,
    List.length_nil, Nat.zero_add, Nat.reduceAdd, loop, sequenceLoop, visitChild, Body.run_map,
    List.getElem?_cons_zero, Body.run_call, show spec.name = name from rfl, asked] at done ⊢
  cases sendPrompt_cases p (w.enter name 0) with
  | inl failed =>
      obtain ⟨e, result⟩ := failed
      simp only [Run.map, result, Body.run_ret, reduceCtorEq] at done
  | inr sent =>
      obtain ⟨result, sentAt, node⟩ := sent
      simp only [Run.map, result, node, Body.run_ret] at done ⊢
      exact ⟨(Except.ok.inj done).symm, { p with pending := true, sentAt }, rfl, rfl⟩

/-- The prompt succeeds, and the reply is stored. -/
theorem Takes.tick {spec : SwitchSpec ThenSpec} {p : PromptNode} {caseSensitive : Bool} {w : World σ κ}
    {reply : String} (takes : Takes p w reply) (asks : p.Asks spec caseSensitive) :
    ((Node.prompt p).tick w).result = .ok .success ∧
      ((Node.prompt p).tick w).world.blackboard = spec.storedReply w.blackboard reply := by
  obtain ⟨session, session', ready, received⟩ := takes.received
  obtain ⟨values, parsed⟩ := takes.accepted
  have accepted := parsed
  rw [asks.parser, parse_enum] at accepted
  have values_eq : values = AList.insert "value" (.string (trim reply)) ∅ := by
    split at accepted
    · exact (Except.ok.inj accepted).symm
    · cases accepted
  have kept : (promptTimedOut p w).2.blackboard = w.blackboard := by
    unfold promptTimedOut
    split <;> rfl
  have ticked : (Node.prompt p).tick w =
      (consumeReply p reply ((promptTimedOut p w).2.withSession session')).map .prompt := by
    rw [Node.tick, interpreter_solve]
    simp only [requestBody, tickBody, Body.run_ret, tickPrompt, takes.pending, if_true, awaitReply, takes.inTime,
      Bool.false_eq_true, if_false, ready, received]
  rw [ticked]
  simp only [consumeReply, parsed, Run.map, true_and]
  have no_command : values.lookup "__command" = none := by
    rw [values_eq, AList.lookup_insert_ne (by decide), AList.lookup_empty]
  have value : values.lookup "value" = some (.string (trim reply)) := by
    rw [values_eq, AList.lookup_insert]
  simp only [World.withBlackboard, World.withSession, pushParsedCommand, no_command, asks.sets,
    applySets, List.foldl_cons, List.foldl_nil, value, kept, asks.name, SwitchSpec.storedReply]

/-- The tick calls the prompt and then the selector over the branches. -/
theorem SwitchSpec.asking_calls {spec : SwitchSpec ThenSpec} {p : PromptNode} {n : SelectorNode Node}
    {active : Option Nat} {w : World σ κ} (at_prompt : active.getD 0 = 0)
    (success : ((Node.prompt p).tick (w.enter spec.name 0)).result = .ok .success) :
    interpreter.calls ⟨.tick, spec.asking p n active, w⟩ =
      [visit spec.name (.prompt p) 0 w, visit spec.name (.selector n) 1
        (((Node.prompt p).tick (w.enter spec.name 0)).world.exit spec.name .success)] := by
  obtain ⟨r, walk, called, -⟩ := sequence_tick (q := ⟨.tick, spec.asking p n active, w⟩) trivial rfl
  have start : ({ name := spec.name, children := [.prompt p, .selector n], activeChild := active } :
    SequenceNode Node).activeChild.getD 0 = 0 := at_prompt
  rw [start] at walk
  rw [called]
  have result : (interpreter.solve (visit spec.name (.prompt p) 0 w)).result = .ok .success := success
  cases walk with
  | ranOut out => cases out
  | failed at_start failed =>
      obtain rfl := Option.some.inj at_start
      rw [result] at failed
      cases failed
  | stopped at_start stopped stops =>
      obtain rfl := Option.some.inj at_start
      rw [result] at stopped
      exact absurd (Except.ok.inj stopped).symm stops
  | went at_start _ on rest =>
      obtain rfl := Option.some.inj at_start
      subst on
      -- the selector is the last child
      cases rest with
      | ranOut out => cases out with | step out => cases out
      | failed at_next | stopped at_next =>
          obtain rfl := Option.some.inj at_next
          rfl
      | went at_next _ _ rest =>
          obtain rfl := Option.some.inj at_next
          cases rest with
          | ranOut => rfl
          | failed at_end | stopped at_end | went at_end => cases at_end

/-- What the configuration of a desugared `switch` on a prompt leaves open. -/
theorem SwitchSpec.asking_of_reset {name : String} {model : Option String} {timeoutMs : Option Nat}
    {template : String} {caseSensitive : Bool} {resultKey : Option String}
    {cases : List (SwitchCase ThenSpec)} {default : Option ThenSpec} {p : PromptNode}
    {n : SelectorNode Node} {active : Option Nat}
    (same : ((enumSwitch name model timeoutMs template caseSensitive resultKey cases default).asking
        p n active).reset =
      (desugarSwitch
        (enumSwitch name model timeoutMs template caseSensitive resultKey cases default)).reset) :
    let spec := enumSwitch name model timeoutMs template caseSensitive resultKey cases default
    p.Asks spec caseSensitive ∧ spec.Branching 0 n.children := by
  simp only [asking, enumSwitch, desugarSwitch, switchNode, Node.reset, Node.resetList,
    Node.sequence.injEq, SequenceNode.mk.injEq, List.cons.injEq, and_true, true_and] at same
  obtain ⟨prompt, selector⟩ := same
  simp only [Node.prompt.injEq, PromptNode.mk.injEq] at prompt
  obtain ⟨named, -, -, parser, sets, -⟩ := prompt
  have branches : (Node.selector n).reset = (Node.selector (SwitchSpec.branchSelector
      (enumSwitch name model timeoutMs template caseSensitive resultKey cases default))).reset :=
    selector
  obtain ⟨m, node, -, guards⟩ := SwitchSpec.branching_of_reset _ branches
  obtain rfl := Node.selector.inj node
  exact ⟨⟨named, parser, sets⟩, guards⟩

theorem SwitchSpec.follows_reply_iff {spec : SwitchSpec ThenSpec} {p : PromptNode}
    {n : SelectorNode Node} {active : Option Nat} {w : World σ κ} {caseSensitive : Bool}
    {reply : String} (asks : p.Asks spec caseSensitive) (branching : spec.Branching 0 n.children)
    (at_prompt : active.getD 0 = 0) (idle : n.activeChild = none)
    (takes : Takes p (w.enter spec.name 0) reply) :
    spec.FollowsReply caseSensitive reply ⟨.tick, spec.asking p n active, w⟩ ↔
      spec.Agrees caseSensitive reply p n w := by
  obtain ⟨success, stored⟩ := takes.tick asks
  let v := ((Node.prompt p).tick (w.enter spec.name 0)).world.exit spec.name .success
  let q := visit spec.name (.selector n) 1 v
  have read : q.world.blackboard = spec.storedReply w.blackboard reply := stored
  have ran : ((interpreter.calls ⟨.tick, spec.asking p n active, w⟩).filter
      (·.position == 1)).flatMap spec.runs = spec.runs q := by
    rw [SwitchSpec.asking_calls at_prompt success]
    simp [visit_position, q, v]
  rw [SwitchSpec.FollowsReply, ran]
  have runs {i : Nat} (inside : i < spec.cases.length) :=
    branching.runs_iff (q := q) trivial rfl idle inside
  constructor
  · intro given
    obtain ⟨i, c, at_i, agrees, alone⟩ := given
    obtain ⟨target, final⟩ := (runs (List.getElem?_eq_some_iff.mp at_i).1).mp alone
    rw [read] at target
    subst target
    exact ⟨SwitchSpec.target_matches.mp ⟨c, at_i, agrees⟩, final⟩
  · intro agrees
    obtain ⟨c, at_target, matched⟩ := SwitchSpec.target_matches.mpr agrees.spelled
    have inside := (List.getElem?_eq_some_iff.mp at_target).1
    exact ⟨_, c, at_target, matched, (runs inside).mpr ⟨by rw [read], agrees.final⟩⟩

/-- A tick of a `switch` on an enum that takes an accepted reply runs the branch of a case
    whose value the reply matches, and no other, if and only if the stored reply reads
    exactly as such a value and a failure of its action is not followed by another branch. -/
theorem enumSwitch_follows_reply (name : String) (model : Option String) (timeoutMs : Option Nat)
    (template : String) (caseSensitive : Bool) (resultKey : Option String)
    (cases : List (SwitchCase ThenSpec)) (default : Option ThenSpec) (p : PromptNode)
    (n : SelectorNode Node) (active : Option Nat) (w : World σ κ) (reply : String)
    (same : ((enumSwitch name model timeoutMs template caseSensitive resultKey cases default).asking
        p n active).reset =
      (desugarSwitch
        (enumSwitch name model timeoutMs template caseSensitive resultKey cases default)).reset)
    (at_prompt : active.getD 0 = 0) (idle : n.activeChild = none)
    (takes : Takes p (w.enter name 0) reply) :
    let spec := enumSwitch name model timeoutMs template caseSensitive resultKey cases default
    spec.FollowsReply caseSensitive reply ⟨.tick, spec.asking p n active, w⟩ ↔
      spec.Agrees caseSensitive reply p n w := by
  intro spec
  obtain ⟨asks, branching⟩ := SwitchSpec.asking_of_reset same
  exact SwitchSpec.follows_reply_iff asks branching at_prompt idle takes

end

section

namespace Folding

/-- Lower case as in ASCII. -/
scoped instance crates : Crates :=
  { Plain.crates with toLowercase := fun s => String.ofList (s.toList.map Char.toLower) }

end Folding

open Plain Folding

/-- A question with one expected answer, asked already. -/
def confirmSwitch (value : String) : SwitchSpec ThenSpec :=
  enumSwitch "confirm" none none "Ready?" false none
    [⟨value, .inlineCommand (.agent .wakeUp)⟩] none

def confirmPrompt (value : String) : PromptNode :=
  { name := "confirm_prompt", model := none, template := "Ready?", parser := .enum [value] false
    sets := [{ key := "decision", field := "value" }], timeoutMs := 30000
    pending := true, sentAt := some 0 }

def confirmWorld : World Eager Frozen := { blackboard := {}, session := .session, clock := .clock, tracer := {} }

theorem confirmPrompt_takes (value : String)
    (matched : [value].any (enumMatches false "yes") = true) :
    Takes (confirmPrompt value) (confirmWorld.enter "confirm" 0) "yes" where
  pending := rfl
  inTime := rfl
  received := ⟨_, _, rfl, rfl⟩
  accepted := by
    rw [show (confirmPrompt value).parser = .enum [value] false from rfl, parse_enum, if_pos matched]
    exact ⟨_, rfl⟩

theorem confirmSwitch_named (value : String) : VariableName (confirmSwitch value).on.key :=
  ⟨(by decide : splitDots "decision" = ("decision", [])), fun _ => rfl⟩

/-- The parser accepts `yes` for `YES`, and the guard of the case `YES` does not. -/
theorem lower_case_unmatched : ¬ ∀ (name : String) (model : Option String) (timeoutMs : Option Nat)
    (template : String) (caseSensitive : Bool) (resultKey : Option String)
    (cases : List (SwitchCase ThenSpec)) (default : Option ThenSpec) (p : PromptNode)
    (n : SelectorNode Node) (active : Option Nat) (w : World Eager Frozen) (reply : String),
    let spec := enumSwitch name model timeoutMs template caseSensitive resultKey cases default
    (spec.asking p n active).reset = (desugarSwitch spec).reset → active.getD 0 = 0 →
      n.activeChild = none → Takes p (w.enter name 0) reply →
      spec.FollowsReply caseSensitive reply ⟨.tick, spec.asking p n active, w⟩ := by
  intro all
  have takes := confirmPrompt_takes "YES" (by decide)
  have followed := all "confirm" none none "Ready?" false none
    [⟨"YES", .inlineCommand (.agent .wakeUp)⟩] none (confirmPrompt "YES")
    (confirmSwitch "YES").branchSelector (some 0) confirmWorld "yes" rfl rfl rfl takes
  have branching : (confirmSwitch "YES").Branching 0 (confirmSwitch "YES").branchSelector.children := by
    obtain ⟨n, node, -, guards⟩ := SwitchSpec.branching_of_reset (confirmSwitch "YES") rfl
    cases node
    exact guards
  have agrees := (SwitchSpec.follows_reply_iff ⟨rfl, rfl, rfl⟩ branching rfl rfl takes).mp followed
  have spelled := (SwitchSpec.spelled_iff (confirmSwitch_named "YES") _ _ _).mp agrees.spelled
  exact absurd spelled (by decide)

/-- An answer as it is spelled. -/
theorem confirmSwitch_follows :
    (confirmSwitch "yes").FollowsReply false "yes" ⟨.tick, (confirmSwitch "yes").asking
        (confirmPrompt "yes") (confirmSwitch "yes").branchSelector (some 0), confirmWorld⟩ ↔
      (confirmSwitch "yes").Agrees false "yes" (confirmPrompt "yes")
        (confirmSwitch "yes").branchSelector confirmWorld :=
  enumSwitch_follows_reply _ _ _ _ _ _ _ _ _ _ _ _ _ rfl rfl rfl
    (confirmPrompt_takes "yes" (by decide))

end

end AgileAgent.DecisionDsl
