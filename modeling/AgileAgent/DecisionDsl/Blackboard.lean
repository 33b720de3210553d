import Mathlib.Algebra.Ring.Nat
import Mathlib.Data.List.AList
import AgileAgent.DecisionDsl.Command
import AgileAgent.DecisionDsl.Error

/-! # The blackboard

Host inputs, the stack of variable scopes, and the outputs of a decision tree.
Hash maps are association lists without duplicate keys; the scope stack is never
empty and never deeper than `maxScopeDepth`, as the private field of the source
guarantees.
-/

namespace AgileAgent.DecisionDsl

/-- `MAX_SCOPE_DEPTH`. -/
def maxScopeDepth : Nat := 64

inductive ScopeError where
  | maxDepthExceeded
  deriving Repr, DecidableEq

inductive BlackboardValue where
  | string (s : String)
  | integer (i : Int)
  | float (f : Float)
  | boolean (b : Bool)
  | list (l : List BlackboardValue)
  | map (m : List (String × BlackboardValue))
  | command (c : DecisionCommand)
  | null

namespace BlackboardValue

mutual
/-- `PartialEq`: floats compare as IEEE numbers, maps as finite functions. -/
def eq : BlackboardValue → BlackboardValue → Bool
  | .string a, .string b => a == b
  | .integer a, .integer b => a == b
  | .float a, .float b => a == b
  | .boolean a, .boolean b => a == b
  | .list as, .list bs => eqList as bs
  | .map as, .map bs => as.length == bs.length && eqMap as bs
  | .command a, .command b => a == b
  | .null, .null => true
  | _, _ => false

def eqList : List BlackboardValue → List BlackboardValue → Bool
  | [], [] => true
  | a :: as, b :: bs => eq a b && eqList as bs
  | _, _ => false

def eqMap : List (String × BlackboardValue) → List (String × BlackboardValue) → Bool
  | [], _ => true
  | (key, a) :: rest, bs =>
      (match bs.lookup key with
        | some b => eq a b
        | none => false) && eqMap rest bs
end

end BlackboardValue

structure ToolCallRecord where
  name : String
  input : String
  output : String

structure FileChangeRecord where
  path : String
  changeType : String

structure ReflectionEntry where
  sprint : UInt8
  result : String
  reasoning : String

structure DecisionEntry where
  nodeName : String
  decision : String
  outcome : String

structure SprintGoal where
  sprintNumber : UInt8
  description : String

/-- One variable scope. -/
abbrev Scope := AList fun _ : String => BlackboardValue

/-- The stack of scopes, innermost first (the source keeps the innermost last). -/
structure ScopeStack where
  scopes : List Scope
  nonempty : 0 < scopes.length
  bounded : scopes.length ≤ maxScopeDepth

namespace ScopeStack

@[ext] theorem ext {left right : ScopeStack} (same : left.scopes = right.scopes) : left = right := by
  cases left; cases right; cases same; rfl

def depth (s : ScopeStack) : Nat := s.scopes.length

/-- The root scope alone. -/
def root : ScopeStack := ⟨[∅], Nat.one_pos, by decide⟩

def push (s : ScopeStack) : Except ScopeError ScopeStack :=
  if room : s.scopes.length < maxScopeDepth then
    .ok ⟨∅ :: s.scopes, Nat.succ_pos _, room⟩
  else .error .maxDepthExceeded

def pop (s : ScopeStack) : ScopeStack :=
  if deep : 1 < s.scopes.length then
    ⟨s.scopes.tail, by simp only [List.length_tail]; omega,
      by have := s.bounded; simp only [List.length_tail]; omega⟩
  else s

/-- Write to the innermost scope. -/
def set (s : ScopeStack) (key : String) (value : BlackboardValue) : ScopeStack :=
  ⟨s.scopes.modifyHead (·.insert key value), by simpa using s.nonempty, by simpa using s.bounded⟩

/-- Read from the innermost scope that has the key. -/
def get (s : ScopeStack) (key : String) : Option BlackboardValue :=
  s.scopes.findSome? (·.lookup key)

theorem push_ok {s t : ScopeStack} (pushed : s.push = .ok t) : t.scopes = ∅ :: s.scopes := by
  unfold push at pushed
  split at pushed
  · cases pushed; rfl
  · cases pushed

theorem pop_scopes {s : ScopeStack} {top : Scope} {below : List Scope}
    (scopes : s.scopes = top :: below) (deep : 0 < below.length) : s.pop.scopes = below := by
  have : 1 < s.scopes.length := by simp only [scopes, List.length_cons]; omega
  unfold pop
  rw [dif_pos this]
  simp only [scopes, List.tail_cons]

theorem pop_push {s t : ScopeStack} (pushed : s.push = .ok t) : t.pop = s :=
  ext (pop_scopes (push_ok pushed) s.nonempty)

@[simp] theorem set_tail (s : ScopeStack) (key : String) (value : BlackboardValue) :
    (s.set key value).scopes.tail = s.scopes.tail := by
  cases h : s.scopes <;> simp [set, h]

end ScopeStack

structure Blackboard where
  taskDescription : String := ""
  providerOutput : String := ""
  contextSummary : String := ""
  lastToolCall : Option ToolCallRecord := none
  fileChanges : List FileChangeRecord := []
  reflectionRound : UInt8 := 0
  maxReflectionRounds : UInt8 := 2
  confidenceAccumulator : Float := 0.0
  agentId : String := ""
  workAgentId : String := ""
  currentTaskId : String := ""
  currentStoryId : String := ""
  currentSprint : UInt8 := 1
  totalSprints : UInt8 := 1
  sprintGoals : List SprintGoal := []
  reflectionChain : List ReflectionEntry := []
  decisionChain : List DecisionEntry := []
  scopes : ScopeStack := .root
  commands : List DecisionCommand := []
  llmResponses : AList (fun _ : String => String) := ∅

/-- `usize::from_str`: an optional plus sign and decimal digits, below `2 ^ 64`. -/
def parseUsize (s : String) : Option Nat :=
  let digits := match s.toList with
    | '+' :: rest => rest
    | cs => cs
  if digits ≠ [] ∧ digits.all Char.isDigit then
    let value := digits.foldl (fun n c => 10 * n + (c.toNat - '0'.toNat)) 0
    if value < 2 ^ 64 then some value else none
  else none

/-- `str::split('.')`: there is always a first part. -/
def splitDots (s : String) : String × List String :=
  go [] s.toList
where
  go (current : List Char) : List Char → String × List String
    | [] => (String.ofList current.reverse, [])
    | '.' :: rest =>
        let (first, parts) := go [] rest
        (String.ofList current.reverse, first :: parts)
    | c :: rest => go (c :: current) rest

namespace Blackboard

def pushScope (bb : Blackboard) : Except ScopeError Blackboard :=
  match bb.scopes.push with
  | .ok scopes => .ok { bb with scopes }
  | .error e => .error e

def popScope (bb : Blackboard) : Blackboard := { bb with scopes := bb.scopes.pop }

def set (bb : Blackboard) (key : String) (value : BlackboardValue) : Blackboard :=
  { bb with scopes := bb.scopes.set key value }

def get (bb : Blackboard) (key : String) : Option BlackboardValue := bb.scopes.get key

def currentSprintGoal (bb : Blackboard) : Option String :=
  (bb.sprintGoals.find? (·.sprintNumber == bb.currentSprint)).map (·.description)

private def number (n : UInt8) : BlackboardValue := .integer n.toNat

/-- The value of a first path component: a built-in field or a scoped variable. -/
def topLevel (bb : Blackboard) : String → Option BlackboardValue
  | "task_description" => some (.string bb.taskDescription)
  | "provider_output" => some (.string bb.providerOutput)
  | "context_summary" => some (.string bb.contextSummary)
  | "last_tool_call" => bb.lastToolCall.map fun t => .map
      [("name", .string t.name), ("input", .string t.input), ("output", .string t.output)]
  | "file_changes" => some <| .list <| bb.fileChanges.map fun fc => .map
      [("path", .string fc.path), ("change_type", .string fc.changeType)]
  | "reflection_round" => some (number bb.reflectionRound)
  | "max_reflection_rounds" => some (number bb.maxReflectionRounds)
  | "confidence_accumulator" => some (.float bb.confidenceAccumulator)
  | "agent_id" => some (.string bb.agentId)
  | "work_agent_id" => some (.string bb.workAgentId)
  | "current_task_id" => some (.string bb.currentTaskId)
  | "current_story_id" => some (.string bb.currentStoryId)
  | "current_sprint" => some (number bb.currentSprint)
  | "total_sprints" => some (number bb.totalSprints)
  | "sprint_goals" => some <| .list <| bb.sprintGoals.map fun sg => .map
      [("sprint_number", number sg.sprintNumber), ("description", .string sg.description)]
  | "sprint_goal" => bb.currentSprintGoal.map .string
  | "reflection_chain" => some <| .list <| bb.reflectionChain.map fun r => .map
      [("sprint", number r.sprint), ("result", .string r.result), ("reasoning", .string r.reasoning)]
  | "decision_chain" => some <| .list <| bb.decisionChain.map fun d => .map
      [("node_name", .string d.nodeName), ("decision", .string d.decision),
        ("outcome", .string d.outcome)]
  | "llm_responses" => some <| .map <| bb.llmResponses.entries.map fun e => (e.1, .string e.2)
  | key => bb.get key

/-- One further path component, into a map or a list. -/
def descend : BlackboardValue → String → Option BlackboardValue
  | .map m, part => m.lookup part
  | .list l, part => (parseUsize part).bind (l[·]?)
  | _, _ => none

def getPath (bb : Blackboard) (path : String) : Option BlackboardValue :=
  let (first, parts) := splitDots path
  (bb.topLevel first).bind fun value => parts.foldlM descend value

def pushCommand (bb : Blackboard) (command : DecisionCommand) : Blackboard :=
  { bb with commands := bb.commands ++ [command] }

def drainCommands (bb : Blackboard) : List DecisionCommand × Blackboard :=
  (bb.commands, { bb with commands := [] })

def storeLlmResponse (bb : Blackboard) (key value : String) : Blackboard :=
  { bb with llmResponses := bb.llmResponses.insert key value }

/-- All scoped variables, outermost scope first. -/
def iterVariables (bb : Blackboard) : List (String × BlackboardValue) :=
  bb.scopes.scopes.reverse.flatMap fun scope => scope.entries.map fun e => (e.1, e.2)

@[simp] theorem pushCommand_commands (bb : Blackboard) (command : DecisionCommand) :
    (bb.pushCommand command).commands = bb.commands ++ [command] := rfl

theorem pushScope_ok {bb bb' : Blackboard} (pushed : bb.pushScope = .ok bb') :
    ∃ scopes, bb.scopes.push = .ok scopes ∧ bb' = { bb with scopes } := by
  unfold pushScope at pushed
  split at pushed
  · next scopes h => cases pushed; exact ⟨scopes, h, rfl⟩
  · cases pushed

theorem popScope_pushScope {bb bb' : Blackboard} (pushed : bb.pushScope = .ok bb') :
    bb'.popScope = bb := by
  obtain ⟨scopes, room, rfl⟩ := pushScope_ok pushed
  have popped : scopes.pop = bb.scopes := ScopeStack.pop_push room
  simp only [popScope, popped]

end Blackboard

end AgileAgent.DecisionDsl
