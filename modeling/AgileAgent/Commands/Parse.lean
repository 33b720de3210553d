import AgileAgent.Provider.LaunchConfig

/-! # Slash commands

What the words of a slash command are taken for: the namespace, an agent it is sent to, a registered path
with arguments, or a command of the provider that is passed through.
-/

namespace AgileAgent.Commands

open DecisionDsl (isWhitespace trim)
open Provider (Shlex)

inductive CommandNamespace where
  | «local»
  | agent
  | provider
  deriving DecidableEq

inductive CommandTargetSpec where
  | agentName (name : String)
  deriving DecidableEq

structure CommandInvocation where
  commandNamespace : CommandNamespace
  target : Option CommandTargetSpec
  path : List String
  args : List String
  rawTail : Option String
  deriving DecidableEq

inductive ParsedSlashCommand where
  | invocation (i : CommandInvocation)
  deriving DecidableEq

structure CommandParseError where
  message : String
  deriving DecidableEq

/-! ## The registry -/

structure CommandSpec where
  commandNamespace : CommandNamespace
  path : List String

def commandSpecs : List CommandSpec :=
  [⟨.local, ["help"]⟩, ⟨.local, ["status"]⟩, ⟨.local, ["clear"]⟩, ⟨.local, ["kanban", "list"]⟩,
    ⟨.local, ["config", "get"]⟩, ⟨.local, ["config", "set"]⟩, ⟨.agent, ["status"]⟩,
    ⟨.agent, ["summary"]⟩, ⟨.provider, []⟩]

/-- The paths that are registered in a namespace. -/
def registeredPaths (ns : CommandNamespace) : List (List String) :=
  (commandSpecs.filter fun spec => spec.commandNamespace = ns ∧ spec.path ≠ []).map CommandSpec.path

def namespacePathHeads (ns : CommandNamespace) : List String := (registeredPaths ns).filterMap List.head?

/-- The longer of two paths, the second of two that are equally long. -/
def longerPath (best : Option (List String)) (path : List String) : Option (List String) :=
  match best with
  | none => some path
  | some b => if b.length ≤ path.length then some path else some b

def longestRegisteredPathPrefix (ns : CommandNamespace) (tokens : List String) : Option (List String) :=
  ((registeredPaths ns).filter (·.isPrefixOf tokens)).foldl longerPath none

/-! ## The parser -/

def splitPathAndArgs (ns : CommandNamespace) (tokens : List String) (knownPaths : Option (List String)) :
    List String × List String :=
  match longestRegisteredPathPrefix ns tokens with
  | some path => (path, tokens.drop path.length)
  | none =>
      match tokens with
      | [] => ([], [])
      | first :: rest =>
          if knownPaths.any (·.contains first) then ([first], rest)
          else ([first], rest)

def startsWithSlash (s : String) : Bool := s.toList.head? == some '/'

def parseLocal (tokens : List String) : Except CommandParseError ParsedSlashCommand :=
  if tokens.length < 2 then .error ⟨"usage: /local <path...>"⟩
  else
    let (path, args) := splitPathAndArgs .local (tokens.drop 1) none
    if path = [] then .error ⟨"usage: /local <path...>"⟩
    else .ok (.invocation { commandNamespace := .local, target := none, path, args, rawTail := none })

def parseAgent (tokens : List String) : Except CommandParseError ParsedSlashCommand :=
  if tokens.length < 2 then .error ⟨"usage: /agent [target] <path...>"⟩
  else
    let knownHeads := namespacePathHeads .agent
    let (target, commandStart) :=
      if 3 ≤ tokens.length ∧ ¬ knownHeads.contains (tokens.getD 1 "") then
        (some (CommandTargetSpec.agentName (tokens.getD 1 "")), 2)
      else (none, 1)
    let (path, args) := splitPathAndArgs .agent (tokens.drop commandStart) (some knownHeads)
    if path = [] then .error ⟨"usage: /agent [target] <path...>"⟩
    else .ok (.invocation { commandNamespace := .agent, target, path, args, rawTail := none })

/-- Only one word is kept of what is passed through. -/
def parseProvider (tokens : List String) : Except CommandParseError ParsedSlashCommand :=
  if tokens.length < 2 then .error ⟨"usage: /provider [target] /provider-native-command"⟩
  else
    let (target, rawIndex) :=
      if 3 ≤ tokens.length ∧ startsWithSlash (tokens.getD 2 "") then
        (some (CommandTargetSpec.agentName (tokens.getD 1 "")), 2)
      else (none, 1)
    match tokens[rawIndex]? with
    | none => .error ⟨"usage: /provider [target] /provider-native-command"⟩
    | some rawTail =>
        if startsWithSlash rawTail then
          .ok (.invocation
            { commandNamespace := .provider, target, path := [], args := [], rawTail := some rawTail })
        else .error
          ⟨"provider commands must use raw slash passthrough syntax like `/provider /status`"⟩

def parseSlashCommand [Shlex] (input : String) : Except CommandParseError ParsedSlashCommand :=
  let trimmed := trim input
  if startsWithSlash trimmed then
    match Shlex.split trimmed with
    | none => .error ⟨"invalid slash command quoting"⟩
    | some [] => .error ⟨"empty slash command"⟩
    | some (first :: rest) =>
        if first = "/local" then parseLocal (first :: rest)
        else if first = "/agent" then parseAgent (first :: rest)
        else if first = "/provider" then parseProvider (first :: rest)
        else .error ⟨"unsupported slash namespace: " ++ first⟩
  else .error ⟨"slash commands must start with `/`"⟩

/-! ## Passing through -/

/-- The words in their order, with white space in between. -/
inductive Carries : List Char → List String → Prop
  | last (word : String) : Carries word.toList [word]
  | next (word : String) {gap tail : List Char} {rest : List String} (blank : gap.all isWhitespace)
      (apart : gap ≠ []) (later : Carries tail rest) : Carries (word.toList ++ gap ++ tail) (word :: rest)

/-- The words are passed through to the target, or to the agent in focus. -/
def PassesThrough (result : Except CommandParseError ParsedSlashCommand) (target : Option CommandTargetSpec)
    (words : List String) : Prop :=
  ∃ tail, result = .ok (.invocation
      { commandNamespace := .provider, target, path := [], args := [], rawTail := some tail }) ∧
    Carries tail.toList words

theorem carries_word_iff {word : String} {rest : List String} :
    Carries word.toList (word :: rest) ↔ rest = [] := by
  constructor
  · intro carries
    generalize same : word.toList = tail at carries
    cases carries with
    | last => rfl
    | @next _ gap tail _ blank apart later =>
        have long := congrArg List.length same
        have positive := List.length_pos_of_ne_nil apart
        rw [List.length_append, List.length_append] at long
        omega
  · rintro rfl
    exact .last word

/-- A word with a slash behind another makes a target of that. -/
theorem parseProvider_addressed {name word : String} {rest : List String} (native : startsWithSlash word) :
    parseProvider ("/provider" :: name :: word :: rest) = .ok (.invocation
      { commandNamespace := .provider, target := some (.agentName name), path := [], args := [],
        rawTail := some word }) := by
  have long : ¬ ("/provider" :: name :: word :: rest).length < 2 := by simp
  have three : 3 ≤ ("/provider" :: name :: word :: rest).length := by simp
  rw [parseProvider, if_neg long]
  simp only [List.getD_cons_succ, List.getD_cons_zero, native, three, and_self, if_true]
  simp [native]

theorem parseProvider_plain {word : String} {rest : List String} (native : startsWithSlash word)
    (other : ¬ rest.head?.any startsWithSlash) :
    parseProvider ("/provider" :: word :: rest) = .ok (.invocation
      { commandNamespace := .provider, target := none, path := [], args := [], rawTail := some word }) := by
  have long : ¬ ("/provider" :: word :: rest).length < 2 := by simp
  have noTarget : ¬ (3 ≤ ("/provider" :: word :: rest).length ∧
      startsWithSlash (("/provider" :: word :: rest).getD 2 "")) := by
    cases rest with
    | nil => simp
    | cons second rest =>
        intro given
        exact other given.2
  rw [parseProvider, if_neg long, if_neg noTarget]
  simp [native]

section

variable [Shlex] {input : String} {words : List String}

theorem parseSlashCommand_provider (slash : startsWithSlash (trim input))
    (split : Shlex.split (trim input) = some ("/provider" :: words)) :
    parseSlashCommand input = parseProvider ("/provider" :: words) := by
  rw [parseSlashCommand]
  simp only [slash, split]
  rfl

/-- What is passed through is the whole command just if it is a single word. -/
theorem command_carried_iff {addressed name : String} (slash : startsWithSlash (trim input))
    (split : Shlex.split (trim input) = some ("/provider" :: words))
    (slash' : startsWithSlash (trim addressed))
    (split' : Shlex.split (trim addressed) = some ("/provider" :: name :: words))
    (native : words.head?.any startsWithSlash) :
    PassesThrough (parseSlashCommand input) none words ∧
        PassesThrough (parseSlashCommand addressed) (some (.agentName name)) words ↔
      words.length = 1 := by
  cases words with
  | nil => cases native
  | cons word rest =>
      have here : parseSlashCommand addressed = _ :=
        (parseSlashCommand_provider slash' split').trans (parseProvider_addressed native)
      rw [parseSlashCommand_provider slash split, here, List.length_cons, Nat.add_eq_right,
        List.length_eq_zero_iff]
      constructor
      · intro given
        obtain ⟨-, tail, same, carries⟩ := given
        simp only [Except.ok.injEq, ParsedSlashCommand.invocation.injEq, CommandInvocation.mk.injEq,
          Option.some.injEq, true_and] at same
        exact carries_word_iff.mp (same ▸ carries)
      · rintro rfl
        rw [parseProvider_plain native (by simp)]
        exact ⟨⟨word, rfl, .last word⟩, word, rfl, .last word⟩

end

/-- The shell on commands of plain words. -/
@[reducible] def plainShlex : Shlex where
  split text := [("/provider /status", ["/provider", "/status"]),
    ("/provider alpha /status", ["/provider", "alpha", "/status"]),
    ("/provider /add /tmp", ["/provider", "/add", "/tmp"]),
    ("/provider alpha /add /tmp", ["/provider", "alpha", "/add", "/tmp"])].lookup text

theorem status_carried :
    PassesThrough (@parseSlashCommand plainShlex "/provider /status") none ["/status"] ∧
      PassesThrough (@parseSlashCommand plainShlex "/provider alpha /status") (some (.agentName "alpha"))
        ["/status"] :=
  (@command_carried_iff plainShlex _ _ _ _ (by decide +kernel) (by decide +kernel) (by decide +kernel)
    (by decide +kernel) (by decide)).mpr rfl

/-- A path behind the command is taken for the command, and the command for the name of an agent. -/
theorem path_taken : ¬ ∀ [Shlex] (input addressed name : String) (words : List String),
    startsWithSlash (trim input) → Shlex.split (trim input) = some ("/provider" :: words) →
    startsWithSlash (trim addressed) →
    Shlex.split (trim addressed) = some ("/provider" :: name :: words) →
    words.head?.any startsWithSlash → ¬ startsWithSlash name →
    PassesThrough (parseSlashCommand input) none words ∧
      PassesThrough (parseSlashCommand addressed) (some (.agentName name)) words := by
  intro always
  obtain ⟨⟨tail, same, -⟩, -⟩ := @always plainShlex "/provider /add /tmp" "/provider alpha /add /tmp" "alpha"
    ["/add", "/tmp"] (by decide +kernel) (by decide +kernel) (by decide +kernel) (by decide +kernel)
    (by decide) (by decide)
  have outcome := (@parseSlashCommand_provider plainShlex "/provider /add /tmp" ["/add", "/tmp"]
    (by decide +kernel) (by decide +kernel)).trans (parseProvider_addressed (by decide))
  rw [outcome] at same
  simp at same

end AgileAgent.Commands
