/-! # Decision commands

The commands a decision tree emits, grouped by the component that executes them.
-/

namespace AgileAgent.DecisionDsl

inductive AgentCommand where
  | approveAndContinue
  | reflect (prompt : String)
  | sendInstruction (prompt targetAgent : String)
  | terminate (reason : String)
  | wakeUp
  deriving Repr, DecidableEq

inductive GitCommand where
  | commit (message : String) (wip : Bool)
  | stash (description : String) (includeUntracked : Bool)
  | discard
  | createBranch (name base : String)
  | rebase (base : String)
  deriving Repr, DecidableEq

inductive TaskCommand where
  | confirmCompletion
  | stopIfComplete (reason : String)
  | prepareStart (taskId description : String)
  deriving Repr, DecidableEq

inductive HumanCommand where
  | escalate (reason : String) (context : Option String)
  | selectOption (optionId : String)
  | skipDecision
  deriving Repr, DecidableEq

inductive ProviderCommand where
  | retryTool (toolName : String) (args : Option String) (maxAttempts : UInt32)
  | switchProvider (providerType : String)
  | suggestCommit (message : String) (mandatory : Bool) (reason : String)
  | preparePr (title description base : String) (draft : Bool)
  deriving Repr, DecidableEq

inductive DecisionCommand where
  | agent (command : AgentCommand)
  | git (command : GitCommand) (extra : Option String)
  | task (command : TaskCommand)
  | human (command : HumanCommand)
  | provider (command : ProviderCommand)
  deriving Repr, DecidableEq

/-- The string fields of a command, all of which may hold templates. -/
def DecisionCommand.texts : DecisionCommand → List String
  | .agent .approveAndContinue | .agent .wakeUp => []
  | .agent (.reflect prompt) => [prompt]
  | .agent (.sendInstruction prompt target) => [prompt, target]
  | .agent (.terminate reason) => [reason]
  | .git command extra => extra.toList ++ match command with
      | .commit message _ => [message]
      | .stash description _ => [description]
      | .discard => []
      | .createBranch name base => [name, base]
      | .rebase base => [base]
  | .task .confirmCompletion => []
  | .task (.stopIfComplete reason) => [reason]
  | .task (.prepareStart taskId description) => [taskId, description]
  | .human (.escalate reason context) => context.toList ++ [reason]
  | .human (.selectOption optionId) => [optionId]
  | .human .skipDecision => []
  | .provider (.retryTool toolName args _) => args.toList ++ [toolName]
  | .provider (.switchProvider providerType) => [providerType]
  | .provider (.suggestCommit message _ reason) => [message, reason]
  | .provider (.preparePr title description base _) => [title, description, base]

end AgileAgent.DecisionDsl
