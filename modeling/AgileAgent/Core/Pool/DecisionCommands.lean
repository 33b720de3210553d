import AgileAgent.Core.Pool.Decisions

/-! # Decisions as commands

A decision is either translated into commands, which are interpreted as effects and dispatched,
or executed on the pool at once. The commands are taken if each of them has an interpretation.
Effects are dispatched as the TUI does it.
-/

namespace AgileAgent.Core

open RuntimeDomain

inductive DecisionCommand where
  | escalateToHuman (reason : String) (context : Option String)
  | retryTool (toolName : String) (args : Option String) (maxAttempts : Nat)
  | sendCustomInstruction (prompt targetAgent : String)
  | approveAndContinue
  | terminateAgent (reason : String)
  | switchProvider (providerType : String)
  | selectOption (optionId : String)
  | skipDecision
  | confirmCompletion
  | reflect (prompt : String)
  | stopIfComplete (reason : String)
  | prepareTaskStart (taskId taskDescription : String)
  | suggestCommit (message : String) (mandatory : Bool) (reason : String)
  | preparePr (title description baseBranch : String) (asDraft : Bool)
  | commitChanges (message : String) (isWip : Bool) (worktreePath : Option String)
  | stashChanges (description : String) (includeUntracked : Bool) (worktreePath : Option String)
  | discardChanges (worktreePath : Option String)
  | createTaskBranch (branchName baseBranch : String) (worktreePath : Option String)
  | rebaseToMain (baseBranch : String)
  | wakeUp
  | unknown (actionType : String) (params : Finmap (fun _ : String => String))

/-- The command of one action. -/
def translateAction (workAgentId : AgentId) (a : DecisionAction) : DecisionCommand :=
  match a.actionType with
  | "select_option" => .selectOption (a.param "option_id" "a")
  | "skip" => .skipDecision
  | "request_human" => .escalateToHuman "awaiting_human" none
  | "custom_instruction" => .sendCustomInstruction (a.param "instruction" "") workAgentId
  | "continue" => .approveAndContinue
  | "reflect" => .reflect (a.param "prompt" "Please verify your work is complete.")
  | "confirm_completion" => .confirmCompletion
  | "retry" =>
      .sendCustomInstruction (a.param "prompt" "Please retry the previous action.") workAgentId
  | "continue_all_tasks" =>
      .sendCustomInstruction (a.param "instruction" "continue finish all tasks") workAgentId
  | "stop_if_complete" => .stopIfComplete (a.param "reason" "All tasks complete")
  | "prepare_task_start" =>
      .prepareTaskStart (a.param "task_id" "unknown") (a.param "task_description" "")
  | "wake_up" => .wakeUp
  | "commit_changes" => .commitChanges (a.param "commit_message" "") (a.flag "is_wip" false)
      (a.params.lookup "worktree_path")
  | "stash_changes" => .stashChanges (a.param "description" "") (a.flag "include_untracked" true)
      (a.params.lookup "worktree_path")
  | "discard_changes" => .discardChanges (a.params.lookup "worktree_path")
  | "suggest_commit" => .suggestCommit (a.param "suggested_message" "") (a.flag "mandatory" false)
      (a.param "reason" "")
  | "prepare_pr" => .preparePr (a.param "title" "") (a.param "description" "")
      (a.param "base_branch" "main") (a.flag "as_draft" true)
  | "create_task_branch" => .createTaskBranch (a.param "branch_name" "")
      (a.param "base_branch" "main") (a.params.lookup "worktree_path")
  | "rebase_to_main" => .rebaseToMain (a.param "base_branch" "main")
  | actionType => .unknown actionType a.params

def translate (workAgentId : AgentId) (actions : List DecisionAction) : List DecisionCommand :=
  actions.map (translateAction workAgentId)

def interpret (agentId : AgentId) : DecisionCommand → Option (List RuntimeCommand)
  | .escalateToHuman reason _ => some [.notifyUser agentId reason]
  | .terminateAgent reason | .stopIfComplete reason => some [.terminate agentId reason]
  | .approveAndContinue | .wakeUp => some [.transitionState agentId "idle"]
  | .sendCustomInstruction .. | .reflect .. | .retryTool .. | .switchProvider .. | .selectOption ..
  | .skipDecision | .confirmCompletion | .prepareTaskStart .. | .suggestCommit .. | .preparePr ..
  | .commitChanges .. | .stashChanges .. | .discardChanges .. | .createTaskBranch ..
  | .rebaseToMain .. | .unknown .. => none

/-- The effects of all commands, if all of them are interpreted. -/
def interpretAll (agentId : AgentId) : List DecisionCommand → Option (List RuntimeCommand)
  | [] => some []
  | command :: rest =>
      match interpret agentId command with
      | some effects => (interpretAll agentId rest).map (effects ++ ·)
      | none => none

/-- The pool and the status messages of the TUI. -/
structure TuiState where
  agentPool : WorkerPool
  messages : List String := []

namespace TuiState

variable [Unicode]

def pushStatusMessage (t : TuiState) (message : String) : TuiState :=
  { t with messages := t.messages ++ [message] }

/-- The status that a `TransitionState` names. -/
def targetStatus (newStatus : String) (now : Moment) : AgentSlotStatus :=
  match newStatus with
  | "idle" => .idle
  | "starting" => .starting
  | "responding" => .responding now.instant
  | _ => .idle

/-- The three effects that decisions have here never fail. -/
def dispatchRuntimeCommand (now : Moment) (t : TuiState) : RuntimeCommand → TuiState
  | .notifyUser _ message => t.pushStatusMessage message
  | .terminate agentId reason =>
      { t.pushStatusMessage ("🧠 " ++ agentId ++ ": agent terminated (" ++ reason ++ ")") with
        agentPool := (t.agentPool.stopAgent agentId now).2 }
  | .transitionState agentId newStatus =>
      { t.pushStatusMessage ("🧠 " ++ agentId ++ ": state transitioned to " ++ newStatus) with
        agentPool := t.agentPool.modifySlot agentId (·.tryTransition (targetStatus newStatus now) now) }

def dispatchRuntimeCommands (now : Moment) (t : TuiState) (commands : List RuntimeCommand) : TuiState :=
  commands.foldl (dispatchRuntimeCommand now) t

/-- The legacy path: the pool executes the actions at once. -/
def executeLegacy (t : TuiState) (agentId : AgentId) (actions : List DecisionAction) (now : Moment) :
    TuiState :=
  { t with agentPool := (t.agentPool.executeDecisionAction agentId actions now).2 }

/-- A decision of the loop, on the path that it takes. -/
def runDecision (t : TuiState) (agentId : AgentId) (actions : List DecisionAction) (now : Moment) :
    TuiState :=
  match interpretAll agentId (translate agentId actions) with
  | some commands =>
      if actions.isEmpty then t.executeLegacy agentId actions now
      else t.dispatchRuntimeCommands now commands
  | none => t.executeLegacy agentId actions now

end TuiState

end AgileAgent.Core
