import AgileAgent.Core.AgentSlotStatus
import AgileAgent.Fallible
import AgileAgent.Worktree.WorktreeManager

/-! # The git flow executor

Preparing a worktree for a task: health check, stash, baseline and branch. Points in time
come as texts; durations, confidences and the logger are left out.
-/

namespace AgileAgent.Worktree

open AgileAgent.Core (Unicode)
open DecisionDsl (trim strContains isWhitespace)

inductive GitFlowError where
  | gitOperationFailed (error : WorktreeError)
  | healthCheckFailed (message : String)
  | uncommittedChangesNeedHandling (message : String)
  | invalidWorktreePath (path : String)
  deriving Repr, DecidableEq

inductive TaskType where
  | feature | bugfix | refactor | docs | test | chore | hotfix
  deriving Repr, DecidableEq

def TaskType.branchPrefix : TaskType → String
  | .feature => "feature"
  | .bugfix => "bugfix"
  | .refactor => "refactor"
  | .docs => "docs"
  | .test => "test"
  | .chore => "chore"
  | .hotfix => "hotfix"

structure GitFlowConfig where
  baseBranch : String := "main"
  autoSyncBaseline : Bool := true
  autoStashChanges : Bool := true
  taskTypePrefixes : AList fun _ : String => String
  maxDescLength : Nat := 30

def GitFlowConfig.getPrefixForType (config : GitFlowConfig) (taskType : String) : String :=
  (config.taskTypePrefixes.lookup taskType).getD "feature"

/-! ## Task metadata -/

def TaskType.keywords : TaskType → List String
  | .feature => ["add", "implement", "create", "new", "introduce"]
  | .bugfix => ["fix", "bug", "issue", "error", "resolve"]
  | .refactor => ["refactor", "simplify", "optimize", "clean"]
  | .docs => ["document", "readme", "doc", "documentation"]
  | .test => ["test", "testing", "spec", "coverage"]
  | .chore => ["chore", "maintenance", "cleanup", "update"]
  | .hotfix => ["hotfix", "urgent", "critical", "emergency"]

/-- `Iterator::max_by_key`: the last of the largest. -/
def maxByKey {α : Type} (key : α → Nat) (l : List α) : Option α :=
  l.foldl (fun best a => match best with
    | none => some a
    | some b => if key b ≤ key a then some a else some b) none

/-- `str::split_whitespace`. -/
def splitWhitespace (s : String) : List String :=
  ((s.toList.splitOnP isWhitespace).filter (· ≠ [])).map String.ofList

def generateSummary (description : String) (maxLen : Nat) : String :=
  let summary := " ".intercalate ((splitWhitespace description).take 5)
  if maxLen < summary.utf8ByteSize then String.ofList (summary.toList.take maxLen) else summary

def isAsciiAlphanumeric (c : Char) : Bool := c.toNat < 128 && c.isAlphanum

/-- Every other run of characters becomes one hyphen, but for the first. -/
def hyphenate : List Char → List Char → List Char
  | sanitized, [] => sanitized
  | sanitized, c :: rest =>
      if isAsciiAlphanumeric c then hyphenate (sanitized ++ [c]) rest
      else if sanitized ≠ [] ∧ sanitized.getLast? ≠ some '-' then hyphenate (sanitized ++ ['-']) rest
      else hyphenate sanitized rest

def popHyphen (sanitized : List Char) : List Char :=
  if sanitized.getLast? = some '-' then sanitized.dropLast else sanitized

section

variable [Unicode]

/-- The types are counted in a hash map; `order` is the order it is iterated in. -/
def classifyTaskType (order : List TaskType) (description : String) : TaskType :=
  let descLower := Unicode.toLowercase description
  let count (type : TaskType) : Nat := type.keywords.countP (strContains descLower)
  (maxByKey count (order.filter fun type => 0 < count type)).getD .feature

def sanitizeBranchDescription (desc : String) : String :=
  let sanitized := popHyphen (hyphenate [] (Unicode.toLowercase desc).toList)
  String.ofList (if 30 < sanitized.length then popHyphen (sanitized.take 30) else sanitized)

def generateBranchName (taskId : String) (taskType : TaskType) (summary : String)
    (config : GitFlowConfig) : String :=
  let sanitized := sanitizeBranchDescription summary
  let task := config.getPrefixForType taskType.branchPrefix ++ "/" ++ taskId
  if sanitized = "" then task else task ++ "/" ++ sanitized

structure TaskPreparationMeta where
  taskId : String
  branchName : String
  summary : String
  originalDescription : String
  taskType : TaskType
  baseBranch : String

def TaskPreparationMeta.new (order : List TaskType) (taskId description : String)
    (config : GitFlowConfig) : TaskPreparationMeta :=
  let taskType := classifyTaskType order description
  let summary := generateSummary description config.maxDescLength
  { taskId, branchName := generateBranchName taskId taskType summary config, summary
    originalDescription := description, taskType, baseBranch := config.baseBranch }

end

/-! ## Health -/

inductive IssueSeverity where
  | critical | warning | info
  deriving Repr, DecidableEq

inductive IssueCategory where
  | uncommittedChanges | branchStatus | worktreeState | conflictState | networkIssue
  deriving Repr, DecidableEq

structure HealthIssue where
  severity : IssueSeverity
  category : IssueCategory
  description : String
  suggestedAction : String

structure WorkspaceHealthReport where
  score : Nat
  isReadyForTask : Bool
  issues : List HealthIssue

def WorkspaceHealthReport.withIssues (score : Nat) (issues : List HealthIssue) :
    WorkspaceHealthReport := { score, isReadyForTask := 80 ≤ score, issues }

def uncommittedIssue : HealthIssue :=
  { severity := .warning, category := .uncommittedChanges
    description := "Uncommitted changes detected"
    suggestedAction := "Stash or commit before task switch" }

def conflictIssue : HealthIssue :=
  { severity := .critical, category := .conflictState
    description := "Merge/rebase conflicts detected"
    suggestedAction := "Resolve conflicts before proceeding" }

/-- The report on these two findings. -/
def healthReport (uncommitted conflicts : Bool) : WorkspaceHealthReport :=
  let score := if conflicts then 0 else if uncommitted then 100 - 20 else 100
  .withIssues score ((if uncommitted then [uncommittedIssue] else []) ++
    (if conflicts then [conflictIssue] else []))

/-! ## Preparation -/

inductive BranchAction where
  | createdNew | reusedExisting | rebasedExisting | checkedOutExisting
  deriving Repr, DecidableEq

structure PreparationResult where
  success : Bool
  taskMeta : TaskPreparationMeta
  branchName : String
  baseCommit : String
  worktreePath : String
  branchAction : BranchAction
  warnings : List String

section

variable {γ : Type} [Git γ]

/-- The `?` on a call of the worktree manager. -/
def viaManager {α : Type} (operation : EStateM WorktreeError γ α) : EStateM GitFlowError γ α :=
  operation.adaptExcept .gitOperationFailed

def checkHealth (worktreePath : String) : EStateM GitFlowError γ WorkspaceHealthReport := do
  if !Git.pathExists worktreePath (← get) then throw (.invalidWorktreePath worktreePath)
  let uncommitted ← viaManager (hasUncommittedChanges worktreePath)
  let conflicts ← viaManager (hasConflicts worktreePath)
  return healthReport uncommitted conflicts

def syncBaseline (config : GitFlowConfig) : EStateM GitFlowError γ String := do
  viaManager fetchOrigin
  viaManager (getRemoteHead config.baseBranch)

def stashMessage (now : String) : String := "WIP: auto-stash before task preparation at " ++ now

def handleUncommittedStash (worktreePath now : String) : EStateM GitFlowError γ Unit := do
  let _ ← viaManager (stashChanges worktreePath (stashMessage now))

def setupBranch (config : GitFlowConfig) (taskMeta : TaskPreparationMeta) (worktreePath : String) :
    EStateM GitFlowError γ (String × BranchAction) := do
  let branchName := taskMeta.branchName
  if ← viaManager (branchExists branchName) then
    if (← viaManager (getCurrentBranch worktreePath)) = branchName then
      return (branchName, .checkedOutExisting)
    else
      viaManager (checkoutBranch worktreePath branchName)
      return (branchName, .checkedOutExisting)
  else
    let _ ← viaManager (createFeatureBranch branchName config.baseBranch)
    viaManager (checkoutBranch worktreePath branchName)
    return (branchName, .createdNew)

/-- The commit the branch of the task starts from. -/
def baseline (config : GitFlowConfig) : EStateM GitFlowError γ String :=
  if config.autoSyncBaseline then syncBaseline config else viaManager (getRemoteHead config.baseBranch)

/-- Uncommitted changes are stashed, or refused. -/
def handleUncommitted (config : GitFlowConfig) (worktreePath now : String)
    (health : WorkspaceHealthReport) : EStateM GitFlowError γ Unit := do
  if health.issues.any (·.category == .uncommittedChanges) then
    if config.autoStashChanges then handleUncommittedStash worktreePath now
    else throw (.uncommittedChangesNeedHandling
      "Uncommitted changes detected but auto_stash is disabled")

variable [Unicode]

def prepareForTask (config : GitFlowConfig) (order : List TaskType)
    (worktreePath taskId description now : String) : EStateM GitFlowError γ PreparationResult := do
  let taskMeta := TaskPreparationMeta.new order taskId description config
  let health ← checkHealth worktreePath
  if health.score < 50 then
    throw (.healthCheckFailed ("Workspace health score too low: " ++ toString health.score))
  handleUncommitted config worktreePath now health
  let baseCommit ← baseline config
  let (branchName, branchAction) ← setupBranch config taskMeta worktreePath
  return { success := true, taskMeta, branchName, baseCommit, worktreePath, branchAction
           warnings := (health.issues.filter (·.severity == .warning)).map (·.description) }

end

end AgileAgent.Worktree
