import AgileAgent.Decision.Text
import AgileAgent.Fallible
import AgileAgent.Worktree.Git

/-! # The worktree manager

The operations of `WorktreeManager` as sequences of git commands. The lock around each of
them makes an operation one step; the logger is left out.
-/

namespace AgileAgent.Worktree

open AgileAgent.Decision (textLines startsWith)
open DecisionDsl (trim strContains)
open Fallible

inductive WorktreeError where
  | worktreeNotFound (path : String)
  | worktreeAlreadyExists (path : String)
  | branchAlreadyExists (branch : String)
  | branchNotFound (branch : String)
  | maxWorktreesReached (limit : Nat)
  | gitCommandFailed (stderr : String)
  | parseError (message : String)
  | ioError (message : String)
  deriving Repr, DecidableEq

/-! ## Paths -/

def isAbsolute (path : String) : Bool := startsWith path "/"

/-- `Path::join`. -/
def join (base path : String) : String :=
  if isAbsolute path then path
  else if base.toList.getLast? = some '/' ∨ base = "" then base ++ path
  else base ++ "/" ++ path

/-- `Path::components`: repeated separators and `.` do not count, but for a leading `.`. -/
def components (path : String) : List String :=
  let proper (part : String) : Bool := part != "" && part != "."
  match (path.toList.splitOn '/').map String.ofList with
  | "" :: rest => if isAbsolute path then "/" :: rest.filter proper else []
  | "." :: rest => "." :: rest.filter proper
  | parts => parts.filter proper

/-! ## The list of worktrees -/

structure WorktreeInfo where
  path : String
  head : String := ""
  branch : Option String := none
  isDetached : Bool := false
  isLocked : Bool := false
  lockReason : Option String := none
  isPrunable : Bool := false
  pruneReason : Option String := none
  deriving Repr, DecidableEq

/-- `splitn(2, ' ')`: the key of a line, and its trimmed value if there is one. -/
def keyValue (line : String) : String × Option String :=
  match line.toList.span (· ≠ ' ') with
  | (key, []) => (String.ofList key, none)
  | (key, _ :: value) => (String.ofList key, some (trim (String.ofList value)))

/-- `refs/heads/` is stripped from the name of a branch. -/
def branchName (ref : String) : String :=
  if startsWith ref "refs/heads/" then String.ofList (ref.toList.drop "refs/heads/".length) else ref

/-- One line of the porcelain output, after the worktrees that are complete and the one
    being read. -/
def parseLine (line : String) : List WorktreeInfo × Option WorktreeInfo →
    Except WorktreeError (List WorktreeInfo × Option WorktreeInfo)
  | (worktrees, current) =>
    let line := trim line
    if line = "" then .ok (worktrees ++ current.toList, none)
    else
      let (key, value) := keyValue line
      match key with
      | "worktree" => match value with
          | none => .error (.parseError "Missing worktree path")
          | some path => .ok (worktrees ++ current.toList, some { path })
      | "HEAD" => .ok (worktrees, current.map ({ · with head := value.getD "" }))
      | "branch" => .ok (worktrees, current.map ({ · with branch := some (branchName (value.getD "")) }))
      | "detached" => .ok (worktrees, current.map ({ · with isDetached := true }))
      | "locked" => .ok (worktrees, current.map ({ · with isLocked := true, lockReason := value }))
      | "prunable" => .ok (worktrees, current.map ({ · with isPrunable := true, pruneReason := value }))
      | _ => .ok (worktrees, current)

def parseLines : List String → List WorktreeInfo × Option WorktreeInfo →
    Except WorktreeError (List WorktreeInfo × Option WorktreeInfo)
  | [], state => .ok state
  | line :: rest, state => do parseLines rest (← parseLine line state)

def parsePorcelainOutput (output : String) : Except WorktreeError (List WorktreeInfo) := do
  let (worktrees, current) ← parseLines (textLines output) ([], none)
  return worktrees ++ current.toList

/-! ## Commands -/

section

variable {γ : Type} [Git γ]

/-- `run_git_command_internal`, and `Command::output` with a check of the status. -/
def runGitCommand (c : GitCommand) : EStateM WorktreeError γ String := fun g =>
  match Git.run c g with
  | (.succeeded stdout, g) => .ok stdout g
  | (.failed _ stderr, g) => .error (.gitCommandFailed stderr) g
  | (.unavailable message, g) => .error (.gitCommandFailed message) g

/-- An operation that ends with its only command. -/
theorem ends_runGitCommand {c : GitCommand} {g : γ} {returns : String → γ → Prop}
    {fails : WorktreeError → γ → Prop}
    (returned : ∀ stdout, (Git.run c g).1 = .succeeded stdout → returns stdout (after c g))
    (failed : ∀ e, ¬ Succeeds c g → fails e (after c g)) : Ends (runGitCommand c) g returns fails := by
  have left : after c g = (Git.run c g).2 := rfl
  rw [left] at returned failed
  unfold Ends runGitCommand
  split
  · next result g' ran =>
      split at ran <;> cases ran
      next stdout same =>
        rw [same] at returned
        exact returned _ rfl
  · next e g' ran =>
      have fault : ¬ Succeeds c g := by
        intro ⟨stdout, success⟩
        split at ran <;> simp_all
      split at ran <;> cases ran <;> simp_all

def branchExists (branch : String) : EStateM WorktreeError γ Bool := do
  let output ← runGitCommand (.branchList branch)
  return strContains (trim output) branch

def hasUncommittedChanges (worktree : String) : EStateM WorktreeError γ Bool := do
  let output ← runGitCommand (.status worktree)
  return trim output != ""

/-- Whether a line of the status is one of the unmerged states that are looked for. -/
def unmerged (line : String) : Bool :=
  startsWith line "UU" || startsWith line "AA" || startsWith line "DD"

def hasConflicts (worktree : String) : EStateM WorktreeError γ Bool := do
  let output ← runGitCommand (.status worktree)
  return (textLines output).any unmerged

/-- `get_current_branch`, from what git prints. -/
def currentBranch (output : String) : String := if trim output = "" then "detached" else trim output

def getCurrentBranch (worktree : String) : EStateM WorktreeError γ String := do
  return currentBranch (← runGitCommand (.showCurrent worktree))

def checkoutBranch (worktree branch : String) : EStateM WorktreeError γ Unit := do
  let _ ← runGitCommand (.checkout worktree branch)

def fetchOrigin : EStateM WorktreeError γ Unit := do
  let _ ← runGitCommand .fetchOrigin

def getRemoteHead (branch : String) : EStateM WorktreeError γ String := do
  return trim (← runGitCommand (.revParse ("origin/" ++ branch)))

def createFeatureBranch (branchName baseBranch : String) : EStateM WorktreeError γ String := do
  if ← branchExists branchName then throw (.branchAlreadyExists branchName)
  let _ ← runGitCommand (.branchCreate branchName ("origin/" ++ baseBranch))
  return trim (← runGitCommand (.revParse branchName))

/-- The reference in front of the first colon of a list of stashes. -/
def stashRef (list : String) : String :=
  match textLines list with
  | [] => "stash@{0}"
  | line :: _ => String.ofList (line.toList.takeWhile (· ≠ ':'))

/-- The status of `git stash list` is not checked. -/
def stashChanges (worktree message : String) : EStateM WorktreeError γ String := fun g =>
  match Git.run (.stashPush worktree message) g with
  | (.unavailable message, g) => .error (.gitCommandFailed message) g
  | (.failed _ stderr, g) =>
      if strContains stderr "No local changes" then .ok "none" g
      else .error (.gitCommandFailed stderr) g
  | (.succeeded _, g) =>
      match Git.run (.stashList worktree) g with
      | (.unavailable message, g) => .error (.gitCommandFailed message) g
      | (.failed stdout _, g) | (.succeeded stdout, g) => .ok (stashRef stdout) g

end

/-! ## Worktrees -/

structure WorktreeCreateOptions where
  path : String := ""
  branch : Option String := none
  createBranch : Bool := false
  base : Option String := none
  lockReason : Option String := none

structure WorktreeConfig where
  maxWorktrees : Nat := 10
  branchPrefix : String := "agent"
  defaultBaseBranch : String := "main"

structure WorktreeManager where
  worktreesDir : String
  config : WorktreeConfig

/-- `str::replace` with an empty text. -/
def removeAll (pattern : List Char) : List Char → List Char
  | [] => []
  | c :: rest =>
      if pattern ≠ [] ∧ pattern.isPrefixOf (c :: rest) then
        removeAll pattern ((c :: rest).drop pattern.length)
      else c :: removeAll pattern rest
termination_by text => text.length
decreasing_by
  · rename_i found
    have : 0 < pattern.length := List.length_pos_iff.mpr found.1
    simp only [List.length_drop, List.length_cons]
    omega
  · simp

namespace WorktreeManager

variable {γ : Type} [Git γ] (m : WorktreeManager)

def list : EStateM WorktreeError γ (List WorktreeInfo) := do
  let output ← runGitCommand .worktreeList
  match parsePorcelainOutput output with
  | .ok worktrees => return worktrees
  | .error e => throw e

/-- The arguments of `git worktree add`. -/
def addTarget (options : WorktreeCreateOptions) : EStateM WorktreeError γ AddTarget := do
  match options.branch with
  | none => return .detached options.base
  | some branch =>
      if options.createBranch then return .newBranch branch options.base
      else if ← branchExists branch then return .existing branch
      else throw (.branchNotFound branch)

def lockWorktree (path reason : String) : EStateM WorktreeError γ Unit := do
  let _ ← runGitCommand (.worktreeLock path reason)

def unlockWorktree (path : String) : EStateM WorktreeError γ Unit := do
  let _ ← runGitCommand (.worktreeUnlock path)

def getWorktreeInfo (path : String) : EStateM WorktreeError γ WorktreeInfo := do
  match (← list).find? fun w => components w.path == components path with
  | some info => return info
  | none => throw (.worktreeNotFound path)

def getWorktreeByName (name : String) : EStateM WorktreeError γ WorktreeInfo :=
  getWorktreeInfo (join m.worktreesDir name)

/-- Where `create` puts a worktree. -/
def createPath (name : String) (options : WorktreeCreateOptions) : String :=
  if isAbsolute options.path then options.path else join m.worktreesDir name

/-- The count takes in the main worktree. -/
def checkLimit : EStateM WorktreeError γ Unit := do
  if m.config.maxWorktrees < (← list).length then
    throw (.maxWorktreesReached m.config.maxWorktrees)

def ensureWorktreesDir : EStateM WorktreeError γ Unit := fun g =>
  if Git.pathExists m.worktreesDir g then .ok () g
  else match Git.createDirAll m.worktreesDir g with
    | (.ok (), g) => .ok () g
    | (.error e, g) => .error (.ioError e) g

def checkFresh (path : String) : EStateM WorktreeError γ Unit := do
  if Git.pathExists path (← get) then throw (.worktreeAlreadyExists path)

/-- The optional lock of a new worktree. -/
def lockCreated (path : String) (options : WorktreeCreateOptions) : EStateM WorktreeError γ Unit :=
  match options.lockReason with
  | some reason => lockWorktree path reason
  | none => pure ()

def create (name : String) (options : WorktreeCreateOptions) :
    EStateM WorktreeError γ WorktreeInfo := do
  m.checkLimit
  let path := m.createPath name options
  m.ensureWorktreesDir
  checkFresh path
  let target ← addTarget options
  let _ ← runGitCommand (.worktreeAdd path target)
  lockCreated path options
  getWorktreeInfo path

def remove (name : String) (force : Bool) : EStateM WorktreeError γ Unit := do
  let path := join m.worktreesDir name
  if !Git.pathExists path (← get) then throw (.worktreeNotFound path)
  let _ ← runGitCommand (.worktreeRemove path force)

def agentOptions (agentId : String) (taskId : Option String) : WorktreeCreateOptions :=
  { path := join m.worktreesDir agentId
    branch := some (match taskId with
      | some task => m.config.branchPrefix ++ "/" ++ task
      | none => m.config.branchPrefix ++ String.ofList (removeAll "agent_".toList agentId.toList))
    createBranch := true
    base := some m.config.defaultBaseBranch }

def createForAgent (agentId : String) (taskId : Option String) :
    EStateM WorktreeError γ WorktreeInfo := m.create agentId (m.agentOptions agentId taskId)

end WorktreeManager

end AgileAgent.Worktree
