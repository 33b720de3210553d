import AgileAgent.DecisionDsl.Host

/-! # Git

The git commands of the crate and what a process reports. What a command does is the
matter of git; a result that needs its documented behaviour names it.
-/

namespace AgileAgent.Worktree

/-- What is checked out in a new worktree. -/
inductive AddTarget where
  | newBranch (branch : String) (base : Option String)
  | existing (branch : String)
  | detached (base : Option String)
  deriving Repr, DecidableEq

/-- The git commands the crate runs. Those that name a worktree run in its directory, the
    others in the root of the repository. -/
inductive GitCommand where
  | status (worktree : String)
  | showCurrent (worktree : String)
  | checkout (worktree branch : String)
  | stashPush (worktree message : String)
  | stashList (worktree : String)
  | fetchOrigin
  | revParse (rev : String)
  | branchList (pattern : String)
  | branchCreate (branch start : String)
  | worktreeList
  | worktreeAdd (path : String) (target : AddTarget)
  | worktreeRemove (path : String) (force : Bool)
  | worktreeLock (path reason : String)
  | worktreeUnlock (path : String)
  deriving Repr, DecidableEq

/-- The commands that change nothing of a worktree or a branch. -/
def GitCommand.Reads : GitCommand → Prop
  | .status _ | .showCurrent _ | .stashList _ | .fetchOrigin | .revParse _ | .branchList _
  | .worktreeList => True
  | _ => False

/-- How a git process ends. A process that could not be run, or that was killed at its
    time limit, is `unavailable`. -/
inductive Exit where
  | succeeded (stdout : String)
  | failed (stdout stderr : String)
  | unavailable (message : String)
  deriving Repr, DecidableEq

/-- Git and the file system it works on, with all that decides whether a command fails. -/
class Git (γ : Type) where
  run : GitCommand → γ → Exit × γ
  /-- `Path::exists`. -/
  pathExists : String → γ → Bool
  /-- `fs::create_dir_all`. -/
  createDirAll : String → γ → Except String Unit × γ

variable {γ : Type} [Git γ]

/-- What is left when a command has been run. -/
def after (c : GitCommand) (g : γ) : γ := (Git.run c g).2

def Succeeds (c : GitCommand) (g : γ) : Prop := ∃ stdout, (Git.run c g).1 = .succeeded stdout

/-- The process is run, whatever its exit status. -/
def Available (c : GitCommand) (g : γ) : Prop := ∀ message, (Git.run c g).1 ≠ .unavailable message

def afterAll (cs : List GitCommand) (g : γ) : γ := cs.foldl (fun g c => after c g) g

/-- Run one after the other, all commands succeed. -/
def AllSucceed : List GitCommand → γ → Prop
  | [], _ => True
  | c :: rest, g => Succeeds c g ∧ AllSucceed rest (after c g)

@[simp] theorem afterAll_nil (g : γ) : afterAll [] g = g := rfl

@[simp] theorem afterAll_cons (c : GitCommand) (rest : List GitCommand) (g : γ) :
    afterAll (c :: rest) g = afterAll rest (after c g) := rfl

@[simp] theorem allSucceed_nil (g : γ) : AllSucceed [] g := trivial

@[simp] theorem allSucceed_cons (c : GitCommand) (rest : List GitCommand) (g : γ) :
    AllSucceed (c :: rest) g ↔ Succeeds c g ∧ AllSucceed rest (after c g) := Iff.rfl

theorem afterAll_append (first second : List GitCommand) (g : γ) :
    afterAll (first ++ second) g = afterAll second (afterAll first g) := List.foldl_append

theorem allSucceed_append (first second : List GitCommand) (g : γ) :
    AllSucceed (first ++ second) g ↔ AllSucceed first g ∧ AllSucceed second (afterAll first g) := by
  induction first generalizing g with
  | nil => simp
  | cons c rest ih =>
      simp only [List.cons_append, allSucceed_cons, afterAll_cons, ih, and_assoc]

end AgileAgent.Worktree
