import AgileAgent.Worktree.GitFlowExecutor

/-! # Preparing a worktree

What a preparation leaves of the worktree and the repository, when it returns and when a
git command fails on the way.
-/

namespace AgileAgent.Worktree

open AgileAgent.Core (Unicode)
open AgileAgent.Decision (textLines strContains_self)
open DecisionDsl (trim strContains)
open Fallible

/-- An uncommitted change: its line of the status, and what would be lost with it. -/
structure Change where
  code : String
  path : String
  content : String
  deriving DecidableEq

/-- Not a file that git does not know of. -/
def Change.tracked (c : Change) : Bool := c.code != "??"

/-- A worktree and its repository. -/
structure Repo where
  changes : List Change
  /-- The branch that is checked out. -/
  head : Option String
  stashes : List (List Change)
  branches : List String
  deriving DecidableEq

/-- What `git stash push` makes of a repository. -/
def Repo.stash (r : Repo) : Repo :=
  if r.changes.any Change.tracked then
    { r with
      changes := r.changes.filter (!·.tracked)
      stashes := r.changes.filter Change.tracked :: r.stashes }
  else r

/-- What is documented of the commands of a preparation. A command that fails changes
    nothing. -/
structure RepoView (γ : Type) [Git γ] (worktree : String) where
  repo : γ → Repo
  failed : ∀ c g, ¬ Succeeds c g → repo (after c g) = repo g
  reads : ∀ (c : GitCommand) g, c.Reads → repo (after c g) = repo g
  current : ∀ g stdout, (Git.run (.showCurrent worktree) g).1 = .succeeded stdout →
    trim stdout = (repo g).head.getD ""
  listed : ∀ branch g stdout, '/' ∈ branch.toList →
    (Git.run (.branchList branch) g).1 = .succeeded stdout →
      (strContains (trim stdout) branch = true ↔ branch ∈ (repo g).branches)
  stashed : ∀ message g, Succeeds (.stashPush worktree message) g →
    repo (after (.stashPush worktree message) g) = (repo g).stash
  created : ∀ branch start g, Succeeds (.branchCreate branch start) g →
    repo (after (.branchCreate branch start) g) =
      { repo g with branches := branch :: (repo g).branches }
  checkedOut : ∀ branch g, branch ∈ (repo g).branches → Succeeds (.checkout worktree branch) g →
    ∃ changes, (∀ c ∈ (repo g).changes, c ∈ changes) ∧
      repo (after (.checkout worktree branch) g) = { repo g with head := some branch, changes }

/-! ## Statements -/

section

variable {γ : Type} [Git γ]

/-- The commands that look up the baseline. -/
def baselineCommands (config : GitFlowConfig) : List GitCommand :=
  (if config.autoSyncBaseline then [.fetchOrigin] else []) ++ [.revParse ("origin/" ++ config.baseBranch)]

/-- The commands up to the one that creates the branch. -/
def creationCommands (config : GitFlowConfig) (branch : String) : List GitCommand :=
  [.branchList branch, .branchList branch, .branchCreate branch ("origin/" ++ config.baseBranch)]

/-- The commands that set up the branch. -/
def setupCommands (config : GitFlowConfig) (worktree branch : String) (r : Repo) : List GitCommand :=
  if branch ∈ r.branches then
    [.branchList branch, .showCurrent worktree] ++
      (if r.head = some branch then [] else [.checkout worktree branch])
  else creationCommands config branch ++ [.revParse branch, .checkout worktree branch]

/-- What the health check finds. -/
def Finds (worktree : String) (uncommitted conflicts : Bool) (g : γ) : Prop :=
  Git.pathExists worktree g = true ∧ ∃ stdout stdout',
    (Git.run (.status worktree) g).1 = .succeeded stdout ∧ (trim stdout != "") = uncommitted ∧
      (Git.run (.status worktree) (after (.status worktree) g)).1 = .succeeded stdout' ∧
      (textLines stdout').any unmerged = conflicts

/-- After the health check. -/
def checked (worktree : String) (g : γ) : γ := afterAll [.status worktree, .status worktree] g

/-- After the stash. -/
def pushed (worktree now : String) (g : γ) : γ :=
  after (.stashPush worktree (stashMessage now)) (checked worktree g)

/-- Changes are found and the stash is pushed. -/
structure Pushes (config : GitFlowConfig) (worktree now : String) (g : γ) : Prop where
  finds : Finds worktree true false g
  auto : config.autoStashChanges = true
  push : Succeeds (.stashPush worktree (stashMessage now)) (checked worktree g)

/-- The baseline is looked up from here: there was nothing to stash, git said so, or the
    stash was pushed and listed. -/
inductive Ready (config : GitFlowConfig) (worktree now : String) (g : γ) : γ → Prop where
  | clean (finds : Finds worktree false false g) : Ready config worktree now g (checked worktree g)
  | nothing {stdout stderr : String} (finds : Finds worktree true false g)
      (auto : config.autoStashChanges = true)
      (push : (Git.run (.stashPush worktree (stashMessage now)) (checked worktree g)).1 =
        .failed stdout stderr)
      (noChanges : strContains stderr "No local changes" = true) :
      Ready config worktree now g (pushed worktree now g)
  | stashed (pushes : Pushes config worktree now g)
      (listed : Available (.stashList worktree) (pushed worktree now g)) :
      Ready config worktree now g (after (.stashList worktree) (pushed worktree now g))

/-- After a stash that saved something, and after the creation of the branch, no command
    fails. -/
structure Undisturbed {worktree : String} (view : RepoView γ worktree) (config : GitFlowConfig)
    (branch now : String) (g : γ) : Prop where
  listed : Pushes config worktree now g → view.repo (pushed worktree now g) ≠ view.repo g →
    Available (.stashList worktree) (pushed worktree now g)
  stashed : ∀ r, Ready config worktree now g r → view.repo r ≠ view.repo g →
    AllSucceed (baselineCommands config ++ setupCommands config worktree branch (view.repo r)) r
  created : ∀ r, Ready config worktree now g r → branch ∉ (view.repo r).branches →
    AllSucceed (baselineCommands config ++ creationCommands config branch) r →
      AllSucceed [.revParse branch, .checkout worktree branch]
        (afterAll (baselineCommands config ++ creationCommands config branch) r)

/-- A preparation that fails changes nothing. One that returns leaves the worktree on the
    branch it returns, and every change in the worktree or in a stash. -/
def Prepares {worktree : String} (view : RepoView γ worktree)
    (preparation : EStateM GitFlowError γ PreparationResult) (g : γ) : Prop :=
  Ends preparation g
    (fun r g' => (view.repo g').head = some r.branchName ∧ ∀ c ∈ (view.repo g).changes,
      c ∈ (view.repo g').changes ∨ ∃ s ∈ (view.repo g').stashes, c ∈ s)
    fun _ g' => view.repo g' = view.repo g

end

/-! ## Commands that only read -/

section

variable {γ : Type} [Git γ] {worktree : String}

theorem RepoView.repo_afterAll (view : RepoView γ worktree) {cs : List GitCommand}
    (reads : ∀ c ∈ cs, c.Reads) (g : γ) : view.repo (afterAll cs g) = view.repo g := by
  induction cs generalizing g with
  | nil => rfl
  | cons c rest ih =>
      rw [afterAll_cons, ih fun c mem => reads c (List.mem_cons_of_mem _ mem)]
      exact view.reads c g (reads c List.mem_cons_self)

theorem repo_checked (view : RepoView γ worktree) (g : γ) :
    view.repo (checked worktree g) = view.repo g :=
  view.repo_afterAll (by simp [GitCommand.Reads]) g

/-! ## The health check -/

theorem Finds.functional {uncommitted uncommitted' conflicts conflicts' : Bool} {g : γ}
    (finds : Finds worktree uncommitted conflicts g) (finds' : Finds worktree uncommitted' conflicts' g) :
    uncommitted = uncommitted' ∧ conflicts = conflicts' := by
  obtain ⟨_, stdout, stdout', ran, changes, ran', unmerged⟩ := finds
  obtain ⟨_, out, out', same, changes', same', unmerged'⟩ := finds'
  grind

theorem ends_checkHealth (view : RepoView γ worktree) (g : γ) :
    Ends (checkHealth worktree) g
      (fun health g' => ∃ uncommitted conflicts, Finds worktree uncommitted conflicts g ∧
        health = healthReport uncommitted conflicts ∧ g' = checked worktree g)
      fun _ g' => (∀ uncommitted conflicts, ¬ Finds worktree uncommitted conflicts g) ∧
        view.repo g' = view.repo g := by
  have same (g : γ) : view.repo (after (.status worktree) g) = view.repo g := view.reads _ g trivial
  unfold checkHealth viaManager hasUncommittedChanges hasConflicts
  rw [ends_bind, ends_get]
  split
  · next missing =>
      refine ⟨fun _ _ finds => ?_, rfl⟩
      simp [finds.1] at missing
  · next present =>
      simp only [ends_bind, ends_pure, ends_adaptExcept]
      apply ends_runGitCommand
      · intro stdout ran
        apply ends_runGitCommand
        · intro stdout' ran'
          exact ⟨_, _, ⟨by simpa using present, stdout, stdout', ran, rfl, ran', rfl⟩, rfl, rfl⟩
        · intro e fault
          rw [same, same]
          refine ⟨fun _ _ finds => ?_, rfl⟩
          obtain ⟨_, _, out, _, _, ran', _⟩ := finds
          exact fault ⟨out, ran'⟩
      · intro e fault
        refine ⟨fun _ _ finds => ?_, same g⟩
        obtain ⟨_, out, _, ran, _⟩ := finds
        exact fault ⟨out, ran⟩

/-- Conflicts alone bring the score below fifty. -/
theorem healthReport_score (uncommitted conflicts : Bool) :
    (healthReport uncommitted conflicts).score < 50 ↔ conflicts = true := by
  cases uncommitted <;> cases conflicts <;> decide

theorem healthReport_uncommitted (uncommitted conflicts : Bool) :
    (healthReport uncommitted conflicts).issues.any (·.category == .uncommittedChanges) =
      uncommitted := by
  cases uncommitted <;> cases conflicts <;> decide

/-! ## The stash -/

section

variable {config : GitFlowConfig} {now : String} {g r r' : γ}

theorem Ready.functional (ready : Ready config worktree now g r)
    (ready' : Ready config worktree now g r') : r = r' := by
  cases ready with
  | clean finds =>
      cases ready' with
      | clean => rfl
      | nothing finds' => cases (finds.functional finds').1
      | stashed pushes => cases (finds.functional pushes.finds).1
  | nothing finds auto push =>
      cases ready' with
      | clean finds' => cases (finds.functional finds').1
      | nothing => rfl
      | stashed pushes =>
          obtain ⟨stdout, success⟩ := pushes.push
          rw [push] at success
          cases success
  | stashed pushes =>
      cases ready' with
      | clean finds' => cases (finds'.functional pushes.finds).1
      | nothing finds' auto push =>
          obtain ⟨stdout, success⟩ := pushes.push
          rw [push] at success
          cases success
      | stashed => rfl

/-- Where a stash was pushed on the way, it was listed. -/
theorem Ready.listed (ready : Ready config worktree now g r) (pushes : Pushes config worktree now g) :
    Available (.stashList worktree) (pushed worktree now g) := by
  cases ready with
  | clean finds => cases (finds.functional pushes.finds).1
  | nothing finds auto push =>
      obtain ⟨stdout, success⟩ := pushes.push
      rw [push] at success
      cases success
  | stashed _ listed => exact listed

theorem Repo.stash_keeps (repo : Repo) :
    repo.stash.head = repo.head ∧ repo.stash.branches = repo.branches ∧
      ∀ c ∈ repo.changes, c ∈ repo.stash.changes ∨ ∃ s ∈ repo.stash.stashes, c ∈ s := by
  unfold Repo.stash
  split
  · refine ⟨rfl, rfl, fun c mem => ?_⟩
    cases known : c.tracked with
    | false => exact .inl (by simp [mem, known])
    | true => exact .inr ⟨_, List.mem_cons_self, by simp [mem, known]⟩
  · exact ⟨rfl, rfl, fun c mem => .inl mem⟩

/-- Up to the baseline no branch is touched, and no change is lost. -/
theorem Ready.keeps (view : RepoView γ worktree) (ready : Ready config worktree now g r) :
    (view.repo r).head = (view.repo g).head ∧ (view.repo r).branches = (view.repo g).branches ∧
      ∀ c ∈ (view.repo g).changes, c ∈ (view.repo r).changes ∨ ∃ s ∈ (view.repo r).stashes, c ∈ s := by
  cases ready with
  | clean =>
      rw [repo_checked]
      exact ⟨rfl, rfl, fun c mem => .inl mem⟩
  | nothing _ _ push =>
      have fault : ¬ Succeeds (.stashPush worktree (stashMessage now)) (checked worktree g) := by
        intro given
        obtain ⟨stdout, success⟩ := given
        rw [push] at success
        cases success
      rw [pushed, view.failed _ _ fault, repo_checked]
      exact ⟨rfl, rfl, fun c mem => .inl mem⟩
  | stashed pushes =>
      rw [view.reads _ _ (by trivial), pushed, view.stashed _ _ pushes.push, repo_checked]
      exact Repo.stash_keeps (view.repo g)

/-- No baseline is looked up. What was changed till then is a stash that could not be
    listed. -/
def Halts (view : RepoView γ worktree) (config : GitFlowConfig) (now : String) (g r : γ) : Prop :=
  (∀ r', ¬ Ready config worktree now g r') ∧ (view.repo r = view.repo g ↔
    (Pushes config worktree now g → view.repo (pushed worktree now g) ≠ view.repo g →
      Available (.stashList worktree) (pushed worktree now g)))

variable (view : RepoView γ worktree)

theorem Halts.of_unpushed (unready : ∀ r', ¬ Ready config worktree now g r')
    (unpushed : ¬ Pushes config worktree now g) (same : view.repo r = view.repo g) :
    Halts view config now g r :=
  ⟨unready, by simp [same, unpushed]⟩

theorem Halts.of_unhealthy (unhealthy : ∀ uncommitted, ¬ Finds worktree uncommitted false g)
    (same : view.repo r = view.repo g) : Halts view config now g r := by
  refine .of_unpushed view (fun r' ready => ?_) (fun pushes => unhealthy true pushes.finds) same
  cases ready with
  | clean finds => exact unhealthy false finds
  | nothing finds => exact unhealthy true finds
  | stashed pushes => exact unhealthy true pushes.finds

/-- The stash of `stash_changes` is pushed, then listed. -/
theorem ends_stashChanges {message : String} {g : γ} {returns : String → γ → Prop}
    {fails : WorktreeError → γ → Prop}
    (saved : ∀ stashRef, Succeeds (.stashPush worktree message) g →
      Available (.stashList worktree) (after (.stashPush worktree message) g) →
        returns stashRef (after (.stashList worktree) (after (.stashPush worktree message) g)))
    (nothing : ∀ stdout stderr, (Git.run (.stashPush worktree message) g).1 = .failed stdout stderr →
      strContains stderr "No local changes" = true →
        returns "none" (after (.stashPush worktree message) g))
    (unlisted : ∀ e, Succeeds (.stashPush worktree message) g →
      ¬ Available (.stashList worktree) (after (.stashPush worktree message) g) →
        fails e (after (.stashList worktree) (after (.stashPush worktree message) g)))
    (refused : ∀ e, ¬ Succeeds (.stashPush worktree message) g →
      (∀ stdout stderr, (Git.run (.stashPush worktree message) g).1 = .failed stdout stderr →
        ¬ strContains stderr "No local changes" = true) →
          fails e (after (.stashPush worktree message) g)) :
    Ends (stashChanges worktree message) g returns fails := by
  unfold Ends stashChanges
  cases push : Git.run (.stashPush worktree message) g with
  | mk exit g' =>
      have left : after (.stashPush worktree message) g = g' := by rw [after, push]
      simp only [Succeeds, Available, left, push] at saved nothing unlisted refused
      cases exit with
      | unavailable text => exact refused _ (by simp) (by simp)
      | failed stdout stderr =>
          cases found : strContains stderr "No local changes" with
          | true => simpa [found] using nothing stdout stderr rfl found
          | false => simpa [found] using refused _ (by simp) (by simp [found])
      | succeeded stdout =>
          cases list : Git.run (.stashList worktree) g' with
          | mk exit' g'' =>
              have left' : after (.stashList worktree) g' = g'' := by rw [after, list]
              simp only [left', list] at saved unlisted
              cases exit' with
              | unavailable text => simpa [list] using unlisted _ ⟨_, rfl⟩ (by simp)
              | failed out err => simpa [list] using saved _ ⟨_, rfl⟩ (by simp)
              | succeeded out => simpa [list] using saved _ ⟨_, rfl⟩ (by simp)

theorem ends_handleUncommitted {uncommitted : Bool} (finds : Finds worktree uncommitted false g) :
    Ends (handleUncommitted config worktree now (healthReport uncommitted false)) (checked worktree g)
      (fun _ r => Ready config worktree now g r) fun _ r => Halts view config now g r := by
  unfold handleUncommitted handleUncommittedStash viaManager
  rw [healthReport_uncommitted]
  cases uncommitted with
  | false => exact .clean finds
  | true =>
      cases auto : config.autoStashChanges with
      | false =>
          have off : ¬ config.autoStashChanges = true := by simp [auto]
          refine .of_unpushed view (fun r' ready => ?_) (fun pushes => off pushes.auto)
            (repo_checked view g)
          cases ready with
          | clean finds' => cases (finds.functional finds').1
          | nothing _ on => exact off on
          | stashed pushes => exact off pushes.auto
      | true =>
          simp only [ends_bind, ends_adaptExcept, ends_pure, if_true]
          apply ends_stashChanges
          · exact fun _ push listed => .stashed ⟨finds, auto, push⟩ listed
          · exact fun _ _ push noChanges => .nothing finds auto push noChanges
          · intro e push unlisted
            have pushes : Pushes config worktree now g := ⟨finds, auto, push⟩
            refine ⟨fun r' ready => unlisted (ready.listed pushes), ?_⟩
            rw [view.reads _ _ (by trivial)]
            constructor
            · exact fun same _ changed => absurd same changed
            · intro excused
              by_contra changed
              exact unlisted (excused pushes changed)
          · intro e refused otherwise
            refine .of_unpushed view (fun r' ready => ?_) (fun pushes => refused pushes.push) ?_
            · cases ready with
              | clean finds' => cases (finds.functional finds').1
              | nothing _ _ push noChanges => exact otherwise _ _ push noChanges
              | stashed pushes => exact refused pushes.push
            · rw [view.failed _ _ refused, repo_checked]

end

/-! ## The baseline and the branch -/

section

variable (view : RepoView γ worktree) {config : GitFlowConfig}

theorem ends_baseline (r : γ) :
    Ends (baseline config) r
      (fun _ g' => AllSucceed (baselineCommands config) r ∧ g' = afterAll (baselineCommands config) r)
      fun _ g' => ¬ AllSucceed (baselineCommands config) r ∧ view.repo g' = view.repo r := by
  have fetched : view.repo (after .fetchOrigin r) = view.repo r := view.reads _ r trivial
  have parsed (r : γ) : view.repo (after (.revParse ("origin/" ++ config.baseBranch)) r) = view.repo r :=
    view.reads _ r trivial
  unfold baseline baselineCommands
  split
  · simp only [syncBaseline, viaManager, fetchOrigin, getRemoteHead, ends_bind, ends_adaptExcept,
      ends_pure]
    apply ends_runGitCommand
    · intro _ fetch
      apply ends_runGitCommand
      · intro _ parse
        simp [Succeeds, fetch, parse]
      · intro e fault
        simp [Succeeds, fetch, fetched, parsed] at fault ⊢
        exact fault
    · intro e fault
      simp [fault, fetched]
  · simp only [viaManager, getRemoteHead, ends_bind, ends_adaptExcept, ends_pure]
    apply ends_runGitCommand
    · intro _ parse
      simp [Succeeds, parse]
    · intro e fault
      simp [fault, parsed]

theorem currentBranch_eq {branch : String} (slash : '/' ∈ branch.toList) (stdout : String) :
    currentBranch stdout = branch ↔ trim stdout = branch := by
  unfold currentBranch
  split
  · next empty =>
      have named : branch ≠ "" := by
        intro h
        simp [h] at slash
      have attached : branch ≠ "detached" := by
        intro h
        revert slash
        rw [h]
        decide
      rw [empty]
      simp [Ne.symm named, Ne.symm attached]
  · rfl

/-- On the branch, with no change and no stash lost. -/
def Moved (branch : String) (g g' : γ) : Prop :=
  (view.repo g').head = some branch ∧ (∀ c ∈ (view.repo g).changes, c ∈ (view.repo g').changes) ∧
    (view.repo g').stashes = (view.repo g).stashes

theorem ends_checkoutBranch {branch : String} {g : γ} (present : branch ∈ (view.repo g).branches) :
    Ends (checkoutBranch worktree branch) g
      (fun _ g' => Succeeds (.checkout worktree branch) g ∧ Moved view branch g g')
      fun _ g' => ¬ Succeeds (.checkout worktree branch) g ∧ view.repo g' = view.repo g := by
  unfold checkoutBranch
  rw [ends_bind]
  apply ends_runGitCommand
  · intro stdout ran
    have success : Succeeds (.checkout worktree branch) g := ⟨stdout, ran⟩
    obtain ⟨changes, kept, left⟩ := view.checkedOut branch g present success
    refine ⟨success, ?_⟩
    simp only [Moved, left]
    exact ⟨trivial, kept, trivial⟩
  · exact fun _ fault => ⟨fault, view.failed _ g fault⟩

/-- A branch that there is. -/
theorem ends_reuse {branch : String} {action : BranchAction} {g : γ} (slash : '/' ∈ branch.toList)
    (present : branch ∈ (view.repo g).branches) :
    Ends (do
        if (← viaManager (getCurrentBranch worktree)) = branch then return (branch, action)
        else
          viaManager (checkoutBranch worktree branch)
          return (branch, action)) g
      (fun result g' => result.1 = branch ∧ AllSucceed ([.showCurrent worktree] ++
        if (view.repo g).head = some branch then [] else [.checkout worktree branch]) g ∧
          Moved view branch g g')
      fun _ g' => ¬ AllSucceed ([.showCurrent worktree] ++
        if (view.repo g).head = some branch then [] else [.checkout worktree branch]) g ∧
          view.repo g' = view.repo g := by
  have same : view.repo (after (.showCurrent worktree) g) = view.repo g := view.reads _ g trivial
  simp only [viaManager, getCurrentBranch, ends_bind, ends_adaptExcept, ends_pure, List.cons_append,
    List.nil_append, allSucceed_cons]
  apply ends_runGitCommand
  · intro stdout ran
    have success : Succeeds (.showCurrent worktree) g := ⟨stdout, ran⟩
    have on : currentBranch stdout = branch ↔ (view.repo g).head = some branch := by
      rw [currentBranch_eq slash, view.current g stdout ran]
      cases (view.repo g).head with
      | none =>
          have named : branch ≠ "" := by
            intro h
            simp [h] at slash
          simpa using Ne.symm named
      | some head => simp
    cases h : decide (currentBranch stdout = branch) with
    | true =>
        have on' := on.mp (by simpa using h)
        simp_all [Moved]
    | false =>
        have off : ¬ (view.repo g).head = some branch := fun h' => by simp [on.mpr h'] at h
        rw [if_neg (by simpa using h)]
        simp only [off, success, true_and, if_false, allSucceed_cons, allSucceed_nil, and_true]
        rw [ends_bind, ends_adaptExcept]
        apply (ends_checkoutBranch view (g := after (.showCurrent worktree) g) (by rwa [same])).mono
        · intro _ g' moved
          simpa [Moved, same] using moved
        · intro _ g' moved
          simpa [same] using moved
  · intro e fault
    exact ⟨fun all => fault all.1, same⟩

/-- A branch that there is not: it stays if a command fails after its creation. -/
theorem ends_createBranch {branch : String} {action : BranchAction} {g : γ} (slash : '/' ∈ branch.toList)
    (absent : branch ∉ (view.repo g).branches) :
    Ends (do
        let _ ← viaManager (createFeatureBranch branch config.baseBranch)
        viaManager (checkoutBranch worktree branch)
        return (branch, action)) g
      (fun result g' => result.1 = branch ∧ AllSucceed [.branchList branch,
        .branchCreate branch ("origin/" ++ config.baseBranch), .revParse branch,
        .checkout worktree branch] g ∧ Moved view branch g g')
      fun _ g' =>
        (¬ AllSucceed [.branchList branch, .branchCreate branch ("origin/" ++ config.baseBranch)] g ∧
          view.repo g' = view.repo g) ∨
        (AllSucceed [.branchList branch, .branchCreate branch ("origin/" ++ config.baseBranch)] g ∧
          ¬ AllSucceed [.revParse branch, .checkout worktree branch] (afterAll
            [.branchList branch, .branchCreate branch ("origin/" ++ config.baseBranch)] g) ∧
          view.repo g' = { view.repo g with branches := branch :: (view.repo g).branches }) := by
  have same : view.repo (after (.branchList branch) g) = view.repo g := view.reads _ g trivial
  have parsed (g : γ) : view.repo (after (.revParse branch) g) = view.repo g := view.reads _ g trivial
  simp only [viaManager, createFeatureBranch, branchExists, ends_bind, ends_adaptExcept, ends_pure,
    allSucceed_cons, allSucceed_nil, and_true, afterAll_cons, afterAll_nil]
  apply ends_runGitCommand
  · intro stdout ran
    have listed : Succeeds (.branchList branch) g := ⟨stdout, ran⟩
    rw [if_neg fun found => absent ((view.listed branch g stdout slash ran).mp found)]
    simp only [ends_bind, ends_pure]
    apply ends_runGitCommand
    · intro _ created
      have create : Succeeds (.branchCreate branch ("origin/" ++ config.baseBranch))
        (after (.branchList branch) g) := ⟨_, created⟩
      have grown := view.created _ _ _ create
      rw [same] at grown
      apply ends_runGitCommand
      · intro _ parse
        apply (ends_checkoutBranch view (by rw [parsed, grown]; exact List.mem_cons_self)).mono
        · intro _ g' given
          obtain ⟨out, moved⟩ := given
          rw [Moved, parsed, grown] at moved
          exact ⟨trivial, ⟨listed, create, ⟨_, parse⟩, out⟩, moved⟩
        · intro _ g' given
          obtain ⟨fault, left⟩ := given
          rw [parsed, grown] at left
          exact .inr ⟨⟨listed, create⟩, fun all => fault all.2, left⟩
      · intro e fault
        rw [parsed, grown]
        exact .inr ⟨⟨listed, create⟩, fun all => fault all.1, rfl⟩
    · intro e fault
      rw [view.failed _ _ fault, same]
      exact .inl ⟨fun all => fault all.2, rfl⟩
  · intro e fault
    exact .inl ⟨fun all => fault all.1, same⟩

theorem ends_setupBranch (taskMeta : TaskPreparationMeta) (g : γ)
    (slash : '/' ∈ taskMeta.branchName.toList) :
    Ends (setupBranch config taskMeta worktree) g
      (fun result g' => result.1 = taskMeta.branchName ∧
        AllSucceed (setupCommands config worktree taskMeta.branchName (view.repo g)) g ∧
          Moved view taskMeta.branchName g g')
      fun _ g' =>
        ¬ AllSucceed (setupCommands config worktree taskMeta.branchName (view.repo g)) g ∧
        ((view.repo g' = view.repo g ∧ (taskMeta.branchName ∉ (view.repo g).branches →
            ¬ AllSucceed (creationCommands config taskMeta.branchName) g)) ∨
          (taskMeta.branchName ∉ (view.repo g).branches ∧
            AllSucceed (creationCommands config taskMeta.branchName) g ∧
            ¬ AllSucceed [.revParse taskMeta.branchName, .checkout worktree taskMeta.branchName]
              (afterAll (creationCommands config taskMeta.branchName) g) ∧
            view.repo g' =
              { view.repo g with branches := taskMeta.branchName :: (view.repo g).branches })) := by
  have same : view.repo (after (.branchList taskMeta.branchName) g) = view.repo g :=
    view.reads _ g trivial
  unfold setupBranch
  simp only [viaManager, branchExists, ends_bind, ends_adaptExcept, ends_pure]
  apply ends_runGitCommand
  · intro stdout ran
    have listed : Succeeds (.branchList taskMeta.branchName) g := ⟨stdout, ran⟩
    have found := view.listed _ g stdout slash ran
    cases shown : strContains (trim stdout) taskMeta.branchName with
    | true =>
        have present := found.mp shown
        rw [if_pos rfl]
        have commands : setupCommands config worktree taskMeta.branchName (view.repo g) = _ :=
          if_pos present
        rw [commands]
        apply (ends_reuse view slash (by rwa [same])).mono
        · intro result g' given
          obtain ⟨named, all, moved⟩ := given
          simp only [Moved, same] at all moved
          exact ⟨named, ⟨listed, all⟩, moved⟩
        · intro e g' given
          obtain ⟨fault, left⟩ := given
          rw [same] at fault left
          exact ⟨fun all => fault all.2, .inl ⟨left, fun absent => absurd present absent⟩⟩
    | false =>
        have absent : taskMeta.branchName ∉ (view.repo g).branches := by simp [← found, shown]
        rw [if_neg Bool.false_ne_true]
        have commands : setupCommands config worktree taskMeta.branchName (view.repo g) = _ :=
          if_neg absent
        rw [commands]
        apply (@ends_createBranch _ _ _ view config _ _ _ slash (by rwa [same])).mono
        · intro result g' given
          obtain ⟨named, all, moved⟩ := given
          simp only [Moved, same] at moved
          exact ⟨named, ⟨listed, all⟩, moved⟩
        · intro e g' ends'
          rw [same] at ends'
          rw [allSucceed_append]
          rcases ends' with ⟨fault, left⟩ | ⟨all, fault, left⟩
          · exact ⟨fun h => fault h.1.2, .inl ⟨left, fun _ h => fault h.2⟩⟩
          · exact ⟨fun h => fault h.2, .inr ⟨absent, ⟨listed, all⟩, fault, left⟩⟩
  · intro e fault
    refine ⟨?_, .inl ⟨same, fun _ all => fault all.1⟩⟩
    unfold setupCommands
    split <;> exact fun all => fault all.1

end

/-! ## The preparation -/

section

variable (view : RepoView γ worktree) {config : GitFlowConfig} {branch now : String} {g r : γ}

theorem Halts.iff (halts : Halts view config now g r) :
    view.repo r = view.repo g ↔ Undisturbed view config branch now g := by
  rw [halts.2]
  constructor
  · intro listed
    exact ⟨listed, fun r' ready => absurd ready (halts.1 r'), fun r' ready => absurd ready (halts.1 r')⟩
  · exact fun undisturbed => undisturbed.listed

/-- Once the baseline is looked up. -/
theorem Ready.undisturbed_iff (ready : Ready config worktree now g r) :
    Undisturbed view config branch now g ↔
      (view.repo r ≠ view.repo g →
        AllSucceed (baselineCommands config ++ setupCommands config worktree branch (view.repo r)) r) ∧
      (branch ∉ (view.repo r).branches →
        AllSucceed (baselineCommands config ++ creationCommands config branch) r →
          AllSucceed [.revParse branch, .checkout worktree branch]
            (afterAll (baselineCommands config ++ creationCommands config branch) r)) := by
  constructor
  · exact fun undisturbed => ⟨undisturbed.stashed r ready, undisturbed.created r ready⟩
  · intro given
    obtain ⟨kept, kept'⟩ := given
    constructor
    · exact fun pushes _ => ready.listed pushes
    · intro r' ready'
      rwa [← ready.functional ready']
    · intro r' ready'
      rwa [← ready.functional ready']

/-- The baseline is looked up and the branch is set up. -/
def settle (config : GitFlowConfig) (taskMeta : TaskPreparationMeta) (worktree : String) :
    EStateM GitFlowError γ (String × String × BranchAction) := do
  let baseCommit ← baseline config
  return (baseCommit, ← setupBranch config taskMeta worktree)

theorem baselineCommands_read (config : GitFlowConfig) : ∀ c ∈ baselineCommands config, c.Reads := by
  unfold baselineCommands
  split <;> simp [GitCommand.Reads]

theorem Moved.prepared {g' : γ} (ready : Ready config worktree now g r) {g₁ : γ}
    (same : view.repo g₁ = view.repo r) (moved : Moved view branch g₁ g') :
    (view.repo g').head = some branch ∧ ∀ c ∈ (view.repo g).changes,
      c ∈ (view.repo g').changes ∨ ∃ s ∈ (view.repo g').stashes, c ∈ s := by
  obtain ⟨head, kept, stashes⟩ := moved
  refine ⟨head, fun c mem => ?_⟩
  rw [same] at kept stashes
  rw [stashes]
  exact ((ready.keeps view).2.2 c mem).imp_left (kept c)

theorem settle_prepares (taskMeta : TaskPreparationMeta) (slash : '/' ∈ taskMeta.branchName.toList)
    (ready : Ready config worktree now g r) :
    Ends (settle config taskMeta worktree) r
      (fun result g' => Undisturbed view config taskMeta.branchName now g ∧
        (view.repo g').head = some result.2.1 ∧ ∀ c ∈ (view.repo g).changes,
          c ∈ (view.repo g').changes ∨ ∃ s ∈ (view.repo g').stashes, c ∈ s)
      fun _ g' => view.repo g' = view.repo g ↔ Undisturbed view config taskMeta.branchName now g := by
  rw [ready.undisturbed_iff]
  unfold settle
  apply (ends_baseline view r).andThen
  · intro baseCommit g₁ given
    obtain ⟨looked, left⟩ := given
    have same : view.repo g₁ = view.repo r := by
      rw [left, view.repo_afterAll (baselineCommands_read config)]
    simp only [ends_bind, ends_pure, allSucceed_append _ _ r, afterAll_append, ← left, looked, true_and]
    rw [← same]
    apply (ends_setupBranch view taskMeta g₁ slash).mono
    · intro result g' given
      obtain ⟨named, all, moved⟩ := given
      refine ⟨⟨fun _ => all, fun absent _ => ?_⟩, by rw [named]; exact moved.prepared view ready same⟩
      rw [setupCommands, if_neg absent, allSucceed_append] at all
      exact all.2
    · intro e g' given
      obtain ⟨fault, left'⟩ := given
      rcases left' with ⟨left', uncreated⟩ | ⟨absent, created, fault', left'⟩
      · rw [left']
        constructor
        · exact fun same' =>
            ⟨fun changed => absurd same' changed, fun absent all => absurd all (uncreated absent)⟩
        · intro given
          obtain ⟨stashed, _⟩ := given
          by_contra changed
          exact fault (stashed changed)
      · constructor
        · intro same'
          have grown := congrArg (·.branches.length) (left'.symm.trans same')
          simp [same, (ready.keeps view).2.1] at grown
        · exact fun given => absurd (given.2 absent created) fault'
  · intro e g' given
    obtain ⟨fault, left⟩ := given
    rw [left]
    simp only [allSucceed_append _ _ r, fault, false_and, imp_false, false_imp_iff, implies_true, and_true,
      not_not]

theorem ends_prepareForTask [Unicode] (order : List TaskType) (taskId description : String)
    (slash : '/' ∈ (TaskPreparationMeta.new order taskId description config).branchName.toList) :
    Ends (prepareForTask config order worktree taskId description now) g
      (fun result g' =>
        Undisturbed view config (TaskPreparationMeta.new order taskId description config).branchName
          now g ∧ (view.repo g').head = some result.branchName ∧ ∀ c ∈ (view.repo g).changes,
          c ∈ (view.repo g').changes ∨ ∃ s ∈ (view.repo g').stashes, c ∈ s)
      fun _ g' => view.repo g' = view.repo g ↔
        Undisturbed view config (TaskPreparationMeta.new order taskId description config).branchName
          now g := by
  unfold prepareForTask
  apply (ends_checkHealth view g).andThen
  · intro health g₁ given
    obtain ⟨uncommitted, conflicts, finds, reported, left⟩ := given
    rw [reported, left]
    split
    · next low =>
        have conflicting := (healthReport_score uncommitted conflicts).mp low
        refine Halts.iff view (.of_unhealthy view (fun uncommitted' finds' => ?_) (repo_checked view g))
        rw [conflicting] at finds
        cases (finds.functional finds').2
    · next high =>
        have clear : conflicts = false := by
          simpa using mt (healthReport_score uncommitted conflicts).mpr high
        rw [clear] at finds
        rw [clear]
        apply (ends_handleUncommitted view finds).andThen
        · intro _ r ready
          have settled := settle_prepares view _ slash ready
          simp only [settle, ends_bind, ends_pure] at settled ⊢
          exact settled
        · exact fun _ r halts => halts.iff view
  · intro e g₁ given
    obtain ⟨unhealthy, same⟩ := given
    exact Halts.iff view (.of_unhealthy view (fun uncommitted => unhealthy uncommitted false) same)

theorem generateBranchName_slash [Unicode] (taskId : String) (taskType : TaskType) (summary : String) :
    '/' ∈ (generateBranchName taskId taskType summary config).toList := by
  simp only [generateBranchName]
  split <;> simp

theorem branchName_slash [Unicode] (order : List TaskType) (taskId description : String) :
    '/' ∈ (TaskPreparationMeta.new order taskId description config).branchName.toList := by
  simp only [TaskPreparationMeta.new, generateBranchName_slash]

/-- A preparation is as good as its word exactly where no command fails after a stash that saved
    something or after the creation of the branch. -/
theorem prepareForTask_prepares [Unicode] (order : List TaskType) (taskId description : String) :
    Prepares view (prepareForTask config order worktree taskId description now) g ↔
      Undisturbed view config (TaskPreparationMeta.new order taskId description config).branchName
        now g := by
  have slash := @branchName_slash config _ order taskId description
  apply (ends_prepareForTask view order taskId description slash).iff
  · exact fun _ _ given => iff_of_true given.2 given.1
  · exact fun _ _ => id

end

end

/-! ## A repository on a desk -/

section

/-- A repository with one worktree, the commands that fail on it, and branch names as they are
    listed. -/
structure Desk where
  repo : Repo
  faults : List GitCommand := []
  named : ∀ branch ∈ repo.head.toList ++ repo.branches, trim branch = branch

theorem Desk.head_trim (d : Desk) : trim (d.repo.head.getD "") = d.repo.head.getD "" := by
  cases h : d.repo.head with
  | none => decide
  | some head => exact d.named head (by simp [h])

/-- Another branch is there, or is checked out. -/
theorem Desk.named_cons (d : Desk) {branch : String} (fits : trim branch = branch) :
    ∀ other ∈ branch :: (d.repo.head.toList ++ d.repo.branches), trim other = other :=
  List.forall_mem_cons.mpr ⟨fits, d.named⟩

def Desk.run (d : Desk) : GitCommand → Exit × Desk
  | .status _ =>
      (.succeeded (String.join (d.repo.changes.map fun c => c.code ++ " " ++ c.path ++ "\n")), d)
  | .showCurrent _ => (.succeeded (d.repo.head.getD ""), d)
  | .stashPush _ _ => (.succeeded "", { d with
      repo := d.repo.stash
      named := by
        rw [d.repo.stash_keeps.1, d.repo.stash_keeps.2.1]
        exact d.named })
  | .branchList branch => (.succeeded (if branch ∈ d.repo.branches then branch else ""), d)
  | .branchCreate branch _ =>
      if fits : trim branch = branch then (.succeeded "", { d with
        repo := { d.repo with branches := branch :: d.repo.branches }
        named := fun other mem => d.named_cons fits other (by grind) })
      else (.failed "" "fatal: not a valid branch name", d)
  | .checkout _ branch =>
      if present : branch ∈ d.repo.branches then (.succeeded "", { d with
        repo := { d.repo with head := some branch }
        named := fun other mem =>
          d.named_cons (d.named branch (List.mem_append_right _ present)) other (by grind) })
      else (.failed "" "error: pathspec did not match", d)
  | .stashList _ | .fetchOrigin | .revParse _ => (.succeeded "", d)
  | _ => (.failed "" "fatal: not on this desk", d)

instance : Git Desk where
  run c d := if c ∈ d.faults then (.failed "" "fatal: unable to access the remote", d) else d.run c
  pathExists _ _ := true
  createDirAll _ d := (.ok (), d)

theorem Desk.run_eq (c : GitCommand) (d : Desk) : Git.run c d =
    if c ∈ d.faults then (.failed "" "fatal: unable to access the remote", d) else d.run c := rfl

theorem Desk.run_of_succeeded {c : GitCommand} {d : Desk} {stdout : String}
    (ran : (Git.run c d).1 = .succeeded stdout) : Git.run c d = d.run c := by
  rw [Desk.run_eq] at ran ⊢
  split at ran
  · cases ran
  · next sound => rw [if_neg sound]

def deskView (worktree : String) : RepoView Desk worktree where
  repo d := d.repo
  failed c d fault := by
    have fault' : ∀ stdout, (Git.run c d).1 ≠ .succeeded stdout := fun stdout h => fault ⟨stdout, h⟩
    rw [after]
    rw [Desk.run_eq] at fault' ⊢
    split
    · rfl
    · next sound =>
        rw [if_neg sound] at fault'
        cases c <;> simp [Desk.run] at fault' ⊢ <;> split <;> simp_all
  reads c d reads := by
    rw [after, Desk.run_eq]
    split
    · rfl
    · cases c <;> first | rfl | exact reads.elim
  current d stdout ran := by
    rw [Desk.run_of_succeeded ran] at ran
    cases ran
    exact d.head_trim
  listed branch d stdout slash ran := by
    rw [Desk.run_of_succeeded ran] at ran
    cases ran
    split
    · next present =>
        rw [d.named branch (List.mem_append_right _ present)]
        simp [present, strContains_self]
    · next absent =>
        have letters : branch.toList ≠ [] := List.ne_nil_of_mem slash
        have blank : trim "" = "" := by decide
        simp [absent, blank, strContains, letters]
  stashed message d := by
    intro given
    obtain ⟨stdout, ran⟩ := given
    rw [after, Desk.run_of_succeeded ran]
    rfl
  created branch start d := by
    intro given
    obtain ⟨stdout, ran⟩ := given
    rw [after, Desk.run_of_succeeded ran]
    rw [Desk.run_of_succeeded ran] at ran
    simp only [Desk.run] at ran ⊢
    split at ran
    · next fits => rw [dif_pos fits]
    · cases ran
  checkedOut branch d present := by
    intro given
    obtain ⟨stdout, ran⟩ := given
    rw [after, Desk.run_of_succeeded ran]
    exact ⟨d.repo.changes, fun c mem => mem, by rw [Desk.run, dif_pos present]⟩

local instance descriptionsLowered : Unicode := ⟨String.toLower⟩

/-- A day of work, not committed. -/
def draft (faults : List GitCommand) : Desk where
  repo := { changes := [⟨" M", "notes.txt", "a day of work"⟩], head := some "main", stashes := []
            branches := ["main"] }
  faults
  named := by decide

def deskConfig : GitFlowConfig := { taskTypePrefixes := ∅ }

def deskPreparation : EStateM GitFlowError Desk PreparationResult :=
  prepareForTask deskConfig [] "desk" "T7" "Fix" "today"

/-- The remote cannot be reached: the work of the day is gone from the worktree. -/
theorem draft_stashed_away : ¬ Prepares (deskView "desk") deskPreparation (draft [.fetchOrigin]) := by
  have stashed : (match deskPreparation (draft [.fetchOrigin]) with
      | .ok _ _ => none
      | .error _ d => some d.repo.changes) = some [] := by decide +kernel
  unfold Prepares Ends
  split at stashed
  · cases stashed
  · next e d ran =>
      rw [ran]
      intro same
      have changes : d.repo.changes = (draft [.fetchOrigin]).repo.changes := congrArg (·.changes) same
      rw [changes] at stashed
      cases stashed

/-- With the remote in reach the work is in a stash, and the worktree on its new branch. -/
theorem draft_prepared : Prepares (deskView "desk") deskPreparation (draft []) ∧
    Undisturbed (deskView "desk") deskConfig
      (TaskPreparationMeta.new [] "T7" "Fix" deskConfig).branchName "today"
        (draft []) := by
  have prepared : Prepares (deskView "desk") deskPreparation (draft []) := by
    have moved : (match deskPreparation (draft []) with
        | .ok r d => some (r.branchName, d.repo.head, d.repo.stashes)
        | .error _ _ => none) = some ("feature/T7/fix", some "feature/T7/fix",
          [(draft []).repo.changes]) := by decide +kernel
    unfold Prepares Ends
    split at moved
    · next r d ran =>
        rw [ran]
        obtain ⟨named, on, saved⟩ := by simpa only [Option.some.injEq, Prod.mk.injEq] using moved
        refine ⟨on.trans (congrArg some named.symm), fun c mem => .inr ⟨(draft []).repo.changes, ?_, mem⟩⟩
        rw [show ((deskView "desk").repo d).stashes = _ from saved]
        exact List.mem_cons_self
    · cases moved
  have decides := @prepareForTask_prepares Desk _ "desk" (deskView "desk") deskConfig "today" (draft []) _
    [] "T7" "Fix"
  exact ⟨prepared, decides.mp prepared⟩

end

end AgileAgent.Worktree
