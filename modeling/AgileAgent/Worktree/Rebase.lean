import AgileAgent.Decision.GitState
import AgileAgent.Worktree.WorktreeManager
import Mathlib.Logic.Function.Basic

/-! # Rebasing a branch

`rebase_to_base` with the outcomes of the git commands it runs. A rebase that stops at conflicts is in
progress until it is aborted, and the branch stays where it was until a rebase is through. What the code
recognizes as a conflict are two of the seven unmerged states.
-/

namespace AgileAgent.Worktree

open AgileAgent.Decision (StatusEntry StatusCode Unmerged porcelainStatus startsWith textLines
  textLines_status)
open DecisionDsl (trim)
open Fallible

/-- How `git rebase` ends: the branch has a new tip, nothing was started, or it stops with this status. -/
inductive RebaseOutcome where
  | succeeds (tip : String)
  | fails (stderr : String)
  | stops (stderr : String) (status : List StatusEntry) (conflict : ∃ e ∈ status, e.code.IsUnmerged)

/-- How the commands end, with the arguments that a call gives them. -/
structure GitOutcomes where
  checkout : String → Except String Unit
  fetch : Except String Unit
  rebase : String → RebaseOutcome
  revParse : Except String Unit
  status : Except String Unit
  abort : Except String Unit

/-- What a rebase changes of a repository. -/
structure RebaseRepo where
  tips : String → Option String
  /-- The branch that is checked out or rebased. -/
  head : String
  status : List StatusEntry
  rebasing : Bool

inductive RebaseResult where
  | success (newHead : String)
  | conflict (message : String)
  deriving Repr, DecidableEq

/-! ## Commands -/

/-- A command with its outcome, and what it prints and leaves if it succeeds. -/
def gitCommand (outcome : Except String Unit) (stdout : RebaseRepo → String)
    (effect : RebaseRepo → RebaseRepo) : EStateM WorktreeError RebaseRepo String := fun r =>
  match outcome with
  | .ok () => .ok (stdout r) (effect r)
  | .error message => .error (.gitCommandFailed message) r

namespace GitOutcomes

variable (o : GitOutcomes)

def runCheckout (branch : String) : EStateM WorktreeError RebaseRepo String :=
  gitCommand (o.checkout branch) (fun _ => "") fun r => { r with head := branch }

def runFetch : EStateM WorktreeError RebaseRepo String := gitCommand o.fetch (fun _ => "") id

/-- While a rebase is in progress no other is started. -/
def runRebase (onto : String) : EStateM WorktreeError RebaseRepo String := fun r =>
  if r.rebasing then .error (.gitCommandFailed "fatal: a rebase is in progress") r
  else match o.rebase onto with
    | .succeeds tip => .ok "" { r with tips := Function.update r.tips r.head (some tip) }
    | .fails stderr => .error (.gitCommandFailed stderr) r
    | .stops stderr status _ => .error (.gitCommandFailed stderr) { r with status, rebasing := true }

def runRevParse : EStateM WorktreeError RebaseRepo String :=
  gitCommand o.revParse (fun r => (r.tips r.head).getD "" ++ "\n") id

def runStatus : EStateM WorktreeError RebaseRepo String :=
  gitCommand o.status (fun r => porcelainStatus r.status) id

/-- Only what git does not know is left of the changes. -/
def runAbort : EStateM WorktreeError RebaseRepo String := fun r =>
  if r.rebasing then
    gitCommand o.abort (fun _ => "") (fun r =>
      { r with status := r.status.filter (·.code.columns.1 = '?'), rebasing := false }) r
  else .error (.gitCommandFailed "fatal: no rebase in progress") r

end GitOutcomes

/-- The `Result` of a command. -/
def resultOf {ε σ α : Type} (m : EStateM ε σ α) : EStateM ε σ (Except ε α) := fun s =>
  match m s with
  | .ok result s' => .ok (.ok result) s'
  | .error error s' => .ok (.error error) s'

/-- A line of the status that the code takes for a conflict. -/
def showsConflict (line : String) : Bool := startsWith line "UU" || startsWith line "AA"

/-- The branch of `rebase_to_base` for a rebase that failed with an error. -/
def rebaseFailed (o : GitOutcomes) (e : WorktreeError) : EStateM WorktreeError RebaseRepo RebaseResult := do
  let status ← o.runStatus
  if (textLines status).any showsConflict then
    -- an abort that fails is passed over
    let _ ← resultOf o.runAbort
    return .conflict "Rebase conflicts detected. Branch restored to pre-rebase state."
  else throw e

def rebaseToBase (o : GitOutcomes) (branch baseBranch : String) :
    EStateM WorktreeError RebaseRepo RebaseResult := do
  let _ ← o.runCheckout branch
  let _ ← o.runFetch
  match ← resultOf (o.runRebase ("origin/" ++ baseBranch)) with
  | .ok _ =>
      let newHead ← o.runRevParse
      return .success (trim newHead)
  | .error e => rebaseFailed o e

/-! ## What is promised -/

/-- No rebase is left in progress, and without success the branch is at its tip. -/
def EndsAt (m : EStateM WorktreeError RebaseRepo RebaseResult) (branch : String) (tip : Option String)
    (r : RebaseRepo) : Prop :=
  Ends m r
    (fun result r' => r'.rebasing = false ∧ ((∀ newHead, result ≠ .success newHead) → r'.tips branch = tip))
    fun _ r' => r'.rebasing = false ∧ r'.tips branch = tip

def Restores (o : GitOutcomes) (branch baseBranch : String) (r : RebaseRepo) : Prop :=
  EndsAt (rebaseToBase o branch baseBranch) branch (r.tips branch) r

/-- The branch is checked out and the remote fetched. -/
def Reaches (o : GitOutcomes) (branch : String) : Prop := o.checkout branch = .ok () ∧ o.fetch = .ok ()

/-- A rebase is in progress, from before or from this call, with its status. -/
inductive Stopped (o : GitOutcomes) (baseBranch : String) (r : RebaseRepo) : List StatusEntry → Prop where
  | before (rebasing : r.rebasing = true) : Stopped o baseBranch r r.status
  | now {stderr : String} {status : List StatusEntry} {conflict : ∃ e ∈ status, e.code.IsUnmerged}
      (free : r.rebasing = false) (stops : o.rebase ("origin/" ++ baseBranch) = .stops stderr status conflict) :
      Stopped o baseBranch r status

/-- A file of the status that both sides modified or both added. -/
def ShowsBoth (status : List StatusEntry) : Prop :=
  ∃ e ∈ status, e.code = .unmerged .bothModified ∨ e.code = .unmerged .bothAdded

/-- A rebase in progress is found and aborted, and a branch that is moved is reported. -/
structure Recovers (o : GitOutcomes) (branch baseBranch : String) (r : RebaseRepo) : Prop where
  reached : r.rebasing = true → Reaches o branch
  aborted : Reaches o branch → ∀ status, Stopped o baseBranch r status →
    o.status = .ok () ∧ ShowsBoth status ∧ o.abort = .ok ()
  reported : Reaches o branch → r.rebasing = false → ∀ tip,
    o.rebase ("origin/" ++ baseBranch) = .succeeds tip → o.revParse = .ok () ∨ r.tips branch = some tip

/-! ## Steps -/

section

variable {returns : String → RebaseRepo → Prop} {fails : WorktreeError → RebaseRepo → Prop}
  {o : GitOutcomes} {r : RebaseRepo}

theorem ends_gitCommand {outcome : Except String Unit} {stdout : RebaseRepo → String}
    {effect : RebaseRepo → RebaseRepo} : Ends (gitCommand outcome stdout effect) r returns fails ↔
      (outcome = .ok () → returns (stdout r) (effect r)) ∧
        ∀ message, outcome = .error message → fails (.gitCommandFailed message) r := by
  cases outcome with
  | ok done => simp [Ends, gitCommand]
  | error message => simp [Ends, gitCommand]

theorem ends_runAbort : Ends o.runAbort r returns fails ↔ if r.rebasing = true then
      (o.abort = .ok () → returns ""
        { r with status := r.status.filter (·.code.columns.1 = '?'), rebasing := false }) ∧
        ∀ message, o.abort = .error message → fails (.gitCommandFailed message) r
    else fails (.gitCommandFailed "fatal: no rebase in progress") r := by
  unfold Ends GitOutcomes.runAbort
  by_cases rebasing : r.rebasing = true
  · rw [if_pos rebasing, if_pos rebasing]
    exact ends_gitCommand
  · rw [if_neg rebasing, if_neg rebasing]

theorem ends_runRebase {onto : String} : Ends (o.runRebase onto) r returns fails ↔
    if r.rebasing = true then fails (.gitCommandFailed "fatal: a rebase is in progress") r
    else match o.rebase onto with
      | .succeeds tip => returns "" { r with tips := Function.update r.tips r.head (some tip) }
      | .fails stderr => fails (.gitCommandFailed stderr) r
      | .stops stderr status _ => fails (.gitCommandFailed stderr) { r with status, rebasing := true } := by
  unfold Ends GitOutcomes.runRebase
  by_cases rebasing : r.rebasing = true
  · rw [if_pos rebasing, if_pos rebasing]
  · rw [if_neg rebasing, if_neg rebasing]
    cases o.rebase onto <;> rfl

theorem ends_resultOf {ε σ α : Type} {m : EStateM ε σ α} {s : σ} {returns : Except ε α → σ → Prop}
    {fails : ε → σ → Prop} : Ends (resultOf m) s returns fails ↔
      Ends m s (fun result s' => returns (.ok result) s') fun error s' => returns (.error error) s' := by
  unfold Ends resultOf
  cases m s <;> rfl

end

/-- The lines that show a conflict are those of files that both sides modified or added. -/
theorem any_showsConflict (status : List StatusEntry) :
    (textLines (porcelainStatus status)).any showsConflict = true ↔ ShowsBoth status := by
  have shown (e : StatusEntry) : showsConflict (String.ofList e.line) = true ↔
      e.code = .unmerged .bothModified ∨ e.code = .unmerged .bothAdded := by
    rw [showsConflict, Bool.or_eq_true, e.startsWith_line (u := .bothModified) rfl,
      e.startsWith_line (u := .bothAdded) rfl]
  rw [textLines_status, List.any_map, List.any_eq_true]
  exact exists_congr fun e => and_congr_right fun _ => shown e

section

variable {o : GitOutcomes} {branch baseBranch : String} {r : RebaseRepo}

/-- After a rebase that failed, what is in progress has to be found and aborted. -/
theorem rebaseFailed_iff {tip : Option String} (same : r.tips branch = tip) (e : WorktreeError) :
    EndsAt (rebaseFailed o e) branch tip r ↔
      (r.rebasing = true → o.status = .ok () ∧ ShowsBoth r.status ∧ o.abort = .ok ()) := by
  rw [EndsAt, rebaseFailed, ends_bind, GitOutcomes.runStatus, ends_gitCommand]
  cases status : o.status with
  | error message => simp [same]
  | ok done =>
      cases found : (textLines (porcelainStatus r.status)).any showsConflict with
      | false =>
          have notShown : ¬ ShowsBoth r.status := by
            rw [← any_showsConflict, found]
            exact Bool.false_ne_true
          simp [same, notShown]
      | true =>
          have shown : ShowsBoth r.status := (any_showsConflict r.status).mp found
          cases rebasing : r.rebasing with
          | false => simp [ends_resultOf, ends_runAbort, rebasing, same]
          | true =>
              cases abort : o.abort with
              | ok done => simp [ends_resultOf, ends_runAbort, rebasing, abort, same, shown]
              | error message => simp [ends_resultOf, ends_runAbort, rebasing, abort]

theorem recovers_unreached (unreached : ¬ Reaches o branch) :
    Recovers o branch baseBranch r ↔ r.rebasing = false := by
  constructor
  · intro recovers
    exact Bool.eq_false_iff.mpr fun rebasing => unreached (recovers.reached rebasing)
  · intro free
    exact ⟨fun rebasing => absurd (free.symm.trans rebasing) Bool.false_ne_true,
      fun reached => absurd reached unreached, fun reached => absurd reached unreached⟩

/-- What each command of the rebase needs for it. -/
theorem restores_iff_recovers (o : GitOutcomes) (branch baseBranch : String) (r : RebaseRepo) :
    Restores o branch baseBranch r ↔ Recovers o branch baseBranch r := by
  rw [Restores, EndsAt, rebaseToBase, ends_bind, GitOutcomes.runCheckout, ends_gitCommand]
  cases checkout : o.checkout branch with
  | error message =>
      have unreached : ¬ Reaches o branch := fun reached => by cases checkout.symm.trans reached.1
      rw [recovers_unreached unreached]
      simp
  | ok done =>
      simp only [reduceCtorEq, false_implies, implies_true, and_true, true_implies, ends_bind,
        GitOutcomes.runFetch, ends_gitCommand]
      cases fetch : o.fetch with
      | error message =>
          have unreached : ¬ Reaches o branch := fun reached => by cases fetch.symm.trans reached.2
          rw [recovers_unreached unreached]
          simp
      | ok done =>
          have reached : Reaches o branch := ⟨checkout, fetch⟩
          simp only [reduceCtorEq, false_implies, implies_true, and_true, true_implies, ends_resultOf,
            ends_runRebase, id_eq]
          cases rebasing : r.rebasing with
          | true =>
              rw [if_pos rfl]
              refine (@rebaseFailed_iff o branch { r with head := branch, rebasing := true }
                (r.tips branch) rfl _).trans ?_
              constructor
              · intro found
                refine ⟨fun _ => reached, fun _ status stopped => ?_, fun _ free => ?_⟩
                · cases stopped with
                  | before => exact found rfl
                  | now free => exact absurd (free.symm.trans rebasing) Bool.false_ne_true
                · exact absurd (free.symm.trans rebasing) Bool.false_ne_true
              · intro recovers _
                exact recovers.aborted reached r.status (.before rebasing)
          | false =>
              rw [if_neg Bool.false_ne_true]
              have idle : r.rebasing = true → Reaches o branch := fun _ => reached
              cases outcome : o.rebase ("origin/" ++ baseBranch) with
              | succeeds tip =>
                  simp only [ends_bind, GitOutcomes.runRevParse, ends_gitCommand, ends_pure]
                  constructor
                  · intro both
                    refine ⟨idle, fun _ status stopped => ?_, fun _ _ tip' succeeds => ?_⟩
                    · cases stopped with
                      | before running => exact absurd (rebasing.symm.trans running) Bool.false_ne_true
                      | now _ stops => cases outcome.symm.trans stops
                    · cases outcome.symm.trans succeeds
                      cases parsed : o.revParse with
                      | ok done => exact .inl rfl
                      | error message =>
                          have moved := (both.2 message parsed).2
                          rw [Function.update_self] at moved
                          exact .inr moved.symm
                  · intro recovers
                    refine ⟨fun _ => ⟨rfl, fun other => absurd rfl (other _)⟩, fun message parsed => ?_⟩
                    refine ⟨trivial, ?_⟩
                    rcases recovers.reported reached rebasing tip outcome with done | same
                    · cases parsed.symm.trans done
                    · rw [same]
                      exact Function.update_self branch _ _
              | fails stderr =>
                  refine (@rebaseFailed_iff o branch { r with head := branch, rebasing := false }
                    (r.tips branch) rfl _).trans ?_
                  refine iff_of_true (fun running => absurd running Bool.false_ne_true) ?_
                  refine ⟨idle, fun _ status stopped => ?_, fun _ _ tip succeeds => ?_⟩
                  · cases stopped with
                    | before running => exact absurd (rebasing.symm.trans running) Bool.false_ne_true
                    | now _ stops => cases outcome.symm.trans stops
                  · cases outcome.symm.trans succeeds
              | stops stderr status conflict =>
                  refine (@rebaseFailed_iff o branch { r with head := branch, status, rebasing := true }
                    (r.tips branch) rfl _).trans ?_
                  constructor
                  · intro found
                    refine ⟨idle, fun _ status' stopped => ?_, fun _ _ tip succeeds => ?_⟩
                    · cases stopped with
                      | before running => exact absurd (rebasing.symm.trans running) Bool.false_ne_true
                      | now _ stops =>
                          cases outcome.symm.trans stops
                          exact found rfl
                    · cases outcome.symm.trans succeeds
                  · intro recovers _
                    exact recovers.aborted reached status (.now rebasing outcome)

/-- No rebase is left in progress, and a branch that is not reported as rebased has not moved, exactly if
    every rebase that stops is found and aborted and every one that moves the branch is reported. -/
theorem rebase_restores_iff (o : GitOutcomes) (branch baseBranch : String) (r : RebaseRepo) :
    Restores o branch baseBranch r ↔ Recovers o branch baseBranch r :=
  restores_iff_recovers o branch baseBranch r

end

theorem main_named : "src/main.rs" ≠ "" := by decide

theorem no_orig_path : (none : Option String) ≠ some "" := (Option.some_ne_none "").symm

/-- A file that the branch modified and the base deleted. -/
def deletedFile : StatusEntry where
  code := .unmerged .deletedByUs
  path := "src/main.rs"
  named := main_named
  origNamed := no_orig_path

/-- All commands succeed but for the rebase, which stops at the deleted file. -/
def stopsAtDeletedFile : GitOutcomes where
  checkout := fun _ => .ok ()
  fetch := .ok ()
  rebase := fun _ => .stops "CONFLICT (modify/delete)" [deletedFile] ⟨deletedFile, List.mem_cons_self, trivial⟩
  revParse := .ok ()
  status := .ok ()
  abort := .ok ()

/-- The rebase is left in progress. -/
theorem deleted_file_stays_stopped :
    ¬ ∀ (o : GitOutcomes) (branch baseBranch : String) (r : RebaseRepo), r.rebasing = false →
      Restores o branch baseBranch r := by
  intro always
  have restores := always stopsAtDeletedFile "feature/login" "main" ⟨fun _ => some "c1", "main", [], false⟩ rfl
  have recovers := (restores_iff_recovers _ _ _ _).mp restores
  have stopped : Stopped stopsAtDeletedFile "main" ⟨fun _ => some "c1", "main", [], false⟩ [deletedFile] :=
    .now rfl rfl
  obtain ⟨e, member, shown⟩ := (recovers.aborted ⟨rfl, rfl⟩ [deletedFile] stopped).2.1
  rw [List.mem_singleton.mp member] at shown
  rcases shown with modified | added
  · cases modified
  · cases added

end AgileAgent.Worktree
