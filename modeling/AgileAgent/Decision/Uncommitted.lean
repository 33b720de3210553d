import AgileAgent.Core.AgentSlotStatus
import AgileAgent.Decision.GitState

/-! # Uncommitted changes

What to do with the files that a worktree has not committed. Their context is classified before their
value is looked at, and one temporary file decides it for all of them.
-/

namespace AgileAgent.Decision

open AgileAgent.Core (Unicode)
open DecisionDsl (strContains)

inductive ChangesContext where
  | currentTask | previousTask | unknown | temporary
  deriving Repr, DecidableEq

inductive UncommittedAction where
  | commit | stash | discard | requestHuman
  deriving Repr, DecidableEq

structure UncommittedAnalysis where
  changesContext : ChangesContext
  isValuable : Bool
  suggestedAction : UncommittedAction
  reason : String
  deriving Repr, DecidableEq

def temporaryPatterns : List String :=
  [".tmp", ".temp", ".bak", ".backup", "~", "DEBUG:", "XXX:", "FIXME:", "TODO:debug", "console.log",
    "print!(", "dbg!("]

def endsWith (s pattern : String) : Bool := pattern.toList.isSuffixOf s.toList

namespace UncommittedAnalyzer

section

variable [Unicode]

def isTemporaryFile (path : String) : Bool :=
  let pathLower := Unicode.toLowercase path
  temporaryPatterns.any (fun pattern => strContains pathLower (Unicode.toLowercase pattern)) ||
    strContains pathLower "/tmp/" || strContains pathLower "/temp/"

/-- A source file by its extension. -/
def isMeaningful (path : String) : Bool :=
  let pathLower := Unicode.toLowercase path
  [".rs", ".ts", ".js", ".py", ".go"].any (endsWith pathLower)

def classifyContext (files : List FileStatus) : ChangesContext :=
  if files.any (isTemporaryFile ·.path) then .temporary
  else if files.all (·.changeType = .untracked) then .unknown
  else if files.any (isMeaningful ·.path) then .currentTask
  else .unknown

end

/-- A file that counts as valuable. -/
def isValuableFile (file : FileStatus) : Bool :=
  match file.changeType with
  | .modified | .renamed | .deleted => true
  | .added => startsWith file.path "src/" || startsWith file.path "lib/"
  | _ => false

def assessValue (files : List FileStatus) : Bool :=
  if files.isEmpty then false else decide (files.length ≤ files.countP isValuableFile * 2)

def determineAction : ChangesContext → Bool → UncommittedAction
  | .currentTask, true => .commit
  | .currentTask, false => .stash
  | .previousTask, true => .commit
  | .previousTask, false => .discard
  | .unknown, true => .stash
  | .unknown, false => .requestHuman
  | .temporary, _ => .discard

def explainReason (context : ChangesContext) (valuable : Bool) (files : List FileStatus) : String :=
  let fileSummary := match files with
    | [file] => "1 file (" ++ file.path ++ ")"
    | _ => toString files.length ++ " files"
  match context, valuable with
  | .currentTask, true =>
      "Changes appear related to current task with " ++ fileSummary ++ " - suggesting commit"
  | .currentTask, false =>
      "Changes appear related to current task but " ++ fileSummary ++ " - stashing for safety"
  | .previousTask, true =>
      "Changes appear from previous task with " ++ fileSummary ++ " - suggesting commit"
  | .previousTask, false =>
      "Changes appear from previous task but " ++ fileSummary ++ " - discarding"
  | .unknown, true => "Uncertain context with " ++ fileSummary ++ " - stashing for review"
  | .unknown, false => "Uncertain context with " ++ fileSummary ++ " - human decision needed"
  | .temporary, _ => "Temporary/debug changes detected - discarding"

/-- Only temporary changes and worthless ones of another task are discarded. -/
theorem determineAction_discard_iff (context : ChangesContext) (valuable : Bool) :
    determineAction context valuable = .discard ↔
      context = .temporary ∨ (context = .previousTask ∧ valuable = false) := by
  cases context <;> cases valuable <;> decide

variable [Unicode]

/-- `analyze`; which task is the current one plays no part in it. -/
def analyze (files : List FileStatus) : UncommittedAnalysis :=
  if files.isEmpty then
    { changesContext := .unknown, isValuable := false, suggestedAction := .commit
      reason := "No uncommitted changes" }
  else
    let changesContext := classifyContext files
    let isValuable := assessValue files
    { changesContext, isValuable, suggestedAction := determineAction changesContext isValuable
      reason := explainReason changesContext isValuable files }

/-! ## Discarding -/

theorem classifyContext_ne_previous (files : List FileStatus) :
    classifyContext files ≠ .previousTask := by
  rw [classifyContext]
  split
  · decide
  · split
    · decide
    · split <;> decide

theorem classifyContext_temporary_iff (files : List FileStatus) :
    classifyContext files = .temporary ↔ ∃ file ∈ files, isTemporaryFile file.path = true := by
  rw [classifyContext, ← List.any_eq_true]
  split
  · next found => simp [found]
  · next notFound =>
      have other : ¬ (if files.all (·.changeType = .untracked) then ChangesContext.unknown
          else if files.any (isMeaningful ·.path) then .currentTask else .unknown) = .temporary := by
        split
        · decide
        · split <;> decide
      exact ⟨fun temporary => absurd temporary other, fun found => absurd found notFound⟩

/-- One temporary file is enough to discard everything. -/
theorem discards_iff (files : List FileStatus) :
    (analyze files).suggestedAction = .discard ↔ ∃ file ∈ files, isTemporaryFile file.path = true := by
  rw [analyze]
  cases files with
  | nil => simp
  | cons first rest =>
      rw [if_neg (by simp), determineAction_discard_iff, classifyContext_temporary_iff]
      simp only [classifyContext_ne_previous, false_and, or_false]

/-- Everything is discarded only where everything is temporary. -/
def DiscardsOnlyTemporary (files : List FileStatus) : Prop :=
  (analyze files).suggestedAction = .discard → ∀ file ∈ files, isTemporaryFile file.path = true

theorem discards_only_temporary_iff (files : List FileStatus) :
    DiscardsOnlyTemporary files ↔
      (∀ file ∈ files, isTemporaryFile file.path = false) ∨
        ∀ file ∈ files, isTemporaryFile file.path = true := by
  rw [DiscardsOnlyTemporary, discards_iff]
  constructor
  · intro only
    by_cases found : ∃ file ∈ files, isTemporaryFile file.path = true
    · exact .inr (only found)
    · exact .inl fun file listed => Bool.eq_false_iff.mpr fun here => found ⟨file, listed, here⟩
  · intro alike found
    obtain ⟨file, listed, here⟩ := found
    rcases alike with none | all
    · rw [none file listed] at here
      cases here
    · exact all

end UncommittedAnalyzer

section

local instance pathsLowered : Unicode := ⟨String.toLower⟩

/-- A note beside a modified source file: both are discarded. -/
theorem note_discards_source : ¬ UncommittedAnalyzer.DiscardsOnlyTemporary
    [{ path := "notes.tmp", changeType := .untracked, isStaged := false, isNew := true },
      { path := "src/main.rs", changeType := .modified, isStaged := false, isNew := false }] := by
  intro only
  have temporary := only (by decide +kernel) _ (List.mem_cons_of_mem _ List.mem_cons_self)
  exact absurd temporary (by decide +kernel)

end

end AgileAgent.Decision
