import AgileAgent.Decision.GitState
import AgileAgent.Worktree.WorktreeManager

/-! # Uncommitted changes

What the manager reads of `git status --porcelain`. Only the first of the two columns is looked at, and of
the letters that stand for unstaged changes there none is ever printed.
-/

namespace AgileAgent.Worktree

open AgileAgent.Decision (StatusCode StatusEntry Unmerged Change column porcelainStatus sliceFrom startsWith
  textLines textLines_status reduceOption_mapM)

inductive FileChangeStatus where
  | added | modifiedStaged | modifiedUnstaged | deletedStaged | deletedUnstaged | renamed | copied
  | untracked | bothModified | unknown
  deriving Repr, DecidableEq

namespace FileChangeStatus

def fromGitStatus (status : Char) : FileChangeStatus :=
  match status with
  | 'A' => added
  | 'M' => modifiedStaged
  | 'm' => modifiedUnstaged
  | 'D' => deletedStaged
  | 'd' => deletedUnstaged
  | 'R' => renamed
  | 'C' => copied
  | '?' => untracked
  | 'U' => bothModified
  | _ => unknown

def isStaged : FileChangeStatus → Bool
  | added | modifiedStaged | deletedStaged | renamed | copied => true
  | _ => false

def isUnstaged : FileChangeStatus → Bool
  | modifiedUnstaged | deletedUnstaged => true
  | _ => false

end FileChangeStatus

structure UncommittedFile where
  path : String
  status : FileChangeStatus
  deriving Repr, DecidableEq

structure UncommittedChangesInfo where
  files : List UncommittedFile
  hasStaged : Bool
  hasUnstaged : Bool
  hasUntracked : Bool
  deriving Repr, DecidableEq

/-- The file of a line, if the line has a character at all; the outer option is none where the code
    panics. -/
def uncommittedFile (line : String) : Option (Option UncommittedFile) :=
  match line.toList.head? with
  | none => some none
  | some status => (sliceFrom line.toList 3).map fun path =>
      some ⟨String.ofList path, .fromGitStatus status⟩

/-- `get_uncommitted_info`, from what git prints; none where a line makes it panic. -/
def getUncommittedInfo (output : String) : Option UncommittedChangesInfo := do
  let files := (← (textLines output).mapM uncommittedFile).reduceOption
  return {
    files
    hasStaged := files.any (·.status.isStaged)
    hasUnstaged := files.any (·.status.isUnstaged)
    hasUntracked := files.any (·.status = .untracked) }

/-- `has_conflicts`, from what git prints. -/
def statusConflicts (output : String) : Bool := (textLines output).any unmerged

/-! ## What is promised -/

/-- A tracked file with a change in the worktree column. -/
def ChangesWorktree : StatusCode → Prop
  | .changed _ worktree _ _ => worktree ≠ none
  | .unmerged _ => True
  | .untracked | .ignored => False

/-- The files are those of the entries, and each flag says that there is such an entry. -/
structure Informs (entries : List StatusEntry) (info : UncommittedChangesInfo) : Prop where
  files : info.files.map (·.path) = entries.map (·.path)
  staged : info.hasStaged = true ↔ ∃ e ∈ entries, e.code.ChangesIndex
  unstaged : info.hasUnstaged = true ↔ ∃ e ∈ entries, ChangesWorktree e.code
  untracked : info.hasUntracked = true ↔ ∃ e ∈ entries, e.code = .untracked

/-- The letters of the first column that count as staged. -/
def StagedLetter (code : StatusCode) : Prop := (FileChangeStatus.fromGitStatus code.columns.1).isStaged = true

/-- Every file stays where it was and has a plain path, nothing is changed in the worktree alone, and what
    is staged is not all changes of type. -/
structure Plain (entries : List StatusEntry) : Prop where
  paths : ∀ e ∈ entries, e.origPath = none ∧ ∀ c ∈ e.path.toList, Decision.IsPlain c
  clean : ∀ e ∈ entries, ¬ ChangesWorktree e.code
  letters : (∃ e ∈ entries, e.code.ChangesIndex) → ∃ e ∈ entries, StagedLetter e.code

/-- An unmerged file is there only if one is that both sides modified, added or deleted. -/
def ShowsUnmerged (entries : List StatusEntry) : Prop :=
  (∃ e ∈ entries, e.code.IsUnmerged) → ∃ e ∈ entries, e.code = .unmerged .bothModified ∨
    e.code = .unmerged .bothAdded ∨ e.code = .unmerged .bothDeleted

/-! ## Lines -/

/-- What counts as staged is a change in the index column. -/
theorem StagedLetter.changesIndex {code : StatusCode} (staged : StagedLetter code) : code.ChangesIndex := by
  cases code with
  | changed index worktree =>
      cases index with
      | none => exact absurd staged Bool.false_ne_true
      | some change => exact Option.some_ne_none change
  | unmerged u => trivial
  | untracked => exact absurd staged Bool.false_ne_true
  | ignored => exact absurd staged Bool.false_ne_true

/-- No letter of the first column stands for an unstaged change. -/
theorem fromGitStatus_isUnstaged (code : StatusCode) :
    (FileChangeStatus.fromGitStatus code.columns.1).isUnstaged = false := by
  cases code with
  | changed index worktree => rcases index with _ | (_ | _ | _ | _ | _ | _) <;> rfl
  | unmerged u => cases u <;> rfl
  | untracked => rfl
  | ignored => rfl

theorem fromGitStatus_untracked_iff (code : StatusCode) :
    FileChangeStatus.fromGitStatus code.columns.1 = .untracked ↔ code = .untracked := by
  have letter (index : Option Change) : FileChangeStatus.fromGitStatus (column index) ≠ .untracked := by
    rcases index with _ | (_ | _ | _ | _ | _ | _) <;> decide
  cases code with
  | changed index worktree => exact iff_of_false (letter index) fun same => by cases same
  | unmerged u => exact iff_of_false (by cases u <;> decide) fun same => by cases same
  | untracked => exact iff_of_true rfl rfl
  | ignored => exact iff_of_false (by decide) fun same => by cases same

/-- What is read of the line of an entry. -/
def fileOf (e : StatusEntry) : UncommittedFile where
  path := String.ofList e.printedPaths
  status := .fromGitStatus e.code.columns.1

theorem uncommittedFile_line (e : StatusEntry) :
    uncommittedFile (String.ofList e.line) = some (some (fileOf e)) := by
  obtain ⟨sizeX, sizeY⟩ := e.code.columns_size
  have blank : (' ' : Char).utf8Size = 1 := rfl
  rw [uncommittedFile, String.toList_ofList, StatusEntry.line, List.head?_cons]
  simp [sliceFrom, ByteCuts.cut, sizeX, sizeY, blank, fileOf]

theorem read_porcelain (entries : List StatusEntry) :
    ((entries.map fun e => String.ofList e.line).mapM uncommittedFile).map List.reduceOption =
      some (entries.map fileOf) := by
  rw [List.mapM_map]
  exact reduceOption_mapM fun e _ => uncommittedFile_line e

/-- Printed lines are read without a panic. -/
theorem getUncommittedInfo_porcelain (entries : List StatusEntry) :
    getUncommittedInfo (porcelainStatus entries) = some {
      files := entries.map fileOf
      hasStaged := (entries.map fileOf).any (·.status.isStaged)
      hasUnstaged := (entries.map fileOf).any (·.status.isUnstaged)
      hasUntracked := (entries.map fileOf).any (·.status = .untracked) } := by
  obtain ⟨files, lines, same⟩ := Option.map_eq_some_iff.mp (read_porcelain entries)
  rw [getUncommittedInfo, textLines_status, lines]
  simp only [Option.bind_eq_bind, Option.bind_some, same]
  rfl

theorem statusConflicts_iff (entries : List StatusEntry) : statusConflicts (porcelainStatus entries) = true ↔
    ∃ e ∈ entries, e.code = .unmerged .bothModified ∨ e.code = .unmerged .bothAdded ∨
      e.code = .unmerged .bothDeleted := by
  have shown (e : StatusEntry) : unmerged (String.ofList e.line) = true ↔ e.code = .unmerged .bothModified ∨
      e.code = .unmerged .bothAdded ∨ e.code = .unmerged .bothDeleted := by
    rw [unmerged, Bool.or_eq_true, Bool.or_eq_true, e.startsWith_line (u := .bothModified) rfl,
      e.startsWith_line (u := .bothAdded) rfl, e.startsWith_line (u := .bothDeleted) rfl, or_assoc]
  rw [statusConflicts, textLines_status, List.any_map, List.any_eq_true]
  exact exists_congr fun e => and_congr_right fun _ => shown e

/-! ## What is read -/

theorem paths_iff (entries : List StatusEntry) :
    (entries.map fileOf).map (·.path) = entries.map (·.path) ↔
      ∀ e ∈ entries, e.origPath = none ∧ ∀ c ∈ e.path.toList, Decision.IsPlain c := by
  rw [List.map_map, List.map_inj_left]
  refine forall₂_congr fun e _ => ?_
  rw [← e.printedPaths_eq_iff]
  change String.ofList e.printedPaths = e.path ↔ _
  constructor
  · intro same
    rw [← same, String.toList_ofList]
  · intro same
    rw [same, String.ofList_toList]

theorem informs_iff (entries : List StatusEntry) :
    (∃ info, getUncommittedInfo (porcelainStatus entries) = some info ∧ Informs entries info) ↔
      Plain entries := by
  have staged : (entries.map fileOf).any (·.status.isStaged) = true ↔ ∃ e ∈ entries, StagedLetter e.code := by
    rw [List.any_map, List.any_eq_true]
    rfl
  have unstaged : (entries.map fileOf).any (·.status.isUnstaged) = false := by
    rw [List.any_map, List.any_eq_false]
    exact fun e _ => Bool.eq_false_iff.mp (fromGitStatus_isUnstaged e.code)
  have untracked : (entries.map fileOf).any (·.status = .untracked) = true ↔
      ∃ e ∈ entries, e.code = .untracked := by
    rw [List.any_map, List.any_eq_true]
    refine exists_congr fun e => and_congr_right fun _ => ?_
    exact decide_eq_true_iff.trans (fromGitStatus_untracked_iff e.code)
  rw [getUncommittedInfo_porcelain]
  constructor
  · intro informed
    obtain ⟨info, read, informs⟩ := informed
    cases read
    refine ⟨(paths_iff entries).mp informs.files, ?_, ?_⟩
    · intro e member changes
      exact Bool.false_ne_true (unstaged.symm.trans (informs.unstaged.mpr ⟨e, member, changes⟩))
    · exact fun changes => staged.mp (informs.staged.mpr changes)
  · intro plain
    refine ⟨_, rfl, (paths_iff entries).mpr plain.paths, ?_, ?_, ?_⟩
    · refine staged.trans ⟨fun found => ?_, plain.letters⟩
      obtain ⟨e, member, letter⟩ := found
      exact ⟨e, member, letter.changesIndex⟩
    · refine iff_of_false (Bool.eq_false_iff.mp unstaged) fun changed => ?_
      obtain ⟨e, member, changes⟩ := changed
      exact plain.clean e member changes
    · exact untracked

/-- What the manager says of the changes, and of conflicts, is right exactly for these entries. -/
theorem changes_told_iff (entries : List StatusEntry) :
    ((∃ info, getUncommittedInfo (porcelainStatus entries) = some info ∧ Informs entries info) ↔
      Plain entries) ∧
    ((statusConflicts (porcelainStatus entries) = true ↔ ∃ e ∈ entries, e.code.IsUnmerged) ↔
      ShowsUnmerged entries) := by
  refine ⟨informs_iff entries, ?_⟩
  rw [statusConflicts_iff]
  refine ⟨fun same => same.mpr, fun shows => ⟨fun found => ?_, shows⟩⟩
  obtain ⟨e, member, modified | added | deleted⟩ := found
  · exact ⟨e, member, modified ▸ trivial⟩
  · exact ⟨e, member, added ▸ trivial⟩
  · exact ⟨e, member, deleted ▸ trivial⟩

/-- A file that is modified in the worktree alone. -/
def modifiedFile : StatusEntry where
  code := .changed none (some .modified) (.inr (Option.some_ne_none _)) fun u => by cases u <;> decide
  path := "src/main.rs"
  named := by decide
  origNamed := (Option.some_ne_none "").symm

/-- It is not told of, and neither is a conflict over a deletion. -/
theorem modified_file_not_told :
    (¬ ∃ info, getUncommittedInfo (porcelainStatus [modifiedFile]) = some info ∧ Informs [modifiedFile] info) ∧
    ¬ ∀ entries, statusConflicts (porcelainStatus entries) = true ↔ ∃ e ∈ entries, e.code.IsUnmerged := by
  constructor
  · intro told
    have plain := (informs_iff _).mp told
    exact plain.clean modifiedFile List.mem_cons_self (Option.some_ne_none _)
  · intro always
    have shown := (always [{ modifiedFile with code := .unmerged .deletedByUs }]).mpr
      ⟨_, List.mem_cons_self, trivial⟩
    obtain ⟨e, member, letters⟩ := (statusConflicts_iff _).mp shown
    rw [List.mem_singleton.mp member] at letters
    rcases letters with modified | added | deleted
    · cases modified
    · cases added
    · cases deleted

end AgileAgent.Worktree
