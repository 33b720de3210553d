import AgileAgent.ByteCuts
import AgileAgent.Decision.Text
import Mathlib.Data.List.ReduceOption

/-! # The git state of a worktree

What is read of `git status --porcelain`. Two columns say what happened to a file; the code looks at
the second before it looks at both, so that of the unmerged codes only `UU` is found. Paths come as git
prints them, quoted where they hold more than plain ASCII characters.
-/

namespace AgileAgent.Decision

open DecisionDsl (isWhitespace strContains trim)

inductive FileChangeType where
  | added | modified | deleted | renamed | copied | untracked | ignored | unmerged
  deriving Repr, DecidableEq

def FileChangeType.fromPorcelain (code : List Char) : Option FileChangeType :=
  match code with
  | ['M'] | ['M', 'M'] => some .modified
  | ['A'] | ['A', 'M'] | ['A', 'D'] => some .added
  | ['D'] | ['D', 'M'] => some .deleted
  | ['R'] | ['R', 'M'] => some .renamed
  | ['C'] | ['C', 'M'] => some .copied
  | ['?', '?'] => some .untracked
  | ['!', '!'] => some .ignored
  | ['U', 'U'] | ['A', 'A'] | ['D', 'D'] => some .unmerged
  | _ => none

structure FileStatus where
  path : String
  changeType : FileChangeType
  isStaged : Bool
  isNew : Bool
  deriving Repr, DecidableEq

/-- `&line[start..stop]`; none where a bound is inside a character and the code panics. -/
def slice (line : List Char) (start stop : Nat) : Option (List Char) := do
  let front ← ByteCuts.cut start line
  let whole ← ByteCuts.cut stop line
  return whole.drop front.length

/-- `&line[start..]`. -/
def sliceFrom (line : List Char) (start : Nat) : Option (List Char) := do
  let front ← ByteCuts.cut start line
  return line.drop front.length

namespace FileStatus

/-- The change type that the two columns come to. -/
def primary (indexStatus worktreeStatus both : List Char) : FileChangeType :=
  let fallback := (FileChangeType.fromPorcelain both).getD .modified
  if worktreeStatus ≠ [' '] ∧ worktreeStatus ≠ ['?'] then
    (FileChangeType.fromPorcelain worktreeStatus).getD fallback
  else if indexStatus ≠ [' '] ∧ indexStatus ≠ ['?'] then
    (FileChangeType.fromPorcelain indexStatus).getD fallback
  else fallback

/-- The status of a line, if it has one; the outer option is none where the code panics. -/
def fromPorcelainLine (line : String) : Option (Option FileStatus) :=
  if line.utf8ByteSize < 3 then some none
  else do
    let indexStatus ← slice line.toList 0 1
    let worktreeStatus ← slice line.toList 1 2
    let path := trim (String.ofList (← sliceFrom line.toList 3))
    let both ← slice line.toList 0 2
    let changeType := primary indexStatus worktreeStatus both
    let isStaged := decide (indexStatus ≠ [' '] ∧ indexStatus ≠ ['?'] ∧ indexStatus ≠ ['!'])
    let isNew := decide (changeType = .added ∨ changeType = .untracked)
    return some { path, changeType, isStaged, isNew }

end FileStatus

/-- `GitStateParser::parse_status`; none where a line makes it panic. -/
def parseStatus (output : String) : Option (List FileStatus) :=
  ((textLines output).mapM FileStatus.fromPorcelainLine).map List.reduceOption

/-- `GitStateParser::has_conflicts`. -/
def hasConflicts (output : String) : Bool :=
  strContains output "UU" || strContains output "AA" || strContains output "DD" ||
    strContains output "unmerged"

/-! ## What git prints -/

/-- What a column of a merged entry says. -/
inductive Change where
  | modified | typeChanged | added | deleted | renamed | copied
  deriving Repr, DecidableEq

def Change.letter : Change → Char
  | .modified => 'M'
  | .typeChanged => 'T'
  | .added => 'A'
  | .deleted => 'D'
  | .renamed => 'R'
  | .copied => 'C'

inductive Unmerged where
  | bothDeleted | addedByUs | deletedByThem | addedByThem | deletedByUs | bothAdded | bothModified
  deriving Repr, DecidableEq

/-- The letters of an unmerged entry. -/
def Unmerged.letters : Unmerged → Char × Char
  | .bothDeleted => ('D', 'D')
  | .addedByUs => ('A', 'U')
  | .deletedByThem => ('U', 'D')
  | .addedByThem => ('U', 'A')
  | .deletedByUs => ('D', 'U')
  | .bothAdded => ('A', 'A')
  | .bothModified => ('U', 'U')

/-- A column without a change is blank. -/
def column (change : Option Change) : Char := (change.map Change.letter).getD ' '

/-- The code of an entry. Two letters that stand for an unmerged entry stand for nothing else. -/
inductive StatusCode where
  | changed (index worktree : Option Change) (something : index ≠ none ∨ worktree ≠ none)
      (merged : ∀ u : Unmerged, (column index, column worktree) ≠ u.letters)
  | unmerged (u : Unmerged)
  | untracked
  | ignored

namespace StatusCode

def columns : StatusCode → Char × Char
  | .changed index worktree _ _ => (column index, column worktree)
  | .unmerged u => u.letters
  | .untracked => ('?', '?')
  | .ignored => ('!', '!')

def IsUnmerged : StatusCode → Prop
  | .unmerged _ => True
  | _ => False

/-- The index column reports a change. -/
def ChangesIndex : StatusCode → Prop
  | .changed index _ _ _ => index ≠ none
  | .unmerged _ => True
  | .untracked | .ignored => False

end StatusCode

/-- Characters that git prints as they are, without quotes around the path. -/
def IsPlain (c : Char) : Prop := 0x21 ≤ c.toNat ∧ c.toNat ≤ 0x7E ∧ c ≠ '"' ∧ c ≠ '\\'

instance (c : Char) : Decidable (IsPlain c) :=
  inferInstanceAs (Decidable (0x21 ≤ c.toNat ∧ c.toNat ≤ 0x7E ∧ c ≠ '"' ∧ c ≠ '\\'))

/-- Three octal digits of a byte. -/
def octal (byte : Nat) : List Char :=
  ['\\', Nat.digitChar (byte / 64), Nat.digitChar (byte / 8 % 8), Nat.digitChar (byte % 8)]

/-- A character between quotes, in the manner of a C string literal. -/
def escape (c : Char) : List Char :=
  if IsPlain c ∨ c = ' ' then [c]
  else match c.toNat with
    | 7 => ['\\', 'a']
    | 8 => ['\\', 'b']
    | 9 => ['\\', 't']
    | 10 => ['\\', 'n']
    | 11 => ['\\', 'v']
    | 12 => ['\\', 'f']
    | 13 => ['\\', 'r']
    | 34 => ['\\', '"']
    | 92 => ['\\', '\\']
    | _ => (String.utf8EncodeChar c).flatMap fun byte => octal byte.toNat

/-- A path that is printed as it is. -/
def PlainPath (path : List Char) : Prop := ∀ c ∈ path, IsPlain c

instance (path : List Char) : Decidable (PlainPath path) := List.decidableBAll IsPlain path

/-- How git prints a path (with `core.quotePath` as it is by default). -/
def printedPath (path : List Char) : List Char :=
  if PlainPath path then path else '"' :: path.flatMap escape ++ ['"']

/-- An entry of the status; `origPath` is where a file that was renamed or copied comes from. -/
structure StatusEntry where
  code : StatusCode
  path : String
  origPath : Option String := none
  named : path ≠ ""
  origNamed : origPath ≠ some ""

namespace StatusEntry

/-- What stands behind the code. -/
def printedPaths (e : StatusEntry) : List Char :=
  match e.origPath with
  | some origPath => printedPath origPath.toList ++ " -> ".toList ++ printedPath e.path.toList
  | none => printedPath e.path.toList

def line (e : StatusEntry) : List Char :=
  e.code.columns.1 :: e.code.columns.2 :: ' ' :: e.printedPaths

end StatusEntry

/-- The output of `git status --porcelain`. -/
def porcelainStatus (entries : List StatusEntry) : String :=
  String.ofList ((entries.map StatusEntry.line).flatMap (· ++ ['\n']))

/-! ## Printed paths -/

/-- Printable ASCII, the blank among it. -/
def IsPrinted (c : Char) : Prop := 0x20 ≤ c.toNat ∧ c.toNat ≤ 0x7E

instance (c : Char) : Decidable (IsPrinted c) :=
  inferInstanceAs (Decidable (0x20 ≤ c.toNat ∧ c.toNat ≤ 0x7E))

theorem IsPlain.printed {c : Char} (plain : IsPlain c) : IsPrinted c :=
  ⟨Nat.le_of_succ_le plain.1, plain.2.1⟩

theorem IsPlain.filled {c : Char} (plain : IsPlain c) : isWhitespace c = false := by
  have low := plain.1
  have high := plain.2.1
  simp only [isWhitespace, Bool.or_eq_false_iff, Bool.and_eq_false_iff, decide_eq_false_iff_not,
    beq_eq_false_iff_ne]
  omega

theorem octal_printed (byte : UInt8) : ∀ c ∈ octal byte.toNat, IsPrinted c := by
  have below := byte.toNat_lt
  have digit : ∀ n < 8, IsPrinted (Nat.digitChar n) := by decide
  intro c member
  simp only [octal, List.mem_cons, List.not_mem_nil, or_false] at member
  rcases member with rfl | rfl | rfl | rfl
  · decide
  · exact digit _ (by omega)
  · exact digit _ (by omega)
  · exact digit _ (by omega)

theorem escape_printed (c : Char) : ∀ d ∈ escape c, IsPrinted d := by
  intro d member
  rw [escape] at member
  split at member
  · next asIs =>
      obtain rfl := List.mem_singleton.mp member
      rcases asIs with plain | rfl
      · exact plain.printed
      · decide
  · split at member
    all_goals first
      | (obtain ⟨byte, -, inner⟩ := List.mem_flatMap.mp member
         exact octal_printed byte d inner)
      | (simp only [List.mem_cons, List.not_mem_nil, or_false] at member
         rcases member with rfl | rfl <;> decide)

theorem escape_ne_nil (c : Char) : escape c ≠ [] := by
  rw [escape]
  split
  · exact List.cons_ne_nil _ _
  · split
    all_goals first
      | exact List.cons_ne_nil _ _
      | skip
    intro none
    cases bytes : String.utf8EncodeChar c with
    | nil =>
        have size := congrArg List.length bytes
        rw [String.length_utf8EncodeChar] at size
        have positive := c.utf8Size_pos
        rw [List.length_nil] at size
        omega
    | cons byte rest =>
        rw [bytes] at none
        cases none

theorem length_le_escaped (path : List Char) : path.length ≤ (path.flatMap escape).length := by
  induction path with
  | nil => exact Nat.le_refl 0
  | cons c rest ih =>
      have some_char := List.length_pos_of_ne_nil (escape_ne_nil c)
      rw [List.flatMap_cons, List.length_append, List.length_cons]
      omega

theorem printedPath_printed (path : List Char) : ∀ c ∈ printedPath path, IsPrinted c := by
  intro c member
  rw [printedPath] at member
  split at member
  · next plain => exact (plain c member).printed
  · rcases List.mem_append.mp member with front | last
    · rcases List.mem_cons.mp front with rfl | inner
      · decide
      · obtain ⟨d, -, escaped⟩ := List.mem_flatMap.mp inner
        exact escape_printed d c escaped
    · obtain rfl := List.mem_singleton.mp last
      decide

/-- A printed path neither begins nor ends with a blank. -/
theorem printedPath_ends (path : List Char) :
    (∀ c ∈ (printedPath path).head?, isWhitespace c = false) ∧
      ∀ c ∈ (printedPath path).getLast?, isWhitespace c = false := by
  rw [printedPath]
  split
  · next plain =>
      exact ⟨fun c first => (plain c (List.mem_of_mem_head? first)).filled,
        fun c last => (plain c (List.mem_of_mem_getLast? last)).filled⟩
  · constructor
    · intro c first
      obtain rfl : '"' = c := by simpa using first
      rfl
    · intro c last
      rw [List.getLast?_concat] at last
      obtain rfl := Option.some.inj last
      rfl

theorem printedPath_ne_nil {path : List Char} (named : path ≠ []) : printedPath path ≠ [] := by
  rw [printedPath]
  split
  · exact named
  · exact List.cons_ne_nil _ _

theorem length_le_printedPath (path : List Char) : path.length ≤ (printedPath path).length := by
  have escaped := length_le_escaped path
  rw [printedPath]
  split
  · exact Nat.le_refl _
  · rw [List.length_append, List.length_cons]
    omega

theorem printedPath_eq_iff (path : List Char) : printedPath path = path ↔ ∀ c ∈ path, IsPlain c := by
  constructor
  · intro same
    by_contra quoted
    change ¬ PlainPath path at quoted
    have escaped := length_le_escaped path
    rw [printedPath, if_neg quoted] at same
    have lengths := congrArg List.length same
    rw [List.length_append, List.length_cons] at lengths
    omega
  · intro plain
    exact if_pos (show PlainPath path from plain)

namespace StatusEntry

variable (e : StatusEntry)

theorem path_ne_nil : e.path.toList ≠ [] := fun empty =>
  e.named (String.toList_eq_nil_iff.mp empty)

theorem printedPaths_printed : ∀ c ∈ e.printedPaths, IsPrinted c := by
  intro c member
  rw [printedPaths] at member
  cases origin : e.origPath with
  | none =>
      rw [origin] at member
      exact printedPath_printed _ c member
  | some origPath =>
      rw [origin] at member
      rcases List.mem_append.mp member with front | last
      · rcases List.mem_append.mp front with old | arrow
        · exact printedPath_printed _ c old
        · have printed : " -> ".toList.all (IsPrinted ·) = true := by decide +kernel
          exact of_decide_eq_true (List.all_eq_true.mp printed c arrow)
      · exact printedPath_printed _ c last

theorem printedPaths_ends :
    (∀ c ∈ e.printedPaths.head?, isWhitespace c = false) ∧
      ∀ c ∈ e.printedPaths.getLast?, isWhitespace c = false := by
  obtain ⟨first, last⟩ := printedPath_ends e.path.toList
  rw [printedPaths]
  cases origin : e.origPath with
  | none => exact ⟨first, last⟩
  | some origPath =>
      have origNamed : origPath.toList ≠ [] := by
        intro empty
        exact e.origNamed (by rw [origin, String.toList_eq_nil_iff.mp empty])
      have old := printedPath_ne_nil origNamed
      have new := printedPath_ne_nil e.path_ne_nil
      dsimp only
      constructor
      · rw [List.append_assoc, List.head?_append_of_ne_nil _ old]
        exact (printedPath_ends origPath.toList).1
      · rw [List.getLast?_append_of_ne_nil _ new]
        exact last

/-- The path alone stands behind the code exactly when it is plain and the file comes from nowhere
    else. -/
theorem printedPaths_eq_iff :
    e.printedPaths = e.path.toList ↔ e.origPath = none ∧ ∀ c ∈ e.path.toList, IsPlain c := by
  rw [printedPaths]
  cases origin : e.origPath with
  | none =>
      rw [printedPath_eq_iff]
      exact ⟨fun plain => ⟨rfl, plain⟩, fun both => both.2⟩
  | some origPath =>
      have longer := length_le_printedPath e.path.toList
      constructor
      · intro same
        have lengths := congrArg List.length same
        have arrow : " -> ".toList.length = 4 := rfl
        rw [List.length_append, List.length_append, arrow] at lengths
        omega
      · intro both
        cases both.1

end StatusEntry

/-! ## One line -/

/-- A line that begins with three ASCII characters. -/
theorem fromPorcelainLine_columns {x y z : Char} (rest : List Char) (sizeX : x.utf8Size = 1)
    (sizeY : y.utf8Size = 1) (sizeZ : z.utf8Size = 1) :
    FileStatus.fromPorcelainLine (String.ofList (x :: y :: z :: rest)) = some (some
      { path := trim (String.ofList rest)
        changeType := FileStatus.primary [x] [y] [x, y]
        isStaged := decide ([x] ≠ [' '] ∧ [x] ≠ ['?'] ∧ [x] ≠ ['!'])
        isNew := decide (FileStatus.primary [x] [y] [x, y] = .added ∨
          FileStatus.primary [x] [y] [x, y] = .untracked) }) := by
  have long : ¬ (String.ofList (x :: y :: z :: rest)).utf8ByteSize < 3 := by
    simp only [String.utf8ByteSize_ofList, String.utf8Len_cons, sizeX, sizeY, sizeZ]
    omega
  rw [FileStatus.fromPorcelainLine, if_neg long, String.toList_ofList]
  simp [slice, sliceFrom, ByteCuts.cut, sizeX, sizeY, sizeZ]

/-- Three cuts are what a line has to allow. -/
theorem fromPorcelainLine_isSome_iff (line : String) :
    (FileStatus.fromPorcelainLine line).isSome ↔
      (3 ≤ line.utf8ByteSize → ByteCuts.CharBoundary line 1 ∧ ByteCuts.CharBoundary line 2 ∧
        ByteCuts.CharBoundary line 3) := by
  rw [FileStatus.fromPorcelainLine, ← ByteCuts.cut_isSome_iff, ← ByteCuts.cut_isSome_iff,
    ← ByteCuts.cut_isSome_iff]
  by_cases short : line.utf8ByteSize < 3
  · rw [if_pos short]
    simp only [Option.isSome_some, true_iff]
    omega
  · have long : 3 ≤ line.utf8ByteSize := Nat.le_of_not_lt short
    rw [if_neg short, forall_prop_of_true long]
    have start : ByteCuts.cut 0 line.toList = some [] := by cases line.toList <;> rfl
    simp only [slice, sliceFrom, start]
    cases ByteCuts.cut 1 line.toList <;> cases ByteCuts.cut 2 line.toList <;>
      cases ByteCuts.cut 3 line.toList <;> simp

theorem fromPorcelain_unmerged {code : List Char}
    (unmerged : FileChangeType.fromPorcelain code = some .unmerged) :
    ∃ u : Unmerged, code = [u.letters.1, u.letters.2] := by
  unfold FileChangeType.fromPorcelain at unmerged
  split at unmerged
  all_goals first
    | exact ⟨.bothModified, rfl⟩
    | exact ⟨.bothAdded, rfl⟩
    | exact ⟨.bothDeleted, rfl⟩
    | cases unmerged

/-- Only a code of both columns stands for an unmerged file. -/
theorem primary_unmerged {x y : Char} (unmerged : FileStatus.primary [x] [y] [x, y] = .unmerged) :
    ∃ u : Unmerged, (x, y) = u.letters := by
  have single (c : Char) : FileChangeType.fromPorcelain [c] ≠ some .unmerged := by
    intro found
    obtain ⟨u, same⟩ := fromPorcelain_unmerged found
    cases same
  have both : FileChangeType.fromPorcelain [x, y] = some .unmerged := by
    have fallback {found : Option FileChangeType} (notFound : found ≠ some .unmerged)
        (here : found.getD ((FileChangeType.fromPorcelain [x, y]).getD .modified) = .unmerged) :
        FileChangeType.fromPorcelain [x, y] = some .unmerged := by
      cases found with
      | some change => exact absurd (congrArg some here) notFound
      | none =>
          cases code : FileChangeType.fromPorcelain [x, y] with
          | none =>
              rw [code] at here
              cases here
          | some change =>
              rw [code] at here
              exact congrArg some here
    simp only [FileStatus.primary] at unmerged
    split at unmerged
    · exact fallback (single y) unmerged
    · split at unmerged
      · exact fallback (single x) unmerged
      · exact @fallback none (by simp) unmerged
  obtain ⟨u, same⟩ := fromPorcelain_unmerged both
  obtain ⟨rfl, rest⟩ := List.cons.inj same
  obtain ⟨rfl, -⟩ := List.cons.inj rest
  exact ⟨u, rfl⟩

namespace StatusCode

theorem columns_size (code : StatusCode) :
    code.columns.1.utf8Size = 1 ∧ code.columns.2.utf8Size = 1 := by
  have letter (change : Option Change) : (column change).utf8Size = 1 := by
    rcases change with _ | (_ | _ | _ | _ | _ | _) <;> rfl
  cases code with
  | changed index worktree => exact ⟨letter index, letter worktree⟩
  | unmerged u => cases u <;> exact ⟨rfl, rfl⟩
  | untracked => exact ⟨rfl, rfl⟩
  | ignored => exact ⟨rfl, rfl⟩

/-- The letters of an unmerged entry stand for nothing else. -/
theorem columns_eq_letters_iff (code : StatusCode) (u : Unmerged) :
    code.columns = u.letters ↔ code = .unmerged u := by
  cases code with
  | changed index worktree something merged =>
      exact iff_of_false (merged u) fun same => by cases same
  | unmerged v =>
      have letters : v.letters = u.letters ↔ v = u := by cases u <;> cases v <;> decide
      rw [columns, letters, StatusCode.unmerged.injEq]
  | untracked => exact iff_of_false (by cases u <;> decide) fun same => by cases same
  | ignored => exact iff_of_false (by cases u <;> decide) fun same => by cases same

theorem columns_filled (code : StatusCode) : code.columns.1 ≠ '\n' ∧ code.columns.2 ≠ '\n' := by
  have letter (change : Option Change) : column change ≠ '\n' := by
    rcases change with _ | (_ | _ | _ | _ | _ | _) <;> decide
  cases code with
  | changed index worktree => exact ⟨letter index, letter worktree⟩
  | unmerged u => cases u <;> decide
  | untracked => decide
  | ignored => decide

/-- The change type that is read of a code. -/
def changeType (code : StatusCode) : FileChangeType :=
  FileStatus.primary [code.columns.1] [code.columns.2] [code.columns.1, code.columns.2]

/-- Of the unmerged codes one is read as such, and no other code is. -/
theorem changeType_unmerged_iff (code : StatusCode) :
    code.changeType = .unmerged ↔ code = .unmerged .bothModified := by
  cases code with
  | changed index worktree something merged =>
      constructor
      · intro unmerged
        obtain ⟨u, same⟩ := primary_unmerged unmerged
        exact absurd same (merged u)
      · intro same
        cases same
  | unmerged u =>
      rw [StatusCode.unmerged.injEq]
      cases u <;> decide
  | untracked => exact ⟨fun found => absurd found (by decide), fun same => by cases same⟩
  | ignored => exact ⟨fun found => absurd found (by decide), fun same => by cases same⟩

/-- A file is staged whenever the first column is a letter. -/
def isStaged (code : StatusCode) : Bool :=
  decide ([code.columns.1] ≠ [' '] ∧ [code.columns.1] ≠ ['?'] ∧ [code.columns.1] ≠ ['!'])

theorem isStaged_iff (code : StatusCode) : code.isStaged = true ↔ code.ChangesIndex := by
  rw [isStaged, decide_eq_true_iff]
  cases code with
  | changed index worktree =>
      rcases index with _ | (_ | _ | _ | _ | _ | _) <;> simp [columns, column, ChangesIndex, Change.letter]
  | unmerged u => cases u <;> simp [columns, ChangesIndex, Unmerged.letters]
  | untracked => simp [columns, ChangesIndex]
  | ignored => simp [columns, ChangesIndex]

end StatusCode

/-! ## The whole status -/

namespace StatusEntry

/-- What is read of the line of an entry. -/
def status (e : StatusEntry) : FileStatus where
  path := String.ofList e.printedPaths
  changeType := e.code.changeType
  isStaged := e.code.isStaged
  isNew := decide (e.code.changeType = .added ∨ e.code.changeType = .untracked)

theorem fromPorcelainLine_line (e : StatusEntry) :
    FileStatus.fromPorcelainLine (String.ofList e.line) = some (some e.status) := by
  obtain ⟨sizeX, sizeY⟩ := e.code.columns_size
  obtain ⟨first, last⟩ := e.printedPaths_ends
  rw [line, fromPorcelainLine_columns _ sizeX sizeY (by decide), trim_of_ends first last]
  rfl

theorem line_oneLine (e : StatusEntry) : '\n' ∉ e.line ∧ e.line.getLast? ≠ some '\r' := by
  have printed (c : Char) (unprinted : ¬ IsPrinted c) : c ∉ e.printedPaths := fun member =>
    unprinted (e.printedPaths_printed c member)
  obtain ⟨filledX, filledY⟩ := e.code.columns_filled
  constructor
  · simp only [line, List.mem_cons, not_or]
    exact ⟨filledX.symm, filledY.symm, by decide, printed '\n' (by decide)⟩
  · intro last
    have whole : e.line = [e.code.columns.1, e.code.columns.2] ++ ' ' :: e.printedPaths := rfl
    rw [whole, List.getLast?_append_of_ne_nil _ (List.cons_ne_nil _ _), List.getLast?_cons] at last
    cases ending : e.printedPaths.getLast? with
    | none =>
        rw [ending] at last
        exact absurd last (by decide)
    | some c =>
        rw [ending] at last
        obtain rfl := Option.some.inj last
        exact printed '\r' (by decide) (List.mem_of_getLast? ending)

/-- A line begins with the two columns of its code. -/
theorem startsWith_line (e : StatusEntry) {mark : String} {u : Unmerged}
    (letters : mark.toList = [u.letters.1, u.letters.2]) :
    startsWith (String.ofList e.line) mark = true ↔ e.code = .unmerged u := by
  rw [← e.code.columns_eq_letters_iff, startsWith, List.isPrefixOf_iff_prefix, String.toList_ofList, letters,
    line, List.cons_prefix_cons, List.cons_prefix_cons, Prod.ext_iff]
  simp [eq_comm]

end StatusEntry

theorem mapM_eq_some {α β : Type} {f : α → Option β} {g : α → β} {l : List α}
    (reads : ∀ a ∈ l, f a = some (g a)) : l.mapM f = some (l.map g) := by
  induction l with
  | nil => rfl
  | cons a rest ih =>
      rw [List.mapM_cons, reads a List.mem_cons_self, ih fun b member => reads b (List.mem_cons_of_mem a member)]
      rfl

/-- A reader that skips lines skips none if it reads all. -/
theorem reduceOption_mapM {α β : Type} {f : α → Option (Option β)} {g : α → β} {l : List α}
    (reads : ∀ a ∈ l, f a = some (some (g a))) : (l.mapM f).map List.reduceOption = some (l.map g) := by
  have all (read : List β) : (read.map some).reduceOption = read := by
    induction read with
    | nil => rfl
    | cons b rest ih => rw [List.map_cons, List.reduceOption_cons_of_some, ih]
  rw [mapM_eq_some reads, Option.map_some, ← all (l.map g), List.map_map]
  rfl

theorem textLines_status (entries : List StatusEntry) :
    textLines (porcelainStatus entries) = entries.map fun e => String.ofList e.line := by
  rw [porcelainStatus, textLines_written, List.map_map]
  · rfl
  · intro line member
    obtain ⟨e, -, rfl⟩ := List.mem_map.mp member
    exact e.line_oneLine

/-- A printed status is read without a panic, one file for each entry. -/
theorem parseStatus_porcelain (entries : List StatusEntry) :
    parseStatus (porcelainStatus entries) = some (entries.map StatusEntry.status) := by
  rw [parseStatus, textLines_status, List.mapM_map]
  exact reduceOption_mapM fun e _ => e.fromPorcelainLine_line

/-! ## Conflicts -/

/-- What stands for a conflict: one line can hold it, and it has no blank. -/
def conflictMarks : List String := ["UU", "AA", "DD", "unmerged"]

theorem hasConflicts_iff (output : String) :
    hasConflicts output = true ↔ ∃ mark ∈ conflictMarks, mark.toList <:+: output.toList := by
  simp [hasConflicts, conflictMarks, strContains_iff, or_assoc]

theorem infix_porcelain {mark : List Char} (oneLine : '\n' ∉ mark) (something : mark ≠ [])
    (entries : List StatusEntry) :
    mark <:+: (porcelainStatus entries).toList ↔ ∃ e ∈ entries, mark <:+: e.line := by
  rw [porcelainStatus, String.toList_ofList]
  induction entries with
  | nil => simp [something]
  | cons e rest ih =>
      rw [List.map_cons, List.flatMap_cons, List.append_assoc, List.singleton_append,
        infix_around oneLine, ih]
      simp

/-- A mark is in a line as its code or in the paths. -/
theorem infix_line {mark : List Char} (noBlank : ' ' ∉ mark) (e : StatusEntry) :
    mark <:+: e.line ↔ mark <:+: [e.code.columns.1, e.code.columns.2] ∨ mark <:+: e.printedPaths :=
  infix_around noBlank [e.code.columns.1, e.code.columns.2] e.printedPaths

/-- The code of an entry holds a mark when it is one of three unmerged ones. -/
theorem mark_in_code (code : StatusCode) :
    (∃ mark ∈ conflictMarks, mark.toList <:+: [code.columns.1, code.columns.2]) ↔
      code = .unmerged .bothModified ∨ code = .unmerged .bothAdded ∨ code = .unmerged .bothDeleted := by
  have pair (a b : Char) : [a, b] <:+: [code.columns.1, code.columns.2] ↔ code.columns = (a, b) := by
    constructor
    · intro inside
      have same := inside.eq_of_length rfl
      grind
    · intro same
      rw [same]
  have long : ¬ "unmerged".toList <:+: [code.columns.1, code.columns.2] := by
    intro inside
    exact absurd inside.length_le (by simp)
  have marks : (∃ mark ∈ conflictMarks, mark.toList <:+: [code.columns.1, code.columns.2]) ↔
      code.columns = Unmerged.bothModified.letters ∨ code.columns = Unmerged.bothAdded.letters ∨
        code.columns = Unmerged.bothDeleted.letters := by
    have two : "UU".toList = ['U', 'U'] ∧ "AA".toList = ['A', 'A'] ∧ "DD".toList = ['D', 'D'] := by
      decide
    simp only [conflictMarks, List.mem_cons, List.not_mem_nil, or_false, exists_eq_or_imp,
      exists_eq_left, two, pair, long]
    rfl
  rw [marks]
  cases code with
  | changed index worktree something merged =>
      have none_of (u : Unmerged) : ¬ (StatusCode.changed index worktree something merged).columns =
          u.letters := merged u
      simp [none_of]
  | unmerged u => cases u <;> simp [StatusCode.columns, Unmerged.letters]
  | untracked => simp [StatusCode.columns, Unmerged.letters]
  | ignored => simp [StatusCode.columns, Unmerged.letters]

/-- A printed status shows a conflict in a code or in what stands behind it. -/
theorem hasConflicts_porcelain (entries : List StatusEntry) :
    hasConflicts (porcelainStatus entries) = true ↔
      ∃ e ∈ entries, (e.code = .unmerged .bothModified ∨ e.code = .unmerged .bothAdded ∨
        e.code = .unmerged .bothDeleted) ∨ hasConflicts (String.ofList e.printedPaths) = true := by
  have marks : ∀ mark ∈ conflictMarks, '\n' ∉ mark.toList ∧ mark.toList ≠ [] ∧ ' ' ∉ mark.toList := by
    simp [conflictMarks]
  have each (e : StatusEntry) : (∃ mark ∈ conflictMarks, mark.toList <:+: e.line) ↔
      (e.code = .unmerged .bothModified ∨ e.code = .unmerged .bothAdded ∨
        e.code = .unmerged .bothDeleted) ∨ hasConflicts (String.ofList e.printedPaths) = true := by
    rw [← mark_in_code, hasConflicts_iff, String.toList_ofList]
    constructor
    · intro found
      obtain ⟨mark, member, inside⟩ := found
      rcases (infix_line (marks mark member).2.2 e).mp inside with code | paths
      · exact .inl ⟨mark, member, code⟩
      · exact .inr ⟨mark, member, paths⟩
    · intro found
      rcases found with ⟨mark, member, code⟩ | ⟨mark, member, paths⟩
      · exact ⟨mark, member, (infix_line (marks mark member).2.2 e).mpr (.inl code)⟩
      · exact ⟨mark, member, (infix_line (marks mark member).2.2 e).mpr (.inr paths)⟩
  rw [hasConflicts_iff]
  constructor
  · intro found
    obtain ⟨mark, member, inside⟩ := found
    obtain ⟨oneLine, something, -⟩ := marks mark member
    obtain ⟨e, listed, here⟩ := (infix_porcelain oneLine something entries).mp inside
    exact ⟨e, listed, (each e).mp ⟨mark, member, here⟩⟩
  · intro found
    obtain ⟨e, listed, conflict⟩ := found
    obtain ⟨mark, member, here⟩ := (each e).mpr conflict
    obtain ⟨oneLine, something, -⟩ := marks mark member
    exact ⟨mark, member, (infix_porcelain oneLine something entries).mpr ⟨e, listed, here⟩⟩

/-! ## What is promised -/

/-- A status says of its entry what git reports. -/
structure Reports (e : StatusEntry) (status : FileStatus) : Prop where
  path : status.path = e.path
  staged : status.isStaged = true ↔ e.code.ChangesIndex
  unmerged : status.changeType = .unmerged ↔ e.code.IsUnmerged

/-- The files that are read are those of the entries, and a conflict is seen exactly where there is
    an unmerged one. -/
def StatusRead (entries : List StatusEntry) : Prop :=
  (∃ statuses, parseStatus (porcelainStatus entries) = some statuses ∧
      List.Forall₂ Reports entries statuses) ∧
    (hasConflicts (porcelainStatus entries) = true ↔ ∃ e ∈ entries, e.code.IsUnmerged)

/-- Every file stays where it was, its path is plain, and if it is unmerged both sides modified it;
    without an unmerged file no path looks like a conflict. -/
def Readable (entries : List StatusEntry) : Prop :=
  (∀ e ∈ entries, e.origPath = none ∧ (∀ c ∈ e.path.toList, IsPlain c) ∧
      (e.code.IsUnmerged → e.code = .unmerged .bothModified)) ∧
    ((∃ e ∈ entries, e.code.IsUnmerged) ∨ ∀ e ∈ entries, hasConflicts e.path = false)

theorem reports_iff (e : StatusEntry) :
    Reports e e.status ↔ e.origPath = none ∧ (∀ c ∈ e.path.toList, IsPlain c) ∧
      (e.code.IsUnmerged → e.code = .unmerged .bothModified) := by
  have path : e.status.path = e.path ↔ e.printedPaths = e.path.toList := by
    rw [StatusEntry.status, ← String.toList_inj, String.toList_ofList]
  have unmerged : (e.status.changeType = .unmerged ↔ e.code.IsUnmerged) ↔
      (e.code.IsUnmerged → e.code = .unmerged .bothModified) := by
    rw [StatusEntry.status, e.code.changeType_unmerged_iff]
    constructor
    · exact fun both => both.mpr
    · intro only
      refine ⟨?_, only⟩
      intro same
      rw [same]
      trivial
  rw [← and_assoc, ← e.printedPaths_eq_iff, ← path, ← unmerged]
  exact ⟨fun reports => ⟨reports.path, reports.unmerged⟩,
    fun both => ⟨both.1, e.code.isStaged_iff, both.2⟩⟩

/-- Where the files are read right, conflicts are unmerged files and paths that look like one. -/
theorem hasConflicts_plain {entries : List StatusEntry}
    (plain : ∀ e ∈ entries, e.origPath = none ∧ (∀ c ∈ e.path.toList, IsPlain c) ∧
      (e.code.IsUnmerged → e.code = .unmerged .bothModified)) :
    hasConflicts (porcelainStatus entries) = true ↔
      (∃ e ∈ entries, e.code.IsUnmerged) ∨ ∃ e ∈ entries, hasConflicts e.path = true := by
  have paths (e : StatusEntry) (listed : e ∈ entries) : String.ofList e.printedPaths = e.path := by
    obtain ⟨stayed, isPlain, -⟩ := plain e listed
    rw [e.printedPaths_eq_iff.mpr ⟨stayed, isPlain⟩, String.ofList_toList]
  have isUnmerged {e : StatusEntry} (code : e.code = .unmerged .bothModified ∨
      e.code = .unmerged .bothAdded ∨ e.code = .unmerged .bothDeleted) : e.code.IsUnmerged := by
    rcases code with code | code | code
    all_goals
      rw [code]
      trivial
  rw [hasConflicts_porcelain]
  constructor
  · intro found
    obtain ⟨e, listed, code | conflict⟩ := found
    · exact .inl ⟨e, listed, isUnmerged code⟩
    · exact .inr ⟨e, listed, paths e listed ▸ conflict⟩
  · intro found
    rcases found with ⟨e, listed, unmerged⟩ | ⟨e, listed, conflict⟩
    · exact ⟨e, listed, .inl (.inl ((plain e listed).2.2 unmerged))⟩
    · exact ⟨e, listed, .inr ((paths e listed).symm ▸ conflict)⟩

theorem statusRead_iff (entries : List StatusEntry) : StatusRead entries ↔ Readable entries := by
  have each : (∃ statuses, parseStatus (porcelainStatus entries) = some statuses ∧
      List.Forall₂ Reports entries statuses) ↔ ∀ e ∈ entries, Reports e e.status := by
    rw [parseStatus_porcelain]
    simp only [Option.some.injEq, exists_eq_left', List.forall₂_map_right_iff, List.forall₂_same]
  have logic {unmerged conflict : Prop} :
      (unmerged ∨ conflict ↔ unmerged) ↔ (unmerged ∨ ¬ conflict) := by tauto
  have noPath : (∀ e ∈ entries, hasConflicts e.path = false) ↔
      ¬ ∃ e ∈ entries, hasConflicts e.path = true := by
    simp only [not_exists, not_and, Bool.not_eq_true]
  rw [StatusRead, Readable, each]
  simp only [reports_iff]
  refine and_congr_right fun plain => ?_
  rw [hasConflicts_plain plain, noPath]
  exact logic

/-- A status is read as git reports it exactly when it is readable; reading what git prints never
    panics, and a line in general does unless its first three bytes are characters. -/
theorem parse_status_exact (entries : List StatusEntry) (line : String) :
    (StatusRead entries ↔ Readable entries) ∧ (parseStatus (porcelainStatus entries)).isSome ∧
      ((FileStatus.fromPorcelainLine line).isSome ↔
        (3 ≤ line.utf8ByteSize → ByteCuts.CharBoundary line 1 ∧ ByteCuts.CharBoundary line 2 ∧
          ByteCuts.CharBoundary line 3)) := by
  refine ⟨statusRead_iff entries, ?_, fromPorcelainLine_isSome_iff line⟩
  rw [parseStatus_porcelain]
  rfl

/-- A file that both sides added is read as an added one. -/
theorem both_added_is_added : ¬ ∀ entries, StatusRead entries := by
  intro all
  have readable := (statusRead_iff _).mp (all
    [{ code := .unmerged .bothAdded, path := "src/main.rs", named := by decide, origNamed := by decide }])
  have only := (readable.1 _ List.mem_cons_self).2.2 trivial
  cases only

end AgileAgent.Decision
