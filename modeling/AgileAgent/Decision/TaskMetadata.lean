import AgileAgent.ByteCuts
import AgileAgent.Decision.Text
import AgileAgent.Selection
import AgileAgent.Worktree.GitFlowExecutor

/-! # Task metadata

What is made of the id and the description of a task: its type by keywords, a summary, and a branch
name of both. The crate has task types and a sanitizer of its own, the types the same as those of the
git flow executor and the loop of the sanitizer too; its keywords and its cut of long texts differ.
-/

namespace AgileAgent.Decision

open AgileAgent.Core (Unicode)
open DecisionDsl (strContains)
open Worktree (TaskType hyphenate isAsciiAlphanumeric popHyphen splitWhitespace)

inductive TaskPriority where
  | critical | high | medium | low
  deriving Repr, DecidableEq

structure TaskMetadata where
  taskId : String
  branchName : String
  summary : String
  originalDescription : String
  taskType : TaskType
  priority : TaskPriority := .medium
  classificationConfidence : Float
  createdAt : String

/-- The keywords of a task type. -/
def keywords : TaskType → List String
  | .feature => ["add", "implement", "create", "new", "introduce", "develop"]
  | .bugfix => ["fix", "bug", "issue", "error", "resolve", "patch", "solve"]
  | .refactor => ["refactor", "simplify", "optimize", "clean", "improve", "restructure"]
  | .docs => ["document", "readme", "doc", "update docs", "documentation", "write"]
  | .test => ["test", "testing", "spec", "coverage", "verify", "unit test"]
  | .chore => ["chore", "maintenance", "cleanup", "update", "bump", "upgrade"]
  | .hotfix => ["hotfix", "urgent", "critical", "emergency", "production"]

def taskTypes : List TaskType := [.feature, .bugfix, .refactor, .docs, .test, .chore, .hotfix]

def generateSummary (description : String) : String :=
  let summary := " ".intercalate ((splitWhitespace description).take 5)
  if 30 < summary.utf8ByteSize then String.ofList (summary.toList.take 30) else summary

section

variable [Unicode]

/-- How many keywords of a type a description holds. -/
def matchCount (description : String) (type : TaskType) : Nat :=
  (keywords type).countP (strContains (Unicode.toLowercase description))

/-- The type and the confidence in it. The matches are counted in a hash map, which has an entry for
    each type that has any; `order` is the order it is iterated in. -/
def classifyTaskType (order : List TaskType) (description : String) : TaskType × Float :=
  let count := matchCount description
  match Selection.maxByKey count (order.filter fun type => 0 < count type) with
  | some best => (best, 0.5 + min ((count best).toFloat * 0.15) 0.45)
  | none => (.feature, 0.5)

def sanitizeBranchDescription (desc : String) : String :=
  let sanitized := popHyphen (hyphenate [] (Unicode.toLowercase desc).toList)
  if 30 < String.utf8Len sanitized then
    -- the byte offset of the thirtieth character
    let truncateAt := String.utf8Len ((sanitized.take 30).dropLast)
    String.ofList (popHyphen (sanitized.take truncateAt))
  else String.ofList sanitized

def generateBranchName (taskId : String) (taskType : TaskType) (summary : String) : String :=
  taskType.branchPrefix ++ "/" ++ taskId ++ "/" ++ sanitizeBranchDescription summary

namespace TaskMetadata

def new (order : List TaskType) (taskId description createdAt : String) : TaskMetadata :=
  let classified := classifyTaskType order description
  let summary := generateSummary description
  { taskId, branchName := generateBranchName taskId classified.1 summary, summary
    originalDescription := description, taskType := classified.1
    classificationConfidence := classified.2, createdAt }

end TaskMetadata

end

/-! ## Valid branch names -/

inductive BranchNameError where
  | invalidFormat (text : String)
  | invalidType (text : String)
  | emptyTaskId
  | emptyDescription
  | invalidCharacter (c : Char)
  deriving Repr, DecidableEq

def validTypes : List String :=
  ["feature", "bugfix", "refactor", "docs", "test", "chore", "hotfix", "agent"]

def isBranchChar (c : Char) : Bool := isAsciiAlphanumeric c || c == '/' || c == '-' || c == '_'

def validateBranchName (branchName : String) : Except BranchNameError Unit :=
  let format : BranchNameError :=
    .invalidFormat "Branch name must be in format: <type>/<task-id>-<desc>"
  match (branchName.toList.splitOn '/').map String.ofList with
  | [type, agent] =>
      if type = "agent" then if agent = "" then .error .emptyTaskId else .ok ()
      else .error format
  | [type, taskId, desc] =>
      if type ∉ validTypes then .error (.invalidType ("Invalid type prefix: " ++ type))
      else if taskId = "" then .error .emptyTaskId
      else if desc = "" then .error .emptyDescription
      else match branchName.toList.find? (!isBranchChar ·) with
        | some c => .error (.invalidCharacter c)
        | none => .ok ()
  | _ => .error format

/-! ## Sanitizing -/

/-- Words of lower-case letters and digits with single hyphens between them. -/
structure IsSlug (cs : List Char) : Prop where
  chars : ∀ c ∈ cs, c = '-' ∨ c.isLower = true ∨ c.isDigit = true
  first : cs.head? ≠ some '-'
  last : cs.getLast? ≠ some '-'
  single : ¬ ['-', '-'] <:+: cs

/-- What the loop of the sanitizer keeps up: a slug but for a hyphen at its end. -/
structure Sanitized (cs : List Char) : Prop where
  chars : ∀ c ∈ cs, c = '-' ∨ c.isLower = true ∨ c.isDigit = true
  first : cs.head? ≠ some '-'
  single : ¬ ['-', '-'] <:+: cs

theorem Sanitized.nil : Sanitized [] := ⟨by simp, by simp, by simp⟩

/-- Two hyphens at the seam need one on each side of it. -/
theorem double_concat {cs : List Char} {c : Char} (inside : ['-', '-'] <:+: cs ++ [c]) :
    ['-', '-'] <:+: cs ∨ (c = '-' ∧ cs.getLast? = some '-') := by
  rcases List.infix_concat_iff.mp inside with isSuffix | inner
  · obtain ⟨front, whole⟩ := isSuffix
    have split : front ++ ['-'] ++ ['-'] = cs ++ [c] := by simpa using whole
    obtain ⟨rfl, same⟩ := List.append_inj' split rfl
    exact .inr ⟨(List.singleton_inj.mp same).symm, List.getLast?_concat⟩
  · exact .inl inner

theorem Sanitized.concat {cs : List Char} (sanitized : Sanitized cs) {c : Char}
    (kept : c = '-' ∨ c.isLower = true ∨ c.isDigit = true)
    (apart : c = '-' → cs ≠ [] ∧ cs.getLast? ≠ some '-') : Sanitized (cs ++ [c]) where
  chars d member := by
    rcases List.mem_append.mp member with front | last
    · exact sanitized.chars d front
    · rw [List.mem_singleton.mp last]
      exact kept
  first := by
    cases cs with
    | nil =>
        intro first
        exact (apart (Option.some.inj first)).1 rfl
    | cons d rest => exact sanitized.first
  single inside := by
    rcases double_concat inside with inner | ⟨hyphen, before⟩
    · exact sanitized.single inner
    · exact (apart hyphen).2 before

/-- Lower-casing leaves no capital ASCII letter. -/
def LeavesNoCapital [Unicode] : Prop :=
  ∀ s, ∀ c ∈ (Unicode.toLowercase s).toList, c.isUpper = false

theorem isAsciiAlphanumeric_lower {c : Char} (alphanumeric : isAsciiAlphanumeric c = true)
    (lower : c.isUpper = false) : c.isLower = true ∨ c.isDigit = true := by
  have cases_ : (c.isUpper || c.isLower || c.isDigit) = true := (Bool.and_eq_true_iff.mp alphanumeric).2
  rw [lower, Bool.false_or, Bool.or_eq_true] at cases_
  exact cases_

theorem hyphenate_sanitized {cs : List Char} (lower : ∀ c ∈ cs, c.isUpper = false) {acc : List Char}
    (sanitized : Sanitized acc) : Sanitized (hyphenate acc cs) := by
  induction cs generalizing acc with
  | nil => exact sanitized
  | cons c rest ih =>
      have others : ∀ d ∈ rest, d.isUpper = false := fun d member =>
        lower d (List.mem_cons_of_mem c member)
      rw [hyphenate]
      split
      · next alphanumeric =>
          have kept := isAsciiAlphanumeric_lower alphanumeric (lower c List.mem_cons_self)
          refine ih others (sanitized.concat (.inr kept) ?_)
          intro hyphen
          rw [hyphen] at kept
          exact absurd kept (by decide)
      · split
        · next apart => exact ih others (sanitized.concat (.inl rfl) fun _ => apart)
        · exact ih others sanitized

/-- Something is kept exactly where there is an ASCII letter or digit. -/
theorem hyphenate_eq_nil_iff (acc cs : List Char) :
    hyphenate acc cs = [] ↔ acc = [] ∧ ∀ c ∈ cs, isAsciiAlphanumeric c = false := by
  induction cs generalizing acc with
  | nil => simp [hyphenate]
  | cons c rest ih =>
      rw [hyphenate]
      cases alphanumeric : isAsciiAlphanumeric c with
      | true => simp [ih, alphanumeric]
      | false =>
          rw [if_neg (by decide)]
          split
          · next apart => simp [ih, apart.1]
          · simp [ih, alphanumeric]

theorem Sanitized.popped {cs : List Char} (sanitized : Sanitized cs) : IsSlug (popHyphen cs) := by
  rw [popHyphen]
  split
  · next hyphen =>
      obtain ⟨front, rfl⟩ := List.getLast?_eq_some_iff.mp hyphen
      rw [List.dropLast_concat]
      have inside := List.prefix_append front ['-']
      constructor
      · exact fun c member => sanitized.chars c (inside.subset member)
      · intro first
        have here := sanitized.first
        rw [List.head?_append, first] at here
        exact here rfl
      · intro last
        obtain ⟨more, rfl⟩ := List.getLast?_eq_some_iff.mp last
        exact sanitized.single ⟨more, [], by simp⟩
      · exact fun double => sanitized.single (double.trans inside.isInfix)
  · next notHyphen => exact ⟨sanitized.chars, sanitized.first, notHyphen, sanitized.single⟩

theorem Sanitized.taken {cs : List Char} (sanitized : Sanitized cs) (n : Nat) : Sanitized (cs.take n) where
  chars c member := sanitized.chars c (List.mem_of_mem_take member)
  first := by
    cases n with
    | zero => simp
    | succ n =>
        rw [List.head?_take, if_neg (Nat.succ_ne_zero n)]
        exact sanitized.first
  single double := sanitized.single (double.trans (List.take_prefix n cs).isInfix)

theorem IsSlug.sanitized {cs : List Char} (slug : IsSlug cs) : Sanitized cs :=
  ⟨slug.chars, slug.first, slug.single⟩

/-- A hyphen that is taken off is not all there is. -/
theorem Sanitized.popped_ne_nil {cs : List Char} (sanitized : Sanitized cs) (something : cs ≠ []) :
    popHyphen cs ≠ [] := by
  rw [popHyphen]
  split
  · next hyphen =>
      intro nothing
      obtain ⟨front, rfl⟩ := List.getLast?_eq_some_iff.mp hyphen
      rw [List.dropLast_concat] at nothing
      rw [nothing] at sanitized
      exact sanitized.first rfl
  · exact something

theorem popHyphen_length_le (cs : List Char) : (popHyphen cs).length ≤ cs.length := by
  rw [popHyphen]
  split
  · rw [List.length_dropLast]
    omega
  · exact Nat.le_refl _

theorem slugChar_size {c : Char} (kept : c = '-' ∨ c.isLower = true ∨ c.isDigit = true) :
    c.utf8Size = 1 := by
  have small : c.toNat ≤ 127 := by
    rcases kept with rfl | lower | digit
    · decide
    · have bounds : (decide (c.val ≥ 'a'.val) && decide (c.val ≤ 'z'.val)) = true := lower
      have high := of_decide_eq_true (Bool.and_eq_true_iff.mp bounds).2
      exact Nat.le_trans (UInt32.le_iff_toNat_le.mp high) (by decide)
    · have bounds := Char.isDigit_iff_toNat.mp digit
      exact Nat.le_trans bounds.2 (by decide)
  rw [Char.utf8Size_eq_one_iff]
  exact UInt32.le_iff_toNat_le.mpr small

/-- Slug characters take one byte each. -/
theorem utf8Len_slug {cs : List Char} (chars : ∀ c ∈ cs, c = '-' ∨ c.isLower = true ∨ c.isDigit = true) :
    String.utf8Len cs = cs.length := by
  induction cs with
  | nil => rfl
  | cons c rest ih =>
      rw [String.utf8Len_cons, slugChar_size (chars c List.mem_cons_self),
        ih fun d member => chars d (List.mem_cons_of_mem c member), List.length_cons]

section

variable [Unicode] (lowers : LeavesNoCapital) (desc : String)

/-- What the sanitizer has before it cuts. -/
def hyphenated (desc : String) : List Char := popHyphen (hyphenate [] (Unicode.toLowercase desc).toList)

include lowers in
theorem hyphenated_slug : IsSlug (hyphenated desc) :=
  (hyphenate_sanitized (lowers desc) .nil).popped

include lowers in
theorem hyphenated_eq_nil_iff : hyphenated desc = [] ↔
    ∀ c ∈ (Unicode.toLowercase desc).toList, isAsciiAlphanumeric c = false := by
  have loop := hyphenate_eq_nil_iff [] (Unicode.toLowercase desc).toList
  constructor
  · intro nothing
    have empty : hyphenate [] (Unicode.toLowercase desc).toList = [] := by
      by_contra something
      exact (hyphenate_sanitized (lowers desc) .nil).popped_ne_nil something nothing
    exact (loop.mp empty).2
  · intro none
    rw [hyphenated, loop.mpr ⟨rfl, none⟩]
    rfl

include lowers in
/-- The cut of a long text is one character before the limit. -/
theorem sanitize_eq : (sanitizeBranchDescription desc).toList =
    if 30 < (hyphenated desc).length then popHyphen ((hyphenated desc).take 29) else hyphenated desc := by
  have slug := hyphenated_slug lowers desc
  have front : String.utf8Len (((hyphenated desc).take 30).dropLast) =
      (((hyphenated desc).take 30).dropLast).length :=
    utf8Len_slug fun c member =>
      slug.chars c (List.mem_of_mem_take (List.mem_of_mem_dropLast member))
  change (if 30 < String.utf8Len (hyphenated desc) then String.ofList (popHyphen ((hyphenated desc).take
    (String.utf8Len (((hyphenated desc).take 30).dropLast)))) else
      String.ofList (hyphenated desc)).toList = _
  rw [utf8Len_slug slug.chars, front]
  split
  · next long =>
      have cut : (((hyphenated desc).take 30).dropLast).length = 29 := by
        rw [List.length_dropLast, List.length_take]
        omega
      rw [cut, String.toList_ofList]
  · rw [String.toList_ofList]

include lowers in
theorem sanitize_slug : IsSlug (sanitizeBranchDescription desc).toList := by
  have slug := hyphenated_slug lowers desc
  rw [sanitize_eq lowers]
  split
  · exact (slug.sanitized.taken 29).popped
  · exact slug

include lowers in
theorem sanitize_length : (sanitizeBranchDescription desc).toList.length ≤ 30 := by
  rw [sanitize_eq lowers]
  split
  · have popped := popHyphen_length_le ((hyphenated desc).take 29)
    rw [List.length_take] at popped
    omega
  · omega

include lowers in
theorem sanitize_eq_nil_iff : (sanitizeBranchDescription desc).toList = [] ↔
    ∀ c ∈ (Unicode.toLowercase desc).toList, isAsciiAlphanumeric c = false := by
  have slug := hyphenated_slug lowers desc
  rw [← hyphenated_eq_nil_iff lowers, sanitize_eq lowers]
  split
  · next long =>
      have something : (hyphenated desc).take 29 ≠ [] := by
        intro nothing
        have lengths := congrArg List.length nothing
        rw [List.length_take, List.length_nil] at lengths
        omega
      have kept := (slug.sanitized.taken 29).popped_ne_nil something
      constructor
      · exact fun nothing => absurd nothing kept
      · intro nothing
        rw [nothing] at long
        exact absurd long (by decide)
  · exact Iff.rfl

end

/-! ## The type of a task -/

theorem mem_taskTypes (t : TaskType) : t ∈ taskTypes := by cases t <;> decide

section

variable [Unicode]

/-- No two types have the most keywords of a description, if it has any. -/
def NoTie (description : String) : Prop :=
  ∀ t u, 0 < matchCount description t →
    (∀ v, matchCount description v ≤ matchCount description t) →
    (∀ v, matchCount description v ≤ matchCount description u) → t = u

/-- A type that has the most keywords and is asked last wins. -/
theorem classified_last {description : String} {t : TaskType} {order : List TaskType}
    (some_match : 0 < matchCount description t)
    (most : ∀ v, matchCount description v ≤ matchCount description t) :
    (classifyTaskType (order ++ [t]) description).1 = t := by
  have counted : (order ++ [t]).filter (fun type => 0 < matchCount description type) =
      order.filter (fun type => 0 < matchCount description type) ++ [t] := by
    simp [List.filter_append, some_match]
  rw [classifyTaskType, counted]
  cases found : Selection.maxByKey (matchCount description)
      (order.filter (fun type => 0 < matchCount description type) ++ [t]) with
  | none => exact absurd (Selection.maxByKey_eq_none.mp found) (by simp)
  | some best =>
      have last : Selection.LastMax (matchCount description)
          (order.filter (fun type => 0 < matchCount description type) ++ [t]) t :=
        ⟨_, [], rfl, fun v _ => most v, by simp⟩
      exact (Selection.maxByKey_lastMax found).unique last

/-- What is found without a tie is what has the most keywords, or there is none and the type is a
    feature. -/
theorem classified_cases {description : String} {order : List TaskType} (all : order.Perm taskTypes) :
    (∃ t, (classifyTaskType order description).1 = t ∧ 0 < matchCount description t ∧
        ∀ v, matchCount description v ≤ matchCount description t) ∨
      ((classifyTaskType order description).1 = .feature ∧ ∀ v, matchCount description v = 0) := by
  have listed (v : TaskType) : v ∈ order := all.mem_iff.mpr (mem_taskTypes v)
  rw [classifyTaskType]
  cases found : Selection.maxByKey (matchCount description)
      (order.filter (fun type => 0 < matchCount description type)) with
  | none =>
      have empty := Selection.maxByKey_eq_none.mp found
      refine .inr ⟨rfl, fun v => ?_⟩
      have out := List.filter_eq_nil_iff.mp empty v (listed v)
      simpa using out
  | some best =>
      obtain ⟨before, after, whole, most, lower⟩ := Selection.maxByKey_lastMax found
      have counted (v : TaskType) : v ∈ before ++ best :: after ↔ 0 < matchCount description v := by
        rw [← whole, List.mem_filter]
        simp [listed v]
      have positive : 0 < matchCount description best :=
        (counted best).mp (List.mem_append_right _ List.mem_cons_self)
      refine .inl ⟨best, rfl, positive, fun v => ?_⟩
      by_cases some_match : 0 < matchCount description v
      · rcases List.mem_append.mp ((counted v).mpr some_match) with front | back
        · exact most v front
        · rcases List.mem_cons.mp back with rfl | behind
          · exact Nat.le_refl _
          · exact Nat.le_of_lt (lower v behind)
      · omega

/-- The order of the map does not matter exactly where there is no tie. -/
theorem order_irrelevant_iff (description : String) :
    (∀ first second, first.Perm taskTypes → second.Perm taskTypes →
      (classifyTaskType first description).1 = (classifyTaskType second description).1) ↔
      NoTie description := by
  constructor
  · intro same t u some_match mostT mostU
    have last (v : TaskType) : (taskTypes.erase v ++ [v]).Perm taskTypes :=
      List.perm_append_comm.trans (List.perm_cons_erase (mem_taskTypes v)).symm
    have some_match' : 0 < matchCount description u := Nat.lt_of_lt_of_le some_match (mostU t)
    rw [← @classified_last _ description t (taskTypes.erase t) some_match mostT,
      ← @classified_last _ description u (taskTypes.erase u) some_match' mostU]
    exact same _ _ (last t) (last u)
  · intro noTie first second allFirst allSecond
    rcases @classified_cases _ description first allFirst with
      ⟨t, foundT, some_match, mostT⟩ | ⟨featureFirst, none⟩
    · rcases @classified_cases _ description second allSecond with ⟨u, foundU, -, mostU⟩ | ⟨-, none⟩
      · rw [foundT, foundU]
        exact noTie t u some_match mostT mostU
      · rw [none t] at some_match
        exact absurd some_match (Nat.lt_irrefl 0)
    · rcases @classified_cases _ description second allSecond with ⟨u, -, some_match, -⟩ | ⟨feature, -⟩
      · rw [none u] at some_match
        exact absurd some_match (Nat.lt_irrefl 0)
      · rw [featureFirst, feature]

end

/-! ## The branch name -/

/-- ASCII letters, digits, hyphens and underscores, at least one. -/
def IsTaskId (taskId : String) : Prop :=
  taskId ≠ "" ∧ ∀ c ∈ taskId.toList, isAsciiAlphanumeric c = true ∨ c = '-' ∨ c = '_'

theorem branchPrefix_chars (t : TaskType) :
    ∀ c ∈ t.branchPrefix.toList, isAsciiAlphanumeric c = true := by
  apply List.all_eq_true.mp
  cases t <;> decide +kernel

theorem slugChar_alphanumeric {c : Char} (kept : c = '-' ∨ c.isLower = true ∨ c.isDigit = true) :
    isAsciiAlphanumeric c = true ∨ c = '-' := by
  have small : c.toNat < 128 := by
    have size := slugChar_size kept
    rw [Char.utf8Size_eq_one_iff] at size
    exact Nat.lt_succ_of_le (UInt32.le_iff_toNat_le.mp size)
  rcases kept with hyphen | letter
  · exact .inr hyphen
  · refine .inl (Bool.and_eq_true_iff.mpr ⟨decide_eq_true small, ?_⟩)
    change (c.isUpper || c.isLower || c.isDigit) = true
    rcases letter with lower | digit
    · simp [lower]
    · simp [digit]

/-- A generated name is valid exactly when something is left of the description. -/
theorem validate_generated {taskId : String} (isId : IsTaskId taskId) (t : TaskType) {desc : String}
    (chars : ∀ c ∈ desc.toList, c = '-' ∨ c.isLower = true ∨ c.isDigit = true) :
    validateBranchName (t.branchPrefix ++ "/" ++ taskId ++ "/" ++ desc) = .ok () ↔ desc ≠ "" := by
  have noSlash {c : Char} (kept : isAsciiAlphanumeric c = true ∨ c = '-' ∨ c = '_') :
      (c == '/') = false := by
    rw [beq_eq_false_iff_ne]
    intro slash
    rw [slash] at kept
    exact absurd kept (by decide)
  have whole : (t.branchPrefix ++ "/" ++ taskId ++ "/" ++ desc).toList =
      t.branchPrefix.toList ++ '/' :: (taskId.toList ++ '/' :: desc.toList) := by
    simp
  have parts : (t.branchPrefix ++ "/" ++ taskId ++ "/" ++ desc).toList.splitOn '/' =
      [t.branchPrefix.toList, taskId.toList, desc.toList] := by
    rw [whole, List.splitOn_eq_splitOnP,
      List.splitOnP_append_cons_of_forall_mem
        (fun c member => noSlash (.inl (branchPrefix_chars t c member))) _ rfl,
      List.splitOnP_append_cons_of_forall_mem (fun c member => noSlash (isId.2 c member)) _ rfl,
      List.splitOnP_eq_singleton]
    intro c member
    exact noSlash ((slugChar_alphanumeric (chars c member)).imp_right .inl)
  have valid : t.branchPrefix ∈ validTypes := by cases t <;> decide
  have branchChar {c : Char} (kept : isAsciiAlphanumeric c = true ∨ c = '-' ∨ c = '_') :
      isBranchChar c = true := by
    rcases kept with alphanumeric | rfl | rfl
    · simp [isBranchChar, alphanumeric]
    · decide
    · decide
  have allowed : (t.branchPrefix ++ "/" ++ taskId ++ "/" ++ desc).toList.find? (!isBranchChar ·) =
      none := by
    rw [List.find?_eq_none, whole]
    intro c member
    have fine : isBranchChar c = true := by
      rcases List.mem_append.mp member with front | rest
      · exact branchChar (.inl (branchPrefix_chars t c front))
      · rcases List.mem_cons.mp rest with rfl | rest
        · decide
        · rcases List.mem_append.mp rest with middle | back
          · exact branchChar (isId.2 c middle)
          · rcases List.mem_cons.mp back with rfl | back
            · decide
            · exact branchChar ((slugChar_alphanumeric (chars c back)).imp_right .inl)
    simp [fine]
  rw [validateBranchName, parts]
  simp only [List.map_cons, List.map_nil, String.ofList_toList, valid, not_true, if_false, isId.1,
    allowed]
  by_cases empty : desc = ""
  · simp [empty]
  · simp [empty]

section

variable [Unicode]

/-- The branch name is valid and the same in every order of the keyword counts, and what it has of the
    description is a slug of at most thirty characters. -/
structure NamesBranch (taskId description : String) : Prop where
  valid : ∀ order createdAt, order.Perm taskTypes →
    validateBranchName (TaskMetadata.new order taskId description createdAt).branchName = .ok ()
  stable : ∀ first second createdAt, first.Perm taskTypes → second.Perm taskTypes →
    (TaskMetadata.new first taskId description createdAt).branchName =
      (TaskMetadata.new second taskId description createdAt).branchName
  slug : ∀ order createdAt, order.Perm taskTypes → ∃ type desc,
    (TaskMetadata.new order taskId description createdAt).branchName =
      TaskType.branchPrefix type ++ "/" ++ taskId ++ "/" ++ desc ∧
      IsSlug desc.toList ∧ desc.toList.length ≤ 30

/-- Something of the description is a letter or a digit in ASCII. -/
def HasWord (description : String) : Prop :=
  ∃ c ∈ (Unicode.toLowercase (generateSummary description)).toList, isAsciiAlphanumeric c = true

/-- Names of two types differ. -/
theorem branchName_injective {taskId summary : String} {t u : TaskType}
    (same : generateBranchName taskId t summary = generateBranchName taskId u summary) : t = u := by
  simp only [generateBranchName, String.append_left_inj] at same
  cases t <;> cases u <;> first | rfl | exact absurd same (by decide)

theorem namesBranch_iff (lowers : LeavesNoCapital) {taskId : String} (isId : IsTaskId taskId)
    (description : String) :
    NamesBranch taskId description ↔ HasWord description ∧ NoTie description := by
  have slug := sanitize_slug lowers (generateSummary description)
  have word : sanitizeBranchDescription (generateSummary description) ≠ "" ↔ HasWord description := by
    rw [HasWord, ne_eq, ← String.toList_eq_nil_iff, sanitize_eq_nil_iff lowers]
    simp
  have valid (t : TaskType) := @validate_generated taskId isId t _ slug.chars
  rw [← word, ← order_irrelevant_iff]
  constructor
  · intro names
    constructor
    · exact (valid _).mp (names.valid taskTypes "" (List.Perm.refl _))
    · intro first second allFirst allSecond
      exact branchName_injective (names.stable first second "" allFirst allSecond)
  · intro both
    obtain ⟨something, same⟩ := both
    constructor
    · exact fun order createdAt _ => (valid _).mpr something
    · intro first second createdAt allFirst allSecond
      simp only [TaskMetadata.new, same first second allFirst allSecond]
    · exact fun order createdAt _ => ⟨_, _, rfl, slug, sanitize_length lowers _⟩

end

section

local instance asciiLowered : Unicode :=
  ⟨fun s => String.ofList (s.toList.map fun c => if c.isUpper then Char.ofNat (c.toNat + 32) else c)⟩

theorem asciiLowered_lowers : LeavesNoCapital := by
  have lowered : ∀ n < 128, (Char.ofNat n).isUpper = true → (Char.ofNat (n + 32)).isUpper = false := by
    decide +kernel
  intro s c member
  change c ∈ (String.ofList _).toList at member
  rw [String.toList_ofList] at member
  obtain ⟨d, -, rfl⟩ := List.mem_map.mp member
  cases upper : d.isUpper with
  | false =>
      rw [if_neg (by decide)]
      exact upper
  | true =>
      have bounds : decide (d.val ≥ 'A'.val ∧ d.val ≤ 'Z'.val) = true := upper
      have high := UInt32.le_iff_toNat_le.mp (of_decide_eq_true bounds).2
      have small : d.toNat < 128 := Nat.lt_of_le_of_lt high (by decide)
      rw [if_pos rfl]
      exact lowered d.toNat small (by rwa [Char.ofNat_toNat])

theorem login_named : NamesBranch "PROJ-123" "Add login" := by
  have isId : IsTaskId "PROJ-123" := by
    have chars : "PROJ-123".toList.all (fun c => isAsciiAlphanumeric c ∨ c = '-' ∨ c = '_') = true := by
      decide +kernel
    exact ⟨by decide, fun c member => of_decide_eq_true (List.all_eq_true.mp chars c member)⟩
  refine (namesBranch_iff asciiLowered_lowers isId _).mpr ⟨?_, ?_⟩
  · exact ⟨'a', by decide +kernel, by decide⟩
  · have one : matchCount "Add login" .feature = 1 := by decide +kernel
    have only (t : TaskType) (some_match : 0 < matchCount "Add login" t) : t = .feature := by
      cases t with
      | feature => rfl
      | bugfix => exact absurd some_match (by decide +kernel)
      | refactor => exact absurd some_match (by decide +kernel)
      | docs => exact absurd some_match (by decide +kernel)
      | test => exact absurd some_match (by decide +kernel)
      | chore => exact absurd some_match (by decide +kernel)
      | hotfix => exact absurd some_match (by decide +kernel)
    intro t u some_match mostT mostU
    rw [only t some_match, only u (Nat.lt_of_lt_of_le some_match (mostU t))]

/-- Nothing is left of a description without an ASCII letter, and the name ends in a slash. -/
theorem foreign_description_unnamed : ¬ NamesBranch "PROJ-123" "修复登录" := by
  intro names
  have valid := names.valid taskTypes "" (List.Perm.refl _)
  have rejected : validateBranchName (TaskMetadata.new taskTypes "PROJ-123" "修复登录" "").branchName =
      .error .emptyDescription := by
    decide +kernel
  rw [rejected] at valid
  cases valid

/-- Which of two tied types wins is a matter of the order. -/
example : (classifyTaskType taskTypes "Fix test").1 = .test ∧
    (classifyTaskType taskTypes.reverse "Fix test").1 = .bugfix := by
  decide +kernel

end

end AgileAgent.Decision
