import AgileAgent.Decision.TaskMetadata
import AgileAgent.Substitution

/-! # The branch of a task

The decision crate announces the branch of a task and the git flow executor creates it, each by code of
its own. Summaries are the same under the default configuration; types can differ with the keywords, and
the end of the name with the cut of a long text and with a description of which nothing is left.
-/

namespace AgileAgent.Decision

open AgileAgent.Core (Unicode)
open DecisionDsl (strContains)
open Worktree (GitFlowConfig TaskPreparationMeta TaskType hyphenate isAsciiAlphanumeric popHyphen)

/-! ## Words -/

/-- The words of a text: its runs of ASCII letters and digits. -/
def slugWords (cs : List Char) : List (List Char) :=
  (cs.splitOnP fun c => !isAsciiAlphanumeric c).filter (· ≠ [])

theorem slugWords_word {w : List Char} (something : w ≠ []) (inside : ∀ c ∈ w, isAsciiAlphanumeric c) :
    slugWords w = [w] := by
  rw [slugWords, List.splitOnP_eq_singleton fun c member => by simp [inside c member]]
  simp [something]

theorem slugWords_break {w rest : List Char} {c : Char} (inside : ∀ d ∈ w, isAsciiAlphanumeric d)
    (out : isAsciiAlphanumeric c = false) :
    slugWords (w ++ c :: rest) = (if w = [] then [] else [w]) ++ slugWords rest := by
  have noBreak : ∀ d ∈ w, (!isAsciiAlphanumeric d) = false := by
    intro d member
    rw [inside d member]
    rfl
  rw [slugWords, List.splitOnP_append_cons_of_forall_mem noBreak c (by rw [out]; rfl), List.filter_cons]
  cases w with
  | nil => rfl
  | cons d w => rfl

/-- Up to the first character that is in no word. -/
theorem exists_word (cs : List Char) : (∀ c ∈ cs, isAsciiAlphanumeric c) ∨
    ∃ w c rest, cs = w ++ c :: rest ∧ (∀ d ∈ w, isAsciiAlphanumeric d) ∧ isAsciiAlphanumeric c = false := by
  induction cs with
  | nil => exact .inl (by simp)
  | cons c cs ih =>
      cases inside : isAsciiAlphanumeric c with
      | false => exact .inr ⟨[], c, cs, rfl, by simp, inside⟩
      | true =>
          cases ih with
          | inl all => exact .inl (List.forall_mem_cons.mpr ⟨inside, all⟩)
          | inr found =>
              obtain ⟨w, d, rest, rfl, word, out⟩ := found
              exact .inr ⟨c :: w, d, rest, rfl, List.forall_mem_cons.mpr ⟨inside, word⟩, out⟩

theorem hyphenate_word {w acc rest : List Char} (inside : ∀ c ∈ w, isAsciiAlphanumeric c) :
    hyphenate acc (w ++ rest) = hyphenate (acc ++ w) rest := by
  induction w generalizing acc with
  | nil => rw [List.append_nil, List.nil_append]
  | cons c w ih =>
      obtain ⟨here, others⟩ := List.forall_mem_cons.mp inside
      rw [List.cons_append, hyphenate, if_pos here, ih others, List.append_assoc]
      rfl

theorem word_last {acc w : List Char} (something : w ≠ []) (inside : ∀ c ∈ w, isAsciiAlphanumeric c) :
    (acc ++ w).getLast? ≠ some '-' := by
  rw [List.getLast?_append_of_ne_nil acc something]
  intro hyphen
  exact absurd (inside '-' (List.mem_of_getLast? hyphen)) (by decide)

theorem popHyphen_word {acc w : List Char} (something : w ≠ []) (inside : ∀ c ∈ w, isAsciiAlphanumeric c) :
    popHyphen (acc ++ w) = acc ++ w := by
  rw [popHyphen, if_neg (word_last something inside)]

theorem popHyphen_concat (acc : List Char) : popHyphen (acc ++ ['-']) = acc := by
  rw [popHyphen, if_pos List.getLast?_concat, List.dropLast_concat]

/-- Where the next word begins: at the start, or behind a hyphen. -/
def AtWord (acc : List Char) : Prop := acc = [] ∨ acc.getLast? = some '-'

/-- The sanitizer joins words with hyphens. -/
theorem popHyphen_hyphenate {acc cs : List Char} (atWord : AtWord acc) :
    popHyphen (hyphenate acc cs) =
      if slugWords cs = [] then popHyphen acc else acc ++ List.intercalate ['-'] (slugWords cs) := by
  induction length : cs.length using Nat.strongRecOn generalizing acc cs with
  | ind n ih =>
      cases exists_word cs with
      | inl inside =>
          have whole := @hyphenate_word cs acc [] inside
          rw [List.append_nil, hyphenate] at whole
          by_cases something : cs = []
          · subst something
            simp [whole, slugWords]
          · rw [whole, slugWords_word something inside, if_neg (List.cons_ne_nil _ _), List.intercalate_singleton,
              popHyphen_word something inside]
      | inr found =>
          obtain ⟨w, c, rest, rfl, inside, out⟩ := found
          rw [List.length_append, List.length_cons] at length
          rw [slugWords_break inside out, hyphenate_word inside, hyphenate, if_neg (by simp [out])]
          by_cases something : w = []
          · subst something
            have idle : ¬ (acc ≠ [] ∧ acc.getLast? ≠ some '-') := by
              intro given
              exact atWord.elim given.1 given.2
            rw [List.append_nil, if_neg idle, ih rest.length (by omega) atWord rfl, if_pos rfl, List.nil_append]
          · have ready : AtWord (acc ++ w ++ ['-']) := .inr List.getLast?_concat
            rw [if_pos ⟨List.append_ne_nil_of_right_ne_nil acc something, word_last something inside⟩,
              ih rest.length (by omega) ready rfl, if_neg something, List.singleton_append,
              if_neg (List.cons_ne_nil _ _)]
            cases words : slugWords rest with
            | nil => rw [if_pos rfl, popHyphen_concat, List.intercalate_singleton]
            | cons next others =>
                rw [if_neg (List.cons_ne_nil _ _), List.intercalate_cons_cons]
                simp only [List.append_assoc]

/-! ## The end of the name -/

section

variable [Unicode]

/-- The words of a text in lower case, joined by hyphens. -/
def slug (desc : String) : List Char := List.intercalate ['-'] (slugWords (Unicode.toLowercase desc).toList)

theorem hyphenated_eq (desc : String) : hyphenated desc = slug desc := by
  rw [hyphenated, popHyphen_hyphenate (.inl rfl), slug]
  split
  · next none => rw [none, popHyphen, if_neg (by simp), List.intercalate_nil]
  · rw [List.nil_append]

/-- Not cut, or cut in front of a hyphen. -/
def CutAlike (desc : String) : Prop := (slug desc).length ≤ 30 ∨ (slug desc)[29]? = some '-'

theorem prepared_eq (desc : String) : (Worktree.sanitizeBranchDescription desc).toList =
    if 30 < (slug desc).length then popHyphen ((slug desc).take 30) else slug desc := by
  rw [← hyphenated_eq, Worktree.sanitizeBranchDescription, String.toList_ofList]
  rfl

theorem sanitized_alike_iff (lowers : LeavesNoCapital) (desc : String) :
    sanitizeBranchDescription desc = Worktree.sanitizeBranchDescription desc ↔ CutAlike desc := by
  have isSlug := hyphenated_slug lowers desc
  rw [hyphenated_eq] at isSlug
  rw [← String.toList_inj, sanitize_eq lowers, prepared_eq, hyphenated_eq, CutAlike]
  split
  · next long =>
      have inside : 29 < (slug desc).length := by omega
      have front : ((slug desc).take 29).length = 29 := by
        rw [List.length_take]
        omega
      have split : (slug desc).take 30 = (slug desc).take 29 ++ [(slug desc)[29]] := by
        rw [List.take_append_getElem inside]
      rw [split, List.getElem?_eq_getElem inside, Option.some.injEq]
      by_cases hyphen : (slug desc)[29] = '-'
      · have single : ((slug desc).take 29).getLast? ≠ some '-' := by
          intro last
          obtain ⟨more, whole⟩ := List.getLast?_eq_some_iff.mp last
          apply isSlug.single
          refine ⟨more, (slug desc).drop 30, ?_⟩
          have parts := List.take_append_drop 30 (slug desc)
          rw [split, whole, hyphen] at parts
          simpa using parts
        simp only [hyphen, popHyphen_concat, or_true, iff_true]
        rw [popHyphen, if_neg single]
      · have other : popHyphen ((slug desc).take 29 ++ [(slug desc)[29]]) =
            (slug desc).take 29 ++ [(slug desc)[29]] := by
          rw [popHyphen, if_neg]
          rw [List.getLast?_concat, Option.some.injEq]
          exact hyphen
        rw [other]
        constructor
        · intro same
          have shorter := popHyphen_length_le ((slug desc).take 29)
          rw [same, List.length_append, List.length_singleton, front] at shorter
          omega
        · intro given
          exact given.elim (fun short => absurd long (by omega)) fun same => absurd same hyphen
  · next short => simp [Nat.not_lt.mp short]

end

/-! ## The type -/

/-- The type that the most keywords are for, in the order of a hash map. -/
def mostCounted (count : TaskType → Nat) (order : List TaskType) : TaskType :=
  (Selection.maxByKey count (order.filter fun type => 0 < count type)).getD .feature

/-- More keywords than for any other type, or none at all and a feature. -/
def Wins (count : TaskType → Nat) (t : TaskType) : Prop :=
  (0 < count t ∧ ∀ u, u ≠ t → count u < count t) ∨ (t = .feature ∧ ∀ u, count u = 0)

theorem mostCounted_stable_iff {count : TaskType → Nat} {t : TaskType} :
    (∀ order : List TaskType, order.Perm taskTypes → mostCounted count order = t) ↔ Wins count t := by
  by_cases none : ∀ u, count u = 0
  · have feature (order : List TaskType) : mostCounted count order = .feature := by
      have empty : order.filter (fun type => 0 < count type) = [] :=
        List.filter_eq_nil_iff.mpr fun u _ => by simp [none u]
      rw [mostCounted, empty]
      rfl
    constructor
    · intro stable
      exact .inr ⟨(stable taskTypes (List.Perm.refl _)).symm.trans (feature _), none⟩
    · intro wins order _
      rw [feature]
      exact wins.elim (fun most => absurd (none t) (Nat.ne_of_gt most.1)) fun nothing => nothing.1.symm
  · obtain ⟨u, counted⟩ := not_forall.mp none
    have found (order : List TaskType) (all : order.Perm taskTypes) :
        mostCounted count order = t ↔
          Selection.maxByKey count (order.filter fun type => 0 < count type) = some t := by
      have member : u ∈ order.filter fun type => 0 < count type :=
        List.mem_filter.mpr ⟨all.mem_iff.mpr (mem_taskTypes u), by simpa using Nat.pos_of_ne_zero counted⟩
      rw [mostCounted]
      cases best : Selection.maxByKey count (order.filter fun type => 0 < count type) with
      | none => exact absurd (Selection.maxByKey_eq_none.mp best ▸ member) List.not_mem_nil
      | some v => simp
    have stable : (∀ order : List TaskType, order.Perm taskTypes → mostCounted count order = t) ↔
        ∀ order : List TaskType, order.Perm taskTypes →
          Selection.maxByKey count (order.filter fun type => 0 < count type) = some t :=
      forall_congr' fun order => forall_congr' fun all => found order all
    rw [stable, Selection.maxByKey_stable_iff]
    constructor
    · intro given
      obtain ⟨⟨-, positive⟩, lower⟩ := given
      have most : 0 < count t := of_decide_eq_true positive
      refine .inl ⟨most, fun v other => ?_⟩
      by_cases some_match : 0 < count v
      · exact lower v (mem_taskTypes v) (decide_eq_true some_match) other
      · omega
    · intro wins
      cases wins with
      | inl most =>
          exact ⟨⟨mem_taskTypes t, decide_eq_true most.1⟩, fun v _ _ other => most.2 v other⟩
      | inr feature => exact absurd (feature.2 u) counted

theorem foldl_some {count : TaskType → Nat} {next : Option TaskType → TaskType → Option TaskType}
    (goesOn : ∀ b a, next (some b) a = some (if count b ≤ count a then a else b)) (l : List TaskType)
    (t : TaskType) : l.foldl next (some t) =
      some (l.foldl (fun best a => if count best ≤ count a then a else best) t) := by
  induction l generalizing t with
  | nil => rfl
  | cons u l ih => rw [List.foldl_cons, List.foldl_cons, goesOn, ih]

/-- Two ways to write down one search. -/
theorem maxByKey_eq (count : TaskType → Nat) (l : List TaskType) :
    Worktree.maxByKey count l = Selection.maxByKey count l := by
  cases l with
  | nil => rfl
  | cons t l =>
      rw [Worktree.maxByKey, List.foldl_cons]
      apply foldl_some
      intro b a
      simp only
      split <;> rfl

section

variable [Unicode]

/-- How many keywords of a type the executor finds in a description. -/
def preparedCount (description : String) (type : TaskType) : Nat :=
  type.keywords.countP (strContains (Unicode.toLowercase description))

theorem classified_eq (order : List TaskType) (description : String) :
    (classifyTaskType order description).1 = mostCounted (matchCount description) order := by
  rw [classifyTaskType, mostCounted]
  cases Selection.maxByKey (matchCount description)
    (order.filter fun type => 0 < matchCount description type) <;> rfl

theorem prepared_classified_eq (order : List TaskType) (description : String) :
    Worktree.classifyTaskType order description = mostCounted (preparedCount description) order := by
  rw [mostCounted, ← maxByKey_eq]
  rfl

/-- One type wins by the keywords of both. -/
def SameWinner (description : String) : Prop :=
  ∃ t, Wins (matchCount description) t ∧ Wins (preparedCount description) t

theorem sameWinner_iff {description : String} :
    (∀ order order' : List TaskType, order.Perm taskTypes → order'.Perm taskTypes →
      (classifyTaskType order description).1 = Worktree.classifyTaskType order' description) ↔
      SameWinner description := by
  simp only [classified_eq, prepared_classified_eq]
  constructor
  · intro same
    refine ⟨mostCounted (matchCount description) taskTypes, ?_, ?_⟩
    · apply mostCounted_stable_iff.mp
      intro order all
      rw [same order taskTypes all (List.Perm.refl _), same taskTypes taskTypes (List.Perm.refl _) (List.Perm.refl _)]
    · apply mostCounted_stable_iff.mp
      intro order all
      exact (same taskTypes order (List.Perm.refl _) all).symm
  · intro both order order' all all'
    obtain ⟨t, announced, prepared⟩ := both
    rw [mostCounted_stable_iff.mpr announced order all, mostCounted_stable_iff.mpr prepared order' all']

end

/-! ## The names -/

/-- The prefix of a type is its name. -/
def defaultTaskTypePrefixes : AList fun _ : String => String :=
  ((((((AList.insert "feature" "feature" ∅).insert "bugfix" "bugfix").insert "refactor" "refactor").insert
    "docs" "docs").insert "test" "test").insert "chore" "chore").insert "hotfix" "hotfix"

def defaultGitFlowConfig : GitFlowConfig := { taskTypePrefixes := defaultTaskTypePrefixes }

theorem defaultPrefix (t : TaskType) :
    defaultGitFlowConfig.getPrefixForType t.branchPrefix = t.branchPrefix := by
  cases t <;> decide

theorem branchPrefix_injective {t u : TaskType} (same : t.branchPrefix = u.branchPrefix) : t = u := by
  cases t <;> cases u <;> first | rfl | exact absurd same (by decide)

theorem noSlash (t : TaskType) : '/' ∉ t.branchPrefix.toList := by
  cases t <;> decide

theorem prefix_split {t u : TaskType} {x y : String}
    (same : t.branchPrefix ++ "/" ++ x = u.branchPrefix ++ "/" ++ y) : t = u ∧ x = y := by
  have chars := congrArg String.toList same
  rw [String.toList_append, String.toList_append, String.toList_append, String.toList_append,
    List.append_assoc, List.append_assoc] at chars
  obtain ⟨front, back⟩ := Substitution.split_unique (noSlash t) (noSlash u) chars
  exact ⟨branchPrefix_injective (String.toList_inj.mp front), String.toList_inj.mp back⟩

/-- The announced name always has a slash behind the id. -/
theorem names_alike_iff {t u : TaskType} {taskId s s' : String} :
    t.branchPrefix ++ "/" ++ taskId ++ "/" ++ s =
        (if s' = "" then u.branchPrefix ++ "/" ++ taskId else u.branchPrefix ++ "/" ++ taskId ++ "/" ++ s') ↔
      t = u ∧ s = s' ∧ s' ≠ "" := by
  constructor
  · intro same
    split at same
    · have whole : t.branchPrefix ++ "/" ++ (taskId ++ "/" ++ s) = u.branchPrefix ++ "/" ++ taskId := by
        rw [← same]
        simp only [String.append_assoc]
      have long := congrArg String.length (prefix_split whole).2
      rw [String.length_append, String.length_append] at long
      have slash : "/".length = 1 := rfl
      omega
    · next something =>
        have whole : t.branchPrefix ++ "/" ++ (taskId ++ "/" ++ s) =
            u.branchPrefix ++ "/" ++ (taskId ++ "/" ++ s') := by
          simpa only [String.append_assoc] using same
        obtain ⟨types, ends⟩ := prefix_split whole
        obtain rfl := (String.append_right_inj _).mp ends
        exact ⟨types, rfl, something⟩
  · intro given
    obtain ⟨rfl, rfl, something⟩ := given
    rw [if_neg something]

section

variable [Unicode]

/-- The announced branch is the one that is created, whatever the orders of the two maps. -/
def BranchesAgree (taskId description : String) : Prop :=
  ∀ order order' createdAt, order.Perm taskTypes → order'.Perm taskTypes →
    (TaskMetadata.new order taskId description createdAt).branchName =
      (TaskPreparationMeta.new order' taskId description defaultGitFlowConfig).branchName

/-- One type wins by both tables of keywords, a word is left of the summary, and it is cut alike. -/
theorem branches_agree_iff (lowers : LeavesNoCapital) (taskId description : String) :
    BranchesAgree taskId description ↔
      SameWinner description ∧ HasWord description ∧ CutAlike (generateSummary description) := by
  have word : sanitizeBranchDescription (generateSummary description) ≠ "" ↔ HasWord description := by
    rw [HasWord, ne_eq, ← String.toList_eq_nil_iff, sanitize_eq_nil_iff lowers]
    simp
  have names (order order' : List TaskType) (createdAt : String) :
      (TaskMetadata.new order taskId description createdAt).branchName =
          (TaskPreparationMeta.new order' taskId description defaultGitFlowConfig).branchName ↔
        (classifyTaskType order description).1 = Worktree.classifyTaskType order' description ∧
          sanitizeBranchDescription (generateSummary description) =
            Worktree.sanitizeBranchDescription (generateSummary description) ∧
          Worktree.sanitizeBranchDescription (generateSummary description) ≠ "" := by
    rw [← @names_alike_iff _ _ taskId, ← defaultPrefix (Worktree.classifyTaskType order' description)]
    rfl
  simp only [BranchesAgree, names]
  rw [← sameWinner_iff, ← word, ← sanitized_alike_iff lowers]
  constructor
  · intro agree
    obtain ⟨-, cut, something⟩ := agree taskTypes taskTypes "" (List.Perm.refl _) (List.Perm.refl _)
    exact ⟨fun order order' all all' => (agree order order' "" all all').1, cut ▸ something, cut⟩
  · intro given order order' createdAt all all'
    obtain ⟨types, something, cut⟩ := given
    exact ⟨types order order' all all', cut, cut ▸ something⟩

end

section

local instance loweredAscii : Unicode := asciiLowered

theorem wins_alone {count : TaskType → Nat} {t : TaskType} (positive : 0 < count t)
    (others : ∀ u, u ≠ t → count u = 0) : Wins count t := by
  refine .inl ⟨positive, ?_⟩
  intro u other
  rw [others u other]
  exact positive

theorem add_login_agrees : BranchesAgree "PROJ-123" "Add login" := by
  refine (branches_agree_iff asciiLowered_lowers _ _).mpr ⟨⟨.feature, ?_, ?_⟩, ⟨'a', ?_⟩, .inl ?_⟩
  · refine wins_alone (by decide +kernel) fun u other => ?_
    cases u with
    | feature => exact absurd rfl other
    | _ => decide +kernel
  · refine wins_alone (by decide +kernel) fun u other => ?_
    cases u with
    | feature => exact absurd rfl other
    | _ => decide +kernel
  · exact ⟨by decide +kernel, by decide⟩
  · decide +kernel

/-- `patch` is a keyword of one table only. -/
theorem patch_disagrees : ¬ ∀ [Unicode], LeavesNoCapital → ∀ taskId description,
    BranchesAgree taskId description := by
  intro always
  have same := @always asciiLowered asciiLowered_lowers "PROJ-123" "Patch the login" taskTypes taskTypes ""
    (List.Perm.refl _) (List.Perm.refl _)
  exact absurd same (by decide +kernel)

end

end AgileAgent.Decision
