import Mathlib.Data.Fintype.Card
import Mathlib.Logic.Relation
import AgileAgent.Decision.Text
import AgileAgent.Numeral

/-! # Ahead and behind

Two implementations ask git how far a branch and its base are apart, and both name the base first. Git
counts what only the first revision reaches before what only the second does, so what both call ahead
is what the branch is behind.
-/

namespace AgileAgent.Decision

open DecisionDsl (isWhitespace trim)

/-- What git answers: whether `rev-parse --verify` finds a revision, and what
    `rev-list --left-right --count` prints for two of them. -/
structure RevGit where
  verifies : String → Bool
  leftRightCount : String → String → Option String

/-- The revision to compare with. -/
def getBaseRev (git : RevGit) (baseBranch : String) : String :=
  if git.verifies ("origin/" ++ baseBranch) then "origin/" ++ baseBranch
  else if git.verifies baseBranch then baseBranch
  else "HEAD"

/-- `str::parse::<usize>` of a part, or 0. -/
def countOf (part : List Char) : Nat := (Numeral.parse (2 ^ 64) part).getD 0

/-- `GitStateParser::parse_ahead_behind`. -/
def parseAheadBehind (output : String) : Nat × Nat :=
  match (trim output).toList.splitOn '\t' with
  | [ahead, behind] => (countOf ahead, countOf behind)
  | _ => (0, 0)

/-- `GitStateAnalyzer::get_ahead_behind`, as `analyze` takes it. -/
def getAheadBehind (git : RevGit) (baseBranch : String) : Nat × Nat :=
  ((git.leftRightCount (getBaseRev git baseBranch) "HEAD").map parseAheadBehind).getD (0, 0)

structure AheadBehindCount where
  ahead : Nat
  behind : Nat
  deriving Repr, DecidableEq

/-- `WorktreeManager::get_ahead_behind_count`. -/
def getAheadBehindCount (git : RevGit) (baseBranch : String) : AheadBehindCount :=
  match git.leftRightCount (getBaseRev git baseBranch) "HEAD" with
  | none => ⟨0, 0⟩
  | some output =>
      let parts := (trim output).toList.splitOn '\t'
      { ahead := (parts[0]?.map countOf).getD 0, behind := (parts[1]?.map countOf).getD 0 }

/-! ## The commit graph -/

/-- Commits with their parents, what is checked out and the other names of commits. -/
structure CommitGraph (C : Type) where
  parents : C → List C
  head : C
  refs : String → Option C

namespace CommitGraph

variable {C : Type} [Fintype C] (g : CommitGraph C)

def resolve (rev : String) : Option C := if rev = "HEAD" then some g.head else g.refs rev

/-- A commit or one that it goes back to. -/
def Reachable (start c : C) : Prop := Relation.ReflTransGen (fun x y => y ∈ g.parents x) start c

open Classical in
/-- The number of commits that one reaches and another does not. -/
noncomputable def onlyFrom (start other : C) : Nat :=
  (Finset.univ.filter fun c => g.Reachable start c ∧ ¬ g.Reachable other c).card

theorem onlyFrom_pos_iff (start other : C) :
    0 < g.onlyFrom start other ↔ ∃ c, g.Reachable start c ∧ ¬ g.Reachable other c := by
  classical
  rw [onlyFrom, Finset.card_pos, Finset.Nonempty]
  simp only [Finset.mem_filter, Finset.mem_univ, true_and]

/-- What git answers about the graph. -/
noncomputable def git : RevGit where
  verifies rev := (g.resolve rev).isSome
  leftRightCount left right :=
    (g.resolve left).bind fun a => (g.resolve right).map fun b =>
      toString (g.onlyFrom a b) ++ "\t" ++ toString (g.onlyFrom b a) ++ "\n"

/-- The base of a branch: at the origin, or here, or the branch itself. -/
def base (baseBranch : String) : C :=
  ((g.resolve ("origin/" ++ baseBranch)).or (g.resolve baseBranch)).getD g.head

noncomputable def ahead (baseBranch : String) : Nat := g.onlyFrom g.head (g.base baseBranch)

noncomputable def behind (baseBranch : String) : Nat := g.onlyFrom (g.base baseBranch) g.head

theorem resolve_baseRev (baseBranch : String) :
    g.resolve (getBaseRev g.git baseBranch) = some (g.base baseBranch) := by
  have verified (rev : String) : g.git.verifies rev = (g.resolve rev).isSome := rfl
  rw [getBaseRev, base, verified, verified]
  cases origin : g.resolve ("origin/" ++ baseBranch) with
  | some c => exact origin
  | none =>
      cases here : g.resolve baseBranch with
      | some c => exact here
      | none => exact if_pos rfl

/-- Git prints the side of the base first. -/
theorem counted (baseBranch : String) :
    g.git.leftRightCount (getBaseRev g.git baseBranch) "HEAD" =
      some (toString (g.behind baseBranch) ++ "\t" ++ toString (g.ahead baseBranch) ++ "\n") := by
  have head : g.resolve "HEAD" = some g.head := if_pos rfl
  change (g.resolve (getBaseRev g.git baseBranch)).bind _ = _
  rw [resolve_baseRev, head]
  rfl

end CommitGraph

/-! ## Reading the counts -/

/-- A count that does not fit is read as none. -/
theorem countOf_padded (n : Nat) : countOf (Numeral.padded 0 n) = if n < 2 ^ 64 then n else 0 := by
  rw [countOf, Numeral.parse_padded]
  split <;> rfl

theorem digit_inner {n : Nat} {c : Char} (member : c ∈ Numeral.padded 0 n) :
    isWhitespace c = false ∧ (c == '\t') = false := by
  have digit := Char.isDigit_iff_toNat.mp (Numeral.isDigit_of_mem_padded member)
  have low : 48 ≤ c.toNat := digit.1
  have high : c.toNat ≤ 57 := digit.2
  constructor
  · simp only [isWhitespace, Bool.or_eq_false_iff, Bool.and_eq_false_iff, decide_eq_false_iff_not,
      beq_eq_false_iff_ne]
    omega
  · rw [beq_eq_false_iff_ne]
    intro tab
    rw [tab] at low
    exact absurd low (by decide)

/-- The two counts of an output are its parts. -/
theorem parts_counted (left right : Nat) :
    (trim (toString left ++ "\t" ++ toString right ++ "\n")).toList.splitOn '\t' =
      [Numeral.padded 0 left, Numeral.padded 0 right] := by
  have written : toString left ++ "\t" ++ toString right ++ "\n" =
      String.ofList ((Numeral.padded 0 left ++ '\t' :: Numeral.padded 0 right) ++ ['\n']) := by
    rw [← String.toList_inj]
    simp [Numeral.padded]
  have notEmpty (n : Nat) : Numeral.padded 0 n ≠ [] := by simp [Numeral.padded]
  have first : ∀ c ∈ (Numeral.padded 0 left ++ '\t' :: Numeral.padded 0 right).head?,
      isWhitespace c = false := by
    intro c here
    rw [List.head?_append_of_ne_nil _ (notEmpty left)] at here
    exact (digit_inner (List.mem_of_mem_head? here)).1
  have last : ∀ c ∈ (Numeral.padded 0 left ++ '\t' :: Numeral.padded 0 right).getLast?,
      isWhitespace c = false := by
    intro c here
    rw [List.append_cons, List.getLast?_append_of_ne_nil _ (notEmpty right)] at here
    exact (digit_inner (List.mem_of_mem_getLast? here)).1
  rw [written, trim_line first last, String.toList_ofList, List.splitOn_eq_splitOnP,
    List.splitOnP_append_cons_of_forall_mem (fun c member => (digit_inner member).2) _ rfl,
    List.splitOnP_eq_singleton fun c member => (digit_inner member).2]

namespace CommitGraph

variable {C : Type} [Fintype C] (g : CommitGraph C)

/-- Both report the number of commits that only the branch reaches as ahead and the number that only
    the base reaches as behind. -/
def ReportsDistance (baseBranch : String) : Prop :=
  getAheadBehind g.git baseBranch = (g.ahead baseBranch, g.behind baseBranch) ∧
    getAheadBehindCount g.git baseBranch = ⟨g.ahead baseBranch, g.behind baseBranch⟩

/-- What both report. -/
theorem reported (baseBranch : String) :
    getAheadBehind g.git baseBranch =
        (countOf (Numeral.padded 0 (g.behind baseBranch)),
          countOf (Numeral.padded 0 (g.ahead baseBranch))) ∧
      getAheadBehindCount g.git baseBranch =
        ⟨countOf (Numeral.padded 0 (g.behind baseBranch)),
          countOf (Numeral.padded 0 (g.ahead baseBranch))⟩ := by
  have parts := parts_counted (g.behind baseBranch) (g.ahead baseBranch)
  constructor
  · rw [getAheadBehind, counted]
    simp only [Option.map_some, Option.getD_some, parseAheadBehind, parts]
  · rw [getAheadBehindCount, counted]
    simp only [parts]
    rfl

end CommitGraph

/-- One commit on top of the base. -/
def oneCommit : CommitGraph Bool where
  parents c := if c then [false] else []
  head := true
  refs rev := if rev = "main" then some false else none

theorem oneCommit_base : oneCommit.base "main" = false := by decide

theorem oneCommit_reaches {c : Bool} : oneCommit.Reachable false c ↔ c = false := by
  constructor
  · intro reached
    rcases Relation.ReflTransGen.cases_head reached with same | ⟨next, parent, -⟩
    · exact same.symm
    · exact absurd parent List.not_mem_nil
  · intro same
    rw [same]
    exact Relation.ReflTransGen.refl

theorem oneCommit_distance : oneCommit.behind "main" < oneCommit.ahead "main" := by
  have back : oneCommit.Reachable true false :=
    Relation.ReflTransGen.single (List.mem_singleton.mpr rfl)
  have one_ahead : 0 < oneCommit.ahead "main" := by
    rw [CommitGraph.ahead, CommitGraph.onlyFrom_pos_iff, oneCommit_base]
    refine ⟨true, Relation.ReflTransGen.refl, ?_⟩
    intro reached
    exact absurd (oneCommit_reaches.mp reached) (by decide)
  have none_behind : ¬ 0 < oneCommit.behind "main" := by
    rw [CommitGraph.behind, CommitGraph.onlyFrom_pos_iff, oneCommit_base]
    intro only
    obtain ⟨c, reached, notBack⟩ := only
    rw [oneCommit_reaches.mp reached] at notBack
    exact notBack back
  omega

end AgileAgent.Decision
