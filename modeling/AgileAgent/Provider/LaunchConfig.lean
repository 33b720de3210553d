import Mathlib.Data.Finmap
import Mathlib.Data.List.TakeWhile
import AgileAgent.Core.Loop.AppState
import AgileAgent.Decision.Text

/-! # Launch configurations

What the text of a launch configuration is taken for: lines of environment variables, or a command with
variables in front of it. The splitting of a text into shell words is a parameter.
-/

namespace AgileAgent.Provider

open Core.Loop (ProviderKind)
open Decision (textLines)
open DecisionDsl (isWhitespace trim)

/-- The `shlex` crate. -/
class Shlex where
  split : String → Option (List String)

inductive LaunchSourceMode where
  | hostDefault
  | envOnly
  | commandFragment
  deriving DecidableEq

inductive LaunchSourceOrigin where
  | manual
  | template
  | hostDefault
  deriving DecidableEq

/-- A map from the names of variables to their values. -/
abbrev EnvMap := Finmap fun _ : String => String

structure LaunchInputSpec where
  provider : ProviderKind
  sourceMode : LaunchSourceMode := .hostDefault
  sourceOrigin : LaunchSourceOrigin := .hostDefault
  rawText : Option String := none
  envOverrides : EnvMap := ∅
  requestedExecutable : Option String := none
  extraArgs : List String := []
  templateId : Option String := none

inductive ParseError where
  | emptyInput
  | emptyKey
  | invalidKeyFormat (key : String)
  | noExecutableFound
  | inputTooLong (max actual : Nat)
  | tooManyEnvVars (max actual : Nat)
  | lineTooLong (max actual line : Nat)
  deriving DecidableEq

def maxLineLength : Nat := 4096

def maxInputLength : Nat := 64 * 1024

def maxEnvVars : Nat := 100

/-! ## Assignments -/

def isValidKey (key : String) : Bool :=
  match key.toList with
  | [] => false
  | c :: rest => (c.isAlpha || c == '_') && rest.all fun c => c.isAlphanum || c == '_'

/-- A text on both sides of its first `=`. -/
def splitAtEq (s : String) : Option (String × String) :=
  match s.toList.dropWhile (· ≠ '=') with
  | [] => none
  | _ :: value => some (String.ofList (s.toList.takeWhile (· ≠ '=')), String.ofList value)

section

variable [Shlex]

def detectSourceMode (input : String) : LaunchSourceMode :=
  let trimmed := trim input
  if trimmed = "" then .hostDefault
  else match Shlex.split trimmed with
    | none => .commandFragment
    | some [] => .hostDefault
    | some tokens =>
        if tokens.all fun token => (splitAtEq token).any fun (key, _) => isValidKey key then .envOnly
        else .commandFragment

end

/-! ## Lines of variables -/

/-- One line, with its number. -/
def envLine (env : EnvMap) (numbered : String × Nat) : Except ParseError EnvMap :=
  let line := trim numbered.1
  if line = "" then .ok env
  else if maxLineLength < line.utf8ByteSize then
    .error (.lineTooLong maxLineLength line.utf8ByteSize numbered.2)
  else match splitAtEq line with
    | none => .ok env
    | some (key, value) =>
        if key = "" then .error .emptyKey
        else if !isValidKey key then .error (.invalidKeyFormat key)
        else if maxEnvVars ≤ env.keys.card then .error (.tooManyEnvVars maxEnvVars (env.keys.card + 1))
        else .ok (env.insert key value)

def parseEnvOnly (provider : ProviderKind) (input : String) : Except ParseError LaunchInputSpec :=
  let trimmed := trim input
  if trimmed = "" then .error .emptyInput
  else if maxInputLength < trimmed.utf8ByteSize then
    .error (.inputTooLong maxInputLength trimmed.utf8ByteSize)
  else do
    let envOverrides ← (textLines trimmed).zipIdx.foldlM envLine ∅
    if envOverrides.keys = ∅ then throw .emptyInput
    return { provider, sourceMode := .envOnly, sourceOrigin := .manual, rawText := some trimmed, envOverrides }

/-! ## Commands -/

/-- What the tokens read so far come to. -/
structure Fragment where
  envOverrides : EnvMap := ∅
  executable : Option String := none
  extraArgs : List String := []

/-- The assignment that a token is taken for. -/
def envToken (token : String) : Option (String × String) :=
  (splitAtEq token).filter fun (key, value) => isValidKey key && value ≠ ""

def fragmentToken (f : Fragment) (token : String) : Except ParseError Fragment :=
  match envToken token, f.executable with
  | some (key, value), _ => .ok { f with envOverrides := f.envOverrides.insert key value }
  | none, none =>
      if token.toList.head? = some '=' then .error (.invalidKeyFormat ("invalid token: " ++ token))
      else .ok { f with executable := some token }
  | none, some _ => .ok { f with extraArgs := f.extraArgs ++ [token] }

section

variable [Shlex]

def parseCommandFragment (provider : ProviderKind) (input : String) : Except ParseError LaunchInputSpec :=
  let trimmed := trim input
  if trimmed = "" then .error .emptyInput
  else if maxInputLength < trimmed.utf8ByteSize then
    .error (.inputTooLong maxInputLength trimmed.utf8ByteSize)
  else match Shlex.split trimmed with
    | none => .error (.invalidKeyFormat "failed to tokenize command fragment")
    | some [] => .error .emptyInput
    | some tokens => do
        let f ← tokens.foldlM fragmentToken {}
        let some requestedExecutable := f.executable | throw .noExecutableFound
        return { provider, sourceMode := .commandFragment, sourceOrigin := .manual, rawText := some trimmed,
                 envOverrides := f.envOverrides, requestedExecutable := some requestedExecutable,
                 extraArgs := f.extraArgs }

def parse (provider : ProviderKind) (input : String) : Except ParseError LaunchInputSpec :=
  match detectSourceMode (trim input) with
  | .envOnly => parseEnvOnly provider input
  | .commandFragment => parseCommandFragment provider input
  | .hostDefault => .ok { provider }

end

/-! ## Assignments and their tokens -/

/-- A variable with a name that can be set. -/
structure Assignment where
  key : String
  value : String
  valid : isValidKey key = true

def Assignment.token (a : Assignment) : String := a.key ++ "=" ++ a.value

theorem eq_not_mem_of_isValidKey {key : String} (valid : isValidKey key = true) : '=' ∉ key.toList := by
  unfold isValidKey at valid
  cases chars : key.toList with
  | nil => exact List.not_mem_nil
  | cons c rest =>
      rw [chars] at valid
      simp only [Bool.and_eq_true, List.all_eq_true] at valid
      rw [List.mem_cons, not_or]
      refine ⟨?_, fun member => absurd (valid.2 _ member) (by decide)⟩
      rintro rfl
      exact absurd valid.1 (by decide)

theorem splitAtEq_of_not_mem {key value : List Char} (absent : '=' ∉ key) :
    splitAtEq (String.ofList (key ++ '=' :: value)) = some (String.ofList key, String.ofList value) := by
  have before : ∀ c ∈ key, decide (c ≠ '=') = true := fun c member =>
    decide_eq_true fun same => absent (same ▸ member)
  rw [splitAtEq, String.toList_ofList, List.dropWhile_append_of_pos before, List.takeWhile_append_of_pos before]
  simp

theorem splitAtEq_eq_some {s key value : String} :
    splitAtEq s = some (key, value) ↔ s = key ++ "=" ++ value ∧ '=' ∉ key.toList := by
  constructor
  · intro found
    unfold splitAtEq at found
    split at found
    · cases found
    · next c behind rest =>
        cases found
        have stop : c = '=' := by
          have head := List.head?_dropWhile_not (fun c => decide (c ≠ '=')) s.toList
          rw [rest] at head
          simpa using head
        have whole := List.takeWhile_append_dropWhile (p := fun c => decide (c ≠ '=')) (l := s.toList)
        rw [rest, stop] at whole
        constructor
        · rw [← String.toList_inj, String.toList_append, String.toList_append]
          simpa using whole.symm
        · rw [String.toList_ofList]
          intro member
          simpa using List.mem_takeWhile_imp member
  · rintro ⟨rfl, absent⟩
    have parts : key ++ "=" ++ value = String.ofList (key.toList ++ '=' :: value.toList) := by
      rw [← String.toList_inj]
      simp
    rw [parts, splitAtEq_of_not_mem absent, String.ofList_toList, String.ofList_toList]

theorem splitAtEq_token (a : Assignment) : splitAtEq a.token = some (a.key, a.value) :=
  splitAtEq_eq_some.mpr ⟨rfl, eq_not_mem_of_isValidKey a.valid⟩

theorem splitAtEq_eq_none {s : String} : splitAtEq s = none ↔ '=' ∉ s.toList := by
  unfold splitAtEq
  split
  · next none =>
      rw [List.dropWhile_eq_nil_iff] at none
      refine iff_of_true rfl fun member => ?_
      simpa using none _ member
  · next c behind rest =>
      refine iff_of_false (by simp) fun absent => ?_
      have none : s.toList.dropWhile (· ≠ '=') = [] :=
        List.dropWhile_eq_nil_iff.mpr fun c member => decide_eq_true fun same => absent (same ▸ member)
      rw [none] at rest
      cases rest

theorem envToken_eq_some {token key value : String} :
    envToken token = some (key, value) ↔ token = key ++ "=" ++ value ∧ isValidKey key ∧ value ≠ "" := by
  rw [envToken, Option.filter_eq_some_iff, splitAtEq_eq_some]
  simp only [Bool.and_eq_true, decide_eq_true_eq]
  constructor
  · rintro ⟨⟨whole, -⟩, valid, filled⟩
    exact ⟨whole, valid, filled⟩
  · rintro ⟨whole, valid, filled⟩
    exact ⟨⟨whole, eq_not_mem_of_isValidKey valid⟩, valid, filled⟩

/-- The token of an assignment is taken for one unless the value is empty. -/
theorem envToken_token (a : Assignment) :
    envToken a.token = if a.value = "" then none else some (a.key, a.value) := by
  rw [envToken, splitAtEq_token]
  by_cases empty : a.value = "" <;> simp [empty, a.valid]

/-! ## Maps from pairs -/

def insertAll (env : EnvMap) (pairs : List (String × String)) : EnvMap :=
  pairs.foldl (fun env pair => env.insert pair.1 pair.2) env

/-- The last of the values that are given to a name. -/
def lastValue (pairs : List (String × String)) (key : String) : Option String := pairs.reverse.lookup key

theorem lastValue_concat (pairs : List (String × String)) (key value name : String) :
    lastValue (pairs ++ [(key, value)]) name = if name = key then some value else lastValue pairs name := by
  rw [lastValue, List.reverse_append, List.reverse_singleton, List.singleton_append, List.lookup_cons]
  by_cases same : name = key
  · rw [if_pos same, beq_iff_eq.mpr same]
  · rw [if_neg same, beq_false_of_ne same, lastValue]

theorem lookup_insertAll (pairs : List (String × String)) (name : String) :
    (insertAll ∅ pairs).lookup name = lastValue pairs name := by
  induction pairs using List.reverseRecOn with
  | nil => exact Finmap.lookup_empty name
  | append_singleton pairs pair ih =>
      obtain ⟨key, value⟩ := pair
      rw [lastValue_concat, insertAll, List.foldl_concat]
      by_cases same : name = key
      · rw [if_pos same, same, Finmap.lookup_insert]
      · rw [if_neg same, Finmap.lookup_insert_of_ne _ same]
        exact ih

/-! ## The words of a command -/

section

variable {f : Fragment} {token : String} {tokens : List String}

theorem fragmentToken_taken {key value : String} (taken : envToken token = some (key, value)) :
    fragmentToken f token = .ok { f with envOverrides := f.envOverrides.insert key value } := by
  rw [fragmentToken, taken]

theorem fragmentToken_argument {executable : String} (left : envToken token = none)
    (known : f.executable = some executable) :
    fragmentToken f token = .ok { f with extraArgs := f.extraArgs ++ [token] } := by
  rw [fragmentToken, left, known]

theorem fragmentToken_executable (left : envToken token = none) (unknown : f.executable = none) :
    fragmentToken f token = if token.toList.head? = some '='
      then .error (.invalidKeyFormat ("invalid token: " ++ token)) else .ok { f with executable := some token } := by
  rw [fragmentToken, left, unknown]

/-- The tokens that are not taken for assignments. -/
def words (tokens : List String) : List String := tokens.filter fun token => (envToken token).isNone

/-- What the tokens behind the executable come to. -/
theorem foldlM_behind {executable : String} (known : f.executable = some executable) :
    tokens.foldlM fragmentToken f = .ok { f with
      envOverrides := insertAll f.envOverrides (tokens.filterMap envToken)
      extraArgs := f.extraArgs ++ words tokens } := by
  induction tokens generalizing f with
  | nil => simp [insertAll, words, pure, Except.pure]
  | cons token rest ih =>
      rw [List.foldlM_cons, words]
      cases taken : envToken token with
      | some pair =>
          rw [fragmentToken_taken taken, List.filterMap_cons_some taken, List.filter_cons_of_neg (by simp [taken])]
          exact ih known
      | none =>
          rw [fragmentToken_argument taken known, List.filterMap_cons_none taken,
            List.filter_cons_of_pos (by simp [taken])]
          refine (ih (f := { f with extraArgs := f.extraArgs ++ [token] }) known).trans ?_
          rw [List.append_assoc]
          rfl

/-- What all of the tokens come to: the first word is the executable, the others are its arguments. -/
theorem foldlM_fragmentToken (unknown : f.executable = none) (noArgs : f.extraArgs = []) :
    tokens.foldlM fragmentToken f =
      match words tokens with
      | [] => .ok { f with envOverrides := insertAll f.envOverrides (tokens.filterMap envToken) }
      | executable :: args =>
          if executable.toList.head? = some '=' then
            .error (.invalidKeyFormat ("invalid token: " ++ executable))
          else .ok ⟨insertAll f.envOverrides (tokens.filterMap envToken), some executable, args⟩ := by
  induction tokens generalizing f with
  | nil => rfl
  | cons token rest ih =>
      rw [List.foldlM_cons]
      cases taken : envToken token with
      | some pair =>
          have other : words (token :: rest) = words rest := List.filter_cons_of_neg (by simp [taken])
          rw [fragmentToken_taken taken, List.filterMap_cons_some taken, other]
          exact ih unknown noArgs
      | none =>
          have first : words (token :: rest) = token :: words rest := List.filter_cons_of_pos (by simp [taken])
          rw [fragmentToken_executable taken unknown, List.filterMap_cons_none taken, first]
          by_cases malformed : token.toList.head? = some '='
          · simp only [malformed, if_true]
            rfl
          · simp only [malformed, if_false]
            refine (foldlM_behind rfl).trans ?_
            rw [noArgs, List.nil_append]

end

/-! ## Commands that are written down -/

/-- The token has the form of an assignment, possibly of nothing. -/
def IsAssignment (token : String) : Prop := ∃ a : Assignment, token = a.token

/-- The outcome is the command that was written down. -/
def Reproduces (outcome : Except ParseError LaunchInputSpec) (assignments : List Assignment)
    (executable : String) (args : List String) : Prop :=
  ∃ spec, outcome = .ok spec ∧ spec.requestedExecutable = some executable ∧ spec.extraArgs = args ∧
    ∀ key, spec.envOverrides.lookup key = lastValue (assignments.map fun a => (a.key, a.value)) key

section

variable [Shlex]

/-- The outcome for a text that the shell splits. -/
theorem parseCommandFragment_split {provider : ProviderKind} {text : String} {tokens : List String}
    (written : Shlex.split (trim text) = some tokens) (something : trim text ≠ "")
    (fits : (trim text).utf8ByteSize ≤ maxInputLength) (nonempty : tokens ≠ []) :
    parseCommandFragment provider text =
      match words tokens with
      | [] => .error .noExecutableFound
      | executable :: args =>
          if executable.toList.head? = some '=' then
            .error (.invalidKeyFormat ("invalid token: " ++ executable))
          else .ok { provider, sourceMode := .commandFragment, sourceOrigin := .manual,
                     rawText := some (trim text), envOverrides := insertAll ∅ (tokens.filterMap envToken),
                     requestedExecutable := some executable, extraArgs := args } := by
  rw [parseCommandFragment]
  simp only [something, if_false, Nat.not_lt.mpr fits, written]
  cases tokens with
  | nil => exact absurd rfl nonempty
  | cons token rest =>
      simp only [@foldlM_fragmentToken {} (token :: rest) rfl rfl]
      cases words (token :: rest) with
      | nil => rfl
      | cons executable args =>
          by_cases malformed : executable.toList.head? = some '='
          · simp only [malformed, if_true]
            rfl
          · simp only [malformed, if_false]
            rfl

end

theorem envToken_of_not_isAssignment {token : String} (other : ¬ IsAssignment token) : envToken token = none := by
  cases taken : envToken token with
  | none => rfl
  | some pair =>
      obtain ⟨key, value⟩ := pair
      obtain ⟨whole, valid, -⟩ := envToken_eq_some.mp taken
      exact absurd ⟨⟨key, value, valid⟩, whole⟩ other

theorem envToken_isSome_iff {token : String} :
    (envToken token).isSome ↔ ∃ a : Assignment, a.value ≠ "" ∧ token = a.token := by
  rw [Option.isSome_iff_exists]
  constructor
  · rintro ⟨⟨key, value⟩, taken⟩
    obtain ⟨whole, valid, filled⟩ := envToken_eq_some.mp taken
    exact ⟨⟨key, value, valid⟩, filled, whole⟩
  · rintro ⟨a, filled, rfl⟩
    exact ⟨(a.key, a.value), by rw [envToken_token, if_neg filled]⟩

/-- The words of a command are its executable and its arguments exactly if all of its assignments are taken
    and none of its arguments is. -/
theorem words_eq_iff {assignments : List Assignment} {executable : String} {args : List String}
    (notAssignment : ¬ IsAssignment executable) :
    words (assignments.map Assignment.token ++ executable :: args) = executable :: args ↔
      (∀ a ∈ assignments, a.value ≠ "") ∧ ∀ arg ∈ args, envToken arg = none := by
  have first : (executable :: args).filter (fun token => (envToken token).isNone) =
      executable :: args.filter fun token => (envToken token).isNone :=
    List.filter_cons_of_pos (by rw [envToken_of_not_isAssignment notAssignment]; rfl)
  rw [words, List.filter_append, first]
  constructor
  · intro same
    have none : (assignments.map Assignment.token).filter (fun token => (envToken token).isNone) = [] := by
      cases left : (assignments.map Assignment.token).filter (fun token => (envToken token).isNone) with
      | nil => rfl
      | cons token rest =>
          rw [left] at same
          obtain rfl := (List.cons.inj same).1
          have member : token ∈ assignments.map Assignment.token :=
            List.mem_of_mem_filter (left ▸ List.mem_cons_self)
          obtain ⟨a, -, same⟩ := List.mem_map.mp member
          exact absurd ⟨a, same.symm⟩ notAssignment
    rw [none, List.nil_append] at same
    constructor
    · intro a member empty
      have gone := List.filter_eq_nil_iff.mp none a.token (List.mem_map_of_mem member)
      rw [envToken_token, if_pos empty] at gone
      exact gone rfl
    · intro arg member
      have all := List.filter_eq_self.mp (List.cons.inj same).2 arg member
      exact Option.isNone_iff_eq_none.mp all
  · rintro ⟨filled, left⟩
    have none : (assignments.map Assignment.token).filter (fun token => (envToken token).isNone) = [] := by
      rw [List.filter_eq_nil_iff]
      intro token member
      obtain ⟨a, inside, rfl⟩ := List.mem_map.mp member
      rw [envToken_token, if_neg (filled a inside)]
      exact Bool.false_ne_true
    rw [none, List.nil_append]
    congr 1
    exact List.filter_eq_self.mpr fun arg member => by rw [left arg member]; rfl

theorem filterMap_envToken {assignments : List Assignment} {executable : String} {args : List String}
    (notAssignment : ¬ IsAssignment executable) (filled : ∀ a ∈ assignments, a.value ≠ "")
    (left : ∀ arg ∈ args, envToken arg = none) :
    (assignments.map Assignment.token ++ executable :: args).filterMap envToken =
      assignments.map fun a => (a.key, a.value) := by
  rw [List.filterMap_append, List.filterMap_cons_none (envToken_of_not_isAssignment notAssignment),
    List.filterMap_eq_nil_iff.mpr left, List.append_nil, List.filterMap_map]
  induction assignments with
  | nil => rfl
  | cons a rest ih =>
      have taken : (envToken ∘ Assignment.token) a = some (a.key, a.value) := by
        rw [Function.comp_apply, envToken_token, if_neg (filled a List.mem_cons_self)]
      rw [List.filterMap_cons_some taken, List.map_cons,
        ih fun other member => filled other (List.mem_cons_of_mem a member)]

section

variable [Shlex]

/-- A command comes out as it was written down exactly if no value is empty, no argument sets a variable and
    the executable does not start with `=`. -/
theorem command_reproduced_iff {provider : ProviderKind} {text executable : String}
    {assignments : List Assignment} {args : List String} (notAssignment : ¬ IsAssignment executable)
    (written : Shlex.split (trim text) = some (assignments.map Assignment.token ++ executable :: args))
    (something : trim text ≠ "") (fits : (trim text).utf8ByteSize ≤ maxInputLength) :
    Reproduces (parseCommandFragment provider text) assignments executable args ↔
      (∀ a ∈ assignments, a.value ≠ "") ∧ executable.toList.head? ≠ some '=' ∧
        ∀ arg ∈ args, ¬ ∃ a : Assignment, a.value ≠ "" ∧ arg = a.token := by
  have free (arg : String) : (¬ ∃ a : Assignment, a.value ≠ "" ∧ arg = a.token) ↔ envToken arg = none := by
    rw [← envToken_isSome_iff, Bool.not_eq_true, Option.isSome_eq_false_iff, Option.isNone_iff_eq_none]
  simp only [free]
  rw [Reproduces, parseCommandFragment_split written something fits (by simp)]
  constructor
  · rintro ⟨spec, outcome, sameExecutable, sameArgs, -⟩
    split at outcome
    · cases outcome
    · next first rest inside =>
        split at outcome
        · cases outcome
        · next wellFormed =>
            cases outcome
            cases sameExecutable
            obtain rfl : rest = args := sameArgs
            obtain ⟨filled, left⟩ := (words_eq_iff notAssignment).mp inside
            exact ⟨filled, wellFormed, left⟩
  · rintro ⟨filled, wellFormed, left⟩
    rw [(words_eq_iff notAssignment).mpr ⟨filled, left⟩]
    simp only [wellFormed, if_false]
    refine ⟨_, rfl, rfl, rfl, fun key => ?_⟩
    rw [filterMap_envToken notAssignment filled left, lookup_insertAll]

end

/-- The shell on two commands of plain words. -/
@[reducible] def sampleShlex : Shlex where
  split text := [("MODEL=opus claude --flag", ["MODEL=opus", "claude", "--flag"]),
    ("claude -c model=x", ["claude", "-c", "model=x"])].lookup text

theorem not_isAssignment {token : String} (noEq : splitAtEq token = none) : ¬ IsAssignment token := by
  rintro ⟨a, rfl⟩
  rw [splitAtEq_token] at noEq
  cases noEq

theorem claude_not_isAssignment : ¬ IsAssignment "claude" := not_isAssignment (by decide)

theorem flag_reproduced : Reproduces (@parseCommandFragment sampleShlex .claude "MODEL=opus claude --flag")
    [⟨"MODEL", "opus", by decide⟩] "claude" ["--flag"] := by
  refine (@command_reproduced_iff sampleShlex _ _ _ _ _ claude_not_isAssignment (by decide +kernel)
    (by decide +kernel) (by decide +kernel)).mpr ⟨by decide, by decide, ?_⟩
  rw [List.forall_mem_singleton]
  rintro ⟨a, -, same⟩
  exact not_isAssignment (by decide) ⟨a, same⟩

/-- The setting behind `-c` goes into the environment. -/
theorem setting_taken : ¬ ∀ [Shlex] (provider : ProviderKind) (text executable : String)
    (assignments : List Assignment) (args : List String), ¬ IsAssignment executable →
    Shlex.split (trim text) = some (assignments.map Assignment.token ++ executable :: args) →
    trim text ≠ "" → (trim text).utf8ByteSize ≤ maxInputLength →
    Reproduces (parseCommandFragment provider text) assignments executable args := by
  intro always
  obtain ⟨spec, outcome, -, args, -⟩ := @always sampleShlex .claude "claude -c model=x" "claude" []
    ["-c", "model=x"] claude_not_isAssignment (by decide +kernel) (by decide +kernel) (by decide +kernel)
  have split : @Shlex.split sampleShlex (trim "claude -c model=x") = some ["claude", "-c", "model=x"] := by
    decide +kernel
  rw [@parseCommandFragment_split sampleShlex _ _ _ split (by decide +kernel) (by decide +kernel) (by decide)] at outcome
  have inside : words ["claude", "-c", "model=x"] = ["claude", "-c"] := by decide
  rw [inside] at outcome
  cases outcome
  cases args

end AgileAgent.Provider
