import AgileAgent.Provider.LaunchConfig

/-! # The two modes of a launch text

A text of variables is read line by line; followed by a program it is a command and read by the shell. When
both readings come to the same environment.
-/

namespace AgileAgent.Decision

open DecisionDsl (isWhitespace trim)

/-! ## Texts between blanks -/

/-- There is no white space at the ends, and something between them. -/
structure Trimmed (s : List Char) : Prop where
  nonempty : s ≠ []
  first : ∀ c ∈ s.head?, isWhitespace c = false
  last : ∀ c ∈ s.getLast?, isWhitespace c = false

theorem trim_between {s lead : List Char} (trail : List Char) (before : ∀ c ∈ lead, isWhitespace c) (trimmed : Trimmed s)
    (behind : ∀ c ∈ trail, isWhitespace c) : trim (String.ofList (lead ++ s ++ trail)) = String.ofList s := by
  have front : (lead ++ s ++ trail).dropWhile isWhitespace = s ++ trail := by
    rw [List.append_assoc, List.dropWhile_append_of_pos before]
    cases s with
    | nil => exact absurd rfl trimmed.nonempty
    | cons c rest =>
        rw [List.cons_append, List.dropWhile_cons_of_neg (by simpa using trimmed.first c rfl)]
  have back : (s ++ trail).reverse.dropWhile isWhitespace = s.reverse := by
    rw [List.reverse_append, List.dropWhile_append_of_pos (by simpa using behind)]
    exact dropWhile_id (by simpa using trimmed.last)
  rw [trim, String.toList_ofList, front, back, List.reverse_reverse]

/-- A text that is not blank is what is left of it between blanks. -/
theorem exists_between {s : String} (something : trim s ≠ "") :
    ∃ lead trail, s.toList = lead ++ (trim s).toList ++ trail ∧ (∀ c ∈ lead, isWhitespace c) ∧
      Trimmed (trim s).toList ∧ ∀ c ∈ trail, isWhitespace c := by
  let inner := s.toList.dropWhile isWhitespace
  have core : (trim s).toList = (inner.reverse.dropWhile isWhitespace).reverse := by
    rw [trim, String.toList_ofList]
  have parts : inner = (trim s).toList ++ (inner.reverse.takeWhile isWhitespace).reverse := by
    rw [core, ← List.reverse_append, List.takeWhile_append_dropWhile, List.reverse_reverse]
  have nonempty : (trim s).toList ≠ [] := fun empty => something (String.toList_eq_nil_iff.mp empty)
  refine ⟨s.toList.takeWhile isWhitespace, (inner.reverse.takeWhile isWhitespace).reverse, ?_,
    fun _ => List.mem_takeWhile_imp, ⟨nonempty, ?_, ?_⟩, ?_⟩
  · rw [List.append_assoc, ← parts, List.takeWhile_append_dropWhile]
  · intro c head
    have stops := List.head?_dropWhile_not isWhitespace s.toList
    have same : inner.head? = some c := by
      rw [parts, List.head?_append_of_ne_nil _ nonempty]
      exact head
    rw [show s.toList.dropWhile isWhitespace = inner from rfl, same] at stops
    simpa using stops
  · intro c last
    have stops := List.head?_dropWhile_not isWhitespace inner.reverse
    rw [core, List.getLast?_reverse] at last
    rw [show (inner.reverse.dropWhile isWhitespace).head? = some c from last] at stops
    simpa using stops
  · intro c member
    exact List.mem_takeWhile_imp (List.mem_reverse.mp member)

/-! ## The last line -/

/-- A text without a line break is one line. -/
theorem linesFrom_oneLine {x : List Char} (acc : List Char) (something : acc ≠ [] ∨ x ≠ [])
    (oneLine : '\n' ∉ x) : linesFrom acc x = [acc.reverse ++ x] := by
  induction x generalizing acc with
  | nil =>
      cases acc with
      | nil => simp at something
      | cons c acc => rw [linesFrom, List.append_nil]; simp
  | cons c x ih =>
      rw [List.mem_cons, not_or] at oneLine
      rw [linesFrom_cons acc (Ne.symm oneLine.1), ih (c :: acc) (.inl (List.cons_ne_nil _ _)) oneLine.2]
      · simp
      · intro _ next
        exact oneLine.2 (List.mem_of_mem_head? next)

/-- What is added to the end of a text without a line break is added to its last line. -/
theorem linesFrom_extend {core x : List Char} (acc : List Char) (something : acc ≠ [] ∨ core ≠ [])
    (open_ : core.getLast? ≠ some '\n') (oneLine : '\n' ∉ x) :
    ∃ front last, linesFrom acc core = front ++ [last] ∧ linesFrom acc (core ++ x) = front ++ [last ++ x] ∧
      last ≠ [] ∧ last.getLast? = (acc.reverse ++ core).getLast? := by
  fun_induction linesFrom acc core with
  | case1 => simp at something
  | case2 acc filled =>
      have line := linesFrom_oneLine acc (.inl filled) oneLine
      exact ⟨[], acc.reverse, rfl, line, by simpa using filled, by rw [List.append_nil]⟩
  | case3 acc rest ih =>
      have more : rest ≠ [] := by
        rintro rfl
        exact open_ rfl
      have last : ('\r' :: '\n' :: rest).getLast? = rest.getLast? := by
        rw [List.getLast?_cons_cons, List.getLast?_cons_of_ne_nil more]
      obtain ⟨front, line, whole, extended, inside, same⟩ := ih (.inr more) (last ▸ open_)
      refine ⟨acc.reverse :: front, line, by rw [whole]; rfl, ?_, inside, ?_⟩
      · rw [List.cons_append, List.cons_append, linesFrom_return, extended]
        rfl
      · rw [same, List.getLast?_append_of_ne_nil _ (List.cons_ne_nil _ _), last]
        rfl
  | case4 acc rest ih =>
      have more : rest ≠ [] := by
        rintro rfl
        exact open_ rfl
      have last : ('\n' :: rest).getLast? = rest.getLast? := List.getLast?_cons_of_ne_nil more
      obtain ⟨front, line, whole, extended, inside, same⟩ := ih (.inr more) (last ▸ open_)
      refine ⟨acc.reverse :: front, line, by rw [whole]; rfl, ?_, inside, ?_⟩
      · rw [List.cons_append, linesFrom_break, extended]
        rfl
      · rw [same, List.getLast?_append_of_ne_nil _ (List.cons_ne_nil _ _), last]
        rfl
  | case5 acc c rest notReturn notBreak ih =>
      have rest_open : rest.getLast? ≠ some '\n' := by
        cases rest with
        | nil => simp
        | cons d rest => rwa [List.getLast?_cons_cons] at open_
      have kept : c = '\r' → (rest ++ x).head? ≠ some '\n' := by
        intro return_ next
        cases rest with
        | nil => exact oneLine (List.mem_of_mem_head? next)
        | cons d rest =>
            cases next
            exact notReturn rest return_ rfl
      obtain ⟨front, line, whole, extended, inside, same⟩ := ih (.inl (List.cons_ne_nil _ _)) rest_open
      refine ⟨front, line, whole, ?_, inside, ?_⟩
      · rw [List.cons_append, linesFrom_cons acc notBreak kept, extended]
      · rw [same, List.reverse_cons, List.append_assoc]
        rfl

end AgileAgent.Decision

namespace AgileAgent.Provider

open Core.Loop (ProviderKind)
open Decision (textLines linesFrom Trimmed trim_between exists_between linesFrom_extend)
open DecisionDsl (isWhitespace trim)

/-! ## The shell -/

/-- A name that is written without quotes and is no assignment. -/
structure PlainName (name : String) : Prop where
  nonempty : name ≠ ""
  plain : name.toList.all fun c => c.isAlphanum || "-_./".toList.contains c

def Blank (s : String) : Prop := ∀ c ∈ s.toList, isWhitespace c

/-- The documented reading of a text to whose end a plain name is added: the name is a word by itself. White
    space in front of it at which the shell does not split stays with the last word or makes words of its own.
    If the text ends in a comment, this goes on to the end of the line. -/
def Shlex.Appends [Shlex] (text name : String) : Prop :=
  ∀ (front : List String) (last blanks : String), Shlex.split (trim text) = some (front ++ [last]) →
    trim (text ++ " " ++ name) = trim text ++ blanks ++ " " ++ name →
    (∃ glued rest, Blank glued ∧ (∀ word ∈ rest, Blank word) ∧
      Shlex.split (trim (text ++ " " ++ name)) = some (front ++ [last ++ glued] ++ rest ++ [name])) ∨
    '\n' ∉ blanks.toList ∧ Shlex.split (trim (text ++ " " ++ name)) = some (front ++ [last])

namespace PlainName

variable {name : String}

theorem mem (plain : PlainName name) {c : Char} (member : c ∈ name.toList) :
    isWhitespace c = false ∧ c ≠ '=' := by
  have allowed := List.all_eq_true.mp plain.plain c member
  have range : 45 ≤ c.toNat ∧ c.toNat ≤ 122 ∧ c.toNat ≠ 61 := by
    rw [Bool.or_eq_true, List.contains_iff_mem] at allowed
    rcases allowed with letter | sign
    · have ranges : (c.isUpper || c.isLower || c.isDigit) = true := letter
      rw [Bool.or_eq_true, Bool.or_eq_true] at ranges
      rcases ranges with (upper | lower) | digit
      · have bounds : decide (c.val ≥ 'A'.val ∧ c.val ≤ 'Z'.val) = true := upper
        have low : 65 ≤ c.toNat := UInt32.le_iff_toNat_le.mp (of_decide_eq_true bounds).1
        have high : c.toNat ≤ 90 := UInt32.le_iff_toNat_le.mp (of_decide_eq_true bounds).2
        omega
      · have bounds : (decide (c.val ≥ 'a'.val) && decide (c.val ≤ 'z'.val)) = true := lower
        have low : 97 ≤ c.toNat :=
          UInt32.le_iff_toNat_le.mp (of_decide_eq_true (Bool.and_eq_true_iff.mp bounds).1)
        have high : c.toNat ≤ 122 :=
          UInt32.le_iff_toNat_le.mp (of_decide_eq_true (Bool.and_eq_true_iff.mp bounds).2)
        omega
      · have low : 48 ≤ c.toNat := (Char.isDigit_iff_toNat.mp digit).1
        have high : c.toNat ≤ 57 := (Char.isDigit_iff_toNat.mp digit).2
        omega
    · have signs : "-_./".toList = ['-', '_', '.', '/'] := by decide
      rw [signs] at sign
      simp only [List.mem_cons, List.not_mem_nil, or_false] at sign
      rcases sign with rfl | rfl | rfl | rfl <;> decide
  constructor
  · simp [isWhitespace]
    omega
  · rintro rfl
    exact range.2.2 rfl

theorem toList_ne_nil (plain : PlainName name) : name.toList ≠ [] :=
  fun empty => plain.nonempty (String.toList_eq_nil_iff.mp empty)

end PlainName

/-! ## The lines of a text -/

/-- The assignment of a line, with the value as it stands. -/
def linePair (line : String) : Option (String × String) := splitAtEq (trim line)

def linePairs (text : String) : List (String × String) := (textLines (trim text)).filterMap linePair

structure WithinLimits (text : String) : Prop where
  input : (trim text).utf8ByteSize ≤ maxInputLength
  lines : ∀ line ∈ textLines (trim text), (trim line).utf8ByteSize ≤ maxLineLength
  vars : (linePairs text).length ≤ maxEnvVars

section

variable {env : EnvMap} {line : String} {number : Nat}

theorem envLine_none (short : (trim line).utf8ByteSize ≤ maxLineLength) (noEq : linePair line = none) :
    envLine env (line, number) = .ok env := by
  rw [linePair] at noEq
  rw [envLine]
  simp only [noEq, Nat.not_lt.mpr short, if_false]
  split <;> rfl

theorem line_ne_empty {pair : String × String} (found : splitAtEq line = some pair) : line ≠ "" := by
  rintro rfl
  cases found

theorem envLine_some {key value : String} (short : (trim line).utf8ByteSize ≤ maxLineLength)
    (found : linePair line = some (key, value)) (valid : isValidKey key = true)
    (few : env.keys.card < maxEnvVars) : envLine env (line, number) = .ok (env.insert key value) := by
  have named : key ≠ "" := by
    rintro rfl
    exact absurd valid (by decide)
  rw [linePair] at found
  rw [envLine]
  simp [found, Nat.not_lt.mpr short, line_ne_empty found, named, valid, Nat.not_le.mpr few]

theorem envLine_invalid (env : EnvMap) (number : Nat) {key value : String} (short : (trim line).utf8ByteSize ≤ maxLineLength)
    (found : linePair line = some (key, value)) (invalid : isValidKey key = false) :
    ∃ e, envLine env (line, number) = .error e := by
  rw [linePair] at found
  rw [envLine]
  by_cases named : key = ""
  · exact ⟨.emptyKey, by simp [found, Nat.not_lt.mpr short, line_ne_empty found, named]⟩
  · exact ⟨.invalidKeyFormat key, by simp [found, Nat.not_lt.mpr short, line_ne_empty found, named, invalid]⟩

theorem card_keys_insert_le (env : EnvMap) (key value : String) : (env.insert key value).keys.card ≤ env.keys.card + 1 := by
  have inside : (env.insert key value).keys ⊆ insert key env.keys := by
    intro name member
    rw [Finmap.mem_keys, Finmap.mem_insert] at member
    rw [Finset.mem_insert, Finmap.mem_keys]
    exact member
  exact (Finset.card_le_card inside).trans (Finset.card_insert_le key env.keys)

/-- Lines with valid names are all taken over. -/
theorem foldlM_envLine {lines : List String}
    (short : ∀ line ∈ lines, (trim line).utf8ByteSize ≤ maxLineLength)
    (few : env.keys.card + (lines.filterMap linePair).length ≤ maxEnvVars)
    (valid : ∀ pair ∈ lines.filterMap linePair, isValidKey pair.1 = true) :
    (lines.zipIdx number).foldlM envLine env =
      .ok (insertAll env (lines.filterMap linePair)) := by
  induction lines generalizing env number with
  | nil => rfl
  | cons line rest ih =>
      rw [List.forall_mem_cons] at short
      rw [List.zipIdx_cons, List.foldlM_cons]
      cases found : linePair line with
      | none =>
          rw [List.filterMap_cons_none found] at few valid ⊢
          rw [envLine_none short.1 found]
          exact ih short.2 few valid
      | some pair =>
          obtain ⟨key, value⟩ := pair
          rw [List.filterMap_cons_some found] at few valid ⊢
          rw [List.forall_mem_cons] at valid
          rw [List.length_cons] at few
          rw [envLine_some short.1 found valid.1 (by omega)]
          have more := card_keys_insert_le env key value
          exact @ih (env.insert key value) _ short.2 (by omega) valid.2

/-- Nothing comes of lines with another name. -/
theorem foldlM_envLine_ok {lines : List String} {result : EnvMap}
    (short : ∀ line ∈ lines, (trim line).utf8ByteSize ≤ maxLineLength)
    (few : env.keys.card + (lines.filterMap linePair).length ≤ maxEnvVars)
    (taken : (lines.zipIdx number).foldlM envLine env = .ok result) :
    ∀ pair ∈ lines.filterMap linePair, isValidKey pair.1 = true := by
  induction lines generalizing env number with
  | nil => exact List.forall_mem_nil _
  | cons line rest ih =>
      rw [List.forall_mem_cons] at short
      rw [List.zipIdx_cons, List.foldlM_cons] at taken
      cases found : linePair line with
      | none =>
          rw [List.filterMap_cons_none found] at few ⊢
          rw [envLine_none short.1 found] at taken
          exact ih short.2 few taken
      | some pair =>
          obtain ⟨key, value⟩ := pair
          rw [List.filterMap_cons_some found] at few ⊢
          rw [List.length_cons] at few
          cases valid : isValidKey key with
          | false =>
              obtain ⟨e, refused⟩ := envLine_invalid env number short.1 found valid
              rw [refused] at taken
              cases taken
          | true =>
              rw [envLine_some short.1 found valid (by omega)] at taken
              have more := card_keys_insert_le env key value
              exact List.forall_mem_cons.mpr ⟨valid, @ih (env.insert key value) _ short.2 (by omega) taken⟩

end

theorem keys_insertAll {pairs : List (String × String)} : (insertAll ∅ pairs).keys = ∅ ↔ pairs = [] := by
  constructor
  · intro empty
    cases pairs using List.reverseRecOn with
    | nil => rfl
    | append_singleton pairs pair =>
        obtain ⟨key, value⟩ := pair
        have found : (insertAll ∅ (pairs ++ [(key, value)])).lookup key = some value := by
          rw [lookup_insertAll, lastValue_concat, if_pos rfl]
        have member : key ∈ (insertAll ∅ (pairs ++ [(key, value)])).keys := by
          rw [Finmap.mem_keys, Finmap.mem_iff]
          exact ⟨value, found⟩
        rw [empty] at member
        exact absurd member (Finset.notMem_empty key)
  · rintro rfl
    rfl

theorem insertAll_eq_iff {pairs others : List (String × String)} :
    insertAll ∅ pairs = insertAll ∅ others ↔ ∀ key, lastValue pairs key = lastValue others key := by
  constructor
  · intro same key
    rw [← lookup_insertAll, same, lookup_insertAll]
  · intro same
    refine Finmap.ext_lookup fun key => ?_
    rw [lookup_insertAll, lookup_insertAll, same]

theorem parseEnvOnly_taken {provider : ProviderKind} {text : String} {env : EnvMap} (something : trim text ≠ "")
    (fits : (trim text).utf8ByteSize ≤ maxInputLength)
    (taken : (textLines (trim text)).zipIdx.foldlM envLine ∅ = .ok env) :
    (parseEnvOnly provider text).toOption.map LaunchInputSpec.envOverrides =
      if env.keys = ∅ then none else some env := by
  rw [parseEnvOnly]
  simp only [something, if_false, Nat.not_lt.mpr fits, taken]
  by_cases empty : env.keys = ∅
  · simp [bind, Except.bind, empty, throw, throwThe, MonadExceptOf.throw, Except.toOption]
  · simp [bind, Except.bind, empty, pure, Except.pure, Except.toOption]

/-! ## The modes -/

theorem trim_trim (s : String) : trim (trim s) = trim s := by
  by_cases something : trim s = ""
  · rw [something]
    rfl
  · obtain ⟨-, -, -, -, trimmed, -⟩ := exists_between something
    have same := trim_between [] (List.forall_mem_nil _) trimmed
      (List.forall_mem_nil _)
    simpa using same

/-- Every token is an assignment. -/
def Assigns (tokens : List String) : Prop :=
  ∀ token ∈ tokens, ∃ key value, splitAtEq token = some (key, value) ∧ isValidKey key = true

theorem assigns_iff {tokens : List String} : Assigns tokens ↔
    (tokens.all fun token => (splitAtEq token).any fun (key, _) => isValidKey key) = true := by
  rw [List.all_eq_true]
  refine forall₂_congr fun token _ => ?_
  cases splitAtEq token with
  | none => simp
  | some pair =>
      obtain ⟨key, value⟩ := pair
      simp

section

variable [Shlex]

def tokens (text : String) : List String := (Shlex.split (trim text)).getD []

/-- The assignments of the tokens. -/
def tokenPairs (text : String) : List (String × String) := (tokens text).filterMap splitAtEq

theorem detectSourceMode_trim (text : String) : detectSourceMode (trim text) = detectSourceMode text := by
  rw [detectSourceMode, trim_trim, detectSourceMode]

section

variable {text : String} {tokens : List String}

theorem detect_split (something : trim text ≠ "") (split : Shlex.split (trim text) = some tokens)
    (filled : tokens ≠ []) : detectSourceMode text =
      if tokens.all fun token => (splitAtEq token).any fun (key, _) => isValidKey key then .envOnly
      else .commandFragment := by
  rw [detectSourceMode]
  simp only [something, if_false, split]

theorem detect_assigns (something : trim text ≠ "") (split : Shlex.split (trim text) = some tokens)
    (filled : tokens ≠ []) (assigns : Assigns tokens) : detectSourceMode text = .envOnly := by
  rw [detect_split something split filled, if_pos (assigns_iff.mp assigns)]

theorem detect_command (something : trim text ≠ "") (split : Shlex.split (trim text) = some tokens)
    {token : String} (member : token ∈ tokens) (noEq : splitAtEq token = none) :
    detectSourceMode text = .commandFragment := by
  rw [detect_split something split (List.ne_nil_of_mem member), if_neg]
  intro all
  obtain ⟨key, value, found, -⟩ := assigns_iff.mpr all token member
  rw [noEq] at found
  cases found

theorem detect_envOnly (envOnly : detectSourceMode text = .envOnly) : trim text ≠ "" ∧
    ∃ front last, Shlex.split (trim text) = some (front ++ [last]) ∧ Assigns (front ++ [last]) := by
  have something : trim text ≠ "" := by
    intro blank
    rw [detectSourceMode] at envOnly
    simp [blank] at envOnly
  refine ⟨something, ?_⟩
  cases split : Shlex.split (trim text) with
  | none =>
      rw [detectSourceMode] at envOnly
      simp [something, split] at envOnly
  | some tokens =>
      cases tokens using List.reverseRecOn with
      | nil =>
          rw [detectSourceMode] at envOnly
          simp [something, split] at envOnly
      | append_singleton front last =>
          refine ⟨front, last, rfl, assigns_iff.mpr ?_⟩
          rw [detect_split something split (by simp)] at envOnly
          by_contra other
          rw [if_neg other] at envOnly
          cases envOnly

end

/-! ## The environment of a text -/

def parsedEnv (provider : ProviderKind) (text : String) : Option EnvMap :=
  (parse provider text).toOption.map LaunchInputSpec.envOverrides

theorem parsedEnv_envOnly {provider : ProviderKind} {text : String} (envOnly : detectSourceMode text = .envOnly)
    (something : trim text ≠ "") (within : WithinLimits text) {env : EnvMap} :
    parsedEnv provider text = some env ↔ (∀ pair ∈ linePairs text, isValidKey pair.1 = true) ∧
      linePairs text ≠ [] ∧ insertAll ∅ (linePairs text) = env := by
  have few : (∅ : EnvMap).keys.card + (linePairs text).length ≤ maxEnvVars := by
    simpa using within.vars
  rw [parsedEnv, parse, detectSourceMode_trim, envOnly]
  by_cases valid : ∀ pair ∈ linePairs text, isValidKey pair.1 = true
  · have whole : (textLines (trim text)).zipIdx.foldlM envLine ∅ = .ok (insertAll ∅ (linePairs text)) :=
      foldlM_envLine within.lines few valid
    simp only [parseEnvOnly_taken something within.input whole, keys_insertAll]
    by_cases none : linePairs text = []
    · simp [none]
    · rw [if_neg none, Option.some_inj]
      exact ⟨fun same => ⟨valid, none, same⟩, fun given => given.2.2⟩
  · refine iff_of_false (fun parsed => ?_) fun given => valid given.1
    cases taken : (textLines (trim text)).zipIdx.foldlM envLine ∅ with
    | error e =>
        simp [parseEnvOnly, something, Nat.not_lt.mpr within.input, taken, bind, Except.bind,
          Except.toOption] at parsed
    | ok result => exact valid (foldlM_envLine_ok within.lines few taken)

theorem parsedEnv_command {provider : ProviderKind} {text : String} {tokens args : List String}
    {executable : String} (command : detectSourceMode text = .commandFragment)
    (split : Shlex.split (trim text) = some tokens) (something : trim text ≠ "")
    (fits : (trim text).utf8ByteSize ≤ maxInputLength) (inside : words tokens = executable :: args)
    (wellFormed : executable.toList.head? ≠ some '=') :
    parsedEnv provider text = some (insertAll ∅ (tokens.filterMap envToken)) := by
  have filled : tokens ≠ [] := by
    rintro rfl
    cases inside
  rw [parsedEnv, parse, detectSourceMode_trim, command]
  simp only [parseCommandFragment_split split something fits filled, inside, wellFormed, if_false]
  rfl

/-- Both readings of the assignments of a text come to the same: the lines, and the shell's when the text is
    followed by a program. -/
def Agree (provider : ProviderKind) (text name : String) : Prop :=
  ∃ env, parsedEnv provider text = some env ∧
    (∀ key, env.lookup key = lastValue (tokenPairs text) key) ∧
    parsedEnv provider (text ++ " " ++ name) = some env

/-- The conditions on a text and the name that follows it. -/
structure Literal (text name : String) : Prop where
  /-- A line with `=` starts with a valid name. -/
  keys : ∀ pair ∈ linePairs text, isValidKey pair.1 = true
  /-- The last line of every name is, as it stands, the last token of this name. -/
  same : ∀ key, lastValue (linePairs text) key = lastValue (tokenPairs text) key
  /-- The name is swallowed by a comment on a line without `=`, or it follows the tokens of the text and no
      variable is emptied. -/
  followed : if tokens (text ++ " " ++ name) = tokens text then
      ∀ line ∈ (textLines (trim text)).getLast?, '=' ∉ line.toList
    else tokens text <+: tokens (text ++ " " ++ name) ∧ ∀ key, lastValue (tokenPairs text) key ≠ some ""

/-! ## The tokens of a command -/

end

/-- The last values of what is left without the empty ones. -/
theorem lastValue_filter {pairs : List (String × String)} {key : String} (filled : lastValue pairs key ≠ some "") :
    lastValue (pairs.filter (·.2 ≠ "")) key = lastValue pairs key := by
  induction pairs using List.reverseRecOn with
  | nil => rfl
  | append_singleton pairs pair ih =>
      obtain ⟨name, value⟩ := pair
      rw [lastValue_concat] at filled ⊢
      rw [List.filter_append]
      by_cases empty : value = ""
      · have other : key ≠ name := by
          rintro rfl
          rw [if_pos rfl, empty] at filled
          exact filled rfl
        rw [if_neg other] at filled ⊢
        simpa [empty] using ih filled
      · have kept : [(name, value)].filter (fun pair => decide (pair.2 ≠ "")) = [(name, value)] :=
          List.filter_cons_of_pos (by simpa using empty)
        rw [kept, lastValue_concat]
        by_cases here : key = name
        · rw [if_pos here, if_pos here]
        · rw [if_neg here] at filled
          rw [if_neg here, if_neg here, ih filled]

theorem lastValue_filter_ne (pairs : List (String × String)) (key : String) :
    lastValue (pairs.filter (·.2 ≠ "")) key ≠ some "" := by
  induction pairs using List.reverseRecOn with
  | nil => simp [lastValue]
  | append_singleton pairs pair ih =>
      obtain ⟨name, value⟩ := pair
      rw [List.filter_append]
      by_cases empty : value = ""
      · simpa [empty] using ih
      · have kept : [(name, value)].filter (fun pair => decide (pair.2 ≠ "")) = [(name, value)] :=
          List.filter_cons_of_pos (by simpa using empty)
        rw [kept, lastValue_concat]
        split
        · simpa using empty
        · exact ih

theorem filterMap_envToken_assigns {tokens : List String} (assigns : Assigns tokens) :
    tokens.filterMap envToken = (tokens.filterMap splitAtEq).filter (·.2 ≠ "") := by
  induction tokens with
  | nil => rfl
  | cons token rest ih =>
      obtain ⟨⟨key, value, found, valid⟩, others⟩ := List.forall_mem_cons.mp assigns
      rw [List.filterMap_cons_some found]
      by_cases empty : value = ""
      · have none : envToken token = none := by simp [envToken, found, empty]
        rw [List.filterMap_cons_none none, List.filter_cons_of_neg (by simpa using empty), ih others]
      · have taken : envToken token = some (key, value) := by simp [envToken, found, empty, valid]
        rw [List.filterMap_cons_some taken, List.filter_cons_of_pos (by simpa using empty), ih others]

/-- White space behind the last value changes it; a name that is emptied at last is lost. -/
theorem lastValue_glued_iff {pairs : List (String × String)} {name value glued : String} :
    (∀ key, lastValue ((pairs ++ [(name, value ++ glued)]).filter (·.2 ≠ "")) key =
      lastValue (pairs ++ [(name, value)]) key) ↔
    glued = "" ∧ ∀ key, lastValue (pairs ++ [(name, value)]) key ≠ some "" := by
  constructor
  · intro same
    have unglued : glued = "" := by
      by_contra more
      have filled : value ++ glued ≠ "" := by simp [more]
      have here := same name
      have kept : [(name, value ++ glued)].filter (fun pair => decide (pair.2 ≠ "")) = [(name, value ++ glued)] :=
        List.filter_cons_of_pos (decide_eq_true filled)
      rw [List.filter_append, kept, lastValue_concat, lastValue_concat, if_pos rfl, if_pos rfl,
        Option.some_inj, String.append_eq_left_iff] at here
      exact more here
    refine ⟨unglued, fun key => ?_⟩
    rw [← same key]
    exact lastValue_filter_ne _ key
  · rintro ⟨rfl, filled⟩ key
    rw [String.append_empty]
    exact lastValue_filter (filled key)

theorem blank_noEq {word : String} (blank : Blank word) : '=' ∉ word.toList :=
  fun member => absurd (blank '=' member) (by decide)

theorem head_ne_eq_of_not_mem {word : String} (noEq : '=' ∉ word.toList) : word.toList.head? ≠ some '=' :=
  fun head => noEq (List.mem_of_mem_head? head)

theorem head_ne_eq {token key value : String} (found : splitAtEq token = some (key, value))
    (valid : isValidKey key = true) : token.toList.head? ≠ some '=' := by
  obtain ⟨rfl, absent⟩ := splitAtEq_eq_some.mp found
  cases chars : key.toList with
  | nil => simp [isValidKey, chars] at valid
  | cons c rest =>
      rw [chars, List.mem_cons, not_or] at absent
      simpa [chars] using Ne.symm absent.1

/-- The tokens of a text that a name follows. -/
structure Followed (tokens : List String) (name : String) (front : List String) (last glued : String)
    (rest : List String) : Prop where
  whole : tokens = front ++ [last ++ glued] ++ rest ++ [name]
  glue : Blank glued
  blank : ∀ word ∈ rest, Blank word
  plain : PlainName name
  assigns : Assigns (front ++ [last])

namespace Followed

variable {tokens front rest : List String} {name last glued key value : String}

theorem prefix_iff (followed : Followed tokens name front last glued rest) :
    front ++ [last] <+: tokens ↔ glued = "" := by
  have stays : last = last ++ glued ↔ glued = "" := eq_comm.trans String.append_eq_left_iff
  rw [followed.whole, List.append_assoc, List.append_assoc, List.prefix_append_right_inj, List.singleton_append,
    List.cons_prefix_cons, stays]
  simp

theorem ne (followed : Followed tokens name front last glued rest) : tokens ≠ front ++ [last] := by
  intro same
  have longer := congrArg List.length (followed.whole.symm.trans same)
  simp at longer

theorem noEq (followed : Followed tokens name front last glued rest) : '=' ∉ name.toList :=
  fun member => (followed.plain.mem member).2 rfl

theorem assigns_glued (followed : Followed tokens name front last glued rest)
    (found : splitAtEq last = some (key, value)) :
    splitAtEq (last ++ glued) = some (key, value ++ glued) ∧ isValidKey key = true := by
  obtain ⟨key', value', found', valid⟩ := followed.assigns last (by simp)
  rw [found] at found'
  cases found'
  obtain ⟨whole, absent⟩ := splitAtEq_eq_some.mp found
  refine ⟨splitAtEq_eq_some.mpr ⟨?_, absent⟩, valid⟩
  rw [whole, String.append_assoc, String.append_assoc]

theorem filterMap_envToken (followed : Followed tokens name front last glued rest)
    (found : splitAtEq last = some (key, value)) : tokens.filterMap envToken =
      (front.filterMap splitAtEq ++ [(key, value ++ glued)]).filter (·.2 ≠ "") := by
  obtain ⟨gluedFound, valid⟩ := followed.assigns_glued found
  have assigns : Assigns (front ++ [last ++ glued]) := by
    intro token member
    rcases List.mem_append.mp member with before | here
    · exact followed.assigns token (List.mem_append_left _ before)
    · rw [List.mem_singleton.mp here]
      exact ⟨key, value ++ glued, gluedFound, valid⟩
  have left (word : String) (noEq : '=' ∉ word.toList) : envToken word = none := by
    rw [envToken, splitAtEq_eq_none.mpr noEq]
    rfl
  have others : rest.filterMap envToken = [] :=
    List.filterMap_eq_nil_iff.mpr fun word member => left word (blank_noEq (followed.blank word member))
  rw [followed.whole, List.filterMap_append, List.filterMap_append, others,
    List.filterMap_cons_none (left name followed.noEq), filterMap_envToken_assigns assigns, List.filterMap_append,
    List.filterMap_cons_some gluedFound]
  simp

theorem exists_words (followed : Followed tokens name front last glued rest) :
    ∃ executable args, words tokens = executable :: args ∧ executable.toList.head? ≠ some '=' := by
  have nameLeft : name ∈ words tokens := by
    rw [words, List.mem_filter, followed.whole]
    refine ⟨by simp, ?_⟩
    rw [envToken, splitAtEq_eq_none.mpr followed.noEq]
    rfl
  cases inside : words tokens with
  | nil =>
      rw [inside] at nameLeft
      cases nameLeft
  | cons executable args =>
      refine ⟨executable, args, rfl, ?_⟩
      have member : executable ∈ tokens := List.mem_of_mem_filter (inside ▸ List.mem_cons_self)
      rw [followed.whole, List.mem_append, List.mem_append, List.mem_append] at member
      rcases member with ((before | here) | behind) | isName
      · obtain ⟨key, value, found, valid⟩ := followed.assigns executable (List.mem_append_left _ before)
        exact head_ne_eq found valid
      · obtain ⟨key, value, found, -⟩ := followed.assigns last (by simp)
        obtain ⟨gluedFound, valid⟩ := followed.assigns_glued found
        rw [List.mem_singleton.mp here]
        exact head_ne_eq gluedFound valid
      · exact head_ne_eq_of_not_mem (blank_noEq (followed.blank _ behind))
      · rw [List.mem_singleton.mp isName]
        exact head_ne_eq_of_not_mem followed.noEq

end Followed

/-! ## A name in a comment -/

/-- What is added to a line stays behind it when the line is trimmed. -/
theorem trim_extended {line x : List Char} (something : line ≠ []) (last : ∀ c ∈ line.getLast?, isWhitespace c = false)
    (lastAdded : ∀ c ∈ x.getLast?, isWhitespace c = false) :
    ∃ lead body, line = lead ++ body ∧ (∀ c ∈ lead, isWhitespace c) ∧
      trim (String.ofList line) = String.ofList body ∧
      trim (String.ofList (line ++ x)) = String.ofList (body ++ x) := by
  let lead := line.takeWhile isWhitespace
  let body := line.dropWhile isWhitespace
  have parts : lead ++ body = line := List.takeWhile_append_dropWhile
  have blank : ∀ c ∈ lead, isWhitespace c = true := fun _ => List.mem_takeWhile_imp
  have nonempty : body ≠ [] := by
    intro empty
    obtain ⟨c, inside⟩ := List.getLast?_isSome.mpr something |> Option.isSome_iff_exists.mp
    have white := List.dropWhile_eq_nil_iff.mp empty c (List.mem_of_getLast? inside)
    rw [last c inside] at white
    cases white
  have ends : body.getLast? = line.getLast? := by
    rw [← parts, List.getLast?_append_of_ne_nil _ nonempty]
  have trimmed : Trimmed body := by
    refine ⟨nonempty, fun c head => ?_, fun c inside => last c (ends ▸ inside)⟩
    have stops := List.head?_dropWhile_not isWhitespace line
    rw [show (line.dropWhile isWhitespace).head? = some c from head] at stops
    simpa using stops
  have extended : Trimmed (body ++ x) := by
    refine ⟨by simp [nonempty], fun c head => trimmed.first c ?_, fun c inside => ?_⟩
    · rwa [List.head?_append_of_ne_nil _ nonempty] at head
    · cases x with
      | nil =>
          rw [List.append_nil] at inside
          exact trimmed.last c inside
      | cons d x =>
          rw [List.getLast?_append_of_ne_nil _ (List.cons_ne_nil d x)] at inside
          exact lastAdded c inside
  refine ⟨lead, body, parts.symm, blank, ?_, ?_⟩
  · have same := trim_between [] blank trimmed (List.forall_mem_nil _)
    rwa [List.append_nil, parts] at same
  · have same := trim_between [] blank extended (List.forall_mem_nil _)
    rwa [List.append_nil, ← List.append_assoc, parts] at same

/-- The lines of a text to whose last line something is added. -/
theorem linePairs_extended {text longer x : String} (whole : trim longer = trim text ++ x)
    (trimmed : Trimmed (trim text).toList) (oneLine : '\n' ∉ x.toList) (noEq : '=' ∉ x.toList)
    (lastAdded : ∀ c ∈ x.toList.getLast?, isWhitespace c = false) :
    ∃ line, (textLines (trim text)).getLast? = some line ∧
      ('=' ∉ line.toList → linePairs longer = linePairs text) ∧
      ('=' ∈ line.toList → ∃ pairs key value, linePairs text = pairs ++ [(key, value)] ∧
        linePairs longer = pairs ++ [(key, value ++ x)]) := by
  have unbroken : (trim text).toList.getLast? ≠ some '\n' :=
    fun last => absurd (trimmed.last '\n' last) (by decide)
  obtain ⟨front, line, lines, extended, inside, last⟩ :=
    linesFrom_extend [] (.inr trimmed.nonempty) unbroken oneLine
  rw [List.reverse_nil, List.nil_append] at last
  have textEnd : textLines (trim text) = front.map String.ofList ++ [String.ofList line] := by
    rw [textLines, lines, List.map_append]
    rfl
  have longerEnd : textLines (trim longer) = front.map String.ofList ++ [String.ofList (line ++ x.toList)] := by
    rw [textLines, whole, String.toList_append, extended, List.map_append]
    rfl
  obtain ⟨lead, body, parts, blank, trimLine, trimLonger⟩ := trim_extended (x := x.toList) inside
    (fun c here => trimmed.last c (by rwa [← last])) lastAdded
  refine ⟨String.ofList line, by rw [textEnd, List.getLast?_concat], ?_, ?_⟩
  · intro absent
    rw [String.toList_ofList, parts, List.mem_append, not_or] at absent
    have none : linePair (String.ofList line) = none := by
      rw [linePair, trimLine, splitAtEq_eq_none, String.toList_ofList]
      exact absent.2
    have noneLonger : linePair (String.ofList (line ++ x.toList)) = Option.none := by
      rw [linePair, trimLonger, splitAtEq_eq_none, String.toList_ofList, List.mem_append, not_or]
      exact ⟨absent.2, noEq⟩
    rw [linePairs, linePairs, textEnd, longerEnd, List.filterMap_append, List.filterMap_append,
      List.filterMap_cons_none none, List.filterMap_cons_none noneLonger]
  · intro present
    rw [String.toList_ofList, parts, List.mem_append] at present
    have inBody : '=' ∈ body := present.resolve_left fun early => absurd (blank '=' early) (by decide)
    cases found : linePair (String.ofList line) with
    | none =>
        rw [linePair, trimLine, splitAtEq_eq_none, String.toList_ofList] at found
        exact absurd inBody found
    | some pair =>
        obtain ⟨key, value⟩ := pair
        have foundLonger : linePair (String.ofList (line ++ x.toList)) = some (key, value ++ x) := by
          rw [linePair, trimLine, splitAtEq_eq_some] at found
          rw [linePair, trimLonger, splitAtEq_eq_some]
          refine ⟨?_, found.2⟩
          rw [String.ofList_append, found.1, String.ofList_toList, String.append_assoc]
        refine ⟨(front.map String.ofList).filterMap linePair, key, value, ?_, ?_⟩
        · rw [linePairs, textEnd, List.filterMap_append, List.filterMap_cons_some found]
          rfl
        · rw [linePairs, longerEnd, List.filterMap_append, List.filterMap_cons_some foundLonger]
          rfl

/-- A text that a plain name follows, as it is trimmed. -/
theorem trim_followed {text name : String} (plain : PlainName name) (something : trim text ≠ "") :
    ∃ blanks, Blank blanks ∧ Trimmed (trim text).toList ∧
      trim (text ++ " " ++ name) = trim text ++ blanks ++ " " ++ name := by
  obtain ⟨lead, trail, parts, before, trimmed, behind⟩ := exists_between something
  let core := (trim text).toList ++ trail ++ ' ' :: name.toList
  have inside : Trimmed core := by
    refine ⟨by simp [core], fun c head => trimmed.first c ?_, fun c last => ?_⟩
    · rwa [show core = _ from List.append_assoc _ _ _, List.head?_append_of_ne_nil _ trimmed.nonempty] at head
    · rw [show core = _ from rfl, List.getLast?_append_of_ne_nil _ (List.cons_ne_nil _ _),
        List.getLast?_cons_of_ne_nil plain.toList_ne_nil] at last
      exact (plain.mem (List.mem_of_getLast? last)).1
  have same := trim_between [] before inside (List.forall_mem_nil _)
  have start : String.ofList (lead ++ core ++ []) = text ++ " " ++ name := by
    rw [← String.toList_inj, String.toList_ofList, String.toList_append, String.toList_append, parts]
    simp [core]
  refine ⟨String.ofList trail, by rwa [Blank, String.toList_ofList], trimmed, ?_⟩
  rw [← start, same, ← String.toList_inj]
  simp [core]

section

variable [Shlex]

variable {provider : ProviderKind} {text name : String}

theorem tokens_of_split {front : List String} {last : String}
    (split : Shlex.split (trim text) = some (front ++ [last])) : tokens text = front ++ [last] := by
  rw [tokens, split]
  rfl

theorem linePairs_ne_nil (envOnly : detectSourceMode text = .envOnly)
    (same : ∀ key, lastValue (linePairs text) key = lastValue (tokenPairs text) key) : linePairs text ≠ [] := by
  obtain ⟨-, front, last, split, assigns⟩ := detect_envOnly envOnly
  obtain ⟨key, value, found, -⟩ := assigns last (by simp)
  intro empty
  have here := same key
  rw [empty, tokenPairs, tokens_of_split split, List.filterMap_append, List.filterMap_cons_some found,
    List.filterMap_nil, lastValue_concat, if_pos rfl] at here
  cases here

/-- The lines of the text come to the assignments of its tokens, and the longer text to the same. -/
theorem agree_iff (envOnly : detectSourceMode text = .envOnly) (within : WithinLimits text) :
    Agree provider text name ↔ ((∀ pair ∈ linePairs text, isValidKey pair.1 = true) ∧
      ∀ key, lastValue (linePairs text) key = lastValue (tokenPairs text) key) ∧
      parsedEnv provider (text ++ " " ++ name) = some (insertAll ∅ (linePairs text)) := by
  obtain ⟨something, -⟩ := detect_envOnly envOnly
  constructor
  · rintro ⟨env, parsed, same, longer⟩
    obtain ⟨valid, -, rfl⟩ := (parsedEnv_envOnly envOnly something within).mp parsed
    exact ⟨⟨valid, fun key => by rw [← same, lookup_insertAll]⟩, longer⟩
  · rintro ⟨⟨valid, same⟩, longer⟩
    refine ⟨_, (parsedEnv_envOnly envOnly something within).mpr ⟨valid, linePairs_ne_nil envOnly same, rfl⟩,
      fun key => ?_, longer⟩
    rw [lookup_insertAll, same]

/-- The name follows the tokens of the text. -/
theorem parsedEnv_followed {longer : String} {front rest toks : List String} {last glued : String}
    (split : Shlex.split (trim text) = some (front ++ [last]))
    (splitLonger : Shlex.split (trim longer) = some toks)
    (followed : Followed toks name front last glued rest) (something : trim longer ≠ "")
    (fits : (trim longer).utf8ByteSize ≤ maxInputLength)
    (same : ∀ key, lastValue (linePairs text) key = lastValue (tokenPairs text) key) :
    parsedEnv provider longer = some (insertAll ∅ (linePairs text)) ↔
      tokens text <+: toks ∧ ∀ key, lastValue (tokenPairs text) key ≠ some "" := by
  obtain ⟨key, value, found, -⟩ := followed.assigns last (by simp)
  have pairs : tokenPairs text = front.filterMap splitAtEq ++ [(key, value)] := by
    rw [tokenPairs, tokens_of_split split, List.filterMap_append, List.filterMap_cons_some found]
    rfl
  have isLast : name ∈ toks := by
    rw [followed.whole]
    simp
  obtain ⟨executable, args, inside, wellFormed⟩ := followed.exists_words
  rw [parsedEnv_command (detect_command something splitLonger isLast (splitAtEq_eq_none.mpr followed.noEq))
      splitLonger something fits inside wellFormed,
    followed.filterMap_envToken found, Option.some_inj, insertAll_eq_iff, tokens_of_split split,
    followed.prefix_iff, pairs, ← lastValue_glued_iff]
  simp only [same, pairs]

/-- The name is part of a comment. -/
theorem parsedEnv_swallowed {longer x : String} {front : List String} {last : String}
    (split : Shlex.split (trim longer) = some (front ++ [last])) (assigns : Assigns (front ++ [last]))
    (whole : trim longer = trim text ++ x) (trimmed : Trimmed (trim text).toList) (filled : x ≠ "")
    (oneLine : '\n' ∉ x.toList) (noEq : '=' ∉ x.toList)
    (lastAdded : ∀ c ∈ x.toList.getLast?, isWhitespace c = false) (within : WithinLimits longer)
    (valid : ∀ pair ∈ linePairs text, isValidKey pair.1 = true) (nonempty : linePairs text ≠ []) :
    parsedEnv provider longer = some (insertAll ∅ (linePairs text)) ↔
      ∀ line ∈ (textLines (trim text)).getLast?, '=' ∉ line.toList := by
  have something : trim longer ≠ "" := by
    rw [whole]
    simp [filled]
  have envOnly := detect_assigns something split (by simp) assigns
  obtain ⟨line, isLast, without, withEq⟩ := linePairs_extended whole trimmed oneLine noEq lastAdded
  rw [parsedEnv_envOnly envOnly something within, isLast]
  have single : (∀ other ∈ some line, '=' ∉ other.toList) ↔ '=' ∉ line.toList := by simp
  rw [single]
  constructor
  · rintro ⟨-, -, same⟩ present
    obtain ⟨pairs, key, value, here, there⟩ := withEq present
    have changed := insertAll_eq_iff.mp same key
    rw [here, there, lastValue_concat, lastValue_concat, if_pos rfl, if_pos rfl, Option.some_inj,
      String.append_eq_left_iff] at changed
    exact filled changed
  · intro absent
    rw [without absent]
    exact ⟨valid, nonempty, rfl⟩

/-- Both readings agree exactly under the conditions on the text. -/
theorem modes_agree_iff (plain : PlainName name) (appended : Shlex.Appends text name)
    (envOnly : detectSourceMode text = .envOnly) (within : WithinLimits text)
    (withinLonger : WithinLimits (text ++ " " ++ name)) :
    Agree provider text name ↔ Literal text name := by
  obtain ⟨something, front, last, split, assigns⟩ := detect_envOnly envOnly
  obtain ⟨blanks, blank, trimmed, whole⟩ := trim_followed plain something
  have somethingLonger : trim (text ++ " " ++ name) ≠ "" := by
    rw [whole]
    simp [plain.nonempty]
  have longer (valid : ∀ pair ∈ linePairs text, isValidKey pair.1 = true)
      (same : ∀ key, lastValue (linePairs text) key = lastValue (tokenPairs text) key) :
      parsedEnv provider (text ++ " " ++ name) = some (insertAll ∅ (linePairs text)) ↔
        if tokens (text ++ " " ++ name) = tokens text then
          ∀ line ∈ (textLines (trim text)).getLast?, '=' ∉ line.toList
        else tokens text <+: tokens (text ++ " " ++ name) ∧
          ∀ key, lastValue (tokenPairs text) key ≠ some "" := by
    rcases appended front last blanks split whole with
      ⟨glued, rest, glue, blankRest, splitLonger⟩ | ⟨oneLine, splitLonger⟩
    · have toks : tokens (text ++ " " ++ name) = front ++ [last ++ glued] ++ rest ++ [name] := by
        rw [tokens, splitLonger]
        rfl
      have followed : Followed (tokens (text ++ " " ++ name)) name front last glued rest :=
        ⟨toks, glue, blankRest, plain, assigns⟩
      rw [if_neg (tokens_of_split split ▸ followed.ne)]
      exact parsedEnv_followed split (toks ▸ splitLonger) followed somethingLonger withinLonger.input same
    · rw [if_pos ((tokens_of_split splitLonger).trans (tokens_of_split split).symm)]
      have parts : (blanks ++ " " ++ name).toList = blanks.toList ++ ' ' :: name.toList := by simp
      refine parsedEnv_swallowed (x := blanks ++ " " ++ name) splitLonger assigns ?_ trimmed (by simp) ?_ ?_ ?_
        withinLonger valid (linePairs_ne_nil envOnly same)
      · rw [whole]
        simp only [String.append_assoc]
      · rw [parts, List.mem_append, List.mem_cons]
        rintro (inBlanks | space | inName)
        · exact oneLine inBlanks
        · exact absurd space (by decide)
        · exact absurd (plain.mem inName).1 (by decide)
      · rw [parts, List.mem_append, List.mem_cons]
        rintro (inBlanks | space | inName)
        · exact blank_noEq blank inBlanks
        · exact absurd space (by decide)
        · exact (plain.mem inName).2 rfl
      · intro c isLast
        rw [parts, List.getLast?_append_of_ne_nil _ (List.cons_ne_nil _ _),
          List.getLast?_cons_of_ne_nil plain.toList_ne_nil] at isLast
        exact (plain.mem (List.mem_of_getLast? isLast)).1
  rw [agree_iff envOnly within]
  constructor
  · rintro ⟨⟨valid, same⟩, parsed⟩
    exact ⟨valid, same, (longer valid same).mp parsed⟩
  · rintro ⟨valid, same, followed⟩
    exact ⟨⟨valid, same⟩, (longer valid same).mpr followed⟩

end

/-- The shell on a variable with a plain value and on one with a quoted value. -/
@[reducible] def assigningShlex : Shlex where
  split text := [("MODEL=opus", ["MODEL=opus"]), ("MODEL=opus claude", ["MODEL=opus", "claude"]),
    ("MODEL=\"opus 4\"", ["MODEL=opus 4"]), ("MODEL=\"opus 4\" claude", ["MODEL=opus 4", "claude"])].lookup text

/-- The table has the name behind the only token. -/
theorem assigningShlex_appends (text token : String)
    (split : @Shlex.split assigningShlex (trim text) = some [token])
    (splitLonger : @Shlex.split assigningShlex (trim (text ++ " claude")) = some [token, "claude"]) :
    @Shlex.Appends assigningShlex text "claude" := by
  intro front last blanks given _
  rw [split, Option.some_inj] at given
  refine .inl ⟨"", [], by simp [Blank], by simp, ?_⟩
  rw [String.append_empty, ← given, List.append_nil, String.append_assoc]
  exact splitLonger

theorem claude_plainName : PlainName "claude" := ⟨by decide, by decide⟩

theorem model_agrees : @Agree assigningShlex .claude "MODEL=opus" "claude" := by
  have pairs : @tokenPairs assigningShlex "MODEL=opus" = [] ++ [("MODEL", "opus")] := by decide +kernel
  have apart : ¬ @tokens assigningShlex ("MODEL=opus" ++ " " ++ "claude") = @tokens assigningShlex "MODEL=opus" := by
    decide +kernel
  refine (@modes_agree_iff assigningShlex .claude "MODEL=opus" "claude" claude_plainName
    (assigningShlex_appends _ "MODEL=opus" (by decide +kernel) (by decide +kernel)) (by decide +kernel)
    ⟨by decide +kernel, by decide +kernel, by decide +kernel⟩
    ⟨by decide +kernel, by decide +kernel, by decide +kernel⟩).mpr
    (@Literal.mk assigningShlex _ _ (by decide +kernel) (fun key => ?_) ?_)
  · rw [pairs, show linePairs "MODEL=opus" = [] ++ [("MODEL", "opus")] by decide +kernel]
  · rw [if_neg apart]
    refine ⟨by decide +kernel, fun key => ?_⟩
    rw [pairs, lastValue_concat]
    split <;> simp [lastValue]

/-- The quotes are part of the value. -/
theorem quotes_kept : ¬ ∀ [Shlex] (provider : ProviderKind) (text name : String), PlainName name →
    Shlex.Appends text name → detectSourceMode text = .envOnly → WithinLimits text →
    WithinLimits (text ++ " " ++ name) → Agree provider text name := by
  intro always
  have envOnly : @detectSourceMode assigningShlex "MODEL=\"opus 4\"" = .envOnly := by decide +kernel
  have within : WithinLimits "MODEL=\"opus 4\"" := ⟨by decide +kernel, by decide +kernel, by decide +kernel⟩
  obtain ⟨env, parsed, same, -⟩ := @always assigningShlex .claude "MODEL=\"opus 4\"" "claude" claude_plainName
    (assigningShlex_appends _ "MODEL=opus 4" (by decide +kernel) (by decide +kernel)) envOnly within
    ⟨by decide +kernel, by decide +kernel, by decide +kernel⟩
  obtain ⟨-, -, rfl⟩ := (@parsedEnv_envOnly assigningShlex _ _ envOnly (by decide +kernel) within _).mp parsed
  have changed := same "MODEL"
  rw [lookup_insertAll, show linePairs "MODEL=\"opus 4\"" = [] ++ [("MODEL", "\"opus 4\"")] by decide +kernel,
    show @tokenPairs assigningShlex "MODEL=\"opus 4\"" = [] ++ [("MODEL", "opus 4")] by decide +kernel,
    lastValue_concat, lastValue_concat, if_pos rfl, if_pos rfl] at changed
  exact absurd changed (by decide)

end AgileAgent.Provider
