import AgileAgent.DecisionDsl.Tokens

/-! # The grammar of script expressions

The V1 grammar of the evaluators,

    expr       := comparison (('&&' | '||') comparison)*
    comparison := path op literal | 'is_dangerous' '(' path ')' | path '.' 'contains' '(' string ')'
    path       := identifier ('.' identifier)*

as a relation between texts and expressions, with white space between any two words, and what the
expressions mean. The parser evaluates while it reads; below it is shown to read what the grammar
derives, and to make of it what `Expr.strict` says.
-/

namespace AgileAgent.DecisionDsl.Script

inductive Connective where
  | and | or
  deriving Repr, DecidableEq

def Connective.symbol : Connective → String
  | .and => "&&"
  | .or => "||"

def Connective.apply : Connective → Bool → Bool → Bool
  | .and, a, b => a && b
  | .or, a, b => a || b

inductive Literal where
  | string (chars : List SpelledChar)
  | number (value : BlackboardValue)
  | boolean (b : Bool)

def Literal.value : Literal → BlackboardValue
  | .string chars => .string (literalValue chars)
  | .number value => value
  | .boolean b => .boolean b

inductive Comparison where
  | compare (path : List String) (op : CompareOp) (literal : Literal)
  | dangerous (path : List String)
  | contains (path : List String) (needle : List SpelledChar)

structure Expr where
  first : Comparison
  rest : List (Connective × Comparison)

section

variable [Crates]

/-! ## Texts -/

def IsIdentifier (word : List Char) : Prop :=
  ∃ c rest, word = c :: rest ∧ (Crates.isAlphabetic c || c == '_') ∧ ∀ d ∈ rest, isWordChar d

def isNumberChar (c : Char) : Bool := c.isDigit || c == '.'

/-- `str::parse`, into a float if there is a point. -/
def readNumber (text : String) : Except RuntimeError BlackboardValue :=
  if text.toList.contains '.' then
    match Crates.parseFloat text with
    | .ok f => .ok (.float f)
    | .error e => .error (.filterError ("invalid float: " ++ e))
  else
    match parseI64 text with
    | .ok i => .ok (.integer i)
    | .error e => .error (.filterError ("invalid integer: " ++ e))

/-- A minus sign or a digit, then digits and points, which can be parsed. -/
inductive NumberText : List Char → BlackboardValue → Prop
  | negative {digits : List Char} {value : BlackboardValue} (chars : ∀ c ∈ digits, isNumberChar c)
      (reads : readNumber (String.ofList ('-' :: digits)) = .ok value) : NumberText ('-' :: digits) value
  | positive {c : Char} {digits : List Char} {value : BlackboardValue} (digit : c.isDigit)
      (chars : ∀ c ∈ digits, isNumberChar c)
      (reads : readNumber (String.ofList (c :: digits)) = .ok value) : NumberText (c :: digits) value

inductive LiteralText : List Char → Literal → Prop
  | string (chars : List SpelledChar) : LiteralText (literalText chars) (.string chars)
  | number {text : List Char} {value : BlackboardValue} (number : NumberText text value) :
      LiteralText text (.number value)
  | yes : LiteralText "true".toList (.boolean true)
  | no : LiteralText "false".toList (.boolean false)

/-- `('.' identifier)*`. -/
inductive PathTail : List Char → List String → Prop
  | nil : PathTail [] []
  | cons {a b word text : List Char} {more : List String} (before : Blank a) (after : Blank b)
      (identifier : IsIdentifier word) (tail : PathTail text more) :
      PathTail (a ++ '.' :: (b ++ (word ++ text))) (String.ofList word :: more)

inductive PathText : List Char → List String → Prop
  | mk {word text : List Char} {more : List String} (identifier : IsIdentifier word)
      (tail : PathTail text more) : PathText (word ++ text) (String.ofList word :: more)

inductive ComparisonText : List Char → Comparison → Prop
  | compare {p a b l : List Char} {path : List String} {literal : Literal} (op : CompareOp)
      (left : PathText p path) (before : Blank a) (after : Blank b) (right : LiteralText l literal) :
      ComparisonText (p ++ (a ++ (op.text.toList ++ (b ++ l)))) (.compare path op literal)
  | dangerous {a b p c : List Char} {path : List String} (before : Blank a) (inside : Blank b)
      (argument : PathText p path) (after : Blank c) :
      ComparisonText ("is_dangerous".toList ++ (a ++ '(' :: (b ++ (p ++ (c ++ [')']))))) (.dangerous path)
  | contains {p a b c d e : List Char} {path : List String} (needle : List SpelledChar)
      (left : PathText p path) (before : Blank a) (after : Blank b) (open' : Blank c) (inside : Blank d)
      (close : Blank e) :
      ComparisonText (p ++ (a ++ '.' :: (b ++ ("contains".toList ++ (c ++ '(' :: (d ++ (literalText needle ++
        (e ++ [')'])))))))) (.contains path needle)

/-- `(('&&' | '||') comparison)*`. -/
inductive ExprTail : List Char → List (Connective × Comparison) → Prop
  | nil : ExprTail [] []
  | cons {a b c text : List Char} {comparison : Comparison} {rest : List (Connective × Comparison)}
      (connective : Connective) (before : Blank a) (after : Blank b) (next : ComparisonText c comparison)
      (tail : ExprTail text rest) :
      ExprTail (a ++ (connective.symbol.toList ++ (b ++ (c ++ text)))) ((connective, comparison) :: rest)

inductive ExprText : List Char → Expr → Prop
  | mk {c text : List Char} {comparison : Comparison} {rest : List (Connective × Comparison)}
      (first : ComparisonText c comparison) (tail : ExprTail text rest) : ExprText (c ++ text) ⟨comparison, rest⟩

/-- The whole text is an expression, up to white space around it. -/
def Derives (text : List Char) (e : Expr) : Prop :=
  ∃ a t b, Blank a ∧ Blank b ∧ ExprText t e ∧ text = a ++ (t ++ b)

/-! ## Meanings -/

/-- The value of a comparison on a blackboard. -/
def Comparison.value (bb : Blackboard) : Comparison → Except RuntimeError Bool
  | .compare path op literal => do compareValues (← getBbValue bb path) op literal.value
  | .dangerous path => do return isDangerous (← valueAsString (← getBbValue bb path))
  | .contains path needle => do
      return strContains (← valueAsString (← getBbValue bb path)) (literalValue needle)

/-- What the parser answers to a path that it takes for a call. -/
def pathRefusal (path : List String) : Option RuntimeError :=
  if path.head? = some "is_dangerous" then some (.filterError "expected '(' after is_dangerous")
  else if "contains" ∈ path.tail then some (.filterError "expected '(' after contains")
  else none

/-- A string is refused if a character is written with hexadecimal digits. -/
def Literal.refusal : Literal → Option RuntimeError
  | .string chars =>
      if chars.any SpelledChar.isUnicode then
        some (.filterError "invalid unicode escape: expected 4 hex digits")
      else none
  | _ => none

/-- Why the parser refuses a comparison of the grammar: a name in its path is reserved, or its
    literal is refused. -/
def Comparison.refusal : Comparison → Option RuntimeError
  | .compare path _ literal => (pathRefusal path).or literal.refusal
  | .dangerous _ => none
  | .contains path needle => (pathRefusal path).or (Literal.string needle).refusal

/-- What the parser makes of a comparison. -/
def Comparison.outcome (bb : Blackboard) (c : Comparison) : Except RuntimeError Bool :=
  match c.refusal with
  | some error => .error error
  | none => c.value bb

/-- Every comparison is read and evaluated, from left to right. -/
def strictTail (bb : Blackboard) (result : Bool) : List (Connective × Comparison) → Except RuntimeError Bool
  | [] => .ok result
  | (connective, c) :: rest => do strictTail bb (connective.apply result (← c.outcome bb)) rest

def Expr.strict (bb : Blackboard) (e : Expr) : Except RuntimeError Bool := do
  strictTail bb (← e.first.outcome bb) e.rest

/-- A comparison that cannot change the result is not evaluated. -/
def shortCircuitTail (bb : Blackboard) (result : Bool) :
    List (Connective × Comparison) → Except RuntimeError Bool
  | [] => .ok result
  | (.and, c) :: rest =>
      if result then do shortCircuitTail bb (← c.value bb) rest else shortCircuitTail bb false rest
  | (.or, c) :: rest =>
      if result then shortCircuitTail bb true rest else do shortCircuitTail bb (← c.value bb) rest

/-- The evaluation from left to right that short-circuits `&&` and `||`. -/
def Expr.shortCircuit (bb : Blackboard) (e : Expr) : Except RuntimeError Bool := do
  shortCircuitTail bb (← e.first.value bb) e.rest

/-! ## The parser reads words -/

variable [CharTables]

theorem stops_blank_append {ws text : List Char} (blank : Blank ws) (stops : Stops isWordChar text) :
    Stops isWordChar (ws ++ text) := by
  cases ws with
  | nil => exact stops
  | cons c rest => exact (stops_cons _ _ _).mpr (isWordChar_blank (blank c List.mem_cons_self))

theorem IsIdentifier.wordChars {word : List Char} (identifier : IsIdentifier word) : ∀ c ∈ word, isWordChar c := by
  obtain ⟨c, rest, rfl, starts, others⟩ := identifier
  rw [List.forall_mem_cons]
  refine ⟨?_, others⟩
  rw [Bool.or_eq_true] at starts
  rw [isWordChar, Bool.or_eq_true]
  exact starts.imp_left (CharTables.alphabetic_alphanumeric c)

theorem IsIdentifier.stops {word : List Char} (identifier : IsIdentifier word) (text : List Char) :
    Stops isWhitespace (word ++ text) := by
  have wordChars := identifier.wordChars
  obtain ⟨c, rest, rfl, -⟩ := identifier
  rw [List.cons_append, stops_cons]
  by_contra blank
  rw [Bool.not_eq_false] at blank
  have word := wordChars c List.mem_cons_self
  rw [isWordChar_blank blank] at word
  cases word

theorem parseIdentifier_word {word rest : List Char} (identifier : IsIdentifier word) (ends : Stops isWordChar rest) :
    parseIdentifier (word ++ rest) = .ok (String.ofList word, rest) := by
  have start := skipWs_of_stops (identifier.stops rest)
  obtain ⟨c, others, rfl, starts, wordChars⟩ := identifier
  rw [parseIdentifier, start, List.cons_append]
  dsimp only
  rw [if_pos starts, takeWhile_append_stops wordChars ends, dropWhile_append_stops wordChars ends]

/-- A word of the language is consumed where it is the whole identifier. -/
theorem consume_identifier {word rest : List Char} (identifier : IsIdentifier word) (ends : Stops isWordChar rest)
    {s : String} (symbol : s.toList.all isWordChar) :
    consume s (word ++ rest) = if String.ofList word = s then (true, rest) else (false, word ++ rest) := by
  have start := skipWs_of_stops (identifier.stops rest)
  split
  · next same =>
      refine consume_eq_true.mpr ⟨?_, fun _ => ends⟩
      rw [start, ← same, String.toList_ofList]
  · next other =>
      rw [consume_eq_false_of_ne, start]
      intro rest' found
      obtain ⟨whole, ends'⟩ := consume_eq_true.mp found
      rw [start] at whole
      refine other ?_
      -- the word is the longest one that the input starts with
      have longest := takeWhile_append_stops identifier.wordChars ends
      rw [whole, takeWhile_append_stops (List.all_eq_true.mp symbol) (ends' symbol)] at longest
      rw [← longest, String.ofList_toList]

/-! ## The parser reads paths -/

theorem PathTail.stops {text rest : List Char} {more : List String} (tail : PathTail text more)
    (ends : Stops isWordChar rest) : Stops isWordChar (text ++ rest) := by
  cases tail with
  | nil => exact ends
  | cons before after identifier tail =>
      rw [List.append_assoc]
      exact stops_blank_append before ((stops_cons _ _ _).mpr (isWordChar_ascii (by decide)))

omit [CharTables] in
/-- The number of points in a text bounds the names in it. -/
theorem PathTail.length_le {text : List Char} {more : List String} (tail : PathTail text more) :
    more.length ≤ text.count '.' := by
  induction tail with
  | nil => exact Nat.zero_le _
  | cons before after identifier tail ih =>
      rw [List.length_cons, List.count_append, List.count_cons_self, List.count_append, List.count_append]
      omega

theorem consume_point (rest : List Char) : consume "." ('.' :: rest) = (true, rest) :=
  consume_symbol (by simp [isWordChar_ascii]) rfl

omit [CharTables] in
theorem consume_no_point {rest : List Char} (none : (skipWs rest).head? ≠ some '.') :
    consume "." rest = (false, skipWs rest) := consume_other rfl none

/-- After a point comes the next name. -/
theorem PathTail.next {a b word text rest : List Char} {more : List String} (before : Blank a) (after : Blank b)
    (identifier : IsIdentifier word) (tail : PathTail text more) (ends : Stops isWordChar rest) :
    consume "." (a ++ '.' :: (b ++ (word ++ text)) ++ rest) = (true, b ++ (word ++ (text ++ rest))) ∧
      skipWs (b ++ (word ++ (text ++ rest))) = word ++ (text ++ rest) ∧
      parseIdentifier (word ++ (text ++ rest)) = .ok (String.ofList word, text ++ rest) := by
  refine ⟨?_, ?_, parseIdentifier_word identifier (tail.stops ends)⟩
  · rw [List.append_assoc, consume_blank before, List.cons_append, consume_point, List.append_assoc,
      List.append_assoc]
  · rw [skipWs_blank after, skipWs_of_stops (identifier.stops _)]

theorem parsePath_text {a word text : List Char} {more : List String} (blank : Blank a)
    (identifier : IsIdentifier word) (tail : PathTail text more) {bound : Nat} (enough : more.length ≤ bound)
    {rest : List Char} (ends : Stops isWordChar rest) (noPoint : (skipWs rest).head? ≠ some '.') :
    parsePath bound (a ++ (word ++ (text ++ rest))) = .ok (String.ofList word :: more, skipWs rest) := by
  induction tail generalizing a word bound with
  | nil =>
      have start : skipWs (a ++ (word ++ rest)) = word ++ rest := by
        rw [skipWs_blank blank, skipWs_of_stops (identifier.stops _)]
      cases bound with
      | zero =>
          rw [parsePath_zero, List.nil_append, start, parseIdentifier_word identifier ends, ok_bind]
          dsimp only
          rw [consume_skipWs, consume_no_point noPoint]
      | succ bound =>
          rw [parsePath_succ, List.nil_append, start, parseIdentifier_word identifier ends, ok_bind]
          dsimp only
          rw [consume_skipWs, consume_no_point noPoint]
  | @cons b c next text more before after identifier' tail ih =>
      obtain ⟨bound, rfl⟩ : ∃ n, bound = n + 1 := ⟨bound - 1, by rw [List.length_cons] at enough; omega⟩
      have point := (PathTail.next before after identifier' tail ends).1
      have stops := (PathTail.cons before after identifier' tail).stops ends
      rw [parsePath_succ, skipWs_blank blank, skipWs_of_stops (identifier.stops _),
        parseIdentifier_word identifier stops, ok_bind]
      dsimp only
      rw [consume_skipWs, point]
      dsimp only
      rw [ih after identifier' (Nat.le_of_succ_le_succ enough), ok_bind]

/-! ## The parser reads literals -/

theorem digit_stops {c : Char} (digit : c.isDigit) {rest : List Char} : Stops isWhitespace (c :: rest) := by
  rw [stops_cons]
  by_contra blank
  rw [Bool.not_eq_false] at blank
  have word := isWordChar_blank blank
  have ascii : c.toNat < 128 := by
    simp only [Char.isDigit, Bool.and_eq_true, decide_eq_true_eq, UInt32.le_iff_toNat_le, ge_iff_le] at digit
    have nine : '9'.val.toNat = 57 := rfl
    rw [Char.toNat]
    omega
  rw [isWordChar_ascii ascii, Char.isAlphanum, digit] at word
  simp at word

/-- What follows a literal does not belong to it. -/
def Literal.Closed : Literal → List Char → Prop
  | .string _, _ => True
  | .number _, rest => Stops isNumberChar rest
  | .boolean _, rest => Stops isWordChar rest

omit [CharTables] in
theorem parseNumber_eq (input : List Char) : parseNumber input =
    (readNumber (String.ofList ((if (consume "-" (skipWs input)).1 then ['-'] else []) ++
      (consume "-" (skipWs input)).2.takeWhile isNumberChar))).map
        (·, (consume "-" (skipWs input)).2.dropWhile isNumberChar) := by
  have parsed (text : String) (left : List Char) :
      (if text.toList.contains '.' then
        match Crates.parseFloat text with
        | .ok f => .ok (.float f, left)
        | .error e => .error (.filterError ("invalid float: " ++ e))
      else
        match parseI64 text with
        | .ok i => .ok (.integer i, left)
        | .error e => .error (.filterError ("invalid integer: " ++ e))) = (readNumber text).map (·, left) := by
    unfold readNumber
    split
    · cases Crates.parseFloat text <;> rfl
    · cases parseI64 text <;> rfl
  unfold parseNumber
  exact parsed _ _

theorem parseNumber_text {text : List Char} {value : BlackboardValue} (number : NumberText text value)
    {rest : List Char} (closed : Stops isNumberChar rest) : parseNumber (text ++ rest) = .ok (value, rest) := by
  cases number with
  | @negative digits _ chars reads =>
      have minus : consume "-" (skipWs ('-' :: (digits ++ rest))) = (true, digits ++ rest) := by
        rw [consume_skipWs]
        exact consume_symbol (by simp [isWordChar_ascii]) rfl
      rw [List.cons_append, parseNumber_eq, minus]
      dsimp only
      rw [if_pos rfl, takeWhile_append_stops chars closed, dropWhile_append_stops chars closed,
        List.singleton_append, reads]
      rfl
  | @positive c digits _ digit chars reads =>
      have start : skipWs (c :: (digits ++ rest)) = c :: (digits ++ rest) := skipWs_of_stops (digit_stops digit)
      have all : ∀ d ∈ c :: digits, isNumberChar d := by
        rw [List.forall_mem_cons]
        exact ⟨by rw [isNumberChar, digit, Bool.true_or], chars⟩
      have noMinus : consume "-" (skipWs (c :: (digits ++ rest))) = (false, c :: (digits ++ rest)) := by
        rw [consume_skipWs]
        refine (consume_other rfl ?_).trans (by rw [start])
        rw [start]
        rintro ⟨⟩
        cases digit
      rw [List.cons_append, parseNumber_eq, noMinus]
      dsimp only
      rw [if_neg Bool.false_ne_true, ← List.cons_append, takeWhile_append_stops all closed,
        dropWhile_append_stops all closed, List.nil_append, reads]
      rfl

omit [CharTables] in
theorem consume_missed {s : String} {input : List Char} (start : Stops isWhitespace input)
    (missed : ¬ s.toList <+: input) : consume s input = (false, input) := by
  have skip := skipWs_of_stops start
  refine (consume_eq_false_of_ne fun rest found => missed ?_).trans (by rw [skip])
  rw [← skip, (consume_eq_true.mp found).1]
  exact List.prefix_append _ _

omit [CharTables] in
theorem parseLiteral_other {c : Char} {rest : List Char} (start : Stops isWhitespace (c :: rest)) (noTrue : c ≠ 't')
    (noFalse : c ≠ 'f') : parseLiteral (c :: rest) =
      if c == '"' then do
        let (s, rest) ← parseString (c :: rest)
        .ok (.string s, rest)
      else if c.isDigit || c == '-' then parseNumber (c :: rest)
      else .error (.filterError ("expected literal at: " ++ String.ofList (c :: rest))) := by
  have notTrue : consume "true" (c :: rest) = (false, c :: rest) :=
    consume_missed start (by simp [List.cons_prefix_cons, Ne.symm noTrue])
  have notFalse : consume "false" (c :: rest) = (false, c :: rest) :=
    consume_missed start (by simp [List.cons_prefix_cons, Ne.symm noFalse])
  rw [parseLiteral, consume_skipWs, notTrue]
  dsimp only
  rw [notFalse]

theorem parseLiteral_text {text : List Char} {literal : Literal} (written : LiteralText text literal)
    {rest : List Char} (closed : literal.Closed rest) :
    parseLiteral (text ++ rest) = match literal.refusal with
      | some error => .error error
      | none => .ok (literal.value, rest) := by
  cases written with
  | string chars =>
      have text : literalText chars ++ rest = '"' :: (chars.flatMap SpelledChar.text ++ '"' :: rest) := by
        simp [literalText]
      rw [text, @parseLiteral_other _ '"' _ rfl (by decide) (by decide), if_pos (by rfl), ← text, parseString_text,
        Literal.refusal]
      split <;> rfl
  | @number _ value number =>
      have parsed := parseNumber_text number closed
      cases number with
      | negative chars reads =>
          rw [List.cons_append] at parsed ⊢
          rw [@parseLiteral_other _ '-' _ rfl (by decide) (by decide), if_neg (by decide), if_pos (by decide),
            parsed]
          rfl
      | @positive c digits _ digit chars reads =>
          have noLetter (d : Char) (letter : d.isDigit = false) : c ≠ d := by
            rintro rfl
            exact absurd digit (by simp [letter])
          rw [List.cons_append] at parsed ⊢
          rw [parseLiteral_other (digit_stops digit) (noLetter 't' rfl) (noLetter 'f' rfl),
            if_neg (by simpa using noLetter '"' rfl), if_pos (by rw [digit, Bool.true_or]), parsed]
          rfl
  | yes =>
      have found : consume "true" ("true".toList ++ rest) = (true, rest) :=
        consume_eq_true.mpr ⟨rfl, fun _ => closed⟩
      rw [parseLiteral, consume_skipWs, found]
      rfl
  | no =>
      have missed : consume "true" ("false".toList ++ rest) = (false, "false".toList ++ rest) :=
        consume_missed rfl (by simp)
      have found : consume "false" ("false".toList ++ rest) = (true, rest) :=
        consume_eq_true.mpr ⟨rfl, fun _ => closed⟩
      rw [parseLiteral, consume_skipWs, missed]
      dsimp only
      rw [found]
      rfl

omit [CharTables] in
theorem parseLiteral_skipWs (input : List Char) : parseLiteral (skipWs input) = parseLiteral input := by
  rw [parseLiteral, skipWs_skipWs, parseLiteral]

/-! ## The parser reads operators -/

omit [Crates] [CharTables] in
theorem op_stops (op : CompareOp) (rest : List Char) : Stops isWhitespace (op.text.toList ++ rest) := by
  cases op <;> rfl

theorem parseOperator_text {a rest : List Char} (blank : Blank a) (op : CompareOp) (ends : rest.head? ≠ some '=') :
    parseOperator (a ++ (op.text.toList ++ rest)) = .ok (op, rest) := by
  have found : consume op.text (op.text.toList ++ rest) = (true, rest) := by
    refine consume_symbol ?_ (skipWs_of_stops (op_stops op rest))
    cases op <;> simp [CompareOp.text, isWordChar_ascii]
  have missed (other : CompareOp) (differs : ¬ other.text.toList <+: op.text.toList ++ rest) :
      consume other.text (op.text.toList ++ rest) = (false, op.text.toList ++ rest) :=
    consume_missed (op_stops op rest) differs
  have longer : ¬ ['='] <+: rest := by
    rintro ⟨left, rfl⟩
    exact ends rfl
  rw [parseOperator, parseOperator.go, consume_blank blank]
  cases op with
  | eq => rw [found]
  | ne =>
      have eq := missed .eq (by simp [CompareOp.text])
      simp only [parseOperator.go, eq, found]
  | le =>
      have eq := missed .eq (by simp [CompareOp.text])
      have ne := missed .ne (by simp [CompareOp.text])
      simp only [parseOperator.go, eq, ne, found]
  | ge =>
      have eq := missed .eq (by simp [CompareOp.text])
      have ne := missed .ne (by simp [CompareOp.text])
      have le := missed .le (by simp [CompareOp.text])
      simp only [parseOperator.go, eq, ne, le, found]
  | lt =>
      have eq := missed .eq (by simp [CompareOp.text])
      have ne := missed .ne (by simp [CompareOp.text])
      have le := missed .le (by simpa [CompareOp.text] using longer)
      have ge := missed .ge (by simp [CompareOp.text])
      simp only [parseOperator.go, eq, ne, le, ge, found]
  | gt =>
      have eq := missed .eq (by simp [CompareOp.text])
      have ne := missed .ne (by simp [CompareOp.text])
      have le := missed .le (by simp [CompareOp.text])
      have ge := missed .ge (by simpa [CompareOp.text] using longer)
      have lt := missed .lt (by simp [CompareOp.text])
      simp only [parseOperator.go, eq, ne, le, ge, lt, found]

/-! ## The parser reads comparisons -/

omit [Crates] [CharTables] in
theorem skipWs_visible {c : Char} (visible : isWhitespace c = false) (rest : List Char) :
    skipWs (c :: rest) = c :: rest := skipWs_of_stops visible

omit [Crates] [CharTables] in
theorem skipWs_literal (literal : List SpelledChar) (rest : List Char) :
    skipWs (literalText literal ++ rest) = literalText literal ++ rest := skipWs_visible rfl _

/-- What follows a comparison does not belong to its literal. -/
def Comparison.Closed : Comparison → List Char → Prop
  | .compare _ _ literal, rest => literal.Closed rest
  | _, _ => True

omit [Crates] [CharTables] in
theorem head_blank_append {ws : List Char} (blank : Blank ws) {d : Char} (visible : isWhitespace d = false)
    {text : List Char} (other : text.head? ≠ some d) : (ws ++ text).head? ≠ some d := by
  cases ws with
  | nil => exact other
  | cons c rest =>
      intro same
      have here : c = d := Option.some.inj same
      have hidden := blank c List.mem_cons_self
      rw [here, visible] at hidden
      cases hidden

omit [CharTables] in
theorem LiteralText.head_ne {text : List Char} {literal : Literal} (written : LiteralText text literal)
    (rest : List Char) : (text ++ rest).head? ≠ some '=' := by
  cases written with
  | number number =>
      cases number with
      | negative => simp
      | positive digit =>
          intro same
          rw [Option.some.inj same] at digit
          cases digit
  | _ => simp [literalText]

section

variable (bb : Blackboard)

omit [CharTables] in
theorem parseComparisonTail_skipWs (bound : Nat) (path : List String) (input : List Char) :
    parseComparisonTail bb bound path (skipWs input) = parseComparisonTail bb bound path input := by
  unfold parseComparisonTail
  rw [consume_skipWs]

theorem parseComparisonTail_compare (bound : Nat) (path : List String) {a b l rest : List Char} (op : CompareOp)
    {literal : Literal} (before : Blank a) (after : Blank b) (right : LiteralText l literal)
    (closed : literal.Closed rest) :
    parseComparisonTail bb bound path (a ++ (op.text.toList ++ (b ++ (l ++ rest)))) =
      match literal.refusal with
      | some error => .error error
      | none => ((Comparison.compare path op literal).value bb).map (·, rest) := by
  have noPoint : consume "." (a ++ (op.text.toList ++ (b ++ (l ++ rest)))) =
      (false, op.text.toList ++ (b ++ (l ++ rest))) := by
    rw [consume_blank before]
    refine consume_missed (op_stops op _) ?_
    cases op <;> simp [CompareOp.text]
  have readOp : parseOperator (op.text.toList ++ (b ++ (l ++ rest))) = .ok (op, b ++ (l ++ rest)) :=
    parseOperator_text (List.forall_mem_nil _) op (head_blank_append after rfl (right.head_ne rest))
  have readLiteral : parseLiteral (skipWs (b ++ (l ++ rest))) = parseLiteral (l ++ rest) := by
    rw [skipWs_blank after, parseLiteral_skipWs]
  rw [parseComparisonTail.eq_2 _ _ _ _ _ _ (by simp) noPoint, readOp, ok_bind]
  dsimp only
  rw [readLiteral, parseLiteral_text right closed]
  split
  · rfl
  · rw [ok_bind, Comparison.value]
    dsimp only
    cases getBbValue bb path with
    | error error => rfl
    | ok value => cases compareValues value op literal.value <;> rfl

theorem consume_open (rest : List Char) : consume "(" ('(' :: rest) = (true, rest) :=
  consume_symbol (by simp [isWordChar_ascii]) rfl

theorem consume_close (rest : List Char) : consume ")" (')' :: rest) = (true, rest) :=
  consume_symbol (by simp [isWordChar_ascii]) rfl

/-- The name of the call is an identifier like any other. -/
theorem contains_identifier : IsIdentifier "contains".toList := by
  refine ⟨'c', "ontains".toList, rfl, ?_, ?_⟩
  · rw [CharTables.ascii_alphabetic _ (by decide)]
    rfl
  · intro d member
    have ascii : d.toNat < 128 := by
      have all : "ontains".toList.all (·.toNat < 128) = true := by decide
      simpa using List.all_eq_true.mp all d member
    rw [isWordChar_ascii ascii]
    have word : "ontains".toList.all (fun c => c.isAlphanum || c == '_') = true := by decide
    exact List.all_eq_true.mp word d member

theorem parseComparisonTail_contains (bound : Nat) (path : List String) {a b c d e : List Char}
    (needle : List SpelledChar) (before : Blank a) (after : Blank b) (opens : Blank c) (inside : Blank d)
    (close : Blank e) (rest : List Char) :
    parseComparisonTail bb (bound + 1) path (a ++ '.' :: (b ++ ("contains".toList ++ (c ++ '(' :: (d ++
        (literalText needle ++ (e ++ ')' :: rest))))))) =
      match (Literal.string needle).refusal with
      | some error => .error error
      | none => ((Comparison.contains path needle).value bb).map (·, rest) := by
  have ends : Stops isWordChar (c ++ '(' :: (d ++ (literalText needle ++ (e ++ ')' :: rest)))) :=
    stops_blank_append opens ((stops_cons _ _ _).mpr (isWordChar_ascii (by decide)))
  rw [parseComparisonTail.eq_1 _ _ _ _ _ (by rw [consume_blank before, consume_point]), skipWs_blank after,
    skipWs_of_stops (contains_identifier.stops _), parseIdentifier_word contains_identifier ends, ok_bind]
  dsimp only
  rw [if_pos String.ofList_toList, skipWs_blank opens, consume_skipWs, consume_open]
  dsimp only
  rw [skipWs_blank inside, skipWs_literal, parseString_text, Literal.refusal]
  split
  · rfl
  · rw [ok_bind]
    dsimp only
    rw [consume_skipWs, consume_blank close, consume_close]
    dsimp only
    rw [Comparison.value]
    cases getBbValue bb path with
    | error error => rfl
    | ok value =>
        rw [ok_bind, ok_bind]
        cases valueAsString value <;> rfl

omit [CharTables] in
/-- After a name that is a call there is no parenthesis. -/
theorem PathTail.head_ne {text rest : List Char} {more : List String} (tail : PathTail text more)
    (noCall : (skipWs rest).head? ≠ some '(') : (skipWs (text ++ rest)).head? ≠ some '(' := by
  cases tail with
  | nil => exact noCall
  | cons before after identifier tail =>
      rw [List.append_assoc, skipWs_blank before, List.cons_append, skipWs_visible rfl]
      simp

/-- The names of a path are collected, unless one of them is taken for a call. -/
theorem parseComparisonTail_names {text rest : List Char} {more : List String} (tail : PathTail text more)
    {bound : Nat} (enough : more.length ≤ bound) (path : List String) (ends : Stops isWordChar rest)
    (noCall : (skipWs rest).head? ≠ some '(') :
    parseComparisonTail bb bound path (text ++ rest) =
      if "contains" ∈ more then .error (.filterError "expected '(' after contains")
      else parseComparisonTail bb (bound - more.length) (path ++ more) rest := by
  induction tail generalizing bound path with
  | nil => simp
  | @cons a b word text more before after identifier tail ih =>
      obtain ⟨bound, rfl⟩ : ∃ n, bound = n + 1 := ⟨bound - 1, by rw [List.length_cons] at enough; omega⟩
      obtain ⟨point, skip, read⟩ := PathTail.next before after identifier tail ends
      rw [parseComparisonTail.eq_1 _ _ _ _ _ point, skip, read, ok_bind]
      dsimp only
      split
      · next call =>
          rw [consume_skipWs, consume_other rfl (tail.head_ne noCall), if_pos (by rw [call]; exact List.mem_cons_self)]
      · next name =>
          have other : "contains" ≠ String.ofList word := Ne.symm name
          rw [parseComparisonTail_skipWs, ih (Nat.le_of_succ_le_succ enough), List.append_assoc,
            List.length_cons, Nat.add_sub_add_right]
          simp only [List.mem_cons, other, false_or, List.singleton_append]

omit [Crates] [CharTables] in
/-- White space has no points. -/
theorem count_skipWs (text : List Char) : text.count '.' ≤ (skipWs text).length := by
  obtain ⟨ws, blank, whole⟩ := skipWs_split text
  have none : ws.count '.' = 0 := by
    refine List.count_eq_zero.mpr fun member => ?_
    exact absurd (blank '.' member) (by decide)
  have count : text.count '.' = (skipWs text).count '.' := by
    rw [congrArg (List.count '.') whole, List.count_append, none, Nat.zero_add]
  exact count ▸ List.count_le_length

theorem dangerous_word : "is_dangerous".toList.all isWordChar := by
  simp [isWordChar_ascii]

/-- A comparison that starts with a path: the path is read, or it is refused. -/
theorem parseComparison_path {ws p rest : List Char} {path : List String} (blank : Blank ws) (left : PathText p path)
    (ends : Stops isWordChar rest) (noCall : (skipWs rest).head? ≠ some '(') :
    ∃ bound, rest.count '.' ≤ bound ∧ parseComparison bb (ws ++ (p ++ rest)) =
      match pathRefusal path with
      | some error => .error error
      | none => parseComparisonTail bb bound path rest := by
  cases left with
  | @mk word text more identifier tail =>
      have stops := tail.stops ends
      have count := count_skipWs (text ++ rest)
      have names := tail.length_le
      rw [List.count_append] at count
      refine ⟨(skipWs (text ++ rest)).length - more.length, by omega, ?_⟩
      have start : skipWs (ws ++ (word ++ text ++ rest)) = word ++ (text ++ rest) := by
        rw [skipWs_blank blank, List.append_assoc, skipWs_of_stops (identifier.stops _)]
      rw [parseComparison, start, consume_identifier identifier stops dangerous_word, pathRefusal,
        List.head?_cons, List.tail_cons]
      by_cases reserved : String.ofList word = "is_dangerous"
      · rw [if_pos reserved, if_pos (congrArg some reserved)]
        dsimp only
        rw [consume_skipWs, consume_other rfl (tail.head_ne noCall)]
      · rw [if_neg reserved, if_neg (fun same => reserved (Option.some.inj same))]
        dsimp only
        rw [parseIdentifier_word identifier stops, ok_bind]
        dsimp only
        rw [parseComparisonTail_skipWs, parseComparisonTail_names bb tail (by omega) _ ends noCall]
        split <;> rfl

/-- A comparison of the grammar is read as it is, and its outcome is the answer. -/
theorem parseComparison_text {ws text rest : List Char} {c : Comparison} (blank : Blank ws)
    (written : ComparisonText text c) (closed : c.Closed rest) :
    parseComparison bb (ws ++ (text ++ rest)) = (c.outcome bb).map (·, rest) := by
  cases written with
  | @compare p a b l path literal op left before after right =>
      have ends : Stops isWordChar (a ++ (op.text.toList ++ (b ++ (l ++ rest)))) := by
        refine stops_blank_append before ?_
        cases op <;> exact (stops_cons _ _ _).mpr (isWordChar_ascii (by decide))
      have noCall : (skipWs (a ++ (op.text.toList ++ (b ++ (l ++ rest))))).head? ≠ some '(' := by
        rw [skipWs_blank before, skipWs_of_stops (op_stops op _)]
        cases op <;> simp [CompareOp.text]
      obtain ⟨bound, -, read⟩ := parseComparison_path bb blank left ends noCall
      simp only [List.append_assoc]
      rw [read, Comparison.outcome, Comparison.refusal]
      cases pathRefusal path with
      | some error => rfl
      | none =>
          dsimp only
          rw [parseComparisonTail_compare bb bound path op before after right closed, Option.none_or]
          cases literal.refusal <;> rfl
  | @dangerous a b p c path before inside argument after =>
      cases argument with
      | @mk word names more identifier tail =>
          have found : consume "is_dangerous" ("is_dangerous".toList ++ (a ++ '(' :: (b ++ (word ++ (names ++
              (c ++ ')' :: rest)))))) = (true, a ++ '(' :: (b ++ (word ++ (names ++ (c ++ ')' :: rest))))) :=
            consume_eq_true.mpr ⟨rfl, fun _ => stops_blank_append before
              ((stops_cons _ _ _).mpr (isWordChar_ascii (by decide)))⟩
          have ends : Stops isWordChar (c ++ ')' :: rest) :=
            stops_blank_append after ((stops_cons _ _ _).mpr (isWordChar_ascii (by decide)))
          have closes : skipWs (c ++ ')' :: rest) = ')' :: rest := by
            rw [skipWs_blank after, skipWs_visible rfl]
          have start : skipWs (b ++ (word ++ (names ++ (c ++ ')' :: rest)))) = word ++ (names ++ (c ++ ')' :: rest)) := by
            rw [skipWs_blank inside, skipWs_of_stops (identifier.stops _)]
          have enough : more.length ≤ (word ++ (names ++ (c ++ ')' :: rest))).length := by
            have points := tail.length_le.trans List.count_le_length
            rw [List.length_append, List.length_append]
            omega
          have path := parsePath_text (List.forall_mem_nil _) identifier tail enough ends (by simp [closes])
          simp only [List.append_assoc, List.cons_append, List.nil_append] at path ⊢
          rw [parseComparison, consume_skipWs, consume_blank blank, found]
          dsimp only
          rw [consume_skipWs, consume_blank before, consume_open]
          dsimp only
          rw [start, path, ok_bind]
          dsimp only
          rw [consume_skipWs, closes, consume_close]
          dsimp only
          rw [Comparison.outcome, Comparison.refusal]
          dsimp only
          rw [Comparison.value]
          cases getBbValue bb (String.ofList word :: more) with
          | error error => rfl
          | ok value =>
              rw [ok_bind, ok_bind]
              cases valueAsString value <;> rfl
  | @contains p a b c d e path needle left before after opens inside close =>
      have ends : Stops isWordChar (a ++ '.' :: (b ++ ("contains".toList ++ (c ++ '(' :: (d ++
          (literalText needle ++ (e ++ ')' :: rest))))))) :=
        stops_blank_append before ((stops_cons _ _ _).mpr (isWordChar_ascii (by decide)))
      have noCall : (skipWs (a ++ '.' :: (b ++ ("contains".toList ++ (c ++ '(' :: (d ++
          (literalText needle ++ (e ++ ')' :: rest)))))))).head? ≠ some '(' := by
        rw [skipWs_blank before, skipWs_visible rfl]
        simp
      obtain ⟨bound, enough, read⟩ := parseComparison_path bb blank left ends noCall
      obtain ⟨bound, rfl⟩ : ∃ n, bound = n + 1 := by
        rw [List.count_append, List.count_cons_self] at enough
        exact ⟨bound - 1, by omega⟩
      simp only [List.append_assoc, List.cons_append, List.nil_append]
      rw [read, Comparison.outcome, Comparison.refusal]
      cases pathRefusal path with
      | some error => rfl
      | none =>
          dsimp only
          rw [parseComparisonTail_contains bb bound path needle before after opens inside close, Option.none_or]
          cases (Literal.string needle).refusal <;> rfl

/-! ## The parser reads expressions -/

/-- The last comparison of a chain. -/
def lastComparison (c : Comparison) : List (Connective × Comparison) → Comparison
  | [] => c
  | (_, next) :: rest => lastComparison next rest

def Expr.last (e : Expr) : Comparison := lastComparison e.first e.rest

/-- What follows is one more connective. -/
def GoesOn (rest : List Char) : Prop := "&&".toList <+: skipWs rest ∨ "||".toList <+: skipWs rest

omit [Crates] [CharTables] in
theorem symbol_stops (connective : Connective) (rest : List Char) :
    Stops isWhitespace (connective.symbol.toList ++ rest) := by
  cases connective <;> rfl

theorem consume_connective (connective : Connective) {ws : List Char} (blank : Blank ws) (rest : List Char) :
    consume connective.symbol (ws ++ (connective.symbol.toList ++ rest)) = (true, rest) := by
  rw [consume_blank blank]
  refine consume_symbol ?_ (skipWs_of_stops (symbol_stops connective rest))
  cases connective <;> simp [Connective.symbol, isWordChar_ascii]

theorem isNumberChar_blank {c : Char} (blank : isWhitespace c) : isNumberChar c = false := by
  by_contra number
  rw [Bool.not_eq_false, isNumberChar, Bool.or_eq_true, beq_iff_eq] at number
  rcases number with digit | rfl
  · have visible : Stops isWhitespace [c] := digit_stops digit
    rw [stops_cons, blank] at visible
    cases visible
  · cases blank

omit [CharTables] in
theorem closed_of_stops (c : Comparison) {rest : List Char} (word : Stops isWordChar rest)
    (number : Stops isNumberChar rest) : c.Closed rest := by
  cases c with
  | compare path op literal =>
      cases literal with
      | string => trivial
      | number => exact number
      | boolean => exact word
  | _ => trivial

/-- White space belongs to no literal before it. -/
theorem closed_blank (c : Comparison) {rest : List Char} (blank : Blank rest) : c.Closed rest := by
  have word : Stops isWordChar rest := by
    rw [← List.append_nil rest]
    exact stops_blank_append blank rfl
  have number : Stops isNumberChar rest := by
    cases rest with
    | nil => rfl
    | cons d rest => exact (stops_cons _ _ _).mpr (isNumberChar_blank (blank d List.mem_cons_self))
  exact closed_of_stops c word number

/-- A connective belongs to no literal before it. -/
theorem closed_connective (c : Comparison) (connective : Connective) {ws : List Char} (blank : Blank ws)
    (rest : List Char) : c.Closed (ws ++ (connective.symbol.toList ++ rest)) := by
  have word : Stops isWordChar (ws ++ (connective.symbol.toList ++ rest)) := by
    refine stops_blank_append blank ?_
    cases connective <;> exact (stops_cons _ _ _).mpr (isWordChar_ascii (by decide))
  have number : Stops isNumberChar (ws ++ (connective.symbol.toList ++ rest)) := by
    cases ws with
    | nil => cases connective <;> rfl
    | cons d ws => exact (stops_cons _ _ _).mpr (isNumberChar_blank (blank d List.mem_cons_self))
  exact closed_of_stops c word number

/-- The comparison before a chain is closed by it. -/
theorem ExprTail.closed {text rest : List Char} {c : Comparison} {list : List (Connective × Comparison)}
    (tail : ExprTail text list) (closed : (lastComparison c list).Closed rest) : c.Closed (text ++ rest) := by
  cases tail with
  | nil => exact closed
  | cons connective before after next tail =>
      rw [List.append_assoc, List.append_assoc]
      exact closed_connective c connective before _

omit [CharTables] in
theorem ExprTail.length_le {text : List Char} {list : List (Connective × Comparison)}
    (tail : ExprTail text list) : list.length ≤ text.length := by
  induction tail with
  | nil => exact Nat.le_refl 0
  | @cons a b c text comparison list connective before after next tail ih =>
      have symbol : connective.symbol.toList.length = 2 := by cases connective <;> rfl
      simp only [List.length_append, List.length_cons, symbol]
      omega

theorem parseExprTail_text {text rest : List Char} {c : Comparison} {list : List (Connective × Comparison)}
    (tail : ExprTail text list) {bound : Nat} (enough : list.length ≤ bound) (result : Bool)
    (closed : (lastComparison c list).Closed rest) (ends : ¬ GoesOn rest) :
    parseExprTail bb bound result (text ++ rest) = (strictTail bb result list).map (·, skipWs rest) := by
  induction tail generalizing bound result c with
  | nil =>
      have noAnd : consume "&&" rest = (false, skipWs rest) := by
        rw [← consume_skipWs]
        exact consume_missed (skipWs_stops rest) fun goes => ends (.inl goes)
      have noOr : consume "||" (skipWs rest) = (false, skipWs rest) :=
        consume_missed (skipWs_stops rest) fun goes => ends (.inr goes)
      rw [List.nil_append, strictTail]
      cases bound with
      | zero =>
          rw [parseExprTail.eq_3 _ _ _ _ _ ((consume_skipWs _ _).trans noAnd)]
          rfl
      | succ bound =>
          rw [parseExprTail.eq_2 _ _ _ _ _ ((consume_skipWs _ _).trans noAnd), noOr]
          rfl
  | @cons a b d text comparison list connective before after next tail ih =>
      obtain ⟨bound, rfl⟩ : ∃ n, bound = n + 1 := ⟨bound - 1, by rw [List.length_cons] at enough; omega⟩
      have found := consume_connective connective before (b ++ (d ++ (text ++ rest)))
      have read := parseComparison_text bb after next (tail.closed closed)
      simp only [List.append_assoc]
      cases connective with
      | and =>
          rw [parseExprTail.eq_1 _ _ _ _ _ ((consume_skipWs _ _).trans found), read, strictTail]
          cases comparison.outcome bb with
          | error error => rfl
          | ok value => exact ih (Nat.le_of_succ_le_succ enough) (result && value) closed
      | or =>
          have noAnd : consume "&&" (a ++ (Connective.or.symbol.toList ++ (b ++ (d ++ (text ++ rest))))) =
              (false, Connective.or.symbol.toList ++ (b ++ (d ++ (text ++ rest)))) := by
            rw [consume_blank before]
            exact consume_missed rfl (by simp [Connective.symbol])
          rw [consume_blank before, Connective.symbol] at found
          rw [parseExprTail.eq_2 _ _ _ _ _ ((consume_skipWs _ _).trans noAnd), Connective.symbol, found]
          dsimp only
          rw [read, strictTail]
          cases comparison.outcome bb with
          | error error => rfl
          | ok value => exact ih (Nat.le_of_succ_le_succ enough) (result || value) closed

/-- An expression of the grammar is read as far as it goes, and every comparison is evaluated. -/
theorem parseExpr_text {ws text rest : List Char} {e : Expr} (blank : Blank ws) (written : ExprText text e)
    (closed : e.last.Closed rest) (ends : ¬ GoesOn rest) :
    parseExpr bb (ws ++ (text ++ rest)) = (e.strict bb).map (·, skipWs rest) := by
  cases written with
  | @mk c text comparison list first tail =>
      have enough : list.length ≤ (text ++ rest).length := by
        have shorter := tail.length_le
        rw [List.length_append]
        omega
      rw [parseExpr, List.append_assoc, parseComparison_text bb blank first (tail.closed closed), Expr.strict]
      cases comparison.outcome bb with
      | error error => rfl
      | ok value => exact parseExprTail_text bb tail enough value closed ends

end

end

end AgileAgent.DecisionDsl.Script
