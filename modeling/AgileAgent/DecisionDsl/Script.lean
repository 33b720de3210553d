import AgileAgent.DecisionDsl.Host

/-! # Script expressions

The parser-evaluator of `Evaluator::Script`. A parser step returns a value and the
rest of the input; every loop consumes input, so the length of the rest bounds it.
-/

namespace AgileAgent.DecisionDsl

section

variable [Crates]

def getBbValue (bb : Blackboard) (path : List String) : Except RuntimeError BlackboardValue :=
  let pathStr := ".".intercalate path
  match bb.getPath pathStr with
  | some value => .ok value
  | none => .error (.missingVariable pathStr)

def valueAsString : BlackboardValue → Except RuntimeError String
  | .string s => .ok s
  | .integer i => .ok (toString i)
  | .float f => .ok (Crates.showFloat f)
  | .boolean b => .ok (if b then "true" else "false")
  | .null => .ok ""
  | _ => .error (.filterError "expected scalar value")

inductive CompareOp where
  | eq | ne | lt | le | gt | ge
  deriving Repr, DecidableEq

def CompareOp.text : CompareOp → String
  | .eq => "==" | .ne => "!=" | .lt => "<" | .le => "<=" | .gt => ">" | .ge => ">="

/-- `f64::EPSILON`. -/
def floatEpsilon : Float := 2.220446049250313e-16

/-- Comparison of floats; a NaN differs from everything and is not ordered. -/
def compareFloats (a : Float) (op : CompareOp) (b : Float) : Bool :=
  let nan := a.isNaN || b.isNaN
  match op with
  | .eq => !nan && (a - b).abs < floatEpsilon
  | .ne => nan || !((a - b).abs < floatEpsilon)
  | .lt => !nan && a < b
  | .le => !nan && a ≤ b
  | .gt => !nan && a > b
  | .ge => !nan && a ≥ b

def compareValues (left : BlackboardValue) (op : CompareOp) (right : BlackboardValue) :
    Except RuntimeError Bool :=
  match left, right with
  | .string a, .string b => .ok <| match op with
      | .eq => a == b | .ne => a != b | .lt => decide (a < b) | .le => decide (a ≤ b)
      | .gt => decide (a > b) | .ge => decide (a ≥ b)
  | .integer a, .integer b => .ok <| match op with
      | .eq => a == b | .ne => a != b | .lt => decide (a < b) | .le => decide (a ≤ b)
      | .gt => decide (a > b) | .ge => decide (a ≥ b)
  | .float a, .float b => .ok (compareFloats a op b)
  | .integer a, .float b => .ok (compareFloats (Float.ofInt a) op b)
  | .float a, .integer b => .ok (compareFloats a op (Float.ofInt b))
  | .boolean a, .boolean b => match op with
      | .eq => .ok (a == b)
      | .ne => .ok (a != b)
      | _ => .error (.filterError ("operator " ++ op.text ++ " not supported for booleans"))
  | _, _ => .error (.filterError ("type mismatch in comparison: " ++ Crates.debugValue left ++ " " ++
      op.text ++ " " ++ Crates.debugValue right))

/-- The keywords of `is_dangerous`. -/
def dangerousKeywords : List String :=
  ["delete", "drop", "rm -rf", "truncate table", "drop table", "drop database", "shutdown",
    "kill", "format", "destroy"]

def isDangerous (s : String) : Bool :=
  let lower := Crates.toLowercase s
  dangerousKeywords.any (strContains lower)

namespace Script

def isWordChar (c : Char) : Bool := Crates.isAlphanumeric c || c == '_'

def skipWs (input : List Char) : List Char := input.dropWhile isWhitespace

/-- `consume`: white space is skipped in any case; a word must end where it ends. -/
def consume (s : String) (input : List Char) : Bool × List Char :=
  let input := skipWs input
  let after := input.drop s.toList.length
  if s.toList.isPrefixOf input then
    if s.toList.all isWordChar && (after.head?.elim false isWordChar) then (false, input)
    else (true, after)
  else (false, input)

def parseIdentifier (input : List Char) : Except RuntimeError (String × List Char) :=
  match skipWs input with
  | [] => .error (.filterError "unexpected end of input, expected identifier")
  | c :: rest =>
      if Crates.isAlphabetic c || c == '_' then
        .ok (String.ofList (c :: rest.takeWhile isWordChar), rest.dropWhile isWordChar)
      else .error (.filterError ("expected identifier at: " ++ String.ofList (c :: rest)))

/-- The characters of a string literal, up to the closing quote or the end. -/
def parseStringChars : List Char → Except RuntimeError (List Char × List Char)
  | [] => .ok ([], [])
  | '"' :: rest => .ok ([], '"' :: rest)
  | '\\' :: [] => .error (.filterError "unterminated escape sequence")
  | '\\' :: c :: rest => do
      let char ← match c with
        | 'n' => .ok '\n'
        | 't' => .ok '\t'
        | 'r' => .ok '\r'
        -- the source slices `pos..pos.min(pos + 4)`, which is empty
        | 'u' => .error (.filterError "invalid unicode escape: expected 4 hex digits")
        | c => .ok c
      let (chars, rest) ← parseStringChars rest
      .ok (char :: chars, rest)
  | c :: rest => do
      let (chars, rest) ← parseStringChars rest
      .ok (c :: chars, rest)

def parseString (input : List Char) : Except RuntimeError (String × List Char) :=
  match consume "\"" (skipWs input) with
  | (false, _) => .error (.filterError "expected string literal")
  | (true, rest) => do
      let (chars, rest) ← parseStringChars rest
      match consume "\"" rest with
      | (false, _) => .error (.filterError "unterminated string literal")
      | (true, rest) => .ok (String.ofList chars, rest)

def parseNumber (input : List Char) : Except RuntimeError (BlackboardValue × List Char) :=
  let start := skipWs input
  let (minus, rest) := consume "-" start
  let isNumberChar (c : Char) : Bool := c.isDigit || c == '.'
  let s := String.ofList ((if minus then ['-'] else []) ++ rest.takeWhile isNumberChar)
  let rest := rest.dropWhile isNumberChar
  if s.toList.contains '.' then
    match Crates.parseFloat s with
    | .ok f => .ok (.float f, rest)
    | .error e => .error (.filterError ("invalid float: " ++ e))
  else
    match parseI64 s with
    | .ok i => .ok (.integer i, rest)
    | .error e => .error (.filterError ("invalid integer: " ++ e))

def parseLiteral (input : List Char) : Except RuntimeError (BlackboardValue × List Char) :=
  match consume "true" (skipWs input) with
  | (true, rest) => .ok (.boolean true, rest)
  | (false, input) =>
      match consume "false" input with
      | (true, rest) => .ok (.boolean false, rest)
      | (false, []) => .error (.filterError "unexpected end of input, expected literal")
      | (false, c :: rest) =>
          if c == '"' then do
            let (s, rest) ← parseString (c :: rest)
            .ok (.string s, rest)
          else if c.isDigit || c == '-' then parseNumber (c :: rest)
          else .error (.filterError ("expected literal at: " ++ String.ofList (c :: rest)))

/-- `parse_path`; `bound` is at least the length of the input. -/
def parsePath (bound : Nat) (input : List Char) : Except RuntimeError (List String × List Char) := do
  let (ident, rest) ← parseIdentifier (skipWs input)
  match bound, consume "." (skipWs rest) with
  | bound + 1, (true, rest) => do
      let (parts, rest) ← parsePath bound rest
      .ok (ident :: parts, rest)
  | _, (_, rest) => .ok ([ident], rest)

def parseOperator (input : List Char) : Except RuntimeError (CompareOp × List Char) :=
  go [.eq, .ne, .le, .ge, .lt, .gt] input
where
  go : List CompareOp → List Char → Except RuntimeError (CompareOp × List Char)
    | [], input =>
        .error (.filterError ("expected operator, got: " ++ String.ofList input))
    | op :: ops, input =>
        match consume op.text input with
        | (true, rest) => .ok (op, rest)
        | (false, input) => go ops input

/-- The rest of a comparison after the components `path`; `bound` is at least the
    length of the input. -/
def parseComparisonTail (bb : Blackboard) (bound : Nat) (path : List String)
    (input : List Char) : Except RuntimeError (Bool × List Char) :=
  match bound, consume "." input with
  | bound + 1, (true, rest) => do
      let (ident, rest) ← parseIdentifier (skipWs rest)
      let rest := skipWs rest
      if ident = "contains" then
        match consume "(" rest with
        | (false, _) => .error (.filterError "expected '(' after contains")
        | (true, rest) => do
            let (needle, rest) ← parseString (skipWs rest)
            match consume ")" (skipWs rest) with
            | (false, _) => .error (.filterError "expected ')' after contains argument")
            | (true, rest) => do
                let s ← valueAsString (← getBbValue bb path)
                .ok (strContains s needle, rest)
      else parseComparisonTail bb bound (path ++ [ident]) rest
  | _, (_, rest) => do
      let (op, rest) ← parseOperator rest
      let (literal, rest) ← parseLiteral (skipWs rest)
      .ok (← compareValues (← getBbValue bb path) op literal, rest)

def parseComparison (bb : Blackboard) (input : List Char) : Except RuntimeError (Bool × List Char) :=
  match consume "is_dangerous" (skipWs input) with
  | (true, rest) =>
      match consume "(" (skipWs rest) with
      | (false, _) => .error (.filterError "expected '(' after is_dangerous")
      | (true, rest) => do
          let rest := skipWs rest
          let (path, rest) ← parsePath rest.length rest
          match consume ")" (skipWs rest) with
          | (false, _) => .error (.filterError "expected ')' after is_dangerous argument")
          | (true, rest) => do
              let s ← valueAsString (← getBbValue bb path)
              .ok (isDangerous s, rest)
  | (false, input) => do
      let (ident, rest) ← parseIdentifier input
      let rest := skipWs rest
      parseComparisonTail bb rest.length [ident] rest

/-- The loop of `parse_expr`; both operands are always evaluated. -/
def parseExprTail (bb : Blackboard) (bound : Nat) (result : Bool) (input : List Char) :
    Except RuntimeError (Bool × List Char) :=
  match bound, consume "&&" (skipWs input) with
  | bound + 1, (true, rest) => do
      let (rhs, rest) ← parseComparison bb rest
      parseExprTail bb bound (result && rhs) rest
  | bound + 1, (false, input) =>
      match consume "||" input with
      | (true, rest) => do
          let (rhs, rest) ← parseComparison bb rest
          parseExprTail bb bound (result || rhs) rest
      | (false, input) => .ok (result, input)
  | 0, (_, input) => .ok (result, input)

def parseExpr (bb : Blackboard) (input : List Char) : Except RuntimeError (Bool × List Char) := do
  let (result, rest) ← parseComparison bb input
  parseExprTail bb rest.length result rest

theorem parsePath_zero (input : List Char) : parsePath 0 input = (do
    let (ident, rest) ← parseIdentifier (skipWs input)
    .ok ([ident], (consume "." (skipWs rest)).2)) := rfl

-- the compiler does not find this equation, because the bound is matched after the first step
theorem parsePath_succ (bound : Nat) (input : List Char) : parsePath (bound + 1) input = (do
    let (ident, rest) ← parseIdentifier (skipWs input)
    match consume "." (skipWs rest) with
    | (true, rest) => do
        let (parts, rest) ← parsePath bound rest
        .ok (ident :: parts, rest)
    | (false, rest) => .ok ([ident], rest)) := by
  delta parsePath
  change (parseIdentifier (skipWs input) >>= _) = (parseIdentifier (skipWs input) >>= _)
  congr 1
  funext first
  dsimp only
  generalize consume "." (skipWs first.2) = dot
  obtain ⟨_ | _, rest⟩ := dot <;> rfl

end Script

/-- What follows the expression is not looked at. -/
def evaluateScript (expr : String) (bb : Blackboard) : Except RuntimeError Bool :=
  (Script.parseExpr bb expr.toList).map (·.1)

end

/-! ## Scripts read the blackboard through its paths only -/

section

variable [Crates] {bb bb' : Blackboard}

omit [Crates] in
theorem getBbValue_congr (same : ∀ path, bb.getPath path = bb'.getPath path) (path : List String) :
    getBbValue bb path = getBbValue bb' path := by
  simp only [getBbValue, same]

namespace Script

theorem parseComparisonTail_congr (same : ∀ path, bb.getPath path = bb'.getPath path)
    (bound : Nat) : ∀ path input, parseComparisonTail bb bound path input =
      parseComparisonTail bb' bound path input := by
  induction bound with
  | zero =>
      intro path input
      simp only [parseComparisonTail, getBbValue_congr same]
  | succ bound ih =>
      intro path input
      cases dot : consume "." input with
      | mk found rest =>
          unfold parseComparisonTail
          cases found <;> simp only [dot, getBbValue_congr same, ih]

theorem parseComparison_congr (same : ∀ path, bb.getPath path = bb'.getPath path)
    (input : List Char) : parseComparison bb input = parseComparison bb' input := by
  simp only [parseComparison, getBbValue_congr same, parseComparisonTail_congr same]

theorem parseExprTail_congr (same : ∀ path, bb.getPath path = bb'.getPath path)
    (bound : Nat) : ∀ result input, parseExprTail bb bound result input =
      parseExprTail bb' bound result input := by
  induction bound with
  | zero => intro result input; simp only [parseExprTail]
  | succ bound ih =>
      intro result input
      cases both : consume "&&" (skipWs input) with
      | mk found rest =>
          unfold parseExprTail
          cases found <;> simp only [both, parseComparison_congr same, ih]

end Script

theorem evaluateScript_congr (same : ∀ path, bb.getPath path = bb'.getPath path) (expr : String) :
    evaluateScript expr bb = evaluateScript expr bb' := by
  simp only [evaluateScript, Script.parseExpr, Script.parseComparison_congr same,
    Script.parseExprTail_congr same]

end

end AgileAgent.DecisionDsl
