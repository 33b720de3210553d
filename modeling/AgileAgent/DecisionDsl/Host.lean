import AgileAgent.DecisionDsl.Blackboard

/-! # What the crate takes from outside

The traits a host implements (`Session`, `Clock`, `Fs`) and the third-party code the
interpreter calls (`Crates`): the template engine, the regex and JSON crates,
Unicode tables and the text of floats. Nothing is assumed of them here; a result
that needs a documented property of one names it as a hypothesis.
-/

namespace AgileAgent.DecisionDsl

/-- `serde_json::Value`; an integer is a number that fits `i64`. -/
inductive Json where
  | null
  | bool (b : Bool)
  | integer (i : Int)
  | float (f : Float)
  | string (s : String)
  | array (items : List Json)
  | object (fields : List (String × Json))

/-- `minijinja::Value`, as far as the crate builds it. -/
inductive TemplateValue where
  | string (s : String)
  | integer (i : Int)
  | float (f : Float)
  | boolean (b : Bool)
  | seq (items : List TemplateValue)
  | map (fields : List (String × TemplateValue))
  | none

abbrev TemplateContext := AList fun _ : String => TemplateValue

class Crates where
  /-- `Environment::template_from_str`: the error text of a template that does not compile. -/
  templateSyntaxError : String → Option String
  /-- `Template::render`, or its error text. -/
  renderTemplate : String → TemplateContext → Except String String
  /-- `Regex::new` and `is_match`, or the error text of the pattern. -/
  regexIsMatch : String → String → Except String Bool
  /-- `Regex::new` and `captures`: the groups of the first match. -/
  regexCaptures : String → String → Except String (Option (List (Option String)))
  /-- `serde_json::from_str`. -/
  jsonFromStr : String → Except String Json
  toLowercase : String → String
  isAlphabetic : Char → Bool
  isAlphanumeric : Char → Bool
  /-- `f64::from_str`. -/
  parseFloat : String → Except String Float
  /-- `f64::to_string`. -/
  showFloat : Float → String
  /-- The `Debug` text of a value (the source leaves the order of map entries open). -/
  debugValue : BlackboardValue → String

/-- The `Session` trait. `is_ready` takes `&self`, but implementations poll behind
    a `RefCell`, so it returns the new state too. -/
class Session (σ : Type) where
  send : σ → String → Except SessionError Unit × σ
  sendWithHint : σ → String → String → Except SessionError Unit × σ
  isReady : σ → Bool × σ
  receive : σ → Except SessionError String × σ

/-- The `Clock` trait: every reading may differ. Instants count nanoseconds. -/
class Clock (κ : Type) where
  now : κ → Nat × κ

/-- The components of a path. -/
abbrev Path := List String

inductive FsError where
  | io (message : String)
  | notFound (path : Path)
  deriving Repr, DecidableEq

/-- The `Display` text. -/
def FsError.display : FsError → String
  | io message => "fs error: " ++ message
  | notFound path => "not found: " ++ "/".intercalate path

/-- The `Fs` trait, less `modified`. -/
structure Fs where
  readToString : Path → Except FsError String
  readDir : Path → Except FsError (List Path)

/-- `Path::extension`: what follows the last dot of the file name, unless nothing comes
    before that dot. -/
def extension (path : Path) : Option String := do
  let name ← path.getLast?
  let after := name.toList.reverse.takeWhile (· != '.')
  let before := name.toList.reverse.drop (after.length + 1)
  if name = ".." ∨ before = [] then none else some (String.ofList after.reverse)

/-- `Instant::duration_since`, which saturates at zero. -/
def durationSince (now earlier : Nat) : Nat := now - earlier

/-- `Duration::from_millis`, in nanoseconds. -/
def fromMillis (ms : Nat) : Nat := ms * 1000000

/-- The `White_Space` characters of Unicode (`char::is_whitespace`). -/
def isWhitespace (c : Char) : Bool :=
  let n := c.toNat
  (0x9 ≤ n && n ≤ 0xD) || n == 0x20 || n == 0x85 || n == 0xA0 || n == 0x1680 ||
    (0x2000 ≤ n && n ≤ 0x200A) || n == 0x2028 || n == 0x2029 || n == 0x202F ||
    n == 0x205F || n == 0x3000

/-- `str::trim`. -/
def trim (s : String) : String :=
  String.ofList (((s.toList.dropWhile isWhitespace).reverse.dropWhile isWhitespace).reverse)

/-- `str::contains` with a string pattern. -/
def strContains (s pattern : String) : Bool :=
  s.toList.tails.any pattern.toList.isPrefixOf

/-- `i64::from_str`, with the `Display` text of its error. -/
def parseI64 (s : String) : Except String Int :=
  let (negative, digits) := match s.toList with
    | '-' :: rest => (true, rest)
    | '+' :: rest => (false, rest)
    | cs => (false, cs)
  if s.toList = [] then .error "cannot parse integer from empty string"
  else if digits = [] ∨ !digits.all Char.isDigit then .error "invalid digit found in string"
  else
    let magnitude : Nat := digits.foldl (fun n c => 10 * n + (c.toNat - '0'.toNat)) 0
    if negative then
      if magnitude ≤ 2 ^ 63 then .ok (-(magnitude : Int))
      else .error "number too small to fit in target type"
    else if magnitude < 2 ^ 63 then .ok magnitude
    else .error "number too large to fit in target type"

end AgileAgent.DecisionDsl
