/-! # Runtime errors

`RuntimeError` is the error type of the source. A `Fault` is any way in which a
call fails to return a status: the `Err` of the source or a panic (an index out
of range, an arithmetic overflow, a string cut inside a character).
-/

namespace AgileAgent.DecisionDsl

inductive SessionErrorKind where
  | unavailable
  | timeout
  | unexpectedFormat
  | sendFailed
  deriving Repr, DecidableEq

/-- The `Debug` text of a kind. -/
def SessionErrorKind.debug : SessionErrorKind → String
  | .unavailable => "Unavailable"
  | .timeout => "Timeout"
  | .unexpectedFormat => "UnexpectedFormat"
  | .sendFailed => "SendFailed"

structure SessionError where
  kind : SessionErrorKind
  message : String
  deriving Repr, DecidableEq

inductive RuntimeError where
  | missingVariable (key : String)
  | unknownFilter (filter : String)
  | filterError (message : String)
  | typeMismatch (key expected got : String)
  | session (kind : SessionErrorKind) (message : String)
  | maxRecursion
  | subTreeNotResolved (name : String)
  | scopeDepthExceeded
  | custom (message : String)
  deriving Repr, DecidableEq

namespace RuntimeError

/-- `From<SessionError>`. -/
def ofSession (e : SessionError) : RuntimeError := .session e.kind e.message

/-- The `Display` text. -/
def display : RuntimeError → String
  | missingVariable key => "missing variable: " ++ key
  | unknownFilter filter => "unknown filter: " ++ filter
  | filterError message => "filter error: " ++ message
  | typeMismatch key expected got =>
      "type mismatch for '" ++ key ++ "': expected " ++ expected ++ ", got " ++ got
  | session kind message => "session error (" ++ kind.debug ++ "): " ++ message
  | maxRecursion => "maximum recursion depth exceeded"
  | subTreeNotResolved name => "subtree '" ++ name ++ "' not resolved"
  | scopeDepthExceeded => "maximum scope depth exceeded"
  | custom message => message

end RuntimeError

inductive Fault where
  | error (e : RuntimeError)
  | panic
  deriving Repr, DecidableEq

/-- The errors of loading and validating documents; variants nothing produces are left out. -/
inductive ParseError where
  | yamlSyntax (message : String)
  | unknownNodeKind (kind : String)
  | missingProperty (name : String)
  | duplicatePriority (priority : UInt32)
  | unresolvedSubTree (name : String)
  | circularSubTreeRef (name : String)
  | duplicateName (name : String)
  | unsupportedVersion (version : String)
  deriving Repr, DecidableEq

/-- The call returned `Err` (and did not panic). -/
def Fault.IsError : Fault → Prop
  | .error _ => True
  | .panic => False

end AgileAgent.DecisionDsl
