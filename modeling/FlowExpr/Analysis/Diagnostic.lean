import FlowExpr.Function.Literal
import FlowExpr.Text.Offset

/-!
# Problems in an expression

A diagnostic is a problem and the span it is reported at. The problem carries what its message
needs; severity, category and wording follow from it.
-/

namespace FlowExpr

/-- How much a problem matters. -/
inductive Severity where
  | error
  | warning
  deriving DecidableEq, Repr, Inhabited

/-- The check a problem comes from. -/
inductive Category where
  | unknownFunction
  | arity
  | typeMismatch
  deriving DecidableEq, Repr, Inhabited

/-- What can be wrong with a call. -/
inductive Problem where
  /-- No function has the name, as written in the call. -/
  | unknownFunction (name : String)
  /-- Fewer arguments than required. -/
  | tooFewArguments (function : String) (min found : Nat)
  /-- More arguments than allowed. -/
  | tooManyArguments (function : String) (max found : Nat)
  /-- A literal where its type does not fit. -/
  | typeMismatch (function : String) (expected : Descriptor) (literal : Literal)
  deriving DecidableEq, Repr, Inhabited

/-- A problem at a place. -/
structure Diagnostic where
  span : Span
  problem : Problem
  deriving DecidableEq, Repr, Inhabited

/-- The category's name in the editor. -/
def Category.name : Category → String
  | unknownFunction => "unknown-function"
  | arity => "arity"
  | typeMismatch => "type-mismatch"

/-- The severity's name. -/
def Severity.name : Severity → String
  | error => "Error"
  | warning => "Warning"

namespace Problem

def category : Problem → Category
  | unknownFunction _ => .unknownFunction
  | tooFewArguments .. | tooManyArguments .. => .arity
  | typeMismatch .. => .typeMismatch

/-- A wrong number of arguments fails at run time; the rest may be intended. -/
def severity : Problem → Severity
  | tooFewArguments .. | tooManyArguments .. => .error
  | unknownFunction _ | typeMismatch .. => .warning

def message : Problem → String
  | unknownFunction name => "Unknown function: " ++ name
  | tooFewArguments function min found =>
    "Function '" ++ function ++ "' expects at least " ++ min.repr ++ " arguments, but found " ++
      found.repr ++ "."
  | tooManyArguments function max found =>
    "Function '" ++ function ++ "' expects at most " ++ max.repr ++ " arguments, but found " ++
      found.repr ++ "."
  | typeMismatch function expected literal =>
    "Argument type mismatch for '" ++ function ++ "'. Expected '" ++ expected.text ++
      "' but found literal of type '" ++ literal.name ++ "'."

end Problem

namespace Diagnostic

def category (d : Diagnostic) : Category := d.problem.category

def severity (d : Diagnostic) : Severity := d.problem.severity

def message (d : Diagnostic) : String := d.problem.message

/-- The same diagnostic in a text that has `n` more bytes in front. -/
def shift (n : Nat) (d : Diagnostic) : Diagnostic := { d with span := d.span.shift n }

end Diagnostic

end FlowExpr
