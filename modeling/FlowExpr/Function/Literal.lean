import FlowExpr.Function.Descriptor

/-!
# Literal arguments

Only literals are checked against the types of parameters. `Literal.ofText?` decides whether an
argument's text is a literal, and of which kind; names, calls and all other expressions are none.

`Descriptor.admits` says where a literal may be passed. A wildcard takes everything. A single type
takes its own literals and a few others that convert to it; a union is more generous with numbers
and text.
-/

namespace FlowExpr

/-- The kinds of literal. -/
inductive Literal where
  | string
  | boolean
  | null
  | integer
  | float
  deriving DecidableEq, Repr, Inhabited

namespace Literal

/-- Every kind of literal. -/
def all : List Literal := [string, boolean, null, integer, float]

/-- The type a literal has of itself. -/
def type : Literal → ValueType
  | string => .string
  | boolean => .boolean
  | null => .null
  | integer => .integer
  | float => .float

/-- The kind as named in messages. -/
def name (l : Literal) : String := l.type.name

/-- Whole numbers and fractions. -/
def isNumber : Literal → Bool
  | integer | float => true
  | _ => false

/-- Whether a text is a non-empty run of ASCII digits. -/
def isDigits (cs : List Char) : Bool := !cs.isEmpty && cs.all Char.isDigit

/-- Whether a text starts and ends with a quote, and these are two quotes. -/
def isQuoted (cs : List Char) : Bool :=
  2 ≤ cs.length && cs.head? = some '\'' && cs.getLast? = some '\''

/-- A text without the minus sign in front. -/
def withoutSign : List Char → List Char
  | '-' :: cs => cs
  | cs => cs

/-- Whether a text is digits, one point, and digits. -/
def isDecimal (cs : List Char) : Bool :=
  match cs.dropWhile (· ≠ '.') with
  | _ :: fraction => isDigits (cs.takeWhile (· ≠ '.')) && isDigits fraction
  | [] => false

/-- The kind of literal that a trimmed text is. -/
def ofText? (text : String) : Option Literal :=
  let cs := text.toList
  if isQuoted cs then some string
  else if text = "true" || text = "false" then some boolean
  else if text = "null" then some null
  else if isDigits (withoutSign cs) then some integer
  else if isDecimal (withoutSign cs) then some float
  else none

end Literal

/-- Whether a single type takes a literal. -/
def ValueType.admits (t : ValueType) (l : Literal) : Bool :=
  t = l.type ||
    match t with
    | .string => l.isNumber || l = .boolean
    | .float => l = .integer
    | .numberLike => l.isNumber
    | _ => false

/-- Whether a parameter takes a literal. In a union, each numeric type takes every number, and
`String` takes every literal. -/
def Descriptor.admits (d : Descriptor) (l : Literal) : Bool :=
  match d with
  | .any => true
  | .one t => t.admits l
  | .union ts =>
    ts.contains l.type || (l.isNumber && ts.any ValueType.isNumeric) || ts.contains .string

end FlowExpr
