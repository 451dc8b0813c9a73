import FlowExpr.Text.Blank
import FlowExpr.Text.Offset

/-!
# Call sites and their arguments

A call site is an occurrence of `name(arguments)` in a text, with the span of every part. Arguments
are kept without the blanks around them; an argument of blanks only is empty and its span is the
empty one behind those blanks.
-/

namespace FlowExpr

/-- One argument of a call. -/
structure Argument where
  /-- The argument without surrounding blanks. -/
  text : String
  /-- Where that text stands. -/
  span : Span
  deriving DecidableEq, Repr, Inhabited

/-- An occurrence of `name(arguments)`. -/
structure CallSite where
  /-- The name as written. -/
  name : String
  nameSpan : Span
  /-- What stands between the parentheses. -/
  argsSpan : Span
  arguments : List Argument
  deriving DecidableEq, Repr, Inhabited

/-- The argument written in a segment of a text. -/
def Argument.ofSegment (source : List Char) (raw : Span) : Argument :=
  let segment := Text.slice source raw
  let leading := Text.byteLength segment - Text.byteLength (Text.trimStart segment)
  let text := Text.trim segment
  let start := raw.start + leading
  ⟨String.ofList text, ⟨start, start + Text.byteLength text⟩⟩

/-- The same argument in a text that has `n` more bytes in front. -/
def Argument.shift (n : Nat) (a : Argument) : Argument := { a with span := a.span.shift n }

/-- The span from the name through the closing parenthesis. -/
def CallSite.callSpan (c : CallSite) : Span := ⟨c.nameSpan.start, c.argsSpan.stop + 1⟩

/-- The same call in a text that has `n` more bytes in front. -/
def CallSite.shift (n : Nat) (c : CallSite) : CallSite :=
  { c with
    nameSpan := c.nameSpan.shift n
    argsSpan := c.argsSpan.shift n
    arguments := c.arguments.map (·.shift n) }

end FlowExpr
