/-!
# Bracket depth

`Depth` counts how many brackets of each kind are open. A stray closer makes its count negative,
and the text is level again only once the count is back at zero.
-/

namespace FlowExpr

/-- Open minus closed brackets, by kind. -/
structure Depth where
  parens : Int := 0
  brackets : Int := 0
  braces : Int := 0
  deriving DecidableEq, Repr, Inhabited

namespace Depth

/-- The counts after one more structural character. -/
def track (n : Depth) (c : Char) : Depth :=
  if c = '(' then { n with parens := n.parens + 1 }
  else if c = ')' then { n with parens := n.parens - 1 }
  else if c = '[' then { n with brackets := n.brackets + 1 }
  else if c = ']' then { n with brackets := n.brackets - 1 }
  else if c = '{' then { n with braces := n.braces + 1 }
  else if c = '}' then { n with braces := n.braces - 1 }
  else n

/-- Whether every kind is balanced. -/
def isLevel (n : Depth) : Bool := n.parens = 0 && n.brackets = 0 && n.braces = 0

end Depth

end FlowExpr
