import FlowExpr.Text.Case

/-!
# Which checks run

Each kind of check can be switched off, and names can be exempted from the report of unknown
functions. A few words of the language look like calls without being functions; they are always
exempt. Names are compared by their lower-case spelling.
-/

namespace FlowExpr

/-- The checks that run and the names that are never unknown. -/
structure Checks where
  unknownFunctions : Bool := true
  arity : Bool := true
  typeMismatches : Bool := true
  /-- Lower-case names exempted on top of the language's own words. -/
  exempt : List String := []
  deriving DecidableEq, Repr, Inhabited

namespace Checks

/-- Words of the language that need no function. -/
def exemptWords : List String :=
  ["if", "equals", "not", "and", "or", "greater", "less", "true", "false", "null"]

/-- Exempts further names. -/
def exempting (c : Checks) (names : List String) : Checks :=
  { c with exempt := c.exempt ++ names.map Text.lower }

/-- Whether a name is never reported as unknown. -/
def exempts (c : Checks) (name : String) : Bool :=
  let key := Text.lower name
  exemptWords.contains key || c.exempt.contains key

end Checks

end FlowExpr
