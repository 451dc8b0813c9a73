/-!
# Sets of characters given by ranges

The properties of the Unicode character database are listed as ranges of code points. A set is the
list of its ranges, both ends included.
-/

namespace FlowExpr.Text

/-- A set of characters as ranges of code points, both ends included. -/
structure CharSet where
  ranges : List (Nat × Nat)

/-- Whether a range of the set holds the character. -/
def CharSet.contains (s : CharSet) (c : Char) : Bool :=
  s.ranges.any fun (first, last) => first ≤ c.toNat && c.toNat ≤ last

end FlowExpr.Text
