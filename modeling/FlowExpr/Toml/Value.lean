/-!
# TOML values

A TOML document is a table of values. Besides its entries a table has a *standing*: how it came to
be, and so how the rest of the document may still add to it. Dates and fractions are kept as far as
a settings file can tell them apart.
-/

namespace FlowExpr.Toml

/-- How a table was introduced. -/
inductive Standing where
  /-- By its own header, or as an element of an array of tables, or the document itself. -/
  | header
  /-- By a header of a table inside it; its own header may still follow. -/
  | implied
  /-- By a dotted key; further dotted keys may add to it. -/
  | dotted
  /-- By braces; it is complete. -/
  | inline
  deriving DecidableEq, Repr, Inhabited

/-- A number with a fraction or exponent. -/
inductive FloatLiteral where
  /-- The number `± digits · 10 ^ exponent`. -/
  | decimal (negative : Bool) (digits : Nat) (exponent : Int)
  | infinity (negative : Bool)
  | notANumber
  deriving DecidableEq, Repr, Inhabited

/-- A value of a document. -/
inductive Value where
  | text (value : String)
  | integer (value : Int)
  | float (value : FloatLiteral)
  | boolean (value : Bool)
  /-- A date, a time, or both, as written. -/
  | moment (written : String)
  /-- Values in brackets. -/
  | array (items : List Value)
  /-- Keys with values. -/
  | table (standing : Standing) (entries : List (String × Value))
  /-- An array of tables, each introduced by a header in double brackets. -/
  | tables (elements : List (List (String × Value)))
  deriving Inhabited

/-- The entries of a table, in the order in which the keys were introduced. -/
abbrev Entries := List (String × Value)

/-- Puts a value under a key, in place of the one that is there. -/
def Entries.set (es : Entries) (key : String) (v : Value) : Entries :=
  match es with
  | [] => [(key, v)]
  | entry :: rest => if entry.1 = key then (key, v) :: rest else entry :: Entries.set rest key v

end FlowExpr.Toml
