import FlowExpr.Text.Offset

/-!
# Highlighted tokens

A token is a span and its kind. Editors learn the kinds once, as a legend, and then refer to them
by their place in it. The legend names more kinds than are used.
-/

namespace FlowExpr.Highlight

/-- What a token is. -/
inductive Kind where
  | function
  | string
  | number
  | keyword
  | operator
  deriving DecidableEq, Repr, Inhabited

/-- A classified stretch of a text. -/
structure Token where
  span : Span
  kind : Kind
  deriving DecidableEq, Repr, Inhabited

/-- The kind's name. -/
def Kind.name : Kind → String
  | function => "Function"
  | string => "String"
  | number => "Number"
  | keyword => "Keyword"
  | operator => "Operator"

/-- The kinds as announced to an editor. -/
def legend : List String :=
  ["function", "string", "number", "keyword", "operator", "parameter", "property", "variable",
    "type"]

/-- The place of a kind in the legend. -/
def Kind.index : Kind → Nat
  | function => 0
  | string => 1
  | number => 2
  | keyword => 3
  | operator => 4

/-- The places of the legend, in order. -/
def legendIndices : List Nat := List.range legend.length

end FlowExpr.Highlight
