import FlowExpr.Highlight.Recognizer

/-!
# Classifying a text

The tokens of all recognizers are put in the order of their starts, those of the same start in the
order of precedence. From the left, a token that starts inside an earlier one that was kept is
dropped. So tokens never overlap, and of two that start at one place the one with precedence stays.
-/

namespace FlowExpr.Highlight

/-- The tokens of all recognizers, by recognizer. -/
def candidates (cs : List Char) : List Token :=
  recognizers.flatMap fun (kind, recognize) => (recognize.spans cs).map fun span => ⟨span, kind⟩

/-- Keeps the tokens that start at or behind `stop`, and of these none that starts inside one kept
before. -/
def keepApart (stop : Nat) : List Token → List Token
  | [] => []
  | t :: ts => if t.span.start < stop then keepApart stop ts else t :: keepApart t.span.stop ts

/-- The tokens of a text, in order and without overlap. -/
def classify (source : String) : List Token :=
  keepApart 0 ((candidates source.toList).mergeSort fun a b => a.span.start ≤ b.span.start)

end FlowExpr.Highlight
