import FlowExpr.Call.NameAt
import FlowExpr.Function.Registry
import FlowExpr.Text.LineTable

/-!
# Hover

Over the name of a known function the editor shows its signature and description. The name need not
be followed by a parenthesis.
-/

namespace FlowExpr

/-- What an editor shows over a name, and where that name stands. -/
structure Hover where
  /-- Markdown. -/
  text : String
  range : PositionRange
  deriving DecidableEq, Repr, Inhabited

/-- The signature as a code block, and the description below a rule. -/
def Signature.documentation (s : Signature) : String :=
  "```paexpr\n" ++ s.label ++ "\n```\n---\n" ++ s.description

/-- The documentation of the function named at an offset, and the span of the name. -/
def documentationAt? (r : Registry) (source : String) (offset : Nat) : Option (Span × String) :=
  (nameAt? source offset).bind fun (span, name) =>
    (r.find? name).map fun s => (span, s.documentation)

/-- What the editor shows at a position. -/
def hoverAt? (r : Registry) (lines : LineTable) (p : Position) : Option Hover :=
  (lines.toOffset? p).bind fun offset =>
    (documentationAt? r (String.ofList lines.text) offset).map fun (span, text) =>
      ⟨text, lines.toRange span⟩

end FlowExpr
