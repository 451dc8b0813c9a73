import FlowExpr.Analysis.Diagnostic
import FlowExpr.Text.LineTable

/-!
# Diagnostics in the editor

An editor is told a diagnostic by range, with a number for the severity, the category as code, and
the name of the check as source. Type checks have a source of their own.
-/

namespace FlowExpr

/-- A diagnostic as an editor shows it. -/
structure Report where
  range : PositionRange
  /-- One for an error, two for a warning. -/
  severity : Nat
  code : String
  source : String
  message : String
  deriving DecidableEq, Repr, Inhabited

/-- The editor's number of a severity. -/
def Severity.code : Severity → Nat
  | error => 1
  | warning => 2

/-- The source under which problems of a category are shown. -/
def Category.source : Category → String
  | unknownFunction | arity => "paexpr-lint"
  | typeMismatch => "paexpr-lint-type"

/-- The report of a diagnostic of the table's text. -/
def Diagnostic.report (lines : LineTable) (d : Diagnostic) : Report where
  range := lines.toRange d.span
  severity := d.severity.code
  code := d.category.name
  source := d.category.source
  message := d.message

end FlowExpr
