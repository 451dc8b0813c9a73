import FlowExpr.Analysis.Checks
import FlowExpr.Analysis.Diagnostic
import FlowExpr.Call.Find
import FlowExpr.Function.Registry

/-!
# Checking calls

Every complete call of a text is checked by itself, in the order of the names.

- A call of an unknown function is reported at its name.
- A wrong number of arguments is reported at the whole call. Too few is tried first.
- A literal argument of the wrong type is reported at the argument.

An unknown function has no signature, so nothing else is reported for it.
-/

namespace FlowExpr

namespace CallSite

/-- What is wrong with the number of arguments. -/
def arityProblem? (site : CallSite) (s : Signature) : Option Problem :=
  let found := site.arguments.length
  if found < s.min then some (.tooFewArguments s.name s.min found)
  else
    match s.max with
    | some max => if max < found then some (.tooManyArguments s.name max found) else none
    | none => none

/-- What is wrong with the argument at an index, if it is a literal. -/
def argumentDiagnostic? (s : Signature) (a : Argument) (index : Nat) : Option Diagnostic :=
  match Literal.ofText? a.text with
  | some literal =>
    if (s.expected index).admits literal then none
    else some ⟨a.span, .typeMismatch s.name (s.expected index) literal⟩
  | none => none

/-- The diagnostics of one call. -/
def diagnose (r : Registry) (c : Checks) (site : CallSite) : List Diagnostic :=
  match r.find? site.name with
  | none =>
    if c.unknownFunctions && !c.exempts site.name then
      [⟨site.nameSpan, .unknownFunction site.name⟩]
    else []
  | some s =>
    (if c.arity then ((site.arityProblem? s).map fun p => ⟨site.callSpan, p⟩).toList else []) ++
      (if c.typeMismatches then
        site.arguments.zipIdx.filterMap fun (a, index) => argumentDiagnostic? s a index
      else [])

end CallSite

/-- The diagnostics of a list of calls, in order. -/
def diagnoseAll (r : Registry) (c : Checks) (sites : List CallSite) : List Diagnostic :=
  sites.flatMap (·.diagnose r c)

/-- The diagnostics of a text. -/
def analyze (r : Registry) (c : Checks) (source : String) : List Diagnostic :=
  diagnoseAll r c (CallSite.findAll source)

end FlowExpr
