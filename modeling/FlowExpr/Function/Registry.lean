import FlowExpr.Function.Signature
import FlowExpr.Text.Case

/-!
# The table of functions

Functions are found by name without regard to case: the table is keyed by the lower-case spelling.
Its rows are in ascending order of keys, each key once. A row that is put under a key that is taken
replaces the earlier one.
-/

namespace FlowExpr

/-- Signatures by lower-case name, in ascending order of keys. -/
structure Registry where
  entries : List (String × Signature) := []
  deriving DecidableEq, Repr, Inhabited

namespace Registry

/-- Puts a signature under a key into rows that are in ascending order. -/
def insertEntry (key : String) (s : Signature) :
    List (String × Signature) → List (String × Signature)
  | [] => [(key, s)]
  | entry :: rest =>
    if key < entry.1 then (key, s) :: entry :: rest
    else if key = entry.1 then (key, s) :: rest
    else entry :: insertEntry key s rest

/-- Adds a function under its lower-case name. -/
def insert (r : Registry) (s : Signature) : Registry :=
  ⟨insertEntry (Text.lower s.name) s r.entries⟩

/-- The table of a list of definitions. -/
def ofDefinitions (defs : List Definition) : Registry :=
  defs.foldl (fun r d => r.insert (.ofDefinition d)) {}

/-- The function of a name. A name that is itself a key is found without lowering its case. -/
def find? (r : Registry) (name : String) : Option Signature :=
  match r.entries.lookup name with
  | some s => some s
  | none => r.entries.lookup (Text.lower name)

/-- All signatures, in ascending order of keys. -/
def signatures (r : Registry) : List Signature := r.entries.map Prod.snd

/-- The number of functions. -/
def size (r : Registry) : Nat := r.entries.length

/-- Whether there are no functions. -/
def isEmpty (r : Registry) : Bool := r.entries.isEmpty

end Registry

end FlowExpr
