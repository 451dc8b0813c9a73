import FlowExpr.Function.Descriptor

/-!
# Function signatures

A `Definition` is a row of a function table, with the types of parameters as text. A `Signature` is
the row with its descriptors read once.

**Parameters.** Arguments beyond the last declared parameter have its type; a function without
declared parameters takes anything.

**Texts.** `label` shows the signature in one line, optional parameters in brackets. `snippet` is
what completion inserts: one placeholder for each required argument, and a call that stays open if
more arguments may follow.
-/

namespace FlowExpr

/-- A row of a function table. -/
structure Definition where
  /-- The name in its usual spelling. -/
  name : String
  /-- The number of required arguments. -/
  min : Nat
  /-- The greatest number of arguments, if there is one. -/
  max : Option Nat
  /-- The types of the parameters, as descriptor texts. -/
  params : List String
  /-- The type of the result, for display only. -/
  returns : String
  description : String
  deriving DecidableEq, Repr, Inhabited

/-- A function as the analysis sees it. -/
structure Signature where
  name : String
  min : Nat
  max : Option Nat
  params : List Descriptor
  returns : String
  description : String
  deriving DecidableEq, Repr, Inhabited

namespace Signature

/-- The signature of a table row. -/
def ofDefinition (d : Definition) : Signature :=
  { d with params := d.params.map Descriptor.ofText }

/-- Whether more than the required arguments are allowed. -/
def allowsMore (s : Signature) : Bool :=
  match s.max with
  | some max => s.min < max
  | none => true

/-- What the argument at an index has to be. -/
def expected (s : Signature) (index : Nat) : Descriptor :=
  match s.params[index]? with
  | some d => d
  | none => s.params.getLast?.getD .any

/-! ## Label -/

/-- The number of parameters shown in the label. -/
def shown (s : Signature) : Nat :=
  match s.max with
  | some max => max
  | none => Nat.max s.min s.params.length

/-- One parameter of the label. Optional ones stand in brackets. -/
def shownParam (s : Signature) (index : Nat) : String :=
  if index < s.min then (s.expected index).text else "[" ++ (s.expected index).text ++ "]"

/-- The signature in one line. Dots stand for further arguments without limit. -/
def label (s : Signature) : String :=
  let params := (List.range s.shown).map s.shownParam
  let params := if s.max.isNone then params ++ ["..."] else params
  s.name ++ "(" ++ ", ".intercalate params ++ ") -> " ++ s.returns

/-! ## Snippet -/

/-- The placeholder of the `i`th required argument, counted from one. -/
def placeholder (i : Nat) : String := "$\x7b" ++ i.repr ++ ":param" ++ i.repr ++ "\x7d"

/-- What follows the placeholders: the final cursor, after the closing parenthesis if the call is
complete. -/
def snippetTail (s : Signature) : String :=
  if !s.allowsMore then ")$0" else if 0 < s.min then ", $0" else "$0"

/-- What completion inserts for a function. -/
def snippet (s : Signature) : String :=
  let placeholders := (List.range s.min).map fun i => placeholder (i + 1)
  s.name ++ "(" ++ ", ".intercalate placeholders ++ s.snippetTail

end Signature

end FlowExpr
