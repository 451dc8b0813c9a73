import FlowExpr.Toml.Value

/-!
# Adding to tables

Keys and headers name tables by a path from an outer table. Going along a path, missing tables are
made, and the last element of an array of tables stands for the array.

**Dotted keys** may go through tables made by dotted keys or implied by headers, but a value is only
put into a table that dotted keys made, or into the one where the path starts. So a table with a
header of its own is closed to keys from elsewhere.

**Headers** may go through every table except those in braces. A table gets one header, and none if
dotted keys made it.

No key is given twice.
-/

namespace FlowExpr.Toml

/-- A key with the tables in front of it. -/
structure Key where
  parents : List String
  last : String
  deriving DecidableEq, Repr, Inhabited

/-- Why a key or header cannot stand where it does. -/
inductive Conflict where
  /-- The key is taken. -/
  | taken (key : String)
  /-- The key names something that cannot be added to. -/
  | closed (key : String)
  deriving DecidableEq, Repr, Inhabited

/-- Goes along a path from a table and changes the table it ends at. Missing tables are made with
standing `make`, and `passable` says which tables may be entered. -/
def descend (make : Standing) (passable : Standing → Bool)
    (change : Standing → Entries → Except Conflict Entries) :
    Standing → Entries → List String → Except Conflict Entries
  | standing, es, [] => change standing es
  | _, es, key :: path =>
    match es.lookup key with
    | none => do
      let made ← descend make passable change make [] path
      return es ++ [(key, .table make made)]
    | some (.table standing inner) =>
      if passable standing then do
        let changed ← descend make passable change standing inner path
        return Entries.set es key (.table standing changed)
      else throw (.closed key)
    | some (.tables elements) =>
      match elements.getLast? with
      | some inner => do
        let changed ← descend make passable change .header inner path
        return Entries.set es key (.tables (elements.dropLast ++ [changed]))
      | none => throw (.closed key)
    | some _ => throw (.closed key)

/-- Adds a key that must be new. -/
def addNew (es : Entries) (key : String) (v : Value) : Except Conflict Entries :=
  if (es.lookup key).isSome then throw (.taken key) else return es ++ [(key, v)]

/-- Puts a value under a dotted key into a table of the given standing. -/
def assign (standing : Standing) (es : Entries) (key : Key) (v : Value) :
    Except Conflict Entries :=
  descend .dotted (fun s => s = .dotted || s = .implied)
    (fun reached inner =>
      if key.parents.isEmpty || reached = .dotted then addNew inner key.last v
      else throw (.closed key.last))
    standing es key.parents

/-- Goes along the path of a header. -/
def alongHeader (change : Standing → Entries → Except Conflict Entries) (root : Entries)
    (path : List String) : Except Conflict Entries :=
  descend .implied (· ≠ .inline) change .header root path

/-- Introduces a table by its header. -/
def openTable (root : Entries) (key : Key) : Except Conflict Entries :=
  alongHeader
    (fun _ inner =>
      match inner.lookup key.last with
      | none => return inner ++ [(key.last, .table .header [])]
      | some (.table .implied es) => return Entries.set inner key.last (.table .header es)
      | some _ => throw (.taken key.last))
    root key.parents

/-- Introduces an element of an array of tables by its header. -/
def openElement (root : Entries) (key : Key) : Except Conflict Entries :=
  alongHeader
    (fun _ inner =>
      match inner.lookup key.last with
      | none => return inner ++ [(key.last, .tables [[]])]
      | some (.tables elements) =>
        return Entries.set inner key.last (.tables (elements ++ [[]]))
      | some _ => throw (.taken key.last))
    root key.parents

/-- Puts a value under a key of the table that a header introduced. -/
def assignUnder (root : Entries) (header : List String) (key : Key) (v : Value) :
    Except Conflict Entries :=
  alongHeader (fun standing inner => assign standing inner key v) root header

/-- The table in braces with the given keys. -/
def inlineTable (items : List (Key × Value)) : Except Conflict Value := do
  let es ← items.foldlM (fun es (key, v) => assign .inline es key v) []
  return .table .inline es

end FlowExpr.Toml
