import FlowExpr.Toml.Assignment
import FlowExpr.Toml.Scalar

/-!
# TOML documents

A document is a sequence of lines, each blank, a header or an assignment. The lines are read first,
then carried out one after the other: an assignment adds to the table that the last header
introduced, at the start to the document itself.

Arrays and tables in braces may be nested `maxNesting` deep, and a dotted key may have as many parts.
-/

namespace FlowExpr.Toml

open Reader

/-- How deep values may be nested. -/
def maxNesting : Nat := 79

/-! ## Keys -/

def isBareKeyChar (c : Char) : Bool := c.isAlphanum || c = '_' || c = '-'

/-- One part of a key, bare or in quotes. -/
def keyPart : Reader String :=
  (do return String.ofList (← takeSome isBareKeyChar)) <|> basicString <|> literalString

/-- One part of a key with blanks around it. -/
def spacedKeyPart : Reader String := do
  spaces
  let part ← keyPart
  spaces
  return part

/-- A key, perhaps of several parts with points between them. -/
def key : Reader Key := do
  let first ← spacedKeyPart
  let rest ← many (do let _ ← char '.'; spacedKeyPart)
  let parts := first :: rest
  ensure (parts.length ≤ maxNesting)
  return ⟨parts.dropLast, parts.getLast?.getD first⟩

/-! ## Values -/

/-- Values in brackets, with commas between them and perhaps behind the last. -/
def array (item : Reader Value) : Reader Value := do
  let spacedItem : Reader Value := do
    arrayGap
    let v ← item
    arrayGap
    return v
  let _ ← char '['
  let items ← (do
    let first ← spacedItem
    let rest ← many (do let _ ← char ','; spacedItem)
    let _ ← optional (char ',')
    return first :: rest) <|> pure []
  arrayGap
  let _ ← char ']'
  return .array items

/-- Keys and values in braces, with commas between them, on one line. -/
def braces (item : Reader Value) : Reader Value := do
  let pair : Reader (Key × Value) := do
    let k ← key
    let _ ← char '='
    spaces
    let v ← item
    spaces
    return (k, v)
  let _ ← char '{'
  let pairs ← (do
    let first ← pair
    let rest ← many (do let _ ← char ','; pair)
    return first :: rest) <|> pure []
  spaces
  let _ ← char '}'
  ofOption (inlineTable pairs).toOption

/-- A value in which arrays and braces may still be nested `depth` deep. -/
def value : Nat → Reader Value
  | 0 => scalar
  | depth + 1 => scalar <|> array (value depth) <|> braces (value depth)

/-! ## Lines -/

/-- What a line says. -/
inductive Statement where
  | table (key : Key)
  | element (key : Key)
  | assignment (key : Key) (value : Value)
  deriving Inhabited

def elementHeader : Reader Statement := do
  exactly "[["
  let k ← key
  exactly "]]"
  return .element k

def tableHeader : Reader Statement := do
  exactly "["
  let k ← key
  exactly "]"
  return .table k

def assignment : Reader Statement := do
  let k ← key
  let _ ← char '='
  spaces
  return .assignment k (← value maxNesting)

/-- A line that says something. -/
def statement : Reader Statement := do
  spaces
  let s ← elementHeader <|> tableHeader <|> assignment
  lineEnd
  return s

/-- A line; nothing for a blank one. -/
def line : Reader (Option Statement) := some <$> statement <|> (do lineEnd; return none)

/-! ## Documents -/

/-- Why a text is no document. -/
inductive Error where
  /-- Some line does not follow the grammar. -/
  | malformed
  /-- Some key or header cannot stand where it does. -/
  | conflict (cause : Conflict)
  deriving DecidableEq, Repr, Inhabited

/-- A document in part: its tables and the path of the last header. -/
structure Progress where
  root : Entries := []
  header : List String := []
  deriving Inhabited

/-- Carries out one line. -/
def Progress.step (p : Progress) : Statement → Except Conflict Progress
  | .table k => return ⟨← openTable p.root k, k.parents ++ [k.last]⟩
  | .element k => return ⟨← openElement p.root k, k.parents ++ [k.last]⟩
  | .assignment k v => return { p with root := ← assignUnder p.root p.header k v }

/-- A text without the byte order mark in front. -/
def withoutMark : List Char → List Char
  | '\ufeff' :: cs => cs
  | cs => cs

/-- Reads a document. -/
def read (text : String) : Except Error Entries :=
  match manyFrom line (withoutMark text.toList) with
  | (lines, []) =>
    match (lines.filterMap id).foldlM Progress.step {} with
    | .ok p => .ok p.root
    | .error cause => .error (.conflict cause)
  | (_, _ :: _) => .error .malformed

end FlowExpr.Toml
