import FlowExpr.Function.Registry
import FlowExpr.Text.Blank
import FlowExpr.Text.LineTable
import FlowExpr.Text.Word

/-!
# Completion

Functions are offered where a name may be typed: directly after the marker `@`, or after part of a
name, perhaps with the marker in front of it, that follows a blank, an opening parenthesis, a comma
or an opening brace, or the start of the line. Every function is offered, whatever has been typed.
-/

namespace FlowExpr

/-- A function as offered by the editor. -/
structure CompletionItem where
  label : String
  /-- The signature in one line. -/
  detail : String
  /-- Markdown. -/
  documentation : String
  /-- A snippet with placeholders. -/
  insertText : String
  deriving DecidableEq, Repr, Inhabited

namespace CompletionItem

/-- The editor's number for items that are functions. -/
def kind : Nat := 3

/-- The editor's number for inserted text that is a snippet. -/
def insertTextFormat : Nat := 2

/-- The item of a function. -/
def ofSignature (s : Signature) : CompletionItem := ⟨s.name, s.label, s.description, s.snippet⟩

end CompletionItem

/-- Whether a name may start after a character. -/
def startsName (c : Char) : Bool := Text.isBlank c || c = '(' || c = ',' || c = '{'

/-- A reversed text without a marker at its end. -/
def withoutMarker : List Char → List Char
  | '@' :: cs => cs
  | cs => cs

/-- Whether a name may be typed after this part of a line. -/
def expectsName (before : List Char) : Bool :=
  before.getLast? = some '@' ||
    match withoutMarker (before.reverse.dropWhile Text.isNameChar) with
    | c :: _ => startsName c
    | [] => true

/-- What is offered at an offset; nothing where no name may be typed. -/
def completionsAtOffset? (r : Registry) (lines : LineTable) (offset : Nat) :
    Option (List CompletionItem) :=
  if expectsName (lines.linePrefix offset) then
    some (r.signatures.map CompletionItem.ofSignature)
  else none

/-- What is offered at a position. -/
def completionsAt? (r : Registry) (lines : LineTable) (p : Position) :
    Option (List CompletionItem) :=
  (lines.toOffset? p).bind (completionsAtOffset? r lines)

end FlowExpr
