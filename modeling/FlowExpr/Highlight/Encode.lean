import FlowExpr.Highlight.Classify
import FlowExpr.Text.LineTable

/-!
# Tokens on the wire

An editor receives tokens relative to each other: the lines passed since the token before, and the
columns passed if that is on the same line. Lengths count UTF-16 units. A token that goes over the
end of its line is cut there, before a carriage return; a token of which nothing is left is not
sent.
-/

namespace FlowExpr.Highlight

/-- A token relative to the one before. -/
structure EncodedToken where
  deltaLine : Nat
  deltaStart : Nat
  length : Nat
  /-- Place in the legend. -/
  type : Nat
  deriving DecidableEq, Repr, Inhabited

/-- The numbers sent for a token. No modifiers are used. -/
def EncodedToken.toList (t : EncodedToken) : List Nat :=
  [t.deltaLine, t.deltaStart, t.length, t.type, 0]

/-- A token by position. -/
structure PlacedToken where
  start : Position
  length : Nat
  kind : Kind
  deriving DecidableEq, Repr, Inhabited

/-- Where the visible text of a line ends: before its line feed, and before a carriage return in
front of that. -/
def visibleStop (lines : LineTable) (line : Span) : Nat :=
  if Text.slice? lines.text ⟨line.stop - 1, line.stop⟩ = some ['\r'] then line.stop - 1
  else line.stop

/-- A token by position, cut at the end of its line. -/
def Token.place (lines : LineTable) (t : Token) : PlacedToken :=
  let start := lines.toPosition t.span.start
  let stop :=
    match lines.lineSpan? start.line with
    | some line => min t.span.stop (visibleStop lines line)
    | none => t.span.stop
  ⟨start, Text.unitLength (Text.slice lines.text ⟨t.span.start, stop⟩), t.kind⟩

/-- Each token relative to the one before, the first to the position `last`. -/
def relative (last : Position) : List PlacedToken → List EncodedToken
  | [] => []
  | t :: ts =>
    ⟨t.start.line - last.line,
      if t.start.line = last.line then t.start.character - last.character else t.start.character,
      t.length, t.kind.index⟩ :: relative t.start ts

/-- Tokens as sent to an editor. -/
def encode (lines : LineTable) (tokens : List Token) : List EncodedToken :=
  relative ⟨0, 0⟩ ((tokens.map (·.place lines)).filter (0 < ·.length))

/-- The tokens of a document as sent to an editor. -/
def encodedTokens (lines : LineTable) : List EncodedToken :=
  encode lines (classify (String.ofList lines.text))

end FlowExpr.Highlight
