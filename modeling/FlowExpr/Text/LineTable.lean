import FlowExpr.Text.Offset
import FlowExpr.Text.Units

/-!
# Lines and columns

An analysis names places by byte offset, an editor by line and column, where a column counts UTF-16
units. `LineTable` converts between the two.

**Lines.** A line ends at a line feed and nowhere else. The table stores the offset at which each
line starts, so the line of an offset is the last start at or below it, found by bisection.

**Columns.** From an offset to a column, the part of the line before the offset is measured; an
offset inside a character has no such part and gets column zero. Back from a column, the first
character at or after it is taken, and a column past the line's end is taken as the end.
-/

namespace FlowExpr

/-- A place in a document as an editor names it, counted from zero. -/
structure Position where
  line : Nat
  /-- UTF-16 units before the place on its line. -/
  character : Nat
  deriving DecidableEq, Repr, Inhabited

/-- A stretch of a document between two positions, the second excluded. -/
structure PositionRange where
  start : Position
  stop : Position
  deriving DecidableEq, Repr, Inhabited

/-- A text with the offset at which each of its lines starts. -/
structure LineTable where
  text : List Char
  /-- The number of bytes of the text. -/
  size : Nat
  starts : Array Nat

namespace LineTable

/-! ## Building the table -/

/-- The offsets just after each line feed of a text that itself starts at `offset`. -/
def startsAfter : List Char → Nat → List Nat
  | [], _ => []
  | c :: cs, offset =>
    let next := offset + c.utf8Size
    if c = '\n' then next :: startsAfter cs next else startsAfter cs next

/-- The table of a text. The first line starts at zero. -/
def ofText (text : List Char) : LineTable :=
  ⟨text, Text.byteLength text, (0 :: startsAfter text 0).toArray⟩

@[simp] theorem text_ofText (text : List Char) : (ofText text).text = text := rfl

@[simp] theorem size_ofText (text : List Char) : (ofText text).size = Text.byteLength text := rfl

/-- The table of a document. -/
def ofSource (source : String) : LineTable := ofText source.toList

/-! ## Lines -/

/-- The last index from `lo` on and below `hi` whose entry is at most `offset`, if the entry at
`lo` is; the entries are in ascending order. -/
def lastAtMost (starts : Array Nat) (offset lo hi : Nat) (h : hi ≤ starts.size) : Nat :=
  if hlt : lo + 1 < hi then
    have hmid : (lo + hi) / 2 < starts.size := by omega
    if starts[(lo + hi) / 2] ≤ offset then
      lastAtMost starts offset ((lo + hi) / 2) hi h
    else
      lastAtMost starts offset lo ((lo + hi) / 2) (by omega)
  else lo
termination_by hi - lo

/-- The line of an offset. Offsets past the end are on the last line. -/
def lineOf (t : LineTable) (offset : Nat) : Nat :=
  lastAtMost t.starts offset 0 t.starts.size (Nat.le_refl _)

/-- The span of a line without its line feed, if there is such a line. -/
def lineSpan? (t : LineTable) (line : Nat) : Option Span :=
  t.starts[line]?.map fun start =>
    match t.starts[line + 1]? with
    | some next => ⟨start, next - 1⟩
    | none => ⟨start, t.size⟩

/-- The nearest place of the text at or before its end. -/
def clamp (t : LineTable) (offset : Nat) : Nat := min offset t.size

/-- The offset at which the line of an offset starts. -/
def lineStart (t : LineTable) (offset : Nat) : Nat := t.starts[t.lineOf offset]?.getD 0

/-- The text before an offset on its line; empty if the offset is inside a character. -/
def linePrefix (t : LineTable) (offset : Nat) : List Char :=
  Text.slice t.text ⟨t.lineStart (t.clamp offset), t.clamp offset⟩

/-! ## Positions -/

/-- The position of an offset. -/
def toPosition (t : LineTable) (offset : Nat) : Position :=
  ⟨t.lineOf (t.clamp offset), Text.unitLength (t.linePrefix offset)⟩

/-- The bytes of a line before the first character at or after a column. -/
def columnBytes : List Char → Nat → Nat
  | [], _ => 0
  | c :: cs, column =>
    if column = 0 then 0 else c.utf8Size + columnBytes cs (column - Text.unitSize c)

/-- The offset of a position, if its line exists. -/
def toOffset? (t : LineTable) (p : Position) : Option Nat :=
  (t.lineSpan? p.line).map fun span =>
    span.start + columnBytes (Text.slice t.text span) p.character

/-- The range of a span. -/
def toRange (t : LineTable) (span : Span) : PositionRange :=
  ⟨t.toPosition span.start, t.toPosition span.stop⟩

end LineTable

end FlowExpr
