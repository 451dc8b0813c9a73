import FlowExpr.Call.Depth
import FlowExpr.Call.Quote
import FlowExpr.Call.Site

/-!
# Cutting an argument list

The text between a call's parentheses is cut at each comma that lies outside of strings and at
which parentheses, brackets and braces are all balanced. Counting starts at the beginning of the
text and goes over all of it. A text of blanks only has no arguments.
-/

namespace FlowExpr

/-- How far a text has been cut. -/
structure ArgumentCutter where
  /-- Bytes read. -/
  pos : Nat := 0
  quote : Quote := {}
  depth : Depth := {}
  /-- Where the current segment starts. -/
  segmentStart : Nat := 0
  /-- The segments before the current one, in order. -/
  segments : List Span := []
  deriving DecidableEq, Repr, Inhabited

namespace ArgumentCutter

/-- One more character. -/
def step (s : ArgumentCutter) (c : Char) : ArgumentCutter :=
  let moved := { s with pos := s.pos + c.utf8Size, quote := s.quote.next c }
  if s.quote.isStructural c then
    if c = ',' && s.depth.isLevel then
      { moved with
        segmentStart := moved.pos
        segments := s.segments ++ [⟨s.segmentStart, s.pos⟩] }
    else { moved with depth := s.depth.track c }
  else moved

/-- All segments once the text has ended. -/
def finish (s : ArgumentCutter) : List Span := s.segments ++ [⟨s.segmentStart, s.pos⟩]

end ArgumentCutter

/-- The arguments of a text between parentheses that starts `base` bytes into its document. -/
def Argument.cutList (args : String) (base : Nat) : List Argument :=
  let text := args.toList
  if Text.isAllBlank text then []
  else
    (text.foldl ArgumentCutter.step {}).finish.map fun raw =>
      (Argument.ofSegment text raw).shift base

end FlowExpr
