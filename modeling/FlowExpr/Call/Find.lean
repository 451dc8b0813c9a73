import FlowExpr.Call.Depth
import FlowExpr.Call.Quote
import FlowExpr.Call.Site
import FlowExpr.Text.Word

/-!
# Finding call sites

`CallSite.findAll` finds every complete call of a text in one pass over its characters.

**What is a call.** A name, blanks, and an opening parenthesis, all outside of strings, together
with the parenthesis that closes it. A name is a longest run of name characters that does not start
with a digit. Calls that are never closed are left out, as is a closing parenthesis that closes
nothing.

**The state** (`CallFinder`). Each open parenthesis has a frame, which counts brackets and braces
directly inside it, collects the segments of its argument list, and holds the calls completed
inside it. When a call's parenthesis closes, the call and then the calls inside it go to the frame
around it. So the calls held by the frames, outermost first, are always in the order of their names.

**Two steps.** The pass yields spans only (`CallShape`); `CallShape.resolve` then reads the name and
the arguments from the text.
-/

namespace FlowExpr

/-- A complete call, by spans. -/
structure CallShape where
  name : Span
  args : Span
  /-- The segments between the commas of the argument list, blanks included. -/
  segments : List Span
  deriving DecidableEq, Repr, Inhabited

/-- An open parenthesis. -/
structure OpenParen where
  /-- The name in front of it, if it opens a call. -/
  name : Option Span
  /-- The offset just behind it. -/
  start : Nat
  /-- Where the current segment of its argument list starts. -/
  segmentStart : Nat
  /-- Brackets and braces directly inside it. -/
  depth : Depth := {}
  /-- The segments before the current one, in order. -/
  segments : List Span := []
  /-- The calls completed inside it, in the order of their names. -/
  calls : List CallShape := []
  deriving DecidableEq, Repr, Inhabited

/-- What the characters just read may still become. -/
inductive Lead where
  /-- Nothing that could name a call. -/
  | nothing
  /-- A run of name characters from `start` on. -/
  | word (start : Nat) (digitLed : Bool)
  /-- A complete name and blanks after it. -/
  | named (name : Span)
  deriving DecidableEq, Repr, Inhabited

/-- The state of the pass between two characters. -/
structure CallFinder where
  /-- Bytes read. -/
  pos : Nat := 0
  quote : Quote := {}
  lead : Lead := .nothing
  /-- The open parentheses, innermost first. -/
  frames : List OpenParen := []
  /-- The completed calls that are inside no open parenthesis, in the order of their names. -/
  calls : List CallShape := []
  deriving DecidableEq, Repr, Inhabited

/-! ## Frames -/

namespace OpenParen

/-- The frame of a parenthesis whose inside starts at `start`. -/
def opened (name : Option Span) (start : Nat) : OpenParen := ⟨name, start, start, {}, [], []⟩

/-- A comma at offset `pos` cuts the argument list of a call if brackets and braces are level. -/
def comma (f : OpenParen) (pos : Nat) : OpenParen :=
  if f.name.isSome && f.depth.isLevel then
    { f with segmentStart := pos + 1, segments := f.segments ++ [⟨f.segmentStart, pos⟩] }
  else f

/-- The calls completed when the parenthesis closes at offset `pos`. -/
def close (f : OpenParen) (pos : Nat) : List CallShape :=
  match f.name with
  | some name => ⟨name, ⟨f.start, pos⟩, f.segments ++ [⟨f.segmentStart, pos⟩]⟩ :: f.calls
  | none => f.calls

end OpenParen

/-! ## The pass -/

namespace Lead

/-- After one more name character at offset `pos`. -/
def afterNameChar (l : Lead) (pos : Nat) (c : Char) : Lead :=
  match l with
  | .word start digitLed => .word start digitLed
  | _ => .word pos c.isDigit

/-- The name that ends right before offset `pos`, blanks allowed. A digit-led run is no name. -/
def name? (l : Lead) (pos : Nat) : Option Span :=
  match l with
  | .word start false => some ⟨start, pos⟩
  | .named name => some name
  | _ => none

/-- After a blank at offset `pos`. -/
def afterBlank (l : Lead) (pos : Nat) : Lead :=
  match l.name? pos with
  | some name => .named name
  | none => .nothing

end Lead

namespace CallFinder

/-- Changes the innermost frame, if a parenthesis is open. -/
def modifyTop (s : CallFinder) (f : OpenParen → OpenParen) : CallFinder :=
  match s.frames with
  | top :: rest => { s with frames := f top :: rest }
  | [] => s

/-- Opens a parenthesis, of a call if a name leads up to it. -/
def openParen (s : CallFinder) : CallFinder :=
  { s with frames := .opened (s.lead.name? s.pos) (s.pos + 1) :: s.frames }

/-- Closes the innermost parenthesis, if one is open. -/
def closeParen (s : CallFinder) : CallFinder :=
  match s.frames with
  | top :: outer :: rest =>
    { s with frames := { outer with calls := outer.calls ++ top.close s.pos } :: rest }
  | [top] => { s with frames := [], calls := s.calls ++ top.close s.pos }
  | [] => s

/-- What a structural character does to the frames. -/
def act (s : CallFinder) (c : Char) : CallFinder :=
  if c = '(' then s.openParen
  else if c = ')' then s.closeParen
  else if c = ',' then s.modifyTop (·.comma s.pos)
  else if c = '[' || c = ']' || c = '{' || c = '}' then
    s.modifyTop fun f => { f with depth := f.depth.track c }
  else s

/-- What may lead up to a call after one more character. -/
def nextLead (s : CallFinder) (c : Char) : Lead :=
  if !s.quote.isStructural c then .nothing
  else if Text.isNameChar c then s.lead.afterNameChar s.pos c
  else if Text.isAsciiBlank c then s.lead.afterBlank s.pos
  else .nothing

/-- One more character. -/
def step (s : CallFinder) (c : Char) : CallFinder :=
  let acted := if s.quote.isStructural c then s.act c else s
  { acted with
    pos := s.pos + c.utf8Size
    quote := s.quote.next c
    lead := s.nextLead c }

/-- The completed calls, in the order of their names. -/
def completed (s : CallFinder) : List CallShape :=
  s.calls ++ s.frames.reverse.flatMap (·.calls)

end CallFinder

/-! ## Call sites -/

/-- The call site of a shape found in a text. A blank argument list has no arguments. -/
def CallShape.resolve (source : List Char) (shape : CallShape) : CallSite where
  name := String.ofList (Text.slice source shape.name)
  nameSpan := shape.name
  argsSpan := shape.args
  arguments :=
    if Text.isAllBlank (Text.slice source shape.args) then []
    else shape.segments.map (Argument.ofSegment source)

/-- The shapes of all complete calls of a text, in the order of their names. -/
def CallShape.findAll (source : List Char) : List CallShape :=
  (source.foldl CallFinder.step {}).completed

/-- All complete calls of a text, in the order of their names. -/
def CallSite.findAll (source : String) : List CallSite :=
  (CallShape.findAll source.toList).map (·.resolve source.toList)

end FlowExpr
