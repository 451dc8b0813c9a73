import FlowExpr.Highlight.Token
import FlowExpr.Text.Blank
import FlowExpr.Text.Word

/-!
# Recognizers

Each kind of token has a recognizer, which says whether a match starts at a given place. It sees
the character before the place and the text from there on. `Recognizer.spans` then goes through a
text from left to right: at the first place with a match it takes the token and goes on behind the
match, so matches of one recognizer never overlap.

- **Function**: a name with blanks and an opening parenthesis behind it, and perhaps a marker `@` in
  front. The match takes in the parenthesis, the token is the name alone.
- **String**: from a quote to the next quote that has no backslash in front. A backslash takes in
  the next character, but not a line feed.
- **Number**: digits, perhaps a point and digits. It is not part of a longer word on either side.
- **Keyword**: a whole word that is a keyword in any case.
- **Operator**: the marker `@` with a brace, or one of the punctuation characters.
-/

namespace FlowExpr.Highlight

/-- A match, in characters: what precedes the token, the token, and the whole match. -/
structure Match where
  lead : Nat
  size : Nat
  total : Nat
  deriving DecidableEq, Repr, Inhabited

/-- Whether a match starts between the character before, if any, and the text behind. -/
abbrev Recognizer := Option Char → List Char → Option Match

/-- The match of a token without anything around it. -/
def Match.whole (size : Nat) : Match := ⟨0, size, size⟩

/-! ## Functions -/

/-- Whether a name may start with the character. -/
def isNameStart (c : Char) : Bool := c.isAlpha || c = '_'

/-- The size of the name at the start of a text, and of it with what follows through the
parenthesis. -/
def callHead? (cs : List Char) : Option (Nat × Nat) :=
  match cs with
  | c :: _ =>
    if isNameStart c then
      let name := cs.takeWhile Text.isNameChar
      let rest := cs.dropWhile Text.isNameChar
      match rest.dropWhile Text.isBlank with
      | '(' :: _ => some (name.length, name.length + (rest.takeWhile Text.isBlank).length + 1)
      | _ => none
    else none
  | [] => none

def functionMatch : Recognizer := fun _ cs =>
  match cs with
  | '@' :: rest => (callHead? rest).map fun (size, total) => ⟨1, size, 1 + total⟩
  | _ => (callHead? cs).map fun (size, total) => ⟨0, size, total⟩

/-! ## Strings -/

/-- The number of characters through the quote that ends a string, behind its first quote. -/
def closingQuote? : List Char → Option Nat
  | [] => none
  | '\'' :: _ => some 1
  | '\\' :: [] => none
  | '\\' :: c :: cs => if c = '\n' then none else (closingQuote? cs).map (· + 2)
  | _ :: cs => (closingQuote? cs).map (· + 1)

def stringMatch : Recognizer := fun _ cs =>
  match cs with
  | '\'' :: rest => (closingQuote? rest).map fun n => .whole (n + 1)
  | _ => none

/-! ## Words -/

/-- Whether a word goes on with the first character of a text. -/
def startsWord : List Char → Bool
  | c :: _ => Text.isWordChar c
  | [] => false

/-- Whether a word ends before the place. -/
def isAfterWord (before : Option Char) : Bool := before.any Text.isWordChar

def numberMatch : Recognizer := fun before cs =>
  let whole := cs.takeWhile Char.isDigit
  let rest := cs.dropWhile Char.isDigit
  if isAfterWord before || whole.isEmpty then none
  else
    let short := if startsWord rest then none else some (.whole whole.length)
    match rest with
    | '.' :: tail =>
      let fraction := tail.takeWhile Char.isDigit
      if fraction.isEmpty || startsWord (tail.dropWhile Char.isDigit) then short
      else some (.whole (whole.length + 1 + fraction.length))
    | _ => short

/-- The keywords in lower case. -/
def keywords : List String :=
  ["parameters", "variables", "trigger", "triggerbody", "triggeroutputs", "action", "actions",
    "item", "items", "workflow", "result", "if", "equals", "not", "and", "or", "greater", "less",
    "true", "false", "null"]

/-- The form under which letters of keywords are compared. Beyond ASCII, the long s counts as an
`s` and the Kelvin sign as a `k`. -/
def foldLetter (c : Char) : Char :=
  if c = 'ſ' then 's' else if c = '\u212a' then 'k' else c.toLower

/-- Whether a word is a keyword in any case. -/
def isKeyword (word : List Char) : Bool := keywords.contains (String.ofList (word.map foldLetter))

def keywordMatch : Recognizer := fun before cs =>
  let word := cs.takeWhile Text.isWordChar
  if !isAfterWord before && isKeyword word then some (.whole word.length) else none

/-! ## Operators -/

def isOperator (c : Char) : Bool :=
  c = '}' || c = '(' || c = ')' || c = '.' || c = '[' || c = ']' || c = '?' || c = ','

def operatorMatch : Recognizer := fun _ cs =>
  match cs with
  | '@' :: '{' :: _ => some (.whole 2)
  | c :: _ => if isOperator c then some (.whole 1) else none
  | [] => none

/-! ## All matches of a text -/

/-- The spans of a recognizer's tokens in a text that starts at offset `pos` behind the character
`before`. -/
def Recognizer.spansFrom (recognize : Recognizer) (before : Option Char) (pos : Nat) :
    List Char → List Span
  | [] => []
  | c :: cs =>
    match recognize before (c :: cs) with
    | some m =>
      let start := pos + Text.byteLength ((c :: cs).take m.lead)
      let token := ((c :: cs).drop m.lead).take m.size
      let taken := c :: cs.take (m.total - 1)
      ⟨start, start + Text.byteLength token⟩ ::
        recognize.spansFrom taken.getLast? (pos + Text.byteLength taken) (cs.drop (m.total - 1))
    | none => recognize.spansFrom (some c) (pos + c.utf8Size) cs
termination_by cs => cs.length
decreasing_by all_goals simp only [List.length_drop, List.length_cons]; omega

/-- The spans of a recognizer's tokens in a text, in order. -/
def Recognizer.spans (recognize : Recognizer) (cs : List Char) : List Span :=
  recognize.spansFrom none 0 cs

/-- The recognizers by kind, in the order of their precedence. -/
def recognizers : List (Kind × Recognizer) :=
  [(.function, functionMatch), (.string, stringMatch), (.number, numberMatch),
    (.keyword, keywordMatch), (.operator, operatorMatch)]

end FlowExpr.Highlight
