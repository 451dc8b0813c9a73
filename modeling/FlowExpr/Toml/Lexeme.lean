import FlowExpr.Toml.Reader

/-!
# Blanks, comments and strings

The parts of TOML's grammar below values. Control characters other than the tab are allowed
nowhere, and a carriage return only in front of a line feed.

**Strings.** Basic strings stand in double quotes and know escapes; literal strings stand in single
quotes and are taken as they are. Both have a form in triple quotes that may go over several lines:
a line break right behind the opening quotes is dropped, every other one is a line feed, and one or
two quotes may stand inside or in front of the closing ones. In the basic form a backslash at the
end of a line takes away the break with all blanks and breaks that follow.
-/

namespace FlowExpr.Toml

open Reader

/-! ## Blanks and lines -/

/-- Every character that may stand in a line: all but the control characters other than tab. -/
def isLineChar (c : Char) : Bool :=
  c = '\t' || (0x20 ≤ c.toNat && c.toNat ≠ 0x7F)

/-- Blanks within a line. -/
def isSpace (c : Char) : Bool := c = ' ' || c = '\t'

def spaces : Reader Unit := do
  let _ ← takeAll isSpace

def newline : Reader Unit := exactly "\n" <|> exactly "\r\n"

def comment : Reader Unit := do
  let _ ← char '#'
  let _ ← takeAll isLineChar

/-- What may follow on a line: blanks, a comment, and the end of the line or of the text. -/
def lineEnd : Reader Unit := do
  spaces
  let _ ← optional comment
  newline <|> atEnd

/-- Blanks, line breaks and comments, which may stand between the items of an array. -/
def arrayGap : Reader Unit := do
  let _ ← many ((do let _ ← takeSome isSpace) <|> newline <|> (do comment; newline))

/-! ## Strings -/

def isHexDigit (c : Char) : Bool :=
  c.isDigit || ('a' ≤ c && c ≤ 'f') || ('A' ≤ c && c ≤ 'F')

/-- The value of a digit in bases up to sixteen. -/
def digitValue (c : Char) : Nat :=
  if c.isDigit then c.toNat - '0'.toNat else c.toLower.toNat - 'a'.toNat + 10

/-- The number that a list of digits spells in a base. -/
def ofDigits (base : Nat) (digits : List Char) : Nat :=
  digits.foldl (fun n c => n * base + digitValue c) 0

/-- A character given by `n` hexadecimal digits, which must name one. -/
def codePoint (n : Nat) : Reader Char := do
  let code := ofDigits 16 (← times (satisfying isHexDigit) n)
  ensure (decide code.isValidChar)
  return Char.ofNat code

/-- A backslash and what it stands for. -/
def escape : Reader Char := do
  let _ ← char '\\'
  match ← satisfying fun _ => true with
  | 'b' => return '\x08'
  | 't' => return '\t'
  | 'n' => return '\n'
  | 'f' => return '\x0c'
  | 'r' => return '\r'
  | '"' => return '"'
  | '\\' => return '\\'
  | 'u' => codePoint 4
  | 'U' => codePoint 8
  | _ => failure

/-- A character that stands for itself in basic strings. -/
def basicChar : Reader Char := satisfying fun c => isLineChar c && c ≠ '"' && c ≠ '\\'

/-- A character that stands for itself in literal strings. -/
def literalChar : Reader Char := satisfying fun c => isLineChar c && c ≠ '\''

def basicString : Reader String := do
  let _ ← char '"'
  let body ← many (basicChar <|> escape)
  let _ ← char '"'
  return String.ofList body

def literalString : Reader String := do
  let _ ← char '\''
  let body ← many literalChar
  let _ ← char '\''
  return String.ofList body

/-- One or two quotes inside a string in triple quotes. -/
def innerQuotes (quote : Char) : Reader (List Char) := do
  let quotes ← takeSome (· = quote)
  ensure (quotes.length < 3)
  return quotes

/-- The closing triple quotes, with the one or two quotes in front of them that still belong to the
string. -/
def closingQuotes (quote : Char) : Reader (List Char) := fun cs =>
  let count := min (cs.takeWhile (· = quote)).length 5
  if 3 ≤ count then some (List.replicate (count - 3) quote, cs.drop count) else none

/-- A backslash at the end of a line, with all blanks and line breaks behind it. -/
def lineContinuation : Reader Unit := do
  let _ ← char '\\'
  spaces
  newline
  let _ ← many (newline <|> (do let _ ← takeSome isSpace))

/-- A string in triple quotes made of the given pieces. -/
def tripleQuoted (quote : Char) (piece : Reader (List Char)) : Reader String := do
  let _ ← times (char quote) 3
  let _ ← optional newline
  let body ← many ((do newline; return ['\n']) <|> innerQuotes quote <|> piece)
  let last ← closingQuotes quote
  return String.ofList (body.flatten ++ last)

def multilineBasicString : Reader String :=
  tripleQuoted '"' <|
    (do return [← basicChar]) <|> (do lineContinuation; return []) <|> (do return [← escape])

def multilineLiteralString : Reader String := tripleQuoted '\'' (do return [← literalChar])

/-- A string of any form. Triple quotes are never an empty string and a quote. -/
def anyString : Reader String := do
  if ← comesNext "\"\"\"" then multilineBasicString
  else if ← comesNext "'''" then multilineLiteralString
  else basicString <|> literalString

end FlowExpr.Toml
