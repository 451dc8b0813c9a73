import FlowExpr.Toml.Lexeme
import FlowExpr.Toml.Value

/-!
# Numbers, dates and truth values

**Numbers.** Underscores may stand between digits. Decimal numbers have no leading zeros; integers
must fit into 64 bits with a sign. A fraction is refused if it is so great that the nearest double
is positive infinity.

**Dates and times** are checked against the calendar and the clock, where the sixtieth second is
allowed.
-/

namespace FlowExpr.Toml

open Reader

/-! ## Digits -/

/-- A digit, perhaps with an underscore in front. -/
def furtherDigit (isDigit : Char → Bool) : Reader Char :=
  satisfying isDigit <|> (do let _ ← char '_'; satisfying isDigit)

/-- Digits with single underscores between them, which are dropped. -/
def digitGroups (isDigit : Char → Bool) : Reader (List Char) := do
  let first ← satisfying isDigit
  return first :: (← many (furtherDigit isDigit))

/-- A sign; true for minus. -/
def sign : Reader Bool := do
  match ← optional (satisfying fun c => c = '+' || c = '-') with
  | some c => return c = '-'
  | none => return false

/-- The digits of a decimal number: a lone digit, or several of which the first is not zero. -/
def decimalDigits : Reader (List Char) := do
  let first ← satisfying Char.isDigit
  if first = '0' then return [first]
  else return first :: (← many (furtherDigit Char.isDigit))

/-! ## Integers -/

/-- The least integer of 64 bits. -/
def minInteger : Int := -9223372036854775808

/-- The greatest integer of 64 bits. -/
def maxInteger : Int := 9223372036854775807

/-- An integer that fits. -/
def fitting (n : Int) : Reader Int := do
  ensure (minInteger ≤ n && n ≤ maxInteger)
  return n

/-- An integer in another base behind its mark. -/
def based (mark : String) (base : Nat) (isDigit : Char → Bool) : Reader Int := do
  exactly mark
  fitting (ofDigits base (← digitGroups isDigit))

def decimalInteger : Reader Int := do
  let negative ← sign
  let n : Int := ofDigits 10 (← decimalDigits)
  fitting (if negative then -n else n)

def integer : Reader Int := do
  if ← comesNext "0x" then based "0x" 16 isHexDigit
  else if ← comesNext "0o" then based "0o" 8 fun c => '0' ≤ c && c ≤ '7'
  else if ← comesNext "0b" then based "0b" 2 fun c => c = '0' || c = '1'
  else decimalInteger

/-! ## Fractions -/

/-- The least number that rounds to a double beyond all finite ones: halfway between the greatest
finite double and the power of two above it. -/
def doubleLimit : Nat := (Nat.pow 2 54 - 1) * Nat.pow 2 970

/-- Whether `digits · 10 ^ exponent` reaches `doubleLimit`. The number of digits settles it except
close to the limit, which has 309 digits. -/
def reachesLimit (digits : Nat) (exponent : Int) : Bool :=
  let size : Int := digits.repr.length + exponent
  if digits = 0 || size < 300 then false
  else if 320 < size then true
  else if 0 ≤ exponent then doubleLimit ≤ digits * Nat.pow 10 exponent.toNat
  else doubleLimit * Nat.pow 10 (-exponent).toNat ≤ digits

/-- An exponent with its mark. -/
def exponent : Reader Int := do
  let _ ← satisfying fun c => c = 'e' || c = 'E'
  let negative ← sign
  let n : Int := ofDigits 10 (← digitGroups Char.isDigit)
  return if negative then -n else n

/-- A point and the digits behind it. -/
def fraction : Reader (List Char) := do
  let _ ← char '.'
  digitGroups Char.isDigit

/-- A decimal number with a fraction, an exponent or both. -/
def decimalFloat : Reader FloatLiteral := do
  let negative ← sign
  let whole ← decimalDigits
  let behind ← optional fraction
  let power ← if behind.isSome then optional exponent else some <$> exponent
  let digits := ofDigits 10 (whole ++ behind.getD [])
  let scale := power.getD 0 - (behind.getD []).length
  ensure (negative || !reachesLimit digits scale)
  return .decimal negative digits scale

def specialFloat : Reader FloatLiteral := do
  let negative ← sign
  (do exactly "inf"; return .infinity negative) <|> (do exactly "nan"; return .notANumber)

def float : Reader FloatLiteral := decimalFloat <|> specialFloat

/-! ## Dates and times -/

/-- A number of exactly `n` digits between two bounds. -/
def padded (n lo hi : Nat) : Reader Nat := do
  let value := ofDigits 10 (← times (satisfying Char.isDigit) n)
  ensure (lo ≤ value && value ≤ hi)
  return value

def isLeapYear (year : Nat) : Bool := year % 4 = 0 && (year % 100 ≠ 0 || year % 400 = 0)

def daysInMonth (year month : Nat) : Nat :=
  if month = 2 then if isLeapYear year then 29 else 28
  else if month = 4 || month = 6 || month = 9 || month = 11 then 30
  else 31

def date : Reader Unit := do
  let year ← padded 4 0 9999
  let _ ← char '-'
  let month ← padded 2 1 12
  let _ ← char '-'
  let _ ← padded 2 1 (daysInMonth year month)

def time : Reader Unit := do
  let _ ← padded 2 0 23
  let _ ← char ':'
  let _ ← padded 2 0 59
  let _ ← char ':'
  let _ ← padded 2 0 60
  let _ ← optional (do let _ ← char '.'; takeSome Char.isDigit)

/-- The distance to universal time. -/
def offset : Reader Unit :=
  (do let _ ← satisfying fun c => c = 'Z' || c = 'z') <|> do
    let _ ← satisfying fun c => c = '+' || c = '-'
    let _ ← padded 2 0 23
    let _ ← char ':'
    let _ ← padded 2 0 59

/-- A date, perhaps with a time and that with an offset, or a time alone. -/
def momentShape : Reader Unit :=
  (do
    date
    let _ ← optional do
      let _ ← satisfying fun c => c = 'T' || c = 't' || c = ' '
      time
      optional offset) <|> time

/-- A date or time as written. -/
def moment : Reader String := fun cs =>
  (StateT.run momentShape cs).map fun (_, rest) =>
    (String.ofList (cs.take (cs.length - rest.length)), rest)

/-! ## Scalars -/

def boolean : Reader Bool :=
  (do exactly "true"; return true) <|> (do exactly "false"; return false)

/-- A value without parts. What reads as a date is no number, and a fraction is no integer. -/
def scalar : Reader Value :=
  .text <$> anyString <|> .moment <$> moment <|> .float <$> float <|> .integer <$> integer <|>
    .boolean <$> boolean

end FlowExpr.Toml
