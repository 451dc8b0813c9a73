/-!
# Readers

A reader takes a value from the front of a text, or fails and takes nothing. Readers are put
together one after the other, and as alternatives of which the first that succeeds counts.
-/

namespace FlowExpr.Toml

/-- Takes a value from the front of a text, or fails. -/
abbrev Reader := StateT (List Char) Option

namespace Reader

/-- One character with a property. -/
def satisfying (p : Char → Bool) : Reader Char := fun cs =>
  match cs with
  | c :: rest => if p c then some (c, rest) else none
  | [] => none

/-- A given character. -/
def char (c : Char) : Reader Char := satisfying (· = c)

/-- A given text. -/
def exactly (expected : String) : Reader Unit := fun cs =>
  if expected.toList.isPrefixOf cs then some ((), cs.drop expected.toList.length) else none

/-- Whether a given text comes next. Takes nothing. -/
def comesNext (expected : String) : Reader Bool := fun cs =>
  some (expected.toList.isPrefixOf cs, cs)

/-- The longest run of characters with a property, perhaps empty. -/
def takeAll (p : Char → Bool) : Reader (List Char) := fun cs => some (cs.takeWhile p, cs.dropWhile p)

/-- The longest run of characters with a property, which must not be empty. -/
def takeSome (p : Char → Bool) : Reader (List Char) := do
  let c ← satisfying p
  return c :: (← takeAll p)

/-- The end of the text. -/
def atEnd : Reader Unit := fun cs => if cs.isEmpty then some ((), []) else none

/-- Reads as often as possible, as long as each reading takes something. -/
def manyFrom (r : Reader α) (cs : List Char) : List α × List Char :=
  match StateT.run r cs with
  | some (a, rest) =>
    if rest.length < cs.length then
      let (more, tail) := manyFrom r rest
      (a :: more, tail)
    else ([], cs)
  | none => ([], cs)
termination_by cs.length

/-- As many readings as there are. -/
def many (r : Reader α) : Reader (List α) := fun cs => some (manyFrom r cs)

/-- Exactly `n` readings. -/
def times (r : Reader α) : Nat → Reader (List α)
  | 0 => pure []
  | n + 1 => do
    let a ← r
    return a :: (← times r n)

/-- A value that has to be there. -/
def ofOption : Option α → Reader α
  | some a => pure a
  | none => failure

/-- Continues only if a condition holds. -/
def ensure (condition : Bool) : Reader Unit := if condition then pure () else failure

end Reader

end FlowExpr.Toml
