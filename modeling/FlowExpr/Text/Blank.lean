/-!
# Blanks

Blanks are the characters with the White_Space property: the five ASCII controls from tab to
carriage return, the space, and the wider spaces and line separators beyond ASCII. Names and
arguments are trimmed of them, so a no-break space around an argument does not count as text.
-/

namespace FlowExpr.Text

/-- The characters with the White_Space property. -/
def isBlank (c : Char) : Bool :=
  let n := c.toNat
  (0x9 ≤ n && n ≤ 0xD) || n = 0x20 || n = 0x85 || n = 0xA0 || n = 0x1680 ||
    (0x2000 ≤ n && n ≤ 0x200A) || n = 0x2028 || n = 0x2029 || n = 0x202F || n = 0x205F ||
    n = 0x3000

/-- Blanks of the ASCII range that may stand between a name and its parenthesis: space, tab, line
feed, form feed and carriage return. The vertical tab is not among them. -/
def isAsciiBlank (c : Char) : Bool :=
  c = ' ' || c = '\t' || c = '\n' || c = '\x0c' || c = '\r'

/-- A blank between name and parenthesis is a blank. -/
theorem isBlank_of_isAsciiBlank {c : Char} (h : isAsciiBlank c = true) : isBlank c = true := by
  simp only [isAsciiBlank, Bool.or_eq_true, decide_eq_true_eq] at h
  rcases h with (((rfl | rfl) | rfl) | rfl) | rfl <;> decide

/-- A text without its leading blanks. -/
def trimStart (cs : List Char) : List Char := cs.dropWhile isBlank

/-- A text without its trailing blanks. -/
def trimEnd (cs : List Char) : List Char := (cs.reverse.dropWhile isBlank).reverse

/-- A text without leading and trailing blanks. -/
def trim (cs : List Char) : List Char := trimEnd (trimStart cs)

/-- Whether a text holds nothing but blanks. -/
def isAllBlank (cs : List Char) : Bool := cs.all isBlank

end FlowExpr.Text
