/-!
# String literals

Strings stand between single quotes. A backslash takes the meaning from a quote that follows it
directly, inside a string and outside of one, and from nothing else.

`Quote` is the state of a reader between two characters. A character is *structural* when it lies
outside every string and is itself neither quote nor backslash; only structural characters take
part in the shape of an expression.
-/

namespace FlowExpr

/-- Where a reader stands with respect to string literals. -/
structure Quote where
  /-- Inside a string. -/
  inside : Bool := false
  /-- Directly after a backslash. -/
  escaped : Bool := false
  deriving DecidableEq, Repr, Inhabited

namespace Quote

/-- The state after one more character. -/
def next (q : Quote) (c : Char) : Quote :=
  if c = '\\' then { q with escaped := true }
  else if c = '\'' then ⟨q.inside ^^ !q.escaped, false⟩
  else { q with escaped := false }

/-- Whether the character at this state takes part in the shape of the expression. -/
def isStructural (q : Quote) (c : Char) : Bool :=
  !q.inside && c != '\\' && c != '\''

/-- The state after a text. -/
def after (q : Quote) (cs : List Char) : Quote := cs.foldl next q

@[simp] theorem after_nil (q : Quote) : q.after [] = q := rfl

@[simp] theorem after_cons (q : Quote) (c : Char) (cs : List Char) :
    q.after (c :: cs) = (q.next c).after cs := rfl

theorem after_append (q : Quote) (a b : List Char) : q.after (a ++ b) = (q.after a).after b :=
  List.foldl_append

/-- A structural character leaves the reader outside of strings and free of a backslash. -/
theorem next_of_isStructural {q : Quote} {c : Char} (h : q.isStructural c = true) :
    q.next c = ⟨false, false⟩ := by
  obtain ⟨inside, escaped⟩ := q
  simp only [isStructural, Bool.and_eq_true, Bool.not_eq_true', bne_iff_ne, ne_eq] at h
  simp [next, h]

end Quote

end FlowExpr
