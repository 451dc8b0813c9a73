/-!
# UTF-16 units

Editors count columns in UTF-16 code units: a character beyond the basic plane counts for two.
-/

namespace FlowExpr.Text

/-- The number of UTF-16 code units of a character. -/
def unitSize (c : Char) : Nat := if c.toNat < 0x10000 then 1 else 2

/-- The number of UTF-16 code units of a text. -/
def unitLength : List Char → Nat
  | [] => 0
  | c :: cs => unitSize c + unitLength cs

@[simp] theorem unitLength_nil : unitLength [] = 0 := rfl

@[simp] theorem unitLength_cons (c : Char) (cs : List Char) :
    unitLength (c :: cs) = unitSize c + unitLength cs := rfl

@[simp] theorem unitLength_append (a b : List Char) :
    unitLength (a ++ b) = unitLength a + unitLength b := by
  induction a with
  | nil => simp
  | cons c a ih => simp [ih, Nat.add_assoc]

theorem unitSize_pos (c : Char) : 0 < unitSize c := by
  unfold unitSize
  split <;> decide

end FlowExpr.Text
