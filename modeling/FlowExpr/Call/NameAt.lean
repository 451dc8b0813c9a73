import FlowExpr.Text.Offset
import FlowExpr.Text.Word

/-!
# The name at a cursor

A cursor inside a name, or right before or after it, belongs to that name. The name is the longest
run of name characters around the cursor; a run that starts with a digit is no name.
-/

namespace FlowExpr

/-- The name around an offset with its span. Past the end and inside a character there is none. -/
def nameAt? (source : String) (offset : Nat) : Option (Span × String) :=
  (Text.splitAt? source.toList offset).bind fun (before, after) =>
    let left := (before.reverse.takeWhile Text.isNameChar).reverse
    let right := after.takeWhile Text.isNameChar
    match left ++ right with
    | [] => none
    | c :: run =>
      if c.isDigit then none
      else some (⟨offset - Text.byteLength left, offset + Text.byteLength right⟩,
        String.ofList (c :: run))

/-- The bytes a name is written with, in ascending order. -/
def nameBytes : List Nat := (List.range 256).filter fun n => Text.isNameChar (Char.ofNat n)

end FlowExpr
