import FlowExpr.Proofs.Text.Lines

/-!
# From places to positions and back

A place of a text is an offset between two of its characters, or at one of its ends (`IsPlace`).

**Theorem (`toPosition_embeds_places`).** Positions name places faithfully: the position of a place
leads back to the same place, and of two places the earlier one has the earlier position.

Both halves read the position off a cut of the text. The way back walks along the line of the cut,
which is what stands before the place on it and what is left behind it (`slice_line_append`), and
the walk stops where the first of the two parts ends (`columnBytes_append`). For the order, what
stands between two places either holds a line feed, and then the second is on a later line, or it
goes on the same line and takes up columns.
-/

namespace FlowExpr

/-- One position comes before another: on an earlier line, or earlier on the same line. -/
instance : LT Position where
  lt p q := p.line < q.line ∨ p.line = q.line ∧ p.character < q.character

instance (p q : Position) : Decidable (p < q) := inferInstanceAs (Decidable (_ ∨ _))

theorem Position.lt_asymm {p q : Position} (h : p < q) : ¬ q < p := by
  intro h'
  rcases h with hline | ⟨hline, hcolumn⟩ <;> rcases h' with hline' | ⟨hline', hcolumn'⟩ <;> omega

/-- The numbers of a position have 32 bits. -/
def Position.Fits (p : Position) : Prop := p.line < UInt32.size ∧ p.character < UInt32.size

namespace Text

/-! ## Places -/

/-- An offset that names a place of a text: it is at most the text's length and does not fall
inside a character. -/
def IsPlace (cs : List Char) (offset : Nat) : Prop := (splitAt? cs offset).isSome = true

instance (cs : List Char) (offset : Nat) : Decidable (IsPlace cs offset) :=
  inferInstanceAs (Decidable (_ = true))

theorem isPlace_append (a b : List Char) : IsPlace (a ++ b) (byteLength a) := by
  rw [IsPlace, splitAt?_append]
  rfl

/-- A place cuts the text. -/
theorem IsPlace.exists_append {cs : List Char} {offset : Nat} (h : IsPlace cs offset) :
    ∃ a b, cs = a ++ b ∧ byteLength a = offset := by
  obtain ⟨⟨a, b⟩, hcut⟩ := Option.isSome_iff_exists.1 h
  exact ⟨a, b, splitAt?_eq_some_iff.1 hcut⟩

/-- Two places in order cut the text into three parts. -/
theorem IsPlace.exists_between {cs : List Char} {m n : Nat} (hm : IsPlace cs m) (hn : IsPlace cs n)
    (h : m < n) :
    ∃ a z b, z ≠ [] ∧ cs = a ++ (z ++ b) ∧ byteLength a = m ∧ byteLength (a ++ z) = n := by
  obtain ⟨a, x, rfl, rfl⟩ := hm.exists_append
  obtain ⟨front, b, hcut, rfl⟩ := hn.exists_append
  obtain ⟨z, hz, rfl, rfl⟩ := exists_append_of_byteLength_lt hcut h
  exact ⟨a, z, b, hz, rfl, rfl, rfl⟩

theorem unitLength_pos {cs : List Char} (h : cs ≠ []) : 0 < unitLength cs := by
  obtain ⟨c, rest, rfl⟩ := List.exists_cons_of_ne_nil h
  exact Nat.add_pos_left (unitSize_pos c) _

end Text

namespace LineTable

open Text

/-! ## The way back -/

/-- Walking the columns of a text leads to its end. -/
theorem columnBytes_append (a b : List Char) :
    columnBytes (a ++ b) (unitLength a) = byteLength a := by
  induction a with
  | nil => cases b <;> simp [columnBytes]
  | cons c a ih =>
    have hpos := unitSize_pos c
    rw [List.cons_append, columnBytes, unitLength_cons, if_neg (by omega), Nat.add_sub_cancel_left,
      ih, byteLength_cons]

/-- The line of a cut is what stands on it before and behind the cut. -/
theorem slice_line_append (a b : List Char) :
    slice (a ++ b) ⟨byteLength (beforeLine a), byteLength a + byteLength (restOfLine b)⟩ =
      startOfLine a ++ restOfLine b := by
  obtain ⟨tail, htail⟩ : restOfLine b <+: b := List.takeWhile_prefix _
  have hlength := congrArg byteLength (beforeLine_append_startOfLine a)
  rw [byteLength_append] at hlength
  rw [slice, slice?_of_eq (y := startOfLine a ++ restOfLine b) (z := tail) _ rfl _,
    Option.getD_some]
  · rw [List.append_assoc, htail, beforeLine_append]
  · rw [byteLength_append]
    omega

/-- The position of a cut leads back to it. -/
theorem toOffset?_toPosition_append (a b : List Char) :
    (ofText (a ++ b)).toOffset? ((ofText (a ++ b)).toPosition (byteLength a)) =
      some (byteLength a) := by
  have hlength := congrArg byteLength (beforeLine_append_startOfLine a)
  rw [byteLength_append] at hlength
  rw [toPosition_append, toOffset?, lineSpan?_append, Option.map_some, text_ofText,
    slice_line_append, columnBytes_append, hlength]

/-! ## The order -/

/-- A cut further on has a later position. -/
theorem toPosition_append_lt (a b : List Char) {z : List Char} (hz : z ≠ []) :
    (ofText (a ++ (z ++ b))).toPosition (byteLength a) <
      (ofText (a ++ (z ++ b))).toPosition (byteLength (a ++ z)) := by
  have hsecond := toPosition_append (a ++ z) b
  rw [List.append_assoc] at hsecond
  rw [toPosition_append, hsecond, List.count_append]
  by_cases hfeed : '\n' ∈ z
  · -- A line feed in between: the second place is on a later line.
    exact Or.inl (Nat.lt_add_of_pos_right (List.count_pos_iff.2 hfeed))
  · -- One line: every character in between takes up a column.
    refine Or.inr ⟨?_, ?_⟩
    · rw [List.count_eq_zero.2 hfeed]
      rfl
    · rw [startOfLine_append hfeed, unitLength_append]
      exact Nat.lt_add_of_pos_right (unitLength_pos hz)

/-! ## Places of a document -/

section

variable {source : String} {m n : Nat}

theorem toOffset?_toPosition (h : IsPlace source.toList n) :
    (ofSource source).toOffset? ((ofSource source).toPosition n) = some n := by
  obtain ⟨a, b, hsource, rfl⟩ := h.exists_append
  rw [ofSource, hsource]
  exact toOffset?_toPosition_append a b

theorem toPosition_lt_toPosition (hm : IsPlace source.toList m) (hn : IsPlace source.toList n)
    (h : m < n) : (ofSource source).toPosition m < (ofSource source).toPosition n := by
  obtain ⟨a, z, b, hz, hsource, rfl, rfl⟩ := hm.exists_between hn h
  rw [ofSource, hsource]
  exact toPosition_append_lt a b hz

theorem lt_of_toPosition_lt (hm : IsPlace source.toList m) (hn : IsPlace source.toList n)
    (h : (ofSource source).toPosition m < (ofSource source).toPosition n) : m < n := by
  rcases Nat.lt_trichotomy m n with hlt | rfl | hlt
  · exact hlt
  · exact absurd h (Position.lt_asymm h)
  · exact absurd h (Position.lt_asymm (toPosition_lt_toPosition hn hm hlt))

/-- Lines and columns are at most as many as there are bytes. -/
theorem fits_toPosition (hsize : byteLength source.toList < UInt32.size)
    (h : IsPlace source.toList n) : ((ofSource source).toPosition n).Fits := by
  obtain ⟨a, b, hsource, rfl⟩ := h.exists_append
  have hlines := count_le_byteLength '\n' a
  have hcolumn := unitLength_le_byteLength (startOfLine a)
  have hstart := congrArg byteLength (beforeLine_append_startOfLine a)
  rw [byteLength_append] at hstart
  rw [hsource, byteLength_append] at hsize
  rw [ofSource, hsource, toPosition_append]
  constructor <;> simp only <;> omega

end

/-- **Positions name places faithfully.** The position of a place has numbers of 32 bits and leads
back to the place, and positions are in the order of the places. -/
theorem toPosition_embeds_places (source : String)
    (hsize : byteLength source.toList < UInt32.size) :
    (∀ n, IsPlace source.toList n →
      ((ofSource source).toPosition n).Fits ∧
        (ofSource source).toOffset? ((ofSource source).toPosition n) = some n) ∧
    ∀ m n, IsPlace source.toList m → IsPlace source.toList n →
      (m < n ↔ (ofSource source).toPosition m < (ofSource source).toPosition n) := by
  constructor
  · intro n hn
    exact ⟨fits_toPosition hsize hn, toOffset?_toPosition hn⟩
  · intro m n hm hn
    exact ⟨toPosition_lt_toPosition hm hn, lt_of_toPosition_lt hm hn⟩

/-- A character of two columns, a carriage return and two line feeds. Inside the character there is
no place, and the empty line has one, behind the end of the first line. -/
theorem toPosition_embeds_places_empty_line :
    byteLength "a😀\r\n\nb".toList < UInt32.size ∧ ¬ IsPlace "a😀\r\n\nb".toList 3 ∧
      IsPlace "a😀\r\n\nb".toList 6 ∧ IsPlace "a😀\r\n\nb".toList 7 ∧
      (ofSource "a😀\r\n\nb").toPosition 6 = ⟨0, 4⟩ ∧
      (ofSource "a😀\r\n\nb").toOffset? ⟨0, 4⟩ = some 6 ∧
      (ofSource "a😀\r\n\nb").toPosition 6 < (ofSource "a😀\r\n\nb").toPosition 7 := by
  have hsize : byteLength "a😀\r\n\nb".toList < UInt32.size := by decide +kernel
  have hend : IsPlace "a😀\r\n\nb".toList 6 := by decide +kernel
  have hempty : IsPlace "a😀\r\n\nb".toList 7 := by decide +kernel
  have hposition : (ofSource "a😀\r\n\nb").toPosition 6 = ⟨0, 4⟩ := by decide +kernel
  obtain ⟨hback, horder⟩ := toPosition_embeds_places "a😀\r\n\nb" hsize
  refine ⟨hsize, by decide +kernel, hend, hempty, hposition, ?_, ?_⟩
  · rw [← hposition]
    exact (hback 6 hend).2
  · exact (horder 6 7 hend hempty).1 (by decide)

end LineTable

end FlowExpr
