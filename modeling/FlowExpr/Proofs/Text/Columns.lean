import FlowExpr.Proofs.Text.LinePartition
import FlowExpr.Proofs.Text.Positions
import Mathlib.Data.Set.Basic
import Mathlib.Order.Bounds.Defs

/-!
# From columns to places

Any two numbers are a position, also a line that is not there, a column behind the end of its line,
or one in the middle of a character of two columns.

**Theorem (`toOffset?_rounds_up`).** A position names a place exactly if its line is there. The
place is the first one of the line in that column or behind it, and the end of the line if there is
none. Columns further on lead to places further on, and the position of the place is on the same
line and leads back to the place.

The walk along the line does all the work. It splits the line where it stops
(`exists_columnBytes`): every place before that is in front of the column, and the walk ends behind
the column or at the end of the line. A place of the line is such a split too
(`mem_placesFrom_iff`), so that two of them can be compared as parts of one text.
-/

namespace FlowExpr

namespace LineTable

open Text

/-! ## Walking along a line -/

/-- The walk stops at the first place in the column or behind it, at the latest at the end. -/
theorem exists_columnBytes (line : List Char) (column : Nat) :
    ∃ u v, line = u ++ v ∧ columnBytes line column = byteLength u ∧
      (column ≤ unitLength u ∨ v = []) ∧ ∀ w z, u = w ++ z → z ≠ [] → unitLength w < column := by
  induction line generalizing column with
  | nil =>
    refine ⟨[], [], rfl, rfl, Or.inr rfl, fun w z hwz hz => ?_⟩
    exact absurd (List.append_eq_nil_iff.1 hwz.symm).2 hz
  | cons c line ih =>
    rw [columnBytes]
    split
    · rename_i hzero
      refine ⟨[], c :: line, rfl, rfl, Or.inl (Nat.le_of_eq hzero), fun w z hwz hz => ?_⟩
      exact absurd (List.append_eq_nil_iff.1 hwz.symm).2 hz
    · obtain ⟨u, v, rfl, hbytes, hstop, hbefore⟩ := ih (column - unitSize c)
      refine ⟨c :: u, v, rfl, by rw [hbytes, byteLength_cons], ?_, fun w z hwz hz => ?_⟩
      · apply hstop.imp_left
        intro hle
        rw [unitLength_cons]
        omega
      · cases w with
        | nil =>
          rw [unitLength_nil]
          omega
        | cons d w =>
          obtain ⟨rfl, hu⟩ := List.cons.inj hwz
          have hlt := hbefore w z hu hz
          rw [unitLength_cons]
          omega

theorem columnBytes_mono (line : List Char) {column column' : Nat} (h : column ≤ column') :
    columnBytes line column ≤ columnBytes line column' := by
  induction line generalizing column column' with
  | nil => exact Nat.le_refl 0
  | cons c line ih =>
    rw [columnBytes, columnBytes]
    split
    · exact Nat.zero_le _
    · rw [if_neg (by omega)]
      exact Nat.add_le_add_left (ih (Nat.sub_le_sub_right h _)) _

/-! ## The places of a line -/

/-- A span is that of line `k` of a text, without a line feed. -/
def IsLineSpan (cs : List Char) (k : Nat) (span : Span) : Prop :=
  ∃ before line behind, IsLine before line behind ∧ cs = before ++ (line ++ behind) ∧
    before.count '\n' = k ∧ span = ⟨byteLength before, byteLength before + byteLength line⟩

theorem IsLineSpan.lineSpan?_eq {cs : List Char} {k : Nat} {span : Span}
    (h : IsLineSpan cs k span) : (ofText cs).lineSpan? k = some span := by
  obtain ⟨before, line, behind, hline, rfl, rfl, rfl⟩ := h
  exact hline.lineSpan?_eq

/-- The places of a line that are in a column or behind it. -/
def placesFrom (cs : List Char) (span : Span) (column : Nat) : Set Nat :=
  {o | IsPlace cs o ∧ span.start ≤ o ∧ o ≤ span.stop ∧
    column ≤ unitLength (slice cs ⟨span.start, o⟩)}

section

variable {before line behind : List Char} {column o : Nat}

/-- A place of a line splits it. -/
theorem mem_placesFrom_iff :
    o ∈ placesFrom (before ++ (line ++ behind))
        ⟨byteLength before, byteLength before + byteLength line⟩ column ↔
      ∃ u v, line = u ++ v ∧ o = byteLength before + byteLength u ∧ column ≤ unitLength u := by
  have hslice : ∀ u v, line = u ++ v → slice (before ++ (line ++ behind))
      ⟨byteLength before, byteLength before + byteLength u⟩ = u := by
    rintro u v rfl
    rw [slice, List.append_assoc u v behind, slice?_append, Option.getD_some]
  constructor
  · rintro ⟨hplace, hstart, hstop, hcolumn⟩
    obtain ⟨a, b, hcut, rfl⟩ := hplace.exists_append
    obtain ⟨u, rfl, hrest⟩ := exists_append_of_byteLength_le hcut hstart
    rw [byteLength_append] at hstop hcolumn
    obtain ⟨v, rfl, -⟩ :=
      exists_append_of_byteLength_le hrest.symm (Nat.le_of_add_le_add_left hstop)
    rw [hslice u v rfl] at hcolumn
    exact ⟨u, v, rfl, byteLength_append _ _, hcolumn⟩
  · rintro ⟨u, v, hline, rfl, hcolumn⟩
    refine ⟨?_, Nat.le_add_right _ _, ?_, ?_⟩
    · have hplace := isPlace_append (before ++ u) (v ++ behind)
      rwa [byteLength_append, List.append_assoc, ← List.append_assoc u v, ← hline] at hplace
    · rw [hline, byteLength_append]
      exact Nat.add_le_add_left (Nat.le_add_right _ _) _
    · rwa [hslice u v hline]

/-- The walk leads to the first of these places, or to the end of the line. -/
theorem columnBytes_isLeast (before line behind : List Char) (column : Nat) :
    IsLeast (placesFrom (before ++ (line ++ behind))
        ⟨byteLength before, byteLength before + byteLength line⟩ column)
        (byteLength before + columnBytes line column) ∨
      placesFrom (before ++ (line ++ behind))
          ⟨byteLength before, byteLength before + byteLength line⟩ column = ∅ ∧
        columnBytes line column = byteLength line := by
  obtain ⟨u, v, hline, hbytes, hstop, hbefore⟩ := exists_columnBytes line column
  rw [hbytes]
  by_cases hcolumn : column ≤ unitLength u
  · refine Or.inl ⟨mem_placesFrom_iff.2 ⟨u, v, hline, rfl, hcolumn⟩, ?_⟩
    intro o ho
    obtain ⟨w, x, hline', rfl, hw⟩ := mem_placesFrom_iff.1 ho
    apply Nat.add_le_add_left
    by_contra hlt
    -- A place before the end of the walk is in front of the column.
    obtain ⟨z, hz, hu, -⟩ :=
      exists_append_of_byteLength_lt (hline'.symm.trans hline) (Nat.lt_of_not_le hlt)
    exact absurd (hbefore w z hu hz) (Nat.not_lt.2 hw)
  · obtain rfl := hstop.resolve_left hcolumn
    rw [List.append_nil] at hline
    refine Or.inr ⟨Set.eq_empty_iff_forall_notMem.2 fun o ho => ?_, by rw [hline]⟩
    obtain ⟨w, x, hline', -, hw⟩ := mem_placesFrom_iff.1 ho
    have hunits := congrArg unitLength (hline.symm.trans hline')
    rw [unitLength_append] at hunits
    omega

/-! ## Positions on a line -/

theorem IsLine.toOffset?_eq (h : IsLine before line behind) (column : Nat) :
    (ofText (before ++ (line ++ behind))).toOffset? ⟨before.count '\n', column⟩ =
      some (byteLength before + columnBytes line column) := by
  rw [toOffset?, h.lineSpan?_eq, Option.map_some, text_ofText, slice, slice?_append,
    Option.getD_some]

/-- The walk ends at a place of the same line. -/
theorem IsLine.line_toPosition (h : IsLine before line behind) (column : Nat) :
    IsPlace (before ++ (line ++ behind)) (byteLength before + columnBytes line column) ∧
      ((ofText (before ++ (line ++ behind))).toPosition
        (byteLength before + columnBytes line column)).line = before.count '\n' := by
  obtain ⟨u, v, rfl, hbytes, -, -⟩ := exists_columnBytes line column
  have hu : '\n' ∉ u := fun hmem => h.one_line (List.mem_append_left v hmem)
  have hcut : before ++ (u ++ v ++ behind) = (before ++ u) ++ (v ++ behind) := by simp
  rw [hbytes, hcut, ← byteLength_append]
  refine ⟨isPlace_append _ _, ?_⟩
  rw [toPosition_append, List.count_append, List.count_eq_zero.2 hu, Nat.add_zero]

theorem toOffset?_eq_none_iff (cs : List Char) (p : Position) :
    (ofText cs).toOffset? p = none ↔ 1 + cs.count '\n' ≤ p.line := by
  rw [toOffset?, Option.map_eq_none_iff, ← Option.not_isSome_iff_eq_none, isSome_lineSpan?_iff,
    Nat.not_lt, Nat.add_comm]

end

/-- **Columns are rounded up to places.** On a line that is there, a position leads to the first
place in its column or behind it, or to the end of the line. The numbers of the position that leads
back have 32 bits, as the text is short enough. -/
theorem toOffset?_rounds_up (source : String) (hsize : byteLength source.toList < UInt32.size)
    (p : Position) :
    ((ofSource source).toOffset? p = none ↔ 1 + source.toList.count '\n' ≤ p.line) ∧
    (p.line < 1 + source.toList.count '\n' → ∃ span o, IsLineSpan source.toList p.line span ∧
      (ofSource source).toOffset? p = some o ∧
      (IsLeast (placesFrom source.toList span p.character) o ∨
        placesFrom source.toList span p.character = ∅ ∧ o = span.stop) ∧
      (∀ column, p.character ≤ column →
        ∃ o', (ofSource source).toOffset? ⟨p.line, column⟩ = some o' ∧ o ≤ o') ∧
      ((ofSource source).toPosition o).Fits ∧ ((ofSource source).toPosition o).line = p.line ∧
      (ofSource source).toOffset? ((ofSource source).toPosition o) = some o) := by
  refine ⟨toOffset?_eq_none_iff _ p, fun hline => ?_⟩
  obtain ⟨k, character⟩ := p
  have hk : k < (fields '\n' source.toList).length := by
    rw [length_fields]
    exact Nat.lt_of_lt_of_eq hline (Nat.add_comm _ _)
  obtain ⟨before, behind, hisLine, hsource, rfl⟩ := exists_isLine (List.getElem?_eq_getElem hk)
  generalize (fields '\n' source.toList)[before.count '\n'] = line at hisLine hsource
  have hoffset := hisLine.toOffset?_eq
  have hplace := hisLine.line_toPosition character
  rw [← hsource] at hoffset hplace
  refine ⟨_, _, ⟨before, line, behind, hisLine, hsource, rfl, rfl⟩, hoffset character, ?_, ?_,
    fits_toPosition hsize hplace.1, hplace.2, toOffset?_toPosition hplace.1⟩
  · rw [hsource]
    refine (columnBytes_isLeast before line behind character).imp_right fun hend => ?_
    exact ⟨hend.1, by rw [hend.2]⟩
  · intro column hcolumn
    exact ⟨_, hoffset column, Nat.add_le_add_left (columnBytes_mono line hcolumn) _⟩

/-- A column in the middle of a character leads behind it, one behind the end of the line to its
end. There is no fourth line. -/
theorem toOffset?_rounds_up_wide :
    byteLength "a😀\r\n\nb".toList < UInt32.size ∧
      (ofSource "a😀\r\n\nb").toOffset? ⟨0, 2⟩ = some 5 ∧
      IsLeast (placesFrom "a😀\r\n\nb".toList ⟨0, 6⟩ 2) 5 ∧
      (ofSource "a😀\r\n\nb").toOffset? ((ofSource "a😀\r\n\nb").toPosition 5) = some 5 ∧
      (ofSource "a😀\r\n\nb").toOffset? ⟨0, 99⟩ = some 6 ∧
      placesFrom "a😀\r\n\nb".toList ⟨0, 6⟩ 99 = ∅ ∧
      (ofSource "a😀\r\n\nb").toOffset? ⟨3, 0⟩ = none := by
  have hsize : byteLength "a😀\r\n\nb".toList < UInt32.size := by decide +kernel
  have hspan : (ofSource "a😀\r\n\nb").lineSpan? 0 = some ⟨0, 6⟩ := by decide +kernel
  have hmiddle : (ofSource "a😀\r\n\nb").toOffset? ⟨0, 2⟩ = some 5 := by decide +kernel
  have hfar : (ofSource "a😀\r\n\nb").toOffset? ⟨0, 99⟩ = some 6 := by decide +kernel
  have hrounds := toOffset?_rounds_up "a😀\r\n\nb" hsize
  obtain ⟨span, o, hline, ho, hfirst, -, -, -, hback⟩ := (hrounds ⟨0, 2⟩).2 (by decide +kernel)
  obtain ⟨span', o', hline', ho', hend, -⟩ := (hrounds ⟨0, 99⟩).2 (by decide +kernel)
  obtain rfl := Option.some.inj (hspan.symm.trans hline.lineSpan?_eq)
  obtain rfl := Option.some.inj (hspan.symm.trans hline'.lineSpan?_eq)
  obtain rfl := Option.some.inj (hmiddle.symm.trans ho)
  obtain rfl := Option.some.inj (hfar.symm.trans ho')
  refine ⟨hsize, hmiddle, hfirst.resolve_right fun h => absurd h.2 (by decide), hback, hfar, ?_,
    (hrounds ⟨3, 0⟩).1.2 (by decide +kernel)⟩
  exact (hend.resolve_left fun h => absurd h.1.2.2.2 (by decide +kernel)).1

end LineTable

end FlowExpr
