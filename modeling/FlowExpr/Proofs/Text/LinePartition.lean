import FlowExpr.Proofs.Text.Bytes
import FlowExpr.Proofs.Text.Lines
import FlowExpr.Proofs.Text.Pieces

/-!
# The lines make up the text

**Theorem (`lineTexts_partition`).** A table has one line more than its text has line feeds. The
lines hold no line feed and give the text back when one is put between them. The line of an offset
is the number of line feeds among the bytes before it, and the only line whose span holds it.

**Offsets.** Any number is an offset, also one inside a character or past the end. One fact about
the starts covers them all (`start_le_iff_lineFeeds`): a start is at or before an offset exactly if
its number is at most the number of line feed bytes before the offset. Bisection finds the last such
start, and the spans on either side of it keep away from the offset.

**Lines.** A line stands between two line feeds or the ends of the text (`IsLine`). These are the
fields that the line feeds cut the text into (`exists_isLine`), and joining the fields gives the
text back.
-/

namespace FlowExpr

namespace LineTable

open Text

/-! ## Starts and line feeds -/

/-- The number of line feeds among the bytes of a text before an offset. -/
def lineFeeds (cs : List Char) (offset : Nat) : Nat := ((encode cs).take offset).count '\n'

theorem lineFeeds_le (cs : List Char) (offset : Nat) : lineFeeds cs offset ≤ cs.count '\n' := by
  rw [← count_encode (show '\n'.toNat < 128 by decide) cs]
  exact (List.take_sublist offset (encode cs)).count_le '\n'

theorem lineFeeds_zero (cs : List Char) : lineFeeds cs 0 = 0 := by
  rw [lineFeeds, List.take_zero, List.count_nil]

theorem lineFeeds_cons_lineFeed (cs : List Char) (offset : Nat) :
    lineFeeds ('\n' :: cs) (offset + 1) = lineFeeds cs offset + 1 := by
  rw [lineFeeds, encode_cons, charBytes_of_ascii (by decide), List.singleton_append,
    List.take_succ_cons, List.count_cons_self, lineFeeds]

theorem lineFeeds_cons_of_ne {c : Char} (hc : c ≠ '\n') (cs : List Char) (offset : Nat) :
    lineFeeds (c :: cs) offset = lineFeeds cs (offset - c.utf8Size) := by
  have hfree : ((charBytes c).take offset).count '\n' = 0 := by
    apply Nat.eq_zero_of_le_zero
    calc ((charBytes c).take offset).count '\n'
      _ ≤ (charBytes c).count '\n' := (List.take_sublist offset (charBytes c)).count_le '\n'
      _ = [c].count '\n' := count_charBytes (by decide) c
      _ = 0 := List.count_eq_zero.2 (by simpa using Ne.symm hc)
  rw [lineFeeds, encode_cons, List.take_append, List.count_append, hfree, length_charBytes,
    Nat.zero_add, lineFeeds]

/-- The starts behind line feeds, counted from the place at which the text itself starts. -/
theorem startsAfter_le_iff {cs : List Char} {pos i x : Nat}
    (h : (startsAfter cs pos)[i]? = some x) (offset : Nat) :
    x ≤ pos + offset ↔ i < lineFeeds cs offset := by
  induction cs generalizing pos offset i with
  | nil => simp [startsAfter] at h
  | cons c cs ih =>
    have hpos := (mem_startsAfter (List.mem_of_getElem? h)).1
    by_cases hc : c = '\n'
    · subst hc
      simp only [startsAfter, if_true, utf8Size_lineFeed] at h
      cases offset with
      | zero =>
        rw [lineFeeds_zero]
        omega
      | succ offset =>
        rw [lineFeeds_cons_lineFeed]
        cases i with
        | zero =>
          obtain rfl := Option.some.inj h
          omega
        | succ i =>
          have := ih h offset
          omega
    · -- Inside the character no start is reached: all of them are behind it.
      simp only [startsAfter, if_neg hc] at h
      rw [lineFeeds_cons_of_ne hc, ← ih h]
      have hbehind := (mem_startsAfter (List.mem_of_getElem? h)).1
      omega

theorem size_starts (cs : List Char) : (ofText cs).starts.size = cs.count '\n' + 1 := by
  rw [ofText, List.size_toArray, List.length_cons, length_startsAfter]

/-- The starts up to an offset are numbered by the line feeds before it. -/
theorem start_le_iff_lineFeeds {cs : List Char} {i x : Nat}
    (h : (ofText cs).starts[i]? = some x) (offset : Nat) :
    x ≤ offset ↔ i < lineFeeds cs offset + 1 := by
  rw [ofText, List.getElem?_toArray] at h
  cases i with
  | zero =>
    obtain rfl := Option.some.inj h
    omega
  | succ i =>
    have hstart := startsAfter_le_iff h offset
    omega

theorem lineOf_eq_lineFeeds (cs : List Char) (offset : Nat) :
    (ofText cs).lineOf offset = lineFeeds cs offset := by
  refine lastAtMost_eq (n := lineFeeds cs offset + 1) (fun i x h => start_le_iff_lineFeeds h offset)
    (Nat.succ_pos _) ?_
  rw [size_starts]
  exact Nat.succ_le_succ (lineFeeds_le cs offset)

/-! ## The span that holds an offset -/

theorem lineSpan?_eq_some_iff {t : LineTable} {k : Nat} {span : Span} :
    t.lineSpan? k = some span ↔ t.starts[k]? = some span.start ∧
      ((∃ next, t.starts[k + 1]? = some next ∧ span.stop = next - 1) ∨
        t.starts[k + 1]? = none ∧ span.stop = t.size) := by
  obtain ⟨start, stop⟩ := span
  rw [lineSpan?, Option.map_eq_some_iff]
  cases t.starts[k + 1]? <;> simp [eq_comm]

theorem isSome_lineSpan?_iff (cs : List Char) (k : Nat) :
    ((ofText cs).lineSpan? k).isSome = true ↔ k < cs.count '\n' + 1 := by
  rw [lineSpan?, Option.isSome_map, ← size_starts, isSome_getElem?]

/-- Only the first line starts at zero. -/
theorem start_succ_pos {cs : List Char} {k next : Nat}
    (h : (ofText cs).starts[k + 1]? = some next) : 0 < next := by
  have hzero := start_le_iff_lineFeeds h 0
  rw [lineFeeds_zero] at hzero
  omega

/-- The span of a line holds an offset exactly if it is the line of the offset. -/
theorem lineSpan?_holds_iff {cs : List Char} {offset : Nat} (hle : offset ≤ byteLength cs)
    (k : Nat) :
    (∃ span, (ofText cs).lineSpan? k = some span ∧ span.start ≤ offset ∧ offset ≤ span.stop) ↔
      k = (ofText cs).lineOf offset := by
  have hfeeds := lineFeeds_le cs offset
  have hsize := size_starts cs
  rw [lineOf_eq_lineFeeds]
  constructor
  · rintro ⟨span, hspan, hstart, hstop⟩
    obtain ⟨hk, hend⟩ := lineSpan?_eq_some_iff.1 hspan
    have hbefore := (start_le_iff_lineFeeds hk offset).1 hstart
    rcases hend with ⟨next, hnext, hnext'⟩ | ⟨hlast, -⟩
    · -- The next line starts behind the offset.
      have hbehind := start_le_iff_lineFeeds hnext offset
      have hpos := start_succ_pos hnext
      omega
    · have := Array.getElem?_eq_none_iff.1 hlast
      omega
  · rintro rfl
    have hlt : lineFeeds cs offset < (ofText cs).starts.size := by omega
    have hk := Array.getElem?_eq_getElem hlt
    have hstart := (start_le_iff_lineFeeds hk offset).2 (Nat.lt_succ_self _)
    cases hnext : (ofText cs).starts[lineFeeds cs offset + 1]? with
    | some next =>
      have hbehind := start_le_iff_lineFeeds hnext offset
      refine ⟨⟨_, next - 1⟩, lineSpan?_eq_some_iff.2 ⟨hk, Or.inl ⟨next, hnext, rfl⟩⟩, hstart, ?_⟩
      simp only
      omega
    | none =>
      exact ⟨⟨_, byteLength cs⟩, lineSpan?_eq_some_iff.2 ⟨hk, Or.inr ⟨hnext, rfl⟩⟩, hstart, hle⟩

/-! ## The texts of the lines -/

/-- A line and what stands before and behind it: no line feed is in it, and it goes from one line
feed or end of the text to the next one. -/
structure IsLine (before line behind : List Char) : Prop where
  one_line : '\n' ∉ line
  starts_line : before = [] ∨ ∃ x, before = x ++ ['\n']
  ends_line : behind = [] ∨ ∃ z, behind = '\n' :: z

theorem IsLine.lineSpan?_eq {before line behind : List Char} (h : IsLine before line behind) :
    (ofText (before ++ (line ++ behind))).lineSpan? (before.count '\n') =
      some ⟨byteLength before, byteLength before + byteLength line⟩ := by
  have hbefore : beforeLine before = before := by
    have hnone : startOfLine before = [] := by
      rcases h.starts_line with rfl | ⟨x, rfl⟩ <;> simp [startOfLine]
    have happend := beforeLine_append_startOfLine before
    rwa [hnone, List.append_nil] at happend
  have hrest : restOfLine (line ++ behind) = line := by
    rw [restOfLine_append_of_not_mem h.one_line]
    rcases h.ends_line with rfl | ⟨z, rfl⟩ <;> simp [restOfLine]
  rw [lineSpan?_append, hbefore, hrest]

/-- The fields between the line feeds are the lines. -/
theorem exists_isLine {cs line : List Char} {k : Nat} (h : (fields '\n' cs)[k]? = some line) :
    ∃ before behind, IsLine before line behind ∧ cs = before ++ (line ++ behind) ∧
      before.count '\n' = k := by
  have hjoin := join_fields '\n' cs
  have hfree : ∀ p ∈ fields '\n' cs, '\n' ∉ p := fun p hp => not_mem_of_mem_fields hp
  generalize fields '\n' cs = ps at h hjoin hfree
  obtain ⟨hk, rfl⟩ := List.getElem?_eq_some_iff.1 h
  obtain ⟨behind, hbehind, hends⟩ := exists_joinFields_cons '\n' ps[k] (ps.drop (k + 1))
  refine ⟨closedFields '\n' (ps.take k), behind, ?_, ?_, ?_⟩
  · exact ⟨hfree _ (List.getElem_mem hk), closedFields_eq '\n' _, hends⟩
  · rw [← hbehind, ← joinFields_append '\n' _ (List.cons_ne_nil _ _),
      ← List.drop_eq_getElem_cons hk, List.take_append_drop, hjoin]
  · rw [count_closedFields fun p hp => hfree p (List.mem_of_mem_take hp), List.length_take,
      Nat.min_eq_left (Nat.le_of_lt hk)]

/-- The text of a line, if there is such a line and its span can be read. -/
def lineText? (t : LineTable) (k : Nat) : Option String :=
  (t.lineSpan? k).bind fun span => (slice? t.text span).map String.ofList

/-- The lines read off the table are the fields between the line feeds. -/
theorem lineText?_eq (cs : List Char) (k : Nat) :
    (ofText cs).lineText? k = ((fields '\n' cs).map String.ofList)[k]? := by
  rw [List.getElem?_map]
  cases h : (fields '\n' cs)[k]? with
  | none =>
    have hnone : (ofText cs).lineSpan? k = none := by
      have hk := List.getElem?_eq_none_iff.1 h
      rw [length_fields] at hk
      rw [← Option.not_isSome_iff_eq_none, isSome_lineSpan?_iff]
      exact Nat.not_lt.2 hk
    rw [lineText?, hnone]
    rfl
  | some line =>
    obtain ⟨before, behind, hline, rfl, rfl⟩ := exists_isLine h
    rw [lineText?, hline.lineSpan?_eq, Option.bind_some, text_ofText, slice?_append]

/-- **The lines make up the text.** There is one line more than there are line feeds, no line holds
one, and with line feeds between them they are the text. The line of an offset is the number of line
feeds among the bytes before it, and no other line holds the offset. -/
theorem lineTexts_partition (source : String) :
    (∀ k, ((ofSource source).lineSpan? k).isSome = true ↔ k < (bytes source).count '\n' + 1) ∧
    (∃ lines : List String, lines.length = (bytes source).count '\n' + 1 ∧
      (∀ k, (ofSource source).lineText? k = lines[k]?) ∧
      (∀ line ∈ lines, '\n' ∉ line.toList) ∧ "\n".intercalate lines = source) ∧
    (∀ offset, (ofSource source).lineOf offset = ((bytes source).take offset).count '\n') ∧
    ∀ offset, offset ≤ (bytes source).length → ∀ k,
      (∃ span, (ofSource source).lineSpan? k = some span ∧
        span.start ≤ offset ∧ offset ≤ span.stop) ↔ k = (ofSource source).lineOf offset := by
  rw [bytes_eq_encode, length_encode, count_encode (by decide)]
  refine ⟨isSome_lineSpan?_iff _, ?_, lineOf_eq_lineFeeds _, fun offset => lineSpan?_holds_iff⟩
  refine ⟨(fields '\n' source.toList).map String.ofList, ?_, lineText?_eq _, ?_, ?_⟩
  · rw [List.length_map, length_fields]
  · intro line hline
    obtain ⟨field, hfield, rfl⟩ := List.mem_map.1 hline
    rw [String.toList_ofList]
    exact not_mem_of_mem_fields hfield
  · have hchars : ((fields '\n' source.toList).map String.ofList).map String.toList =
        fields '\n' source.toList := by simp [Function.comp_def]
    rw [← String.toList_inj, String.toList_intercalate, hchars]
    exact (intercalate_singleton_eq_joinFields '\n' _).trans (join_fields '\n' _)

/-- An empty line, and an offset inside a character. The last line holds the offset, and only the
empty line holds the place between the two line feeds. -/
theorem lineTexts_partition_empty_line :
    4 ≤ (bytes "a\n\né").length ∧ (ofSource "a\n\né").lineOf 4 = 2 ∧
      ((ofSource "a\n\né").lineSpan? 2).isSome = true ∧
      (∃ span, (ofSource "a\n\né").lineSpan? 2 = some span ∧ span.start ≤ 4 ∧ 4 ≤ span.stop) ∧
      ∀ k span, (ofSource "a\n\né").lineSpan? k = some span → span.start ≤ 2 → 2 ≤ span.stop →
        k = 1 := by
  have hlength : (bytes "a\n\né").length = 5 := by decide +kernel
  obtain ⟨hlines, -, hcount, hholds⟩ := lineTexts_partition "a\n\né"
  have hlast : (ofSource "a\n\né").lineOf 4 = 2 := by
    rw [hcount]
    decide +kernel
  refine ⟨by omega, hlast, (hlines 2).2 (by decide +kernel), ?_, ?_⟩
  · exact (hholds 4 (by omega) 2).2 hlast.symm
  · intro k span hspan hstart hstop
    rw [(hholds 2 (by omega) k).1 ⟨span, hspan, hstart, hstop⟩, hcount]
    decide +kernel

end LineTable

end FlowExpr
