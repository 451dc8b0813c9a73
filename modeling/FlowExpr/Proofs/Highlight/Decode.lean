import FlowExpr.Highlight.Encode
import FlowExpr.Proofs.Highlight.Selection
import FlowExpr.Proofs.Text.Lines

/-!
# Reading sent tokens back

An editor goes through the tokens it receives and adds each distance to the position it has reached
(`decode`).

**Theorem (`decode_encodedTokens`).** What the editor reads is the classification: for each token,
in order, its position, the length of what it shows on its first line, and its kind.

- **Distances.** Positions that are in order are read back from their distances
  (`decode_relative`). Out of order a distance would be cut off at zero.
- **Lengths.** A token is cut at the end of its line in the document, and what is left is the first
  line of its own text (`place_append`). No token starts with a line break, so something is left of
  each and none is skipped (`shownLine_ne_nil`).
- **Order.** Tokens that are apart in the text are apart on their lines (`stop_read_le`).
-/

namespace FlowExpr.Highlight

open Text LineTable

/-! ## Reading distances -/

/-- A token as an editor reads it. -/
structure ReadToken where
  start : Position
  length : Nat
  /-- Place in the legend. -/
  type : Nat
  deriving DecidableEq, Repr, Inhabited

/-- The position behind a token. -/
def ReadToken.stop (t : ReadToken) : Position := ⟨t.start.line, t.start.character + t.length⟩

/-- The position that a distance leads to. A column is counted from the old one on the same line,
and from the start of the line otherwise. -/
def moved (last : Position) (deltaLine deltaStart : Nat) : Position :=
  if deltaLine = 0 then ⟨last.line, last.character + deltaStart⟩
  else ⟨last.line + deltaLine, deltaStart⟩

/-- What an editor reads that has reached the position `last`. -/
def decode (last : Position) : List EncodedToken → List ReadToken
  | [] => []
  | t :: ts =>
    let start := moved last t.deltaLine t.deltaStart
    ⟨start, t.length, t.type⟩ :: decode start ts

theorem length_decode (last : Position) (ts : List EncodedToken) :
    (decode last ts).length = ts.length := by
  induction ts generalizing last with
  | nil => rfl
  | cons t ts ih => simp only [decode, List.length_cons, ih]

/-- What an editor is to read of a token. -/
def PlacedToken.read (t : PlacedToken) : ReadToken := ⟨t.start, t.length, t.kind.index⟩

/-- The distance to a later position leads there. -/
theorem moved_distance {last start : Position} (h : last ≤ start) :
    moved last (start.line - last.line)
      (if start.line = last.line then start.character - last.character else start.character) =
        start := by
  unfold moved
  rcases h with hline | ⟨hline, hcolumn⟩
  · rw [if_neg (by omega), if_neg (by omega), Nat.add_sub_cancel' (Nat.le_of_lt hline)]
  · rw [if_pos (by omega), if_pos hline.symm, Nat.add_sub_cancel' hcolumn, hline]

/-- Positions in order are read back from their distances. -/
theorem decode_relative {last : Position} {ts : List PlacedToken}
    (hlast : ∀ t ∈ ts, last ≤ t.start) (h : ts.Pairwise fun a b => a.start ≤ b.start) :
    decode last (relative last ts) = ts.map PlacedToken.read := by
  induction ts generalizing last with
  | nil => rfl
  | cons t ts ih =>
    obtain ⟨hhead, htail⟩ := List.pairwise_cons.1 h
    simp only [relative, decode, moved_distance (hlast t List.mem_cons_self), ih hhead htail,
      List.map_cons]
    rfl

/-! ## What is shown of a token -/

/-- A line without a carriage return at its end. -/
def dropReturn (line : List Char) : List Char :=
  if line.getLast? = some '\r' then line.dropLast else line

/-- The first line of a text, without its line break. -/
def shownLine (cs : List Char) : List Char := dropReturn (restOfLine cs)

theorem prefix_dropReturn (line : List Char) : dropReturn line <+: line := by
  unfold dropReturn
  split
  · exact List.dropLast_prefix line
  · exact List.prefix_rfl

theorem dropReturn_concat (line : List Char) (c : Char) :
    dropReturn (line ++ [c]) = if c = '\r' then line else line ++ [c] := by
  simp [dropReturn]

theorem dropReturn_append (a : List Char) {b : List Char} (hb : b ≠ []) :
    dropReturn (a ++ b) = a ++ dropReturn b := by
  rcases List.eq_nil_or_concat b with rfl | ⟨b, c, rfl⟩
  · exact absurd rfl hb
  · rw [List.concat_eq_append, ← List.append_assoc, dropReturn_concat, dropReturn_concat]
    split
    · rfl
    · rw [List.append_assoc]

theorem prefix_shownLine (cs : List Char) : shownLine cs <+: cs :=
  (prefix_dropReturn _).trans ( List.takeWhile_prefix _)

theorem byteLength_shownLine_le (cs : List Char) : byteLength (shownLine cs) ≤ byteLength cs := by
  obtain ⟨rest, hrest⟩ := prefix_shownLine cs
  rw [← congrArg byteLength hrest, byteLength_append]
  exact Nat.le_add_right _ _

theorem unitLength_shownLine_le (cs : List Char) : unitLength (shownLine cs) ≤ unitLength cs := by
  obtain ⟨rest, hrest⟩ := prefix_shownLine cs
  rw [← congrArg unitLength hrest, unitLength_append]
  exact Nat.le_add_right _ _

/-- A text that neither starts with a line break nor ends in a carriage return. -/
structure Anchored (token : List Char) : Prop where
  head : ∃ c rest, token = c :: rest ∧ c ≠ '\n' ∧ c ≠ '\r'
  last : token.getLast? ≠ some '\r'

theorem Kind.Spells.anchored {kind : Kind} {token : List Char} (h : kind.Spells token) :
    Anchored token := by
  by_cases hkind : kind = .string
  · subst hkind
    obtain ⟨body, rfl⟩ := h
    refine ⟨⟨'\'', body ++ ['\''], rfl, by decide, by decide⟩, ?_⟩
    rw [← List.cons_append, List.getLast?_concat]
    decide
  · have hbreak : ∀ c ∈ token, c ≠ '\n' ∧ c ≠ '\r' := by
      intro c hc
      have hfree := h.not_isStringOnly hkind hc
      simp only [isStringOnly, Bool.or_eq_false_iff, decide_eq_false_iff_not] at hfree
      exact ⟨hfree.1.2, hfree.2⟩
    obtain ⟨c, rest, rfl⟩ := List.exists_cons_of_ne_nil h.ne_nil
    refine ⟨⟨c, rest, rfl, hbreak c List.mem_cons_self⟩, ?_⟩
    intro hlast
    exact (hbreak '\r' (List.mem_of_getLast? hlast)).2 rfl

theorem shownLine_ne_nil {token : List Char} (h : Anchored token) : shownLine token ≠ [] := by
  obtain ⟨c, rest, rfl, hfeed, hreturn⟩ := h.head
  rw [shownLine, restOfLine_cons hfeed]
  by_cases hrest : restOfLine rest = []
  · simp [hrest, dropReturn, hreturn]
  · rw [← List.singleton_append, dropReturn_append [c] hrest]
    simp

/-- A text that does not end in a carriage return is shown as it is within a longer line, up to the
end of its own first line. -/
theorem min_shownLine_append {token : List Char} (hlast : token.getLast? ≠ some '\r')
    (b : List Char) :
    min (byteLength token) (byteLength (shownLine (token ++ b))) =
      byteLength (shownLine token) := by
  by_cases hfeed : '\n' ∈ token
  · rw [shownLine, restOfLine_append_of_mem hfeed, ← shownLine]
    exact Nat.min_eq_right (byteLength_shownLine_le token)
  · have htoken : shownLine token = token := by
      rw [shownLine, restOfLine_of_not_mem hfeed, dropReturn, if_neg hlast]
    rw [htoken, shownLine, restOfLine_append_of_not_mem hfeed]
    by_cases hrest : restOfLine b = []
    · rw [hrest, List.append_nil, dropReturn, if_neg hlast, Nat.min_self]
    · rw [dropReturn_append token hrest, byteLength_append]
      exact Nat.min_eq_left (Nat.le_add_right _ _)

/-- The shown text of a line ends before its carriage return, if it has one. -/
theorem visibleStop_append (a tail : List Char) {line : List Char} (hline : line ≠ [])
    (start : Nat) :
    visibleStop (ofText (a ++ (line ++ tail))) ⟨start, byteLength a + byteLength line⟩ =
      byteLength a + byteLength (dropReturn line) := by
  rcases List.eq_nil_or_concat line with rfl | ⟨front, c, rfl⟩
  · exact absurd rfl hline
  rw [List.concat_eq_append] at *
  rw [dropReturn_concat, visibleStop, text_ofText]
  by_cases hc : c = '\r'
  · subst hc
    have hsize : '\r'.utf8Size = 1 := rfl
    rw [if_pos (slice?_of_eq (x := a ++ front) (z := tail) (by simp) _ _), if_pos rfl]
    all_goals
      simp only [byteLength_append, byteLength_cons, byteLength_nil, hsize]
      omega
  · rw [if_neg hc, if_neg]
    intro hslice
    obtain ⟨x, z, htext, -, hstop⟩ := exists_of_slice?_eq_some hslice
    have hfronts : a ++ (front ++ [c]) ++ tail = (x ++ ['\r']) ++ z := by simpa using htext
    have hlength : byteLength (x ++ ['\r']) = byteLength (a ++ (front ++ [c])) := by
      rw [byteLength_append, hstop]
      exact (byteLength_append a (front ++ [c])).symm
    obtain ⟨w, hw, -⟩ := exists_append_of_byteLength_le hfronts (Nat.le_of_eq hlength.symm)
    have hnil : w = [] := by
      rw [hw, byteLength_append] at hlength
      exact byteLength_eq_zero_iff.1 (by omega)
    rw [hnil, List.append_nil, ← List.append_assoc] at hw
    exact hc (List.singleton_inj.1 (List.append_inj_right' hw rfl)).symm

/-- A token is placed at the line and column of its start, with the length of what it shows. -/
theorem place_append (a b : List Char) {token : List Char} (kind : Kind) (h : Anchored token) :
    Token.place (ofText (a ++ (token ++ b)))
        ⟨⟨byteLength a, byteLength a + byteLength token⟩, kind⟩ =
      ⟨⟨a.count '\n', unitLength (startOfLine a)⟩, unitLength (shownLine token), kind⟩ := by
  have hline : restOfLine (token ++ b) ≠ [] := by
    obtain ⟨c, rest, rfl, hfeed, -⟩ := h.head
    rw [List.cons_append, restOfLine_cons hfeed]
    exact List.cons_ne_nil _ _
  obtain ⟨tail, htail⟩ := List.takeWhile_prefix (l := token ++ b) (· ≠ '\n')
  have hstop : visibleStop (ofText (a ++ (token ++ b)))
      ⟨byteLength (beforeLine a), byteLength a + byteLength (restOfLine (token ++ b))⟩ =
        byteLength a + byteLength (shownLine (token ++ b)) := by
    have := visibleStop_append a tail hline (byteLength (beforeLine a))
    rwa [show restOfLine (token ++ b) ++ tail = token ++ b from htail] at this
  obtain ⟨rest, hrest⟩ := prefix_shownLine token
  have htext : a ++ (token ++ b) = a ++ (shownLine token ++ (rest ++ b)) := by
    rw [← List.append_assoc (shownLine token), hrest]
  simp only [Token.place, toPosition_append, lineSpan?_append, hstop, Nat.add_min_add_left,
    min_shownLine_append h.last, text_ofText]
  rw [slice, slice?_of_eq htext rfl rfl, Option.getD_some]

/-! ## The tokens of a document -/

section

variable {source : String} {t u : Token}

/-- A token with the text around it, and where it is placed. -/
theorem exists_place (h : t ∈ classify source) :
    ∃ a token b, source.toList = a ++ (token ++ b) ∧ Anchored token ∧
      t.span = ⟨byteLength a, byteLength a + byteLength token⟩ ∧
      t.place (.ofSource source) =
        ⟨⟨a.count '\n', unitLength (startOfLine a)⟩, unitLength (shownLine token), t.kind⟩ := by
  obtain ⟨a, token, b, hsource, hspells, hspan⟩ :=
    exists_of_mem_candidates (mem_candidates_of_mem_classify h)
  refine ⟨a, token, b, hsource, hspells.anchored, hspan, ?_⟩
  rw [ofSource, hsource, ← place_append a b t.kind hspells.anchored, ← hspan]

theorem length_place_pos (h : t ∈ classify source) : 0 < (t.place (.ofSource source)).length := by
  obtain ⟨a, token, b, -, hanchored, -, hplace⟩ := exists_place h
  obtain ⟨c, rest, hshown⟩ := List.exists_cons_of_ne_nil (shownLine_ne_nil hanchored)
  rw [hplace]
  simp only [hshown, unitLength_cons]
  exact Nat.add_pos_left (unitSize_pos c) _

/-- What an editor is to read of a token, by the text of its span. -/
theorem read_place (h : t ∈ classify source) :
    (t.place (.ofSource source)).read =
      ⟨(LineTable.ofSource source).toPosition t.span.start,
        unitLength (shownLine (slice source.toList t.span)), t.kind.index⟩ := by
  obtain ⟨a, token, b, hsource, -, hspan, hplace⟩ := exists_place h
  rw [hplace, hspan, ofSource, hsource, toPosition_append, slice, slice?_append, Option.getD_some]
  rfl

/-- Tokens that are apart in the text are apart on their lines. -/
theorem stop_read_le (ht : t ∈ classify source) (hu : u ∈ classify source)
    (h : t.span.stop ≤ u.span.start) :
    (t.place (.ofSource source)).read.stop ≤ (u.place (.ofSource source)).start := by
  obtain ⟨a, token, b, hsource, -, hspan, hplace⟩ := exists_place ht
  obtain ⟨a', token', b', hsource', -, hspan', hplace'⟩ := exists_place hu
  rw [hspan, hspan'] at h
  have hfront : a ++ token ++ b = a' ++ (token' ++ b') := by
    rw [List.append_assoc, ← hsource, hsource']
  obtain ⟨between, rfl, -⟩ :=
    exists_append_of_byteLength_le hfront (by rw [byteLength_append]; exact h)
  rw [hplace, hplace']
  simp only [PlacedToken.read, ReadToken.stop]
  by_cases hfeed : '\n' ∈ token ++ between
  · -- A line feed on the way: the second token is on a later line.
    left
    rw [List.append_assoc, List.count_append]
    exact Nat.lt_add_of_pos_right (List.count_pos_iff.2 hfeed)
  · -- One line: the first token is shown whole, and the second is behind it.
    right
    have hunits := unitLength_shownLine_le token
    rw [List.append_assoc, List.count_append, List.count_eq_zero.2 hfeed, startOfLine_append hfeed]
    simp only [unitLength_append]
    exact ⟨rfl, by omega⟩

/-- The numbers of a token are at most the size of the document. -/
theorem place_le (h : t ∈ classify source) :
    (t.place (.ofSource source)).start.line ≤ byteLength source.toList ∧
      (t.place (.ofSource source)).start.character ≤ byteLength source.toList ∧
      (t.place (.ofSource source)).length ≤ byteLength source.toList := by
  obtain ⟨a, token, b, hsource, -, -, hplace⟩ := exists_place h
  have hlines := count_le_byteLength '\n' a
  have hcolumn := unitLength_le_byteLength (startOfLine a)
  have hstart := congrArg byteLength (beforeLine_append_startOfLine a)
  have hlength := unitLength_le_byteLength (shownLine token)
  have hshown := byteLength_shownLine_le token
  rw [byteLength_append] at hstart
  rw [hplace, hsource, byteLength_append, byteLength_append]
  simp only
  omega

/-- No token is skipped. -/
theorem encodedTokens_ofSource (source : String) :
    encodedTokens (.ofSource source) =
      relative ⟨0, 0⟩ ((classify source).map (·.place (.ofSource source))) := by
  rw [encodedTokens, encode, ofSource, text_ofText, String.ofList_toList, List.filter_eq_self.2]
  intro p hp
  obtain ⟨t, ht, rfl⟩ := List.mem_map.1 hp
  exact decide_eq_true (length_place_pos ht)

theorem decode_encodedTokens_eq_map (source : String) :
    decode ⟨0, 0⟩ (encodedTokens (.ofSource source)) =
      (classify source).map fun t => (t.place (.ofSource source)).read := by
  rw [encodedTokens_ofSource, decode_relative, List.map_map]
  · rfl
  · intro p _
    exact (Nat.eq_zero_or_pos p.start.line).elim (fun h => .inr ⟨h.symm, Nat.zero_le _⟩) .inl
  · rw [List.pairwise_map]
    refine (pairwise_classify source).imp_of_mem ?_
    intro t u ht hu htu
    rcases stop_read_le ht hu htu with hline | ⟨hline, hcolumn⟩
    · exact .inl hline
    · exact .inr ⟨hline, Nat.le_of_add_right_le hcolumn⟩

end

/-- **What is sent is read back as the classification.** An editor reads one token for each, at its
position, with the length of its first line and of its kind. No length is zero, all numbers fit in
32 bits, and each token ends before the next one starts, so no distance is negative. -/
theorem decode_encodedTokens (source : String) (hsize : byteLength source.toList < UInt32.size) :
    (encodedTokens (.ofSource source)).length = (classify source).length ∧
    decode ⟨0, 0⟩ (encodedTokens (.ofSource source)) =
      (classify source).map (fun t =>
        ⟨(LineTable.ofSource source).toPosition t.span.start,
          unitLength (shownLine (slice source.toList t.span)), t.kind.index⟩) ∧
    (∀ r ∈ decode ⟨0, 0⟩ (encodedTokens (.ofSource source)),
      0 < r.length ∧ r.length < UInt32.size ∧ r.start.line < UInt32.size ∧ r.start.character < UInt32.size) ∧
    (decode ⟨0, 0⟩ (encodedTokens (.ofSource source))).Pairwise
      (fun a b => a.stop ≤ b.start) := by
  have hread := decode_encodedTokens_eq_map source
  refine ⟨?_, ?_, ?_, ?_⟩
  · rw [← length_decode ⟨0, 0⟩, hread, List.length_map]
  · rw [hread]
    exact List.map_congr_left fun t ht => read_place ht
  · rw [hread]
    intro r hr
    obtain ⟨t, ht, rfl⟩ := List.mem_map.1 hr
    obtain ⟨hline, hcharacter, hlength⟩ := place_le ht
    exact ⟨length_place_pos ht, Nat.lt_of_le_of_lt hlength hsize, Nat.lt_of_le_of_lt hline hsize,
      Nat.lt_of_le_of_lt hcharacter hsize⟩
  · rw [hread, List.pairwise_map]
    exact (pairwise_classify source).imp_of_mem fun ht hu htu => stop_read_le ht hu htu

/-- A string over two lines is cut before the carriage return, and the point behind it is on the
second line. -/
theorem decode_encodedTokens_string_over_lines :
    byteLength "'😀\r\n'.".toList < UInt32.size ∧
      decode ⟨0, 0⟩ (encodedTokens (.ofSource "'😀\r\n'.")) =
        [⟨⟨0, 0⟩, 3, Kind.string.index⟩, ⟨⟨1, 1⟩, 1, Kind.operator.index⟩] := by
  have hsize : byteLength "'😀\r\n'.".toList < UInt32.size := by decide +kernel
  have hfunctions : Recognizer.spans functionMatch "'😀\r\n'.".toList = [] := by
    simp [Recognizer.spans, Recognizer.spansFrom, functionMatch, callHead?, isNameStart]
  have hstrings : Recognizer.spans stringMatch "'😀\r\n'.".toList = [⟨0, 8⟩] := by
    have hquote : closingQuote? ['😀', '\r', '\n', '\'', '.'] = some 4 := by decide +kernel
    simp [Recognizer.spans, Recognizer.spansFrom, stringMatch, hquote, Match.whole, Char.utf8Size]
  have hnumbers : Recognizer.spans numberMatch "'😀\r\n'.".toList = [] := by
    simp [Recognizer.spans, Recognizer.spansFrom, numberMatch]
  have hkeywords : Recognizer.spans keywordMatch "'😀\r\n'.".toList = [] := by
    have hempty : isKeyword [] = false := by decide
    have hwide : wideWordChars.contains '😀' = false := by decide +kernel
    simp [Recognizer.spans, Recognizer.spansFrom, keywordMatch, isWordChar, isNameChar, hempty,
      hwide]
  have hoperators : Recognizer.spans operatorMatch "'😀\r\n'.".toList = [⟨8, 9⟩] := by
    simp [Recognizer.spans, Recognizer.spansFrom, operatorMatch_cons_of_ne, isOperator, Match.whole,
      Char.utf8Size]
  have hclassify : classify "'😀\r\n'." = [⟨⟨0, 8⟩, .string⟩, ⟨⟨8, 9⟩, .operator⟩] := by
    simp only [classify, candidates, recognizers, List.flatMap_cons, List.flatMap_nil, hfunctions,
      hstrings, hnumbers, hkeywords, hoperators]
    simp [List.mergeSort, keepApart]
  refine ⟨hsize, ?_⟩
  rw [(decode_encodedTokens "'😀\r\n'." hsize).2.1, hclassify]
  decide +kernel

end FlowExpr.Highlight
