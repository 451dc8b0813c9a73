import FlowExpr.Text.LineTable

/-!
# Where a place is on its line

A place of a text is a cut into what is before it and what is behind it. Its position can be read
off these two parts, without a table: the line is the number of line feeds before it, and the
column is the length of what stands before it on its line.

**Theorem (`toPosition_append`).** The table gives this position for every cut.

The bisection needs one fact about the table: at a cut, the starts that come from the first part are
at or before the place and all others are behind it (`start_le_iff`). The span of the line is read
off the same cut (`lineSpan?_append`).
-/

namespace FlowExpr

/-- Positions are in reading order: by line, on one line by column. -/
instance : LE Position where
  le p q := p.line < q.line ∨ p.line = q.line ∧ p.character ≤ q.character

namespace Text

@[simp] theorem utf8Size_lineFeed : '\n'.utf8Size = 1 := rfl

theorem unitSize_le_utf8Size (c : Char) : unitSize c ≤ c.utf8Size := by
  unfold unitSize
  split
  · exact c.utf8Size_pos
  · rename_i hwide
    have hne : c.utf8Size ≠ 1 := by
      intro hone
      have hle := UInt32.le_iff_toNat_le.1 (Char.utf8Size_eq_one_iff.1 hone)
      exact hwide (Nat.lt_of_le_of_lt hle (by decide))
    have hpos := c.utf8Size_pos
    omega

theorem unitLength_le_byteLength (cs : List Char) : unitLength cs ≤ byteLength cs := by
  induction cs with
  | nil => exact Nat.le_refl 0
  | cons c cs ih => exact Nat.add_le_add (unitSize_le_utf8Size c) ih

theorem count_le_byteLength (c : Char) (cs : List Char) : cs.count c ≤ byteLength cs := by
  induction cs with
  | nil => exact Nat.le_refl 0
  | cons d cs ih =>
    have hpos := d.utf8Size_pos
    rw [List.count_cons, byteLength_cons]
    split <;> omega

/-! ## The line around a place -/

/-- What stands on the last line of a text. -/
def startOfLine (cs : List Char) : List Char := (cs.reverse.takeWhile (· ≠ '\n')).reverse

/-- What stands on the first line of a text. -/
def restOfLine (cs : List Char) : List Char := cs.takeWhile (· ≠ '\n')

theorem not_mem_startOfLine (cs : List Char) : '\n' ∉ startOfLine cs := by
  intro h
  have hall := List.all_eq_true.1 (List.all_takeWhile (p := (· ≠ '\n')) (l := cs.reverse))
  have hne := hall '\n' (List.mem_reverse.1 h)
  simp at hne

/-- What comes before the last line of a text. -/
def beforeLine (cs : List Char) : List Char := (cs.reverse.dropWhile (· ≠ '\n')).reverse

theorem beforeLine_append_startOfLine (cs : List Char) : beforeLine cs ++ startOfLine cs = cs := by
  rw [beforeLine, startOfLine, ← List.reverse_append, List.takeWhile_append_dropWhile,
    List.reverse_reverse]

theorem beforeLine_append (a b : List Char) : beforeLine a ++ (startOfLine a ++ b) = a ++ b := by
  rw [← List.append_assoc, beforeLine_append_startOfLine]

/-- Before the last line there is nothing, or a line feed in front of it. -/
theorem beforeLine_eq (cs : List Char) : beforeLine cs = [] ∨ ∃ x, beforeLine cs = x ++ ['\n'] := by
  unfold beforeLine
  cases h : cs.reverse.dropWhile (· ≠ '\n') with
  | nil => exact Or.inl rfl
  | cons c rest =>
    have hc : c = '\n' := by
      have hhead := List.head?_dropWhile_not (· ≠ '\n') cs.reverse
      rw [h] at hhead
      simpa using hhead
    exact Or.inr ⟨rest.reverse, by rw [hc, List.reverse_cons]⟩

theorem count_beforeLine (cs : List Char) : (beforeLine cs).count '\n' = cs.count '\n' := by
  have h := congrArg (List.count '\n') (beforeLine_append_startOfLine cs)
  rwa [List.count_append, List.count_eq_zero.2 (not_mem_startOfLine cs), Nat.add_zero] at h

/-- Text without a line feed goes on the same line. -/
theorem startOfLine_append {a b : List Char} (hb : '\n' ∉ b) :
    startOfLine (a ++ b) = startOfLine a ++ b := by
  have hall : ∀ c ∈ b.reverse, (decide (c ≠ '\n')) = true := by
    intro c hc
    rw [decide_eq_true_eq]
    rintro rfl
    exact hb (List.mem_reverse.1 hc)
  rw [startOfLine, List.reverse_append, List.takeWhile_append_of_pos hall, List.reverse_append,
    List.reverse_reverse]
  rfl

theorem restOfLine_cons {c : Char} (h : c ≠ '\n') (cs : List Char) :
    restOfLine (c :: cs) = c :: restOfLine cs :=
  List.takeWhile_cons_of_pos (decide_eq_true h)

theorem restOfLine_append_of_not_mem {a : List Char} (ha : '\n' ∉ a) (b : List Char) :
    restOfLine (a ++ b) = a ++ restOfLine b := by
  refine List.takeWhile_append_of_pos ?_
  intro c hc
  rw [decide_eq_true_eq]
  rintro rfl
  exact ha hc

theorem restOfLine_of_not_mem {cs : List Char} (h : '\n' ∉ cs) : restOfLine cs = cs := by
  have happend := restOfLine_append_of_not_mem h []
  rwa [show restOfLine [] = [] from rfl, List.append_nil] at happend

/-- Behind a line feed nothing is on the first line any more. -/
theorem restOfLine_append_of_mem {a : List Char} (ha : '\n' ∈ a) (b : List Char) :
    restOfLine (a ++ b) = restOfLine a := by
  obtain ⟨x, y, rfl, hx⟩ := List.eq_append_cons_of_mem ha
  rw [List.append_assoc, restOfLine_append_of_not_mem hx, restOfLine_append_of_not_mem hx]
  rfl

end Text

namespace LineTable

open Text

/-! ## The starts of lines -/

theorem startsAfter_append (a b : List Char) (pos : Nat) :
    startsAfter (a ++ b) pos = startsAfter a pos ++ startsAfter b (pos + byteLength a) := by
  induction a generalizing pos with
  | nil => simp [startsAfter]
  | cons c a ih =>
    simp only [List.cons_append, startsAfter, ih, byteLength_cons, Nat.add_assoc]
    split <;> rfl

/-- There is one start behind each line feed. -/
theorem length_startsAfter (cs : List Char) (pos : Nat) :
    (startsAfter cs pos).length = cs.count '\n' := by
  induction cs generalizing pos with
  | nil => rfl
  | cons c cs ih =>
    by_cases hc : c = '\n' <;> simp [startsAfter, hc, ih]

theorem mem_startsAfter {cs : List Char} {pos x : Nat} (h : x ∈ startsAfter cs pos) :
    pos < x ∧ x ≤ pos + byteLength cs := by
  induction cs generalizing pos with
  | nil => cases h
  | cons c cs ih =>
    have hpos := c.utf8Size_pos
    simp only [startsAfter] at h
    rw [byteLength_cons]
    split at h
    · rcases List.mem_cons.1 h with rfl | htail
      · omega
      · have := ih htail
        omega
    · have := ih h
      omega

theorem startsAfter_of_not_mem {cs : List Char} (h : '\n' ∉ cs) (pos : Nat) :
    startsAfter cs pos = [] := by
  rw [← List.length_eq_zero_iff, length_startsAfter]
  exact List.count_eq_zero.2 h

/-- The first start behind a place is behind the rest of its line. -/
theorem head?_startsAfter (cs : List Char) (pos : Nat) :
    (startsAfter cs pos).head? =
      if '\n' ∈ cs then some (pos + byteLength (restOfLine cs) + 1) else none := by
  by_cases h : '\n' ∈ cs
  · obtain ⟨x, y, rfl, hx⟩ := List.eq_append_cons_of_mem h
    rw [if_pos h, startsAfter_append, startsAfter_of_not_mem hx, restOfLine_append_of_not_mem hx]
    simp [startsAfter, restOfLine]
  · rw [if_neg h, startsAfter_of_not_mem h]
    rfl

/-! ## The table at a cut -/

/-- Bisection finds the end of the entries that are at most the offset. -/
theorem lastAtMost_eq {starts : Array Nat} {offset n lo hi : Nat} {h : hi ≤ starts.size}
    (hn : ∀ i x, starts[i]? = some x → (x ≤ offset ↔ i < n)) (hlo : lo < n) (hhi : n ≤ hi) :
    lastAtMost starts offset lo hi h = n - 1 := by
  fun_induction lastAtMost starts offset lo hi h with
  | case1 lo hi h hlt hmid hle ih =>
    exact ih ((hn _ _ (Array.getElem?_eq_getElem hmid)).1 hle) hhi
  | case2 lo hi h hlt hmid hnle ih =>
    refine ih hlo (Nat.le_of_not_lt fun hmid' => hnle ?_)
    exact (hn _ _ (Array.getElem?_eq_getElem hmid)).2 hmid'
  | case3 lo hi h hge => omega

section

variable (a b : List Char)

/-- The starts of an appended text are those of its first part and those behind it. -/
theorem starts_append :
    (ofText (a ++ b)).starts =
      ((0 :: startsAfter a 0) ++ startsAfter b (byteLength a)).toArray := by
  rw [ofText, startsAfter_append, Nat.zero_add]
  rfl

/-- The starts up to a place are those of the text before it. -/
theorem start_le_iff {i x : Nat} (h : (ofText (a ++ b)).starts[i]? = some x) :
    x ≤ byteLength a ↔ i < a.count '\n' + 1 := by
  rw [starts_append, List.getElem?_toArray, List.getElem?_append, List.length_cons,
    length_startsAfter] at h
  split at h
  · rename_i hi
    refine iff_of_true ?_ hi
    rcases List.mem_cons.1 (List.mem_of_getElem? h) with rfl | hmem
    · exact Nat.zero_le _
    · have := mem_startsAfter hmem
      omega
  · rename_i hi
    refine iff_of_false ?_ hi
    have := mem_startsAfter (List.mem_of_getElem? h)
    omega

/-- The line of a place is the number of line feeds before it. -/
theorem lineOf_append : (ofText (a ++ b)).lineOf (byteLength a) = a.count '\n' := by
  refine lastAtMost_eq (n := a.count '\n' + 1) (fun i x => start_le_iff a b) (by omega) ?_
  rw [starts_append, List.size_toArray, List.length_append, List.length_cons, length_startsAfter]
  omega

/-- The start of the line of a place. -/
theorem getElem?_starts_append :
    (ofText (a ++ b)).starts[a.count '\n']? = some (byteLength (beforeLine a)) := by
  rw [← beforeLine_append, ← count_beforeLine, starts_append, List.getElem?_toArray,
    List.getElem?_append_left (by simp [length_startsAfter])]
  rcases beforeLine_eq a with hnil | ⟨x, hx⟩
  · rw [hnil]
    rfl
  · rw [hx, startsAfter_append, ← List.cons_append, List.getElem?_append_right]
    · simp [startsAfter, length_startsAfter]
    · simp [length_startsAfter]

/-- The start of the line behind the line of a place, if there is one. -/
theorem getElem?_succ_starts_append :
    (ofText (a ++ b)).starts[a.count '\n' + 1]? =
      if '\n' ∈ b then some (byteLength a + byteLength (restOfLine b) + 1) else none := by
  rw [starts_append, List.getElem?_toArray, List.getElem?_append_right
    (by simp [length_startsAfter]), List.length_cons, length_startsAfter, Nat.sub_self,
    ← List.head?_eq_getElem?, head?_startsAfter]

/-- The line of a place goes from its start to the end of what is left of it. -/
theorem lineSpan?_append :
    (ofText (a ++ b)).lineSpan? (a.count '\n') =
      some ⟨byteLength (beforeLine a), byteLength a + byteLength (restOfLine b)⟩ := by
  rw [lineSpan?, getElem?_starts_append, getElem?_succ_starts_append]
  by_cases h : '\n' ∈ b
  · simp [h]
  · simp [h, restOfLine_of_not_mem h]

theorem clamp_append : (ofText (a ++ b)).clamp (byteLength a) = byteLength a := by
  rw [clamp, size_ofText, byteLength_append]
  exact Nat.min_eq_left (Nat.le_add_right _ _)

/-- What stands before a place on its line. -/
theorem linePrefix_append : (ofText (a ++ b)).linePrefix (byteLength a) = startOfLine a := by
  have hlength : byteLength a = byteLength (beforeLine a) + byteLength (startOfLine a) := by
    rw [← byteLength_append, beforeLine_append_startOfLine]
  rw [linePrefix, clamp_append, lineStart, lineOf_append, getElem?_starts_append, Option.getD_some,
    text_ofText, slice, slice?_of_eq (beforeLine_append a b).symm rfl hlength, Option.getD_some]

/-- **The position of a place.** Its line is the number of line feeds before it, its column the
length of what stands before it on its line. -/
theorem toPosition_append :
    (ofText (a ++ b)).toPosition (byteLength a) =
      ⟨a.count '\n', unitLength (startOfLine a)⟩ := by
  rw [toPosition, clamp_append, lineOf_append, linePrefix_append]

end

end LineTable

end FlowExpr
