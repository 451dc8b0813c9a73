import FlowExpr.Proofs.Text.Bytes

/-!
# Names

A name is a run of name characters that does not start with a digit (`isName`). Wherever names are
read from a text they are *longest* runs: what stands before and behind them is no name character.
`takeWhile_append_of_stops` and `dropWhile_append_of_stops` say what a reader takes of such a text,
and `takeWhile_reverse_of_stops` what one takes who reads backwards.
-/

namespace FlowExpr.Text

/-! ## Longest runs -/

section

variable {p : Char → Bool} {run rest : List Char}

theorem takeWhile_append_of_stops (hrun : ∀ c ∈ run, p c = true)
    (hrest : ∀ c t, rest = c :: t → p c = false) : (run ++ rest).takeWhile p = run := by
  have hstop : rest.takeWhile p = [] := by
    cases rest with
    | nil => rfl
    | cons c t => simp [hrest c t rfl]
  rw [List.takeWhile_append_of_pos hrun, hstop, List.append_nil]

theorem dropWhile_append_of_stops (hrun : ∀ c ∈ run, p c = true)
    (hrest : ∀ c t, rest = c :: t → p c = false) : (run ++ rest).dropWhile p = rest := by
  have hstop : rest.dropWhile p = rest := by
    cases rest with
    | nil => rfl
    | cons c t => simp [hrest c t rfl]
  rw [List.dropWhile_append_of_pos hrun, hstop]

/-- The run at the end of a text. -/
theorem takeWhile_reverse_of_stops {front : List Char} (hrun : ∀ c ∈ run, p c = true)
    (hfront : front.getLast?.any p = false) :
    ((front ++ run).reverse.takeWhile p).reverse = run := by
  rw [List.reverse_append, takeWhile_append_of_stops, List.reverse_reverse]
  · intro c hc
    exact hrun c (List.mem_reverse.1 hc)
  · intro c t hc
    rw [List.getLast?_eq_head?_reverse, hc] at hfront
    exact hfront

end

/-! ## Names -/

/-- Whether a text is a name. -/
def isName : List Char → Bool
  | [] => false
  | c :: cs => !c.isDigit && (c :: cs).all isNameChar

theorem isName_iff {cs : List Char} :
    isName cs = true ↔
      cs ≠ [] ∧ (∀ c ∈ cs, isNameChar c = true) ∧ ∀ c t, cs = c :: t → c.isDigit = false := by
  cases cs with
  | nil => simp [isName]
  | cons c cs => simp [isName, and_comm]

/-- A character that may start a name. -/
theorem isAlpha_or_of_isNameChar {c : Char} (h : isNameChar c = true) (hd : c.isDigit = false) :
    c.isAlpha = true ∨ c = '_' := by
  simpa [isNameChar, Char.isAlphanum, hd] using h

end FlowExpr.Text
