import FlowExpr.Function.Literal
import Mathlib.Data.List.Basic

/-!
# Literals that can only be strings

A string is known from its two ends, and may hold any character between them. Numbers and words are
written with few characters. So a text with any other character in it is a string or no literal at
all (`ofText?_of_mem`): nothing more than its ends has to be looked at.
-/

namespace FlowExpr

namespace Literal

theorem isQuoted_iff {cs : List Char} :
    isQuoted cs = true ↔ ∃ m, cs = '\'' :: (m ++ ['\'']) := by
  simp only [isQuoted, Bool.and_eq_true, decide_eq_true_eq]
  constructor
  · rintro ⟨⟨hlen, hhead⟩, hlast⟩
    cases cs with
    | nil => simp at hhead
    | cons c t =>
      obtain rfl := Option.some.inj hhead
      rcases List.eq_nil_or_concat t with rfl | ⟨m, d, rfl⟩
      · simp at hlen
      · rw [List.concat_eq_append] at hlast ⊢
        rw [List.getLast?_cons, List.getLast?_append_of_ne_nil _ (by simp)] at hlast
        obtain rfl := Option.some.inj hlast
        exact ⟨m, rfl⟩
  · rintro ⟨m, rfl⟩
    rw [List.getLast?_cons, List.getLast?_append_of_ne_nil _ (by simp)]
    simp

/-- The characters that no number and no word is written with. -/
def needsQuotes (d : Char) : Bool :=
  !d.isDigit && d ≠ '.' && d ≠ '-' &&
    ("true".toList ++ ("false".toList ++ "null".toList)).all (· ≠ d)

theorem needsQuotes_iff {d : Char} :
    needsQuotes d = true ↔
      d.isDigit = false ∧ d ≠ '.' ∧ d ≠ '-' ∧ d ∉ "true".toList ∧ d ∉ "false".toList ∧
        d ∉ "null".toList := by
  simp only [needsQuotes, Bool.and_eq_true, Bool.not_eq_true', decide_eq_true_eq, List.all_append,
    List.all_eq_true, and_assoc]
  have hmem : ∀ cs : List Char, (∀ c ∈ cs, c ≠ d) ↔ d ∉ cs := fun cs =>
    ⟨fun h hd => h d hd rfl, fun h c hc hcd => h (hcd ▸ hc)⟩
  rw [hmem, hmem, hmem]

variable {cs : List Char} {d : Char}

theorem not_isDigits_of_mem (hd : d.isDigit = false) (h : d ∈ cs) : isDigits cs = false := by
  rw [isDigits, Bool.and_eq_false_iff]
  right
  rw [List.all_eq_false]
  exact ⟨d, h, by simp [hd]⟩

theorem not_isDecimal_of_mem (hd : d.isDigit = false) (hpoint : d ≠ '.') (h : d ∈ cs) :
    isDecimal cs = false := by
  unfold isDecimal
  split
  · rename_i e fraction hdrop
    rw [Bool.and_eq_false_iff]
    rw [← List.takeWhile_append_dropWhile (p := fun c => decide (c ≠ '.')) (l := cs), hdrop,
      List.mem_append, List.mem_cons] at h
    rcases h with h | rfl | h
    · exact Or.inl (not_isDigits_of_mem hd h)
    · -- The fraction follows the point itself.
      have hhead := List.head?_dropWhile_not (fun c => decide (c ≠ '.')) cs
      rw [hdrop, List.head?_cons] at hhead
      simp [hpoint] at hhead
    · exact Or.inr (not_isDigits_of_mem hd h)
  · rfl

theorem mem_withoutSign (hd : d ≠ '-') (h : d ∈ cs) : d ∈ withoutSign cs := by
  unfold withoutSign
  split
  · exact (List.mem_cons.1 h).resolve_left hd
  · exact h

/-- A text with such a character in it is a string or no literal at all. -/
theorem ofText?_of_mem (hd : needsQuotes d = true) (h : d ∈ cs) :
    ofText? (String.ofList cs) = if isQuoted cs then some string else none := by
  obtain ⟨hdigit, hpoint, hminus, htrue, hfalse, hnull⟩ := needsQuotes_iff.1 hd
  have hword : ∀ w : String, d ∉ w.toList → String.ofList cs ≠ w := by
    intro w hw heq
    rw [← heq, String.toList_ofList] at hw
    exact hw h
  have hsign := mem_withoutSign hminus h
  simp only [ofText?, String.toList_ofList, not_isDigits_of_mem hdigit hsign,
    not_isDecimal_of_mem hdigit hpoint hsign, hword _ htrue, hword _ hfalse, hword _ hnull]
  rfl

end Literal

end FlowExpr
