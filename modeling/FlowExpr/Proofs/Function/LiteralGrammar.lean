import FlowExpr.Proofs.Function.Literal
import FlowExpr.Text.Offset
import Mathlib.Computability.RegularExpressions

/-!
# The grammar of literals

`Literal.ofText?` takes a text apart step by step: it looks at the two ends, compares with three
words, drops a sign, looks for digits, and cuts at the first point. The grammar says in one line for
each kind how its literals are written (`Written`): strings by their ends, words as such, and
numbers by the regular expressions `-?[0-9]+` and `-?[0-9]+[.][0-9]+`.

**Theorem (`ofText?_follows_grammar`).** A text is read as a literal of some kind exactly if the
grammar writes that kind so, and as no literal exactly if the grammar has no kind for it.

Both numbers are digits behind an optional sign, so the sign is dealt with once
(`mem_signed_iff`): dropping it loses nothing because no digits start with one. What the text is
checked against first cannot get in the way of a number, which has none of the characters that
strings and words are written with (`ofText?_of_numeric`).
-/

namespace FlowExpr

open Text

namespace Literal

/-! ## Patterns -/

/-- One of the given characters. -/
def oneOf (cs : List Char) : RegularExpression Char :=
  cs.foldr (fun c r => .char c + r) 0

/-- `[0-9]+` -/
def digitsPattern : RegularExpression Char :=
  oneOf "0123456789".toList * (oneOf "0123456789".toList).star

/-- `[0-9]+[.][0-9]+` -/
def decimalPattern : RegularExpression Char := digitsPattern * (.char '.' * digitsPattern)

/-- A pattern with `-?` in front. -/
def signed (r : RegularExpression Char) : RegularExpression Char := (1 + .char '-') * r

/-- How the literals of each kind are written. -/
def Written (text : String) : Literal → Prop
  | string => 2 ≤ byteLength text.toList ∧ text.toList.head? = some '\'' ∧
      text.toList.getLast? = some '\''
  | boolean => text = "true" ∨ text = "false"
  | null => text = "null"
  | integer => text.toList ∈ (signed digitsPattern).matches'
  | float => text.toList ∈ (signed decimalPattern).matches'

/-! ## Digits -/

theorem mem_oneOf_iff {cs text : List Char} :
    text ∈ (oneOf cs).matches' ↔ ∃ c ∈ cs, text = [c] := by
  induction cs with
  | nil => simp [oneOf]
  | cons c cs ih =>
    rw [show oneOf (c :: cs) = .char c + oneOf cs from rfl, RegularExpression.matches'_add,
      Language.mem_add, ih, RegularExpression.matches'_char, List.exists_mem_cons_iff]
    rfl

theorem isDigit_iff_mem {c : Char} : c.isDigit = true ↔ c ∈ "0123456789".toList := by
  constructor
  · intro h
    simp only [Char.isDigit, Bool.and_eq_true, decide_eq_true_eq, UInt32.le_iff_toNat_le] at h
    have hlow : 48 ≤ c.toNat := h.1
    have hhigh : c.toNat ≤ 57 := h.2
    have hmem : ∀ n < 10, Char.ofNat (48 + n) ∈ "0123456789".toList := by decide
    have hc := hmem (c.toNat - 48) (by omega)
    rwa [Nat.add_sub_cancel' hlow, Char.ofNat_toNat] at hc
  · intro h
    exact List.all_eq_true.1 (show "0123456789".toList.all Char.isDigit = true by decide) c h

/-- A run of digits, by the pattern. -/
theorem mem_star_digit_iff {cs : List Char} :
    cs ∈ (oneOf "0123456789".toList).star.matches' ↔ ∀ c ∈ cs, c.isDigit = true := by
  rw [RegularExpression.matches'_star, Language.mem_kstar]
  constructor
  · rintro ⟨parts, rfl, hparts⟩ c hc
    obtain ⟨part, hpart, hc⟩ := List.mem_flatten.1 hc
    obtain ⟨d, hd, rfl⟩ := mem_oneOf_iff.1 (hparts part hpart)
    rw [List.mem_singleton.1 hc]
    exact isDigit_iff_mem.2 hd
  · intro h
    refine ⟨cs.map fun c => [c], ?_, ?_⟩
    · rw [← List.flatMap_def, List.flatMap_singleton']
    intro part hpart
    obtain ⟨c, hc, rfl⟩ := List.mem_map.1 hpart
    exact mem_oneOf_iff.2 ⟨c, isDigit_iff_mem.1 (h c hc), rfl⟩

theorem isDigits_iff {cs : List Char} :
    isDigits cs = true ↔ cs ≠ [] ∧ ∀ c ∈ cs, c.isDigit = true := by
  rw [isDigits, Bool.and_eq_true, Bool.not_eq_true', List.isEmpty_eq_false_iff, List.all_eq_true]

theorem isDigits_iff_mem {cs : List Char} :
    isDigits cs = true ↔ cs ∈ digitsPattern.matches' := by
  rw [isDigits_iff, digitsPattern, RegularExpression.matches'_mul, Language.mem_mul]
  constructor
  · rintro ⟨hne, hdigits⟩
    obtain ⟨c, t, rfl⟩ := List.exists_cons_of_ne_nil hne
    exact ⟨[c], mem_oneOf_iff.2 ⟨c, isDigit_iff_mem.1 (hdigits c List.mem_cons_self), rfl⟩, t,
      mem_star_digit_iff.2 fun d hd => hdigits d (List.mem_cons_of_mem c hd), rfl⟩
  · rintro ⟨first, hfirst, rest, hrest, rfl⟩
    obtain ⟨c, hc, rfl⟩ := mem_oneOf_iff.1 hfirst
    refine ⟨List.cons_ne_nil c rest, fun d hd => ?_⟩
    rcases List.mem_cons.1 hd with rfl | hd
    · exact isDigit_iff_mem.2 hc
    · exact mem_star_digit_iff.1 hrest d hd

/-! ## Points and signs -/

/-- The first point is the only one that can divide two runs of digits. -/
theorem isDecimal_iff {cs : List Char} :
    isDecimal cs = true ↔
      ∃ whole fraction, cs = whole ++ '.' :: fraction ∧ isDigits whole = true ∧
        isDigits fraction = true := by
  constructor
  · intro h
    unfold isDecimal at h
    split at h
    · rename_i point fraction hdrop
      rw [Bool.and_eq_true] at h
      refine ⟨_, fraction, ?_, h.1, h.2⟩
      have hpoint := List.head?_dropWhile_not (fun c => decide (c ≠ '.')) cs
      rw [hdrop, List.head?_cons] at hpoint
      have hpoint : point = '.' := by simpa using hpoint
      rw [hpoint] at hdrop
      rw [← hdrop, List.takeWhile_append_dropWhile]
    · cases h
  · rintro ⟨whole, fraction, rfl, hwhole, hfraction⟩
    have hstop : ∀ c ∈ whole, decide (c ≠ '.') = true := by
      intro c hc
      refine decide_eq_true fun hpoint => ?_
      have hdigit := (isDigits_iff.1 hwhole).2 c hc
      rw [hpoint] at hdigit
      exact absurd hdigit (by decide)
    unfold isDecimal
    rw [List.dropWhile_append_of_pos hstop, List.takeWhile_append_of_pos hstop]
    simp [hwhole, hfraction]

theorem isDecimal_iff_mem {cs : List Char} :
    isDecimal cs = true ↔ cs ∈ decimalPattern.matches' := by
  rw [isDecimal_iff, decimalPattern, RegularExpression.matches'_mul, RegularExpression.matches'_mul,
    RegularExpression.matches'_char]
  constructor
  · rintro ⟨whole, fraction, rfl, hwhole, hfraction⟩
    exact Language.append_mem_mul (isDigits_iff_mem.1 hwhole)
      (Language.append_mem_mul (Set.mem_singleton ['.']) (isDigits_iff_mem.1 hfraction))
  · intro h
    obtain ⟨whole, hwhole, rest, hrest, rfl⟩ := Language.mem_mul.1 h
    obtain ⟨point, hpoint, fraction, hfraction, rfl⟩ := Language.mem_mul.1 hrest
    obtain rfl : point = ['.'] := hpoint
    exact ⟨whole, fraction, rfl, isDigits_iff_mem.2 hwhole, isDigits_iff_mem.2 hfraction⟩

/-- A sign can be dropped in front of what never starts with one. -/
theorem mem_signed_iff {r : RegularExpression Char} (hr : ∀ t, '-' :: t ∉ r.matches')
    {cs : List Char} : cs ∈ (signed r).matches' ↔ withoutSign cs ∈ r.matches' := by
  have hsplit : cs ∈ (signed r).matches' ↔ cs ∈ r.matches' ∨ ∃ t ∈ r.matches', cs = '-' :: t := by
    rw [signed, RegularExpression.matches'_mul, Language.mem_mul]
    constructor
    · rintro ⟨sign, hsign, t, ht, rfl⟩
      rcases hsign with hsign | hsign
      · obtain rfl : sign = [] := hsign
        exact Or.inl ht
      · obtain rfl : sign = ['-'] := hsign
        exact Or.inr ⟨t, ht, rfl⟩
    · rintro (h | ⟨t, ht, rfl⟩)
      · exact ⟨[], Or.inl rfl, cs, h, rfl⟩
      · exact ⟨['-'], Or.inr rfl, t, ht, rfl⟩
  rw [hsplit]
  unfold withoutSign
  split
  · rename_i t
    simp [hr t]
  · rename_i hsign
    refine ⟨fun h => h.resolve_right ?_, Or.inl⟩
    rintro ⟨t, -, ht⟩
    exact hsign t ht

/-- The characters that numbers are written with. -/
def isNumeric (c : Char) : Bool := c.isDigit || c = '-' || c = '.'

theorem isNumeric_of_isDigits {cs : List Char} (h : isDigits cs = true) :
    ∀ c ∈ cs, isNumeric c = true := by
  intro c hc
  simp [isNumeric, (isDigits_iff.1 h).2 c hc]

theorem isNumeric_of_isDecimal {cs : List Char} (h : isDecimal cs = true) :
    ∀ c ∈ cs, isNumeric c = true := by
  obtain ⟨whole, fraction, rfl, hwhole, hfraction⟩ := isDecimal_iff.1 h
  intro c hc
  rcases List.mem_append.1 hc with hc | hc
  · exact isNumeric_of_isDigits hwhole c hc
  · rcases List.mem_cons.1 hc with rfl | hc
    · decide
    · exact isNumeric_of_isDigits hfraction c hc

theorem isNumeric_of_withoutSign {cs : List Char}
    (h : ∀ c ∈ withoutSign cs, isNumeric c = true) : ∀ c ∈ cs, isNumeric c = true := by
  unfold withoutSign at h
  split at h
  · intro c hc
    rcases List.mem_cons.1 hc with rfl | hc
    · decide
    · exact h c hc
  · exact h

theorem mem_integer_iff {cs : List Char} :
    cs ∈ (signed digitsPattern).matches' ↔ isDigits (withoutSign cs) = true := by
  rw [mem_signed_iff, ← isDigits_iff_mem]
  intro t ht
  have hdigit := (isDigits_iff.1 (isDigits_iff_mem.2 ht)).2 '-' List.mem_cons_self
  exact absurd hdigit (by decide)

theorem mem_float_iff {cs : List Char} :
    cs ∈ (signed decimalPattern).matches' ↔ isDecimal (withoutSign cs) = true := by
  rw [mem_signed_iff, ← isDecimal_iff_mem]
  intro t ht
  obtain ⟨whole, fraction, hcs, hwhole, -⟩ := isDecimal_iff.1 (isDecimal_iff_mem.2 ht)
  obtain ⟨hne, hdigits⟩ := isDigits_iff.1 hwhole
  obtain ⟨c, rest, rfl⟩ := List.exists_cons_of_ne_nil hne
  obtain ⟨rfl, -⟩ := List.cons.inj hcs
  exact absurd (hdigits '-' List.mem_cons_self) (by decide)

/-! ## Reading by the grammar -/

/-- A quote is one byte, so two bytes with a quote at both ends hold two quotes. -/
theorem isQuoted_iff_ends {cs : List Char} :
    isQuoted cs = true ↔
      2 ≤ byteLength cs ∧ cs.head? = some '\'' ∧ cs.getLast? = some '\'' := by
  constructor
  · intro h
    obtain ⟨m, rfl⟩ := isQuoted_iff.1 h
    simp only [isQuoted, Bool.and_eq_true, decide_eq_true_eq] at h
    refine ⟨?_, h.1.2, h.2⟩
    have hsize : '\''.utf8Size = 1 := rfl
    simp only [byteLength_cons, byteLength_append, byteLength_nil, hsize]
    omega
  · rintro ⟨hsize, hhead, hlast⟩
    simp only [isQuoted, Bool.and_eq_true, decide_eq_true_eq]
    refine ⟨⟨?_, hhead⟩, hlast⟩
    cases cs with
    | nil => cases hhead
    | cons c rest =>
      cases rest with
      | nil =>
        obtain rfl := Option.some.inj hhead
        exact absurd hsize (by decide)
      | cons d rest => simp

/-- A text of such characters only is a number or no literal. -/
theorem ofText?_of_numeric {text : String} (h : ∀ c ∈ text.toList, isNumeric c = true) :
    ofText? text =
      if isDigits (withoutSign text.toList) then some integer
      else if isDecimal (withoutSign text.toList) then some float
      else none := by
  have hquoted : ¬ isQuoted text.toList = true := by
    intro hquoted
    obtain ⟨m, hm⟩ := isQuoted_iff.1 hquoted
    exact absurd (h '\'' (by rw [hm]; exact List.mem_cons_self)) (by decide)
  have hword : ∀ (w : String) (c : Char), c ∈ w.toList → isNumeric c = false → text ≠ w := by
    rintro w c hc hnumeric rfl
    rw [h c hc] at hnumeric
    cases hnumeric
  have htrue := hword "true" 't' (by decide) (by decide)
  have hfalse := hword "false" 'f' (by decide) (by decide)
  have hnull := hword "null" 'n' (by decide) (by decide)
  simp only [ofText?, hquoted, htrue, hfalse, hnull]
  rfl

/-- What is read as a literal is written so. -/
theorem written_of_ofText? {text : String} {l : Literal} (h : ofText? text = some l) :
    l.Written text := by
  simp only [ofText?] at h
  split_ifs at h with hquoted hboolean hnull hdigits hdecimal <;> obtain rfl := Option.some.inj h
  · exact isQuoted_iff_ends.1 hquoted
  · simpa [Written] using hboolean
  · exact hnull
  · exact mem_integer_iff.2 hdigits
  · exact mem_float_iff.2 hdecimal

/-- What is written as a literal is read so. -/
theorem ofText?_of_written {text : String} {l : Literal} (h : l.Written text) :
    ofText? text = some l := by
  cases l with
  | string => rw [ofText?, if_pos (isQuoted_iff_ends.2 h)]
  | boolean => rcases h with rfl | rfl <;> decide
  | null =>
    obtain rfl : text = "null" := h
    decide
  | integer =>
    have hdigits := mem_integer_iff.1 h
    rw [ofText?_of_numeric (isNumeric_of_withoutSign (isNumeric_of_isDigits hdigits)),
      if_pos hdigits]
  | float =>
    have hdecimal := mem_float_iff.1 h
    -- The point is no digit, so that a fraction is not taken for a whole number.
    have hdigits : isDigits (withoutSign text.toList) = false := by
      obtain ⟨whole, fraction, hcs, -, -⟩ := isDecimal_iff.1 hdecimal
      exact not_isDigits_of_mem (d := '.') (by decide) (by rw [hcs]; simp)
    rw [ofText?_of_numeric (isNumeric_of_withoutSign (isNumeric_of_isDecimal hdecimal)), hdigits,
      if_neg Bool.false_ne_true, if_pos hdecimal]

/-- **Literals are read by their grammar.** A text is read as a literal of a kind exactly if it is
written as that kind, and as none exactly if it is written as no kind. -/
theorem ofText?_follows_grammar (text : String) :
    (∀ l : Literal, ofText? text = some l ↔ l.Written text) ∧
    (ofText? text = none ↔ ∀ l : Literal, ¬ l.Written text) := by
  have hsome : ∀ l : Literal, ofText? text = some l ↔ l.Written text := fun l =>
    ⟨written_of_ofText?, ofText?_of_written⟩
  refine ⟨hsome, ?_⟩
  simp only [Option.eq_none_iff_forall_ne_some, ne_eq, hsome]

end Literal

end FlowExpr
