import FlowExpr.Highlight.Classify
import FlowExpr.Proofs.Text.Bytes
import Mathlib.Data.List.Pairwise
import Mathlib.Data.List.TakeWhile

/-!
# Where a recognizer finds its tokens

**One match.** A recognizer answers with three lengths. `Match.Covers` says what they stand for: a
part of the text in front of the token, the token, and the rest, with the token inside the match.
Each of the five recognizers gives only such matches, and its tokens are written as their kind asks
(`Kind.Spells`). In particular no token is empty, and only strings hold a quote or a line break.

**All matches.** Going through a text from left to right, a recognizer finds each token where it
stands (`exists_of_mem_spans`), and its tokens never overlap (`pairwise_spans`).
-/

namespace FlowExpr.Highlight

open Text

/-! ## What tokens are written with -/

/-- What a token of a kind is written with. -/
def Kind.Spells : Kind → List Char → Prop
  | .function, token =>
    ∃ c rest, token = c :: rest ∧ isNameStart c = true ∧ ∀ d ∈ rest, isNameChar d = true
  | .string, token => ∃ body, token = '\'' :: (body ++ ['\''])
  | .number, token => token ≠ [] ∧ ∀ c ∈ token, c.isDigit = true ∨ c = '.'
  | .keyword, token => isKeyword token = true ∧ ∀ c ∈ token, isWordChar c = true
  | .operator, token => token = ['@', '{'] ∨ ∃ c, token = [c] ∧ isOperator c = true

theorem isNameChar_of_isNameStart {c : Char} (h : isNameStart c = true) : isNameChar c = true := by
  simp only [isNameStart, Bool.or_eq_true, decide_eq_true_eq] at h
  simp only [isNameChar, Char.isAlphanum, Bool.or_eq_true, decide_eq_true_eq]
  exact h.imp_left Or.inl

theorem isNameChar_of_isDigit {c : Char} (h : c.isDigit = true) : isNameChar c = true := by
  simp [isNameChar, Char.isAlphanum, h]

theorem Kind.Spells.ne_nil {kind : Kind} {token : List Char} (h : kind.Spells token) :
    token ≠ [] := by
  cases kind with
  | function =>
    obtain ⟨c, rest, rfl, -⟩ := h
    simp
  | string =>
    obtain ⟨body, rfl⟩ := h
    simp
  | number => exact h.1
  | keyword =>
    rintro rfl
    exact absurd h.1 (by decide)
  | operator =>
    rcases h with rfl | ⟨c, rfl, -⟩ <;> simp

/-- A character that no token but a string holds: a quote or a line break. -/
def isStringOnly (c : Char) : Bool := c = '\'' || c = '\n' || c = '\r'

theorem isStringOnly_of_isNameChar {c : Char} (h : isNameChar c = true) :
    isStringOnly c = false := by
  cases hc : isStringOnly c with
  | false => rfl
  | true =>
    simp only [isStringOnly, Bool.or_eq_true, decide_eq_true_eq] at hc
    rcases hc with (rfl | rfl) | rfl <;> exact absurd h (by decide)

theorem Kind.Spells.not_isStringOnly {kind : Kind} {token : List Char} (h : kind.Spells token)
    (hkind : kind ≠ .string) {c : Char} (hc : c ∈ token) : isStringOnly c = false := by
  cases kind with
  | function =>
    obtain ⟨d, rest, rfl, hd, hrest⟩ := h
    rcases List.mem_cons.1 hc with rfl | hmem
    · exact isStringOnly_of_isNameChar (isNameChar_of_isNameStart hd)
    · exact isStringOnly_of_isNameChar (hrest c hmem)
  | string => exact absurd rfl hkind
  | number =>
    rcases h.2 c hc with hdigit | rfl
    · exact isStringOnly_of_isNameChar (isNameChar_of_isDigit hdigit)
    · decide
  | keyword =>
    have hword := h.2 c hc
    unfold isWordChar at hword
    split at hword
    · exact isStringOnly_of_isNameChar hword
    · rename_i hwide
      cases hs : isStringOnly c with
      | false => rfl
      | true =>
        simp only [isStringOnly, Bool.or_eq_true, decide_eq_true_eq] at hs
        rcases hs with (rfl | rfl) | rfl <;> exact absurd (by decide) hwide
  | operator =>
    rcases h with rfl | ⟨d, rfl, hd⟩
    · rcases List.mem_cons.1 hc with rfl | hmem
      · decide
      · rw [List.mem_singleton.1 hmem]
        decide
    · rw [List.mem_singleton.1 hc]
      simp only [isOperator, Bool.or_eq_true, decide_eq_true_eq] at hd
      rcases hd with ((((((rfl | rfl) | rfl) | rfl) | rfl) | rfl) | rfl) | rfl <;> decide

/-! ## One match -/

/-- The text that a match is found at the start of: what is in front of the token, the token and
the rest. The match goes at least through the token. -/
structure Match.Covers (m : Match) (cs front token rest : List Char) : Prop where
  text : cs = front ++ (token ++ rest)
  lead : front.length = m.lead
  size : token.length = m.size
  inside : m.lead + m.size ≤ m.total
  total : m.total ≤ cs.length

/-- The recognizer finds nothing but tokens of the kind. -/
def Recognizer.Finds (recognize : Recognizer) (kind : Kind) : Prop :=
  ∀ before cs m, recognize before cs = some m →
    ∃ front token rest, m.Covers cs front token rest ∧ kind.Spells token

/-- A match of a token without anything around it. -/
theorem Match.covers_whole {cs token rest : List Char} {n : Nat} (h : cs = token ++ rest)
    (hn : n = token.length) : (Match.whole n).Covers cs [] token rest := by
  subst h hn
  exact ⟨rfl, rfl, rfl, by simp [Match.whole], by simp [Match.whole]⟩

theorem callHead?_eq_some {cs : List Char} {size total : Nat}
    (h : callHead? cs = some (size, total)) :
    ∃ name blanks rest, cs = name ++ (blanks ++ '(' :: rest) ∧ Kind.function.Spells name ∧
      (∀ c ∈ blanks, isBlank c = true) ∧ size = name.length ∧
      total = name.length + blanks.length + 1 := by
  cases cs with
  | nil => simp [callHead?] at h
  | cons c cs =>
    simp only [callHead?] at h
    split at h
    · rename_i hstart
      split at h
      · rename_i rest hrest
        simp only [Option.some.injEq, Prod.mk.injEq] at h
        refine ⟨(c :: cs).takeWhile isNameChar,
          ((c :: cs).dropWhile isNameChar).takeWhile isBlank, rest, ?_, ?_,
          fun d hd => List.mem_takeWhile_imp hd, h.1.symm, h.2.symm⟩
        · rw [← hrest, List.takeWhile_append_dropWhile, List.takeWhile_append_dropWhile]
        · refine ⟨c, cs.takeWhile isNameChar, ?_, hstart, fun d hd => List.mem_takeWhile_imp hd⟩
          rw [List.takeWhile_cons_of_pos (isNameChar_of_isNameStart hstart)]
      · cases h
    · cases h

/-- What a match of a function is written with. -/
theorem functionMatch_eq_some {before : Option Char} {cs : List Char} {m : Match}
    (h : functionMatch before cs = some m) :
    ∃ marker name blanks rest, cs = marker ++ (name ++ (blanks ++ '(' :: rest)) ∧
      (marker = [] ∨ marker = ['@']) ∧ Kind.function.Spells name ∧
      (∀ c ∈ blanks, isBlank c = true) ∧
      m = ⟨marker.length, name.length, marker.length + (name.length + blanks.length + 1)⟩ := by
  unfold functionMatch at h
  split at h
  · obtain ⟨⟨size, total⟩, hhead, rfl⟩ := Option.map_eq_some_iff.1 h
    obtain ⟨name, blanks, rest, rfl, hname, hblanks, rfl, rfl⟩ := callHead?_eq_some hhead
    exact ⟨['@'], name, blanks, rest, rfl, Or.inr rfl, hname, hblanks, rfl⟩
  · obtain ⟨⟨size, total⟩, hhead, rfl⟩ := Option.map_eq_some_iff.1 h
    obtain ⟨name, blanks, rest, rfl, hname, hblanks, rfl, rfl⟩ := callHead?_eq_some hhead
    refine ⟨[], name, blanks, rest, rfl, Or.inl rfl, hname, hblanks, ?_⟩
    rw [List.length_nil, Nat.zero_add]

theorem functionMatch_finds : Recognizer.Finds functionMatch .function := by
  intro before cs m h
  obtain ⟨marker, name, blanks, rest, rfl, -, hname, -, rfl⟩ := functionMatch_eq_some h
  refine ⟨marker, name, blanks ++ '(' :: rest, ⟨rfl, rfl, rfl, ?_, ?_⟩, hname⟩
  · simp only
    omega
  · simp only [List.length_cons, List.length_append]
    omega

theorem closingQuote?_eq_some {cs : List Char} {n : Nat} (h : closingQuote? cs = some n) :
    ∃ body rest, cs = body ++ '\'' :: rest ∧ n = body.length + 1 := by
  fun_induction closingQuote? cs generalizing n with
  | case1 => cases h
  | case2 cs => exact ⟨[], cs, rfl, by simpa using h.symm⟩
  | case3 => cases h
  | case4 cs => cases h
  | case5 c cs hc ih =>
    obtain ⟨k, hk, rfl⟩ := Option.map_eq_some_iff.1 h
    obtain ⟨body, rest, rfl, rfl⟩ := ih hk
    exact ⟨'\\' :: c :: body, rest, rfl, by simp⟩
  | case6 c cs hquote hlast hpair ih =>
    obtain ⟨k, hk, rfl⟩ := Option.map_eq_some_iff.1 h
    obtain ⟨body, rest, rfl, rfl⟩ := ih hk
    exact ⟨c :: body, rest, rfl, by simp⟩

theorem stringMatch_finds : Recognizer.Finds stringMatch .string := by
  intro before cs m h
  unfold stringMatch at h
  split at h
  · obtain ⟨n, hn, rfl⟩ := Option.map_eq_some_iff.1 h
    obtain ⟨body, rest, rfl, rfl⟩ := closingQuote?_eq_some hn
    exact ⟨[], '\'' :: (body ++ ['\'']), rest, Match.covers_whole (by simp) (by simp), body, rfl⟩
  · cases h

theorem numberMatch_finds : Recognizer.Finds numberMatch .number := by
  intro before cs m h
  have hcs : cs = cs.takeWhile Char.isDigit ++ cs.dropWhile Char.isDigit :=
    List.takeWhile_append_dropWhile.symm
  simp only [numberMatch] at h
  split at h
  · cases h
  · rename_i hstart
    have hne : cs.takeWhile Char.isDigit ≠ [] := by
      intro hnil
      simp [hnil] at hstart
    have hshort : (if startsWord (cs.dropWhile Char.isDigit) then none
          else some (Match.whole (cs.takeWhile Char.isDigit).length)) = some m →
        ∃ front token rest, m.Covers cs front token rest ∧ Kind.number.Spells token := by
      intro hm
      split at hm
      · cases hm
      · obtain rfl := (Option.some.inj hm).symm
        refine ⟨[], cs.takeWhile Char.isDigit, _, Match.covers_whole hcs rfl, hne, ?_⟩
        exact fun c hc => Or.inl (List.mem_takeWhile_imp hc)
    split at h
    · rename_i tail htail
      split at h
      · exact hshort h
      · -- Digits, a point and digits.
        obtain rfl := (Option.some.inj h).symm
        refine ⟨[], cs.takeWhile Char.isDigit ++ '.' :: tail.takeWhile Char.isDigit,
          tail.dropWhile Char.isDigit, Match.covers_whole ?_ ?_, by simp, ?_⟩
        · rw [List.append_assoc, List.cons_append, List.takeWhile_append_dropWhile, ← htail]
          exact hcs
        · simp only [List.length_append, List.length_cons]
          omega
        · intro c hc
          simp only [List.mem_append, List.mem_cons] at hc
          rcases hc with hc | rfl | hc
          · exact Or.inl (List.mem_takeWhile_imp hc)
          · exact Or.inr rfl
          · exact Or.inl (List.mem_takeWhile_imp hc)
    · exact hshort h

theorem keywordMatch_finds : Recognizer.Finds keywordMatch .keyword := by
  intro before cs m h
  simp only [keywordMatch] at h
  split at h
  · rename_i hword
    obtain rfl := (Option.some.inj h).symm
    refine ⟨[], cs.takeWhile isWordChar, cs.dropWhile isWordChar,
      Match.covers_whole List.takeWhile_append_dropWhile.symm rfl, ?_, ?_⟩
    · exact (Bool.and_eq_true_iff.1 hword).2
    · exact fun c hc => List.mem_takeWhile_imp hc
  · cases h

theorem operatorMatch_finds : Recognizer.Finds operatorMatch .operator := by
  intro before cs m h
  unfold operatorMatch at h
  split at h
  · obtain rfl := (Option.some.inj h).symm
    exact ⟨[], ['@', '{'], _, Match.covers_whole rfl rfl, Or.inl rfl⟩
  · split at h
    · rename_i c cs _ hc
      obtain rfl := (Option.some.inj h).symm
      exact ⟨[], [c], cs, Match.covers_whole rfl rfl, Or.inr ⟨c, rfl, hc⟩⟩
    · cases h
  · cases h

/-- Without the marker an operator is one character. -/
theorem operatorMatch_cons_of_ne {c : Char} (h : c ≠ '@') (before : Option Char) (cs : List Char) :
    operatorMatch before (c :: cs) = if isOperator c then some (.whole 1) else none := by
  unfold operatorMatch
  split
  · rename_i heq
    exact absurd (List.cons.inj heq).1 h
  · rename_i heq
    obtain ⟨rfl, rfl⟩ := List.cons.inj heq
    rfl
  · rename_i heq
    cases heq

/-- Every recognizer finds tokens of its own kind. -/
theorem finds_of_mem_recognizers {kind : Kind} {recognize : Recognizer}
    (h : (kind, recognize) ∈ recognizers) : recognize.Finds kind := by
  simp only [recognizers, List.mem_cons, Prod.mk.injEq, List.not_mem_nil, or_false] at h
  rcases h with ⟨rfl, rfl⟩ | ⟨rfl, rfl⟩ | ⟨rfl, rfl⟩ | ⟨rfl, rfl⟩ | ⟨rfl, rfl⟩
  · exact functionMatch_finds
  · exact stringMatch_finds
  · exact numberMatch_finds
  · exact keywordMatch_finds
  · exact operatorMatch_finds

/-! ## All matches of a text -/

/-- The span of the token of a match that is found at an offset. -/
def Match.span (m : Match) (pos : Nat) (cs : List Char) : Span :=
  ⟨pos + byteLength (cs.take m.lead),
    pos + byteLength (cs.take m.lead) + byteLength ((cs.drop m.lead).take m.size)⟩

theorem Match.Covers.span_eq {m : Match} {cs front token rest : List Char}
    (h : m.Covers cs front token rest) (pos : Nat) :
    m.span pos cs =
      ⟨pos + byteLength front, pos + byteLength front + byteLength token⟩ := by
  have hfront : cs.take m.lead = front := by
    rw [h.text, ← h.lead, List.take_left]
  have htoken : (cs.drop m.lead).take m.size = token := by
    rw [h.text, ← h.lead, List.drop_left, ← h.size, List.take_left]
  rw [Match.span, hfront, htoken]

namespace Recognizer

variable {recognize : Recognizer} {kind : Kind}

/-- Every token that is found is a match at some place of the text. -/
theorem exists_of_mem_spansFrom {before : Option Char} {pos : Nat} {cs : List Char} {span : Span}
    (h : span ∈ recognize.spansFrom before pos cs) :
    ∃ a b m, cs = a ++ b ∧ recognize (a.getLast?.or before) b = some m ∧
      span = m.span (pos + byteLength a) b := by
  fun_induction spansFrom recognize before pos cs with
  | case1 => cases h
  | case2 before pos c cs m hm start token taken ih =>
    rcases List.mem_cons.1 h with rfl | htail
    · exact ⟨[], c :: cs, m, rfl, hm, rfl⟩
    · obtain ⟨a, b, m', hcs, hm', rfl⟩ := ih htail
      refine ⟨taken ++ a, b, m', ?_, ?_, ?_⟩
      · rw [List.append_assoc, ← hcs]
        exact congrArg (c :: ·) (List.take_append_drop _ cs).symm
      · have hlast : taken.getLast?.or before = taken.getLast? := by
          simp [taken, List.getLast?_cons]
        rw [List.getLast?_append, Option.or_assoc, hlast]
        exact hm'
      · rw [byteLength_append, Nat.add_assoc]
  | case3 before pos c cs hm ih =>
    obtain ⟨a, b, m, rfl, hm', rfl⟩ := ih h
    refine ⟨c :: a, b, m, rfl, ?_, ?_⟩
    · rw [← hm', List.getLast?_cons]
      cases a.getLast? <;> rfl
    · rw [byteLength_cons, Nat.add_assoc]

theorem le_start_of_mem_spansFrom {before : Option Char} {pos : Nat} {cs : List Char} {span : Span}
    (h : span ∈ recognize.spansFrom before pos cs) : pos ≤ span.start := by
  obtain ⟨a, b, m, -, -, rfl⟩ := exists_of_mem_spansFrom h
  simp only [Match.span]
  omega

/-- The token of a match ends where the match does, or before. -/
theorem stop_span_le {before : Option Char} {c : Char} {cs : List Char} {m : Match}
    (hr : recognize.Finds kind) (hm : recognize before (c :: cs) = some m) (pos : Nat) :
    (m.span pos (c :: cs)).stop ≤ pos + byteLength (c :: cs.take (m.total - 1)) := by
  obtain ⟨front, token, rest, hcovers, hspells⟩ := hr before (c :: cs) m hm
  have hpos : 0 < m.size := by
    rw [← hcovers.size]
    exact List.length_pos_iff.2 hspells.ne_nil
  have htaken : c :: cs.take (m.total - 1) = (c :: cs).take m.total := by
    rw [← List.take_succ_cons, Nat.sub_add_cancel]
    have := hcovers.inside
    omega
  have hfront : front ++ token = (c :: cs).take (m.lead + m.size) := by
    rw [hcovers.text, ← List.append_assoc, ← hcovers.lead, ← hcovers.size, ← List.length_append,
      List.take_left]
  obtain ⟨t, ht⟩ : front ++ token <+: (c :: cs).take m.total := by
    rw [hfront]
    exact List.take_prefix_take_left hcovers.inside
  rw [hcovers.span_eq, htaken, ← ht, byteLength_append, byteLength_append]
  simp only
  omega

theorem pairwise_spansFrom (hr : recognize.Finds kind) (before : Option Char) (pos : Nat)
    (cs : List Char) :
    (recognize.spansFrom before pos cs).Pairwise fun s t => s.stop ≤ t.start := by
  fun_induction spansFrom recognize before pos cs with
  | case1 => exact List.Pairwise.nil
  | case2 before pos c cs m hm start token taken ih =>
    refine List.pairwise_cons.2 ⟨fun span hspan => ?_, ih⟩
    exact Nat.le_trans (stop_span_le hr hm pos) (le_start_of_mem_spansFrom hspan)
  | case3 before pos c cs hm ih => exact ih

/-- Every token stands in the text, written as its kind asks. -/
theorem exists_of_mem_spans (hr : recognize.Finds kind) {cs : List Char} {span : Span}
    (h : span ∈ recognize.spans cs) :
    ∃ a token b, cs = a ++ (token ++ b) ∧ kind.Spells token ∧
      span = ⟨byteLength a, byteLength a + byteLength token⟩ := by
  obtain ⟨a, b, m, rfl, hm, rfl⟩ := exists_of_mem_spansFrom h
  obtain ⟨front, token, rest, hcovers, hspells⟩ := hr _ b m hm
  refine ⟨a ++ front, token, rest, ?_, hspells, ?_⟩
  · rw [hcovers.text, List.append_assoc]
  · rw [hcovers.span_eq, byteLength_append, Nat.zero_add]

/-- Tokens of one kind never overlap. -/
theorem pairwise_spans (hr : recognize.Finds kind) (cs : List Char) :
    (recognize.spans cs).Pairwise fun s t => s.stop ≤ t.start :=
  pairwise_spansFrom hr none 0 cs

theorem apart_of_mem_spans (hr : recognize.Finds kind) {cs : List Char} {s t : Span}
    (hs : s ∈ recognize.spans cs) (ht : t ∈ recognize.spans cs) (hne : s ≠ t) :
    s.stop ≤ t.start ∨ t.stop ≤ s.start := by
  have : Std.Symm fun s t : Span => s.stop ≤ t.start ∨ t.stop ≤ s.start := ⟨fun _ _ => Or.symm⟩
  have hapart : (recognize.spans cs).Pairwise fun s t => s.stop ≤ t.start ∨ t.stop ≤ s.start :=
    (pairwise_spans hr cs).imp Or.inl
  exact hapart.forall hs ht hne

theorem start_lt_stop_of_mem_spans (hr : recognize.Finds kind) {cs : List Char} {span : Span}
    (h : span ∈ recognize.spans cs) : span.start < span.stop := by
  obtain ⟨a, token, b, -, hspells, rfl⟩ := exists_of_mem_spans hr h
  have hpos : byteLength token ≠ 0 := fun hzero => hspells.ne_nil (byteLength_eq_zero_iff.1 hzero)
  simp only
  omega

end Recognizer

end FlowExpr.Highlight
