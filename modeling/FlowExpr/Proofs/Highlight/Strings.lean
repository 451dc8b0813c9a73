import FlowExpr.Proofs.Call.Redact
import FlowExpr.Proofs.Highlight.Selection

/-!
# Which strings are highlighted

Strings are read twice. The reader of calls goes through the text and enters and leaves strings
(`Quote.next`); the highlighter looks for a quote and for the next one behind it. They differ on
backslashes: one outside of strings means something to the reader only.

**Theorem (`string_spans_classify`).** In a text without backslashes, the string tokens are the
strings that the reader enters and leaves again (`Quote.closedStrings`). A string that is never
closed is no token.

So wherever a string token goes on, the reader is inside a string (`inside_of_within_string`).
-/

namespace FlowExpr

open Text

/-! ## Strings of the reader -/

namespace Quote

/-- The strings that a reader leaves in a text at offset `pos`, each from the quote at which it is
entered through the quote at which it is left. The string that the reader is in was entered at
`opened`. -/
def closedStrings (q : Quote) (opened pos : Nat) : List Char → List Span
  | [] => []
  | c :: cs =>
    let rest := (q.next c).closedStrings (if q.inside then opened else pos) (pos + c.utf8Size) cs
    if q.inside && !(q.next c).inside then ⟨opened, pos + c.utf8Size⟩ :: rest else rest

variable {q : Quote} {opened pos : Nat} {cs : List Char}

theorem closedStrings_cons_of_outside (hq : q.inside = false) (opened pos : Nat) (c : Char)
    (cs : List Char) :
    q.closedStrings opened pos (c :: cs) =
      (q.next c).closedStrings pos (pos + c.utf8Size) cs := by
  simp [closedStrings, hq]

/-- Without a quote no string is left. -/
theorem closedStrings_of_not_mem (h : '\'' ∉ cs) : q.closedStrings opened pos cs = [] := by
  induction cs generalizing q opened pos with
  | nil => rfl
  | cons c cs ih =>
    have hc : c ≠ '\'' := (List.ne_of_not_mem_cons h).symm
    simp [closedStrings, inside_next_of_ne hc, ih (List.not_mem_of_not_mem_cons h)]

/-- A string is left at the first quote in it. -/
theorem closedStrings_of_closed {body : List Char} (hquote : '\'' ∉ body) (hbackslash : '\\' ∉ body)
    (opened pos : Nat) (cs : List Char) :
    closedStrings ⟨true, false⟩ opened pos (body ++ '\'' :: cs) =
      ⟨opened, pos + byteLength body + 1⟩ ::
        closedStrings {} opened (pos + byteLength body + 1) cs := by
  induction body generalizing pos with
  | nil => rfl
  | cons c body ih =>
    have hnext : Quote.next ⟨true, false⟩ c = ⟨true, false⟩ := by
      simp [next, (List.ne_of_not_mem_cons hquote).symm, (List.ne_of_not_mem_cons hbackslash).symm]
    rw [List.cons_append, closedStrings, hnext, byteLength_cons, ← Nat.add_assoc]
    exact ih (List.not_mem_of_not_mem_cons hquote) (List.not_mem_of_not_mem_cons hbackslash)
      (pos + c.utf8Size)

theorem le_start_of_mem_closedStrings {span : Span} (h : span ∈ q.closedStrings opened pos cs)
    (hopened : opened ≤ pos) : (if q.inside then opened else pos) ≤ span.start := by
  induction cs generalizing q opened pos with
  | nil => cases h
  | cons c cs ih =>
    have hrest : span ∈ (q.next c).closedStrings (if q.inside then opened else pos)
        (pos + c.utf8Size) cs → (if q.inside then opened else pos) ≤ span.start := by
      intro hmem
      have hle := ih hmem (by split <;> omega)
      refine Nat.le_trans ?_ hle
      split <;> split <;> omega
    rw [closedStrings] at h
    split at h
    · rename_i hleft
      rcases List.mem_cons.1 h with rfl | hmem
      · simp [(Bool.and_eq_true_iff.1 hleft).1]
      · exact hrest hmem
    · exact hrest h

/-- Between the quotes of such a string the reader is inside of it. -/
theorem inside_of_mem_closedStrings {span : Span} {u v : List Char}
    (h : span ∈ q.closedStrings opened pos (u ++ v)) (hopened : opened ≤ pos)
    (hstart : span.start < pos + byteLength u) (hstop : pos + byteLength u < span.stop) :
    (q.after u).inside = true := by
  induction u generalizing q opened pos with
  | nil =>
    have hle := le_start_of_mem_closedStrings h hopened
    rw [byteLength_nil] at hstart
    cases hq : q.inside with
    | true => exact hq
    | false =>
      rw [hq] at hle
      exact absurd hstart (Nat.not_lt.2 hle)
  | cons c u ih =>
    rw [byteLength_cons] at hstart hstop
    have hrest : span ∈ (q.next c).closedStrings (if q.inside then opened else pos)
        (pos + c.utf8Size) (u ++ v) → ((q.next c).after u).inside = true := by
      intro hmem
      exact ih hmem (by split <;> omega) (by omega) (by omega)
    rw [List.cons_append, closedStrings] at h
    split at h
    · rcases List.mem_cons.1 h with rfl | hmem
      · simp only at hstop
        omega
      · exact hrest hmem
    · exact hrest h

end Quote

/-! ## Strings of the highlighter -/

namespace Highlight

/-- Without backslashes a string ends at the next quote. -/
theorem closingQuote?_of_not_mem {cs : List Char} (h : '\\' ∉ cs) :
    (closingQuote? cs = none ∧ '\'' ∉ cs) ∨
      ∃ body rest, cs = body ++ '\'' :: rest ∧ '\'' ∉ body ∧
        closingQuote? cs = some (body.length + 1) := by
  fun_induction closingQuote? cs with
  | case1 => exact .inl ⟨rfl, List.not_mem_nil⟩
  | case2 cs => exact .inr ⟨[], cs, rfl, List.not_mem_nil, rfl⟩
  | case3 => exact absurd List.mem_cons_self h
  | case4 => exact absurd List.mem_cons_self h
  | case5 => exact absurd List.mem_cons_self h
  | case6 c cs hquote hlast hpair ih =>
    have hc : '\'' ≠ c := fun heq => hquote heq.symm
    rcases ih (List.not_mem_of_not_mem_cons h) with
      ⟨hnone, hcs⟩ | ⟨body, rest, rfl, hbody, hsome⟩
    · exact .inl ⟨by rw [hnone]; rfl, List.not_mem_cons_of_ne_of_not_mem hc hcs⟩
    · exact .inr ⟨c :: body, rest, rfl, List.not_mem_cons_of_ne_of_not_mem hc hbody,
        by rw [hsome]; rfl⟩

theorem stringMatch_of_ne {c : Char} (h : c ≠ '\'') (before : Option Char) (cs : List Char) :
    stringMatch before (c :: cs) = none := by
  unfold stringMatch
  split
  · rename_i heq
    exact absurd (List.cons.inj heq).1 h
  · rfl

/-- Both find the same strings, from a place on that is outside of strings. -/
theorem spansFrom_stringMatch {cs : List Char} (h : '\\' ∉ cs) (before : Option Char)
    (opened pos : Nat) :
    Recognizer.spansFrom stringMatch before pos cs = Quote.closedStrings {} opened pos cs := by
  fun_induction Recognizer.spansFrom stringMatch before pos cs generalizing opened with
  | case1 => rfl
  | case2 before pos c cs m hm start token taken ih =>
    obtain rfl : c = '\'' := by
      by_contra hc
      rw [stringMatch_of_ne hc] at hm
      cases hm
    have hcs : '\\' ∉ cs := List.not_mem_of_not_mem_cons h
    rcases closingQuote?_of_not_mem hcs with ⟨hnone, -⟩ | ⟨body, rest, rfl, hbody, hsome⟩
    · simp [stringMatch, hnone] at hm
    · obtain rfl : Match.whole (body.length + 1 + 1) = m := by
        simpa [stringMatch, hsome] using hm
      obtain ⟨hbody', hrest⟩ : '\\' ∉ body ∧ '\\' ∉ rest := by simpa using hcs
      have htaken : taken = '\'' :: (body ++ ['\'']) := by
        simp [taken, Match.whole, List.take_append, List.take_of_length_le]
      have hdrop : (body ++ '\'' :: rest).drop ((Match.whole (body.length + 1 + 1)).total - 1) =
          rest := by
        simp [Match.whole, List.drop_append]
      have hstart : start = pos := rfl
      have htoken : byteLength token = byteLength taken := rfl
      have hlength : byteLength taken = 1 + byteLength body + 1 := by
        rw [htaken, byteLength_cons, byteLength_append]
        rfl
      rw [hdrop] at ih
      rw [hdrop, ih hrest pos, Quote.closedStrings_cons_of_outside rfl, hstart, htoken, hlength]
      have hnext : ({} : Quote).next '\'' = ⟨true, false⟩ := rfl
      have hsize : ('\'').utf8Size = 1 := rfl
      rw [hnext, hsize, Quote.closedStrings_of_closed hbody hbody', ← Nat.add_assoc,
        ← Nat.add_assoc]
  | case3 before pos c cs hm ih =>
    have hcs : '\\' ∉ cs := List.not_mem_of_not_mem_cons h
    rw [Quote.closedStrings_cons_of_outside rfl, ih hcs pos]
    by_cases hc : c = '\''
    · -- A quote that is not matched is the last of the text.
      subst hc
      rcases closingQuote?_of_not_mem hcs with ⟨-, hquote⟩ | ⟨body, rest, rfl, -, hsome⟩
      · rw [Quote.closedStrings_of_not_mem hquote, Quote.closedStrings_of_not_mem hquote]
      · simp [stringMatch, hsome] at hm
    · have hbackslash : c ≠ '\\' := (List.ne_of_not_mem_cons h).symm
      rw [show ({} : Quote).next c = {} by simp [Quote.next, hc, hbackslash]]

/-- The span of a token is one of those that the recognizer of its kind finds. -/
theorem span_mem_of_kind {cs : List Char} {t : Token} {recognize : Recognizer}
    (h : t ∈ candidates cs) (hmem : (t.kind, recognize) ∈ recognizers) :
    t.span ∈ recognize.spans cs := by
  obtain ⟨recognize', hmem', hspan⟩ := mem_candidates_iff.1 h
  have hkinds : (recognizers.map Prod.fst).Nodup := by decide
  obtain ⟨-, rfl⟩ := Prod.mk.inj (List.inj_on_of_nodup_map hkinds hmem' hmem rfl)
  exact hspan

/-- **String tokens are the closed strings of the reader.** -/
theorem string_spans_classify {source : String} (h : '\\' ∉ source.toList) :
    ((classify source).filter (·.kind = .string)).map (·.span) =
      Quote.closedStrings {} 0 0 source.toList := by
  rw [← spansFrom_stringMatch h none 0 0]
  have hirrefl : Std.Irrefl fun s t : Span => s.start < t.start := ⟨fun s => Nat.lt_irrefl s.start⟩
  have hanti : Std.Antisymm fun s t : Span => s.start < t.start :=
    ⟨fun s t hst hts => absurd (Nat.lt_trans hst hts) (Nat.lt_irrefl s.start)⟩
  have htokens : (classify source).Pairwise fun a b => a.span.start < b.span.start :=
    (pairwise_classify source).imp_of_mem fun ha _ hab =>
      Nat.lt_of_lt_of_le (start_lt_stop_of_mem_classify ha) hab
  have hspans :
      (Recognizer.spans stringMatch source.toList).Pairwise fun s t => s.start < t.start :=
    (Recognizer.pairwise_spans stringMatch_finds _).imp_of_mem fun hs _ hst =>
      Nat.lt_of_lt_of_le (Recognizer.start_lt_stop_of_mem_spans stringMatch_finds hs) hst
  refine List.Pairwise.eq_of_mem_iff (List.pairwise_map.2 (htokens.filter _)) hspans fun span => ?_
  rw [List.mem_map]
  constructor
  · rintro ⟨t, ht, rfl⟩
    obtain ⟨ht, hkind⟩ := List.mem_filter.1 ht
    refine span_mem_of_kind (mem_candidates_of_mem_classify ht) ?_
    rw [of_decide_eq_true hkind]
    simp [recognizers]
  · intro hspan
    exact ⟨⟨span, .string⟩, List.mem_filter.2 ⟨string_mem_classify hspan, rfl⟩, rfl⟩

/-- Behind the first quote of a string token, and up to its last, the reader is inside a string. -/
theorem inside_of_within_string {source : String} {t : Token} {u v : List Char}
    (h : '\\' ∉ source.toList) (ht : t ∈ classify source) (hkind : t.kind = .string)
    (hsource : source.toList = u ++ v) (hstart : t.span.start < byteLength u)
    (hstop : byteLength u < t.span.stop) : (Quote.after {} u).inside = true := by
  have hmem : t.span ∈ Quote.closedStrings {} 0 0 source.toList := by
    rw [← string_spans_classify h]
    exact List.mem_map_of_mem (List.mem_filter.2 ⟨ht, decide_eq_true hkind⟩)
  rw [hsource] at hmem
  exact Quote.inside_of_mem_closedStrings hmem (Nat.le_refl 0) (by omega) (by omega)

end Highlight

end FlowExpr
