import FlowExpr.Proofs.Call.ArgumentList
import FlowExpr.Proofs.Highlight.Strings
import FlowExpr.Proofs.Text.Names

/-!
# Highlighting agrees with the calls

The pass that finds calls and the highlighter are two readers of one text. The pass keeps track of
strings, of the start of a name and of parentheses; the highlighter tries five recognizers, each by
itself, and then drops what overlaps.

**Theorem (`classify_agrees_with_calls`).** In a text without backslashes the string tokens are the
closed strings, and no call has its name in one. If the text is ASCII, the name of every call is a
function token.

**Why the name is found.** A match of the function recognizer is a marker, a name, blanks and a
parenthesis. So a name in it stands at its start or right behind the marker
(`functionMatch_pairwise`), and an earlier match cannot run into the name of a call: it would have
to start at the marker in front of it, and then it is the match that is looked for.

**Why it is kept.** A token that covers the start of the name would be a string, which it is not
in; a number or an operator, which hold no letters; or a keyword. A keyword that starts where the
name does gives way, and one that starts earlier would make the name longer. Beyond ASCII this
fails: words of the highlighter may hold letters that names may not.
-/

namespace FlowExpr.Highlight

open Text

/-! ## Matches that no other runs into -/

theorem getLast?_append_or {x : List Char} (hx : x ≠ []) (y : List Char) (before : Option Char) :
    (x ++ y).getLast?.or before = y.getLast?.or x.getLast? := by
  rw [List.getLast?_append, Option.or_assoc]
  congr 1
  cases h : x.getLast? with
  | none => exact absurd (List.getLast?_eq_none_iff.1 h) hx
  | some c => rfl

/-- A match is found if no match that starts earlier goes beyond its start. -/
theorem Recognizer.mem_spansFrom_of_match {recognize : Recognizer} {before : Option Char}
    {pos : Nat} {cs a b : List Char} {m : Match} (hcs : a ++ b = cs) (hb : b ≠ [])
    (hm : recognize (a.getLast?.or before) b = some m)
    (hfree : ∀ u v m', a = u ++ v → v ≠ [] →
      recognize (u.getLast?.or before) (v ++ b) = some m' → m'.total ≤ v.length) :
    m.span (pos + byteLength a) b ∈ recognize.spansFrom before pos cs := by
  fun_induction spansFrom recognize before pos cs generalizing a with
  | case1 => exact absurd (List.append_eq_nil_iff.1 hcs).2 hb
  | case2 before pos c cs m₀ hm₀ start token taken =>
    rename_i ih
    cases a with
    | nil =>
      obtain rfl : b = c :: cs := hcs
      obtain rfl : m₀ = m := Option.some.inj (hm₀.symm.trans hm)
      exact List.mem_cons_self
    | cons d a =>
      rw [List.cons_append] at hcs
      obtain ⟨rfl, rfl⟩ := List.cons.inj hcs
      -- The match at hand ends before the one that is looked for starts.
      have hle : m₀.total ≤ (d :: a).length := hfree [] (d :: a) m₀ rfl (by simp) hm₀
      rw [List.length_cons] at hle
      have htaken : taken = d :: a.take (m₀.total - 1) := by
        simp only [taken]
        rw [List.take_append_of_le_length (by omega)]
      have hsplit : d :: a = taken ++ a.drop (m₀.total - 1) := by
        rw [htaken, List.cons_append, List.take_append_drop]
      have hne : taken ≠ [] := by simp [taken]
      rw [hsplit, getLast?_append_or hne] at hm
      have hdrop : a.drop (m₀.total - 1) ++ b = (a ++ b).drop (m₀.total - 1) := by
        rw [List.drop_append_of_le_length (by omega)]
      have hmem := ih hdrop hm fun u v m' huv hv hm' => ?_
      · rw [hsplit, byteLength_append, ← Nat.add_assoc]
        exact List.mem_cons_of_mem _ hmem
      · refine hfree (taken ++ u) v m' ?_ hv ?_
        · rw [hsplit, huv, List.append_assoc]
        · rw [getLast?_append_or hne]
          exact hm'
  | case3 before pos c cs hnone ih =>
    cases a with
    | nil =>
      obtain rfl : b = c :: cs := hcs
      rw [List.getLast?_nil, Option.none_or, hnone] at hm
      cases hm
    | cons d a =>
      rw [List.cons_append] at hcs
      obtain ⟨rfl, rfl⟩ := List.cons.inj hcs
      have hlast : ∀ u : List Char, (d :: u).getLast?.or before = u.getLast?.or (some d) :=
        fun u => getLast?_append_or (List.cons_ne_nil d []) u before
      rw [hlast] at hm
      have hmem := ih rfl hm fun u v m' huv hv hm' => ?_
      · rw [byteLength_cons, ← Nat.add_assoc]
        exact hmem
      · refine hfree (d :: u) v m' ?_ hv ?_
        · rw [huv, List.cons_append]
        · rw [hlast]
          exact hm'

/-! ## The names of calls -/

/-- What may stand somewhere before a character in a match of a function: nothing before the marker,
and only the marker and name characters before a name character. -/
def MayPrecede (c d : Char) : Prop :=
  d ≠ '@' ∧ (isNameChar d = true → isNameChar c = true ∨ c = '@')

theorem functionMatch_pairwise {before : Option Char} {cs : List Char} {m : Match}
    (h : functionMatch before cs = some m) : (cs.take m.total).Pairwise MayPrecede := by
  obtain ⟨marker, name, blanks, rest, rfl, hmarker, hname, hblanks, rfl⟩ := functionMatch_eq_some h
  have htake : (marker ++ (name ++ (blanks ++ '(' :: rest))).take
      (marker.length + (name.length + blanks.length + 1)) =
        (marker ++ name) ++ (blanks ++ ['(']) := by
    simp [List.take_append, List.take_of_length_le, Nat.add_assoc]
  have hchars : ∀ d ∈ name, isNameChar d = true := by
    obtain ⟨c, more, rfl, hc, hmore⟩ := hname
    exact List.forall_mem_cons.2 ⟨isNameChar_of_isNameStart hc, hmore⟩
  have hinName : ∀ c, isNameChar c = true ∨ c = '@' → ∀ d ∈ name, MayPrecede c d :=
    fun c hc d hd => ⟨ne_of_isNameChar (hchars d hd) (by decide), fun _ => hc⟩
  have hbehind : ∀ c, ∀ d ∈ blanks ++ ['('], MayPrecede c d := by
    intro c d hd
    rcases List.mem_append.1 hd with hd | hd
    · refine ⟨ne_of_isBlank (hblanks d hd) (by decide), fun hchar => ?_⟩
      have hblank := hblanks d hd
      rw [isBlank_of_isNameChar hchar] at hblank
      cases hblank
    · rw [List.mem_singleton.1 hd]
      exact ⟨by decide, fun hchar => absurd hchar (by decide)⟩
  rw [htake, List.pairwise_append, List.pairwise_append]
  refine ⟨⟨?_, ?_, ?_⟩, ?_, fun c _ d hd => hbehind c d hd⟩
  · rcases hmarker with rfl | rfl
    · exact List.Pairwise.nil
    · exact List.pairwise_singleton _ _
  · exact List.pairwise_of_forall_mem_list fun c hc d hd => hinName c (.inl (hchars c hc)) d hd
  · intro c hc d hd
    refine hinName c (.inr ?_) d hd
    rcases hmarker with rfl | rfl
    · cases hc
    · exact List.mem_singleton.1 hc
  · exact List.pairwise_of_forall_mem_list fun c _ d hd => hbehind c d hd

/-- A match of a function does not go on where its last character may not precede the next. -/
theorem functionMatch_total_le {before : Option Char} {v t : List Char} {c d : Char} {m : Match}
    (h : functionMatch before (v ++ d :: t) = some m) (hc : v.getLast? = some c)
    (hd : ¬ MayPrecede c d) : m.total ≤ v.length := by
  by_contra hlt
  obtain ⟨n, hn⟩ : ∃ n, m.total = v.length + (n + 1) := ⟨m.total - v.length - 1, by omega⟩
  have hpairwise := functionMatch_pairwise h
  rw [hn, List.take_length_add_append, List.take_succ_cons] at hpairwise
  exact hd ((List.pairwise_append.1 hpairwise).2.2 c (List.mem_of_getLast? hc) d
    List.mem_cons_self)

theorem callHead?_of_isName {name blanks : List Char} (hname : isName name = true)
    (hblanks : ∀ c ∈ blanks, isAsciiBlank c = true) (rest : List Char) :
    callHead? (name ++ (blanks ++ '(' :: rest)) =
      some (name.length, name.length + blanks.length + 1) := by
  obtain ⟨hne, hchars, hdigit⟩ := isName_iff.1 hname
  have hstop : ∀ c t, blanks ++ '(' :: rest = c :: t → isNameChar c = false := fun c t hc =>
    CallShape.isNameChar_head_of_blanks hblanks hc
  have hblank : ∀ c ∈ blanks, isBlank c = true := fun c hc => isBlank_of_isAsciiBlank (hblanks c hc)
  have hparen : ∀ c t, '(' :: rest = c :: t → isBlank c = false := by
    intro c t hc
    obtain ⟨rfl, -⟩ := List.cons.inj hc
    decide
  have htake := takeWhile_append_of_stops hchars hstop
  have hdrop := dropWhile_append_of_stops hchars hstop
  obtain ⟨c, t, rfl⟩ := List.exists_cons_of_ne_nil hne
  have hstart : isNameStart c = true := by
    simpa [isNameStart] using
      isAlpha_or_of_isNameChar (hchars c List.mem_cons_self) (hdigit c t rfl)
  rw [List.cons_append] at htake hdrop ⊢
  simp only [callHead?, hstart, if_true, htake, hdrop, dropWhile_append_of_stops hblank hparen,
    takeWhile_append_of_stops hblank hparen]

theorem functionMatch_of_isName {marker name blanks : List Char}
    (hmarker : marker = [] ∨ marker = ['@']) (hname : isName name = true)
    (hblanks : ∀ c ∈ blanks, isAsciiBlank c = true) (before : Option Char) (rest : List Char) :
    functionMatch before (marker ++ (name ++ (blanks ++ '(' :: rest))) =
      some ⟨marker.length, name.length, marker.length + (name.length + blanks.length + 1)⟩ := by
  have hhead := callHead?_of_isName hname hblanks rest
  rcases hmarker with rfl | rfl
  · obtain ⟨hne, hchars, -⟩ := isName_iff.1 hname
    obtain ⟨c, t, rfl⟩ := List.exists_cons_of_ne_nil hne
    have hc : c ≠ '@' := ne_of_isNameChar (hchars c List.mem_cons_self) (by decide)
    rw [List.nil_append]
    unfold functionMatch
    split
    · rename_i heq
      exact absurd (List.cons.inj heq).1 hc
    · rw [hhead]
      simp
  · simp [functionMatch, hhead]

section

variable {source : String} {before name blanks body rest : List Char}

/-- A match with the name of a call starts at the marker, if there is one, else at the name. Nothing
in front of that place may precede what stands there. -/
theorem exists_marker (hw : WrittenCall source.toList before name blanks body rest) :
    ∃ a marker d tail, before = a ++ marker ∧ (marker = [] ∨ marker = ['@']) ∧
      marker ++ name = d :: tail ∧ ∀ c, a.getLast? = some c → ¬ MayPrecede c d := by
  by_cases hat : before.getLast? = some '@'
  · obtain ⟨a, ha⟩ := List.getLast?_eq_some_iff.1 hat
    exact ⟨a, ['@'], '@', name, ha, .inr rfl, rfl, fun c _ hmay => hmay.1 rfl⟩
  · obtain ⟨d, tail, hcons⟩ := List.exists_cons_of_ne_nil hw.name_ne_nil
    refine ⟨before, [], d, tail, by simp, .inl rfl, hcons, fun c hc hmay => ?_⟩
    have hboundary := hw.boundary
    rw [hc] at hboundary hat
    rcases hmay.2 (hw.name_chars d (by rw [hcons]; simp)) with hchar | rfl
    · rw [Option.any_some, hchar] at hboundary
      cases hboundary
    · exact hat rfl

/-- The function recognizer finds the name of every call. -/
theorem nameSpan_mem_spans (hw : WrittenCall source.toList before name blanks body rest) :
    ⟨byteLength before, byteLength before + byteLength name⟩ ∈
      Recognizer.spans functionMatch source.toList := by
  have hname : isName name = true := isName_iff.2 ⟨hw.name_ne_nil, hw.name_chars, hw.digit_free⟩
  obtain ⟨a, marker, d, tail, hbefore, hmarker, htext, hfree⟩ := exists_marker hw
  let text := name ++ (blanks ++ '(' :: (body ++ ')' :: rest))
  have hsource : a ++ (marker ++ text) = source.toList := by
    rw [hw.source_eq, hbefore, List.append_assoc]
  have hmatch := functionMatch_of_isName hmarker hname hw.blank_chars (a.getLast?.or none)
    (body ++ ')' :: rest)
  have hspan : (⟨byteLength before, byteLength before + byteLength name⟩ : Span) =
      Match.span ⟨marker.length, name.length, marker.length + (name.length + blanks.length + 1)⟩
        (0 + byteLength a) (marker ++ text) := by
    simp [Match.span, text, hbefore]
  rw [hspan]
  refine Recognizer.mem_spansFrom_of_match hsource (by simp [text]) hmatch ?_
  intro u v m' huv hv hm'
  obtain ⟨c, hlast⟩ : ∃ c, v.getLast? = some c := Option.isSome_iff_exists.1 (by simpa using hv)
  have hlast' : a.getLast? = some c := by
    rw [huv, List.getLast?_append, hlast, Option.some_or]
  rw [← List.append_assoc marker, htext, List.cons_append] at hm'
  exact functionMatch_total_le hm' hlast (hfree c hlast')

/-! ## Tokens over the start of a name -/

/-- A token over the start of a name holds the end of what stands in front of the name, perhaps
nothing of it, and the first character of the name. -/
theorem exists_of_covers (hw : WrittenCall source.toList before name blanks body rest) {t : Token}
    (ht : t ∈ classify source) (hstart : t.span.start ≤ byteLength before)
    (hstop : byteLength before < t.span.stop) :
    ∃ a z c w, before = a ++ z ∧ t.span.start = byteLength a ∧ t.kind.Spells (z ++ c :: w) ∧
      isNameChar c = true ∧ c.isDigit = false := by
  obtain ⟨a, token, b, hsource, hspells, hspan⟩ :=
    exists_of_mem_candidates (mem_candidates_of_mem_classify ht)
  rw [hspan] at hstart hstop
  obtain ⟨z, rfl, hz⟩ := exists_append_of_byteLength_le (hsource.symm.trans hw.source_eq) hstart
  rw [byteLength_append] at hstop
  obtain ⟨w, hw', rfl, hname⟩ :=
    exists_append_of_byteLength_lt hz.symm (Nat.lt_of_add_lt_add_left hstop)
  obtain ⟨c, w, rfl⟩ := List.exists_cons_of_ne_nil hw'
  obtain ⟨d, u, hcons⟩ := List.exists_cons_of_ne_nil hw.name_ne_nil
  rw [hcons] at hname
  obtain ⟨rfl, -⟩ := List.cons.inj hname
  exact ⟨a, z, d, w, rfl, by rw [hspan], hspells, hw.name_chars d (by rw [hcons]; simp),
    hw.digit_free d u hcons⟩

/-- No call has its name in a string token. -/
theorem not_covered_by_string (hbackslash : '\\' ∉ source.toList)
    (hw : WrittenCall source.toList before name blanks body rest) {t : Token}
    (ht : t ∈ classify source) (hkind : t.kind = .string) :
    ¬ (t.span.start ≤ byteLength before ∧ byteLength before < t.span.stop) := by
  rintro ⟨hstart, hstop⟩
  rcases Nat.lt_or_eq_of_le hstart with hlt | heq
  · have hinside := inside_of_within_string hbackslash ht hkind hw.source_eq hlt hstop
    rw [hw.outside] at hinside
    cases hinside
  · -- The name would start with a quote.
    obtain ⟨a, z, c, w, rfl, ha, hspells, hc, -⟩ := exists_of_covers hw ht hstart hstop
    have hz : z = [] := by
      rw [← byteLength_eq_zero_iff]
      rw [ha, byteLength_append] at heq
      omega
    subst hz
    rw [hkind] at hspells
    obtain ⟨inner, hinner⟩ := hspells
    obtain ⟨rfl, -⟩ := List.cons.inj hinner
    exact absurd hc (by decide)

/-- In ASCII words are written like names. -/
theorem isWordChar_of_ascii {c : Char} (h : c.toNat < 128) : isWordChar c = isNameChar c := by
  rw [isWordChar, if_pos h]

theorem not_isOperator_of_isNameChar {c : Char} (h : isNameChar c = true) :
    isOperator c = false := by
  have hne : ∀ d, isNameChar d = false → c ≠ d := fun d hd => ne_of_isNameChar h hd
  simp [isOperator, hne '}' (by decide), hne '(' (by decide), hne ')' (by decide),
    hne '.' (by decide), hne '[' (by decide), hne ']' (by decide), hne '?' (by decide),
    hne ',' (by decide)]

/-- A keyword over the start of a name starts where the name does, so it gives way. -/
theorem not_covered_by_keyword (hascii : ∀ c ∈ source.toList, c.toNat < 128)
    (hw : WrittenCall source.toList before name blanks body rest) {t : Token}
    (ht : t ∈ classify source) (hkind : t.kind = .keyword) :
    ¬ (t.span.start ≤ byteLength before ∧ byteLength before < t.span.stop) := by
  rintro ⟨hstart, hstop⟩
  obtain ⟨a, z, c, w, rfl, ha, hspells, -⟩ := exists_of_covers hw ht hstart hstop
  rw [hkind] at hspells
  rcases List.eq_nil_or_concat z with rfl | ⟨z, e, rfl⟩
  · obtain ⟨earlier, recognize, later, hrecognizers, -, hfirst⟩ := first_recognizer ht
    rw [hkind] at hrecognizers
    cases earlier with
    | nil => exact absurd (congrArg Prod.fst (List.cons.inj hrecognizers).1) Kind.noConfusion
    | cons p earlier =>
      obtain ⟨rfl, -⟩ := List.cons.inj hrecognizers
      refine hfirst _ List.mem_cons_self _ (nameSpan_mem_spans hw) ?_
      rw [ha, List.append_nil]
  · -- The name would start earlier.
    have he : e ∈ source.toList := by
      rw [hw.source_eq]
      simp
    have hword : isWordChar e = true := hspells.2 e (by simp)
    rw [isWordChar_of_ascii (hascii e he)] at hword
    have hboundary := hw.boundary
    simp [hword] at hboundary

/-- **The name of a call is a function token.** -/
theorem function_mem_classify (hbackslash : '\\' ∉ source.toList)
    (hascii : ∀ c ∈ source.toList, c.toNat < 128)
    (hw : WrittenCall source.toList before name blanks body rest) :
    Token.mk ⟨byteLength before, byteLength before + byteLength name⟩ .function ∈
      classify source := by
  have hspan := nameSpan_mem_spans hw
  let token : Token := ⟨⟨byteLength before, byteLength before + byteLength name⟩, .function⟩
  have hcandidate : token ∈ candidates source.toList :=
    mem_candidates_iff.2 ⟨functionMatch, List.mem_cons_self, hspan⟩
  by_contra hdropped
  obtain ⟨t, ht, hstart, hstop⟩ := exists_token_covering hcandidate hdropped
  obtain ⟨a, z, c, w, -, -, hspells, hc, hdigit⟩ := exists_of_covers hw ht hstart hstop
  have hmem : c ∈ z ++ c :: w := List.mem_append_right _ List.mem_cons_self
  cases hkind : t.kind with
  | function =>
    -- Two matches of functions are the same or apart.
    have ht' : t.span ∈ Recognizer.spans functionMatch source.toList := by
      refine span_mem_of_kind (mem_candidates_of_mem_classify ht) ?_
      rw [hkind]
      exact List.mem_cons_self
    have hne : t.span ≠ token.span := by
      intro heq
      obtain rfl : t = token := by
        obtain ⟨span, kind⟩ := t
        exact congrArg₂ Token.mk heq hkind
      exact hdropped ht
    have hlt := Recognizer.start_lt_stop_of_mem_spans functionMatch_finds hspan
    rcases Recognizer.apart_of_mem_spans functionMatch_finds ht' hspan hne with hle | hle
    · exact absurd hstop (Nat.not_lt.2 hle)
    · exact absurd hstart (Nat.not_le.2 (Nat.lt_of_lt_of_le hlt hle))
  | string => exact not_covered_by_string hbackslash hw ht hkind ⟨hstart, hstop⟩
  | number =>
    rw [hkind] at hspells
    rcases hspells.2 c hmem with hc' | rfl
    · rw [hdigit] at hc'
      cases hc'
    · exact absurd hc (by decide)
  | keyword => exact not_covered_by_keyword hascii hw ht hkind ⟨hstart, hstop⟩
  | operator =>
    rw [hkind] at hspells
    rcases hspells with htoken | ⟨o, htoken, ho⟩
    · rw [htoken] at hmem
      rcases List.mem_cons.1 hmem with rfl | hmem
      · exact absurd hc (by decide)
      · rw [List.mem_singleton.1 hmem] at hc
        exact absurd hc (by decide)
    · rw [htoken] at hmem
      rw [List.mem_singleton.1 hmem] at hc
      rw [not_isOperator_of_isNameChar hc] at ho
      cases ho

end

/-- **Highlighting agrees with the calls.** In a text without backslashes, the string tokens are the
strings that the reader of calls enters and leaves, and no call has its name in one. If the text is
ASCII, the name of every call is a function token. -/
theorem classify_agrees_with_calls (source : String) (hbackslash : '\\' ∉ source.toList) :
    ((classify source).filter (·.kind = .string)).map (·.span) =
        Quote.closedStrings {} 0 0 source.toList ∧
      (∀ c ∈ CallSite.findAll source, ∀ t ∈ classify source, t.kind = .string →
        ¬ (t.span.start ≤ c.nameSpan.start ∧ c.nameSpan.start < t.span.stop)) ∧
      ((∀ c ∈ source.toList, c.toNat < 128) →
        ∀ c ∈ CallSite.findAll source, Token.mk c.nameSpan .function ∈ classify source) := by
  refine ⟨string_spans_classify hbackslash, fun c hc t ht hkind => ?_, fun hascii c hc => ?_⟩
  · obtain ⟨before, name, blanks, body, rest, hw, rfl⟩ := CallSite.mem_findAll_iff.1 hc
    exact not_covered_by_string hbackslash hw ht hkind
  · obtain ⟨before, name, blanks, body, rest, hw, rfl⟩ := CallSite.mem_findAll_iff.1 hc
    exact function_mem_classify hbackslash hascii hw

/-- A call that is named like a keyword, one behind a marker and one that follows a parenthesis. The
last string is not closed. -/
theorem classify_agrees_with_calls_unclosed :
    let source := "if('f(x', 2)@g (_3(), 4h()) 'k("
    ((classify source).filter (·.kind = .string)).map (·.span) = [⟨3, 8⟩] ∧
      ∀ span ∈ [⟨0, 2⟩, ⟨13, 14⟩, ⟨16, 18⟩], Token.mk span .function ∈ classify source := by
  intro source
  obtain ⟨hstrings, -, hcalls⟩ := classify_agrees_with_calls source (by decide)
  have hascii : ∀ c ∈ source.toList, decide (c.toNat < 128) = true :=
    List.all_eq_true.1 (by decide)
  have hspans : (CallSite.findAll source).map (·.nameSpan) = [⟨0, 2⟩, ⟨13, 14⟩, ⟨16, 18⟩] := by
    decide +kernel
  refine ⟨hstrings.trans (by decide), fun span hspan => ?_⟩
  rw [← hspans] at hspan
  obtain ⟨c, hc, rfl⟩ := List.mem_map.1 hspan
  exact hcalls (fun d hd => of_decide_eq_true (hascii d hd)) c hc

end FlowExpr.Highlight
