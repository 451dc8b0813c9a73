import FlowExpr.Proofs.Analysis.Diagnose
import FlowExpr.Proofs.Call.Redact
import FlowExpr.Proofs.Function.Literal

/-!
# What stands in strings does not matter

The analysis of a text does not look into strings. Two texts may differ there as they like, as long
as every byte that differs stands in a string of the first one and is neither quote nor backslash:
they have calls of the same names and spans, and the same diagnostics
(`analyze_eq_of_differInStrings`).

Both are compared with what they have in common, the text with its strings written over. A text and
its redacted text have calls of the same outline (`map_outline_findAll_redact`), so all is said once
the two redacted texts are known to be equal. The difference is given byte by byte and may tear
characters apart, so this last step is about bytes.
-/

namespace FlowExpr

open Text

/-! ## Literals -/

namespace Literal

theorem isQuoted_redact (cs : List Char) : isQuoted (Quote.redact {} cs) = isQuoted cs := by
  rw [Bool.eq_iff_iff, isQuoted_iff, isQuoted_iff]
  constructor
  · rintro ⟨m, hm⟩
    cases cs with
    | nil => simp at hm
    | cons c t =>
      rw [Quote.redact_cons, Quote.redactChar_of_outside rfl, List.singleton_append] at hm
      obtain ⟨rfl, hm⟩ := List.cons.inj hm
      rcases List.eq_nil_or_concat t with rfl | ⟨t, d, rfl⟩
      · simp at hm
      · rw [List.concat_eq_append, Quote.redact_append, Quote.redact_cons, Quote.redact_nil,
          List.append_nil] at hm
        -- What is written for the last character ends with a quote, so it is one.
        have hlast := congrArg List.getLast? hm
        rw [List.getLast?_append_of_ne_nil _ (Quote.redactChar_ne_nil _ _),
          List.getLast?_append_of_ne_nil _ (by simp)] at hlast
        obtain rfl := Quote.quote_mem_redactChar.1 (List.mem_of_getLast? hlast)
        exact ⟨t, by rw [List.concat_eq_append]⟩
  · rintro ⟨m, rfl⟩
    refine ⟨(Quote.next {} '\'').redact m, ?_⟩
    rw [Quote.redact_cons, Quote.redact_append]
    simp

/-- Writing over strings does not change the kind of a literal. -/
theorem ofText?_redact (cs : List Char) :
    ofText? (String.ofList (Quote.redact {} cs)) = ofText? (String.ofList cs) := by
  by_cases h : '\'' ∈ cs
  · rw [ofText?_of_mem (by decide) h, ofText?_of_mem (by decide) (Quote.quote_mem_redact.2 h),
      isQuoted_redact]
  · rw [Quote.redact_of_ne rfl]
    intro c hc heq
    exact h (heq ▸ hc)

end Literal

/-! ## Outlines -/

theorem Text.isAllBlank_redact (cs : List Char) :
    isAllBlank (Quote.redact {} cs) = isAllBlank cs := by
  by_cases h : '\'' ∈ cs
  · have hquote : ∀ ds, '\'' ∈ ds → isAllBlank ds = false := by
      intro ds hds
      rw [isAllBlank, List.all_eq_false]
      exact ⟨'\'', hds, by decide⟩
    rw [hquote cs h, hquote _ (Quote.quote_mem_redact.2 h)]
  · rw [Quote.redact_of_ne rfl]
    intro c hc heq
    exact h (heq ▸ hc)

namespace Argument

theorem outline_ofPiece_redact {p : List Char} (h : (Quote.after {} p).inside = false)
    (pos : Nat) : (ofPiece pos (Quote.redact {} p)).outline = (ofPiece pos p).outline := by
  simp only [outline, ofPiece, trim_redact h, (trimStart_redact p).1, Quote.byteLength_redact,
    Literal.ofText?_redact]

theorem map_outline_ofPieces_redact {ps : List (List Char)}
    (h : ∀ p ∈ ps, (Quote.after {} p).inside = false) (pos : Nat) :
    (ofPieces pos (ps.map (Quote.redact {}))).map outline = (ofPieces pos ps).map outline := by
  induction ps generalizing pos with
  | nil => rfl
  | cons p ps ih =>
    simp only [List.map_cons, ofPieces_cons, Quote.byteLength_redact]
    rw [outline_ofPiece_redact (h p List.mem_cons_self),
      ih fun q hq => h q (List.mem_cons_of_mem _ hq)]

end Argument

namespace CallSite

theorem outline_ofParts_redact (before name blanks : List Char) {body : List Char}
    (h : Level.Enclosed body) :
    (ofParts (Quote.redact {} before) name blanks (Quote.redact {} body)).outline =
      (ofParts before name blanks body).outline := by
  simp only [outline, ofParts, CallShape.ofParts_redact, isAllBlank_redact, Level.pieces_redact,
    Outline.mk.injEq, true_and]
  split
  · rfl
  · exact Argument.map_outline_ofPieces_redact h.inside_after_of_mem_pieces _

/-- A text with its strings written over has calls of the same outline. -/
theorem map_outline_findAll_redact (source : String) :
    (findAll (String.ofList (Quote.redact {} source.toList))).map outline =
      (findAll source).map outline := by
  unfold findAll
  rw [String.toList_ofList, CallShape.findAll_redact, List.map_map, List.map_map]
  refine List.map_congr_left fun shape hshape => ?_
  obtain ⟨before, name, blanks, body, rest, hw, rfl⟩ := CallShape.mem_findAll_iff.1 hshape
  have hredacted := resolve_ofParts hw.redact
  rw [CallShape.ofParts_redact] at hredacted
  rw [Function.comp_apply, Function.comp_apply, hredacted, resolve_ofParts hw,
    outline_ofParts_redact before name blanks hw.enclosed]

end CallSite

/-! ## Bytes -/

namespace Quote

/-- The bytes of a text with those of its strings written over. -/
def redactBytes (q : Quote) : List Char → List Char
  | [] => []
  | b :: bs => (if q.isContent b then 'x' else b) :: (q.next b).redactBytes bs

@[simp] theorem redactBytes_nil (q : Quote) : q.redactBytes [] = [] := rfl

@[simp] theorem redactBytes_cons (q : Quote) (b : Char) (bs : List Char) :
    q.redactBytes (b :: bs) =
      (if q.isContent b then 'x' else b) :: (q.next b).redactBytes bs := rfl

theorem redactBytes_append (q : Quote) (a b : List Char) :
    q.redactBytes (a ++ b) = q.redactBytes a ++ (q.after a).redactBytes b := by
  induction a generalizing q with
  | nil => rfl
  | cons c a ih => simp [ih]

theorem after_charBytes (q : Quote) (c : Char) : q.after (charBytes c) = q.next c := by
  have h := congrArg Level.quote (Level.after_charBytes { quote := q } c)
  rwa [Level.quote_after] at h

theorem redactBytes_of_wide {q : Quote} (hq : q.inside = true) {bs : List Char}
    (h : ∀ b ∈ bs, 128 ≤ b.toNat) : q.redactBytes bs = List.replicate bs.length 'x' := by
  induction bs generalizing q with
  | nil => rfl
  | cons b bs ih =>
    have hb := h b List.mem_cons_self
    have hcontent : q.isContent b = true :=
      isContent_iff.2 ⟨hq, ne_of_wide hb (by decide), ne_of_wide hb (by decide)⟩
    rw [redactBytes_cons, if_pos hcontent, next_of_isContent hcontent,
      ih rfl fun c hc => h c (List.mem_cons_of_mem _ hc)]
    rfl

theorem redactBytes_of_ne {q : Quote} (hq : q.inside = false) {bs : List Char}
    (h : ∀ b ∈ bs, b ≠ '\'') : q.redactBytes bs = bs := by
  induction bs generalizing q with
  | nil => rfl
  | cons b bs ih =>
    have hnext : (q.next b).inside = false := by
      rw [inside_next_of_ne (h b List.mem_cons_self)]
      exact hq
    have hcontent : ¬ q.isContent b = true := by
      rw [isContent_iff, hq]
      simp
    rw [redactBytes_cons, if_neg hcontent, ih hnext fun c hc => h c (List.mem_cons_of_mem _ hc)]

/-- The bytes of a character are written over as the character is. -/
theorem redactBytes_charBytes (q : Quote) (c : Char) :
    q.redactBytes (charBytes c) = encode (q.redactChar c) := by
  have hx : ∀ n, encode (List.replicate n 'x') = List.replicate n 'x' := by
    intro n
    apply encode_of_ascii
    intro d hd
    rw [List.eq_of_mem_replicate hd]
    decide
  by_cases hc : c.toNat < 128
  · have hsize : c.utf8Size = 1 := by
      rw [← length_charBytes, charBytes_of_ascii hc]
      rfl
    rw [charBytes_of_ascii hc, redactBytes_cons, redactBytes_nil, redactChar, hsize]
    split
    · rfl
    · rw [encode_cons, encode_nil, charBytes_of_ascii hc]
      rfl
  · have hwide : 128 ≤ c.toNat := by omega
    have hbytes : ∀ b ∈ charBytes c, 128 ≤ b.toNat := fun b hb => le_toNat_of_mem_charBytes hwide hb
    by_cases hq : q.inside = true
    · have hcontent : q.isContent c = true :=
        isContent_iff.2 ⟨hq, ne_of_wide hwide (by decide), ne_of_wide hwide (by decide)⟩
      rw [redactBytes_of_wide hq hbytes, redactChar_of_isContent hcontent, hx,
        length_charBytes]
    · rw [Bool.not_eq_true] at hq
      rw [redactBytes_of_ne hq fun b hb => ne_of_wide (hbytes b hb) (by decide),
        redactChar_of_outside hq, encode_cons, encode_nil, List.append_nil]

theorem encode_redact (q : Quote) (cs : List Char) :
    encode (q.redact cs) = q.redactBytes (encode cs) := by
  induction cs generalizing q with
  | nil => rfl
  | cons c cs ih =>
    rw [redact_cons, encode_append, encode_cons, redactBytes_append, redactBytes_charBytes,
      after_charBytes, ih]

/-- Two lists of bytes of the same length, the first one read from `q` on. Where they differ, a
string is open in the first one, and neither has a quote or a backslash. -/
structure DifferInStrings (q : Quote) (bs bs' : List Char) : Prop where
  length_eq : bs.length = bs'.length
  inside : ∀ i < bs.length, bs[i]? ≠ bs'[i]? → (q.after (bs.take i)).inside = true
  unmarked : ∀ i < bs.length, bs[i]? ≠ bs'[i]? →
    bs[i]?.any isMark = false ∧ bs'[i]?.any isMark = false

namespace DifferInStrings

variable {q : Quote} {b b' : Char} {bs bs' : List Char}

theorem tail (h : q.DifferInStrings (b :: bs) (b' :: bs')) :
    (q.next b).DifferInStrings bs bs' := by
  refine ⟨?_, ?_, ?_⟩
  · simpa using h.length_eq
  · intro i hi hne
    exact h.inside (i + 1) (by simpa using hi) (by simpa using hne)
  · intro i hi hne
    simpa using h.unmarked (i + 1) (by simpa using hi) (by simpa using hne)

theorem isContent_of_ne (h : q.DifferInStrings (b :: bs) (b' :: bs')) (hb : b ≠ b') :
    q.isContent b = true ∧ q.isContent b' = true := by
  have hne : (b :: bs)[0]? ≠ (b' :: bs')[0]? := by simpa using hb
  have hin : q.inside = true := h.inside 0 (by simp) hne
  obtain ⟨hmark, hmark'⟩ := h.unmarked 0 (by simp) hne
  rw [List.getElem?_cons_zero, Option.any_some] at hmark hmark'
  rw [isContent, isContent, hin, hmark, hmark']
  exact ⟨rfl, rfl⟩

/-- Once strings are written over, nothing is left of the difference. -/
theorem redactBytes_eq (h : q.DifferInStrings bs bs') : q.redactBytes bs = q.redactBytes bs' := by
  induction bs generalizing q bs' with
  | nil => rw [List.eq_nil_of_length_eq_zero h.length_eq.symm]
  | cons b bs ih =>
    cases bs' with
    | nil => exact absurd h.length_eq (by simp)
    | cons b' bs' =>
      rw [redactBytes_cons, redactBytes_cons, ih h.tail]
      by_cases hb : b = b'
      · rw [hb]
      · -- Contents are written over alike and lead to the same state.
        obtain ⟨hc, hc'⟩ := h.isContent_of_ne hb
        rw [if_pos hc, if_pos hc', next_of_isContent hc, next_of_isContent hc']

end DifferInStrings

end Quote

/-- **What stands in strings does not matter.** Texts whose bytes differ in strings only, and not in
quotes and backslashes, have calls of the same names and spans and the same diagnostics. -/
theorem analyze_eq_of_differInStrings (s s' : String)
    (h : Quote.DifferInStrings {} (bytes s) (bytes s')) (r : Registry) (k : Checks) :
    analyze r k s = analyze r k s' ∧
      (CallSite.findAll s).map
          (fun c => (c.name, c.nameSpan, c.argsSpan, c.arguments.map (·.span))) =
        (CallSite.findAll s').map
          fun c => (c.name, c.nameSpan, c.argsSpan, c.arguments.map (·.span)) := by
  have hredact : Quote.redact {} s.toList = Quote.redact {} s'.toList := by
    apply encode_injective
    rw [Quote.encode_redact, Quote.encode_redact, ← bytes_eq_encode, ← bytes_eq_encode]
    exact h.redactBytes_eq
  have houtline : (CallSite.findAll s).map CallSite.outline =
      (CallSite.findAll s').map CallSite.outline := by
    rw [← CallSite.map_outline_findAll_redact s, ← CallSite.map_outline_findAll_redact s', hredact]
  refine ⟨diagnoseAll_eq_of_outlines_eq houtline r k, ?_⟩
  have hspans := congrArg (List.map fun o : CallSite.Outline =>
    (o.name, o.nameSpan, o.argsSpan, o.arguments.map Prod.fst)) houtline
  simpa [Function.comp_def, CallSite.outline, Argument.outline] using hspans

/-- A wide character and a comma against three characters of one byte, parentheses among them. -/
theorem analyze_eq_of_differInStrings_wide :
    Quote.DifferInStrings {} (bytes "f('é,', 1)") (bytes "f('a)(', 1)") ∧
      analyze {} {} "f('é,', 1)" = analyze {} {} "f('a)(', 1)" := by
  have h : Quote.DifferInStrings {} (bytes "f('é,', 1)") (bytes "f('a)(', 1)") :=
    ⟨by decide +kernel, by decide +kernel, by decide +kernel⟩
  exact ⟨h, (analyze_eq_of_differInStrings _ _ h {} {}).1⟩

end FlowExpr
