import FlowExpr.Editor.Hover
import FlowExpr.Proofs.Analysis.Locality
import FlowExpr.Proofs.Analysis.Reported
import FlowExpr.Proofs.Text.Names

/-!
# Hover and diagnostics agree on names

Names are read in two ways. The pass over a text finds the names of calls from left to right and
keeps track of strings; `nameAt?` starts at a cursor, goes both ways, and knows nothing of strings.

**Theorem (`hover_agrees_with_analysis`).** With the cursor on the name of a call both read the same
name. So a function is documented there exactly if it is known, and it is reported as unknown
exactly if it is not documented and not exempt.

Both take longest runs. The name of a call starts behind something that is no name character, and
blanks or the parenthesis follow it, so from any place in it the run around that place is the name
(`nameAt?_of_append`). Two calls do not have one name, so that what is reported there is reported of
this call.
-/

namespace FlowExpr

open Text

/-! ## The name around a cursor -/

namespace WrittenCall

variable {source : String} {before name blanks body rest : List Char}

/-- From any place in the name of a call the whole name is found. -/
theorem nameAt?_of_append (h : WrittenCall source.toList before name blanks body rest)
    {u v : List Char} (huv : name = u ++ v) :
    nameAt? source (byteLength before + byteLength u) =
      some (⟨byteLength before, byteLength before + byteLength name⟩, String.ofList name) := by
  have hsource : source.toList =
      (before ++ u) ++ (v ++ (blanks ++ '(' :: (body ++ ')' :: rest))) := by
    rw [h.source_eq, huv]
    simp
  have hname : ∀ c ∈ u ++ v, isNameChar c = true := huv ▸ h.name_chars
  have hleft : ((before ++ u).reverse.takeWhile isNameChar).reverse = u :=
    takeWhile_reverse_of_stops (fun c hc => hname c (List.mem_append_left _ hc)) h.boundary
  have hright : (v ++ (blanks ++ '(' :: (body ++ ')' :: rest))).takeWhile isNameChar = v :=
    takeWhile_append_of_stops (fun c hc => hname c (List.mem_append_right _ hc))
      fun c t hc => CallShape.isNameChar_head_of_blanks h.blank_chars hc
  obtain ⟨c, t, hcons⟩ := List.exists_cons_of_ne_nil h.name_ne_nil
  have hdigit := h.digit_free c t hcons
  have hstart : byteLength before + byteLength u - byteLength u = byteLength before := by omega
  have hstop : byteLength before + byteLength u + byteLength v =
      byteLength before + byteLength name := by
    rw [huv, byteLength_append, Nat.add_assoc]
  rw [nameAt?, hsource, ← byteLength_append, splitAt?_append]
  simp only [Option.bind_some, hleft, hright, ← huv, hcons, hdigit, Bool.false_eq_true, if_false,
    byteLength_append, hstart, hstop]

/-- Names are ASCII, so that every offset in the span of a name is a place in it. -/
theorem exists_append_of_offset (h : WrittenCall source.toList before name blanks body rest)
    {offset : Nat} (hstart : byteLength before ≤ offset)
    (hstop : offset ≤ byteLength before + byteLength name) :
    ∃ u v, name = u ++ v ∧ offset = byteLength before + byteLength u := by
  have hascii : ∀ c ∈ name, c.toNat < 128 := fun c hc => ascii_of_isNameChar (h.name_chars c hc)
  have hlength := byteLength_of_ascii hascii
  refine ⟨name.take (offset - byteLength before), name.drop (offset - byteLength before),
    (List.take_append_drop _ _).symm, ?_⟩
  rw [byteLength_of_ascii fun c hc => hascii c (List.mem_of_mem_take hc), List.length_take]
  omega

end WrittenCall

namespace CallSite

variable {source : String} {c : CallSite}

/-- A cursor in the name of a call, or at one of its ends, is at that name. -/
theorem nameAt?_eq (hc : c ∈ findAll source) {offset : Nat} (hstart : c.nameSpan.start ≤ offset)
    (hstop : offset ≤ c.nameSpan.stop) : nameAt? source offset = some (c.nameSpan, c.name) := by
  obtain ⟨before, name, blanks, body, rest, hw, rfl⟩ := mem_findAll_iff.1 hc
  obtain ⟨u, v, huv, rfl⟩ := hw.exists_append_of_offset hstart hstop
  exact hw.nameAt?_of_append huv

/-- What is shown there is the documentation of the function. -/
theorem documentationAt?_eq (r : Registry) (hc : c ∈ findAll source) {offset : Nat}
    (hstart : c.nameSpan.start ≤ offset) (hstop : offset ≤ c.nameSpan.stop) :
    documentationAt? r source offset =
      (r.find? c.name).map fun s => (c.nameSpan, s.documentation) := by
  rw [documentationAt?, nameAt?_eq hc hstart hstop]
  rfl

/-! ## What is reported at a name -/

/-- The name of a call is reported as unknown if the function is, and is not exempt. -/
theorem exists_unknownFunction_iff {r : Registry} {k : Checks} (hk : k.unknownFunctions = true)
    (hc : c ∈ findAll source) :
    (∃ d ∈ analyze r k source, d.category = .unknownFunction ∧ d.span = c.nameSpan) ↔
      r.find? c.name = none ∧ k.exempts c.name = false := by
  constructor
  · rintro ⟨d, hd, hcategory, hspan⟩
    obtain ⟨c', hc', hd⟩ := List.mem_flatMap.1 hd
    rcases mem_diagnose_iff.1 hd with
      ⟨hfind, -, hexempt, rfl⟩ | ⟨s, -, ⟨-, p, hp, rfl⟩ | ⟨-, a, index, -, ha⟩⟩
    · obtain rfl : c' = c := eq_of_start_eq hc' hc (congrArg Span.start hspan)
      exact ⟨hfind, hexempt⟩
    · have harity := category_of_arityProblem? hp
      change p.category = .unknownFunction at hcategory
      rw [harity] at hcategory
      cases hcategory
    · rw [(of_argumentDiagnostic? ha).2.1] at hcategory
      cases hcategory
  · rintro ⟨hfind, hexempt⟩
    refine ⟨⟨c.nameSpan, .unknownFunction c.name⟩, List.mem_flatMap.2 ⟨c, hc, ?_⟩, rfl, rfl⟩
    exact mem_diagnose_iff.2 (Or.inl ⟨hfind, hk, hexempt, rfl⟩)

end CallSite

/-- **Hover and diagnostics agree on names.** With the cursor in the name of a call or at one of its
ends, that name is read. It is documented exactly if the function is known, and reported as unknown
exactly if there is no documentation and the name is not exempt. -/
theorem hover_agrees_with_analysis (r : Registry) (k : Checks) (hk : k.unknownFunctions = true)
    (source : String) (c : CallSite) (hc : c ∈ CallSite.findAll source) (offset : Nat)
    (hstart : c.nameSpan.start ≤ offset) (hstop : offset ≤ c.nameSpan.stop) :
    nameAt? source offset = some (c.nameSpan, c.name) ∧
    ((∃ text, documentationAt? r source offset = some (c.nameSpan, text)) ↔
      ∃ s, r.find? c.name = some s) ∧
    ((∃ d ∈ analyze r k source, d.category = .unknownFunction ∧ d.span = c.nameSpan) ↔
      documentationAt? r source offset = none ∧ k.exempts c.name = false) := by
  have hdocumentation := CallSite.documentationAt?_eq r hc hstart hstop
  refine ⟨CallSite.nameAt?_eq hc hstart hstop, ?_, ?_⟩
  · rw [hdocumentation]
    cases r.find? c.name <;> simp
  · rw [CallSite.exists_unknownFunction_iff hk hc, hdocumentation, Option.map_eq_none_iff]

/-- A call behind a string that holds the start of a call, and behind a backslash. The cursor is in
the middle of the name. -/
theorem hover_agrees_with_analysis_behind_string :
    nameAt? "é'g(' \\f_1 (x)" 9 = some (⟨8, 11⟩, "f_1") ∧
    ∃ d ∈ analyze {} {} "é'g(' \\f_1 (x)",
      d.category = .unknownFunction ∧ d.span = ⟨8, 11⟩ := by
  obtain ⟨hname, -, hreported⟩ := hover_agrees_with_analysis {} {} rfl "é'g(' \\f_1 (x)"
    ⟨"f_1", ⟨8, 11⟩, ⟨13, 14⟩, [⟨"x", ⟨13, 14⟩⟩]⟩ (by decide +kernel) 9 (by decide) (by decide)
  refine ⟨hname, hreported.2 ⟨?_, by decide +kernel⟩⟩
  simp [documentationAt?, hname, Registry.find?]

end FlowExpr
