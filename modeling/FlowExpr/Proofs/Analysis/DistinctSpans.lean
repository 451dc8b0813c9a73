import FlowExpr.Proofs.Analysis.Reported
import FlowExpr.Proofs.Function.Literal

/-!
# One report for each place

**Theorem (`pairwise_span_ne_analyze`).** No two diagnostics of a text have the same span, whatever
they report.

**How the proof goes.** Within one call the spans differ because the call starts at its name, the
arguments stand between the parentheses, and they come one after the other. Of two calls, the later
one stands behind the earlier one, where nothing of the earlier one reaches, or in one of its
arguments. In the second case only that argument could have a span in common with the inner call,
and only with all of it. It would then be reported as a literal, and the text of a call is none: it
has a parenthesis in it and does not start with a quote (`ofText?_of_callSpan`).
-/

namespace FlowExpr

open Text

namespace CallSite

variable {source : String} {a b c : CallSite}

/-! ## Within one call -/

theorem pairwise_argumentDiagnostics (hc : c ∈ findAll source) (s : Signature) :
    (c.arguments.zipIdx.filterMap fun p => argumentDiagnostic? s p.1 p.2).Pairwise
      fun d e => d.span ≠ e.span := by
  have hmarks : ∀ x ∈ c.arguments, ∀ l, Literal.ofText? x.text = some l →
      x.span.start < x.span.stop := fun x hx l hl => (marks_argument hc hx hl).start_lt_stop
  have hordered : c.arguments.zipIdx.Pairwise fun p q => p.1.span.stop < q.1.span.start := by
    have h := (fill_arguments hc).ordered
    rwa [← List.zipIdx_map_fst 0 c.arguments, List.pairwise_map] at h
  rw [List.pairwise_filterMap]
  refine hordered.imp_of_mem ?_
  intro p q hp _ hlt d hd e he hspan
  obtain ⟨hdspan, -, l, hl⟩ := of_argumentDiagnostic? hd
  obtain ⟨hespan, -, -⟩ := of_argumentDiagnostic? he
  have hpos := hmarks p.1 (List.fst_mem_of_mem_zipIdx hp) l hl
  rw [← hdspan, hspan, hespan] at hpos hlt
  omega

/-- What is reported of one call is reported at different places. -/
theorem pairwise_diagnose (hc : c ∈ findAll source) (r : Registry) (k : Checks) :
    (c.diagnose r k).Pairwise fun d e => d.span ≠ e.span := by
  unfold diagnose
  cases r.find? c.name with
  | none =>
    simp only
    split
    · exact List.pairwise_singleton _ _
    · exact List.Pairwise.nil
  | some s =>
    refine List.pairwise_append.2 ⟨?_, ?_, ?_⟩
    · split
      · cases c.arityProblem? s with
        | none => exact List.Pairwise.nil
        | some p => exact List.pairwise_singleton _ _
      · exact List.Pairwise.nil
    · split
      · exact pairwise_argumentDiagnostics hc s
      · exact List.Pairwise.nil
    · -- The whole call starts in front of all its arguments.
      intro d hd e he hspan
      obtain ⟨-, hd⟩ := List.mem_ite_nil_right.1 hd
      obtain ⟨p, -, rfl⟩ := Option.map_eq_some_iff.1 (Option.mem_toList.1 hd)
      obtain ⟨-, he⟩ := List.mem_ite_nil_right.1 he
      obtain ⟨x, index, hx, he⟩ := mem_argumentDiagnostics_iff.1 he
      obtain ⟨hespan, -, -⟩ := of_argumentDiagnostic? he
      have hstart : c.nameSpan.start = x.span.start := by
        rw [← hespan, ← hspan]
        rfl
      have hwithin := (argument_within hc (List.mem_of_getElem? hx)).1
      obtain ⟨hname, hgap, -⟩ := spans_in_order hc
      omega

/-! ## Between two calls -/

/-- The text of a call is no literal. -/
theorem ofText?_of_callSpan (hb : b ∈ findAll source) {text : String}
    (htext : slice? source.toList b.callSpan = some text.toList) :
    Literal.ofText? text = none := by
  obtain ⟨d, t, hslice, hd, hparen⟩ := exists_slice?_callSpan hb
  obtain rfl : text = String.ofList (d :: t) := by
    rw [← String.toList_inj, String.toList_ofList]
    exact Option.some.inj (htext.symm.trans hslice)
  have hquoted : ¬ Literal.isQuoted (d :: t) = true := by
    intro h
    obtain ⟨m, hm⟩ := Literal.isQuoted_iff.1 h
    obtain ⟨rfl, -⟩ := List.cons.inj hm
    exact absurd hd (by decide)
  rw [Literal.ofText?_of_mem (by decide) hparen, if_neg hquoted]

/-- A later call has none of its reports where an earlier one has any. -/
theorem Reportable.ne (ha : a ∈ findAll source) (hb : b ∈ findAll source)
    (hlt : a.nameSpan.start < b.nameSpan.start) {s t : Span} (hs : a.Reportable s)
    (ht : b.Reportable t) : s ≠ t := by
  intro heq
  subst heq
  have hpos := (hs.marks ha).start_lt_stop
  have hin := ht.within hb
  have hstart : b.nameSpan.start ≤ s.start := hin.1
  rcases behind_or_in_argument ha hb hlt with hbehind | ⟨outer, houter, hinner⟩
  · have hstop := (hs.within ha).2
    omega
  cases hs with
  | name => omega
  | call => exact absurd hlt (Nat.not_lt.2 hstart)
  | @argument arg l harg hl =>
    -- The argument lies in the inner call, so that it is the one around it.
    have hwithin := hin.trans hinner
    obtain rfl : arg = outer := by
      refine Argument.eq_of_meets (fill_arguments ha).ordered harg houter ?_ ?_
      · exact Nat.le_trans (Nat.le_of_lt hpos) hwithin.2
      · exact Nat.le_trans hwithin.1 (Nat.le_of_lt hpos)
    have hspan : arg.span = b.callSpan := hin.antisymm hinner
    have htext := (fill_arguments ha).text_at arg harg
    rw [hspan] at htext
    rw [ofText?_of_callSpan hb htext] at hl
    cases hl

end CallSite

/-- **No two reports at one place.** -/
theorem pairwise_span_ne_analyze (r : Registry) (k : Checks) (source : String) :
    (analyze r k source).Pairwise fun d e => d.span ≠ e.span := by
  unfold analyze diagnoseAll
  rw [List.pairwise_flatMap]
  refine ⟨fun c hc => CallSite.pairwise_diagnose hc r k, ?_⟩
  refine (CallSite.findAll_sorted source).imp_of_mem ?_
  intro a b ha hb hlt d hd e he
  exact (CallSite.reportable_of_mem_diagnose hd).ne ha hb hlt
    (CallSite.reportable_of_mem_diagnose he)

/-- An argument that is quoted at both ends may hold a call that is itself checked. -/
example :
    (analyze (.ofDefinitions [⟨"f", 1, some 1, ["Integer"], "", ""⟩]) {}
      "f('a' & f('b') & 'c')").map (·.span) = [⟨2, 20⟩, ⟨10, 13⟩] := by
  decide +kernel

end FlowExpr
