import FlowExpr.Proofs.Analysis.Diagnose
import FlowExpr.Proofs.Call.Nesting

/-!
# What is reported, and where

Everything that can be reported of a call is in `mem_diagnose_iff`: the name if it is unknown, the
whole call if it has the wrong number of arguments, and single arguments that are literals. These
are the spans of `Reportable`. Each of them is a stretch of the text with something in it
(`marks_of_mem_analyze`): names are never empty, a call is at least a name and two parentheses, and
no literal is empty.
-/

namespace FlowExpr

open Text

/-- A span with some text in it. -/
def Span.Marks (cs : List Char) (s : Span) : Prop := ∃ part, part ≠ [] ∧ slice? cs s = some part

theorem Span.Marks.start_lt_stop {cs : List Char} {s : Span} (h : s.Marks cs) :
    s.start < s.stop := by
  obtain ⟨part, hne, hpart⟩ := h
  obtain ⟨a, b, -, hstart, hstop⟩ := exists_of_slice?_eq_some hpart
  have hpos : byteLength part ≠ 0 := fun hzero => hne (byteLength_eq_zero_iff.1 hzero)
  omega

/-! ## The spans of a call -/

namespace CallSite

section

variable {source : String} {c : CallSite}

/-- The name of a call stands at its span. -/
theorem slice?_nameSpan (hc : c ∈ findAll source) :
    slice? source.toList c.nameSpan = some c.name.toList := by
  obtain ⟨before, name, blanks, body, rest, hw, rfl⟩ := mem_findAll_iff.1 hc
  rw [hw.source_eq, ofParts, String.toList_ofList]
  exact slice?_append before name _

theorem marks_nameSpan (hc : c ∈ findAll source) : c.nameSpan.Marks source.toList := by
  refine ⟨c.name.toList, ?_, slice?_nameSpan hc⟩
  obtain ⟨before, name, blanks, body, rest, hw, rfl⟩ := mem_findAll_iff.1 hc
  rw [ofParts, String.toList_ofList]
  exact hw.name_ne_nil

theorem marks_callSpan (hc : c ∈ findAll source) : c.callSpan.Marks source.toList := by
  obtain ⟨d, t, htext, -, -⟩ := exists_slice?_callSpan hc
  exact ⟨d :: t, List.cons_ne_nil d t, htext⟩

/-- Empty arguments are no literals. -/
theorem marks_argument (hc : c ∈ findAll source) {a : Argument} (ha : a ∈ c.arguments)
    {l : Literal} (hl : Literal.ofText? a.text = some l) : a.span.Marks source.toList := by
  refine ⟨a.text.toList, ?_, (fill_arguments hc).text_at a ha⟩
  intro hnil
  have hempty : a.text = "" := String.toList_injective hnil
  have hnone : Literal.ofText? "" = none := by decide +kernel
  rw [hempty, hnone] at hl
  cases hl

end

/-! ## The diagnostics of a call -/

section

variable {r : Registry} {k : Checks} {c : CallSite} {s : Signature} {d : Diagnostic}

theorem mem_argumentDiagnostics_iff :
    d ∈ (c.arguments.zipIdx.filterMap fun p => argumentDiagnostic? s p.1 p.2) ↔
      ∃ a index, c.arguments[index]? = some a ∧ argumentDiagnostic? s a index = some d := by
  simp only [List.mem_filterMap, Prod.exists, List.mem_zipIdx_iff_getElem?]

/-- Everything that is reported of a call. -/
theorem mem_diagnose_iff :
    d ∈ c.diagnose r k ↔
      (r.find? c.name = none ∧ k.unknownFunctions = true ∧ k.exempts c.name = false ∧
        d = ⟨c.nameSpan, .unknownFunction c.name⟩) ∨
      ∃ s, r.find? c.name = some s ∧
        ((k.arity = true ∧ ∃ p, c.arityProblem? s = some p ∧ d = ⟨c.callSpan, p⟩) ∨
          (k.typeMismatches = true ∧ ∃ a index, c.arguments[index]? = some a ∧
            argumentDiagnostic? s a index = some d)) := by
  unfold diagnose
  cases hfind : r.find? c.name with
  | none =>
    simp only [List.mem_ite_nil_right, Bool.and_eq_true, Bool.not_eq_true', List.mem_singleton,
      and_assoc, true_and, reduceCtorEq, false_and, exists_false, or_false]
  | some s =>
    simp only [List.mem_append, List.mem_ite_nil_right, Option.mem_toList, Option.map_eq_some_iff,
      mem_argumentDiagnostics_iff, reduceCtorEq, false_and, false_or, Option.some.injEq,
      exists_eq_left', eq_comm (b := d)]

/-- What is reported of an argument is reported at it, and it is a literal. -/
theorem of_argumentDiagnostic? {a : Argument} {index : Nat}
    (h : argumentDiagnostic? s a index = some d) :
    d.span = a.span ∧ d.category = .typeMismatch ∧ ∃ l, Literal.ofText? a.text = some l := by
  unfold argumentDiagnostic? at h
  split at h
  · rename_i l hl
    split at h
    · cases h
    · cases h
      exact ⟨rfl, rfl, l, hl⟩
  · cases h

theorem category_of_arityProblem? {p : Problem} (h : c.arityProblem? s = some p) :
    p.category = .arity := by
  simp only [arityProblem?] at h
  split at h
  · cases h
    rfl
  · split at h
    · split at h
      · cases h
        rfl
      · cases h
    · cases h

end

/-! ## The places of diagnostics -/

/-- The spans at which something can be reported of a call. -/
inductive Reportable (c : CallSite) : Span → Prop
  | name : Reportable c c.nameSpan
  | call : Reportable c c.callSpan
  | argument {arg : Argument} {l : Literal} (harg : arg ∈ c.arguments)
      (hl : Literal.ofText? arg.text = some l) : Reportable c arg.span

theorem reportable_of_mem_diagnose {r : Registry} {k : Checks} {c : CallSite} {d : Diagnostic}
    (h : d ∈ c.diagnose r k) : c.Reportable d.span := by
  rcases mem_diagnose_iff.1 h with
    ⟨-, -, -, rfl⟩ | ⟨s, -, ⟨-, p, -, rfl⟩ | ⟨-, a, index, ha, hd⟩⟩
  · exact .name
  · exact .call
  · obtain ⟨hspan, -, l, hl⟩ := of_argumentDiagnostic? hd
    rw [hspan]
    exact .argument (List.mem_of_getElem? ha) hl

variable {source : String} {c : CallSite} {s : Span}

theorem Reportable.marks (hc : c ∈ findAll source) (h : c.Reportable s) :
    s.Marks source.toList := by
  cases h with
  | name => exact marks_nameSpan hc
  | call => exact marks_callSpan hc
  | argument harg hl => exact marks_argument hc harg hl

theorem Reportable.within (hc : c ∈ findAll source) (h : c.Reportable s) :
    s.Within c.callSpan := by
  cases h with
  | name =>
    obtain ⟨-, hgap, hargs⟩ := spans_in_order hc
    refine ⟨Nat.le_refl _, ?_⟩
    show c.nameSpan.stop ≤ c.argsSpan.stop + 1
    omega
  | call => exact ⟨Nat.le_refl _, Nat.le_refl _⟩
  | argument harg _ => exact argument_within_call hc harg

end CallSite

/-- What is reported is reported at some text. -/
theorem marks_of_mem_analyze {r : Registry} {k : Checks} {source : String} {d : Diagnostic}
    (h : d ∈ analyze r k source) : d.span.Marks source.toList := by
  obtain ⟨c, hc, hd⟩ := List.mem_flatMap.1 h
  exact (CallSite.reportable_of_mem_diagnose hd).marks hc

end FlowExpr
