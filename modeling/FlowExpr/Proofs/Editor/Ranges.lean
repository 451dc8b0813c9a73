import FlowExpr.Editor.Report
import FlowExpr.Proofs.Analysis.Reported
import FlowExpr.Proofs.Text.Positions
import Mathlib.Data.List.Forall2

/-!
# Reported ranges are exact

**Theorem (`reports_exact`).** An editor is told every diagnostic of a document, in order, by a
range that is not empty and leads back to just the span of the diagnostic.

This puts two things together: a diagnostic is about some text of the document
(`marks_of_mem_analyze`), so both ends of its span are places, and positions name places faithfully.
For an offset inside a character neither would hold: it has the position of the start of its line.
-/

namespace FlowExpr

open Text LineTable

/-! ## The ends of a span -/

/-- The ends of a span with some text in it are two places. -/
theorem Span.Marks.places {cs : List Char} {s : Span} (h : s.Marks cs) :
    IsPlace cs s.start ∧ IsPlace cs s.stop ∧ s.start < s.stop ∧ s.stop ≤ byteLength cs := by
  obtain ⟨part, hpart, hslice⟩ := h
  obtain ⟨x, z, rfl, hstart, hstop⟩ := exists_of_slice?_eq_some hslice
  have hpos : byteLength part ≠ 0 := fun hzero => hpart (byteLength_eq_zero_iff.1 hzero)
  refine ⟨?_, ?_, by omega, ?_⟩
  · rw [← hstart]
    exact isPlace_append x (part ++ z)
  · rw [← hstop, ← byteLength_append, ← List.append_assoc]
    exact isPlace_append (x ++ part) z
  · rw [byteLength_append, byteLength_append]
    omega

/-! ## Reports -/

/-- A report that tells an editor of a diagnostic, without loss. -/
structure Report.Exact (source : String) (d : Diagnostic) (report : Report) : Prop where
  nonempty : d.span.start < d.span.stop
  inside : d.span.stop ≤ byteLength source.toList
  start_place : IsPlace source.toList d.span.start
  stop_place : IsPlace source.toList d.span.stop
  ordered : report.range.start < report.range.stop
  start_back : (LineTable.ofSource source).toOffset? report.range.start = some d.span.start
  stop_back : (LineTable.ofSource source).toOffset? report.range.stop = some d.span.stop
  start_fits : report.range.start.Fits
  stop_fits : report.range.stop.Fits
  severity : report.severity = d.severity.code
  code : report.code = d.category.name
  origin : report.source = d.category.source
  message : report.message = d.message

theorem Report.exact_of_marks {source : String} {d : Diagnostic}
    (hsize : byteLength source.toList < UInt32.size) (h : d.span.Marks source.toList) :
    Report.Exact source d (d.report (.ofSource source)) := by
  obtain ⟨hstart, hstop, hlt, hle⟩ := h.places
  exact {
    nonempty := hlt
    inside := hle
    start_place := hstart
    stop_place := hstop
    ordered := toPosition_lt_toPosition hstart hstop hlt
    start_back := toOffset?_toPosition hstart
    stop_back := toOffset?_toPosition hstop
    start_fits := fits_toPosition hsize hstart
    stop_fits := fits_toPosition hsize hstop
    severity := rfl
    code := rfl
    origin := rfl
    message := rfl }

/-- **Reported ranges are exact.** The reports on a document are those of its diagnostics, one for
each and in order. -/
theorem reports_exact (source : String) (hsize : byteLength source.toList < UInt32.size)
    (r : Registry) (k : Checks) :
    List.Forall₂ (Report.Exact source) (analyze r k source)
      ((analyze r k source).map (·.report (.ofSource source))) := by
  rw [List.forall₂_map_right_iff, List.forall₂_same]
  intro d hd
  exact Report.exact_of_marks hsize (marks_of_mem_analyze hd)

/-- A call on the second line with a wide character before it, an argument too many, and a string
where a number is due. -/
theorem reports_exact_second_line :
    let r := Registry.ofDefinitions [⟨"add", 2, some 2, ["NumberLike"], "Number", ""⟩]
    let d : Diagnostic := ⟨⟨9, 13⟩, .typeMismatch "add" (.one .numberLike) .string⟩
    byteLength "😀\nadd('é',1,2)".toList < UInt32.size ∧
      analyze r {} "😀\nadd('é',1,2)" = [⟨⟨5, 18⟩, .tooManyArguments "add" 2 3⟩, d] ∧
      (d.report (.ofSource "😀\nadd('é',1,2)")).range = ⟨⟨1, 4⟩, ⟨1, 7⟩⟩ ∧
      (LineTable.ofSource "😀\nadd('é',1,2)").toOffset? ⟨1, 4⟩ = some 9 ∧
      (LineTable.ofSource "😀\nadd('é',1,2)").toOffset? ⟨1, 7⟩ = some 13 := by
  intro r d
  have hsize : byteLength "😀\nadd('é',1,2)".toList < UInt32.size := by decide +kernel
  have hfound : analyze r {} "😀\nadd('é',1,2)" = [⟨⟨5, 18⟩, .tooManyArguments "add" 2 3⟩, d] := by
    decide +kernel
  have hrange : (d.report (.ofSource "😀\nadd('é',1,2)")).range = ⟨⟨1, 4⟩, ⟨1, 7⟩⟩ := by
    decide +kernel
  have hexact := reports_exact "😀\nadd('é',1,2)" hsize r {}
  rw [hfound] at hexact
  obtain ⟨-, htail⟩ := List.forall₂_cons.1 hexact
  obtain ⟨hsecond, -⟩ := List.forall₂_cons.1 htail
  have hstart := hsecond.start_back
  have hstop := hsecond.stop_back
  rw [hrange] at hstart hstop
  exact ⟨hsize, hfound, hrange, hstart, hstop⟩

end FlowExpr
