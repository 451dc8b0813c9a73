import FlowExpr.Proofs.Analysis.Reported

/-!
# Checks only leave things out

**Theorem (`analyze_eq_filter`).** What is reported under any checks is what is reported when all of
them run, less the categories that are switched off and the names that are exempt. No check has an
effect on another one, and the order stays.

Calls are checked one by one, so it is enough to compare the diagnostics of a call
(`diagnose_eq_filter`). Those of a known function are of one category each, of which all or none
stay. The one of an unknown function is at the name, which can be read off the text.
-/

namespace FlowExpr

open Text

namespace Checks

/-! ## Exempt names -/

theorem exempts_iff {k : Checks} {name : String} :
    k.exempts name = true ↔ lower name ∈ exemptWords ∨ lower name ∈ k.exempt := by
  simp [exempts]

/-- The words of the language are exempt under all checks. -/
theorem exempts_of_default {name : String} (h : ({} : Checks).exempts name = true) (k : Checks) :
    k.exempts name = true := by
  rcases exempts_iff.1 h with hword | hnone
  · exact exempts_iff.2 (Or.inl hword)
  · cases hnone

/-- Names are exempted in every spelling of their case. -/
theorem exempts_exempting_iff {k : Checks} {names : List String} {name : String} :
    (k.exempting names).exempts name = true ↔
      k.exempts name = true ∨ ∃ e ∈ names, lower name = lower e := by
  rw [exempts_iff, exempts_iff, exempting]
  simp only [List.mem_append, List.mem_map, or_assoc, eq_comm (b := lower name)]

/-! ## What is reported -/

/-- Whether the check of a category runs. -/
def enables (k : Checks) : Category → Bool
  | .unknownFunction => k.unknownFunctions
  | .arity => k.arity
  | .typeMismatch => k.typeMismatches

/-- Whether a diagnostic of a text is reported: its check runs, and it does not tell of an exempt
name. -/
def reports (k : Checks) (source : String) (d : Diagnostic) : Bool :=
  k.enables d.category &&
    !(d.category = .unknownFunction && k.exempts (String.ofList (slice source.toList d.span)))

variable {k : Checks} {source : String}

/-- Of diagnostics of one category about known functions all or none are reported. -/
theorem filter_reports {ds : List Diagnostic} {category : Category}
    (h : ∀ d ∈ ds, d.category = category) (hknown : category ≠ .unknownFunction) :
    ds.filter (k.reports source) = if k.enables category then ds else [] := by
  have hreports : ∀ d ∈ ds, k.reports source d = k.enables category := by
    intro d hd
    simp [reports, h d hd, hknown]
  split
  · rename_i hon
    rw [List.filter_eq_self]
    intro d hd
    rw [hreports d hd, hon]
  · rename_i hoff
    rw [List.filter_eq_nil_iff]
    intro d hd
    rw [hreports d hd]
    exact hoff

end Checks

/-! ## Calls and texts -/

open Checks

/-- The diagnostics of a call of a text, as a part of all that can be reported of it. -/
theorem CallSite.diagnose_eq_filter {source : String} {c : CallSite} (hc : c ∈ findAll source)
    (r : Registry) (k : Checks) :
    c.diagnose r k = (c.diagnose r {}).filter (k.reports source) := by
  unfold diagnose
  cases r.find? c.name with
  | none =>
    have hreports : k.reports source ⟨c.nameSpan, .unknownFunction c.name⟩ =
        (k.unknownFunctions && !k.exempts c.name) := by
      have hname : String.ofList (slice source.toList c.nameSpan) = c.name := by
        rw [slice, slice?_nameSpan hc, Option.getD_some, String.ofList_toList]
      simp [reports, enables, Diagnostic.category, Problem.category, hname]
    -- A word of the language is not reported in either case.
    by_cases hword : ({} : Checks).exempts c.name = true
    · simp [hword, exempts_of_default hword k]
    · simp [hword, List.filter_cons, hreports]
  | some s =>
    have harity : ∀ d ∈ ((c.arityProblem? s).map fun p => (⟨c.callSpan, p⟩ : Diagnostic)).toList,
        d.category = .arity := by
      intro d hd
      obtain ⟨p, hp, rfl⟩ := Option.map_eq_some_iff.1 (Option.mem_toList.1 hd)
      exact category_of_arityProblem? hp
    have htypes : ∀ d ∈ c.arguments.zipIdx.filterMap
        (fun p => argumentDiagnostic? s p.1 p.2), d.category = .typeMismatch := by
      intro d hd
      obtain ⟨a, index, -, hd⟩ := mem_argumentDiagnostics_iff.1 hd
      exact (of_argumentDiagnostic? hd).2.1
    simp only [if_true, List.filter_append]
    rw [filter_reports harity (by decide), filter_reports htypes (by decide)]
    rfl

/-- **Checks only leave things out.** What is reported under any checks is, in order, the part of
what is reported by default whose category is switched on and which is not about an exempt name. A
name is exempt if it is a word of the language or one of the configured names, in any case. -/
theorem analyze_eq_filter (r : Registry) (source : String) :
    (∀ k : Checks, analyze r k source = (analyze r {} source).filter (k.reports source)) ∧
    ∀ (unknownFunctions arity typeMismatches : Bool) (names : List String) (name : String),
      (exempting { unknownFunctions, arity, typeMismatches } names).exempts name = true ↔
        lower name ∈ exemptWords ∨ ∃ e ∈ names, lower name = lower e := by
  constructor
  · intro k
    rw [analyze, analyze, diagnoseAll, diagnoseAll, List.filter_flatMap]
    refine List.flatMap_congr ?_
    intro c hc
    exact c.diagnose_eq_filter hc r k
  · intro _ _ _ names name
    rw [exempts_exempting_iff, exempts_iff]
    simp only [List.not_mem_nil, or_false]

end FlowExpr
