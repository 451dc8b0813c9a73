import FlowExpr.Analysis.Analyze
import Mathlib.Data.List.Flatten

/-!
# What the diagnostics of a call depend on

Calls are checked one by one, so the diagnostics of a text are known from its list of calls, part
by part (`diagnoseAll_append`, `diagnoseAll_sublist`). Two facts about a single call remain.

* `diagnose_eq_of_outline_eq`: of an argument the checks read where it stands and which kind of
  literal it is. Its text does not matter beyond that.
* `diagnose_shift`: a call that stands elsewhere has the same diagnostics there.
-/

namespace FlowExpr

/-! ## Lists of calls -/

section

variable (r : Registry) (k : Checks)

theorem diagnoseAll_append (a b : List CallSite) :
    diagnoseAll r k (a ++ b) = diagnoseAll r k a ++ diagnoseAll r k b :=
  List.flatMap_append

theorem diagnoseAll_sublist {a b : List CallSite} (h : a.Sublist b) :
    (diagnoseAll r k a).Sublist (diagnoseAll r k b) :=
  h.flatMap _

end

/-! ## The outline of a call -/

/-- What the checks read of an argument. -/
def Argument.outline (a : Argument) : Span × Option Literal := (a.span, Literal.ofText? a.text)

namespace CallSite

/-- What the checks read of a call. -/
structure Outline where
  name : String
  nameSpan : Span
  argsSpan : Span
  arguments : List (Span × Option Literal)

/-- The outline of a call. -/
def outline (c : CallSite) : Outline where
  name := c.name
  nameSpan := c.nameSpan
  argsSpan := c.argsSpan
  arguments := c.arguments.map Argument.outline

theorem argumentDiagnostic?_of_outline_eq {a b : Argument} (h : a.outline = b.outline)
    (s : Signature) (index : Nat) :
    argumentDiagnostic? s a index = argumentDiagnostic? s b index := by
  obtain ⟨hspan, hliteral⟩ := Prod.mk.inj h
  simp only [argumentDiagnostic?, hspan, hliteral]

theorem argumentDiagnostics_of_outline_eq {as bs : List Argument}
    (h : as.map Argument.outline = bs.map Argument.outline) (s : Signature) (start : Nat) :
    (as.zipIdx start).filterMap (fun p => argumentDiagnostic? s p.1 p.2) =
      (bs.zipIdx start).filterMap fun p => argumentDiagnostic? s p.1 p.2 := by
  induction as generalizing bs start with
  | nil =>
    cases bs with
    | nil => rfl
    | cons b bs => simp at h
  | cons a as ih =>
    cases bs with
    | nil => simp at h
    | cons b bs =>
      obtain ⟨hhead, htail⟩ := List.cons.inj h
      simp only [List.zipIdx_cons, List.filterMap_cons,
        argumentDiagnostic?_of_outline_eq hhead, ih htail]

/-- Calls of the same outline have the same diagnostics. -/
theorem diagnose_eq_of_outline_eq {a b : CallSite} (h : a.outline = b.outline) (r : Registry)
    (k : Checks) : a.diagnose r k = b.diagnose r k := by
  simp only [outline, Outline.mk.injEq] at h
  obtain ⟨hname, hnameSpan, hargsSpan, harguments⟩ := h
  have hlength : a.arguments.length = b.arguments.length := by
    simpa using congrArg List.length harguments
  have harity : ∀ s, a.arityProblem? s = b.arityProblem? s := by
    intro s
    simp only [arityProblem?, hlength]
  have hcallSpan : a.callSpan = b.callSpan := by
    rw [callSpan, callSpan, hnameSpan, hargsSpan]
  unfold diagnose
  rw [hname]
  cases r.find? b.name with
  | none => simp only [hnameSpan]
  | some s =>
    simp only [harity, hcallSpan]
    rw [argumentDiagnostics_of_outline_eq harguments s 0]

end CallSite

theorem diagnoseAll_eq_of_outlines_eq {a b : List CallSite}
    (h : a.map CallSite.outline = b.map CallSite.outline) (r : Registry) (k : Checks) :
    diagnoseAll r k a = diagnoseAll r k b := by
  induction a generalizing b with
  | nil =>
    cases b with
    | nil => rfl
    | cons c b => simp at h
  | cons c a ih =>
    cases b with
    | nil => simp at h
    | cons d b =>
      obtain ⟨hhead, htail⟩ := List.cons.inj h
      have hrest := ih htail
      unfold diagnoseAll at hrest ⊢
      rw [List.flatMap_cons, List.flatMap_cons, CallSite.diagnose_eq_of_outline_eq hhead, hrest]

/-! ## Calls that stand elsewhere -/

namespace CallSite

theorem callSpan_shift (n : Nat) (c : CallSite) : (c.shift n).callSpan = c.callSpan.shift n := by
  simp only [callSpan, shift, Span.shift, Span.mk.injEq, true_and]
  omega

theorem argumentDiagnostic?_shift (n : Nat) (s : Signature) (a : Argument) (index : Nat) :
    argumentDiagnostic? s (a.shift n) index =
      (argumentDiagnostic? s a index).map (Diagnostic.shift n) := by
  unfold argumentDiagnostic?
  rw [show (a.shift n).text = a.text from rfl]
  cases Literal.ofText? a.text with
  | none => rfl
  | some literal =>
    simp only
    split
    · rfl
    · rfl

theorem argumentDiagnostics_shift (n : Nat) (s : Signature) (as : List Argument) (start : Nat) :
    ((as.map (Argument.shift n)).zipIdx start).filterMap
        (fun p => argumentDiagnostic? s p.1 p.2) =
      ((as.zipIdx start).filterMap fun p => argumentDiagnostic? s p.1 p.2).map
        (Diagnostic.shift n) := by
  induction as generalizing start with
  | nil => rfl
  | cons a as ih =>
    simp only [List.map_cons, List.zipIdx_cons, List.filterMap_cons, ih,
      argumentDiagnostic?_shift]
    cases argumentDiagnostic? s a start <;> rfl

/-- The diagnostics of a call move with it. -/
theorem diagnose_shift (r : Registry) (k : Checks) (n : Nat) (c : CallSite) :
    (c.shift n).diagnose r k = (c.diagnose r k).map (Diagnostic.shift n) := by
  have harity : ∀ s, (c.shift n).arityProblem? s = c.arityProblem? s := by
    intro s
    simp only [arityProblem?, shift, List.length_map]
  unfold diagnose
  rw [show (c.shift n).name = c.name from rfl]
  cases r.find? c.name with
  | none =>
    simp only
    split
    · rfl
    · rfl
  | some s =>
    simp only [harity, callSpan_shift, List.map_append]
    congr 1
    · by_cases ha : k.arity = true
      · simp only [if_pos ha]
        cases c.arityProblem? s <;> rfl
      · simp only [if_neg ha, List.map_nil]
    · by_cases ht : k.typeMismatches = true
      · simp only [if_pos ht]
        exact argumentDiagnostics_shift n s c.arguments 0
      · simp only [if_neg ht, List.map_nil]

end CallSite

theorem diagnoseAll_shift (r : Registry) (k : Checks) (n : Nat) (cs : List CallSite) :
    diagnoseAll r k (cs.map (CallSite.shift n)) =
      (diagnoseAll r k cs).map (Diagnostic.shift n) := by
  unfold diagnoseAll
  rw [List.flatMap_map, List.map_flatMap]
  congr 1
  funext c
  exact CallSite.diagnose_shift r k n c

end FlowExpr
