import FlowExpr.Proofs.Analysis.Reported
import FlowExpr.Proofs.Call.LetterCase
import FlowExpr.Proofs.Function.LastDefinition
import FlowExpr.Proofs.Function.Literal
import Mathlib.Data.List.Forall2

/-!
# The case of function names does not matter

**Theorem (`analyze_ignores_name_case`).** Take two texts that differ only in the case of letters in
the names of calls. Their diagnostics agree one by one in severity, place and category, and in the
message too, except that an unknown function is named as each text spells it.

**How the proof goes.** Written small, the two texts are equal, so that the same calls are found in
both and read alike up to case (`forall₂_findAll`). Two things are left that a case could change.

* *Names* are looked up by their lower case, which in ASCII is the small spelling.
* *Arguments* are checked if they are literals, and `true` is one while `TRUE` is none. But an
  argument whose text changes holds the name of a call, hence all of the call with its parenthesis
  (`openParen_mem_of_ne`). Such a text can only be a string, and that is decided by the quotes at
  its ends.
-/

namespace FlowExpr

open Text

/-- Texts of the same length whose bytes differ in nothing but the case of letters in the names of
calls of the first one. -/
structure RecasesNames (s s' : String) : Prop where
  length_eq : (bytes s).length = (bytes s').length
  in_name : ∀ i < (bytes s).length, (bytes s)[i]? ≠ (bytes s')[i]? →
    ∃ c ∈ CallSite.findAll s, c.nameSpan.start ≤ i ∧ i < c.nameSpan.stop
  same_letter : ∀ i < (bytes s).length, (bytes s)[i]? ≠ (bytes s')[i]? →
    (bytes s)[i]?.map Char.toLower = (bytes s')[i]?.map Char.toLower

/-- Diagnostics of two texts that agree but for the spelling of an unknown function. -/
structure SameReport (s s' : String) (d d' : Diagnostic) : Prop where
  severity : d.severity = d'.severity
  span : d.span = d'.span
  category : d.category = d'.category
  message : d.category ≠ .unknownFunction → d.message = d'.message
  unknown : d.category = .unknownFunction →
    d.message = "Unknown function: " ++ String.ofList (slice s.toList d.span) ∧
      d'.message = "Unknown function: " ++ String.ofList (slice s'.toList d'.span)

/-! ## The same calls -/

namespace RecasesNames

variable {s s' : String}

theorem smallText_eq (h : RecasesNames s s') : smallText s.toList = smallText s'.toList := by
  apply smallText_eq_of_encode
  rw [← bytes_eq_encode, ← bytes_eq_encode, smallText, smallText]
  apply List.ext_getElem?
  intro i
  rw [List.getElem?_map, List.getElem?_map]
  by_cases hi : i < (bytes s).length
  · by_cases hsame : (bytes s)[i]? = (bytes s')[i]?
    · rw [hsame]
    · exact h.same_letter i hi hsame
  · have hle := Nat.le_of_not_lt hi
    rw [List.getElem?_eq_none hle, List.getElem?_eq_none (h.length_eq ▸ hle)]

/-- The calls of the two texts are the same up to case. -/
theorem forall₂_findAll (h : RecasesNames s s') :
    List.Forall₂
      (fun c c' => c ∈ CallSite.findAll s ∧ c' ∈ CallSite.findAll s' ∧ c.small = c'.small)
      (CallSite.findAll s) (CallSite.findAll s') := by
  have hshapes : CallShape.findAll s'.toList = CallShape.findAll s.toList := by
    rw [← CallShape.findAll_smallText s.toList, h.smallText_eq, CallShape.findAll_smallText]
  have hmem : ∀ t : String, ∀ shape ∈ CallShape.findAll t.toList,
      shape.resolve t.toList ∈ CallSite.findAll t :=
    fun t shape hshape => List.mem_map_of_mem hshape
  conv => arg 2; rw [CallSite.findAll]
  conv => arg 3; rw [CallSite.findAll, hshapes]
  rw [List.forall₂_map_left_iff, List.forall₂_map_right_iff, List.forall₂_same]
  intro shape hshape
  refine ⟨hmem s shape hshape, hmem s' shape (by rw [hshapes]; exact hshape), ?_⟩
  rw [← CallShape.resolve_smallText, ← CallShape.resolve_smallText, h.smallText_eq]

end RecasesNames

/-! ## Names -/

/-- The lower case of a call's name is its small spelling. -/
theorem CallSite.lower_name {source : String} {c : CallSite} (hc : c ∈ findAll source) :
    lower c.name = c.small.name := by
  obtain ⟨before, name, blanks, body, rest, hw, rfl⟩ := mem_findAll_iff.1 hc
  have hascii : ∀ d ∈ name, d.toNat < 128 := fun d hd => ascii_of_isNameChar (hw.name_chars d hd)
  rw [lower, small, ofParts, String.toList_ofList, lowerAfter_of_ascii hascii]

/-! ## Literals -/

namespace Literal

theorem isQuoted_smallText (cs : List Char) : isQuoted (smallText cs) = isQuoted cs := by
  have hquote : ∀ o : Option Char, o.map Char.toLower = some '\'' ↔ o = some '\'' := by
    intro o
    cases o with
    | none => rfl
    | some c => simp only [Option.map_some, Option.some.injEq, toLower_eq_iff (d := '\'') rfl]
  rw [isQuoted, isQuoted, smallText, List.length_map, List.head?_map, List.getLast?_map,
    Bool.eq_iff_iff]
  simp only [Bool.and_eq_true, decide_eq_true_eq, hquote]

/-- Texts with a parenthesis are literals of the same kind if they differ in case only. -/
theorem ofText?_eq_of_smallText_eq {t t' : String} (h : smallText t.toList = smallText t'.toList)
    (hparen : '(' ∈ t.toList) : ofText? t = ofText? t' := by
  have hparen' : '(' ∈ t'.toList := by
    rw [← mem_smallText rfl, ← h, mem_smallText rfl]
    exact hparen
  have hof := ofText?_of_mem (d := '(') (by decide) hparen
  have hof' := ofText?_of_mem (d := '(') (by decide) hparen'
  rw [String.ofList_toList] at hof hof'
  rw [hof, hof', ← isQuoted_smallText, h, isQuoted_smallText]

end Literal

/-! ## Arguments -/

namespace RecasesNames

variable {s s' : String} {c c' : CallSite}

/-- An argument that differs holds a call. -/
theorem openParen_mem_of_ne (h : RecasesNames s s') (hc : c ∈ CallSite.findAll s) {arg : Argument}
    (harg : arg ∈ c.arguments) {text' : List Char} (htext' : slice? s'.toList arg.span = some text')
    (hne : arg.text.toList ≠ text') : '(' ∈ arg.text.toList := by
  have htext := (CallSite.fill_arguments hc).text_at arg harg
  have hbytes : bytesBetween s arg.span.start arg.span.stop ≠
      bytesBetween s' arg.span.start arg.span.stop := by
    rw [bytesBetween_of_slice? htext, bytesBetween_of_slice? htext']
    exact fun heq => hne (encode_injective heq)
  obtain ⟨i, hfrom, hto, hi⟩ := exists_ne_of_bytesBetween_ne hbytes
  have hlt : i < (bytes s).length := by
    by_contra hle
    rw [List.getElem?_eq_none (Nat.le_of_not_lt hle),
      List.getElem?_eq_none (h.length_eq ▸ Nat.le_of_not_lt hle)] at hi
    exact hi rfl
  obtain ⟨b, hb, hstart, hstop⟩ := h.in_name i hlt hi
  have hwithin := CallSite.within_argument_of_name hc hb harg hstart hstop hfrom hto
  obtain ⟨d, t, hcall, -, hparen⟩ := CallSite.exists_slice?_callSpan hb
  obtain ⟨x, y, hxy⟩ := exists_append_of_within hcall htext hwithin
  rw [hxy]
  exact List.mem_append_right _ (List.mem_append_left _ hparen)

theorem outline_eq (h : RecasesNames s s') (hc : c ∈ CallSite.findAll s)
    (hc' : c' ∈ CallSite.findAll s') {arg arg' : Argument} (harg : arg ∈ c.arguments)
    (harg' : arg' ∈ c'.arguments) (hsmall : arg.small = arg'.small) :
    arg.outline = arg'.outline := by
  simp only [Argument.small, Argument.mk.injEq] at hsmall
  obtain ⟨htext, hspan⟩ := hsmall
  have htext' := (CallSite.fill_arguments hc').text_at arg' harg'
  rw [← hspan] at htext'
  rw [Argument.outline, Argument.outline, hspan, Prod.mk.injEq]
  refine ⟨rfl, ?_⟩
  by_cases hsame : arg.text.toList = arg'.text.toList
  · rw [String.toList_inj.1 hsame]
  · exact Literal.ofText?_eq_of_smallText_eq (String.ofList_injective htext)
      (h.openParen_mem_of_ne hc harg htext' hsame)

end RecasesNames

/-- What is known of two lists up to one view carries over to a view that depends on it. -/
theorem map_eq_of_map_eq {α β γ : Type} {f : α → β} {g : α → γ} {xs ys : List α}
    (h : xs.map f = ys.map f) (hg : ∀ x ∈ xs, ∀ y ∈ ys, f x = f y → g x = g y) :
    xs.map g = ys.map g := by
  induction xs generalizing ys with
  | nil => rw [List.map_eq_nil_iff.1 h.symm]
  | cons x xs ih =>
    cases ys with
    | nil => simp at h
    | cons y ys =>
      obtain ⟨hhead, htail⟩ := List.cons.inj h
      rw [List.map_cons, List.map_cons, hg x List.mem_cons_self y List.mem_cons_self hhead,
        ih htail fun a ha b hb => hg a (List.mem_cons_of_mem _ ha) b (List.mem_cons_of_mem _ hb)]

/-! ## Diagnostics -/

namespace SameReport

variable {s s' : String}

theorem refl_of_ne {d : Diagnostic} (hd : d.category ≠ .unknownFunction) : SameReport s s' d d where
  severity := rfl
  span := rfl
  category := rfl
  message _ := rfl
  unknown h := absurd h hd

theorem of_names {c c' : CallSite} (hc : c ∈ CallSite.findAll s) (hc' : c' ∈ CallSite.findAll s')
    (hspan : c.nameSpan = c'.nameSpan) :
    SameReport s s' ⟨c.nameSpan, .unknownFunction c.name⟩
      ⟨c'.nameSpan, .unknownFunction c'.name⟩ where
  severity := rfl
  span := hspan
  category := rfl
  message h := absurd rfl h
  unknown _ := by
    have hname : ∀ {t : String} {b : CallSite}, b ∈ CallSite.findAll t →
        String.ofList (slice t.toList b.nameSpan) = b.name := by
      intro t b hb
      rw [slice, CallSite.slice?_nameSpan hb, Option.getD_some, String.ofList_toList]
    rw [hname hc, hname hc']
    exact ⟨rfl, rfl⟩

end SameReport

theorem CallSite.category_ne_of_find? {r : Registry} {k : Checks} {c : CallSite} {sig : Signature}
    (hfind : r.find? c.name = some sig) {d : Diagnostic} (hd : d ∈ c.diagnose r k) :
    d.category ≠ .unknownFunction := by
  rcases mem_diagnose_iff.1 hd with
    ⟨hnone, -⟩ | ⟨t, -, ⟨-, p, hp, rfl⟩ | ⟨-, a, index, -, hd⟩⟩
  · rw [hfind] at hnone
    cases hnone
  · show p.category ≠ _
    rw [category_of_arityProblem? hp]
    decide
  · rw [(of_argumentDiagnostic? hd).2.1]
    decide

theorem RecasesNames.forall₂_diagnose {s s' : String} {c c' : CallSite} (h : RecasesNames s s')
    (hc : c ∈ CallSite.findAll s) (hc' : c' ∈ CallSite.findAll s') (hsmall : c.small = c'.small)
    {r : Registry} (hr : r.Tidy) (k : Checks) :
    List.Forall₂ (SameReport s s') (c.diagnose r k) (c'.diagnose r k) := by
  have hlower : lower c.name = lower c'.name := by
    rw [CallSite.lower_name hc, CallSite.lower_name hc', hsmall]
  have hfind : r.find? c.name = r.find? c'.name := by
    rw [hr.find?_eq_lookup, hr.find?_eq_lookup, hlower]
  have hexempt : k.exempts c.name = k.exempts c'.name := by
    rw [Checks.exempts, Checks.exempts, hlower]
  simp only [CallSite.small, CallSite.mk.injEq] at hsmall
  obtain ⟨-, hnameSpan, hargsSpan, harguments⟩ := hsmall
  -- With the name of the one put to the other, the two calls look the same to the checks.
  have houtline : c.outline = CallSite.outline { c' with name := c.name } := by
    rw [CallSite.outline, CallSite.outline, hnameSpan, hargsSpan, CallSite.Outline.mk.injEq]
    refine ⟨rfl, rfl, rfl, map_eq_of_map_eq harguments ?_⟩
    exact fun x hx y hy hxy => h.outline_eq hc hc' hx hy hxy
  cases hsig : r.find? c.name with
  | none =>
    have hsig' := hfind.symm.trans hsig
    simp only [CallSite.diagnose, hsig, hsig', ← hexempt]
    split
    · exact .cons (.of_names hc hc' hnameSpan) .nil
    · exact .nil
  | some sig =>
    have hsame : c.diagnose r k = c'.diagnose r k := by
      rw [CallSite.diagnose_eq_of_outline_eq houtline]
      have hsig' := hfind.symm.trans hsig
      simp only [CallSite.diagnose, hsig, hsig']
      rfl
    rw [← hsame, List.forall₂_same]
    exact fun d hd => .refl_of_ne (CallSite.category_ne_of_find? hsig hd)

/-- **The case of function names does not matter.** -/
theorem analyze_ignores_name_case (defs : List Definition) (k : Checks) (s s' : String)
    (h : RecasesNames s s') :
    List.Forall₂ (SameReport s s') (analyze (.ofDefinitions defs) k s)
      (analyze (.ofDefinitions defs) k s') := by
  refine List.rel_flatMap h.forall₂_findAll ?_
  intro c c' hcalls
  obtain ⟨hc, hc', hsmall⟩ := hcalls
  exact h.forall₂_diagnose hc hc' hsmall (Registry.tidy_ofDefinitions defs) k

/-- A call in a quoted argument, and a call whose name is also a word that is exempt. -/
theorem analyze_ignores_name_case_nested :
    let defs : List Definition := [⟨"f", 1, some 1, ["Integer"], "", ""⟩]
    let s := "F('é' & G(1) & 'c', tRUE())"
    let s' := "f('é' & g(1) & 'c', True())"
    RecasesNames s s' ∧
      (analyze (.ofDefinitions defs) {} s).map (·.category) =
        [.arity, .typeMismatch, .unknownFunction] ∧
      List.Forall₂ (SameReport s s') (analyze (.ofDefinitions defs) {} s)
        (analyze (.ofDefinitions defs) {} s') := by
  intro defs s s'
  have h : RecasesNames s s' := ⟨by decide +kernel, by decide +kernel, by decide +kernel⟩
  exact ⟨h, by decide +kernel, analyze_ignores_name_case defs {} s s' h⟩

end FlowExpr
