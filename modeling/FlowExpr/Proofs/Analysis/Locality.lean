import FlowExpr.Proofs.Analysis.Appended
import FlowExpr.Proofs.Call.Nesting

/-!
# A call by itself

Take the text of a call out of its source, from the name through the closing parenthesis, and read
it alone. `analyze_callText` says that nothing is different: the calls found there are those that
the source has inside this call, the call itself first, and so are the diagnostics.

What stands in front of the call could matter in three ways, and does in none. No string is open
there, and no name character stands right in front, or else this would not be a call with this name.
A backslash may stand right in front, but it only matters to a quote, and a call starts with a name
character, behind which the backslash is forgotten (`inside_after_append`). What stands behind the
call is never read.

In the list of calls those inside a call come right behind it (`exists_block`): a later call that is
not inside starts behind the closing parenthesis, and so behind all that are.
-/

namespace FlowExpr

open Text

instance (s t : Span) : Decidable (s.Within t) := inferInstanceAs (Decidable (_ ∧ _))

/-! ## The text of a call in its source -/

theorem CallShape.ofParts_append (a before name blanks body : List Char) :
    ofParts (a ++ before) name blanks body =
      (ofParts before name blanks body).shift (byteLength a) := by
  have hname : (⟨byteLength (a ++ before), byteLength (a ++ before) + byteLength name⟩ : Span) =
      Span.shift (byteLength a) ⟨byteLength before, byteLength before + byteLength name⟩ := by
    simp only [byteLength_append, Span.shift, Span.mk.injEq]
    omega
  have hstart : byteLength (a ++ before) + byteLength name + byteLength blanks + 1 =
      byteLength before + byteLength name + byteLength blanks + 1 + byteLength a := by
    rw [byteLength_append]
    omega
  unfold ofParts
  rw [hname, hstart, ofBody_add]

theorem CallSite.ofParts_append (a before name blanks body : List Char) :
    ofParts (a ++ before) name blanks body =
      (ofParts before name blanks body).shift (byteLength a) := by
  simp only [ofParts, shift, CallShape.ofParts_append, CallSite.mk.injEq, true_and]
  refine ⟨rfl, rfl, ?_⟩
  split
  · rfl
  · rw [Argument.map_shift_ofPieces]
    rfl

namespace WrittenCall

variable {source before name blanks body rest : List Char}
variable {u v name' blanks' body' : List Char}

/-- Up to a place in a call, a reader from the start of the source and one from the start of the
call agree on whether a string is open. -/
theorem inside_after_append (h : WrittenCall source before name blanks body rest)
    (hu : callText name blanks body = u ++ v) :
    (Quote.after {} (before ++ u)).inside = (Quote.after {} u).inside := by
  rw [Quote.after_append]
  cases u with
  | nil => exact h.outside
  | cons c u =>
    obtain ⟨d, t, htext, hd⟩ := h.exists_callText_eq_cons
    rw [htext] at hu
    obtain ⟨rfl, -⟩ := List.cons.inj hu
    have hb : d ≠ '\\' := ne_of_isNameChar hd (by decide)
    have hq : d ≠ '\'' := ne_of_isNameChar hd (by decide)
    -- The first character of the name sets both readers back to the start.
    rw [Quote.after_cons, Quote.after_cons,
      Quote.next_of_isStructural (Quote.isStructural_of_outside h.outside hb hq),
      Quote.next_of_isStructural (Quote.isStructural_of_outside rfl hb hq)]

theorem any_getLast?_append (h : WrittenCall source before name blanks body rest) :
    (before ++ u).getLast?.any isNameChar = u.getLast?.any isNameChar := by
  by_cases hu : u = []
  · rw [hu, List.append_nil]
    exact h.boundary
  · rw [List.getLast?_append_of_ne_nil _ hu]

/-- A call stands inside the text of another one in the source exactly when it stands there in that
text alone. -/
theorem inner_iff (h : WrittenCall source before name blanks body rest)
    (htext : callText name blanks body = u ++ (callText name' blanks' body' ++ v)) :
    WrittenCall source (before ++ u) name' blanks' body' (v ++ rest) ↔
      WrittenCall (callText name blanks body) u name' blanks' body' v := by
  have hinside := h.inside_after_append htext
  have hboundary : (before ++ u).getLast?.any isNameChar = u.getLast?.any isNameChar :=
    h.any_getLast?_append
  constructor
  · intro hb
    refine hb.relocate ?_ ?_ ?_
    · rw [htext, callText]
      simp
    · rw [← hinside]
      exact hb.outside
    · rw [← hboundary]
      exact hb.boundary
  · intro hb
    refine hb.relocate ?_ ?_ ?_
    · rw [h.source_eq_callText, htext, callText]
      simp
    · rw [hinside]
      exact hb.outside
    · rw [hboundary]
      exact hb.boundary

/-- Where the text of a call stands inside that of another one, by spans. -/
theorem exists_callText_eq_of_within {before' rest' : List Char}
    (h : WrittenCall source before name blanks body rest)
    (hb : WrittenCall source before' name' blanks' body' rest')
    (hin : (CallSite.ofParts before' name' blanks' body').callSpan.Within
      (CallSite.ofParts before name blanks body).callSpan) :
    ∃ u v, before' = before ++ u ∧ rest' = v ++ rest ∧
      callText name blanks body = u ++ (callText name' blanks' body' ++ v) := by
  rw [CallSite.callSpan_ofParts, CallSite.callSpan_ofParts] at hin
  obtain ⟨hstart, hstop⟩ := hin
  simp only at hstart hstop
  have heq : before ++ (callText name blanks body ++ rest) =
      before' ++ (callText name' blanks' body' ++ rest') := by
    rw [← h.source_eq_callText, ← hb.source_eq_callText]
  obtain ⟨u, rfl, htail⟩ := exists_append_of_byteLength_le heq hstart
  rw [← List.append_assoc] at htail
  obtain ⟨v, htext, hrest⟩ := exists_append_of_byteLength_le htail.symm (by
    simp only [byteLength_append] at hstop ⊢
    omega)
  exact ⟨u, v, rfl, hrest, by rw [htext, List.append_assoc]⟩

/-- The calls inside a call are those of its text alone. -/
theorem mem_findAll_callText_iff {source : String}
    (h : WrittenCall source.toList before name blanks body rest) {d : CallSite} :
    d ∈ (CallSite.findAll (String.ofList (callText name blanks body))).map
        (CallSite.shift (byteLength before)) ↔
      d ∈ CallSite.findAll source ∧
        d.callSpan.Within (CallSite.ofParts before name blanks body).callSpan := by
  rw [List.mem_map]
  constructor
  · intro hd
    obtain ⟨e, he, rfl⟩ := hd
    obtain ⟨u, name', blanks', body', v, hb, rfl⟩ := CallSite.mem_findAll_iff.1 he
    rw [String.toList_ofList] at hb
    have htext := hb.source_eq_callText
    rw [← CallSite.ofParts_append]
    refine ⟨CallSite.mem_findAll_iff.2 ⟨_, _, _, _, _, (h.inner_iff htext).2 hb, rfl⟩, ?_⟩
    have hlen : byteLength (callText name blanks body) =
        byteLength u + (byteLength (callText name' blanks' body') + byteLength v) := by
      rw [htext, byteLength_append, byteLength_append]
    rw [CallSite.callSpan_ofParts, CallSite.callSpan_ofParts, byteLength_append]
    simp only [Span.Within]
    omega
  · intro hd
    obtain ⟨hd, hin⟩ := hd
    obtain ⟨before', name', blanks', body', rest', hb, rfl⟩ := CallSite.mem_findAll_iff.1 hd
    obtain ⟨u, v, rfl, rfl, htext⟩ := h.exists_callText_eq_of_within hb hin
    refine ⟨CallSite.ofParts u name' blanks' body', ?_, (CallSite.ofParts_append _ _ _ _ _).symm⟩
    rw [CallSite.mem_findAll_iff, String.toList_ofList]
    exact ⟨u, name', blanks', body', v, (h.inner_iff htext).1 hb, rfl⟩

end WrittenCall

/-! ## The calls inside a call come in one block -/

namespace CallSite

/-- Lists of calls in the order of their names are known from their members. -/
theorem eq_of_mem_iff_of_sorted {as bs : List CallSite}
    (ha : as.Pairwise fun a b => a.nameSpan.start < b.nameSpan.start)
    (hb : bs.Pairwise fun a b => a.nameSpan.start < b.nameSpan.start)
    (h : ∀ c, c ∈ as ↔ c ∈ bs) : as = bs := by
  have hirrefl : Std.Irrefl fun a b : CallSite => a.nameSpan.start < b.nameSpan.start :=
    ⟨fun a => Nat.lt_irrefl a.nameSpan.start⟩
  have hanti : Std.Antisymm fun a b : CallSite => a.nameSpan.start < b.nameSpan.start :=
    ⟨fun a b hab hba => absurd (Nat.lt_trans hab hba) (Nat.lt_irrefl a.nameSpan.start)⟩
  exact List.Pairwise.eq_of_mem_iff ha hb h

variable {source : String} {a b c : CallSite}

/-- A later call that is not inside an earlier one starts behind it. -/
theorem stop_le_start_of_not_within (ha : a ∈ findAll source) (hb : b ∈ findAll source)
    (hlt : a.nameSpan.start < b.nameSpan.start) (hout : ¬ b.callSpan.Within a.callSpan) :
    a.callSpan.stop ≤ b.nameSpan.start := by
  rcases behind_or_in_argument ha hb hlt with hbehind | ⟨arg, harg, hin⟩
  · exact hbehind
  · exact absurd (hin.trans (argument_within_call ha harg)) hout

/-- The calls inside a call come before the later ones that are not. -/
theorem start_lt_start_of_within (hc : c ∈ findAll source) (ha : a ∈ findAll source)
    (hb : b ∈ findAll source) (hcb : c.nameSpan.start < b.nameSpan.start)
    (hin : a.callSpan.Within c.callSpan) (hout : ¬ b.callSpan.Within c.callSpan) :
    a.nameSpan.start < b.nameSpan.start := by
  have hnonempty : a.nameSpan.start < a.callSpan.stop := start_lt_stop ha
  have hstop := hin.2
  have hbehind := stop_le_start_of_not_within hc hb hcb hout
  omega

/-- The calls inside a call stand right behind it in the list of all calls. -/
theorem exists_block (hc : c ∈ findAll source) :
    ∃ before inner behind, findAll source = before ++ (c :: inner) ++ behind ∧
      (findAll source).filter (fun d => d.callSpan.Within c.callSpan) = c :: inner := by
  have hsorted := findAll_sorted source
  obtain ⟨before, tail, hsplit⟩ := List.append_of_mem hc
  rw [hsplit, List.pairwise_append, List.pairwise_cons] at hsorted
  obtain ⟨-, ⟨hctail, htail⟩, hbefore⟩ := hsorted
  have hmem : ∀ d ∈ tail, d ∈ findAll source := by
    intro d hd
    rw [hsplit]
    exact List.mem_append_right _ (List.mem_cons_of_mem _ hd)
  -- Behind the call, those inside it come first.
  have hblock : tail = (tail.filter fun d => d.callSpan.Within c.callSpan) ++
      tail.filter fun d => ¬ d.callSpan.Within c.callSpan := by
    refine eq_of_mem_iff_of_sorted htail
      (List.pairwise_append.2 ⟨htail.filter _, htail.filter _, ?_⟩) ?_
    · intro a ha b hb
      rw [List.mem_filter, decide_eq_true_eq] at ha hb
      exact start_lt_start_of_within hc (hmem a ha.1) (hmem b hb.1) (hctail b hb.1) ha.2 hb.2
    · intro d
      rw [List.mem_append, List.mem_filter, List.mem_filter, decide_eq_true_eq, decide_eq_true_eq,
        ← and_or_left]
      exact (and_iff_left (Classical.em _)).symm
  refine ⟨before, tail.filter fun d => d.callSpan.Within c.callSpan,
    tail.filter fun d => ¬ d.callSpan.Within c.callSpan, ?_, ?_⟩
  · rw [List.append_assoc, List.cons_append, ← hblock]
    exact hsplit
  · have hnone : before.filter (fun d => d.callSpan.Within c.callSpan) = [] := by
      rw [List.filter_eq_nil_iff]
      intro d hd hin
      rw [decide_eq_true_eq] at hin
      have hlt := hbefore d hd c List.mem_cons_self
      have hle : c.nameSpan.start ≤ d.nameSpan.start := hin.1
      omega
    have hself : c.callSpan.Within c.callSpan := ⟨Nat.le_refl _, Nat.le_refl _⟩
    rw [hsplit, List.filter_append, hnone, List.nil_append, List.filter_cons,
      if_pos (decide_eq_true hself)]

end CallSite

/-- **A call is checked as if it stood alone.** Reading the text of a call by itself gives the calls
that the source has inside this call, the call itself first, and their diagnostics. In the source
they stand side by side. -/
theorem analyze_callText (source : String) (c : CallSite) (hc : c ∈ CallSite.findAll source) :
    ∃ (call : String) (before inner behind : List CallSite),
      slice? source.toList c.callSpan = some call.toList ∧
      CallSite.findAll source = before ++ (c :: inner) ++ behind ∧
      (CallSite.findAll source).filter (fun d => d.callSpan.Within c.callSpan) = c :: inner ∧
      (CallSite.findAll call).map (·.shift c.nameSpan.start) = c :: inner ∧
      ∀ (r : Registry) (k : Checks),
        (analyze r k call).map (·.shift c.nameSpan.start) = diagnoseAll r k (c :: inner) ∧
        analyze r k source = diagnoseAll r k before ++
          (analyze r k call).map (·.shift c.nameSpan.start) ++ diagnoseAll r k behind := by
  obtain ⟨before, inner, behind, hsites, hfilter⟩ := CallSite.exists_block hc
  obtain ⟨front, name, blanks, body, rest, hw, hparts⟩ := CallSite.mem_findAll_iff.1 hc
  have hstart : c.nameSpan.start = byteLength front := by
    rw [hparts]
    rfl
  have halone : (CallSite.findAll (String.ofList (callText name blanks body))).map
      (CallSite.shift c.nameSpan.start) = c :: inner := by
    rw [← hfilter, hstart]
    refine CallSite.eq_of_mem_iff_of_sorted ?_ ((CallSite.findAll_sorted source).filter _) ?_
    · rw [List.pairwise_map]
      exact (CallSite.findAll_sorted _).imp fun hlt => Nat.add_lt_add_right hlt _
    · intro d
      rw [hw.mem_findAll_callText_iff, List.mem_filter, decide_eq_true_eq, hparts]
  have hdiagnostics : ∀ (r : Registry) (k : Checks),
      (analyze r k (String.ofList (callText name blanks body))).map
        (Diagnostic.shift c.nameSpan.start) = diagnoseAll r k (c :: inner) := by
    intro r k
    rw [← halone, diagnoseAll_shift]
    rfl
  refine ⟨String.ofList (callText name blanks body), before, inner, behind, ?_, hsites, hfilter,
    halone, fun r k => ⟨hdiagnostics r k, ?_⟩⟩
  · rw [String.toList_ofList, hw.source_eq_callText, hparts, CallSite.callSpan_ofParts]
    exact slice?_append front (callText name blanks body) rest
  · unfold analyze at hdiagnostics ⊢
    rw [hdiagnostics, hsites, diagnoseAll_append, diagnoseAll_append]

/-- A call behind a backslash, in a group and a call that are both left open. Its string holds the
start of a call, and another call follows it. -/
theorem analyze_callText_escaped :
    ∃ call : String, slice? "g((\\f('h(', h()), h()".toList ⟨4, 16⟩ = some call.toList ∧
      (CallSite.findAll call).map (·.shift 4) =
        [⟨"f", ⟨4, 5⟩, ⟨6, 15⟩, [⟨"'h('", ⟨6, 10⟩⟩, ⟨"h()", ⟨12, 15⟩⟩]⟩,
          ⟨"h", ⟨12, 13⟩, ⟨14, 14⟩, []⟩] ∧
      (analyze {} {} call).map (·.shift 4) =
        [⟨⟨4, 5⟩, .unknownFunction "f"⟩, ⟨⟨12, 13⟩, .unknownFunction "h"⟩] := by
  obtain ⟨call, before, inner, behind, htext, -, hfilter, halone, hdiagnostics⟩ :=
    analyze_callText "g((\\f('h(', h()), h()"
      ⟨"f", ⟨4, 5⟩, ⟨6, 15⟩, [⟨"'h('", ⟨6, 10⟩⟩, ⟨"h()", ⟨12, 15⟩⟩]⟩ (by decide +kernel)
  refine ⟨call, htext, ?_, ?_⟩
  · rw [halone, ← hfilter]
    decide +kernel
  · rw [(hdiagnostics {} {}).1, ← hfilter]
    decide +kernel

end FlowExpr
