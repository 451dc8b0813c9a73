import FlowExpr.Proofs.Call.Forest

/-!
# Calls inside of arguments

How the spans of two calls of one text lie to each other, said of the calls themselves and not of
the way they are written.

* `behind_or_in_argument`: a later call stands behind an earlier one, or inside one of its
  arguments.
* `within_argument_of_name`: an argument into which the name of a call reaches holds all of that
  call.
* `exists_slice?_callSpan`: the text of a call starts with a name character and has a parenthesis
  in it. So has every argument that holds a call.
-/

namespace FlowExpr

open Text

/-! ## Spans inside of spans -/

theorem Span.Within.antisymm {s t : Span} (h : s.Within t) (h' : t.Within s) : s = t := by
  obtain ⟨sstart, sstop⟩ := s
  obtain ⟨tstart, tstop⟩ := t
  simp only [Span.Within] at h h'
  rw [Span.mk.injEq]
  omega

theorem Span.Within.trans {s t u : Span} (h : s.Within t) (h' : t.Within u) : s.Within u :=
  ⟨Nat.le_trans h'.1 h.1, Nat.le_trans h.2 h'.2⟩

/-- The text of a span is part of the text of every span around it. -/
theorem Text.exists_append_of_within {cs p q : List Char} {s t : Span}
    (hp : slice? cs s = some p) (hq : slice? cs t = some q) (h : s.Within t) :
    ∃ x y, q = x ++ (p ++ y) := by
  obtain ⟨a, b, hcs, hstart, hstop⟩ := exists_of_slice?_eq_some hp
  obtain ⟨a', b', hcs', hstart', hstop'⟩ := exists_of_slice?_eq_some hq
  obtain ⟨hfront, hbehind⟩ := h
  obtain ⟨x, rfl, htail⟩ := exists_append_of_byteLength_le (hcs'.symm.trans hcs) (by omega)
  rw [← List.append_assoc] at htail
  obtain ⟨y, hq', -⟩ := exists_append_of_byteLength_le htail.symm (by
    simp only [byteLength_append] at hstart hstop ⊢
    omega)
  exact ⟨x, y, by rw [hq', List.append_assoc]⟩

/-- Two arguments that share a stretch are one. -/
theorem Argument.eq_of_meets {args : List Argument}
    (hsorted : args.Pairwise fun x y => x.span.stop < y.span.start) {x y : Argument}
    (hx : x ∈ args) (hy : y ∈ args) (hxy : x.span.start ≤ y.span.stop)
    (hyx : y.span.start ≤ x.span.stop) : x = y := by
  have : Std.Symm fun x y : Argument => x.span.stop < y.span.start ∨ y.span.stop < x.span.start :=
    ⟨fun _ _ h => h.symm⟩
  have hapart : args.Pairwise fun x y => x.span.stop < y.span.start ∨ y.span.stop < x.span.start :=
    hsorted.imp Or.inl
  by_contra hne
  rcases hapart.forall hx hy hne with h | h <;> omega

/-! ## The spans of one call -/

namespace CallSite

theorem findAll_sorted (source : String) :
    (findAll source).Pairwise fun a b => a.nameSpan.start < b.nameSpan.start := by
  rw [findAll, List.pairwise_map]
  exact CallShape.findAll_sorted source.toList

variable {source : String} {a b c : CallSite}

/-- Two calls do not start at one place. -/
theorem eq_of_start_eq (ha : a ∈ findAll source) (hb : b ∈ findAll source)
    (h : a.nameSpan.start = b.nameSpan.start) : a = b := by
  have : Std.Symm fun a b : CallSite => a.nameSpan.start ≠ b.nameSpan.start :=
    ⟨fun _ _ hne => hne.symm⟩
  have hapart : (findAll source).Pairwise fun a b => a.nameSpan.start ≠ b.nameSpan.start :=
    (findAll_sorted source).imp fun hlt => Nat.ne_of_lt hlt
  by_contra hne
  exact hapart.forall ha hb hne h

theorem start_lt_stop (ha : a ∈ findAll source) : a.callSpan.start < a.callSpan.stop := by
  obtain ⟨before, name, blanks, body, rest, hw, rfl⟩ := mem_findAll_iff.1 ha
  exact hw.start_lt_stop

/-- The arguments and the gaps between them make up the text between the parentheses. -/
theorem fill_arguments (hc : c ∈ findAll source) :
    Argument.Fill source.toList c.argsSpan c.arguments := by
  obtain ⟨before, name, blanks, body, rest, hw, rfl⟩ := mem_findAll_iff.1 hc
  exact hw.fill_arguments

/-- The name of a call comes first and is not empty, then its argument list. -/
theorem spans_in_order (hc : c ∈ findAll source) :
    c.nameSpan.start < c.nameSpan.stop ∧ c.nameSpan.stop < c.argsSpan.start ∧
      c.argsSpan.start ≤ c.argsSpan.stop := by
  obtain ⟨before, name, blanks, body, rest, hw, rfl⟩ := mem_findAll_iff.1 hc
  have hname : byteLength name ≠ 0 := fun hzero => hw.name_ne_nil (byteLength_eq_zero_iff.1 hzero)
  simp only [ofParts, CallShape.ofParts, CallShape.ofBody]
  omega

/-- Arguments stand between the parentheses. -/
theorem argument_within (hc : c ∈ findAll source) {arg : Argument} (harg : arg ∈ c.arguments) :
    arg.span.Within c.argsSpan := by
  obtain ⟨before, name, blanks, body, rest, hw, rfl⟩ := mem_findAll_iff.1 hc
  rw [ofParts] at harg
  split at harg
  · cases harg
  · have hin := Argument.within_of_mem_ofPieces harg
    rwa [Level.join_pieces] at hin

theorem argument_within_call (hc : c ∈ findAll source) {arg : Argument}
    (harg : arg ∈ c.arguments) : arg.span.Within c.callSpan := by
  obtain ⟨hname, hgap, -⟩ := spans_in_order hc
  obtain ⟨hstart, hstop⟩ := argument_within hc harg
  refine ⟨?_, Nat.le_succ_of_le hstop⟩
  show c.nameSpan.start ≤ arg.span.start
  omega

/-- A call starts with a name character and has a parenthesis in it. -/
theorem exists_slice?_callSpan (hc : c ∈ findAll source) :
    ∃ d t, slice? source.toList c.callSpan = some (d :: t) ∧ isNameChar d = true ∧
      '(' ∈ d :: t := by
  obtain ⟨before, name, blanks, body, rest, hw, rfl⟩ := mem_findAll_iff.1 hc
  obtain ⟨d, t, htext, hd⟩ := hw.exists_callText_eq_cons
  refine ⟨d, t, ?_, hd, ?_⟩
  · rw [hw.source_eq_callText, callSpan_ofParts, ← htext]
    exact slice?_append before (callText name blanks body) rest
  · rw [← htext, callText]
    simp

/-! ## The spans of two calls -/

/-- A later call stands behind an earlier one or in one of its arguments. -/
theorem behind_or_in_argument (ha : a ∈ findAll source) (hb : b ∈ findAll source)
    (hlt : a.nameSpan.start < b.nameSpan.start) :
    a.callSpan.stop ≤ b.nameSpan.start ∨ ∃ arg ∈ a.arguments, b.callSpan.Within arg.span := by
  obtain ⟨before, name, blanks, body, rest, hwa, rfl⟩ := mem_findAll_iff.1 ha
  obtain ⟨before', name', blanks', body', rest', hwb, rfl⟩ := mem_findAll_iff.1 hb
  rcases hwa.behind_or_inside hwb hlt with ⟨u, hu⟩ | ⟨u, v, hu, hbody⟩
  · exact Or.inl (stop_callSpan_le_of_behind hu name' blanks' body')
  · exact Or.inr (hwa.exists_argument_of_inside hwb hu hbody)

/-- A call whose name reaches into an argument of another call lies inside the argument. -/
theorem within_argument_of_name (hc : c ∈ findAll source) (hb : b ∈ findAll source)
    {arg : Argument} (harg : arg ∈ c.arguments) {i : Nat} (hstart : b.nameSpan.start ≤ i)
    (hstop : i < b.nameSpan.stop) (hfrom : arg.span.start ≤ i) (hto : i < arg.span.stop) :
    b.callSpan.Within arg.span := by
  obtain ⟨hleft, hright⟩ := argument_within hc harg
  obtain ⟨hname, hgap, -⟩ := spans_in_order hc
  obtain ⟨-, hgap', hargs'⟩ := spans_in_order hb
  rcases Nat.lt_trichotomy b.nameSpan.start c.nameSpan.start with hlt | heq | hlt
  · -- An earlier name ends in front of the other call.
    rcases behind_or_in_argument hb hc hlt with hbehind | ⟨other, hother, hwithin⟩
    · have hcall : b.argsSpan.stop + 1 ≤ c.nameSpan.start := hbehind
      omega
    · have hother' := (argument_within hb hother).1
      have hcall : other.span.start ≤ c.nameSpan.start := hwithin.1
      omega
  · obtain rfl := eq_of_start_eq hb hc heq
    omega
  · rcases behind_or_in_argument hc hb hlt with hbehind | ⟨other, hother, hwithin⟩
    · have hcall : c.argsSpan.stop + 1 ≤ b.nameSpan.start := hbehind
      omega
    · -- The name lies in one argument only.
      have hcall : other.span.start ≤ b.nameSpan.start := hwithin.1
      have hcall' : b.argsSpan.stop + 1 ≤ other.span.stop := hwithin.2
      obtain rfl : other = arg :=
        Argument.eq_of_meets (fill_arguments hc).ordered hother harg (by omega) (by omega)
      exact hwithin

end CallSite

end FlowExpr
