import FlowExpr.Proofs.Call.ArgumentList
import FlowExpr.Proofs.Text.Bytes

/-!
# How calls lie to each other

Two calls of a text never overlap halfway: the later one starts behind the earlier one, or it lies
inside one of its arguments (`findAll_forest`).

The first half is about where a name can start. It does not start inside another name, and not
among the blanks or at the parenthesis behind one, so a later name stands behind the earlier call's
opening parenthesis.

The second half is about what a reader of the outer call sees of the inner one. Its text is
*quiet*: between its parentheses one more parenthesis is open, and in front of them there is
neither closer nor comma. So the outer call does not end there and is not cut there, and the whole
text stays in one piece. It starts with a name character and ends with a parenthesis, so that
trimming the piece leaves it alone.
-/

namespace FlowExpr

open Text

/-! ## Quiet texts -/

theorem Quote.parenBalance_of_ne {q : Quote} {cs : List Char} (ho : ∀ c ∈ cs, c ≠ '(')
    (hc : ∀ c ∈ cs, c ≠ ')') : q.parenBalance cs = 0 := by
  induction cs generalizing q with
  | nil => rfl
  | cons c cs ih =>
    rw [Quote.parenBalance_cons,
      Quote.parenChange_of_ne (ho c List.mem_cons_self) (hc c List.mem_cons_self), Int.zero_add]
    exact ih (fun d hd => ho d (List.mem_cons_of_mem _ hd))
      fun d hd => hc d (List.mem_cons_of_mem _ hd)

namespace Level

/-- The character stands outside of all inner parentheses and is of the kinds that end an
argument. -/
def mayEnd (l : Level) (c : Char) : Bool := l.inner = 0 && (c = ')' || c = ',')

/-- Nothing in the text ends an argument of the parenthesis at hand. -/
def Quiet (l : Level) (cs : List Char) : Prop := Text.Uncut next mayEnd l cs

variable {l : Level} {cs : List Char}

theorem Quiet.uncut_closes (h : l.Quiet cs) : Text.Uncut next closes l cs := by
  refine Text.Uncut.mono next mayEnd ?_ h
  intro l c hc
  obtain ⟨-, rfl, hi⟩ := closes_iff.1 hc
  simp [mayEnd, hi]

theorem Quiet.uncut_cuts (h : l.Quiet cs) : Text.Uncut next cuts l cs := by
  refine Text.Uncut.mono next mayEnd ?_ h
  intro l c hc
  obtain ⟨-, rfl, hi, -⟩ := cuts_iff.1 hc
  simp [mayEnd, hi]

theorem quiet_of_ne (hp : ∀ c ∈ cs, c ≠ ')') (hc : ∀ c ∈ cs, c ≠ ',') : l.Quiet cs := by
  intro u c v hu
  have hmem : c ∈ cs := by
    rw [hu]
    simp
  simp [mayEnd, hp c hmem, hc c hmem]

/-- With one more parenthesis open, what it encloses is quiet, and so is its closer. -/
theorem Enclosed.quiet {body : List Char} (h : Enclosed body) (hq : l.quote = {})
    (hi : 0 < l.inner) : l.Quiet (body ++ [')']) := by
  refine (Text.uncut_append next mayEnd).2 ⟨?_, ?_⟩
  · intro u c v hu
    have hnonneg := h.zero_le_parenBalance hu
    have hinner : (l.after u).inner ≠ 0 := by
      rw [inner_after, hq]
      omega
    show (l.after u).mayEnd c = false
    simp [mayEnd, hinner]
  · have hinner : (l.after body).inner ≠ 0 := by
      rw [inner_after, hq, h.parenBalance_eq_zero]
      omega
    refine (Text.uncut_cons next mayEnd).2 ⟨?_, Text.uncut_nil next mayEnd _⟩
    show (l.after body).mayEnd ')' = false
    simp [mayEnd, hinner]

end Level

/-! ## The text of a call -/

theorem isBlank_of_isNameChar {c : Char} (h : isNameChar c = true) : isBlank c = false := by
  have hrange := toNat_of_isNameChar h
  simp only [isBlank, Bool.or_eq_false_iff, Bool.and_eq_false_iff, decide_eq_false_iff_not]
  omega

/-- A call from its name through its closing parenthesis. -/
def callText (name blanks body : List Char) : List Char :=
  name ++ (blanks ++ '(' :: (body ++ [')']))

namespace WrittenCall

variable {source before name blanks body rest : List Char}

theorem source_eq_callText (h : WrittenCall source before name blanks body rest) :
    source = before ++ (callText name blanks body ++ rest) := by
  rw [h.source_eq, callText]
  simp

/-- A call starts with a name character. -/
theorem exists_callText_eq_cons (h : WrittenCall source before name blanks body rest) :
    ∃ c t, callText name blanks body = c :: t ∧ isNameChar c = true := by
  obtain ⟨c, t, hname⟩ := List.exists_cons_of_ne_nil h.name_ne_nil
  refine ⟨c, t ++ (blanks ++ '(' :: (body ++ [')'])), ?_, ?_⟩
  · rw [callText, hname]
    rfl
  · exact h.name_chars c (by rw [hname]; exact List.mem_cons_self)

theorem after_front (h : WrittenCall source before name blanks body rest) :
    Quote.after {} (CallShape.front before name blanks) = {} := by
  have hstruct : (Quote.after {} (before ++ (name ++ blanks))).isStructural '(' = true :=
    Quote.isStructural_of_outside (inside_after_name h.outside h.name_chars h.blank_chars)
      (by decide) (by decide)
  have hfront : CallShape.front before name blanks = (before ++ (name ++ blanks)) ++ ['('] := by
    simp [CallShape.front]
  rw [hfront, Quote.after_append]
  exact Quote.next_of_isStructural hstruct

/-- A reader outside of strings hears nothing of a call that it passes. -/
theorem quiet_callText (h : WrittenCall source before name blanks body rest) {l : Level}
    (hq : l.quote.inside = false) (hi : 0 ≤ l.inner) : l.Quiet (callText name blanks body) := by
  have hne : ∀ d, isNameChar d = false → isAsciiBlank d = false → ∀ c ∈ name ++ blanks, c ≠ d :=
    fun d hd hd' => ne_of_mem_name_blanks h.name_chars h.blank_chars hd hd'
  have hsplit : callText name blanks body = (name ++ blanks) ++ '(' :: (body ++ [')']) := by
    simp [callText]
  rw [hsplit]
  refine (Text.uncut_append _ _).2 ⟨?_, (Text.uncut_cons _ _).2 ⟨?_, ?_⟩⟩
  · exact Level.quiet_of_ne (hne ')' (by decide) (by decide)) (hne ',' (by decide) (by decide))
  · simp [Level.mayEnd]
  · -- Behind the opening parenthesis the string state is fresh and one more level is open.
    have hstruct : (l.after (name ++ blanks)).quote.isStructural '(' = true := by
      rw [Level.quote_after]
      exact Quote.isStructural_of_outside
        (Quote.inside_after_of_ne hq (hne '\'' (by decide) (by decide))) (by decide) (by decide)
    have hinner : (l.after (name ++ blanks)).inner = l.inner := by
      rw [Level.inner_after, Quote.parenBalance_of_ne (hne '(' (by decide) (by decide))
        (hne ')' (by decide) (by decide)), Int.add_zero]
    refine h.enclosed.quiet (Quote.next_of_isStructural hstruct) ?_
    show 0 < (l.after (name ++ blanks)).inner + (l.after (name ++ blanks)).quote.parenChange '('
    have hchange : (l.after (name ++ blanks)).quote.parenChange '(' = 1 := by
      rw [Quote.parenChange, if_pos hstruct, if_pos rfl]
    omega

end WrittenCall

/-! ## Where a later call starts -/

namespace WrittenCall

variable {source before name blanks body rest : List Char}

/-- The text in front of a call does not end with name characters. -/
theorem not_behind_nameChars (h : WrittenCall source before name blanks body rest)
    {x z : List Char} (hbefore : before = x ++ z) (hz : z ≠ []) :
    ¬ ∀ c ∈ z, isNameChar c = true := by
  intro hall
  have hlast := h.boundary
  rw [hbefore, List.getLast?_append_of_ne_nil _ hz, List.getLast?_eq_some_getLast hz] at hlast
  have hchar := hall _ (List.getLast_mem hz)
  simp [hchar] at hlast

variable {before' name' blanks' body' rest' : List Char}

/-- A call that starts later starts behind the opening parenthesis. -/
theorem exists_front_append (ha : WrittenCall source before name blanks body rest)
    (hb : WrittenCall source before' name' blanks' body' rest')
    (hlt : byteLength before < byteLength before') :
    ∃ u, before' = CallShape.front before name blanks ++ u ∧
      body ++ ')' :: rest = u ++ (callText name' blanks' body' ++ rest') := by
  have heq : before ++ (name ++ (blanks ++ '(' :: (body ++ ')' :: rest))) =
      before' ++ (callText name' blanks' body' ++ rest') := by
    rw [← ha.source_eq]
    exact hb.source_eq_callText
  obtain ⟨z, hz, hbefore, hbehind⟩ := exists_append_of_byteLength_lt heq hlt
  obtain ⟨c, t, htext, hc⟩ := hb.exists_callText_eq_cons
  rw [htext] at hbehind ⊢
  rcases List.append_eq_append_iff.1 hbehind with ⟨w, rfl, hblanks⟩ | ⟨w, hname, -⟩
  · rcases List.append_eq_append_iff.1 hblanks with ⟨w, rfl, hparen⟩ | ⟨w, hw, htail⟩
    · cases w with
      | nil =>
        -- At the opening parenthesis itself.
        obtain ⟨rfl, -⟩ := List.cons.inj hparen
        exact absurd hc (by decide)
      | cons d u =>
        obtain ⟨rfl, hu⟩ := List.cons.inj hparen
        refine ⟨u, ?_, hu⟩
        rw [hbefore, CallShape.front]
        simp
    · -- Among the blanks.
      have hw' : ∀ d ∈ w, isAsciiBlank d = true := by
        intro d hd
        exact ha.blank_chars d (by rw [hw]; exact List.mem_append_right _ hd)
      have hhead := CallShape.isNameChar_head_of_blanks hw' htail.symm
      rw [hc] at hhead
      exact Bool.noConfusion hhead
  · -- Inside the name.
    refine absurd ?_ (hb.not_behind_nameChars hbefore hz)
    intro d hd
    exact ha.name_chars d (by rw [hname]; exact List.mem_append_left _ hd)

/-- The reader of an argument list finds the text of a call in it quiet. -/
theorem quiet_of_inside (ha : WrittenCall source before name blanks body rest)
    (hb : WrittenCall source before' name' blanks' body' rest') {u w : List Char}
    (hbefore : before' = CallShape.front before name blanks ++ u) (hbody : body = u ++ w) :
    (({} : Level).after u).Quiet (callText name' blanks' body') := by
  refine hb.quiet_callText ?_ ?_
  · have hout := hb.outside
    rw [hbefore, Quote.after_append, ha.after_front] at hout
    rw [Level.quote_after]
    exact hout
  · rw [Level.inner_after, Int.zero_add]
    exact ha.enclosed.zero_le_parenBalance hbody

/-- A later call stands behind an earlier one or between its parentheses. -/
theorem behind_or_inside (ha : WrittenCall source before name blanks body rest)
    (hb : WrittenCall source before' name' blanks' body' rest')
    (hlt : byteLength before < byteLength before') :
    (∃ u, before' = CallShape.front before name blanks ++ (body ++ ')' :: u)) ∨
      ∃ u v, before' = CallShape.front before name blanks ++ u ∧
        body = u ++ (callText name' blanks' body' ++ v) := by
  obtain ⟨u, hbefore, heq⟩ := ha.exists_front_append hb hlt
  obtain ⟨c, t, htext, hc⟩ := hb.exists_callText_eq_cons
  rcases List.append_eq_append_iff.1 heq with ⟨w, rfl, hw⟩ | ⟨w, hbody, hw⟩
  · cases w with
    | nil =>
      rw [htext] at hw
      obtain ⟨rfl, -⟩ := List.cons.inj hw
      exact absurd hc (by decide)
    | cons d w =>
      obtain ⟨rfl, -⟩ := List.cons.inj hw
      exact Or.inl ⟨w, hbefore⟩
  · right
    rcases List.append_eq_append_iff.1 hw with ⟨v, rfl, -⟩ | ⟨v, hv, hrest⟩
    · exact ⟨u, v, hbefore, hbody⟩
    · cases v with
      | nil =>
        rw [List.append_nil] at hv
        exact ⟨u, [], hbefore, by rw [hbody, hv, List.append_nil]⟩
      | cons d v =>
        -- The earlier call would end inside the later one, whose text is quiet.
        obtain ⟨rfl, -⟩ := List.cons.inj hrest
        have hquiet : ((({} : Level).after u).after w).closes ')' = false :=
          (ha.quiet_of_inside hb hbefore hbody).uncut_closes w ')' v hv
        have hends := ha.enclosed.ends
        rw [hbody, Level.after_append, hquiet] at hends
        exact Bool.noConfusion hends

end WrittenCall

/-! ## Inside one argument -/

theorem CallSite.callSpan_ofParts (before name blanks body : List Char) :
    (CallSite.ofParts before name blanks body).callSpan =
      ⟨byteLength before, byteLength before + byteLength (callText name blanks body)⟩ := by
  have hstop := CallShape.stop_args_ofParts before name blanks body
  show (⟨byteLength before, (CallShape.ofParts before name blanks body).args.stop + 1⟩ : Span) = _
  rw [hstop]
  simp only [CallShape.front, callText, byteLength_append, byteLength_cons, byteLength_nil,
    utf8Size_openParen, utf8Size_closeParen, Span.mk.injEq, true_and]
  omega

theorem CallSite.argsSpan_ofParts (before name blanks body : List Char) :
    (CallSite.ofParts before name blanks body).argsSpan =
      ⟨byteLength (CallShape.front before name blanks),
        byteLength (CallShape.front before name blanks) + byteLength body⟩ := by
  rw [← CallShape.start_args_ofParts before name blanks body]
  rfl

/-- A call behind another one starts where that one has ended. -/
theorem CallSite.stop_callSpan_le_of_behind {before name blanks body before' u : List Char}
    (hu : before' = CallShape.front before name blanks ++ (body ++ ')' :: u))
    (name' blanks' body' : List Char) :
    (CallSite.ofParts before name blanks body).callSpan.stop ≤
      (CallSite.ofParts before' name' blanks' body').nameSpan.start := by
  show (CallSite.ofParts before name blanks body).argsSpan.stop + 1 ≤ byteLength before'
  simp only [CallSite.argsSpan_ofParts, hu, byteLength_append, byteLength_cons,
    utf8Size_closeParen]
  omega

theorem CallSite.callSpan_within_of_inside
    {before name blanks body before' name' blanks' body' u v : List Char}
    (hu : before' = CallShape.front before name blanks ++ u)
    (hbody : body = u ++ (callText name' blanks' body' ++ v)) :
    (CallSite.ofParts before' name' blanks' body').callSpan.Within
      (CallSite.ofParts before name blanks body).argsSpan := by
  have hlen : byteLength body = byteLength u +
      (byteLength (callText name' blanks' body') + byteLength v) := by
    rw [hbody, byteLength_append, byteLength_append]
  rw [CallSite.argsSpan_ofParts, CallSite.callSpan_ofParts, hu, byteLength_append]
  simp only [Span.Within]
  omega

namespace WrittenCall

variable {source before name blanks body rest : List Char}
variable {before' name' blanks' body' rest' : List Char}

/-- A call between the parentheses of another one lies inside one of its arguments. -/
theorem exists_argument_of_inside (ha : WrittenCall source before name blanks body rest)
    (hb : WrittenCall source before' name' blanks' body' rest') {u v : List Char}
    (hbefore : before' = CallShape.front before name blanks ++ u)
    (hbody : body = u ++ (callText name' blanks' body' ++ v)) :
    ∃ arg ∈ (CallSite.ofParts before name blanks body).arguments,
      (CallSite.ofParts before' name' blanks' body').callSpan.Within arg.span := by
  obtain ⟨c, t, htext, hc⟩ := hb.exists_callText_eq_cons
  have hend : callText name' blanks' body' = (name' ++ (blanks' ++ '(' :: body')) ++ [')'] := by
    simp [callText]
  -- The text of the inner call is not cut, so that it stays in one piece.
  obtain ⟨ps, x, y, qs, hu, hpieces⟩ := exists_pieces_append_uncut Level.next Level.cuts
    Level.cuts_eq_comma (ha.quiet_of_inside hb hbefore hbody).uncut_cuts v
  rw [← hbody] at hpieces
  change Level.pieces {} body = _ at hpieces
  have hblank : ¬ isAllBlank body = true := by
    intro h
    have hc' := List.all_eq_true.1 h c (by rw [hbody, htext]; simp)
    rw [isBlank_of_isNameChar hc] at hc'
    exact Bool.noConfusion hc'
  refine ⟨Argument.ofPiece (byteLength (CallShape.front before name blanks) +
    byteLength (closedFields ',' ps)) (x ++ (callText name' blanks' body' ++ y)), ?_, ?_⟩
  · rw [CallSite.ofParts, if_neg hblank, CallShape.start_args_ofParts, hpieces]
    exact Argument.mem_ofPieces_iff.2 ⟨ps, _, qs, rfl, rfl⟩
  · have hpos : byteLength before' = byteLength (CallShape.front before name blanks) +
        byteLength (closedFields ',' ps) + byteLength x := by
      rw [hbefore, hu, byteLength_append, byteLength_append, Nat.add_assoc]
    rw [CallSite.callSpan_ofParts, hpos]
    exact Argument.within_ofPiece (isBlank_of_isNameChar hc) (by decide) htext hend _ x y

theorem start_lt_stop (h : WrittenCall source before name blanks body rest) :
    (CallSite.ofParts before name blanks body).callSpan.start <
      (CallSite.ofParts before name blanks body).callSpan.stop := by
  obtain ⟨c, t, htext, -⟩ := h.exists_callText_eq_cons
  have hpos := c.utf8Size_pos
  rw [CallSite.callSpan_ofParts, htext, byteLength_cons]
  show byteLength before < byteLength before + (c.utf8Size + byteLength t)
  omega

end WrittenCall

/-- Spans in order have at most one that holds a given stretch. -/
theorem Argument.existsUnique_within {args : List Argument}
    (hsorted : args.Pairwise fun x y => x.span.stop < y.span.start) {s : Span}
    (hs : s.start ≤ s.stop) (h : ∃ arg ∈ args, s.Within arg.span) :
    ∃! i : Fin args.length, s.Within (args.get i).span := by
  obtain ⟨arg, harg, hin⟩ := h
  obtain ⟨i, rfl⟩ := List.get_of_mem harg
  refine ⟨i, hin, ?_⟩
  intro j hj
  rw [List.pairwise_iff_get] at hsorted
  rcases Nat.lt_trichotomy j i with hlt | heq | hlt
  · have hgap := hsorted j i hlt
    have hstart := hin.1
    have hstop := hj.2
    omega
  · exact Fin.ext heq
  · have hgap := hsorted i j hlt
    have hstart := hj.1
    have hstop := hin.2
    omega

/-- **Calls form a forest.** They come in the order of their names. Of two calls the later one
stands behind the earlier one or between its parentheses, and then it lies inside exactly one of
its arguments. -/
theorem findAll_forest (source : String) :
    (CallSite.findAll source).Pairwise fun a b =>
      a.nameSpan.start < b.nameSpan.start ∧
        (a.callSpan.stop ≤ b.nameSpan.start ∨ b.callSpan.Within a.argsSpan) ∧
        (b.callSpan.Within a.argsSpan →
          ∃! i : Fin a.arguments.length, b.callSpan.Within (a.arguments.get i).span) := by
  have hsorted : (CallSite.findAll source).Pairwise fun a b =>
      a.nameSpan.start < b.nameSpan.start := by
    rw [CallSite.findAll, List.pairwise_map]
    exact CallShape.findAll_sorted source.toList
  refine hsorted.imp_of_mem ?_
  intro a b hmema hmemb hlt
  obtain ⟨before, name, blanks, body, rest, ha, rfl⟩ := CallSite.mem_findAll_iff.1 hmema
  obtain ⟨before', name', blanks', body', rest', hb, rfl⟩ := CallSite.mem_findAll_iff.1 hmemb
  have hinner := hb.start_lt_stop
  refine ⟨hlt, ?_⟩
  rcases ha.behind_or_inside hb hlt with ⟨u, hu⟩ | ⟨u, v, hu, hbody⟩
  · have hbehind := CallSite.stop_callSpan_le_of_behind hu name' blanks' body'
    refine ⟨Or.inl hbehind, ?_⟩
    intro hin
    -- A call that starts behind another one does not end inside it.
    have hend := hin.2
    change (CallSite.ofParts before name blanks body).argsSpan.stop + 1 ≤
      (CallSite.ofParts before' name' blanks' body').callSpan.start at hbehind
    omega
  · refine ⟨Or.inr (CallSite.callSpan_within_of_inside hu hbody), ?_⟩
    intro _
    exact Argument.existsUnique_within ha.wellCut.ordered (Nat.le_of_lt hinner)
      (ha.exists_argument_of_inside hb hu hbody)

end FlowExpr
