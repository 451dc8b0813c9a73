import FlowExpr.Call.Arguments
import FlowExpr.Proofs.Call.Argument
import FlowExpr.Proofs.Call.Written

/-!
# Which commas separate arguments

Two readers cut an argument list: the pass, which does it while it looks for calls, and
`Argument.cutList`, which is given the list by itself. Both cut at commas outside of strings at
which as many parentheses were opened as closed. Beyond that they count brackets and braces, and
there they differ:

* the pass counts those outside of all inner parentheses (`ownLevel`), and
* `Argument.cutList` counts all of them (`anyLevel`).

`commaCuts` says for both which commas cut, from nothing but the text in front of the comma.
`wellCut_of_mem_findAll` is what follows for the calls of a text: the arguments are the trimmed
pieces between these commas, and nothing of the text gets lost. `arguments_eq_cutList_iff` says when
the two readers agree: exactly when no comma separates the two ways of counting.
-/

namespace FlowExpr

open Text

/-! ## The call site of a written call -/

namespace CallShape

/-- A call up to and with its opening parenthesis. -/
def front (before name blanks : List Char) : List Char := before ++ (name ++ (blanks ++ ['(']))

theorem start_args_ofParts (before name blanks body : List Char) :
    (ofParts before name blanks body).args.start = byteLength (front before name blanks) := by
  simp [ofParts, ofBody, front, Nat.add_assoc]

theorem stop_args_ofParts (before name blanks body : List Char) :
    (ofParts before name blanks body).args.stop =
      byteLength (front before name blanks) + byteLength body := by
  rw [← start_args_ofParts before name blanks body]
  rfl

end CallShape

namespace WrittenCall

variable {source before name blanks body rest : List Char}

/-- The argument list and the text around it. -/
theorem source_eq_body (h : WrittenCall source before name blanks body rest) :
    source = CallShape.front before name blanks ++ (body ++ ')' :: rest) := by
  rw [h.source_eq, CallShape.front]
  simp

theorem slice?_args (h : WrittenCall source before name blanks body rest) :
    slice? source (CallShape.ofParts before name blanks body).args = some body :=
  Text.slice?_of_eq h.source_eq_body (CallShape.start_args_ofParts before name blanks body)
    (CallShape.stop_args_ofParts before name blanks body)

end WrittenCall

namespace CallSite

/-- The call site of a call written with these parts. -/
def ofParts (before name blanks body : List Char) : CallSite where
  name := String.ofList name
  nameSpan := (CallShape.ofParts before name blanks body).name
  argsSpan := (CallShape.ofParts before name blanks body).args
  arguments :=
    if isAllBlank body then []
    else Argument.ofPieces (CallShape.ofParts before name blanks body).args.start
      (Level.pieces {} body)

theorem resolve_ofParts {source before name blanks body rest : List Char}
    (h : WrittenCall source before name blanks body rest) :
    (CallShape.ofParts before name blanks body).resolve source =
      ofParts before name blanks body := by
  have hname : slice source (CallShape.ofParts before name blanks body).name = name := by
    rw [h.source_eq, slice]
    exact congrArg (Option.getD · []) (slice?_append before name _)
  have hargs : slice source (CallShape.ofParts before name blanks body).args = body := by
    rw [slice, h.slice?_args, Option.getD_some]
  have hsegments : (CallShape.ofParts before name blanks body).segments.map
      (Argument.ofSegment source) = Argument.ofPieces
        (CallShape.ofParts before name blanks body).args.start (Level.pieces {} body) := by
    have hmap := Argument.map_ofSegment_ofPieces (CallShape.front before name blanks)
      (')' :: rest) (Level.pieces_ne_nil {} body)
    rw [Level.join_pieces, ← h.source_eq_body,
      ← CallShape.start_args_ofParts before name blanks body] at hmap
    exact hmap
  simp only [CallShape.resolve, hname, hargs, hsegments]
  rfl

/-- The calls of a text, with their arguments, are those that are written out in it. -/
theorem mem_findAll_iff {source : String} {c : CallSite} :
    c ∈ findAll source ↔
      ∃ before name blanks body rest,
        WrittenCall source.toList before name blanks body rest ∧
          c = ofParts before name blanks body := by
  rw [findAll, List.mem_map]
  constructor
  · intro h
    obtain ⟨shape, hshape, rfl⟩ := h
    obtain ⟨before, name, blanks, body, rest, hw, rfl⟩ := CallShape.mem_findAll_iff.1 hshape
    exact ⟨before, name, blanks, body, rest, hw, resolve_ofParts hw⟩
  · intro h
    obtain ⟨before, name, blanks, body, rest, hw, rfl⟩ := h
    exact ⟨_, CallShape.mem_findAll_iff.2 ⟨before, name, blanks, body, rest, hw, rfl⟩,
      resolve_ofParts hw⟩

end CallSite

/-! ## Counting brackets -/

/-- What a structural character adds to the count of a pair of brackets. -/
def bracketChange (opening closing c : Char) : Int :=
  if c = opening then 1 else if c = closing then -1 else 0

/-- Opened minus closed brackets of a text, those in strings left out, and of the others those at
which `counted` accepts the number of open parentheses. -/
def bracketNet (counted : Int → Bool) (opening closing : Char) (q : Quote) (inner : Int) :
    List Char → Int
  | [] => 0
  | c :: cs =>
    (if q.isStructural c && counted inner then bracketChange opening closing c else 0) +
      bracketNet counted opening closing (q.next c) (inner + q.parenChange c) cs

/-- Count outside of all inner parentheses only. -/
def ownLevel (inner : Int) : Bool := inner = 0

/-- Count everywhere. -/
def anyLevel (_ : Int) : Bool := true

/-- Whether a comma behind the text `u` separates arguments: it stands outside of strings, and
parentheses, brackets and braces are all balanced in front of it. -/
def commaCuts (counted : Int → Bool) (u : List Char) : Bool :=
  !(Quote.after {} u).inside && Quote.parenBalance {} u = 0 &&
    bracketNet counted '[' ']' {} 0 u = 0 && bracketNet counted '{' '}' {} 0 u = 0

theorem commaCuts_iff {counted : Int → Bool} {u : List Char} :
    commaCuts counted u = true ↔
      (Quote.after {} u).inside = false ∧ Quote.parenBalance {} u = 0 ∧
        bracketNet counted '[' ']' {} 0 u = 0 ∧ bracketNet counted '{' '}' {} 0 u = 0 := by
  simp [commaCuts, and_assoc]

/-- The pieces of a text between the commas that are singled out by the text in front of them. -/
def cutCommas (cuts : List Char → Bool) (cs : List Char) : List (List Char) :=
  pieces (fun u c => u ++ [c]) (fun u c => c = ',' && cuts u) [] cs

theorem join_cutCommas (cuts : List Char → Bool) (cs : List Char) :
    joinFields ',' (cutCommas cuts cs) = cs := by
  refine join_pieces _ _ ?_ [] cs
  intro u c h
  simp only [Bool.and_eq_true, decide_eq_true_eq] at h
  exact h.1

theorem foldl_append_singleton (u a : List Char) :
    u.foldl (fun u c => u ++ [c]) a = a ++ u := by
  induction u generalizing a with
  | nil => simp
  | cons c u ih => simp [ih]

/-- A reader cuts at these commas if it does so at each of them. -/
theorem pieces_eq_cutCommas {σ : Type} (next : σ → Char → σ) (cut : σ → Char → Bool) (s : σ)
    (cuts : List Char → Bool)
    (h : ∀ u c, cut (u.foldl next s) c = (decide (c = ',') && cuts u)) (cs : List Char) :
    pieces next cut s cs = cutCommas cuts cs := by
  rw [cutCommas, pieces_eq_iff]
  intro u c v _
  rw [h, foldl_append_singleton, List.nil_append]

namespace Depth

theorem track_parens (n : Depth) (c : Char) :
    (n.track c).parens = n.parens + bracketChange '(' ')' c := by
  unfold track bracketChange
  split_ifs <;> simp_all [Int.sub_eq_add_neg]

theorem track_brackets (n : Depth) (c : Char) :
    (n.track c).brackets = n.brackets + bracketChange '[' ']' c := by
  unfold track bracketChange
  split_ifs <;> simp_all [Int.sub_eq_add_neg]

theorem track_braces (n : Depth) (c : Char) :
    (n.track c).braces = n.braces + bracketChange '{' '}' c := by
  unfold track bracketChange
  split_ifs <;> simp_all [Int.sub_eq_add_neg]

theorem isLevel_iff {n : Depth} :
    n.isLevel = true ↔ n.parens = 0 ∧ n.brackets = 0 ∧ n.braces = 0 := by
  simp [isLevel, and_assoc]

end Depth

/-! ## The commas of the pass -/

namespace Level

/-- What a level counts as a bracket or brace of its own is what it counts for each kind. -/
theorem depth_next (l : Level) (c : Char) :
    (l.next c).depth.parens = l.depth.parens ∧
      (l.next c).depth.brackets = l.depth.brackets +
        (if l.quote.isStructural c && ownLevel l.inner then bracketChange '[' ']' c else 0) ∧
      (l.next c).depth.braces = l.depth.braces +
        (if l.quote.isStructural c && ownLevel l.inner then bracketChange '{' '}' c else 0) := by
  by_cases hown : (l.quote.isStructural c && ownLevel l.inner) = true
  · by_cases hb : isBracket c = true
    · have hdepth : (l.next c).depth = l.depth.track c := by
        unfold ownLevel at hown
        simp only [next, hown, hb, Bool.and_self, if_true]
      have hparen : bracketChange '(' ')' c = 0 := by
        simp only [isBracket, Bool.or_eq_true, decide_eq_true_eq] at hb
        rcases hb with ((rfl | rfl) | rfl) | rfl <;> rfl
      rw [hdepth, Depth.track_parens, Depth.track_brackets, Depth.track_braces, hparen, if_pos hown,
        if_pos hown]
      exact ⟨Int.add_zero _, rfl, rfl⟩
    · have hdepth : (l.next c).depth = l.depth := by simp [next, hb]
      simp only [isBracket, Bool.or_eq_true, decide_eq_true_eq, not_or] at hb
      obtain ⟨⟨⟨h1, h2⟩, h3⟩, h4⟩ := hb
      rw [hdepth]
      simp [bracketChange, h1, h2, h3, h4]
  · have hdepth : (l.next c).depth = l.depth := by
      unfold ownLevel at hown
      simp only [next, hown, Bool.false_and, Bool.false_eq_true, if_false]
    rw [hdepth, if_neg hown, if_neg hown, Int.add_zero, Int.add_zero]
    exact ⟨rfl, rfl, rfl⟩

theorem depth_after (l : Level) (u : List Char) :
    (l.after u).depth.parens = l.depth.parens ∧
      (l.after u).depth.brackets =
        l.depth.brackets + bracketNet ownLevel '[' ']' l.quote l.inner u ∧
      (l.after u).depth.braces =
        l.depth.braces + bracketNet ownLevel '{' '}' l.quote l.inner u := by
  induction u generalizing l with
  | nil => simp [bracketNet]
  | cons c u ih =>
    obtain ⟨hp, hk, hc⟩ := ih (l.next c)
    obtain ⟨hp', hk', hc'⟩ := depth_next l c
    rw [after_cons, hp, hk, hc, hp', hk', hc']
    exact ⟨rfl, Int.add_assoc _ _ _, Int.add_assoc _ _ _⟩

theorem cuts_after (u : List Char) (c : Char) :
    (({} : Level).after u).cuts c = (decide (c = ',') && commaCuts ownLevel u) := by
  obtain ⟨hp, hk, hc⟩ := depth_after {} u
  have hlevel : (({} : Level).after u).depth.isLevel = true ↔
      bracketNet ownLevel '[' ']' {} 0 u = 0 ∧ bracketNet ownLevel '{' '}' {} 0 u = 0 := by
    rw [Depth.isLevel_iff, hp, hk, hc]
    simp
  rw [Bool.eq_iff_iff, cuts_iff, hlevel, quote_after, inner_after, Bool.and_eq_true,
    commaCuts_iff, decide_eq_true_eq, Int.zero_add]
  exact and_left_comm

/-- The pass cuts an argument list at the commas of its own level. -/
theorem pieces_eq_cutCommas (cs : List Char) :
    Level.pieces {} cs = cutCommas (commaCuts ownLevel) cs :=
  FlowExpr.pieces_eq_cutCommas next cuts {} (commaCuts ownLevel) cuts_after cs

end Level

/-! ## The commas of a list by itself -/

namespace ArgumentCutter

/-- String state and counts after one more character. -/
def read (t : Quote × Depth) (c : Char) : Quote × Depth :=
  (t.1.next c, if t.1.isStructural c then t.2.track c else t.2)

/-- The character is a comma that cuts. -/
def cuts (t : Quote × Depth) (c : Char) : Bool :=
  t.1.isStructural c && (c = ',' && t.2.isLevel)

theorem cuts_eq_comma (t : Quote × Depth) (c : Char) (h : cuts t c = true) : c = ',' := by
  simp only [cuts, Bool.and_eq_true, decide_eq_true_eq] at h
  exact h.2.1

theorem step_of_cuts {s : ArgumentCutter} {c : Char} (h : cuts (s.quote, s.depth) c = true) :
    s.step c =
      { pos := s.pos + 1, quote := s.quote.next c, depth := s.depth, segmentStart := s.pos + 1,
        segments := s.segments ++ [⟨s.segmentStart, s.pos⟩] } := by
  obtain rfl := cuts_eq_comma _ _ h
  simp only [cuts, Bool.and_eq_true] at h
  simp [step, h]

theorem step_of_not_cuts {s : ArgumentCutter} {c : Char}
    (h : cuts (s.quote, s.depth) c = false) :
    s.step c =
      { s with
        pos := s.pos + c.utf8Size
        quote := (read (s.quote, s.depth) c).1
        depth := (read (s.quote, s.depth) c).2 } := by
  by_cases hs : s.quote.isStructural c = true
  · have hc : (decide (c = ',') && s.depth.isLevel) ≠ true := by
      intro hc
      simp only [cuts, hs, hc, Bool.and_self] at h
      exact Bool.noConfusion h
    rw [step, if_pos hs, if_neg hc, read, if_pos hs]
  · rw [step, if_neg hs, read, if_neg hs]

/-- The segments of the cutter are the spans of the pieces. -/
theorem finish_foldl (cs : List Char) (s : ArgumentCutter) :
    (cs.foldl step s).finish =
      s.segments ++
        Span.ofPieces s.segmentStart s.pos (pieces read cuts (s.quote, s.depth) cs) := by
  induction cs generalizing s with
  | nil => simp [finish, Span.ofPieces]
  | cons c cs ih =>
    rw [List.foldl_cons, ih]
    cases hc : cuts (s.quote, s.depth) c with
    | true =>
      obtain rfl := cuts_eq_comma _ _ hc
      have hread : read (s.quote, s.depth) ',' = (s.quote.next ',', s.depth) := by
        unfold read
        split_ifs <;> rfl
      rw [pieces_cons_cut _ _ hc, step_of_cuts hc, hread]
      simp [Span.ofPieces]
    | false =>
      rw [pieces_cons_uncut _ _ hc, Span.ofPieces_prepend _ _ _ (pieces_ne_nil _ _ _ _),
        step_of_not_cuts hc]
      simp

theorem parenChange_eq (q : Quote) (c : Char) :
    q.parenChange c = if q.isStructural c then bracketChange '(' ')' c else 0 := rfl

/-- The counts of the cutter, kind by kind. -/
theorem read_foldl (t : Quote × Depth) (inner : Int) (u : List Char) :
    (u.foldl read t).1 = t.1.after u ∧
      (u.foldl read t).2.parens = t.2.parens + t.1.parenBalance u ∧
      (u.foldl read t).2.brackets = t.2.brackets + bracketNet anyLevel '[' ']' t.1 inner u ∧
      (u.foldl read t).2.braces = t.2.braces + bracketNet anyLevel '{' '}' t.1 inner u := by
  induction u generalizing t inner with
  | nil => simp [bracketNet]
  | cons c u ih =>
    obtain ⟨hq, hp, hk, hc⟩ := ih (read t c) (inner + t.1.parenChange c)
    rw [List.foldl_cons, hq, hp, hk, hc]
    simp only [bracketNet, anyLevel, Bool.and_true, Quote.parenBalance_cons, parenChange_eq]
    by_cases hs : t.1.isStructural c = true
    · simp [read, hs, Depth.track_parens, Depth.track_brackets, Depth.track_braces,
        Int.add_assoc]
    · simp [read, hs]

theorem cuts_foldl (u : List Char) (c : Char) :
    cuts (u.foldl read ({}, {})) c = (decide (c = ',') && commaCuts anyLevel u) := by
  obtain ⟨hq, hp, hk, hc⟩ := read_foldl ({}, {}) 0 u
  have hlevel : (u.foldl read ({}, {})).2.isLevel = true ↔
      Quote.parenBalance {} u = 0 ∧ bracketNet anyLevel '[' ']' {} 0 u = 0 ∧
        bracketNet anyLevel '{' '}' {} 0 u = 0 := by
    rw [Depth.isLevel_iff, hp, hk, hc]
    simp
  have hstruct : Quote.isStructural (Quote.after {} u) ',' = !(Quote.after {} u).inside := by
    simp [Quote.isStructural]
  by_cases hcomma : c = ','
  · subst hcomma
    rw [Bool.eq_iff_iff, Bool.and_eq_true, commaCuts_iff, cuts, hq, hstruct, Bool.and_eq_true,
      Bool.and_eq_true, hlevel]
    simp
  · simp [cuts, hcomma]

/-- A list by itself is cut at the commas that are balanced in all counts. -/
theorem pieces_eq_cutCommas (cs : List Char) :
    pieces read cuts ({}, {}) cs = cutCommas (commaCuts anyLevel) cs :=
  FlowExpr.pieces_eq_cutCommas read cuts ({}, {}) (commaCuts anyLevel) cuts_foldl cs

end ArgumentCutter

/-! ## Arguments of a list by itself -/

namespace Argument

theorem shift_ofPiece (n pos : Nat) (p : List Char) :
    (ofPiece pos p).shift n = ofPiece (pos + n) p := by
  simp only [shift, Span.shift, ofPiece, Argument.mk.injEq, Span.mk.injEq, true_and]
  omega

theorem map_shift_ofPieces (n pos : Nat) (ps : List (List Char)) :
    (ofPieces pos ps).map (·.shift n) = ofPieces (pos + n) ps := by
  induction ps generalizing pos with
  | nil => rfl
  | cons p ps ih =>
    rw [ofPieces_cons, List.map_cons, shift_ofPiece, ih, ofPieces_cons]
    congr 2
    omega

/-- The arguments of a list by itself are those of its pieces. -/
theorem cutList_eq_ofPieces (args : String) (base : Nat) :
    cutList args base =
      if isAllBlank args.toList then []
      else ofPieces base (cutCommas (commaCuts anyLevel) args.toList) := by
  have hmap := map_ofSegment_ofPieces [] []
    (pieces_ne_nil ArgumentCutter.read ArgumentCutter.cuts ({}, {}) args.toList)
  rw [join_pieces _ _ ArgumentCutter.cuts_eq_comma, List.nil_append, List.append_nil,
    byteLength_nil, ArgumentCutter.pieces_eq_cutCommas] at hmap
  have hfinish : (args.toList.foldl ArgumentCutter.step {}).finish =
      Span.ofPieces 0 0 (cutCommas (commaCuts anyLevel) args.toList) := by
    rw [ArgumentCutter.finish_foldl, ← ArgumentCutter.pieces_eq_cutCommas]
    rfl
  have hcut : (args.toList.foldl ArgumentCutter.step {}).finish.map
      (fun raw => (ofSegment args.toList raw).shift base) =
      ofPieces base (cutCommas (commaCuts anyLevel) args.toList) := by
    calc (args.toList.foldl ArgumentCutter.step {}).finish.map
          (fun raw => (ofSegment args.toList raw).shift base)
        = ((Span.ofPieces 0 0 (cutCommas (commaCuts anyLevel) args.toList)).map
            (ofSegment args.toList)).map (shift base) := by
          rw [hfinish, List.map_map]
          rfl
      _ = ofPieces base (cutCommas (commaCuts anyLevel) args.toList) := by
          rw [hmap, map_shift_ofPieces, Nat.zero_add]
  simp only [cutList, hcut]

end Argument

/-! ## The arguments of a call -/

theorem Argument.map_text_ofPieces (pos : Nat) (ps : List (List Char)) :
    (ofPieces pos ps).map (·.text) = ps.map fun p => String.ofList (trim p) := by
  induction ps generalizing pos with
  | nil => rfl
  | cons p ps ih => rw [ofPieces_cons, List.map_cons, ih, List.map_cons, ofPiece]

/-- What the arguments of a call have to do with the text between its parentheses. -/
structure CallSite.WellCut (source : List Char) (c : CallSite) (body : List Char) : Prop where
  body_eq : slice? source c.argsSpan = some body
  nil_iff : c.arguments = [] ↔ isAllBlank body = true
  /-- The arguments are the trimmed pieces between the commas of the call itself. -/
  texts : isAllBlank body = false →
    c.arguments.map (·.text) =
      (cutCommas (commaCuts ownLevel) body).map fun p => String.ofList (trim p)
  text_at : ∀ arg ∈ c.arguments, slice? source arg.span = some arg.text.toList
  ordered : c.arguments.Pairwise fun x y => x.span.stop < y.span.start
  gaps : c.arguments.IsChain fun x y =>
    ∃ gap, slice? source ⟨x.span.stop, y.span.start⟩ = some gap ∧ Argument.IsGap gap
  blank_before : ∀ arg, c.arguments.head? = some arg →
    ∃ w, slice? source ⟨c.argsSpan.start, arg.span.start⟩ = some w ∧ isAllBlank w = true
  blank_behind : ∀ arg, c.arguments.getLast? = some arg →
    ∃ w, slice? source ⟨arg.span.stop, c.argsSpan.stop⟩ = some w ∧ isAllBlank w = true

/-- The arguments of a written call are the pieces of the text between its parentheses. -/
theorem CallSite.arguments_ofParts (before name blanks body : List Char) :
    (ofParts before name blanks body).arguments =
      if isAllBlank body then []
      else Argument.ofPieces (byteLength (CallShape.front before name blanks))
        (cutCommas (commaCuts ownLevel) body) := by
  rw [ofParts, CallShape.start_args_ofParts, Level.pieces_eq_cutCommas]

theorem WrittenCall.fill_arguments {source before name blanks body rest : List Char}
    (h : WrittenCall source before name blanks body rest) :
    Argument.Fill source (CallSite.ofParts before name blanks body).argsSpan
      (CallSite.ofParts before name blanks body).arguments := by
  rw [CallSite.arguments_ofParts]
  split
  · exact Argument.fill_nil _ _
  · -- The pieces make up the body, so that every fact about pieces is one about the text.
    have hsource := h.source_eq_body
    rw [← join_cutCommas (commaCuts ownLevel) body] at hsource
    have hspan : (CallSite.ofParts before name blanks body).argsSpan =
        ⟨byteLength (CallShape.front before name blanks),
          byteLength (CallShape.front before name blanks) +
            byteLength (joinFields ',' (cutCommas (commaCuts ownLevel) body))⟩ := by
      rw [join_cutCommas, ← CallShape.stop_args_ofParts, ← CallShape.start_args_ofParts _ _ _ body]
      rfl
    rw [hspan]
    exact Argument.fill_ofPieces hsource

theorem WrittenCall.wellCut {source before name blanks body rest : List Char}
    (h : WrittenCall source before name blanks body rest) :
    (CallSite.ofParts before name blanks body).WellCut source body := by
  have hfill := h.fill_arguments
  refine ⟨h.slice?_args, ?_, fun hblank => ?_, hfill.text_at, hfill.ordered, hfill.gaps,
    hfill.blank_before, hfill.blank_behind⟩
  · rw [CallSite.arguments_ofParts]
    split
    · rename_i hblank
      exact iff_of_true rfl hblank
    · rename_i hblank
      rw [Argument.ofPieces_eq_nil_iff]
      exact iff_of_false (pieces_ne_nil _ _ _ _) hblank
  · rw [CallSite.arguments_ofParts, hblank, if_neg Bool.false_ne_true, Argument.map_text_ofPieces]

/-- **The arguments of a call.** They are the trimmed pieces of the text between its parentheses,
cut at the commas of its own level, and with the gaps between them they make up that text. -/
theorem wellCut_of_mem_findAll (source : String) (c : CallSite)
    (hc : c ∈ CallSite.findAll source) : ∃ body, c.WellCut source.toList body := by
  obtain ⟨before, name, blanks, body, rest, hw, rfl⟩ := CallSite.mem_findAll_iff.1 hc
  exact ⟨body, hw.wellCut⟩

/-- Commas in brackets and in strings do not cut; a stray bracket inside a group does not count for
the call around it, and a comma at the end has an empty argument behind it. -/
theorem wellCut_of_mem_findAll_brackets :
    ∃ body, (⟨"f", ⟨0, 1⟩, ⟨2, 22⟩,
      [⟨"(])", ⟨2, 5⟩⟩, ⟨"a[1,2]", ⟨7, 13⟩⟩, ⟨"'b,c'", ⟨15, 20⟩⟩, ⟨"", ⟨22, 22⟩⟩]⟩ :
        CallSite).WellCut "f((]), a[1,2], 'b,c', )".toList body :=
  wellCut_of_mem_findAll "f((]), a[1,2], 'b,c', )" _ (by decide +kernel)

/-! ## When the two readers agree -/

namespace Argument

/-- An argument that goes on over a comma ends behind it. -/
theorem lt_stop_ofPiece (pos : Nat) (p z : List Char) :
    pos + byteLength p < (ofPiece pos (p ++ ',' :: z)).span.stop := by
  have hblank : isBlank ',' = false := by decide
  have hwithin := within_ofPiece hblank hblank (show [','] = ',' :: [] from rfl)
    (show [','] = [] ++ [','] from rfl) pos p z
  have hstop : pos + byteLength p + 1 ≤ (ofPiece pos (p ++ ',' :: z)).span.stop := hwithin.2
  omega

/-- A first piece that ends at a comma or with the text is known from its argument. -/
theorem eq_of_ofPiece_eq {pos : Nat} {p q x y : List Char} (hjoin : p ++ x = q ++ y)
    (hx : x = [] ∨ ∃ z, x = ',' :: z) (hy : y = [] ∨ ∃ z, y = ',' :: z)
    (h : ofPiece pos p = ofPiece pos q) : p = q := by
  have hstop : (ofPiece pos p).span.stop = (ofPiece pos q).span.stop := by rw [h]
  have hp := stop_ofPiece_le pos p
  have hq := stop_ofPiece_le pos q
  rcases List.append_eq_append_iff.1 hjoin with ⟨z, rfl, hz⟩ | ⟨z, rfl, hz⟩
  · cases z with
    | nil => exact (List.append_nil p).symm
    | cons c z =>
      rcases hx with rfl | ⟨t, rfl⟩
      · simp at hz
      · obtain ⟨rfl, -⟩ := List.cons.inj hz
        have hlt := lt_stop_ofPiece pos p z
        omega
  · cases z with
    | nil => exact List.append_nil q
    | cons c z =>
      rcases hy with rfl | ⟨t, rfl⟩
      · simp at hz
      · obtain ⟨rfl, -⟩ := List.cons.inj hz
        have hlt := lt_stop_ofPiece pos q z
        omega

/-- Two ways to cut one text that give the same arguments are the same. -/
theorem ofPieces_inj {pos : Nat} {ps qs : List (List Char)} (hps : ps ≠ []) (hqs : qs ≠ [])
    (hjoin : joinFields ',' ps = joinFields ',' qs) (h : ofPieces pos ps = ofPieces pos qs) :
    ps = qs := by
  induction ps generalizing pos qs with
  | nil => exact absurd rfl hps
  | cons p ps ih =>
    obtain ⟨q, qs, rfl⟩ := List.exists_cons_of_ne_nil hqs
    obtain ⟨hhead, htail⟩ := List.cons.inj h
    obtain ⟨x, hx, hx'⟩ := exists_joinFields_cons ',' p ps
    obtain ⟨y, hy, hy'⟩ := exists_joinFields_cons ',' q qs
    rw [hx, hy] at hjoin
    obtain rfl := eq_of_ofPiece_eq hjoin hx' hy' hhead
    rw [← hx, ← hy] at hjoin
    congr 1
    by_cases hnil : ps = []
    · subst hnil
      exact (ofPieces_eq_nil_iff.1 htail.symm).symm
    · have hnil' : qs ≠ [] := by
        intro hq
        rw [hq] at htail
        exact hnil (ofPieces_eq_nil_iff.1 htail)
      refine ih hnil hnil' ?_ htail
      rw [joinFields_cons_ne_nil ',' p hnil, joinFields_cons_ne_nil ',' p hnil'] at hjoin
      exact (List.cons.inj (List.append_cancel_left hjoin)).2

end Argument

theorem cutCommas_eq_iff (cuts cuts' : List Char → Bool) (cs : List Char) :
    cutCommas cuts cs = cutCommas cuts' cs ↔
      ∀ u v, cs = u ++ ',' :: v → cuts u = cuts' u := by
  rw [cutCommas, cutCommas, pieces_eq_iff]
  constructor
  · intro h u v hu
    have hcut := h u ',' v hu
    rw [foldl_append_singleton] at hcut
    simpa using hcut
  · intro h u c v hu
    rw [foldl_append_singleton, List.nil_append]
    by_cases hc : c = ','
    · subst hc
      rw [h u v hu]
    · simp [hc]

/-- **When the two readers agree.** The arguments of a call are those of its argument list cut by
itself exactly when every comma of the list cuts at the call's own level if and only if it cuts at
any level. -/
theorem arguments_eq_cutList_iff (source : String) (c : CallSite)
    (hc : c ∈ CallSite.findAll source) :
    c.arguments =
        Argument.cutList (String.ofList (slice source.toList c.argsSpan)) c.argsSpan.start ↔
      ∀ u v, slice source.toList c.argsSpan = u ++ ',' :: v →
        commaCuts ownLevel u = commaCuts anyLevel u := by
  obtain ⟨before, name, blanks, body, rest, hw, rfl⟩ := CallSite.mem_findAll_iff.1 hc
  have hslice : slice source.toList (CallSite.ofParts before name blanks body).argsSpan = body := by
    rw [slice, CallSite.ofParts, hw.slice?_args, Option.getD_some]
  rw [hslice, Argument.cutList_eq_ofPieces, String.toList_ofList, CallSite.ofParts,
    Level.pieces_eq_cutCommas, ← cutCommas_eq_iff]
  by_cases hblank : isAllBlank body = true
  · -- Without a comma there is nothing to disagree about.
    rw [if_pos hblank, if_pos hblank]
    refine iff_of_true rfl ((cutCommas_eq_iff _ _ _).2 fun u v hu => ?_)
    have hcomma := List.all_eq_true.1 hblank ',' (by rw [hu]; simp)
    exact absurd hcomma (by decide)
  · rw [if_neg hblank, if_neg hblank]
    refine ⟨fun h => ?_, fun h => by rw [h]⟩
    refine Argument.ofPieces_inj (pieces_ne_nil _ _ _ _) (pieces_ne_nil _ _ _ _) ?_ h
    rw [join_cutCommas, join_cutCommas]

/-- A bracket closed inside a group counts for one reader and not for the other when the group
ends, and the comma behind the group shows it. -/
theorem arguments_eq_cutList_iff_stray :
    ¬ ∀ u v, slice "f((]),a)".toList ⟨2, 7⟩ = u ++ ',' :: v →
      commaCuts ownLevel u = commaCuts anyLevel u := by
  intro h
  have hagree := (arguments_eq_cutList_iff "f((]),a)"
    ⟨"f", ⟨0, 1⟩, ⟨2, 7⟩, [⟨"(])", ⟨2, 5⟩⟩, ⟨"a", ⟨6, 7⟩⟩]⟩ (by decide +kernel)).2 h
  exact absurd hagree (by decide +kernel)

/-- The readers disagree on that text: the pass splits behind the group. -/
theorem exists_arguments_ne_cutList :
    ∃ c ∈ CallSite.findAll "f((]),a)", c.arguments ≠
      Argument.cutList (String.ofList (slice "f((]),a)".toList c.argsSpan)) c.argsSpan.start := by
  decide +kernel

end FlowExpr
