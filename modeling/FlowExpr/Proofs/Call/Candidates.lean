import FlowExpr.Proofs.Call.Level

/-!
# The pass finds what a search from every name finds

`CallShape.candidates` looks for calls the slow way: at every place where a name may start it reads
the name, the blanks and the parenthesis, and then follows that one parenthesis to its end with a
`Level`. `findAll_eq_candidates` says that the single pass gives the same calls in the same order.

**The invariant.** In the middle of a text, the calls still to be reported are of three kinds: those
of the open frames, each to be closed by what follows; the one that the name just read may still
become; and those whose names come later. `CallFinder.outlook` writes the three one after the other,
outermost frame first, and `outlook_step` says that reading a character leaves that list alone.
-/

namespace FlowExpr

open Text

/-! ## The search from every name -/

/-- The spans of pieces that stand one byte apart. The first one starts at `start` and its text
goes on at `pos`. -/
def Span.ofPieces (start pos : Nat) : List (List Char) → List Span
  | [] => []
  | p :: ps =>
    ⟨start, pos + byteLength p⟩ :: ofPieces (pos + byteLength p + 1) (pos + byteLength p + 1) ps

theorem Span.ofPieces_prepend (start pos : Nat) (front : List Char) {ps : List (List Char)}
    (h : ps ≠ []) :
    Span.ofPieces start pos (prepend front ps) =
      Span.ofPieces start (pos + byteLength front) ps := by
  obtain ⟨p, ps, rfl⟩ := List.exists_cons_of_ne_nil h
  simp [Span.ofPieces, Nat.add_assoc]

namespace CallShape

/-- The call of a name whose parentheses enclose `body`, which starts at `start`. -/
def ofBody (name : Span) (start : Nat) (body : List Char) : CallShape where
  name := name
  args := ⟨start, start + byteLength body⟩
  segments := Span.ofPieces start start (Level.pieces {} body)

/-- The call that a complete name makes with the text behind it. -/
def behindName? (name : Span) (pos : Nat) : List Char → Option CallShape
  | [] => none
  | c :: cs =>
    if isAsciiBlank c then behindName? name (pos + c.utf8Size) cs
    else if c = '(' then (({} : Level).body? cs).map (ofBody name (pos + 1))
    else none

/-- The call of a name that starts at `start` and may go on at `pos`. -/
def fromName? (start pos : Nat) : List Char → Option CallShape
  | [] => none
  | c :: cs =>
    if isNameChar c then fromName? start (pos + c.utf8Size) cs
    else behindName? ⟨start, pos⟩ pos (c :: cs)

/-- The calls of a text, each searched for by itself. `afterNameChar` says that the text in front
ends with a name character, so that no name starts here. -/
def candidates (pos : Nat) (q : Quote) (afterNameChar : Bool) : List Char → List CallShape
  | [] => []
  | c :: cs =>
    (if !q.inside && !afterNameChar && isNameChar c && !c.isDigit then fromName? pos pos (c :: cs)
      else none).toList ++ candidates (pos + c.utf8Size) (q.next c) (isNameChar c) cs

end CallShape

/-! ## Characters -/

theorem ne_of_isNameChar {c d : Char} (hc : isNameChar c = true) (hd : isNameChar d = false) :
    c ≠ d := by
  intro h
  subst h
  simp [hc] at hd

theorem ne_of_isAsciiBlank {c d : Char} (hc : isAsciiBlank c = true)
    (hd : isAsciiBlank d = false) : c ≠ d := by
  intro h
  subst h
  simp [hc] at hd

theorem isAsciiBlank_of_isNameChar {c : Char} (h : isNameChar c = true) :
    isAsciiBlank c = false := by
  cases hb : isAsciiBlank c with
  | false => rfl
  | true =>
    simp only [isAsciiBlank, Bool.or_eq_true, decide_eq_true_eq] at hb
    rcases hb with (((rfl | rfl) | rfl) | rfl) | rfl <;> exact absurd h (by decide)

/-! ## Frames -/

namespace OpenParen

/-- A frame with `inner` parentheses open inside it, seen by itself. -/
def level (f : OpenParen) (q : Quote) (inner : Int) : Level := ⟨q, inner, f.depth⟩

/-- The call of the frame, if the text to come closes it. -/
def closed? (f : OpenParen) (inner : Int) (pos : Nat) (q : Quote) (cs : List Char) :
    Option CallShape :=
  f.name.bind fun name => ((f.level q inner).body? cs).map fun body =>
    ⟨name, ⟨f.start, pos + byteLength body⟩,
      f.segments ++ Span.ofPieces f.segmentStart pos ((f.level q inner).pieces body)⟩

/-- The calls of the frames and those held by them, outermost first. -/
def resolve (inner : Int) (pos : Nat) (q : Quote) (cs : List Char) :
    List OpenParen → List CallShape
  | [] => []
  | f :: outer =>
    resolve (inner + 1) pos q cs outer ++ ((f.closed? inner pos q cs).toList ++ f.calls)

/-- `g` is `f` with other counts and other calls inside. -/
structure SameList (f g : OpenParen) : Prop where
  name : g.name = f.name
  start : g.start = f.start
  segmentStart : g.segmentStart = f.segmentStart
  segments : g.segments = f.segments

theorem closed?_of_name_none {f : OpenParen} (h : f.name = none) (inner : Int) (pos : Nat)
    (q : Quote) (cs : List Char) : f.closed? inner pos q cs = none := by
  simp [closed?, h]

/-- A character that neither closes nor cuts goes to the current segment. -/
theorem closed?_cons {f g : OpenParen} {inner inner' : Int} {pos : Nat} {q : Quote} {c : Char}
    (hsame : SameList f g) (hcloses : (f.level q inner).closes c = false)
    (hcuts : (f.level q inner).cuts c = false)
    (hnext : (f.level q inner).next c = g.level (q.next c) inner') (cs : List Char) :
    f.closed? inner pos q (c :: cs) = g.closed? inner' (pos + c.utf8Size) (q.next c) cs := by
  obtain ⟨hname, hstart, hseg, hsegs⟩ := hsame
  simp only [closed?, hname, hstart, hseg, hsegs, Level.body?_cons_open hcloses, hnext,
    Option.map_map]
  congr 1
  funext name
  congr 1
  funext body
  have hpieces : (f.level q inner).pieces (c :: body) =
      prepend [c] ((g.level (q.next c) inner').pieces body) := by
    rw [Level.pieces, pieces_cons_uncut _ _ hcuts, hnext]
    rfl
  simp only [Function.comp_apply, byteLength_cons, hpieces,
    Span.ofPieces_prepend _ _ _ (Level.pieces_ne_nil _ body), byteLength_nil, Nat.add_zero,
    Nat.add_assoc]

/-- A frame that is not the innermost one only counts parentheses. -/
theorem closed?_cons_outer {f : OpenParen} {inner : Int} (hinner : inner ≠ 0) (pos : Nat)
    (q : Quote) (c : Char) (cs : List Char) :
    f.closed? inner pos q (c :: cs) =
      f.closed? (inner + q.parenChange c) (pos + c.utf8Size) (q.next c) cs := by
  refine closed?_cons ⟨rfl, rfl, rfl, rfl⟩ ?_ ?_ ?_ cs
  · simp [Level.closes, level, hinner]
  · simp [Level.cuts, level, hinner]
  · simp [Level.next, level, hinner]

/-- The frames around the innermost one move together. -/
theorem resolve_cons_outer {inner : Int} (hinner : 1 ≤ inner) (pos : Nat) (q : Quote) (c : Char)
    (cs : List Char) (fs : List OpenParen) :
    resolve inner pos q (c :: cs) fs =
      resolve (inner + q.parenChange c) (pos + c.utf8Size) (q.next c) cs fs := by
  induction fs generalizing inner with
  | nil => rfl
  | cons f outer ih =>
    rw [resolve, resolve, ih (by omega), closed?_cons_outer (by omega),
      show inner + 1 + q.parenChange c = inner + q.parenChange c + 1 by omega]

theorem resolve_nil (inner : Int) (pos : Nat) (q : Quote) (fs : List OpenParen) :
    resolve inner pos q [] fs = fs.reverse.flatMap (·.calls) := by
  induction fs generalizing inner with
  | nil => rfl
  | cons f outer ih =>
    have hnone : f.closed? inner pos q [] = none := by
      cases hn : f.name <;> simp [closed?, hn, Level.body?]
    simp [resolve, hnone, ih]

/-- Outside the four kinds of structural characters that frames look at, nothing changes. -/
theorem resolve_cons_inert {q : Quote} {c : Char}
    (h : q.isStructural c = true →
      c ≠ '(' ∧ c ≠ ')' ∧ c ≠ ',' ∧ Level.isBracket c = false)
    (pos : Nat) (cs : List Char) (fs : List OpenParen) :
    resolve 0 pos q (c :: cs) fs = resolve 0 (pos + c.utf8Size) (q.next c) cs fs := by
  have hchange : q.parenChange c = 0 := by
    by_cases hs : q.isStructural c = true
    · exact Quote.parenChange_of_ne (h hs).1 (h hs).2.1
    · exact Quote.parenChange_of_not_structural (by simpa using hs)
  cases fs with
  | nil => rfl
  | cons top outer =>
    rw [resolve, resolve, resolve_cons_outer (by decide), hchange, Int.add_zero]
    congr 2
    refine congrArg Option.toList (closed?_cons ⟨rfl, rfl, rfl, rfl⟩ ?_ ?_ ?_ cs)
    · by_cases hs : q.isStructural c = true
      · simp [Level.closes, level, (h hs).2.1]
      · simp [Level.closes, level, hs]
    · by_cases hs : q.isStructural c = true
      · simp [Level.cuts, level, (h hs).2.2.1]
      · simp [Level.cuts, level, hs]
    · by_cases hs : q.isStructural c = true
      · simp [Level.next, level, hchange, (h hs).2.2.2]
      · simp [Level.next, level, hchange, hs]

/-- An opened parenthesis is one more inside every frame. -/
theorem resolve_cons_openParen {q : Quote} (hs : q.isStructural '(' = true) (pos : Nat)
    (cs : List Char) (fs : List OpenParen) :
    resolve 0 pos q ('(' :: cs) fs = resolve 1 (pos + 1) (q.next '(') cs fs := by
  have hchange : q.parenChange '(' = 1 := by simp [Quote.parenChange, hs]
  cases fs with
  | nil => rfl
  | cons top outer =>
    rw [resolve, resolve, resolve_cons_outer (by decide), hchange]
    congr 2
    refine congrArg Option.toList (closed?_cons ⟨rfl, rfl, rfl, rfl⟩ ?_ ?_ ?_ cs)
    · simp [Level.closes, level]
    · simp [Level.cuts, level]
    · simp [Level.next, level, hchange, Level.isBracket]

theorem closed?_cons_closeParen {q : Quote} (hs : q.isStructural ')' = true) (f : OpenParen)
    (pos : Nat) (cs : List Char) :
    (f.closed? 0 pos q (')' :: cs)).toList ++ f.calls = f.close pos := by
  have hcloses : (f.level q 0).closes ')' = true := by simp [Level.closes, level, hs]
  cases hn : f.name with
  | none => simp [closed?, close, hn]
  | some name =>
    simp [closed?, close, hn, Level.body?_cons_closes hcloses, Level.pieces, Span.ofPieces]

/-- A comma does to the frame what it does to the argument list read from there. -/
theorem closed?_cons_comma {q : Quote} (hs : q.isStructural ',' = true) (f : OpenParen)
    (pos : Nat) (cs : List Char) :
    f.closed? 0 pos q (',' :: cs) = (f.comma pos).closed? 0 (pos + 1) (q.next ',') cs := by
  have hcloses : (f.level q 0).closes ',' = false := by simp [Level.closes]
  have hchange : q.parenChange ',' = 0 := Quote.parenChange_of_ne (by decide) (by decide)
  have hnext : (f.level q 0).next ',' = f.level (q.next ',') 0 := by
    simp [Level.next, level, hchange, Level.isBracket]
  cases hn : f.name with
  | none =>
    have hcomma : f.comma pos = f := by simp [comma, hn]
    rw [hcomma, closed?_of_name_none hn, closed?_of_name_none hn]
  | some name =>
    cases hd : f.depth.isLevel with
    | false =>
      have hcomma : f.comma pos = f := by simp [comma, hd]
      have hcuts : (f.level q 0).cuts ',' = false := by simp [Level.cuts, level, hd]
      rw [hcomma]
      exact closed?_cons ⟨rfl, rfl, rfl, rfl⟩ hcloses hcuts hnext cs
    | true =>
      have hcuts : (f.level q 0).cuts ',' = true := by simp [Level.cuts, level, hd, hs]
      have hpieces : ∀ body, (f.level q 0).pieces (',' :: body) =
          [] :: (f.level (q.next ',') 0).pieces body := by
        intro body
        rw [Level.pieces, pieces_cons_cut _ _ hcuts, hnext]
        rfl
      have hlevel : (f.comma pos).level (q.next ',') 0 = f.level (q.next ',') 0 := by
        simp [comma, hn, hd, level]
      simp only [closed?, hlevel, Level.body?_cons_open hcloses, hnext, Option.map_map]
      simp [comma, hn, hd, Function.comp_def, hpieces, Span.ofPieces, Nat.add_assoc]

/-- A bracket or brace counts for the innermost frame only. -/
theorem closed?_cons_bracket {q : Quote} {c : Char} (hs : q.isStructural c = true)
    (hc : Level.isBracket c = true) (f : OpenParen) (pos : Nat) (cs : List Char) :
    f.closed? 0 pos q (c :: cs) =
      ({ f with depth := f.depth.track c }).closed? 0 (pos + c.utf8Size) (q.next c) cs := by
  have hsame : SameList f { f with depth := f.depth.track c } := ⟨rfl, rfl, rfl, rfl⟩
  simp only [Level.isBracket, Bool.or_eq_true, decide_eq_true_eq] at hc
  refine closed?_cons hsame ?_ ?_ ?_ cs
  · rcases hc with ((rfl | rfl) | rfl) | rfl <;> simp [Level.closes]
  · rcases hc with ((rfl | rfl) | rfl) | rfl <;> simp [Level.cuts]
  · rcases hc with ((rfl | rfl) | rfl) | rfl <;>
      simp [Level.next, level, Quote.parenChange, Level.isBracket, hs]

end OpenParen

/-! ## Names that lead up to a call -/

namespace Lead

/-- A run of name characters has just been read. -/
def isWord : Lead → Bool
  | .word _ _ => true
  | _ => false

/-- The call that the characters just read may still become. -/
def call? (l : Lead) (pos : Nat) (cs : List Char) : Option CallShape :=
  match l with
  | .word start false => CallShape.fromName? start pos cs
  | .named name => CallShape.behindName? name pos cs
  | _ => none

@[simp] theorem call?_nothing (pos : Nat) (cs : List Char) :
    Lead.nothing.call? pos cs = none := rfl

@[simp] theorem call?_nil (l : Lead) (pos : Nat) : l.call? pos [] = none := by
  match l with
  | .nothing | .word _ true | .word _ false | .named _ => rfl

/-- Behind a name character, nothing but the name character itself matters. -/
theorem call?_cons_nameChar {c : Char} (hc : isNameChar c = true) (l : Lead) (pos : Nat)
    (cs : List Char) :
    l.call? pos (c :: cs) =
      if l.isWord then (l.afterNameChar pos c).call? (pos + c.utf8Size) cs else none := by
  have hblank := isAsciiBlank_of_isNameChar hc
  have hparen : c ≠ '(' := ne_of_isNameChar hc (by decide)
  match l with
  | .nothing => rfl
  | .word _ true => rfl
  | .word start false => simp [call?, isWord, afterNameChar, CallShape.fromName?, hc]
  | .named name => simp [call?, isWord, CallShape.behindName?, hblank, hparen]

theorem call?_cons_blank {c : Char} (hn : isNameChar c = false) (hc : isAsciiBlank c = true)
    (l : Lead) (pos : Nat) (cs : List Char) :
    l.call? pos (c :: cs) = (l.afterBlank pos).call? (pos + c.utf8Size) cs := by
  match l with
  | .nothing => rfl
  | .word _ true => rfl
  | .word start false =>
    simp [call?, afterBlank, name?, CallShape.fromName?, CallShape.behindName?, hn, hc]
  | .named name => simp [call?, afterBlank, name?, CallShape.behindName?, hc]

/-- A parenthesis behind a name opens the frame of its call. -/
theorem call?_cons_openParen (l : Lead) (pos : Nat) (cs : List Char) :
    l.call? pos ('(' :: cs) =
      (OpenParen.opened (l.name? pos) (pos + 1)).closed? 0 (pos + 1) {} cs := by
  have hn : isNameChar '(' = false := by decide
  have hb : isAsciiBlank '(' = false := by decide
  match l with
  | .nothing => rfl
  | .word _ true => rfl
  | .word start false =>
    simp only [call?, CallShape.fromName?, CallShape.behindName?, hn, hb]
    rfl
  | .named name =>
    simp only [call?, CallShape.behindName?, hb]
    rfl

theorem call?_cons_other {c : Char} (hn : isNameChar c = false) (hb : isAsciiBlank c = false)
    (hp : c ≠ '(') (l : Lead) (pos : Nat) (cs : List Char) : l.call? pos (c :: cs) = none := by
  match l with
  | .nothing => rfl
  | .word _ true => rfl
  | .word start false => simp [call?, CallShape.fromName?, CallShape.behindName?, hn, hb, hp]
  | .named name => simp [call?, CallShape.behindName?, hb, hp]

end Lead

/-! ## One step of the pass -/

namespace CallFinder

/-- The calls of the frames and before them, given the text to come. -/
def held (s : CallFinder) (cs : List Char) : List CallShape :=
  s.calls ++ OpenParen.resolve 0 s.pos s.quote cs s.frames

/-- All calls that the state will have found once it has read the text to come. -/
def outlook (s : CallFinder) (afterNameChar : Bool) (cs : List Char) : List CallShape :=
  s.held cs ++ ((s.lead.call? s.pos cs).toList ++
    CallShape.candidates s.pos s.quote afterNameChar cs)

/-- What the pass keeps about names and strings: in a string nothing leads up to a call, and
outside a run of name characters is known as such. -/
structure Coherent (s : CallFinder) (afterNameChar : Bool) : Prop where
  quiet : s.quote.inside = true → s.lead = .nothing
  word : s.quote.inside = false → s.lead.isWord = afterNameChar

theorem coherent_initial : Coherent {} false := ⟨fun _ => rfl, fun _ => rfl⟩

@[simp] theorem step_pos (s : CallFinder) (c : Char) : (s.step c).pos = s.pos + c.utf8Size := rfl

@[simp] theorem step_quote (s : CallFinder) (c : Char) : (s.step c).quote = s.quote.next c := rfl

@[simp] theorem step_lead (s : CallFinder) (c : Char) : (s.step c).lead = s.nextLead c := rfl

theorem held_step_eq {s : CallFinder} {c : Char} (cs : List Char)
    (t : CallFinder) (ht : (if s.quote.isStructural c then s.act c else s) = t) :
    (s.step c).held cs =
      t.calls ++ OpenParen.resolve 0 (s.pos + c.utf8Size) (s.quote.next c) cs t.frames := by
  subst ht
  rfl

theorem coherent_step {s : CallFinder} (c : Char) :
    (s.step c).Coherent (isNameChar c) := by
  by_cases hs : s.quote.isStructural c = true
  · have hout : (s.quote.next c).inside = false := by rw [Quote.next_of_isStructural hs]
    refine ⟨fun h => ?_, fun _ => ?_⟩
    · rw [step_quote, hout] at h
      exact Bool.noConfusion h
    · simp only [step_lead, nextLead, hs, Bool.not_true, Bool.false_eq_true, if_false]
      cases hn : isNameChar c with
      | true => cases s.lead <;> rfl
      | false =>
        simp only [Bool.false_eq_true, if_false]
        split_ifs with hb
        · unfold Lead.afterBlank
          split <;> rfl
        · rfl
  · have hlead : (s.step c).lead = .nothing := by simp [nextLead, hs]
    refine ⟨fun _ => hlead, fun h => ?_⟩
    rw [hlead]
    by_cases hin : s.quote.inside = true
    · -- A character in a string that is no quote keeps the string open.
      by_cases hq : c = '\''
      · subst hq
        rfl
      have hnext : (s.step c).quote.inside = true := by
        rw [step_quote]
        unfold Quote.next
        split_ifs <;> exact hin
      rw [h] at hnext
      exact Bool.noConfusion hnext
    · rcases Quote.eq_of_not_structural hs (by simpa using hin) with rfl | rfl <;> rfl

theorem held_closeParen {s : CallFinder} (hs : s.quote.isStructural ')' = true)
    (cs : List Char) :
    s.closeParen.calls ++
        OpenParen.resolve 0 (s.pos + 1) (s.quote.next ')') cs s.closeParen.frames =
      s.held (')' :: cs) := by
  have hchange : s.quote.parenChange ')' = -1 := by simp [Quote.parenChange, hs]
  -- What is open around the innermost parenthesis has one parenthesis less inside it.
  have houter : ∀ fs, OpenParen.resolve 1 s.pos s.quote (')' :: cs) fs =
      OpenParen.resolve 0 (s.pos + 1) (s.quote.next ')') cs fs := by
    intro fs
    rw [OpenParen.resolve_cons_outer (by decide), hchange]
    rfl
  obtain ⟨pos, quote, lead, frames, calls⟩ := s
  cases frames with
  | nil => rfl
  | cons top outers =>
    cases outers with
    | nil =>
      simp only [held, closeParen, OpenParen.resolve, List.nil_append, List.append_nil,
        OpenParen.closed?_cons_closeParen hs]
    | cons outer rest =>
      simp only [held, closeParen]
      rw [OpenParen.resolve.eq_2 0 pos, Int.zero_add, houter,
        OpenParen.closed?_cons_closeParen hs]
      simp only [OpenParen.resolve, List.append_assoc]
      rfl

/-- A change of the innermost frame alone, by a character that is no parenthesis. -/
theorem held_modifyTop {s : CallFinder} {c : Char} {cs : List Char} {f : OpenParen → OpenParen}
    (hchange : s.quote.parenChange c = 0) (hcalls : ∀ top, (f top).calls = top.calls)
    (hclosed : ∀ top : OpenParen, top.closed? 0 s.pos s.quote (c :: cs) =
      (f top).closed? 0 (s.pos + c.utf8Size) (s.quote.next c) cs) :
    (s.modifyTop f).calls ++ OpenParen.resolve 0 (s.pos + c.utf8Size) (s.quote.next c) cs
        (s.modifyTop f).frames = s.held (c :: cs) := by
  obtain ⟨pos, quote, lead, frames, calls⟩ := s
  cases frames with
  | nil => rfl
  | cons top outer =>
    simp only [held, modifyTop, OpenParen.resolve, hclosed, hcalls]
    rw [OpenParen.resolve_cons_outer (by decide), hchange]
    rfl

/-- Frames and what they hold change by one step as the list of calls to come says. Only an opened
parenthesis adds a call, the one that the name in front of it led up to. -/
theorem held_step (s : CallFinder) (c : Char) (cs : List Char) :
    (s.step c).held cs =
      s.held (c :: cs) ++
        (if s.quote.isStructural c && c = '(' then s.lead.call? s.pos (c :: cs)
          else none).toList := by
  by_cases hs : s.quote.isStructural c = true
  · by_cases ho : c = '('
    · subst ho
      rw [held_step_eq cs s.openParen (by simp [hs, act]), if_pos (by simp [hs]),
        Lead.call?_cons_openParen, held, OpenParen.resolve_cons_openParen hs,
        Quote.next_of_isStructural hs]
      simp only [openParen, OpenParen.resolve, List.append_assoc]
      rw [show (OpenParen.opened (s.lead.name? s.pos) (s.pos + 1)).calls = [] from rfl,
        List.append_nil]
      rfl
    rw [if_neg (by simp [ho]), Option.toList_none, List.append_nil]
    by_cases hc : c = ')'
    · subst hc
      rw [held_step_eq cs s.closeParen (by simp [hs, act])]
      exact held_closeParen hs cs
    by_cases hm : c = ','
    · subst hm
      rw [held_step_eq cs (s.modifyTop (·.comma s.pos)) (by simp [hs, act])]
      refine held_modifyTop (Quote.parenChange_of_ne (by decide) (by decide)) (fun top => ?_)
        (fun top => OpenParen.closed?_cons_comma hs top s.pos cs)
      unfold OpenParen.comma
      split <;> rfl
    by_cases hb : Level.isBracket c = true
    · have hact : s.act c = s.modifyTop fun f => { f with depth := f.depth.track c } := by
        unfold Level.isBracket at hb
        simp only [act, if_neg ho, if_neg hc, if_neg hm, hb, if_true]
      rw [held_step_eq cs _ (by rw [if_pos hs, hact])]
      exact held_modifyTop (Quote.parenChange_of_ne ho hc) (fun _ => rfl)
        (fun top => OpenParen.closed?_cons_bracket hs hb top s.pos cs)
    · have hact : s.act c = s := by
        unfold Level.isBracket at hb
        simp only [act, if_neg ho, if_neg hc, if_neg hm, hb]
        rfl
      rw [held_step_eq cs s (by rw [if_pos hs, hact]), held,
        OpenParen.resolve_cons_inert fun _ => ⟨ho, hc, hm, by simpa using hb⟩]
  · rw [held_step_eq cs s (by rw [if_neg hs]), held,
      OpenParen.resolve_cons_inert (fun h => absurd h hs)]
    simp [hs]

/-- The name just read and the names to come, by one step. An opened parenthesis takes the name
just read away; its call is then with the frames. -/
theorem candidates_step {s : CallFinder} {afterNameChar : Bool} (hs : s.Coherent afterNameChar)
    (c : Char) (cs : List Char) :
    ((s.nextLead c).call? (s.pos + c.utf8Size) cs).toList ++
        CallShape.candidates (s.pos + c.utf8Size) (s.quote.next c) (isNameChar c) cs =
      (if s.quote.isStructural c && c = '(' then none
        else s.lead.call? s.pos (c :: cs)).toList ++
        CallShape.candidates s.pos s.quote afterNameChar (c :: cs) := by
  rw [CallShape.candidates, ← List.append_assoc]
  congr 1
  by_cases hst : s.quote.isStructural c = true
  · have hout : s.quote.inside = false := Quote.inside_of_isStructural hst
    have hword := hs.word hout
    simp only [nextLead, hst, hout, Bool.not_true, Bool.not_false, Bool.true_and,
      Bool.false_eq_true, if_false]
    cases hn : isNameChar c with
    | true =>
      have hopen : c ≠ '(' := ne_of_isNameChar hn (by decide)
      rw [Lead.call?_cons_nameChar hn, hword]
      simp only [hopen, decide_false, Bool.false_eq_true, if_false, if_true, Bool.and_true]
      cases afterNameChar with
      | true => simp
      | false =>
        -- The run of name characters starts here, so the name is a new one.
        have hlead : s.lead.afterNameChar s.pos c = .word s.pos c.isDigit := by
          cases hl : s.lead <;> simp_all [Lead.isWord, Lead.afterNameChar]
        rw [hlead]
        cases c.isDigit <;> simp [Lead.call?, CallShape.fromName?, hn]
    | false =>
      simp only [Bool.false_eq_true, if_false, Bool.and_false, Bool.false_and, Option.toList_none,
        List.append_nil]
      cases hb : isAsciiBlank c with
      | true =>
        have hopen : c ≠ '(' := ne_of_isAsciiBlank hb (by decide)
        rw [Lead.call?_cons_blank hn hb]
        simp [hopen]
      | false =>
        by_cases ho : c = '('
        · simp [ho]
        · simp [ho, Lead.call?_cons_other hn hb ho]
  · have hnothing : s.lead.call? s.pos (c :: cs) = none ∧
        (!s.quote.inside && !afterNameChar && isNameChar c && !c.isDigit) = false := by
      by_cases hin : s.quote.inside = true
      · rw [hs.quiet hin]
        simp [hin]
      · rcases Quote.eq_of_not_structural hst (by simpa using hin) with rfl | rfl <;>
          exact ⟨Lead.call?_cons_other (by decide) (by decide) (by decide) _ _ _,
            by simp [isNameChar]⟩
    simp [nextLead, hst, hnothing]

/-- Reading a character changes nothing about what will have been found in the end. -/
theorem outlook_step {s : CallFinder} {afterNameChar : Bool} (hs : s.Coherent afterNameChar)
    (c : Char) (cs : List Char) :
    (s.step c).outlook (isNameChar c) cs = s.outlook afterNameChar (c :: cs) := by
  simp only [outlook, step_lead, step_pos, step_quote]
  rw [held_step, candidates_step hs, List.append_assoc]
  congr 1
  split_ifs <;> simp

theorem outlook_foldl {s : CallFinder} {afterNameChar : Bool} (hs : s.Coherent afterNameChar)
    (cs : List Char) : (cs.foldl step s).completed = s.outlook afterNameChar cs := by
  induction cs generalizing s afterNameChar with
  | nil =>
    simp [completed, outlook, held, OpenParen.resolve_nil, CallShape.candidates]
  | cons c cs ih =>
    rw [List.foldl_cons, ih (coherent_step c), outlook_step hs]

end CallFinder

/-- **One pass suffices.** The pass finds the calls that a search from every name finds. -/
theorem CallShape.findAll_eq_candidates (source : List Char) :
    CallShape.findAll source = CallShape.candidates 0 {} false source :=
  CallFinder.outlook_foldl CallFinder.coherent_initial source

end FlowExpr
