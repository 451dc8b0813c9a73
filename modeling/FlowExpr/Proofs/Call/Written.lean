import FlowExpr.Proofs.Call.Candidates

/-!
# How a call stands in its text

A text has a call for every way to write it as `before name blanks ( body ) rest`, where the name
is a longest run of name characters outside of strings and the parentheses match. `WrittenCall`
states this, and `mem_findAll_iff` says that the pass finds just these. Together with
`findAll_sorted` this pins the result of the pass down: it is the one list with these members in
the order of their names.
-/

namespace FlowExpr

open Text

/-- A text written as a call with something before and behind it. -/
structure WrittenCall (source before name blanks body rest : List Char) : Prop where
  source_eq : source = before ++ (name ++ (blanks ++ '(' :: (body ++ ')' :: rest)))
  outside : (Quote.after {} before).inside = false
  /-- The name does not start earlier. -/
  boundary : before.getLast?.any isNameChar = false
  digit_free : ∀ c t, name = c :: t → c.isDigit = false
  name_ne_nil : name ≠ []
  name_chars : ∀ c ∈ name, isNameChar c = true
  blank_chars : ∀ c ∈ blanks, isAsciiBlank c = true
  enclosed : Level.Enclosed body

/-- The same call written in another text, where no string is open in front of it and no name runs
into it. -/
theorem WrittenCall.relocate {source before name blanks body rest source' before' rest' : List Char}
    (h : WrittenCall source before name blanks body rest)
    (hsource : source' = before' ++ (name ++ (blanks ++ '(' :: (body ++ ')' :: rest'))))
    (houtside : (Quote.after {} before').inside = false)
    (hboundary : before'.getLast?.any isNameChar = false) :
    WrittenCall source' before' name blanks body rest' :=
  ⟨hsource, houtside, hboundary, h.digit_free, h.name_ne_nil, h.name_chars, h.blank_chars,
    h.enclosed⟩

/-- Names and the blanks behind them hold no character of another kind. -/
theorem ne_of_mem_name_blanks {name blanks : List Char} {d : Char}
    (hname : ∀ c ∈ name, isNameChar c = true) (hblanks : ∀ c ∈ blanks, isAsciiBlank c = true)
    (hd : isNameChar d = false) (hd' : isAsciiBlank d = false) :
    ∀ c ∈ name ++ blanks, c ≠ d := by
  intro c hc
  rcases List.mem_append.1 hc with hc | hc
  · exact ne_of_isNameChar (hname c hc) hd
  · exact ne_of_isAsciiBlank (hblanks c hc) hd'

/-- The name and the blanks behind it are structural, so the string state stays what it was. -/
theorem inside_after_name {before name blanks : List Char}
    (hbefore : (Quote.after {} before).inside = false)
    (hname : ∀ c ∈ name, isNameChar c = true) (hblanks : ∀ c ∈ blanks, isAsciiBlank c = true) :
    (Quote.after {} (before ++ (name ++ blanks))).inside = false := by
  rw [Quote.after_append]
  exact Quote.inside_after_of_ne hbefore
    (ne_of_mem_name_blanks hname hblanks (by decide) (by decide))

namespace CallShape

/-- The shape of a call written with these parts. -/
def ofParts (before name blanks body : List Char) : CallShape :=
  ofBody ⟨byteLength before, byteLength before + byteLength name⟩
    (byteLength before + byteLength name + byteLength blanks + 1) body

theorem behindName?_eq_some_iff {name : Span} {pos : Nat} {cs : List Char} {shape : CallShape} :
    behindName? name pos cs = some shape ↔
      ∃ blanks body rest, cs = blanks ++ '(' :: (body ++ ')' :: rest) ∧
        (∀ c ∈ blanks, isAsciiBlank c = true) ∧ Level.Enclosed body ∧
        shape = ofBody name (pos + byteLength blanks + 1) body := by
  induction cs generalizing pos with
  | nil => simp [behindName?]
  | cons c cs ih =>
    rw [behindName?]
    split_ifs with hb ho
    · rw [ih]
      constructor
      · intro h
        obtain ⟨blanks, body, rest, rfl, hblanks, hbody, rfl⟩ := h
        refine ⟨c :: blanks, body, rest, rfl, ?_, hbody, by simp [Nat.add_assoc]⟩
        intro d hd
        rcases List.mem_cons.1 hd with rfl | hd
        · exact hb
        · exact hblanks d hd
      · intro h
        obtain ⟨blanks, body, rest, hcs, hblanks, hbody, rfl⟩ := h
        cases blanks with
        | nil =>
          obtain ⟨rfl, -⟩ := List.cons.inj hcs
          exact absurd hb (by decide)
        | cons d blanks =>
          obtain ⟨rfl, htail⟩ := List.cons.inj hcs
          exact ⟨blanks, body, rest, htail, fun e he => hblanks e (List.mem_cons_of_mem _ he),
            hbody, by simp [Nat.add_assoc]⟩
    · subst ho
      rw [Option.map_eq_some_iff]
      constructor
      · intro h
        obtain ⟨body, hbody, rfl⟩ := h
        obtain ⟨henc, rest, rfl⟩ := Level.body?_initial_eq_some_iff.1 hbody
        exact ⟨[], body, rest, rfl, by simp, henc, rfl⟩
      · intro h
        obtain ⟨blanks, body, rest, hcs, hblanks, henc, rfl⟩ := h
        cases blanks with
        | nil =>
          obtain ⟨-, htail⟩ := List.cons.inj hcs
          exact ⟨body, Level.body?_initial_eq_some_iff.2 ⟨henc, rest, htail⟩, rfl⟩
        | cons d blanks =>
          obtain ⟨rfl, -⟩ := List.cons.inj hcs
          exact absurd (hblanks '(' List.mem_cons_self) hb
    · constructor
      · intro h
        cases h
      · intro h
        obtain ⟨blanks, body, rest, hcs, hblanks, -, -⟩ := h
        cases blanks with
        | nil => exact absurd (List.cons.inj hcs).1 ho
        | cons d blanks =>
          obtain ⟨rfl, -⟩ := List.cons.inj hcs
          exact absurd (hblanks c List.mem_cons_self) hb

/-- No name goes on over the blanks and the parenthesis behind it. -/
theorem isNameChar_head_of_blanks {blanks cs : List Char} {c : Char} {t : List Char}
    (hblanks : ∀ d ∈ blanks, isAsciiBlank d = true) (h : blanks ++ '(' :: cs = c :: t) :
    isNameChar c = false := by
  cases blanks with
  | nil =>
    obtain ⟨rfl, -⟩ := List.cons.inj h
    decide
  | cons d blanks =>
    obtain ⟨rfl, -⟩ := List.cons.inj h
    have hb := hblanks d List.mem_cons_self
    cases hn : isNameChar d with
    | false => rfl
    | true => rw [isAsciiBlank_of_isNameChar hn] at hb; exact Bool.noConfusion hb

theorem fromName?_eq_some_iff {start pos : Nat} {cs : List Char} {shape : CallShape} :
    fromName? start pos cs = some shape ↔
      ∃ name blanks body rest, cs = name ++ (blanks ++ '(' :: (body ++ ')' :: rest)) ∧
        (∀ c ∈ name, isNameChar c = true) ∧ (∀ c ∈ blanks, isAsciiBlank c = true) ∧
        Level.Enclosed body ∧
        shape = ofBody ⟨start, pos + byteLength name⟩
          (pos + byteLength name + byteLength blanks + 1) body := by
  induction cs generalizing pos with
  | nil => simp [fromName?]
  | cons c cs ih =>
    rw [fromName?]
    split_ifs with hn
    · rw [ih]
      constructor
      · intro h
        obtain ⟨name, blanks, body, rest, rfl, hname, hblanks, henc, rfl⟩ := h
        refine ⟨c :: name, blanks, body, rest, rfl, ?_, hblanks, henc, by simp [Nat.add_assoc]⟩
        intro d hd
        rcases List.mem_cons.1 hd with rfl | hd
        · exact hn
        · exact hname d hd
      · intro h
        obtain ⟨name, blanks, body, rest, hcs, hname, hblanks, henc, rfl⟩ := h
        cases name with
        | nil =>
          have := isNameChar_head_of_blanks hblanks hcs.symm
          rw [hn] at this
          exact Bool.noConfusion this
        | cons d name =>
          obtain ⟨rfl, htail⟩ := List.cons.inj hcs
          exact ⟨name, blanks, body, rest, htail, fun e he => hname e (List.mem_cons_of_mem _ he),
            hblanks, henc, by simp [Nat.add_assoc]⟩
    · rw [behindName?_eq_some_iff]
      constructor
      · intro h
        obtain ⟨blanks, body, rest, hcs, hblanks, henc, rfl⟩ := h
        exact ⟨[], blanks, body, rest, hcs, by simp, hblanks, henc, rfl⟩
      · intro h
        obtain ⟨name, blanks, body, rest, hcs, hname, hblanks, henc, rfl⟩ := h
        cases name with
        | nil => exact ⟨blanks, body, rest, hcs, hblanks, henc, rfl⟩
        | cons d name =>
          obtain ⟨rfl, -⟩ := List.cons.inj hcs
          exact absurd (hname c List.mem_cons_self) hn

theorem getLast?_map_getD_cons (f : Char → Bool) (p : Bool) (c : Char) (cs : List Char) :
    (((c :: cs).getLast?).map f).getD p = ((cs.getLast?).map f).getD (f c) := by
  rw [List.getLast?_cons]
  cases cs.getLast? <;> rfl

/-- A candidate is found at every place where a name may start, and nowhere else. -/
theorem mem_candidates_iff {pos : Nat} {q : Quote} {afterNameChar : Bool} {cs : List Char}
    {shape : CallShape} :
    shape ∈ candidates pos q afterNameChar cs ↔
      ∃ a c t, cs = a ++ c :: t ∧ (q.after a).inside = false ∧
        (a.getLast?.map isNameChar).getD afterNameChar = false ∧ isNameChar c = true ∧
        c.isDigit = false ∧
        fromName? (pos + byteLength a) (pos + byteLength a) (c :: t) = some shape := by
  induction cs generalizing pos q afterNameChar with
  | nil => simp [candidates]
  | cons d cs ih =>
    rw [candidates, List.mem_append, ih, Option.mem_toList]
    constructor
    · intro h
      rcases h with h | ⟨a, c, t, rfl, hout, hlast, hn, hd, hfrom⟩
      · split_ifs at h with hif
        simp only [Bool.and_eq_true, Bool.not_eq_true'] at hif
        obtain ⟨⟨⟨hout, hlast⟩, hn⟩, hd⟩ := hif
        exact ⟨[], d, cs, rfl, hout, hlast, hn, hd, h⟩
      · refine ⟨d :: a, c, t, rfl, hout, ?_, hn, hd, ?_⟩
        · rw [getLast?_map_getD_cons]
          exact hlast
        · rw [byteLength_cons, ← Nat.add_assoc]
          exact hfrom
    · intro h
      obtain ⟨a, c, t, hcs, hout, hlast, hn, hd, hfrom⟩ := h
      cases a with
      | nil =>
        obtain ⟨rfl, rfl⟩ := List.cons.inj hcs
        left
        have hstart : afterNameChar = false := hlast
        have hq : q.inside = false := hout
        simp only [hq, hstart, hn, hd]
        exact hfrom
      | cons e a =>
        obtain ⟨rfl, htail⟩ := List.cons.inj hcs
        right
        refine ⟨a, c, t, htail, hout, ?_, hn, hd, ?_⟩
        · rw [← getLast?_map_getD_cons isNameChar afterNameChar]
          exact hlast
        · rw [Nat.add_assoc, ← byteLength_cons]
          exact hfrom

/-- **What the pass finds.** The calls of a text are exactly those that can be written out in it. -/
theorem mem_findAll_iff {source : List Char} {shape : CallShape} :
    shape ∈ findAll source ↔
      ∃ before name blanks body rest, WrittenCall source before name blanks body rest ∧
        shape = ofParts before name blanks body := by
  have hany : ∀ o : Option Char, (o.map isNameChar).getD false = o.any isNameChar := by
    intro o
    cases o <;> rfl
  simp only [findAll_eq_candidates, mem_candidates_iff, hany, Nat.zero_add]
  constructor
  · intro h
    obtain ⟨before, c, t, rfl, hout, hlast, hn, hd, hfrom⟩ := h
    obtain ⟨name, blanks, body, rest, ht, hname, hblanks, henc, rfl⟩ :=
      fromName?_eq_some_iff.1 hfrom
    refine ⟨before, name, blanks, body, rest, ⟨by rw [ht], hout, hlast, ?_, ?_, hname, hblanks,
      henc⟩, rfl⟩
    · intro e u he
      rw [he] at ht
      obtain ⟨rfl, -⟩ := List.cons.inj ht
      exact hd
    · intro hnil
      rw [hnil] at ht
      have := isNameChar_head_of_blanks hblanks ht.symm
      rw [hn] at this
      exact Bool.noConfusion this
  · intro h
    obtain ⟨before, name, blanks, body, rest, hw, rfl⟩ := h
    obtain ⟨c, u, hname⟩ := List.exists_cons_of_ne_nil hw.name_ne_nil
    refine ⟨before, c, u ++ (blanks ++ '(' :: (body ++ ')' :: rest)), ?_, hw.outside, hw.boundary,
      hw.name_chars c (by rw [hname]; exact List.mem_cons_self), hw.digit_free c u hname, ?_⟩
    · rw [hw.source_eq, hname]
      rfl
    · rw [fromName?_eq_some_iff]
      exact ⟨name, blanks, body, rest, by rw [hname]; rfl, hw.name_chars, hw.blank_chars,
        hw.enclosed, rfl⟩

/-! ## Order -/

theorem le_start_of_mem_candidates {pos : Nat} {q : Quote} {afterNameChar : Bool}
    {cs : List Char} {shape : CallShape} (h : shape ∈ candidates pos q afterNameChar cs) :
    pos ≤ shape.name.start := by
  obtain ⟨a, c, t, -, -, -, -, -, hfrom⟩ := mem_candidates_iff.1 h
  obtain ⟨name, blanks, body, rest, -, -, -, -, rfl⟩ := fromName?_eq_some_iff.1 hfrom
  exact Nat.le_add_right pos (byteLength a)

theorem candidates_sorted (pos : Nat) (q : Quote) (afterNameChar : Bool) (cs : List Char) :
    (candidates pos q afterNameChar cs).Pairwise fun a b => a.name.start < b.name.start := by
  induction cs generalizing pos q afterNameChar with
  | nil => exact List.Pairwise.nil
  | cons c cs ih =>
    rw [candidates, List.pairwise_append]
    refine ⟨?_, ih _ _ _, ?_⟩
    · split_ifs
      · cases fromName? pos pos (c :: cs) <;> simp
      · exact List.Pairwise.nil
    · intro a ha b hb
      have hstart : a.name.start = pos := by
        rw [Option.mem_toList] at ha
        split_ifs at ha
        obtain ⟨name, blanks, body, rest, -, -, -, -, rfl⟩ := fromName?_eq_some_iff.1 ha
        rfl
      have hle := le_start_of_mem_candidates hb
      have hpos := c.utf8Size_pos
      omega

/-- Calls come in the order of their names. -/
theorem findAll_sorted (source : List Char) :
    (findAll source).Pairwise fun a b => a.name.start < b.name.start := by
  rw [findAll_eq_candidates]
  exact candidates_sorted 0 {} false source

end CallShape

end FlowExpr
