import FlowExpr.Proofs.Call.ByteSearch
import FlowExpr.Proofs.Call.Forest

/-!
# Writing over the contents of strings

`Quote.redact` writes over what stands in the strings of a text. Quotes and backslashes stay, since
they decide where a string ends; every other character of a string becomes as many `x` as it has
bytes, so that all offsets stay too.

**Readers.** A reader that follows strings and does nothing inside of them (`Unaware`) is in the
same state after a text and after the redacted text (`foldl_redact`). The string state itself, a
`Level` and the pass are of this kind. So the pass finds the same calls, and where a call is written
the redacted call is written (`WrittenCall.redact`).

**Arguments.** A piece of an argument list starts and ends outside of strings
(`inside_after_of_mem_pieces`). What trimming takes from such a piece stands outside of strings, so
it takes the same from the redacted piece (`trim_redact`).
-/

namespace FlowExpr

open Text

/-! ## Redacted texts -/

namespace Quote

/-- Quotes and backslashes, which decide where a string ends. -/
def isMark (c : Char) : Bool := c = '\\' || c = '\''

/-- The character stands in a string and is not a mark. -/
def isContent (q : Quote) (c : Char) : Bool := q.inside && !isMark c

/-- What is written for a character. -/
def redactChar (q : Quote) (c : Char) : List Char :=
  if q.isContent c then List.replicate c.utf8Size 'x' else [c]

/-- The text with the contents of its strings written over. -/
def redact (q : Quote) : List Char → List Char
  | [] => []
  | c :: cs => q.redactChar c ++ (q.next c).redact cs

@[simp] theorem redact_nil (q : Quote) : q.redact [] = [] := rfl

@[simp] theorem redact_cons (q : Quote) (c : Char) (cs : List Char) :
    q.redact (c :: cs) = q.redactChar c ++ (q.next c).redact cs := rfl

theorem redact_append (q : Quote) (a b : List Char) :
    q.redact (a ++ b) = q.redact a ++ (q.after a).redact b := by
  induction a generalizing q with
  | nil => rfl
  | cons c a ih =>
    rw [List.cons_append, redact_cons, redact_cons, ih, after_cons, List.append_assoc]

theorem isContent_iff {q : Quote} {c : Char} :
    q.isContent c = true ↔ q.inside = true ∧ c ≠ '\\' ∧ c ≠ '\'' := by
  simp [isContent, isMark]

theorem redactChar_of_isContent {q : Quote} {c : Char} (h : q.isContent c = true) :
    q.redactChar c = List.replicate c.utf8Size 'x' := by
  rw [redactChar, if_pos h]

theorem redactChar_of_not_isContent {q : Quote} {c : Char} (h : ¬ q.isContent c = true) :
    q.redactChar c = [c] := by
  rw [redactChar, if_neg h]

theorem redactChar_of_outside {q : Quote} (h : q.inside = false) (c : Char) :
    q.redactChar c = [c] := by
  apply redactChar_of_not_isContent
  rw [isContent_iff, h]
  simp

@[simp] theorem redactChar_quote (q : Quote) : q.redactChar '\'' = ['\''] := by
  simp [redactChar, isContent, isMark]

/-- Only a quote leads into a string or out of it. -/
theorem inside_next_of_ne {q : Quote} {c : Char} (h : c ≠ '\'') : (q.next c).inside = q.inside := by
  unfold next
  split_ifs <;> rfl

theorem next_of_isContent {q : Quote} {c : Char} (h : q.isContent c = true) :
    q.next c = ⟨true, false⟩ := by
  obtain ⟨hin, hb, hq⟩ := isContent_iff.1 h
  simp [next, hb, hq, hin]

theorem not_isStructural_of_isContent {q : Quote} {c : Char} (h : q.isContent c = true) :
    q.isStructural c = false := by
  simp [isStructural, (isContent_iff.1 h).1]

/-- Outside of strings nothing is written over. -/
theorem redact_of_ne {q : Quote} {cs : List Char} (hq : q.inside = false)
    (h : ∀ c ∈ cs, c ≠ '\'') : q.redact cs = cs := by
  induction cs generalizing q with
  | nil => rfl
  | cons c cs ih =>
    have hnext : (q.next c).inside = false := by
      rw [inside_next_of_ne (h c List.mem_cons_self)]
      exact hq
    rw [redact_cons, redactChar_of_outside hq, ih hnext fun d hd => h d (List.mem_cons_of_mem _ hd)]
    rfl

@[simp] theorem byteLength_redactChar (q : Quote) (c : Char) :
    byteLength (q.redactChar c) = c.utf8Size := by
  have hx : ∀ n, byteLength (List.replicate n 'x') = n := by
    intro n
    rw [byteLength_of_ascii fun d hd => by rw [List.eq_of_mem_replicate hd]; decide,
      List.length_replicate]
  unfold redactChar
  split
  · exact hx c.utf8Size
  · simp

@[simp] theorem byteLength_redact (q : Quote) (cs : List Char) :
    byteLength (q.redact cs) = byteLength cs := by
  induction cs generalizing q with
  | nil => rfl
  | cons c cs ih => simp [ih]

theorem redactChar_ne_nil (q : Quote) (c : Char) : q.redactChar c ≠ [] := by
  intro h
  have hlen := q.byteLength_redactChar c
  rw [h] at hlen
  exact absurd hlen.symm (Nat.ne_of_gt c.utf8Size_pos)

/-- Quotes stay, and none is written. -/
theorem quote_mem_redactChar {q : Quote} {c : Char} : '\'' ∈ q.redactChar c ↔ '\'' = c := by
  by_cases hc : q.isContent c = true
  · rw [redactChar_of_isContent hc]
    refine iff_of_false ?_ (Ne.symm (isContent_iff.1 hc).2.2)
    intro hmem
    exact absurd (List.eq_of_mem_replicate hmem) (by decide)
  · rw [redactChar_of_not_isContent hc, List.mem_singleton]

theorem quote_mem_redact {q : Quote} {cs : List Char} : '\'' ∈ q.redact cs ↔ '\'' ∈ cs := by
  induction cs generalizing q with
  | nil => rfl
  | cons c cs ih => rw [redact_cons, List.mem_append, quote_mem_redactChar, ih, List.mem_cons]

end Quote

/-! ## Readers -/

/-- A reader that follows strings and passes over what stands in them: it goes on from a character
of a string as from as many `x`. -/
structure Unaware {σ : Type} (next : σ → Char → σ) (quote : σ → Quote) : Prop where
  quote_next : ∀ s c, quote (next s c) = (quote s).next c
  content : ∀ s c, (quote s).isContent c = true →
    (List.replicate c.utf8Size 'x').foldl next s = next s c

namespace Unaware

variable {σ : Type} {next : σ → Char → σ} {quote : σ → Quote}

theorem foldl_redactChar (h : Unaware next quote) (s : σ) (c : Char) :
    ((quote s).redactChar c).foldl next s = next s c := by
  by_cases hc : (quote s).isContent c = true
  · rw [Quote.redactChar_of_isContent hc]
    exact h.content s c hc
  · rw [Quote.redactChar_of_not_isContent hc]
    rfl

/-- The reader ends up in the same state. -/
theorem foldl_redact (h : Unaware next quote) (s : σ) (cs : List Char) :
    ((quote s).redact cs).foldl next s = cs.foldl next s := by
  induction cs generalizing s with
  | nil => rfl
  | cons c cs ih =>
    rw [Quote.redact_cons, List.foldl_append, h.foldl_redactChar, ← h.quote_next, ih,
      List.foldl_cons]

end Unaware

/-- Reading a run of `x` is reading one, if one more does nothing. -/
theorem foldl_replicate_of_stable {σ : Type} {next : σ → Char → σ} {s t : σ}
    (hfirst : next s 'x' = t) (hstable : next t 'x' = t) (c : Char) :
    (List.replicate c.utf8Size 'x').foldl next s = t := by
  obtain ⟨n, hn⟩ := Nat.exists_eq_succ_of_ne_zero (Nat.ne_of_gt c.utf8Size_pos)
  rw [hn, List.replicate_succ, List.foldl_cons, hfirst]
  clear hn
  induction n with
  | zero => rfl
  | succ n ih => rw [List.replicate_succ, List.foldl_cons, hstable, ih]

namespace Quote

theorem isContent_x {q : Quote} (h : q.inside = true) : q.isContent 'x' = true := by
  simp [isContent, isMark, h]

theorem unaware : Unaware next id := by
  refine ⟨fun _ _ => rfl, fun q c hc => ?_⟩
  have hx : q.next 'x' = ⟨true, false⟩ := next_of_isContent (isContent_x (isContent_iff.1 hc).1)
  rw [show q.next c = ⟨true, false⟩ from next_of_isContent hc]
  exact foldl_replicate_of_stable hx rfl c

@[simp] theorem after_redact (q : Quote) (cs : List Char) : q.after (q.redact cs) = q.after cs :=
  unaware.foldl_redact q cs

end Quote

namespace Level

theorem next_of_isContent {l : Level} {c : Char} (h : l.quote.isContent c = true) :
    l.next c = { l with quote := ⟨true, false⟩ } := by
  have hs := Quote.not_isStructural_of_isContent h
  simp [next, Quote.next_of_isContent h, Quote.parenChange_of_not_structural hs, hs]

theorem unaware : Unaware next Level.quote := by
  refine ⟨fun _ _ => rfl, fun l c hc => ?_⟩
  have hin := (Quote.isContent_iff.1 hc).1
  rw [next_of_isContent hc]
  exact foldl_replicate_of_stable (next_of_isContent (Quote.isContent_x hin))
    (next_of_isContent (Quote.isContent_x rfl)) c

@[simp] theorem after_redact (l : Level) (cs : List Char) :
    l.after (l.quote.redact cs) = l.after cs :=
  unaware.foldl_redact l cs

section

variable {cut : Level → Char → Bool}
  (hcut : ∀ l c, cut l c = true → l.quote.isStructural c = true)

include hcut

theorem not_cut_of_isContent {l : Level} {c : Char} (h : l.quote.isContent c = true) :
    cut l c = false := by
  refine Bool.eq_false_iff.2 fun hc => ?_
  have hs := hcut l c hc
  rw [Quote.not_isStructural_of_isContent h] at hs
  exact Bool.noConfusion hs

theorem uncut_replicate {l : Level} (hin : l.quote.inside = true) (n : Nat) :
    Uncut next cut l (List.replicate n 'x') := by
  induction n generalizing l with
  | zero => exact uncut_nil _ _ _
  | succ n ih =>
    have hx := Quote.isContent_x hin
    rw [List.replicate_succ, uncut_cons]
    refine ⟨not_cut_of_isContent hcut hx, ih ?_⟩
    rw [next_of_isContent hx]

/-- What a reader does at structural characters only, it does at none of the characters written. -/
theorem uncut_redactChar (l : Level) (c : Char) :
    Uncut next cut l (l.quote.redactChar c) ↔ cut l c = false := by
  by_cases hc : l.quote.isContent c = true
  · rw [Quote.redactChar_of_isContent hc]
    exact iff_of_true (uncut_replicate hcut (Quote.isContent_iff.1 hc).1 _)
      (not_cut_of_isContent hcut hc)
  · rw [Quote.redactChar_of_not_isContent hc, uncut_cons]
    exact and_iff_left (uncut_nil _ _ _)

end

theorem closes_isStructural (l : Level) (c : Char) (h : l.closes c = true) :
    l.quote.isStructural c = true := by
  simp only [closes, Bool.and_eq_true] at h
  exact h.1.1

theorem cuts_isStructural (l : Level) (c : Char) (h : l.cuts c = true) :
    l.quote.isStructural c = true := by
  simp only [cuts, Bool.and_eq_true] at h
  exact h.1.1.1

theorem open_redact {l : Level} {cs : List Char} : l.Open (l.quote.redact cs) ↔ l.Open cs := by
  induction cs generalizing l with
  | nil => rfl
  | cons c cs ih =>
    rw [Quote.redact_cons, open_append, open_cons, ← ih]
    refine and_congr (uncut_redactChar closes_isStructural l c) ?_
    rw [show l.after (l.quote.redactChar c) = l.next c from unaware.foldl_redactChar l c]
    rfl

theorem enclosed_redact {body : List Char} (h : Enclosed body) :
    Enclosed (Quote.redact {} body) := by
  refine ⟨open_redact.2 h.stays, ?_⟩
  rw [show Level.after {} (Quote.redact {} body) = Level.after {} body from after_redact {} body]
  exact h.ends

/-- The redacted text is cut into the redacted pieces. Behind a cut the string state is that of the
start. -/
theorem pieces_redact_eq_cons {l : Level} {cs p : List Char} {ps : List (List Char)}
    (h : l.pieces cs = p :: ps) :
    l.pieces (l.quote.redact cs) = l.quote.redact p :: ps.map (Quote.redact {}) := by
  induction cs generalizing l p ps with
  | nil =>
    obtain ⟨rfl, rfl⟩ := List.cons.inj h
    rfl
  | cons c cs ih =>
    obtain ⟨q, qs, hq⟩ := exists_pieces_eq_cons next cuts (l.next c) cs
    have hrest : Text.pieces next cuts (l.next c) ((l.quote.next c).redact cs) =
        (l.quote.next c).redact q :: qs.map (Quote.redact {}) := ih hq
    unfold pieces at h ⊢
    rw [Quote.redact_cons]
    cases hc : l.cuts c with
    | true =>
      have hs := cuts_isStructural l c hc
      rw [pieces_cons_cut next cuts hc, hq] at h
      obtain ⟨rfl, rfl⟩ := List.cons.inj h
      rw [Quote.redactChar_of_outside (Quote.inside_of_isStructural hs), List.singleton_append,
        pieces_cons_cut next cuts hc, hrest, Quote.next_of_isStructural hs]
      rfl
    | false =>
      rw [pieces_cons_uncut next cuts hc, hq, prepend_cons] at h
      obtain ⟨rfl, rfl⟩ := List.cons.inj h
      rw [pieces_append_uncut next cuts ((uncut_redactChar cuts_isStructural l c).2 hc),
        unaware.foldl_redactChar, hrest, prepend_cons]
      rfl

theorem pieces_redact (body : List Char) :
    Level.pieces {} (Quote.redact {} body) = (Level.pieces {} body).map (Quote.redact {}) := by
  obtain ⟨p, ps, hp⟩ := List.exists_cons_of_ne_nil (Level.pieces_ne_nil {} body)
  rw [hp]
  exact pieces_redact_eq_cons hp

/-- Pieces end outside of strings if the text does. -/
theorem inside_after_pieces {l : Level} {cs p : List Char} {ps : List (List Char)}
    (h : l.pieces cs = p :: ps) (hcs : (l.quote.after cs).inside = false) :
    (l.quote.after p).inside = false ∧ ∀ q ∈ ps, (Quote.after {} q).inside = false := by
  induction cs generalizing l p ps with
  | nil =>
    obtain ⟨rfl, rfl⟩ := List.cons.inj h
    exact ⟨hcs, by simp⟩
  | cons c cs ih =>
    obtain ⟨q, qs, hq⟩ := exists_pieces_eq_cons next cuts (l.next c) cs
    obtain ⟨hhead, htail⟩ := ih hq hcs
    unfold pieces at h
    cases hc : l.cuts c with
    | true =>
      have hs := cuts_isStructural l c hc
      rw [pieces_cons_cut next cuts hc, hq] at h
      obtain ⟨rfl, rfl⟩ := List.cons.inj h
      refine ⟨Quote.inside_of_isStructural hs, ?_⟩
      intro r hr
      rcases List.mem_cons.1 hr with rfl | hr
      · rw [show (l.next c).quote = {} from Quote.next_of_isStructural hs] at hhead
        exact hhead
      · exact htail r hr
    | false =>
      rw [pieces_cons_uncut next cuts hc, hq, prepend_cons] at h
      obtain ⟨rfl, rfl⟩ := List.cons.inj h
      exact ⟨hhead, htail⟩

theorem Enclosed.inside_after_of_mem_pieces {body : List Char} (h : Enclosed body) :
    ∀ p ∈ Level.pieces {} body, (Quote.after {} p).inside = false := by
  obtain ⟨q, qs, hq⟩ := List.exists_cons_of_ne_nil (Level.pieces_ne_nil {} body)
  obtain ⟨hhead, htail⟩ := inside_after_pieces hq h.inside_after
  intro p hp
  rw [hq] at hp
  rcases List.mem_cons.1 hp with rfl | hp
  · exact hhead
  · exact htail p hp

end Level

namespace CallFinder

theorem step_of_isContent {s : CallFinder} {c : Char} (h : s.quote.isContent c = true) :
    s.step c =
      { s with pos := s.pos + c.utf8Size, quote := ⟨true, false⟩, lead := .nothing } := by
  have hs := Quote.not_isStructural_of_isContent h
  simp [step, nextLead, hs, Quote.next_of_isContent h]

theorem foldl_step_replicate {s : CallFinder} (hs : s.quote.inside = true) (n : Nat) :
    (List.replicate (n + 1) 'x').foldl step s =
      { s with pos := s.pos + (n + 1), quote := ⟨true, false⟩, lead := .nothing } := by
  induction n generalizing s with
  | zero => exact step_of_isContent (Quote.isContent_x hs)
  | succ n ih =>
    rw [List.replicate_succ, List.foldl_cons, step_of_isContent (Quote.isContent_x hs), ih rfl]
    simp only [CallFinder.mk.injEq, and_true]
    rw [show 'x'.utf8Size = 1 from rfl]
    omega

/-- A character of a string is nothing but its bytes to the pass. -/
theorem unaware : Unaware step CallFinder.quote := by
  refine ⟨fun _ _ => rfl, fun s c hc => ?_⟩
  obtain ⟨n, hn⟩ := Nat.exists_eq_succ_of_ne_zero (Nat.ne_of_gt c.utf8Size_pos)
  rw [step_of_isContent hc, hn]
  exact foldl_step_replicate (Quote.isContent_iff.1 hc).1 n

end CallFinder

/-- The pass finds the same calls in the redacted text. -/
theorem CallShape.findAll_redact (source : List Char) :
    findAll (Quote.redact {} source) = findAll source := by
  unfold findAll
  rw [show (Quote.redact {} source).foldl CallFinder.step {} =
    source.foldl CallFinder.step {} from CallFinder.unaware.foldl_redact {} source]

/-! ## Calls -/

/-- A text that ends outside of strings ends with a character that stays. -/
theorem Quote.redact_concat {q : Quote} {a : List Char} {c : Char}
    (h : (q.after (a ++ [c])).inside = false) : q.redact (a ++ [c]) = q.redact a ++ [c] := by
  rw [redact_append, redact_cons, redact_nil, List.append_nil, redactChar_of_not_isContent]
  intro hc
  rw [after_append, after_cons, after_nil, next_of_isContent hc] at h
  exact Bool.noConfusion h

theorem Quote.getLast?_redact {q : Quote} {cs : List Char} (h : (q.after cs).inside = false) :
    (q.redact cs).getLast? = cs.getLast? := by
  rcases List.eq_nil_or_concat cs with rfl | ⟨a, c, rfl⟩
  · rfl
  · rw [List.concat_eq_append] at h ⊢
    rw [redact_concat h, List.getLast?_append_of_ne_nil _ (by simp),
      List.getLast?_append_of_ne_nil _ (by simp)]

namespace WrittenCall

variable {source before name blanks body rest : List Char}

theorem redact_front (h : WrittenCall source before name blanks body rest) :
    Quote.redact {} (CallShape.front before name blanks) =
      CallShape.front (Quote.redact {} before) name blanks := by
  unfold CallShape.front
  rw [Quote.redact_append, Quote.redact_of_ne h.outside]
  intro c hc
  rw [← List.append_assoc] at hc
  rcases List.mem_append.1 hc with hc | hc
  · exact ne_of_mem_name_blanks h.name_chars h.blank_chars (by decide) (by decide) c hc
  · rw [List.mem_singleton.1 hc]
    decide

/-- Where a call is written, the redacted call is written. -/
theorem redact (h : WrittenCall source before name blanks body rest) :
    WrittenCall (Quote.redact {} source) (Quote.redact {} before) name blanks
      (Quote.redact {} body) (Quote.redact {} rest) := by
  refine ⟨?_, ?_, ?_, h.digit_free, h.name_ne_nil, h.name_chars, h.blank_chars,
    Level.enclosed_redact h.enclosed⟩
  · have hs : (Quote.after {} body).isStructural ')' = true :=
      Quote.isStructural_of_outside h.enclosed.inside_after (by decide) (by decide)
    rw [h.source_eq_body, Quote.redact_append, h.redact_front, h.after_front, Quote.redact_append,
      Quote.redact_cons, Quote.redactChar_of_outside h.enclosed.inside_after,
      Quote.next_of_isStructural hs, CallShape.front]
    simp
  · rw [Quote.after_redact]
    exact h.outside
  · rw [Quote.getLast?_redact h.outside]
    exact h.boundary

end WrittenCall

theorem Span.ofPieces_map_redact (start pos : Nat) (ps : List (List Char)) :
    Span.ofPieces start pos (ps.map (Quote.redact {})) = Span.ofPieces start pos ps := by
  induction ps generalizing start pos with
  | nil => rfl
  | cons p ps ih => simp only [List.map_cons, Span.ofPieces, Quote.byteLength_redact, ih]

theorem CallShape.ofParts_redact (before name blanks body : List Char) :
    ofParts (Quote.redact {} before) name blanks (Quote.redact {} body) =
      ofParts before name blanks body := by
  simp only [ofParts, ofBody, Quote.byteLength_redact, Level.pieces_redact,
    Span.ofPieces_map_redact]

/-! ## Arguments -/

namespace Text

theorem next_of_isBlank {c : Char} (h : isBlank c = true) : Quote.next {} c = {} :=
  Quote.next_of_isStructural (Quote.isStructural_of_outside rfl (ne_of_isBlank h (by decide))
    (ne_of_isBlank h (by decide)))

theorem after_leading (p : List Char) : Quote.after {} (leading p) = {} := by
  have hblank := isAllBlank_leading p
  generalize leading p = w at hblank
  induction w with
  | nil => rfl
  | cons c w ih =>
    simp only [isAllBlank, List.all_cons, Bool.and_eq_true] at hblank
    rw [Quote.after_cons, next_of_isBlank hblank.1, ih hblank.2]

/-- Blanks in front are structural, and the first other character stays. -/
theorem trimStart_redact (p : List Char) :
    leading (Quote.redact {} p) = leading p ∧
      trimStart (Quote.redact {} p) = Quote.redact {} (trimStart p) := by
  induction p with
  | nil => exact ⟨rfl, rfl⟩
  | cons c p ih =>
    unfold leading trimStart at ih ⊢
    rw [Quote.redact_cons, Quote.redactChar_of_outside rfl, List.singleton_append]
    by_cases hb : isBlank c = true
    · rw [List.takeWhile_cons, List.takeWhile_cons, if_pos hb, if_pos hb, List.dropWhile_cons,
        List.dropWhile_cons, if_pos hb, if_pos hb, next_of_isBlank hb, ih.1, ih.2]
      exact ⟨rfl, rfl⟩
    · rw [List.takeWhile_cons, List.takeWhile_cons, if_neg hb, if_neg hb, List.dropWhile_cons,
        List.dropWhile_cons, if_neg hb, if_neg hb, Quote.redact_cons,
        Quote.redactChar_of_outside rfl]
      exact ⟨rfl, rfl⟩

theorem trimEnd_concat (p : List Char) (c : Char) :
    trimEnd (p ++ [c]) = if isBlank c then trimEnd p else p ++ [c] := by
  unfold trimEnd
  rw [List.reverse_append, List.reverse_singleton, List.singleton_append, List.dropWhile_cons]
  split
  · rfl
  · simp

theorem trimEnd_redact {q : Quote} {p : List Char} (h : (q.after p).inside = false) :
    trimEnd (q.redact p) = q.redact (trimEnd p) := by
  -- From the end on: a blank there is outside of strings, and so is all before it.
  induction p using List.reverseRecOn with
  | nil => rfl
  | append_singleton p c ih =>
    rw [Quote.redact_concat h, trimEnd_concat, trimEnd_concat]
    by_cases hb : isBlank c = true
    · rw [if_pos hb, if_pos hb]
      apply ih
      rw [Quote.after_append, Quote.after_cons, Quote.after_nil,
        Quote.inside_next_of_ne (ne_of_isBlank hb (by decide))] at h
      exact h
    · rw [if_neg hb, if_neg hb, Quote.redact_concat h]

theorem trim_redact {p : List Char} (h : (Quote.after {} p).inside = false) :
    trim (Quote.redact {} p) = Quote.redact {} (trim p) := by
  unfold trim
  rw [(trimStart_redact p).2]
  apply trimEnd_redact
  rw [← leading_append_trimStart p, Quote.after_append, after_leading] at h
  exact h

end Text

end FlowExpr
