import FlowExpr.Call.Find
import FlowExpr.Proofs.Text.Pieces
import Mathlib.Tactic.SplitIfs

/-!
# Reading on from one open parenthesis

The pass keeps a frame for every open parenthesis. `Level` follows a single one of them and knows
nothing of the others: it counts the parentheses opened since, and the brackets and braces met
while that count was zero.

* `body?` is the text up to the parenthesis that closes the one at hand, and `body?_eq_some_iff`
  says which text that is: it ends at the first closer that comes while the count is zero.
* `Enclosed` is such a text by itself. Inside it the count never falls below zero.
* `pieces` cuts a text at the commas that belong to the parenthesis at hand.
-/

namespace FlowExpr

/-! ## Counting parentheses -/

namespace Quote

/-- What a character adds to the number of open parentheses. -/
def parenChange (q : Quote) (c : Char) : Int :=
  if q.isStructural c then (if c = '(' then 1 else if c = ')' then -1 else 0) else 0

/-- Opened minus closed parentheses of a text, those in strings left out. -/
def parenBalance (q : Quote) : List Char → Int
  | [] => 0
  | c :: cs => q.parenChange c + (q.next c).parenBalance cs

@[simp] theorem parenBalance_nil (q : Quote) : q.parenBalance [] = 0 := rfl

@[simp] theorem parenBalance_cons (q : Quote) (c : Char) (cs : List Char) :
    q.parenBalance (c :: cs) = q.parenChange c + (q.next c).parenBalance cs := rfl

theorem parenBalance_append (q : Quote) (a b : List Char) :
    q.parenBalance (a ++ b) = q.parenBalance a + (q.after a).parenBalance b := by
  induction a generalizing q with
  | nil => simp
  | cons c a ih => simp [ih, Int.add_assoc]

theorem parenChange_of_not_structural {q : Quote} {c : Char} (h : q.isStructural c = false) :
    q.parenChange c = 0 := by
  simp [parenChange, h]

theorem parenChange_of_ne {q : Quote} {c : Char} (ho : c ≠ '(') (hc : c ≠ ')') :
    q.parenChange c = 0 := by
  simp [parenChange, ho, hc]

/-- Outside of strings everything but quotes and backslashes is structural. -/
theorem isStructural_of_outside {q : Quote} {c : Char} (hq : q.inside = false) (hb : c ≠ '\\')
    (ht : c ≠ '\'') : q.isStructural c = true := by
  simp [isStructural, hq, hb, ht]

theorem eq_of_not_structural {q : Quote} {c : Char} (hs : q.isStructural c ≠ true)
    (hq : q.inside = false) : c = '\\' ∨ c = '\'' := by
  by_cases hb : c = '\\'
  · exact Or.inl hb
  by_cases ht : c = '\''
  · exact Or.inr ht
  exact absurd (isStructural_of_outside hq hb ht) hs

/-- A text without quotes does not lead into a string. -/
theorem inside_after_of_ne {q : Quote} {cs : List Char} (hq : q.inside = false)
    (h : ∀ c ∈ cs, c ≠ '\'') : (q.after cs).inside = false := by
  induction cs generalizing q with
  | nil => exact hq
  | cons c cs ih =>
    refine ih ?_ fun d hd => h d (List.mem_cons_of_mem _ hd)
    have hc := h c List.mem_cons_self
    unfold next
    split_ifs <;> exact hq

theorem inside_of_isStructural {q : Quote} {c : Char} (h : q.isStructural c = true) :
    q.inside = false := by
  simp only [isStructural, Bool.and_eq_true, Bool.not_eq_true'] at h
  exact h.1.1

end Quote

/-! ## One open parenthesis -/

/-- What a reader behind an open parenthesis remembers. -/
structure Level where
  quote : Quote := {}
  /-- Parentheses opened since and not closed. -/
  inner : Int := 0
  /-- Brackets and braces met while `inner` was zero. -/
  depth : Depth := {}

namespace Level

/-- Brackets and braces, the kinds counted apart from parentheses. -/
def isBracket (c : Char) : Bool := c = '[' || c = ']' || c = '{' || c = '}'

/-- One more character. -/
def next (l : Level) (c : Char) : Level where
  quote := l.quote.next c
  inner := l.inner + l.quote.parenChange c
  depth :=
    if l.quote.isStructural c && l.inner = 0 && isBracket c then l.depth.track c else l.depth

/-- The character closes the parenthesis at hand. -/
def closes (l : Level) (c : Char) : Bool :=
  l.quote.isStructural c && c = ')' && l.inner = 0

/-- The character is a comma that cuts the argument list of the parenthesis at hand. -/
def cuts (l : Level) (c : Char) : Bool :=
  l.quote.isStructural c && c = ',' && l.inner = 0 && l.depth.isLevel

/-- The state after a text. -/
def after (l : Level) (cs : List Char) : Level := cs.foldl next l

@[simp] theorem after_nil (l : Level) : l.after [] = l := rfl

@[simp] theorem after_cons (l : Level) (c : Char) (cs : List Char) :
    l.after (c :: cs) = (l.next c).after cs := rfl

theorem after_append (l : Level) (a b : List Char) : l.after (a ++ b) = (l.after a).after b :=
  List.foldl_append

@[simp] theorem quote_after (l : Level) (cs : List Char) :
    (l.after cs).quote = l.quote.after cs := by
  induction cs generalizing l with
  | nil => rfl
  | cons c cs ih => exact ih (l.next c)

theorem inner_after (l : Level) (cs : List Char) :
    (l.after cs).inner = l.inner + l.quote.parenBalance cs := by
  induction cs generalizing l with
  | nil => simp
  | cons c cs ih =>
    rw [after_cons, ih]
    simp [next, Int.add_assoc]

theorem closes_iff {l : Level} {c : Char} :
    l.closes c = true ↔ l.quote.inside = false ∧ c = ')' ∧ l.inner = 0 := by
  simp only [closes, Quote.isStructural, Bool.and_eq_true, Bool.not_eq_true', bne_iff_ne,
    decide_eq_true_eq]
  constructor
  · intro h
    obtain ⟨⟨⟨⟨hq, -⟩, -⟩, hc⟩, hi⟩ := h
    exact ⟨hq, hc, hi⟩
  · intro h
    obtain ⟨hq, rfl, hi⟩ := h
    exact ⟨⟨⟨⟨hq, by decide⟩, by decide⟩, rfl⟩, hi⟩

theorem cuts_iff {l : Level} {c : Char} :
    l.cuts c = true ↔
      l.quote.inside = false ∧ c = ',' ∧ l.inner = 0 ∧ l.depth.isLevel = true := by
  simp only [cuts, Quote.isStructural, Bool.and_eq_true, Bool.not_eq_true', bne_iff_ne,
    decide_eq_true_eq]
  constructor
  · intro h
    obtain ⟨⟨⟨⟨⟨hq, -⟩, -⟩, hc⟩, hi⟩, hd⟩ := h
    exact ⟨hq, hc, hi, hd⟩
  · intro h
    obtain ⟨hq, rfl, hi, hd⟩ := h
    exact ⟨⟨⟨⟨⟨hq, by decide⟩, by decide⟩, rfl⟩, hi⟩, hd⟩

theorem cuts_eq_comma (l : Level) (c : Char) (h : l.cuts c = true) : c = ',' := (cuts_iff.1 h).2.1

/-- The text up to the parenthesis that closes the one at hand. -/
def body? (l : Level) : List Char → Option (List Char)
  | [] => none
  | c :: cs => if l.closes c then some [] else ((l.next c).body? cs).map (c :: ·)

/-- The argument list cut at the commas of the parenthesis at hand. -/
def pieces (l : Level) (cs : List Char) : List (List Char) := Text.pieces next cuts l cs

theorem pieces_ne_nil (l : Level) (cs : List Char) : l.pieces cs ≠ [] :=
  Text.pieces_ne_nil next cuts l cs

theorem join_pieces (l : Level) (cs : List Char) : Text.joinFields ',' (l.pieces cs) = cs :=
  Text.join_pieces next cuts cuts_eq_comma l cs

theorem body?_cons_closes {l : Level} {c : Char} (h : l.closes c = true) (cs : List Char) :
    l.body? (c :: cs) = some [] := by
  rw [body?, if_pos h]

theorem body?_cons_open {l : Level} {c : Char} (h : l.closes c = false) (cs : List Char) :
    l.body? (c :: cs) = ((l.next c).body? cs).map (c :: ·) := by
  rw [body?, if_neg (by simp [h])]

/-- No character of the text closes the parenthesis at hand. -/
def Open (l : Level) (cs : List Char) : Prop := Text.Uncut next closes l cs

theorem open_nil (l : Level) : l.Open [] := Text.uncut_nil next closes l

theorem open_cons {l : Level} {c : Char} {cs : List Char} :
    l.Open (c :: cs) ↔ l.closes c = false ∧ (l.next c).Open cs :=
  Text.uncut_cons next closes

theorem open_append {l : Level} {a b : List Char} :
    l.Open (a ++ b) ↔ l.Open a ∧ (l.after a).Open b :=
  Text.uncut_append next closes

/-- The body is what stands before the first closer. -/
theorem body?_eq_some_iff {l : Level} {cs body : List Char} :
    l.body? cs = some body ↔
      l.Open body ∧ (l.after body).closes ')' = true ∧ ∃ rest, cs = body ++ ')' :: rest := by
  induction cs generalizing l body with
  | nil => simp [body?]
  | cons c cs ih =>
    cases hc : l.closes c with
    | true =>
      rw [body?_cons_closes hc]
      obtain ⟨hq, rfl, hi⟩ := closes_iff.1 hc
      constructor
      · intro h
        obtain rfl := Option.some.inj h
        exact ⟨open_nil l, hc, cs, rfl⟩
      · intro h
        obtain ⟨hopen, -, rest, hrest⟩ := h
        cases body with
        | nil => rfl
        | cons d body =>
          obtain ⟨rfl, -⟩ := List.cons.inj hrest
          simp [open_cons, hc] at hopen
    | false =>
      rw [body?_cons_open hc, Option.map_eq_some_iff]
      constructor
      · intro h
        obtain ⟨b, hb, rfl⟩ := h
        obtain ⟨hopen, hcl, rest, hrest⟩ := ih.1 hb
        exact ⟨open_cons.2 ⟨hc, hopen⟩, hcl, rest, by rw [hrest]; rfl⟩
      · intro h
        obtain ⟨hopen, hcl, rest, hrest⟩ := h
        cases body with
        | nil =>
          obtain ⟨rfl, -⟩ := List.cons.inj hrest
          simp [hc] at hcl
        | cons d b =>
          obtain ⟨rfl, htail⟩ := List.cons.inj hrest
          exact ⟨b, ih.2 ⟨(open_cons.1 hopen).2, hcl, rest, htail⟩, rfl⟩

theorem body?_eq_none_iff {l : Level} {cs : List Char} : l.body? cs = none ↔ l.Open cs := by
  induction cs generalizing l with
  | nil => simp [body?, open_nil]
  | cons c cs ih =>
    cases hc : l.closes c with
    | true => simp [body?_cons_closes hc, open_cons, hc]
    | false => simp [body?_cons_open hc, open_cons, hc, ih]

/-- The text is what a pair of matching parentheses encloses. -/
structure Enclosed (body : List Char) : Prop where
  /-- No closer in it belongs to the outer pair. -/
  stays : ({} : Level).Open body
  /-- A closer right behind it does. -/
  ends : (({} : Level).after body).closes ')' = true

theorem body?_initial_eq_some_iff {cs body : List Char} :
    ({} : Level).body? cs = some body ↔ Enclosed body ∧ ∃ rest, cs = body ++ ')' :: rest := by
  rw [body?_eq_some_iff]
  constructor
  · intro h
    obtain ⟨hopen, hcl, hrest⟩ := h
    exact ⟨⟨hopen, hcl⟩, hrest⟩
  · intro h
    obtain ⟨⟨hopen, hcl⟩, hrest⟩ := h
    exact ⟨hopen, hcl, hrest⟩

theorem zero_le_inner_next {l : Level} {c : Char} (hl : 0 ≤ l.inner) (hc : l.closes c = false) :
    0 ≤ (l.next c).inner := by
  show 0 ≤ l.inner + l.quote.parenChange c
  by_cases hs : l.quote.isStructural c = true
  · by_cases hp : c = ')'
    · have hi : l.inner ≠ 0 := by
        intro hi
        simp only [closes, hp ▸ hs, hp, hi, decide_true, Bool.and_self] at hc
        exact Bool.noConfusion hc
      have : -1 ≤ l.quote.parenChange c := by
        unfold Quote.parenChange
        split_ifs <;> omega
      omega
    · have : 0 ≤ l.quote.parenChange c := by
        unfold Quote.parenChange
        split_ifs <;> omega
      omega
  · rw [Quote.parenChange_of_not_structural (by simpa using hs)]
    omega

/-- As long as nothing closes the parenthesis at hand, what was opened since stays counted. -/
theorem zero_le_inner_of_open {l : Level} {cs : List Char} (hl : 0 ≤ l.inner) (h : l.Open cs) :
    0 ≤ (l.after cs).inner := by
  induction cs generalizing l with
  | nil => exact hl
  | cons c cs ih =>
    obtain ⟨hc, hcs⟩ := open_cons.1 h
    exact ih (zero_le_inner_next hl hc) hcs

namespace Enclosed

variable {body : List Char}

/-- Up to every point at least as many parentheses were opened as closed. -/
theorem zero_le_parenBalance (h : Enclosed body) {u v : List Char} (hu : body = u ++ v) :
    0 ≤ Quote.parenBalance {} u := by
  subst hu
  have hinner := zero_le_inner_of_open (by decide) (open_append.1 h.stays).1
  rwa [inner_after, Int.zero_add] at hinner

theorem parenBalance_eq_zero (h : Enclosed body) : Quote.parenBalance {} body = 0 := by
  have hinner := (closes_iff.1 h.ends).2.2
  rwa [inner_after, Int.zero_add] at hinner

theorem inside_after (h : Enclosed body) : (Quote.after {} body).inside = false := by
  have hout := (closes_iff.1 h.ends).1
  rwa [quote_after] at hout

end Enclosed

end Level

end FlowExpr
