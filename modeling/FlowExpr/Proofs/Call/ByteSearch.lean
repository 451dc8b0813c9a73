import FlowExpr.Proofs.Call.Written
import FlowExpr.Proofs.Text.Bytes
import Mathlib.Data.List.Sort

/-!
# Calls by searching the bytes

`ByteSearch.calls` is the plainest account of the calls of a text. It looks at the bytes alone, goes
over all offsets, and decides for each by itself whether a call starts there: it reads the run of
name bytes, checks by a fold over everything in front that no string is open, skips blanks, and
then counts parentheses up to the closing one. Nothing is carried from one offset to the next.

`spans_findAll_eq_byteSearch` says that the pass, which reads characters and never goes back, finds
these calls in this order.
-/

namespace FlowExpr

open Text

namespace ByteSearch

/-- The string state before the byte at `i`. -/
def quoteBefore (bytes : List Char) (i : Nat) : Quote := Quote.after {} (bytes.take i)

/-- The first offset from `i` on at which the byte does not have the property. -/
def runEnd (p : Char → Bool) (bytes : List Char) (i : Nat) : Nat :=
  i + ((bytes.drop i).takeWhile p).length

/-- The count of open parentheses behind the byte at `r`, started with one behind offset `q`. -/
def parenCount (bytes : List Char) (q r : Nat) : Int :=
  1 + (quoteBefore bytes (q + 1)).parenBalance ((bytes.drop (q + 1)).take (r - q))

/-- The first offset behind `q` at which the count is zero. -/
def closer? (bytes : List Char) (q : Nat) : Option Nat :=
  (List.range bytes.length).find? fun r => q < r && parenCount bytes q r = 0

/-- Name and argument list of the call that starts at `p`. -/
def callAt? (bytes : List Char) (p : Nat) : Option (Span × Span) :=
  let e := runEnd isNameChar bytes p
  let q := runEnd isAsciiBlank bytes e
  if p < e ∧ bytes[p]?.any Char.isDigit = false ∧
      (bytes.take p).getLast?.any isNameChar = false ∧ (quoteBefore bytes p).inside = false ∧
      bytes[q]? = some '(' then
    (closer? bytes q).map fun r => (⟨p, e⟩, ⟨q + 1, r⟩)
  else none

/-- All calls, in the order of their offsets. -/
def calls (bytes : List Char) : List (Span × Span) :=
  (List.range bytes.length).filterMap (callAt? bytes)

end ByteSearch

/-! ## Reading bytes is reading characters -/

namespace Quote

theorem next_of_wide {c : Char} (hc : 128 ≤ c.toNat) (q : Quote) :
    q.next c = { q with escaped := false } := by
  have hb : c ≠ '\\' := ne_of_wide hc (by decide)
  have ht : c ≠ '\'' := ne_of_wide hc (by decide)
  simp [next, hb, ht]

end Quote

namespace Level

/-- All that a wide character does is to end the effect of a backslash. -/
theorem next_of_wide {c : Char} (hc : 128 ≤ c.toNat) (l : Level) :
    l.next c = { l with quote := { l.quote with escaped := false } } := by
  have ho : c ≠ '(' := ne_of_wide hc (by decide)
  have hp : c ≠ ')' := ne_of_wide hc (by decide)
  have hb : isBracket c = false := by
    simp only [isBracket, Bool.or_eq_false_iff, decide_eq_false_iff_not]
    exact ⟨⟨⟨ne_of_wide hc (by decide), ne_of_wide hc (by decide)⟩, ne_of_wide hc (by decide)⟩,
      ne_of_wide hc (by decide)⟩
  simp [next, Quote.next_of_wide hc, Quote.parenChange_of_ne ho hp, hb]

theorem closes_of_wide {c : Char} (hc : 128 ≤ c.toNat) (l : Level) : l.closes c = false := by
  have hp : c ≠ ')' := ne_of_wide hc (by decide)
  simp [closes, hp]

theorem after_of_wide {cs : List Char} (hcs : ∀ c ∈ cs, 128 ≤ c.toNat) (hne : cs ≠ [])
    (l : Level) : l.after cs = { l with quote := { l.quote with escaped := false } } := by
  induction cs generalizing l with
  | nil => exact absurd rfl hne
  | cons c cs ih =>
    rw [after_cons, next_of_wide (hcs c List.mem_cons_self)]
    cases cs with
    | nil => rfl
    | cons d cs => rw [ih (fun e he => hcs e (List.mem_cons_of_mem _ he)) (by simp)]

theorem open_of_wide {cs : List Char} (hcs : ∀ c ∈ cs, 128 ≤ c.toNat) (l : Level) :
    l.Open cs := by
  intro u c v h
  exact closes_of_wide (hcs c (by rw [h]; simp)) _

theorem charBytes_ne_nil (c : Char) : charBytes c ≠ [] := by
  intro h
  have hlen := length_charBytes c
  rw [h] at hlen
  exact absurd hlen.symm (Nat.ne_of_gt c.utf8Size_pos)

/-- The bytes of a character move the reader as the character does. -/
theorem after_charBytes (l : Level) (c : Char) : l.after (charBytes c) = l.next c := by
  by_cases hc : c.toNat < 128
  · rw [charBytes_of_ascii hc]
    rfl
  · have hwide : 128 ≤ c.toNat := by omega
    rw [after_of_wide (fun b hb => le_toNat_of_mem_charBytes hwide hb) (charBytes_ne_nil c),
      next_of_wide hwide]

theorem open_charBytes (l : Level) (c : Char) :
    l.Open (charBytes c) ↔ l.closes c = false := by
  by_cases hc : c.toNat < 128
  · rw [charBytes_of_ascii hc, open_cons]
    exact and_iff_left (open_nil _)
  · have hwide : 128 ≤ c.toNat := by omega
    exact iff_of_true (open_of_wide (fun b hb => le_toNat_of_mem_charBytes hwide hb) l)
      (closes_of_wide hwide l)

@[simp] theorem after_encode (l : Level) (cs : List Char) : l.after (encode cs) = l.after cs := by
  induction cs generalizing l with
  | nil => rfl
  | cons c cs ih => rw [encode_cons, after_append, after_charBytes, ih, after_cons]

theorem open_encode {l : Level} {cs : List Char} : l.Open (encode cs) ↔ l.Open cs := by
  induction cs generalizing l with
  | nil => rfl
  | cons c cs ih =>
    rw [encode_cons, open_append, open_charBytes, after_charBytes, ih, open_cons]

theorem enclosed_encode {body : List Char} : Enclosed (encode body) ↔ Enclosed body := by
  constructor
  · intro h
    exact ⟨open_encode.1 h.stays, by simpa using h.ends⟩
  · intro h
    exact ⟨open_encode.2 h.stays, by simpa using h.ends⟩

end Level

theorem Quote.after_encode (cs : List Char) : Quote.after {} (encode cs) = Quote.after {} cs := by
  have h := Level.quote_after {} (encode cs)
  rw [Level.after_encode, Level.quote_after] at h
  exact h.symm

/-- The last byte is of a kind of ASCII characters exactly when the last character is. -/
theorem getLast?_encode_any {p : Char → Bool} (hp : ∀ c, 128 ≤ c.toNat → p c = false)
    (cs : List Char) : (encode cs).getLast?.any p = cs.getLast?.any p := by
  rcases List.eq_nil_or_concat cs with rfl | ⟨cs, c, rfl⟩
  · rfl
  rw [List.concat_eq_append, encode_append, encode_cons, encode_nil, List.append_nil,
    List.getLast?_append_of_ne_nil _ (Level.charBytes_ne_nil c),
    List.getLast?_append_of_ne_nil _ (by simp)]
  by_cases hc : c.toNat < 128
  · rw [charBytes_of_ascii hc]
  · have hwide : 128 ≤ c.toNat := by omega
    rw [List.getLast?_eq_some_getLast (Level.charBytes_ne_nil c)]
    have hlast := le_toNat_of_mem_charBytes hwide (List.getLast_mem (Level.charBytes_ne_nil c))
    simp [hp c hwide, hp _ hlast]

namespace WrittenCall

variable {source before name blanks body rest : List Char}

/-- The bytes of a written call are written as a call. -/
theorem encode (h : WrittenCall source before name blanks body rest) :
    WrittenCall (encode source) (encode before) name blanks (encode body) (encode rest) := by
  have hname : Text.encode name = name :=
    encode_of_ascii fun c hc => ascii_of_isNameChar (h.name_chars c hc)
  have hblanks : Text.encode blanks = blanks :=
    encode_of_ascii fun c hc => ascii_of_isAsciiBlank (h.blank_chars c hc)
  refine ⟨?_, ?_, ?_, h.digit_free, h.name_ne_nil, h.name_chars, h.blank_chars,
    Level.enclosed_encode.2 h.enclosed⟩
  · rw [h.source_eq]
    simp only [encode_append, encode_cons, hname, hblanks]
    rfl
  · rw [Quote.after_encode]
    exact h.outside
  · rw [getLast?_encode_any fun _ => isNameChar_of_wide]
    exact h.boundary

/-- Where the bytes are written as a call, so is the text. -/
theorem exists_of_encode {before' body' rest' : List Char}
    (h : WrittenCall (Text.encode source) before' name blanks body' rest') :
    ∃ before body rest, WrittenCall source before name blanks body rest ∧
      before' = Text.encode before ∧ body' = Text.encode body := by
  obtain ⟨c, t, hname⟩ := List.exists_cons_of_ne_nil h.name_ne_nil
  have hc : c.toNat < 128 :=
    ascii_of_isNameChar (h.name_chars c (by rw [hname]; exact List.mem_cons_self))
  -- The name starts with a character of the text, and then all is ASCII up to the parenthesis.
  have hsrc := h.source_eq
  rw [hname, List.cons_append] at hsrc
  obtain ⟨before, b, rfl, rfl, hb⟩ := exists_of_encode_eq_append_cons hc hsrc
  have hfront : ∀ d ∈ t ++ (blanks ++ ['(']), d.toNat < 128 := by
    intro d hd
    simp only [List.mem_append, List.mem_singleton] at hd
    rcases hd with hd | hd | rfl
    · exact ascii_of_isNameChar (h.name_chars d (by rw [hname]; exact List.mem_cons_of_mem _ hd))
    · exact ascii_of_isAsciiBlank (h.blank_chars d hd)
    · decide
  have hb' : Text.encode b = (t ++ (blanks ++ ['('])) ++ (body' ++ ')' :: rest') := by
    rw [← hb]
    simp
  obtain ⟨inside, rfl, hinside⟩ := exists_of_encode_eq_ascii_append hfront hb'
  obtain ⟨body, rest, rfl, rfl, rfl⟩ :=
    exists_of_encode_eq_append_cons (by decide) hinside.symm
  refine ⟨before, body, rest, ⟨?_, ?_, ?_, h.digit_free, h.name_ne_nil, h.name_chars,
    h.blank_chars, Level.enclosed_encode.1 h.enclosed⟩, rfl, rfl⟩
  · rw [hname]
    simp
  · rw [← Quote.after_encode]
    exact h.outside
  · rw [← getLast?_encode_any fun _ => isNameChar_of_wide]
    exact h.boundary

end WrittenCall

/-! ## What the search finds -/

namespace ByteSearch

theorem runEnd_append {p : Char → Bool} {a b c : List Char} (hb : ∀ x ∈ b, p x = true)
    (hc : ∀ x t, c = x :: t → p x = false) :
    runEnd p (a ++ (b ++ c)) a.length = a.length + b.length := by
  have hstop : c.takeWhile p = [] := by
    cases c with
    | nil => rfl
    | cons x t => simp [hc x t rfl]
  rw [runEnd, List.drop_left, List.takeWhile_append_of_pos hb, hstop, List.append_nil]

/-- A run takes what has the property off the front. -/
theorem exists_run (p : Char → Bool) (a s : List Char) :
    ∃ run rest, s = run ++ rest ∧ runEnd p (a ++ s) a.length = a.length + run.length ∧
      ∀ x ∈ run, p x = true := by
  refine ⟨s.takeWhile p, s.dropWhile p, List.takeWhile_append_dropWhile.symm, ?_, ?_⟩
  · rw [runEnd, List.drop_left]
  · intro x hx
    exact List.all_eq_true.1 List.all_takeWhile x hx

theorem parenCount_append {a : List Char} (ha : (Quote.after {} a).inside = false)
    (inside : List Char) (r : Nat) :
    parenCount (a ++ '(' :: inside) a.length r =
      1 + Quote.parenBalance {} (inside.take (r - a.length)) := by
  have hs : (Quote.after {} a).isStructural '(' = true :=
    Quote.isStructural_of_outside ha (by decide) (by decide)
  have htake : (a ++ '(' :: inside).take (a.length + 1) = a ++ ['('] :=
    List.take_length_add_append 1
  have hdrop : (a ++ '(' :: inside).drop (a.length + 1) = inside :=
    List.drop_length_add_append 1
  have hquote : Quote.after {} (a ++ ['(']) = {} := by
    rw [Quote.after_append]
    exact Quote.next_of_isStructural hs
  rw [parenCount, quoteBefore, htake, hdrop, hquote]

/-- Counting finds the parenthesis at which the body ends. -/
theorem closer?_append {a : List Char} (ha : (Quote.after {} a).inside = false)
    (inside : List Char) :
    closer? (a ++ '(' :: inside) a.length =
      (({} : Level).body? inside).map fun body => a.length + 1 + body.length := by
  unfold closer?
  cases hbody : ({} : Level).body? inside with
  | none =>
    -- Without a closer the count stays at one or above.
    rw [Option.map_none, List.find?_range_eq_none]
    intro r hr
    have hopen := Level.body?_eq_none_iff.1 hbody
    rw [← List.take_append_drop (r - a.length) inside, Level.open_append] at hopen
    have hnonneg := Level.zero_le_inner_of_open (by decide) hopen.1
    rw [Level.inner_after, Int.zero_add] at hnonneg
    have hcount : parenCount (a ++ '(' :: inside) a.length r ≠ 0 := by
      rw [parenCount_append ha]
      have : (0 : Int) ≤ Quote.parenBalance {} (inside.take (r - a.length)) := hnonneg
      omega
    simp [hcount]
  | some body =>
    obtain ⟨henc, rest, rfl⟩ := Level.body?_initial_eq_some_iff.1 hbody
    rw [Option.map_some, List.find?_range_eq_some]
    refine ⟨?_, ?_, ?_⟩
    · have hlen : a.length + 1 + body.length - a.length = body.length + 1 := by omega
      have htake : (body ++ ')' :: rest).take (body.length + 1) = body ++ [')'] :=
        List.take_length_add_append 1
      have hs : (Quote.after {} body).isStructural ')' = true :=
        Quote.isStructural_of_outside henc.inside_after (by decide) (by decide)
      have hzero : parenCount (a ++ '(' :: (body ++ ')' :: rest)) a.length
          (a.length + 1 + body.length) = 0 := by
        rw [parenCount_append ha, hlen, htake, Quote.parenBalance_append,
          henc.parenBalance_eq_zero]
        simp [Quote.parenChange, hs]
      simp only [hzero, decide_true, Bool.and_true, decide_eq_true_eq]
      omega
    · simp only [List.mem_range, List.length_append, List.length_cons]
      omega
    · intro j hj
      by_cases hlt : a.length < j
      · have hle : j - a.length ≤ body.length := by omega
        have hnonneg := henc.zero_le_parenBalance (List.take_append_drop (j - a.length) body).symm
        have hcount : parenCount (a ++ '(' :: (body ++ ')' :: rest)) a.length j ≠ 0 := by
          rw [parenCount_append ha, List.take_append_of_le_length hle]
          omega
        simp [hcount]
      · simp [hlt]

/-- Spans of a call written with these parts, in bytes. -/
def spansOf (before name blanks body : List Char) : Span × Span :=
  (⟨before.length, before.length + name.length⟩,
    ⟨before.length + name.length + blanks.length + 1,
      before.length + name.length + blanks.length + 1 + body.length⟩)

theorem callAt?_of_written {bytes before name blanks body rest : List Char}
    (h : WrittenCall bytes before name blanks body rest) :
    callAt? bytes before.length = some (spansOf before name blanks body) := by
  obtain ⟨c, t, hname⟩ := List.exists_cons_of_ne_nil h.name_ne_nil
  have he : runEnd isNameChar bytes before.length = before.length + name.length := by
    rw [h.source_eq]
    exact runEnd_append h.name_chars fun x t hx =>
      CallShape.isNameChar_head_of_blanks h.blank_chars hx
  have hsplit : bytes = (before ++ name) ++ (blanks ++ '(' :: (body ++ ')' :: rest)) := by
    rw [h.source_eq, List.append_assoc]
  have hq : runEnd isAsciiBlank bytes (before.length + name.length) =
      before.length + name.length + blanks.length := by
    rw [hsplit, ← List.length_append]
    refine runEnd_append h.blank_chars fun x t hx => ?_
    obtain ⟨rfl, -⟩ := List.cons.inj hx
    decide
  have hparen : bytes = (before ++ (name ++ blanks)) ++ '(' :: (body ++ ')' :: rest) := by
    rw [h.source_eq]
    simp only [List.append_assoc]
  have hlen : (before ++ (name ++ blanks)).length =
      before.length + name.length + blanks.length := by
    simp [Nat.add_assoc]
  have hat : bytes[before.length + name.length + blanks.length]? = some '(' := by
    rw [hparen, ← hlen, List.getElem?_append_right (Nat.le_refl _), Nat.sub_self]
    rfl
  have hcloser : closer? bytes (before.length + name.length + blanks.length) =
      some (before.length + name.length + blanks.length + 1 + body.length) := by
    rw [hparen, ← hlen, closer?_append (inside_after_name h.outside h.name_chars h.blank_chars),
      Level.body?_initial_eq_some_iff.2 ⟨h.enclosed, rest, rfl⟩]
    rfl
  have hfirst : bytes[before.length]?.any Char.isDigit = false := by
    rw [h.source_eq, List.getElem?_append_right (Nat.le_refl _), Nat.sub_self, hname]
    exact h.digit_free c t hname
  have htake : bytes.take before.length = before := by rw [h.source_eq, List.take_left]
  have hpos : before.length < before.length + name.length := by
    rw [hname]
    simp
  simp only [callAt?, he, hq, hat, hcloser, hfirst, htake, quoteBefore, h.outside, h.boundary, hpos]
  rfl

theorem exists_written_of_callAt? {bytes : List Char} {p : Nat} {x : Span × Span}
    (h : callAt? bytes p = some x) :
    ∃ before name blanks body rest, WrittenCall bytes before name blanks body rest ∧
      p = before.length ∧ x = spansOf before name blanks body := by
  simp only [callAt?] at h
  split_ifs at h with hif
  obtain ⟨hlt, hdigit, hlast, hout, hat⟩ := hif
  have hp : p ≤ bytes.length := by
    by_cases hp : p ≤ bytes.length
    · exact hp
    · rw [runEnd, List.drop_eq_nil_of_le (by omega)] at hlt
      simp at hlt
  -- The text in front, the name, the blanks and the parenthesis, one after the other.
  obtain ⟨before, s, rfl, rfl⟩ : ∃ before s, bytes = before ++ s ∧ p = before.length :=
    ⟨bytes.take p, bytes.drop p, (List.take_append_drop p bytes).symm, by simp [hp]⟩
  obtain ⟨name, s, rfl, he, hname⟩ := exists_run isNameChar before s
  rw [he] at hlt hat h
  rw [show before ++ (name ++ s) = (before ++ name) ++ s by simp,
    show before.length + name.length = (before ++ name).length by simp] at hat h
  obtain ⟨blanks, s, rfl, hq, hblanks⟩ := exists_run isAsciiBlank (before ++ name) s
  rw [hq] at hat h
  rw [show (before ++ name) ++ (blanks ++ s) = (before ++ (name ++ blanks)) ++ s by simp,
    show (before ++ name).length + blanks.length = (before ++ (name ++ blanks)).length by
      simp [Nat.add_assoc]] at hat h
  rw [List.getElem?_append_right (Nat.le_refl _), Nat.sub_self] at hat
  obtain ⟨inside, rfl⟩ : ∃ inside, s = '(' :: inside := by
    cases s with
    | nil => simp at hat
    | cons c inside =>
      obtain rfl := Option.some.inj hat
      exact ⟨inside, rfl⟩
  rw [List.take_left] at hlast
  rw [quoteBefore, List.take_left] at hout
  rw [closer?_append (inside_after_name hout hname hblanks), Option.map_map] at h
  obtain ⟨body, hbody, rfl⟩ := Option.map_eq_some_iff.1 h
  obtain ⟨henc, rest, rfl⟩ := Level.body?_initial_eq_some_iff.1 hbody
  have hne : name ≠ [] := by
    intro hnil
    simp [hnil] at hlt
  refine ⟨before, name, blanks, body, rest, ⟨rfl, hout, hlast, ?_, hne, hname, hblanks, henc⟩, rfl,
    ?_⟩
  · intro c t hct
    rw [hct, List.getElem?_append_right (Nat.le_refl _), Nat.sub_self] at hdigit
    exact hdigit
  · simp [spansOf, Nat.add_assoc]

theorem callAt?_eq_some_iff {bytes : List Char} {p : Nat} {x : Span × Span} :
    callAt? bytes p = some x ↔
      ∃ before name blanks body rest, WrittenCall bytes before name blanks body rest ∧
        p = before.length ∧ x = spansOf before name blanks body := by
  refine ⟨exists_written_of_callAt?, fun h => ?_⟩
  obtain ⟨before, name, blanks, body, rest, hw, rfl, rfl⟩ := h
  exact callAt?_of_written hw

theorem fst_start_of_callAt? {bytes : List Char} {p : Nat} {x : Span × Span}
    (h : callAt? bytes p = some x) : x.1.start = p := by
  obtain ⟨before, name, blanks, body, rest, -, rfl, rfl⟩ := callAt?_eq_some_iff.1 h
  rfl

theorem mem_calls_iff {bytes : List Char} {x : Span × Span} :
    x ∈ calls bytes ↔
      ∃ before name blanks body rest, WrittenCall bytes before name blanks body rest ∧
        x = spansOf before name blanks body := by
  rw [calls, List.mem_filterMap]
  constructor
  · intro h
    obtain ⟨p, -, hp⟩ := h
    obtain ⟨before, name, blanks, body, rest, hw, -, hx⟩ := callAt?_eq_some_iff.1 hp
    exact ⟨before, name, blanks, body, rest, hw, hx⟩
  · intro h
    obtain ⟨before, name, blanks, body, rest, hw, rfl⟩ := h
    refine ⟨before.length, ?_, callAt?_of_written hw⟩
    rw [List.mem_range, hw.source_eq]
    simp only [List.length_append, List.length_cons]
    omega

theorem calls_sorted (bytes : List Char) :
    (calls bytes).Pairwise fun x y => x.1.start < y.1.start := by
  rw [calls, List.pairwise_filterMap]
  refine List.pairwise_lt_range.imp fun {p p'} hlt x hx y hy => ?_
  rw [fst_start_of_callAt? hx, fst_start_of_callAt? hy]
  exact hlt

theorem spansOf_encode {source before name blanks body rest : List Char}
    (h : WrittenCall source before name blanks body rest) :
    spansOf (encode before) name blanks (encode body) =
      ((CallShape.ofParts before name blanks body).name,
        (CallShape.ofParts before name blanks body).args) := by
  have hname : byteLength name = name.length :=
    byteLength_of_ascii fun c hc => ascii_of_isNameChar (h.name_chars c hc)
  have hblanks : byteLength blanks = blanks.length :=
    byteLength_of_ascii fun c hc => ascii_of_isAsciiBlank (h.blank_chars c hc)
  simp only [spansOf, CallShape.ofParts, CallShape.ofBody, length_encode, hname, hblanks]

/-- The search over the bytes of a text finds the calls that are written out in the text. -/
theorem mem_calls_encode_iff {source : List Char} {x : Span × Span} :
    x ∈ calls (encode source) ↔
      ∃ shape ∈ CallShape.findAll source, (shape.name, shape.args) = x := by
  rw [mem_calls_iff]
  constructor
  · intro h
    obtain ⟨before', name, blanks, body', rest', hw', rfl⟩ := h
    obtain ⟨before, body, rest, hw, rfl, rfl⟩ := hw'.exists_of_encode
    exact ⟨_, CallShape.mem_findAll_iff.2 ⟨before, name, blanks, body, rest, hw, rfl⟩,
      (spansOf_encode hw).symm⟩
  · intro h
    obtain ⟨shape, hshape, rfl⟩ := h
    obtain ⟨before, name, blanks, body, rest, hw, rfl⟩ := CallShape.mem_findAll_iff.1 hshape
    exact ⟨_, _, _, _, _, hw.encode, (spansOf_encode hw).symm⟩

end ByteSearch

/-- **The pass finds what the search over the bytes finds**, with the same spans and in the same
order. -/
theorem spans_findAll_eq_byteSearch (source : String) :
    (CallSite.findAll source).map (fun c => (c.nameSpan, c.argsSpan)) =
      ByteSearch.calls (Text.bytes source) := by
  have hmap : (CallSite.findAll source).map (fun c => (c.nameSpan, c.argsSpan)) =
      (CallShape.findAll source.toList).map fun shape => (shape.name, shape.args) := by
    rw [CallSite.findAll, List.map_map]
    rfl
  rw [hmap, bytes_eq_encode]
  -- Both lists are in the order of the names, so it is enough to compare their members.
  have hirrefl : Std.Irrefl fun x y : Span × Span => x.1.start < y.1.start :=
    ⟨fun x => Nat.lt_irrefl x.1.start⟩
  have hanti : Std.Antisymm fun x y : Span × Span => x.1.start < y.1.start :=
    ⟨fun x y hxy hyx => absurd (Nat.lt_trans hxy hyx) (Nat.lt_irrefl x.1.start)⟩
  refine List.Pairwise.eq_of_mem_iff ?_ (ByteSearch.calls_sorted _) fun x => ?_
  · rw [List.pairwise_map]
    exact CallShape.findAll_sorted source.toList
  · rw [List.mem_map, ByteSearch.mem_calls_encode_iff]

end FlowExpr
