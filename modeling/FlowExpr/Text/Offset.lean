/-!
# Byte offsets into text

Every place in a document is named by the number of UTF-8 bytes before it. A text is handled as a
list of characters, so an offset that falls inside a character names no place at all: cutting
there fails instead of producing half a character.

**Cutting.** `splitAt? cs n` cuts `cs` after `n` bytes, and `slice? cs span` reads a span. Both are
partial in the same way, past the end and inside a character. `splitAt?_eq_some_iff` says exactly
when a cut succeeds: the two parts make up the text, and the first has `n` bytes.
-/

namespace FlowExpr

/-- A half-open stretch of a text, in UTF-8 bytes. -/
structure Span where
  /-- Bytes before the first character of the stretch. -/
  start : Nat
  /-- Bytes before the first character after the stretch. -/
  stop : Nat
  deriving DecidableEq, Repr, Inhabited

namespace Span

/-- The same stretch in a text that has `n` more bytes in front. -/
def shift (n : Nat) (s : Span) : Span := ⟨s.start + n, s.stop + n⟩

@[simp] theorem shift_start (n : Nat) (s : Span) : (s.shift n).start = s.start + n := rfl

@[simp] theorem shift_stop (n : Nat) (s : Span) : (s.shift n).stop = s.stop + n := rfl

@[simp] theorem shift_zero (s : Span) : s.shift 0 = s := rfl

end Span

namespace Text

/-! ## Length -/

/-- The number of UTF-8 bytes of a text. -/
def byteLength : List Char → Nat
  | [] => 0
  | c :: cs => c.utf8Size + byteLength cs

@[simp] theorem byteLength_nil : byteLength [] = 0 := rfl

@[simp] theorem byteLength_cons (c : Char) (cs : List Char) :
    byteLength (c :: cs) = c.utf8Size + byteLength cs := rfl

@[simp] theorem byteLength_append (a b : List Char) :
    byteLength (a ++ b) = byteLength a + byteLength b := by
  induction a with
  | nil => simp
  | cons c a ih => simp [ih, Nat.add_assoc]

/-- No character is empty, so only the empty text has no bytes. -/
theorem byteLength_eq_zero_iff {cs : List Char} : byteLength cs = 0 ↔ cs = [] := by
  cases cs with
  | nil => simp
  | cons c cs => simp [Nat.ne_of_gt c.utf8Size_pos]

/-! ## Cutting -/

/-- Cuts a text after `n` bytes. Fails past the end and inside a character. -/
def splitAt? : List Char → Nat → Option (List Char × List Char)
  | cs, 0 => some ([], cs)
  | [], _ + 1 => none
  | c :: cs, n + 1 =>
    if c.utf8Size ≤ n + 1 then
      (splitAt? cs (n + 1 - c.utf8Size)).map fun (before, after) => (c :: before, after)
    else none

/-- A text without its first `n` bytes. Fails as the cut does. -/
def dropBytes? : List Char → Nat → Option (List Char)
  | cs, 0 => some cs
  | [], _ + 1 => none
  | c :: cs, n + 1 =>
    if c.utf8Size ≤ n + 1 then dropBytes? cs (n + 1 - c.utf8Size) else none

/-- The text of a span, if both of its ends are places of the text and in order. -/
def slice? (cs : List Char) (span : Span) : Option (List Char) :=
  if span.start ≤ span.stop then
    (dropBytes? cs span.start).bind fun after =>
      (splitAt? after (span.stop - span.start)).map Prod.fst
  else none

/-- The text of a span that is known to lie in the text; empty otherwise. -/
def slice (cs : List Char) (span : Span) : List Char := (slice? cs span).getD []

@[simp] theorem splitAt?_zero (cs : List Char) : splitAt? cs 0 = some ([], cs) := by
  cases cs <;> rfl

theorem splitAt?_cons_utf8Size (c : Char) (cs : List Char) (n : Nat) :
    splitAt? (c :: cs) (c.utf8Size + n) = (splitAt? cs n).map fun p => (c :: p.1, p.2) := by
  obtain ⟨k, hk⟩ := Nat.exists_eq_succ_of_ne_zero (Nat.ne_of_gt c.utf8Size_pos)
  have h : c.utf8Size + n = (k + n) + 1 := by omega
  rw [h, splitAt?, if_pos (by omega)]
  congr 2
  omega

/-- Cutting after the bytes of a front part separates exactly that part. -/
@[simp] theorem splitAt?_append (a b : List Char) :
    splitAt? (a ++ b) (byteLength a) = some (a, b) := by
  induction a with
  | nil => simp
  | cons c a ih => simp [splitAt?_cons_utf8Size, ih]

/-- A cut succeeds exactly when the first part has the asked number of bytes. -/
theorem splitAt?_eq_some_iff {cs a b : List Char} {n : Nat} :
    splitAt? cs n = some (a, b) ↔ cs = a ++ b ∧ byteLength a = n := by
  constructor
  · intro h
    induction cs generalizing n a with
    | nil =>
      cases n with
      | zero => simp_all [splitAt?]
      | succ n => simp [splitAt?] at h
    | cons c cs ih =>
      cases n with
      | zero => simp_all [splitAt?]
      | succ n =>
        simp only [splitAt?] at h
        split at h
        · rename_i hc
          obtain ⟨⟨a', b'⟩, hp, he⟩ := Option.map_eq_some_iff.1 h
          simp only [Prod.mk.injEq] at he
          obtain ⟨rfl, rfl⟩ := he
          obtain ⟨rfl, hn⟩ := ih hp
          exact ⟨rfl, by simp only [byteLength_cons, hn]; omega⟩
        · cases h
  · rintro ⟨rfl, rfl⟩
    exact splitAt?_append a b

/-- What is left behind a cut. -/
theorem dropBytes?_eq_splitAt? (cs : List Char) (n : Nat) :
    dropBytes? cs n = (splitAt? cs n).map Prod.snd := by
  fun_induction dropBytes? cs n with
  | case1 cs => simp
  | case2 n => rfl
  | case3 c cs n hc ih =>
    rw [splitAt?, if_pos hc, ih, Option.map_map]
    rfl
  | case4 c cs n hc => rw [splitAt?, if_neg hc, Option.map_none]

/-- Reading the span of a middle part gives that part. -/
theorem slice?_append (a b c : List Char) :
    slice? (a ++ (b ++ c)) ⟨byteLength a, byteLength a + byteLength b⟩ = some b := by
  simp [slice?, dropBytes?_eq_splitAt?]

theorem slice?_of_eq {cs x y z : List Char} {i j : Nat} (h : cs = x ++ (y ++ z))
    (hi : i = byteLength x) (hj : j = byteLength x + byteLength y) :
    slice? cs ⟨i, j⟩ = some y := by
  rw [h, hi, hj]
  exact slice?_append x y z

/-- A span that can be read cuts the text into three parts. -/
theorem exists_of_slice?_eq_some {cs part : List Char} {span : Span}
    (h : slice? cs span = some part) :
    ∃ x z, cs = x ++ (part ++ z) ∧ byteLength x = span.start ∧
      byteLength x + byteLength part = span.stop := by
  unfold slice? at h
  split at h
  · rename_i hle
    obtain ⟨after, hdrop, htake⟩ := Option.bind_eq_some_iff.1 h
    rw [dropBytes?_eq_splitAt?] at hdrop
    obtain ⟨⟨x, y⟩, hx, rfl⟩ := Option.map_eq_some_iff.1 hdrop
    obtain ⟨⟨part, z⟩, hpart, rfl⟩ := Option.map_eq_some_iff.1 htake
    obtain ⟨rfl, hstart⟩ := splitAt?_eq_some_iff.1 hx
    obtain ⟨hy, hlength⟩ := splitAt?_eq_some_iff.1 hpart
    exact ⟨x, z, congrArg (x ++ ·) hy, hstart, by simp only; omega⟩
  · cases h

/-! ## Two readings of one text -/

/-- Of two fronts of one text the longer one goes on from the shorter one. -/
theorem exists_append_of_byteLength_le {a b x y : List Char} (h : a ++ x = b ++ y)
    (hle : byteLength a ≤ byteLength b) : ∃ z, b = a ++ z ∧ x = z ++ y := by
  rcases List.append_eq_append_iff.1 h with ⟨z, hb, hx⟩ | ⟨z, ha, hy⟩
  · exact ⟨z, hb, hx⟩
  · have hz : z = [] := by
      rw [ha, byteLength_append] at hle
      exact byteLength_eq_zero_iff.1 (by omega)
    subst hz
    exact ⟨[], by simpa using ha.symm, by simpa using hy.symm⟩

theorem exists_append_of_byteLength_lt {a b x y : List Char} (h : a ++ x = b ++ y)
    (hlt : byteLength a < byteLength b) : ∃ z, z ≠ [] ∧ b = a ++ z ∧ x = z ++ y := by
  obtain ⟨z, hb, hx⟩ := exists_append_of_byteLength_le h (Nat.le_of_lt hlt)
  refine ⟨z, ?_, hb, hx⟩
  intro hz
  rw [hb, hz, List.append_nil] at hlt
  exact Nat.lt_irrefl _ hlt

end Text

end FlowExpr
