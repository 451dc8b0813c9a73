import FlowExpr.Text.Blank
import FlowExpr.Text.Offset
import Mathlib.Data.List.DropRight

/-!
# Blanks around a text

A text is the blanks in front of it, the trimmed text, and the blanks behind it
(`leading_append_trim_append_trailing`). Blanks at its ends make no difference to what trimming
leaves, and trimming twice is trimming once.
-/

namespace FlowExpr.Text

/-- The blanks in front of a text. -/
def leading (cs : List Char) : List Char := cs.takeWhile isBlank

/-- The blanks behind a text. A text of blanks has them all in front. -/
def trailing (cs : List Char) : List Char :=
  ((trimStart cs).reverse.takeWhile isBlank).reverse

theorem trim_append_trailing (cs : List Char) : trim cs ++ trailing cs = trimStart cs := by
  rw [trim, trimEnd, trailing, ← List.reverse_append, List.takeWhile_append_dropWhile,
    List.reverse_reverse]

/-- A text is its blanks in front, the trimmed text, and its blanks behind. -/
theorem leading_append_trim_append_trailing (cs : List Char) :
    leading cs ++ (trim cs ++ trailing cs) = cs := by
  rw [trim_append_trailing, leading, trimStart, List.takeWhile_append_dropWhile]

theorem isAllBlank_leading (cs : List Char) : isAllBlank (leading cs) = true :=
  List.all_takeWhile

theorem isAllBlank_trailing (cs : List Char) : isAllBlank (trailing cs) = true := by
  rw [isAllBlank, trailing, List.all_reverse]
  exact List.all_takeWhile

theorem byteLength_eq_trim (cs : List Char) :
    byteLength cs = byteLength (leading cs) + byteLength (trim cs) + byteLength (trailing cs) := by
  conv => lhs; rw [← leading_append_trim_append_trailing cs]
  rw [byteLength_append, byteLength_append, Nat.add_assoc]

theorem leading_append_cons (x : List Char) {c : Char} (hc : isBlank c = false) (m : List Char) :
    leading (x ++ c :: m) = leading x := by
  induction x with
  | nil => simp [leading, hc]
  | cons d x ih =>
    unfold leading at ih ⊢
    rw [List.cons_append, List.takeWhile_cons, List.takeWhile_cons, ih]

theorem trimStart_append_cons (x : List Char) {c : Char} (hc : isBlank c = false)
    (m : List Char) : trimStart (x ++ c :: m) = trimStart x ++ c :: m := by
  induction x with
  | nil => simp [trimStart, hc]
  | cons d x ih =>
    unfold trimStart at ih ⊢
    rw [List.cons_append, List.dropWhile_cons, List.dropWhile_cons, ih]
    split <;> rfl

theorem trimEnd_append_cons (m : List Char) {d : Char} (hd : isBlank d = false) (y : List Char) :
    trimEnd (m ++ d :: y) = m ++ d :: trimEnd y := by
  have hrev : (m ++ d :: y).reverse = y.reverse ++ d :: m.reverse := by simp
  have h := trimStart_append_cons y.reverse hd m.reverse
  unfold trimStart at h
  rw [trimEnd, hrev, h, trimEnd]
  simp

/-- A stretch between two characters that are no blanks survives trimming. -/
theorem trim_append_of_ends {mid m m' : List Char} {c d : Char} (hc : isBlank c = false)
    (hd : isBlank d = false) (hmid : mid = c :: m) (hmid' : mid = m' ++ [d]) (x y : List Char) :
    leading (x ++ (mid ++ y)) = leading x ∧
      trim (x ++ (mid ++ y)) = trimStart x ++ (mid ++ trimEnd y) := by
  constructor
  · rw [hmid]
    exact leading_append_cons x hc (m ++ y)
  · have hstart : trimStart (x ++ (mid ++ y)) = trimStart x ++ (mid ++ y) := by
      rw [hmid]
      exact trimStart_append_cons x hc (m ++ y)
    have hend : trimStart x ++ (mid ++ y) = (trimStart x ++ m') ++ d :: y := by
      rw [hmid']
      simp
    rw [trim, hstart, hend, trimEnd_append_cons _ hd, hmid']
    simp

theorem leading_append_trimStart (cs : List Char) : leading cs ++ trimStart cs = cs :=
  List.takeWhile_append_dropWhile

theorem ne_of_isBlank {c d : Char} (hc : isBlank c = true) (hd : isBlank d = false) : c ≠ d := by
  intro h
  rw [h, hd] at hc
  exact Bool.noConfusion hc

theorem trimStart_append_of_isAllBlank {w : List Char} (hw : isAllBlank w = true)
    (cs : List Char) : trimStart (w ++ cs) = trimStart cs :=
  List.dropWhile_append_of_pos (List.all_eq_true.1 hw)

/-- Blanks in front do not matter. -/
theorem trim_append_of_isAllBlank {w : List Char} (hw : isAllBlank w = true) (cs : List Char) :
    trim (w ++ cs) = trim cs := by
  rw [trim, trimStart_append_of_isAllBlank hw, trim]

theorem trimEnd_append_of_isAllBlank {w : List Char} (hw : isAllBlank w = true) (cs : List Char) :
    trimEnd (cs ++ w) = trimEnd cs := by
  have hblank : ∀ c ∈ w.reverse, isBlank c = true := fun c hc =>
    List.all_eq_true.1 hw c (List.mem_reverse.1 hc)
  rw [trimEnd, List.reverse_append, List.dropWhile_append_of_pos hblank, trimEnd]

/-- Blanks behind do not matter. -/
theorem trim_append_blanks (cs : List Char) {w : List Char} (hw : isAllBlank w = true) :
    trim (cs ++ w) = trim cs := by
  rw [trim, trim, trimStart, trimStart, List.dropWhile_append]
  split
  · -- Nothing but blanks: they go from the front.
    rename_i hnil
    rw [List.isEmpty_iff.1 hnil, List.dropWhile_eq_nil_iff.2 (List.all_eq_true.1 hw)]
  · exact trimEnd_append_of_isAllBlank hw _

theorem trimEnd_trimEnd (cs : List Char) : trimEnd (trimEnd cs) = trimEnd cs := by
  unfold trimEnd
  rw [List.reverse_reverse, List.dropWhile_idempotent]

/-- A trimmed text starts with no blank. -/
theorem trimStart_trim (cs : List Char) : trimStart (trim cs) = trim cs := by
  have hhead := List.head?_dropWhile_not isBlank cs
  cases htrim : trim cs with
  | nil => rfl
  | cons c t =>
    have hstart : cs.dropWhile isBlank = c :: (t ++ trailing cs) := by
      have h := trim_append_trailing cs
      rw [htrim] at h
      exact h.symm
    rw [hstart] at hhead
    have hc : isBlank c = false := by simpa using hhead
    simp [trimStart, hc]

@[simp] theorem trim_trim (cs : List Char) : trim (trim cs) = trim cs := by
  rw [trim, trimStart_trim, trim, trimEnd_trimEnd]

theorem isAllBlank_append (a b : List Char) :
    isAllBlank (a ++ b) = (isAllBlank a && isAllBlank b) :=
  List.all_append

theorem isAllBlank_trim (cs : List Char) : isAllBlank (trim cs) = isAllBlank cs := by
  conv => rhs; rw [← leading_append_trim_append_trailing cs]
  rw [isAllBlank_append, isAllBlank_append, isAllBlank_leading, isAllBlank_trailing,
    Bool.true_and, Bool.and_true]

/-- Trimming leaves nothing exactly of blanks. -/
theorem trim_eq_nil_iff {cs : List Char} : trim cs = [] ↔ isAllBlank cs = true := by
  constructor
  · intro h
    rw [← isAllBlank_trim, h]
    rfl
  · intro h
    have hnil := trim_append_of_isAllBlank h []
    rwa [List.append_nil] at hnil

theorem mem_of_mem_trim {c : Char} {cs : List Char} (h : c ∈ trim cs) : c ∈ cs := by
  rw [← leading_append_trim_append_trailing cs]
  exact List.mem_append_right _ (List.mem_append_left _ h)

end FlowExpr.Text
