import FlowExpr.Text.Fields
import FlowExpr.Text.Offset
import Mathlib.Data.List.Forall2

/-!
# Cutting a text where a reader says so

`pieces next cut s cs` reads `cs` with a state machine and cuts out every character at which `cut`
holds. Both ways to divide an argument list have this form; they differ in the state they keep.

* `join_pieces`: when only separators are cut out, joining the pieces gives the text back.
* `pieces_eq_iff`: two readers agree exactly when they agree on every single character.
* `exists_pieces_append_uncut`: a stretch without cuts ends up inside one piece.
* `Separated.pieces_joinFields`: a reader that starts afresh behind each cut takes joined pieces
  apart again.
-/

namespace FlowExpr.Text

/-! ## Sizes of the characters that shape a call -/

@[simp] theorem utf8Size_comma : ','.utf8Size = 1 := rfl

@[simp] theorem utf8Size_openParen : '('.utf8Size = 1 := rfl

@[simp] theorem utf8Size_closeParen : ')'.utf8Size = 1 := rfl

/-! ## Fields -/

/-- Puts a text in front of the first piece. -/
def prepend (front : List Char) : List (List Char) → List (List Char)
  | piece :: rest => (front ++ piece) :: rest
  | [] => [front]

@[simp] theorem prepend_cons (front piece : List Char) (rest : List (List Char)) :
    prepend front (piece :: rest) = (front ++ piece) :: rest := rfl

/-- Pieces that each have a separator behind them, written one after the other. -/
def closedFields (sep : Char) (ps : List (List Char)) : List Char := ps.flatMap (· ++ [sep])

@[simp] theorem closedFields_nil (sep : Char) : closedFields sep [] = [] := rfl

@[simp] theorem closedFields_cons (sep : Char) (p : List Char) (ps : List (List Char)) :
    closedFields sep (p :: ps) = p ++ sep :: closedFields sep ps := by
  simp [closedFields]

/-- The last piece has its separator behind it, too. -/
theorem closedFields_eq (sep : Char) (ps : List (List Char)) :
    closedFields sep ps = [] ∨ ∃ x, closedFields sep ps = x ++ [sep] := by
  rcases List.eq_nil_or_concat ps with rfl | ⟨qs, q, rfl⟩
  · exact Or.inl rfl
  · exact Or.inr ⟨closedFields sep qs ++ q, by simp [closedFields]⟩

theorem count_closedFields {sep : Char} {ps : List (List Char)} (h : ∀ p ∈ ps, sep ∉ p) :
    (closedFields sep ps).count sep = ps.length := by
  induction ps with
  | nil => rfl
  | cons p ps ih =>
    have hp := List.count_eq_zero.2 (h p List.mem_cons_self)
    rw [closedFields_cons, List.count_append, hp, List.count_cons_self,
      ih fun q hq => h q (List.mem_cons_of_mem p hq), List.length_cons, Nat.zero_add]

theorem joinFields_cons_ne_nil (sep : Char) (p : List Char) {ps : List (List Char)} (h : ps ≠ []) :
    joinFields sep (p :: ps) = p ++ sep :: joinFields sep ps := by
  obtain ⟨q, qs, rfl⟩ := List.exists_cons_of_ne_nil h
  rfl

theorem joinFields_append (sep : Char) (ps : List (List Char)) {qs : List (List Char)}
    (h : qs ≠ []) : joinFields sep (ps ++ qs) = closedFields sep ps ++ joinFields sep qs := by
  induction ps with
  | nil => rfl
  | cons p ps ih =>
    rw [List.cons_append, joinFields_cons_ne_nil sep p (by simp [h]), ih, closedFields_cons]
    simp

theorem intercalate_singleton_eq_joinFields (sep : Char) (ps : List (List Char)) :
    [sep].intercalate ps = joinFields sep ps := by
  induction ps with
  | nil => rfl
  | cons p ps ih =>
    by_cases h : ps = []
    · simp [h, joinFields]
    · rw [List.intercalate_cons_of_ne_nil h, joinFields_cons_ne_nil sep p h, ih]
      simp

/-- A piece stands at the front of what is joined from it on, and ends there or at a separator. -/
theorem exists_joinFields_cons (sep : Char) (p : List Char) (ps : List (List Char)) :
    ∃ behind, joinFields sep (p :: ps) = p ++ behind ∧
      (behind = [] ∨ ∃ z, behind = sep :: z) := by
  cases ps with
  | nil => exact ⟨[], by simp [joinFields], Or.inl rfl⟩
  | cons q qs => exact ⟨sep :: joinFields sep (q :: qs), rfl, Or.inr ⟨_, rfl⟩⟩

/-- A statement about all places of a text is one about its first place and one about the rest. -/
theorem forall_place_cons {P : List Char → Char → Prop} {d : Char} {cs : List Char} :
    (∀ u c v, d :: cs = u ++ c :: v → P u c) ↔
      P [] d ∧ ∀ u c v, cs = u ++ c :: v → P (d :: u) c := by
  constructor
  · intro h
    exact ⟨h [] d cs rfl, fun u c v hu => h (d :: u) c v (by rw [hu]; rfl)⟩
  · intro h u c v hu
    cases u with
    | nil =>
      obtain ⟨rfl, -⟩ := List.cons.inj hu
      exact h.1
    | cons e u =>
      obtain ⟨rfl, htail⟩ := List.cons.inj hu
      exact h.2 u c v htail

/-! ## Pieces -/

section

variable {σ τ : Type} (next : σ → Char → σ) (cut : σ → Char → Bool)

/-- The pieces of a text between the characters at which `cut` holds. -/
def pieces (s : σ) : List Char → List (List Char)
  | [] => [[]]
  | c :: cs =>
    if cut s c then [] :: pieces (next s c) cs else prepend [c] (pieces (next s c) cs)

@[simp] theorem pieces_nil (s : σ) : pieces next cut s [] = [[]] := rfl

theorem pieces_cons_cut {s : σ} {c : Char} (h : cut s c = true) (cs : List Char) :
    pieces next cut s (c :: cs) = [] :: pieces next cut (next s c) cs := by
  rw [pieces, if_pos h]

theorem pieces_cons_uncut {s : σ} {c : Char} (h : cut s c = false) (cs : List Char) :
    pieces next cut s (c :: cs) = prepend [c] (pieces next cut (next s c) cs) := by
  rw [pieces, if_neg (by simp [h])]

theorem pieces_ne_nil (s : σ) (cs : List Char) : pieces next cut s cs ≠ [] := by
  cases cs with
  | nil => simp
  | cons c cs =>
    rw [pieces]
    split
    · simp
    · cases pieces next cut (next s c) cs <;> simp [prepend]

theorem exists_pieces_eq_cons (s : σ) (cs : List Char) :
    ∃ p ps, pieces next cut s cs = p :: ps :=
  List.exists_cons_of_ne_nil (pieces_ne_nil next cut s cs)

/-- Nothing is lost by cutting at separators only. -/
theorem join_pieces {sep : Char} (hsep : ∀ s c, cut s c = true → c = sep) (s : σ)
    (cs : List Char) : joinFields sep (pieces next cut s cs) = cs := by
  induction cs generalizing s with
  | nil => rfl
  | cons c cs ih =>
    obtain ⟨p, ps, hp⟩ := exists_pieces_eq_cons next cut (next s c) cs
    have hjoin := ih (next s c)
    rw [hp] at hjoin
    cases hc : cut s c with
    | true =>
      rw [pieces_cons_cut next cut hc, hp, joinFields, hjoin, hsep s c hc]
      rfl
    | false =>
      rw [pieces_cons_uncut next cut hc, hp, prepend_cons]
      cases ps <;> simp_all [joinFields]

/-- Two readers cut a text alike exactly when they agree on every character of it. -/
theorem pieces_eq_iff (next' : τ → Char → τ) (cut' : τ → Char → Bool) (s : σ) (t : τ)
    (cs : List Char) :
    pieces next cut s cs = pieces next' cut' t cs ↔
      ∀ u c v, cs = u ++ c :: v → cut (u.foldl next s) c = cut' (u.foldl next' t) c := by
  induction cs generalizing s t with
  | nil => simp
  | cons d cs ih =>
    -- The first character decides by itself; the others are the induction hypothesis.
    rw [forall_place_cons (P := fun u c => cut (u.foldl next s) c = cut' (u.foldl next' t) c)]
    simp only [List.foldl_nil, List.foldl_cons]
    rw [← ih]
    obtain ⟨p, ps, hp⟩ := exists_pieces_eq_cons next cut (next s d) cs
    obtain ⟨q, qs, hq⟩ := exists_pieces_eq_cons next' cut' (next' t d) cs
    cases hc : cut s d <;> cases hc' : cut' t d <;>
      simp [pieces, hc, hc', hp, hq]

/-- No character of the text is cut out. -/
def Uncut (s : σ) (cs : List Char) : Prop :=
  ∀ u c v, cs = u ++ c :: v → cut (u.foldl next s) c = false

@[simp] theorem uncut_nil (s : σ) : Uncut next cut s [] := by
  intro u c v h
  simp at h

@[simp] theorem uncut_cons {s : σ} {c : Char} {cs : List Char} :
    Uncut next cut s (c :: cs) ↔ cut s c = false ∧ Uncut next cut (next s c) cs :=
  forall_place_cons

theorem uncut_append {s : σ} {a b : List Char} :
    Uncut next cut s (a ++ b) ↔ Uncut next cut s a ∧ Uncut next cut (a.foldl next s) b := by
  induction a generalizing s with
  | nil => simp
  | cons c a ih => simp [ih, and_assoc]

/-- What cuts less cuts nothing where the other does not. -/
theorem Uncut.mono {cut' : σ → Char → Bool} (hle : ∀ s c, cut' s c = true → cut s c = true)
    {s : σ} {cs : List Char} (h : Uncut next cut s cs) : Uncut next cut' s cs := by
  intro u c v hu
  refine Bool.eq_false_iff.2 fun hcut => ?_
  have hcut' := hle _ _ hcut
  rw [h u c v hu] at hcut'
  exact Bool.noConfusion hcut'

/-- A stretch without cuts stays in front of whatever piece comes next. -/
theorem pieces_append_uncut {s : σ} {a : List Char} (h : Uncut next cut s a) (b : List Char) :
    pieces next cut s (a ++ b) = prepend a (pieces next cut (a.foldl next s) b) := by
  induction a generalizing s with
  | nil =>
    obtain ⟨p, ps, hp⟩ := exists_pieces_eq_cons next cut s b
    simp [hp]
  | cons c a ih =>
    obtain ⟨hc, ha⟩ := (uncut_cons next cut).1 h
    rw [List.cons_append, pieces_cons_uncut next cut hc, ih ha, List.foldl_cons]
    obtain ⟨p, ps, hp⟩ := exists_pieces_eq_cons next cut (a.foldl next (next s c)) b
    simp [hp]

/-- Reading on after a front part: its last piece is still open, the others are complete. -/
theorem exists_pieces_append {sep : Char} (hsep : ∀ s c, cut s c = true → c = sep) (s : σ)
    (a b : List Char) :
    ∃ ps x, a = closedFields sep ps ++ x ∧
      pieces next cut s (a ++ b) = ps ++ prepend x (pieces next cut (a.foldl next s) b) := by
  induction a generalizing s with
  | nil =>
    obtain ⟨p, ps, hp⟩ := exists_pieces_eq_cons next cut s b
    exact ⟨[], [], rfl, by simp [hp]⟩
  | cons c a ih =>
    obtain ⟨ps, x, hx, hps⟩ := ih (next s c)
    obtain ⟨q, qs, hq⟩ := exists_pieces_eq_cons next cut (a.foldl next (next s c)) b
    cases hc : cut s c with
    | true =>
      refine ⟨[] :: ps, x, ?_, ?_⟩
      · rw [closedFields_cons, hsep s c hc, hx]
        rfl
      · rw [List.cons_append, pieces_cons_cut next cut hc, hps]
        rfl
    | false =>
      rw [List.cons_append, pieces_cons_uncut next cut hc, hps, List.foldl_cons, hq]
      cases ps with
      | nil => exact ⟨[], c :: x, by simp [hx], by simp⟩
      | cons p ps => exact ⟨(c :: p) :: ps, x, by simp [hx], by simp⟩

/-- A stretch without cuts ends up inside one piece. -/
theorem exists_pieces_append_uncut {sep : Char} (hsep : ∀ s c, cut s c = true → c = sep) {s : σ}
    {a mid : List Char} (h : Uncut next cut (a.foldl next s) mid) (b : List Char) :
    ∃ ps x y qs, a = closedFields sep ps ++ x ∧
      pieces next cut s (a ++ (mid ++ b)) = ps ++ (x ++ (mid ++ y)) :: qs := by
  obtain ⟨ps, x, ha, hps⟩ := exists_pieces_append next cut hsep s a (mid ++ b)
  obtain ⟨y, qs, hy⟩ := exists_pieces_eq_cons next cut (mid.foldl next (a.foldl next s)) b
  refine ⟨ps, x, y, qs, ha, ?_⟩
  rw [hps, pieces_append_uncut next cut h b, hy]
  rfl

/-! ## Pieces that are taken apart again -/

/-- Pieces that a reader in state `s` takes apart again: it cuts nothing in any of them, and it cuts
out the separator behind each of them but the last one. -/
inductive Separated (sep : Char) (s : σ) : List (List Char) → Prop
  | last {p : List Char} (hp : Uncut next cut s p) : Separated sep s [p]
  | more {p : List Char} {ps : List (List Char)} (hp : Uncut next cut s p)
      (hcut : cut (p.foldl next s) sep = true) (hps : Separated sep s ps) :
      Separated sep s (p :: ps)

variable {next cut} {sep : Char} {s : σ}

theorem Separated.ne_nil {ps : List (List Char)} (h : Separated next cut sep s ps) : ps ≠ [] := by
  cases h <;> exact List.cons_ne_nil _ _

/-- The pieces of a text, the first one begun earlier: what was read of it is `front`. -/
theorem separated_pieces_behind (hsep : ∀ t c, cut t c = true → c = sep)
    (hreset : ∀ t, cut t sep = true → next t sep = s) (front : List Char) {cs p : List Char}
    {ps : List (List Char)} (hfront : Uncut next cut s front)
    (h : pieces next cut (front.foldl next s) cs = p :: ps) :
    Separated next cut sep s ((front ++ p) :: ps) := by
  induction cs generalizing front p ps with
  | nil =>
    obtain ⟨rfl, rfl⟩ := List.cons.inj h
    rw [List.append_nil]
    exact .last hfront
  | cons c cs ih =>
    cases hc : cut (front.foldl next s) c with
    | true =>
      obtain rfl := hsep _ _ hc
      rw [pieces_cons_cut next cut hc, hreset _ hc] at h
      obtain ⟨rfl, rfl⟩ := List.cons.inj h
      obtain ⟨q, qs, hq⟩ := exists_pieces_eq_cons next cut s cs
      rw [List.append_nil, hq]
      exact .more hfront hc (ih [] (uncut_nil next cut s) hq)
    | false =>
      obtain ⟨q, qs, hq⟩ := exists_pieces_eq_cons next cut (next (front.foldl next s) c) cs
      rw [pieces_cons_uncut next cut hc, hq] at h
      obtain ⟨rfl, rfl⟩ := List.cons.inj h
      have hmore : Uncut next cut s (front ++ [c]) :=
        (uncut_append next cut).2 ⟨hfront, (uncut_cons next cut).2 ⟨hc, uncut_nil _ _ _⟩⟩
      have hrest := ih (front ++ [c]) hmore (by rw [List.foldl_append]; exact hq)
      rwa [List.append_assoc] at hrest

/-- What was cut by a reader that starts afresh behind each cut can be taken apart again. -/
theorem separated_pieces (hsep : ∀ t c, cut t c = true → c = sep)
    (hreset : ∀ t, cut t sep = true → next t sep = s) (cs : List Char) :
    Separated next cut sep s (pieces next cut s cs) := by
  obtain ⟨p, ps, hp⟩ := exists_pieces_eq_cons next cut s cs
  rw [hp]
  exact separated_pieces_behind hsep hreset [] (uncut_nil next cut s) hp

theorem Separated.pieces_joinFields (hreset : ∀ t, cut t sep = true → next t sep = s)
    {ps : List (List Char)} (h : Separated next cut sep s ps) :
    pieces next cut s (joinFields sep ps) = ps := by
  induction h with
  | @last p hp =>
    have h := pieces_append_uncut next cut hp []
    rw [List.append_nil] at h
    rw [joinFields, h]
    simp
  | more hp hcut hps ih =>
    rw [joinFields_cons_ne_nil sep _ hps.ne_nil, pieces_append_uncut next cut hp,
      pieces_cons_cut next cut hcut, hreset _ hcut, ih]
    simp

/-- Pieces stay separated when each of them is replaced by one that reads alike. -/
theorem Separated.of_forall₂ {R : List Char → List Char → Prop}
    (huncut : ∀ p q, R p q → Uncut next cut s p → Uncut next cut s q)
    (hcut : ∀ p q, R p q → cut (p.foldl next s) sep = true → cut (q.foldl next s) sep = true)
    {ps qs : List (List Char)} (h : Separated next cut sep s ps) (hR : List.Forall₂ R ps qs) :
    Separated next cut sep s qs := by
  induction h generalizing qs with
  | last hp =>
    obtain ⟨q, _, hq, hnil, rfl⟩ := List.forall₂_cons_left_iff.1 hR
    rw [List.forall₂_nil_left_iff.1 hnil]
    exact .last (huncut _ _ hq hp)
  | more hp hc hps ih =>
    obtain ⟨q, qs, hq, hqs, rfl⟩ := List.forall₂_cons_left_iff.1 hR
    exact .more (huncut _ _ hq hp) (hcut _ _ hq hc) (ih hqs)

end

end FlowExpr.Text
