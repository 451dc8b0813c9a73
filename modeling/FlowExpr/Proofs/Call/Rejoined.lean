import FlowExpr.Proofs.Call.ArgumentList

/-!
# Cutting an argument list again

**Theorem (`Argument.cutList_rejoins`).** A list by itself has no arguments exactly when it is made
up of blanks. Otherwise its arguments are the trimmed pieces between the commas that cut, and with
the gaps between them they make up the list; where the list starts in its document only moves the
spans. Their texts joined by a comma and a space, and cut again, give the same texts.

**How the proof goes.** Everything but the last sentence is read off the pieces. For the last one,
a comma cuts only where the reader is outside of strings and at level zero in all counts, so that it
starts afresh behind each cut (`read_of_cuts`). What it makes of a piece then depends on that piece
alone, and blanks at its ends change nothing (`Respaced`). The last piece may end inside of a string
or out of balance, but nothing follows it, neither in the list nor in the joined texts.
-/

namespace FlowExpr

open Text

/-! ## Blanks in a list by itself -/

namespace ArgumentCutter

/-- Behind a comma that cuts everything is as at the start. -/
theorem read_of_cuts {t : Quote × Depth} (h : cuts t ',' = true) : read t ',' = ({}, {}) := by
  obtain ⟨q, parens, brackets, braces⟩ := t
  simp only [cuts, Bool.and_eq_true, decide_true, true_and] at h
  obtain ⟨hs, hlevel⟩ := h
  obtain ⟨rfl, rfl, rfl⟩ := Depth.isLevel_iff.1 hlevel
  rw [read, Quote.next_of_isStructural hs, if_pos hs]
  rfl

theorem read_of_isBlank {c : Char} (hc : isBlank c = true) (t : Quote × Depth) :
    read t c = (⟨t.1.inside, false⟩, t.2) := by
  have hne : ∀ d, isBlank d = false → c ≠ d := fun d hd => ne_of_isBlank hc hd
  have hnext : t.1.next c = ⟨t.1.inside, false⟩ := by
    simp [Quote.next, hne '\\' (by decide), hne '\'' (by decide)]
  have htrack : t.2.track c = t.2 := by
    simp [Depth.track, hne '(' (by decide), hne ')' (by decide), hne '[' (by decide),
      hne ']' (by decide), hne '{' (by decide), hne '}' (by decide)]
  rw [read, hnext, htrack, ite_self]

/-- Blanks decide nothing about a comma behind them. -/
theorem cuts_foldl_of_isAllBlank {w : List Char} (hw : isAllBlank w = true) (t : Quote × Depth) :
    cuts (w.foldl read t) ',' = cuts t ',' := by
  induction w generalizing t with
  | nil => rfl
  | cons c w ih =>
    simp only [isAllBlank, List.all_cons, Bool.and_eq_true] at hw
    rw [List.foldl_cons, ih hw.2, read_of_isBlank hw.1]
    rfl

theorem foldl_of_isAllBlank {w : List Char} (hw : isAllBlank w = true) :
    w.foldl read ({}, {}) = ({}, {}) := by
  induction w with
  | nil => rfl
  | cons c w ih =>
    simp only [isAllBlank, List.all_cons, Bool.and_eq_true] at hw
    rw [List.foldl_cons, read_of_isBlank hw.1]
    exact ih hw.2

theorem uncut_of_isAllBlank {w : List Char} (hw : isAllBlank w = true) (t : Quote × Depth) :
    Uncut read cuts t w := by
  intro u c v hu
  refine Bool.eq_false_iff.2 fun hcut => ?_
  have hc : isBlank c = true := List.all_eq_true.1 hw c (by rw [hu]; simp)
  rw [cuts_eq_comma _ _ hcut] at hc
  exact absurd hc (by decide)

/-- One piece is another one with other blanks around it; behind there are none. -/
def Respaced (p q : List Char) : Prop := ∃ w, isAllBlank w = true ∧ q = w ++ trim p

namespace Respaced

variable {p q : List Char}

theorem trim_eq (h : Respaced p q) : trim q = trim p := by
  obtain ⟨w, hw, rfl⟩ := h
  rw [trim_append_of_isAllBlank hw, trim_trim]

theorem isAllBlank_eq (h : Respaced p q) : isAllBlank q = isAllBlank p := by
  rw [← isAllBlank_trim q, h.trim_eq, isAllBlank_trim]

theorem foldl_eq (h : Respaced p q) :
    p.foldl read ({}, {}) = (trailing p).foldl read (q.foldl read ({}, {})) := by
  obtain ⟨w, hw, rfl⟩ := h
  conv => lhs; rw [← leading_append_trim_append_trailing p]
  rw [List.foldl_append, List.foldl_append, List.foldl_append, foldl_of_isAllBlank hw,
    foldl_of_isAllBlank (isAllBlank_leading p)]

theorem uncut (h : Respaced p q) (hp : Uncut read cuts ({}, {}) p) :
    Uncut read cuts ({}, {}) q := by
  obtain ⟨w, hw, rfl⟩ := h
  rw [← leading_append_trim_append_trailing p, uncut_append, uncut_append,
    foldl_of_isAllBlank (isAllBlank_leading p)] at hp
  refine (uncut_append read cuts).2 ⟨uncut_of_isAllBlank hw _, ?_⟩
  rw [foldl_of_isAllBlank hw]
  exact hp.2.1

theorem cuts_behind (h : Respaced p q) (hp : cuts (p.foldl read ({}, {})) ',' = true) :
    cuts (q.foldl read ({}, {})) ',' = true := by
  rwa [h.foldl_eq, cuts_foldl_of_isAllBlank (isAllBlank_trailing p)] at hp

end Respaced

/-- Pieces that were cut out of a list are cut out again, whatever the blanks around them. -/
theorem pieces_of_respaced {cs : List Char} {ps qs : List (List Char)}
    (hps : pieces read cuts ({}, {}) cs = ps) (h : List.Forall₂ Respaced ps qs) :
    pieces read cuts ({}, {}) (joinFields ',' qs) = qs := by
  have hreset : ∀ t, cuts t ',' = true → read t ',' = ({}, {}) := fun t ht => read_of_cuts ht
  have hseparated := separated_pieces cuts_eq_comma hreset cs
  rw [hps] at hseparated
  have hqs := hseparated.of_forall₂ (fun _ _ h => h.uncut) (fun _ _ h => h.cuts_behind) h
  exact hqs.pieces_joinFields hreset

theorem isAllBlank_joinFields_cons (p : List Char) (ps : List (List Char)) :
    isAllBlank (joinFields ',' (p :: ps)) = (isAllBlank p && ps.isEmpty) := by
  cases ps with
  | nil => simp [joinFields]
  | cons q qs =>
    rw [joinFields_cons_ne_nil ',' p (List.cons_ne_nil q qs), isAllBlank_append]
    simp [isAllBlank, show isBlank ',' = false by decide]

theorem isAllBlank_of_respaced {ps qs : List (List Char)} (h : List.Forall₂ Respaced ps qs) :
    isAllBlank (joinFields ',' qs) = isAllBlank (joinFields ',' ps) := by
  cases h with
  | nil => rfl
  | @cons p q ps qs hpq hrest =>
    have hempty : qs.isEmpty = ps.isEmpty := by cases hrest <;> rfl
    rw [isAllBlank_joinFields_cons, isAllBlank_joinFields_cons, hpq.isAllBlank_eq, hempty]

theorem map_trim_of_respaced {ps qs : List (List Char)} (h : List.Forall₂ Respaced ps qs) :
    qs.map trim = ps.map trim := by
  induction h with
  | nil => rfl
  | cons hpq _ ih => rw [List.map_cons, List.map_cons, hpq.trim_eq, ih]

/-! ## Joining with a comma and a space -/

/-- The trimmed pieces, all but the first one with a space in front. -/
def spaced : List (List Char) → List (List Char)
  | [] => []
  | p :: ps => trim p :: ps.map (' ' :: trim ·)

theorem respaced_spaced (ps : List (List Char)) : List.Forall₂ Respaced ps (spaced ps) := by
  cases ps with
  | nil => exact .nil
  | cons p ps =>
    refine .cons ⟨[], rfl, rfl⟩ ?_
    rw [List.forall₂_map_right_iff, List.forall₂_same]
    intro q _
    exact ⟨[' '], by decide, rfl⟩

/-- Joining with a comma and a space is joining with a comma when the space is part of the piece. -/
theorem intercalate_eq_joinFields (ps : List (List Char)) :
    [',', ' '].intercalate (ps.map trim) = joinFields ',' (spaced ps) := by
  induction ps with
  | nil => rfl
  | cons p ps ih =>
    cases ps with
    | nil => simp [spaced, joinFields]
    | cons q qs =>
      rw [List.map_cons, List.intercalate_cons_of_ne_nil (by simp), ih, spaced, spaced,
        joinFields_cons_ne_nil ',' (trim p) (by simp)]
      cases qs <;> simp [joinFields]

end ArgumentCutter

/-! ## The arguments of a list by itself -/

namespace Argument

theorem cutList_eq_nil_iff (args : String) (base : Nat) :
    cutList args base = [] ↔ isAllBlank args.toList = true := by
  rw [cutList_eq_ofPieces]
  split
  · rename_i hblank
    exact iff_of_true rfl hblank
  · rename_i hblank
    rw [ofPieces_eq_nil_iff]
    exact iff_of_false (pieces_ne_nil _ _ _ _) hblank

theorem map_text_cutList (args : String) (base : Nat) :
    (cutList args base).map (·.text) =
      if isAllBlank args.toList then []
      else (cutCommas (commaCuts anyLevel) args.toList).map fun p => String.ofList (trim p) := by
  rw [cutList_eq_ofPieces]
  split
  · rfl
  · exact map_text_ofPieces _ _

theorem cutList_shift (args : String) (base : Nat) :
    cutList args base = (cutList args 0).map (·.shift base) := by
  rw [cutList_eq_ofPieces, cutList_eq_ofPieces]
  split
  · rfl
  · rw [map_shift_ofPieces, Nat.zero_add]

theorem fill_cutList (args : String) :
    Fill args.toList ⟨0, byteLength args.toList⟩ (cutList args 0) := by
  rw [cutList_eq_ofPieces]
  split
  · exact fill_nil _ _
  · have hjoin := join_cutCommas (commaCuts anyLevel) args.toList
    have hfill := fill_ofPieces
      (show args.toList = [] ++ (joinFields ',' (cutCommas (commaCuts anyLevel) args.toList) ++ [])
        by rw [hjoin, List.nil_append, List.append_nil])
    rwa [hjoin, byteLength_nil, Nat.zero_add] at hfill

theorem trim_of_mem_cutList {args : String} {base : Nat} {arg : Argument}
    (harg : arg ∈ cutList args base) : trim arg.text.toList = arg.text.toList := by
  rw [cutList_eq_ofPieces] at harg
  split at harg
  · simp at harg
  · obtain ⟨_, p, _, -, rfl⟩ := mem_ofPieces_iff.1 harg
    rw [toList_text_ofPiece, trim_trim]

/-- Joining the texts and cutting again gives the same texts. -/
theorem map_text_cutList_intercalate (args : String) (base base' : Nat) :
    (cutList (", ".intercalate ((cutList args base).map (·.text))) base').map (·.text) =
      (cutList args base).map (·.text) := by
  rw [map_text_cutList args base]
  split
  · rw [String.intercalate_nil]
    rfl
  · rename_i hblank
    generalize hps : cutCommas (commaCuts anyLevel) args.toList = ps
    have hrespaced := ArgumentCutter.respaced_spaced ps
    have hjoined : (", ".intercalate (ps.map fun p => String.ofList (trim p))).toList =
        joinFields ',' (ArgumentCutter.spaced ps) := by
      rw [String.toList_intercalate, ← ArgumentCutter.intercalate_eq_joinFields]
      simp [Function.comp_def]
    have hstill : isAllBlank (joinFields ',' (ArgumentCutter.spaced ps)) ≠ true := by
      rw [ArgumentCutter.isAllBlank_of_respaced hrespaced, ← hps, join_cutCommas]
      exact hblank
    rw [← ArgumentCutter.pieces_eq_cutCommas] at hps
    have htexts : ∀ qs : List (List Char),
        qs.map (fun q => String.ofList (trim q)) = (qs.map trim).map String.ofList := by simp
    rw [map_text_cutList, hjoined, if_neg hstill, ← ArgumentCutter.pieces_eq_cutCommas,
      ArgumentCutter.pieces_of_respaced hps hrespaced, htexts, htexts,
      ArgumentCutter.map_trim_of_respaced hrespaced]

/-- **Cutting loses nothing, and cutting again changes nothing.** -/
theorem cutList_rejoins (args : String) (base : Nat) :
    (cutList args base = [] ↔ isAllBlank args.toList = true) ∧
      ((cutList args base).map (·.text) =
        if isAllBlank args.toList then []
        else (cutCommas (commaCuts anyLevel) args.toList).map fun p => String.ofList (trim p)) ∧
      cutList args base = (cutList args 0).map (·.shift base) ∧
      Fill args.toList ⟨0, byteLength args.toList⟩ (cutList args 0) ∧
      (∀ arg ∈ cutList args base, trim arg.text.toList = arg.text.toList) ∧
      ∀ base', (cutList (", ".intercalate ((cutList args base).map (·.text))) base').map (·.text) =
        (cutList args base).map (·.text) :=
  ⟨cutList_eq_nil_iff args base, map_text_cutList args base, cutList_shift args base,
    fill_cutList args, fun _ harg => trim_of_mem_cutList harg,
    map_text_cutList_intercalate args base⟩

/-- The last piece ends in an open string, and a backslash in front of a cut is plain text. -/
example : (cutList " a\\ ,, (b,c) , 'd, e" 4).map (·.text) = ["a\\", "", "(b,c)", "'d, e"] := by
  decide +kernel

end Argument

end FlowExpr
