import FlowExpr.Proofs.Call.Candidates
import FlowExpr.Proofs.Text.Trim
import Mathlib.Data.List.Chain

/-!
# Arguments of consecutive pieces

A text cut at commas has one argument for each piece: the piece without the blanks around it, with
the span at which it stands. `Argument.ofPieces` reads the arguments off the pieces alone, without
the text around them; `map_ofSegment_ofPieces` says that reading them from the text gives the same.

Nothing gets lost on the way (`fill_ofPieces`). What stands between two arguments is blanks, a
comma, and blanks, and before the first and behind the last one there are only blanks.
-/

namespace FlowExpr

open Text

/-! ## Arguments -/

/-- One span lies inside another. -/
def Span.Within (s t : Span) : Prop := t.start ≤ s.start ∧ s.stop ≤ t.stop

namespace Argument

/-- The argument of a piece that starts at `pos`. -/
def ofPiece (pos : Nat) (p : List Char) : Argument where
  text := String.ofList (trim p)
  span := ⟨pos + byteLength (leading p), pos + byteLength (leading p) + byteLength (trim p)⟩

/-- The arguments of pieces that stand one comma apart, the first one at `pos`. -/
def ofPieces (pos : Nat) : List (List Char) → List Argument
  | [] => []
  | p :: ps => ofPiece pos p :: ofPieces (pos + byteLength p + 1) ps

@[simp] theorem ofPieces_nil (pos : Nat) : ofPieces pos [] = [] := rfl

@[simp] theorem ofPieces_cons (pos : Nat) (p : List Char) (ps : List (List Char)) :
    ofPieces pos (p :: ps) = ofPiece pos p :: ofPieces (pos + byteLength p + 1) ps := rfl

@[simp] theorem toList_text_ofPiece (pos : Nat) (p : List Char) :
    (ofPiece pos p).text.toList = trim p :=
  String.toList_ofList

theorem ofPieces_append (pos : Nat) (ps qs : List (List Char)) :
    ofPieces pos (ps ++ qs) =
      ofPieces pos ps ++ ofPieces (pos + byteLength (closedFields ',' ps)) qs := by
  induction ps generalizing pos with
  | nil => rfl
  | cons p ps ih =>
    simp [ih, Nat.add_assoc]

theorem mem_ofPieces_iff {pos : Nat} {ps : List (List Char)} {arg : Argument} :
    arg ∈ ofPieces pos ps ↔
      ∃ xs p ys, ps = xs ++ p :: ys ∧
        arg = ofPiece (pos + byteLength (closedFields ',' xs)) p := by
  constructor
  · intro h
    induction ps generalizing pos with
    | nil => simp at h
    | cons p ps ih =>
      rcases List.mem_cons.1 h with rfl | h
      · exact ⟨[], p, ps, rfl, rfl⟩
      · obtain ⟨xs, q, ys, rfl, rfl⟩ := ih h
        exact ⟨p :: xs, q, ys, rfl, by simp [Nat.add_assoc]⟩
  · intro h
    obtain ⟨xs, p, ys, rfl, rfl⟩ := h
    rw [ofPieces_append]
    simp

theorem ofPieces_eq_nil_iff {pos : Nat} {ps : List (List Char)} :
    ofPieces pos ps = [] ↔ ps = [] := by
  cases ps <;> simp

theorem ofSegment_append (a p b : List Char) :
    ofSegment (a ++ (p ++ b)) ⟨byteLength a, byteLength a + byteLength p⟩ =
      ofPiece (byteLength a) p := by
  have hslice : slice (a ++ (p ++ b)) ⟨byteLength a, byteLength a + byteLength p⟩ = p := by
    rw [slice, slice?_append, Option.getD_some]
  have hlead : byteLength p - byteLength (trimStart p) = byteLength (leading p) := by
    have hlen := byteLength_eq_trim p
    rw [← trim_append_trailing, byteLength_append]
    omega
  simp only [ofSegment, hslice, hlead]
  rfl

/-- Moving one piece over to the text in front. -/
theorem append_joinFields_cons (a p b : List Char) {ps : List (List Char)} (h : ps ≠ []) :
    a ++ (joinFields ',' (p :: ps) ++ b) =
      (a ++ (p ++ [','])) ++ (joinFields ',' ps ++ b) := by
  rw [joinFields_cons_ne_nil ',' p h]
  simp

theorem byteLength_piece (a p : List Char) :
    byteLength (a ++ (p ++ [','])) = byteLength a + byteLength p + 1 := by
  simp [Nat.add_assoc]

/-- Reading the arguments from a text is reading them off its pieces. -/
theorem map_ofSegment_ofPieces (a b : List Char) {ps : List (List Char)} (h : ps ≠ []) :
    (Span.ofPieces (byteLength a) (byteLength a) ps).map
        (ofSegment (a ++ (joinFields ',' ps ++ b))) = ofPieces (byteLength a) ps := by
  induction ps generalizing a with
  | nil => exact absurd rfl h
  | cons p ps ih =>
    by_cases hps : ps = []
    · subst hps
      exact congrArg (· :: []) (ofSegment_append a p b)
    · have hrest := ih (a ++ (p ++ [','])) hps
      rw [byteLength_piece] at hrest
      rw [Span.ofPieces, List.map_cons, append_joinFields_cons a p b hps, hrest, ofPieces_cons]
      congr 1
      rw [show a ++ (p ++ [',']) ++ (joinFields ',' ps ++ b) =
        a ++ (p ++ (',' :: joinFields ',' ps ++ b)) by simp]
      exact ofSegment_append a p _

/-! ## What stands between the arguments -/

/-- The text of an argument stands at its span. -/
theorem slice?_ofPiece (a p b : List Char) :
    slice? (a ++ (p ++ b)) (ofPiece (byteLength a) p).span = some (trim p) := by
  have hp := leading_append_trim_append_trailing p
  refine slice?_of_eq (x := a ++ leading p) (z := trailing p ++ b) ?_ ?_ ?_
  · conv => lhs; rw [← hp]
    simp
  · simp
  · simp

/-- Blanks, a comma, and blanks. -/
def IsGap (cs : List Char) : Prop :=
  ∃ w v, cs = w ++ ',' :: v ∧ isAllBlank w = true ∧ isAllBlank v = true

theorem slice?_gap (a p q b : List Char) :
    slice? (a ++ (p ++ ',' :: (q ++ b)))
        ⟨(ofPiece (byteLength a) p).span.stop,
          (ofPiece (byteLength a + byteLength p + 1) q).span.start⟩ =
      some (trailing p ++ ',' :: leading q) := by
  have hp := leading_append_trim_append_trailing p
  have hq := leading_append_trim_append_trailing q
  refine slice?_of_eq (x := a ++ (leading p ++ trim p)) (z := trim q ++ trailing q ++ b) ?_ ?_ ?_
  · conv => lhs; rw [← hp, ← hq]
    simp
  · simp [ofPiece, Nat.add_assoc]
  · have hlen := byteLength_eq_trim p
    simp [ofPiece]
    omega

variable {source a b : List Char} {ps : List (List Char)}

theorem slice?_of_mem_ofPieces (hsource : source = a ++ (joinFields ',' ps ++ b))
    {arg : Argument} (harg : arg ∈ ofPieces (byteLength a) ps) :
    slice? source arg.span = some arg.text.toList := by
  obtain ⟨xs, p, ys, rfl, rfl⟩ := mem_ofPieces_iff.1 harg
  obtain ⟨behind, hbehind, -⟩ := exists_joinFields_cons ',' p ys
  rw [hsource, joinFields_append ',' xs (by simp), hbehind, toList_text_ofPiece,
    ← byteLength_append]
  rw [show a ++ (closedFields ',' xs ++ (p ++ behind) ++ b) =
    (a ++ closedFields ',' xs) ++ (p ++ (behind ++ b)) by simp]
  exact slice?_ofPiece _ p _

/-- Between two arguments stand blanks, a comma, and blanks. -/
theorem chain_gap_ofPieces (hsource : source = a ++ (joinFields ',' ps ++ b)) :
    (ofPieces (byteLength a) ps).IsChain fun x y =>
      ∃ gap, slice? source ⟨x.span.stop, y.span.start⟩ = some gap ∧ IsGap gap := by
  induction ps generalizing a with
  | nil => exact List.IsChain.nil
  | cons p ps ih =>
    cases ps with
    | nil => exact List.IsChain.singleton _
    | cons q ps =>
      have htail := ih (a := a ++ (p ++ [',']))
        (by rw [hsource, append_joinFields_cons a p b (by simp)])
      rw [byteLength_piece] at htail
      refine List.IsChain.cons_cons ⟨trailing p ++ ',' :: leading q, ?_, ?_⟩ htail
      · obtain ⟨behind, hbehind, -⟩ := exists_joinFields_cons ',' q ps
        rw [hsource, joinFields_cons_ne_nil ',' p (by simp), hbehind]
        rw [show a ++ (p ++ ',' :: (q ++ behind) ++ b) = a ++ (p ++ ',' :: (q ++ (behind ++ b))) by
          simp]
        exact slice?_gap a p q _
      · exact ⟨trailing p, leading q, rfl, isAllBlank_trailing p, isAllBlank_leading q⟩

/-- Before the first argument stand blanks. -/
theorem slice?_before_head (hsource : source = a ++ (joinFields ',' ps ++ b)) {arg : Argument}
    (harg : (ofPieces (byteLength a) ps).head? = some arg) :
    ∃ w, slice? source ⟨byteLength a, arg.span.start⟩ = some w ∧ isAllBlank w = true := by
  cases ps with
  | nil => simp at harg
  | cons p ps =>
    obtain rfl := Option.some.inj harg
    obtain ⟨behind, hbehind, -⟩ := exists_joinFields_cons ',' p ps
    refine ⟨leading p, slice?_of_eq (z := trimStart p ++ behind ++ b) ?_ rfl rfl,
      isAllBlank_leading p⟩
    rw [hsource, hbehind]
    conv => lhs; rw [← leading_append_trimStart p]
    simp

/-- Behind the last argument stand blanks. -/
theorem slice?_behind_last (hsource : source = a ++ (joinFields ',' ps ++ b)) {arg : Argument}
    (harg : (ofPieces (byteLength a) ps).getLast? = some arg) :
    ∃ w, slice? source ⟨arg.span.stop, byteLength a + byteLength (joinFields ',' ps)⟩ = some w ∧
      isAllBlank w = true := by
  rcases List.eq_nil_or_concat ps with rfl | ⟨xs, p, rfl⟩
  · simp at harg
  rw [List.concat_eq_append] at hsource harg ⊢
  rw [ofPieces_append, ofPieces_cons, ofPieces_nil,
    List.getLast?_append_of_ne_nil _ (by simp)] at harg
  obtain rfl := Option.some.inj harg
  have hjoin : joinFields ',' (xs ++ [p]) = closedFields ',' xs ++ p :=
    joinFields_append ',' xs (by simp)
  have hp := leading_append_trim_append_trailing p
  refine ⟨trailing p, slice?_of_eq (x := a ++ closedFields ',' xs ++ (leading p ++ trim p)) (z := b)
    ?_ ?_ ?_, isAllBlank_trailing p⟩
  · rw [hsource, hjoin]
    conv => lhs; rw [← hp]
    simp
  · simp [ofPiece, Nat.add_assoc]
  · have hlen := byteLength_eq_trim p
    simp only [hjoin, byteLength_append]
    omega

theorem le_start_of_mem_ofPieces {pos : Nat} {arg : Argument} (harg : arg ∈ ofPieces pos ps) :
    pos ≤ arg.span.start := by
  obtain ⟨xs, p, ys, -, rfl⟩ := mem_ofPieces_iff.1 harg
  simp only [ofPiece]
  omega

theorem stop_ofPiece_le (pos : Nat) (p : List Char) :
    (ofPiece pos p).span.stop ≤ pos + byteLength p := by
  have hlen := byteLength_eq_trim p
  simp only [ofPiece]
  omega

/-- Arguments lie in the text that is made up of their pieces. -/
theorem within_of_mem_ofPieces {pos : Nat} {ps : List (List Char)} {arg : Argument}
    (harg : arg ∈ ofPieces pos ps) :
    arg.span.Within ⟨pos, pos + byteLength (joinFields ',' ps)⟩ := by
  refine ⟨le_start_of_mem_ofPieces harg, ?_⟩
  obtain ⟨xs, p, ys, rfl, rfl⟩ := mem_ofPieces_iff.1 harg
  obtain ⟨behind, hbehind, -⟩ := exists_joinFields_cons ',' p ys
  have hstop := stop_ofPiece_le (pos + byteLength (closedFields ',' xs)) p
  rw [joinFields_append ',' xs (List.cons_ne_nil p ys), hbehind, byteLength_append,
    byteLength_append]
  show (ofPiece (pos + byteLength (closedFields ',' xs)) p).span.stop ≤ pos + _
  omega

/-- Arguments come in order and do not touch. -/
theorem pairwise_ofPieces (pos : Nat) (ps : List (List Char)) :
    (ofPieces pos ps).Pairwise fun x y => x.span.stop < y.span.start := by
  induction ps generalizing pos with
  | nil => exact List.Pairwise.nil
  | cons p ps ih =>
    refine List.Pairwise.cons (fun y hy => ?_) (ih _)
    have hle := le_start_of_mem_ofPieces hy
    have hlen := byteLength_eq_trim p
    simp only [ofPiece]
    omega

/-- A stretch that survives trimming lies in the argument of its piece. -/
theorem within_ofPiece {mid m m' : List Char} {c d : Char} (hc : isBlank c = false)
    (hd : isBlank d = false) (hmid : mid = c :: m) (hmid' : mid = m' ++ [d]) (pos : Nat)
    (x y : List Char) :
    Span.Within ⟨pos + byteLength x, pos + byteLength x + byteLength mid⟩
      (ofPiece pos (x ++ (mid ++ y))).span := by
  obtain ⟨hlead, htrim⟩ := trim_append_of_ends hc hd hmid hmid' x y
  have hlen : byteLength (leading x) + byteLength (trimStart x) = byteLength x := by
    rw [← byteLength_append, leading_append_trimStart]
  simp only [ofPiece, hlead, htrim, byteLength_append, Span.Within]
  omega

/-! ## Arguments and gaps make up a text -/

/-- The arguments and the gaps between them make up the text at a span. -/
structure Fill (source : List Char) (whole : Span) (args : List Argument) : Prop where
  text_at : ∀ arg ∈ args, slice? source arg.span = some arg.text.toList
  ordered : args.Pairwise fun x y => x.span.stop < y.span.start
  gaps : args.IsChain fun x y =>
    ∃ gap, slice? source ⟨x.span.stop, y.span.start⟩ = some gap ∧ IsGap gap
  blank_before : ∀ arg, args.head? = some arg →
    ∃ w, slice? source ⟨whole.start, arg.span.start⟩ = some w ∧ isAllBlank w = true
  blank_behind : ∀ arg, args.getLast? = some arg →
    ∃ w, slice? source ⟨arg.span.stop, whole.stop⟩ = some w ∧ isAllBlank w = true

theorem fill_nil (source : List Char) (whole : Span) : Fill source whole [] where
  text_at := by simp
  ordered := List.Pairwise.nil
  gaps := List.IsChain.nil
  blank_before := by simp
  blank_behind := by simp

theorem fill_ofPieces (hsource : source = a ++ (joinFields ',' ps ++ b)) :
    Fill source ⟨byteLength a, byteLength a + byteLength (joinFields ',' ps)⟩
      (ofPieces (byteLength a) ps) where
  text_at _ harg := slice?_of_mem_ofPieces hsource harg
  ordered := pairwise_ofPieces _ _
  gaps := chain_gap_ofPieces hsource
  blank_before _ harg := slice?_before_head hsource harg
  blank_behind _ harg := slice?_behind_last hsource harg

end Argument

end FlowExpr
