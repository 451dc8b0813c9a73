import FlowExpr.Proofs.Highlight.Match
import Mathlib.Data.List.Flatten
import Mathlib.Data.List.Nodup

/-!
# Which matches become tokens

The matches of all recognizers are sorted by their starts and gone through from the left.

**The sweep.** `reach` is how far the tokens kept so far go. A token is kept exactly when it starts
at or behind that place (`mem_keepApart_iff`), and every token gone through, kept or not, starts
before it (`start_lt_reach`). From these two facts follows that tokens are apart, that a dropped one
starts inside one that was kept, and that of two with one start only the first is kept.

**Precedence.** Sorting keeps the order of matches with the same start, so the first of them is the
one of the first recognizer.

**Strings.** No other token holds a quote and strings do not overlap each other, so nothing that is
kept covers the start of a string: every string becomes a token.
-/

namespace FlowExpr.Highlight

open Text

/-! ## The sweep -/

/-- How far the kept tokens reach when a list has been gone through. -/
def reach (stop : Nat) : List Token → Nat
  | [] => stop
  | t :: ts => if t.span.start < stop then reach stop ts else reach t.span.stop ts

/-- No token of the list is empty. -/
def Proper (ts : List Token) : Prop := ∀ t ∈ ts, t.span.start < t.span.stop

section

variable {stop : Nat} {t : Token} {ts : List Token}

theorem keepApart_append (stop : Nat) (a b : List Token) :
    keepApart stop (a ++ b) = keepApart stop a ++ keepApart (reach stop a) b := by
  induction a generalizing stop with
  | nil => rfl
  | cons t a ih =>
    rw [List.cons_append, keepApart, keepApart, reach]
    by_cases ht : t.span.start < stop
    · rw [if_pos ht, if_pos ht, if_pos ht, ih]
    · rw [if_neg ht, if_neg ht, if_neg ht, ih, List.cons_append]

/-- A token is kept exactly when it starts behind all that was kept before it. -/
theorem mem_keepApart_iff :
    t ∈ keepApart stop ts ↔ ∃ a b, ts = a ++ t :: b ∧ reach stop a ≤ t.span.start := by
  constructor
  · intro h
    induction ts generalizing stop with
    | nil => cases h
    | cons u ts ih =>
      rw [keepApart] at h
      by_cases hu : u.span.start < stop
      · rw [if_pos hu] at h
        obtain ⟨a, b, rfl, hreach⟩ := ih h
        exact ⟨u :: a, b, rfl, by rwa [reach, if_pos hu]⟩
      · rw [if_neg hu] at h
        rcases List.mem_cons.1 h with rfl | htail
        · exact ⟨[], ts, rfl, Nat.le_of_not_lt hu⟩
        · obtain ⟨a, b, rfl, hreach⟩ := ih htail
          exact ⟨u :: a, b, rfl, by rwa [reach, if_neg hu]⟩
  · rintro ⟨a, b, rfl, hreach⟩
    rw [keepApart_append, keepApart, if_neg (Nat.not_lt.2 hreach)]
    exact List.mem_append_right _ List.mem_cons_self

theorem mem_of_mem_keepApart (h : t ∈ keepApart stop ts) : t ∈ ts := by
  obtain ⟨a, b, rfl, -⟩ := mem_keepApart_iff.1 h
  simp

theorem le_reach (h : Proper ts) : stop ≤ reach stop ts := by
  induction ts generalizing stop with
  | nil => exact Nat.le_refl _
  | cons t ts ih =>
    have hts : Proper ts := fun u hu => h u (List.mem_cons_of_mem _ hu)
    have ht := h t List.mem_cons_self
    rw [reach]
    by_cases hstart : t.span.start < stop
    · rw [if_pos hstart]
      exact ih hts
    · rw [if_neg hstart]
      have hreach : t.span.stop ≤ reach t.span.stop ts := ih hts
      omega

/-- A token that was gone through starts before the reach, whether it was kept or not. -/
theorem start_lt_reach (h : Proper ts) (ht : t ∈ ts) : t.span.start < reach stop ts := by
  induction ts generalizing stop with
  | nil => cases ht
  | cons u ts ih =>
    have hts : Proper ts := fun v hv => h v (List.mem_cons_of_mem _ hv)
    have hu := h u List.mem_cons_self
    rw [reach]
    rcases List.mem_cons.1 ht with rfl | htail
    · by_cases hstart : t.span.start < stop
      · rw [if_pos hstart]
        exact Nat.lt_of_lt_of_le hstart (le_reach hts)
      · rw [if_neg hstart]
        exact Nat.lt_of_lt_of_le hu (le_reach hts)
    · split
      · exact ih hts htail
      · exact ih hts htail

/-- The reach is the end of a kept token, or where the sweep began. -/
theorem reach_eq (stop : Nat) (ts : List Token) :
    reach stop ts = stop ∨ ∃ t ∈ keepApart stop ts, t.span.stop = reach stop ts := by
  induction ts generalizing stop with
  | nil => exact Or.inl rfl
  | cons u ts ih =>
    rw [reach, keepApart]
    by_cases hu : u.span.start < stop
    · rw [if_pos hu, if_pos hu]
      exact ih stop
    · rw [if_neg hu, if_neg hu]
      rcases ih u.span.stop with hreach | ⟨t, ht, hreach⟩
      · exact Or.inr ⟨u, List.mem_cons_self, hreach.symm⟩
      · exact Or.inr ⟨t, List.mem_cons_of_mem _ ht, hreach⟩

theorem pairwise_keepApart (h : Proper ts) :
    (keepApart stop ts).Pairwise fun a b => a.span.stop ≤ b.span.start := by
  induction ts generalizing stop with
  | nil => exact List.Pairwise.nil
  | cons t ts ih =>
    have hts : Proper ts := fun u hu => h u (List.mem_cons_of_mem _ hu)
    rw [keepApart]
    split
    · exact ih hts
    · refine List.pairwise_cons.2 ⟨fun u hu => ?_, ih hts⟩
      obtain ⟨a, b, rfl, hreach⟩ := mem_keepApart_iff.1 hu
      have ha : Proper a := fun v hv => hts v (List.mem_append_left _ hv)
      exact Nat.le_trans (le_reach ha) hreach

/-- A token that is dropped starts inside one that is kept. -/
theorem exists_covering (hsorted : ts.Pairwise fun a b => a.span.start ≤ b.span.start)
    (ht : t ∈ ts) (hdropped : t ∉ keepApart 0 ts) :
    ∃ u ∈ keepApart 0 ts, u.span.start ≤ t.span.start ∧ t.span.start < u.span.stop := by
  obtain ⟨a, b, rfl⟩ := List.append_of_mem ht
  have hlt : t.span.start < reach 0 a := by
    by_contra hle
    exact hdropped (mem_keepApart_iff.2 ⟨a, b, rfl, Nat.le_of_not_lt hle⟩)
  rcases reach_eq 0 a with hzero | ⟨u, hu, hreach⟩
  · omega
  · refine ⟨u, ?_, ?_, by omega⟩
    · rw [keepApart_append]
      exact List.mem_append_left _ hu
    · exact (List.pairwise_append.1 hsorted).2.2 u (mem_of_mem_keepApart hu) t List.mem_cons_self

/-- Of two tokens with one start the later one is dropped. -/
theorem not_mem_keepApart_of_sublist (hproper : Proper ts) (hnodup : ts.Nodup) {u : Token}
    (hut : [u, t].Sublist ts) (hstart : u.span.start = t.span.start) : t ∉ keepApart stop ts := by
  intro ht
  obtain ⟨a, b, rfl, hreach⟩ := mem_keepApart_iff.1 ht
  obtain ⟨-, htb, hdisjoint⟩ := List.nodup_append.1 hnodup
  have ha : t ∉ a := fun hmem => hdisjoint t hmem t List.mem_cons_self rfl
  have hb : t ∉ b := (List.nodup_cons.1 htb).1
  -- The pair cannot begin at `t` or behind it, for `t` stands there once only.
  have hu : u ∈ a := by
    obtain ⟨x, y, hxy, hx, hy⟩ := List.sublist_append_iff.1 hut
    cases x with
    | nil =>
      obtain rfl : [u, t] = y := hxy
      exact absurd (List.singleton_sublist.1 hy.tail) hb
    | cons v x =>
      obtain ⟨rfl, -⟩ := List.cons.inj hxy
      exact hx.subset List.mem_cons_self
  have hlt : u.span.start < reach stop a :=
    start_lt_reach (fun v hv => hproper v (List.mem_append_left _ hv)) hu
  omega

end

/-! ## The matches of all recognizers -/

section

variable {cs : List Char} {t : Token}

theorem mem_candidates_iff :
    t ∈ candidates cs ↔ ∃ recognize, (t.kind, recognize) ∈ recognizers ∧
      t.span ∈ Recognizer.spans recognize cs := by
  unfold candidates
  simp only [List.mem_flatMap, List.mem_map]
  constructor
  · rintro ⟨⟨kind, recognize⟩, hmem, span, hspan, rfl⟩
    exact ⟨recognize, hmem, hspan⟩
  · rintro ⟨recognize, hmem, hspan⟩
    exact ⟨(t.kind, recognize), hmem, t.span, hspan, rfl⟩

theorem proper_candidates (cs : List Char) : Proper (candidates cs) := by
  intro t ht
  obtain ⟨recognize, hmem, hspan⟩ := mem_candidates_iff.1 ht
  exact Recognizer.start_lt_stop_of_mem_spans (finds_of_mem_recognizers hmem) hspan

/-- A token is found in the text where its span says, written as its kind asks. -/
theorem exists_of_mem_candidates (h : t ∈ candidates cs) :
    ∃ a token b, cs = a ++ (token ++ b) ∧ t.kind.Spells token ∧
      t.span = ⟨byteLength a, byteLength a + byteLength token⟩ := by
  obtain ⟨recognize, hmem, hspan⟩ := mem_candidates_iff.1 h
  exact Recognizer.exists_of_mem_spans (finds_of_mem_recognizers hmem) hspan

theorem nodup_candidates (cs : List Char) : (candidates cs).Nodup := by
  refine List.nodup_flatMap.2 ⟨?_, ?_⟩
  · rintro ⟨kind, recognize⟩ hmem
    have hfinds := finds_of_mem_recognizers hmem
    refine List.Nodup.map (fun s u h => congrArg Token.span h) ?_
    refine (Recognizer.pairwise_spans hfinds cs).imp_of_mem ?_
    rintro s u hs - hle rfl
    have hlt := Recognizer.start_lt_stop_of_mem_spans hfinds hs
    omega
  · have hkinds : (recognizers.map Prod.fst).Nodup := by decide
    refine (List.pairwise_map.1 hkinds).imp ?_
    intro p q hpq t hp hq
    obtain ⟨s, -, rfl⟩ := List.mem_map.1 hp
    obtain ⟨u, -, hu⟩ := List.mem_map.1 hq
    exact hpq (congrArg Token.kind hu).symm

/-- The matches of a recognizer come behind those of the recognizers before it. -/
theorem pair_sublist_candidates {earlier later : List (Kind × Recognizer)} {kind kind' : Kind}
    {recognize recognize' : Recognizer}
    (hrecognizers : recognizers = earlier ++ (kind, recognize) :: later)
    (hmem : (kind', recognize') ∈ earlier) {span span' : Span}
    (hspan' : span' ∈ recognize'.spans cs) (hspan : span ∈ recognize.spans cs) :
    [Token.mk span' kind', Token.mk span kind].Sublist (candidates cs) := by
  unfold candidates
  rw [hrecognizers, List.flatMap_append, List.flatMap_cons, ← List.singleton_append]
  refine List.Sublist.append ?_ ?_
  · exact List.singleton_sublist.2
      (List.mem_flatMap.2 ⟨(kind', recognize'), hmem, List.mem_map.2 ⟨span', hspan', rfl⟩⟩)
  · exact List.singleton_sublist.2
      (List.mem_append_left _ (List.mem_map.2 ⟨span, hspan, rfl⟩))

/-! ## The tokens of a text -/

/-- The matches in the order of their starts. -/
def sortedCandidates (cs : List Char) : List Token :=
  (candidates cs).mergeSort fun a b => a.span.start ≤ b.span.start

theorem startLe_trans (a b c : Token) (hab : decide (a.span.start ≤ b.span.start) = true)
    (hbc : decide (b.span.start ≤ c.span.start) = true) :
    decide (a.span.start ≤ c.span.start) = true := by
  rw [decide_eq_true_eq] at hab hbc ⊢
  exact Nat.le_trans hab hbc

theorem startLe_total (a b : Token) :
    (decide (a.span.start ≤ b.span.start) || decide (b.span.start ≤ a.span.start)) = true := by
  rw [Bool.or_eq_true, decide_eq_true_eq, decide_eq_true_eq]
  exact Nat.le_total _ _

theorem mem_sortedCandidates_iff : t ∈ sortedCandidates cs ↔ t ∈ candidates cs :=
  List.mem_mergeSort

theorem sortedCandidates_sorted (cs : List Char) :
    (sortedCandidates cs).Pairwise fun a b => a.span.start ≤ b.span.start := by
  have h : (sortedCandidates cs).Pairwise fun a b => decide (a.span.start ≤ b.span.start) = true :=
    List.pairwise_mergeSort startLe_trans startLe_total (candidates cs)
  simpa only [decide_eq_true_eq] using h

theorem mem_candidates_of_mem_classify {source : String} (h : t ∈ classify source) :
    t ∈ candidates source.toList :=
  mem_sortedCandidates_iff.1 (mem_of_mem_keepApart h)

theorem proper_sortedCandidates (cs : List Char) : Proper (sortedCandidates cs) :=
  fun t ht => proper_candidates cs t (mem_sortedCandidates_iff.1 ht)

theorem pairwise_classify (source : String) :
    (classify source).Pairwise fun a b => a.span.stop ≤ b.span.start :=
  pairwise_keepApart (proper_sortedCandidates source.toList)

/-- The recognizer of a kept token is the first of those with a match at its start. -/
theorem first_recognizer {source : String} (h : t ∈ classify source) :
    ∃ earlier recognize later, recognizers = earlier ++ (t.kind, recognize) :: later ∧
      t.span ∈ Recognizer.spans recognize source.toList ∧
      ∀ p ∈ earlier, ∀ span ∈ Recognizer.spans p.2 source.toList, span.start ≠ t.span.start := by
  obtain ⟨recognize, hmem, hspan⟩ := mem_candidates_iff.1 (mem_candidates_of_mem_classify h)
  obtain ⟨earlier, later, hrecognizers⟩ := List.append_of_mem hmem
  refine ⟨earlier, recognize, later, hrecognizers, hspan, ?_⟩
  rintro ⟨kind', recognize'⟩ hearlier span' hspan' hstart
  have hpair := pair_sublist_candidates hrecognizers hearlier hspan' hspan
  have hsorted : [Token.mk span' kind', t].Sublist (sortedCandidates source.toList) :=
    List.pair_sublist_mergeSort startLe_trans startLe_total
      (by simp only [decide_eq_true_eq]; omega) hpair
  have hnodup : (sortedCandidates source.toList).Nodup :=
    (List.mergeSort_perm _ _).nodup_iff.2 (nodup_candidates source.toList)
  exact not_mem_keepApart_of_sublist (proper_sortedCandidates _) hnodup hsorted hstart h

/-- A match that is no token starts inside one. -/
theorem exists_token_covering {source : String} (h : t ∈ candidates source.toList)
    (hdropped : t ∉ classify source) :
    ∃ u ∈ classify source, u.span.start ≤ t.span.start ∧ t.span.start < u.span.stop :=
  exists_covering (sortedCandidates_sorted source.toList) (mem_sortedCandidates_iff.2 h) hdropped

/-! ## Strings -/

/-- A character that stands within the span of a part of the text belongs to that part. -/
theorem mem_of_between {a part b u v : List Char} {c : Char}
    (h : a ++ (part ++ b) = u ++ c :: v) (hle : byteLength a ≤ byteLength u)
    (hlt : byteLength u < byteLength a + byteLength part) : c ∈ part := by
  obtain ⟨z, rfl, hz⟩ := exists_append_of_byteLength_le h hle
  rw [byteLength_append] at hlt
  obtain ⟨w, hw, rfl, hcv⟩ := exists_append_of_byteLength_lt hz.symm (by omega)
  obtain ⟨d, w, rfl⟩ := List.exists_cons_of_ne_nil hw
  obtain ⟨rfl, -⟩ := List.cons.inj hcv
  simp

/-- Every string becomes a token. -/
theorem string_mem_classify {source : String} {span : Span}
    (h : span ∈ Recognizer.spans stringMatch source.toList) :
    Token.mk span .string ∈ classify source := by
  have hmem : (Kind.string, stringMatch) ∈ recognizers := by simp [recognizers]
  have hcandidate : Token.mk span .string ∈ candidates source.toList :=
    mem_candidates_iff.2 ⟨stringMatch, hmem, h⟩
  by_contra hdropped
  obtain ⟨u, hu, hstart, hstop⟩ := exists_token_covering hcandidate hdropped
  have hucandidate := mem_candidates_of_mem_classify hu
  by_cases hkind : u.kind = .string
  · -- Two strings are the same or apart.
    obtain ⟨recognize, hrecognize, huspan⟩ := mem_candidates_iff.1 hucandidate
    obtain rfl : recognize = stringMatch := by
      rw [hkind] at hrecognize
      simpa [recognizers] using hrecognize
    have hne : u.span ≠ span := by
      rintro rfl
      exact hdropped (hkind ▸ hu)
    have hlt := Recognizer.start_lt_stop_of_mem_spans stringMatch_finds h
    rcases Recognizer.apart_of_mem_spans stringMatch_finds huspan h hne with happart | happart
    · exact absurd hstop (Nat.not_lt.2 happart)
    · exact absurd hstart (Nat.not_le.2 (Nat.lt_of_lt_of_le hlt happart))
  · -- No other token holds the quote at which the string starts.
    obtain ⟨a, token, b, hsource, hspells, hspan⟩ := exists_of_mem_candidates hucandidate
    obtain ⟨a', quoted, b', hsource', ⟨body, rfl⟩, hspan'⟩ := exists_of_mem_candidates hcandidate
    rw [hspan] at hstart hstop
    rw [hspan'] at hstart hstop
    have hquote : '\'' ∈ token := by
      refine mem_of_between (b := b) (u := a') (v := body ++ ['\''] ++ b') ?_ hstart hstop
      rw [← hsource, hsource']
      simp
    exact absurd (hspells.not_isStringOnly hkind hquote) (by decide)

end

theorem start_lt_stop_of_mem_classify {source : String} {t : Token} (h : t ∈ classify source) :
    t.span.start < t.span.stop :=
  proper_candidates source.toList t (mem_candidates_of_mem_classify h)

/-- **The tokens of a text are a selection of its matches.** Each is a match of the first recognizer
that has one at its start, and is not empty. They are in order and apart. A match that was left out
starts inside a token, and no string is left out. -/
theorem classify_selects (source : String) :
    (∀ t ∈ classify source, t.span.start < t.span.stop ∧
      ∃ earlier recognize later, recognizers = earlier ++ (t.kind, recognize) :: later ∧
        t.span ∈ Recognizer.spans recognize source.toList ∧
        ∀ p ∈ earlier, ∀ span ∈ Recognizer.spans p.2 source.toList,
          span.start ≠ t.span.start) ∧
    (classify source).Pairwise (fun a b => a.span.stop ≤ b.span.start) ∧
    (classify source).Pairwise (fun a b => a.span.start < b.span.start) ∧
    (∀ p ∈ recognizers, ∀ span ∈ Recognizer.spans p.2 source.toList,
      Token.mk span p.1 ∉ classify source →
      ∃ t ∈ classify source, t.span.start ≤ span.start ∧ span.start < t.span.stop) ∧
    ∀ span ∈ Recognizer.spans stringMatch source.toList,
      Token.mk span .string ∈ classify source := by
  refine ⟨fun t ht => ?_, pairwise_classify source, ?_, ?_, fun span hspan => ?_⟩
  · exact ⟨start_lt_stop_of_mem_classify ht, first_recognizer ht⟩
  · refine (pairwise_classify source).imp_of_mem ?_
    intro a b ha _ hab
    exact Nat.lt_of_lt_of_le (start_lt_stop_of_mem_classify ha) hab
  · rintro ⟨kind, recognize⟩ hmem span hspan hdropped
    exact exists_token_covering (mem_candidates_iff.2 ⟨recognize, hmem, hspan⟩) hdropped
  · exact string_mem_classify hspan

end FlowExpr.Highlight
