import FlowExpr.Text.Case

/-!
# Lower case is settled after one pass

**Theorem (`lower_lower`).** Lower case has no case left to lower: a lower-case spelling is its own
lower-case spelling.

A character is *settled* if it is none of those that lower case changes: the capitals of the table
and the dotted capital I. The sigma is a capital of the table, so settled characters do not depend
on their neighbours, and a text of settled characters stays as it is (`lowerAfter_of_settled`).

What lower case writes is settled (`settled_lowerAfter`). For the letters this is a fact about the
table: no small letter of it is one of its capitals. It is checked run against run
(`CaseRun.isApartFrom`): either one lies behind the other, or capitals and small letters alternate.
Of the many runs only those near each other are compared (`CaseRun.isApartFromAll`).
-/

namespace FlowExpr.Text

/-! ## Runs of the table -/

namespace CaseRun

/-- Whether the small letters of a run are all even or all odd code points. -/
def keepsParity (r : CaseRun) : Bool := r.stride % 2 == 0 || r.first == r.last

/-- Whether no small letter of one run can be a capital of another, by where the runs lie or because
one holds odd and the other even code points. -/
def isApartFrom (r t : CaseRun) : Bool :=
  t.last.blt r.target || (r.target + (r.last - r.first)).blt t.first ||
    (r.keepsParity && t.stride % 2 == 0 && (r.target + t.first) % 2 == 1)

/-- Whether the small letters of a run are characters. -/
def isValid (r : CaseRun) : Bool :=
  r.target + (r.last - r.first) < 0xD800 ||
    (0xDFFF < r.target && r.target + (r.last - r.first) < 0x110000)

variable {r t : CaseRun} {n : Nat}

theorem holds_iff : r.holds n = true ↔ r.first ≤ n ∧ n ≤ r.last ∧ (n - r.first) % r.stride = 0 := by
  simp [holds, and_assoc]

theorem even_of_keepsParity (hr : r.keepsParity = true) (h : r.holds n = true) :
    2 ∣ n - r.first := by
  obtain ⟨hfirst, hlast, hstride⟩ := holds_iff.1 h
  simp only [keepsParity, Bool.or_eq_true, beq_iff_eq] at hr
  rcases hr with heven | hsingle
  · exact Nat.dvd_trans (Nat.dvd_of_mod_eq_zero heven) (Nat.dvd_of_mod_eq_zero hstride)
  · omega

/-- The small letter of a capital is no capital of a run that lies apart. -/
theorem not_holds_of_isApartFrom (happart : r.isApartFrom t = true) (h : r.holds n = true) :
    t.holds (r.target + (n - r.first)) = false := by
  rw [Bool.eq_false_iff]
  intro hcapital
  obtain ⟨hfirst, hlast, -⟩ := holds_iff.1 h
  obtain ⟨hfirst', hlast', hstride'⟩ := holds_iff.1 hcapital
  simp only [isApartFrom, Bool.or_eq_true, Bool.and_eq_true, Nat.blt_eq, beq_iff_eq] at happart
  rcases happart with (hbehind | hbefore) | ⟨⟨hparity, heven⟩, hodd⟩
  · omega
  · omega
  · -- Both are an even distance away from starts of different parity.
    have hsmall := even_of_keepsParity hparity h
    have hlarge := Nat.dvd_trans (Nat.dvd_of_mod_eq_zero heven) (Nat.dvd_of_mod_eq_zero hstride')
    omega

theorem toNat_small (hvalid : r.isValid = true) (h : r.holds n = true) :
    (Char.ofNat (r.target + (n - r.first))).toNat = r.target + (n - r.first) := by
  obtain ⟨hfirst, hlast, -⟩ := holds_iff.1 h
  simp only [isValid, Bool.or_eq_true, Bool.and_eq_true, decide_eq_true_eq] at hvalid
  have hchar : (r.target + (n - r.first)).isValidChar := by
    rcases hvalid with hlow | ⟨hhigh, hmax⟩
    · exact Or.inl (by omega)
    · exact Or.inr (by omega)
  rw [Char.ofNat, dif_pos hchar]
  rfl

/-! ### Many runs at once -/

/-- No run of the list starts before this. -/
def firstOf : List CaseRun → Nat
  | [] => 0x110000
  | t :: ts => min t.first (firstOf ts)

/-- No run of the list goes on behind this. -/
def lastOf : List CaseRun → Nat
  | [] => 0
  | t :: ts => max t.last (lastOf ts)

/-- Whether a run lies apart from all runs of a list. The list is halved `n` times, and a part that
lies elsewhere is passed over as a whole. -/
def isApartFromAll (r : CaseRun) : Nat → List CaseRun → Bool
  | 0, ts => ts.all r.isApartFrom
  | n + 1, ts =>
    (lastOf ts).blt r.target || (r.target + (r.last - r.first)).blt (firstOf ts) ||
      (r.isApartFromAll n (ts.take (ts.length / 2)) && r.isApartFromAll n (ts.drop (ts.length / 2)))

theorem firstOf_le {ts : List CaseRun} (h : t ∈ ts) : firstOf ts ≤ t.first := by
  induction h with
  | head => exact Nat.min_le_left _ _
  | tail _ _ ih => exact Nat.le_trans (Nat.min_le_right _ _) ih

theorem le_lastOf {ts : List CaseRun} (h : t ∈ ts) : t.last ≤ lastOf ts := by
  induction h with
  | head => exact Nat.le_max_left _ _
  | tail _ _ ih => exact Nat.le_trans ih (Nat.le_max_right _ _)

theorem all_of_isApartFromAll {n : Nat} {ts : List CaseRun} (h : r.isApartFromAll n ts = true) :
    ts.all r.isApartFrom = true := by
  induction n generalizing ts with
  | zero => exact h
  | succ n ih =>
    simp only [isApartFromAll, Bool.or_eq_true, Bool.and_eq_true, Nat.blt_eq] at h
    rcases h with (hbehind | hbefore) | ⟨hfront, hrest⟩
    · refine List.all_eq_true.2 fun t ht => ?_
      have hlt := Nat.lt_of_le_of_lt (le_lastOf ht) hbehind
      simp [isApartFrom, hlt]
    · refine List.all_eq_true.2 fun t ht => ?_
      have hlt := Nat.lt_of_lt_of_le hbefore (firstOf_le ht)
      simp [isApartFrom, hlt]
    · rw [← List.take_append_drop (ts.length / 2) ts, List.all_append, ih hfront, ih hrest]
      rfl

end CaseRun

/-! ## Settled characters -/

/-- Everything that lower case changes: the capitals of the table, and the dotted capital I. -/
def capitals : List CaseRun := ⟨0x130, 0x130, 1, 0x69⟩ :: smallLetters

theorem smallLetters_apart : smallLetters.all (fun r => capitals.all r.isApartFrom) = true := by
  have hparts : smallLetters.all (fun r => r.isApartFromAll 5 capitals) = true := by
    decide +kernel
  refine List.all_eq_true.2 fun r hr => ?_
  exact CaseRun.all_of_isApartFromAll (List.all_eq_true.1 hparts r hr)

theorem smallLetters_valid : smallLetters.all CaseRun.isValid = true := by
  decide +kernel

/-- Whether lower case leaves a character as it is. -/
def isSettled (c : Char) : Bool := !capitals.any (·.holds c.toNat)

theorem isSettled_iff {c : Char} :
    isSettled c = true ↔ ∀ r ∈ capitals, r.holds c.toNat = false := by
  simp [isSettled]

theorem ne_of_isSettled {c d : Char} (hc : isSettled c = true) (hd : isSettled d = false) :
    c ≠ d := by
  rintro rfl
  rw [hc] at hd
  exact Bool.noConfusion hd

theorem smallLetter_of_isSettled {c : Char} (h : isSettled c = true) : smallLetter c = c := by
  have hfind : smallLetters.find? (·.holds c.toNat) = none := by
    rw [List.find?_eq_none]
    intro r hr
    simp [isSettled_iff.1 h r (List.mem_cons_of_mem _ hr)]
  rw [smallLetter, hfind]

/-- Small letters are settled. -/
theorem isSettled_smallLetter {c : Char} (hc : c ≠ 'İ') : isSettled (smallLetter c) = true := by
  rw [isSettled_iff]
  intro t ht
  unfold smallLetter
  cases hfind : smallLetters.find? (·.holds c.toNat) with
  | some r =>
    have hr := List.mem_of_find?_eq_some hfind
    have hholds : r.holds c.toNat = true := by simpa using List.find?_some hfind
    have hvalid := List.all_eq_true.1 smallLetters_valid r hr
    have hapart := List.all_eq_true.1 (List.all_eq_true.1 smallLetters_apart r hr) t ht
    simp only [CaseRun.toNat_small hvalid hholds]
    exact CaseRun.not_holds_of_isApartFrom hapart hholds
  | none =>
    -- The character is no capital of the table and stays, so only the dotted I is left to exclude.
    rcases List.mem_cons.1 ht with rfl | ht
    · rw [Bool.eq_false_iff]
      intro hholds
      obtain ⟨hfirst, hlast, -⟩ := CaseRun.holds_iff.1 hholds
      exact hc (Char.toNat_inj.1 (Nat.le_antisymm hlast hfirst))
    · simpa using List.find?_eq_none.1 hfind t ht

/-! ## Texts -/

theorem lowerChar_of_isSettled {c : Char} (h : isSettled c = true) (before after : List Char) :
    lowerChar before c after = [c] := by
  have hsigma : c ≠ 'Σ' := ne_of_isSettled h (by decide +kernel)
  have hdotted : c ≠ 'İ' := ne_of_isSettled h (by decide +kernel)
  rw [lowerChar, if_neg hsigma, if_neg hdotted, smallLetter_of_isSettled h]

theorem settled_lowerChar (before after : List Char) (c : Char) :
    ∀ d ∈ lowerChar before c after, isSettled d = true := by
  have hsigmas : isSettled 'ς' = true ∧ isSettled 'σ' = true := by decide +kernel
  have hparts : isSettled 'i' = true ∧ isSettled '\u0307' = true := by decide +kernel
  intro d hd
  unfold lowerChar at hd
  split at hd
  · rw [List.mem_singleton.1 hd, smallSigma]
    split
    · exact hsigmas.1
    · exact hsigmas.2
  · split at hd
    · rcases List.mem_cons.1 hd with rfl | hd
      · exact hparts.1
      · rw [List.mem_singleton.1 hd]
        exact hparts.2
    · rename_i hdotted
      rw [List.mem_singleton.1 hd]
      exact isSettled_smallLetter hdotted

/-- Lower case writes settled characters only. -/
theorem settled_lowerAfter (before cs : List Char) :
    ∀ d ∈ lowerAfter before cs, isSettled d = true := by
  induction cs generalizing before with
  | nil => simp [lowerAfter]
  | cons c cs ih =>
    intro d hd
    rcases List.mem_append.1 hd with hd | hd
    · exact settled_lowerChar before cs c d hd
    · exact ih (c :: before) d hd

/-- Lower case leaves a text of settled characters as it is. -/
theorem lowerAfter_of_settled {cs : List Char} (h : ∀ c ∈ cs, isSettled c = true)
    (before : List Char) : lowerAfter before cs = cs := by
  induction cs generalizing before with
  | nil => rfl
  | cons c cs ih =>
    rw [lowerAfter, lowerChar_of_isSettled (h c List.mem_cons_self),
      ih (fun d hd => h d (List.mem_cons_of_mem c hd)), List.singleton_append]

/-- **Lower case is idempotent.** -/
@[simp] theorem lower_lower (s : String) : lower (lower s) = lower s := by
  have hsettled := lowerAfter_of_settled (settled_lowerAfter [] s.toList) []
  rw [lower, lower, String.toList_ofList, hsettled]

end FlowExpr.Text
