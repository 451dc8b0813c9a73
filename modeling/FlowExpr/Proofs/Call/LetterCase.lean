import FlowExpr.Call.Find
import FlowExpr.Proofs.Text.Bytes
import FlowExpr.Proofs.Text.Case

/-!
# Calls and the case of letters

`smallText` writes the ASCII letters of a text small and leaves everything else alone. No reader of
calls can tell the difference: whether a character is blank, a name character or a digit, how many
bytes it has, and whether it is one of the characters that shape a call, is the same for a capital
and its small letter (`toLower_invariant`).

So the pass finds the same shapes in the small text (`findAll_smallText`), and what is read there of
a shape is what was read before, written small (`resolve_smallText`).
-/

namespace FlowExpr

namespace Text

/-! ## Characters -/

theorem isUpper_iff {c : Char} : c.isUpper = true ↔ 65 ≤ c.toNat ∧ c.toNat ≤ 90 := by
  delta Char.isUpper
  simp only [decide_eq_true_eq, UInt32.le_iff_toNat_le]
  exact Iff.rfl

/-- What holds of the 26 capitals holds of every capital. -/
theorem forall_isUpper {P : Char → Prop} (h : ∀ n < 26, P (Char.ofNat (65 + n))) {c : Char}
    (hc : c.isUpper = true) : P c := by
  obtain ⟨hlow, hhigh⟩ := isUpper_iff.1 hc
  have hletter := h (c.toNat - 65) (by omega)
  rwa [Nat.add_sub_cancel' hlow, Char.ofNat_toNat] at hletter

theorem toLower_of_not_isUpper {c : Char} (hc : ¬ c.isUpper = true) : c.toLower = c := by
  delta Char.isUpper at hc
  simp only [decide_eq_true_eq] at hc
  exact dif_neg hc

theorem toLower_of_wide {c : Char} (hc : 128 ≤ c.toNat) : c.toLower = c := by
  refine toLower_of_not_isUpper fun hupper => ?_
  have hhigh := (isUpper_iff.1 hupper).2
  omega

/-- What is the same for the 26 capitals as for their small letters takes no notice of case. -/
theorem toLower_invariant {α : Type} (f : Char → α)
    (h : ∀ n < 26, f (Char.ofNat (65 + n)).toLower = f (Char.ofNat (65 + n))) (c : Char) :
    f c.toLower = f c := by
  by_cases hc : c.isUpper = true
  · exact forall_isUpper (P := fun c => f c.toLower = f c) h hc
  · rw [toLower_of_not_isUpper hc]

@[simp] theorem utf8Size_toLower (c : Char) : c.toLower.utf8Size = c.utf8Size :=
  toLower_invariant Char.utf8Size (by decide) c

@[simp] theorem isBlank_toLower (c : Char) : isBlank c.toLower = isBlank c :=
  toLower_invariant isBlank (by decide) c

@[simp] theorem isAsciiBlank_toLower (c : Char) : isAsciiBlank c.toLower = isAsciiBlank c :=
  toLower_invariant isAsciiBlank (by decide) c

@[simp] theorem isNameChar_toLower (c : Char) : isNameChar c.toLower = isNameChar c :=
  toLower_invariant isNameChar (by decide) c

@[simp] theorem isDigit_toLower (c : Char) : c.toLower.isDigit = c.isDigit :=
  toLower_invariant Char.isDigit (by decide) c

theorem isAlpha_toLower (c : Char) : c.toLower.isAlpha = c.isAlpha :=
  toLower_invariant Char.isAlpha (by decide) c

/-- Only letters have a case. -/
theorem toLower_eq_iff {c d : Char} (hd : d.isAlpha = false) : c.toLower = d ↔ c = d := by
  by_cases hc : c.isUpper = true
  · have halpha : c.isAlpha = true := by
      show (c.isUpper || c.isLower) = true
      rw [hc, Bool.true_or]
    refine iff_of_false ?_ ?_
    · rintro rfl
      rw [isAlpha_toLower, halpha] at hd
      exact Bool.noConfusion hd
    · rintro rfl
      rw [halpha] at hd
      exact Bool.noConfusion hd
  · rw [toLower_of_not_isUpper hc]

/-! ## Texts -/

/-- A text with its ASCII letters written small. -/
def smallText (cs : List Char) : List Char := cs.map Char.toLower

@[simp] theorem byteLength_smallText (cs : List Char) :
    byteLength (smallText cs) = byteLength cs := by
  induction cs with
  | nil => rfl
  | cons c cs ih =>
    show c.toLower.utf8Size + byteLength (smallText cs) = _
    rw [utf8Size_toLower, ih]
    rfl

theorem splitAt?_smallText (cs : List Char) (n : Nat) :
    splitAt? (smallText cs) n = (splitAt? cs n).map (Prod.map smallText smallText) := by
  fun_induction splitAt? cs n with
  | case1 cs => simp [Prod.map, smallText]
  | case2 n => rfl
  | case3 c cs n hc ih =>
    show splitAt? (c.toLower :: smallText cs) (n + 1) = _
    rw [splitAt?, utf8Size_toLower, if_pos hc, ih, Option.map_map, Option.map_map]
    rfl
  | case4 c cs n hc =>
    show splitAt? (c.toLower :: smallText cs) (n + 1) = _
    rw [splitAt?, utf8Size_toLower, if_neg hc, Option.map_none]

theorem slice_smallText (cs : List Char) (span : Span) :
    slice (smallText cs) span = smallText (slice cs span) := by
  unfold slice slice?
  split
  · rw [dropBytes?_eq_splitAt?, dropBytes?_eq_splitAt?, splitAt?_smallText]
    cases splitAt? cs span.start with
    | none => rfl
    | some p =>
      show ((splitAt? (smallText p.2) _).map Prod.fst).getD [] = _
      rw [splitAt?_smallText]
      show _ = smallText (((splitAt? p.2 _).map Prod.fst).getD [])
      cases splitAt? p.2 (span.stop - span.start) <;> rfl
  · rfl

theorem isAllBlank_smallText (cs : List Char) : isAllBlank (smallText cs) = isAllBlank cs := by
  rw [isAllBlank, smallText, List.all_map]
  congr 1
  funext c
  exact isBlank_toLower c

theorem trimStart_smallText (cs : List Char) :
    trimStart (smallText cs) = smallText (trimStart cs) := by
  rw [trimStart, smallText, List.dropWhile_map]
  congr 2
  funext c
  exact isBlank_toLower c

theorem trimEnd_smallText (cs : List Char) : trimEnd (smallText cs) = smallText (trimEnd cs) := by
  have h := trimStart_smallText cs.reverse
  unfold trimStart smallText at h
  rw [trimEnd, smallText, ← List.map_reverse, h, ← List.map_reverse]
  rfl

theorem trim_smallText (cs : List Char) : trim (smallText cs) = smallText (trim cs) := by
  rw [trim, trimStart_smallText, trimEnd_smallText, trim]

/-- Characters that are no letters stay, and none of them is new. -/
theorem mem_smallText {d : Char} (hd : d.isAlpha = false) {cs : List Char} :
    d ∈ smallText cs ↔ d ∈ cs := by
  rw [smallText, List.mem_map]
  simp only [toLower_eq_iff hd, exists_eq_right]

/-- A letter is a byte of its own, and no byte of another character is a letter. -/
theorem charBytes_toLower (c : Char) : charBytes c.toLower = smallText (charBytes c) := by
  by_cases hupper : c.isUpper = true
  · exact forall_isUpper (P := fun c => charBytes c.toLower = smallText (charBytes c)) (by decide)
      hupper
  rw [toLower_of_not_isUpper hupper]
  by_cases hc : c.toNat < 128
  · rw [charBytes_of_ascii hc, smallText, List.map_singleton, toLower_of_not_isUpper hupper]
  · refine ((List.map_congr_left fun b hb => ?_).trans (List.map_id _)).symm
    exact toLower_of_wide (le_toNat_of_mem_charBytes (Nat.le_of_not_lt hc) hb)

theorem encode_smallText (cs : List Char) : encode (smallText cs) = smallText (encode cs) := by
  induction cs with
  | nil => rfl
  | cons c cs ih =>
    show charBytes c.toLower ++ encode (smallText cs) = smallText (charBytes c ++ encode cs)
    rw [charBytes_toLower, ih, smallText, smallText, smallText, List.map_append]

/-- A text is known from its small bytes up to the case of letters. -/
theorem smallText_eq_of_encode {cs ds : List Char}
    (h : smallText (encode cs) = smallText (encode ds)) : smallText cs = smallText ds := by
  apply encode_injective
  rw [encode_smallText, encode_smallText, h]

/-! ## Names -/

/-- The first run of capitals is that of ASCII, and the others lie beyond it. -/
theorem capitals_ascii :
    capitals.all (fun r => (r.first == 65 && r.last == 90) || Nat.ble 128 r.first) = true := by
  decide +kernel

theorem smallLetter_of_ascii {c : Char} (hc : c.toNat < 128) : smallLetter c = c.toLower := by
  by_cases hupper : c.isUpper = true
  · exact forall_isUpper (P := fun c => smallLetter c = c.toLower) (by decide +kernel) hupper
  rw [toLower_of_not_isUpper hupper]
  refine smallLetter_of_isSettled (isSettled_iff.2 fun r hr => ?_)
  rw [Bool.eq_false_iff]
  intro hholds
  obtain ⟨hfirst, hlast, -⟩ := CaseRun.holds_iff.1 hholds
  have hrun := List.all_eq_true.1 capitals_ascii r hr
  simp only [Bool.or_eq_true, Bool.and_eq_true, beq_iff_eq, Nat.ble_eq] at hrun
  rcases hrun with ⟨hlow, hhigh⟩ | hwide
  · exact hupper (isUpper_iff.2 ⟨hlow ▸ hfirst, hhigh ▸ hlast⟩)
  · omega

/-- In ASCII the lower case of a text is the small text. -/
theorem lowerAfter_of_ascii {cs : List Char} (h : ∀ c ∈ cs, c.toNat < 128) (before : List Char) :
    lowerAfter before cs = smallText cs := by
  induction cs generalizing before with
  | nil => rfl
  | cons c cs ih =>
    have hc := h c List.mem_cons_self
    have hne : ∀ d : Char, 128 ≤ d.toNat → c ≠ d := fun d hd => Ne.symm (ne_of_wide hd hc)
    rw [lowerAfter, lowerChar, if_neg (hne 'Σ' (by decide)), if_neg (hne 'İ' (by decide)),
      smallLetter_of_ascii hc, ih fun d hd => h d (List.mem_cons_of_mem _ hd)]
    rfl

end Text

open Text

/-! ## The pass -/

theorem Quote.next_toLower (q : Quote) (c : Char) : q.next c.toLower = q.next c := by
  simp only [next, toLower_eq_iff (show '\\'.isAlpha = false from rfl),
    toLower_eq_iff (show '\''.isAlpha = false from rfl)]

theorem Quote.isStructural_toLower (q : Quote) (c : Char) :
    q.isStructural c.toLower = q.isStructural c := by
  rw [isStructural, isStructural, Bool.eq_iff_iff]
  simp only [Bool.and_eq_true, bne_iff_ne, ne_eq,
    toLower_eq_iff (show '\\'.isAlpha = false from rfl),
    toLower_eq_iff (show '\''.isAlpha = false from rfl)]

theorem Depth.track_toLower (n : Depth) (c : Char) : n.track c.toLower = n.track c := by
  have hne : ∀ d : Char, d.isAlpha = false → (c.toLower = d ↔ c = d) :=
    fun d hd => toLower_eq_iff hd
  simp only [track, hne '(' rfl, hne ')' rfl, hne '[' rfl, hne ']' rfl, hne '{' rfl, hne '}' rfl]

namespace CallFinder

theorem act_toLower (s : CallFinder) (c : Char) : s.act c.toLower = s.act c := by
  have hne : ∀ d : Char, d.isAlpha = false → (c.toLower = d ↔ c = d) :=
    fun d hd => toLower_eq_iff hd
  simp only [act, Depth.track_toLower, hne '(' rfl, hne ')' rfl, hne ',' rfl, hne '[' rfl,
    hne ']' rfl, hne '{' rfl, hne '}' rfl]

theorem nextLead_toLower (s : CallFinder) (c : Char) : s.nextLead c.toLower = s.nextLead c := by
  simp only [nextLead, Lead.afterNameChar, Quote.isStructural_toLower, isNameChar_toLower,
    isAsciiBlank_toLower, isDigit_toLower]

/-- Nothing that the pass looks at has a case. -/
theorem step_toLower (s : CallFinder) (c : Char) : s.step c.toLower = s.step c := by
  simp only [step, Quote.isStructural_toLower, act_toLower, Quote.next_toLower, nextLead_toLower,
    utf8Size_toLower]

end CallFinder

/-- The pass finds the same calls in the small text. -/
theorem CallShape.findAll_smallText (source : List Char) :
    findAll (smallText source) = findAll source := by
  rw [findAll, findAll, smallText, List.foldl_map]
  congr 2
  funext s c
  exact CallFinder.step_toLower s c

/-! ## What is read of a call -/

/-- The argument with its text written small. -/
def Argument.small (a : Argument) : Argument :=
  { a with text := String.ofList (smallText a.text.toList) }

/-- The call with its name and arguments written small. -/
def CallSite.small (c : CallSite) : CallSite :=
  { c with
    name := String.ofList (smallText c.name.toList)
    arguments := c.arguments.map Argument.small }

theorem Argument.ofSegment_smallText (source : List Char) (raw : Span) :
    ofSegment (smallText source) raw = (ofSegment source raw).small := by
  simp only [ofSegment, small, slice_smallText, trimStart_smallText, trim_smallText,
    byteLength_smallText, String.toList_ofList]

theorem CallShape.resolve_smallText (source : List Char) (shape : CallShape) :
    shape.resolve (smallText source) = (shape.resolve source).small := by
  simp only [resolve, CallSite.small, slice_smallText, isAllBlank_smallText,
    String.toList_ofList]
  split
  · rfl
  · rw [List.map_map, show Argument.ofSegment (smallText source) =
      Argument.small ∘ Argument.ofSegment source from
        funext fun raw => Argument.ofSegment_smallText source raw]

end FlowExpr
