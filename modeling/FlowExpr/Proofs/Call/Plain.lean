import FlowExpr.Proofs.Analysis.Locality
import FlowExpr.Proofs.Text.Names
import Mathlib.Data.List.TakeWhile

/-!
# Calls with names for arguments

The simplest calls have the form `f(a, b, c)`, with a name for every argument.

**Theorem (`findAll_plainCall`).** A text that is such a call has this one call and no other, and
the arguments of the call are the names between the commas.

A reader behind the parenthesis remembers nothing over such a list: none of its characters opens
or closes anything, so every comma cuts (`Level.next_of_isPlain`). A second call would need a second
parenthesis.
-/

namespace FlowExpr

open Text

/-! ## Writing a call -/

/-- Names with commas and spaces between them. -/
def argumentList (args : List (List Char)) : List Char := [',', ' '].intercalate args

/-- A name and a list of arguments between parentheses. -/
def plainCall (name : List Char) (args : List (List Char)) : List Char :=
  callText name [] (argumentList args)

theorem argumentList_cons (a : List Char) {args : List (List Char)} (h : args ≠ []) :
    argumentList (a :: args) = a ++ ',' :: ' ' :: argumentList args := by
  rw [argumentList, List.intercalate_cons_of_ne_nil h, List.append_assoc]
  rfl

theorem argumentList_append (args : List (List Char)) (a : List Char) (h : args ≠ []) :
    argumentList (args ++ [a]) = argumentList args ++ ',' :: ' ' :: a := by
  induction args with
  | nil => exact absurd rfl h
  | cons b args ih =>
    rw [List.cons_append, argumentList_cons b (by simp)]
    by_cases hnil : args = []
    · subst hnil
      simp [argumentList]
    · rw [ih hnil, argumentList_cons b hnil]
      simp

theorem mem_argumentList {args : List (List Char)} {c : Char} (hc : c ∈ argumentList args) :
    c = ',' ∨ c = ' ' ∨ ∃ a ∈ args, c ∈ a := by
  induction args with
  | nil => cases hc
  | cons a args ih =>
    by_cases hnil : args = []
    · subst hnil
      rw [argumentList, List.intercalate_singleton] at hc
      exact .inr (.inr ⟨a, List.mem_cons_self, hc⟩)
    · rw [argumentList_cons a hnil, List.mem_append, List.mem_cons, List.mem_cons] at hc
      rcases hc with hc | hc | hc | hc
      · exact .inr (.inr ⟨a, List.mem_cons_self, hc⟩)
      · exact .inl hc
      · exact .inr (.inl hc)
      · rcases ih hc with hc | hc | ⟨b, hb, hc⟩
        · exact .inl hc
        · exact .inr (.inl hc)
        · exact .inr (.inr ⟨b, List.mem_cons_of_mem _ hb, hc⟩)

/-! ## Reading the arguments -/

/-- The characters that lists of names are written with. -/
def isPlain (c : Char) : Bool := isNameChar c || c = ',' || c = ' '

theorem ne_of_isPlain {c d : Char} (hc : isPlain c = true) (hd : isPlain d = false) : c ≠ d := by
  rintro rfl
  rw [hc] at hd
  exact Bool.noConfusion hd

theorem isPlain_of_mem_argumentList {args : List (List Char)}
    (h : ∀ a ∈ args, ∀ c ∈ a, isNameChar c = true) {c : Char} (hc : c ∈ argumentList args) :
    isPlain c = true := by
  rcases mem_argumentList hc with rfl | rfl | ⟨a, ha, hc⟩
  · decide
  · decide
  · simp [isPlain, h a ha c hc]

namespace Level

/-- Over a plain character a reader remembers nothing. -/
theorem next_of_isPlain {c : Char} (h : isPlain c = true) : ({} : Level).next c = {} := by
  have hne : ∀ d, isPlain d = false → c ≠ d := fun d hd => ne_of_isPlain h hd
  have hbracket : isBracket c = false := by
    simp [isBracket, hne '[' (by decide), hne ']' (by decide), hne '{' (by decide),
      hne '}' (by decide)]
  have hstruct : Quote.isStructural {} c = true :=
    Quote.isStructural_of_outside rfl (hne '\\' (by decide)) (hne '\'' (by decide))
  have hchange : Quote.parenChange {} c = 0 :=
    Quote.parenChange_of_ne (hne '(' (by decide)) (hne ')' (by decide))
  simp only [next, Quote.next_of_isStructural hstruct, hchange, hbracket, Bool.and_false]
  rfl

theorem after_of_isPlain {cs : List Char} (h : ∀ c ∈ cs, isPlain c = true) :
    ({} : Level).after cs = {} := by
  induction cs with
  | nil => rfl
  | cons c cs ih =>
    rw [after_cons, next_of_isPlain (h c List.mem_cons_self)]
    exact ih fun d hd => h d (List.mem_cons_of_mem _ hd)

theorem enclosed_of_isPlain {cs : List Char} (h : ∀ c ∈ cs, isPlain c = true) : Enclosed cs := by
  refine ⟨?_, by rw [after_of_isPlain h]; rfl⟩
  intro u c v hu
  refine Bool.eq_false_iff.2 fun hcloses => ?_
  obtain ⟨-, rfl, -⟩ := closes_iff.1 hcloses
  exact ne_of_isPlain (h ')' (by rw [hu]; simp)) (by decide) rfl

/-- A name holds no comma. -/
theorem uncut_of_isNameChar {l : Level} {cs : List Char} (h : ∀ c ∈ cs, isNameChar c = true) :
    Uncut next cuts l cs := by
  intro u c v hu
  refine Bool.eq_false_iff.2 fun hcut => ?_
  obtain rfl := cuts_eq_comma _ _ hcut
  exact ne_of_isNameChar (h ',' (by rw [hu]; simp)) (by decide) rfl

/-- A list of names is cut at its commas, in front of the spaces. -/
theorem pieces_argumentList (a : List Char) (args : List (List Char))
    (h : ∀ b ∈ a :: args, ∀ c ∈ b, isNameChar c = true) :
    Level.pieces {} (argumentList (a :: args)) = a :: args.map (' ' :: ·) := by
  induction args generalizing a with
  | nil =>
    have ha : ∀ c ∈ a, isNameChar c = true := h a List.mem_cons_self
    rw [argumentList, List.intercalate_singleton, Level.pieces, ← List.append_nil a,
      pieces_append_uncut next cuts (uncut_of_isNameChar ha)]
    rfl
  | cons b args ih =>
    have ha : ∀ c ∈ a, isNameChar c = true := h a List.mem_cons_self
    have hafter : a.foldl next {} = ({} : Level) :=
      after_of_isPlain fun c hc => by simp [isPlain, ha c hc]
    have hcomma : cuts {} ',' = true := by decide
    have hspace : cuts {} ' ' = false := by decide
    have hrest := ih b fun d hd => h d (List.mem_cons_of_mem _ hd)
    rw [Level.pieces] at hrest
    rw [argumentList_cons a (by simp), Level.pieces,
      pieces_append_uncut next cuts (uncut_of_isNameChar ha), hafter,
      pieces_cons_cut next cuts hcomma, next_of_isPlain (by decide),
      pieces_cons_uncut next cuts hspace, next_of_isPlain (by decide), hrest]
    simp

end Level

/-- Blanks in front of a name are trimmed off. -/
theorem Text.trim_append_of_isName {x a : List Char} (hx : isAllBlank x = true)
    (ha : isName a = true) : trim (x ++ a) = a := by
  obtain ⟨hne, hchars, -⟩ := isName_iff.1 ha
  obtain ⟨c, m, hcons⟩ := List.exists_cons_of_ne_nil hne
  obtain ⟨m', d, hconcat⟩ : ∃ m' d, a = m' ++ [d] :=
    ⟨a.dropLast, a.getLast hne, (List.dropLast_append_getLast hne).symm⟩
  have hc : isBlank c = false := isBlank_of_isNameChar (hchars c (by rw [hcons]; simp))
  have hd : isBlank d = false := isBlank_of_isNameChar (hchars d (by rw [hconcat]; simp))
  have hstart : trimStart x = [] := List.dropWhile_eq_nil_iff.2 (List.all_eq_true.1 hx)
  have htrim := (trim_append_of_ends hc hd hcons hconcat x []).2
  rw [hstart, List.append_nil] at htrim
  rw [htrim]
  simp [trimEnd]

/-! ## The one call of the text -/

section

variable {name : List Char} {args : List (List Char)}

theorem writtenCall_plainCall (hname : isName name = true) (hargs : ∀ a ∈ args, isName a = true) :
    WrittenCall (plainCall name args) [] name [] (argumentList args) [] := by
  obtain ⟨hne, hchars, hdigit⟩ := isName_iff.1 hname
  have hplain : ∀ c ∈ argumentList args, isPlain c = true := fun c hc =>
    isPlain_of_mem_argumentList (fun a ha => (isName_iff.1 (hargs a ha)).2.1) hc
  exact {
    source_eq := by rw [plainCall, callText, List.nil_append, List.nil_append]
    outside := rfl
    boundary := rfl
    digit_free := hdigit
    name_ne_nil := hne
    name_chars := hchars
    blank_chars := fun c hc => absurd hc List.not_mem_nil
    enclosed := Level.enclosed_of_isPlain hplain }

/-- The texts of the arguments are the names. -/
theorem texts_plainCall (hargs : ∀ a ∈ args, isName a = true) :
    (CallSite.ofParts [] name [] (argumentList args)).arguments.map (·.text) =
      args.map String.ofList := by
  cases args with
  | nil => rfl
  | cons a args =>
    have ha : isName a = true := hargs a List.mem_cons_self
    obtain ⟨hne, hchars, -⟩ := isName_iff.1 ha
    have hblank : ¬ isAllBlank (argumentList (a :: args)) = true := by
      obtain ⟨c, t, hcons⟩ := List.exists_cons_of_ne_nil hne
      have hc : c ∈ argumentList (a :: args) := by
        rw [argumentList, hcons]
        cases args <;> simp
      intro hall
      have hcblank := List.all_eq_true.1 hall c hc
      rw [isBlank_of_isNameChar (hchars c (by rw [hcons]; simp))] at hcblank
      exact Bool.noConfusion hcblank
    have htrimHead : trim a = a := trim_append_of_isName (x := []) rfl ha
    have htrim : ∀ b ∈ args, trim (' ' :: b) = b := fun b hb =>
      trim_append_of_isName (x := [' ']) (by decide) (hargs b (List.mem_cons_of_mem _ hb))
    rw [CallSite.ofParts, if_neg hblank, Argument.map_text_ofPieces,
      Level.pieces_argumentList a args fun b hb => (isName_iff.1 (hargs b hb)).2.1,
      List.map_cons, List.map_cons, List.map_map, htrimHead]
    congr 1
    exact List.map_congr_left fun b hb => congrArg String.ofList (htrim b hb)

/-- **A plain call is one call.** It has the name in front and the names between its commas. -/
theorem findAll_plainCall (hname : isName name = true) (hargs : ∀ a ∈ args, isName a = true) :
    ∃ c, CallSite.findAll (String.ofList (plainCall name args)) = [c] ∧
      c.name = String.ofList name ∧ c.arguments.map (·.text) = args.map String.ofList := by
  have hw := writtenCall_plainCall hname hargs
  rw [← String.toList_ofList (l := plainCall name args)] at hw
  have hmem := CallSite.mem_findAll_iff.2 ⟨_, _, _, _, _, hw, rfl⟩
  refine ⟨CallSite.ofParts [] name [] (argumentList args), ?_, rfl, texts_plainCall hargs⟩
  refine CallSite.eq_of_mem_iff_of_sorted (CallSite.findAll_sorted _)
    (List.pairwise_singleton _ _) fun d => ?_
  rw [List.mem_singleton]
  refine ⟨fun hd => ?_, fun hd => hd ▸ hmem⟩
  obtain ⟨before, name', blanks, body, rest, hw', rfl⟩ := CallSite.mem_findAll_iff.1 hd
  rcases Nat.eq_zero_or_pos (byteLength before) with hzero | hpos
  · exact CallSite.eq_of_start_eq hd hmem hzero
  · -- A later call would have its parenthesis among the arguments.
    obtain ⟨u, -, htail⟩ := hw.exists_front_append hw' hpos
    have hopen : '(' ∈ argumentList args ++ [')'] := by
      rw [htail, callText]
      simp
    rcases List.mem_append.1 hopen with hopen | hopen
    · have hplain := isPlain_of_mem_argumentList
        (fun a ha => (isName_iff.1 (hargs a ha)).2.1) hopen
      exact absurd hplain (by decide)
    · exact absurd hopen (by decide)

end

end FlowExpr
