import FlowExpr.Proofs.Analysis.Reported
import FlowExpr.Proofs.Analysis.StringContents
import FlowExpr.Proofs.Call.Plain
import FlowExpr.Proofs.Function.LastDefinition

/-!
# Completion inserts calls without problems

What completion inserts is a snippet: a text with numbered placeholders such as `${1:param1}`, each
with a text that stands there until it is typed over, and with `$0` where the cursor ends up.
`Snippet.fill` reads a snippet the way an editor does that leaves the placeholders as they are.

**Theorem (`analyze_fill_snippet`).** Take the snippet of any function of a table. If it is closed,
nothing more is typed; if it is left open, one more argument and the parenthesis are. The result is
one call of the function, and nothing is reported about it.

The text that comes out is a plain call (`fill_snippet`), with a name for each required argument and
one more if the snippet was left open. These are as many arguments as the function takes: a closed
snippet is that of a function that takes no more than the required ones. A name is no literal, so
there are no types to complain about.
-/

namespace FlowExpr

open Text

/-! ## Names are no literals -/

namespace Literal

variable {cs : List Char}

theorem not_isDigits_of_isName (h : isName cs = true) : isDigits cs = false := by
  cases cs with
  | nil => rfl
  | cons c cs =>
    have hdigit := (isName_iff.1 h).2.2 c cs rfl
    simp [isDigits, hdigit]

theorem not_isDecimal_of_isName (h : isName cs = true) : isDecimal cs = false := by
  have hpoint : cs.dropWhile (fun c => decide (c ≠ '.')) = [] := by
    rw [List.dropWhile_eq_nil_iff]
    intro c hc
    simpa using ne_of_isNameChar ((isName_iff.1 h).2.1 c hc) (by decide)
  unfold isDecimal
  rw [hpoint]

/-- The only names that are literals are three words. -/
theorem ofText?_of_isName (h : isName cs = true) (htrue : cs ≠ "true".toList)
    (hfalse : cs ≠ "false".toList) (hnull : cs ≠ "null".toList) :
    ofText? (String.ofList cs) = none := by
  have hword : ∀ w : String, cs ≠ w.toList → String.ofList cs ≠ w := by
    intro w hw heq
    rw [← heq, String.toList_ofList] at hw
    exact hw rfl
  obtain ⟨hne, hchars, -⟩ := isName_iff.1 h
  have hquoted : isQuoted cs = false := by
    refine Bool.eq_false_iff.2 fun hquoted => ?_
    obtain ⟨m, hm⟩ := isQuoted_iff.1 hquoted
    exact ne_of_isNameChar (hchars '\'' (by rw [hm]; simp)) (by decide) rfl
  have hsign : withoutSign cs = cs := by
    unfold withoutSign
    split
    · exact absurd (hchars '-' List.mem_cons_self) (by decide)
    · rfl
  simp only [ofText?, String.toList_ofList, hquoted, hsign, not_isDigits_of_isName h,
    not_isDecimal_of_isName h, hword _ htrue, hword _ hfalse, hword _ hnull]
  rfl

end Literal

/-! ## Calls without problems -/

/-- A call of a known function with a right number of arguments and no literals. -/
theorem CallSite.diagnose_eq_nil {r : Registry} {c : CallSite} {s : Signature}
    (hfind : r.find? c.name = some s) (hmin : s.min ≤ c.arguments.length)
    (hmax : ∀ max, s.max = some max → c.arguments.length ≤ max)
    (hliteral : ∀ a ∈ c.arguments, Literal.ofText? a.text = none) (k : Checks) :
    c.diagnose r k = [] := by
  have harity : c.arityProblem? s = none := by
    simp only [arityProblem?, Nat.not_lt.2 hmin, if_false]
    cases hs : s.max with
    | none => rfl
    | some max => simp [Nat.not_lt.2 (hmax max hs)]
  rw [List.eq_nil_iff_forall_not_mem]
  intro d hd
  rcases mem_diagnose_iff.1 hd with
    ⟨hnone, -⟩ | ⟨s', hs', ⟨-, p, hp, -⟩ | ⟨-, a, index, ha, hd⟩⟩
  · rw [hfind] at hnone
    cases hnone
  · obtain rfl : s = s' := Option.some.inj (hfind.symm.trans hs')
    rw [harity] at hp
    cases hp
  · obtain ⟨-, -, l, hl⟩ := of_argumentDiagnostic? hd
    rw [hliteral a (List.mem_of_getElem? ha)] at hl
    cases hl

/-! ## Snippets -/

namespace Snippet

/-- Where a reader of a snippet stands. -/
inductive Place where
  /-- In text that is inserted as it is. -/
  | text
  /-- Behind a dollar sign. -/
  | dollar
  /-- In the number of a placeholder. -/
  | number
  /-- In the text of a placeholder. -/
  | placeholder

/-- The text of a snippet from a place on. Placeholders keep their texts, and at `$0` stands what is
typed there. -/
def fillFrom (typed : List Char) : Place → List Char → List Char
  | _, [] => []
  | .text, c :: cs =>
    if c = '$' then fillFrom typed .dollar cs else c :: fillFrom typed .text cs
  | .dollar, c :: cs =>
    if c = '{' then fillFrom typed .number cs
    else if c = '0' then typed ++ fillFrom typed .text cs
    else '$' :: c :: fillFrom typed .text cs
  | .number, c :: cs => fillFrom typed (if c = ':' then .placeholder else .number) cs
  | .placeholder, c :: cs =>
    if c = '}' then fillFrom typed .text cs else c :: fillFrom typed .placeholder cs

/-- The text of a snippet with something typed at its end. -/
def fill (snippet typed : String) : String :=
  String.ofList (fillFrom typed.toList .text snippet.toList)

/-- Whether the call of a snippet is closed. -/
def isClosed (snippet : String) : Bool := snippet.toList.contains ')'

variable (typed : List Char)

theorem fillFrom_text_append {a : List Char} (h : ∀ c ∈ a, c ≠ '$') (b : List Char) :
    fillFrom typed .text (a ++ b) = a ++ fillFrom typed .text b := by
  induction a with
  | nil => rfl
  | cons c a ih =>
    rw [List.cons_append, fillFrom, if_neg (h c List.mem_cons_self),
      ih fun d hd => h d (List.mem_cons_of_mem _ hd)]
    rfl

theorem fillFrom_number_append {a : List Char} (h : ∀ c ∈ a, c ≠ ':') (b : List Char) :
    fillFrom typed .number (a ++ ':' :: b) = fillFrom typed .placeholder b := by
  induction a with
  | nil => rfl
  | cons c a ih =>
    rw [List.cons_append, fillFrom, if_neg (h c List.mem_cons_self)]
    exact ih fun d hd => h d (List.mem_cons_of_mem _ hd)

theorem fillFrom_placeholder_append {a : List Char} (h : ∀ c ∈ a, c ≠ '}') (b : List Char) :
    fillFrom typed .placeholder (a ++ '}' :: b) = a ++ fillFrom typed .text b := by
  induction a with
  | nil => rfl
  | cons c a ih =>
    rw [List.cons_append, fillFrom, if_neg (h c List.mem_cons_self),
      ih fun d hd => h d (List.mem_cons_of_mem _ hd)]
    rfl

end Snippet

/-! ## The snippet of a function -/

namespace Signature

open Snippet

/-- The text of the `i`th placeholder, counted from one. -/
def paramName (i : Nat) : List Char := ['p', 'a', 'r', 'a', 'm'] ++ Nat.toDigits 10 i

theorem isNameChar_of_mem_toDigits {i : Nat} {c : Char} (h : c ∈ Nat.toDigits 10 i) :
    isNameChar c = true := by
  have hdigit := Nat.isDigit_of_mem_toDigits (by decide) (by decide) h
  simp [isNameChar, Char.isAlphanum, hdigit]

theorem isName_paramName (i : Nat) : isName (paramName i) = true := by
  have hparam : ∀ c ∈ ['p', 'a', 'r', 'a', 'm'], isNameChar c = true :=
    List.all_eq_true.1 (by decide)
  refine isName_iff.2 ⟨by simp [paramName], ?_, ?_⟩
  · intro c hc
    rcases List.mem_append.1 hc with hc | hc
    · exact hparam c hc
    · exact isNameChar_of_mem_toDigits hc
  · intro c t hc
    obtain ⟨rfl, -⟩ := List.cons.inj hc
    decide

theorem ofText?_paramName (i : Nat) : Literal.ofText? (String.ofList (paramName i)) = none := by
  have hne : ∀ w : List Char, w.head? ≠ some 'p' → paramName i ≠ w := by
    rintro w hw rfl
    exact hw rfl
  exact Literal.ofText?_of_isName (isName_paramName i) (hne _ (by decide)) (hne _ (by decide))
    (hne _ (by decide))

theorem toList_placeholder (i : Nat) :
    (placeholder i).toList =
      '$' :: '{' :: (Nat.toDigits 10 i ++ ':' :: (paramName i ++ ['}'])) := by
  simp [placeholder, paramName]

/-- A placeholder that is left as it is gives its text. -/
theorem fillFrom_placeholder (typed : List Char) (i : Nat) (b : List Char) :
    fillFrom typed .text ((placeholder i).toList ++ b) = paramName i ++ fillFrom typed .text b := by
  have hnumber : ∀ c ∈ Nat.toDigits 10 i, c ≠ ':' := fun c hc =>
    ne_of_isNameChar (isNameChar_of_mem_toDigits hc) (by decide)
  have hname : ∀ c ∈ paramName i, c ≠ '}' := fun c hc =>
    ne_of_isNameChar ((isName_iff.1 (isName_paramName i)).2.1 c hc) (by decide)
  calc fillFrom typed .text ((placeholder i).toList ++ b)
      = fillFrom typed .number (Nat.toDigits 10 i ++ ':' :: (paramName i ++ '}' :: b)) := by
        rw [toList_placeholder]
        simp [fillFrom]
    _ = paramName i ++ fillFrom typed .text b := by
        rw [fillFrom_number_append typed hnumber, fillFrom_placeholder_append typed hname]

theorem fillFrom_placeholders (typed : List Char) (is : List Nat) (b : List Char) :
    fillFrom typed .text (argumentList (is.map fun i => (placeholder i).toList) ++ b) =
      argumentList (is.map paramName) ++ fillFrom typed .text b := by
  induction is with
  | nil => rfl
  | cons i is ih =>
    by_cases hnil : is = []
    · subst hnil
      simp only [List.map_cons, List.map_nil, argumentList, List.intercalate_singleton]
      exact fillFrom_placeholder typed i b
    · have hmap : ∀ f : Nat → List Char, is.map f ≠ [] := fun f h => hnil (List.map_eq_nil_iff.1 h)
      have hcomma : ∀ t, fillFrom typed .text (',' :: ' ' :: t) =
          ',' :: ' ' :: fillFrom typed .text t := fun t => rfl
      rw [List.map_cons, List.map_cons, argumentList_cons _ (hmap _), argumentList_cons _ (hmap _),
        List.append_assoc, fillFrom_placeholder, List.cons_append, List.cons_append, hcomma, ih]
      simp

/-- The numbers of the placeholders in the snippet of a function. -/
def paramNumbers (s : Signature) : List Nat := (List.range s.min).map (· + 1)

theorem length_paramNumbers (s : Signature) : s.paramNumbers.length = s.min := by
  simp [paramNumbers]

/-- The arguments of the call that a snippet becomes: the texts of its placeholders, and what is
typed if it was left open. -/
def filledArgs (s : Signature) (x : String) : List (List Char) :=
  s.paramNumbers.map paramName ++ if isClosed s.snippet then [] else [x.toList]

theorem length_filledArgs (s : Signature) (x : String) :
    (s.filledArgs x).length = if isClosed s.snippet then s.min else s.min + 1 := by
  rw [filledArgs, List.length_append, List.length_map, length_paramNumbers]
  split <;> rfl

theorem mem_filledArgs {s : Signature} {x : String} {a : List Char} (h : a ∈ s.filledArgs x) :
    (∃ i, a = paramName i) ∨ a = x.toList := by
  rcases List.mem_append.1 h with h | h
  · obtain ⟨i, -, rfl⟩ := List.mem_map.1 h
    exact .inl ⟨i, rfl⟩
  · split at h
    · cases h
    · exact .inr (List.mem_singleton.1 h)

theorem toList_snippet (s : Signature) :
    s.snippet.toList = s.name.toList ++ '(' ::
      (argumentList (s.paramNumbers.map fun i => (placeholder i).toList) ++
        s.snippetTail.toList) := by
  have hplaceholders : String.toList ∘ (fun i => placeholder (i + 1)) =
      (fun i => (placeholder i).toList) ∘ (· + 1) := rfl
  simp [snippet, paramNumbers, argumentList, String.toList_intercalate, hplaceholders]

section

variable {s : Signature} (hname : isName s.name.toList = true)
include hname

/-- A snippet is closed unless more arguments may follow. -/
theorem isClosed_snippet : isClosed s.snippet = !s.allowsMore := by
  have hinName : ')' ∉ s.name.toList := fun h =>
    ne_of_isNameChar ((isName_iff.1 hname).2.1 _ h) (by decide) rfl
  have hinPlaceholder : ∀ i, ')' ∉ (placeholder i).toList := by
    intro i h
    have hname' : ')' ∉ paramName i := fun h =>
      ne_of_isNameChar ((isName_iff.1 (isName_paramName i)).2.1 _ h) (by decide) rfl
    have hnumber : ')' ∉ Nat.toDigits 10 i := fun h =>
      ne_of_isNameChar (isNameChar_of_mem_toDigits h) (by decide) rfl
    simp [toList_placeholder, hname', hnumber] at h
  have hinList : ')' ∉ argumentList (s.paramNumbers.map fun i => (placeholder i).toList) := by
    intro h
    rcases mem_argumentList h with h | h | ⟨a, ha, h⟩
    · exact absurd h (by decide)
    · exact absurd h (by decide)
    · obtain ⟨i, -, rfl⟩ := List.mem_map.1 ha
      exact hinPlaceholder i h
  have htail : isClosed s.snippet = s.snippetTail.toList.contains ')' := by
    simp [isClosed, toList_snippet, hinName, hinList]
  rw [htail, snippetTail]
  cases s.allowsMore with
  | false => simp
  | true => by_cases hmin : 0 < s.min <;> simp [hmin]

/-- What a snippet becomes is a plain call of the function. -/
theorem fill_snippet (x : String) :
    fill s.snippet (if isClosed s.snippet then "" else x ++ ")") =
      String.ofList (plainCall s.name.toList (s.filledArgs x)) := by
  have hdollar : ∀ c ∈ s.name.toList, c ≠ '$' := fun c hc =>
    ne_of_isNameChar ((isName_iff.1 hname).2.1 c hc) (by decide)
  have hparen : ∀ typed t, fillFrom typed .text ('(' :: t) = '(' :: fillFrom typed .text t :=
    fun _ _ => rfl
  rw [fill, toList_snippet, fillFrom_text_append _ hdollar, hparen, fillFrom_placeholders,
    filledArgs, isClosed_snippet hname, plainCall, callText, List.nil_append, snippetTail]
  cases s.allowsMore with
  | false => simp [fillFrom]
  | true =>
    by_cases hmin : 0 < s.min
    · have hsome : s.paramNumbers.map paramName ≠ [] := by
        rw [← List.length_pos_iff, List.length_map, length_paramNumbers]
        exact hmin
      simp [hmin, fillFrom, argumentList_append _ _ hsome]
    · have hnone : s.paramNumbers = [] := by
        rw [← List.length_eq_zero_iff, length_paramNumbers]
        omega
      simp [hmin, hnone, fillFrom, argumentList]

/-- A function that can be called takes the arguments of its snippet. -/
theorem length_filledArgs_le (hmax : ∀ max, s.max = some max → s.min ≤ max) (x : String)
    {max : Nat} (hs : s.max = some max) : (s.filledArgs x).length ≤ max := by
  have hle := hmax max hs
  rw [length_filledArgs, isClosed_snippet hname, allowsMore, hs]
  by_cases hlt : s.min < max
  · simp only [hlt, decide_true, Bool.not_true, Bool.false_eq_true, if_false]
    exact hlt
  · simpa [hlt] using hle

end

end Signature

/-! ## The theorem -/

/-- **Completion inserts calls without problems.** For every function of a table whose name is a
name and that can be called, the snippet is one call of it, once it is closed, with the required
arguments and one more if the snippet was left open. No check reports anything about this call. The
argument that is typed may be any name that is no literal. -/
theorem analyze_fill_snippet (defs : List Definition) (s : Signature)
    (hs : s ∈ (Registry.ofDefinitions defs).signatures) (hname : isName s.name.toList = true)
    (hmax : ∀ max, s.max = some max → s.min ≤ max) (x : String) (hx : isName x.toList = true)
    (hliteral : Literal.ofText? x = none) :
    let closed := Snippet.isClosed s.snippet
    let inserted := Snippet.fill s.snippet (if closed then "" else x ++ ")")
    (∃ c, CallSite.findAll inserted = [c] ∧ c.name = s.name ∧
      c.arguments.length = if closed then s.min else s.min + 1) ∧
    ∀ k, analyze (Registry.ofDefinitions defs) k inserted = [] := by
  intro closed inserted
  have hargs : ∀ a ∈ s.filledArgs x,
      isName a = true ∧ Literal.ofText? (String.ofList a) = none := by
    intro a ha
    rcases Signature.mem_filledArgs ha with ⟨i, rfl⟩ | rfl
    · exact ⟨Signature.isName_paramName i, Signature.ofText?_paramName i⟩
    · rw [String.ofList_toList]
      exact ⟨hx, hliteral⟩
  obtain ⟨c, hfind, hcname, htexts⟩ := findAll_plainCall hname fun a ha => (hargs a ha).1
  rw [← Signature.fill_snippet hname] at hfind
  rw [String.ofList_toList] at hcname
  have hlength : c.arguments.length = (s.filledArgs x).length := by
    simpa using congrArg List.length htexts
  have hcount := hlength.trans (s.length_filledArgs x)
  refine ⟨⟨c, hfind, hcname, hcount⟩, fun k => ?_⟩
  have hknown : (Registry.ofDefinitions defs).find? c.name = some s := by
    rw [hcname]
    exact (Registry.tidy_ofDefinitions defs).find?_of_mem_signatures hs
  have hmin : s.min ≤ c.arguments.length := by
    rw [hcount]
    split <;> omega
  have hfits : ∀ max, s.max = some max → c.arguments.length ≤ max := by
    intro max hsmax
    rw [hlength]
    exact Signature.length_filledArgs_le hname hmax x hsmax
  have hnone : ∀ a ∈ c.arguments, Literal.ofText? a.text = none := by
    intro a ha
    have hmem : a.text ∈ c.arguments.map (·.text) := List.mem_map_of_mem ha
    rw [htexts] at hmem
    obtain ⟨b, hb, heq⟩ := List.mem_map.1 hmem
    rw [← heq]
    exact (hargs b hb).2
  rw [analyze, hfind, diagnoseAll, List.flatMap_singleton]
  exact CallSite.diagnose_eq_nil hknown hmin hfits hnone k

/-- A snippet that is left open, of a function that was defined once before under a name that only
differs in case. -/
theorem analyze_fill_snippet_of_redefined :
    let defs : List Definition :=
      [⟨"PAD_2", 0, some 0, [], "Any", ""⟩,
        ⟨"Pad_2", 2, some 3, ["String | Null", "Integer"], "String", ""⟩]
    let inserted := "Pad_2(param1, param2, x)"
    (∃ c, CallSite.findAll inserted = [c] ∧ c.name = "Pad_2" ∧ c.arguments.length = 3) ∧
      ∀ k, analyze (Registry.ofDefinitions defs) k inserted = [] := by
  let defs : List Definition :=
    [⟨"PAD_2", 0, some 0, [], "Any", ""⟩,
      ⟨"Pad_2", 2, some 3, ["String | Null", "Integer"], "String", ""⟩]
  let s := Signature.ofDefinition
    ⟨"Pad_2", 2, some 3, ["String | Null", "Integer"], "String", ""⟩
  have hmax : ∀ max, s.max = some max → s.min ≤ max := by
    rintro max ⟨⟩
    decide
  have hopen : Snippet.isClosed s.snippet = false := by decide +kernel
  have hinserted : Snippet.fill s.snippet
      (if Snippet.isClosed s.snippet then "" else "x" ++ ")") = "Pad_2(param1, param2, x)" := by
    decide +kernel
  have h := analyze_fill_snippet defs s (by decide +kernel) (by decide) hmax "x" (by decide)
    (by decide)
  dsimp only at h
  rw [hinserted, hopen] at h
  exact h

end FlowExpr
