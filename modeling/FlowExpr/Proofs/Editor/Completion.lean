import FlowExpr.Editor.Completion
import FlowExpr.Proofs.Text.Bytes
import FlowExpr.Proofs.Text.Lines

/-!
# Completion while a name is typed

**Theorem (`isSome_completions_after_typing_iff`).** Where functions are offered, they are still
offered after more characters of a name have been typed, with one exception: the marker `@` stands
directly behind a character after which no name may start. Functions are offered behind such a
marker, and no longer behind the first character that is typed after it.

**How the proof goes.** Name characters are bytes of their own, so that bytes typed between two
offsets are characters of the text (`exists_typed`), on the line on which typing began. The test
skips the partial name at the end of the line; what it then sees is the same before and after
(`expectsName_append`), unless the line ended in a marker, which counts by itself only as long as
nothing follows it.
-/

namespace FlowExpr

open Text

/-! ## Where a name may go on -/

/-- Whether a name may start at the front of this reversed text, or behind a marker there. -/
def admitsName (reversed : List Char) : Bool :=
  match withoutMarker reversed with
  | c :: _ => startsName c
  | [] => true

/-- Whether a text ends with a marker directly behind a character after which no name may start. -/
def endsAtJoinedMarker (before : List Char) : Bool :=
  match before.reverse with
  | '@' :: c :: _ => !startsName c
  | _ => false

theorem expectsName_eq (before : List Char) :
    expectsName before =
      (before.getLast? = some '@' || admitsName (before.reverse.dropWhile isNameChar)) := rfl

/-- The partial name at the end of a text is skipped. -/
theorem expectsName_append {w : List Char} (hw : ∀ c ∈ w, isNameChar c = true) (hne : w ≠ [])
    (before : List Char) :
    expectsName (before ++ w) = admitsName (before.reverse.dropWhile isNameChar) := by
  have hlast : (before ++ w).getLast? ≠ some '@' := by
    rw [List.getLast?_append_of_ne_nil _ hne]
    intro h
    exact absurd (hw '@' (List.mem_of_getLast? h)) (by decide)
  rw [expectsName_eq, decide_eq_false hlast, Bool.false_or, List.reverse_append,
    List.dropWhile_append_of_pos fun c hc => hw c (List.mem_reverse.1 hc)]

theorem admitsName_marker (x : List Char) :
    admitsName ('@' :: x.reverse) = !endsAtJoinedMarker (x ++ ['@']) := by
  have hreverse : (x ++ ['@']).reverse = '@' :: x.reverse := by simp
  rw [endsAtJoinedMarker, hreverse]
  cases x.reverse with
  | nil => rfl
  | cons c cs => exact (Bool.not_not _).symm

theorem endsAtJoinedMarker_of_ne {before : List Char} (h : before.getLast? ≠ some '@') :
    endsAtJoinedMarker before = false := by
  rw [List.getLast?_eq_head?_reverse] at h
  unfold endsAtJoinedMarker
  split
  · rename_i hreverse
    rw [hreverse] at h
    exact absurd rfl h
  · rfl

/-- Typing on keeps the place of a name, except behind a joined marker. -/
theorem expectsName_typed {w : List Char} (hw : ∀ c ∈ w, isNameChar c = true) (hne : w ≠ [])
    {before : List Char} (h : expectsName before = true) :
    expectsName (before ++ w) = !endsAtJoinedMarker before := by
  rw [expectsName_append hw hne]
  by_cases hlast : before.getLast? = some '@'
  · obtain ⟨x, rfl⟩ := List.getLast?_eq_some_iff.1 hlast
    rw [List.reverse_append, List.reverse_singleton, List.singleton_append,
      List.dropWhile_cons_of_neg (by decide)]
    exact admitsName_marker x
  · rw [expectsName_eq, decide_eq_false hlast, Bool.false_or] at h
    rw [h, endsAtJoinedMarker_of_ne hlast, Bool.not_false]

/-! ## Typed characters -/

namespace Text

/-- Name bytes between two offsets are characters of the text. -/
theorem exists_typed {source : String} {start stop : Nat} (hlt : start < stop)
    (hstop : stop ≤ (bytes source).length)
    (htyped : (bytesBetween source start stop).all isNameChar = true) :
    ∃ a w b, source.toList = a ++ (w ++ b) ∧ w ≠ [] ∧ (∀ c ∈ w, isNameChar c = true) ∧
      byteLength a = start ∧ byteLength (a ++ w) = stop := by
  have hname := List.all_eq_true.1 htyped
  have hascii : ∀ b ∈ bytesBetween source start stop, b.toNat < 128 :=
    fun b hb => ascii_of_isNameChar (hname b hb)
  have htake : (bytes source).take start ++ bytesBetween source start stop =
      (bytes source).take stop := by
    have hdrop := List.take_append_drop start ((bytes source).take stop)
    rwa [List.take_take, Nat.min_eq_left (Nat.le_of_lt hlt)] at hdrop
  have hlength : (bytesBetween source start stop).length = stop - start := by
    rw [bytesBetween, List.length_drop, List.length_take, Nat.min_eq_left hstop]
  have hne : bytesBetween source start stop ≠ [] := by
    intro hnil
    rw [hnil, List.length_nil] at hlength
    omega
  have hencode : encode source.toList = (bytes source).take start ++
      (bytesBetween source start stop ++ (bytes source).drop stop) := by
    rw [← List.append_assoc, htake, List.take_append_drop, bytes_eq_encode]
  obtain ⟨a, b, hsource, ha, -⟩ := exists_of_encode_eq_append_ascii hne hascii hencode
  have hstart : byteLength a = start := by
    rw [← length_encode, ← ha, List.length_take]
    omega
  refine ⟨a, bytesBetween source start stop, b, hsource, hne, hname, hstart, ?_⟩
  rw [byteLength_append, byteLength_of_ascii hascii, hstart, hlength]
  omega

end Text

/-! ## What is offered -/

theorem isSome_completionsAtOffset?_iff {r : Registry} {lines : LineTable} {offset : Nat} :
    (completionsAtOffset? r lines offset).isSome = true ↔
      expectsName (lines.linePrefix offset) = true := by
  unfold completionsAtOffset?
  split <;> simp_all

/-- **Typing a name keeps completion available**, except behind a joined marker. -/
theorem isSome_completions_after_typing_iff (r : Registry) (source : String) (start stop : Nat)
    (hle : start ≤ stop) (hstop : stop ≤ (bytes source).length)
    (hoffered : (completionsAtOffset? r (.ofSource source) start).isSome = true)
    (htyped : (bytesBetween source start stop).all isNameChar = true) :
    (completionsAtOffset? r (.ofSource source) stop).isSome = true ↔
      start = stop ∨
        endsAtJoinedMarker ((LineTable.ofSource source).linePrefix start) = false := by
  rcases Nat.eq_or_lt_of_le hle with rfl | hlt
  · exact iff_of_true hoffered (Or.inl rfl)
  obtain ⟨a, w, b, hsource, hne, hw, rfl, rfl⟩ := exists_typed hlt hstop htyped
  have hbegun : (LineTable.ofSource source).linePrefix (byteLength a) = startOfLine a := by
    rw [LineTable.ofSource, hsource]
    exact LineTable.linePrefix_append a (w ++ b)
  have hended : (LineTable.ofSource source).linePrefix (byteLength (a ++ w)) =
      startOfLine a ++ w := by
    have hfeed : '\n' ∉ w := fun hmem => absurd (hw '\n' hmem) (by decide)
    rw [LineTable.ofSource, hsource, ← List.append_assoc, LineTable.linePrefix_append,
      startOfLine_append hfeed]
  rw [isSome_completionsAtOffset?_iff, hbegun] at hoffered
  rw [isSome_completionsAtOffset?_iff, hbegun, hended, expectsName_typed hw hne hoffered,
    Bool.not_eq_true', or_iff_right (Nat.ne_of_lt hlt)]

/-- Behind a marker that follows a blank a name can be typed; the character before is two bytes
wide. -/
theorem isSome_completions_after_typing_marker :
    (bytesBetween "f(é, @ab" 7 9).all isNameChar = true ∧
      (completionsAtOffset? {} (.ofSource "f(é, @ab") 9).isSome = true :=
  ⟨by decide +kernel,
    (isSome_completions_after_typing_iff {} "f(é, @ab" 7 9 (by decide) (by decide +kernel)
      (by decide +kernel) (by decide +kernel)).2 (Or.inr (by decide +kernel))⟩

/-- Behind a marker that is joined to a name functions are offered, and one character later they are
not. -/
theorem completions_lost_behind_joined_marker :
    (completionsAtOffset? {} (.ofSource "x@a") 2).isSome = true ∧
      (bytesBetween "x@a" 2 3).all isNameChar = true ∧
      completionsAtOffset? {} (.ofSource "x@a") 3 = none := by
  decide +kernel

end FlowExpr
