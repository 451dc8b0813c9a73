import FlowExpr.Function.Descriptor
import FlowExpr.Proofs.Text.Trim

/-!
# Reading a descriptor that was shown

**Theorem (`ofText_text_ofText`).** What is shown of a descriptor is read as that descriptor again.

Reading depends on the names in a text alone, so it is enough to follow these. They are `Proper`:
not empty, without blanks at the ends and without a bar. Proper names with bars and blanks between
them are the names of the text (`names_intercalate`), because a bar separates the names on its two
sides (`names_append`) and blanks beside it go away with trimming. Only a wildcard is not shown
under the names it was read from, and it is shown as one.
-/

namespace FlowExpr

open Text

namespace Descriptor

/-! ## Names -/

/-- What every name in a descriptor's text is like. -/
structure Proper (name : List Char) : Prop where
  not_blank : isAllBlank name = false
  trimmed : trim name = name
  bar_free : '|' ∉ name

theorem mem_names_iff {text : String} {name : List Char} :
    name ∈ names text ↔ ∃ part ∈ fields '|' text.toList, trim part = name ∧ name ≠ [] := by
  rw [names, List.mem_filter, List.mem_map, Bool.not_eq_true', ← Bool.not_eq_true,
    List.isEmpty_iff]
  constructor
  · rintro ⟨⟨part, hpart, htrim⟩, hne⟩
    exact ⟨part, hpart, htrim, hne⟩
  · rintro ⟨part, hpart, htrim, hne⟩
    exact ⟨⟨part, hpart, htrim⟩, hne⟩

theorem proper_of_mem_names {text : String} {name : List Char} (h : name ∈ names text) :
    Proper name := by
  obtain ⟨part, hpart, rfl, hne⟩ := mem_names_iff.1 h
  exact {
    not_blank := by
      rw [isAllBlank_trim, ← Bool.not_eq_true]
      exact mt trim_eq_nil_iff.2 hne
    trimmed := trim_trim part
    bar_free := fun hbar => not_mem_of_mem_fields hpart (mem_of_mem_trim hbar) }

/-- A bar separates the names on its two sides. -/
theorem names_append (a b : String) : names (a ++ "|" ++ b) = names a ++ names b := by
  have htext : (a ++ "|" ++ b).toList = a.toList ++ '|' :: b.toList := by simp
  rw [names, htext, fields_append_cons, List.map_append, List.filter_append]
  rfl

/-- Blanks in front of a text do not change its names. -/
theorem names_space_append (text : String) : names (" " ++ text) = names text := by
  obtain ⟨first, rest, hfields⟩ := List.exists_cons_of_ne_nil (fields_ne_nil '|' text.toList)
  have hspaced : fields '|' (" " ++ text).toList = (' ' :: first) :: rest := by
    rw [show (" " ++ text).toList = ' ' :: text.toList by simp, fields, if_neg (by decide), hfields]
  have htrim : trim (' ' :: first) = trim first :=
    trim_append_of_isAllBlank (w := [' ']) (by decide) first
  rw [names, names, hspaced, hfields, List.map_cons, List.map_cons, htrim]

/-- A proper name is the one name of its text, also with blanks behind it. -/
theorem Proper.names_eq {name : List Char} (h : Proper name) (blanks : String)
    (hblanks : isAllBlank blanks.toList = true) :
    names (String.ofList name ++ blanks) = [name] := by
  have hbar : '|' ∉ name ++ blanks.toList := by
    intro hmem
    rcases List.mem_append.1 hmem with hname | hblank
    · exact h.bar_free hname
    · exact absurd (List.all_eq_true.1 hblanks '|' hblank) (by decide)
  rw [names, String.toList_append, String.toList_ofList, fields_of_not_mem hbar, List.map_cons,
    trim_append_blanks name hblanks, h.trimmed, List.map_nil, List.filter_cons_of_pos]
  · rfl
  · cases name with
    | nil => exact absurd h.not_blank (by decide)
    | cons c cs => rfl

/-- Proper names are found again in what is shown of them. -/
theorem names_intercalate {ns : List (List Char)} (h : ∀ n ∈ ns, Proper n) :
    names (" | ".intercalate (ns.map String.ofList)) = ns := by
  induction ns with
  | nil => rfl
  | cons n ns ih =>
    have hn := h n List.mem_cons_self
    have hns := ih fun m hm => h m (List.mem_cons_of_mem n hm)
    by_cases hnil : ns = []
    · have hlast := hn.names_eq "" rfl
      rw [String.append_empty] at hlast
      rw [hnil, List.map_cons, List.map_nil, String.intercalate_singleton, hlast]
    · have hsplit : ∀ rest : String,
          String.ofList n ++ " | " ++ rest = String.ofList n ++ " " ++ "|" ++ (" " ++ rest) := by
        intro rest
        rw [show " | " = " " ++ "|" ++ " " from rfl]
        simp only [String.append_assoc]
      rw [List.map_cons, String.intercalate_cons_of_ne_nil (by simpa using hnil), hsplit,
        names_append, names_space_append, hns, hn.names_eq " " (by decide), List.singleton_append]

/-! ## Reading and showing -/

/-- The types of a list of names. -/
def typesOf (ns : List (List Char)) : List ValueType := ns.map fun n => .ofName (String.ofList n)

theorem map_name_typesOf (ns : List (List Char)) :
    (typesOf ns).map ValueType.name = ns.map String.ofList := by
  rw [typesOf, List.map_map]
  exact List.map_congr_left fun n _ => ValueType.name_ofName _

/-- What is read is a wildcard, or the types of the names. -/
theorem ofText_eq (text : String) :
    ofText text = if (names text).any isWildcard then any else ofTypes (typesOf (names text)) := rfl

theorem ofTypes_cons_cons (t u : ValueType) (ts : List ValueType) :
    ofTypes (t :: u :: ts) = union (t :: u :: ts) := rfl

theorem ofTypes_eq_any_iff {ts : List ValueType} : ofTypes ts = any ↔ ts = [] := by
  rcases ts with _ | ⟨t, _ | ⟨u, ts⟩⟩ <;> simp [ofTypes]

theorem ofTypes_eq_union_iff {ts us : List ValueType} :
    ofTypes ts = union us ↔ ts = us ∧ 2 ≤ ts.length := by
  rcases ts with _ | ⟨t, _ | ⟨u, ts⟩⟩ <;> simp [ofTypes]

theorem text_ofTypes {ts : List ValueType} (h : ts ≠ []) :
    (ofTypes ts).text = " | ".intercalate (ts.map ValueType.name) := by
  rcases ts with _ | ⟨t, _ | ⟨u, ts⟩⟩
  · exact absurd rfl h
  · exact String.intercalate_singleton.symm
  · rfl

theorem ofText_eq_any_iff {text : String} :
    ofText text = any ↔ names text = [] ∨ ∃ n ∈ names text, isWildcard n = true := by
  rw [ofText_eq, ← List.any_eq_true]
  split
  · rename_i hwild
    exact iff_of_true rfl (Or.inr hwild)
  · rename_i hwild
    rw [ofTypes_eq_any_iff, typesOf, List.map_eq_nil_iff, or_iff_left hwild]

/-- All names are shown, in their order. -/
theorem names_text_ofText {text : String} (h : ofText text ≠ any) :
    names (ofText text).text = names text := by
  obtain ⟨hne, hwild⟩ := not_or.1 (mt ofText_eq_any_iff.2 h)
  rw [← List.any_eq_true] at hwild
  have htypes : typesOf (names text) ≠ [] := by simpa [typesOf] using hne
  rw [ofText_eq, if_neg hwild, text_ofTypes htypes, map_name_typesOf,
    names_intercalate fun n hn => proper_of_mem_names hn]

theorem ofText_text {text : String} : ofText (ofText text).text = ofText text := by
  by_cases h : ofText text = any
  · rw [h]
    decide
  · rw [ofText_eq, names_text_ofText h, ← ofText_eq]

/-- A union has the types of its names as members, and at least two of them. -/
theorem of_ofText_eq_union {text : String} {ts : List ValueType} (h : ofText text = union ts) :
    typesOf (names text) = ts ∧ 2 ≤ ts.length ∧ ∀ n ∈ names text, isWildcard n = false := by
  rw [ofText_eq] at h
  split at h
  · cases h
  · rename_i hwild
    obtain ⟨rfl, hlength⟩ := ofTypes_eq_union_iff.1 h
    refine ⟨rfl, hlength, ?_⟩
    simpa using hwild

/-- A member of a union has one of its names. -/
theorem name_mem_names_of_union {text : String} {ts : List ValueType} {t : ValueType}
    (h : ofText text = union ts) (ht : t ∈ ts) : t.name.toList ∈ names text := by
  rw [← (of_ofText_eq_union h).1] at ht
  obtain ⟨n, hn, rfl⟩ := List.mem_map.1 ht
  rwa [ValueType.name_ofName, String.toList_ofList]

/-- **What is shown is read again.** A descriptor that is no wildcard shows all names it was read
from, and a union has at least two, each of them a single name. -/
theorem ofText_text_ofText (text : String) :
    ofText (ofText text).text = ofText text ∧
      (ofText text = any ↔ names text = [] ∨ ∃ n ∈ names text, isWildcard n = true) ∧
      (ofText text ≠ any → names (ofText text).text = names text) ∧
      ∀ ts, ofText text = union ts → 2 ≤ ts.length ∧
        ∀ t ∈ ts, Proper t.name.toList ∧ isWildcard t.name.toList = false := by
  refine ⟨ofText_text, ofText_eq_any_iff, names_text_ofText, fun ts hts => ?_⟩
  obtain ⟨-, hlength, hwild⟩ := of_ofText_eq_union hts
  refine ⟨hlength, fun t ht => ?_⟩
  have hname := name_mem_names_of_union hts ht
  exact ⟨proper_of_mem_names hname, hwild _ hname⟩

/-- Empty parts, a wide blank and a name nothing is known about. -/
theorem ofText_text_ofText_union :
    ofText "| Foo Bar||\u3000String|" = union [.other "Foo Bar", .string] ∧
      (ofText "| Foo Bar||\u3000String|").text = "Foo Bar | String" ∧
      ofText "Foo Bar | String" = union [.other "Foo Bar", .string] ∧
      Proper "Foo Bar".toList := by
  have hread : ofText "| Foo Bar||\u3000String|" = union [.other "Foo Bar", .string] := by
    decide +kernel
  have hshown : (ofText "| Foo Bar||\u3000String|").text = "Foo Bar | String" := by
    rw [hread]
    decide +kernel
  obtain ⟨hback, -, -, hmembers⟩ := ofText_text_ofText "| Foo Bar||\u3000String|"
  rw [hshown, hread] at hback
  exact ⟨hread, hshown, hback, ((hmembers _ hread).2 _ List.mem_cons_self).1⟩

end Descriptor

end FlowExpr
