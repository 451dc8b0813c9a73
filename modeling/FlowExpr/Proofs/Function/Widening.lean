import FlowExpr.Function.Literal
import FlowExpr.Proofs.Function.Descriptor
import Mathlib.Data.List.Perm.Basic

/-!
# More types take more literals

**Theorem (`admits_widened`).** A literal that a parameter takes is also taken when more names are
added to the descriptor, in front or behind, and the order of the names does not matter.

A name that is alone and one in a union follow different rules. What connects them is the rule of a
single member (`admitsAsMember`): a union takes what one of its members takes by this rule
(`admits_union`), and a type alone takes no more than it does as a member
(`admitsAsMember_of_admits`). So the step from one name to several only adds literals. Each further
name adds to a union, and a wildcard takes everything.
-/

namespace FlowExpr

open Text

/-! ## Members of a union -/

/-- Whether a type takes a literal as a member of a union. -/
def ValueType.admitsAsMember (t : ValueType) (l : Literal) : Bool :=
  t = l.type || (l.isNumber && t.isNumeric) || t = .string

/-- A type takes alone no more than it does in a union. -/
theorem ValueType.admitsAsMember_of_admits {t : ValueType} {l : Literal} (h : t.admits l = true) :
    t.admitsAsMember l = true := by
  simp only [admits, Bool.or_eq_true, decide_eq_true_eq] at h
  rcases h with hown | hconverts
  · simp [admitsAsMember, hown]
  · -- `String`, `Float` and `NumberLike` take more than their own literals.
    split at hconverts
    · simp [admitsAsMember]
    · rw [of_decide_eq_true hconverts]
      decide
    · simp [admitsAsMember, hconverts, isNumeric]
    · cases hconverts

namespace Descriptor

variable {l : Literal} {ts us : List ValueType}

theorem admits_union : (union ts).admits l = ts.any (·.admitsAsMember l) := by
  rw [Bool.eq_iff_iff]
  simp only [admits, ValueType.admitsAsMember, List.any_eq_true, Bool.or_eq_true, Bool.and_eq_true,
    List.contains_iff_mem, decide_eq_true_eq]
  constructor
  · rintro ((hown | ⟨hnumber, t, ht, hnumeric⟩) | hstring)
    · exact ⟨_, hown, Or.inl (Or.inl rfl)⟩
    · exact ⟨t, ht, Or.inl (Or.inr ⟨hnumber, hnumeric⟩)⟩
    · exact ⟨_, hstring, Or.inr rfl⟩
  · rintro ⟨t, ht, (rfl | ⟨hnumber, hnumeric⟩) | rfl⟩
    · exact Or.inl (Or.inl ht)
    · exact Or.inl (Or.inr ⟨hnumber, t, ht, hnumeric⟩)
    · exact Or.inr ht

/-- What some types take, one of them takes as a member. -/
theorem exists_admitsAsMember (hne : ts ≠ []) (h : (ofTypes ts).admits l = true) :
    ∃ t ∈ ts, t.admitsAsMember l = true := by
  rcases ts with _ | ⟨t, _ | ⟨u, ts⟩⟩
  · exact absurd rfl hne
  · exact ⟨t, List.mem_cons_self, ValueType.admitsAsMember_of_admits h⟩
  · rw [ofTypes_cons_cons, admits_union] at h
    exact List.any_eq_true.1 h

/-! ## Adding and reordering types -/

/-- More types take more. -/
theorem admits_ofTypes_of_sublist (hne : ts ≠ []) (hsub : ts.Sublist us)
    (h : (ofTypes ts).admits l = true) : (ofTypes us).admits l = true := by
  obtain ⟨t, ht, hmember⟩ := exists_admitsAsMember hne h
  rcases us with _ | ⟨u, _ | ⟨v, us⟩⟩
  · rfl
  · -- One type in all: nothing was added.
    rwa [hsub.eq_of_length_le (List.length_pos_of_ne_nil hne)] at h
  · rw [ofTypes_cons_cons, admits_union, List.any_eq_true]
    exact ⟨t, hsub.subset ht, hmember⟩

theorem admits_ofTypes_of_perm (h : ts.Perm us) :
    (ofTypes ts).admits l = (ofTypes us).admits l := by
  rcases us with _ | ⟨u, _ | ⟨v, us⟩⟩
  · rw [h.eq_nil]
  · rw [List.perm_singleton.1 h]
  · have hunion : ofTypes ts = union ts := ofTypes_eq_union_iff.2 ⟨rfl, by simp [h.length_eq]⟩
    rw [hunion, ofTypes_cons_cons, admits_union, admits_union, h.any_eq]

/-! ## Adding and reordering names -/

section

variable {d d' : String}

theorem admits_of_names_sublist (hne : names d ≠ []) (hsub : (names d).Sublist (names d'))
    (h : (ofText d).admits l = true) : (ofText d').admits l = true := by
  rw [ofText_eq d']
  split
  · rfl
  · rename_i hwild
    -- Without a wildcard among all names there is none among the first ones.
    have hfew : ¬ (names d).any isWildcard = true := by
      rw [List.any_eq_true] at hwild ⊢
      rintro ⟨n, hn, hn'⟩
      exact hwild ⟨n, hsub.subset hn, hn'⟩
    rw [ofText_eq, if_neg hfew] at h
    exact admits_ofTypes_of_sublist (by simpa [typesOf] using hne) (hsub.map _) h

theorem admits_of_names_perm (h : (names d).Perm (names d')) :
    (ofText d).admits l = (ofText d').admits l := by
  rw [ofText_eq, ofText_eq, h.any_eq]
  split
  · rfl
  · exact admits_ofTypes_of_perm (h.map _)

/-- A part that is not blank is a name. -/
theorem names_ne_nil (h : ∃ part ∈ fields '|' d.toList, isAllBlank part = false) :
    names d ≠ [] := by
  obtain ⟨part, hpart, hblank⟩ := h
  have htrim : trim part ≠ [] := mt trim_eq_nil_iff.1 (by simp [hblank])
  exact List.ne_nil_of_mem (mem_names_iff.2 ⟨part, hpart, rfl, htrim⟩)

/-- The parts in another order give the same names in another order. -/
theorem names_joinFields_perm {parts : List (List Char)} (h : parts.Perm (fields '|' d.toList)) :
    (names (String.ofList (joinFields '|' parts))).Perm (names d) := by
  have hne : parts ≠ [] := by
    rintro rfl
    exact fields_ne_nil '|' d.toList h.nil_eq.symm
  have hbar : ∀ p ∈ parts, '|' ∉ p := fun p hp => not_mem_of_mem_fields (h.subset hp)
  rw [names, String.toList_ofList, fields_joinFields hne hbar]
  exact (h.map trim).filter _

end

/-- **Widening never creates a mismatch.** A literal that is taken stays taken when parts are added
on either side, and the order of the parts does not matter. -/
theorem admits_widened (l : Literal) :
    (∀ d₁ d₂ : String, (∃ part ∈ fields '|' d₁.toList, isAllBlank part = false) →
      (ofText d₁).admits l = true →
        (ofText (d₁ ++ "|" ++ d₂)).admits l = true ∧ (ofText (d₂ ++ "|" ++ d₁)).admits l = true) ∧
    ∀ (d : String) (parts : List (List Char)), parts.Perm (fields '|' d.toList) →
      (ofText (String.ofList (joinFields '|' parts))).admits l = (ofText d).admits l := by
  constructor
  · intro d₁ d₂ hpart hl
    have hne := names_ne_nil hpart
    constructor
    · apply admits_of_names_sublist hne _ hl
      rw [names_append]
      exact List.sublist_append_left _ _
    · apply admits_of_names_sublist hne _ hl
      rw [names_append]
      exact List.sublist_append_right _ _
  · intro d parts hparts
    exact admits_of_names_perm (names_joinFields_perm hparts)

/-- `Float` takes whole numbers by a rule of its own, beside another name by the rule for unions,
whatever the order and however many parts are blank. -/
theorem admits_widened_float :
    (ofText "Float").admits .integer = true ∧
      (ofText "Float|Object| ").admits .integer = true ∧
      (ofText "Object| |Float").admits .integer = true ∧
      (ofText " |Object|Float").admits .integer = (ofText "Float|Object| ").admits .integer := by
  obtain ⟨hwiden, hreorder⟩ := admits_widened .integer
  have hfloat : (ofText "Float").admits .integer = true := by decide +kernel
  have hpart : ∃ part ∈ fields '|' "Float".toList, isAllBlank part = false :=
    ⟨"Float".toList, by decide +kernel, by decide +kernel⟩
  refine ⟨hfloat, (hwiden "Float" "Object| " hpart hfloat).1,
    (hwiden "Float" "Object| " hpart hfloat).2, ?_⟩
  exact hreorder "Float|Object| " [" ".toList, "Object".toList, "Float".toList] (by decide +kernel)

end Descriptor

end FlowExpr
