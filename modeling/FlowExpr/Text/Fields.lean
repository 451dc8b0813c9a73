/-!
# Separated fields

`fields sep` cuts a text at every occurrence of a separator and keeps the empty fields, so joining
them with the separator gives the text back (`join_fields`). The other way round, fields that hold
no separator are found again in what is joined from them (`fields_joinFields`).
-/

namespace FlowExpr.Text

/-- The fields of a text between the occurrences of `sep`. -/
def fields (sep : Char) : List Char → List (List Char)
  | [] => [[]]
  | c :: cs =>
    if c = sep then [] :: fields sep cs
    else
      match fields sep cs with
      | field :: rest => (c :: field) :: rest
      | [] => [[c]]

/-- Fields written one after the other with the separator between them. -/
def joinFields (sep : Char) : List (List Char) → List Char
  | [] => []
  | [field] => field
  | field :: next :: rest => field ++ sep :: joinFields sep (next :: rest)

theorem fields_ne_nil (sep : Char) (cs : List Char) : fields sep cs ≠ [] := by
  cases cs with
  | nil => simp [fields]
  | cons c cs =>
    simp only [fields]
    split
    · simp
    · split <;> simp

/-- Nothing is lost by cutting. -/
theorem join_fields (sep : Char) (cs : List Char) : joinFields sep (fields sep cs) = cs := by
  induction cs with
  | nil => rfl
  | cons c cs ih =>
    obtain ⟨field, rest, h⟩ := List.exists_cons_of_ne_nil (fields_ne_nil sep cs)
    rw [h] at ih
    simp only [fields, h]
    by_cases hc : c = sep
    · simp [hc, joinFields, ih]
    · rw [if_neg hc]
      cases rest <;> simp_all [joinFields]

/-! ## Cutting what was joined -/

/-- A text without the separator is one field. -/
theorem fields_of_not_mem {sep : Char} {cs : List Char} (h : sep ∉ cs) : fields sep cs = [cs] := by
  induction cs with
  | nil => rfl
  | cons c cs ih =>
    rw [fields, if_neg (Ne.symm (List.ne_of_not_mem_cons h)), ih (List.not_mem_of_not_mem_cons h)]

/-- The two sides of a separator are cut by themselves. -/
theorem fields_append_cons (sep : Char) (a b : List Char) :
    fields sep (a ++ sep :: b) = fields sep a ++ fields sep b := by
  induction a with
  | nil => simp [fields]
  | cons c a ih =>
    obtain ⟨field, rest, h⟩ := List.exists_cons_of_ne_nil (fields_ne_nil sep a)
    rw [List.cons_append, fields, fields, ih, h]
    split <;> rfl

theorem not_mem_of_mem_fields {sep : Char} {cs field : List Char} (h : field ∈ fields sep cs) :
    sep ∉ field := by
  induction cs generalizing field with
  | nil => simp_all [fields]
  | cons c cs ih =>
    obtain ⟨first, rest, hfields⟩ := List.exists_cons_of_ne_nil (fields_ne_nil sep cs)
    rw [fields, hfields] at h
    rw [hfields] at ih
    split at h
    · rcases List.mem_cons.1 h with rfl | hmem
      · exact List.not_mem_nil
      · exact ih hmem
    · rename_i hc
      rcases List.mem_cons.1 h with rfl | hmem
      · exact List.not_mem_cons_of_ne_of_not_mem (Ne.symm hc) (ih List.mem_cons_self)
      · exact ih (List.mem_cons_of_mem _ hmem)

/-- There is one field more than there are separators. -/
theorem length_fields (sep : Char) (cs : List Char) :
    (fields sep cs).length = cs.count sep + 1 := by
  induction cs with
  | nil => rfl
  | cons c cs ih =>
    obtain ⟨field, rest, h⟩ := List.exists_cons_of_ne_nil (fields_ne_nil sep cs)
    rw [h, List.length_cons] at ih
    by_cases hc : c = sep <;> simp_all [fields]

/-- Joined fields that hold no separator themselves are cut apart again. -/
theorem fields_joinFields {sep : Char} {ps : List (List Char)} (hne : ps ≠ [])
    (h : ∀ p ∈ ps, sep ∉ p) : fields sep (joinFields sep ps) = ps := by
  induction ps with
  | nil => exact absurd rfl hne
  | cons p ps ih =>
    have hp := fields_of_not_mem (h p List.mem_cons_self)
    cases ps with
    | nil => exact hp
    | cons q qs =>
      rw [joinFields, fields_append_cons, hp,
        ih (List.cons_ne_nil q qs) fun r hr => h r (List.mem_cons_of_mem p hr)]
      rfl

end FlowExpr.Text
