import FlowExpr.Analysis.Analyze
import FlowExpr.Text.LineTable

/-!
# Open documents

Each open document is kept as a snapshot: its text with the calls and diagnostics found when it was
opened. Opening a document again replaces the snapshot; nothing else changes it.
-/

namespace FlowExpr

/-- An analysed document. -/
structure Document where
  source : String
  version : Int
  calls : List CallSite
  diagnostics : List Diagnostic
  deriving DecidableEq, Repr, Inhabited

/-- Analyses a text. -/
def Document.ofSource (r : Registry) (c : Checks) (source : String) (version : Int) : Document :=
  let calls := CallSite.findAll source
  ⟨source, version, calls, diagnoseAll r c calls⟩

/-- The lines of a document. -/
def Document.lines (d : Document) : LineTable := .ofSource d.source

/-- The open documents by address, each address once. -/
structure Documents where
  entries : List (String × Document) := []
  deriving DecidableEq, Repr, Inhabited

namespace Documents

/-- The document at an address. -/
def get? (ds : Documents) (uri : String) : Option Document := ds.entries.lookup uri

/-- Removes the document at an address, if there is one. -/
def close (ds : Documents) (uri : String) : Documents := ⟨ds.entries.filter (·.1 ≠ uri)⟩

/-- Puts a document at an address, in place of the one that is there. -/
def insert (ds : Documents) (uri : String) (d : Document) : Documents :=
  ⟨(uri, d) :: (ds.close uri).entries⟩

/-- Closing a document takes that one away and no other. -/
@[simp] theorem get?_close (ds : Documents) (uri u : String) :
    (ds.close uri).get? u = if u = uri then none else ds.get? u := by
  unfold close get?
  induction ds.entries with
  | nil => simp
  | cons entry entries ih =>
    obtain ⟨v, d⟩ := entry
    by_cases huri : v = uri
    · rw [List.filter_cons_of_neg (by simp [huri]), ih]
      by_cases hu : u = uri
      · rw [if_pos hu, if_pos hu]
      · rw [if_neg hu, if_neg hu, List.lookup_cons, beq_eq_false_iff_ne.2 (huri ▸ hu)]
    · rw [List.filter_cons_of_pos (by simp [huri]), List.lookup_cons, List.lookup_cons]
      by_cases hu : u = v
      · subst hu
        simp [huri]
      · rw [beq_eq_false_iff_ne.2 hu]
        exact ih

/-- Putting a document at an address changes what is found there and nowhere else. -/
@[simp] theorem get?_insert (ds : Documents) (uri u : String) (d : Document) :
    (ds.insert uri d).get? u = if u = uri then some d else ds.get? u := by
  by_cases hu : u = uri
  · simp [insert, get?, hu]
  · have hclose := get?_close ds uri u
    rw [if_neg hu] at hclose ⊢
    rw [← hclose]
    simp [insert, get?, List.lookup_cons, beq_eq_false_iff_ne.2 hu]

/-- The number of open documents. -/
def size (ds : Documents) : Nat := ds.entries.length

/-- Whether no document is open. -/
def isEmpty (ds : Documents) : Bool := ds.entries.isEmpty

end Documents

end FlowExpr
