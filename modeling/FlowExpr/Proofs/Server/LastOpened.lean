import FlowExpr.Server.Documents
import Mathlib.Data.List.Dedup
import Mathlib.Data.List.Induction

/-!
# A document is kept as it was last opened

Documents are opened, closed and read in any order, and in between the checks change that documents
opened from then on are analysed with. `Shelf` holds both, the documents and the checks.

**Theorem (`answer_read_after`).** Reading an address gives the snapshot of its last opening, with
the diagnostics of the checks that were in force then, and nothing if it was closed since or never
opened. As many documents are open as there are addresses that were last opened.

The operations on other addresses, the readings and the changes of the checks drop out in
`lastAt?_concat`: the last operation decides if it opens or closes the address, and otherwise
nothing changes. For the number of documents it has to be known as well that no address is there
twice (`Documents.Distinct`).
-/

namespace FlowExpr

/-! ## Operations -/

/-- What is done with the open documents. -/
inductive Operation where
  | opened (uri text : String) (version : Int)
  | closed (uri : String)
  | read (uri : String)
  /-- Documents opened from now on are analysed with these checks. -/
  | configured (checks : Checks)
  deriving DecidableEq, Repr

namespace Operation

/-- The address that an operation opens or closes. -/
def edited? : Operation → Option String
  | opened uri _ _ => some uri
  | closed uri => some uri
  | read _ | configured _ => none

/-- The checks in force behind an operation. -/
def checksAfter (k : Checks) : Operation → Checks
  | configured checks => checks
  | _ => k

/-- Each operation with the checks that are in force when it is done. -/
def underChecks (k : Checks) : List Operation → List (Checks × Operation)
  | [] => []
  | op :: ops => (k, op) :: underChecks (op.checksAfter k) ops

/-- The last operation that opens or closes an address, with the checks in force then. -/
def lastAt? (uri : String) (ops : List (Checks × Operation)) : Option (Checks × Operation) :=
  (ops.filter fun p => p.2.edited? = some uri).getLast?

/-- Whether the last operation that opens or closes an address opens it. -/
def isLastOpened (ops : List (Checks × Operation)) (uri : String) : Bool :=
  match lastAt? uri ops with
  | some (_, opened ..) => true
  | _ => false

/-- The addresses that are opened or closed and were opened last, each once. -/
def lastOpened (ops : List (Checks × Operation)) : List String :=
  (ops.filterMap fun p => p.2.edited?).dedup.filter (isLastOpened ops)

theorem underChecks_concat (k : Checks) (ops : List Operation) (op : Operation) :
    underChecks k (ops ++ [op]) = underChecks k ops ++ [(ops.foldl checksAfter k, op)] := by
  induction ops generalizing k with
  | nil => rfl
  | cons first ops ih => simp [underChecks, ih]

/-- The last operation decides, unless it neither opens nor closes the address. -/
theorem lastAt?_concat (uri : String) (ops : List (Checks × Operation))
    (p : Checks × Operation) :
    lastAt? uri (ops ++ [p]) =
      if p.2.edited? = some uri then some p else lastAt? uri ops := by
  by_cases hp : p.2.edited? = some uri
  · simp [lastAt?, hp]
  · simp [lastAt?, hp]

theorem mem_lastOpened_iff {ops : List (Checks × Operation)} {uri : String} :
    uri ∈ lastOpened ops ↔ isLastOpened ops uri = true := by
  rw [lastOpened, List.mem_filter, List.mem_dedup, and_iff_right_iff_imp]
  intro h
  unfold isLastOpened at h
  split at h
  · rename_i k address text version hlast
    have hmem := List.mem_of_getLast? hlast
    rw [List.mem_filter, decide_eq_true_eq] at hmem
    exact List.mem_filterMap.2 ⟨_, hmem⟩
  · cases h

end Operation

/-! ## Documents by address -/

namespace Documents

/-- No address is there twice. -/
def Distinct (ds : Documents) : Prop := (ds.entries.map Prod.fst).Nodup

variable {ds : Documents}

theorem distinct_empty : Distinct {} := List.nodup_nil

theorem Distinct.close (h : ds.Distinct) (uri : String) : (ds.close uri).Distinct :=
  h.sublist (List.filter_sublist.map Prod.fst)

theorem Distinct.insert (h : ds.Distinct) (uri : String) (d : Document) :
    (ds.insert uri d).Distinct := by
  refine List.nodup_cons.2 ⟨?_, h.close uri⟩
  simp [Documents.close]

theorem mem_addresses_iff {uri : String} :
    uri ∈ ds.entries.map Prod.fst ↔ (ds.get? uri).isSome = true := by
  rw [get?, List.lookup_isSome_iff, List.mem_map]
  simp only [beq_iff_eq, eq_comm (a := uri)]

/-- Where no address is there twice, there are as many documents as addresses to read. -/
theorem Distinct.size_eq (h : ds.Distinct) {uris : List String} (huris : uris.Nodup)
    (hmem : ∀ uri, uri ∈ uris ↔ (ds.get? uri).isSome = true) : ds.size = uris.length := by
  have hperm : (ds.entries.map Prod.fst).Perm uris := by
    rw [List.perm_ext_iff_of_nodup h huris]
    intro uri
    rw [mem_addresses_iff, hmem]
  rw [size, ← hperm.length_eq, List.length_map]

theorem isEmpty_iff : ds.isEmpty = true ↔ ds.size = 0 := by
  rw [isEmpty, size, List.isEmpty_iff, List.length_eq_zero_iff]

end Documents

/-! ## Runs -/

/-- The open documents, and the checks for those that are opened from now on. -/
structure Shelf where
  documents : Documents := {}
  checks : Checks := {}

namespace Shelf

open Operation

/-- What an operation leaves. -/
def step (r : Registry) (s : Shelf) : Operation → Shelf
  | .opened uri text version =>
    { s with documents := s.documents.insert uri (.ofSource r s.checks text version) }
  | .closed uri => { s with documents := s.documents.close uri }
  | .read _ => s
  | .configured checks => { s with checks }

/-- The document that an operation returns: the one opened, or the one read. -/
def answer (r : Registry) (s : Shelf) : Operation → Option Document
  | .opened _ text version => some (.ofSource r s.checks text version)
  | .read uri => s.documents.get? uri
  | .closed _ | .configured _ => none

/-- What operations leave, one after the other. -/
def after (r : Registry) (s : Shelf) (ops : List Operation) : Shelf := ops.foldl (step r) s

/-- The snapshot that an operation makes of the document it edits. -/
def snapshot? (r : Registry) : Checks × Operation → Option Document
  | (k, .opened _ text version) => some ⟨text, version, CallSite.findAll text, analyze r k text⟩
  | _ => none

variable (r : Registry)

theorem after_concat (s : Shelf) (ops : List Operation) (op : Operation) :
    s.after r (ops ++ [op]) = (s.after r ops).step r op := by
  rw [after, List.foldl_append]
  rfl

theorem checks_step (s : Shelf) (op : Operation) :
    (s.step r op).checks = op.checksAfter s.checks := by
  cases op <;> rfl

theorem checks_after (s : Shelf) (ops : List Operation) :
    (s.after r ops).checks = ops.foldl checksAfter s.checks := by
  induction ops generalizing s with
  | nil => rfl
  | cons op ops ih =>
    rw [List.foldl_cons, ← checks_step r]
    exact ih (s.step r op)

/-- An operation changes what is read at the address that it opens or closes and nowhere else. -/
theorem get?_step (s : Shelf) (op : Operation) (uri : String) :
    (s.step r op).documents.get? uri =
      if op.edited? = some uri then snapshot? r (s.checks, op) else s.documents.get? uri := by
  cases op with
  | opened address text version =>
    simp only [step, Documents.get?_insert, edited?, Option.some.injEq, eq_comm (a := uri)]
    rfl
  | closed address =>
    simp only [step, Documents.get?_close, edited?, Option.some.injEq, eq_comm (a := uri)]
    rfl
  | read address => rfl
  | configured checks => rfl

theorem distinct_step {s : Shelf} (h : s.documents.Distinct) (op : Operation) :
    (s.step r op).documents.Distinct := by
  cases op with
  | opened uri text version => exact h.insert uri _
  | closed uri => exact h.close uri
  | read uri => exact h
  | configured checks => exact h

theorem distinct_after {s : Shelf} (h : s.documents.Distinct) (ops : List Operation) :
    (s.after r ops).documents.Distinct := by
  induction ops generalizing s with
  | nil => exact h
  | cons op ops ih => exact ih (distinct_step r h op)

/-- What is read at an address is what its last edit left. -/
theorem get?_after (k : Checks) (ops : List Operation) (uri : String) :
    ((Shelf.mk {} k).after r ops).documents.get? uri =
      (lastAt? uri (underChecks k ops)).bind (snapshot? r) := by
  induction ops using List.reverseRec with
  | nil => rfl
  | append_singleton ops op ih =>
    rw [after_concat, get?_step, ih, checks_after, underChecks_concat, lastAt?_concat]
    split <;> rfl

theorem isSome_get?_after (k : Checks) (ops : List Operation) (uri : String) :
    (((Shelf.mk {} k).after r ops).documents.get? uri).isSome =
      isLastOpened (underChecks k ops) uri := by
  rw [get?_after, isLastOpened]
  rcases lastAt? uri (underChecks k ops) with _ | ⟨k', op⟩
  · rfl
  · cases op <;> rfl

/-- **A document is kept as it was last opened.** Reading an address gives the text and the version
of its last opening, the calls of that text, and its diagnostics under the checks in force then,
whatever was done to other addresses or to the checks since. Behind a close, or without an opening,
there is nothing. The addresses that were last opened are as many as there are documents. -/
theorem answer_read_after (k : Checks) (ops : List Operation) :
    (∀ uri, ((Shelf.mk {} k).after r ops).answer r (.read uri) =
      match lastAt? uri (underChecks k ops) with
      | some (inForce, .opened _ text version) =>
        some ⟨text, version, CallSite.findAll text, analyze r inForce text⟩
      | _ => none) ∧
    ((Shelf.mk {} k).after r ops).documents.size = (lastOpened (underChecks k ops)).length ∧
    (((Shelf.mk {} k).after r ops).documents.isEmpty = true ↔
      ((Shelf.mk {} k).after r ops).documents.size = 0) := by
  refine ⟨fun uri => ?_, ?_, Documents.isEmpty_iff⟩
  · rw [answer, get?_after]
    rcases lastAt? uri (underChecks k ops) with _ | ⟨inForce, op⟩
    · rfl
    · cases op <;> rfl
  · refine (distinct_after r Documents.distinct_empty ops).size_eq ?_ ?_
    · exact (List.nodup_dedup _).filter _
    · intro uri
      rw [isSome_get?_after, mem_lastOpened_iff]

/-- A document that is opened again under other checks, next to one that is closed and read. -/
example :
    let ops := [Operation.opened "a" "f()" 1, .configured { unknownFunctions := false },
      .opened "b" "g()" 1, .opened "a" "f(1)" 2, .configured {}, .closed "b", .read "b"]
    lastAt? "a" (underChecks {} ops) =
      some ({ unknownFunctions := false }, .opened "a" "f(1)" 2) ∧
    lastOpened (underChecks {} ops) = ["a"] := by
  decide

end Shelf

end FlowExpr
