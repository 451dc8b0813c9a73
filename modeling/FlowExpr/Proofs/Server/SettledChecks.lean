import FlowExpr.Proofs.Server.Step

/-!
# The checks of a session are those of its start

The checks are settled by whatever needs them first, and a document that is analysed while nothing
is settled would settle them to run everything. That this never happens is due to the stages: a
session takes documents only while it runs, it runs only behind its start, and the start settles the
checks from the folder it is given (`StartChecks`).

**Invariant (`Orderly`).** Nothing is settled before the start, and something is while the session
runs. So the start finds nothing settled and an analysis always finds the checks of the start.
-/

namespace FlowExpr

/-- The checks that the start of a session leads to: those of its first folder if that is a local
one, else those of its root if that is local, else all. -/
inductive StartChecks (tree : FileTree) (p : StartParams) : Checks → Prop
  | folder {first : Location} {rest : List Location} {path : TreePath} :
      p.folders = first :: rest → first.path? = some path →
      StartChecks tree p (Settings.discover tree path).1.checks
  | root {location : Location} {path : TreePath} :
      (∀ first ∈ p.folders.head?, first.path? = none) →
      p.root = some location → location.path? = some path →
      StartChecks tree p (Settings.discover tree path).1.checks
  | default :
      (∀ first ∈ p.folders.head?, first.path? = none) →
      (∀ location ∈ p.root, location.path? = none) → StartChecks tree p {}

/-- The start of a session if it was answered. -/
def answeredStart? (exchange : Message × Reaction) : Option StartParams :=
  match exchange.1, exchange.2.outcome with
  | .request (.start p), .answer (.server _) => some p
  | _, _ => none

namespace Session

/-- The first start that was answered. -/
def firstStart? (tree : FileTree) (s : Session) (ms : List Message) : Option StartParams :=
  (ms.zip (s.run tree ms)).findSome? answeredStart?

@[simp] theorem firstStart?_cons (tree : FileTree) (s : Session) (m : Message)
    (ms : List Message) :
    s.firstStart? tree (m :: ms) =
      (answeredStart? (m, s.step tree m)).or ((s.step tree m).session.firstStart? tree ms) := by
  unfold firstStart?
  rw [run, List.zip_cons_cons, List.findSome?_cons]
  cases answeredStart? (m, s.step tree m) <;> rfl

/-! ## The checks of a start -/

theorem startChecks_checksFor (tree : FileTree) (p : StartParams) :
    StartChecks tree p (checksFor tree p) := by
  unfold checksFor StartParams.folder?
  cases hfolder : p.folders.head?.bind Location.path? with
  | some path =>
    obtain ⟨first, hfirst, hpath⟩ := Option.bind_eq_some_iff.1 hfolder
    obtain ⟨rest, hrest⟩ := List.head?_eq_some_iff.1 hfirst
    exact .folder hrest hpath
  | none =>
    have hfirst := Option.bind_eq_none_iff.1 hfolder
    cases hroot : p.root.bind Location.path? with
    | some path =>
      obtain ⟨location, hlocation, hpath⟩ := Option.bind_eq_some_iff.1 hroot
      exact .root hfirst hlocation hpath
    | none => exact .default hfirst (Option.bind_eq_none_iff.1 hroot)

/-- A start leads to one set of checks only. -/
theorem startChecks_iff {tree : FileTree} {p : StartParams} {k : Checks} :
    StartChecks tree p k ↔ checksFor tree p = k := by
  constructor
  · intro h
    unfold checksFor StartParams.folder?
    cases h with
    | folder hfolders hpath => simp [hfolders, hpath]
    | root hfirst hroot hpath =>
      rw [Option.bind_eq_none_iff.2 hfirst]
      simp [hroot, hpath]
    | default hfirst hroot =>
      rw [Option.bind_eq_none_iff.2 hfirst, Option.bind_eq_none_iff.2 hroot]
      rfl
  · rintro rfl
    exact startChecks_checksFor tree p

/-! ## The invariant -/

/-- Nothing is settled before the start, and something is while the session runs. -/
structure Orderly (s : Session) : Prop where
  fresh : s.stage = .fresh → s.settled = none
  running : s.stage = .running → ∃ k, s.settled = some k

theorem orderly_fresh : Orderly {} := ⟨fun _ => rfl, fun h => by cases h⟩

section

variable {tree : FileTree} {s : Session} {m : Message}

theorem answeredStart?_of_passes {r : Reaction} (h : Passes s m r) :
    answeredStart? (m, r) = none := by
  unfold answeredStart?
  split
  · rename_i p info _ houtcome
    exact absurd houtcome (h.outcome info)
  · rfl

theorem answeredStart?_of_edit? {r : Reaction} {e : String × Edit} (h : m.edit? = some e) :
    answeredStart? (m, r) = none := by
  cases m with
  | notification n => rfl
  | _ => simp [Message.edit?] at h

theorem orderly_step (h : Orderly s) : Orderly (s.step tree m).session := by
  rcases step_cases tree s m with
    ⟨hrunning, uri, e, hedit, hstep⟩ | ⟨hfresh, p, rfl, hsession, -, -⟩ | ⟨-, hpasses⟩
  · obtain ⟨k, hk⟩ := h.running hrunning
    rw [hstep]
    refine ⟨fun hfresh => ?_, fun _ => ⟨k, settled_edited hk uri e⟩⟩
    rw [stage_edited, hrunning] at hfresh
    cases hfresh
  · rw [hsession]
    refine ⟨?_, fun _ => ⟨checksFor tree p, ?_⟩⟩
    · intro hstage
      cases hstage
    · simp [start, h.fresh hfresh]
  · obtain ⟨stage, hsession, -, hfresh, hrunning⟩ := hpasses.session
    rw [hsession]
    exact ⟨fun hstage => h.fresh (hfresh hstage), fun hstage => h.running (hrunning hstage)⟩

/-- Nothing but an answered start settles the checks. -/
theorem settled_step (h : Orderly s) :
    (s.step tree m).session.settled =
      s.settled.or ((answeredStart? (m, s.step tree m)).map (checksFor tree)) := by
  rcases step_cases tree s m with
    ⟨hrunning, uri, e, hedit, hstep⟩ | ⟨hfresh, p, rfl, hsession, -, info, houtcome⟩ | ⟨-, hpasses⟩
  · obtain ⟨k, hk⟩ := h.running hrunning
    rw [answeredStart?_of_edit? hedit, hstep, settled_edited hk, hk]
    rfl
  · have hanswered : answeredStart? (.request (.start p), s.step tree (.request (.start p))) =
        some p := by
      simp [answeredStart?, houtcome]
    rw [hanswered, hsession]
    rfl
  · obtain ⟨stage, hsession, -⟩ := hpasses.session
    rw [answeredStart?_of_passes hpasses, hsession]
    exact Option.or_none.symm

theorem orderly_after (h : Orderly s) (ms : List Message) : Orderly (s.after tree ms) := by
  induction ms generalizing s with
  | nil => exact h
  | cons m ms ih => exact ih (orderly_step h)

theorem settled_after (h : Orderly s) (ms : List Message) :
    (s.after tree ms).settled = s.settled.or ((s.firstStart? tree ms).map (checksFor tree)) := by
  induction ms generalizing s with
  | nil => exact Option.or_none.symm
  | cons m ms ih =>
    rw [after_cons, ih (orderly_step h), settled_step h, firstStart?_cons, Option.or_assoc,
      Option.map_or]

/-! ## Publications -/

/-- Diagnostics for a version are those of the text that was just given, by the settled checks. -/
theorem reports_of_mem_sent (h : Orderly s) {uri : String} {reports : List Report} {version : Int}
    (hmem : .diagnostics uri reports (some version) ∈ (s.step tree m).sent) :
    ∃ k text, s.settled = some k ∧ m.edit? = some (uri, .written text version) ∧
      reports = reportsOn k text := by
  rcases step_cases tree s m with
    ⟨hrunning, address, e, hedit, hstep⟩ | ⟨-, p, -, -, hsent, -⟩ | ⟨-, hpasses⟩
  · obtain ⟨k, hk⟩ := h.running hrunning
    rw [hstep, sent_edited hk, List.mem_singleton] at hmem
    cases e with
    | written text version' =>
      obtain ⟨rfl, rfl, rfl⟩ : uri = address ∧ reports = reportsOn k text ∧ version = version' := by
        simpa [Edit.publication] using hmem
      exact ⟨k, text, hk, hedit, rfl⟩
    | closed => simp [Edit.publication] at hmem
  · rw [hsent] at hmem
    cases hmem
  · exact absurd hmem (hpasses.sent uri reports (some version))

end

theorem getElem?_run (tree : FileTree) (s : Session) (ms : List Message) (i : Nat) :
    (s.run tree ms)[i]? = ms[i]?.map fun m => (s.after tree (ms.take i)).step tree m := by
  induction ms generalizing s i with
  | nil => rfl
  | cons m ms ih =>
    cases i with
    | zero => rfl
    | succ i => exact ih (s.step tree m).session i

/-- **The checks of a session are those of its start.** Whatever messages a session gets and in
whatever order, all diagnostics it sends for a version of a document are those that the checks of
its first answered start find in the text just given, and no other message settles or changes the
checks. -/
theorem reports_by_startChecks (tree : FileTree) (ms : List Message) :
    (∀ i r uri reports version, (({} : Session).run tree ms)[i]? = some r →
      .diagnostics uri reports (some version) ∈ r.sent →
      ∃ m p k text, ms[i]? = some m ∧ ({} : Session).firstStart? tree (ms.take i) = some p ∧
        StartChecks tree p k ∧ m.edit? = some (uri, .written text version) ∧
        reports = (analyze builtins k text).map (·.report (.ofSource text))) ∧
    ∀ k, (({} : Session).after tree ms).settled = some k ↔
      ∃ p, ({} : Session).firstStart? tree ms = some p ∧ StartChecks tree p k := by
  have hsettled : ∀ ms k, (({} : Session).after tree ms).settled = some k ↔
      ∃ p, ({} : Session).firstStart? tree ms = some p ∧ StartChecks tree p k := by
    intro ms k
    rw [settled_after orderly_fresh, Option.none_or, Option.map_eq_some_iff]
    simp only [startChecks_iff]
  refine ⟨?_, hsettled ms⟩
  intro i r uri reports version hr hmem
  rw [getElem?_run, Option.map_eq_some_iff] at hr
  obtain ⟨m, hm, rfl⟩ := hr
  obtain ⟨k, text, hk, hedit, hreports⟩ :=
    reports_of_mem_sent (orderly_after orderly_fresh (ms.take i)) hmem
  obtain ⟨p, hp, hstart⟩ := (hsettled (ms.take i) k).1 hk
  exact ⟨m, p, k, text, hm, hp, hstart, hedit, hreports⟩

/-- A document that comes too early settles nothing, and a second start neither: the checks are
those of the settings file in the first folder. -/
theorem reports_by_startChecks_early_document :
    let tree : FileTree :=
      .directory [("settings.toml", .file "[diagnostics]\narity = false\n".toUTF8)]
    let p : StartParams := { root := some .elsewhere, folders := [.folder []] }
    let ms : List Message :=
      [.notification (.opened "a" "concat('x')" 1), .request (.start p), .request (.start {}),
        .notification .configurationChanged, .notification (.opened "a" "concat('x')" 2)]
    ({} : Session).firstStart? tree ms = some p ∧ StartChecks tree p { arity := false } ∧
      (({} : Session).after tree ms).settled = some { arity := false } := by
  intro tree p ms
  have hfirst : ({} : Session).firstStart? tree ms = some p := by decide +kernel
  have hchecks : StartChecks tree p { arity := false } :=
    startChecks_iff.2 (by decide +kernel)
  exact ⟨hfirst, hchecks, ((reports_by_startChecks tree ms).2 _).2 ⟨p, hfirst, hchecks⟩⟩

end Session

end FlowExpr
