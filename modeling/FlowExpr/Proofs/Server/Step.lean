import FlowExpr.Server.Session

/-!
# What one message does to a session

Of all messages only a few say something about a document: an opened document has a text, a changed
one has the last of its new texts, a closed one is gone. `Message.edit?` reads this off a message
alone, without looking at a session.

**Theorem (`step_cases`).** A message does one of three things.

* A running session takes an edit (`edited`): it keeps or forgets the document and sends its
  diagnostics.
* A fresh session is started.
* Nothing happens but a change of the stage, and no diagnostics are sent.

What holds of every session is proved from these three cases; `step` is not opened again.
-/

namespace FlowExpr

/-! ## Edits -/

/-- What becomes of a document. -/
inductive Edit where
  /-- It has this text now. -/
  | written (text : String) (version : Int)
  /-- It is closed. -/
  | closed
  deriving DecidableEq, Repr

/-- The document that a message is about and what becomes of it. A change without a text says
nothing. -/
def Message.edit? : Message → Option (String × Edit)
  | .notification (.opened uri text version) => some (uri, .written text version)
  | .notification (.changed uri version texts) =>
    texts.getLast?.map fun text => (uri, .written text version)
  | .notification (.closed uri) => some (uri, .closed)
  | _ => none

/-- What a message makes of the document at an address. -/
def Message.editAt? (uri : String) (m : Message) : Option Edit :=
  m.edit?.bind fun (address, edit) => if address = uri then some edit else none

/-- What becomes of the document at an address last. -/
def lastEdit? (uri : String) (ms : List Message) : Option Edit :=
  (ms.filterMap (Message.editAt? uri)).getLast?

theorem lastEdit?_cons (uri : String) (m : Message) (ms : List Message) :
    lastEdit? uri (m :: ms) = (lastEdit? uri ms).or (m.editAt? uri) := by
  unfold lastEdit?
  cases h : m.editAt? uri with
  | none => rw [List.filterMap_cons_none h, Option.or_none]
  | some edit =>
    rw [List.filterMap_cons_some h, List.getLast?_cons]
    cases (ms.filterMap (Message.editAt? uri)).getLast? <;> rfl

/-! ## Publications -/

/-- The diagnostics that a notice gives for the document at an address, and for which version. -/
def Notice.publication? (uri : String) : Notice → Option (List Report × Option Int)
  | .diagnostics address reports version =>
    if address = uri then some (reports, version) else none
  | _ => none

/-- What was sent last about the document at an address. -/
def lastPublication? (uri : String) (sent : List Notice) : Option (List Report × Option Int) :=
  (sent.filterMap (Notice.publication? uri)).getLast?

theorem lastPublication?_append (uri : String) (a b : List Notice) :
    lastPublication? uri (a ++ b) = (lastPublication? uri b).or (lastPublication? uri a) := by
  unfold lastPublication?
  rw [List.filterMap_append, List.getLast?_append]

/-- The reports on a text. -/
def reportsOn (k : Checks) (text : String) : List Report :=
  (analyze builtins k text).map (·.report (.ofSource text))

/-- The diagnostics that an edit calls for, and the version they are for. -/
def Edit.publication (k : Checks) : Edit → List Report × Option Int
  | .written text version => (reportsOn k text, some version)
  | .closed => ([], none)

namespace Session

/-! ## Taking an edit -/

/-- What an edit leads to. -/
def edited (s : Session) (uri : String) : Edit → Reaction
  | .written text version => s.put uri text version
  | .closed =>
    { session := { s with documents := s.documents.close uri }
      sent := [.diagnostics uri [] none] }

theorem stage_edited (s : Session) (uri : String) (e : Edit) :
    (s.edited uri e).session.stage = s.stage := by
  cases e <;> rfl

section

variable {k : Checks} {s : Session}

/-- Where the checks are settled an edit keeps them. -/
theorem settled_edited (h : s.settled = some k) (uri : String) (e : Edit) :
    (s.edited uri e).session.settled = some k := by
  cases e with
  | written text version => simp [edited, put, checks, h]
  | closed => exact h

theorem sent_edited (h : s.settled = some k) (uri : String) (e : Edit) :
    (s.edited uri e).sent = [.diagnostics uri (e.publication k).1 (e.publication k).2] := by
  cases e with
  | written text version =>
    simp only [edited, put, checks, h, Option.getD_some]
    rfl
  | closed => rfl

end

/-! ## One message -/

/-- The message ends the session or prepares its end. -/
def isEnding : Message → Bool
  | .request .shutdown => true
  | .exit => true
  | _ => false

/-- The message passes without a trace: no document changes, no diagnostics are sent, no start is
answered, and the session goes on as long as the message does not end it. -/
structure Passes (s : Session) (m : Message) (r : Reaction) : Prop where
  session : ∃ stage, r.session = { s with stage } ∧ (isEnding m = false → stage = s.stage) ∧
    (stage = .fresh → s.stage = .fresh) ∧ (stage = .running → s.stage = .running)
  sent : ∀ uri reports version, .diagnostics uri reports version ∉ r.sent
  outcome : ∀ info, r.outcome ≠ .answer (.server info)

/-- A message that changes nothing but perhaps adds a notice passes. -/
theorem passes_of_session_eq {s : Session} {m : Message} {r : Reaction} (hsession : r.session = s)
    (hsent : ∀ uri reports version, .diagnostics uri reports version ∉ r.sent)
    (houtcome : ∀ info, r.outcome ≠ .answer (.server info)) : Passes s m r :=
  ⟨⟨s.stage, by rw [hsession], fun _ => rfl, id, id⟩, hsent, houtcome⟩

/-- A request passes unless it starts the session. -/
theorem passes_request {tree : FileTree} {s : Session} {r : Request}
    (h : s.stage = .fresh → ∀ p, r ≠ .start p) : Passes s (.request r) (s.request tree r) := by
  unfold request
  cases hstage : s.stage with
  | fresh =>
    cases r with
    | start p => exact absurd rfl (h hstage p)
    | _ => exact passes_of_session_eq rfl (by simp) (by simp)
  | running =>
    cases r with
    | shutdown =>
      exact ⟨⟨.shutDown, rfl, by simp [isEnding], by simp, by simp⟩, by simp [ask], by simp [ask]⟩
    | _ => exact passes_of_session_eq rfl (by simp [ask]) (by simp [ask])
  | shutDown => exact passes_of_session_eq rfl (by simp) (by simp)
  | exited => exact passes_of_session_eq rfl (by simp) (by simp)

/-- A notification that is no edit passes. -/
theorem passes_notify {s : Session} {n : Notification}
    (h : (Message.notification n).edit? = none) : Passes s (.notification n) (s.notify n) := by
  cases n with
  | initialized =>
    refine passes_of_session_eq rfl ?_ (by simp [notify])
    intro uri reports version hmem
    simp only [notify, List.mem_append, List.mem_singleton, reduceCtorEq, or_false] at hmem
    split at hmem <;> simp [configurationNotice] at hmem
  | opened uri text version => simp [Message.edit?] at h
  | changed uri version texts =>
    have hnone : texts.getLast? = none := by simpa [Message.edit?] using h
    exact passes_of_session_eq (by simp [notify, hnone]) (by simp [notify, hnone])
      (by simp [notify, hnone])
  | closed uri => simp [Message.edit?] at h
  | configurationChanged => exact passes_of_session_eq rfl (by simp [notify]) (by simp [notify])
  | foldersChanged => exact passes_of_session_eq rfl (by simp [notify]) (by simp [notify])

theorem notify_of_edit? {s : Session} {n : Notification} {uri : String} {edit : Edit}
    (h : (Message.notification n).edit? = some (uri, edit)) : s.notify n = s.edited uri edit := by
  cases n with
  | opened address text version =>
    obtain ⟨rfl, rfl⟩ : address = uri ∧ Edit.written text version = edit := by
      simpa [Message.edit?] using h
    rfl
  | changed address version texts =>
    obtain ⟨text, htext, rfl, rfl⟩ :
        ∃ text, texts.getLast? = some text ∧ address = uri ∧ Edit.written text version = edit := by
      simpa [Message.edit?] using h
    simp [notify, edited, htext]
  | closed address =>
    obtain ⟨rfl, rfl⟩ : address = uri ∧ Edit.closed = edit := by simpa [Message.edit?] using h
    rfl
  | _ => simp [Message.edit?] at h

/-- **Everything a message can do.** -/
theorem step_cases (tree : FileTree) (s : Session) (m : Message) :
    (s.stage = .running ∧
      ∃ uri edit, m.edit? = some (uri, edit) ∧ s.step tree m = s.edited uri edit) ∨
    (s.stage = .fresh ∧ ∃ p, m = .request (.start p) ∧
      (s.step tree m).session = s.start tree p ∧ (s.step tree m).sent = [] ∧
      ∃ info, (s.step tree m).outcome = .answer (.server info)) ∨
    ((s.stage = .running → m.edit? = none) ∧ Passes s m (s.step tree m)) := by
  by_cases hexited : s.stage = .exited
  · refine Or.inr (Or.inr ⟨by simp [hexited], ?_⟩)
    unfold step
    rw [if_pos hexited]
    exact passes_of_session_eq rfl (by simp) (by simp)
  · unfold step
    rw [if_neg hexited]
    cases m with
    | request r =>
      by_cases hstart : s.stage = .fresh ∧ ∃ p, r = .start p
      · obtain ⟨hfresh, p, rfl⟩ := hstart
        refine Or.inr (Or.inl ⟨hfresh, p, rfl, ?_, ?_, ?_⟩)
        · simp [request, hfresh]
        · simp [request, hfresh]
        · exact ⟨{ workspaceFolders := p.capabilities.abilities.workspaceFolders },
            by simp [request, hfresh]⟩
      · refine Or.inr (Or.inr ⟨fun _ => rfl, passes_request ?_⟩)
        intro hfresh p hp
        exact hstart ⟨hfresh, p, hp⟩
    | notification n =>
      by_cases hrunning : s.stage = .running
      · simp only [if_pos hrunning]
        cases hedit : (Message.notification n).edit? with
        | none => exact Or.inr (Or.inr ⟨fun _ => rfl, passes_notify hedit⟩)
        | some e => exact Or.inl ⟨hrunning, e.1, e.2, rfl, notify_of_edit? hedit⟩
      · simp only [if_neg hrunning]
        refine Or.inr (Or.inr ⟨fun h => absurd h hrunning, ?_⟩)
        exact passes_of_session_eq rfl (by simp) (by simp)
    | exit =>
      refine Or.inr (Or.inr ⟨fun _ => rfl, ⟨.exited, rfl, ?_, ?_, ?_⟩, ?_, ?_⟩) <;>
        simp [isEnding]
    | unknown method =>
      refine Or.inr (Or.inr ⟨fun _ => rfl, passes_of_session_eq rfl (by simp) ?_⟩)
      intro info
      simp only
      split <;> simp

/-! ## Many messages -/

/-- The session behind a list of messages. -/
def after (tree : FileTree) (s : Session) (ms : List Message) : Session :=
  ms.foldl (fun s m => (s.step tree m).session) s

/-- Everything that is sent during a list of messages. -/
def sentDuring (tree : FileTree) (s : Session) (ms : List Message) : List Notice :=
  (s.run tree ms).flatMap Reaction.sent

@[simp] theorem after_nil (tree : FileTree) (s : Session) : s.after tree [] = s := rfl

@[simp] theorem after_cons (tree : FileTree) (s : Session) (m : Message) (ms : List Message) :
    s.after tree (m :: ms) = (s.step tree m).session.after tree ms := rfl

@[simp] theorem sentDuring_cons (tree : FileTree) (s : Session) (m : Message) (ms : List Message) :
    s.sentDuring tree (m :: ms) =
      (s.step tree m).sent ++ (s.step tree m).session.sentDuring tree ms := by
  simp [sentDuring, run]

end Session

end FlowExpr
