import FlowExpr.Proofs.Server.Step

/-!
# A document is what its last edit made it

While a session runs, messages come in about many documents, mixed with questions and with changes
of the editor's own settings. For one address only the last edit counts: the diagnostics that stand
in the editor are those of the text it gave, and every question is answered from that text. Behind
a close, or without an edit, there is nothing to answer from.

**Invariant (`Follows`).** The session runs with its checks settled, the stored document is the one
the last edit left, and the last diagnostics sent are the ones it called for. `follows_step` keeps
it over one message and `follows_after` over any number of them.
-/

namespace FlowExpr

/-! ## What an edit leaves -/

/-- The document that an edit leaves. -/
def Edit.document? (k : Checks) : Edit → Option Document
  | .written text version => some (.ofSource builtins k text version)
  | .closed => none

/-- The text that an edit leaves. -/
def Edit.text? : Edit → Option String
  | .written text _ => some text
  | .closed => none

namespace Session

section

variable {k : Checks} {s : Session}

theorem get?_edited (h : s.settled = some k) (address uri : String) (e : Edit) :
    (s.edited address e).session.documents.get? uri =
      if uri = address then e.document? k else s.documents.get? uri := by
  cases e with
  | written text version => simp [edited, put, checks, h, Edit.document?]
  | closed => simp [edited, Edit.document?]

theorem publications_edited (h : s.settled = some k) (address uri : String) (e : Edit) :
    (s.edited address e).sent.filterMap (Notice.publication? uri) =
      if address = uri then [e.publication k] else [] := by
  rw [sent_edited h]
  by_cases haddress : address = uri <;> simp [Notice.publication?, haddress]

end

theorem Passes.publications {s : Session} {m : Message} {r : Reaction} (h : Passes s m r)
    (uri : String) : r.sent.filterMap (Notice.publication? uri) = [] := by
  rw [List.filterMap_eq_nil_iff]
  intro notice hmem
  cases notice with
  | diagnostics address reports version => exact absurd hmem (h.sent address reports version)
  | register id method => rfl
  | log text => rfl

/-! ## The invariant -/

/-- The session and what it sent follow the last edit at an address. -/
structure Follows (k : Checks) (uri : String) (last : Option Edit) (s : Session)
    (published : Option (List Report × Option Int)) : Prop where
  running : s.stage = .running
  settled : s.settled = some k
  document : s.documents.get? uri = last.bind (Edit.document? k)
  published : published = last.map (Edit.publication k)

section

variable {tree : FileTree} {k : Checks} {uri : String} {last : Option Edit} {s : Session}
  {published : Option (List Report × Option Int)} {m : Message}

/-- Every edit of a document is answered by one publication, and nothing else is. -/
theorem publications_step (hrunning : s.stage = .running) (hsettled : s.settled = some k) :
    (s.step tree m).sent.filterMap (Notice.publication? uri) =
      ((m.editAt? uri).map (Edit.publication k)).toList := by
  rcases step_cases tree s m with ⟨-, address, e, hedit, hstep⟩ | ⟨hfresh, -⟩ | ⟨hnone, hpasses⟩
  · rw [hstep, publications_edited hsettled, Message.editAt?, hedit]
    by_cases haddress : address = uri <;> simp [haddress]
  · rw [hrunning] at hfresh
    cases hfresh
  · rw [hpasses.publications, Message.editAt?, hnone hrunning]
    rfl

theorem follows_step (tree : FileTree) (h : Follows k uri last s published)
    (hm : isEnding m = false) :
    Follows k uri ((m.editAt? uri).or last) (s.step tree m).session
      ((lastPublication? uri (s.step tree m).sent).or published) := by
  have hpublished : (lastPublication? uri (s.step tree m).sent).or published =
      ((m.editAt? uri).or last).map (Edit.publication k) := by
    rw [lastPublication?, publications_step h.running h.settled, h.published]
    cases m.editAt? uri <;> rfl
  rcases step_cases tree s m with ⟨-, address, e, hedit, hstep⟩ | ⟨hfresh, -⟩ | ⟨hnone, hpasses⟩
  · refine ⟨?_, ?_, ?_, hpublished⟩
    · rw [hstep, stage_edited, h.running]
    · rw [hstep, settled_edited h.settled]
    · rw [hstep, get?_edited h.settled, Message.editAt?, hedit, h.document]
      by_cases haddress : uri = address
      · simp [haddress]
      · simp [haddress, Ne.symm haddress]
  · have hrunning := h.running
    rw [hfresh] at hrunning
    cases hrunning
  · obtain ⟨stage, hsession, hkeep, -, -⟩ := hpasses.session
    have heditAt : m.editAt? uri = none := by rw [Message.editAt?, hnone h.running]; rfl
    refine ⟨?_, ?_, ?_, hpublished⟩
    · rw [hsession, ← h.running]
      exact hkeep hm
    · rw [hsession]
      exact h.settled
    · rw [hsession, heditAt]
      exact h.document

theorem follows_after (tree : FileTree) (h : Follows k uri last s published) (ms : List Message)
    (hms : ∀ m ∈ ms, isEnding m = false) :
    Follows k uri ((lastEdit? uri ms).or last) (s.after tree ms)
      ((lastPublication? uri (s.sentDuring tree ms)).or published) := by
  induction ms generalizing s last published with
  | nil => exact h
  | cons m ms ih =>
    have hstep := follows_step tree h (hms m List.mem_cons_self)
    have hrest := ih hstep fun m' hm' => hms m' (List.mem_cons_of_mem _ hm')
    rwa [← Option.or_assoc, ← Option.or_assoc, ← lastEdit?_cons, ← lastPublication?_append,
      ← sentDuring_cons] at hrest

theorem follows_start (tree : FileTree) (p : StartParams) (uri : String) :
    Follows (checksFor tree p) uri none (({} : Session).step tree (.request (.start p))).session
      none :=
  ⟨rfl, rfl, rfl, rfl⟩

/-! ## Questions -/

/-- What is asked about the document at an address is answered from a text, or with nothing if there
is none. -/
structure AnswersFrom (tree : FileTree) (s : Session) (uri : String) (text : Option String) :
    Prop where
  hover : ∀ position, (s.step tree (.request (.hover uri position))).outcome =
    .answer (.hover (text.bind fun t => hoverAt? builtins (.ofSource t) position))
  completion : ∀ position, (s.step tree (.request (.completion uri position))).outcome =
    .answer (.completion (text.bind fun t => completionsAt? builtins (.ofSource t) position))
  tokens : (s.step tree (.request (.tokens uri))).outcome =
    .answer (.tokens (text.map fun t => Highlight.encodedTokens (.ofSource t)))

theorem Follows.answersFrom (h : Follows k uri last s published) (tree : FileTree) :
    AnswersFrom tree s uri (last.bind Edit.text?) := by
  have hask : ∀ r, s.step tree (.request r) = s.ask r := by
    intro r
    simp [step, request, h.running]
  have hdocument := h.document
  have hanswer : ∀ {α : Type} (f : LineTable → Option α),
      ((s.documents.get? uri).bind fun d => f d.lines) =
        (last.bind Edit.text?).bind fun t => f (.ofSource t) := by
    intro α f
    rw [hdocument]
    cases last with
    | none => rfl
    | some e => cases e <;> rfl
  refine ⟨fun position => ?_, fun position => ?_, ?_⟩
  · rw [hask, ask, Session.hover, hanswer fun lines => hoverAt? builtins lines position]
  · rw [hask, ask, Session.completion, hanswer fun lines => completionsAt? builtins lines position]
  · rw [hask, ask, Session.tokens, Option.map_eq_bind, Option.map_eq_bind]
    exact congrArg (fun a => Outcome.answer (Answer.tokens a))
      (hanswer fun lines => some (Highlight.encodedTokens lines))

end

/-- **A document is what its last edit made it.** However long a session runs and whatever it is
told, the diagnostics that stand in the editor and the answers to questions are those of the text
that the last edit left; behind a close, or without an edit, there are none. A message that does not
edit the document sends no diagnostics for it and leaves the answers as they are. -/
theorem follows_lastEdit (tree : FileTree) (p : StartParams) (ms : List Message)
    (hms : ∀ m ∈ ms, isEnding m = false) (uri : String) :
    let started := (({} : Session).step tree (.request (.start p))).session
    let s := started.after tree ms
    let published := lastPublication? uri (started.sentDuring tree ms)
    (match lastEdit? uri ms with
      | some (.written text version) =>
        published = some ((analyze builtins (checksFor tree p) text).map
          (·.report (.ofSource text)), some version) ∧ AnswersFrom tree s uri (some text)
      | some .closed => published = some ([], none) ∧ AnswersFrom tree s uri none
      | none => published = none ∧ AnswersFrom tree s uri none) ∧
    ∀ m, isEnding m = false → m.editAt? uri = none →
      (s.step tree m).sent.filterMap (Notice.publication? uri) = [] ∧
      ∀ text, AnswersFrom tree s uri text → AnswersFrom tree (s.step tree m).session uri text := by
  intro started s published
  have hfollows := follows_after tree (follows_start tree p uri) ms hms
  rw [Option.or_none, Option.or_none] at hfollows
  have hanswers := hfollows.answersFrom tree
  refine ⟨?_, ?_⟩
  · cases hlast : lastEdit? uri ms with
    | none =>
      rw [hlast] at hfollows hanswers
      exact ⟨hfollows.published, hanswers⟩
    | some e =>
      rw [hlast] at hfollows hanswers
      cases e with
      | written text version => exact ⟨hfollows.published, hanswers⟩
      | closed => exact ⟨hfollows.published, hanswers⟩
  · intro m hm hedit
    have hstep := follows_step tree hfollows hm
    rw [hedit, Option.none_or] at hstep
    have hsame := hstep.answersFrom tree
    refine ⟨?_, fun text htext => ⟨fun position => ?_, fun position => ?_, ?_⟩⟩
    · rw [publications_step hfollows.running hfollows.settled, hedit]
      rfl
    · rw [hsame.hover, ← hanswers.hover, htext.hover]
    · rw [hsame.completion, ← hanswers.completion, htext.completion]
    · rw [hsame.tokens, ← hanswers.tokens, htext.tokens]

/-- A document that is changed behind its close has a text again, and an empty change does not take
it away. -/
theorem follows_lastEdit_changed_when_closed :
    let ms : List Message :=
      [.notification (.opened "a" "foo(1)" 1), .notification (.closed "a"),
        .notification (.changed "a" 2 ["x", "bar('y')"]), .notification (.closed "b"),
        .request (.hover "a" ⟨0, 1⟩), .notification (.changed "a" 3 [])]
    let started := (({} : Session).step .empty (.request (.start {}))).session
    (∀ m ∈ ms, isEnding m = false) ∧ lastEdit? "a" ms = some (.written "bar('y')" 2) ∧
      lastPublication? "a" (started.sentDuring .empty ms) =
        some ((analyze builtins (checksFor .empty {}) "bar('y')").map
          (·.report (.ofSource "bar('y')")), some 2) ∧
      AnswersFrom .empty (started.after .empty ms) "a" (some "bar('y')") := by
  intro ms started
  have hms : ∀ m ∈ ms, isEnding m = false := by decide
  have hlast : lastEdit? "a" ms = some (.written "bar('y')" 2) := by decide
  have hfollows := (follows_lastEdit .empty {} ms hms "a").1
  rw [hlast] at hfollows
  exact ⟨hms, hlast, hfollows⟩

end Session

end FlowExpr
