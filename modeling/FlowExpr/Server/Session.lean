import FlowExpr.Function.Builtin
import FlowExpr.Server.Documents
import FlowExpr.Server.Message
import FlowExpr.Settings.Locate

/-!
# Editor sessions

A session goes through four stages: it is started by a request, ended by `shutdown`, and left by
`exit`.

**Before the start** every other request fails and notifications have no effect. **While it runs**
documents are analysed as they come in and their diagnostics are sent. **After `shutdown`** requests
fail and notifications have no effect again. `exit` is heeded at every stage.

**Checks.** The checks of a session are settled once, by whatever needs them first, and then stay.
The start settles them from the settings of the session's folder. A document that came in before
the start would settle them to run everything, so it matters that none is let in.

**Documents.** What is asked about a document is answered from the text it was last given, and
with nothing for a document that is not open.
-/

namespace FlowExpr

/-- How far a session has come. -/
inductive Stage where
  | fresh
  | running
  | shutDown
  | exited
  deriving DecidableEq, Repr, Inhabited

/-- A session between two messages. -/
structure Session where
  stage : Stage := .fresh
  /-- What the editor can do, once it has said so. -/
  announced : Option ClientAbilities := none
  /-- The checks of the session, once they are settled. -/
  settled : Option Checks := none
  documents : Documents := {}
  deriving DecidableEq, Repr, Inhabited

/-- What a message leads to. -/
structure Reaction where
  session : Session
  /-- What is sent to the editor, in order. -/
  sent : List Notice := []
  outcome : Outcome := .silent
  deriving DecidableEq, Repr, Inhabited

namespace Session

/-! ## Running sessions -/

/-- What the editor can do. One that has said nothing can do nothing. -/
def abilities (s : Session) : ClientAbilities := s.announced.getD {}

/-- The checks to run. Every check runs until it is settled otherwise. -/
def checks (s : Session) : Checks := s.settled.getD {}

/-- The checks for the folder of a session. -/
def checksFor (tree : FileTree) (p : StartParams) : Checks :=
  match p.folder? with
  | some folder => (Settings.discover tree folder).1.checks
  | none => {}

/-- Starts the session. What was announced or settled before stays. -/
def start (tree : FileTree) (s : Session) (p : StartParams) : Session :=
  { s with
    stage := .running
    announced := s.announced.or (some p.capabilities.abilities)
    settled := s.settled.or (some (checksFor tree p)) }

/-- The text of a document as it is now. Its analysis settles the checks. -/
def put (s : Session) (uri text : String) (version : Int) : Reaction :=
  let d := Document.ofSource builtins s.checks text version
  { session := { s with settled := some s.checks, documents := s.documents.insert uri d }
    sent := [.diagnostics uri (d.diagnostics.map (·.report d.lines)) (some version)] }

/-- The request to be told when the editor's configuration changes. -/
def configurationNotice : Notice :=
  .register "paexpr-lsp-configuration" "workspace/didChangeConfiguration"

/-- What a notification leads to. -/
def notify (s : Session) : Notification → Reaction
  | .initialized =>
    { session := s
      sent := (if s.abilities.configuration then [configurationNotice] else []) ++
        [.log "Workflow expression language server initialized"] }
  | .opened uri text version => s.put uri text version
  | .changed uri version texts =>
    match texts.getLast? with
    | some text => s.put uri text version
    | none => { session := s }
  | .closed uri =>
    { session := { s with documents := s.documents.close uri }
      sent := [.diagnostics uri [] none] }
  | .configurationChanged | .foldersChanged => { session := s }

/-- The answer to a question about a document. -/
def hover (s : Session) (uri : String) (p : Position) : Option Hover :=
  (s.documents.get? uri).bind fun d => hoverAt? builtins d.lines p

def completion (s : Session) (uri : String) (p : Position) : Option (List CompletionItem) :=
  (s.documents.get? uri).bind fun d => completionsAt? builtins d.lines p

def tokens (s : Session) (uri : String) : Option (List Highlight.EncodedToken) :=
  (s.documents.get? uri).map fun d => Highlight.encodedTokens d.lines

/-- What a request leads to in a running session. -/
def ask (s : Session) : Request → Reaction
  | .start _ => { session := s, outcome := .failure .invalidRequest }
  | .hover uri p => { session := s, outcome := .answer (.hover (s.hover uri p)) }
  | .completion uri p => { session := s, outcome := .answer (.completion (s.completion uri p)) }
  | .tokens uri => { session := s, outcome := .answer (.tokens (s.tokens uri)) }
  | .shutdown => { session := { s with stage := .shutDown }, outcome := .answer .done }

/-! ## All sessions -/

/-- What a request leads to. -/
def request (tree : FileTree) (s : Session) (r : Request) : Reaction :=
  match s.stage with
  | .fresh =>
    match r with
    | .start p =>
      { session := s.start tree p
        outcome :=
          .answer (.server { workspaceFolders := p.capabilities.abilities.workspaceFolders }) }
    | _ => { session := s, outcome := .failure .notInitialized }
  | .running => s.ask r
  | .shutDown => { session := s, outcome := .failure .invalidRequest }
  | .exited => { session := s, outcome := .exited }

/-- Whether requests by an unknown method go without an answer. -/
def isIgnorable (method : String) : Bool := "$/".toList.isPrefixOf method.toList

/-- What a message leads to. -/
def step (tree : FileTree) (s : Session) (m : Message) : Reaction :=
  if s.stage = .exited then { session := s, outcome := .exited }
  else
    match m with
    | .request r => s.request tree r
    | .notification n => if s.stage = .running then s.notify n else { session := s }
    | .exit => { session := { s with stage := .exited } }
    | .unknown method =>
      { session := s
        outcome := if isIgnorable method then .silent else .failure .methodNotFound }

/-- What the messages of a session lead to, one after the other. -/
def run (tree : FileTree) (s : Session) : List Message → List Reaction
  | [] => []
  | m :: ms =>
    let reaction := s.step tree m
    reaction :: run tree reaction.session ms

end Session

end FlowExpr
