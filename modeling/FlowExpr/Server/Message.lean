import FlowExpr.Editor.Completion
import FlowExpr.Editor.Hover
import FlowExpr.Editor.Report
import FlowExpr.Highlight.Encode
import FlowExpr.Server.Client
import FlowExpr.Settings.FileTree

/-!
# Messages

What an editor sends in a session, and what it gets: an answer to each request, and on its own
account reports of diagnostics and a few notices.
-/

namespace FlowExpr

/-- Where a folder is. -/
inductive Location where
  /-- At an address in the local file tree. -/
  | folder (address : TreePath)
  /-- Anywhere else. -/
  | elsewhere
  deriving DecidableEq, Repr, Inhabited

/-- The path of a local folder: what its address comes down to. -/
def Location.path? : Location → Option TreePath
  | .folder address => some address.collapsed
  | .elsewhere => none

/-- What an editor says when a session starts. -/
structure StartParams where
  capabilities : ClientCapabilities := {}
  root : Option Location := none
  folders : List Location := []
  deriving DecidableEq, Repr, Inhabited

/-- The local folder of a session: its first folder, or else its root. -/
def StartParams.folder? (p : StartParams) : Option TreePath :=
  (p.folders.head?.bind Location.path?).or (p.root.bind Location.path?)

/-- A message that expects an answer. -/
inductive Request where
  | start (params : StartParams)
  | hover (uri : String) (position : Position)
  | completion (uri : String) (position : Position)
  | tokens (uri : String)
  | shutdown
  deriving DecidableEq, Repr, Inhabited

/-- A message that expects no answer. -/
inductive Notification where
  | initialized
  | opened (uri : String) (text : String) (version : Int)
  /-- Each text is the whole document; the last one counts. -/
  | changed (uri : String) (version : Int) (texts : List String)
  | closed (uri : String)
  | configurationChanged
  | foldersChanged
  deriving DecidableEq, Repr, Inhabited

/-- A message of the editor. -/
inductive Message where
  | request (request : Request)
  | notification (notification : Notification)
  /-- The end of the session. -/
  | exit
  /-- A request by a method that is not known. -/
  | unknown (method : String)
  deriving DecidableEq, Repr, Inhabited

/-- What the server announces when a session starts. -/
structure ServerInfo where
  name : String := "paexpr-lsp"
  version : String := "0.1.0"
  /-- Documents are sent whole. -/
  documentSync : Nat := 1
  /-- Characters that ask for completion. -/
  triggerCharacters : List String := ["@", "."]
  tokenTypes : List String := Highlight.legend
  /-- Whether several folders are supported. -/
  workspaceFolders : Bool
  deriving DecidableEq, Repr, Inhabited

/-- The answer to a request that succeeded. -/
inductive Answer where
  | server (info : ServerInfo)
  | hover (hover : Option Hover)
  | completion (items : Option (List CompletionItem))
  | tokens (tokens : Option (List Highlight.EncodedToken))
  /-- Nothing to say. -/
  | done
  deriving DecidableEq, Repr, Inhabited

/-- Why a request fails. -/
inductive RequestError where
  /-- The session has not started. -/
  | notInitialized
  /-- The request cannot be made now. -/
  | invalidRequest
  | methodNotFound
  deriving DecidableEq, Repr, Inhabited

namespace RequestError

/-- The number of an error. -/
def code : RequestError → Int
  | notInitialized => -32002
  | invalidRequest => -32600
  | methodNotFound => -32601

def message : RequestError → String
  | notInitialized => "Server not initialized"
  | invalidRequest => "Invalid request"
  | methodNotFound => "Method not found"

end RequestError

/-- What the server sends on its own account. -/
inductive Notice where
  /-- The diagnostics of a document, in place of those sent before. -/
  | diagnostics (uri : String) (reports : List Report) (version : Option Int)
  /-- Asks to be told of a kind of event. Expects an answer. -/
  | register (id : String) (method : String)
  /-- A line for the editor's log. -/
  | log (text : String)
  deriving DecidableEq, Repr, Inhabited

/-- What becomes of a message. -/
inductive Outcome where
  /-- It needs no answer. -/
  | silent
  | answer (answer : Answer)
  | failure (error : RequestError)
  /-- The session has ended. -/
  | exited
  deriving DecidableEq, Repr, Inhabited

end FlowExpr
