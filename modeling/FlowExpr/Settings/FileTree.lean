import FlowExpr.Text.Fields

/-!
# File trees

A tree of directories and files, in which a file is its content.

**Paths** are the steps written between slashes, all of them: a path is reported as it was written.
An empty step and `.` stay where they are and `..` goes to the directory around, so several paths
lead to one place.

**Two readings of `..`.** Looking a path up in a tree goes through every directory it names, so
`a/..` leads nowhere if there is no directory `a` (`FileTree.find?`). An address is settled by the
names alone, without a tree: there `a/..` is the same as no step at all (`TreePath.collapsed`).
-/

namespace FlowExpr

/-- A file or a directory. -/
inductive FileTree where
  | file (content : ByteArray)
  | directory (entries : List (String × FileTree))
  deriving Inhabited

/-! ## Paths -/

/-- Steps from the root of a tree. -/
abbrev TreePath := List String

namespace TreePath

/-- The path of a text with slashes between the steps. -/
def ofText (text : String) : TreePath := (Text.fields '/' text.toList).map String.ofList

/-- Whether a step stays where it is. -/
def isIdle (step : String) : Bool := step = "" || step = "."

/-- The path without the idle steps at its ends. -/
def trimmed (path : TreePath) : TreePath :=
  ((path.dropWhile isIdle).reverse.dropWhile isIdle).reverse

/-- The text of a path. Idle steps at its ends are left out, those inside are kept. -/
def text (path : TreePath) : String := "/".intercalate path.trimmed

/-- The path of an entry of a directory. A slash at the end of the directory's path is the one in
front of the name. -/
def child (path : TreePath) (name : String) : TreePath :=
  (if path.getLast? = some "" then path.dropLast else path) ++ [name]

/-- A path and all paths above it, nearest first. -/
def upward (path : TreePath) : List TreePath :=
  (List.range (path.length + 1)).reverse.map path.take

/-- Puts a step behind the names of an address, last name first. -/
def collapseStep (names : List String) (step : String) : List String :=
  if isIdle step then names
  else if step = ".." then names.tail
  else step :: names

/-- The names that an address comes down to: `..` undoes the name before it, if there is one. -/
def collapsed (path : TreePath) : TreePath := (path.foldl collapseStep []).reverse

end TreePath

/-! ## Trees -/

namespace FileTree

/-- The tree without files. -/
def empty : FileTree := .directory []

/-- What a directory holds; nothing for a file. -/
def entries : FileTree → List (String × FileTree)
  | .file _ => []
  | .directory entries => entries

/-- What a path leads to from a place in a tree, given the directories around that place, innermost
first. No step leads on from a file, and none leads out of the tree. -/
def follow (around : List FileTree) (t : FileTree) : TreePath → Option FileTree
  | [] => some t
  | step :: path =>
    match t with
    | .file _ => none
    | .directory entries =>
      if TreePath.isIdle step then follow around t path
      else if step = ".." then
        match around with
        | [] => none
        | outer :: around => follow around outer path
      else (entries.lookup step).bind fun inner => follow (t :: around) inner path

/-- What stands at a path. -/
def find? (t : FileTree) (path : TreePath) : Option FileTree := follow [] t path

/-- Puts an entry into a directory, in place of the one of that name. -/
def setEntry (name : String) (t : FileTree) : List (String × FileTree) → List (String × FileTree)
  | [] => [(name, t)]
  | entry :: rest => if entry.1 = name then (name, t) :: rest else entry :: setEntry name t rest

/-- Changes what stands under the given names. The directories on the way are made if they are
missing. -/
def update (change : Option FileTree → FileTree) : Option FileTree → List String → FileTree
  | t, [] => change t
  | t, name :: names =>
    let entries := (t.getD empty).entries
    .directory (setEntry name (update change (entries.lookup name) names) entries)

/-- The tree with a directory at a path and at every path above it. -/
def addDirectory (t : FileTree) (path : TreePath) : FileTree :=
  path.upward.foldr (fun above t => update (·.getD empty) (some t) above.collapsed) t

/-- The tree with a file at a path. -/
def addFile (t : FileTree) (path : TreePath) (content : ByteArray) : FileTree :=
  update (fun _ => .file content) (some (t.addDirectory path.dropLast)) path.collapsed

/-- The tree of the given directories and files. -/
def ofListing (directories : List TreePath) (files : List (TreePath × ByteArray)) : FileTree :=
  files.foldl (fun t (path, content) => t.addFile path content)
    (directories.foldl addDirectory empty)

end FileTree

end FlowExpr
