import FlowExpr.Settings.Basic
import FlowExpr.Settings.FileTree

/-!
# Finding settings

Settings for a directory are in the nearest file `settings.toml`: in the directory itself or in one
above it. Only if there is none are the directories directly inside searched. The first file found
settles the matter, also when it turns out to be unusable, which counts as settings that say
nothing.
-/

namespace FlowExpr

/-- The name of settings files. -/
def settingsName : String := "settings.toml"

namespace Settings

/-- The settings at a path of a tree. -/
def read (t : FileTree) (path : TreePath) : Except SettingsError Settings :=
  match t.find? path with
  | some (.file content) => ofContent content
  | some (.directory _) => .error .directory
  | none => .error .missing

/-- The settings at a path of a tree, empty if they cannot be used. -/
def load (t : FileTree) (path : TreePath) : Settings :=
  match read t path with
  | .ok s => s
  | .error _ => {}

/-- Whether a directory has a settings file. -/
def isIn (t : FileTree) (dir : TreePath) : Bool :=
  match t.find? (dir ++ [settingsName]) with
  | some (.file _) => true
  | _ => false

/-- The directories directly inside a path. -/
def childDirectories (t : FileTree) (path : TreePath) : List TreePath :=
  match t.find? path with
  | some (.directory entries) =>
    entries.filterMap fun (name, child) =>
      match child with
      | .directory _ => some (path.child name)
      | .file _ => none
  | _ => []

/-- The directory whose settings apply to a path, if there is one. -/
def locate? (t : FileTree) (start : TreePath) : Option TreePath :=
  (start.upward ++ childDirectories t start).find? (isIn t)

/-- The settings that apply to a path and the directory they are from; the path itself if there are
none. -/
def discover (t : FileTree) (start : TreePath) : Settings × TreePath :=
  match locate? t start with
  | some dir => (load t (dir ++ [settingsName]), dir)
  | none => ({}, start)

end Settings

end FlowExpr
