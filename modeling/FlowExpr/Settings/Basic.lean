import FlowExpr.Analysis.Checks
import FlowExpr.Toml.Document

/-!
# Settings

A settings file has one table of interest, `diagnostics`, that switches checks and exempts names.
Every key of it may be left out, which leaves the check on. Other keys are ignored; a key of
interest with a value of the wrong type makes the file unusable.

The values may also be listed by position instead of under their keys, in the order in which
`CheckSettings` has them, and then none may be left out. A date in place of the table counts as
a table without keys of interest.
-/

namespace FlowExpr

/-- What a settings file says about diagnostics. -/
structure CheckSettings where
  unknownFunctions : Option Bool := none
  arity : Option Bool := none
  typeMismatches : Option Bool := none
  /-- Names that are never unknown. -/
  exempt : Option (List String) := none
  deriving DecidableEq, Repr, Inhabited

/-- What a settings file says. -/
structure Settings where
  diagnostics : Option CheckSettings := none
  deriving DecidableEq, Repr, Inhabited

/-! ## Reading values -/

namespace Toml.Value

def bool? : Value → Option Bool
  | .boolean b => some b
  | _ => none

def text? : Value → Option String
  | .text s => some s
  | _ => none

def texts? : Value → Option (List String)
  | .array items => items.mapM text?
  | _ => none

end Toml.Value

/-- The value under a key, nothing if the key is missing. Fails if the value has the wrong type. -/
def Toml.Entries.optional? (es : Toml.Entries) (key : String) (read : Toml.Value → Option α) :
    Option (Option α) :=
  match es.lookup key with
  | some v => (read v).map some
  | none => some none

namespace CheckSettings

/-- The settings in a table. -/
def ofEntries? (es : Toml.Entries) : Option CheckSettings := do
  let unknownFunctions ← es.optional? "unknown_functions" Toml.Value.bool?
  let arity ← es.optional? "arity" Toml.Value.bool?
  let typeMismatches ← es.optional? "type_mismatches" Toml.Value.bool?
  let exempt ← es.optional? "exempt" Toml.Value.texts?
  return ⟨unknownFunctions, arity, typeMismatches, exempt⟩

/-- The settings that a value gives, by key or by position. -/
def ofValue? : Toml.Value → Option CheckSettings
  | .table _ es => ofEntries? es
  | .array (unknownFunctions :: arity :: typeMismatches :: exempt :: _) => do
    return ⟨← unknownFunctions.bool?, ← arity.bool?, ← typeMismatches.bool?, ← exempt.texts?⟩
  | .moment _ => some {}
  | _ => none

end CheckSettings

/-! ## Settings files -/

/-- Why a settings file cannot be used. -/
inductive SettingsError where
  /-- There is no such file. -/
  | missing
  /-- A directory has the file's name. -/
  | directory
  /-- The file is not UTF-8. -/
  | notText
  /-- The file is no TOML document. -/
  | malformed (cause : Toml.Error)
  /-- A value has the wrong type. -/
  | illTyped
  deriving DecidableEq, Repr, Inhabited

namespace Settings

/-- The settings in a document. -/
def ofEntries (es : Toml.Entries) : Except SettingsError Settings :=
  match es.optional? "diagnostics" CheckSettings.ofValue? with
  | some diagnostics => .ok ⟨diagnostics⟩
  | none => .error .illTyped

/-- The settings in the text of a file. -/
def ofText (text : String) : Except SettingsError Settings :=
  match Toml.read text with
  | .ok es => ofEntries es
  | .error cause => .error (.malformed cause)

/-- The settings in the content of a file. -/
def ofContent (content : ByteArray) : Except SettingsError Settings :=
  match String.fromUTF8? content with
  | some text => ofText text
  | none => .error .notText

/-- The checks that the settings ask for. -/
def checks (s : Settings) : Checks :=
  match s.diagnostics with
  | none => {}
  | some d =>
    let switches : Checks :=
      { unknownFunctions := d.unknownFunctions.getD true
        arity := d.arity.getD true
        typeMismatches := d.typeMismatches.getD true }
    switches.exempting (d.exempt.getD [])

end Settings

end FlowExpr
