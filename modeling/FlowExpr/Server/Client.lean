/-!
# What the editor can do

An editor announces its abilities once, when the session starts. Only three matter here; one that is
not announced is taken as absent.
-/

namespace FlowExpr

/-- The announced abilities of interest. -/
structure ClientCapabilities where
  /-- Reporting changes of the editor's configuration. -/
  configuration : Option Bool := none
  /-- Working on several folders. -/
  workspaceFolders : Option Bool := none
  /-- Showing places related to a diagnostic. -/
  relatedInformation : Option Bool := none
  deriving DecidableEq, Repr, Inhabited

/-- The abilities of the editor. -/
structure ClientAbilities where
  configuration : Bool := false
  workspaceFolders : Bool := false
  relatedInformation : Bool := false
  deriving DecidableEq, Repr, Inhabited

/-- The abilities that are announced as present. -/
def ClientCapabilities.abilities (c : ClientCapabilities) : ClientAbilities :=
  ⟨c.configuration.getD false, c.workspaceFolders.getD false, c.relatedInformation.getD false⟩

end FlowExpr
